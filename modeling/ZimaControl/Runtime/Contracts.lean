import ZimaControl.Lib.Utf8

/-!
# The protocol of the runtime adapter

`application-runtime-contracts`: the operations, outcomes and error codes of the adapter daemon, its
request and response with their validation, and their frames of four bytes of length and UTF-8 JSON.
What the daemon sends is checked for shape only; an outcome or error code outside the enumeration is
`Unchecked.foreign`.
-/

namespace ZimaControl

/-! ## Constants -/

/-- `APPLICATION_RUNTIME_PROTOCOL_VERSION`. -/
def applicationRuntimeProtocolVersion : JsString := js "zcc-runtime-ipc-v1"

/-- `FRAME_HEADER_BYTES`. -/
def frameHeaderBytes : ℕ := 4

/-- `MAX_REQUEST_FRAME_BYTES`. -/
def maxRequestFrameBytes : ℕ := 64 * 1024

/-- `MAX_RESPONSE_FRAME_BYTES`. -/
def maxResponseFrameBytes : ℕ := 1024 * 1024

/-- `MIN_TIMEOUT_MS`. -/
def minTimeoutMs : ℕ := 1000

/-- `MAX_TIMEOUT_MS`. -/
def maxTimeoutMs : ℕ := 300000

/-! ## Outcomes and codes -/

/-- `AdapterOutcome`. -/
inductive AdapterOutcome
  | succeeded
  | rejected
  | failedPrecondition
  | executionFailed
  | verificationFailed
  | timedOut
  deriving DecidableEq

namespace AdapterOutcome

/-- The outcome as it travels. -/
def text : AdapterOutcome → String
  | succeeded => "SUCCEEDED"
  | rejected => "REJECTED"
  | failedPrecondition => "FAILED_PRECONDITION"
  | executionFailed => "EXECUTION_FAILED"
  | verificationFailed => "VERIFICATION_FAILED"
  | timedOut => "TIMED_OUT"

/-- `ADAPTER_OUTCOMES`. -/
def all : List AdapterOutcome :=
  [succeeded, rejected, failedPrecondition, executionFailed, verificationFailed, timedOut]

end AdapterOutcome

/-- `AdapterErrorCode`. -/
inductive AdapterErrorCode
  | malformedRequest
  | unsupportedProtocolVersion
  | unknownOperation
  | peerUnauthorized
  | requestDeadlineExceeded
  | applicationNotFound
  | deploymentNotFound
  | revisionMismatch
  | serviceTopologyEmpty
  | containerNotFound
  | unexpectedContainer
  | containerCreationProhibited
  | crossApplicationTargetingDenied
  | operationInProgress
  | dockerUnavailable
  | dockerPermissionDenied
  | dockerTimeout
  | actionRejectedByDocker
  | containerCrashed
  | containerOomKilled
  | postStartVerificationFailed
  | postStopVerificationFailed
  | postRestartVerificationFailed
  | serviceHealthDegraded
  | internalAdapterError
  deriving DecidableEq

namespace AdapterErrorCode

/-- The code as it travels. -/
def text : AdapterErrorCode → String
  | malformedRequest => "MALFORMED_REQUEST"
  | unsupportedProtocolVersion => "UNSUPPORTED_PROTOCOL_VERSION"
  | unknownOperation => "UNKNOWN_OPERATION"
  | peerUnauthorized => "PEER_UNAUTHORIZED"
  | requestDeadlineExceeded => "REQUEST_DEADLINE_EXCEEDED"
  | applicationNotFound => "APPLICATION_NOT_FOUND"
  | deploymentNotFound => "DEPLOYMENT_NOT_FOUND"
  | revisionMismatch => "REVISION_MISMATCH"
  | serviceTopologyEmpty => "SERVICE_TOPOLOGY_EMPTY"
  | containerNotFound => "CONTAINER_NOT_FOUND"
  | unexpectedContainer => "UNEXPECTED_CONTAINER"
  | containerCreationProhibited => "CONTAINER_CREATION_PROHIBITED"
  | crossApplicationTargetingDenied => "CROSS_APPLICATION_TARGETING_DENIED"
  | operationInProgress => "OPERATION_IN_PROGRESS"
  | dockerUnavailable => "DOCKER_UNAVAILABLE"
  | dockerPermissionDenied => "DOCKER_PERMISSION_DENIED"
  | dockerTimeout => "DOCKER_TIMEOUT"
  | actionRejectedByDocker => "ACTION_REJECTED_BY_DOCKER"
  | containerCrashed => "CONTAINER_CRASHED"
  | containerOomKilled => "CONTAINER_OOM_KILLED"
  | postStartVerificationFailed => "POST_START_VERIFICATION_FAILED"
  | postStopVerificationFailed => "POST_STOP_VERIFICATION_FAILED"
  | postRestartVerificationFailed => "POST_RESTART_VERIFICATION_FAILED"
  | serviceHealthDegraded => "SERVICE_HEALTH_DEGRADED"
  | internalAdapterError => "INTERNAL_ADAPTER_ERROR"

/-- `ADAPTER_ERROR_CODES`. -/
def all : List AdapterErrorCode :=
  [malformedRequest, unsupportedProtocolVersion, unknownOperation, peerUnauthorized,
    requestDeadlineExceeded, applicationNotFound, deploymentNotFound, revisionMismatch,
    serviceTopologyEmpty, containerNotFound, unexpectedContainer, containerCreationProhibited,
    crossApplicationTargetingDenied, operationInProgress, dockerUnavailable,
    dockerPermissionDenied, dockerTimeout, actionRejectedByDocker, containerCrashed,
    containerOomKilled, postStartVerificationFailed, postStopVerificationFailed,
    postRestartVerificationFailed, serviceHealthDegraded, internalAdapterError]

end AdapterErrorCode

/-- `outcomeForErrorCode`. -/
def outcomeForErrorCode : AdapterErrorCode → AdapterOutcome
  | .malformedRequest | .unsupportedProtocolVersion | .unknownOperation | .peerUnauthorized =>
    .rejected
  | .requestDeadlineExceeded => .timedOut
  | .applicationNotFound | .deploymentNotFound | .revisionMismatch | .serviceTopologyEmpty
  | .containerNotFound | .unexpectedContainer | .containerCreationProhibited
  | .crossApplicationTargetingDenied | .operationInProgress => .failedPrecondition
  | .dockerUnavailable | .dockerPermissionDenied | .dockerTimeout | .actionRejectedByDocker
  | .containerCrashed | .containerOomKilled => .executionFailed
  | .postStartVerificationFailed | .postStopVerificationFailed | .postRestartVerificationFailed
  | .serviceHealthDegraded => .verificationFailed
  | .internalAdapterError => .executionFailed

/-- A value that is typed as an `α` but was not checked to be one. -/
inductive Unchecked (α : Type)
  /-- A member of the enumeration. -/
  | known (value : α)
  /-- Any other text. -/
  | foreign (text : JsString)
  deriving DecidableEq

namespace Unchecked

variable {α : Type}

/-- The member of an enumeration that a received text spells. -/
def ofText (all : List α) (spelling : α → String) (received : JsString) : Unchecked α :=
  ((all.find? fun a => js (spelling a) = received).map known).getD (foreign received)

/-- The text of the value. -/
def text (spelling : α → String) : Unchecked α → JsString
  | known value => js (spelling value)
  | foreign text => text

end Unchecked

/-- `new AdapterError(code, message, outcome)`. -/
structure AdapterError where
  code : AdapterErrorCode
  message : JsString
  outcome : AdapterOutcome := outcomeForErrorCode code
  deriving DecidableEq

/-! ## Requests and responses -/

/-- `AdapterOperationType`. -/
inductive AdapterOperationType
  | statusApplication
  | inspectApplication
  | startApplication
  | stopApplication
  | restartApplication
  deriving DecidableEq

namespace AdapterOperationType

/-- The operation as it travels. -/
def text : AdapterOperationType → String
  | statusApplication => "STATUS_APPLICATION"
  | inspectApplication => "INSPECT_APPLICATION"
  | startApplication => "START_APPLICATION"
  | stopApplication => "STOP_APPLICATION"
  | restartApplication => "RESTART_APPLICATION"

/-- `ADAPTER_OPERATION_TYPES`. -/
def all : List AdapterOperationType :=
  [statusApplication, inspectApplication, startApplication, stopApplication, restartApplication]

end AdapterOperationType

/-- `ApplicationRuntimeActorContext`. -/
structure ApplicationRuntimeActorContext where
  actorId : JsString
  role : Option JsString
  deriving DecidableEq

/-- `ApplicationRuntimeRequest`; its `protocolVersion` is the constant. -/
structure ApplicationRuntimeRequest where
  requestId : JsString
  operation : AdapterOperationType
  actor : ApplicationRuntimeActorContext
  applicationId : JsString
  deploymentId : JsString
  expectedRevision : Option JsString
  timeoutMs : ℕ
  deriving DecidableEq

/-- `ApplicationRuntimeResponse`, as far as the client and its callers read it. An `errorCode` that
is no string is `foreign` with an empty text. -/
structure ApplicationRuntimeResponse where
  protocolVersion : JsString
  requestId : JsString
  operation : AdapterOperationType
  applicationId : JsString
  deploymentId : JsString
  outcome : Unchecked AdapterOutcome
  errorCode : Option (Unchecked AdapterErrorCode)
  errorMessage : Option JsString
  deriving DecidableEq

/-! ## Validation -/

/-- A code unit of `[0-9a-f]` in either case. -/
def isHexUnit (u : CodeUnit) : Bool :=
  let v := asciiLower u
  (unit '0' ≤ v && v ≤ unit '9') || (unit 'a' ≤ v && v ≤ unit 'f')

/-- `UUID_V4_REGEX`: thirty-six code units, dashes at four places, a `4` and one of `89ab` at two,
hexadecimal digits elsewhere. -/
def isUuidV4 (s : JsString) : Bool :=
  s.length = 36 && s.zipIdx.all fun (u, i) =>
    if i = 8 || i = 13 || i = 18 || i = 23 then u = unit '-'
    else if i = 14 then u = unit '4'
    else if i = 19 then
      asciiLower u = unit '8' || asciiLower u = unit '9' || asciiLower u = unit 'a'
        || asciiLower u = unit 'b'
    else isHexUnit u

/-- `new AdapterError("MALFORMED_REQUEST", message, "REJECTED")`. -/
def malformedRequest (message : JsString) : AdapterError := ⟨.malformedRequest, message, .rejected⟩

/-- `new AdapterError("INTERNAL_ADAPTER_ERROR", message)`. -/
def internalAdapterError (message : JsString) : AdapterError :=
  { code := .internalAdapterError, message := message }

/-- `assertCanonicalUuid` of a string. -/
def assertCanonicalUuid (value : JsString) (fieldName : String) : Except AdapterError JsString :=
  if isUuidV4 (trim value) then .ok ((trim value).map asciiLower)
  else .error (malformedRequest
    (js "Field '" ++ js fieldName ++ js "' must be a valid canonical UUID v4 string"))

/-- `assertOperation` of a string. -/
def assertOperation (value : JsString) : Except AdapterError AdapterOperationType :=
  match Unchecked.ofText AdapterOperationType.all AdapterOperationType.text value with
  | .known operation => .ok operation
  | .foreign text =>
    .error ⟨.unknownOperation, js "Unsupported or unknown operation: " ++ text, .rejected⟩

/-- `assertTimeoutMs` of a whole number. -/
def assertTimeoutMs (value : ℕ) : Except AdapterError ℕ :=
  if value < minTimeoutMs ∨ value > maxTimeoutMs then
    .error (malformedRequest (js "Field 'timeoutMs' must be a safe integer between " ++
      decimal minTimeoutMs ++ js " and " ++ decimal maxTimeoutMs))
  else .ok value

/-- `validateRequest` of a request of the gateway, which has the protocol version and no other
property. -/
def ApplicationRuntimeRequest.validate (request : ApplicationRuntimeRequest) :
    Except AdapterError ApplicationRuntimeRequest := do
  let requestId ← assertCanonicalUuid request.requestId "requestId"
  let applicationId ← assertCanonicalUuid request.applicationId "applicationId"
  let deploymentId ← assertCanonicalUuid request.deploymentId "deploymentId"
  if trim request.actor.actorId = [] then
    throw (malformedRequest (js "Field 'actor.actorId' must be a non-empty string"))
  if request.expectedRevision.any (trim · = []) then
    throw (malformedRequest
      (js "Field 'expectedRevision', when provided, must be a non-empty string"))
  let timeoutMs ← assertTimeoutMs request.timeoutMs
  return ⟨requestId, request.operation,
    ⟨trim request.actor.actorId, request.actor.role.map trim⟩, applicationId, deploymentId,
    request.expectedRevision.map trim, timeoutMs⟩

/-- A field of a response that must be a string. -/
def stringField (fields : List (JsString × JsonValue)) (name : String) (otherwise : AdapterError) :
    Except AdapterError JsString :=
  match (jsonField fields name).bind JsonValue.asString with
  | some value => .ok value
  | none => .error otherwise

/-- An identifier of a response, checked in its canonical spelling and kept as it is. -/
def uuidField (fields : List (JsString × JsonValue)) (name : String) :
    Except AdapterError JsString := do
  let value ← stringField fields name (malformedRequest
    (js "Field '" ++ js name ++ js "' must be a valid canonical UUID v4 string"))
  let _ ← assertCanonicalUuid value name
  return value

/-- The error code of a response, `none` for `null` and `undefined`. -/
def errorCodeField (fields : List (JsString × JsonValue)) : Option (Unchecked AdapterErrorCode) :=
  match jsonField fields "errorCode" with
  | none | some .null => none
  | some (.string received) => some (.ofText AdapterErrorCode.all AdapterErrorCode.text received)
  | some _ => some (.foreign [])

/-- `validateResponse`. It returns the payload it was given. -/
def validateResponse : JsonValue → Except AdapterError ApplicationRuntimeResponse
  | .object fields => do
    if (jsonField fields "protocolVersion").bind JsonValue.asString ≠
        some applicationRuntimeProtocolVersion then
      throw (internalAdapterError (js "Response has invalid protocol version"))
    let requestId ← uuidField fields "requestId"
    let operation ← stringField fields "operation"
      ⟨.unknownOperation, js "Unsupported or unknown operation: ", .rejected⟩
    let operation ← assertOperation operation
    let applicationId ← uuidField fields "applicationId"
    let deploymentId ← uuidField fields "deploymentId"
    let outcome ← stringField fields "outcome"
      (internalAdapterError (js "Response outcome is missing or invalid"))
    let _ ← stringField fields "normalizedState"
      (internalAdapterError (js "Response normalizedState is missing or invalid"))
    if ((jsonField fields "durationMs").bind JsonValue.asNumber).all (·.ltInt 0) then
      throw (internalAdapterError (js "Response durationMs must be a non-negative number"))
    return ⟨applicationRuntimeProtocolVersion, requestId, operation, applicationId, deploymentId,
      .ofText AdapterOutcome.all AdapterOutcome.text outcome, errorCodeField fields,
      (jsonField fields "errorMessage").bind JsonValue.asString⟩
  | _ => .error (internalAdapterError (js "Response payload must be a JSON object"))

/-! ## Frames -/

/-- `JSON.stringify` of a request. -/
def ApplicationRuntimeRequest.json (request : ApplicationRuntimeRequest) : JsString :=
  jsonObject
    [(js "protocolVersion", some (jsonString applicationRuntimeProtocolVersion)),
      (js "requestId", some (jsonString request.requestId)),
      (js "operation", some (jsonString (js request.operation.text))),
      (js "actor", some (jsonObject
        [(js "actorId", some (jsonString request.actor.actorId)),
          (js "role", request.actor.role.map jsonString)])),
      (js "applicationId", some (jsonString request.applicationId)),
      (js "deploymentId", some (jsonString request.deploymentId)),
      (js "expectedRevision", request.expectedRevision.map jsonString),
      (js "timeoutMs", some (decimal request.timeoutMs))]

/-- `encodeRequestFrame`. -/
def encodeRequestFrame (request : ApplicationRuntimeRequest) : Except AdapterError (List Byte) := do
  let validated ← request.validate
  let payloadBytes := utf8 validated.json
  if payloadBytes.length > maxRequestFrameBytes then
    throw (malformedRequest (js "Request payload size (" ++ decimal payloadBytes.length ++
      js " bytes) exceeds maximum allowable limit (" ++ decimal maxRequestFrameBytes ++
      js " bytes)"))
  return uint32BE payloadBytes.length ++ payloadBytes

/-- `JSON.parse(utf8Decoder.decode(payload))`; `none` when either throws. -/
abbrev PayloadParser := List Byte → Option JsonValue

/-- `decodeResponseFrame`. -/
def decodeResponseFrame (parse : PayloadParser) (frame : List Byte) :
    Except AdapterError ApplicationRuntimeResponse :=
  match readUInt32BE frame with
  | none => .error (internalAdapterError (js "Response frame shorter than 4-byte header"))
  | some expectedLength =>
    if expectedLength > maxResponseFrameBytes then
      .error (internalAdapterError (js "Response frame declares size " ++ decimal expectedLength ++
        js " bytes exceeding limit of " ++ decimal maxResponseFrameBytes ++ js " bytes"))
    else if frame.length ≠ frameHeaderBytes + expectedLength then
      .error (internalAdapterError (js "Response frame length (" ++ decimal frame.length ++
        js ") does not match declaration (" ++ decimal (frameHeaderBytes + expectedLength) ++
        js ")"))
    else match parse (frame.drop frameHeaderBytes) with
      | none => .error (internalAdapterError (js "Response payload is not valid UTF-8 JSON"))
      | some payload => validateResponse payload

end ZimaControl
