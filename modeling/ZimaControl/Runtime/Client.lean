import ZimaControl.Lib.Outcome
import ZimaControl.Runtime.Contracts

/-!
# The runtime client and gateway

`ApplicationRuntimeClient.execute` sends a request over a socket and waits for a response, with a
bounded number of attempts; `ApplicationRuntimeGateway.executeOperation` builds the request.

An attempt is driven by the events of its socket and timer. It is given by the list of its events,
and an exchange by the list of its attempts, with the readings of `Date.now()` in between.
-/

namespace ZimaControl

/-! ## Errors -/

/-- `RuntimeClientErrorCode`. A response may bring a code outside the enumeration. -/
inductive RuntimeClientErrorCode
  | adapter (code : Unchecked AdapterErrorCode)
  | applicationRuntimeUnavailable

/-- `ApplicationRuntimeClientError`. -/
structure ApplicationRuntimeClientError where
  code : RuntimeClientErrorCode
  message : JsString
  outcome : Unchecked AdapterOutcome
  response : Option ApplicationRuntimeResponse := none

/-- What the gateway and the client throw. -/
inductive RuntimeFailure
  /-- An `ApplicationRuntimeClientError`. -/
  | client (e : ApplicationRuntimeClientError)
  /-- An `AdapterError` of the contracts. -/
  | adapter (e : AdapterError)
  /-- An error of the socket, with its `code` and the mark set before connection. -/
  | socket (code message : JsString) (isConnectionError : Bool)

namespace RuntimeFailure

/-- `err.message`. -/
def message : RuntimeFailure → JsString
  | client e => e.message
  | adapter e => e.message
  | socket _ message _ => message

/-- `new ApplicationRuntimeClientError(code, message, outcome)`. -/
def ofCode (code : AdapterErrorCode) (message : JsString) (outcome : AdapterOutcome) :
    RuntimeFailure :=
  client ⟨.adapter (.known code), message, .known outcome, none⟩

/-- The client's `APPLICATION_RUNTIME_UNAVAILABLE`. -/
def unavailable (message : JsString) : RuntimeFailure :=
  client ⟨.applicationRuntimeUnavailable, message, .known .executionFailed, none⟩

/-- `isRetryableConnectionError`. No code of the contracts is listed. -/
def isRetryableConnectionError : RuntimeFailure → Bool
  | client _ => false
  | adapter _ => false
  | socket code _ isConnectionError =>
    code = js "ENOENT" || code = js "ECONNREFUSED" || code = js "ECONNRESET" || code = js "EAGAIN"
      || code = js "ENETUNREACH" || isConnectionError

end RuntimeFailure

/-! ## One attempt -/

/-- What happens to the socket of an attempt. -/
inductive SocketEvent
  /-- The connection is established; the frame is handed to the socket. -/
  | connect
  /-- The callback of that write reports an error. -/
  | writeError (message : JsString)
  /-- A chunk arrives. -/
  | data (chunk : List Byte)
  /-- The server ends the stream. -/
  | ended
  /-- The socket reports an error. -/
  | error (code message : JsString)
  /-- The timer of the deadline fires. -/
  | timer
  deriving DecidableEq

/-- What `sendSingleFrame` keeps while it waits. -/
structure FrameExchange where
  /-- The connection was established and the frame handed over. -/
  connected : Bool := false
  /-- `Buffer.concat(chunks)`. -/
  received : List Byte := []
  /-- The length that the header of the response declared. -/
  expectedPayloadLength : Option ℕ := none
  /-- How the promise was settled; what happens afterwards is ignored. -/
  settled : Option (Except RuntimeFailure ApplicationRuntimeResponse) := none

namespace FrameExchange

variable (parse : PayloadParser) (request : ApplicationRuntimeRequest)

/-- `cleanup(); reject(e)`. -/
def reject (s : FrameExchange) (e : RuntimeFailure) : FrameExchange :=
  { s with settled := some (.error e) }

/-- The end of the `data` listener: a complete frame is decoded. -/
def deliver (s : FrameExchange) : FrameExchange :=
  match s.expectedPayloadLength with
  | none => s
  | some length =>
    let totalExpected := frameHeaderBytes + length
    if totalExpected ≤ s.received.length then
      match decodeResponseFrame parse (s.received.take totalExpected) with
      | .ok response => { s with settled := some (.ok response) }
      | .error e => s.reject (.ofCode .malformedRequest
          (js "Malformed response frame: " ++ e.message) .rejected)
    else s

/-- The `data` listener. -/
def onData (s : FrameExchange) (chunk : List Byte) : FrameExchange :=
  let s := { s with received := s.received ++ chunk }
  match s.expectedPayloadLength, readUInt32BE s.received with
  | none, some length =>
    let s := { s with expectedPayloadLength := some length }
    if length = 0 ∨ length > maxResponseFrameBytes then
      s.reject (.ofCode .internalAdapterError (js "Response frame declared invalid size: " ++
        decimal length ++ js " bytes (max: " ++ decimal maxResponseFrameBytes ++ js ")")
        .executionFailed)
    else s.deliver parse
  | _, _ => s.deliver parse

/-- The `end` listener. -/
def onEnd (s : FrameExchange) : FrameExchange :=
  if s.received.length = 0 then
    s.reject (.ofCode .peerUnauthorized
      (js "Peer connection closed by server with zero bytes (unauthorized peer credentials)")
      .rejected)
  else
    let expected := match s.expectedPayloadLength with
      | some length => decimal (frameHeaderBytes + length)
      | none => js "header"
    s.reject (.ofCode .internalAdapterError
      (js "Server closed connection before complete frame received (received " ++
        decimal s.received.length ++ js " bytes, expected " ++ expected ++ js ")")
      .executionFailed)

/-- An event of the socket. Once the promise is settled the listeners are gone. -/
def step (s : FrameExchange) (event : SocketEvent) : FrameExchange :=
  if s.settled.isSome then s
  else match event with
    | .connect => { s with connected := true }
    | .writeError message =>
      if s.connected then
        s.reject (.unavailable (js "Failed to write request frame: " ++ message))
      else s
    | .data chunk => s.onData parse chunk
    | .ended => s.onEnd
    | .error code message => s.reject (.socket code message (!s.connected))
    | .timer => s.reject (.ofCode .requestDeadlineExceeded (js "Request deadline of " ++
        decimal request.timeoutMs ++ js "ms exceeded during socket execution") .timedOut)

/-- An attempt after its events. -/
def run (events : List SocketEvent) : FrameExchange :=
  events.foldl (step parse request) {}

variable {parse request} in
/-- What happens to a settled attempt changes nothing. -/
theorem foldl_step_settled {s : FrameExchange} (events : List SocketEvent)
    (h : s.settled.isSome = true) : events.foldl (step parse request) s = s := by
  induction events with
  | nil => rfl
  | cons event events ih =>
    rwa [List.foldl_cons, show s.step parse request event = s from if_pos h]

end FrameExchange

/-- `validateResponseMatch`. Schema and version were checked when the response was decoded, so what
is left is the correlation. -/
def validateResponseMatch (request : ApplicationRuntimeRequest)
    (response : ApplicationRuntimeResponse) : Except RuntimeFailure Unit :=
  if response.requestId ≠ request.requestId then
    .error (.ofCode .malformedRequest (js "Response requestId \"" ++ response.requestId ++
      js "\" does not match request requestId \"" ++ request.requestId ++ js "\"") .rejected)
  else if response.protocolVersion ≠ applicationRuntimeProtocolVersion then
    .error (.ofCode .unsupportedProtocolVersion (js "Response protocol version \"" ++
      response.protocolVersion ++ js "\" does not match expected \"" ++
      applicationRuntimeProtocolVersion ++ js "\"") .rejected)
  else if response.operation ≠ request.operation then
    .error (.ofCode .malformedRequest (js "Response operation \"" ++ js response.operation.text ++
      js "\" does not match request operation \"" ++ js request.operation.text ++ js "\"") .rejected)
  else if response.applicationId ≠ request.applicationId then
    .error (.ofCode .malformedRequest (js "Response applicationId \"" ++ response.applicationId ++
      js "\" does not match request applicationId \"" ++ request.applicationId ++ js "\"") .rejected)
  else if response.deploymentId ≠ request.deploymentId then
    .error (.ofCode .malformedRequest (js "Response deploymentId \"" ++ response.deploymentId ++
      js "\" does not match request deploymentId \"" ++ request.deploymentId ++ js "\"") .rejected)
  else .ok ()

/-- An attempt of `execute` as it went. -/
structure Attempt where
  /-- `Date.now()` when the attempt begins. -/
  startedAt : ℤ
  /-- What happened to its socket. -/
  events : List SocketEvent
  /-- `Date.now()` after it failed. -/
  failedAt : ℤ
  deriving DecidableEq

namespace Attempt

variable (parse : PayloadParser) (request : ApplicationRuntimeRequest) (a : Attempt)

/-- The attempt opens a socket: its deadline had not passed when it began. -/
def opensSocket (startTime : ℤ) : Bool :=
  decide (0 < (request.timeoutMs : ℤ) - (a.startedAt - startTime))

/-- The socket connected and was handed the request frame. -/
def frameSent : Bool := (FrameExchange.run parse request a.events).connected

/-- What the loop's `try` returned or threw; `none` while it waits. -/
def result : Option (Except RuntimeFailure ApplicationRuntimeResponse) :=
  (FrameExchange.run parse request a.events).settled.map fun settled => do
    let response ← settled
    validateResponseMatch request response
    return response

/-- The response that the attempt brought back, if it is one to the request. -/
def answer : Option ApplicationRuntimeResponse := (a.result parse request).bind Except.toOption

end Attempt

/-! ## The client -/

/-- `ApplicationRuntimeClient`, with the options that `execute` reads. -/
structure ApplicationRuntimeClient where
  socketPath : JsString := js "/run/zcc/application-runtime.sock"
  maxRetries : ℕ := 3
  retryWindowMs : ℤ := 500

/-- How a conversation with the daemon ended, and the attempts not made; `none` while it goes on. -/
abbrev Conversation := Option (Except RuntimeFailure ApplicationRuntimeResponse × List Attempt)

namespace ApplicationRuntimeClient

variable (client : ApplicationRuntimeClient) (parse : PayloadParser)
  (request : ApplicationRuntimeRequest)

/-- What `execute` throws after its loop. -/
def finalError (attempt : ℕ) : Option RuntimeFailure → RuntimeFailure
  | some (.client e) => .client e
  | some e =>
    if e.isRetryableConnectionError then
      .unavailable (js "Application runtime daemon is unavailable at socket " ++ client.socketPath ++
        js " after " ++ decimal attempt ++ js " attempt(s): " ++ e.message)
    else .unavailable (js "Failed to communicate with runtime adapter: " ++ e.message)
  | none => .unavailable (js "Failed to communicate with runtime adapter: undefined")

/-- Whether a failed attempt is followed by another, after a back-off within the window. -/
def retries (attempt : ℕ) (e : RuntimeFailure) (retryElapsed : ℤ) : Bool :=
  let backoffMs := min (100 * (attempt : ℤ)) (max 0 (client.retryWindowMs - retryElapsed))
  e.isRetryableConnectionError && decide (attempt < client.maxRetries) &&
    decide (0 < backoffMs) && decide (retryElapsed + backoffMs < client.retryWindowMs)

/-- The loop of `execute`, with `left` attempts left after `attempt` failed ones, the last with
`lastError`. -/
def attemptLoop (startTime : ℤ) : ℕ → ℕ → Option RuntimeFailure → List Attempt → Conversation
  | 0, attempt, lastError, rest => some (.error (client.finalError attempt lastError), rest)
  | _ + 1, _, _, [] => none
  | left + 1, attempt, _, a :: rest =>
    let attempt := attempt + 1
    if (request.timeoutMs : ℤ) - (a.startedAt - startTime) ≤ 0 then
      some (.error (.ofCode .requestDeadlineExceeded (js "Request deadline of " ++
        decimal request.timeoutMs ++ js "ms exceeded before socket connection established")
        .timedOut), rest)
    else match a.result parse request with
      | none => none
      | some (.ok response) => some (.ok response, rest)
      | some (.error e) =>
        -- it plays no part whether the frame was written
        if client.retries attempt e (a.failedAt - startTime) then
          attemptLoop startTime left attempt (some e) rest
        else some (.error (client.finalError attempt (some e)), rest)

/-- `execute`. -/
def execute (startTime : ℤ) (attempts : List Attempt) : Conversation :=
  match encodeRequestFrame request with
  | .error e => some (.error (.ofCode e.code (js "Invalid request frame: " ++ e.message) e.outcome),
      attempts)
  | .ok _ => client.attemptLoop parse request startTime client.maxRetries 0 none attempts

end ApplicationRuntimeClient

/-! ## The gateway -/

/-- `ApplicationRuntimeMutationParams` of a caller, without a request id. -/
structure ApplicationRuntimeMutationParams where
  applicationId : JsString
  deploymentId : JsString
  expectedRevision : JsString
  actor : ApplicationRuntimeActorContext
  timeoutMs : ℕ

/-- A conversation as the gateway and the environment make it. -/
structure RuntimeExchange where
  /-- The `randomUUID()` of the request. -/
  requestId : JsString
  /-- `Date.now()` when `execute` begins. -/
  startTime : ℤ
  /-- The attempts that were made. -/
  attempts : List Attempt
  /-- Whether the daemon had begun the action when it answered; the client does not see this. -/
  inProgress : Bool

/-- `ApplicationRuntimeGateway`. -/
structure ApplicationRuntimeGateway where
  client : ApplicationRuntimeClient := {}
  throwOnError : Bool := false

namespace ApplicationRuntimeGateway

/-- The checks of `executeOperation` for a mutation and the request that it builds. -/
def buildRequest (operation : AdapterOperationType) (params : ApplicationRuntimeMutationParams)
    (requestId : JsString) : Except RuntimeFailure ApplicationRuntimeRequest := do
  if trim params.expectedRevision = [] then
    throw (.ofCode .revisionMismatch (js "Field 'expectedRevision' is mandatory for mutating operation "
      ++ js operation.text) .failedPrecondition)
  let applicationId ← (assertCanonicalUuid params.applicationId "applicationId").mapError .adapter
  let deploymentId ← (assertCanonicalUuid params.deploymentId "deploymentId").mapError .adapter
  let timeoutMs ← (assertTimeoutMs params.timeoutMs).mapError .adapter
  return ⟨requestId, operation, params.actor, applicationId, deploymentId,
    some params.expectedRevision, timeoutMs⟩

/-- The error of a response whose outcome is not `SUCCEEDED`. -/
def responseError (operation : AdapterOperationType) (response : ApplicationRuntimeResponse) :
    RuntimeFailure :=
  let code := match response.errorCode with
    | none => .adapter (.known .internalAdapterError)
    | some (.foreign text) =>
      if text = js "APPLICATION_RUNTIME_UNAVAILABLE" then
        RuntimeClientErrorCode.applicationRuntimeUnavailable
      else .adapter (.foreign text)
    | some (.known code) => .adapter (.known code)
  .client ⟨code, response.errorMessage.getD (js "Runtime operation " ++ js operation.text ++
    js " failed with outcome " ++ response.outcome.text AdapterOutcome.text), response.outcome,
    some response⟩

/-- `executeOperation` of a mutation. -/
def executeOperation (gateway : ApplicationRuntimeGateway) (parse : PayloadParser)
    (operation : AdapterOperationType) (params : ApplicationRuntimeMutationParams)
    (exchange : RuntimeExchange) : Conversation :=
  match buildRequest operation params exchange.requestId with
  | .error e => some (.error e, exchange.attempts)
  | .ok request =>
    (gateway.client.execute parse request exchange.startTime exchange.attempts).map
      fun (result, rest) => (result.bind fun response =>
        if gateway.throwOnError ∧ response.outcome ≠ .known .succeeded then
          .error (responseError operation response)
        else .ok response, rest)

end ApplicationRuntimeGateway

namespace RuntimeExchange

variable (parse : PayloadParser)

/-- A response that leaves the action open: the daemon gave up waiting for one it had begun. -/
def leavesOpen (exchange : RuntimeExchange) (response : ApplicationRuntimeResponse) : Bool :=
  exchange.inProgress && decide (response.outcome ≠ .known .succeeded) &&
    (response.errorCode = some (.known .dockerTimeout) ||
      response.errorCode = some (.known .requestDeadlineExceeded))

/-- The outcome is unknown: some attempt handed the frame to its socket and brought back no response
that settles this copy of the request. An answer to another copy does not. -/
def outcomeUnknown (operation : AdapterOperationType) (params : ApplicationRuntimeMutationParams)
    (exchange : RuntimeExchange) : Bool :=
  match ApplicationRuntimeGateway.buildRequest operation params exchange.requestId with
  | .error _ => false
  | .ok request =>
    exchange.attempts.any fun a => a.opensSocket request exchange.startTime &&
      a.frameSent parse request && (a.answer parse request).all exchange.leavesOpen

end RuntimeExchange

end ZimaControl
