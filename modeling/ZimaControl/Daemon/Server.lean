import Mathlib.Data.List.Nodup
import Mathlib.Data.List.Sort
import ZimaControl.Daemon.Controller

/-!
# The server of the runtime adapter daemon

What happens to the payload of a connection: `dispatchConnection` of `server.ts` parses it,
`validateRequest` checks its shape, and the controller asks `validateAdmission` of `admission.ts`
whether the registry knows the application, the deployment and its services. Frames, the identity of
the peer and the log are left out.

The registry is what the daemon reads of the application database. An application has one deployment
row at most, by a unique index; that row is its active deployment.
-/

namespace ZimaControl

/-! ## The request -/

/-- `PROHIBITED_REQUEST_KEYS`. -/
def prohibitedRequestKeys : List JsString :=
  ["containerId", "containerIds", "containerName", "command", "cmd", "exec", "image",
    "imageDigest", "volume", "volumes", "binds", "path", "hostPath", "composeYaml",
    "composeFile"].map js

/-- `assertCanonicalUuid` of a property. -/
def canonicalUuidField (fields : List (JsString × JsonValue)) (name : String) :
    Except AdapterError JsString := do
  let value ← stringField fields name (malformedRequest
    (js "Field '" ++ js name ++ js "' must be a valid canonical UUID v4 string"))
  assertCanonicalUuid value name

/-- `assertTimeoutMs` of a property. -/
def timeoutMsField (fields : List (JsString × JsonValue)) : Except AdapterError ℕ :=
  match (jsonField fields "timeoutMs").bind JsonValue.asNumber with
  | some value =>
    if value.isInteger then assertTimeoutMs value.toNat
    else .error (malformedRequest (js "Field 'timeoutMs' must be a safe integer between " ++
      decimal minTimeoutMs ++ js " and " ++ decimal maxTimeoutMs))
  | none => .error (malformedRequest (js "Field 'timeoutMs' must be a safe integer between " ++
      decimal minTimeoutMs ++ js " and " ++ decimal maxTimeoutMs))

/-- The actor of a request. -/
def actorField (fields : List (JsString × JsonValue)) :
    Except AdapterError ApplicationRuntimeActorContext :=
  let malformed := malformedRequest (js "Field 'actor.actorId' must be a non-empty string")
  match jsonField fields "actor" with
  | some (.object actor) =>
    match (jsonField actor "actorId").bind JsonValue.asString with
    | some actorId =>
      if trim actorId = [] then .error malformed
      else .ok ⟨trim actorId, ((jsonField actor "role").bind JsonValue.asString).map trim⟩
    | none => .error malformed
  | _ => .error malformed

/-- The expected revision of a request: it may be missing or `null`. -/
def expectedRevisionField (fields : List (JsString × JsonValue)) :
    Except AdapterError (Option JsString) :=
  let malformed := malformedRequest
    (js "Field 'expectedRevision', when provided, must be a non-empty string")
  match jsonField fields "expectedRevision" with
  | none | some .null => .ok none
  | some (.string revision) => if trim revision = [] then .error malformed else .ok (some (trim revision))
  | some _ => .error malformed

/-- `validateRequest`. What `String` makes of a value that is no operation is up to the runtime. -/
def DaemonServer.validateRequest (valueText : Option JsonValue → JsString) :
    JsonValue → Except AdapterError ApplicationRuntimeRequest
  | .object fields => do
    match fields.find? (·.1 ∈ prohibitedRequestKeys) with
    | some field => throw (malformedRequest
        (js "Request contains prohibited client-supplied argument '" ++ field.1 ++ js "'"))
    | none => pure ()
    if (jsonField fields "protocolVersion").bind JsonValue.asString ≠
        some applicationRuntimeProtocolVersion then
      throw ⟨.unsupportedProtocolVersion, js "Protocol version must be '" ++
        applicationRuntimeProtocolVersion ++ js "'", .rejected⟩
    let requestId ← canonicalUuidField fields "requestId"
    let operation ← stringField fields "operation" ⟨.unknownOperation,
      js "Unsupported or unknown operation: " ++ valueText (jsonField fields "operation"), .rejected⟩
    let operation ← assertOperation operation
    let applicationId ← canonicalUuidField fields "applicationId"
    let deploymentId ← canonicalUuidField fields "deploymentId"
    let actor ← actorField fields
    let expectedRevision ← expectedRevisionField fields
    let timeoutMs ← timeoutMsField fields
    return ⟨requestId, operation, actor, applicationId, deploymentId, expectedRevision, timeoutMs⟩
  | _ => .error (malformedRequest (js "Request payload must be a JSON object"))

/-! ## The registry -/

/-- A row of `Application`, of which the daemon looks at the id. -/
structure RegistryApplication where
  id : JsString
  deriving DecidableEq

/-- A row of `ApplicationDeployment`. -/
structure RegistryDeployment where
  id : JsString
  applicationId : JsString
  deriving DecidableEq

/-- A row of `ApplicationService`. -/
structure RegistryService where
  id : JsString
  deploymentId : JsString
  name : JsString
  deriving DecidableEq

/-- The rows that the daemon reads, with the unique indexes over them. -/
structure Registry where
  applications : List RegistryApplication
  deployments : List RegistryDeployment
  services : List RegistryService
  deployment_unique : (deployments.map (·.applicationId)).Nodup
  service_unique : (services.map fun service => (service.deploymentId, service.name)).Nodup

/-- `AdmissionResult`, whole. -/
structure Admission where
  application : RegistryApplication
  deployment : RegistryDeployment
  services : List RegistryService
  deriving DecidableEq

/-- The part of an admission that the controller reads. -/
def Admission.result (admission : Admission) : AdmissionResult :=
  ⟨admission.services.map fun service => ⟨service.id, service.name⟩⟩

namespace Registry

variable (registry : Registry)

/-- The active deployment of an application. -/
def activeDeployment (applicationId : JsString) : Option RegistryDeployment :=
  registry.deployments.find? (·.applicationId = applicationId)

/-- The services of a deployment, by their names in byte order. -/
def servicesOf (deploymentId : JsString) : List RegistryService :=
  (registry.services.filter (·.deploymentId = deploymentId)).insertionSort
    fun a b => utf8 a.name ≤ utf8 b.name

/-- `validateAdmission`. -/
def validateAdmission (applicationId deploymentId : JsString) (expectedRevision : Option JsString) :
    Except DaemonError Admission :=
  match registry.applications.find? (·.id = applicationId) with
  | none => .error (.adapter .applicationNotFound (js "Application " ++ applicationId ++
      js " not found in authoritative registry"))
  | some application =>
    match registry.deployments.find? fun row =>
        row.id = deploymentId && row.applicationId = applicationId with
    | none => .error (.adapter .deploymentNotFound (js "Deployment " ++ deploymentId ++
        js " not found for application " ++ applicationId))
    | some deployment =>
      match expectedRevision.filter (· ≠ deployment.id) with
      | some revision => .error (.adapter .revisionMismatch (js "Expected revision \"" ++ revision ++
          js "\" does not match active deployment revision \"" ++ deployment.id ++ js "\""))
      | none =>
        if registry.servicesOf deploymentId = [] then
          .error (.adapter .serviceTopologyEmpty (js "Deployment " ++ deploymentId ++
            js " declares zero services in authoritative registry"))
        else .ok ⟨application, deployment, registry.servicesOf deploymentId⟩

/-- The admission of a request. -/
def admitRequest (request : ApplicationRuntimeRequest) : Except DaemonError Admission :=
  registry.validateAdmission request.applicationId request.deploymentId request.expectedRevision

end Registry

/-! ## The connection -/

/-- The request in the payload of a connection. -/
def receive (valueText : Option JsonValue → JsString) (parse : PayloadParser)
    (rawPayload : List Byte) : Except AdapterError ApplicationRuntimeRequest :=
  match parse rawPayload with
  | none => .error (malformedRequest (js "Request payload is not valid UTF-8 JSON"))
  | some parsed => DaemonServer.validateRequest valueText parsed

/-- The identifier in a response to a payload that holds no request. -/
def nilIdentifier : JsString := js "00000000-0000-4000-8000-000000000000"

/-- The response to a payload that holds no request. -/
def errorResponse (err : AdapterError) : ApplicationRuntimeResponse where
  protocolVersion := applicationRuntimeProtocolVersion
  requestId := nilIdentifier
  operation := .statusApplication
  applicationId := nilIdentifier
  deploymentId := nilIdentifier
  outcome := .known err.outcome
  errorCode := some (.known err.code)
  errorMessage := some err.message

/-- `dispatchConnection`, between the frame that is read and the one that is written. -/
def dispatchConnection (host : DaemonHost) (valueText : Option JsonValue → JsString)
    (parse : PayloadParser) (rawPayload : List Byte) : Daemon ApplicationRuntimeResponse :=
  match receive valueText parse rawPayload with
  | .error err => return errorResponse err
  | .ok request => ApplicationLifecycleController.execute host request

/-- The call is the admission of the request. -/
def DaemonCall.isAdmission : DaemonCall → Bool
  | admission => true
  | _ => false

/-- The handler of a daemon that reads a registry: the admission is what the registry says, the rest
is up to the environment. -/
def registryHandler (registry : Registry) (request : ApplicationRuntimeRequest) :
    Handler DaemonCall DaemonCall.Answer DaemonError (List DaemonEvent) DaemonChoice :=
  fun trace c choice =>
    if c.isAdmission && choice ≠ .admission ((registry.admitRequest request).map Admission.result) then none
    else daemonHandler trace c choice

end ZimaControl
