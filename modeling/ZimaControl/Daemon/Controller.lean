import ZimaControl.Lib.JsMap
import ZimaControl.Lib.NumberText
import ZimaControl.Lib.Solo
import ZimaControl.Runtime.Contracts

/-!
# The lifecycle controller of the runtime adapter daemon

`TargetResolver.resolveTargets` and `ApplicationLifecycleController` of the daemon. The controller
admits a request, takes the lock of the application for a mutation, lists its containers, resolves
them against the declared services, and stops, inspects and starts them through the Docker façade.

The controller is a `Task`, and the world keeps a trace of what the façade answers. The normalised
state and the observation of a response do not enter the control flow and are left out, as are
durations.
-/

namespace ZimaControl

/-! ## Containers and services -/

/-- `ContainerExecutionState`. -/
inductive ContainerExecutionState
  | running
  | exited
  | created
  | restarting
  | paused
  | dead
  | unknown
  deriving DecidableEq

/-- The state as it is written. -/
def ContainerExecutionState.text : ContainerExecutionState → String
  | running => "running"
  | exited => "exited"
  | created => "created"
  | restarting => "restarting"
  | paused => "paused"
  | dead => "dead"
  | unknown => "unknown"

/-- `ApplicationContainerSummary`. -/
structure ApplicationContainerSummary where
  containerId : JsString
  serviceName : JsString
  state : ContainerExecutionState
  labels : List (JsString × JsString)
  deriving DecidableEq

/-- `container.labels[key]`. -/
def ApplicationContainerSummary.label (c : ApplicationContainerSummary) (key : String) :
    Option JsString :=
  c.labels.lookup (js key)

/-- `container.labels["zcc.service_name"] ?? container.serviceName`. -/
def ApplicationContainerSummary.service (c : ApplicationContainerSummary) : JsString :=
  (c.label "zcc.service_name").getD c.serviceName

/-- `AdmittedService`, with the fields that the resolver reads. -/
structure AdmittedService where
  id : JsString
  name : JsString
  deriving DecidableEq

/-- `AdmissionResult`, with the fields that the controller reads for its control flow. -/
structure AdmissionResult where
  services : List AdmittedService
  deriving DecidableEq

/-- `ResolvedTargetContainer`. -/
structure ResolvedTargetContainer where
  containerId : JsString
  serviceName : JsString
  serviceId : JsString
  replicaIndex : JsNumber
  state : ContainerExecutionState
  labels : List (JsString × JsString)
  deriving DecidableEq

/-- `DockerContainerInspection`, with the fields that the controller reads. -/
structure DockerInspection where
  containerId : JsString
  state : ContainerExecutionState
  deriving DecidableEq

/-- What the host provides: `String(number)` and `localeCompare` in the locale `en`. -/
structure DaemonHost where
  numberText : JsNumber → JsString
  localeCompare : JsString → JsString → Ordering

/-! ## The resolver -/

/-- What the daemon throws. The outcome of its `AdapterError`s is that of their code. -/
inductive DaemonError
  /-- An `AdapterError`. -/
  | adapter (code : AdapterErrorCode) (message : JsString)
  /-- Any other error. -/
  | other (message : JsString)
  deriving DecidableEq

/-- `err.message`. -/
def DaemonError.message : DaemonError → JsString
  | adapter _ message => message
  | other message => message

namespace TargetResolver

/-- The first loop of `resolveTargets`: a container of the application and deployment is kept, one
without application label is passed over, any other is unexpected. -/
def matchContainer (applicationId deploymentId : JsString) (declared : List AdmittedService)
    (c : ApplicationContainerSummary) : Except DaemonError (Option ApplicationContainerSummary) :=
  match c.label "zcc.application_id" with
  | none => .ok none
  | some application =>
    if application = applicationId then
      if c.label "zcc.deployment_id" ≠ some deploymentId then
        .error (.adapter .unexpectedContainer (js "Found unexpected container " ++ c.containerId ++
          js " labeled for application " ++ applicationId ++ js " with unexpected deployment \"" ++
          (c.label "zcc.deployment_id").getD (js "none") ++ js "\" (expected \"" ++ deploymentId ++
          js "\")"))
      else if c.service = [] ∨ declared.all (·.name ≠ c.service) then
        .error (.adapter .unexpectedContainer (js "Found unexpected container " ++ c.containerId ++
          js " labeled for application " ++ applicationId ++ js " and deployment " ++
          deploymentId ++ js " with undeclared service \"" ++ c.service ++ js "\""))
      else .ok (some c)
    else .error (.adapter .unexpectedContainer (js "Found unexpected container " ++ c.containerId ++
      js " labeled for foreign application \"" ++ application ++ js "\" (expected \"" ++
      applicationId ++ js "\")"))

/-- The replica index that a label spells. -/
def parseReplicaIndex (host : DaemonHost) (rawReplica : JsString) : Option JsNumber :=
  let parsed := parseInt10 rawReplica
  if parsed = .nan ∨ parsed.ltInt 1 ∨ host.numberText parsed ≠ trim rawReplica then none
  else some parsed

/-- The target of a container. -/
def target (service : AdmittedService) (c : ApplicationContainerSummary) (replicaIndex : JsNumber) :
    ResolvedTargetContainer :=
  ⟨c.containerId, service.name, service.id, replicaIndex, c.state, c.labels⟩

/-- The only container of a service. -/
def resolveSingle (host : DaemonHost) (service : AdmittedService)
    (c : ApplicationContainerSummary) : Except DaemonError ResolvedTargetContainer :=
  match c.label "zcc.replica_index" with
  | none => .ok (target service c (.finite 1))
  | some rawReplica =>
    if trim rawReplica = [] then .ok (target service c (.finite 1))
    else match parseReplicaIndex host rawReplica with
      | some replicaIndex => .ok (target service c replicaIndex)
      | none => .error (.adapter .unexpectedContainer (js "Container " ++ c.containerId ++
          js " for service \"" ++ service.name ++ js "\" has malformed replica index: \"" ++
          rawReplica ++ js "\""))

/-- The loop over the containers of a replicated service, after those with the indexes `seen`. -/
def resolveReplicas (host : DaemonHost) (service : AdmittedService) :
    List ApplicationContainerSummary → List JsNumber →
      Except DaemonError (List ResolvedTargetContainer × List JsNumber)
  | [], seen => .ok ([], seen)
  | c :: rest, seen =>
    match c.label "zcc.replica_index" with
    | none => .error (.adapter .unexpectedContainer (js "Container " ++ c.containerId ++
        js " for replicated service \"" ++ service.name ++
        js "\" lacks required \"zcc.replica_index\" label"))
    | some rawReplica =>
      if trim rawReplica = [] then
        .error (.adapter .unexpectedContainer (js "Container " ++ c.containerId ++
          js " for replicated service \"" ++ service.name ++
          js "\" lacks required \"zcc.replica_index\" label"))
      else match parseReplicaIndex host rawReplica with
        | none => .error (.adapter .unexpectedContainer (js "Container " ++ c.containerId ++
            js " for service \"" ++ service.name ++ js "\" has invalid replica index: \"" ++
            rawReplica ++ js "\""))
        | some replicaIndex =>
          if replicaIndex ∈ seen then
            .error (.adapter .unexpectedContainer (js "Duplicate replica index " ++
              host.numberText replicaIndex ++ js " detected for service \"" ++ service.name ++
              js "\" on container " ++ c.containerId))
          else (resolveReplicas host service rest (replicaIndex :: seen)).map
            fun (targets, all) => (target service c replicaIndex :: targets, all)

/-- The containers of one declared service. -/
def resolveService (host : DaemonHost) (deploymentId : JsString) (service : AdmittedService) :
    List ApplicationContainerSummary → Except DaemonError (List ResolvedTargetContainer)
  | [] => .error (.adapter .containerNotFound (js "Declared service \"" ++ service.name ++
      js "\" in deployment " ++ deploymentId ++
      js " has no existing containers in Docker runtime"))
  | [c] => (resolveSingle host service c).map ([·])
  | containers =>
    (resolveReplicas host service containers []).bind fun (targets, seen) =>
      match (List.range containers.length).find? fun i => .finite ((i + 1 : ℕ) : ℚ) ∉ seen with
      | some i => .error (.adapter .containerNotFound (js "Replicated service \"" ++ service.name ++
          js "\" has gap in replica numbering: missing replica index " ++ decimal (i + 1)))
      | none => .ok targets

/-- The order of the targets: by service, replica and container. -/
def compareTargets (host : DaemonHost) (a b : ResolvedTargetContainer) : Bool :=
  match host.localeCompare a.serviceName b.serviceName with
  | .lt => true
  | .gt => false
  | .eq =>
    if a.replicaIndex ≠ b.replicaIndex then a.replicaIndex.le b.replicaIndex
    else host.localeCompare a.containerId b.containerId ≠ .gt

/-- `resolveTargets`. A service declared twice is resolved once, with its last declaration. -/
def resolveTargets (host : DaemonHost) (applicationId deploymentId : JsString)
    (declared : List AdmittedService) (observed : List ApplicationContainerSummary) :
    Except DaemonError (List ResolvedTargetContainer) := do
  let kept ← observed.mapM (matchContainer applicationId deploymentId declared)
  let matched := kept.filterMap id
  let targets ← (declared.map (·.name)).eraseDups.mapM fun name =>
    match declared.reverse.find? (·.name = name) with
    | some service => resolveService host deploymentId service (matched.filter (·.service = name))
    | none => .ok []
  return targets.flatten.mergeSort (compareTargets host)

end TargetResolver

/-! ## The façade and the environment of the controller -/

/-- The place of an inspection of all targets in its handler. -/
inductive InspectionPhase
  /-- For `STATUS_APPLICATION` and `INSPECT_APPLICATION`. -/
  | status
  /-- The gate behind the stop phase. -/
  | postStop
  /-- The verification behind the start phase. -/
  | postStart
  deriving DecidableEq

/-- The inspections of a list of containers in the order in which they came back; `none` is one that
failed. -/
abbrev Completions := List (JsString × Option DockerInspection)

/-- What the controller asks its environment. -/
inductive DaemonCall
  /-- The admission of the request. -/
  | admission
  /-- `mutex.acquire`. -/
  | acquire
  /-- `mutex.release`. -/
  | release
  /-- `docker.listContainers`. -/
  | listContainers
  /-- `docker.stopContainer`. -/
  | stopContainer (containerId : JsString)
  /-- `docker.startContainer`. -/
  | startContainer (containerId : JsString)
  /-- `docker.inspectContainer` of all these containers at once. -/
  | inspectAll (phase : InspectionPhase) (containerIds : List JsString)
  /-- `signal.aborted` before a container is started. -/
  | aborted
  /-- `signal.aborted` when an error response is built. -/
  | abortedAtError

/-- What the façade, the registry and the mutex answer. -/
def DaemonCall.Answer : DaemonCall → Type
  | admission => AdmissionResult
  | listContainers => List ApplicationContainerSummary
  | inspectAll _ _ => Completions
  | aborted | abortedAtError => Bool
  | acquire | release | stopContainer _ | startContainer _ => Unit

/-- A program of the daemon. -/
abbrev Daemon := Task DaemonCall DaemonCall.Answer DaemonError

/-- Asks the environment and waits for its answer. -/
def ask (c : DaemonCall) : Daemon c.Answer := Task.perform c

/-! ## The controller -/

namespace ApplicationLifecycleController

/-- A container that could not be stopped. -/
structure StopFailure where
  target : ResolvedTargetContainer
  error : DaemonError

/-- Texts of a list, joined by `"; "`. -/
def details (texts : List JsString) : JsString := (texts.intersperse (js "; ")).flatten

/-- A response with outcome `SUCCEEDED`. -/
def succeeded (request : ApplicationRuntimeRequest) : ApplicationRuntimeResponse where
  protocolVersion := applicationRuntimeProtocolVersion
  requestId := request.requestId
  operation := request.operation
  applicationId := request.applicationId
  deploymentId := request.deploymentId
  outcome := .known .succeeded
  errorCode := none
  errorMessage := none

/-- `inspectAll`. A failed inspection leaves no entry in the map. -/
def inspectionMap (completions : Completions) : JsMap JsString DockerInspection :=
  completions.foldl (fun results (cid, inspection) =>
    match inspection with
    | some insp => results.set cid insp
    | none => results) ∅

/-- The best-effort stop of containers. -/
def stopTargets : List ResolvedTargetContainer → Daemon (List StopFailure)
  | [] => pure []
  | target :: rest => do
    let result ← (ask (.stopContainer target.containerId)).attempt
    let failures ← stopTargets rest
    return match result with
      | .error error => ⟨target, error⟩ :: failures
      | .ok _ => failures

/-- The fail-fast start of containers; the texts name the phase. -/
def startTargets (phase suffix : String) : List ResolvedTargetContainer → Daemon Unit
  | [] => pure ()
  | target :: rest => do
    let aborted : Bool ← ask .aborted
    if aborted then
      throw (.adapter .requestDeadlineExceeded (js "Request deadline exceeded during " ++ js phase))
    else
      let result ← (ask (.startContainer target.containerId)).attempt
      match result with
      | .error (.adapter code message) => throw (.adapter code message)
      | .error (.other message) => throw (.adapter .actionRejectedByDocker
          (js "Failed to start container " ++ target.containerId ++ js " for service \"" ++
            target.serviceName ++ js "\"" ++ js suffix ++ js ": " ++ message))
      | .ok _ => startTargets phase suffix rest

/-- The verification behind a start phase: every target runs. -/
def verifyRunning (code : AdapterErrorCode) (title : String)
    (targets : List ResolvedTargetContainer) : Daemon Unit := do
  let completions : Completions ← ask (.inspectAll .postStart (targets.map (·.containerId)))
  let inspections := inspectionMap completions
  let nonRunning := targets.filter fun t =>
    !(inspections.get t.containerId).any (·.state = .running)
  if nonRunning = [] then pure ()
  else throw (.adapter code (js title ++ js " verification failed: " ++ decimal nonRunning.length ++
    js " container(s) not in running state: " ++ details (nonRunning.map fun t =>
      t.serviceName ++ js " (" ++ t.containerId ++ js "): state=" ++
        js (((inspections.get t.containerId).map (·.state.text)).getD "unknown"))))

/-- The containers of the application, resolved against its declared services. -/
def resolvedTargets (host : DaemonHost) (request : ApplicationRuntimeRequest)
    (admission : AdmissionResult) : Daemon (List ResolvedTargetContainer) := do
  let observedContainers : List ApplicationContainerSummary ← ask .listContainers
  .ret (TargetResolver.resolveTargets host request.applicationId request.deploymentId
    admission.services observedContainers)

/-- `handleStatus` and `handleInspect`. -/
def handleStatus (request : ApplicationRuntimeRequest) : Daemon ApplicationRuntimeResponse := do
  let observedContainers : List ApplicationContainerSummary ← ask .listContainers
  let _ : Completions ←
    ask (.inspectAll .status (observedContainers.map (·.containerId)))
  return succeeded request

/-- `handleStart`. -/
def handleStart (host : DaemonHost) (request : ApplicationRuntimeRequest)
    (admission : AdmissionResult) : Daemon ApplicationRuntimeResponse := do
  let targets ← resolvedTargets host request admission
  startTargets "container start" "" targets
  verifyRunning .postStartVerificationFailed "Post-start" targets
  return succeeded request

/-- `handleStop`. -/
def handleStop (host : DaemonHost) (request : ApplicationRuntimeRequest)
    (admission : AdmissionResult) : Daemon ApplicationRuntimeResponse := do
  let targets ← resolvedTargets host request admission
  let failures ← stopTargets targets.reverse
  if failures.length > 0 then
    throw (.adapter .postStopVerificationFailed (js "Stop completed with " ++
      decimal failures.length ++ js " container error(s): " ++ details (failures.map fun f =>
        f.target.serviceName ++ js " (" ++ f.target.containerId ++ js "): " ++ f.error.message)))
  else
    let completions : Completions ←
      ask (.inspectAll .postStop (targets.map (·.containerId)))
    let inspections := inspectionMap completions
    let stillRunning := targets.filter fun t =>
      (inspections.get t.containerId).any (·.state = .running)
    if stillRunning.length > 0 then
      throw (.adapter .postStopVerificationFailed (js "Post-stop verification failed: " ++
        decimal stillRunning.length ++ js " container(s) still running: " ++
        details (stillRunning.map fun t =>
          t.serviceName ++ js " (" ++ t.containerId ++ js ")")))
    else return succeeded request

/-- `handleRestart`. -/
def handleRestart (host : DaemonHost) (request : ApplicationRuntimeRequest)
    (admission : AdmissionResult) : Daemon ApplicationRuntimeResponse := do
  let targets ← resolvedTargets host request admission
  let stopFailures ← stopTargets targets.reverse
  let completions : Completions ←
    ask (.inspectAll .postStop (targets.map (·.containerId)))
  let postStopInspections := inspectionMap completions
  -- a container whose inspection failed has no entry here, and passes
  let unstopped := targets.filter fun t =>
    (postStopInspections.get t.containerId).any fun insp =>
      insp.state = .running || insp.state = .restarting
  if stopFailures.length > 0 ∨ unstopped.length > 0 then
    throw (.adapter .postRestartVerificationFailed
      (js "Restart phase 1 (STOP) verification failed. Aborting start phase: " ++
        details (stopFailures.map (fun f => js "stop failed for " ++ f.target.serviceName ++
            js " (" ++ f.target.containerId ++ js "): " ++ f.error.message) ++
          unstopped.map fun u => js "container " ++ u.serviceName ++ js " (" ++ u.containerId ++
            js ") is still in state " ++ js (((postStopInspections.get u.containerId).map
              (·.state.text)).getD "undefined"))))
  else
    startTargets "restart start-phase" " during restart" targets
    verifyRunning .postRestartVerificationFailed "Post-restart" targets
    return succeeded request

/-- The handler of a request. -/
def handle (host : DaemonHost) (request : ApplicationRuntimeRequest) (admission : AdmissionResult) :
    Daemon ApplicationRuntimeResponse :=
  match request.operation with
  | .statusApplication | .inspectApplication => handleStatus request
  | .startApplication => handleStart host request admission
  | .stopApplication => handleStop host request admission
  | .restartApplication => handleRestart host request admission

/-- `buildErrorResponse`. -/
def buildErrorResponse (request : ApplicationRuntimeRequest) (error : DaemonError) :
    Daemon ApplicationRuntimeResponse := do
  let aborted : Bool ← ask .abortedAtError
  let (code, message) := if aborted then
      (.requestDeadlineExceeded, js "Request deadline exceeded")
    else match error with
      | .adapter code message => (code, message)
      | .other message => (.internalAdapterError, message)
  return { succeeded request with
    outcome := .known (outcomeForErrorCode code)
    errorCode := some (.known code)
    errorMessage := some message }

/-- The response of a handler that returned, or the one built from what it threw. -/
def respond (request : ApplicationRuntimeRequest) (handler : Daemon ApplicationRuntimeResponse) :
    Daemon ApplicationRuntimeResponse := do
  match ← handler.attempt with
  | .ok response => return response
  | .error error => buildErrorResponse request error

/-- The operations that take the lock of the application. -/
def mutates : AdapterOperationType → Bool
  | .startApplication | .stopApplication | .restartApplication => true
  | .statusApplication | .inspectApplication => false

/-- `execute`. The lock is released behind the response if it was taken. -/
def execute (host : DaemonHost) (request : ApplicationRuntimeRequest) :
    Daemon ApplicationRuntimeResponse := do
  match ← (ask .admission).attempt with
  | .error error => buildErrorResponse request error
  | .ok admission =>
    if mutates request.operation then
      match ← (ask .acquire).attempt with
      | .error error => buildErrorResponse request error
      | .ok _ =>
        let response ← respond request (handle host request admission)
        let _ : Unit ← ask .release
        return response
    else respond request (handle host request admission)

end ApplicationLifecycleController

/-! ## The world of the controller -/

/-- What the environment answered, as far as the properties of the controller speak of it. -/
inductive DaemonEvent
  /-- The request was admitted. -/
  | admitted (admission : AdmissionResult)
  /-- The containers of the application were listed. -/
  | listed (containers : List ApplicationContainerSummary)
  /-- A container was asked to stop. -/
  | stopped (containerId : JsString) (success : Bool)
  /-- Containers were inspected. -/
  | inspected (phase : InspectionPhase) (completions : Completions)
  /-- The deadline was looked at before a start. -/
  | deadline (passed : Bool)
  /-- A container was asked to start. -/
  | started (containerId : JsString) (success : Bool)
  deriving DecidableEq

/-- The choices of the environment. -/
inductive DaemonChoice
  | admission (r : Except DaemonError AdmissionResult)
  | containers (r : Except DaemonError (List ApplicationContainerSummary))
  | outcome (r : Except DaemonError Unit)
  | inspections (completions : Completions)
  | flag (value : Bool)
  deriving DecidableEq

/-- How the environment answers a call. Inspections come back in any order, one for each container;
any call may fail. -/
def DaemonCall.exec (trace : List DaemonEvent) :
    (c : DaemonCall) → DaemonChoice → Option (Except DaemonError c.Answer × List DaemonEvent)
  | .admission, .admission (.ok granted) => some (.ok granted, trace ++ [.admitted granted])
  | .admission, .admission (.error e) => some (.error e, trace)
  | acquire, .outcome r => some (r, trace)
  | release, .outcome (.ok ()) => some (.ok (), trace)
  | listContainers, .containers (.ok containers) =>
    some (.ok containers, trace ++ [.listed containers])
  | listContainers, .containers (.error e) => some (.error e, trace)
  | stopContainer containerId, .outcome r => some (r, trace ++ [.stopped containerId r.isOk])
  | startContainer containerId, .outcome r => some (r, trace ++ [.started containerId r.isOk])
  | inspectAll phase containerIds, .inspections completions =>
    if (completions.map (·.1)).Perm containerIds then
      some (.ok completions, trace ++ [.inspected phase completions])
    else none
  | aborted, .flag value => some (.ok value, trace ++ [.deadline value])
  | abortedAtError, .flag value => some (.ok value, trace)
  | _, _ => none

/-- The handler of the controller's calls. -/
def daemonHandler : Handler DaemonCall DaemonCall.Answer DaemonError (List DaemonEvent) DaemonChoice :=
  DaemonCall.exec

end ZimaControl
