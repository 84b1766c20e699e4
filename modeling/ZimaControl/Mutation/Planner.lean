import ZimaControl.Mutation.Durable

/-!
# Who may ask for what

`ActionPlanner`, `DefaultMutationPolicy` and `AuthoritativeApplicationTargetSnapshotService`, as
functions of what the registry and the runtime authority answered. A request is authorised from its
actor and shape alone; a plan or target snapshot also needs the registry's record of the
application.
-/

namespace ZimaControl

/-! ## Registry records -/

/-- `ManagedBy`. -/
inductive ManagedBy
  | zimaos
  | external
  | unknown
  deriving DecidableEq

/-- `RegistryApplicationReadRecord`, with the fields that planning reads. -/
structure RegistryApplicationReadRecord where
  id : JsString
  runtime : Option JsString
  managedBy : Option ManagedBy
  zimaosAppId : Option JsString
  isUncontrolled : Option Bool
  lastDiscoveredAt : Option Timestamp

/-- `RegistryDeploymentReadRecord`, with the fields that planning reads. -/
structure RegistryDeploymentReadRecord where
  id : JsString
  discoveredAt : Timestamp

/-- `RegistryRuntimeContainerReadRecord`, as far as planning reads it. -/
structure RegistryRuntimeContainerReadRecord where
  id : JsString
  serviceId : JsString
  containerId : JsString
  observedAt : Option Timestamp

/-- `RegistryServiceSnapshotReadRecord`, as far as planning reads it. -/
structure RegistryServiceSnapshotReadRecord where
  id : JsString
  deploymentId : JsString
  runtimeContainers : List RegistryRuntimeContainerReadRecord

/-- `RegistryApplicationSnapshotReadRecord`. -/
structure RegistryApplicationSnapshotReadRecord where
  application : RegistryApplicationReadRecord
  deployment : Option RegistryDeploymentReadRecord
  services : List RegistryServiceSnapshotReadRecord
  runtimeContainers : List RegistryRuntimeContainerReadRecord

/-- `AuthoritativeRuntimeTargetEvidence`. -/
structure AuthoritativeRuntimeTargetEvidence where
  applicationId : JsString
  deploymentId : JsString
  containerIds : List JsString
  observedAt : Timestamp
  evidenceId : JsString

/-! ## Policy -/

/-- `MutationPolicyDecision`. -/
structure MutationPolicyDecision where
  allowed : Bool
  executionDomain : ExecutionDomain
  errorCode : Option MutationErrorCode := none

/-- `MutationPolicy`. -/
abbrev MutationPolicy := RegistryApplicationReadRecord → MutationPolicyDecision

/-- The upper case of an ASCII letter; nothing else becomes a letter of `DOCKER`. -/
def asciiUpper (u : CodeUnit) : CodeUnit := if unit 'a' ≤ u && u ≤ unit 'z' then u - 32 else u

/-- `DefaultMutationPolicy`. -/
def defaultMutationPolicy : MutationPolicy := fun application =>
  if application.runtime.map (·.map asciiUpper) ≠ some (js "DOCKER") then
    ⟨false, .unsupported, some .unsupportedRuntime⟩
  else if application.isUncontrolled ≠ some false ∨ application.managedBy ≠ some .zimaos
      ∨ application.zimaosAppId.getD [] = [] then
    ⟨false, .unsupported, some .unsupportedManagement⟩
  else ⟨true, .docker, none⟩

/-! ## Authorisation -/

/-- `roleRank`. -/
def Role.rank : Role → ℕ
  | viewer => 1
  | operator => 2
  | admin => 3

/-- `canActAs`. -/
def Role.canActAs (role required : Role) : Bool := required.rank ≤ role.rank

/-- `ActionRequest`. -/
structure ActionRequest where
  action : ActionType
  target : ActionTarget
  idempotencyKey : JsString

/-- `AuthorizedApplicationMutationRequest`. -/
structure AuthorizedApplicationMutationRequest where
  actor : PlanActor
  action : ActionType
  applicationId : JsString
  idempotencyKey : JsString

/-- `validateOpaqueIdentifier`. -/
def validateOpaqueIdentifier (value : JsString) (message : String) : Except Failure Unit :=
  throwIf (isIdentifier 1 128 value = false) (.mutation .invalidTarget message)

/-- `validateRequest`; an action outside `actionTypes` cannot be written. -/
def validateRequest (request : ActionRequest) : Except Failure Unit := do
  validateOpaqueIdentifier request.target.applicationId "Application identifier is invalid"
  (request.target.serviceId.mapM (validateOpaqueIdentifier · "Service identifier is invalid")).map
    fun _ => ()
  (request.target.containerId.mapM (validateOpaqueIdentifier · "Container identifier is invalid")).map
    fun _ => ()
  throwIf (isIdentifier 8 128 request.idempotencyKey = false)
    (.mutation .invalidRequest "Idempotency key is invalid")

/-- `requireAuthenticated`, with the error of `mapAuthorizationError`. -/
def requireAuthenticated : Option PlanActor → Except Failure PlanActor
  | none => .error (.mutation .authenticationRequired "Authentication is required")
  | some actor => .ok actor

/-- `requirePermission`: every action is given to operators. -/
def requireOperator (actor : PlanActor) : Except Failure Unit :=
  throwIf (actor.role.canActAs .operator = false)
    (.mutation .unauthorized "The actor is not authorized")

namespace ActionPlanner

/-- `authorizeApplicationRequest`. -/
def authorizeApplicationRequest (actor : Option PlanActor) (request : ActionRequest) :
    Except Failure AuthorizedApplicationMutationRequest := do
  let authenticated ← requireAuthenticated actor
  validateRequest request
  throwIf (request.target.serviceId ≠ none ∨ request.target.containerId ≠ none)
    (.mutation .invalidTarget "Application mutations cannot accept a physical child target")
  requireOperator authenticated
  return ⟨authenticated, request.action, request.target.applicationId, request.idempotencyKey⟩

/-- `validateTargetOwnership`. -/
def validateTargetOwnership (snapshot : RegistryApplicationSnapshotReadRecord) (target : ActionTarget) :
    Except Failure Unit := do
  throwIf (snapshot.application.id ≠ target.applicationId) (.mutation .targetOwnershipMismatch
    "Resolved application identity does not match the requested target")
  let service := target.serviceId.bind fun id => snapshot.services.find? (·.id = id)
  throwIf (target.serviceId ≠ none ∧ (service.map (·.deploymentId) = none
      ∨ service.map (·.deploymentId) ≠ snapshot.deployment.map (·.id)))
    (.mutation .targetOwnershipMismatch
      "Service does not belong to the current application deployment")
  match target.containerId with
  | none => return
  | some id =>
    let container := snapshot.runtimeContainers.find? (·.containerId = id)
    throwIf (container = none ∨ (service ≠ none ∧ container.map (·.serviceId) ≠ service.map (·.id)))
      (.mutation .targetOwnershipMismatch
        "Container does not belong to the requested application target")

/-- What `plan` checks before it reads the registry. -/
def authorizePlan (actor : Option PlanActor) (request : ActionRequest) :
    Except Failure PlanActor := do
  let authenticated ← requireAuthenticated actor
  validateRequest request
  requireOperator authenticated
  return authenticated

/-- What `plan` makes of the registry's answer. -/
def planFrom (policy : MutationPolicy) (authenticated : PlanActor) (request : ActionRequest)
    (operationId : JsString) (snapshot : Option RegistryApplicationSnapshotReadRecord) :
    Except Failure ActionPlan :=
  match snapshot with
  | none => .error (.mutation .applicationNotFound "Application not found")
  | some snapshot => do
    validateTargetOwnership snapshot request.target
    let decision := policy snapshot.application
    if h : decision.allowed = true ∧ decision.executionDomain ≠ .unsupported then
      return {
        operationId := operationId
        actor := authenticated
        action := request.action
        target := request.target
        executionDomain := ⟨decision.executionDomain, h.2⟩
        operationKey := applicationKey snapshot.application.id
        idempotencyKey := request.idempotencyKey }
    else .error (.mutation (decision.errorCode.getD .unsupportedManagement)
      "No supported management path exists")

end ActionPlanner

/-! ## The authoritative target snapshot -/

/-- `timestampIsFresh`. -/
def timestampIsFresh (value now maximumAgeMs : Timestamp) : Bool :=
  value ≤ now ∧ now - value ≤ maximumAgeMs

namespace AuthoritativeApplicationTargetSnapshotService

/-- The error of evidence that is missing. -/
def evidenceUnavailable : Failure :=
  .mutation .targetSnapshotNotAuthoritative "Authoritative runtime target evidence is unavailable"

/-- The error of an application with other than one service and container. -/
def shapeUnsupported : Failure :=
  .mutation .applicationShapeUnsupported "The application runtime shape is not supported"

/-- The only service and container of an application. -/
def onlyContainer (snapshot : RegistryApplicationSnapshotReadRecord) :
    Except Failure (RegistryServiceSnapshotReadRecord × RegistryRuntimeContainerReadRecord) :=
  match snapshot.services, snapshot.runtimeContainers with
  | [_], [] => .error (.mutation .applicationRuntimeUnavailable
      "No current runtime target is available")
  | [service], [container] => .ok (service, container)
  | _, _ => .error shapeUnsupported

/-- The checks that the container is the one of the deployment. -/
def checkOwnership (deployment : RegistryDeploymentReadRecord)
    (service : RegistryServiceSnapshotReadRecord) (container : RegistryRuntimeContainerReadRecord) :
    Except Failure Unit := do
  throwIf (service.deploymentId ≠ deployment.id ∨ container.serviceId ≠ service.id
      ∨ service.runtimeContainers.map (fun c => (c.id, c.containerId)) ≠
        [(container.id, container.containerId)])
    (.mutation .targetOwnershipMismatch
      "The runtime target does not belong to the current deployment")
  throwIf (isDigest container.containerId = false)
    (.mutation .invalidTarget "The runtime target identity is invalid")

/-- The evidence is about the container, and all of it is fresh. -/
def checkEvidence (maximumAgeMs now : Timestamp) (application : RegistryApplicationReadRecord)
    (deployment : RegistryDeploymentReadRecord) (container : RegistryRuntimeContainerReadRecord)
    (evidence : AuthoritativeRuntimeTargetEvidence) : Except Failure Unit := do
  throwIf (evidence.containerIds ≠ [container.containerId]
      ∨ container.observedAt ≠ some evidence.observedAt)
    (.mutation .targetSnapshotNotAuthoritative
      "Authoritative runtime target evidence does not match the registry snapshot")
  throwIf (application.lastDiscoveredAt.all (fun at' => !timestampIsFresh at' now maximumAgeMs)
      ∨ timestampIsFresh deployment.discoveredAt now maximumAgeMs = false
      ∨ timestampIsFresh evidence.observedAt now maximumAgeMs = false)
    (.mutation .targetSnapshotStale "The runtime target snapshot is stale")
  throwIf (isIdentifier 1 128 evidence.evidenceId = false)
    (.mutation .targetSnapshotNotAuthoritative "Authoritative runtime target evidence is invalid")

/-- What `resolve` makes of the answers of registry and authority. -/
def resolveFrom (host : Host) (maximumAgeMs now : Timestamp) (applicationId : JsString)
    (action : ActionType) (snapshot : Option RegistryApplicationSnapshotReadRecord)
    (evidence : Option AuthoritativeRuntimeTargetEvidence) :
    Except Failure AuthoritativeApplicationTargetSnapshot :=
  match snapshot with
  | none => .error (.mutation .applicationNotFound "Application not found")
  | some snapshot => do
    let policy := defaultMutationPolicy snapshot.application
    throwIf (policy.allowed = false ∨ policy.executionDomain ≠ .docker)
      (.mutation (policy.errorCode.getD .unsupportedManagement)
        "No supported management path exists")
    match snapshot.deployment with
    | none => .error (.mutation .invalidTarget "A current deployment is required")
    | some deployment =>
      let (service, container) ← onlyContainer snapshot
      checkOwnership deployment service container
      match evidence with
      | none => .error evidenceUnavailable
      | some evidence =>
        throwIf (evidence.applicationId ≠ applicationId ∨ evidence.deploymentId ≠ deployment.id)
          evidenceUnavailable
        checkEvidence maximumAgeMs now snapshot.application deployment container evidence
        return {
          applicationId := applicationId
          deploymentId := deployment.id
          serviceId := service.id
          containerId := container.containerId
          action := action
          targetFingerprint := host.sha256 (jsonArray [jsonString applicationId,
            jsonString deployment.id, jsonString service.id, jsonString container.containerId,
            jsonString action.name, jsonString evidence.evidenceId,
            jsonString (host.toISOString evidence.observedAt)])
          snapshotAt := now
          authorityEvidence := evidence.evidenceId
          applicationDiscoveredAt := snapshot.application.lastDiscoveredAt.getD 0
          deploymentDiscoveredAt := deployment.discoveredAt
          runtimeObservedAt := evidence.observedAt }

end AuthoritativeApplicationTargetSnapshotService

end ZimaControl
