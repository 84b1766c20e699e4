import ZimaControl.Lib.Solo
import ZimaControl.Mutation.Calls
import ZimaControl.Mutation.Planner
import ZimaControl.Runtime.Client

/-!
# The production mutation service

`GatewayApplicationMutationService.perform`: authorise, validate, resolve the deployment, claim the
operation durably, take the lease, ask the runtime gateway, and record what came of it. It is a task
whose calls go to the durable repository, the registry, the clock and the gateway.
-/

namespace ZimaControl

/-! ## Public errors and responses -/

/-- `PublicMutationErrorCode`. -/
inductive PublicMutationErrorCode
  | authenticationRequired
  | forbidden
  | invalidRequest
  | idempotencyConflict
  | targetUnsupported
  | targetUnavailable
  | operationConflict
  | mutationFailed
  | mutationTimedOut
  | mutationIndeterminate
  | internalError

/-- `publicCodeForMutationError`. -/
def publicCodeForMutationError : MutationErrorCode → PublicMutationErrorCode
  | .authenticationRequired => .authenticationRequired
  | .unauthorized => .forbidden
  | .invalidRequest | .invalidTarget => .invalidRequest
  | .idempotencyConflict => .idempotencyConflict
  | .unsupportedManagement | .unsupportedRuntime | .applicationShapeUnsupported
  | .notImplemented => .targetUnsupported
  | .applicationNotFound | .targetOwnershipMismatch | .targetResolutionFailed
  | .applicationRuntimeUnavailable | .targetSnapshotNotAuthoritative | .targetSnapshotStale
  | .containerNotFound | .identityMismatch => .targetUnavailable
  | .operationInProgress | .lockCapacityExceeded => .operationConflict
  | .operationTimedOut => .mutationTimedOut
  | .mutationUncertain | .recoveryOutcomeUnknown | .postActionVerificationFailed
  | .dockerTimeout => .mutationIndeterminate
  | .executionRejected | .executionFailed | .verificationFailed | .recoveryPreExecutionAborted
  | .dockerUnavailable | .dockerPermissionDenied | .actionRejectedByDocker => .mutationFailed
  | .persistenceFailed | .auditPersistenceFailed | .illegalStateTransition
  | .staleOperationOwnership => .internalError

/-- `ApplicationMutationOutcomeCode`. -/
inductive ApplicationMutationOutcomeCode
  | inProgress
  | succeeded
  | rejected
  | failed
  | timedOut
  | cancelled
  | indeterminate

/-- `mutationOutcomeCodeForStatus`. -/
def mutationOutcomeCodeForStatus : ActionStatus → ApplicationMutationOutcomeCode
  | .pending | .authorized | .validated | .executing | .verifying => .inProgress
  | .succeeded => .succeeded
  | .rejected => .rejected
  | .failed => .failed
  | .timedOut => .timedOut
  | .cancelled => .cancelled
  | .indeterminate => .indeterminate

/-- `ApplicationMutationOperationResponse`. -/
structure ApplicationMutationOperationResponse where
  operationId : JsString
  applicationId : JsString
  action : ActionType
  status : ActionStatus
  replayed : Bool
  outcomeCode : ApplicationMutationOutcomeCode

/-- `ApplicationMutationRequest`. -/
structure ApplicationMutationRequest where
  action : ActionType
  idempotencyKey : JsString

/-- What `perform` and the calls that it makes throw. -/
inductive MutationServiceFailure
  /-- `new ApplicationMutationServiceError(code)`. -/
  | service (code : PublicMutationErrorCode)
  /-- The `AuthorizationError` of `requireRole`, with its code `FORBIDDEN`. -/
  | authorization
  /-- An error of the repository, the registry or the clock. -/
  | dependency (e : Failure)
  /-- An error of the runtime gateway. -/
  | runtime (e : RuntimeFailure)

/-! ## The tables -/

/-- What a failed gateway call is recorded and reported as. -/
structure MappedFailure where
  status : ActionStatus
  mutationErrorCode : MutationErrorCode
  publicCode : PublicMutationErrorCode

/-- The rows that `mapGatewayError` and `mapAdapterOutcome` share. -/
def mapAdapterCode : AdapterErrorCode → MappedFailure
  | .applicationNotFound => ⟨.failed, .applicationNotFound, .targetUnavailable⟩
  | .deploymentNotFound => ⟨.failed, .targetResolutionFailed, .targetUnavailable⟩
  | .revisionMismatch => ⟨.failed, .identityMismatch, .operationConflict⟩
  | .operationInProgress => ⟨.failed, .operationInProgress, .operationConflict⟩
  | .containerNotFound => ⟨.failed, .containerNotFound, .targetUnavailable⟩
  | .unexpectedContainer => ⟨.failed, .applicationShapeUnsupported, .targetUnavailable⟩
  | .dockerUnavailable => ⟨.failed, .dockerUnavailable, .mutationFailed⟩
  | .requestDeadlineExceeded | .dockerTimeout => ⟨.timedOut, .operationTimedOut, .mutationTimedOut⟩
  | _ => ⟨.failed, .executionFailed, .mutationFailed⟩

/-- `mapGatewayError`. -/
def mapGatewayError : MutationServiceFailure → MappedFailure
  | .runtime (.client e) =>
    match e.code with
    | .applicationRuntimeUnavailable => ⟨.failed, .applicationRuntimeUnavailable, .targetUnavailable⟩
    | .adapter (.known .peerUnauthorized) => ⟨.failed, .unauthorized, .forbidden⟩
    | .adapter (.known code) => mapAdapterCode code
    | .adapter (.foreign _) => ⟨.failed, .executionFailed, .mutationFailed⟩
  | .dependency (.mutation code _) => ⟨.failed, code, publicCodeForMutationError code⟩
  | _ => ⟨.failed, .executionFailed, .internalError⟩

/-- `mapAdapterOutcome`. -/
def mapAdapterOutcome (response : ApplicationRuntimeResponse) : MappedFailure :=
  match response.errorCode with
  | some (.known code) => mapAdapterCode code
  | _ => ⟨.failed, .executionFailed, .mutationFailed⟩

/-- No row of the shared table is an unknown outcome. -/
theorem mapAdapterCode_status (code : AdapterErrorCode) :
    (mapAdapterCode code).status = .failed ∨ (mapAdapterCode code).status = .timedOut := by
  cases code <;> simp [mapAdapterCode]

/-- No failure of the gateway is recorded as an unknown outcome. -/
theorem mapGatewayError_status (e : MutationServiceFailure) :
    (mapGatewayError e).status = .failed ∨ (mapGatewayError e).status = .timedOut := by
  unfold mapGatewayError
  split
  · split
    · exact .inl rfl
    · exact .inl rfl
    · exact mapAdapterCode_status _
    · exact .inl rfl
  · exact .inl rfl
  · exact .inl rfl

/-- No response is recorded as an unknown outcome. -/
theorem mapAdapterOutcome_status (response : ApplicationRuntimeResponse) :
    (mapAdapterOutcome response).status = .failed ∨
      (mapAdapterOutcome response).status = .timedOut := by
  unfold mapAdapterOutcome
  split
  · exact mapAdapterCode_status _
  · exact .inl rfl

/-! ## Calls -/

/-- The calls of `perform`. -/
inductive GatewayServiceCall
  /-- A call on the durable repository. -/
  | repository (c : RepositoryCall)
  /-- `this.registry.getApplicationSnapshot(applicationId)`. -/
  | getApplicationSnapshot (applicationId : JsString)
  /-- `this.clock()`. -/
  | clock
  /-- `randomUUID()`. -/
  | randomUUID
  /-- `startApplication`, `stopApplication` or `restartApplication`. -/
  | gateway (operation : AdapterOperationType) (params : ApplicationRuntimeMutationParams)

/-- What the gateway, the repository or the clock answers. -/
def GatewayServiceCall.Answer : GatewayServiceCall → Type
  | repository c => c.Answer
  | getApplicationSnapshot _ => Option RegistryApplicationSnapshotReadRecord
  | clock => Timestamp
  | randomUUID => JsString
  | gateway .. => ApplicationRuntimeResponse

/-- The programs of the service. -/
abbrev GatewayServiceTask :=
  Task GatewayServiceCall GatewayServiceCall.Answer MutationServiceFailure

/-- `GatewayApplicationMutationServiceOptions`, with the hash of the host. -/
structure GatewayApplicationMutationService where
  host : Host
  gateway : ApplicationRuntimeGateway
  /-- The runtime's JSON parser, which the client decodes responses with. -/
  parse : PayloadParser
  policy : MutationPolicy := defaultMutationPolicy
  operationTimeoutMs : ℕ := 30000
  idempotencyTtlMs : ℕ := 24 * 60 * 60000

/-- The operation of the gateway for an action. -/
def ActionType.adapterOperation : ActionType → AdapterOperationType
  | start => .startApplication
  | stop => .stopApplication
  | restart => .restartApplication

/-- A role as it travels. -/
def Role.name : Role → JsString
  | admin => js "ADMIN"
  | operator => js "OPERATOR"
  | viewer => js "VIEWER"

namespace GatewayApplicationMutationService

/-- Makes a call and waits for its answer. -/
def ask (c : GatewayServiceCall) : GatewayServiceTask c.Answer := Task.perform c

/-- A call on the repository. -/
def repository (c : RepositoryCall) : GatewayServiceTask c.Answer := ask (.repository c)

/-- `this.clock()`. -/
def now : GatewayServiceTask Timestamp := ask .clock

/-- `throw new ApplicationMutationServiceError(code)`. -/
def fail {α : Type} (code : PublicMutationErrorCode) : GatewayServiceTask α := throw (.service code)

/-- The lookup of step 3, with the error that its `catch` throws. -/
def findSnapshot (applicationId : JsString) :
    GatewayServiceTask (Option RegistryApplicationSnapshotReadRecord) := do
  match ← (ask (.getApplicationSnapshot applicationId)).attempt with
  | .ok snapshot => return snapshot
  | .error _ => fail .targetUnavailable

variable (service : GatewayApplicationMutationService)

/-- The end of step 3: the deployment of an application that the policy admits. -/
def admitSnapshot : Option RegistryApplicationSnapshotReadRecord → GatewayServiceTask JsString
  | none => fail .targetUnavailable
  | some snapshot =>
    let decision := service.policy snapshot.application
    if decision.allowed = false ∨ decision.executionDomain ≠ .docker then fail .targetUnsupported
    else match snapshot.deployment with
      | none => fail .targetUnavailable
      | some deployment => return deployment.id

/-- Steps 1 to 3: authorisation, validation, and the current deployment. -/
def resolveDeployment (actor : PlanActor) (applicationId : JsString)
    (request : ApplicationMutationRequest) : GatewayServiceTask JsString :=
  if actor.role.canActAs .operator = false then throw .authorization
  else if isIdentifier 1 128 applicationId = false ∨
      isIdentifier 8 128 request.idempotencyKey = false then
    fail .invalidRequest
  else do
    let snapshot ← findSnapshot applicationId
    service.admitSnapshot snapshot

/-- What a claim that the repository refused is reported as. -/
def claimError : MutationServiceFailure → PublicMutationErrorCode
  | .dependency (.mutation code _) => publicCodeForMutationError code
  | _ => .internalError

/-- Step 4: the durable claim, made at time `claimedAt`. -/
def claimOperation (actor : PlanActor) (applicationId : JsString)
    (request : ApplicationMutationRequest) (claimedAt : Timestamp) :
    GatewayServiceTask DurableMutationClaim := do
  let operationId : JsString ← ask .randomUUID
  let plan : ActionPlan :=
    { operationId := operationId
      actor := actor
      action := request.action
      target := ⟨applicationId, none, none⟩
      executionDomain := SupportedDomain.docker
      operationKey := applicationKey applicationId
      idempotencyKey := request.idempotencyKey }
  match ← (repository (.claim
      { plan := plan
        fingerprint := mutationFingerprint service.host plan.action plan.target
        now := claimedAt
        idempotencyExpiresAt := claimedAt + service.idempotencyTtlMs
        deadlineAt := claimedAt + service.operationTimeoutMs })).attempt with
  | .ok claim => return claim
  | .error e => fail (claimError e)

/-- The lease of step 5, and the operation in `EXECUTING`, or else rejected. -/
def beginExecution (operation : DurableMutationOperation) (claimedAt : Timestamp) :
    GatewayServiceTask MutationLease := do
  match ← repository (.acquireLease operation.operationKey operation.id claimedAt
      (claimedAt + 120000)) with
  | none =>
    let rejectedAt ← now
    let completedAt ← now
    let _ ← repository (.transitionWithAudit
      { operationId := operation.id
        expected := [.validated]
        status := .rejected
        now := rejectedAt
        eventType := .failed
        reasonCode := some .operationInProgress
        completedAt := some (some completedAt) })
    fail .operationConflict
  | some lease =>
    let executingAt ← now
    let startedAt ← now
    let _ ← repository (.transitionWithAudit
      { operationId := operation.id
        expected := [.validated]
        status := .executing
        now := executingAt
        eventType := .stateChanged
        startedAt := some (some startedAt)
        ownership := some lease })
    return lease

/-- The parameters of step 6. -/
def mutationParams (actor : PlanActor) (applicationId deploymentId : JsString) :
    ApplicationRuntimeMutationParams where
  applicationId := applicationId
  deploymentId := deploymentId
  expectedRevision := deploymentId
  actor := ⟨actor.id, some actor.role.name⟩
  timeoutMs := service.operationTimeoutMs

/-- The transition that records a failed gateway call, and its error. -/
def recordFailure {α : Type} (operation : DurableMutationOperation) (lease : MutationLease)
    (mapped : MappedFailure) : GatewayServiceTask α := do
  let failedAt ← now
  let completedAt ← now
  let _ ← repository (.transitionWithAudit
    { operationId := operation.id
      expected := [.executing]
      status := mapped.status
      now := failedAt
      eventType := .failed
      reasonCode := some mapped.mutationErrorCode
      completedAt := some (some completedAt)
      ownership := some lease
      releaseLease := true })
  fail mapped.publicCode

/-- The two transitions that record a success. -/
def recordSuccess (operation : DurableMutationOperation) (lease : MutationLease)
    (applicationId : JsString) (action : ActionType) :
    GatewayServiceTask ApplicationMutationOperationResponse := do
  let verifyingAt ← now
  let _ ← repository (.transitionWithAudit
    { operationId := operation.id
      expected := [.executing]
      status := .verifying
      now := verifyingAt
      eventType := .stateChanged
      verificationState := some .pending
      ownership := some lease })
  let succeededAt ← now
  let completedAt ← now
  let _ ← repository (.transitionWithAudit
    { operationId := operation.id
      expected := [.verifying]
      status := .succeeded
      now := succeededAt
      eventType := .completed
      verificationState := some .verified
      completedAt := some (some completedAt)
      ownership := some lease
      releaseLease := true })
  return ⟨operation.id, applicationId, action, .succeeded, false, .succeeded⟩

/-- Steps 6 and 7: the gateway is asked and the outcome recorded. -/
def invoke (actor : PlanActor) (applicationId deploymentId : JsString) (action : ActionType)
    (operation : DurableMutationOperation) (lease : MutationLease) :
    GatewayServiceTask ApplicationMutationOperationResponse := do
  let answered : Except MutationServiceFailure ApplicationRuntimeResponse ←
    (ask (.gateway action.adapterOperation
      (service.mutationParams actor applicationId deploymentId))).attempt
  match answered with
  | .error e => recordFailure operation lease (mapGatewayError e)
  | .ok response =>
    if response.outcome = .known .succeeded then
      recordSuccess operation lease applicationId action
    else recordFailure operation lease (mapAdapterOutcome response)

/-- `perform`. -/
def perform (actor : PlanActor) (applicationId : JsString) (request : ApplicationMutationRequest) :
    GatewayServiceTask ApplicationMutationOperationResponse := do
  let deploymentId ← service.resolveDeployment actor applicationId request
  let claimedAt ← now
  let claim ← service.claimOperation actor applicationId request claimedAt
  match claim.kind with
  | .replay =>
    let operation := claim.operation
    return ⟨operation.id, operation.applicationId, operation.action, operation.status, true,
      mutationOutcomeCodeForStatus operation.status⟩
  | .created =>
    let lease ← beginExecution claim.operation claimedAt
    service.invoke actor applicationId deploymentId request.action claim.operation lease

end GatewayApplicationMutationService

/-! ## The world of one execution -/

/-- The world of one execution of `perform`, with a record of what it did. -/
structure GatewayWorld where
  repository : Repository
  /-- A call that the execution made on the repository threw. -/
  threw : Bool := false
  /-- The operation that the execution created. -/
  created : Option JsString := none
  /-- The conversations of the gateway with the daemon. -/
  exchanges : List (AdapterOperationType × ApplicationRuntimeMutationParams × RuntimeExchange) := []

/-- What the environment chooses at a call. -/
inductive GatewayChoice
  /-- The calls that others make on the repository before this one. -/
  | after (others : List RepositoryCall)
  | snapshot (answer : Except Failure (Option RegistryApplicationSnapshotReadRecord))
  | time (now : Timestamp)
  | id (value : JsString)
  | exchange (exchange : RuntimeExchange)

namespace GatewayWorld

/-- The world after a repository call of the execution. -/
def afterCall (w : GatewayWorld) (c : RepositoryCall) (outcome : RepositoryOutcome c.Answer) :
    GatewayWorld :=
  { w with
    repository := outcome.2
    threw := w.threw || !outcome.1.isOk
    created := match c, outcome.1 with
      | .claim _, .ok ⟨.created, operation⟩ => some operation.id
      | _, _ => w.created }

/-- How the world answers a call. A conversation lists the attempts that were made. -/
def exec (service : GatewayApplicationMutationService) :
    Handler GatewayServiceCall GatewayServiceCall.Answer MutationServiceFailure GatewayWorld
      GatewayChoice
  | w, .repository c, .after others =>
    let outcome := c.exec service.host (w.repository.run service.host others)
    some (outcome.1.mapError .dependency, w.afterCall c outcome)
  | w, .getApplicationSnapshot _, .snapshot answer => some (answer.mapError .dependency, w)
  | w, .clock, .time now => some (.ok now, w)
  | w, .randomUUID, .id value => some (.ok value, w)
  | w, .gateway operation params, .exchange exchange =>
    match service.gateway.executeOperation service.parse operation params exchange with
    | some (result, []) =>
      some (result.mapError .runtime,
        { w with exchanges := w.exchanges ++ [(operation, params, exchange)] })
    | _ => none
  | _, _, _ => none

/-- The outcome of the action asked of the daemon is unknown. -/
def outcomeUnknown (service : GatewayApplicationMutationService) (w : GatewayWorld) : Bool :=
  w.exchanges.any fun (operation, params, exchange) =>
    exchange.outcomeUnknown service.parse operation params

end GatewayWorld

end ZimaControl
