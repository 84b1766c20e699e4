import ZimaControl.Lib.Task
import ZimaControl.Mutation.Calls
import ZimaControl.Mutation.Planner

/-!
# The services around the repository

The programs of `durable-mutation.ts` and of the Docker adapter, written as tasks: the two
performers `ApplicationMutationOrchestrator` and `MutationOperationService`, the Docker executor and
verifier they start, and the two recovery services. A task makes one call at a time. Calls on the
repository are atomic; clocks, ids, timers, abort signals, the registry, the runtime authority,
Docker and the failure injector answer as the environment pleases.

A mutating Docker request is two calls, one that issues it and one that waits for it to settle:
other tasks run in between.
-/

namespace ZimaControl

/-! ## Data -/

/-- `ActionExecutionOutcome`. -/
inductive ActionExecutionOutcome
  | notStarted
  | cancelledBeforeEffect
  | completed
  | effectPossiblyActive
  deriving DecidableEq

/-- `ActionExecutionResult`. -/
structure ActionExecutionResult where
  accepted : Bool
  outcome : ActionExecutionOutcome
  errorCode : Option MutationErrorCode := none

/-- `isSafePreEffectOutcome`. -/
def isSafePreEffectOutcome (outcome : ActionExecutionOutcome) : Bool :=
  outcome = .notStarted ∨ outcome = .cancelledBeforeEffect

/-- The `outcome` of a `VerificationResult`. -/
inductive VerificationOutcome
  | verified
  | mismatch
  | unknown
  deriving DecidableEq

/-- `VerificationResult`. -/
structure VerificationResult where
  verified : Bool
  outcome : Option VerificationOutcome := none
  errorCode : Option MutationErrorCode := none

/-- `MutationExecutionContext`; its abort signal is read by a call. -/
structure MutationExecutionContext where
  operationId : JsString
  deadlineAt : Timestamp
  operationKey : JsString
  fencingToken : ℕ

/-- `MutationFailurePoint`. -/
inductive MutationFailurePoint
  | beforeExecutorState
  | immediatelyBeforeExecutor
  | afterExecutorBeforePersist
  | beforeVerification
  | afterVerification
  | beforeFinalAudit

/-- `ActionResult`. -/
structure ActionResult where
  operationId : JsString
  action : ActionType
  target : ActionTarget
  status : ActionStatus
  errorCode : Option MutationErrorCode

/-- `ApplicationMutationOutcome`. -/
structure ApplicationMutationOutcome where
  result : ActionResult
  operation : DurableMutationOperation
  step : DurableMutationOperationStep
  replayed : Bool

/-- `DockerContainerState`. -/
inductive DockerContainerState
  | created
  | restarting
  | running
  | removing
  | paused
  | exited
  | dead
  | unknown
  deriving DecidableEq

/-- `DockerContainerInspection`. -/
structure DockerContainerInspection where
  containerId : JsString
  state : DockerContainerState

/-- `DeadlineAttempt`. -/
inductive DeadlineAttempt (T : Type)
  | completed (value : T)
  | timedOut (acknowledgement : Option (Except Failure T))

/-! ## Calls -/

/-- The calls of the services. -/
inductive ServiceCall
  /-- A call on the repository. -/
  | repository (c : RepositoryCall)
  /-- `this.clock()`. -/
  | clock
  /-- `this.operationIdFactory()` or `this.stepIdFactory()`. -/
  | newId
  /-- `this.failureInjector?.(point)`. -/
  | hit (point : MutationFailurePoint)
  /-- `registry.getApplicationSnapshot(applicationId)`. -/
  | getApplicationSnapshot (applicationId : JsString)
  /-- `authority.getAuthoritativeEvidence(applicationId)`. -/
  | getAuthoritativeEvidence (applicationId : JsString)
  /-- `Promise.resolve().then(() => executor.execute(plan, context))`; the answer is its number. -/
  | startExecution (plan : ActionPlan) (context : MutationExecutionContext)
  /-- A race of an execution with a timer. -/
  | raceExecution (work : ℕ)
  /-- `Promise.resolve().then(() => verifier.verify(plan, execution, context))`. -/
  | startVerification (plan : ActionPlan) (execution : ActionExecutionResult)
      (context : MutationExecutionContext)
  /-- A race of a verification with a timer. -/
  | raceVerification (work : ℕ)
  /-- `context.signal.aborted`. -/
  | aborted
  /-- `gateway.inspect(containerId)`. -/
  | inspect (containerId : JsString)
  /-- `gateway.start`, `stop` or `restart` is called for an operation. -/
  | invoke (operationId : JsString) (action : ActionType) (containerId : JsString)
  /-- That call settles. -/
  | settled (operationId : JsString)

namespace ServiceCall

/-- What a call answers. -/
def Answer : ServiceCall → Type
  | repository c => c.Answer
  | clock => Timestamp
  | newId => JsString
  | hit _ => Unit
  | getApplicationSnapshot _ => Option RegistryApplicationSnapshotReadRecord
  | getAuthoritativeEvidence _ => Option AuthoritativeRuntimeTargetEvidence
  | startExecution .. => ℕ
  | raceExecution _ => Option (Except Failure ActionExecutionResult)
  | startVerification .. => ℕ
  | raceVerification _ => Option (Except Failure VerificationResult)
  | aborted => Bool
  | inspect _ => DockerContainerInspection
  | invoke .. => Unit
  | settled _ => Unit

end ServiceCall

/-- A program of the services. -/
abbrev Service (α : Type) := Task ServiceCall ServiceCall.Answer Failure α

namespace Service

/-- Makes a repository call. -/
def repository (c : RepositoryCall) : Service c.Answer :=
  Task.perform (R := ServiceCall.Answer) (.repository c)

/-- Reads the clock. -/
def clock : Service Timestamp := Task.perform (R := ServiceCall.Answer) .clock

/-- Generates an id. -/
def newId : Service JsString := Task.perform (R := ServiceCall.Answer) .newId

/-- `hit`. -/
def hit (point : MutationFailurePoint) : Service Unit :=
  Task.perform (R := ServiceCall.Answer) (.hit point)

/-- Reads the registry. -/
def getApplicationSnapshot (applicationId : JsString) :
    Service (Option RegistryApplicationSnapshotReadRecord) :=
  Task.perform (R := ServiceCall.Answer) (.getApplicationSnapshot applicationId)

/-- Reads the runtime authority. -/
def getAuthoritativeEvidence (applicationId : JsString) :
    Service (Option AuthoritativeRuntimeTargetEvidence) :=
  Task.perform (R := ServiceCall.Answer) (.getAuthoritativeEvidence applicationId)

/-- Starts an execution. -/
def startExecution (plan : ActionPlan) (context : MutationExecutionContext) : Service ℕ :=
  Task.perform (R := ServiceCall.Answer) (.startExecution plan context)

/-- Waits for an execution or a timer. -/
def raceExecution (work : ℕ) : Service (Option (Except Failure ActionExecutionResult)) :=
  Task.perform (R := ServiceCall.Answer) (.raceExecution work)

/-- Starts a verification. -/
def startVerification (plan : ActionPlan) (execution : ActionExecutionResult)
    (context : MutationExecutionContext) : Service ℕ :=
  Task.perform (R := ServiceCall.Answer) (.startVerification plan execution context)

/-- Waits for a verification or a timer. -/
def raceVerification (work : ℕ) : Service (Option (Except Failure VerificationResult)) :=
  Task.perform (R := ServiceCall.Answer) (.raceVerification work)

/-- Reads the abort signal. -/
def aborted : Service Bool := Task.perform (R := ServiceCall.Answer) .aborted

/-- Inspects a container. -/
def inspect (containerId : JsString) : Service DockerContainerInspection :=
  Task.perform (R := ServiceCall.Answer) (.inspect containerId)

/-- Issues a mutating Docker request. -/
def invoke (operationId : JsString) (action : ActionType) (containerId : JsString) : Service Unit :=
  Task.perform (R := ServiceCall.Answer) (.invoke operationId action containerId)

/-- Waits for the mutating Docker request. -/
def settled (operationId : JsString) : Service Unit :=
  Task.perform (R := ServiceCall.Answer) (.settled operationId)

/-- The outcome of a pure function. -/
def result {α : Type} (x : Except Failure α) : Service α := .ret x

/-- `safe`: an error of another class becomes a `MutationError`. -/
def safe {α : Type} (t : Service α) (code : MutationErrorCode := .persistenceFailed) : Service α :=
  tryCatch t fun
    | .mutation code' message => throw (.mutation code' message)
    | .crashSimulation => throw .crashSimulation
    | _ => throw (.mutation code "Mutation persistence failed")

end Service

open Service

/-- The options of a performer, as its constructor accepts them. -/
structure DurableMutationServiceOptions where
  idempotencyTtlMs : Timestamp := 86400000
  operationTimeoutMs : Timestamp := 60000
  lockLeaseMs : Timestamp := 120000
  cancellationAcknowledgementMs : Timestamp := 100
  /-- `duration` accepts positive values only. -/
  idempotencyTtlMs_pos : 0 < idempotencyTtlMs := by decide
  operationTimeoutMs_pos : 0 < operationTimeoutMs := by decide
  cancellationAcknowledgementMs_pos : 0 < cancellationAcknowledgementMs := by decide
  /-- "Operation timeout and cancellation acknowledgement window must be shorter than lock lease". -/
  shorter : operationTimeoutMs + cancellationAcknowledgementMs < lockLeaseMs := by decide

/-- What the services are configured with. -/
structure ServiceConfig where
  host : Host
  options : DurableMutationServiceOptions := {}
  /-- The policy of planner, executor and verifier. -/
  policy : MutationPolicy := defaultMutationPolicy
  /-- The age up to which a target snapshot counts as fresh. -/
  maximumAgeMs : Timestamp
  recoveryLeaseMs : Timestamp := 30000
  maximumAgeMs_pos : 0 < maximumAgeMs := by decide
  recoveryLeaseMs_pos : 0 < recoveryLeaseMs := by decide

/-! ## What performers share -/

/-- `AuthoritativeApplicationTargetSnapshotService.resolve`. -/
def resolve (config : ServiceConfig) (applicationId : JsString) (action : ActionType) :
    Service AuthoritativeApplicationTargetSnapshot := do
  let now ← clock
  match ← (do
      let snapshot ← getApplicationSnapshot applicationId
      let evidence ← getAuthoritativeEvidence applicationId
      return (snapshot, evidence) : Service _).attempt with
  | .error _ => throw (.mutation .targetResolutionFailed "The mutation target could not be resolved")
  | .ok (snapshot, evidence) =>
    result (AuthoritativeApplicationTargetSnapshotService.resolveFrom config.host
      config.maximumAgeMs now applicationId action snapshot evidence)

/-- `withDeadline`: no work is started after the deadline; started work is raced with the deadline's
timer and then with the acknowledgement window. -/
def withDeadline {T : Type} (operation : DurableMutationOperation) (start : Service ℕ)
    (race : ℕ → Service (Option (Except Failure T))) (notStarted : Option T) :
    Service (DeadlineAttempt T) := do
  let now ← clock
  if operation.deadlineAt ≤ now then return .timedOut (notStarted.map .ok)
  else do
    let work ← start
    match ← race work with
    | some (.error reason) => throw reason
    | some (.ok value) => return .completed value
    | none =>
      let acknowledgement ← race work
      return .timedOut acknowledgement

/-- The context `withDeadline` passes to the work. -/
def executionContext (operation : DurableMutationOperation) (lease : MutationLease) :
    MutationExecutionContext :=
  ⟨operation.id, operation.deadlineAt, lease.operationKey, lease.fencingToken⟩

/-- What an executor that was never started would have answered. -/
def neverStarted : ActionExecutionResult := ⟨false, .notStarted, none⟩

/-- The execution of a plan under the deadline of its operation. -/
def executeWithDeadline (operation : DurableMutationOperation) (lease : MutationLease)
    (plan : ActionPlan) : Service (DeadlineAttempt ActionExecutionResult) :=
  withDeadline operation (startExecution plan (executionContext operation lease)) raceExecution
    (some neverStarted)

/-- The verification of an execution under the deadline of its operation. -/
def verifyWithDeadline (operation : DurableMutationOperation) (lease : MutationLease)
    (plan : ActionPlan) (execution : ActionExecutionResult) :
    Service (DeadlineAttempt VerificationResult) :=
  withDeadline operation (startVerification plan execution (executionContext operation lease))
    raceVerification none

/-- The error of an operation that ran out of time. -/
def timedOutError : Failure := .mutation .operationTimedOut "The operation timed out"

/-- The error of a key whose lock is taken. -/
def inProgressError : Failure :=
  .mutation .operationInProgress "Another operation is already in progress"

/-! ## The orchestrator -/

namespace ApplicationMutationOrchestrator

/-- `onlyStep`. -/
def onlyStep (value : DurableParentChildOperation) : Except Failure DurableMutationOperationStep :=
  match value.steps with
  | [step] => .ok step
  | _ => .error (.mutation .applicationShapeUnsupported "Exactly one durable child step is required")

/-- `applicationOutcome`. -/
def applicationOutcome (value : DurableParentChildOperation) (replayed : Bool) :
    Except Failure ApplicationMutationOutcome := do
  let step ← onlyStep value
  let operation := value.operation
  return ⟨⟨operation.id, operation.action, ⟨operation.applicationId, none, none⟩, operation.status,
    operation.reasonCode⟩, operation, step, replayed⟩

/-- `childActionPlan`. -/
def childActionPlan (parent : ActionPlan) (step : DurableMutationOperationStep) : ActionPlan :=
  { parent with target := ⟨step.applicationId, some step.serviceId, some step.containerId⟩ }

/-- `dispatchAuthorized`. -/
def dispatchAuthorized (operationId stepId : JsString) : Service Bool := do
  let value ← safe (repository (.findOperationWithSteps operationId))
  match value.bind fun value => value.steps.find? (·.id = stepId) with
  | none => throw persistenceFailed
  | some step => return step.dispatchAuthorizedAt.isSome

/-- `finalize`. -/
def finalize (operationId stepId : JsString) (lease : MutationLease) (status : ActionStatus)
    (verificationState : VerificationState) (recoveryState : RecoveryState)
    (externalEffect : ExternalEffectState) (reasonCode : MutationErrorCode) : Service Unit := do
  let now ← clock
  let _ ← safe (repository (.finalizeStepAndParent
    { operationId := operationId, childStepId := stepId
      expected := if status = .succeeded then [.verifying] else [.executing, .verifying]
      status := status, now := now, ownership := lease, verificationState := verificationState
      recoveryState := recoveryState, externalEffect := externalEffect
      reasonCode := some reasonCode }))

/-- Whether the executor acknowledged in time that it caused no effect. -/
def acknowledgedSafe : Option (Except Failure ActionExecutionResult) → Bool
  | some (.ok value) => isSafePreEffectOutcome value.outcome
  | _ => false

/-- The reason of an execution that ran out of time with an unknown outcome. -/
def acknowledgedCode : Option (Except Failure ActionExecutionResult) → MutationErrorCode
  | some (.ok value) => value.errorCode.getD .mutationUncertain
  | _ => .mutationUncertain

/-- The end of an execution that ran out of time. -/
def finalizeTimedOut (operationId stepId : JsString) (lease : MutationLease)
    (acknowledgement : Option (Except Failure ActionExecutionResult)) : Service Unit := do
  let dispatched ← dispatchAuthorized operationId stepId
  if acknowledgedSafe acknowledgement ∧ dispatched = false then
    finalize operationId stepId lease .timedOut .unknown .none .notStarted .operationTimedOut
  else
    finalize operationId stepId lease .indeterminate .unknown .outcomeUnknown
      (if dispatched then .effectPossiblyActive else .notStarted) (acknowledgedCode acknowledgement)

/-- The end of an executor that threw. -/
def finalizeThrown (operationId stepId : JsString) (lease : MutationLease) :
    Service ActionExecutionResult := do
  if ← dispatchAuthorized operationId stepId then
    finalize operationId stepId lease .indeterminate .unknown .outcomeUnknown .effectPossiblyActive
      .mutationUncertain
    throw (.mutation .executionFailed "The external operation outcome is unknown")
  else
    finalize operationId stepId lease .failed .failed .none .notStarted .executionFailed
    throw (.mutation .executionFailed "The executor rejected the operation")

/-- The execution of the child, with the ends of an executor that timed out or threw. -/
def execute (operation : DurableMutationOperation) (stepId : JsString) (lease : MutationLease)
    (plan : ActionPlan) : Service ActionExecutionResult :=
  tryCatch (do
      match ← executeWithDeadline operation lease plan with
      | .timedOut acknowledgement =>
        finalizeTimedOut operation.id stepId lease acknowledgement
        throw timedOutError
      | .completed value => return value)
    fun
    | .mutation code message => throw (.mutation code message)
    | .crashSimulation => throw .crashSimulation
    | _ => finalizeThrown operation.id stepId lease

/-- The verification of the child, with the ends of a verifier that timed out or threw. -/
def verify (operation : DurableMutationOperation) (stepId : JsString) (lease : MutationLease)
    (plan : ActionPlan) (execution : ActionExecutionResult) (completedEffect : ExternalEffectState) :
    Service VerificationResult :=
  tryCatch (do
      match ← verifyWithDeadline operation lease plan execution with
      | .timedOut _ =>
        finalize operation.id stepId lease .indeterminate .unknown .outcomeUnknown completedEffect
          .operationTimedOut
        throw (.mutation .operationTimedOut "Operation verification timed out")
      | .completed value => return value)
    fun
    | .mutation code message => throw (.mutation code message)
    | .crashSimulation => throw .crashSimulation
    | _ => do
      finalize operation.id stepId lease .indeterminate .unknown .outcomeUnknown completedEffect
        .postActionVerificationFailed
      throw (.mutation .postActionVerificationFailed "Operation verification failed")

/-- `perform` once the executor has completed: verification and the final state. -/
def complete (operation : DurableMutationOperation) (stepId : JsString) (lease : MutationLease)
    (plan : ActionPlan) (execution : ActionExecutionResult) : Service ApplicationMutationOutcome := do
  let dispatched ← dispatchAuthorized operation.id stepId
  let completedEffect : ExternalEffectState := if dispatched then .completed else .notStarted
  let verifyingAt ← clock
  let _ ← safe (repository (.transitionStepWithAudit
    { operationId := operation.id, childStepId := stepId, expected := [.executing]
      status := .verifying, now := verifyingAt, eventType := .stateChanged, ownership := lease
      verificationState := some .pending, externalEffect := some completedEffect }))
  hit .beforeVerification
  let verification ← verify operation stepId lease plan execution completedEffect
  hit .afterVerification
  if verification.verified = false then
    let code := verification.errorCode.getD .verificationFailed
    if verification.outcome = some .unknown then
      finalize operation.id stepId lease .indeterminate .unknown .outcomeUnknown completedEffect code
    else
      finalize operation.id stepId lease .failed .failed .none completedEffect code
    throw (.mutation code "Operation verification failed")
  hit .beforeFinalAudit
  let completedAt ← clock
  let completed ← safe (repository (.finalizeStepAndParent
    { operationId := operation.id, childStepId := stepId, expected := [.verifying]
      status := .succeeded, now := completedAt, ownership := lease, verificationState := .verified
      recoveryState := .none, externalEffect := completedEffect })) .auditPersistenceFailed
  result (applicationOutcome completed false)

/-- `perform` once the executor has returned. -/
def executed (operation : DurableMutationOperation) (stepId : JsString) (lease : MutationLease)
    (plan : ActionPlan) (execution : ActionExecutionResult) : Service ApplicationMutationOutcome := do
  if execution.accepted = false ∧ isSafePreEffectOutcome execution.outcome then
    let code := execution.errorCode.getD .executionRejected
    finalize operation.id stepId lease .failed .failed .none .notStarted code
    throw (.mutation code "The executor rejected the operation")
  if execution.accepted = false ∨ execution.outcome ≠ .completed then
    let code := execution.errorCode.getD .mutationUncertain
    finalize operation.id stepId lease .indeterminate .unknown .outcomeUnknown .effectPossiblyActive
      code
    throw (.mutation code "The external operation outcome is unknown")
  complete operation stepId lease plan execution

/-- `perform` once the lease is held. -/
def performOwned (operation : DurableMutationOperation) (step : DurableMutationOperationStep)
    (lease : MutationLease) (plan : ActionPlan) : Service ApplicationMutationOutcome := do
  let executingAt ← clock
  let startedAt ← clock
  let _ ← safe (repository (.transitionStepWithAudit
    { operationId := operation.id, childStepId := step.id, expected := [.validated]
      status := .executing, now := executingAt, eventType := .stateChanged, ownership := lease
      adoptOwnership := true, startedAt := some (some startedAt) }))
  hit .immediatelyBeforeExecutor
  let childPlan := childActionPlan plan step
  let execution ← execute operation step.id lease childPlan
  hit .afterExecutorBeforePersist
  executed operation step.id lease childPlan execution

/-- `perform` once the operation and its step are created. -/
def performClaimed (config : ServiceConfig) (value : DurableParentChildOperation) (plan : ActionPlan)
    (now : Timestamp) : Service ApplicationMutationOutcome := do
  let operation := value.operation
  let step ← result (onlyStep value)
  hit .beforeExecutorState
  let lease ← safe (repository (.acquireLease operation.operationKey operation.id now
    (now + config.options.lockLeaseMs)))
  match lease with
  | none =>
    let rejectedAt ← clock
    let _ ← safe (repository (.rejectParentChildBeforeOwnership operation.id step.id rejectedAt
      .operationInProgress))
    throw inProgressError
  | some lease => performOwned operation step lease plan

/-- `perform`. -/
def perform (config : ServiceConfig) (actor : Option PlanActor) (request : ActionRequest) :
    Service ApplicationMutationOutcome := do
  let authorized ← result (ActionPlanner.authorizeApplicationRequest actor request)
  let logicalTarget : ActionTarget := ⟨authorized.applicationId, none, none⟩
  let fingerprint := mutationFingerprint config.host authorized.action logicalTarget
  let replayTime ← clock
  let existing ← safe (repository (.replayParentClaim
    ⟨authorized.actor.id, authorized.idempotencyKey, fingerprint, replayTime⟩))
  match existing with
  | some value => result (applicationOutcome value true)
  | none =>
    let snapshot ← resolve config authorized.applicationId authorized.action
    let now ← clock
    let operationId ← newId
    let plan : ActionPlan :=
      { operationId := operationId, actor := authorized.actor, action := authorized.action
        target := logicalTarget, executionDomain := SupportedDomain.docker
        operationKey := applicationKey authorized.applicationId
        idempotencyKey := authorized.idempotencyKey }
    let stepId ← newId
    let claim ← safe (repository (.claimParentWithStep
      { plan := plan, fingerprint := fingerprint, stepId := stepId, snapshot := snapshot, now := now
        idempotencyExpiresAt := now + config.options.idempotencyTtlMs
        deadlineAt := now + config.options.operationTimeoutMs }))
    match claim.kind with
    | .replay => result (applicationOutcome claim.value true)
    | .created => performClaimed config claim.value plan now

end ApplicationMutationOrchestrator

/-! ## The service for operations without steps -/

namespace MutationOperationService

/-- `operationResult`. -/
def operationResult (operation : DurableMutationOperation) : ActionResult where
  operationId := operation.id
  action := operation.action
  target := ⟨operation.applicationId, operation.serviceId, operation.containerId⟩
  status := operation.status
  errorCode := operation.reasonCode

/-- `markIndeterminate`. -/
def markIndeterminate (operationId : JsString) (expected : ActionStatus) (lease : MutationLease)
    (reasonCode : MutationErrorCode := .recoveryOutcomeUnknown) : Service Unit := do
  let now ← clock
  let completedAt ← clock
  let _ ← repository (.transitionWithAudit
    { operationId := operationId, expected := [expected], status := .indeterminate, now := now
      eventType := .failed, reasonCode := some reasonCode, verificationState := some .unknown
      recoveryState := some .outcomeUnknown, completedAt := some (some completedAt)
      ownership := some lease })

/-- `markTimedOut`. -/
def markTimedOut (operationId : JsString) (expected : ActionStatus) (lease : MutationLease) :
    Service Unit := do
  let now ← clock
  let completedAt ← clock
  let _ ← repository (.transitionWithAudit
    { operationId := operationId, expected := [expected], status := .timedOut, now := now
      eventType := .failed, reasonCode := some .operationTimedOut, verificationState := some .unknown
      recoveryState := some .none, completedAt := some (some completedAt), ownership := some lease
      releaseLease := true })

/-- The transition of an operation that failed, with the lease released. -/
def markFailed (operationId : JsString) (expected : ActionStatus) (lease : MutationLease)
    (reasonCode : MutationErrorCode) (verificationState : Option VerificationState) :
    Service Unit := do
  let now ← clock
  let completedAt ← clock
  let _ ← repository (.transitionWithAudit
    { operationId := operationId, expected := [expected], status := .failed, now := now
      eventType := .failed, reasonCode := some reasonCode, verificationState := verificationState
      completedAt := some (some completedAt), ownership := some lease, releaseLease := true })

/-- The execution of a plan, with the ends of an executor that timed out or threw. -/
def execute (operation : DurableMutationOperation) (lease : MutationLease) (plan : ActionPlan) :
    Service ActionExecutionResult :=
  tryCatch (do
      match ← executeWithDeadline operation lease plan with
      | .timedOut (some (.ok value)) =>
        if isSafePreEffectOutcome value.outcome then
          markTimedOut operation.id .executing lease
        else
          markIndeterminate operation.id .executing lease (value.errorCode.getD .mutationUncertain)
        throw timedOutError
      | .timedOut _ =>
        markIndeterminate operation.id .executing lease .mutationUncertain
        throw timedOutError
      | .completed value => return value)
    fun
    | .mutation code message => throw (.mutation code message)
    | _ => do
      markIndeterminate operation.id .executing lease
      throw (.mutation .executionFailed "The external operation outcome is unknown")

/-- The verification of a plan; a verifier that throws counts as not verified. -/
def verify (operation : DurableMutationOperation) (lease : MutationLease) (plan : ActionPlan)
    (execution : ActionExecutionResult) : Service VerificationResult :=
  tryCatch (do
      match ← verifyWithDeadline operation lease plan execution with
      | .timedOut _ =>
        markIndeterminate operation.id .verifying lease
        throw timedOutError
      | .completed value => return value)
    fun
    | .mutation code message => throw (.mutation code message)
    | _ => return ⟨false, none, none⟩

/-- `perform` once the lease is held. -/
def performOwned (operation : DurableMutationOperation) (lease : MutationLease) (plan : ActionPlan) :
    Service (ActionResult × Bool) := do
  hit .beforeExecutorState
  let executingAt ← clock
  let startedAt ← clock
  let _ ← safe (repository (.transitionWithAudit
    { operationId := operation.id, expected := [.validated], status := .executing
      now := executingAt, eventType := .stateChanged, fencingToken := some (some lease.fencingToken)
      startedAt := some (some startedAt), ownership := some lease }))
  hit .immediatelyBeforeExecutor
  let execution ← execute operation lease plan
  hit .afterExecutorBeforePersist
  if execution.accepted = false ∧ isSafePreEffectOutcome execution.outcome then
    let code := execution.errorCode.getD .executionRejected
    markFailed operation.id .executing lease code none
    throw (.mutation code "The executor rejected the operation")
  if execution.accepted = false ∨ execution.outcome ≠ .completed then
    markIndeterminate operation.id .executing lease (execution.errorCode.getD .mutationUncertain)
    throw (.mutation .executionFailed "The external operation outcome is unknown")
  let verifyingAt ← clock
  let _ ← safe (repository (.transitionWithAudit
    { operationId := operation.id, expected := [.executing], status := .verifying
      now := verifyingAt, eventType := .stateChanged, verificationState := some .pending
      ownership := some lease }))
  hit .beforeVerification
  let verification ← verify operation lease plan execution
  hit .afterVerification
  if verification.verified = false then
    let code := verification.errorCode.getD .verificationFailed
    if verification.outcome = some .unknown then
      markIndeterminate operation.id .verifying lease code
    else markFailed operation.id .verifying lease code (some .failed)
    throw (.mutation code "Operation verification failed")
  hit .beforeFinalAudit
  let now ← clock
  let completedAt ← clock
  let completed ← safe (repository (.transitionWithAudit
    { operationId := operation.id, expected := [.verifying], status := .succeeded, now := now
      eventType := .completed, verificationState := some .verified
      completedAt := some (some completedAt), ownership := some lease, releaseLease := true }))
    .auditPersistenceFailed
  return (operationResult completed, false)

/-- `perform`. -/
def perform (config : ServiceConfig) (actor : Option PlanActor) (request : ActionRequest) :
    Service (ActionResult × Bool) := do
  let operationId ← newId
  let authenticated ← result (ActionPlanner.authorizePlan actor request)
  let snapshot ← (getApplicationSnapshot request.target.applicationId).attempt
  let plan ← result (match snapshot with
    | .error _ =>
      .error (.mutation .targetResolutionFailed "The mutation target could not be resolved")
    | .ok snapshot =>
      ActionPlanner.planFrom config.policy authenticated request operationId snapshot)
  let now ← clock
  let claim ← safe (repository (.claim
    { plan := plan, fingerprint := mutationFingerprint config.host plan.action plan.target, now := now
      idempotencyExpiresAt := now + config.options.idempotencyTtlMs
      deadlineAt := now + config.options.operationTimeoutMs }))
  match claim.kind with
  | .replay => return (operationResult claim.operation, true)
  | .created =>
    let operation := claim.operation
    let lease ← safe (repository (.acquireLease operation.operationKey operation.id now
      (now + config.options.lockLeaseMs)))
    match lease with
    | none =>
      let rejectedAt ← clock
      let completedAt ← clock
      let _ ← repository (.transitionWithAudit
        { operationId := operation.id, expected := [.validated], status := .rejected
          now := rejectedAt, eventType := .failed, reasonCode := some .operationInProgress
          completedAt := some (some completedAt) })
      throw inProgressError
    | some lease => performOwned operation lease plan

end MutationOperationService

/-! ## The Docker executor and verifier -/

/-- `gatewayCode`. -/
def gatewayCode : Failure → MutationErrorCode
  | .dockerGateway .containerNotFound _ => .containerNotFound
  | .dockerGateway .dockerPermissionDenied _ => .dockerPermissionDenied
  | .dockerGateway .actionRejectedByDocker _ => .actionRejectedByDocker
  | .dockerGateway .dockerTimeout _ => .dockerTimeout
  | _ => .dockerUnavailable

/-- `gatewayFailure`. -/
def gatewayFailure : Failure → MutationErrorCode × GatewayEffect
  | .dockerGateway code effect => (gatewayCode (.dockerGateway code effect), effect)
  | _ => (.mutationUncertain, .possiblyActive)

/-- The answer of `actionDecision`. -/
inductive ActionDecision
  | noop
  | dispatch
  | reject

/-- `actionDecision`. -/
def actionDecision (action : ActionType) (state : DockerContainerState) : ActionDecision :=
  match action with
  | .start => if state = .running then .noop
    else if state ∈ [.created, .exited, .dead] then .dispatch else .reject
  | .stop => if state ∈ [.created, .exited, .dead] then .noop
    else if state ∈ [.running, .paused, .restarting] then .dispatch else .reject
  | .restart => if state ∈ [.running, .created, .exited, .dead] then .dispatch else .reject

/-- `isExpectedState`. -/
def isExpectedState (action : ActionType) (state : DockerContainerState) : Bool :=
  if action = .stop then state ∈ [.created, .exited, .dead] else state = .running

/-- `context.signal.aborted || this.clock() >= context.deadlineAt`. -/
def expired (context : MutationExecutionContext) : Service Bool := do
  if ← aborted then return true
  let now ← clock
  return context.deadlineAt ≤ now

namespace DockerActionExecutor

/-- `rejected`. -/
def rejected (code : MutationErrorCode) : ActionExecutionResult := ⟨false, .notStarted, some code⟩

/-- What `resolveTarget` makes of the registry's answer: the container, or why there is none. -/
def targetFrom (policy : MutationPolicy) (plan : ActionPlan) (containerId : JsString)
    (snapshot : Option RegistryApplicationSnapshotReadRecord) : Except MutationErrorCode JsString :=
  match snapshot with
  | none => .error .invalidTarget
  | some snapshot =>
    match snapshot.deployment with
    | none => .error .invalidTarget
    | some deployment =>
      if snapshot.application.id ≠ plan.target.applicationId then .error .invalidTarget
      else
        let decision := policy snapshot.application
        if decision.allowed = false ∨ decision.executionDomain ≠ .docker then
          .error (decision.errorCode.getD .unsupportedManagement)
        else match snapshot.runtimeContainers.find? (·.containerId = containerId) with
          | none => .error .containerNotFound
          | some runtime =>
            match snapshot.services.find? (·.id = runtime.serviceId) with
            | none => .error .invalidTarget
            | some service =>
              if service.deploymentId ≠ deployment.id then .error .invalidTarget
              else if plan.target.serviceId.any (fun id => id ≠ [] ∧ service.id ≠ id) then
                .error .targetOwnershipMismatch
              else .ok runtime.containerId

/-- `resolveTarget`. -/
def resolveTarget (config : ServiceConfig) (plan : ActionPlan) :
    Service (Except MutationErrorCode JsString) :=
  match plan.target.containerId with
  | none => return .error .invalidTarget
  | some containerId =>
    if plan.executionDomain ≠ SupportedDomain.docker ∨ containerId = [] then
      return .error .invalidTarget
    else do
      match ← (getApplicationSnapshot plan.target.applicationId).attempt with
      | .error _ => return .error .targetResolutionFailed
      | .ok snapshot => return targetFrom config.policy plan containerId snapshot

/-- The mutating request, from the moment its dispatch is authorised. -/
def dispatch (plan : ActionPlan) (context : MutationExecutionContext) (containerId : JsString) :
    Service ActionExecutionResult := do
  if ← expired context then return rejected .dockerTimeout
  let outcome ← (do
    invoke context.operationId plan.action containerId
    settled context.operationId : Service Unit).attempt
  match outcome with
  | .ok _ => return ⟨true, .completed, none⟩
  | .error e =>
    let mapped := gatewayFailure e
    return ⟨false, if mapped.2 = .possiblyActive then .effectPossiblyActive else .notStarted,
      some mapped.1⟩

/-- `execute` once the container is known to need the action: the target is read again, and the
dispatch authorised. -/
def authorizeAndDispatch (config : ServiceConfig) (plan : ActionPlan)
    (context : MutationExecutionContext) : Service ActionExecutionResult := do
  match ← resolveTarget config plan with
  | .error code => return rejected code
  | .ok current =>
    let dispatchAuthorizationTime ← clock
    if (← aborted) ∨ context.deadlineAt ≤ dispatchAuthorizationTime then
      return rejected .dockerTimeout
    else
      let authorization ← (repository (.authorizeDispatch
        { operationId := context.operationId, operationKey := context.operationKey
          fencingToken := context.fencingToken, action := plan.action
          applicationId := plan.target.applicationId, serviceId := plan.target.serviceId
          containerId := current, executionDomain := plan.executionDomain
          now := dispatchAuthorizationTime })).attempt
      match authorization with
      | .error (.mutation code _) => return rejected code
      | .error _ => return rejected .persistenceFailed
      | .ok _ => dispatch plan context current

/-- `execute`. -/
def execute (config : ServiceConfig) (plan : ActionPlan) (context : MutationExecutionContext) :
    Service ActionExecutionResult := do
  if ← expired context then return rejected .dockerTimeout
  match ← resolveTarget config plan with
  | .error code => return rejected code
  | .ok initial =>
    match ← (inspect initial).attempt with
    | .error e => return rejected (gatewayCode e)
    | .ok inspection =>
      if ← expired context then return rejected .dockerTimeout
      if inspection.containerId ≠ initial then return rejected .identityMismatch
      match actionDecision plan.action inspection.state with
      | .reject => return rejected .actionRejectedByDocker
      | .noop => return ⟨true, .completed, none⟩
      | .dispatch => authorizeAndDispatch config plan context

end DockerActionExecutor

namespace DockerActionVerifier

/-- `unknownVerification`. -/
def unknownVerification (code : MutationErrorCode) : VerificationResult :=
  ⟨false, some .unknown, some code⟩

/-- What `resolveContainerId` makes of the registry's answer. -/
def containerIdFrom (policy : MutationPolicy) (plan : ActionPlan) (containerId : JsString)
    (snapshot : Option RegistryApplicationSnapshotReadRecord) : Option JsString := do
  let snapshot ← snapshot
  let deployment ← snapshot.deployment
  let decision := policy snapshot.application
  guard (decision.allowed = true ∧ decision.executionDomain = .docker)
  let runtime ← snapshot.runtimeContainers.find? (·.containerId = containerId)
  let service ← snapshot.services.find? fun candidate =>
    candidate.id = runtime.serviceId ∧ candidate.deploymentId = deployment.id
  guard (plan.target.serviceId.all fun id => id = [] ∨ service.id = id)
  return runtime.containerId

/-- `resolveContainerId`. -/
def resolveContainerId (config : ServiceConfig) (plan : ActionPlan) : Service (Option JsString) :=
  match plan.target.containerId with
  | none => return none
  | some containerId =>
    if plan.executionDomain ≠ SupportedDomain.docker ∨ containerId = [] then return none
    else do
      match ← (getApplicationSnapshot plan.target.applicationId).attempt with
      | .error _ => return none
      | .ok snapshot => return containerIdFrom config.policy plan containerId snapshot

/-- `verify`. -/
def verify (config : ServiceConfig) (plan : ActionPlan) (context : MutationExecutionContext) :
    Service VerificationResult := do
  if ← expired context then return unknownVerification .dockerTimeout
  match ← resolveContainerId config plan with
  | none => return unknownVerification .postActionVerificationFailed
  | some containerId =>
    match ← (inspect containerId).attempt with
    | .error e => return unknownVerification (gatewayCode e)
    | .ok inspection =>
      if inspection.containerId ≠ containerId then return unknownVerification .identityMismatch
      if isExpectedState plan.action inspection.state = false then
        return unknownVerification .postActionVerificationFailed
      return ⟨true, some .verified, none⟩

end DockerActionVerifier

/-! ## Recovery -/

/-- `.then(() => true, (error) => …)`: a lost race counts as no change. -/
def changedBy {α : Type} (t : Service α) : Service Bool := do
  match ← t.attempt with
  | .ok _ => return true
  | .error (.mutation code message) =>
    if code = .illegalStateTransition ∨ code = .staleOperationOwnership then return false
    else throw (.mutation code message)
  | .error e => throw e

namespace MutationRecoveryService

/-- The transition that recovery makes of an operation. -/
def recoveryTransition (operation : DurableMutationOperation) (lease : MutationLease)
    (now : Timestamp) : DurableTransitionInput :=
  let uncertain := operation.status = .executing ∨ operation.status = .verifying
  { operationId := operation.id
    expected := [operation.status]
    status := if uncertain then .indeterminate else .rejected
    now := now
    eventType := .recovered
    reasonCode := some (if uncertain then .recoveryOutcomeUnknown else .recoveryPreExecutionAborted)
    verificationState := some (if uncertain then .unknown else operation.verificationState)
    recoveryState := some (if uncertain then .outcomeUnknown else .recoveredPreExecution)
    completedAt := some (some now)
    ownership := some lease
    adoptOwnership := true
    releaseLease := ¬ uncertain }

/-- The loop of `recover`. -/
def recoverEach (config : ServiceConfig) (now : Timestamp) :
    List DurableMutationOperation → ℕ → Service ℕ
  | [], recovered => return recovered
  | operation :: operations, recovered => do
    match ← repository (.acquireRecoveryLease operation.operationKey operation.id now
        (now + config.recoveryLeaseMs)) with
    | none => recoverEach config now operations recovered
    | some lease =>
      let changed ← changedBy (repository
        (.transitionWithAudit (recoveryTransition operation lease now)))
      recoverEach config now operations (if changed then recovered + 1 else recovered)

/-- `recover`. -/
def recover (config : ServiceConfig) : Service ℕ := do
  let now ← clock
  let operations ← repository (.listRecoverable now)
  recoverEach config now operations 0

end MutationRecoveryService

namespace MutationStepRecoveryService

/-- The loop of `recover`. -/
def recoverEach (config : ServiceConfig) (now : Timestamp) :
    List DurableMutationOperation → ℕ → Service ℕ
  | [], recovered => return recovered
  | candidate :: candidates, recovered => do
    match (← repository (.findOperationWithSteps candidate.id)).map (·.steps) with
    | some [step] =>
      if step.status.isTerminal then recoverEach config now candidates recovered
      else match ← repository (.acquireRecoveryLease candidate.operationKey candidate.id now
          (now + config.recoveryLeaseMs)) with
        | none => recoverEach config now candidates recovered
        | some lease =>
          let changed ← changedBy (repository
            (.recoverStepAndParent candidate.id step.id lease now))
          recoverEach config now candidates (if changed then recovered + 1 else recovered)
    | _ => recoverEach config now candidates recovered

/-- `recover`. -/
def recover (config : ServiceConfig) : Service ℕ := do
  let now ← clock
  let candidates ← repository (.listRecoverable now)
  recoverEach config now candidates 0

end MutationStepRecoveryService

end ZimaControl
