import Mathlib.Data.List.Sort
import ZimaControl.Lib.JsMap
import ZimaControl.Lib.Outcome
import ZimaControl.Mutation.Durable

/-!
# The in-memory durable repository

`InMemoryDurableMutationRepository`, method by method. A method returns what it returned or threw
together with the repository it left. Its checks stand first, as an `Except` computation in the
order of the source; the writes follow, with the rollback of each `catch`.

`failNextAudit` is a switch that tests set. Its successive values, as the appends meet them, are the
list `auditFaults`; when the list is used up no append fails.
-/

namespace ZimaControl

/-- A record of the `claims` map. -/
structure ClaimRecord where
  fingerprint : JsString
  operationId : JsString
  expiresAt : Timestamp

/-- The fields of `InMemoryDurableMutationRepository`. -/
structure InMemoryDurableMutationRepository where
  operations : JsMap JsString DurableMutationOperation
  claims : JsMap JsString ClaimRecord
  locks : JsMap JsString MutationLease
  fences : JsMap JsString ℕ
  audits : JsMap JsString (List DurableMutationAuditEvent)
  steps : JsMap JsString DurableMutationOperationStep
  /-- The values of `failNextAudit` that the coming appends will meet. -/
  auditFaults : List Bool

/-- The repository under its short name. -/
abbrev Repository := InMemoryDurableMutationRepository

/-- What a method returned or threw, and the repository it left. -/
abbrev RepositoryOutcome (α : Type) := Outcome Repository Failure α

/-- `staleOwnership`. -/
def staleOwnership : Failure :=
  .mutation .staleOperationOwnership "Mutation operation ownership is stale"

/-- The error of a missing or duplicate row. -/
def persistenceFailed : Failure := .mutation .persistenceFailed "Mutation persistence failed"

/-- The error of an idempotency key that was used for another request. -/
def idempotencyConflict : Failure :=
  .mutation .idempotencyConflict "Idempotency key was used for a different request"

/-- The error of a lease that would already have expired. -/
def leaseExpirationError : Failure := .typeError "Lease expiration must be in the future"

/-- `claimKey`: `` `${actorId.length}:${actorId}${key}` ``. -/
def claimKey (actorId key : JsString) : JsString := lengthPrefixed actorId key

namespace InMemoryDurableMutationRepository

/-- A new repository, with a schedule of audit faults. -/
def initial (auditFaults : List Bool) : Repository := ⟨∅, ∅, ∅, ∅, ∅, ∅, auditFaults⟩

/-! ## Private helpers -/

/-- `requireOperation`. -/
def requireOperation (r : Repository) (id : JsString) : Except Failure DurableMutationOperation :=
  match r.operations.get id with
  | none => .error persistenceFailed
  | some row => .ok row

/-- `requireStep`. -/
def requireStep (r : Repository) (id operationId : JsString) :
    Except Failure DurableMutationOperationStep :=
  match r.steps.get id with
  | none => .error persistenceFailed
  | some step => if step.parentOperationId ≠ operationId then .error persistenceFailed else .ok step

/-- `stepsFor`. -/
def stepsFor (r : Repository) (operationId : JsString) : List DurableMutationOperationStep :=
  (r.steps.values.filter (·.parentOperationId = operationId)).insertionSort
    fun a b => a.sequence ≤ b.sequence

/-- `requireParentChild`. -/
def requireParentChild (r : Repository) (operationId : JsString) :
    Except Failure DurableParentChildOperation := do
  let operation ← r.requireOperation operationId
  return ⟨operation, r.stepsFor operationId⟩

/-- The lock of a key is held under a token and has not expired. -/
def requireLease (r : Repository) (operationKey operationId : JsString) (fencingToken : ℕ)
    (now : Timestamp) : Except Failure Unit :=
  match r.locks.get operationKey with
  | none => .error staleOwnership
  | some lease =>
    throwIf (lease.ownerOperationId ≠ operationId ∨ lease.fencingToken ≠ fencingToken
      ∨ lease.leaseExpiresAt ≤ now) staleOwnership

/-- `requireOwnership`. -/
def requireOwnership (r : Repository) (operation : DurableMutationOperation)
    (operationKey : JsString) (fencingToken : ℕ) (now : Timestamp) (adopt : Bool := false) :
    Except Failure Unit := do
  r.requireLease operationKey operation.id fencingToken now
  throwIf (operation.operationKey ≠ operationKey
    ∨ (¬ adopt ∧ operation.fencingToken ≠ some fencingToken)) staleOwnership

/-- The audit events of an operation so far. -/
def auditsOf (r : Repository) (operationId : JsString) : List DurableMutationAuditEvent :=
  (r.audits.get operationId).getD []

/-- The event that `append` writes. -/
def auditEvent (r : Repository) (operation : DurableMutationOperation)
    (eventType : MutationAuditEventType) (timestamp : Timestamp)
    (reasonCode : Option MutationErrorCode) (child : Option DurableMutationOperationStep) :
    DurableMutationAuditEvent where
  operationId := operation.id
  childStepId := child.map (·.id)
  sequence := (r.auditsOf operation.id).length + 1
  actorId := operation.actorId
  actorRole := operation.actorRole
  action := operation.action
  applicationId := operation.applicationId
  serviceId := (child.map (·.serviceId)).or operation.serviceId
  containerId := (child.map (·.containerId)).or operation.containerId
  status := (child.map (·.status)).getD operation.status
  eventType := eventType
  reasonCode := reasonCode
  timestamp := timestamp

/-- `append`. The id of the child step, which the source passes too, goes with the step. -/
def append (r : Repository) (operation : DurableMutationOperation)
    (eventType : MutationAuditEventType) (timestamp : Timestamp)
    (reasonCode : Option MutationErrorCode) (child : Option DurableMutationOperationStep := none) :
    RepositoryOutcome Unit :=
  match r.auditFaults with
  | true :: rest =>
    (.error (.mutation .auditPersistenceFailed "Mutation audit persistence failed"),
      { r with auditFaults := rest })
  | faults =>
    let event := r.auditEvent operation eventType timestamp reasonCode child
    (.ok (), { r with
      audits := r.audits.set operation.id (r.auditsOf operation.id ++ [event])
      auditFaults := faults.tail })

/-- `applyAggregate`. -/
def applyAggregate (operation : DurableMutationOperation) (aggregate : ParentMutationAggregate)
    (now : Timestamp) (startedAt : Option (Option Timestamp) := none) : DurableMutationOperation :=
  { operation with
    status := aggregate.status
    verificationState := aggregate.verificationState
    recoveryState := aggregate.recoveryState
    externalEffect := aggregate.externalEffect
    reasonCode := aggregate.reasonCode
    updatedAt := now
    startedAt := startedAt.getD operation.startedAt }

/-- The live claim at a key: the record, unless it has expired. -/
def liveClaim (r : Repository) (key : JsString) (now : Timestamp) : Option ClaimRecord :=
  (r.claims.get key).filter fun existing => now < existing.expiresAt

/-! ## Claims -/

/-- The operation that `claim` creates. -/
def operationFromClaim (input : DurableMutationClaimInput) (serviceId containerId : Option JsString) :
    DurableMutationOperation where
  id := input.plan.operationId
  actorId := input.plan.actor.id
  actorRole := input.plan.actor.role
  action := input.plan.action
  applicationId := input.plan.target.applicationId
  serviceId := serviceId
  containerId := containerId
  executionDomain := input.plan.executionDomain
  operationKey := input.plan.operationKey
  idempotencyKey := input.plan.idempotencyKey
  fingerprint := input.fingerprint
  status := .validated
  verificationState := .notStarted
  recoveryState := .none
  externalEffect := .notStarted
  fencingToken := none
  reasonCode := none
  deadlineAt := input.deadlineAt
  startedAt := none
  completedAt := none
  createdAt := input.now
  updatedAt := input.now

/-- `stepFromClaim`. -/
def stepFromClaim (input : DurableParentChildClaimInput) : DurableMutationOperationStep where
  id := input.stepId
  parentOperationId := input.plan.operationId
  sequence := 1
  applicationId := input.snapshot.applicationId
  deploymentId := input.snapshot.deploymentId
  serviceId := input.snapshot.serviceId
  containerId := input.snapshot.containerId
  action := input.snapshot.action
  executionDomain := SupportedDomain.docker
  targetFingerprint := input.snapshot.targetFingerprint
  snapshotAt := input.snapshot.snapshotAt
  authorityEvidence := input.snapshot.authorityEvidence
  applicationDiscoveredAt := input.snapshot.applicationDiscoveredAt
  deploymentDiscoveredAt := input.snapshot.deploymentDiscoveredAt
  runtimeObservedAt := input.snapshot.runtimeObservedAt
  deadlineAt := input.deadlineAt
  status := .validated
  verificationState := .notStarted
  recoveryState := .none
  externalEffect := .notStarted
  fencingToken := none
  dispatchFencingToken := none
  dispatchAuthorizedAt := none
  reasonCode := none
  startedAt := none
  completedAt := none
  createdAt := input.now
  updatedAt := input.now

/-- `this.claims.delete(key)`: an expired record goes, also when the call then throws. -/
def dropClaim (r : Repository) (key : JsString) : Repository :=
  { r with claims := r.claims.delete key }

/-- The operation and the claim that `claim` writes. -/
def insertOperation (r : Repository) (key : JsString) (input : DurableMutationClaimInput)
    (operation : DurableMutationOperation) : Repository :=
  { r with
    operations := r.operations.set operation.id operation
    claims := r.claims.set key ⟨input.fingerprint, operation.id, input.idempotencyExpiresAt⟩ }

/-- The writes of `claim` for a new operation; a failed append leaves them. -/
def createOperation (r : Repository) (key : JsString) (input : DurableMutationClaimInput) :
    RepositoryOutcome DurableMutationClaim :=
  let operation := operationFromClaim input input.plan.target.serviceId input.plan.target.containerId
  ((r.insertOperation key input operation).append operation .claimed input.now none).andThen
    fun _ r => (.ok ⟨.created, operation⟩, r)

/-- `claim`. -/
def claim (r : Repository) (input : DurableMutationClaimInput) :
    RepositoryOutcome DurableMutationClaim :=
  let key := claimKey input.plan.actor.id input.plan.idempotencyKey
  match r.liveClaim key input.now with
  | some existing =>
    if existing.fingerprint ≠ input.fingerprint then (.error idempotencyConflict, r)
    else Outcome.checking r (r.requireOperation existing.operationId) fun operation =>
      (r.append operation .replayed input.now none).andThen fun _ r => (.ok ⟨.replay, operation⟩, r)
  | none =>
    let r := r.dropClaim key
    if r.operations.has input.plan.operationId then (.error persistenceFailed, r)
    else r.createOperation key input

/-- `findOperation`. -/
def findOperation (r : Repository) (operationId : JsString) : Option DurableMutationOperation :=
  r.operations.get operationId

/-- `if (existing) this.claims.set(key, existing)`. -/
def restoreClaim (claims : JsMap JsString ClaimRecord) (key : JsString) :
    Option ClaimRecord → JsMap JsString ClaimRecord
  | some record => claims.set key record
  | none => claims

/-- The `try` around the appends of a new operation with its step: a failed one takes both rows back
and restores the expired claim. -/
def settleCreation (appended : RepositoryOutcome Unit) (operation : DurableMutationOperation)
    (step : DurableMutationOperationStep) (key : JsString) (existing : Option ClaimRecord) :
    RepositoryOutcome DurableParentChildClaim :=
  match appended with
  | (.ok _, r) => (.ok ⟨.created, ⟨operation, [step]⟩⟩, r)
  | (.error e, r) => (.error e, { r with
      operations := r.operations.delete operation.id
      steps := r.steps.delete step.id
      claims := restoreClaim (r.claims.delete key) key existing
      audits := r.audits.delete operation.id })

/-- What `claimParentWithStep` writes for a new operation with its step. -/
def insertParentWithStep (r : Repository) (key : JsString) (input : DurableParentChildClaimInput) :
    Repository :=
  let operation := operationFromClaim input.toDurableMutationClaimInput none none
  let step := stepFromClaim input
  { r with
    operations := r.operations.set operation.id operation
    steps := r.steps.set step.id step
    claims := r.claims.set key ⟨input.fingerprint, operation.id, input.idempotencyExpiresAt⟩ }

/-- The audit events of a new operation with its step. -/
def appendCreated (r : Repository) (operation : DurableMutationOperation)
    (step : DurableMutationOperationStep) (now : Timestamp) : RepositoryOutcome Unit :=
  (r.append operation .claimed now none).andThen fun _ r =>
    r.append operation .stepCreated now none (some step)

/-- The writes of `claimParentWithStep` for a new operation with its step. -/
def createParentWithStep (r : Repository) (key : JsString) (existing : Option ClaimRecord)
    (input : DurableParentChildClaimInput) : RepositoryOutcome DurableParentChildClaim :=
  let operation := operationFromClaim input.toDurableMutationClaimInput none none
  let step := stepFromClaim input
  settleCreation ((r.insertParentWithStep key input).appendCreated operation step input.now)
    operation step key existing

/-- `claimParentWithStep`. -/
def claimParentWithStep (host : Host) (r : Repository) (input : DurableParentChildClaimInput) :
    RepositoryOutcome DurableParentChildClaim :=
  Outcome.checking r (assertParentChildClaimInput host input) fun _ =>
  let key := claimKey input.plan.actor.id input.plan.idempotencyKey
  match r.liveClaim key input.now with
  | some existing =>
    if existing.fingerprint ≠ input.fingerprint then (.error idempotencyConflict, r)
    else Outcome.checking r (r.requireParentChild existing.operationId) fun value =>
      (r.append value.operation .replayed input.now none).andThen fun _ r => (.ok ⟨.replay, value⟩, r)
  | none =>
    let existing := r.claims.get key
    -- an expired claim is deleted before the ids are looked at
    let r := r.dropClaim key
    if r.operations.has input.plan.operationId ∨ r.steps.has input.stepId then
      (.error persistenceFailed, r)
    else r.createParentWithStep key existing input

/-- `findOperationWithSteps`. -/
def findOperationWithSteps (r : Repository) (operationId : JsString) :
    Option DurableParentChildOperation :=
  (r.operations.get operationId).map fun operation => ⟨operation, r.stepsFor operationId⟩

/-- The checks of `replayParentClaim` once a claim is live. -/
def replayChecks (r : Repository) (existing : ClaimRecord) (input : DurableParentReplayInput) :
    Except Failure DurableParentChildOperation := do
  throwIf (existing.fingerprint ≠ input.fingerprint) idempotencyConflict
  let value ← r.requireParentChild existing.operationId
  throwIf (value.steps.length ≠ 1) persistenceFailed
  return value

/-- `replayParentClaim`. -/
def replayParentClaim (r : Repository) (input : DurableParentReplayInput) :
    RepositoryOutcome (Option DurableParentChildOperation) :=
  match r.liveClaim (claimKey input.actorId input.idempotencyKey) input.now with
  | none => (.ok none, r)
  | some existing => Outcome.checking r (r.replayChecks existing input) fun value =>
    (r.append value.operation .replayed input.now none).andThen fun _ r => (.ok (some value), r)

/-- `findParentClaim`. -/
def findParentClaim (r : Repository) (input : DurableParentReplayInput) :
    Except Failure (Option DurableParentChildOperation) :=
  match r.liveClaim (claimKey input.actorId input.idempotencyKey) input.now with
  | none => .ok none
  | some existing =>
    if existing.fingerprint ≠ input.fingerprint then .ok none
    else some <$> r.replayChecks existing input

/-! ## Steps -/

/-- The checks of `rejectParentChildBeforeOwnership`. -/
def rejectChecks (r : Repository) (operationId childStepId : JsString) :
    Except Failure (DurableMutationOperation × DurableMutationOperationStep) := do
  let operation ← r.requireOperation operationId
  let step ← r.requireStep childStepId operationId
  throwIf (operation.status ≠ .validated ∨ step.status ≠ .validated
    ∨ operation.fencingToken ≠ none ∨ step.fencingToken ≠ none
    ∨ (r.locks.get operation.operationKey).map (·.ownerOperationId) = some operationId) staleOwnership
  let _ ← transitionActionStatus step.status .rejected
  return (operation, step)

/-- Writes a step, aggregates its parent, and lets `finish` write the parent. -/
def writeStep (r : Repository) (operation : DurableMutationOperation)
    (step : DurableMutationOperationStep)
    (finish : ParentMutationAggregate → DurableMutationOperation)
    (commit : DurableMutationOperation → Repository → RepositoryOutcome DurableParentChildOperation) :
    RepositoryOutcome DurableParentChildOperation :=
  let r := { r with steps := r.steps.set step.id step }
  Outcome.checking r (aggregateParentFromSteps (r.stepsFor operation.id)) fun aggregate =>
    let updated := finish aggregate
    commit updated { r with operations := r.operations.set updated.id updated }

/-- `if (oldLock) this.locks.set(oldLock.operationKey, oldLock)`. -/
def restoreLock (locks : JsMap JsString MutationLease) :
    Option MutationLease → JsMap JsString MutationLease
  | some lock => locks.set lock.operationKey lock
  | none => locks

/-- The rollback of a written step: operation and step go back, and the audits and the lock where
the method saved them. -/
def undoStep (operation : DurableMutationOperation) (step : DurableMutationOperationStep)
    (oldAudits : Option (List DurableMutationAuditEvent)) (oldLock : Option MutationLease)
    (r : Repository) : Repository :=
  { r with
    operations := r.operations.set operation.id operation
    steps := r.steps.set step.id step
    audits := oldAudits.elim r.audits (r.audits.set operation.id)
    locks := restoreLock r.locks oldLock }

/-- The audit events of a step that ended, and of its parent. -/
def appendEnded (r : Repository) (operation : DurableMutationOperation)
    (step : DurableMutationOperationStep) (eventType : MutationAuditEventType) (now : Timestamp)
    (reasonCode : Option MutationErrorCode) : RepositoryOutcome Unit :=
  (r.append operation eventType now reasonCode (some step)).andThen fun _ r =>
    r.append operation eventType now reasonCode

/-- The `try` around the appends of a written step: `finish` or, when one throws, `undo`. -/
def settleStep (appended : RepositoryOutcome Unit) (updated : DurableMutationOperation)
    (finish undo : Repository → Repository) : RepositoryOutcome DurableParentChildOperation :=
  match appended with
  | (.ok _, r) => (.ok ⟨updated, (finish r).stepsFor updated.id⟩, finish r)
  | (.error e, r) => (.error e, undo r)

/-- The step that `rejectParentChildBeforeOwnership` writes. -/
def rejectedStep (step : DurableMutationOperationStep) (now : Timestamp)
    (reasonCode : MutationErrorCode) : DurableMutationOperationStep :=
  { step with
    status := .rejected, reasonCode := some reasonCode, completedAt := some now, updatedAt := now }

/-- `rejectParentChildBeforeOwnership`. -/
def rejectParentChildBeforeOwnership (r : Repository) (operationId childStepId : JsString)
    (now : Timestamp) (reasonCode : MutationErrorCode) :
    RepositoryOutcome DurableParentChildOperation :=
  Outcome.checking r (r.rejectChecks operationId childStepId) fun (operation, step) =>
  let rejected := rejectedStep step now reasonCode
  r.writeStep operation rejected
    (fun aggregate => { applyAggregate operation aggregate now with completedAt := some now })
    fun updated r' =>
      settleStep (r'.appendEnded updated rejected .failed now (some reasonCode)) updated id
        (undoStep operation step (some (r.auditsOf operation.id)) none)

/-- The checks of `authorizeStepDispatch`. -/
def stepDispatchChecks (r : Repository) (input : MutationStepDispatchAuthorizationInput) :
    Except Failure (DurableMutationOperation × DurableMutationOperationStep) := do
  let operation ← r.requireOperation input.operationId
  let step ← r.requireStep input.childStepId input.operationId
  r.requireOwnership operation input.operationKey input.fencingToken input.now
  throwIf (step.status ≠ .executing ∨ step.dispatchAuthorizedAt ≠ none
    ∨ step.action ≠ input.action ∨ step.applicationId ≠ input.applicationId
    ∨ step.deploymentId ≠ input.deploymentId ∨ step.serviceId ≠ input.serviceId
    ∨ step.containerId ≠ input.containerId ∨ step.executionDomain ≠ input.executionDomain
    ∨ step.targetFingerprint ≠ input.targetFingerprint) staleOwnership
  return (operation, step)

/-- The step that `authorizeStepDispatch` writes. -/
def dispatchedStep (step : DurableMutationOperationStep) (fencingToken : ℕ) (now : Timestamp) :
    DurableMutationOperationStep :=
  { step with
    dispatchAuthorizedAt := some now
    dispatchFencingToken := some fencingToken
    fencingToken := some fencingToken
    updatedAt := now }

/-- `authorizeStepDispatch`. -/
def authorizeStepDispatch (r : Repository) (input : MutationStepDispatchAuthorizationInput) :
    RepositoryOutcome DurableMutationOperationStep :=
  Outcome.checking r (r.stepDispatchChecks input) fun (operation, step) =>
  let dispatched := dispatchedStep step input.fencingToken input.now
  let r := { r with steps := r.steps.set step.id dispatched }
  match r.append operation .dispatchAuthorized input.now none (some dispatched) with
  | (.ok _, r) => (.ok dispatched, r)
  | (.error e, r) => (.error e, { r with steps := r.steps.set step.id step })

/-- The error of a step whose status is not among the expected ones. -/
def childChanged : Failure :=
  .mutation .illegalStateTransition "The durable child state changed concurrently"

/-- `applyStepTransition`. -/
def applyStepTransition (step : DurableMutationOperationStep) (input : DurableStepTransitionInput) :
    DurableMutationOperationStep :=
  { step with
    status := input.status
    fencingToken := some input.ownership.fencingToken
    reasonCode := input.reasonCode
    updatedAt := input.now
    verificationState := input.verificationState.getD step.verificationState
    recoveryState := input.recoveryState.getD step.recoveryState
    externalEffect := input.externalEffect.getD step.externalEffect
    startedAt := input.startedAt.getD step.startedAt }

/-- The checks of `transitionStepWithAudit`. -/
def stepTransitionChecks (r : Repository) (input : DurableStepTransitionInput) :
    Except Failure (DurableMutationOperation × DurableMutationOperationStep) := do
  let operation ← r.requireOperation input.operationId
  let step ← r.requireStep input.childStepId input.operationId
  r.requireOwnership operation input.ownership.operationKey input.ownership.fencingToken input.now
    input.adoptOwnership
  throwIf (step.status ∉ input.expected) childChanged
  let _ ← transitionActionStatus step.status input.status
  let _ ← transitionExternalEffectState step.externalEffect
    (input.externalEffect.getD step.externalEffect) step.dispatchAuthorizedAt.isSome
  return (operation, step)

/-- `transitionStepWithAudit`. -/
def transitionStepWithAudit (r : Repository) (input : DurableStepTransitionInput) :
    RepositoryOutcome DurableParentChildOperation :=
  Outcome.checking r (r.stepTransitionChecks input) fun (operation, step) =>
  let changed := applyStepTransition step input
  r.writeStep operation changed
    (fun aggregate => { applyAggregate operation aggregate input.now input.startedAt with
      fencingToken := some input.ownership.fencingToken })
    fun updated r' =>
      settleStep (r'.append updated input.eventType input.now input.reasonCode (some changed)) updated
        id (undoStep operation step none none)

/-- `applyStepFinalization`. -/
def applyStepFinalization (step : DurableMutationOperationStep)
    (input : DurableStepFinalizationInput) : DurableMutationOperationStep :=
  { step with
    status := input.status
    verificationState := input.verificationState
    recoveryState := input.recoveryState
    externalEffect := input.externalEffect
    reasonCode := input.reasonCode
    fencingToken := some input.ownership.fencingToken
    completedAt := some input.now
    updatedAt := input.now }

/-- The checks of `finalizeStepAndParent`. -/
def finalizeChecks (r : Repository) (input : DurableStepFinalizationInput) :
    Except Failure (DurableMutationOperation × DurableMutationOperationStep) := do
  throwIf (input.status.isTerminal = false)
    (.mutation .illegalStateTransition "A terminal child status is required")
  let operation ← r.requireOperation input.operationId
  let step ← r.requireStep input.childStepId input.operationId
  r.requireOwnership operation input.ownership.operationKey input.ownership.fencingToken input.now
  throwIf (step.status ∉ input.expected) childChanged
  let _ ← transitionActionStatus step.status input.status
  let _ ← transitionExternalEffectState step.externalEffect input.externalEffect
    step.dispatchAuthorizedAt.isSome
  assertTerminalChildEffect input.status input.externalEffect
  return (operation, step)

/-- `if (release) this.locks.delete(key)`. -/
def dropLock (release : Bool) (key : JsString) (r : Repository) : Repository :=
  if release then { r with locks := r.locks.delete key } else r

/-- `finalizeStepAndParent`. -/
def finalizeStepAndParent (r : Repository) (input : DurableStepFinalizationInput) :
    RepositoryOutcome DurableParentChildOperation :=
  Outcome.checking r (r.finalizeChecks input) fun (operation, step) =>
  let ended := applyStepFinalization step input
  r.writeStep operation ended
    (fun aggregate => { applyAggregate operation aggregate input.now with
      completedAt := some input.now })
    fun updated r' =>
      let eventType := if input.status = .succeeded then .completed else .failed
      let key := input.ownership.operationKey
      settleStep (r'.appendEnded updated ended eventType input.now input.reasonCode) updated
        (dropLock (updated.status ≠ .indeterminate) key)
        (undoStep operation step (some (r.auditsOf operation.id)) (r.locks.get key))

/-- `transitionAllowedForRecovery`. -/
def transitionAllowedForRecovery (current next : ActionStatus) : Bool :=
  if next = .indeterminate then current = .executing ∨ current = .verifying
  else current = .pending ∨ current = .authorized ∨ current = .validated ∨ current = .executing

/-- Whether recovery must treat the effect of a step as unknown. -/
def recoveryUncertain (step : DurableMutationOperationStep) : Bool :=
  step.dispatchAuthorizedAt.isSome || step.externalEffect ≠ .notStarted

/-- The status recovery gives a step. -/
def recoveryStatus (step : DurableMutationOperationStep) : ActionStatus :=
  if recoveryUncertain step then .indeterminate else .rejected

/-- The checks of `recoverStepAndParent` that precede its early return. -/
def recoverChecks (r : Repository) (operationId childStepId : JsString) (lease : MutationLease)
    (now : Timestamp) : Except Failure (DurableMutationOperation × DurableMutationOperationStep) := do
  let operation ← r.requireOperation operationId
  let step ← r.requireStep childStepId operationId
  r.requireOwnership operation lease.operationKey lease.fencingToken now true
  return (operation, step)

/-- The step as recovery leaves it. -/
def recoveredStep (step : DurableMutationOperationStep) (lease : MutationLease) (now : Timestamp) :
    DurableMutationOperationStep :=
  let uncertain := recoveryUncertain step
  { step with
    status := recoveryStatus step
    externalEffect := if uncertain then .effectPossiblyActive else .notStarted
    verificationState := if uncertain then .unknown else step.verificationState
    recoveryState := if uncertain then .outcomeUnknown else .recoveredPreExecution
    reasonCode := some (if uncertain then .recoveryOutcomeUnknown else .recoveryPreExecutionAborted)
    fencingToken := some lease.fencingToken
    completedAt := some now
    updatedAt := now }

/-- `recoverStepAndParent`. -/
def recoverStepAndParent (r : Repository) (operationId childStepId : JsString)
    (lease : MutationLease) (now : Timestamp) : RepositoryOutcome DurableParentChildOperation :=
  Outcome.checking r (r.recoverChecks operationId childStepId lease now) fun (operation, step) =>
  if step.status.isTerminal then (.ok ⟨operation, r.stepsFor operationId⟩, r)
  else if transitionAllowedForRecovery step.status (recoveryStatus step) = false then
    (.error (.mutation .illegalStateTransition "The child cannot be recovered"), r)
  else
    let recovered := recoveredStep step lease now
    r.writeStep operation recovered
      (fun aggregate => { applyAggregate operation aggregate now with
        fencingToken := some lease.fencingToken, completedAt := some now })
      fun updated r' =>
        settleStep (r'.appendEnded updated recovered .recovered now recovered.reasonCode) updated
          (dropLock (!recoveryUncertain step) lease.operationKey)
          (undoStep operation step (some (r.auditsOf operation.id)) (r.locks.get lease.operationKey))

/-! ## Operations -/

/-- The checks of `authorizeDispatch` on an operation without child steps. -/
def dispatchChecks (r : Repository) (operation : DurableMutationOperation)
    (input : MutationDispatchAuthorizationInput) : Except Failure Unit := do
  throwIf (operation.status ≠ .executing
    ∨ operation.fencingToken ≠ some input.fencingToken
    ∨ operation.operationKey ≠ input.operationKey
    ∨ operation.action ≠ input.action
    ∨ operation.applicationId ≠ input.applicationId
    ∨ operation.serviceId ≠ input.serviceId
    ∨ operation.containerId ≠ some input.containerId
    ∨ operation.executionDomain ≠ input.executionDomain) staleOwnership
  r.requireLease input.operationKey input.operationId input.fencingToken input.now
  throwIf ((r.auditsOf operation.id).any (·.eventType = .dispatchAuthorized)) staleOwnership

/-- The step authorisation that `authorizeDispatch` makes for an only step. -/
def stepDispatchInput (input : MutationDispatchAuthorizationInput) (serviceId : JsString)
    (step : DurableMutationOperationStep) : MutationStepDispatchAuthorizationInput where
  operationId := input.operationId
  operationKey := input.operationKey
  fencingToken := input.fencingToken
  childStepId := step.id
  action := input.action
  applicationId := input.applicationId
  deploymentId := step.deploymentId
  serviceId := serviceId
  containerId := input.containerId
  executionDomain := input.executionDomain
  targetFingerprint := step.targetFingerprint
  now := input.now

/-- `authorizeDispatch`. -/
def authorizeDispatch (r : Repository) (input : MutationDispatchAuthorizationInput) :
    RepositoryOutcome DurableMutationOperation :=
  Outcome.checking r (r.requireOperation input.operationId) fun operation =>
  match r.stepsFor input.operationId, input.serviceId with
  | [], _ => Outcome.checking r (r.dispatchChecks operation input) fun _ =>
    (r.append operation .dispatchAuthorized input.now none).andThen fun _ r => (.ok operation, r)
  | [step], some serviceId =>
    (r.authorizeStepDispatch (stepDispatchInput input serviceId step)).andThen fun _ r =>
      (.ok operation, r)
  | _, _ => (.error staleOwnership, r)

/-- The two statuses in which an operation needs its lease. -/
def isInFlight (status : ActionStatus) : Bool := status = .executing ∨ status = .verifying

/-- The ownership part of the checks of `transitionWithAudit`. -/
def transitionOwnershipChecks (r : Repository) (current : DurableMutationOperation)
    (input : DurableTransitionInput) : Except Failure Unit :=
  match input.ownership with
  | none => throwIf (input.status = .executing ∨ input.expected.any isInFlight
      ∨ input.releaseLease ∨ input.adoptOwnership) staleOwnership
  | some ownership => do
    throwIf (input.status = .indeterminate ∧ input.releaseLease) staleOwnership
    r.requireLease ownership.operationKey input.operationId ownership.fencingToken input.now
    throwIf (¬ input.adoptOwnership ∧ input.expected.any isInFlight
      ∧ current.fencingToken ≠ some ownership.fencingToken) staleOwnership

/-- The checks of `transitionWithAudit`. -/
def transitionChecks (r : Repository) (input : DurableTransitionInput) :
    Except Failure DurableMutationOperation := do
  let current ← r.requireOperation input.operationId
  r.transitionOwnershipChecks current input
  throwIf (current.status ∉ input.expected)
    (.mutation .illegalStateTransition "The durable operation state changed concurrently")
  let _ ← transitionActionStatus current.status input.status
  return current

/-- The operation as `transitionWithAudit` leaves it. -/
def applyTransition (current : DurableMutationOperation) (input : DurableTransitionInput) :
    DurableMutationOperation :=
  { current with
    status := input.status
    reasonCode := input.reasonCode
    updatedAt := input.now
    verificationState := input.verificationState.getD current.verificationState
    recoveryState := input.recoveryState.getD current.recoveryState
    fencingToken := match input.ownership with
      | some ownership => some ownership.fencingToken
      | none => input.fencingToken.getD current.fencingToken
    startedAt := input.startedAt.getD current.startedAt
    completedAt := input.completedAt.getD current.completedAt }

/-- The end of `transitionWithAudit`: the release of the lease, where asked for. -/
def finishTransition (r : Repository) (previous current : DurableMutationOperation)
    (input : DurableTransitionInput) : RepositoryOutcome DurableMutationOperation :=
  match input.ownership with
  | none => (.ok current, r)
  | some ownership =>
    if current.status.isTerminal && input.releaseLease then
      let owned := (r.locks.get ownership.operationKey).any fun lease =>
        lease.ownerOperationId = current.id ∧ lease.fencingToken = ownership.fencingToken
      if owned then (.ok current, dropLock true ownership.operationKey r)
      else (.error staleOwnership, { r with operations := r.operations.set current.id previous })
    else (.ok current, r)

/-- `transitionWithAudit`. -/
def transitionWithAudit (r : Repository) (input : DurableTransitionInput) :
    RepositoryOutcome DurableMutationOperation :=
  Outcome.checking r (r.transitionChecks input) fun previous =>
  let current := applyTransition previous input
  let r := { r with operations := r.operations.set current.id current }
  match r.append current input.eventType input.now input.reasonCode with
  | (.error e, r) => (.error e, { r with operations := r.operations.set current.id previous })
  | (.ok _, r) => r.finishTransition previous current input

/-! ## Leases -/

/-- Issues the next fencing token of a key and replaces its lock. -/
def grantLease (r : Repository) (operationKey operationId : JsString)
    (now leaseExpiresAt : Timestamp) : RepositoryOutcome (Option MutationLease) :=
  let token := (r.fences.get operationKey).getD 0 + 1
  let lease := ⟨operationKey, operationId, token, now, leaseExpiresAt⟩
  (.ok (some lease), { r with
    fences := r.fences.set operationKey token
    locks := r.locks.set operationKey lease })

/-- The status of an operation, if it exists. -/
def statusOf (r : Repository) (operationId : JsString) : Option ActionStatus :=
  (r.operations.get operationId).map (·.status)

/-- What the lock of a key answers to an `acquireLease`; `none` lets it go on. -/
def lockAnswer (r : Repository) (operationKey operationId : JsString) (now : Timestamp) :
    Option (Option MutationLease) :=
  match r.locks.get operationKey with
  | none => none
  | some current =>
    match r.statusOf current.ownerOperationId with
    | none => none
    | some ownerStatus =>
      if ownerStatus = .indeterminate then some none
      else if ownerStatus.isTerminal then none
      else if current.ownerOperationId = operationId ∧ now < current.leaseExpiresAt then
        some (some current)
      else some none

/-- `acquireLease`. -/
def acquireLease (r : Repository) (operationKey operationId : JsString)
    (now leaseExpiresAt : Timestamp) : RepositoryOutcome (Option MutationLease) :=
  if leaseExpiresAt ≤ now then (.error leaseExpirationError, r)
  else if (r.operations.get operationId).map (·.operationKey) ≠ some operationKey then (.ok none, r)
  else match r.lockAnswer operationKey operationId now with
    | some answer => (.ok answer, r)
    | none => r.grantLease operationKey operationId now leaseExpiresAt

/-- `acquireRecoveryLease`. -/
def acquireRecoveryLease (r : Repository) (operationKey operationId : JsString)
    (now leaseExpiresAt : Timestamp) : RepositoryOutcome (Option MutationLease) :=
  if leaseExpiresAt ≤ now then (.error leaseExpirationError, r)
  else match r.operations.get operationId with
    | none => (.ok none, r)
    | some operation =>
      if operation.operationKey ≠ operationKey ∨ operation.status.isTerminal then (.ok none, r)
      else match r.locks.get operationKey with
        | none => r.grantLease operationKey operationId now leaseExpiresAt
        | some current =>
          if r.statusOf current.ownerOperationId = some .indeterminate then (.ok none, r)
          else if now < current.leaseExpiresAt then (.ok none, r)
          else r.grantLease operationKey operationId now leaseExpiresAt

/-- Whether a lock is the one a lease names: same owner, same fencing token. -/
def holds (current lease : MutationLease) : Bool :=
  current.ownerOperationId = lease.ownerOperationId ∧ current.fencingToken = lease.fencingToken

/-- `renewLease`. -/
def renewLease (r : Repository) (lease : MutationLease) (now leaseExpiresAt : Timestamp) :
    RepositoryOutcome (Option MutationLease) :=
  if leaseExpiresAt ≤ now then (.error leaseExpirationError, r)
  else match r.locks.get lease.operationKey with
    | none => (.ok none, r)
    | some current =>
      if holds current lease = false ∨ current.leaseExpiresAt ≤ now then (.ok none, r)
      else
        let renewed := { current with leaseExpiresAt := leaseExpiresAt }
        (.ok (some renewed), { r with locks := r.locks.set lease.operationKey renewed })

/-- `releaseLease`. -/
def releaseLease (r : Repository) (lease : MutationLease) : RepositoryOutcome Bool :=
  match r.locks.get lease.operationKey with
  | none => (.ok false, r)
  | some current =>
    if holds current lease = false then (.ok false, r)
    else match r.statusOf current.ownerOperationId with
      | none => (.ok false, r)
      | some status =>
        if status.isTerminal = false ∨ status = .indeterminate then (.ok false, r)
        else (.ok true, { r with locks := r.locks.delete lease.operationKey })

/-! ## Queries -/

/-- `listRecoverable`. -/
def listRecoverable (host : Host) (r : Repository) (now : Timestamp) :
    List DurableMutationOperation :=
  (r.operations.values.filter fun row =>
    row.status ∈ [.pending, .authorized, .validated, .executing, .verifying] ∧
      (r.locks.get row.operationKey).all fun lease => lease.leaseExpiresAt ≤ now).insertionSort
    fun a b => a.createdAt < b.createdAt ∨ (a.createdAt = b.createdAt ∧ host.localeLe a.id b.id)

/-- `listAuditEvents`. -/
def listAuditEvents (r : Repository) (operationId : JsString) : List DurableMutationAuditEvent :=
  r.auditsOf operationId

end InMemoryDurableMutationRepository

end ZimaControl
