import ZimaControl.Lib.Json
import ZimaControl.Mutation.Safety

/-!
# Durable operations and their steps

The records of `durable-mutation.ts` and its pure functions: the checks of a parent claim, the
automaton of the external effect, and the aggregation of a parent from its steps. `Host` holds the
functions of the platform that the code calls.
-/

namespace ZimaControl

/-- Platform functions the source calls. -/
structure Host where
  /-- `createHash("sha256").update(s, "utf8").digest("hex")`. -/
  sha256 : JsString → JsString
  /-- `a.localeCompare(b) <= 0`. -/
  localeLe : JsString → JsString → Bool
  /-- `date.toISOString()`. -/
  toISOString : Timestamp → JsString

/-- `VerificationState`. -/
inductive VerificationState
  | notStarted
  | pending
  | verified
  | failed
  | unknown
  deriving DecidableEq

/-- `RecoveryState`. -/
inductive RecoveryState
  | none
  | recoveredPreExecution
  | outcomeUnknown
  deriving DecidableEq

/-- `ExternalEffectState`. -/
inductive ExternalEffectState
  | notStarted
  | completed
  | effectPossiblyActive
  deriving DecidableEq

/-- `MutationAuditEventType`. -/
inductive MutationAuditEventType
  | claimed
  | stepCreated
  | dispatchAuthorized
  | stateChanged
  | completed
  | failed
  | recovered
  | replayed
  deriving DecidableEq

/-- `DurableMutationOperation`. -/
structure DurableMutationOperation where
  id : JsString
  actorId : JsString
  actorRole : Role
  action : ActionType
  applicationId : JsString
  serviceId : Option JsString
  containerId : Option JsString
  executionDomain : SupportedDomain
  operationKey : JsString
  idempotencyKey : JsString
  fingerprint : JsString
  status : ActionStatus
  verificationState : VerificationState
  recoveryState : RecoveryState
  externalEffect : ExternalEffectState
  fencingToken : Option ℕ
  reasonCode : Option MutationErrorCode
  deadlineAt : Timestamp
  startedAt : Option Timestamp
  completedAt : Option Timestamp
  createdAt : Timestamp
  updatedAt : Timestamp
  deriving DecidableEq

/-- `DurableMutationAuditEvent`, without the random `id` that nothing reads. -/
structure DurableMutationAuditEvent where
  operationId : JsString
  childStepId : Option JsString
  sequence : ℕ
  actorId : JsString
  actorRole : Role
  action : ActionType
  applicationId : JsString
  serviceId : Option JsString
  containerId : Option JsString
  status : ActionStatus
  eventType : MutationAuditEventType
  reasonCode : Option MutationErrorCode
  timestamp : Timestamp

/-- `DurableMutationOperationStep`. -/
structure DurableMutationOperationStep where
  id : JsString
  parentOperationId : JsString
  sequence : ℕ
  applicationId : JsString
  deploymentId : JsString
  serviceId : JsString
  containerId : JsString
  action : ActionType
  executionDomain : SupportedDomain
  targetFingerprint : JsString
  snapshotAt : Timestamp
  authorityEvidence : JsString
  applicationDiscoveredAt : Timestamp
  deploymentDiscoveredAt : Timestamp
  runtimeObservedAt : Timestamp
  deadlineAt : Timestamp
  status : ActionStatus
  verificationState : VerificationState
  recoveryState : RecoveryState
  externalEffect : ExternalEffectState
  fencingToken : Option ℕ
  dispatchFencingToken : Option ℕ
  dispatchAuthorizedAt : Option Timestamp
  reasonCode : Option MutationErrorCode
  startedAt : Option Timestamp
  completedAt : Option Timestamp
  createdAt : Timestamp
  updatedAt : Timestamp
  deriving DecidableEq

/-- An operation under its short name. -/
abbrev Operation := DurableMutationOperation

/-- A step under its short name. -/
abbrev OperationStep := DurableMutationOperationStep

/-- `DurableParentChildOperation`. -/
structure DurableParentChildOperation where
  operation : DurableMutationOperation
  steps : List DurableMutationOperationStep
  deriving DecidableEq

/-- `AuthoritativeApplicationTargetSnapshot`; its execution domain is always Docker. -/
structure AuthoritativeApplicationTargetSnapshot where
  applicationId : JsString
  deploymentId : JsString
  serviceId : JsString
  containerId : JsString
  action : ActionType
  targetFingerprint : JsString
  snapshotAt : Timestamp
  authorityEvidence : JsString
  applicationDiscoveredAt : Timestamp
  deploymentDiscoveredAt : Timestamp
  runtimeObservedAt : Timestamp

/-- `MutationLease`. -/
structure MutationLease where
  operationKey : JsString
  ownerOperationId : JsString
  fencingToken : ℕ
  acquiredAt : Timestamp
  leaseExpiresAt : Timestamp
  deriving DecidableEq

/-- `DurableMutationClaimInput`. -/
structure DurableMutationClaimInput where
  plan : ActionPlan
  fingerprint : JsString
  now : Timestamp
  idempotencyExpiresAt : Timestamp
  deadlineAt : Timestamp

/-- `DurableParentChildClaimInput`. -/
structure DurableParentChildClaimInput extends DurableMutationClaimInput where
  stepId : JsString
  snapshot : AuthoritativeApplicationTargetSnapshot

/-- `DurableParentReplayInput`. -/
structure DurableParentReplayInput where
  actorId : JsString
  idempotencyKey : JsString
  fingerprint : JsString
  now : Timestamp

/-- The `kind` of a claim's answer. -/
inductive ClaimKind
  | created
  | replay
  deriving DecidableEq

/-- `DurableMutationClaim`. -/
structure DurableMutationClaim where
  kind : ClaimKind
  operation : DurableMutationOperation

/-- `DurableParentChildClaim`. -/
structure DurableParentChildClaim where
  kind : ClaimKind
  value : DurableParentChildOperation

/-- `DurableTransitionInput`. An absent optional field is the outer `none`; `null` is the inner one
where the source tells them apart. -/
structure DurableTransitionInput where
  operationId : JsString
  expected : List ActionStatus
  status : ActionStatus
  now : Timestamp
  eventType : MutationAuditEventType
  reasonCode : Option MutationErrorCode := none
  verificationState : Option VerificationState := none
  recoveryState : Option RecoveryState := none
  fencingToken : Option (Option ℕ) := none
  startedAt : Option (Option Timestamp) := none
  completedAt : Option (Option Timestamp) := none
  ownership : Option MutationLease := none
  adoptOwnership : Bool := false
  releaseLease : Bool := false

/-- `MutationDispatchAuthorizationInput`. -/
structure MutationDispatchAuthorizationInput where
  operationId : JsString
  operationKey : JsString
  fencingToken : ℕ
  action : ActionType
  applicationId : JsString
  serviceId : Option JsString
  containerId : JsString
  executionDomain : SupportedDomain
  now : Timestamp

/-- `MutationStepDispatchAuthorizationInput`; its `expected` is the constant `EXECUTING`. -/
structure MutationStepDispatchAuthorizationInput where
  operationId : JsString
  operationKey : JsString
  fencingToken : ℕ
  childStepId : JsString
  action : ActionType
  applicationId : JsString
  deploymentId : JsString
  serviceId : JsString
  containerId : JsString
  executionDomain : SupportedDomain
  targetFingerprint : JsString
  now : Timestamp

/-- `DurableStepTransitionInput`. -/
structure DurableStepTransitionInput where
  operationId : JsString
  childStepId : JsString
  expected : List ActionStatus
  status : ActionStatus
  now : Timestamp
  eventType : MutationAuditEventType
  ownership : MutationLease
  adoptOwnership : Bool := false
  verificationState : Option VerificationState := none
  recoveryState : Option RecoveryState := none
  externalEffect : Option ExternalEffectState := none
  reasonCode : Option MutationErrorCode := none
  startedAt : Option (Option Timestamp) := none

/-- `DurableStepFinalizationInput`. -/
structure DurableStepFinalizationInput where
  operationId : JsString
  childStepId : JsString
  expected : List ActionStatus
  status : ActionStatus
  now : Timestamp
  ownership : MutationLease
  verificationState : VerificationState
  recoveryState : RecoveryState
  externalEffect : ExternalEffectState
  reasonCode : Option MutationErrorCode := none

/-- `ParentMutationAggregate`. -/
structure ParentMutationAggregate where
  status : ActionStatus
  verificationState : VerificationState
  recoveryState : RecoveryState
  externalEffect : ExternalEffectState
  reasonCode : Option MutationErrorCode

/-! ## Fingerprints and claim checks -/

/-- The name of an action as the source spells it. -/
def ActionType.name : ActionType → JsString
  | start => js "START"
  | stop => js "STOP"
  | restart => js "RESTART"

/-- `mutationFingerprint`: the hash of the encoding of action and target. -/
def mutationFingerprint (host : Host) (action : ActionType) (target : ActionTarget) : JsString :=
  host.sha256 (jsonArray [jsonString action.name, jsonString target.applicationId,
    jsonNullable target.serviceId, jsonNullable target.containerId])

/-- A code unit of `[A-Za-z0-9]`. -/
def isAlphanumeric (u : CodeUnit) : Bool :=
  (unit 'A' ≤ u && u ≤ unit 'Z') || (unit 'a' ≤ u && u ≤ unit 'z') || (unit '0' ≤ u && u ≤ unit '9')

/-- A code unit of `[A-Za-z0-9._:-]`. -/
def isIdentifierUnit (u : CodeUnit) : Bool :=
  isAlphanumeric u || u = unit '.' || u = unit '_' || u = unit ':' || u = unit '-'

/-- A code unit of `[a-f0-9]`. -/
def isLowerHex (u : CodeUnit) : Bool :=
  (unit 'a' ≤ u && u ≤ unit 'f') || (unit '0' ≤ u && u ≤ unit '9')

/-- `/^[A-Za-z0-9._:-]{min,max}$/`. -/
def isIdentifier (min max : ℕ) (s : JsString) : Bool :=
  decide (min ≤ s.length) && decide (s.length ≤ max) && s.all isIdentifierUnit

/-- `/^[A-Za-z0-9][A-Za-z0-9._:-]{0,127}$/`. -/
def isStepId (s : JsString) : Bool :=
  s.head?.any isAlphanumeric && isIdentifier 1 128 s

/-- `/^[a-f0-9]{64}$/`. -/
def isDigest (s : JsString) : Bool := decide (s.length = 64) && s.all isLowerHex

/-- The operation key: `` `application:${applicationId}` ``. -/
def applicationKey (applicationId : JsString) : JsString := js "application:" ++ applicationId

/-- `assertParentChildClaimInput`. -/
def assertParentChildClaimInput (host : Host) (input : DurableParentChildClaimInput) :
    Except Failure Unit :=
  let target := input.plan.target
  if target.serviceId ≠ none ∨ target.containerId ≠ none
      ∨ target.applicationId ≠ input.snapshot.applicationId
      ∨ input.plan.action ≠ input.snapshot.action
      ∨ input.plan.executionDomain ≠ SupportedDomain.docker
      ∨ input.plan.operationKey ≠ applicationKey target.applicationId
      ∨ input.fingerprint ≠ mutationFingerprint host input.plan.action target then
    .error (.mutation .invalidRequest "The parent mutation claim is inconsistent")
  else if ¬ isStepId input.stepId ∨ ¬ isDigest input.snapshot.containerId
      ∨ ¬ isDigest input.snapshot.targetFingerprint
      ∨ ¬ isIdentifier 1 128 input.snapshot.authorityEvidence
      ∨ input.snapshot.snapshotAt > input.now
      ∨ input.idempotencyExpiresAt ≤ input.now
      ∨ input.deadlineAt ≤ input.now then
    .error (.mutation .invalidTarget "The durable child target snapshot is invalid")
  else .ok ()

/-! ## The external effect -/

/-- `transitionExternalEffectState`. -/
def transitionExternalEffectState (current next : ExternalEffectState) (dispatchAuthorized : Bool) :
    Except Failure ExternalEffectState :=
  if current = next then .ok next
  else if current ≠ .notStarted ∨ next = .notStarted ∨ ¬ dispatchAuthorized then
    .error (.mutation .illegalStateTransition
      "The child external-effect transition is not allowed")
  else .ok next

/-- `assertTerminalChildEffect`. -/
def assertTerminalChildEffect (status : ActionStatus) (effect : ExternalEffectState) :
    Except Failure Unit :=
  if effect = .effectPossiblyActive ∧ status ≠ .indeterminate then
    .error (.mutation .illegalStateTransition
      "The terminal child result contradicts its external-effect classification")
  else .ok ()

/-! ## Aggregation of a parent -/

/-- The effect of a parent: the most uncertain effect of its steps. -/
def aggregateEffect (steps : List DurableMutationOperationStep) : ExternalEffectState :=
  if steps.any (·.externalEffect = .effectPossiblyActive) then .effectPossiblyActive
  else if steps.any (·.externalEffect = .completed) then .completed
  else .notStarted

/-- The aggregate with the status, states and reason of one of the steps. -/
def aggregateOf (status : ActionStatus) (effect : ExternalEffectState)
    (step : DurableMutationOperationStep) : ParentMutationAggregate :=
  ⟨status, step.verificationState, step.recoveryState, effect, step.reasonCode⟩

/-- `aggregateParentFromSteps`. -/
def aggregateParentFromSteps (steps : List DurableMutationOperationStep) :
    Except Failure ParentMutationAggregate :=
  if steps.length = 0 then
    .error (.typeError "A parent mutation requires at least one durable child step")
  else
    let effect := aggregateEffect steps
    let rejected := steps.find? (·.status = .rejected)
    match steps.find? (·.status = .indeterminate) with
    | some uncertain =>
      .ok ⟨.indeterminate, .unknown, .outcomeUnknown, effect, uncertain.reasonCode⟩
    | none =>
      if steps.all (·.status = .succeeded) then
        .ok ⟨.succeeded, .verified, .none, effect, none⟩
      else match steps.find? (!·.status.isTerminal) with
        | some active => .ok (aggregateOf active.status effect active)
        | none =>
          match rejected, steps.all (·.status = .rejected) with
          | some r, true => .ok (aggregateOf .rejected effect r)
          | _, _ => match steps.find? (·.status = .timedOut) with
            | some t => .ok (aggregateOf .timedOut effect t)
            | none =>
              let failed := (steps.find? (·.status = .failed)).or
                ((steps.find? (·.status = .cancelled)).or rejected)
              -- a step without a reason leaves the parent with `EXECUTION_FAILED`
              .ok ⟨.failed, (failed.map (·.verificationState)).getD .failed,
                (failed.map (·.recoveryState)).getD .none, effect,
                (failed.bind (·.reasonCode)).or (some .executionFailed)⟩

/-- The status a parent takes from its only step: a cancelled step makes a failed parent. -/
def parentStatus : ActionStatus → ActionStatus
  | .cancelled => .failed
  | status => status

/-- A parent is settled exactly when its only step is. -/
@[simp] theorem isSettled_parentStatus (status : ActionStatus) :
    (parentStatus status).isSettled = status.isSettled := by
  cases status <;> rfl

/-- A parent is terminal exactly when its only step is. -/
@[simp] theorem isTerminal_parentStatus (status : ActionStatus) :
    (parentStatus status).isTerminal = status.isTerminal := by
  cases status <;> rfl

end ZimaControl
