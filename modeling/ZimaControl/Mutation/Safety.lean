import Mathlib.Data.Int.Notation
import ZimaControl.Lib.JsString

/-!
# The vocabulary of a mutation

The types of `mutation-safety.ts` that the durable repository and its clients share, and the status
automaton `allowedTransitions`. Identifiers and keys are `JsString`s, since the repository compares
and concatenates them; error messages are fixed texts of the source.
-/

namespace ZimaControl

/-- `Date`, as the number of milliseconds it holds. -/
abbrev Timestamp := ℤ

/-- The roles of `auth-policy.ts`. -/
inductive Role
  | admin
  | operator
  | viewer
  deriving DecidableEq

/-- `actionTypes`. -/
inductive ActionType
  | start
  | stop
  | restart
  deriving DecidableEq

/-- `actionStatuses`. -/
inductive ActionStatus
  | pending
  | authorized
  | validated
  | executing
  | verifying
  | succeeded
  | rejected
  | failed
  | timedOut
  | cancelled
  | indeterminate
  deriving DecidableEq

/-- `ExecutionDomain`. -/
inductive ExecutionDomain
  | zimaos
  | docker
  | unsupported
  deriving DecidableEq

/-- `Exclude<ExecutionDomain, "UNSUPPORTED">`: the domains a plan may name. -/
abbrev SupportedDomain := {d : ExecutionDomain // d ≠ .unsupported}

/-- The Docker domain as a plan names it. -/
def SupportedDomain.docker : SupportedDomain := ⟨.docker, by decide⟩

/-- `MutationErrorCode`. -/
inductive MutationErrorCode
  | authenticationRequired
  | unauthorized
  | invalidRequest
  | applicationNotFound
  | invalidTarget
  | targetOwnershipMismatch
  | targetResolutionFailed
  | unsupportedManagement
  | unsupportedRuntime
  | idempotencyConflict
  | operationInProgress
  | lockCapacityExceeded
  | illegalStateTransition
  | executionRejected
  | executionFailed
  | verificationFailed
  | persistenceFailed
  | recoveryPreExecutionAborted
  | recoveryOutcomeUnknown
  | auditPersistenceFailed
  | operationTimedOut
  | staleOperationOwnership
  | containerNotFound
  | identityMismatch
  | dockerUnavailable
  | dockerPermissionDenied
  | actionRejectedByDocker
  | dockerTimeout
  | postActionVerificationFailed
  | mutationUncertain
  | applicationRuntimeUnavailable
  | applicationShapeUnsupported
  | targetSnapshotNotAuthoritative
  | targetSnapshotStale
  | notImplemented
  deriving DecidableEq

/-- `DockerGatewayErrorCode`. -/
inductive DockerGatewayErrorCode
  | containerNotFound
  | dockerUnavailable
  | dockerPermissionDenied
  | actionRejectedByDocker
  | dockerTimeout
  | invalidDockerResponse
  deriving DecidableEq

/-- The `effect` of a `DockerGatewayError`. -/
inductive GatewayEffect
  | none
  | possiblyActive
  deriving DecidableEq

/-- A thrown value: an error of a class that the source tells apart, or any other value. -/
inductive Failure
  /-- `new MutationError(code, message)`. -/
  | mutation (code : MutationErrorCode) (message : String)
  /-- `new TypeError(message)`. -/
  | typeError (message : String)
  /-- A `MutationCrashSimulationError`. -/
  | crashSimulation
  /-- `new DockerGatewayError(code, effect)`. -/
  | dockerGateway (code : DockerGatewayErrorCode) (effect : GatewayEffect)
  /-- A value of no such class, thrown by code outside the model. -/
  | foreign
  deriving DecidableEq

/-- Throws `e` when a condition holds. -/
def throwIf (condition : Prop) [Decidable condition] (e : Failure) : Except Failure Unit :=
  if condition then .error e else .ok ()

/-- A check passes exactly when its condition fails. -/
@[simp] theorem throwIf_eq_ok {condition : Prop} [Decidable condition] {e : Failure} {u : Unit} :
    throwIf condition e = .ok u ↔ ¬ condition := by
  unfold throwIf
  split_ifs with h <;> simp [h]

/-- `ActionTarget`; an absent optional field is `none`. -/
structure ActionTarget where
  applicationId : JsString
  serviceId : Option JsString
  containerId : Option JsString

/-- The `actor` of a plan. -/
structure PlanActor where
  id : JsString
  role : Role

/-- `ActionPlan`. -/
structure ActionPlan where
  operationId : JsString
  actor : PlanActor
  action : ActionType
  target : ActionTarget
  executionDomain : SupportedDomain
  operationKey : JsString
  idempotencyKey : JsString

namespace ActionStatus

/-- `allowedTransitions`: the statuses that may follow a status. -/
def allowedTransitions : ActionStatus → List ActionStatus
  | pending => [authorized, rejected, cancelled]
  | authorized => [validated, rejected, cancelled]
  | validated => [executing, rejected, cancelled]
  | executing => [verifying, failed, timedOut, cancelled, indeterminate]
  | verifying => [succeeded, failed, timedOut, cancelled, indeterminate]
  | succeeded | rejected | failed | timedOut | cancelled | indeterminate => []

/-- `isTerminalActionStatus`: membership in `terminalStatuses`. -/
def isTerminal (status : ActionStatus) : Bool :=
  [succeeded, rejected, failed, timedOut, cancelled, indeterminate].contains status

/-- The five terminal statuses with a known outcome. -/
def isSettled (status : ActionStatus) : Bool :=
  status.isTerminal && status != indeterminate

/-- Nothing follows a terminal status. -/
theorem not_mem_allowedTransitions_of_isTerminal {current next : ActionStatus}
    (h : current.isTerminal = true) : next ∉ current.allowedTransitions := by
  cases current <;> first | exact absurd h (by decide) | simp [allowedTransitions]

/-- A status with a successor has not ended. -/
theorem isTerminal_eq_false_of_mem {current next : ActionStatus}
    (hnext : next ∈ current.allowedTransitions) : current.isTerminal = false := by
  by_contra hterm
  exact not_mem_allowedTransitions_of_isTerminal (by simpa using hterm) hnext

/-- Only an operation in flight can become indeterminate. -/
theorem executing_or_verifying_of_indeterminate_mem {current : ActionStatus}
    (h : indeterminate ∈ current.allowedTransitions) : current = executing ∨ current = verifying := by
  cases current <;> simp_all [allowedTransitions]

/-- A terminal status is settled or indeterminate. -/
theorem isTerminal_iff {status : ActionStatus} :
    status.isTerminal = true ↔ status.isSettled = true ∨ status = indeterminate := by
  cases status <;> decide

/-- A settled status is terminal. -/
theorem isTerminal_of_isSettled {status : ActionStatus} (h : status.isSettled = true) :
    status.isTerminal = true :=
  isTerminal_iff.mpr (.inl h)

end ActionStatus

/-- `transitionActionStatus`: the next status, or the error of an illegal transition. -/
def transitionActionStatus (current next : ActionStatus) : Except Failure ActionStatus :=
  if next ∈ current.allowedTransitions then .ok next
  else .error (.mutation .illegalStateTransition
    "The requested operation state transition is not allowed")

/-- A transition succeeds exactly along the automaton. -/
theorem transitionActionStatus_eq_ok {current next result : ActionStatus} :
    transitionActionStatus current next = .ok result ↔
      next ∈ current.allowedTransitions ∧ result = next := by
  unfold transitionActionStatus
  split_ifs with h <;> simp [h, eq_comm]

end ZimaControl
