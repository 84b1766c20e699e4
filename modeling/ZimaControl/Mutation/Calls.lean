import ZimaControl.Mutation.Repository

/-!
# Calls on the repository

The methods of `DurableMutationRepository` as data. A run of the repository is a sequence of calls,
each executed atomically.
-/

namespace ZimaControl

/-- A call of one method, with its arguments. -/
inductive RepositoryCall
  | claim (input : DurableMutationClaimInput)
  | findOperation (operationId : JsString)
  | claimParentWithStep (input : DurableParentChildClaimInput)
  | findOperationWithSteps (operationId : JsString)
  | replayParentClaim (input : DurableParentReplayInput)
  | findParentClaim (input : DurableParentReplayInput)
  | rejectParentChildBeforeOwnership (operationId childStepId : JsString) (now : Timestamp)
      (reasonCode : MutationErrorCode)
  | authorizeStepDispatch (input : MutationStepDispatchAuthorizationInput)
  | transitionStepWithAudit (input : DurableStepTransitionInput)
  | finalizeStepAndParent (input : DurableStepFinalizationInput)
  | recoverStepAndParent (operationId childStepId : JsString) (lease : MutationLease)
      (now : Timestamp)
  | authorizeDispatch (input : MutationDispatchAuthorizationInput)
  | transitionWithAudit (input : DurableTransitionInput)
  | acquireLease (operationKey operationId : JsString) (now leaseExpiresAt : Timestamp)
  | acquireRecoveryLease (operationKey operationId : JsString) (now leaseExpiresAt : Timestamp)
  | renewLease (lease : MutationLease) (now leaseExpiresAt : Timestamp)
  | releaseLease (lease : MutationLease)
  | listRecoverable (now : Timestamp)
  | listAuditEvents (operationId : JsString)

namespace RepositoryCall

/-- The value of each method. -/
def Answer : RepositoryCall → Type
  | claim _ => DurableMutationClaim
  | findOperation _ => Option DurableMutationOperation
  | claimParentWithStep _ => DurableParentChildClaim
  | findOperationWithSteps _ => Option DurableParentChildOperation
  | replayParentClaim _ => Option DurableParentChildOperation
  | findParentClaim _ => Option DurableParentChildOperation
  | rejectParentChildBeforeOwnership .. => DurableParentChildOperation
  | authorizeStepDispatch _ => DurableMutationOperationStep
  | transitionStepWithAudit _ => DurableParentChildOperation
  | finalizeStepAndParent _ => DurableParentChildOperation
  | recoverStepAndParent .. => DurableParentChildOperation
  | authorizeDispatch _ => DurableMutationOperation
  | transitionWithAudit _ => DurableMutationOperation
  | acquireLease .. => Option MutationLease
  | acquireRecoveryLease .. => Option MutationLease
  | renewLease .. => Option MutationLease
  | releaseLease _ => Bool
  | listRecoverable _ => List DurableMutationOperation
  | listAuditEvents _ => List DurableMutationAuditEvent

/-- Executes a call. -/
def exec (host : Host) (r : Repository) : (c : RepositoryCall) → RepositoryOutcome c.Answer
  | claim input => r.claim input
  | findOperation operationId => (.ok (r.findOperation operationId), r)
  | claimParentWithStep input => r.claimParentWithStep host input
  | findOperationWithSteps operationId => (.ok (r.findOperationWithSteps operationId), r)
  | replayParentClaim input => r.replayParentClaim input
  | findParentClaim input => (r.findParentClaim input, r)
  | rejectParentChildBeforeOwnership operationId childStepId now reasonCode =>
    r.rejectParentChildBeforeOwnership operationId childStepId now reasonCode
  | authorizeStepDispatch input => r.authorizeStepDispatch input
  | transitionStepWithAudit input => r.transitionStepWithAudit input
  | finalizeStepAndParent input => r.finalizeStepAndParent input
  | recoverStepAndParent operationId childStepId lease now =>
    r.recoverStepAndParent operationId childStepId lease now
  | authorizeDispatch input => r.authorizeDispatch input
  | transitionWithAudit input => r.transitionWithAudit input
  | acquireLease operationKey operationId now leaseExpiresAt =>
    r.acquireLease operationKey operationId now leaseExpiresAt
  | acquireRecoveryLease operationKey operationId now leaseExpiresAt =>
    r.acquireRecoveryLease operationKey operationId now leaseExpiresAt
  | renewLease lease now leaseExpiresAt => r.renewLease lease now leaseExpiresAt
  | releaseLease lease => r.releaseLease lease
  | listRecoverable now => (.ok (r.listRecoverable host now), r)
  | listAuditEvents operationId => (.ok (r.listAuditEvents operationId), r)

/-- The repository after a call. -/
def next (host : Host) (r : Repository) (c : RepositoryCall) : Repository := (c.exec host r).2

/-- Whether a call returned, as opposed to throwing. -/
def returned (host : Host) (r : Repository) (c : RepositoryCall) : Bool :=
  (c.exec host r).1.isOk

/-- The operation whose dispatch a call authorises when it returns. -/
def dispatchTarget : RepositoryCall → Option JsString
  | authorizeDispatch input => some input.operationId
  | authorizeStepDispatch input => some input.operationId
  | _ => none

end RepositoryCall

namespace InMemoryDurableMutationRepository

/-- The repository after a sequence of calls. -/
def run (host : Host) (r : Repository) (calls : List RepositoryCall) : Repository :=
  calls.foldl (RepositoryCall.next host) r

/-- The repositories that calls reach from `r`, each made under a condition. -/
inductive ReachedBy (host : Host) (allowed : Repository → RepositoryCall → Prop) (r : Repository) :
    Repository → Prop
  | refl : ReachedBy host allowed r r
  | call {r' : Repository} (c : RepositoryCall) (h : ReachedBy host allowed r r')
      (hc : allowed r' c) : ReachedBy host allowed r (c.next host r')

/-- The repositories that calls reach from an empty one, whatever audits fail. -/
def Reachable (host : Host) (r : Repository) : Prop :=
  ∃ auditFaults, ReachedBy host (fun _ _ => True) (initial auditFaults) r

variable {allowed : Repository → RepositoryCall → Prop} {host : Host}

/-- What a call under the condition preserves, a run preserves. -/
theorem ReachedBy.induct {r r' : Repository} (h : ReachedBy host allowed r r')
    (P : Repository → Prop) (hr : P r) (hstep : ∀ r c, allowed r c → P r → P (c.next host r)) :
    P r' := by
  induction h with
  | refl => exact hr
  | call c _ hc ih => exact hstep _ c hc ih

/-- Runs compose. -/
theorem ReachedBy.trans {r r' r'' : Repository} (h : ReachedBy host allowed r r')
    (h' : ReachedBy host allowed r' r'') : ReachedBy host allowed r r'' := by
  induction h' with
  | refl => exact h
  | call c _ hc ih => exact ih.call c hc

/-- Calls that all meet a condition are a run under the condition. -/
theorem reachedBy_run_of {allowed : RepositoryCall → Prop} (r : Repository)
    (calls : List RepositoryCall) (h : ∀ c ∈ calls, allowed c) :
    ReachedBy host (fun _ c => allowed c) r (r.run host calls) := by
  induction calls generalizing r with
  | nil => exact .refl
  | cons c calls ih =>
    have hc : allowed c := h c List.mem_cons_self
    exact (ReachedBy.refl.call c hc).trans
      (ih (c.next host r) fun c' hc' => h c' (List.mem_cons_of_mem c hc'))

/-- A sequence of calls is a run without conditions. -/
theorem reachedBy_run (host : Host) (r : Repository) (calls : List RepositoryCall) :
    ReachedBy host (fun _ _ => True) r (r.run host calls) :=
  reachedBy_run_of r calls fun _ _ => trivial

end InMemoryDurableMutationRepository

end ZimaControl
