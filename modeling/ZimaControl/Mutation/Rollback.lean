import ZimaControl.Mutation.Frame
import ZimaControl.Mutation.Indeterminate

/-!
# What a rejected call leaves behind

The interface asks every implementation to update state and append audit atomically. The in-memory
repository has no transactions: every method writes in place and rolls back by hand, so the question
is asked at every point where a method can throw.

The step methods, the transition of an operation, the two dispatch methods and the leases restore
what they wrote. The two methods that claim do not always. Both delete an expired claim before they
look for a duplicate id, and `claim` has no rollback around its append.
-/

namespace ZimaControl

namespace InMemoryDurableMutationRepository

variable {host : Host} {r : Repository} {e : Failure}

/-- One of the next `n` appends will fail. -/
def FaultWithin (r : Repository) (n : ℕ) : Prop := true ∈ r.auditFaults.take n

/-- A rejected call whose method restores or answers. -/
theorem restored_of_error {α : Type} {outcome : RepositoryOutcome α}
    (h : Refused r outcome ∨ ∃ a, outcome.1 = .ok a) (he : outcome.1 = .error e) :
    Restored r outcome.2 := by
  rcases h with h | ⟨a, ha⟩
  · exact h.2
  · rw [ha] at he
    cases he

/-! ## The methods that do not claim -/

variable (operationKey operationId : JsString) (now leaseExpiresAt : Timestamp)

/-- Behind the check of its expiry, a lease is granted or refused with an answer. -/
theorem acquireLease_answers :
    let outcome := r.acquireLease operationKey operationId now leaseExpiresAt
    Refused r outcome ∨ ∃ a, outcome.1 = .ok a := by
  simp only [acquireLease]
  split_ifs
  · exact .inl ⟨⟨_, rfl⟩, .refl r⟩
  · exact .inr ⟨_, rfl⟩
  · split <;> exact .inr ⟨_, rfl⟩

/-- So is one for recovery. -/
theorem acquireRecoveryLease_answers :
    let outcome := r.acquireRecoveryLease operationKey operationId now leaseExpiresAt
    Refused r outcome ∨ ∃ a, outcome.1 = .ok a := by
  simp only [acquireRecoveryLease]
  split_ifs
  · exact .inl ⟨⟨_, rfl⟩, .refl r⟩
  split
  · exact .inr ⟨_, rfl⟩
  split_ifs
  · exact .inr ⟨_, rfl⟩
  · split
    · exact .inr ⟨_, rfl⟩
    · split_ifs <;> exact .inr ⟨_, rfl⟩

/-- A renewal, too. -/
theorem renewLease_answers (lease : MutationLease) (now leaseExpiresAt : Timestamp) :
    let outcome := r.renewLease lease now leaseExpiresAt
    Refused r outcome ∨ ∃ a, outcome.1 = .ok a := by
  simp only [renewLease]
  split_ifs
  · exact .inl ⟨⟨_, rfl⟩, .refl r⟩
  · split
    · exact .inr ⟨_, rfl⟩
    · split_ifs <;> exact .inr ⟨_, rfl⟩

/-- A release always answers. -/
theorem releaseLease_answers (lease : MutationLease) : ∃ a, (r.releaseLease lease).1 = .ok a := by
  unfold releaseLease
  split
  · exact ⟨_, rfl⟩
  split_ifs
  · exact ⟨_, rfl⟩
  · split
    · exact ⟨_, rfl⟩
    · split_ifs <;> exact ⟨_, rfl⟩

/-- A rejected call that does not claim leaves everything. -/
theorem restored_of_claimPair_eq_none (hwf : r.rows.Wf) {c : RepositoryCall}
    (hc : c.claimPair = none) (he : (c.exec host r).1 = .error e) : Restored r (c.next host r) := by
  cases c with
  | claim | claimParentWithStep => cases hc
  | replayParentClaim input =>
    exact restored_of_error ((replayParentClaim_answers input).imp_right And.left) he
  | rejectParentChildBeforeOwnership operationId childStepId now reasonCode =>
    refine restored_of_error ?_ he
    exact (checked_settles (rejectParentChildBeforeOwnership_settles hwf now reasonCode)).imp_right
      fun ⟨_, _, _, _, hok, _⟩ => hok
  | transitionStepWithAudit input =>
    refine restored_of_error ?_ he
    exact (checked_settles (transitionStepWithAudit_settles hwf)).imp_right
      fun ⟨_, _, _, _, hok, _⟩ => hok
  | finalizeStepAndParent input =>
    refine restored_of_error ?_ he
    exact (checked_settles (finalizeStepAndParent_settles hwf)).imp_right
      fun ⟨_, _, _, _, hok, _⟩ => hok
  | recoverStepAndParent operationId childStepId lease now =>
    rcases recoverStepAndParent_cases hwf operationId childStepId lease now with
      heq | ⟨_, _, -, -, -, ⟨-, -, hback⟩ | ⟨-, ⟨a, ha⟩, -⟩⟩
    · have hsame : RepositoryCall.next host r
          (.recoverStepAndParent operationId childStepId lease now) = r := heq
      rw [hsame]
      exact .refl r
    · exact hback
    · cases ha.symm.trans he
  | authorizeStepDispatch input =>
    exact restored_of_error ((authorizeStepDispatch_rows hwf input).imp_right
      fun ⟨_, _, _, hok, _⟩ => hok) he
  | authorizeDispatch input =>
    rcases authorizeDispatch_rows hwf input with h | ⟨_, -, -, -, ⟨a, ha⟩, -⟩ |
      ⟨_, _, _, -, -, ⟨a, ha⟩, -⟩
    · exact h.2
    · cases ha.symm.trans he
    · cases ha.symm.trans he
  | transitionWithAudit input =>
    exact restored_of_error ((transitionWithAudit_rows hwf input).imp_right
      fun ⟨_, _, hok, _⟩ => hok) he
  | acquireLease => exact restored_of_error (acquireLease_answers ..) he
  | acquireRecoveryLease => exact restored_of_error (acquireRecoveryLease_answers ..) he
  | renewLease => exact restored_of_error (renewLease_answers ..) he
  | releaseLease lease => exact restored_of_error (.inr (releaseLease_answers lease)) he
  | findOperation | findOperationWithSteps | findParentClaim | listRecoverable
  | listAuditEvents => exact .refl r

/-! ## The methods that claim -/

variable (operation : Operation)

/-- An append fails when the next fault is set. -/
theorem append_isError (eventType : MutationAuditEventType) (timestamp : Timestamp)
    (reasonCode : Option MutationErrorCode) (child : Option OperationStep) :
    (∃ e, (r.append operation eventType timestamp reasonCode child).1 = .error e) ↔
      r.FaultWithin 1 := by
  unfold append FaultWithin
  rcases hfaults : r.auditFaults with _ | ⟨first, rest⟩
  · simp
  · cases first <;> simp

/-- The appends of a creation fail when one of the next two faults is set. -/
theorem appendCreated_isError (step : OperationStep) (now : Timestamp) :
    (∃ e, (r.appendCreated operation step now).1 = .error e) ↔ r.FaultWithin 2 := by
  unfold appendCreated append FaultWithin
  rcases hfaults : r.auditFaults with _ | ⟨first, _ | ⟨second, rest⟩⟩
  · simp
  · cases first <;> simp
  · cases first <;> cases second <;> simp

/-- A call that deletes the claim of a key before it throws restores nothing but an absent one. -/
theorem restored_dropClaim_iff (key : JsString) :
    Restored r (r.dropClaim key) ↔ r.claims.has key = false := by
  simp only [JsMap.has, Option.isSome_eq_false_iff, Option.isNone_iff_eq_none]
  constructor
  · intro h
    have hkey := h.claims key
    rw [dropClaim, JsMap.get_delete_self] at hkey
    exact hkey.symm
  · intro hnone
    refine ⟨rfl, fun k => ?_, fun _ => rfl⟩
    rw [dropClaim, JsMap.get_delete]
    split_ifs with hk
    · rw [← hk, hnone]
    · rfl

/-- The rejected calls that leave a trace. A call that claims without a live claim does so if it
deletes an expired claim and then meets a taken id. So does a `claim` whose append fails. The rollback
of `claimParentWithStep` is complete unless audit events of an unknown operation were on record. -/
def LeavesTrace (host : Host) (r : Repository) : RepositoryCall → Prop
  | .claim input =>
    r.liveClaim input.key input.now = none ∧
      if r.operations.has input.plan.operationId then r.claims.has input.key = true else r.FaultWithin 1
  | .claimParentWithStep input =>
    assertParentChildClaimInput host input = .ok () ∧ r.liveClaim input.key input.now = none ∧
      if r.operations.has input.plan.operationId ∨ r.steps.has input.stepId then
        r.claims.has input.key = true
      else r.FaultWithin 2 ∧ r.auditsOf input.plan.operationId ≠ []
  | _ => False

/-- `claim` leaves a trace exactly in its two cases. -/
theorem claim_restores_iff (input : DurableMutationClaimInput) :
    (∀ e, (r.claim input).1 = .error e → Restored r (r.claim input).2) ↔
      ¬ LeavesTrace host r (.claim input) := by
  simp only [LeavesTrace]
  rcases hlive : r.liveClaim input.key input.now with _ | existing
  · rw [claim_of_none hlive]
    split_ifs with hhas
    · simp only [true_and, Bool.not_eq_true, ← restored_dropClaim_iff]
      exact ⟨fun h => h _ rfl, fun h _ _ => h⟩
    -- The operation is written before the append, and stays.
    have hnone : r.operations.get input.plan.operationId = none := by simpa [JsMap.has] using hhas
    generalize input.key = key
    simp only [createOperation, true_and]
    generalize hop : operationFromClaim input input.plan.target.serviceId
      input.plan.target.containerId = operation
    have hid : operation.id = input.plan.operationId := by rw [← hop]; rfl
    have hfails := append_isError (r := (r.dropClaim key).insertOperation key input operation)
      operation .claimed input.now none none
    have hrows := append_rows (r := (r.dropClaim key).insertOperation key input operation)
      operation .claimed input.now none none
    change _ ↔ r.FaultWithin 1 at hfails
    rw [← hfails]
    rcases hx : ((r.dropClaim key).insertOperation key input operation).append operation .claimed
      input.now none with ⟨e | u, r'⟩
    · rw [hx] at hrows
      refine ⟨fun h => absurd (h e rfl).rows ?_, fun h => absurd ⟨e, rfl⟩ h⟩
      intro hback
      have hops : r.operations = r.operations.set operation.id operation :=
        congrArg Rows.operations (hback.symm.trans hrows)
      have hstays : r.operations.get operation.id = some operation := by
        rw [hops]
        exact JsMap.get_set_self _ _ _
      rw [hid, hnone] at hstays
      cases hstays
    · simp
  · simp only [reduceCtorEq, false_and, not_false_eq_true, iff_true]
    intro e he
    refine restored_of_error ((claim_of_live hlive).imp_right ?_) he
    rintro ⟨_, hok, -⟩
    exact ⟨_, hok⟩

/-- `claimParentWithStep` leaves a trace exactly in its case. -/
theorem claimParentWithStep_restores_iff (input : DurableParentChildClaimInput) :
    (∀ e, (r.claimParentWithStep host input).1 = .error e →
      Restored r (r.claimParentWithStep host input).2) ↔
      ¬ LeavesTrace host r (.claimParentWithStep input) := by
  by_cases hnew : assertParentChildClaimInput host input = .ok () ∧
    r.liveClaim input.key input.now = none
  · rw [claimParentWithStep_of_none hnew.1 hnew.2]
    simp only [LeavesTrace, hnew, true_and]
    generalize input.key = key
    split_ifs with hhas
    · simp only [Bool.not_eq_true, ← restored_dropClaim_iff]
      exact ⟨fun h => h _ rfl, fun h _ _ => h⟩
    simp only [JsMap.has, not_or, Bool.not_eq_true, Option.isSome_eq_false_iff,
      Option.isNone_iff_eq_none] at hhas
    have hsettles := createParentWithStep_settles (r := r.dropClaim key) key (r.claims.get key) input
      hhas.1 hhas.2
    have hfails := appendCreated_isError (r := (r.dropClaim key).insertParentWithStep key input)
      (operationFromClaim input.toDurableMutationClaimInput none none) (stepFromClaim input) input.now
    change _ ↔ r.FaultWithin 2 at hfails
    rw [← hfails]
    rcases hsettles with ⟨herror, ⟨e, he⟩, hrows, hclaims, haudits⟩ | ⟨hpassed, hok, -⟩
    · simp only [herror, true_and, ne_eq, not_not]
      constructor
      · intro h
        rw [← (h e he).audits, haudits]
        exact if_pos rfl
      intro hempty e' _
      refine ⟨hrows, fun k => ?_, fun id => ?_⟩
      · rw [hclaims, dropClaim, JsMap.get_delete]
        split_ifs with hk
        · rw [hk]
        · rfl
      · rw [haudits]
        split_ifs with hid
        · rw [← hid]
          exact hempty.symm
        · rfl
    · rw [hok, hpassed]
      simp
  · -- a call with invalid input or a live claim writes nothing
    refine ⟨fun _ htrace => hnew ⟨htrace.1, htrace.2.1⟩, fun _ e he => ?_⟩
    refine restored_of_error ((claimParentWithStep_of_live fun hinput hlive =>
      hnew ⟨hinput, hlive⟩).imp_right ?_) he
    rintro ⟨_, hok, -⟩
    exact ⟨_, hok⟩

/-- In every state that calls reach, a rejected call leaves operations, steps, claims, locks and audit
events as they were, except for the calls that leave a trace. -/
theorem rejection_restores_iff (host : Host) {r : Repository} (h : Reachable host r)
    (c : RepositoryCall) :
    (∀ e, (c.exec host r).1 = .error e → Restored r (c.next host r)) ↔ ¬ LeavesTrace host r c := by
  obtain ⟨auditFaults, hrun⟩ := h
  have hwf := hrun.wf (initial_wf auditFaults)
  cases hc : c.claimPair with
  | none =>
    have htrace : ¬ LeavesTrace host r c := by cases c <;> first | exact id | cases hc
    exact ⟨fun _ => htrace, fun _ e he => restored_of_claimPair_eq_none hwf hc he⟩
  | some p =>
    cases c with
    | claim input => exact claim_restores_iff input
    | claimParentWithStep input => exact claimParentWithStep_restores_iff input
    | _ => cases hc

/-- The second append of a creation fails, and both rows, the claim and the first event are gone. -/
theorem rejection_restores_iff_secondAppend :
    let r := initial [false, true]
    let c := RepositoryCall.claimParentWithStep (sampleParentClaim "op" "step" "key-1" 1)
    (c.exec plainHost r).1 = .error auditFault ∧ Restored r (c.next plainHost r) := by
  intro r c
  have he : (c.exec plainHost r).1 = .error auditFault := by
    rfl
  refine ⟨he, (rejection_restores_iff plainHost ⟨_, .refl⟩ c).mpr ?_ _ he⟩
  rintro ⟨-, -, htrace⟩
  have hempty : r.auditsOf (js "op") = [] := rfl
  exact htrace.2 hempty

/-- A `claim` whose append fails is rejected and keeps the operation that it created. -/
theorem failed_append_keeps_operation :
    ∃ (r : Repository) (c : RepositoryCall), Reachable plainHost r ∧
      (c.exec plainHost r).1 = .error auditFault ∧ ¬ Restored r (c.next plainHost r) := by
  refine ⟨initial [true], .claim (sampleClaim "op" "key-1" 1), ⟨_, .refl⟩, ?_, ?_⟩
  · rfl
  intro h
  have hkept : ((initial [true]).claim (sampleClaim "op" "key-1" 1)).2.operations.has (js "op") =
    true := by decide +kernel
  have hops : ((initial [true]).claim (sampleClaim "op" "key-1" 1)).2.operations = ∅ :=
    congrArg Rows.operations h.rows
  rw [hops] at hkept
  cases hkept

end InMemoryDurableMutationRepository

end ZimaControl
