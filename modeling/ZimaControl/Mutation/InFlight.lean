import ZimaControl.Mutation.Frame
import ZimaControl.Mutation.ParentAgreement
import ZimaControl.Mutation.System

/-!
# An operation between its lease and its end

`InFlight` is what the performer of an operation knows of the repository once it holds the lease: the
operation and its step are stored, stand in the same status, and the lock of the key is the lease. The
calls of an executor leave that as it is. For the performer's own calls the two checks that are left
decide, the expiry of the lease and the effect that is to be recorded, and `InFlight` says what each
outcome leaves.
-/

namespace ZimaControl

namespace InMemoryDurableMutationRepository

variable {r : Repository} {host : Host}

/-- The dispatch of a step has been authorised. -/
def dispatched (r : Repository) (stepId : JsString) : Bool :=
  (r.steps.get stepId).any (·.dispatchAuthorizedAt.isSome)

/-- An operation has ended, and it does not hold the lock of its key unless its outcome is unknown. -/
def Concluded (r : Repository) (id : JsString) : Prop :=
  ∃ operation, r.operations.get id = some operation ∧ operation.status.isTerminal = true ∧
    (operation.status ≠ .indeterminate →
      ∀ lock, r.locks.get operation.operationKey = some lock → lock.ownerOperationId ≠ id)

/-- An operation and its step between lease and end, with their status and the recorded effect. -/
structure InFlight (r : Repository) (id stepId : JsString) (lease : MutationLease)
    (status : ActionStatus) (effect : ExternalEffectState) : Prop where
  wf : r.rows.Wf
  /-- No audit append is going to fail. -/
  quiet : r.auditFaults = []
  lock : r.locks.get lease.operationKey = some lease
  owner : lease.ownerOperationId = id
  rows : ∃ operation step, Pair r operation step ∧ operation.id = id ∧ step.id = stepId ∧
    operation.operationKey = lease.operationKey ∧ operation.status = status ∧
    (status = .validated ∨ operation.fencingToken = some lease.fencingToken) ∧
    step.status = status ∧ step.externalEffect = effect

/-! ## The calls of an executor -/

variable {c : RepositoryCall}

variable {id stepId : JsString} {lease : MutationLease} {status : ActionStatus}
  {effect : ExternalEffectState}

/-- The authorisation of a dispatch adds no audit fault. -/
theorem quiet_dispatch (host : Host) (hc : c.dispatchTarget.isSome = true)
    (hquiet : r.auditFaults = []) : (c.next host r).auditFaults = [] := by
  refine (extends_next host r c ?_).faults hquiet
  cases c <;> first | rfl | cases hc

/-- The authorisation of a dispatch leaves an operation in flight. -/
theorem InFlight.next_dispatch (h : InFlight r id stepId lease status effect) (host : Host)
    (hc : c.dispatchTarget.isSome = true) :
    InFlight (c.next host r) id stepId lease status effect ∧
      (r.dispatched stepId = true → (c.next host r).dispatched stepId = true) := by
  obtain ⟨operation, step, hpair, hid, hstepId, hkey, hop, htoken, hst, heffect⟩ := h.rows
  obtain ⟨hops, hlocks, hsteps⟩ := dispatch_rows host h.wf hc
  obtain ⟨step', hget', hstep'⟩ := hsteps step.id step hpair.step_get
  refine ⟨⟨next_wf host c h.wf, quiet_dispatch host hc h.quiet, by rw [hlocks, h.lock], h.owner,
    operation, step', ?_⟩, fun hd => ?_⟩
  · have hoperation : (c.next host r).operations.get operation.id = some operation := by
      rw [hops, hpair.operation_get]
    obtain rfl | ⟨-, token, now, rfl⟩ := hstep' <;>
      exact ⟨⟨hoperation, hget', hpair.parent⟩, hid, hstepId, hkey, hop, htoken, hst, heffect⟩
  · obtain ⟨step₀, hget₀, hsome⟩ := (Option.any_eq_true _ _).mp hd
    obtain ⟨step₁, hget₁, hstep₁⟩ := hsteps stepId step₀ hget₀
    refine (Option.any_eq_true _ _).mpr ⟨step₁, hget₁, ?_⟩
    obtain rfl | ⟨-, token, now, rfl⟩ := hstep₁
    · exact hsome
    · rfl

variable {calls : List RepositoryCall}

/-- The calls of an executor leave an operation in flight. -/
theorem InFlight.run_dispatch (h : InFlight r id stepId lease status effect) (host : Host)
    (hcalls : ∀ c ∈ calls, c.dispatchTarget.isSome = true) :
    InFlight (r.run host calls) id stepId lease status effect ∧
      (r.dispatched stepId = true → (r.run host calls).dispatched stepId = true) :=
  (reachedBy_run_of r calls hcalls).induct
    (fun r' => InFlight r' id stepId lease status effect ∧
      (r.dispatched stepId = true → r'.dispatched stepId = true)) ⟨h, fun hd => hd⟩
    fun r' c hc hr' => by
      obtain ⟨hflight, hmono⟩ := hr'.1.next_dispatch host hc
      exact ⟨hflight, fun hd => hmono (hr'.2 hd)⟩

/-! ## Before the lease -/

/-- An operation that was created and has not been taken. -/
structure Untaken (r : Repository) (operation : Operation) (stepId : JsString) : Prop where
  wf : r.rows.Wf
  quiet : r.auditFaults = []
  status : operation.status = .validated
  token : operation.fencingToken = none
  /-- The operation does not hold the lock of its key. -/
  unlocked : ∀ lock, r.locks.get operation.operationKey = some lock →
    lock.ownerOperationId ≠ operation.id
  rows : ∃ step, Pair r operation step ∧ step.id = stepId ∧ step.status = .validated ∧
    step.fencingToken = none ∧ step.externalEffect = .notStarted

/-- A created operation has not been taken. -/
theorem untaken_of_created {input : DurableParentChildClaimInput} {value : DurableParentChildOperation}
    (hwf : r.rows.Wf) (hquiet : (r.claimParentWithStep host input).2.auditFaults = [])
    (h : (r.claimParentWithStep host input).1 = .ok ⟨.created, value⟩) :
    value.steps = [stepFromClaim input] ∧
      Untaken (r.claimParentWithStep host input).2 value.operation input.stepId := by
  obtain ⟨rfl, habsent, hrows⟩ := claimParentWithStep_written h
  have hops : (r.claimParentWithStep host input).2.operations = _ := congrArg Rows.operations hrows
  have hsteps : (r.claimParentWithStep host input).2.steps = _ := congrArg Rows.steps hrows
  have hlocks : (r.claimParentWithStep host input).2.locks = r.locks := congrArg Rows.locks hrows
  refine ⟨rfl, next_wf host (.claimParentWithStep input) hwf, hquiet, rfl, rfl, ?_,
    stepFromClaim input, ⟨?_, ?_, rfl⟩, rfl, rfl, rfl, rfl⟩
  · -- an owner of a lock was there before
    intro lock hlock hid
    rw [hlocks] at hlock
    obtain ⟨-, op, hop, -⟩ := hwf.lock_owner hlock
    rw [hid] at hop
    exact absurd (habsent.symm.trans hop) (by simp)
  · rw [hops]
    exact JsMap.get_set_self _ _ _
  · rw [hsteps]
    exact JsMap.get_set_self _ _ _

variable {operation : Operation} {stepId : JsString}

section

variable (h : Untaken r operation stepId)
include h

/-- A dispatch is one of another step. -/
theorem Untaken.next_dispatch (hc : c.dispatchTarget.isSome = true) :
    Untaken (c.next host r) operation stepId := by
  obtain ⟨step, hpair, hid, hstatus, htoken, heffect⟩ := h.rows
  obtain ⟨hops, hlocks, hsteps⟩ := dispatch_rows host h.wf hc
  obtain ⟨step', hget', rfl | ⟨hexecuting, -⟩⟩ := hsteps step.id step hpair.step_get
  · exact ⟨next_wf host c h.wf, quiet_dispatch host hc h.quiet, h.status, h.token,
      by rw [hlocks]; exact h.unlocked, step', ⟨by rw [hops, hpair.operation_get], hget', hpair.parent⟩,
      hid, hstatus, htoken, heffect⟩
  · rw [hstatus] at hexecuting
    cases hexecuting

/-- The calls of executors leave such an operation. -/
theorem Untaken.run_dispatch (host : Host) (hcalls : ∀ c ∈ calls, c.dispatchTarget.isSome = true) :
    Untaken (r.run host calls) operation stepId :=
  (reachedBy_run_of r calls hcalls).induct (fun r' => Untaken r' operation stepId) h
    fun _ _ hc hr' => hr'.next_dispatch hc

/-- An operation that no one has taken gets the lease of its key, or nothing changes. -/
theorem Untaken.acquireLease {now leaseExpiresAt : Timestamp} (hlater : now < leaseExpiresAt) :
    let outcome := r.acquireLease operation.operationKey operation.id now leaseExpiresAt
    outcome = (.ok none, r) ∨ ∃ lease, outcome.1 = .ok (some lease) ∧
      InFlight outcome.2 operation.id stepId lease .validated .notStarted := by
  intro outcome
  obtain ⟨step, hpair, hid, hstatus, htoken, heffect⟩ := h.rows
  have hkey : (r.operations.get operation.id).map (·.operationKey) = some operation.operationKey := by
    rw [hpair.operation_get]
    rfl
  rcases hanswer : r.lockAnswer operation.operationKey operation.id now with _ | _ | lease
  · right
    have heq : outcome = r.grantLease operation.operationKey operation.id now leaseExpiresAt := by
      simp [outcome, InMemoryDurableMutationRepository.acquireLease, if_neg (not_le.mpr hlater), hkey,
        hanswer]
    have hwf := next_wf plainHost (.acquireLease operation.operationKey operation.id now
      leaseExpiresAt) h.wf
    change outcome.2.rows.Wf at hwf
    rw [heq] at hwf ⊢
    exact ⟨_, rfl, hwf, h.quiet, JsMap.get_set_self _ _ _, rfl, operation, step,
      ⟨hpair.operation_get, hpair.step_get, hpair.parent⟩, rfl, hid, rfl, h.status, .inl rfl, hstatus,
      heffect⟩
  · left
    simp [outcome, InMemoryDurableMutationRepository.acquireLease, if_neg (not_le.mpr hlater), hkey,
      hanswer]
  · -- the lock would be its own
    exfalso
    unfold lockAnswer at hanswer
    split at hanswer
    · cases hanswer
    next current hlock =>
      split at hanswer
      · cases hanswer
      · split_ifs at hanswer with _ _ hown
        · cases hanswer
        · exact h.unlocked current hlock hown.1
        · cases hanswer

/-- Such an operation whose lease is refused is rejected and holds no lock. -/
theorem Untaken.reject (now : Timestamp) (reasonCode : MutationErrorCode) :
    let outcome := r.rejectParentChildBeforeOwnership operation.id stepId now reasonCode
    (∃ answer, outcome.1 = .ok answer) ∧ Concluded outcome.2 operation.id := by
  intro outcome
  obtain ⟨step, hpair, rfl, hstatus, htoken, heffect⟩ := h.rows
  have hunlocked : (r.locks.get operation.operationKey).map (·.ownerOperationId) ≠
      some operation.id := by
    intro hown
    obtain ⟨lock, hlock, howner⟩ := Option.map_eq_some_iff.mp hown
    exact h.unlocked lock hlock howner
  have hchecks : r.rejectChecks operation.id step.id = .ok (operation, step) :=
    rejectChecks_eq_ok.mpr ⟨hpair.operation_get, hpair.step_get, hpair.parent, h.status, hstatus,
      h.token, htoken, hunlocked⟩
  rcases rejectParentChildBeforeOwnership_settles h.wf now reasonCode hchecks with
    ⟨-, hfault, -⟩ | ⟨-, hok, hrows, -⟩
  · exact absurd h.quiet hfault
  have hops : outcome.2.operations = _ := congrArg Rows.operations hrows
  have hlocks : outcome.2.locks = r.locks := congrArg Rows.locks hrows
  have hstatus' : (rejectedOperation operation step now reasonCode).status = .rejected :=
    aggregateOfStep_status _
  refine ⟨hok, rejectedOperation operation step now reasonCode, ?_, ?_, fun _ => ?_⟩
  · rw [hops]
    exact JsMap.get_set_self _ _ _
  · rw [hstatus']
    rfl
  · rw [hlocks]
    exact h.unlocked

end

/-! ## The calls of the performer -/

/-- Whether an effect may be recorded over another. -/
theorem transitionExternalEffectState_isOk {current next : ExternalEffectState} {authorized : Bool}
    (hstart : next = current ∨ current = .notStarted) :
    (∃ e, transitionExternalEffectState current next authorized = .ok e) ↔
      next = current ∨ authorized = true := by
  unfold transitionExternalEffectState
  rcases hstart with rfl | rfl
  · simp
  · cases next <;> cases authorized <;> simp

/-- The dispatch of the step in flight, as its row has it. -/
theorem dispatched_of_get {step : OperationStep} (hget : r.steps.get step.id = some step) :
    r.dispatched step.id = step.dispatchAuthorizedAt.isSome := by
  rw [dispatched, hget]
  rfl

/-- A transition that may follow the status of the step in flight. -/
structure MayMove (id stepId : JsString) (lease : MutationLease) (status : ActionStatus)
    (input : DurableStepTransitionInput) : Prop where
  operation : input.operationId = id
  step : input.childStepId = stepId
  ownership : input.ownership = lease
  expected : status ∈ input.expected
  allowed : input.status ∈ status.allowedTransitions
  parent : parentStatus input.status = input.status
  adopts : input.adoptOwnership = true ∨ status ≠ .validated

variable {outcome : RepositoryOutcome DurableParentChildOperation}

/-- A transition of the step in flight passes exactly while the lease lasts, if status and effect
may follow. -/
theorem InFlight.transition (h : InFlight r id stepId lease status effect)
    {input : DurableStepTransitionInput} (hmove : MayMove id stepId lease status input)
    (heffect : input.externalEffect.getD effect = effect ∨
      effect = .notStarted ∧ r.dispatched stepId = true)
    (houtcome : outcome = r.transitionStepWithAudit input) :
    if input.now < lease.leaseExpiresAt then (∃ answer, outcome.1 = .ok answer) ∧
      InFlight outcome.2 id stepId lease input.status (input.externalEffect.getD effect) ∧
      outcome.2.dispatched stepId = r.dispatched stepId
    else ∃ e, outcome = (.error e, r) := by
  obtain ⟨hid, hstepId, hlease, hexpected, hallowed, hparent, hadopt⟩ := hmove
  obtain ⟨operation, step, hpair, rfl, rfl, hkey, hop, htoken, hst, rfl⟩ := h.rows
  split_ifs with hnow
  · have hchecks : r.stepTransitionChecks input = .ok (operation, step) := by
      rw [stepTransitionChecks_eq_ok, hid, hstepId, hlease, hst]
      refine ⟨hpair.operation_get, hpair.step_get, hpair.parent, hkey,
        ⟨lease, by rw [hkey, h.lock], h.owner, rfl, hnow⟩, ?_, hexpected, hallowed, ?_⟩
      · rcases hadopt with hadopt | hadopt
        · exact .inl hadopt
        · exact .inr (htoken.resolve_left hadopt)
      · refine (transitionExternalEffectState_isOk ?_).mpr ?_
        · exact heffect.imp_right And.left
        · rw [← dispatched_of_get hpair.step_get]
          exact heffect.imp_right And.right
    have hsettles := transitionStepWithAudit_settles h.wf hchecks
    rw [← houtcome] at hsettles
    -- no append fails, so the rows are written
    rcases hsettles with ⟨-, hfault, -⟩ | ⟨-, hok, hrows, hfaults⟩
    · exact absurd h.quiet hfault
    have hops : outcome.2.operations = _ := congrArg Rows.operations hrows
    have hsteps : outcome.2.steps = _ := congrArg Rows.steps hrows
    have hlocks : outcome.2.locks = r.locks := congrArg Rows.locks hrows
    have hget : outcome.2.steps.get step.id = some (applyStepTransition step input) := by
      rw [hsteps]
      exact JsMap.get_set_self _ _ _
    have hwf : outcome.2.rows.Wf :=
      houtcome ▸ next_wf plainHost (.transitionStepWithAudit input) h.wf
    refine ⟨hok, ⟨hwf, hfaults h.quiet, by rw [hlocks, h.lock], h.owner,
      transitionedOperation operation step input, applyStepTransition step input,
      ⟨?_, hget, hpair.parent⟩, rfl, rfl, hkey, ?_, .inr ?_, rfl, rfl⟩, ?_⟩
    · rw [hops]
      exact JsMap.get_set_self _ _ _
    · exact (aggregateOfStep_status _).trans hparent
    · rw [← hlease]
      rfl
    · rw [dispatched, dispatched, hget, hpair.step_get]
      rfl
  · -- an expired lease is refused before anything else is looked at
    refine houtcome ▸ checking_refuses fun pair hpair' => ?_
    obtain ⟨hop', -, -, hkey', ⟨lock, hlock, -, -, hlate⟩, -⟩ := stepTransitionChecks_eq_ok.mp hpair'
    rw [hkey', hlease, h.lock] at hlock
    obtain rfl := Option.some.inj hlock
    exact hnow hlate

/-- A final state that may follow the status of the step in flight, with an effect that may be
recorded for it. -/
structure MayEnd (id stepId : JsString) (lease : MutationLease) (status : ActionStatus)
    (effect : ExternalEffectState) (input : DurableStepFinalizationInput) : Prop where
  operation : input.operationId = id
  step : input.childStepId = stepId
  ownership : input.ownership = lease
  started : status ≠ .validated
  expected : status ∈ input.expected
  allowed : input.status ∈ status.allowedTransitions
  terminal : input.status.isTerminal = true
  parent : parentStatus input.status = input.status
  certain : input.externalEffect ≠ .effectPossiblyActive ∨ input.status = .indeterminate
  effect : input.externalEffect = effect ∨ effect = .notStarted

variable (h : InFlight r id stepId lease status effect)
include h

/-- The end of an operation in flight passes exactly while the lease lasts and when the effect may
be recorded; then the operation is concluded. -/
theorem InFlight.finalize {input : DurableStepFinalizationInput}
    (hend : MayEnd id stepId lease status effect input)
    (houtcome : outcome = r.finalizeStepAndParent input) :
    if input.now < lease.leaseExpiresAt ∧
      (input.externalEffect = effect ∨ r.dispatched stepId = true)
    then (∃ answer, outcome.1 = .ok answer) ∧ Concluded outcome.2 id ∧
      outcome.2.dispatched stepId = r.dispatched stepId
    else ∃ e, outcome = (.error e, r) := by
  obtain ⟨hid, hstepId, hlease, hstatus, hexpected, hallowed, hterminal, hparent, hassert, heffect⟩ :=
    hend
  obtain ⟨operation, step, hpair, rfl, rfl, hkey, hop, htoken, hst, rfl⟩ := h.rows
  split_ifs with hcond
  · have hchecks : r.finalizeChecks input = .ok (operation, step) := by
      rw [finalizeChecks_eq_ok, hid, hstepId, hlease, hst]
      refine ⟨hterminal, hpair.operation_get, hpair.step_get, hpair.parent, hkey,
        ⟨lease, by rw [hkey, h.lock], h.owner, rfl, hcond.1⟩, htoken.resolve_left hstatus,
        hexpected, hallowed, ?_, (), ?_⟩
      · rw [transitionExternalEffectState_isOk heffect, ← dispatched_of_get hpair.step_get]
        exact hcond.2
      · rw [assertTerminalChildEffect, if_neg]
        rintro ⟨hpossibly, hindeterminate⟩
        exact hassert.elim (fun h => h hpossibly) hindeterminate
    have hsettles := finalizeStepAndParent_settles h.wf hchecks
    rw [← houtcome] at hsettles
    rcases hsettles with ⟨-, hfault, -⟩ | ⟨-, hok, hrows, -⟩
    · exact absurd h.quiet hfault
    have hfinal : (finalizedOperation operation step input).status = input.status :=
      (aggregateOfStep_status _).trans hparent
    have hops : outcome.2.operations = _ :=
      (congrArg Rows.operations hrows).trans (dropLock_operations _ _ _)
    have hsteps : outcome.2.steps = _ := (congrArg Rows.steps hrows).trans (dropLock_steps _ _ _)
    refine ⟨hok, ⟨finalizedOperation operation step input, ?_, ?_, ?_⟩, ?_⟩
    · rw [hops]
      exact JsMap.get_set_self _ _ _
    · rw [hfinal, hterminal]
    · -- the lock of a known outcome is gone
      intro hknown lock hlock
      have hlocks : outcome.2.locks = _ := congrArg Rows.locks hrows
      rw [hlocks, decide_eq_true hknown, Rows.dropLock, if_pos rfl] at hlock
      change (r.locks.delete operation.operationKey).get operation.operationKey = _ at hlock
      rw [JsMap.get_delete_self] at hlock
      cases hlock
    · rw [dispatched, dispatched, hpair.step_get, hsteps]
      change ((r.steps.set step.id _).get step.id).any _ = _
      rw [JsMap.get_set_self]
      rfl
  · -- whatever passes the checks holds the lease in time and may record its effect
    refine houtcome ▸ checking_refuses fun pair hpair' => hcond ?_
    obtain ⟨operation', step'⟩ := pair
    obtain ⟨-, hop', hst', -, hkey', ⟨lock, hlock, -, -, hlate⟩, -, -, -, heffect', -⟩ :=
      finalizeChecks_eq_ok.mp hpair'
    rw [hkey', hlease, h.lock] at hlock
    obtain rfl := Option.some.inj hlock
    rw [hstepId, hpair.step_get] at hst'
    obtain rfl := Option.some.inj hst'
    rw [transitionExternalEffectState_isOk heffect, ← dispatched_of_get hpair.step_get] at heffect'
    exact ⟨hlate, heffect'⟩

/-- An operation in flight is not concluded. -/
theorem InFlight.not_concluded (hlive : status.isTerminal = false) : ¬ Concluded r id := by
  intro hconcluded
  obtain ⟨operation, step, hpair, rfl, -, -, hop, -⟩ := h.rows
  obtain ⟨operation', hget, hterminal, -⟩ := hconcluded
  rw [hpair.operation_get] at hget
  obtain rfl := Option.some.inj hget
  rw [hop, hlive] at hterminal
  cases hterminal

end InMemoryDurableMutationRepository

end ZimaControl
