import ZimaControl.Mutation.Rows

/-!
# The rows each method writes

One theorem per method: the call left the rows as they were, or its checks passed and the rows are
the ones named. A call that throws restores what it had written, except `claim`, which keeps the
operation it created when its audit append fails.
-/

namespace ZimaControl

open Outcome

/-- The key under which a claiming call stores its claim. -/
abbrev DurableMutationClaimInput.key (input : DurableMutationClaimInput) : JsString :=
  claimKey input.plan.actor.id input.plan.idempotencyKey

namespace InMemoryDurableMutationRepository

variable {r : Repository}

/-- An append throws and leaves everything, or passes and leaves the rows. -/
theorem append_answers {β : Type} (operation : Operation) (eventType : MutationAuditEventType)
    (timestamp : Timestamp) (reasonCode : Option MutationErrorCode) (answer : β) :
    let outcome := (r.append operation eventType timestamp reasonCode).andThen fun _ r =>
      ((.ok answer, r) : RepositoryOutcome β)
    Refused r outcome ∨ outcome.1 = .ok answer ∧ outcome.2.rows = r.rows := by
  intro outcome
  simp only [outcome]
  rcases append_cases operation eventType timestamp reasonCode none with hx | ⟨r', hx, hrows⟩ <;>
    rw [hx]
  · exact .inl ⟨⟨_, rfl⟩, rfl, fun _ => rfl, fun _ => rfl⟩
  · exact .inr ⟨rfl, hrows⟩

/-- Behind checks, too. -/
theorem checking_append_answers {α β : Type} (checks : Except Failure α)
    (operation : α → Operation) (eventType : MutationAuditEventType)
    (timestamp : Timestamp) (reasonCode : Option MutationErrorCode) (answer : α → β) :
    let outcome := checking r checks fun a =>
      (r.append (operation a) eventType timestamp reasonCode).andThen fun _ r =>
        ((.ok (answer a), r) : RepositoryOutcome β)
    Refused r outcome ∨ ∃ a, checks = .ok a ∧ outcome.1 = .ok (answer a) ∧ outcome.2.rows = r.rows := by
  cases checks with
  | error e => exact .inl refused_checking_error
  | ok a => exact (append_answers ..).imp_right fun h => ⟨a, rfl, h⟩

/-! ## Claims -/

variable {input : DurableMutationClaimInput}

/-- `claim` under a live claim conflicts or replays. -/
theorem claim_of_live {existing : ClaimRecord}
    (hlive : r.liveClaim input.key input.now = some existing) :
    Refused r (r.claim input) ∨
      ∃ operation, (r.claim input).1 = .ok ⟨.replay, operation⟩ ∧ (r.claim input).2.rows = r.rows := by
  simp only [claim, hlive]
  split_ifs
  · exact .inl ⟨⟨_, rfl⟩, .refl r⟩
  · exact (checking_append_answers ..).imp_right fun ⟨operation, _, h⟩ => ⟨operation, h⟩

/-- Without a live claim `claim` drops an expired one and creates an operation, unless its id is
taken. -/
theorem claim_of_none (hlive : r.liveClaim input.key input.now = none) :
    r.claim input = if r.operations.has input.plan.operationId then
        (.error persistenceFailed, r.dropClaim input.key)
      else (r.dropClaim input.key).createOperation input.key input := by
  simp only [claim, hlive]
  rfl

/-- `claim` creates at most one operation, under an id that was free. -/
theorem claim_rows (input : DurableMutationClaimInput) :
    let operation := operationFromClaim input input.plan.target.serviceId
      input.plan.target.containerId
    (r.claim input).2.rows = r.rows ∨ r.operations.get operation.id = none ∧
      (r.claim input).2.rows =
        { r.rows with operations := r.operations.set operation.id operation } := by
  intro operation
  rcases hlive : r.liveClaim input.key input.now with _ | existing
  · rw [claim_of_none hlive]
    split_ifs with hhas
    · exact .inl rfl
    have habsent : r.operations.get input.plan.operationId = none := by simpa [JsMap.has] using hhas
    refine .inr ⟨habsent, ?_⟩
    rcases append_answers (r := (r.dropClaim _).insertOperation _ input operation) operation .claimed
      input.now none _ with h | h
    · exact h.2.rows
    · exact h.2
  · rcases claim_of_live hlive with h | ⟨_, -, h⟩
    · exact .inl h.2.rows
    · exact .inl h

/-- The creation of an operation with its step writes both rows; or an append fails, and the
rollback deletes both, the new claim and the audits. -/
theorem createParentWithStep_settles (key : JsString) (existing : Option ClaimRecord)
    (input : DurableParentChildClaimInput)
    (hop : r.operations.get input.plan.operationId = none) (hstep : r.steps.get input.stepId = none) :
    let operation := operationFromClaim input.toDurableMutationClaimInput none none
    let appended := (r.insertParentWithStep key input).appendCreated operation (stepFromClaim input)
      input.now
    let outcome := r.createParentWithStep key existing input
    ((∃ e, appended.1 = .error e) ∧ (∃ e, outcome.1 = .error e) ∧ outcome.2.rows = r.rows ∧
      (∀ k, outcome.2.claims.get k = if key = k then existing else r.claims.get k) ∧
      ∀ id, outcome.2.auditsOf id = if operation.id = id then [] else r.auditsOf id) ∨
    appended.1 = .ok () ∧ outcome.1 = .ok ⟨.created, ⟨operation, [stepFromClaim input]⟩⟩ ∧
      outcome.2.rows = r.rows.write operation (stepFromClaim input) := by
  intro operation appended outcome
  have happend : Appends (r.insertParentWithStep key input) operation.id appended :=
    appendCreated_appends ..
  have hout : outcome = settleCreation appended operation (stepFromClaim input) key existing := rfl
  rw [hout]
  generalize appended = appended at happend
  rcases appended with ⟨e | u, r₂⟩
  · -- an append failed: both rows, the claim and the audits are put back
    have hrows : r₂.rows = r.rows.write operation (stepFromClaim input) := happend.rows
    simp only [rows, Rows.write, Rows.mk.injEq] at hrows
    obtain ⟨hops, hsteps, hlocks, hfences⟩ := hrows
    have hclaims : r₂.claims = _ := happend.extension.claims
    refine .inl ⟨⟨e, rfl⟩, ⟨e, rfl⟩, ?_, fun k => ?_, fun id => ?_⟩
    · change r.operations.get operation.id = none at hop
      change r.steps.get (stepFromClaim input).id = none at hstep
      simp [settleCreation, rows, hops, hsteps, hlocks, hfences, JsMap.delete_set_of_get _ hop,
        JsMap.delete_set_of_get _ hstep]
    · simp only [settleCreation, hclaims, insertParentWithStep]
      cases existing <;> simp only [restoreClaim, JsMap.get_set, JsMap.get_delete] <;>
        split_ifs <;> rfl
    · simp only [settleCreation, auditsOf, JsMap.get_delete]
      split_ifs with hid
      · rfl
      · exact happend.others id hid
  · exact .inr ⟨rfl, rfl, happend.rows⟩

variable {input : DurableParentChildClaimInput} {host : Host}

/-- With invalid input or a live claim, `claimParentWithStep` throws or replays. -/
theorem claimParentWithStep_of_live
    (h : assertParentChildClaimInput host input = .ok () → r.liveClaim input.key input.now ≠ none) :
    let outcome := r.claimParentWithStep host input
    Refused r outcome ∨ ∃ value, outcome.1 = .ok ⟨.replay, value⟩ ∧ outcome.2.rows = r.rows := by
  intro outcome
  simp only [outcome, claimParentWithStep]
  rcases hinput : assertParentChildClaimInput host input with e | u
  · exact .inl refused_checking_error
  obtain ⟨existing, hlive⟩ := Option.ne_none_iff_exists'.mp (h hinput)
  simp only [checking_ok, hlive]
  split_ifs
  · exact .inl ⟨⟨_, rfl⟩, .refl r⟩
  · refine (checking_append_answers ..).imp_right ?_
    rintro ⟨value, -, h⟩
    exact ⟨value, h⟩

/-- Without a live claim `claimParentWithStep` drops an expired one and creates an operation with
its step, unless an id is taken. -/
theorem claimParentWithStep_of_none (hinput : assertParentChildClaimInput host input = .ok ())
    (hlive : r.liveClaim input.key input.now = none) :
    r.claimParentWithStep host input =
      if r.operations.has input.plan.operationId ∨ r.steps.has input.stepId then
        (.error persistenceFailed, r.dropClaim input.key)
      else (r.dropClaim input.key).createParentWithStep input.key (r.claims.get input.key) input := by
  simp only [claimParentWithStep, hinput, checking_ok, hlive]
  rfl

/-- `claimParentWithStep` creates at most one operation with its step. -/
theorem claimParentWithStep_rows (host : Host) (input : DurableParentChildClaimInput) :
    let operation := operationFromClaim input.toDurableMutationClaimInput none none
    let step := stepFromClaim input
    (r.claimParentWithStep host input).2.rows = r.rows ∨
      r.operations.get operation.id = none ∧ r.steps.get step.id = none ∧
        (r.claimParentWithStep host input).2.rows = r.rows.write operation step := by
  intro operation step
  by_cases h : assertParentChildClaimInput host input = .ok () ∧
    r.liveClaim input.key input.now = none
  · rw [claimParentWithStep_of_none h.1 h.2]
    split_ifs with hhas
    · exact .inl rfl
    simp only [JsMap.has, not_or, Bool.not_eq_true, Option.isSome_eq_false_iff,
      Option.isNone_iff_eq_none] at hhas
    rcases createParentWithStep_settles (r := r.dropClaim _) _ _ input hhas.1 hhas.2 with
      ⟨-, -, h, -⟩ | ⟨-, -, h⟩
    · exact .inl h
    · exact .inr ⟨hhas.1, hhas.2, h⟩
  · rcases claimParentWithStep_of_live (r := r) fun hinput hlive => h ⟨hinput, hlive⟩ with
      h | ⟨_, -, h⟩
    · exact .inl h.2.rows
    · exact .inl h

/-- `replayParentClaim` finds nothing, throws, or replays. -/
theorem replayParentClaim_answers (input : DurableParentReplayInput) :
    let outcome := r.replayParentClaim input
    Refused r outcome ∨ (∃ answer, outcome.1 = .ok answer) ∧ outcome.2.rows = r.rows := by
  intro outcome
  simp only [outcome, replayParentClaim]
  split
  · exact .inr ⟨⟨_, rfl⟩, rfl⟩
  · exact (checking_append_answers ..).imp_right fun ⟨_, _, hok, hrows⟩ => ⟨⟨_, hok⟩, hrows⟩

/-! ## Steps -/

variable {operation : Operation} {step : OperationStep}

/-- Checks that fail refuse a call and leave everything. -/
theorem checking_refuses {α β : Type} {checks : Except Failure α} {k : α → RepositoryOutcome β}
    (h : ∀ a, checks ≠ .ok a) : ∃ e, checking r checks k = (.error e, r) := by
  cases checks with
  | error e => exact ⟨e, rfl⟩
  | ok a => exact absurd rfl (h a)

variable {operationId childStepId : JsString}

/-- What `rejectParentChildBeforeOwnership` checks. -/
theorem rejectChecks_eq_ok :
    r.rejectChecks operationId childStepId = .ok (operation, step) ↔
      r.operations.get operationId = some operation ∧ r.steps.get childStepId = some step ∧
      step.parentOperationId = operationId ∧ operation.status = .validated ∧
      step.status = .validated ∧ operation.fencingToken = none ∧ step.fencingToken = none ∧
      (r.locks.get operation.operationKey).map (·.ownerOperationId) ≠ some operationId := by
  simp only [rejectChecks, except_bind_eq_ok, requireOperation_eq_ok, requireStep_eq_ok,
    throwIf_eq_ok, transitionActionStatus_eq_ok, pure, Except.pure, Except.ok.injEq, Prod.mk.injEq]
  constructor
  · rintro ⟨op, hop, st, ⟨hst, hp⟩, -, hguard, -, -, rfl, rfl⟩
    simp only [not_or, ne_eq, not_not] at hguard
    obtain ⟨h1, h2, h3, h4, h5⟩ := hguard
    exact ⟨hop, hst, hp, h1, h2, h3, h4, h5⟩
  · rintro ⟨hop, hst, hp, h1, h2, h3, h4, h5⟩
    refine ⟨operation, hop, step, ⟨hst, hp⟩, (), ?_, .rejected, ?_, rfl, rfl⟩
    · simp only [not_or, ne_eq, not_not]
      exact ⟨h1, h2, h3, h4, h5⟩
    · simp [h2, ActionStatus.allowedTransitions]

/-- The operation that `rejectParentChildBeforeOwnership` writes. -/
def rejectedOperation (operation : Operation) (step : OperationStep)
    (now : Timestamp) (reasonCode : MutationErrorCode) : Operation :=
  { applyAggregate operation (aggregateOfStep (rejectedStep step now reasonCode)) now with
    completedAt := some now }

/-- `rejectParentChildBeforeOwnership` rejects a validated step without lock. -/
theorem rejectParentChildBeforeOwnership_settles (hwf : r.rows.Wf) (now : Timestamp)
    (reasonCode : MutationErrorCode)
    (hchecks : r.rejectChecks operationId childStepId = .ok (operation, step)) :
    StepSettled r operation step (rejectedStep step now reasonCode)
      (rejectedOperation operation step now reasonCode) false operation.operationKey
      (r.rejectParentChildBeforeOwnership operationId childStepId now reasonCode) := by
  obtain ⟨hop, hst, hparent, -⟩ := rejectChecks_eq_ok.mp hchecks
  rw [rejectParentChildBeforeOwnership, hchecks, checking_ok]
  refine writeStep_settles hwf (pair_of_get hwf hop hst hparent) (rejectedStep step now reasonCode)
    ⟨rfl, rfl, fun _ => rfl⟩ rfl ?_ ?_ (.inl rfl) ?_ (fun _ => false) operation.operationKey
  · exact fun _ => ⟨⟨rfl, rfl, rfl, rfl, rfl⟩, rfl⟩
  · exact fun _ _ => appendEnded_appends ..
  · nofun

variable {input : DurableStepTransitionInput}

/-- What `transitionStepWithAudit` checks. -/
theorem stepTransitionChecks_eq_ok :
    r.stepTransitionChecks input = .ok (operation, step) ↔
      r.operations.get input.operationId = some operation ∧
      r.steps.get input.childStepId = some step ∧ step.parentOperationId = input.operationId ∧
      operation.operationKey = input.ownership.operationKey ∧
      r.Owns operation input.ownership.fencingToken input.now ∧
      (input.adoptOwnership = true ∨
        operation.fencingToken = some input.ownership.fencingToken) ∧
      step.status ∈ input.expected ∧ input.status ∈ step.status.allowedTransitions ∧
      ∃ effect, transitionExternalEffectState step.externalEffect
        (input.externalEffect.getD step.externalEffect) step.dispatchAuthorizedAt.isSome
          = .ok effect := by
  simp only [stepTransitionChecks, except_bind_eq_ok, requireOperation_eq_ok, requireStep_eq_ok,
    requireOwnership_eq_ok, throwIf_eq_ok, not_not, transitionActionStatus_eq_ok, pure, Except.pure,
    Except.ok.injEq, Prod.mk.injEq]
  constructor
  · rintro ⟨op, hop, st, ⟨hst, hp⟩, -, ⟨hkey, hown, hadopt⟩, -, hexp, -, ⟨hnext, -⟩, eff, heff, rfl,
      rfl⟩
    exact ⟨hop, hst, hp, hkey, hown, hadopt, hexp, hnext, eff, heff⟩
  · rintro ⟨hop, hst, hp, hkey, hown, hadopt, hexp, hnext, eff, heff⟩
    exact ⟨operation, hop, step, ⟨hst, hp⟩, (), ⟨hkey, hown, hadopt⟩, (), hexp, _, ⟨hnext, rfl⟩, eff,
      heff, rfl, rfl⟩

/-- The operation that `transitionStepWithAudit` writes. -/
def transitionedOperation (operation : Operation) (step : OperationStep)
    (input : DurableStepTransitionInput) : Operation :=
  { applyAggregate operation (aggregateOfStep (applyStepTransition step input)) input.now
      input.startedAt with
    fencingToken := some input.ownership.fencingToken }

/-- `transitionStepWithAudit` writes the step and its parent for the owner of the lock. It needs no
copy of the audits, as it makes one append. -/
theorem transitionStepWithAudit_settles (hwf : r.rows.Wf)
    (hchecks : r.stepTransitionChecks input = .ok (operation, step)) :
    StepSettled r operation step (applyStepTransition step input)
      (transitionedOperation operation step input) false operation.operationKey
      (r.transitionStepWithAudit input) := by
  obtain ⟨hop, hst, hparent, -⟩ := stepTransitionChecks_eq_ok.mp hchecks
  rw [transitionStepWithAudit, hchecks, checking_ok]
  refine writeStep_settles hwf (pair_of_get hwf hop hst hparent) (applyStepTransition step input)
    ⟨rfl, rfl, fun _ => rfl⟩ rfl ?_ ?_ (.inr ⟨rfl, ?_⟩) ?_ (fun _ => false) operation.operationKey
  · exact fun _ => ⟨⟨rfl, rfl, rfl, rfl, rfl⟩, rfl⟩
  · exact fun _ _ => append_appends ..
  · exact fun _ _ _ he => congrArg (·.audits) (append_error _ _ _ _ _ he).2
  · nofun

variable {input : DurableStepFinalizationInput}

/-- What `finalizeStepAndParent` checks. -/
theorem finalizeChecks_eq_ok :
    r.finalizeChecks input = .ok (operation, step) ↔
      input.status.isTerminal = true ∧ r.operations.get input.operationId = some operation ∧
      r.steps.get input.childStepId = some step ∧ step.parentOperationId = input.operationId ∧
      operation.operationKey = input.ownership.operationKey ∧
      r.Owns operation input.ownership.fencingToken input.now ∧
      operation.fencingToken = some input.ownership.fencingToken ∧
      step.status ∈ input.expected ∧ input.status ∈ step.status.allowedTransitions ∧
      (∃ effect, transitionExternalEffectState step.externalEffect input.externalEffect
        step.dispatchAuthorizedAt.isSome = .ok effect) ∧
      ∃ u, assertTerminalChildEffect input.status input.externalEffect = .ok u := by
  simp only [finalizeChecks, except_bind_eq_ok, requireOperation_eq_ok, requireStep_eq_ok,
    requireOwnership_eq_ok, throwIf_eq_ok, not_not, transitionActionStatus_eq_ok, pure, Except.pure,
    Except.ok.injEq, Prod.mk.injEq, Bool.not_eq_false, Bool.false_eq_true, false_or]
  constructor
  · rintro ⟨-, hterm, op, hop, st, ⟨hst, hp⟩, -, ⟨hkey, hown, hadopt⟩, -, hexp, -, ⟨hnext, -⟩, eff,
      heff, u, hu, rfl, rfl⟩
    exact ⟨hterm, hop, hst, hp, hkey, hown, hadopt, hexp, hnext, ⟨eff, heff⟩, u, hu⟩
  · rintro ⟨hterm, hop, hst, hp, hkey, hown, hadopt, hexp, hnext, ⟨eff, heff⟩, u, hu⟩
    exact ⟨(), hterm, operation, hop, step, ⟨hst, hp⟩, (), ⟨hkey, hown, hadopt⟩, (), hexp, _,
      ⟨hnext, rfl⟩, eff, heff, u, hu, rfl, rfl⟩

/-- The operation that `finalizeStepAndParent` writes. -/
def finalizedOperation (operation : Operation) (step : OperationStep)
    (input : DurableStepFinalizationInput) : Operation :=
  { applyAggregate operation (aggregateOfStep (applyStepFinalization step input)) input.now with
    completedAt := some input.now }

/-- `finalizeStepAndParent` ends step and parent, and drops the lock of a known outcome. -/
theorem finalizeStepAndParent_settles (hwf : r.rows.Wf)
    (hchecks : r.finalizeChecks input = .ok (operation, step)) :
    StepSettled r operation step (applyStepFinalization step input)
      (finalizedOperation operation step input)
      ((finalizedOperation operation step input).status ≠ .indeterminate) operation.operationKey
      (r.finalizeStepAndParent input) := by
  obtain ⟨-, hop, hst, hparent, hkey, -⟩ := finalizeChecks_eq_ok.mp hchecks
  rw [finalizeStepAndParent, hchecks, hkey, checking_ok]
  refine writeStep_settles hwf (pair_of_get hwf hop hst hparent) (applyStepFinalization step input)
    ⟨rfl, rfl, fun _ => rfl⟩ rfl ?_ ?_ (.inl rfl) ?_ (fun updated => updated.status ≠ .indeterminate) _
  · exact fun _ => ⟨⟨rfl, rfl, rfl, rfl, rfl⟩, rfl⟩
  · exact fun _ _ => appendEnded_appends ..
  · exact fun _ h => ⟨_, h⟩

/-- What `recoverStepAndParent` checks first. -/
theorem recoverChecks_eq_ok {lease : MutationLease} {now : Timestamp} :
    r.recoverChecks operationId childStepId lease now = .ok (operation, step) ↔
      r.operations.get operationId = some operation ∧ r.steps.get childStepId = some step ∧
      step.parentOperationId = operationId ∧ operation.operationKey = lease.operationKey ∧
      r.Owns operation lease.fencingToken now := by
  simp only [recoverChecks, except_bind_eq_ok, requireOperation_eq_ok, requireStep_eq_ok,
    requireOwnership_eq_ok, pure, Except.pure, Except.ok.injEq, Prod.mk.injEq, true_or, and_true]
  constructor
  · rintro ⟨op, hop, st, ⟨hst, hp⟩, -, ⟨hkey, hown⟩, rfl, rfl⟩
    exact ⟨hop, hst, hp, hkey, hown⟩
  · rintro ⟨hop, hst, hp, hkey, hown⟩
    exact ⟨operation, hop, step, ⟨hst, hp⟩, (), ⟨hkey, hown⟩, rfl, rfl⟩

/-- The operation that `recoverStepAndParent` writes. -/
def recoveredOperation (operation : Operation) (step : OperationStep)
    (lease : MutationLease) (now : Timestamp) : Operation :=
  { applyAggregate operation (aggregateOfStep (recoveredStep step lease now)) now with
    fencingToken := some lease.fencingToken, completedAt := some now }

/-- `recoverStepAndParent` leaves an ended step. Another one its table refuses, or it ends it and
drops the lock when nothing can have been dispatched. -/
theorem recoverStepAndParent_settles (hwf : r.rows.Wf) {lease : MutationLease} {now : Timestamp}
    (hchecks : r.recoverChecks operationId childStepId lease now = .ok (operation, step)) :
    let outcome := r.recoverStepAndParent operationId childStepId lease now
    if step.status.isTerminal then outcome = (.ok ⟨operation, r.stepsFor operationId⟩, r)
    else if transitionAllowedForRecovery step.status (recoveryStatus step) then
      StepSettled r operation step (recoveredStep step lease now)
        (recoveredOperation operation step lease now) (!recoveryUncertain step)
        operation.operationKey outcome
    else outcome = (.error (.mutation .illegalStateTransition "The child cannot be recovered"), r) := by
  intro outcome
  obtain ⟨hop, hst, hparent, hkey, -⟩ := recoverChecks_eq_ok.mp hchecks
  simp only [outcome, recoverStepAndParent, hchecks, checking_ok]
  split_ifs with hterminal hallowed hrefused
  · rfl
  · rw [hallowed] at hrefused
    cases hrefused
  · rw [hkey]
    refine writeStep_settles hwf (pair_of_get hwf hop hst hparent) (recoveredStep step lease now)
      ⟨rfl, rfl, fun _ => rfl⟩ rfl ?_ ?_ (.inl rfl) ?_ (fun _ => !recoveryUncertain step) _
    · exact fun _ => ⟨⟨rfl, rfl, rfl, rfl, rfl⟩, rfl⟩
    · exact fun _ _ => appendEnded_appends ..
    · exact fun _ h => ⟨_, h⟩
  · rfl
  · simp_all

/-- `recoverStepAndParent` as a whole. -/
theorem recoverStepAndParent_cases (hwf : r.rows.Wf) (operationId childStepId : JsString)
    (lease : MutationLease) (now : Timestamp) :
    let outcome := r.recoverStepAndParent operationId childStepId lease now
    outcome.2 = r ∨ ∃ operation step,
      r.recoverChecks operationId childStepId lease now = .ok (operation, step) ∧
      step.status.isTerminal = false ∧
      transitionAllowedForRecovery step.status (recoveryStatus step) = true ∧
      StepSettled r operation step (recoveredStep step lease now)
        (recoveredOperation operation step lease now) (!recoveryUncertain step)
        operation.operationKey outcome := by
  intro outcome
  rcases hchecks : r.recoverChecks operationId childStepId lease now with e | ⟨operation, step⟩
  · simp only [outcome, recoverStepAndParent, hchecks]
    exact .inl rfl
  have hsettles := recoverStepAndParent_settles hwf hchecks
  split_ifs at hsettles with hterminal hallowed
  · exact .inl (congrArg Prod.snd hsettles)
  · exact .inr ⟨operation, step, rfl, by simpa using hterminal, hallowed, hsettles⟩
  · exact .inl (congrArg Prod.snd hsettles)

/-! ## Dispatch -/

/-- What `authorizeStepDispatch` checks of the repository. -/
theorem stepDispatchChecks_ok {input : MutationStepDispatchAuthorizationInput}
    (h : r.stepDispatchChecks input = .ok (operation, step)) :
    r.operations.get input.operationId = some operation ∧
      r.steps.get input.childStepId = some step ∧ step.parentOperationId = input.operationId ∧
      operation.operationKey = input.operationKey ∧
      r.Owns operation input.fencingToken input.now ∧ step.status = .executing ∧
      step.dispatchAuthorizedAt = none := by
  simp only [stepDispatchChecks, except_bind_eq_ok, requireOperation_eq_ok, requireStep_eq_ok,
    requireOwnership_eq_ok, throwIf_eq_ok, pure, Except.pure, Except.ok.injEq, Prod.mk.injEq] at h
  obtain ⟨op, hop, st, ⟨hst, hp⟩, -, ⟨hkey, hown, -⟩, -, hguard, rfl, rfl⟩ := h
  simp only [not_or, ne_eq, not_not] at hguard
  exact ⟨hop, hst, hp, hkey, hown, hguard.1, hguard.2.1⟩

/-- `authorizeStepDispatch` throws, or marks an executing step as dispatched. -/
theorem authorizeStepDispatch_rows (hwf : r.rows.Wf)
    (input : MutationStepDispatchAuthorizationInput) :
    let outcome := r.authorizeStepDispatch input
    Refused r outcome ∨ ∃ operation step, r.stepDispatchChecks input = .ok (operation, step) ∧
      (∃ v, outcome.1 = .ok v) ∧
      outcome.2.rows = { r.rows with
        steps := r.steps.set step.id (dispatchedStep step input.fencingToken input.now) } := by
  intro outcome
  rcases hchecks : r.stepDispatchChecks input with e | ⟨operation, step⟩
  · left
    simp only [outcome, authorizeStepDispatch, hchecks]
    exact refused_checking_error
  obtain ⟨-, hst, -⟩ := stepDispatchChecks_ok hchecks
  obtain hid := hwf.step_id hst
  rw [← hid] at hst
  simp only [outcome, authorizeStepDispatch, hchecks, checking_ok]
  set r₁ : Repository := { r with
    steps := r.steps.set step.id (dispatchedStep step input.fencingToken input.now) }
  rcases append_cases (r := r₁) operation .dispatchAuthorized input.now none
    (some (dispatchedStep step input.fencingToken input.now)) with hx | ⟨r₂, hx, hrows⟩ <;> rw [hx]
  · -- the rollback stores the step as it was
    refine .inl ⟨⟨_, rfl⟩, ?_, fun _ => rfl, fun _ => rfl⟩
    simp [rows, r₁, JsMap.set_set_of_get _ hst]
  · exact .inr ⟨operation, step, rfl, ⟨_, rfl⟩, hrows⟩

/-- What `authorizeDispatch` checks of an operation without steps. -/
theorem dispatchChecks_ok {input : MutationDispatchAuthorizationInput} {u : Unit}
    (hid : operation.id = input.operationId) (h : r.dispatchChecks operation input = .ok u) :
    operation.status = .executing ∧ r.Owns operation input.fencingToken input.now ∧
      (r.auditsOf operation.id).any (·.eventType = .dispatchAuthorized) = false := by
  simp only [dispatchChecks, except_bind_eq_ok, throwIf_eq_ok, requireLease_eq_ok] at h
  obtain ⟨-, hguard, -, hlease, haudit⟩ := h
  simp only [not_or, ne_eq, not_not] at hguard
  obtain ⟨hstatus, -, hkey, -⟩ := hguard
  exact ⟨hstatus, by rw [Owns, hkey, hid]; exact hlease, by simpa using haudit⟩

/-- `authorizeDispatch` is refused; or there is no step and the rows stay; or the one step is marked
as dispatched. -/
theorem authorizeDispatch_rows (hwf : r.rows.Wf) (input : MutationDispatchAuthorizationInput) :
    let outcome := r.authorizeDispatch input
    Refused r outcome ∨
      (∃ operation, r.operations.get input.operationId = some operation ∧
        r.stepsFor input.operationId = [] ∧ r.dispatchChecks operation input = .ok () ∧
        (∃ v, outcome.1 = .ok v) ∧ outcome.2.rows = r.rows) ∨
      ∃ operation step stepInput, stepInput.operationId = input.operationId ∧
        r.stepDispatchChecks stepInput = .ok (operation, step) ∧ (∃ v, outcome.1 = .ok v) ∧
        outcome.2.rows = { r.rows with
          steps := r.steps.set step.id (dispatchedStep step stepInput.fencingToken stepInput.now) } := by
  intro outcome
  rcases hreq : r.requireOperation input.operationId with e | operation
  · left
    simp only [outcome, authorizeDispatch, hreq]
    exact refused_checking_error
  have hop := requireOperation_eq_ok.mp hreq
  simp only [outcome, authorizeDispatch, hreq, checking_ok]
  split
  next hsteps =>
    rcases checking_append_answers (r := r) (r.dispatchChecks operation input) (fun _ => operation)
      .dispatchAuthorized input.now none (fun _ => operation) with h | ⟨_, hchecks, hok, hrows⟩
    · exact .inl h
    · exact .inr (.inl ⟨operation, hop, hsteps, hchecks, ⟨_, hok⟩, hrows⟩)
  next step serviceId hsteps hservice =>
    have hstep := authorizeStepDispatch_rows hwf (stepDispatchInput input serviceId step)
    rcases hx : r.authorizeStepDispatch (stepDispatchInput input serviceId step) with ⟨e | v, r'⟩ <;>
      simp only [hx] at hstep
    · rcases hstep with h | ⟨_, _, _, ⟨v, hv⟩, -⟩
      · exact .inl ⟨⟨e, rfl⟩, h.2⟩
      · cases hv
    · rcases hstep with ⟨⟨e, he⟩, -⟩ | ⟨op, st, hchecks, -, hrows⟩
      · cases he
      · exact .inr (.inr ⟨op, st, stepDispatchInput input serviceId step, rfl, hchecks, ⟨_, rfl⟩,
          hrows⟩)
  next => exact .inl ⟨⟨_, rfl⟩, .refl r⟩

/-! ## Transitions of an operation -/

/-- A transition that names its lease holds the lock; one that names none starts before execution
and does not release. -/
theorem transitionChecks_ok {input : DurableTransitionInput} {current : Operation}
    (h : r.transitionChecks input = .ok current) :
    r.operations.get input.operationId = some current ∧
      input.status ∈ current.status.allowedTransitions ∧
      match input.ownership with
      | none => isInFlight current.status = false ∧ input.releaseLease = false
      | some ownership => (input.releaseLease = true → input.status ≠ .indeterminate) ∧
        ∃ lease, r.locks.get ownership.operationKey = some lease ∧
          lease.ownerOperationId = input.operationId ∧
          lease.fencingToken = ownership.fencingToken ∧ input.now < lease.leaseExpiresAt := by
  simp only [transitionChecks, except_bind_eq_ok, requireOperation_eq_ok, throwIf_eq_ok, not_not,
    transitionActionStatus_eq_ok, pure, Except.pure, Except.ok.injEq] at h
  obtain ⟨op, hop, u, hown, -, hexp, -, ⟨hnext, -⟩, rfl⟩ := h
  refine ⟨hop, hnext, ?_⟩
  unfold transitionOwnershipChecks at hown
  cases hownership : input.ownership with
  | none =>
    simp only [hownership, throwIf_eq_ok, not_or, Bool.not_eq_true] at hown
    obtain ⟨-, hflight, hrelease, -⟩ := hown
    exact ⟨by simpa using (List.any_eq_false.mp hflight) _ hexp, hrelease⟩
  | some ownership =>
    simp only [hownership, except_bind_eq_ok, throwIf_eq_ok, requireLease_eq_ok] at hown
    obtain ⟨-, hstuck, -, hlease, -⟩ := hown
    exact ⟨fun hrel hind => hstuck ⟨hind, hrel⟩, hlease⟩

/-- Whether `transitionWithAudit` removes the lock, when it returns. -/
def transitionDrops (input : DurableTransitionInput) : Bool :=
  input.status.isTerminal && input.releaseLease

/-- A transition drops the lock when told so, since the lease was checked. -/
theorem finishTransition_rows {previous current : Operation}
    {input : DurableTransitionInput} (hstatus : current.status = input.status)
    (hown : match input.ownership with
      | none => input.releaseLease = false
      | some ownership => ownership.operationKey = current.operationKey ∧
        ∃ lease, r.locks.get ownership.operationKey = some lease ∧
          lease.ownerOperationId = current.id ∧ lease.fencingToken = ownership.fencingToken) :
    (r.finishTransition previous current input).1 = .ok current ∧
      (r.finishTransition previous current input).2.rows =
        r.rows.dropLock (transitionDrops input) current.operationKey := by
  unfold finishTransition
  rw [transitionDrops, ← hstatus]
  cases hownership : input.ownership with
  | none =>
    simp only [hownership] at hown
    simp [hown, Rows.dropLock]
  | some ownership =>
    simp only [hownership] at hown
    obtain ⟨hkey, lease, hlock, howner, htoken⟩ := hown
    cases hdrop : current.status.isTerminal && input.releaseLease with
    | false => exact ⟨rfl, rfl⟩
    | true =>
      simp only [hlock, howner, htoken, Option.any_some, and_self, decide_true, if_true]
      rw [hkey]
      exact ⟨trivial, dropLock_rows _ _⟩

/-- `transitionWithAudit` throws, or writes the operation and drops the lock of one that ended and
asked for it. -/
theorem transitionWithAudit_rows (hwf : r.rows.Wf) (input : DurableTransitionInput) :
    let outcome := r.transitionWithAudit input
    Refused r outcome ∨ ∃ current, r.transitionChecks input = .ok current ∧
      (∃ v, outcome.1 = .ok v) ∧ outcome.2.rows = Rows.dropLock
        { r.rows with operations := r.operations.set current.id (applyTransition current input) }
        (transitionDrops input) current.operationKey := by
  intro outcome
  rcases hchecks : r.transitionChecks input with e | previous
  · left
    simp only [outcome, transitionWithAudit, hchecks]
    exact refused_checking_error
  obtain ⟨hop, -, hown⟩ := transitionChecks_ok hchecks
  obtain hid := hwf.operation_id hop
  rw [← hid] at hop
  simp only [outcome, transitionWithAudit, hchecks, checking_ok]
  generalize hcurrent : applyTransition previous input = current
  have hcid : current.id = previous.id := by rw [← hcurrent]; rfl
  have hckey : current.operationKey = previous.operationKey := by rw [← hcurrent]; rfl
  set r₁ : Repository := { r with operations := r.operations.set current.id current }
  rcases append_cases (r := r₁) current input.eventType input.now input.reasonCode none with
    hx | ⟨r₂, hx, hrows⟩ <;> rw [hx]
  · -- the rollback stores the operation as it was
    refine .inl ⟨⟨_, rfl⟩, ?_, fun _ => rfl, fun _ => rfl⟩
    simp [rows, r₁, hcid, JsMap.set_set_of_get _ hop]
  · right
    refine ⟨previous, rfl, ?_⟩
    have hlocks : r₂.locks = r.locks := congrArg Rows.locks hrows
    have hfinish := @finishTransition_rows r₂ previous current input (by rw [← hcurrent]; rfl)
    refine And.elim (fun hok hdropped => ⟨⟨_, hok⟩, ?_⟩) (hfinish ?_)
    · rw [hdropped, hrows, hckey, ← hcid, hcurrent]
      rfl
    -- the lease named by the caller is the lock of the operation's own key
    cases hownership : input.ownership with
    | none =>
      simp only [hownership] at hown
      exact hown.2
    | some ownership =>
      simp only [hownership] at hown
      obtain ⟨-, lease, hlock, howner, htoken, -⟩ := hown
      obtain ⟨-, op, hget, hopkey⟩ := hwf.lock_owner hlock
      have hsame : previous = op := by
        rw [howner, ← hid] at hget
        exact Option.some.inj (hop.symm.trans hget)
      exact ⟨by rw [hckey, hsame, hopkey], lease, by rw [hlocks, hlock], by rw [howner, hcid, hid],
        htoken⟩

/-! ## Leases -/

/-- The rows after a grant: the next token of the key, and a lock under it. -/
def grantedRows (r : Repository) (operationKey operationId : JsString)
    (now leaseExpiresAt : Timestamp) : Rows :=
  (r.grantLease operationKey operationId now leaseExpiresAt).2.rows

/-- The lock of a key does not stand in the way of a grant: there is none, or its owner is gone or
settled. -/
def LockFree (r : Repository) (operationKey : JsString) : Prop :=
  ∀ lock, r.locks.get operationKey = some lock →
    ∀ status, r.statusOf lock.ownerOperationId = some status → status.isSettled = true

variable (operationKey operationId : JsString) (now leaseExpiresAt : Timestamp)

/-- `acquireLease` grants to an operation of the key, over a settled owner's lock. -/
theorem acquireLease_rows :
    (r.acquireLease operationKey operationId now leaseExpiresAt).2.rows = r.rows ∨
      (∃ operation, r.operations.get operationId = some operation ∧
        operation.operationKey = operationKey) ∧ r.LockFree operationKey ∧
      (r.acquireLease operationKey operationId now leaseExpiresAt).2.rows =
        r.grantedRows operationKey operationId now leaseExpiresAt := by
  unfold acquireLease
  split_ifs with hexp hkey
  · exact .inl rfl
  · exact .inl rfl
  have hop : ∃ operation, r.operations.get operationId = some operation ∧
      operation.operationKey = operationKey := by
    simpa using hkey
  split
  · exact .inl rfl
  next hanswer =>
    refine .inr ⟨hop, ?_, rfl⟩
    intro lock hlock status hstatus
    unfold lockAnswer at hanswer
    simp only [hlock, hstatus] at hanswer
    rcases hsettled : status.isSettled with _ | _
    · have hterm : status.isTerminal = true → status = .indeterminate := by
        intro ht
        rcases ActionStatus.isTerminal_iff.mp ht with h | h
        · rw [h] at hsettled
          cases hsettled
        · exact h
      split_ifs at hanswer with h1 h2
      exact absurd (hterm h2) h1
    · rfl

/-- `acquireRecoveryLease` grants to a live operation of the key, over any expired lock whose owner
is not indeterminate. -/
theorem acquireRecoveryLease_rows :
    (r.acquireRecoveryLease operationKey operationId now leaseExpiresAt).2.rows = r.rows ∨
      (∃ operation, r.operations.get operationId = some operation ∧
        operation.operationKey = operationKey ∧ operation.status.isTerminal = false) ∧
      (∀ lock, r.locks.get operationKey = some lock → lock.leaseExpiresAt ≤ now ∧
        r.statusOf lock.ownerOperationId ≠ some .indeterminate) ∧
      (r.acquireRecoveryLease operationKey operationId now leaseExpiresAt).2.rows =
        r.grantedRows operationKey operationId now leaseExpiresAt := by
  unfold acquireRecoveryLease
  split_ifs with hexp
  · exact .inl rfl
  split
  · exact .inl rfl
  next operation hop =>
    split_ifs with hguard
    · exact .inl rfl
    simp only [not_or, ne_eq, not_not, Bool.not_eq_true] at hguard
    split
    next hlock =>
      exact .inr ⟨⟨operation, hop, hguard⟩, fun lock h => (by rw [hlock] at h; cases h), rfl⟩
    next current hlock =>
      split_ifs with hstuck hlive
      · exact .inl rfl
      · exact .inl rfl
      · refine .inr ⟨⟨operation, hop, hguard⟩, fun lock h => ?_, rfl⟩
        rw [hlock] at h
        cases h
        exact ⟨not_lt.mp hlive, hstuck⟩

/-- `renewLease` changes at most the expiry of a lock. -/
theorem renewLease_rows (hwf : r.rows.Wf) (lease : MutationLease) (now leaseExpiresAt : Timestamp) :
    (r.renewLease lease now leaseExpiresAt).2.rows = r.rows ∨
      ∃ current, r.locks.get current.operationKey = some current ∧
        (r.renewLease lease now leaseExpiresAt).2.rows = { r.rows with
          locks := r.locks.set current.operationKey
            { current with leaseExpiresAt := leaseExpiresAt } } := by
  unfold renewLease
  split_ifs with hexp
  · exact .inl rfl
  split
  · exact .inl rfl
  next current hlock =>
    split_ifs
    · exact .inl rfl
    · have hkey : current.operationKey = lease.operationKey := (hwf.lock_owner hlock).1
      exact .inr ⟨current, by rw [hkey, hlock], by rw [hkey]; rfl⟩

/-- `releaseLease` removes at most a lock whose owner settled. -/
theorem releaseLease_rows (lease : MutationLease) :
    (r.releaseLease lease).2.rows = r.rows ∨
      ∃ current status, r.locks.get lease.operationKey = some current ∧
        r.statusOf current.ownerOperationId = some status ∧ status.isSettled = true ∧
        (r.releaseLease lease).2.rows =
          { r.rows with locks := r.locks.delete lease.operationKey } := by
  unfold releaseLease
  split
  · exact .inl rfl
  next current hlock =>
    split_ifs
    · exact .inl rfl
    split
    · exact .inl rfl
    next status hstatus =>
      split_ifs with hkeep
      · exact .inl rfl
      simp only [not_or, Bool.not_eq_false] at hkeep
      refine .inr ⟨current, status, hlock, hstatus, ?_, rfl⟩
      rcases ActionStatus.isTerminal_iff.mp hkeep.1 with h | h
      · exact h
      · exact absurd h hkeep.2

end InMemoryDurableMutationRepository

end ZimaControl
