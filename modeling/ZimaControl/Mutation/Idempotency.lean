import ZimaControl.Mutation.Frame

/-!
# Idempotency keys

A claim is stored under the actor and the idempotency key together. While it lives, every call under
the pair finds the operation it created; calls under other pairs do not touch it. The key of the
`claims` map, a length-prefixed concatenation, determines both strings.
-/

namespace ZimaControl

open Outcome

namespace RepositoryCall

/-- The time at which a call claims. -/
def claimTime : RepositoryCall → Timestamp
  | claim input => input.now
  | claimParentWithStep input => input.now
  | _ => 0

/-- The actor and idempotency key under which a call looks a claim up. -/
def lookupPair : RepositoryCall → Option (JsString × JsString)
  | replayParentClaim input => some (input.actorId, input.idempotencyKey)
  | c => c.claimPair

end RepositoryCall

namespace InMemoryDurableMutationRepository

variable {host : Host} {r : Repository}

/-- A claim key determines the actor and the idempotency key. -/
theorem claimKey_inj {actorId key actorId' key' : JsString} :
    claimKey actorId key = claimKey actorId' key' ↔ actorId = actorId' ∧ key = key' :=
  lengthPrefixed_inj

/-- What calls keep while no audit fault is injected: well-formed rows, and claims that point at the
operation created with them. -/
structure Coherent (r : Repository) : Prop where
  wf : r.rows.Wf
  faults : r.auditFaults = []
  claim_operation : ∀ {key record}, r.claims.get key = some record →
    ∃ operation, r.operations.get record.operationId = some operation ∧
      claimKey operation.actorId operation.idempotencyKey = key ∧
      operation.fingerprint = record.fingerprint

/-! ## The claiming calls, case by case -/

variable {record : ClaimRecord} {operation : Operation}

/-- How a claiming call answers while no audit append fails. A live claim of its pair replays its
operation to its fingerprint, and conflicts with another one. Without a live claim the call creates
an operation, unless an id is taken. -/
structure Claiming {β : Type} (r : Repository) (input : DurableMutationClaimInput)
    (operation : Operation) (taken : Prop) [Decidable taken] (written : Rows)
    (replay : JsString → Operation → β) (created : β) (outcome : RepositoryOutcome β) : Prop where
  live : ∀ {record existing}, r.liveClaim input.key input.now = some record →
    r.operations.get record.operationId = some existing →
    outcome = if input.fingerprint = record.fingerprint then
        (.ok (replay record.operationId existing), (r.append existing .replayed input.now none).2)
      else (.error idempotencyConflict, r)
  fresh : r.liveClaim input.key input.now = none →
    if taken then outcome = (.error persistenceFailed, r.dropClaim input.key)
    else ∃ r', outcome = (.ok created, r') ∧ r'.rows = written ∧
      Extends ((r.dropClaim input.key).insertOperation input.key input operation) r'
  operations : written.operations = r.operations.set operation.id operation

/-- What stands under the id of a replayed claim. -/
theorem requireParentChild_of_get {id : JsString} (hop : r.operations.get id = some operation) :
    r.requireParentChild id = .ok ⟨operation, r.stepsFor id⟩ := by
  simp only [requireParentChild, requireOperation_eq_ok.mpr hop]
  rfl

/-- `claim` is such a call. -/
theorem claim_claiming (hf : r.auditFaults = []) (input : DurableMutationClaimInput) :
    let operation := operationFromClaim input input.plan.target.serviceId
      input.plan.target.containerId
    Claiming r input operation (r.operations.has operation.id)
      { r.rows with operations := r.operations.set operation.id operation }
      (fun _ existing => ⟨.replay, existing⟩) ⟨.created, operation⟩ (r.claim input) := by
  intro operation
  refine ⟨fun {record existing} hlive hop => ?_, fun hlive => ?_, rfl⟩
  · obtain ⟨r', hx, -⟩ := append_ok existing .replayed input.now none none hf
    -- under a live claim the fingerprints decide
    by_cases hfp : input.fingerprint = record.fingerprint
    · simp [claim, hlive, hfp, requireOperation_eq_ok.mpr hop, checking_ok, hx, andThen_ok]
    · simp [claim, hlive, Ne.symm hfp, hfp]
  · rw [claim_of_none hlive]
    change if r.operations.has input.plan.operationId then _ else _
    split_ifs
    · rfl
    obtain ⟨r', hx, hrows, hext⟩ := append_ok (r := (r.dropClaim input.key).insertOperation
      input.key input operation) operation .claimed input.now none none hf
    refine ⟨r', ?_, hrows, hext⟩
    simp only [createOperation]
    rw [hx, andThen_ok]

variable {input : DurableParentChildClaimInput}

/-- A parent claim whose input is inconsistent or invalid throws first. -/
theorem claimParentWithStep_invalid {e : Failure}
    (hinput : assertParentChildClaimInput host input = .error e) :
    r.claimParentWithStep host input = (.error e, r) := by
  simp [claimParentWithStep, hinput, checking_error]

/-- A parent claim with valid input is such a call. -/
theorem claimParentWithStep_claiming (hf : r.auditFaults = [])
    (hinput : assertParentChildClaimInput host input = .ok ()) :
    let operation := operationFromClaim input.toDurableMutationClaimInput none none
    let step := stepFromClaim input
    Claiming r input.toDurableMutationClaimInput operation
      (r.operations.has operation.id ∨ r.steps.has step.id) (r.rows.write operation step)
      (fun id existing => ⟨.replay, ⟨existing, r.stepsFor id⟩⟩) ⟨.created, ⟨operation, [step]⟩⟩
      (r.claimParentWithStep host input) := by
  intro operation step
  refine ⟨fun {record existing} hlive hop => ?_, fun hlive => ?_, rfl⟩
  · obtain ⟨r', hx, -⟩ := append_ok existing .replayed input.now none none hf
    by_cases hfp : input.fingerprint = record.fingerprint
    · simp [claimParentWithStep, hinput, hlive, hfp, requireParentChild_of_get hop, checking_ok, hx,
        andThen_ok]
    · simp [claimParentWithStep, hinput, checking_ok, hlive, Ne.symm hfp, hfp]
  · rw [claimParentWithStep_of_none hinput hlive]
    change if r.operations.has input.plan.operationId ∨ r.steps.has input.stepId then _ else _
    split_ifs
    · rfl
    obtain ⟨r', hx, hrows, hext⟩ := (appendCreated_appends operation step input.now).ok
      (show ((r.dropClaim input.key).insertParentWithStep input.key input).auditFaults = [] from hf)
    refine ⟨r', ?_, hrows, hext.claims, hext.faults, hext.audits⟩
    change settleCreation _ operation step input.key _ = _
    rw [hx, settleCreation]

/-- A live claim is the record of its key. -/
theorem liveClaim_eq_some {key : JsString} {now : Timestamp} :
    r.liveClaim key now = some record ↔ r.claims.get key = some record ∧ now < record.expiresAt := by
  simp [liveClaim, Option.filter_eq_some_iff]

section Claiming

variable {β : Type} {input : DurableMutationClaimInput} {taken : Prop} [Decidable taken]
  {written : Rows} {replay : JsString → Operation → β} {created : β}
  {outcome : RepositoryOutcome β}
  (h : Claiming r input operation taken written replay created outcome)
include h

/-- What is left of a call without a live claim. -/
theorem Claiming.leaves (hlive : r.liveClaim input.key input.now = none) :
    if taken then outcome.1 = .error persistenceFailed ∧ outcome.2.rows = r.rows
    else outcome.1 = .ok created ∧ outcome.2.rows = written ∧
      outcome.2.claims.get input.key =
        some ⟨input.fingerprint, operation.id, input.idempotencyExpiresAt⟩ := by
  have hfresh := h.fresh hlive
  split_ifs at hfresh ⊢
  · rw [hfresh]
    exact ⟨rfl, rfl⟩
  obtain ⟨r', hx, hrows, hext⟩ := hfresh
  rw [hx]
  refine ⟨rfl, hrows, ?_⟩
  rw [hext.claims]
  exact JsMap.get_set_self _ _ _

/-- The answer depends on the live claim of the pair alone. -/
theorem Claiming.answer_eq (hr : Coherent r) {r' : Repository} {written' : Rows}
    {outcome' : RepositoryOutcome β}
    (h' : Claiming r' input operation taken written' replay created outcome')
    (hoperations : r'.operations = r.operations)
    (hlive : r'.liveClaim input.key input.now = r.liveClaim input.key input.now) :
    outcome'.1 = outcome.1 := by
  rcases hl : r.liveClaim input.key input.now with _ | record <;> rw [hl] at hlive
  · have hleaves := h.leaves hl
    have hleaves' := h'.leaves hlive
    split_ifs at hleaves hleaves' <;> rw [hleaves.1, hleaves'.1]
  · obtain ⟨existing, hop, -⟩ := hr.claim_operation (liveClaim_eq_some.mp hl).1
    rw [h.live hl hop, h'.live hlive (by rw [hoperations, hop])]
    split_ifs <;> rfl

end Claiming

variable {input : DurableParentReplayInput}

/-- A replay of a pair without a live claim finds nothing. -/
theorem replayParentClaim_none
    (hlive : r.liveClaim (claimKey input.actorId input.idempotencyKey) input.now = none) :
    r.replayParentClaim input = (.ok none, r) := by
  simp [replayParentClaim, hlive]

/-- A replay of a live pair with another fingerprint conflicts. -/
theorem replayParentClaim_conflict
    (hlive : r.liveClaim (claimKey input.actorId input.idempotencyKey) input.now = some record)
    (hfp : input.fingerprint ≠ record.fingerprint) :
    r.replayParentClaim input = (.error idempotencyConflict, r) := by
  have hchecks : r.replayChecks record input = .error idempotencyConflict := by
    simp only [replayChecks, throwIf, ne_eq, hfp.symm, not_false_eq_true, if_true]
    rfl
  simp [replayParentClaim, hlive, hchecks, checking_error]

/-- A replay of a live pair with its fingerprint finds the operation, if it has a step; the method
serves parents only. -/
theorem replayParentClaim_replay (hf : r.auditFaults = [])
    (hlive : r.liveClaim (claimKey input.actorId input.idempotencyKey) input.now = some record)
    (hfp : input.fingerprint = record.fingerprint)
    (hop : r.operations.get record.operationId = some operation) :
    r.replayParentClaim input =
      if (r.stepsFor record.operationId).length = 1 then
        (.ok (some ⟨operation, r.stepsFor record.operationId⟩),
          (r.append operation .replayed input.now none).2)
      else (.error persistenceFailed, r) := by
  have hvalue := requireParentChild_of_get hop
  split_ifs with hone
  · have hchecks : r.replayChecks record input =
        .ok ⟨operation, r.stepsFor record.operationId⟩ := by
      simp only [replayChecks, hfp, hvalue, throwIf, ne_eq, not_true_eq_false, if_false, hone, bind,
        Except.bind]
      rfl
    obtain ⟨r', hx, -⟩ := append_ok operation .replayed input.now none none hf
    simp [replayParentClaim, hlive, hchecks, checking_ok, hx, andThen_ok]
  · have hchecks : r.replayChecks record input = .error persistenceFailed := by
      simp [replayChecks, hfp, hvalue, throwIf, hone, bind, Except.bind]
    simp [replayParentClaim, hlive, hchecks, checking_error]

/-! ## The claims over a run -/

/-- The claims stay; or no claim of the pair was live and the claims lose the expired one, or gain
that of an operation created under the pair. -/
structure ClaimStep (r r' : Repository) (actorId key : JsString) (now : Timestamp) : Prop where
  faults : r'.auditFaults = []
  audits : ∀ id, r.auditsOf id <+: r'.auditsOf id
  claims : r'.claims = r.claims ∨ r.liveClaim (claimKey actorId key) now = none ∧
    (r'.claims = r.claims.delete (claimKey actorId key) ∨
      ∃ operation expiresAt, r'.operations.get operation.id = some operation ∧
        operation.actorId = actorId ∧ operation.idempotencyKey = key ∧
        r'.claims = (r.claims.delete (claimKey actorId key)).set (claimKey actorId key)
          ⟨operation.fingerprint, operation.id, expiresAt⟩)

/-- A step that extends the repository. -/
theorem Extends.claimStep {r' : Repository} (hext : Extends r r') (hf : r.auditFaults = [])
    (actorId key : JsString) (now : Timestamp) : ClaimStep r r' actorId key now :=
  ⟨hext.faults hf, hext.audits hf, .inl hext.claims⟩

variable {actorId key : JsString}

/-- A call that only drops the expired claim of its pair. -/
theorem claimStep_dropClaim (hf : r.auditFaults = []) {now : Timestamp}
    (hlive : r.liveClaim (claimKey actorId key) now = none) :
    ClaimStep r (r.dropClaim (claimKey actorId key)) actorId key now :=
  ⟨hf, fun _ => List.prefix_refl _, .inr ⟨hlive, .inl rfl⟩⟩

/-- A claiming call is such a step. -/
theorem Claiming.claimStep {β : Type} {input : DurableMutationClaimInput}
    {serviceId containerId : Option JsString} {taken : Prop} [Decidable taken] {written : Rows}
    {replay : JsString → Operation → β} {created : β} {outcome : RepositoryOutcome β}
    (h : Claiming r input (operationFromClaim input serviceId containerId) taken written replay created
      outcome) (hr : Coherent r) :
    ClaimStep r outcome.2 input.plan.actor.id input.plan.idempotencyKey input.now := by
  rcases hlive : r.liveClaim input.key input.now with _ | record
  · have hfresh := h.fresh hlive
    split_ifs at hfresh
    · rw [hfresh]
      exact claimStep_dropClaim hr.faults hlive
    obtain ⟨r', hx, hrows, hext⟩ := hfresh
    rw [hx]
    refine ⟨hext.faults hr.faults, hext.audits hr.faults, .inr ⟨hlive, .inr
      ⟨operationFromClaim input serviceId containerId, input.idempotencyExpiresAt, ?_, rfl, rfl,
        hext.claims⟩⟩⟩
    rw [show r'.operations = _ from congrArg Rows.operations hrows, h.operations]
    exact JsMap.get_set_self _ _ _
  · obtain ⟨existing, hop, -⟩ := hr.claim_operation (liveClaim_eq_some.mp hlive).1
    rw [h.live hlive hop]
    split_ifs
    · exact (extends_append ..).claimStep hr.faults _ _ _
    · exact (Extends.refl r).claimStep hr.faults _ _ _

/-- Every call is a claim step, of its own pair if it has one and of any pair otherwise. -/
theorem next_claimStep (host : Host) (h : Coherent r) (c : RepositoryCall) (actorId key : JsString)
    (hc : ∀ p, c.claimPair = some p → p = (actorId, key)) :
    ClaimStep r (c.next host r) actorId key c.claimTime := by
  rcases hpair : c.claimPair with _ | p
  · exact (extends_next host r c hpair).claimStep h.faults _ _ _
  cases c with
  | claim input =>
    cases hc _ rfl
    exact (claim_claiming h.faults input).claimStep h
  | claimParentWithStep input =>
    cases hc _ rfl
    rcases hinput : assertParentChildClaimInput host input with e | u
    · rw [RepositoryCall.next, RepositoryCall.exec, claimParentWithStep_invalid hinput]
      exact (Extends.refl r).claimStep h.faults _ _ _
    · exact (claimParentWithStep_claiming h.faults hinput).claimStep h
  | _ => cases hpair

/-- The pair of a call, or any pair. -/
theorem exists_claimPair (c : RepositoryCall) :
    ∃ actorId key, ∀ p, c.claimPair = some p → p = (actorId, key) := by
  rcases hpair : c.claimPair with _ | ⟨actorId, key⟩
  · exact ⟨[], [], fun p hp => by cases hp⟩
  · exact ⟨actorId, key, fun p hp => (Option.some.inj hp).symm⟩

/-- Calls keep claims and operations in step. -/
theorem Coherent.next (h : Coherent r) (host : Host) (c : RepositoryCall) :
    Coherent (c.next host r) := by
  obtain ⟨actorId, idempotencyKey, hc⟩ := exists_claimPair c
  have hstep := next_claimStep host h c _ _ hc
  -- Operations are still there with what identifies them.
  have hold : ∀ {key record}, r.claims.get key = some record → ∃ operation,
      (c.next host r).operations.get record.operationId = some operation ∧
      claimKey operation.actorId operation.idempotencyKey = key ∧
      operation.fingerprint = record.fingerprint := by
    intro key record hget
    obtain ⟨op, hop, hkey, hfp⟩ := h.claim_operation hget
    obtain ⟨op', hop', same⟩ := (next_rowChange host c h.wf).operation hop
    exact ⟨op', hop', by rw [same.actorId, same.idempotencyKey, hkey], by rw [same.fingerprint, hfp]⟩
  refine ⟨next_wf host c h.wf, hstep.faults, fun {key record} hget => ?_⟩
  rcases hstep.claims with hclaims | ⟨-, hclaims | ⟨op, expiresAt, hop, hactor, hkey, hclaims⟩⟩
  · rw [hclaims] at hget
    exact hold hget
  · rw [hclaims, JsMap.get_delete] at hget
    split_ifs at hget
    exact hold hget
  rw [hclaims, JsMap.get_set, JsMap.get_delete] at hget
  split_ifs at hget with hk
  · cases hget
    exact ⟨op, hop, by rw [hactor, hkey, hk], rfl⟩
  · exact hold hget

/-- Runs keep claims and operations in step. -/
theorem ReachedBy.coherent {allowed : Repository → RepositoryCall → Prop} {r' : Repository}
    (hrun : ReachedBy host allowed r r') (h : Coherent r) : Coherent r' :=
  hrun.induct Coherent h fun _ c _ hr => hr.next host c

/-- A new repository without audit faults is coherent. -/
theorem initial_coherent : Coherent (initial []) := ⟨initial_wf [], rfl, fun h => by cases h⟩

/-- A call under another pair, or under none, leaves the claim of a pair. -/
theorem claims_get_next (host : Host) (h : Coherent r) (c : RepositoryCall)
    (hc : c.claimPair ≠ some (actorId, key)) :
    (c.next host r).claims.get (claimKey actorId key) = r.claims.get (claimKey actorId key) := by
  rcases hpair : c.claimPair with _ | ⟨actorId', key'⟩
  · rw [(extends_next host r c hpair).claims]
  have hne : claimKey actorId' key' ≠ claimKey actorId key := by
    intro heq
    obtain ⟨rfl, rfl⟩ := claimKey_inj.mp heq
    exact hc hpair
  have hstep := next_claimStep host h c actorId' key' fun p hp => by
    rw [hpair] at hp
    exact (Option.some.inj hp).symm
  rcases hstep.claims with hclaims | ⟨-, hclaims | ⟨op, expiresAt, -, -, -, hclaims⟩⟩
  · rw [hclaims]
  · rw [hclaims, JsMap.get_delete, if_neg hne]
  · rw [hclaims, JsMap.get_set, if_neg hne, JsMap.get_delete, if_neg hne]

/-- A call under a pair before its claim expires leaves the claim. -/
theorem claims_get_next_of_live (host : Host) (h : Coherent r) (c : RepositoryCall)
    (hget : r.claims.get (claimKey actorId key) = some record)
    (hc : c.claimPair = some (actorId, key) → c.claimTime < record.expiresAt) :
    (c.next host r).claims.get (claimKey actorId key) = some record := by
  by_cases hpair : c.claimPair = some (actorId, key)
  · have hstep := next_claimStep host h c actorId key fun p hp => by
      rw [hpair] at hp
      exact (Option.some.inj hp).symm
    rcases hstep.claims with hclaims | ⟨hnone, -⟩
    · rw [hclaims, hget]
    · rw [liveClaim_eq_some.mpr ⟨hget, hc hpair⟩] at hnone
      cases hnone
  · rw [claims_get_next host h c hpair, hget]

end InMemoryDurableMutationRepository

end ZimaControl
