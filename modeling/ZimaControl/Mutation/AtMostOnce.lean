import ZimaControl.Mutation.Idempotency
import ZimaControl.Mutation.Indeterminate

/-!
# At most one operation, at most one dispatch

While the claim of an idempotency key lives, one operation stands behind it, and over any run that
operation is granted one dispatch at most. An operation with a step is guarded by the step's
`dispatchAuthorizedAt`, one without by its audit events; `Dispatched` is what both leave behind.
-/

namespace ZimaControl

namespace InMemoryDurableMutationRepository

variable {host : Host} {r : Repository}

/-! ## Dispatch grants -/

/-- The operations whose dispatch a sequence of calls authorises, in order. -/
def grants (host : Host) : Repository → List RepositoryCall → List JsString
  | _, [] => []
  | r, c :: calls =>
    if c.returned host r then c.dispatchTarget.toList ++ grants host (c.next host r) calls
    else grants host (c.next host r) calls

/-- No step has the operation as its parent. -/
def Stepless (rows : Rows) (id : JsString) : Prop :=
  ∀ stepId step, rows.steps.get stepId = some step → step.parentOperationId ≠ id

/-- A dispatch was authorised: the step says so, or there is no step and the audit events do. -/
def Dispatched (r : Repository) (id : JsString) : Prop :=
  (∃ stepId step, r.steps.get stepId = some step ∧ step.parentOperationId = id ∧
    step.dispatchAuthorizedAt.isSome = true) ∨
  (∃ operation, r.operations.get id = some operation) ∧ Stepless r.rows id ∧
    (r.auditsOf id).any (·.eventType = .dispatchAuthorized) = true

variable {id : JsString}

/-- Steps only appear together with their parent. -/
theorem RowChange.stepless {rows' : Rows} (hchange : RowChange r rows')
    (hop : ∃ operation, r.operations.get id = some operation) (hs : Stepless r.rows id) :
    Stepless rows' id := by
  -- A step written under a parent with a step, or under a new parent, is not one of `id`.
  have hset : ∀ step : OperationStep, step.parentOperationId ≠ id →
      ∀ stepId s, (r.steps.set step.id step).get stepId = some s → s.parentOperationId ≠ id := by
    intro step hne stepId s hget
    rw [JsMap.get_set] at hget
    split_ifs at hget
    · cases hget
      exact hne
    · exact hs stepId s hget
  cases hchange with
  | insertStep operation step absent absentStep parent =>
    refine hset step ?_
    rintro rfl
    obtain ⟨op, hop⟩ := hop
    rw [parent, absent] at hop
    cases hop
  | write w drop key =>
    have hne := hs _ _ w.step_get
    rw [← w.sameStep.parentOperationId] at hne
    cases drop <;> exact hset _ hne
  | dispatch get sameStep =>
    have hne := hs _ _ get
    rw [← sameStep.parentOperationId] at hne
    exact hset _ hne
  | transition get sameOperation drop key => cases drop <;> exact hs
  | same | insert | lock | unlock => exact hs

/-- A dispatch that was authorised stays on record. -/
theorem Dispatched.next (hd : Dispatched r id) (h : Coherent r) (host : Host) (c : RepositoryCall) :
    Dispatched (c.next host r) id := by
  have hchange := next_rowChange host c h.wf
  rcases hd with ⟨stepId, step, hget, hparent, hsome⟩ | ⟨⟨operation, hop⟩, hs, haudit⟩
  · obtain ⟨step', hget', same⟩ := hchange.step hget
    exact .inl ⟨stepId, step', hget', by rw [same.parentOperationId, hparent],
      by rw [same.dispatched hsome, hsome]⟩
  obtain ⟨operation', hop', -⟩ := hchange.operation hop
  obtain ⟨actorId, key, hc⟩ := exists_claimPair c
  obtain ⟨later, hlater⟩ := (next_claimStep host h c actorId key hc).audits id
  refine .inr ⟨⟨operation', hop'⟩, hchange.stepless ⟨operation, hop⟩ hs, ?_⟩
  rw [← hlater, List.any_append, haudit, Bool.true_or]

variable {operation : Operation} {input : MutationStepDispatchAuthorizationInput}
  {step : OperationStep}

/-- What the checks of a step's dispatch find is not on record as dispatched. -/
theorem not_dispatched_of_stepDispatchChecks (h : r.rows.Wf)
    (hchecks : r.stepDispatchChecks input = .ok (operation, step)) :
    ¬ Dispatched r input.operationId := by
  obtain ⟨-, hst, hparent, -, -, -, hnone⟩ := stepDispatchChecks_ok hchecks
  rintro (⟨stepId, step', hget, hparent', hsome⟩ | ⟨-, hs, -⟩)
  · -- The parent has one step, so the one dispatched is the one checked.
    have hsame : stepId = input.childStepId := h.step_unique hget hst (hparent'.trans hparent.symm)
    rw [hsame, hst] at hget
    cases hget
    rw [hnone] at hsome
    cases hsome
  · exact hs _ _ hst hparent

/-- A step that its dispatch marks puts the operation on record. -/
theorem dispatched_of_stepDispatch {r' : Repository}
    (hchecks : r.stepDispatchChecks input = .ok (operation, step)) (hrows : r'.rows = { r.rows with
      steps := r.steps.set step.id (dispatchedStep step input.fencingToken input.now) }) :
    Dispatched r' input.operationId := by
  obtain ⟨-, -, hparent, -⟩ := stepDispatchChecks_ok hchecks
  have hsteps : r'.steps = _ := congrArg Rows.steps hrows
  refine .inl ⟨step.id, dispatchedStep step input.fencingToken input.now, ?_, hparent, rfl⟩
  rw [hsteps]
  exact JsMap.get_set_self _ _ _

/-- An operation for which `stepsFor` finds nothing has no step. -/
theorem stepless_of_stepsFor_eq_nil (h : r.rows.Wf) (hnil : r.stepsFor id = []) :
    Stepless r.rows id := by
  intro stepId step hget hparent
  have hid := h.step_id hget
  rw [← hid] at hget
  have hone := stepsFor_eq_singleton h.step_id h.step_unique hget
  rw [hparent, hnil] at hone
  cases hone

/-- Without audit faults, a passed check of an operation without steps is followed by its event. -/
theorem authorizeDispatch_stepless (hf : r.auditFaults = [])
    {input : MutationDispatchAuthorizationInput}
    (hop : r.operations.get input.operationId = some operation)
    (hnil : r.stepsFor input.operationId = [])
    (hchecks : r.dispatchChecks operation input = .ok ()) :
    r.authorizeDispatch input =
      (.ok operation, (r.append operation .dispatchAuthorized input.now none).2) := by
  obtain ⟨r', hx, -⟩ := append_ok operation .dispatchAuthorized input.now none none hf
  simp [authorizeDispatch, requireOperation_eq_ok.mpr hop, Outcome.checking_ok, hnil, hchecks, hx,
    Outcome.andThen_ok]

/-- A dispatch is granted only to an operation that is not on record, which it then is. -/
theorem dispatch_returned (h : Coherent r) (host : Host) {c : RepositoryCall}
    (htarget : c.dispatchTarget = some id) (hret : c.returned host r = true) :
    ¬ Dispatched r id ∧ Dispatched (c.next host r) id := by
  cases c with
  | authorizeStepDispatch input =>
    cases htarget
    rcases authorizeStepDispatch_rows h.wf input with
      ⟨⟨e, he⟩, -⟩ | ⟨operation, step, hchecks, -, hrows⟩
    · simp [RepositoryCall.returned, RepositoryCall.exec, he, Except.isOk, Except.toBool] at hret
    · exact ⟨not_dispatched_of_stepDispatchChecks h.wf hchecks, dispatched_of_stepDispatch hchecks hrows⟩
  | authorizeDispatch input =>
    cases htarget
    rcases authorizeDispatch_rows h.wf input with
      ⟨⟨e, he⟩, -⟩ | ⟨operation, hop, hnil, hchecks, -⟩ |
      ⟨operation, step, stepInput, hid, hchecks, -, hrows⟩
    · simp [RepositoryCall.returned, RepositoryCall.exec, he, Except.isOk, Except.toBool] at hret
    · -- without a step the audit event alone records the dispatch
      have hid : operation.id = input.operationId := h.wf.operation_id hop
      have hs := stepless_of_stepsFor_eq_nil h.wf hnil
      constructor
      · rintro (⟨stepId, step, hget, hparent, -⟩ | ⟨-, -, haudit⟩)
        · exact hs stepId step hget hparent
        · rw [← hid, (dispatchChecks_ok hid hchecks).2.2] at haudit
          cases haudit
      · have hnext : RepositoryCall.next host r (.authorizeDispatch input) =
            (r.append operation .dispatchAuthorized input.now none).2 := by
          rw [RepositoryCall.next, RepositoryCall.exec,
            authorizeDispatch_stepless h.faults hop hnil hchecks]
        have hrows' := append_rows (r := r) operation .dispatchAuthorized input.now none none
        rw [hnext]
        refine .inr ⟨⟨operation, ?_⟩, ?_, ?_⟩
        · rw [show (r.append ..).2.operations = _ from congrArg Rows.operations hrows']
          exact hop
        · rw [hrows']
          exact hs
        · rw [auditsOf_append _ _ _ _ _ h.faults, if_pos hid]
          simp [auditEvent]
    · rw [← hid]
      exact ⟨not_dispatched_of_stepDispatchChecks h.wf hchecks, dispatched_of_stepDispatch hchecks hrows⟩
  | _ => cases htarget

/-- An operation on record is granted nothing more. -/
theorem not_mem_grants (h : Coherent r) (hd : Dispatched r id) (calls : List RepositoryCall) :
    id ∉ grants host r calls := by
  induction calls generalizing r with
  | nil => exact List.not_mem_nil
  | cons c calls ih =>
    have htail := ih (h.next host c) (hd.next h host c)
    rw [grants]
    split_ifs with hret
    · rw [List.mem_append, not_or]
      refine ⟨fun hmem => ?_, htail⟩
      exact (dispatch_returned h host (by simpa using hmem) hret).1 hd
    · exact htail

/-- Over a run no operation is granted two dispatches. -/
theorem grants_nodup (h : Coherent r) (calls : List RepositoryCall) :
    (grants host r calls).Nodup := by
  induction calls generalizing r with
  | nil => exact List.nodup_nil
  | cons c calls ih =>
    have htail := ih (h.next host c)
    rw [grants]
    split_ifs with hret
    · rcases htarget : c.dispatchTarget with _ | id
      · exact htail
      · exact List.nodup_cons.mpr
          ⟨not_mem_grants (h.next host c) (dispatch_returned h host htarget hret).2 calls, htail⟩
    · exact htail

/-! ## Claims of other pairs -/

/-- The repository with other claims. -/
def withClaims (r : Repository) (claims : JsMap JsString ClaimRecord) : Repository :=
  { r with claims := claims }

variable {claims : JsMap JsString ClaimRecord}

/-- A live claim is found by its own key alone. -/
theorem liveClaim_withClaims {key : JsString} (hclaims : claims.get key = r.claims.get key)
    (now : Timestamp) : (r.withClaims claims).liveClaim key now = r.liveClaim key now := by
  simp [liveClaim, withClaims, hclaims]

/-- The answer of `replayParentClaim` depends on the claim of its own key alone. -/
theorem replayParentClaim_withClaims (h : Coherent r) (input : DurableParentReplayInput)
    (hlive : (r.withClaims claims).liveClaim (claimKey input.actorId input.idempotencyKey) input.now =
      r.liveClaim (claimKey input.actorId input.idempotencyKey) input.now) :
    ((r.withClaims claims).replayParentClaim input).1 = (r.replayParentClaim input).1 := by
  have hf : (r.withClaims claims).auditFaults = [] := h.faults
  rcases hl : r.liveClaim (claimKey input.actorId input.idempotencyKey) input.now with _ | record <;>
    rw [hl] at hlive
  · rw [replayParentClaim_none hl, replayParentClaim_none hlive]
  by_cases hfp : input.fingerprint = record.fingerprint
  · obtain ⟨operation, hop, -⟩ := h.claim_operation (liveClaim_eq_some.mp hl).1
    have hsteps : (r.withClaims claims).stepsFor record.operationId =
      r.stepsFor record.operationId := rfl
    rw [replayParentClaim_replay h.faults hl hfp hop, replayParentClaim_replay hf hlive hfp hop,
      hsteps]
    split_ifs <;> rfl
  · rw [replayParentClaim_conflict hl hfp, replayParentClaim_conflict hlive hfp]

/-- What a call answers under a pair does not depend on the claims of other pairs. -/
theorem exec_withClaims (h : Coherent r) (host : Host) (c : RepositoryCall) {actorId key : JsString}
    (hc : c.lookupPair = some (actorId, key))
    (hclaims : claims.get (claimKey actorId key) = r.claims.get (claimKey actorId key)) :
    (c.exec host (r.withClaims claims)).1 = (c.exec host r).1 := by
  have hlive := liveClaim_withClaims hclaims
  cases c with
  | claim input =>
    cases hc
    exact (claim_claiming h.faults input).answer_eq h
      (claim_claiming (r := r.withClaims claims) h.faults input) rfl (hlive _)
  | claimParentWithStep input =>
    cases hc
    simp only [RepositoryCall.exec]
    rcases hinput : assertParentChildClaimInput host input with e | u
    · rw [claimParentWithStep_invalid hinput, claimParentWithStep_invalid hinput]
    · exact (claimParentWithStep_claiming h.faults hinput).answer_eq h
        (claimParentWithStep_claiming (r := r.withClaims claims) h.faults hinput) rfl (hlive _)
  | replayParentClaim input =>
    cases hc
    exact replayParentClaim_withClaims h input (hlive _)
  | _ => cases hc

/-! ## The result -/

/-- What idempotency keys guarantee in a repository. -/
structure AtMostOnce (host : Host) (r : Repository) : Prop where
  /-- A claim stands for one operation, of its actor, key and fingerprint. -/
  operation : ∀ actorId key record, r.claims.get (claimKey actorId key) = some record →
    ∃ operation, r.operations.get record.operationId = some operation ∧
      operation.actorId = actorId ∧ operation.idempotencyKey = key ∧
      operation.fingerprint = record.fingerprint
  /-- While the claim of its pair lives, `claim` with the same fingerprint answers with that
  operation and adds an audit event; with another it conflicts and changes nothing. -/
  claim_live : ∀ (input : DurableMutationClaimInput) record operation,
    r.liveClaim (claimKey input.plan.actor.id input.plan.idempotencyKey) input.now = some record →
    r.operations.get record.operationId = some operation →
    r.claim input = if input.fingerprint = record.fingerprint then
        (.ok ⟨.replay, operation⟩, (r.append operation .replayed input.now none).2)
      else (.error idempotencyConflict, r)
  /-- So does `claimParentWithStep`, on an input that passes its checks, with the steps. -/
  claimParent_live : ∀ (input : DurableParentChildClaimInput) record operation,
    assertParentChildClaimInput host input = .ok () →
    r.liveClaim (claimKey input.plan.actor.id input.plan.idempotencyKey) input.now = some record →
    r.operations.get record.operationId = some operation →
    r.claimParentWithStep host input = if input.fingerprint = record.fingerprint then
        (.ok ⟨.replay, ⟨operation, r.stepsFor record.operationId⟩⟩,
          (r.append operation .replayed input.now none).2)
      else (.error idempotencyConflict, r)
  /-- An input that does not pass them is refused with the error of the check; nothing changes. -/
  claimParent_invalid : ∀ (input : DurableParentChildClaimInput) e,
    assertParentChildClaimInput host input = .error e →
    r.claimParentWithStep host input = (.error e, r)
  /-- So does `replayParentClaim`, when the operation has exactly one step; it refuses the others. -/
  replay_live : ∀ (input : DurableParentReplayInput) record operation,
    r.liveClaim (claimKey input.actorId input.idempotencyKey) input.now = some record →
    r.operations.get record.operationId = some operation →
    r.replayParentClaim input = if input.fingerprint = record.fingerprint then
        if (r.stepsFor record.operationId).length = 1 then
          (.ok (some ⟨operation, r.stepsFor record.operationId⟩),
            (r.append operation .replayed input.now none).2)
        else (.error persistenceFailed, r)
      else (.error idempotencyConflict, r)
  /-- The audit event of a replay creates nothing. -/
  replay_creates_nothing : ∀ operation now,
    (r.append operation .replayed now none).2.rows = r.rows ∧
      (r.append operation .replayed now none).2.claims = r.claims
  /-- Without a live claim of its pair, `claim` creates one operation and its claim, or fails
  because the id is taken. -/
  claim_fresh : ∀ input : DurableMutationClaimInput,
    let key := claimKey input.plan.actor.id input.plan.idempotencyKey
    let operation := operationFromClaim input input.plan.target.serviceId
      input.plan.target.containerId
    r.liveClaim key input.now = none →
    if r.operations.has operation.id then
      (r.claim input).1 = .error persistenceFailed ∧ (r.claim input).2.rows = r.rows
    else (r.claim input).1 = .ok ⟨.created, operation⟩ ∧
      (r.claim input).2.rows =
        { r.rows with operations := r.operations.set operation.id operation } ∧
      (r.claim input).2.claims.get key =
        some ⟨input.fingerprint, operation.id, input.idempotencyExpiresAt⟩
  /-- So does `claimParentWithStep`, on an input that passes its checks, with one step. -/
  claimParent_fresh : ∀ input : DurableParentChildClaimInput,
    let key := claimKey input.plan.actor.id input.plan.idempotencyKey
    let operation := operationFromClaim input.toDurableMutationClaimInput none none
    let step := stepFromClaim input
    assertParentChildClaimInput host input = .ok () → r.liveClaim key input.now = none →
    if r.operations.has operation.id ∨ r.steps.has step.id then
      (r.claimParentWithStep host input).1 = .error persistenceFailed ∧
        (r.claimParentWithStep host input).2.rows = r.rows
    else (r.claimParentWithStep host input).1 = .ok ⟨.created, ⟨operation, [step]⟩⟩ ∧
      (r.claimParentWithStep host input).2.rows = r.rows.write operation step ∧
      (r.claimParentWithStep host input).2.claims.get key =
        some ⟨input.fingerprint, operation.id, input.idempotencyExpiresAt⟩
  /-- `replayParentClaim` creates nothing and finds nothing then. -/
  replay_fresh : ∀ input : DurableParentReplayInput,
    r.liveClaim (claimKey input.actorId input.idempotencyKey) input.now = none →
    r.replayParentClaim input = (.ok none, r)
  /-- A claim and its operation stay as long as the claiming calls under its pair come before it
  expires, whatever other calls are made. -/
  lifetime : ∀ actorId key record operation, r.claims.get (claimKey actorId key) = some record →
    r.operations.get record.operationId = some operation →
    ∀ r', ReachedBy host (fun _ c => c.claimPair = some (actorId, key) →
        c.claimTime < record.expiresAt) r r' →
      r'.claims.get (claimKey actorId key) = some record ∧
        ∃ operation', r'.operations.get record.operationId = some operation' ∧
          SameOperation operation operation'
  /-- A call under another pair does not touch the claim of a pair. -/
  untouched : ∀ actorId key (c : RepositoryCall), c.claimPair ≠ some (actorId, key) →
    (c.next host r).claims.get (claimKey actorId key) = r.claims.get (claimKey actorId key)
  /-- The answer to a call under a pair does not depend on the claims of other pairs. -/
  unobserved : ∀ actorId key (c : RepositoryCall) claims, c.lookupPair = some (actorId, key) →
    claims.get (claimKey actorId key) = r.claims.get (claimKey actorId key) →
    (c.exec host (r.withClaims claims)).1 = (c.exec host r).1

/-- Coherence is all that is needed. -/
theorem Coherent.atMostOnce (h : Coherent r) (host : Host) : AtMostOnce host r where
  operation actorId key record hget := by
    obtain ⟨operation, hop, hkey, hfp⟩ := h.claim_operation hget
    obtain ⟨hactor, hkey'⟩ := claimKey_inj.mp hkey
    exact ⟨operation, hop, hactor, hkey', hfp⟩
  claim_live input _ _ hlive hop := (claim_claiming h.faults input).live hlive hop
  claimParent_live _ _ _ hinput hlive hop :=
    (claimParentWithStep_claiming h.faults hinput).live hlive hop
  claimParent_invalid input e hinput := claimParentWithStep_invalid hinput
  replay_live input record operation hlive hop := by
    by_cases hfp : input.fingerprint = record.fingerprint
    · rw [if_pos hfp]
      exact replayParentClaim_replay h.faults hlive hfp hop
    · rw [if_neg hfp]
      exact replayParentClaim_conflict hlive hfp
  replay_creates_nothing operation now := ⟨append_rows .., (extends_append ..).claims⟩
  claim_fresh input hlive := (claim_claiming h.faults input).leaves hlive
  claimParent_fresh _ hinput hlive :=
    (claimParentWithStep_claiming h.faults hinput).leaves hlive
  replay_fresh input hlive := replayParentClaim_none hlive
  lifetime actorId key record operation hget hop r' hrun := by
    -- the claim and its operation are kept along the run with the coherence that protects them
    refine (hrun.induct (fun r' => Coherent r' ∧ r'.claims.get (claimKey actorId key) = some record ∧
      ∃ operation', r'.operations.get record.operationId = some operation' ∧
        SameOperation operation operation') ⟨h, hget, operation, hop, rfl, rfl, rfl, rfl, rfl⟩ ?_).2
    rintro r₁ c hc ⟨h₁, hget₁, operation₁, hop₁, same₁⟩
    obtain ⟨operation₂, hop₂, same₂⟩ := (next_rowChange host c h₁.wf).operation hop₁
    exact ⟨h₁.next host c, claims_get_next_of_live host h₁ c hget₁ hc, operation₂, hop₂,
      same₁.trans same₂⟩
  untouched actorId key c hc := claims_get_next host h c hc
  unobserved actorId key c claims hc hclaims := exec_withClaims h host c hc hclaims

/-- After any sequence of calls, idempotency keys guarantee at most one operation each, and no
operation was granted more than one dispatch. -/
theorem claims_at_most_once (host : Host) (calls : List RepositoryCall) :
    AtMostOnce host ((initial []).run host calls) ∧ (grants host (initial []) calls).Nodup :=
  ⟨((reachedBy_run host _ calls).coherent initial_coherent).atMostOnce host,
    grants_nodup initial_coherent calls⟩

/-- `replayParentClaim` does not return the operation that `claim` created for the same pair and
fingerprint. -/
theorem replayParentClaim_refuses_plain_claim :
    let input := sampleClaim "op" "key-1" 1
    let r := (RepositoryCall.claim input).next plainHost (initial [])
    (r.replayParentClaim
      ⟨input.plan.actor.id, input.plan.idempotencyKey, input.fingerprint, 2⟩).1 =
      .error persistenceFailed := by
  decide +kernel

end InMemoryDurableMutationRepository

end ZimaControl
