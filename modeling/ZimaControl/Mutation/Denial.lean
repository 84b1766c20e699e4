import ZimaControl.Mutation.WellFormed

/-!
# What the steps say about effects

A step is dispatched once its external request is authorised. A step or an operation denies its
effect when its status says that nothing was done outside: `REJECTED`, `TIMED_OUT`, or `FAILED` with
effect `NOT_STARTED`. `next_stepChange` says for every call on operations with steps which
operations it can dispatch and which it can make deny.
-/

namespace ZimaControl

open JsMap

/-- A status and an effect that say that nothing was done outside. -/
def deniesEffect (status : ActionStatus) (effect : ExternalEffectState) : Bool :=
  status = .rejected ∨ status = .timedOut ∨ status = .failed ∧ effect = .notStarted

/-- Only ended steps deny. -/
theorem isTerminal_of_deniesEffect {status : ActionStatus} {effect : ExternalEffectState}
    (h : deniesEffect (parentStatus status) effect = true) : status.isTerminal = true := by
  cases status <;> first | rfl | simp [deniesEffect, parentStatus] at h

/-- A step denies only if its parent does. -/
theorem deniesEffect_parentStatus {status : ActionStatus} {effect : ExternalEffectState}
    (h : deniesEffect status effect = true) : deniesEffect (parentStatus status) effect = true := by
  cases status <;> first | exact h | simp [deniesEffect] at h

/-- Some step of an operation has a property. -/
def StepOf (steps : JsMap JsString OperationStep) (operationId : JsString)
    (P : OperationStep → Prop) : Prop :=
  ∃ id step, steps.get id = some step ∧ step.parentOperationId = operationId ∧ P step

namespace StepOf

variable {steps : JsMap JsString OperationStep} {operationId : JsString}
  {P : OperationStep → Prop} {step step' : OperationStep}

/-- After a write, a step was there before or is the written one. -/
theorem of_set (h : StepOf (steps.set step'.id step') operationId P) :
    StepOf steps operationId P ∨ step'.parentOperationId = operationId ∧ P step' := by
  obtain ⟨id, s, hs, hparent, hP⟩ := h
  rcases get_set_eq_some.mp hs with ⟨-, rfl⟩ | ⟨-, hs⟩
  · exact .inr ⟨hparent, hP⟩
  · exact .inl ⟨id, s, hs, hparent, hP⟩

/-- A write that keeps the property of the step it replaces keeps it for every operation. -/
theorem set (h : StepOf steps operationId P) (hget : steps.get step.id = some step)
    (hid : step'.id = step.id) (hparent : step'.parentOperationId = step.parentOperationId)
    (hP : P step → P step') : StepOf (steps.set step'.id step') operationId P := by
  obtain ⟨id, s, hs, hop, hs'⟩ := h
  by_cases heq : step'.id = id
  · rw [← heq, hid, hget] at hs
    cases hs
    exact ⟨step'.id, step', get_set_self _ _ _, hparent.trans hop, hP hs'⟩
  · exact ⟨id, s, by rw [get_set_of_ne _ _ heq, hs], hop, hs'⟩

/-- A new step leaves the others. -/
theorem insert (h : StepOf steps operationId P) (habsent : steps.get step.id = none) :
    StepOf (steps.set step.id step) operationId P := by
  obtain ⟨id, s, hs, hop, hs'⟩ := h
  exact ⟨id, s, get_set_of_absent _ _ habsent hs, hop, hs'⟩

end StepOf

variable {step : OperationStep} {operation : Operation}

namespace Rows

/-- An operation has a step. -/
def HasStep (rows : Rows) (operationId : JsString) : Prop :=
  StepOf rows.steps operationId fun _ => True

/-- The step of an operation is dispatched. -/
def Dispatched (rows : Rows) (operationId : JsString) : Prop :=
  StepOf rows.steps operationId (·.dispatchAuthorizedAt.isSome = true)

/-- The step of an operation denies its effect, or its parent does by following it. -/
def Denied (rows : Rows) (operationId : JsString) : Prop :=
  StepOf rows.steps operationId fun step =>
    deniesEffect (parentStatus step.status) step.externalEffect = true

/-- Parents follow their steps. -/
def Mirrored (rows : Rows) : Prop :=
  ∀ id step, rows.steps.get id = some step → ∃ operation,
    rows.operations.get step.parentOperationId = some operation ∧
      operation.status = parentStatus step.status ∧ operation.externalEffect = step.externalEffect

/-- What a call may do to the steps: which operations it may dispatch, and which it may make deny
their effect. -/
structure StepChange (before after : Rows) (denies dispatches : JsString → Prop) : Prop where
  wf : after.Wf
  mirrored : after.Mirrored
  hasStep : ∀ o, before.HasStep o → after.HasStep o
  /-- A new operation has a step. -/
  parents : ∀ o operation, after.operations.get o = some operation →
    (∃ operation', before.operations.get o = some operation') ∨ after.HasStep o
  dispatched : ∀ o, before.Dispatched o → after.Dispatched o
  denied : ∀ o, before.Denied o → after.Denied o
  /-- Only an operation that does not deny its effect is dispatched. -/
  dispatches : ∀ o, after.Dispatched o → before.Dispatched o ∨ dispatches o ∧ ¬ before.Denied o
  denies : ∀ o, after.Denied o → before.Denied o ∨ denies o

variable {rows rows' : Rows} {denies dispatches : JsString → Prop}

/-- A step that does not deny its effect is the only one of its operation. -/
theorem Wf.not_denied (h : rows.Wf) (hget : rows.steps.get step.id = some step)
    (hstep : deniesEffect (parentStatus step.status) step.externalEffect = false) :
    ¬ rows.Denied step.parentOperationId := by
  rintro ⟨id, s, hs, hparent, hdenies⟩
  rw [h.step_unique hs hget hparent, hget] at hs
  cases hs
  exact absurd hdenies (by simp [hstep])

namespace StepChange

/-- Locks and fences play no part. -/
theorem of_eq (hwf : rows'.Wf) (h : rows.Mirrored) (hsteps : rows'.steps = rows.steps)
    (hoperations : rows'.operations = rows.operations) : StepChange rows rows' denies dispatches where
  wf := hwf
  mirrored := by rwa [Mirrored, hsteps, hoperations]
  hasStep o ho := by rwa [HasStep, hsteps]
  parents o operation ho := .inl ⟨operation, by rwa [hoperations] at ho⟩
  dispatched o ho := by rwa [Dispatched, hsteps]
  denied o ho := by rwa [Denied, hsteps]
  dispatches o ho := .inl (by rwa [Dispatched, hsteps] at ho)
  denies o ho := .inl (by rwa [Denied, hsteps] at ho)

/-- A new operation with its step, which is neither dispatched nor ended. -/
theorem insertStep (h : rows.Mirrored) (habsent : rows.operations.get operation.id = none)
    (habsent' : rows.steps.get step.id = none) (hparent : step.parentOperationId = operation.id)
    (hstatus : operation.status = parentStatus step.status)
    (heffect : operation.externalEffect = step.externalEffect)
    (hlive : step.status.isTerminal = false) (hdispatch : step.dispatchAuthorizedAt = none)
    (hwf' : (rows.write operation step).Wf) :
    StepChange rows (rows.write operation step) denies dispatches where
  wf := hwf'
  mirrored id s hs := by
    rcases get_set_eq_some.mp hs with ⟨-, rfl⟩ | ⟨-, hs⟩
    · exact ⟨operation, by rw [hparent]; exact get_set_self _ _ _, hstatus, heffect⟩
    · obtain ⟨op, hop, hmirror⟩ := h id s hs
      exact ⟨op, get_set_of_absent _ _ habsent hop, hmirror⟩
  hasStep _ ho := StepOf.insert ho habsent'
  parents o op ho := by
    simp only [write, get_set] at ho
    split_ifs at ho with hid
    · exact .inr ⟨step.id, step, get_set_self _ _ _, hparent.trans hid, trivial⟩
    · exact .inl ⟨op, ho⟩
  dispatched _ ho := StepOf.insert ho habsent'
  denied _ ho := StepOf.insert ho habsent'
  dispatches o ho := by
    rcases StepOf.of_set ho with ho | ⟨-, ho⟩
    · exact .inl ho
    · simp [hdispatch] at ho
  denies o ho := by
    rcases StepOf.of_set ho with ho | ⟨-, ho⟩
    · exact .inl ho
    · rw [isTerminal_of_deniesEffect ho] at hlive
      cases hlive

/-- A live step is replaced, and its parent follows. -/
theorem write {r : Repository} (hwf : r.rows.Wf) (h : r.rows.Mirrored)
    {operation updated : Operation} {step step' : OperationStep}
    (w : InMemoryDurableMutationRepository.StepWrite r operation step step' updated)
    (hlive : step.status.isTerminal = false)
    (hdenies : deniesEffect (parentStatus step'.status) step'.externalEffect = true →
      denies operation.id) {rows' : Rows} (hwf' : rows'.Wf)
    (hsteps : rows'.steps = r.steps.set step'.id step')
    (hoperations : rows'.operations = r.operations.set updated.id updated) :
    StepChange r.rows rows' denies dispatches where
  wf := hwf'
  mirrored id s hs := by
    rw [hsteps, get_set] at hs
    rw [hoperations, w.sameOperation.id]
    split_ifs at hs with hid
    · cases hs
      refine ⟨updated, ?_, w.status, w.effect⟩
      rw [w.sameStep.parentOperationId, w.parent, get_set_self]
    -- Another step has another parent.
    obtain ⟨op, hop, hmirror⟩ := h id s hs
    refine ⟨op, ?_, hmirror⟩
    rw [get_set_of_ne]
    · exact hop
    · intro heq
      have := hwf.step_unique w.step_get hs (by rw [w.parent, heq])
      exact hid (by rw [w.sameStep.id, this])
  hasStep o ho := by
    rw [HasStep, hsteps]
    exact StepOf.set ho w.step_get w.sameStep.id w.sameStep.parentOperationId fun _ => trivial
  parents o op ho := by
    rw [hoperations, get_set] at ho
    split_ifs at ho with hid
    · exact .inl ⟨operation, by rw [← hid, w.sameOperation.id]; exact w.operation_get⟩
    · exact .inl ⟨op, ho⟩
  dispatched o ho := by
    rw [Dispatched, hsteps]
    exact StepOf.set ho w.step_get w.sameStep.id w.sameStep.parentOperationId
      fun hs => by rwa [w.dispatch]
  denied o ho := by
    rw [Denied, hsteps]
    refine StepOf.set ho w.step_get w.sameStep.id w.sameStep.parentOperationId fun hs => ?_
    rw [isTerminal_of_deniesEffect hs] at hlive
    cases hlive
  dispatches o ho := by
    rw [Dispatched, hsteps] at ho
    rcases StepOf.of_set ho with ho | ⟨hparent, ho⟩
    · exact .inl ho
    · rw [w.dispatch] at ho
      exact .inl ⟨step.id, step, w.step_get, w.sameStep.parentOperationId.symm.trans hparent, ho⟩
  denies o ho := by
    rw [Denied, hsteps] at ho
    rcases StepOf.of_set ho with ho | ⟨hparent, ho⟩
    · exact .inl ho
    · right
      rw [← hparent, w.sameStep.parentOperationId, w.parent]
      exact hdenies ho

/-- A live step is dispatched. -/
theorem dispatch (hwf : rows.Wf) (h : rows.Mirrored) (step' : OperationStep)
    (hget : rows.steps.get step.id = some step) (hid : step'.id = step.id)
    (hparent : step'.parentOperationId = step.parentOperationId)
    (hstatus : step'.status = step.status) (heffect : step'.externalEffect = step.externalEffect)
    (hdispatch : step'.dispatchAuthorizedAt.isSome = true) (hlive : step.status.isTerminal = false)
    (hdispatches : dispatches step.parentOperationId)
    (hwf' : Wf { rows with steps := rows.steps.set step'.id step' }) :
    StepChange rows { rows with steps := rows.steps.set step'.id step' } denies dispatches where
  wf := hwf'
  mirrored id s hs := by
    rcases get_set_eq_some.mp hs with ⟨-, rfl⟩ | ⟨-, hs⟩
    · rw [hparent, hstatus, heffect]
      exact h step.id step hget
    · exact h id s hs
  hasStep o ho := StepOf.set ho hget hid hparent fun _ => trivial
  parents o operation ho := .inl ⟨operation, ho⟩
  dispatched o ho := StepOf.set ho hget hid hparent fun _ => hdispatch
  denied o ho := StepOf.set ho hget hid hparent fun hs => by rwa [hstatus, heffect]
  dispatches o ho := by
    rcases StepOf.of_set ho with ho | ⟨ho, -⟩
    · exact .inl ho
    rw [hparent] at ho
    subst ho
    refine .inr ⟨hdispatches, hwf.not_denied hget ?_⟩
    by_contra hdenies
    rw [isTerminal_of_deniesEffect (by simpa using hdenies)] at hlive
    cases hlive
  denies o ho := by
    rcases StepOf.of_set ho with ho | ⟨ho, hs⟩
    · exact .inl ho
    · exact .inl ⟨step.id, step, hget, hparent.symm.trans ho, by rwa [hstatus, heffect] at hs⟩

end StepChange

end Rows

/-! ## Calls -/

namespace RepositoryCall

/-- The calls on operations with steps: all but the two that write an operation alone. -/
def ofSteps : RepositoryCall → Bool
  | claim _ | transitionWithAudit _ => false
  | _ => true

/-- The operations that a call may make deny their effect. -/
def Denies (r : Repository) : RepositoryCall → JsString → Prop
  | rejectParentChildBeforeOwnership operationId .., o => operationId = o
  | transitionStepWithAudit input, o => input.operationId = o ∧ input.status.isTerminal = true
  | finalizeStepAndParent input, o => input.operationId = o ∧
    deniesEffect (parentStatus input.status) input.externalEffect = true
  | recoverStepAndParent operationId .., o => operationId = o ∧ ¬ r.rows.Dispatched o
  | _, _ => False

end RepositoryCall

namespace InMemoryDurableMutationRepository

variable {r : Repository}

/-- A dropped lock is no change of operations. -/
@[simp] theorem dropLock_operations (rows : Rows) (drop : Bool) (key : JsString) :
    (rows.dropLock drop key).operations = rows.operations := by
  cases drop <;> rfl

/-- A dropped lock is no change of steps. -/
@[simp] theorem dropLock_steps (rows : Rows) (drop : Bool) (key : JsString) :
    (rows.dropLock drop key).steps = rows.steps := by
  cases drop <;> rfl

/-- The step that an authorised dispatch marks. -/
theorem stepChange_dispatch (denies : JsString → Prop) (h : r.rows.Wf) (hm : r.rows.Mirrored)
    {input : MutationStepDispatchAuthorizationInput}
    (hchecks : r.stepDispatchChecks input = .ok (operation, step)) :
    Rows.StepChange r.rows { r.rows with
      steps := r.steps.set step.id (dispatchedStep step input.fencingToken input.now) }
      denies (some input.operationId = some ·) := by
  obtain ⟨hget, hsame⟩ := stepDispatchChecks_same h hchecks
  obtain ⟨-, -, hparent, -, -, hexecuting, -⟩ := stepDispatchChecks_ok hchecks
  exact .dispatch h hm (dispatchedStep step input.fencingToken input.now) hget rfl rfl rfl rfl rfl
    (by rw [hexecuting]; rfl) (by rw [hparent]) ((RowChange.dispatch hget hsame).wf h)

/-- What a call does to the steps. -/
theorem next_stepChange (host : Host) (c : RepositoryCall) (h : r.rows.Wf) (hm : r.rows.Mirrored)
    (hc : c.ofSteps = true) :
    Rows.StepChange r.rows (c.next host r).rows (c.Denies r) (c.dispatchTarget = some ·) := by
  have hwf := next_wf host c h
  have hchange := next_callChange host c h
  generalize (c.next host r).rows = rows' at hwf hchange ⊢
  cases hchange with
  | same => exact .of_eq h hm rfl rfl
  | claimed => cases hc
  | created _ hoperation hstep absent absentStep =>
    subst hoperation hstep
    exact .insertStep hm absent absentStep rfl rfl rfl rfl rfl hwf
  | rejected _ _ _ _ checks written =>
    obtain ⟨hop, -, -, -, hvalidated, -⟩ := rejectChecks_eq_ok.mp checks
    exact .write h hm written.toStepWrite (by rw [hvalidated]; rfl)
      (fun _ => (h.operation_id hop).symm) hwf rfl rfl
  | transitioned _ checks written =>
    obtain ⟨hop, -, -, -, -, -, -, hnext, -⟩ := stepTransitionChecks_eq_ok.mp checks
    exact .write h hm written.toStepWrite (ActionStatus.isTerminal_eq_false_of_mem hnext)
      (fun hd => ⟨(h.operation_id hop).symm, isTerminal_of_deniesEffect hd⟩) hwf rfl rfl
  | finalized _ checks written =>
    obtain ⟨-, hop, -, -, -, -, -, -, hnext, -⟩ := finalizeChecks_eq_ok.mp checks
    exact .write h hm written.toStepWrite (ActionStatus.isTerminal_eq_false_of_mem hnext)
      (fun hd => ⟨(h.operation_id hop).symm, hd⟩) hwf (by simp [Rows.write, rows])
      (by simp [Rows.write, rows])
  | recovered _ _ _ _ checks live _ written =>
    obtain ⟨hop, hst, hparent, -⟩ := recoverChecks_eq_ok.mp checks
    refine .write h hm written.toStepWrite live (fun hd => ⟨(h.operation_id hop).symm, ?_⟩) hwf
      (by simp [Rows.write, rows]) (by simp [Rows.write, rows])
    -- A dispatched step is recovered as indeterminate.
    rintro ⟨id, s, hs, hsparent, hdispatched⟩
    rw [h.step_unique hs written.step_get (by rw [hsparent, written.parent]), rows,
      written.step_get] at hs
    cases hs
    simp [recoveredStep, recoveryStatus, recoveryUncertain, hdispatched, parentStatus,
      deniesEffect] at hd
  | dispatched c input target checks =>
    rw [target]
    exact stepChange_dispatch _ h hm checks
  | moved => cases hc
  | granted | recoveryGranted | renewed | released => exact .of_eq hwf hm rfl rfl

/-- A denied effect stays denied, whatever is called. -/
theorem next_denied (host : Host) (c : RepositoryCall) (h : r.rows.Wf) (hm : r.rows.Mirrored)
    {o : JsString} (ho : r.rows.Denied o) : (c.next host r).rows.Denied o := by
  cases hc : c.ofSteps with
  | true => exact (next_stepChange host c h hm hc).denied o ho
  | false =>
    -- The other two calls write no step.
    have hchange := next_callChange host c h
    generalize (c.next host r).rows = rows' at hchange ⊢
    cases hchange with
    | same | claimed => exact ho
    | moved => rwa [Rows.Denied, dropLock_steps]
    | dispatched c => cases c <;> cases hc <;> contradiction
    | _ => cases hc

variable {value : DurableParentChildOperation} {input : DurableParentChildClaimInput}

/-- A created operation is new; it is written with its step. -/
theorem claimParentWithStep_written {host : Host}
    (h : (r.claimParentWithStep host input).1 = .ok ⟨.created, value⟩) :
    let operation := operationFromClaim input.toDurableMutationClaimInput none none
    value = ⟨operation, [stepFromClaim input]⟩ ∧ r.operations.get operation.id = none ∧
      (r.claimParentWithStep host input).2.rows =
        r.rows.write operation (stepFromClaim input) := by
  intro operation
  by_cases hnew : assertParentChildClaimInput host input = .ok () ∧
    r.liveClaim input.key input.now = none
  · rw [claimParentWithStep_of_none hnew.1 hnew.2] at h ⊢
    split_ifs at h ⊢ with hhas
    simp only [has, not_or, Bool.not_eq_true, Option.isSome_eq_false_iff,
      Option.isNone_iff_eq_none] at hhas
    rcases createParentWithStep_settles (r := r.dropClaim _) _ _ input hhas.1 hhas.2 with
      ⟨-, ⟨e, he⟩, -⟩ | ⟨-, hok, hrows⟩
    · rw [he] at h
      cases h
    · rw [hok] at h
      cases h
      exact ⟨rfl, hhas.1, hrows⟩
  · -- A live claim answers with a replay.
    rcases claimParentWithStep_of_live (r := r) fun hinput hlive => hnew ⟨hinput, hlive⟩ with
      ⟨⟨e, he⟩, -⟩ | ⟨_, hok, -⟩
    · rw [he] at h
      cases h
    · rw [hok] at h
      cases h

/-- A created operation is new and has a step. -/
theorem claimParentWithStep_created {host : Host}
    (h : (r.claimParentWithStep host input).1 = .ok ⟨.created, value⟩) :
    r.operations.get value.operation.id = none ∧
      (r.claimParentWithStep host input).2.rows.HasStep value.operation.id := by
  obtain ⟨rfl, habsent, hrows⟩ := claimParentWithStep_written h
  refine ⟨habsent, ?_⟩
  rw [hrows]
  exact ⟨input.stepId, stepFromClaim input, get_set_self _ _ _, rfl, trivial⟩

/-- Once `authorizeDispatch` has returned, the step of the operation is dispatched. -/
theorem authorizeDispatch_dispatched (h : r.rows.Wf) {input : MutationDispatchAuthorizationInput}
    (hstep : r.rows.HasStep input.operationId)
    (hok : (r.authorizeDispatch input).1 = .ok operation) :
    (r.authorizeDispatch input).2.rows.Dispatched input.operationId := by
  rcases authorizeDispatch_rows h input with
    ⟨⟨e, he⟩, -⟩ | ⟨op, -, hnone, -⟩ | ⟨op, step, stepInput, hid, hchecks, -, heq⟩
  · rw [he] at hok
    cases hok
  · -- An operation with a step is not dispatched as one without.
    obtain ⟨id, step, hget, hparent, -⟩ := hstep
    have hsingle : r.stepsFor step.parentOperationId = [step] :=
      stepsFor_eq_singleton h.step_id h.step_unique (by rw [h.step_id hget]; exact hget)
    rw [hparent, hnone] at hsingle
    cases hsingle
  · obtain ⟨-, -, hparent, -⟩ := stepDispatchChecks_ok hchecks
    rw [heq]
    exact ⟨step.id, _, get_set_self _ _ _, hparent.trans hid, rfl⟩

/-- A step found among those of an operation tells whether the operation is dispatched. -/
theorem findOperationWithSteps_dispatched (h : r.rows.Wf) {operationId : JsString}
    (hfind : r.findOperationWithSteps operationId = some value) (hstep : step ∈ value.steps)
    (hd : step.dispatchAuthorizedAt = none) : ¬ r.rows.Dispatched operationId := by
  obtain ⟨operation, -, rfl⟩ := Option.map_eq_some_iff.mp hfind
  obtain ⟨hmem, hparent⟩ : step ∈ r.steps.values ∧ step.parentOperationId = operationId := by
    simpa [stepsFor] using hstep
  obtain ⟨id, hget⟩ := (r.steps.mem_values_iff step).mp hmem
  rintro ⟨id', s, hs, hparent', hdispatched⟩
  rw [h.step_unique hs hget (hparent'.trans hparent.symm), rows, hget] at hs
  cases hs
  simp [hd] at hdispatched

end InMemoryDurableMutationRepository

end ZimaControl
