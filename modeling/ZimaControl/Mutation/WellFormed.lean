import ZimaControl.Mutation.MethodRows

/-!
# The rows stay well formed

Every call keeps `Rows.Wf`, so every reachable repository has it.
-/

namespace ZimaControl

open JsMap

namespace Rows.Wf

variable {rows : Rows}

/-- The empty rows are well formed. -/
theorem empty : Wf ⟨∅, ∅, ∅, ∅⟩ where
  operation_id h := by cases h
  step_id h := by cases h
  step_parent h := by cases h
  step_unique h := by cases h
  lock_owner h := by cases h

section

variable (h : rows.Wf)
include h

/-- Fences play no part. -/
theorem setFences (fences : JsMap JsString ℕ) : Wf { rows with fences := fences } where
  operation_id := h.operation_id
  step_id := h.step_id
  step_parent := h.step_parent
  step_unique := h.step_unique
  lock_owner := h.lock_owner

variable {op : Operation}

/-- A new operation, or a new version of one with its key. -/
theorem putOperation
    (hkey : ∀ o, rows.operations.get op.id = some o → op.operationKey = o.operationKey) :
    Wf { rows with operations := rows.operations.set op.id op } := by
  -- Every operation is still there, with its key.
  have hkeep : ∀ {id o}, rows.operations.get id = some o → ∃ o',
      (rows.operations.set op.id op).get id = some o' ∧ o'.operationKey = o.operationKey := by
    intro id o ho
    exact exists_get_set _ ho (hkey o) rfl
  refine ⟨?_, h.step_id, ?_, h.step_unique, ?_⟩
  · intro id o ho
    rcases get_set_eq_some.mp ho with ⟨hid, rfl⟩ | ⟨-, ho⟩
    · exact hid
    · exact h.operation_id ho
  · intro id step hs
    obtain ⟨o, ho⟩ := h.step_parent hs
    obtain ⟨o', ho', -⟩ := hkeep ho
    exact ⟨o', ho'⟩
  · intro key lease hl
    obtain ⟨hkey, o, ho, hokey⟩ := h.lock_owner hl
    obtain ⟨o', ho', hokey'⟩ := hkeep ho
    exact ⟨hkey, o', ho', hokey'.trans hokey⟩

/-- A new version of an operation. -/
theorem setOperation {op op' : Operation}
    (hget : rows.operations.get op.id = some op) (same : SameOperation op op') :
    Wf { rows with operations := rows.operations.set op'.id op' } := by
  refine h.putOperation fun o ho => ?_
  rw [same.id, hget] at ho
  cases ho
  exact same.operationKey

/-- A new operation. -/
theorem insertOperation (hnone : rows.operations.get op.id = none) :
    Wf { rows with operations := rows.operations.set op.id op } := by
  refine h.putOperation fun o ho => ?_
  rw [hnone] at ho
  cases ho

/-- The only step of an operation that is there. -/
theorem putStep {step : OperationStep}
    (hparent : ∃ op, rows.operations.get step.parentOperationId = some op)
    (honly : ∀ {id s}, rows.steps.get id = some s → s.parentOperationId = step.parentOperationId →
      id = step.id) :
    Wf { rows with steps := rows.steps.set step.id step } := by
  refine ⟨h.operation_id, ?_, ?_, ?_, h.lock_owner⟩
  · intro id s hs
    rcases get_set_eq_some.mp hs with ⟨hid, rfl⟩ | ⟨-, hs⟩
    · exact hid
    · exact h.step_id hs
  · intro id s hs
    rcases get_set_eq_some.mp hs with ⟨-, rfl⟩ | ⟨-, hs⟩
    · exact hparent
    · exact h.step_parent hs
  · intro i j s t hs ht hst
    rcases get_set_eq_some.mp hs with ⟨hi, rfl⟩ | ⟨hi, hs⟩ <;>
      rcases get_set_eq_some.mp ht with ⟨hj, rfl⟩ | ⟨hj, ht⟩
    · rw [← hi, ← hj]
    · exact absurd (honly ht hst.symm).symm hj
    · exact absurd (honly hs hst).symm hi
    · exact h.step_unique hs ht hst

/-- A new version of a step. -/
theorem setStep {step step' : OperationStep} (hget : rows.steps.get step.id = some step)
    (same : SameStep step step') : Wf { rows with steps := rows.steps.set step'.id step' } := by
  refine h.putStep ?_ fun hs hparent => ?_
  · rw [same.parentOperationId]
    exact h.step_parent hget
  · rw [same.id]
    exact h.step_unique hs hget (hparent.trans same.parentOperationId)

/-- A lock for an operation of its key. -/
theorem setLock (lease : MutationLease) (hop : ∃ op,
    rows.operations.get lease.ownerOperationId = some op ∧ op.operationKey = lease.operationKey) :
    Wf { rows with locks := rows.locks.set lease.operationKey lease } := by
  refine ⟨h.operation_id, h.step_id, h.step_parent, h.step_unique, ?_⟩
  intro key l hl
  rcases get_set_eq_some.mp hl with ⟨rfl, rfl⟩ | ⟨-, hl⟩
  · exact ⟨rfl, hop⟩
  · exact h.lock_owner hl

/-- A lock removed. -/
theorem deleteLock (key : JsString) : Wf { rows with locks := rows.locks.delete key } := by
  refine ⟨h.operation_id, h.step_id, h.step_parent, h.step_unique, ?_⟩
  intro k l hl
  simp only [get_delete] at hl
  split_ifs at hl
  exact h.lock_owner hl

/-- A lock removed or kept. -/
theorem dropLock (drop : Bool) (key : JsString) : (rows.dropLock drop key).Wf := by
  cases drop with
  | false => exact h
  | true => exact h.deleteLock key

end

end Rows.Wf

namespace InMemoryDurableMutationRepository

variable {r : Repository}

/-- What a call writes to the rows, with what its checks found. -/
inductive CallChange (r : Repository) : RepositoryCall → Rows → Prop
  /-- The call reads, or it is refused. -/
  | same (c : RepositoryCall) : CallChange r c r.rows
  | claimed (input : DurableMutationClaimInput) {operation : Operation}
      (claim : operation = operationFromClaim input input.plan.target.serviceId
        input.plan.target.containerId) (absent : r.operations.get operation.id = none) :
      CallChange r (.claim input)
        { r.rows with operations := r.operations.set operation.id operation }
  | created (input : DurableParentChildClaimInput) {operation : Operation}
      {step : OperationStep}
      (claim : operation = operationFromClaim input.toDurableMutationClaimInput none none)
      (claimStep : step = stepFromClaim input) (absent : r.operations.get operation.id = none)
      (absentStep : r.steps.get step.id = none) :
      CallChange r (.claimParentWithStep input) (r.rows.write operation step)
  | rejected (operationId childStepId : JsString) (now : Timestamp) (reasonCode : MutationErrorCode)
      {operation updated : Operation} {step : OperationStep}
      (checks : r.rejectChecks operationId childStepId = .ok (operation, step))
      (written : StepWritten r operation step (rejectedStep step now reasonCode) updated) :
      CallChange r (.rejectParentChildBeforeOwnership operationId childStepId now reasonCode)
        (r.rows.write updated (rejectedStep step now reasonCode))
  | transitioned (input : DurableStepTransitionInput)
      {operation updated : Operation} {step : OperationStep}
      (checks : r.stepTransitionChecks input = .ok (operation, step))
      (written : StepWritten r operation step (applyStepTransition step input) updated) :
      CallChange r (.transitionStepWithAudit input)
        (r.rows.write updated (applyStepTransition step input))
  | finalized (input : DurableStepFinalizationInput)
      {operation updated : Operation} {step : OperationStep}
      (checks : r.finalizeChecks input = .ok (operation, step))
      (written : StepWritten r operation step (applyStepFinalization step input) updated) :
      CallChange r (.finalizeStepAndParent input)
        ((r.rows.write updated (applyStepFinalization step input)).dropLock
          (updated.status ≠ .indeterminate) operation.operationKey)
  | recovered (operationId childStepId : JsString) (lease : MutationLease) (now : Timestamp)
      {operation updated : Operation} {step : OperationStep}
      (checks : r.recoverChecks operationId childStepId lease now = .ok (operation, step))
      (live : step.status.isTerminal = false)
      (allowed : transitionAllowedForRecovery step.status (recoveryStatus step) = true)
      (written : StepWritten r operation step (recoveredStep step lease now) updated) :
      CallChange r (.recoverStepAndParent operationId childStepId lease now)
        ((r.rows.write updated (recoveredStep step lease now)).dropLock
          (!recoveryUncertain step) operation.operationKey)
  /-- Both calls that authorise a dispatch mark the step. -/
  | dispatched (c : RepositoryCall) (input : MutationStepDispatchAuthorizationInput)
      {operation : Operation} {step : OperationStep}
      (target : c.dispatchTarget = some input.operationId)
      (checks : r.stepDispatchChecks input = .ok (operation, step)) :
      CallChange r c { r.rows with
        steps := r.steps.set step.id (dispatchedStep step input.fencingToken input.now) }
  | moved (input : DurableTransitionInput) {current : Operation}
      (checks : r.transitionChecks input = .ok current) :
      CallChange r (.transitionWithAudit input) (Rows.dropLock
        { r.rows with operations := r.operations.set current.id (applyTransition current input) }
        (transitionDrops input) current.operationKey)
  | granted (operationKey operationId : JsString) (now leaseExpiresAt : Timestamp)
      (owner : ∃ operation, r.operations.get operationId = some operation ∧
        operation.operationKey = operationKey) (free : r.LockFree operationKey) :
      CallChange r (.acquireLease operationKey operationId now leaseExpiresAt)
        (r.grantedRows operationKey operationId now leaseExpiresAt)
  | recoveryGranted (operationKey operationId : JsString) (now leaseExpiresAt : Timestamp)
      (owner : ∃ operation, r.operations.get operationId = some operation ∧
        operation.operationKey = operationKey)
      (expired : ∀ lock, r.locks.get operationKey = some lock → lock.leaseExpiresAt ≤ now ∧
        r.statusOf lock.ownerOperationId ≠ some .indeterminate) :
      CallChange r (.acquireRecoveryLease operationKey operationId now leaseExpiresAt)
        (r.grantedRows operationKey operationId now leaseExpiresAt)
  | renewed (lease : MutationLease) (now leaseExpiresAt : Timestamp) {current : MutationLease}
      (lock : r.locks.get current.operationKey = some current) :
      CallChange r (.renewLease lease now leaseExpiresAt) { r.rows with
        locks := r.locks.set current.operationKey { current with leaseExpiresAt := leaseExpiresAt } }
  | released (lease : MutationLease) {current : MutationLease} {status : ActionStatus}
      (lock : r.locks.get lease.operationKey = some current)
      (owner : r.statusOf current.ownerOperationId = some status)
      (settled : status.isSettled = true) :
      CallChange r (.releaseLease lease) { r.rows with locks := r.locks.delete lease.operationKey }

theorem CallChange.of_eq {c : RepositoryCall} {rows rows' : Rows} (heq : rows' = rows)
    (h : CallChange r c rows) : CallChange r c rows' := heq ▸ h

/-- Every call changes the rows in the way of its method. -/
theorem next_callChange (host : Host) (c : RepositoryCall) (h : r.rows.Wf) :
    CallChange r c (c.next host r).rows := by
  have hsame : (c.next host r).rows = r.rows → CallChange r c (c.next host r).rows :=
    fun heq => .of_eq heq (.same c)
  cases c with
  | claim input =>
    rcases claim_rows (r := r) input with heq | ⟨hnone, heq⟩
    · exact hsame heq
    · exact .of_eq heq (.claimed input rfl hnone)
  | claimParentWithStep input =>
    rcases claimParentWithStep_rows (r := r) host input with heq | ⟨hnone, hnone', heq⟩
    · exact hsame heq
    · exact .of_eq heq (.created input rfl rfl hnone hnone')
  | replayParentClaim input =>
    rcases replayParentClaim_answers (r := r) input with ⟨-, hback⟩ | ⟨-, heq⟩
    · exact hsame hback.rows
    · exact hsame heq
  -- the methods on a step: refused, undone after a failed append, or both rows written
  | rejectParentChildBeforeOwnership operationId childStepId now reasonCode =>
    rcases checked_settles (rejectParentChildBeforeOwnership_settles h now reasonCode) with
      ⟨-, hback⟩ | ⟨_, _, hchecks, w, -, heq⟩
    · exact hsame hback.rows
    · exact .of_eq heq (.rejected _ _ _ _ hchecks w)
  | transitionStepWithAudit input =>
    rcases checked_settles (transitionStepWithAudit_settles h) with
      ⟨-, hback⟩ | ⟨_, _, hchecks, w, -, heq⟩
    · exact hsame hback.rows
    · exact .of_eq heq (.transitioned input hchecks w)
  | finalizeStepAndParent input =>
    rcases checked_settles (finalizeStepAndParent_settles h) with
      ⟨-, hback⟩ | ⟨_, _, hchecks, w, -, heq⟩
    · exact hsame hback.rows
    · exact .of_eq heq (.finalized input hchecks w)
  | recoverStepAndParent operationId childStepId lease now =>
    rcases recoverStepAndParent_cases h operationId childStepId lease now with
      heq | ⟨_, _, hchecks, hlive, hallowed, ⟨-, -, hback⟩ | ⟨w, -, heq, -⟩⟩
    · exact hsame (congrArg rows heq)
    · exact hsame hback.rows
    · exact .of_eq heq (.recovered _ _ _ _ hchecks hlive hallowed w)
  | authorizeStepDispatch input =>
    rcases authorizeStepDispatch_rows h input with ⟨-, hback⟩ | ⟨_, _, hchecks, -, heq⟩
    · exact hsame hback.rows
    · exact .of_eq heq (.dispatched _ input rfl hchecks)
  | authorizeDispatch input =>
    rcases authorizeDispatch_rows h input with
      ⟨-, hback⟩ | ⟨_, -, -, -, -, heq⟩ | ⟨_, _, stepInput, hid, hchecks, -, heq⟩
    · exact hsame hback.rows
    · exact hsame heq
    · exact .of_eq heq (.dispatched _ stepInput (congrArg some hid.symm) hchecks)
  | transitionWithAudit input =>
    rcases transitionWithAudit_rows h input with ⟨-, hback⟩ | ⟨current, hchecks, -, heq⟩
    · exact hsame hback.rows
    · exact .of_eq heq (.moved input hchecks)
  -- the methods on locks
  | acquireLease operationKey operationId now leaseExpiresAt =>
    rcases acquireLease_rows (r := r) operationKey operationId now leaseExpiresAt with
      heq | ⟨hop, hfree, heq⟩
    · exact hsame heq
    · exact .of_eq heq (.granted _ _ _ _ hop hfree)
  | acquireRecoveryLease operationKey operationId now leaseExpiresAt =>
    rcases acquireRecoveryLease_rows (r := r) operationKey operationId now leaseExpiresAt with
      heq | ⟨⟨op, hop, hkey, -⟩, hexpired, heq⟩
    · exact hsame heq
    · exact .of_eq heq (.recoveryGranted _ _ _ _ ⟨op, hop, hkey⟩ hexpired)
  | renewLease lease now leaseExpiresAt =>
    rcases renewLease_rows h lease now leaseExpiresAt with heq | ⟨_, hlock, heq⟩
    · exact hsame heq
    · exact .of_eq heq (.renewed _ _ _ hlock)
  | releaseLease lease =>
    rcases releaseLease_rows (r := r) lease with heq | ⟨_, _, hlock, hstatus, hsettled, heq⟩
    · exact hsame heq
    · exact .of_eq heq (.released _ hlock hstatus hsettled)
  | findOperation | findOperationWithSteps | findParentClaim | listRecoverable
  | listAuditEvents => exact .same _

/-- The ways in which a call can leave the rows. -/
inductive RowChange (r : Repository) : Rows → Prop
  | same : RowChange r r.rows
  /-- A new operation. -/
  | insert (operation : Operation)
      (absent : r.operations.get operation.id = none) :
      RowChange r { r.rows with operations := r.operations.set operation.id operation }
  /-- A new operation with its step. -/
  | insertStep (operation : Operation) (step : OperationStep)
      (absent : r.operations.get operation.id = none) (absentStep : r.steps.get step.id = none)
      (parent : step.parentOperationId = operation.id) : RowChange r (r.rows.write operation step)
  /-- A new version of a step and its operation, with or without the lock. -/
  | write {operation updated : Operation} {step step' : OperationStep}
      (w : StepWrite r operation step step' updated) (drop : Bool) (key : JsString) :
      RowChange r ((r.rows.write updated step').dropLock drop key)
  /-- A step marked as dispatched. -/
  | dispatch {step step' : OperationStep} (get : r.steps.get step.id = some step)
      (sameStep : SameStep step step') :
      RowChange r { r.rows with steps := r.steps.set step'.id step' }
  /-- A new version of an operation, with or without the lock. -/
  | transition {operation updated : Operation}
      (get : r.operations.get operation.id = some operation)
      (sameOperation : SameOperation operation updated) (drop : Bool) (key : JsString) :
      RowChange r (Rows.dropLock
        { r.rows with operations := r.operations.set updated.id updated } drop key)
  /-- A new or renewed lock. -/
  | lock (lease : MutationLease) (fences : JsMap JsString ℕ) (owner : ∃ op,
      r.operations.get lease.ownerOperationId = some op ∧ op.operationKey = lease.operationKey) :
      RowChange r { r.rows with
        locks := r.locks.set lease.operationKey lease
        fences := fences }
  /-- A lock removed. -/
  | unlock (key : JsString) : RowChange r { r.rows with locks := r.locks.delete key }

/-- Marking a step as dispatched, which it was not, keeps what steps keep. -/
theorem stepDispatchChecks_same (h : r.rows.Wf) {input : MutationStepDispatchAuthorizationInput}
    {operation : Operation} {step : OperationStep}
    (hchecks : r.stepDispatchChecks input = .ok (operation, step)) :
    r.steps.get step.id = some step ∧
      SameStep step (dispatchedStep step input.fencingToken input.now) := by
  obtain ⟨-, hst, -, -, -, -, hnone⟩ := stepDispatchChecks_ok hchecks
  refine ⟨by rw [h.step_id hst]; exact hst, rfl, rfl, fun hd => ?_⟩
  rw [hnone] at hd
  cases hd

/-- A transition keeps the identity of its operation. -/
theorem applyTransition_same (current : Operation) (input : DurableTransitionInput) :
    SameOperation current (applyTransition current input) :=
  ⟨rfl, rfl, rfl, rfl, rfl⟩

/-- Every call leaves the rows in one of these ways. -/
theorem next_rowChange (host : Host) (c : RepositoryCall) (h : r.rows.Wf) :
    RowChange r (c.next host r).rows := by
  have hchange := next_callChange host c h
  generalize (c.next host r).rows = rows' at hchange ⊢
  cases hchange with
  | same => exact .same
  | claimed _ _ absent => exact .insert _ absent
  | created _ hoperation hstep absent absentStep =>
    exact .insertStep _ _ absent absentStep (by rw [hoperation, hstep]; rfl)
  | rejected _ _ _ _ _ written => exact .write written.toStepWrite false []
  | transitioned _ _ written => exact .write written.toStepWrite false []
  | finalized _ _ written => exact .write written.toStepWrite _ _
  | recovered _ _ _ _ _ _ _ written => exact .write written.toStepWrite _ _
  | dispatched _ _ _ checks =>
    obtain ⟨hget, hsame⟩ := stepDispatchChecks_same h checks
    exact .dispatch hget hsame
  | moved input checks =>
    have hget := (transitionChecks_ok checks).1
    rw [← h.operation_id hget] at hget
    exact .transition hget (applyTransition_same _ input) _ _
  | granted operationKey operationId now leaseExpiresAt owner _ =>
    exact .lock ⟨operationKey, operationId, _, now, leaseExpiresAt⟩ _ owner
  | recoveryGranted operationKey operationId now leaseExpiresAt owner _ =>
    exact .lock ⟨operationKey, operationId, _, now, leaseExpiresAt⟩ _ owner
  | @renewed _ _ leaseExpiresAt current lock =>
    exact .lock { current with leaseExpiresAt := leaseExpiresAt } r.fences (h.lock_owner lock).2
  | released => exact .unlock _

variable {rows' : Rows}

/-- Such a change keeps the rows well formed. -/
theorem RowChange.wf (hchange : RowChange r rows') (h : r.rows.Wf) : rows'.Wf := by
  cases hchange with
  | same => exact h
  | insert operation absent => exact h.insertOperation absent
  | insertStep operation step absent absentStep parent =>
    refine (h.insertOperation absent).putStep
      ⟨operation, by rw [parent]; exact get_set_self _ _ _⟩ ?_
    -- A step of the new operation would have had a parent before.
    intro id s hs hparent
    obtain ⟨op, hop⟩ := h.step_parent hs
    rw [hparent, parent] at hop
    exact absurd (absent.symm.trans hop) (by simp)
  | write w drop key =>
    exact ((h.setOperation w.operation_get w.sameOperation).setStep w.step_get w.sameStep).dropLock _ _
  | dispatch get sameStep => exact h.setStep get sameStep
  | transition get sameOperation drop key => exact (h.setOperation get sameOperation).dropLock _ _
  | lock lease fences owner => exact (h.setLock lease owner).setFences fences
  | unlock key => exact h.deleteLock key

/-- Operations stay, with what no call changes. -/
theorem RowChange.operation (hchange : RowChange r rows') {id : JsString}
    {op : Operation} (hop : r.operations.get id = some op) :
    ∃ op', rows'.operations.get id = some op' ∧ SameOperation op op' := by
  have hrefl : SameOperation op op := ⟨rfl, rfl, rfl, rfl, rfl⟩
  have hset : ∀ {o o' : Operation}, r.operations.get o.id = some o →
      SameOperation o o' → ∃ op', (r.operations.set o'.id o').get id = some op' ∧
        SameOperation op op' := by
    intro o o' ho same
    refine exists_get_set _ hop (fun h => ?_) hrefl
    rw [same.id, ho] at h
    exact Option.some.inj h ▸ same
  cases hchange with
  | insert _ absent | insertStep _ _ absent =>
    exact ⟨op, get_set_of_absent _ _ absent hop, hrefl⟩
  | write w drop key =>
    cases drop <;> exact hset w.operation_get w.sameOperation
  | transition get sameOperation drop key =>
    cases drop <;> exact hset get sameOperation
  | same | dispatch | lock | unlock => exact ⟨op, hop, hrefl⟩

/-- Steps stay, with what no call changes. -/
theorem RowChange.step (hchange : RowChange r rows') {id : JsString}
    {step : OperationStep} (hstep : r.steps.get id = some step) :
    ∃ step', rows'.steps.get id = some step' ∧ SameStep step step' := by
  have hrefl : SameStep step step := ⟨rfl, rfl, fun _ => rfl⟩
  have hset : ∀ {s s' : OperationStep}, r.steps.get s.id = some s →
      SameStep s s' → ∃ step', (r.steps.set s'.id s').get id = some step' ∧
        SameStep step step' := by
    intro s s' hs same
    refine exists_get_set _ hstep (fun h => ?_) hrefl
    rw [same.id, hs] at h
    exact Option.some.inj h ▸ same
  cases hchange with
  | insertStep _ _ _ absentStep =>
    exact ⟨step, get_set_of_absent _ _ absentStep hstep, hrefl⟩
  | write w drop key =>
    cases drop <;> exact hset w.step_get w.sameStep
  | dispatch get sameStep => exact hset get sameStep
  | transition get sameOperation drop key => cases drop <;> exact ⟨step, hstep, hrefl⟩
  | same | insert | lock | unlock => exact ⟨step, hstep, hrefl⟩

/-- Every call keeps the rows well formed. -/
theorem next_wf (host : Host) (c : RepositoryCall) (h : r.rows.Wf) : (c.next host r).rows.Wf :=
  (next_rowChange host c h).wf h

/-- Runs keep the rows well formed, whatever their condition. -/
theorem ReachedBy.wf {host : Host} {allowed : Repository → RepositoryCall → Prop}
    {r r' : Repository} (h : ReachedBy host allowed r r') (hwf : r.rows.Wf) : r'.rows.Wf :=
  h.induct (fun r => r.rows.Wf) hwf fun _ c _ => next_wf host c

/-- A new repository is well formed. -/
theorem initial_wf (auditFaults : List Bool) : (initial auditFaults).rows.Wf := Rows.Wf.empty

end InMemoryDurableMutationRepository

end ZimaControl
