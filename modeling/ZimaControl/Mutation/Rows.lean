import ZimaControl.Mutation.Calls

/-!
# What a call can write

The rows of the repository are its operations, steps, locks and fences. This module inverts the
checks that the methods share and says what writing a step with its parent does: the rows take both,
or a failed audit append gives them back.
-/

namespace ZimaControl

open List

/-- The maps that carry the state of operations, without claims and audits. -/
structure Rows where
  operations : JsMap JsString Operation
  steps : JsMap JsString OperationStep
  locks : JsMap JsString MutationLease
  fences : JsMap JsString ℕ

namespace Rows

/-- What the maps keep in step with each other. -/
structure Wf (rows : Rows) : Prop where
  /-- Operations are stored under their id. -/
  operation_id : ∀ {id op}, rows.operations.get id = some op → op.id = id
  /-- Steps are stored under their id. -/
  step_id : ∀ {id step}, rows.steps.get id = some step → step.id = id
  /-- The parent of a step exists. -/
  step_parent : ∀ {id step}, rows.steps.get id = some step →
    ∃ op, rows.operations.get step.parentOperationId = some op
  /-- A parent has one step. -/
  step_unique : ∀ {i j s t}, rows.steps.get i = some s → rows.steps.get j = some t →
    s.parentOperationId = t.parentOperationId → i = j
  /-- A lock is stored under its key and owned by an operation of that key. -/
  lock_owner : ∀ {key lease}, rows.locks.get key = some lease → lease.operationKey = key ∧
    ∃ op, rows.operations.get lease.ownerOperationId = some op ∧ op.operationKey = key

/-- The rows with an operation and its step written. -/
def write (rows : Rows) (operation : Operation) (step : OperationStep) : Rows :=
  { rows with
    operations := rows.operations.set operation.id operation
    steps := rows.steps.set step.id step }

/-- The rows with the lock of a key removed, if `drop` holds. -/
def dropLock (rows : Rows) (drop : Bool) (key : JsString) : Rows :=
  if drop then { rows with locks := rows.locks.delete key } else rows

end Rows

/-- Two versions of one operation: what no call changes. -/
structure SameOperation (before after : Operation) : Prop where
  id : after.id = before.id
  actorId : after.actorId = before.actorId
  operationKey : after.operationKey = before.operationKey
  idempotencyKey : after.idempotencyKey = before.idempotencyKey
  fingerprint : after.fingerprint = before.fingerprint

/-- What no call changes, none of several calls does. -/
theorem SameOperation.trans {a b c : Operation} (hab : SameOperation a b)
    (hbc : SameOperation b c) : SameOperation a c :=
  ⟨hbc.id.trans hab.id, hbc.actorId.trans hab.actorId, hbc.operationKey.trans hab.operationKey,
    hbc.idempotencyKey.trans hab.idempotencyKey, hbc.fingerprint.trans hab.fingerprint⟩

/-- Two versions of one step: what no call changes. -/
structure SameStep (before after : OperationStep) : Prop where
  id : after.id = before.id
  parentOperationId : after.parentOperationId = before.parentOperationId
  /-- A dispatch that was authorised stays so. -/
  dispatched : before.dispatchAuthorizedAt.isSome = true →
    after.dispatchAuthorizedAt = before.dispatchAuthorizedAt

/-- The fields of an operation that its steps determine. -/
def DurableMutationOperation.aggregate (operation : Operation) : ParentMutationAggregate :=
  ⟨operation.status, operation.verificationState, operation.recoveryState,
    operation.externalEffect, operation.reasonCode⟩

namespace InMemoryDurableMutationRepository

/-- The rows of a repository. -/
def rows (r : Repository) : Rows := ⟨r.operations, r.steps, r.locks, r.fences⟩

/-- An operation holds the lock of its key under a token, unexpired. -/
def Owns (r : Repository) (operation : Operation) (token : ℕ) (now : Timestamp) : Prop :=
  ∃ lease, r.locks.get operation.operationKey = some lease ∧
    lease.ownerOperationId = operation.id ∧ lease.fencingToken = token ∧ now < lease.leaseExpiresAt

/-! ## The checks, inverted -/

variable {r : Repository} {id : JsString}

@[simp] theorem requireOperation_eq_ok {op : Operation} :
    r.requireOperation id = .ok op ↔ r.operations.get id = some op := by
  unfold requireOperation
  cases r.operations.get id <;> simp

variable {step : OperationStep}

@[simp] theorem requireStep_eq_ok {id operationId : JsString} :
    r.requireStep id operationId = .ok step ↔
      r.steps.get id = some step ∧ step.parentOperationId = operationId := by
  unfold requireStep
  cases hget : r.steps.get id with
  | none => simp
  | some s =>
    simp only [Option.some.injEq]
    split_ifs with h
    · simp only [false_iff, not_and]
      rintro rfl
      exact h
    simp only [ne_eq, not_not] at h
    constructor
    · intro heq
      cases heq
      exact ⟨rfl, h⟩
    · rintro ⟨rfl, -⟩
      rfl

/-- What the lock of a key must say. -/
theorem requireLease_eq_ok {key operationId : JsString} {token : ℕ} {now : Timestamp} {u : Unit} :
    r.requireLease key operationId token now = .ok u ↔
      ∃ lease, r.locks.get key = some lease ∧ lease.ownerOperationId = operationId ∧
        lease.fencingToken = token ∧ now < lease.leaseExpiresAt := by
  unfold requireLease
  cases r.locks.get key <;> simp

/-- Ownership is required of the operation's own key. -/
theorem requireOwnership_eq_ok {operation : Operation} {key : JsString} {token : ℕ}
    {now : Timestamp} {adopt : Bool} {u : Unit} :
    r.requireOwnership operation key token now adopt = .ok u ↔
      operation.operationKey = key ∧ r.Owns operation token now ∧
        (adopt = true ∨ operation.fencingToken = some token) := by
  simp only [requireOwnership, except_bind_eq_ok, requireLease_eq_ok, throwIf_eq_ok, not_or, ne_eq,
    not_not, not_and_or, Bool.not_eq_true, Owns]
  constructor
  · rintro ⟨-, hlease, rfl, hadopt⟩
    exact ⟨rfl, hlease, by simpa using hadopt⟩
  · rintro ⟨rfl, hlease, hadopt⟩
    exact ⟨(), hlease, rfl, by simpa using hadopt⟩

/-! ## Appends -/

/-- The claims stay; without faults there stay none, and the audits only grow. -/
structure Extends (r r' : Repository) : Prop where
  claims : r'.claims = r.claims
  faults : r.auditFaults = [] → r'.auditFaults = []
  audits : r.auditFaults = [] → ∀ id, r.auditsOf id <+: r'.auditsOf id

variable {r' r'' : Repository}

/-- A repository that differs in its rows only. -/
theorem extends_of_eq (hclaims : r'.claims = r.claims) (hfaults : r'.auditFaults = r.auditFaults)
    (haudits : r'.audits = r.audits) : Extends r r' :=
  ⟨hclaims, fun h => hfaults.trans h, fun _ id => by simp only [auditsOf, haudits]; exact prefix_refl _⟩

theorem Extends.refl (r : Repository) : Extends r r := extends_of_eq rfl rfl rfl

theorem Extends.trans (h : Extends r r') (h' : Extends r' r'') : Extends r r'' :=
  ⟨h'.claims.trans h.claims, fun hf => h'.faults (h.faults hf), fun hf id =>
    (h.audits hf id).trans (h'.audits (h.faults hf) id)⟩

/-- The error of an append that fails. -/
def auditFault : Failure :=
  .mutation .auditPersistenceFailed "Mutation audit persistence failed"

/-- What the appends of a method for one operation can do. -/
structure Appends (r : Repository) (id : JsString) (outcome : RepositoryOutcome Unit) : Prop where
  rows : outcome.2.rows = r.rows
  extension : Extends r outcome.2
  others : ∀ other, id ≠ other → outcome.2.auditsOf other = r.auditsOf other
  passes : r.auditFaults = [] → outcome.1 = .ok ()
  error : ∀ {e}, outcome.1 = .error e → e = auditFault

/-- Appends in a row. -/
theorem Appends.andThen {x : RepositoryOutcome Unit} {k : Repository → RepositoryOutcome Unit}
    (hx : Appends r id x) (hk : ∀ r', Appends r' id (k r')) :
    Appends r id (x.andThen fun _ r' => k r') := by
  rcases x with ⟨e | u, r'⟩
  · exact hx
  · have h := hk r'
    exact ⟨h.rows.trans hx.rows, hx.extension.trans h.extension,
      fun other hne => (h.others other hne).trans (hx.others other hne),
      fun hf => h.passes (hx.extension.faults hf), h.error⟩

/-- Without faults the appends pass, write no row and extend the audits. -/
theorem Appends.ok {outcome : RepositoryOutcome Unit} (h : Appends r id outcome)
    (hf : r.auditFaults = []) : ∃ r', outcome = (.ok (), r') ∧ r'.rows = r.rows ∧ Extends r r' :=
  ⟨_, Prod.ext (h.passes hf) rfl, h.rows, h.extension⟩

section Append

variable (operation : Operation) (eventType : MutationAuditEventType)
  (timestamp : Timestamp) (reasonCode : Option MutationErrorCode)
  (child : Option OperationStep)

/-- An append writes no row. -/
@[simp] theorem append_rows :
    (r.append operation eventType timestamp reasonCode child).2.rows = r.rows := by
  unfold append
  split <;> rfl

/-- The audits of an operation after an append that passed. -/
theorem auditsOf_append (hf : r.auditFaults = []) (id : JsString) :
    (r.append operation eventType timestamp reasonCode child).2.auditsOf id =
      if operation.id = id then r.auditsOf id ++
        [r.auditEvent operation eventType timestamp reasonCode child] else r.auditsOf id := by
  simp only [append, hf, auditsOf, JsMap.get_set]
  split_ifs with hid
  · subst hid
    rfl
  · rfl

/-- An append extends the audits. -/
theorem extends_append : Extends r (r.append operation eventType timestamp reasonCode child).2 := by
  refine ⟨?_, fun hf => ?_, fun hf id => ?_⟩
  · unfold append
    split <;> rfl
  · simp [append, hf, tail_nil]
  · rw [auditsOf_append _ _ _ _ _ hf]
    split_ifs
    · exact prefix_append _ _
    · exact prefix_refl _

/-- An append throws the one error there is and uses up a fault, or it leaves the rows. -/
theorem append_cases :
    r.append operation eventType timestamp reasonCode child =
        (.error auditFault, { r with auditFaults := r.auditFaults.tail }) ∨
      ∃ r', r.append operation eventType timestamp reasonCode child = (.ok (), r') ∧
        r'.rows = r.rows := by
  unfold append
  split
  next hf =>
    rw [hf]
    exact .inl rfl
  next => exact .inr ⟨_, rfl, rfl⟩

/-- An append that throws uses up a fault. -/
theorem append_error {e : Failure}
    (h : (r.append operation eventType timestamp reasonCode child).1 = .error e) :
    e = auditFault ∧ (r.append operation eventType timestamp reasonCode child).2 =
      { r with auditFaults := r.auditFaults.tail } := by
  rcases append_cases operation eventType timestamp reasonCode child with hx | ⟨r', hx, -⟩ <;>
    rw [hx] at h ⊢ <;> cases h
  exact ⟨rfl, rfl⟩

theorem append_appends :
    Appends r operation.id (r.append operation eventType timestamp reasonCode child) := by
  refine ⟨append_rows .., extends_append .., fun other hne => ?_, fun hf => ?_,
    fun he => (append_error _ _ _ _ _ he).1⟩
  · unfold append
    split
    · rfl
    · simp [auditsOf, JsMap.get_set, if_neg hne]
  · simp [append, hf]

/-- So does a single one. -/
theorem append_ok (hf : r.auditFaults = []) :
    ∃ r', r.append operation eventType timestamp reasonCode child = (.ok (), r') ∧
      r'.rows = r.rows ∧ Extends r r' :=
  (append_appends ..).ok hf

end Append

variable (operation : Operation)

/-- The two appends of an ended step. -/
theorem appendEnded_appends (step : OperationStep)
    (eventType : MutationAuditEventType) (now : Timestamp) (reasonCode : Option MutationErrorCode) :
    Appends r operation.id (r.appendEnded operation step eventType now reasonCode) :=
  (append_appends ..).andThen fun _ => append_appends ..

/-- The two appends of a new operation with its step. -/
theorem appendCreated_appends (step : OperationStep) (now : Timestamp) :
    Appends r operation.id (r.appendCreated operation step now) :=
  (append_appends ..).andThen fun _ => append_appends ..

/-- Rows, claims and audits are what they were; the order of claims shows in no answer. -/
structure Restored (r r' : Repository) : Prop where
  rows : r'.rows = r.rows
  claims : ∀ key, r'.claims.get key = r.claims.get key
  audits : ∀ id, r'.auditsOf id = r.auditsOf id

theorem Restored.refl (r : Repository) : Restored r r := ⟨rfl, fun _ => rfl, fun _ => rfl⟩

/-- A call threw and left rows, claims and audit events. -/
def Refused {α : Type} (r : Repository) (outcome : RepositoryOutcome α) : Prop :=
  (∃ e, outcome.1 = .error e) ∧ Restored r outcome.2

/-- Checks that fail refuse the call. -/
theorem refused_checking_error {α β : Type} {e : Failure} {k : α → RepositoryOutcome β} :
    Refused r (Outcome.checking r (.error e) k) :=
  ⟨⟨e, rfl⟩, .refl r⟩

/-! ## The only step of a parent -/

/-- `stepsFor` finds the one step of a parent. -/
theorem stepsFor_eq_singleton (hid : ∀ {id s}, r.steps.get id = some s → s.id = id)
    (hunique : ∀ {i j s t}, r.steps.get i = some s → r.steps.get j = some t →
      s.parentOperationId = t.parentOperationId → i = j) (hget : r.steps.get step.id = some step) :
    r.stepsFor step.parentOperationId = [step] := by
  have hfilter : r.steps.values.filter (·.parentOperationId = step.parentOperationId) = [step] := by
    -- The values carry their keys as ids, so they are pairwise distinct.
    have hnodup : r.steps.values.Nodup := by
      have hmap : r.steps.values.map (·.id) = r.steps.entries.map Prod.fst := by
        rw [JsMap.values, map_map]
        exact map_congr_left fun e he => hid ((r.steps.mem_entries_iff e.1 e.2).mp he)
      exact List.Nodup.of_map _ (hmap ▸ r.steps.nodup)
    have hall : ∀ s ∈ r.steps.values.filter (·.parentOperationId = step.parentOperationId),
        s = step := by
      intro s hs
      simp only [mem_filter, decide_eq_true_eq] at hs
      obtain ⟨k, hk⟩ := (r.steps.mem_values_iff s).mp hs.1
      have hkeys : k = step.id := hunique hk hget hs.2
      rw [hkeys, hget] at hk
      exact (Option.some.inj hk).symm
    have hmem : step ∈ r.steps.values.filter (·.parentOperationId = step.parentOperationId) := by
      simp only [mem_filter, decide_true, and_true]
      exact (r.steps.mem_values_iff step).mpr ⟨_, hget⟩
    refine perm_singleton.mp ((perm_ext_iff_of_nodup (hnodup.filter _)
      (nodup_singleton step)).mpr fun s => ?_)
    rw [mem_singleton]
    exact ⟨hall s, fun h => h ▸ hmem⟩
  rw [stepsFor, hfilter]
  rfl

/-- An operation and its step, as they are stored. -/
structure Pair (r : Repository) (operation : Operation) (step : OperationStep) : Prop where
  operation_get : r.operations.get operation.id = some operation
  step_get : r.steps.get step.id = some step
  parent : step.parentOperationId = operation.id

variable {operation updated : Operation} {step step' : OperationStep}

/-- A checked step with its parent is a pair. -/
theorem pair_of_get (hwf : r.rows.Wf) {operationId stepId : JsString}
    (hop : r.operations.get operationId = some operation) (hst : r.steps.get stepId = some step)
    (hparent : step.parentOperationId = operationId) : Pair r operation step := by
  have hopid := hwf.operation_id hop
  have hstid := hwf.step_id hst
  exact ⟨by rw [hopid, hop], by rw [hstid, hst], by rw [hparent, hopid]⟩

/-- The operation has the one step. -/
theorem Pair.stepsFor (hwf : r.rows.Wf) (hpair : Pair r operation step) :
    r.stepsFor operation.id = [step] := by
  rw [← hpair.parent]
  exact stepsFor_eq_singleton hwf.step_id hwf.step_unique hpair.step_get

/-- The aggregate of one step. -/
def aggregateOfStep (step : OperationStep) : ParentMutationAggregate :=
  match step.status with
  | .indeterminate => ⟨.indeterminate, .unknown, .outcomeUnknown, step.externalEffect, step.reasonCode⟩
  | .succeeded => ⟨.succeeded, .verified, .none, step.externalEffect, none⟩
  | .failed | .cancelled => ⟨.failed, step.verificationState, step.recoveryState, step.externalEffect,
      step.reasonCode.or (some .executionFailed)⟩
  | status => aggregateOf (parentStatus status) step.externalEffect step

theorem aggregateParentFromSteps_eq (step : OperationStep) :
    aggregateParentFromSteps [step] = .ok (aggregateOfStep step) := by
  have heffect : aggregateEffect [step] = step.externalEffect := by
    cases h : step.externalEffect <;> simp [aggregateEffect, h]
  cases h : step.status <;>
    simp [aggregateParentFromSteps, heffect, aggregateOfStep, parentStatus, aggregateOf, find?,
      h, ActionStatus.isTerminal]

/-- The aggregate has the status of the step, or `FAILED` for a cancelled one. -/
theorem aggregateOfStep_status (step : OperationStep) :
    (aggregateOfStep step).status = parentStatus step.status := by
  cases h : step.status <;> simp [aggregateOfStep, h, aggregateOf, parentStatus]

theorem aggregateOfStep_effect (step : OperationStep) :
    (aggregateOfStep step).externalEffect = step.externalEffect := by
  cases h : step.status <;> simp [aggregateOfStep, h, aggregateOf, parentStatus]

/-! ## Writing a step and its parent -/

/-- A step is replaced, and its operation takes the aggregate of the new step. -/
structure StepWrite (r : Repository) (operation : Operation)
    (step step' : OperationStep) (updated : Operation) : Prop where
  operation_get : r.operations.get operation.id = some operation
  step_get : r.steps.get step.id = some step
  parent : step.parentOperationId = operation.id
  sameStep : SameStep step step'
  dispatch : step'.dispatchAuthorizedAt = step.dispatchAuthorizedAt
  sameOperation : SameOperation operation updated
  status : updated.status = parentStatus step'.status
  effect : updated.externalEffect = step'.externalEffect

/-- A replacement in which the operation takes every field of the aggregate. -/
structure StepWritten (r : Repository) (operation : Operation)
    (step step' : OperationStep) (updated : Operation) : Prop extends
    StepWrite r operation step step' updated where
  aggregate : aggregateParentFromSteps [step'] = .ok updated.aggregate

/-- `writeStep` aggregates, since the parent has just the step it wrote. -/
theorem writeStep_eq (hwf : r.rows.Wf) (hpair : Pair r operation step) (hsame : SameStep step step')
    (finish : ParentMutationAggregate → Operation)
    (commit : Operation → Repository →
      RepositoryOutcome DurableParentChildOperation) :
    let updated := finish (aggregateOfStep step')
    r.writeStep operation step' finish commit = commit updated { r with
      steps := r.steps.set step'.id step'
      operations := r.operations.set updated.id updated } := by
  let r' : Repository := { r with steps := r.steps.set step'.id step' }
  have hget : ∀ id, r'.steps.get id = if step'.id = id then some step' else r.steps.get id :=
    fun id => r.steps.get_set _ _ _
  -- Replacing a step keeps ids and parents, so the parent still has one step.
  have hparents : ∀ {i s}, r'.steps.get i = some s →
      ∃ t, r.steps.get i = some t ∧ t.parentOperationId = s.parentOperationId := by
    intro i s hs
    rw [hget] at hs
    split_ifs at hs with h
    · cases hs
      exact ⟨step, by rw [← h, hsame.id, hpair.step_get], hsame.parentOperationId.symm⟩
    · exact ⟨s, hs, rfl⟩
  have hsingle : r'.stepsFor step'.parentOperationId = [step'] := by
    refine stepsFor_eq_singleton ?_ ?_ (by rw [hget, if_pos rfl])
    · intro id s hs
      rw [hget] at hs
      split_ifs at hs with h
      · cases hs
        exact h
      · exact hwf.step_id hs
    · intro i j s t hs ht hst
      obtain ⟨s₀, hs₀, hsp⟩ := hparents hs
      obtain ⟨t₀, ht₀, htp⟩ := hparents ht
      exact hwf.step_unique hs₀ ht₀ (by rw [hsp, htp, hst])
  have hop : operation.id = step'.parentOperationId := by
    rw [hsame.parentOperationId, hpair.parent]
  change Outcome.checking r' (aggregateParentFromSteps (r'.stepsFor operation.id)) _ = _
  rw [hop, hsingle, aggregateParentFromSteps_eq]
  rfl

/-- Putting an operation and its step back undoes a write of both. -/
theorem rows_write_write (rows : Rows) (hop : rows.operations.get operation.id = some operation)
    (hstep : rows.steps.get step.id = some step) (hid : updated.id = operation.id)
    (hid' : step'.id = step.id) : (rows.write updated step').write operation step = rows := by
  simp [Rows.write, hid, hid', JsMap.set_set_of_get _ hop, JsMap.set_set_of_get _ hstep]

variable {oldLock : Option MutationLease}

/-- The rollback of a written step gives the rows back. -/
theorem undoStep_rows (hwf : r.rows.Wf) (w : StepWrite r operation step step' updated)
    (oldAudits : Option (List DurableMutationAuditEvent))
    (hlock : ∀ lock, oldLock = some lock → ∃ key, r.locks.get key = some lock)
    (hr' : r'.rows = r.rows.write updated step') :
    (undoStep operation step oldAudits oldLock r').rows = r.rows := by
  have hback : (r.rows.write updated step').write operation step = r.rows :=
    rows_write_write r.rows w.operation_get w.step_get w.sameOperation.id w.sameStep.id
  have hlocks : r'.locks = r.locks := congrArg Rows.locks hr'
  -- The lock was not touched; putting it back changes nothing.
  have hrestore : restoreLock r'.locks oldLock = r.locks := by
    cases oldLock with
    | none => exact hlocks
    | some lock =>
      obtain ⟨key, hget⟩ := hlock lock rfl
      have hkey : lock.operationKey = key := (hwf.lock_owner hget).1
      rw [restoreLock, hlocks, hkey]
      exact r.locks.set_of_get hget
  calc (undoStep operation step oldAudits oldLock r').rows
      = { r'.rows.write operation step with locks := r.locks } := by
        simp [undoStep, rows, Rows.write, hrestore]
    _ = { (r.rows.write updated step').write operation step with locks := r.locks } := by rw [hr']
    _ = r.rows := by
        rw [hback]
        rfl

/-- Behind its checks a step method puts everything back after a failed append, or writes step and
parent and drops the lock of a key, where told so. -/
def StepSettled (r : Repository) (operation : Operation)
    (step step' : OperationStep) (updated : Operation) (drop : Bool)
    (key : JsString) (outcome : RepositoryOutcome DurableParentChildOperation) : Prop :=
  outcome.1 = .error auditFault ∧ r.auditFaults ≠ [] ∧ Restored r outcome.2 ∨
    StepWritten r operation step step' updated ∧ (∃ answer, outcome.1 = .ok answer) ∧
      outcome.2.rows = (r.rows.write updated step').dropLock drop key ∧
      (r.auditFaults = [] → outcome.2.auditFaults = [])

/-- Dropping a lock from the repository drops it from the rows. -/
theorem dropLock_rows (release : Bool) (key : JsString) :
    (dropLock release key r).rows = r.rows.dropLock release key := by
  cases release <;> rfl

/-- A method that writes a step, aggregates the parent, appends, and puts the rows back when an
append fails; the audits too, or there was one append only. -/
theorem writeStep_settles (hwf : r.rows.Wf) (hpair : Pair r operation step)
    (step' : OperationStep) (hsame : SameStep step step')
    (hdispatch : step'.dispatchAuthorizedAt = step.dispatchAuthorizedAt)
    {finish : ParentMutationAggregate → Operation}
    (hfinish : ∀ a, SameOperation operation (finish a) ∧ (finish a).aggregate = a)
    {appends : Operation → Repository → RepositoryOutcome Unit}
    (happends : ∀ updated r', Appends r' updated.id (appends updated r'))
    {oldAudits : Option (List DurableMutationAuditEvent)}
    (hold : oldAudits = some (r.auditsOf operation.id) ∨ oldAudits = none ∧ ∀ updated r' e,
      (appends updated r').1 = .error e → (appends updated r').2.audits = r'.audits)
    (hlock : ∀ lock, oldLock = some lock → ∃ key, r.locks.get key = some lock)
    (drop : Operation → Bool) (key : JsString) :
    StepSettled r operation step step' (finish (aggregateOfStep step'))
      (drop (finish (aggregateOfStep step'))) key
      (r.writeStep operation step' finish fun updated r' =>
        settleStep (appends updated r') updated (dropLock (drop updated) key)
          (undoStep operation step oldAudits oldLock)) := by
  rw [writeStep_eq hwf hpair hsame]
  set updated := finish (aggregateOfStep step')
  obtain ⟨hsameOp, hfields⟩ := hfinish (aggregateOfStep step')
  have w : StepWritten r operation step step' updated := by
    refine ⟨⟨hpair.operation_get, hpair.step_get, hpair.parent, hsame, hdispatch, hsameOp, ?_, ?_⟩, ?_⟩
    · rw [← aggregateOfStep_status, ← hfields]
      rfl
    · rw [← aggregateOfStep_effect, ← hfields]
      rfl
    · rw [aggregateParentFromSteps_eq, hfields]
  have h := happends updated { r with
    steps := r.steps.set step'.id step'
    operations := r.operations.set updated.id updated }
  generalize hr₁ : ({ r with
    steps := r.steps.set step'.id step'
    operations := r.operations.set updated.id updated } : Repository) = r₁ at h
  have hrows : r₁.rows = r.rows.write updated step' := by rw [← hr₁]; rfl
  have haudits : r₁.audits = r.audits := by rw [← hr₁]
  have hfaults : r₁.auditFaults = r.auditFaults := by rw [← hr₁]
  rcases hx : appends updated r₁ with ⟨e | u, r'⟩
  · -- an append failed: the rows are put back, and the audits as far as they were extended
    have hundone := hold.imp id fun hnone => And.intro hnone.1 (hnone.2 updated r₁ e (by rw [hx]))
    rw [hx] at h hundone
    refine .inl ⟨congrArg _ (h.error rfl), fun hf => ?_, undoStep_rows hwf w.toStepWrite oldAudits
      hlock (h.rows.trans hrows), fun _ => ?_, fun id => ?_⟩
    · have := h.passes (hfaults.trans hf)
      cases this
    · change r'.claims.get _ = _
      rw [h.extension.claims, ← hr₁]
    rcases hundone with rfl | ⟨rfl, hsame'⟩
    · change ((r'.audits.set operation.id (r.auditsOf operation.id)).get id).getD [] = _
      rw [JsMap.get_set]
      split_ifs with hid
      · rw [← hid]
        rfl
      · refine (h.others id (by rwa [hsameOp.id])).trans ?_
        simp [auditsOf, haudits]
    · change (r'.audits.get id).getD [] = _
      rw [hsame', haudits, auditsOf]
  · rw [hx] at h
    refine .inr ⟨w, ⟨_, rfl⟩, ?_, fun hf => ?_⟩
    · rw [← hrows, ← h.rows]
      exact dropLock_rows _ _
    · have hquiet := h.extension.faults (hfaults.trans hf)
      cases drop updated <;> exact hquiet

/-- A step method as a whole: refused, or its checks passed and it wrote. -/
theorem checked_settles {checks : Except Failure (Operation × OperationStep)}
    {k : Operation × OperationStep →
      RepositoryOutcome DurableParentChildOperation}
    {next : OperationStep → OperationStep}
    {write : Operation → OperationStep → Operation}
    {drop : Operation → OperationStep → Bool}
    (h : ∀ {operation step}, checks = .ok (operation, step) →
      StepSettled r operation step (next step) (write operation step) (drop operation step)
        operation.operationKey (Outcome.checking r checks k)) :
    let outcome := Outcome.checking r checks k
    Refused r outcome ∨ ∃ operation step, checks = .ok (operation, step) ∧
      StepWritten r operation step (next step) (write operation step) ∧
      (∃ answer, outcome.1 = .ok answer) ∧
      outcome.2.rows = (r.rows.write (write operation step) (next step)).dropLock
        (drop operation step) operation.operationKey := by
  cases checks with
  | error e => exact .inl refused_checking_error
  | ok pair =>
    rcases h rfl with ⟨he, -, hback⟩ | ⟨w, hok, hrows, -⟩
    · exact .inl ⟨⟨_, he⟩, hback⟩
    · exact .inr ⟨_, _, rfl, w, hok, hrows⟩

end InMemoryDurableMutationRepository

end ZimaControl
