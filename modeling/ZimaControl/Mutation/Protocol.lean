import ZimaControl.Lib.LeaseProtocol
import ZimaControl.Mutation.WellFormed

/-!
# The repository refines the lease protocol

Operations are the members of the protocol and operation keys its keys: an operation is live until
it ends, settled when it ended with a known outcome, and stuck when it is `INDETERMINATE`. Every
call is a move (`next_move`); the two forbidden moves come from two kinds of calls only,
`WakesStuck` and `TakesOverLive`.
-/

namespace ZimaControl

open LeaseProtocol Option ActionStatus

/-- The phase of an operation in a status. -/
def ActionStatus.phase (status : ActionStatus) : Phase :=
  if status = .indeterminate then .stuck else if status.isTerminal then .settled else .live

namespace ActionStatus

variable {status : ActionStatus}

@[simp] theorem phase_eq_stuck : status.phase = .stuck ↔ status = .indeterminate := by
  cases status <;> decide

@[simp] theorem phase_eq_settled : status.phase = .settled ↔ status.isSettled = true := by
  cases status <;> decide

@[simp] theorem phase_eq_live : status.phase = .live ↔ status.isTerminal = false := by
  cases status <;> decide

end ActionStatus

namespace Rows

/-- The table of the protocol that well-formed rows show. -/
def table (rows : Rows) (h : rows.Wf) : Table JsString JsString where
  entry id := (rows.operations.get id).map fun op => (op.operationKey, op.status.phase)
  lock key := (rows.locks.get key).map fun lease => (lease.ownerOperationId, lease.fencingToken)
  owner_entry key id token hlock := by
    simp only [map_eq_some_iff, Prod.mk.injEq] at hlock ⊢
    obtain ⟨lease, hget, rfl, rfl⟩ := hlock
    obtain ⟨-, op, hop, hkey⟩ := h.lock_owner hget
    exact ⟨_, op, hop, hkey, rfl⟩

variable (rows : Rows) (h : rows.Wf)

/-- The table after an operation is written. -/
theorem entry_of_set {rows' : Rows} {h' : rows'.Wf} {op : Operation}
    (hops : rows'.operations = rows.operations.set op.id op) : (rows'.table h').entry =
      Function.update (rows.table h).entry op.id (some (op.operationKey, op.status.phase)) := by
  simp only [table, hops]
  exact JsMap.map_get_set _ _ _ _

/-- The table after a lock is dropped or kept. -/
theorem lock_dropLock (drop : Bool) (key : JsString) (h' : (rows.dropLock drop key).Wf) :
    ((rows.dropLock drop key).table h').lock =
      if drop then Function.update (rows.table h).lock key none else (rows.table h).lock := by
  cases drop with
  | false => rfl
  | true =>
    funext k
    simp only [table, Rows.dropLock, if_true, JsMap.get_delete]
    by_cases hk : k = key
    · subst hk
      simp
    · rw [if_neg (Ne.symm hk), Function.update_of_ne hk]

end Rows

namespace RepositoryCall

/-- The operation and step that a step call addresses. -/
def stepTarget : RepositoryCall → Option (JsString × JsString)
  | transitionStepWithAudit input => some (input.operationId, input.childStepId)
  | finalizeStepAndParent input => some (input.operationId, input.childStepId)
  | recoverStepAndParent operationId childStepId _ _ => some (operationId, childStepId)
  | _ => none

/-- The call changes, as a step call, an operation that is `INDETERMINATE` while its step has not
ended. -/
def WakesStuck (host : Host) (r : Repository) (c : RepositoryCall) : Prop :=
  (c.next host r).rows ≠ r.rows ∧ ∃ operation step, c.stepTarget = some (operation.id, step.id) ∧
    r.operations.get operation.id = some operation ∧ operation.status = .indeterminate ∧
    r.steps.get step.id = some step ∧ step.status.isTerminal = false

/-- The call is granted a recovery lease while the key's lock has expired but belongs to another
operation that has not ended. -/
def TakesOverLive (host : Host) (r : Repository) (c : RepositoryCall) : Prop :=
  (c.next host r).rows ≠ r.rows ∧ ∃ key id now leaseExpiresAt,
    c = .acquireRecoveryLease key id now leaseExpiresAt ∧
    ∃ lock owner, r.locks.get key = some lock ∧ lock.leaseExpiresAt ≤ now ∧
      lock.ownerOperationId ≠ id ∧ r.operations.get lock.ownerOperationId = some owner ∧
      owner.status.isTerminal = false

end RepositoryCall

namespace InMemoryDurableMutationRepository

/-- A call that leaves `rows'` is a move of the protocol, and a forbidden one only if the call,
where it changes the rows, is of the kind named for it. -/
def Refines (host : Host) (r : Repository) (h : r.rows.Wf) (c : RepositoryCall) (rows' : Rows)
    (h' : rows'.Wf) : Prop :=
  ∃ l, Move (r.rows.table h) (rows'.table h') l ∧
    (l.Unsticks (r.rows.table h) → (c.next host r).rows ≠ r.rows → c.WakesStuck host r) ∧
    (l.TakesOver (r.rows.table h) → (c.next host r).rows ≠ r.rows → c.TakesOverLive host r)

variable {host : Host} {r : Repository} {h : r.rows.Wf} {c : RepositoryCall}

variable {rows' : Rows} {h' : rows'.Wf}

/-- Rows that show the same table are a stay. -/
theorem refines_stay (hops : rows'.operations = r.operations)
    (hlocks : (rows'.table h').lock = (r.rows.table h).lock) : Refines host r h c rows' h' :=
  ⟨.stay, .stay (by simp only [Rows.table, hops]; rfl) hlocks, fun hl => hl.elim, fun hl => hl.elim⟩

variable {operation : Operation}

/-- The table entry of an operation. -/
theorem entry_of_get (hop : r.operations.get operation.id = some operation) :
    (r.rows.table h).entry operation.id = some (operation.operationKey, operation.status.phase) := by
  simp [Rows.table, rows, hop]

variable {now : Timestamp} {token : ℕ}

/-- The table lock of an owner. -/
theorem Owns.lock (ho : r.Owns operation token now) :
    (r.rows.table h).lock operation.operationKey = some (operation.id, token) := by
  obtain ⟨lease, hlock, howner, htoken, -⟩ := ho
  simp [Rows.table, rows, hlock, howner, htoken]

/-- A new operation is a new member. -/
theorem refines_create (hnone : r.operations.get operation.id = none)
    (hstatus : operation.status = .validated)
    (hops : rows'.operations = r.operations.set operation.id operation)
    (hlocks : rows'.locks = r.locks) : Refines host r h c rows' h' := by
  refine ⟨.create operation.id operation.operationKey, .create ?_ ?_ ?_, fun hl => hl.elim,
    fun hl => hl.elim⟩
  · simp [Rows.table, rows, hnone]
  · have hlive : operation.status.phase = .live := by rw [hstatus]; rfl
    rw [← hlive]
    exact r.rows.entry_of_set h hops
  · simp only [Rows.table, hlocks]
    rfl

variable {operation updated : Operation}

/-- An operation written by the owner of its lock is an owned change. -/
theorem refines_owned (drop : Bool) (howns : r.Owns operation token now)
    (hop : r.operations.get operation.id = some operation) (same : SameOperation operation updated)
    (hops : rows'.operations = r.operations.set updated.id updated)
    (hlocks : rows'.locks = if drop then r.locks.delete operation.operationKey else r.locks)
    (hdrop : drop = true → updated.status.isSettled = true)
    (hwakes : operation.status = .indeterminate → (c.next host r).rows ≠ r.rows →
      c.WakesStuck host r) : Refines host r h c rows' h' := by
  refine ⟨.owned operation.id operation.operationKey updated.status.phase drop,
    .owned howns.lock (fun hd => phase_eq_settled.mpr (hdrop hd)) ?_ ?_, ?_,
    fun hl => hl.elim⟩
  · rw [← same.id, ← same.operationKey]
    exact r.rows.entry_of_set h hops
  · have hdl := Rows.lock_dropLock r.rows h drop operation.operationKey
      (h.dropLock drop operation.operationKey)
    rw [← hdl]
    cases drop <;> simp only [Rows.table, hlocks] <;> rfl
  · rintro ⟨hstuck, -⟩
    rw [entry_of_get hop] at hstuck
    simp only [some.injEq, Prod.mk.injEq, phase_eq_stuck, true_and] at hstuck
    exact hwakes hstuck

/-- A live operation written without its lock is an unowned change. -/
theorem refines_unowned (hop : r.operations.get operation.id = some operation)
    (same : SameOperation operation updated)
    (hops : rows'.operations = r.operations.set updated.id updated) (hlocks : rows'.locks = r.locks)
    (hlive : operation.status.isTerminal = false) (hknown : updated.status ≠ .indeterminate) :
    Refines host r h c rows' h' := by
  refine ⟨.unowned operation.id operation.operationKey updated.status.phase,
    .unowned ?_ (by simpa using hknown) ?_ ?_, fun hl => hl.elim, fun hl => hl.elim⟩
  · rw [entry_of_get hop, phase_eq_live.mpr hlive]
  · rw [← same.id, ← same.operationKey]
    exact r.rows.entry_of_set h hops
  · simp only [Rows.table, hlocks]
    rfl

/-- A grant over a lock whose owner is not stuck is a grant of the protocol. -/
theorem refines_grant {operationKey operationId : JsString} {now leaseExpiresAt : Timestamp}
    {h' : (r.grantedRows operationKey operationId now leaseExpiresAt).Wf}
    (hfree : ∀ lock, r.locks.get operationKey = some lock →
      r.statusOf lock.ownerOperationId ≠ some .indeterminate)
    (htakes : ∀ lock owner, r.locks.get operationKey = some lock →
      lock.ownerOperationId ≠ operationId → r.operations.get lock.ownerOperationId = some owner →
      owner.status.isTerminal = false → (c.next host r).rows ≠ r.rows → c.TakesOverLive host r) :
    Refines host r h c (r.grantedRows operationKey operationId now leaseExpiresAt) h' := by
  refine ⟨.grant operationId operationKey _, .grant ?_ rfl
    (JsMap.map_get_set _ _ _ _), fun hl => hl.elim, ?_⟩
  · rintro b m hlock hstuck
    simp only [Rows.table, rows, map_eq_some_iff, Prod.mk.injEq,
      phase_eq_stuck] at hlock hstuck
    obtain ⟨lock, hget, rfl, -⟩ := hlock
    obtain ⟨owner, howner, -, hind⟩ := hstuck
    exact hfree lock hget (by simp [statusOf, howner, hind])
  · rintro ⟨b, m, hlock, hne, hlive⟩
    simp only [Rows.table, rows, map_eq_some_iff, Prod.mk.injEq,
      phase_eq_live] at hlock hlive
    obtain ⟨lock, hget, rfl, -⟩ := hlock
    obtain ⟨owner, howner, -, hterm⟩ := hlive
    exact htakes lock owner hget hne howner hterm

/-- A written step with its parent, by the owner of the lock. -/
theorem refines_stepWrite {step step' : OperationStep} (drop : Bool)
    (w : StepWrite r operation step step' updated) (howns : r.Owns operation token now)
    {h' : ((r.rows.write updated step').dropLock drop operation.operationKey).Wf}
    (hdrop : drop = true → step'.status.isSettled = true) (hlive : step.status.isTerminal = false)
    (htarget : c.stepTarget = some (operation.id, step.id)) :
    Refines host r h c ((r.rows.write updated step').dropLock drop operation.operationKey) h' := by
  refine refines_owned drop howns w.operation_get w.sameOperation ?_ ?_ ?_ ?_
  · cases drop <;> rfl
  · cases drop <;> rfl
  · intro hd
    rw [w.status, isSettled_parentStatus]
    exact hdrop hd
  · intro hind hchanged
    exact ⟨hchanged, operation, step, htarget, w.operation_get, hind, w.step_get, hlive⟩

/-- A transition is an owned change with its lease and an unowned one without. -/
theorem refines_transition {input : DurableTransitionInput} {current : Operation}
    (hchecks : r.transitionChecks input = .ok current)
    {h' : Rows.Wf (Rows.dropLock
      { r.rows with operations := r.operations.set current.id (applyTransition current input) }
      (transitionDrops input) current.operationKey)} : Refines host r h c _ h' := by
  obtain ⟨hop, hnext, hown⟩ := transitionChecks_ok hchecks
  have hid := h.operation_id hop
  rw [← hid] at hop
  have hlive : current.status.isTerminal = false :=
    isTerminal_eq_false_of_mem hnext
  have same := applyTransition_same current input
  -- without a lease the operation may not be in flight
  cases hownership : input.ownership with
  | none =>
    simp only [hownership] at hown
    have hkeep : transitionDrops input = false := by simp [transitionDrops, hown.2]
    refine refines_unowned hop same (by rw [hkeep]; rfl) (by rw [hkeep]; rfl) hlive ?_
    intro hind
    change input.status = .indeterminate at hind
    rw [hind] at hnext
    have := executing_or_verifying_of_indeterminate_mem hnext
    simp [isInFlight, this] at hown
  | some ownership =>
    simp only [hownership] at hown
    obtain ⟨hrelease, lease, hlock, howner, htoken, hexp⟩ := hown
    have howns : r.Owns current ownership.fencingToken input.now := by
      obtain ⟨-, op, hget, hopkey⟩ := h.lock_owner hlock
      have hsame : current = op := by
        rw [howner, ← hid] at hget
        exact some.inj (hop.symm.trans hget)
      exact ⟨lease, by rw [hsame, hopkey]; exact hlock, by rw [howner, hid], htoken, hexp⟩
    refine refines_owned (transitionDrops input) howns hop same ?_ ?_ ?_ ?_
    · cases transitionDrops input <;> rfl
    · cases transitionDrops input <;> rfl
    · intro hd
      simp only [transitionDrops, Bool.and_eq_true] at hd
      rcases isTerminal_iff.mp hd.1 with hs | hs
      · exact hs
      · exact absurd hs (hrelease hd.2)
    · intro hind
      rw [hind] at hlive
      exact absurd hlive (by decide)

/-- Every call refines the protocol, by the change it makes. -/
theorem refines_of_callChange (h : r.rows.Wf) (hchange : CallChange r c rows')
    (h' : rows'.Wf) : Refines host r h c rows' h' := by
  cases hchange with
  | same | dispatched => exact refines_stay rfl rfl
  | claimed _ hoperation | created _ hoperation =>
    subst hoperation
    exact refines_create (by assumption) rfl rfl rfl
  | rejected _ _ _ _ checks written =>
    have hstatus := (rejectChecks_eq_ok.mp checks).2.2.2.1
    refine refines_unowned written.operation_get written.sameOperation rfl rfl
      (by rw [hstatus]; rfl) ?_
    rw [written.status]
    change rejected ≠ .indeterminate
    decide
  | transitioned _ checks written =>
    obtain ⟨hop, hst, -, -, howns, -, -, hnext, -⟩ := stepTransitionChecks_eq_ok.mp checks
    refine refines_stepWrite false written.toStepWrite howns (fun hd => by cases hd)
      (isTerminal_eq_false_of_mem hnext) ?_
    rw [h.operation_id hop, h.step_id hst]
    rfl
  | finalized input checks written =>
    obtain ⟨hterm, hop, hst, -, -, howns, -, -, hnext, -⟩ := finalizeChecks_eq_ok.mp checks
    refine refines_stepWrite _ written.toStepWrite howns ?_
      (isTerminal_eq_false_of_mem hnext) ?_
    · intro hd
      -- The step ends as asked; only `INDETERMINATE` makes an indeterminate parent.
      rcases isTerminal_iff.mp hterm with hs | hs
      · exact hs
      · simp only [ne_eq, decide_not, Bool.not_eq_true', decide_eq_false_iff_not, written.status,
          applyStepFinalization, hs] at hd
        exact absurd rfl hd
    · rw [h.operation_id hop, h.step_id hst]
      rfl
  | recovered _ _ _ _ checks live _ written =>
    obtain ⟨hop, hst, -, -, howns⟩ := recoverChecks_eq_ok.mp checks
    refine refines_stepWrite _ written.toStepWrite howns ?_ live ?_
    · intro hd
      simp only [Bool.not_eq_true'] at hd
      simp only [recoveredStep, recoveryStatus, hd]
      rfl
    · rw [h.operation_id hop, h.step_id hst]
      rfl
  | moved _ checks => exact refines_transition checks
  | granted _ _ _ _ _ free =>
    refine refines_grant ?_ ?_
    · intro lock hlock hind
      exact absurd (free lock hlock _ hind) (by decide)
    · intro lock owner hlock _ howner hlive
      have hsettled := free lock hlock owner.status (by simp [statusOf, howner])
      rw [isTerminal_of_isSettled hsettled] at hlive
      cases hlive
  | recoveryGranted operationKey operationId now leaseExpiresAt _ expired =>
    exact refines_grant (fun lock hlock => (expired lock hlock).2)
      fun lock owner hlock hne howner hlive hchanged => ⟨hchanged, operationKey, operationId, now,
        leaseExpiresAt, rfl, lock, owner, hlock, (expired lock hlock).1, hne, howner, hlive⟩
  | @renewed _ _ leaseExpiresAt current lock =>
    refine refines_stay rfl ?_
    -- The owner and the token of the lock are what they were.
    refine (JsMap.map_get_set _ _ _ _).trans (Function.update_eq_self_iff.mpr ?_)
    simp [lock]
  | released lease lock hstatus settled =>
    obtain ⟨-, owner, howner, hkey⟩ := h.lock_owner lock
    refine ⟨.release lease.operationKey, .release
      (by simp only [Rows.table, rows, lock, map_some]; rfl) ?_ rfl
      (Rows.lock_dropLock r.rows h true lease.operationKey h'), fun hl => hl.elim,
      fun hl => hl.elim⟩
    change r.operations.get _ = some owner at howner
    simp only [statusOf, howner, map_some, some.injEq] at hstatus
    simp [Rows.table, rows, howner, hkey, hstatus, phase_eq_settled.mpr settled]

/-- Every call is a move of the lease protocol. -/
theorem next_move (host : Host) (c : RepositoryCall) (h : r.rows.Wf)
    (h' : (c.next host r).rows.Wf) :
    ∃ l, Move (r.rows.table h) ((c.next host r).rows.table h') l ∧
      (l.Unsticks (r.rows.table h) → c.WakesStuck host r) ∧
      (l.TakesOver (r.rows.table h) → c.TakesOverLive host r) := by
  obtain ⟨l, hmove, hwakes, htakes⟩ := refines_of_callChange h (next_callChange host c h) h'
  -- A forbidden move changes the table, and with it the rows.
  have hrows : (r.rows.table h) ≠ (c.next host r).rows.table h' → (c.next host r).rows ≠ r.rows := by
    intro hne heq
    simp only [heq, ne_eq, not_true_eq_false] at hne
  exact ⟨l, hmove, fun hl => hwakes hl (hrows (hmove.ne_of_unsticks hl)),
    fun hl => htakes hl (hrows (hmove.ne_of_takesOver hl))⟩

end InMemoryDurableMutationRepository

end ZimaControl
