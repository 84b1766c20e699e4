import ZimaControl.Mutation.Protocol

/-!
# An unknown outcome blocks its application

An `INDETERMINATE` operation owns the lock of its key, keeps it, and stands in the way of every
other operation of the key: a stuck member keeps its lock, if no step call wakes it. The repository
does not check this: in `finalize_releases_indeterminate` a parent that `transitionWithAudit` had
made `INDETERMINATE` is failed through its step, its lock deleted, and the key granted to another
operation.
-/

namespace ZimaControl

namespace InMemoryDurableMutationRepository

open LeaseProtocol

variable {host : Host} {r r' : Repository}

section

variable (hrun : ReachedBy host (fun r c => ¬ c.WakesStuck host r) r r')
include hrun

/-- Along a run that wakes no stuck parent, stuck members own their locks. -/
theorem ReachedBy.stuckOwns (h : r.rows.Wf) (h' : r'.rows.Wf) (hs : (r.rows.table h).StuckOwns) :
    (r'.rows.table h').StuckOwns := by
  refine (hrun.induct (fun r => ∃ h, (r.rows.table h).StuckOwns) ⟨h, hs⟩ ?_).2
  rintro r₁ c hc ⟨h₁, hs₁⟩
  obtain ⟨l, hmove, hwakes, -⟩ := next_move host c h₁ (next_wf host c h₁)
  exact ⟨_, hmove.stuckOwns (fun hl => hc (hwakes hl)) hs₁⟩

/-- Along such a run a stuck operation stays so and keeps its lock, token included. -/
theorem ReachedBy.stuck_kept (h : r.rows.Wf) (h' : r'.rows.Wf) {id key : JsString} {token : ℕ}
    (hentry : (r.rows.table h).entry id = some (key, .stuck))
    (hlock : (r.rows.table h).lock key = some (id, token)) :
    (r'.rows.table h').entry id = some (key, .stuck) ∧
      (r'.rows.table h').lock key = some (id, token) := by
  refine (hrun.induct (fun r => ∃ h, (r.rows.table h).entry id = some (key, .stuck) ∧
    (r.rows.table h).lock key = some (id, token)) ⟨h, hentry, hlock⟩ ?_).2
  rintro r₁ c hc ⟨h₁, he, hl⟩
  obtain ⟨l, hmove, hwakes, -⟩ := next_move host c h₁ (next_wf host c h₁)
  exact ⟨_, hmove.stuck_kept (fun hl => hc (hwakes hl)) he hl⟩

end

/-- The table entry of an indeterminate operation. -/
theorem entry_stuck (h : r.rows.Wf) {operation : Operation}
    (hop : r.operations.get operation.id = some operation)
    (hind : operation.status = .indeterminate) :
    (r.rows.table h).entry operation.id = some (operation.operationKey, .stuck) := by
  rw [entry_of_get hop, ActionStatus.phase_eq_stuck.mpr hind]

/-- A lock of the table is a lock of the repository. -/
theorem lock_of_table {h : r.rows.Wf} {key id : JsString} {token : ℕ}
    (hlock : (r.rows.table h).lock key = some (id, token)) :
    ∃ lock, r.locks.get key = some lock ∧ lock.ownerOperationId = id ∧
      lock.fencingToken = token := by
  simp only [Rows.table, rows, Option.map_eq_some_iff, Prod.mk.injEq] at hlock
  exact hlock

/-- A status of the table is a status of the repository. -/
theorem statusOf_of_table {h : r.rows.Wf} {key id : JsString}
    (hentry : (r.rows.table h).entry id = some (key, .stuck)) :
    r.statusOf id = some .indeterminate := by
  simp only [Rows.table, rows, Option.map_eq_some_iff, Prod.mk.injEq,
    ActionStatus.phase_eq_stuck] at hentry
  obtain ⟨op, hop, -, hind⟩ := hentry
  simp [statusOf, hop, hind]

/-- A lock with an indeterminate owner answers `null` to every operation, also for its recovery. -/
theorem leases_of_indeterminate {key other : JsString} {lock : MutationLease}
    (hlock : r.locks.get key = some lock)
    (hind : r.statusOf lock.ownerOperationId = some .indeterminate)
    (now leaseExpiresAt : Timestamp) :
    let answer := (if leaseExpiresAt ≤ now then .error leaseExpirationError else .ok none, r)
    r.acquireLease key other now leaseExpiresAt = answer ∧
      r.acquireRecoveryLease key other now leaseExpiresAt = answer := by
  have hanswer : r.lockAnswer key other now = some none := by simp [lockAnswer, hlock, hind]
  unfold acquireLease acquireRecoveryLease
  constructor
  · split_ifs
    · rfl
    · rfl
    · rw [hanswer]
  · split_ifs
    · rfl
    split
    · rfl
    · split_ifs
      · rfl
      · simp [hlock, hind]

/-! ## Concrete runs -/

/-- A host for concrete runs, which look at no hash, collation or printed date. -/
def plainHost : Host := ⟨fun s => s, fun _ _ => true, fun _ => []⟩

/-- A plan to start application `app`. -/
def samplePlan (operationId idempotencyKey : String) : ActionPlan where
  operationId := js operationId
  actor := ⟨js "actor", .operator⟩
  action := .start
  target := ⟨js "app", none, none⟩
  executionDomain := SupportedDomain.docker
  operationKey := js "application:app"
  idempotencyKey := js idempotencyKey

/-- The claim of such a plan. -/
def sampleClaim (operationId idempotencyKey : String) (now : Timestamp) :
    DurableMutationClaimInput where
  plan := samplePlan operationId idempotencyKey
  fingerprint := mutationFingerprint plainHost .start ⟨js "app", none, none⟩
  now := now
  idempotencyExpiresAt := now + 86400000
  deadlineAt := now + 60000

/-- The claim of such a plan with its step. -/
def sampleParentClaim (operationId stepId idempotencyKey : String) (now : Timestamp) :
    DurableParentChildClaimInput where
  toDurableMutationClaimInput := sampleClaim operationId idempotencyKey now
  stepId := js stepId
  snapshot :=
    { applicationId := js "app"
      deploymentId := js "deployment"
      serviceId := js "service"
      containerId := List.replicate 64 (unit 'a')
      action := .start
      targetFingerprint := List.replicate 64 (unit 'b')
      snapshotAt := now
      authorityEvidence := js "evidence"
      applicationDiscoveredAt := now
      deploymentDiscoveredAt := now
      runtimeObservedAt := now }

/-- The first lease of the application, as granted at time `1`. -/
def sampleLease (operationId : String) : MutationLease :=
  ⟨js "application:app", js operationId, 1, 1, 120001⟩

/-- An operation without steps that ends with an unknown outcome. -/
def unknownOutcome : List RepositoryCall :=
  [ .claim (sampleClaim "op" "key-1" 1),
    .acquireLease (js "application:app") (js "op") 1 120001,
    .transitionWithAudit
      { operationId := js "op", expected := [.validated], status := .executing, now := 2,
        eventType := .stateChanged, ownership := some (sampleLease "op") },
    .transitionWithAudit
      { operationId := js "op", expected := [.executing], status := .indeterminate, now := 3,
        eventType := .failed, ownership := some (sampleLease "op") } ]

/-- A run of calls none of which is a step call wakes no stuck parent. -/
theorem reachedBy_of_no_stepTarget (host : Host) (calls : List RepositoryCall)
    (hcalls : ∀ c ∈ calls, c.stepTarget = none) (r : Repository) :
    ReachedBy host (fun r c => ¬ c.WakesStuck host r) r (r.run host calls) := by
  induction calls generalizing r with
  | nil => exact .refl
  | cons c calls ih =>
    have hc : ¬ c.WakesStuck host r := by
      rintro ⟨-, operation, step, htarget, -⟩
      rw [hcalls c (by simp)] at htarget
      cases htarget
    exact (ReachedBy.refl.call c hc).trans (ih (fun c' hc' => hcalls c' (by simp [hc'])) _)

/-! ## The result -/

/-- Where no call wakes a stuck parent, an `INDETERMINATE` operation owns the lock of its key and is
the only one of its key. From then on the owner and token of that lock stay, and every request for a
lease of that key with a future expiry is answered with `null`. -/
theorem indeterminate_blocks_key (auditFaults : List Bool)
    (hrun : ReachedBy host (fun r c => ¬ c.WakesStuck host r) (initial auditFaults) r)
    {operation : DurableMutationOperation} {id : JsString}
    (hop : r.operations.get id = some operation) (hind : operation.status = .indeterminate) :
    (∃ lock, r.locks.get operation.operationKey = some lock ∧
      lock.ownerOperationId = operation.id ∧
      ∀ r', ReachedBy host (fun r c => ¬ c.WakesStuck host r) r r' →
        (∃ lock', r'.locks.get operation.operationKey = some lock' ∧
          lock'.ownerOperationId = operation.id ∧ lock'.fencingToken = lock.fencingToken) ∧
        ∀ other now leaseExpiresAt,
          r'.acquireLease operation.operationKey other now leaseExpiresAt =
            (if leaseExpiresAt ≤ now then .error leaseExpirationError else .ok none, r') ∧
          r'.acquireRecoveryLease operation.operationKey other now leaseExpiresAt =
            (if leaseExpiresAt ≤ now then .error leaseExpirationError else .ok none, r')) ∧
    ∀ id' operation', r.operations.get id' = some operation' →
      operation'.status = .indeterminate → operation'.operationKey = operation.operationKey →
      operation'.id = operation.id := by
  have h : r.rows.Wf := hrun.wf (initial_wf auditFaults)
  have hstuck : (r.rows.table h).StuckOwns :=
    hrun.stuckOwns (initial_wf auditFaults) h (Table.stuckOwns_of_no_entry _ fun _ => rfl)
  have hid := h.operation_id hop
  rw [← hid] at hop
  have hentry := entry_stuck h hop hind
  obtain ⟨token, htlock⟩ := hstuck _ _ hentry
  obtain ⟨lock, hlock, howner, rfl⟩ := lock_of_table htlock
  -- the table of the protocol keeps the lock; what it says is read back in the repository
  refine ⟨⟨lock, hlock, howner, fun r' hrun' => ?_⟩, ?_⟩
  · have h' : r'.rows.Wf := hrun'.wf h
    obtain ⟨hentry', htlock'⟩ := hrun'.stuck_kept h h' hentry htlock
    obtain ⟨lock', hlock', howner', htoken'⟩ := lock_of_table htlock'
    have hstatus : r'.statusOf lock'.ownerOperationId = some .indeterminate := by
      rw [howner']
      exact statusOf_of_table hentry'
    exact ⟨⟨lock', hlock', howner', htoken'⟩, fun other now leaseExpiresAt =>
      leases_of_indeterminate hlock' hstatus now leaseExpiresAt⟩
  · intro id' operation' hop' hind' hkey
    rw [← h.operation_id hop'] at hop'
    have hentry' := entry_stuck h hop' hind'
    rw [hkey] at hentry'
    exact hstuck.unique hentry' hentry

/-- The operation of `unknownOutcome` owns its lock. -/
theorem indeterminate_blocks_key_unknownOutcome :
    let r := (initial []).run plainHost unknownOutcome
    ∃ lock, r.locks.get (js "application:app") = some lock ∧ lock.ownerOperationId = js "op" := by
  intro r
  have hstatus : (r.operations.get (js "op")).map (fun op => (op.status, op.operationKey, op.id)) =
      some (.indeterminate, js "application:app", js "op") := by decide +kernel
  obtain ⟨operation, hop, hfields⟩ := Option.map_eq_some_iff.mp hstatus
  simp only [Prod.mk.injEq] at hfields
  obtain ⟨hind, hkey, hid⟩ := hfields
  have hrun := reachedBy_of_no_stepTarget plainHost unknownOutcome (by decide) (initial [])
  obtain ⟨⟨lock, hlock, howner, -⟩, -⟩ := indeterminate_blocks_key [] hrun hop hind
  exact ⟨lock, by rw [← hkey]; exact hlock, by rw [howner, hid]⟩

/-- `transitionWithAudit` makes the parent of an executing step `INDETERMINATE`. -/
def indeterminateParent : List RepositoryCall :=
  [ .claimParentWithStep (sampleParentClaim "op" "step" "key-1" 1),
    .claim (sampleClaim "other" "key-2" 1),
    .acquireLease (js "application:app") (js "op") 1 120001,
    .transitionStepWithAudit
      { operationId := js "op", childStepId := js "step", expected := [.validated],
        status := .executing, now := 2, eventType := .stateChanged, ownership := sampleLease "op",
        adoptOwnership := true },
    .transitionWithAudit
      { operationId := js "op", expected := [.executing], status := .indeterminate, now := 3,
        eventType := .failed, ownership := some (sampleLease "op") } ]

/-- The finalization of its step as failed. -/
def finalizeFailed : RepositoryCall :=
  .finalizeStepAndParent
    { operationId := js "op", childStepId := js "step", expected := [.executing], status := .failed,
      now := 4, ownership := sampleLease "op", verificationState := .failed, recoveryState := .none,
      externalEffect := .notStarted }

/-- Finalizing the step of an `INDETERMINATE` parent ends that status and deletes its lock, and the
key is granted to another operation. -/
theorem finalize_releases_indeterminate :
    let r := (initial []).run plainHost indeterminateParent
    let r' := finalizeFailed.next plainHost r
    r.statusOf (js "op") = some .indeterminate ∧
      (r.locks.get (js "application:app")).map (·.ownerOperationId) = some (js "op") ∧
      r'.statusOf (js "op") = some .failed ∧ r'.locks.get (js "application:app") = none ∧
      (r'.acquireLease (js "application:app") (js "other") 5 120005).1 =
        .ok (some ⟨js "application:app", js "other", 2, 5, 120005⟩) := by
  decide +kernel

end InMemoryDurableMutationRepository

end ZimaControl
