import ZimaControl.Mutation.Indeterminate
import ZimaControl.Mutation.System

/-!
# One external effect at a time

Once the dispatch of an operation is authorised, no other operation of its key should be authorised
before it has settled. An authorisation needs the lock of the key, and an owner keeps its lock until
it has settled, unless `acquireRecoveryLease` takes an expired lock over for another operation. That
does happen: recovery hands the lock of a crashed operation to an older one that never executed,
rejects that one and deletes the lock. `recovery_admits_second_dispatch` is the run.
-/

namespace ZimaControl

open RepositoryCall

namespace RepositoryCall

/-- The `now` of a call. -/
def time : RepositoryCall → Option Timestamp
  | claim input => some input.now
  | claimParentWithStep input => some input.now
  | replayParentClaim input => some input.now
  | findParentClaim input => some input.now
  | rejectParentChildBeforeOwnership _ _ now _ => some now
  | authorizeStepDispatch input => some input.now
  | transitionStepWithAudit input => some input.now
  | finalizeStepAndParent input => some input.now
  | recoverStepAndParent _ _ _ now => some now
  | authorizeDispatch input => some input.now
  | transitionWithAudit input => some input.now
  | acquireLease _ _ now _ => some now
  | acquireRecoveryLease _ _ now _ => some now
  | renewLease _ now _ => some now
  | listRecoverable now => some now
  | findOperation _ | findOperationWithSteps _ | releaseLease _ | listAuditEvents _ => none

end RepositoryCall

namespace InMemoryDurableMutationRepository

open LeaseProtocol

variable {host : Host} {r : Repository}

/-! ## Runs, state by state -/

/-- The repository after the first `n` calls of a run. -/
def stateAt (host : Host) (r : Repository) (calls : List RepositoryCall) (n : ℕ) : Repository :=
  r.run host (calls.take n)

variable {calls : List RepositoryCall} {c : RepositoryCall}

/-- The state before a call and after it. -/
theorem stateAt_succ (host : Host) (r : Repository) {n : ℕ} (hc : calls[n]? = some c) :
    stateAt host r calls (n + 1) = c.next host (stateAt host r calls n) := by
  rw [stateAt, List.take_add_one, hc, run, List.foldl_append]
  rfl

/-- After the last call nothing changes. -/
theorem stateAt_succ_of_none {n : ℕ} (hc : calls[n]? = none) :
    stateAt host r calls (n + 1) = stateAt host r calls n := by
  rw [stateAt, stateAt, List.take_add_one, hc]
  simp

/-- Every state of a run from an empty repository is well formed. -/
theorem stateAt_wf (host : Host) (auditFaults : List Bool) (calls : List RepositoryCall) (n : ℕ) :
    (stateAt host (initial auditFaults) calls n).rows.Wf :=
  (reachedBy_run host _ _).wf (initial_wf auditFaults)

/-- Call `n` of the run authorised the dispatch of an operation. -/
def GrantedAt (host : Host) (r : Repository) (calls : List RepositoryCall) (n : ℕ) (id : JsString) :
    Prop :=
  ∃ c, calls[n]? = some c ∧ c.dispatchTarget = some id ∧
    c.returned host (stateAt host r calls n) = true

/-- An operation has settled in a state: its status is one of the five with a known outcome. -/
def Settled (r : Repository) (id : JsString) : Prop :=
  ∃ status, r.statusOf id = some status ∧ status.isSettled = true

/-- Two operations exist and have the same operation key. -/
def SameKey (r : Repository) (a b : JsString) : Prop :=
  ∃ opA opB, r.operations.get a = some opA ∧ r.operations.get b = some opB ∧
    opA.operationKey = opB.operationKey

/-- Two operations have the same key if comparing their rows says so. -/
theorem sameKey_of_beq {a b : JsString}
    (h : (match r.operations.get a, r.operations.get b with
      | some opA, some opB => opA.operationKey == opB.operationKey
      | _, _ => false) = true) : SameKey r a b := by
  split at h
  case h_1 opA opB hA hB => exact ⟨opA, opB, hA, hB, by simpa using h⟩
  case h_2 => cases h

/-- Between the dispatches of two operations of one key, the first has settled. -/
def Exclusive (host : Host) (r : Repository) (calls : List RepositoryCall) : Prop :=
  ∀ i j a b, i < j → GrantedAt host r calls i a → GrantedAt host r calls j b → a ≠ b →
    SameKey (stateAt host r calls j) a b →
    ∃ n, i ≤ n ∧ n ≤ j ∧ Settled (stateAt host r calls n) a

/-! ## The argument -/

/-- Only the owner of the key's lock is granted a dispatch. -/
theorem owns_of_returned (h : r.rows.Wf) {id : JsString} (htarget : c.dispatchTarget = some id)
    (hret : c.returned host r = true) :
    ∃ operation token now, r.operations.get id = some operation ∧ r.Owns operation token now := by
  cases c with
  | authorizeStepDispatch input =>
    cases htarget
    rcases authorizeStepDispatch_rows h input with ⟨⟨e, he⟩, -⟩ | ⟨operation, step, hchecks, -⟩
    · simp [returned, exec, he, Except.isOk, Except.toBool] at hret
    · obtain ⟨hop, -, -, -, howns, -⟩ := stepDispatchChecks_ok hchecks
      exact ⟨operation, _, _, hop, howns⟩
  | authorizeDispatch input =>
    cases htarget
    rcases authorizeDispatch_rows h input with
      ⟨⟨e, he⟩, -⟩ | ⟨operation, hop, -, hchecks, -⟩ | ⟨operation, step, stepInput, hid, hchecks, -⟩
    · simp [returned, exec, he, Except.isOk, Except.toBool] at hret
    · obtain ⟨-, howns, -⟩ := dispatchChecks_ok (h.operation_id hop) hchecks
      exact ⟨operation, _, _, hop, howns⟩
    · obtain ⟨hop, -, -, -, howns, -⟩ := stepDispatchChecks_ok hchecks
      rw [← hid]
      exact ⟨operation, _, _, hop, howns⟩
  | _ => cases htarget

/-- A settled entry of the table is a settled operation. -/
theorem settled_of_table {h : r.rows.Wf} {id key : JsString}
    (hentry : (r.rows.table h).entry id = some (key, .settled)) : Settled r id := by
  simp only [Rows.table, rows, Option.map_eq_some_iff, Prod.mk.injEq,
    ActionStatus.phase_eq_settled] at hentry
  obtain ⟨op, hop, -, hsettled⟩ := hentry
  exact ⟨op.status, by simp [statusOf, hop], hsettled⟩

/-- Two consecutive states of a run without takeovers are a move without takeover. -/
theorem stateAt_move {auditFaults : List Bool}
    (hcalls : ∀ n (c : RepositoryCall), calls[n]? = some c →
      ¬ c.TakesOverLive host (stateAt host (initial auditFaults) calls n)) (n : ℕ) :
    let t := fun n => (stateAt host (initial auditFaults) calls n).rows.table
      (stateAt_wf host auditFaults calls n)
    ∃ l, Move (t n) (t (n + 1)) l ∧ ¬ l.TakesOver (t n) := by
  intro t
  have h := stateAt_wf host auditFaults calls n
  rcases hc : calls[n]? with _ | c
  · have heq : t (n + 1) = t n := by
      simp [t, stateAt_succ_of_none hc]
    exact ⟨.stay, .stay (by rw [heq]) (by rw [heq]), fun hl => hl.elim⟩
  have hnext := stateAt_succ host (initial auditFaults) hc
  obtain ⟨l, hmove, -, htakes⟩ := next_move host c h (next_wf host c h)
  refine ⟨l, ?_, fun hl => hcalls n c hc (htakes hl)⟩
  have heq : t (n + 1) = (c.next host (stateAt host (initial auditFaults) calls n)).rows.table
      (next_wf host c h) := by
    simp [t, hnext]
  rw [heq]
  exact hmove

/-- In every run in which no call takes an expired lock over from another operation that has not
ended, dispatches of one key exclude each other. -/
theorem dispatch_exclusive (host : Host) (auditFaults : List Bool) (calls : List RepositoryCall)
    (hcalls : ∀ n (c : RepositoryCall), calls[n]? = some c →
      ¬ c.TakesOverLive host (stateAt host (initial auditFaults) calls n)) :
    Exclusive host (initial auditFaults) calls := by
  intro i j a b hij hgranta hgrantb hne hkeys
  have hwf := stateAt_wf host auditFaults calls
  choose l hmove hl using stateAt_move hcalls
  -- The first operation owns its lock when it is granted.
  obtain ⟨ca, -, htargeta, hreta⟩ := hgranta
  obtain ⟨opA, tokenA, nowA, hopA, hownsA⟩ := owns_of_returned (hwf i) htargeta hreta
  have hidA : opA.id = a := (hwf i).operation_id hopA
  have hlockA := hownsA.lock (h := hwf i)
  rw [hidA] at hlockA
  rcases owns_until_settled hmove hl hlockA (j - i) with ⟨n, hin, hnj, hsettled⟩ | ⟨token, hlock⟩
  · exact ⟨n, hin, by omega, settled_of_table hsettled⟩
  -- Otherwise it still owns it when the second is granted, which owns it then.
  exfalso
  rw [Nat.add_sub_cancel' hij.le] at hlock
  obtain ⟨cb, -, htargetb, hretb⟩ := hgrantb
  obtain ⟨opB, tokenB, nowB, hopB, hownsB⟩ := owns_of_returned (hwf j) htargetb hretb
  have hidB : opB.id = b := (hwf j).operation_id hopB
  have hlockB := hownsB.lock (h := hwf j)
  obtain ⟨opA', opB', hopA', hopB', hkey⟩ := hkeys
  -- The keys at the two grants are the same key.
  have hsameB : opB' = opB := Option.some.inj (hopB'.symm.trans hopB)
  obtain ⟨p, hentry⟩ := Table.owner_entry _ _ _ _ hlock
  have hkeyA : opA'.operationKey = opA.operationKey := by
    simp only [Rows.table, rows, hopA', Option.map_some, Option.some.injEq, Prod.mk.injEq] at hentry
    exact hentry.1
  rw [hidB, ← hsameB, ← hkey, hkeyA, hlock] at hlockB
  simp only [Option.some.injEq, Prod.mk.injEq] at hlockB
  exact hne hlockB.1

/-- Two operations of one key, dispatched one after the other. -/
def sequentialDispatches : List RepositoryCall :=
  let lease : JsString → ℕ → MutationLease := fun id token =>
    ⟨js "application:app", id, token, 1, 120001⟩
  let executing : String → ℕ → RepositoryCall := fun id token => .transitionWithAudit
    { operationId := js id, expected := [.validated], status := .executing, now := 2
      eventType := .stateChanged, ownership := some (lease (js id) token) }
  let dispatch : String → ℕ → RepositoryCall := fun id token => .authorizeDispatch
    { operationId := js id, operationKey := js "application:app", fencingToken := token
      action := .start, applicationId := js "app", serviceId := none, containerId := js "container"
      executionDomain := SupportedDomain.docker, now := 3 }
  let claim : String → String → RepositoryCall := fun id key => .claim
    { sampleClaim id key 1 with
      plan := { samplePlan id key with target := ⟨js "app", none, some (js "container")⟩ } }
  [ claim "first" "key-1", claim "second" "key-2",
    .acquireLease (js "application:app") (js "first") 1 120001, executing "first" 1,
    dispatch "first" 1,
    .transitionWithAudit
      { operationId := js "first", expected := [.executing], status := .failed, now := 4
        eventType := .failed, ownership := some (lease (js "first") 1), releaseLease := true },
    .acquireLease (js "application:app") (js "second") 1 120001, executing "second" 2,
    dispatch "second" 2 ]

/-- The condition is met where nothing is recovered, and both dispatches are granted there. -/
theorem dispatch_exclusive_sequentialDispatches :
    let r := initial []
    let calls := sequentialDispatches
    GrantedAt plainHost r calls 4 (js "first") ∧ GrantedAt plainHost r calls 8 (js "second") ∧
      Exclusive plainHost r calls := by
  intro r calls
  refine ⟨⟨_, rfl, rfl, by decide +kernel⟩, ⟨_, rfl, rfl, by decide +kernel⟩,
    dispatch_exclusive plainHost [] calls ?_⟩
  rintro n c hc ⟨-, key, id, now, leaseExpiresAt, rfl, -⟩
  have hmem := List.mem_of_getElem? hc
  simp [calls, sequentialDispatches] at hmem

/-! ## A run of the services -/

/-- What the registry says of application `app`. -/
def sampleSnapshot : RegistryApplicationSnapshotReadRecord :=
  let container : RegistryRuntimeContainerReadRecord :=
    ⟨js "runtime", js "service", List.replicate 64 (unit 'a'), some 0⟩
  { application :=
      ⟨js "app", some (js "docker"), some .zimaos, some (js "zima-app"), some false, some 0⟩
    deployment := some ⟨js "deployment", 0⟩
    services := [⟨js "service", js "deployment", [container]⟩]
    runtimeContainers := [container] }

/-- What the runtime authority says of it. -/
def sampleEvidence : AuthoritativeRuntimeTargetEvidence :=
  ⟨js "app", js "deployment", [List.replicate 64 (unit 'a')], 0, js "evidence"⟩

/-- The services with their default options. -/
def sampleConfig : ServiceConfig where
  host := { plainHost with sha256 := fun _ => List.replicate 64 (unit 'b') }
  maximumAgeMs := 600000

/-- An operator asks to start application `app`. -/
def sampleJob (idempotencyKey : String) : Job :=
  .perform (some ⟨js "actor", .operator⟩) ⟨.start, ⟨js "app", none, none⟩, js idempotencyKey⟩

/-- A performer up to and including its claim. -/
def claiming (i : ℕ) (operationId stepId : String) (now : Timestamp) : List ServiceLabel :=
  [ .time now, .fixed, .time now, .snapshot (.ok (some sampleSnapshot)),
    .evidence (.ok (some sampleEvidence)), .time now, .id (js operationId), .id (js stepId),
    .fixed ].map (.step i)

/-- A performer from its claim on until it has started its executor. -/
def starting (i : ℕ) (now : Timestamp) : List ServiceLabel :=
  [ .outcome (.ok ()), .fixed, .time now, .time now, .fixed, .outcome (.ok ()), .time now,
    .fixed ].map (.step i)

/-- An executor up to and including the authorisation of its dispatch. -/
def authorizing (i : ℕ) (now : Timestamp) : List ServiceLabel :=
  [ .flag false, .time now, .snapshot (.ok (some sampleSnapshot)),
    .inspection (.ok ⟨List.replicate 64 (unit 'a'), .exited⟩), .flag false, .time now,
    .snapshot (.ok (some sampleSnapshot)), .time now, .flag false, .fixed ].map (.step i)

/-- An old operation stalls before it asks for its lease, a second one crashes once dispatched,
recovery rejects the old one, and a third one starts. -/
def overtakenRun : List ServiceLabel :=
  [.start (sampleJob "key-00001")] ++ claiming 0 "old" "old-step" 1 ++
  [.start (sampleJob "key-00002")] ++ claiming 1 "crashed" "crashed-step" 2 ++ starting 1 3 ++
  authorizing 2 4 ++
  [.start .recoverSteps] ++ [.time 200000, .fixed, .fixed, .fixed, .fixed].map (.step 3) ++
  [.start (sampleJob "key-00003")] ++ claiming 4 "third" "third-step" 200001 ++
  starting 4 200002 ++ authorizing 5 200003

/-- The repository calls of the run. -/
def overtakenCalls : List RepositoryCall :=
  (((serviceMachine sampleConfig Job.isService).run (ServicePool.initial []) overtakenRun).map
    (·.world.calls)).getD []

/-- The services, at non-decreasing times, get a second operation of a key dispatched while the
first, dispatched before, is still executing. -/
theorem recovery_admits_second_dispatch :
    let calls := overtakenCalls
    (∃ p, (serviceMachine sampleConfig Job.isService).run (ServicePool.initial []) overtakenRun =
      some p ∧ p.world.calls = calls) ∧
    (calls.filterMap time).Pairwise (· ≤ ·) ∧
    ¬ Exclusive sampleConfig.host (initial []) calls := by
  intro calls
  refine ⟨?_, by decide +kernel, fun hexclusive => ?_⟩
  · have hsome : ((serviceMachine sampleConfig Job.isService).run (ServicePool.initial [])
        overtakenRun).isSome = true := by decide +kernel
    obtain ⟨p, hp⟩ := Option.isSome_iff_exists.mp hsome
    exact ⟨p, hp, by simp [calls, overtakenCalls, hp]⟩
  · -- Call 6 dispatches the crashed operation and call 15 the third.
    have hkey : SameKey (stateAt sampleConfig.host (initial []) calls 15) (js "crashed")
        (js "third") := by
      exact sameKey_of_beq (by decide +kernel)
    obtain ⟨n, hin, hnj, status, hstatus, hsettled⟩ := hexclusive 6 15 (js "crashed") (js "third")
      (by decide) ⟨calls[6]?.get (by decide +kernel), by simp, by decide +kernel, by decide +kernel⟩
      ⟨calls[15]?.get (by decide +kernel), by simp, by decide +kernel, by decide +kernel⟩
      (by decide +kernel) hkey
    have hexecuting : ∀ n ∈ List.range' 6 10, (stateAt sampleConfig.host (initial []) calls
        n).statusOf (js "crashed") = some .executing := by
      decide +kernel
    rw [hexecuting n (by simp; omega)] at hstatus
    cases hstatus
    cases hsettled

end InMemoryDurableMutationRepository

end ZimaControl
