import ZimaControl.Mutation.Indeterminate

/-!
# Fencing tokens

The token of a lease is the next value of its key's fence, and the fence of a key only grows. A lock
always carries the last token of its key, so a token that a later one has overtaken is the token of
no lock, and every call that presents one fails its ownership check.

`FenceChange` says once what a call does to the locks and fences: it grants a lease, or it adds no
lock and leaves the fences. What follows for a lease that was handed out (`Issued`) is kept by every
such change.
-/

namespace ZimaControl

open Option

namespace RepositoryCall

open InMemoryDurableMutationRepository

/-- The lease that a request for one hands out. -/
def handsOut (r : Repository) : RepositoryCall → Option MutationLease
  | acquireLease operationKey operationId now leaseExpiresAt =>
    (r.acquireLease operationKey operationId now leaseExpiresAt).1.toOption.join
  | acquireRecoveryLease operationKey operationId now leaseExpiresAt =>
    (r.acquireRecoveryLease operationKey operationId now leaseExpiresAt).1.toOption.join
  | _ => none

/-- The key and the fencing token by which a call shows that it holds the lease of the key. -/
def presents : RepositoryCall → Option (JsString × ℕ)
  | authorizeStepDispatch input => some (input.operationKey, input.fencingToken)
  | transitionStepWithAudit input =>
    some (input.ownership.operationKey, input.ownership.fencingToken)
  | finalizeStepAndParent input => some (input.ownership.operationKey, input.ownership.fencingToken)
  | recoverStepAndParent _ _ lease _ => some (lease.operationKey, lease.fencingToken)
  | authorizeDispatch input => some (input.operationKey, input.fencingToken)
  | transitionWithAudit input =>
    input.ownership.map fun ownership => (ownership.operationKey, ownership.fencingToken)
  | renewLease lease _ _ => some (lease.operationKey, lease.fencingToken)
  | releaseLease lease => some (lease.operationKey, lease.fencingToken)
  | _ => none

/-- The call is an `acquireLease` that is answered with the caller's own lease, which has not
expired. -/
def ReturnsOwn (r : Repository) (c : RepositoryCall) (lease : MutationLease) : Prop :=
  ∃ now leaseExpiresAt,
    c = .acquireLease lease.operationKey lease.ownerOperationId now leaseExpiresAt ∧
      r.locks.get lease.operationKey = some lease ∧ now < lease.leaseExpiresAt

end RepositoryCall

namespace InMemoryDurableMutationRepository

variable {r : Repository} {host : Host}

/-- The last token issued for a key; `0` before the first. -/
def fence (r : Repository) (key : JsString) : ℕ := (r.fences.get key).getD 0

/-- The next lease of a key. -/
def nextLease (r : Repository) (operationKey operationId : JsString)
    (now leaseExpiresAt : Timestamp) : MutationLease :=
  ⟨operationKey, operationId, r.fence operationKey + 1, now, leaseExpiresAt⟩

/-! ## What a call does to locks and fences -/

/-- The ways in which a call can leave the locks and the fences. -/
inductive FenceChange (r : Repository) (rows' : Rows) : Prop
  /-- No fence changes, and a lock that is there was there, save for its expiry. -/
  | kept (fences : rows'.fences = r.fences)
      (locks : ∀ {key lock'}, rows'.locks.get key = some lock' →
        ∃ lock, r.locks.get key = some lock ∧ lock.ownerOperationId = lock'.ownerOperationId ∧
          lock.fencingToken = lock'.fencingToken)
  /-- A key has its next lease. -/
  | granted (operationKey operationId : JsString) (now leaseExpiresAt : Timestamp)
      (rows : rows' = r.grantedRows operationKey operationId now leaseExpiresAt)

theorem FenceChange.of_eq {rows' : Rows} (fences : rows'.fences = r.fences)
    (locks : rows'.locks = r.locks) : FenceChange r rows' :=
  .kept fences fun hlock => ⟨_, locks ▸ hlock, rfl, rfl⟩

/-- Dropping a lock adds none. -/
theorem FenceChange.dropLock {rows' : Rows} (fences : rows'.fences = r.fences)
    (locks : rows'.locks = r.locks) (drop : Bool) (key : JsString) :
    FenceChange r (rows'.dropLock drop key) := by
  cases drop with
  | false => exact .of_eq fences locks
  | true =>
    refine .kept fences fun {key' lock'} hlock => ⟨lock', ?_, rfl, rfl⟩
    simp only [Rows.dropLock, if_true, JsMap.get_delete, locks] at hlock
    split_ifs at hlock
    exact hlock

/-- Every call leaves locks and fences in one of these ways. -/
theorem next_fenceChange (host : Host) (c : RepositoryCall) (h : r.rows.Wf) :
    FenceChange r (c.next host r).rows := by
  have hchange := next_callChange host c h
  generalize (c.next host r).rows = rows' at hchange ⊢
  cases hchange with
  | same | claimed | created | rejected | transitioned | dispatched => exact .of_eq rfl rfl
  | finalized | recovered | moved => exact .dropLock rfl rfl _ _
  | granted | recoveryGranted => exact .granted _ _ _ _ rfl
  | @renewed _ _ _ current lock =>
    refine .kept rfl fun {key lock'} hlock => ?_
    simp only [JsMap.get_set] at hlock
    split_ifs at hlock with hkey
    · obtain rfl := some.inj hlock
      exact ⟨current, hkey ▸ lock, rfl, rfl⟩
    · exact ⟨lock', hlock, rfl, rfl⟩
  | released =>
    have hrows : r.rows.fences = r.fences := rfl
    exact .dropLock hrows rfl true _

/-! ## What changes keep -/

/-- Every lock carries the last token of its key. -/
def Fenced (r : Repository) : Prop :=
  ∀ key lock, r.locks.get key = some lock → lock.fencingToken = r.fence key

/-- A lease that was handed out: the fence of its key has reached its token, and a lock with its
token is its owner's. -/
structure Issued (lease : MutationLease) (r : Repository) : Prop where
  reached : lease.fencingToken ≤ r.fence lease.operationKey
  owner : ∀ {lock}, r.locks.get lease.operationKey = some lock →
    lock.fencingToken = lease.fencingToken → lock.ownerOperationId = lease.ownerOperationId

variable {operationKey operationId : JsString} {now leaseExpiresAt : Timestamp} {r' : Repository}

section

variable (h : r'.rows = r.grantedRows operationKey operationId now leaseExpiresAt)
include h

theorem fence_granted (key : JsString) :
    r'.fence key = if operationKey = key then r.fence key + 1 else r.fence key := by
  have hfences : r'.fences = r.fences.set operationKey (r.fence operationKey + 1) :=
    congrArg Rows.fences h
  rw [fence, hfences, JsMap.get_set]
  split_ifs with hkey
  · rw [getD_some, hkey]
  · rfl

theorem locks_granted (key : JsString) :
    r'.locks.get key = if operationKey = key
      then some (r.nextLease operationKey operationId now leaseExpiresAt) else r.locks.get key := by
  have hlocks : r'.locks =
      r.locks.set operationKey (r.nextLease operationKey operationId now leaseExpiresAt) :=
    congrArg Rows.locks h
  rw [hlocks, JsMap.get_set]

end

/-- A call keeps locks at the last token of their keys. -/
theorem Fenced.next (hfenced : r.Fenced) (h : r.rows.Wf) (c : RepositoryCall) :
    (c.next host r).Fenced := by
  intro key lock hlock
  rcases next_fenceChange host c h with ⟨hfences, hlocks⟩ | ⟨operationKey, id, now, expiry, heq⟩
  · obtain ⟨lock₀, hlock₀, -, htoken⟩ := hlocks hlock
    change (c.next host r).fences = r.fences at hfences
    rw [← htoken, hfenced _ _ hlock₀, fence, fence, hfences]
  rw [locks_granted heq] at hlock
  rw [fence_granted heq]
  split_ifs at hlock ⊢ with hkey
  · obtain rfl := some.inj hlock
    rw [← hkey]
    rfl
  · exact hfenced _ _ hlock

variable {lease : MutationLease}

/-- A call keeps what holds of a lease that was handed out. -/
theorem Issued.next (hissued : Issued lease r) (h : r.rows.Wf) (c : RepositoryCall) :
    Issued lease (c.next host r) := by
  rcases next_fenceChange host c h with ⟨hfences, hlocks⟩ | ⟨operationKey, id, now, expiry, heq⟩
  · change (c.next host r).fences = r.fences at hfences
    refine ⟨?_, fun {lock} hlock htoken => ?_⟩
    · rw [fence, hfences]
      exact hissued.reached
    · obtain ⟨lock₀, hlock₀, howner, htoken₀⟩ := hlocks hlock
      rw [← howner]
      exact hissued.owner hlock₀ (htoken₀.trans htoken)
  · have hreached := hissued.reached
    refine ⟨?_, fun {lock} hlock htoken => ?_⟩
    · rw [fence_granted heq]
      split_ifs <;> omega
    rw [locks_granted heq] at hlock
    split_ifs at hlock with hkey
    · -- the new token is one that the lease does not have
      obtain rfl := some.inj hlock
      change r.fence operationKey + 1 = lease.fencingToken at htoken
      rw [hkey] at htoken
      omega
    · exact hissued.owner hlock htoken

/-- What holds along every run. -/
theorem run_fenced (host : Host) (auditFaults : List Bool) (calls : List RepositoryCall) :
    ((initial auditFaults).run host calls).rows.Wf ∧
      ((initial auditFaults).run host calls).Fenced := by
  refine (reachedBy_run host (initial auditFaults) calls).induct (fun r => r.rows.Wf ∧ r.Fenced)
    ⟨initial_wf auditFaults, fun key lock hlock => ?_⟩ fun r c _ hr => ?_
  · cases hlock
  · exact ⟨next_wf host c hr.1, hr.2.next hr.1 c⟩

/-- A lease stays issued along every run. -/
theorem Issued.run (hissued : Issued lease r) (h : r.rows.Wf) (calls : List RepositoryCall) :
    Issued lease (r.run host calls) :=
  ((reachedBy_run host r calls).induct (fun r => r.rows.Wf ∧ Issued lease r) ⟨h, hissued⟩
    fun _ c _ hr => ⟨next_wf host c hr.1, hr.2.next hr.1 c⟩).2

/-! ## Handing out -/

/-- The lease that `acquireLease` hands out is the next one of its key, or the caller's own. -/
theorem acquireLease_handsOut (h : r.rows.Wf)
    (hout : (r.acquireLease operationKey operationId now leaseExpiresAt).1.toOption.join =
      some lease) :
    (lease = r.nextLease operationKey operationId now leaseExpiresAt ∧
      (r.acquireLease operationKey operationId now leaseExpiresAt).2.rows =
        r.grantedRows operationKey operationId now leaseExpiresAt) ∨
    operationKey = lease.operationKey ∧ operationId = lease.ownerOperationId ∧
      r.locks.get lease.operationKey = some lease ∧ now < lease.leaseExpiresAt ∧
      (r.acquireLease operationKey operationId now leaseExpiresAt).2 = r := by
  unfold acquireLease at hout ⊢
  split_ifs at hout ⊢ with hexpiry hkey
  · cases hout
  · cases hout
  cases hanswer : r.lockAnswer operationKey operationId now with
  | none =>
    simp only [hanswer] at hout ⊢
    exact .inl ⟨(some.inj hout).symm, rfl⟩
  | some answer =>
    simp only [hanswer] at hout ⊢
    obtain rfl : answer = some lease := hout
    -- an answer that is a lease is the lock itself
    unfold lockAnswer at hanswer
    cases hlock : r.locks.get operationKey with
    | none => simp [hlock] at hanswer
    | some lock =>
      simp only [hlock] at hanswer
      split at hanswer
      · cases hanswer
      split_ifs at hanswer with hind hterm hown
      · cases hanswer
      · obtain rfl : lock = lease := by simpa using hanswer
        have hopkey := (h.lock_owner hlock).1
        exact .inr ⟨hopkey.symm, hown.1.symm, hopkey.symm ▸ hlock, hown.2, trivial⟩
      · cases hanswer

/-- The lease that `acquireRecoveryLease` hands out is the next one of its key. -/
theorem acquireRecoveryLease_handsOut
    (hout : (r.acquireRecoveryLease operationKey operationId now leaseExpiresAt).1.toOption.join =
      some lease) :
    lease = r.nextLease operationKey operationId now leaseExpiresAt ∧
      (r.acquireRecoveryLease operationKey operationId now leaseExpiresAt).2.rows =
        r.grantedRows operationKey operationId now leaseExpiresAt := by
  have hgrant : ∀ {l}, (r.grantLease operationKey operationId now leaseExpiresAt).1.toOption.join =
      some l → l = r.nextLease operationKey operationId now leaseExpiresAt :=
    fun hl => (some.inj hl).symm
  unfold acquireRecoveryLease at hout ⊢
  split_ifs at hout ⊢ with hexpiry
  · cases hout
  cases hop : r.operations.get operationId with
  | none =>
    simp only [hop] at hout
    cases hout
  | some operation =>
    simp only [hop] at hout ⊢
    split_ifs at hout ⊢ with hguard
    · cases hout
    cases hlock : r.locks.get operationKey with
    | none =>
      simp only [hlock] at hout ⊢
      exact ⟨hgrant hout, rfl⟩
    | some lock =>
      simp only [hlock] at hout ⊢
      split_ifs at hout ⊢ with hind hlive
      · cases hout
      · cases hout
      · exact ⟨hgrant hout, rfl⟩

variable {c : RepositoryCall}

/-- A lease that is handed out is the next one of its key, or the caller's own. -/
theorem handsOut_cases (host : Host) (h : r.rows.Wf) (hout : c.handsOut r = some lease) :
    (lease.fencingToken = r.fence lease.operationKey + 1 ∧
      (c.next host r).fence lease.operationKey = lease.fencingToken ∧
      (c.next host r).locks.get lease.operationKey = some lease) ∨
    c.ReturnsOwn r lease ∧ c.next host r = r := by
  have hgranted : ∀ {operationKey operationId now leaseExpiresAt},
      lease = r.nextLease operationKey operationId now leaseExpiresAt →
      (c.next host r).rows = r.grantedRows operationKey operationId now leaseExpiresAt →
      lease.fencingToken = r.fence lease.operationKey + 1 ∧
        (c.next host r).fence lease.operationKey = lease.fencingToken ∧
        (c.next host r).locks.get lease.operationKey = some lease := by
    rintro operationKey operationId now leaseExpiresAt rfl hrows
    refine ⟨rfl, ?_, ?_⟩
    · exact (fence_granted hrows operationKey).trans (if_pos rfl)
    · exact (locks_granted hrows operationKey).trans (if_pos rfl)
  cases c with
  | acquireLease operationKey operationId now leaseExpiresAt =>
    rcases acquireLease_handsOut h hout with ⟨hlease, hrows⟩ | ⟨rfl, rfl, hlock, hlive, hsame⟩
    · exact .inl (hgranted hlease hrows)
    · exact .inr ⟨⟨now, leaseExpiresAt, rfl, hlock, hlive⟩, hsame⟩
  | acquireRecoveryLease operationKey operationId now leaseExpiresAt =>
    obtain ⟨hlease, hrows⟩ := acquireRecoveryLease_handsOut hout
    exact .inl (hgranted hlease hrows)
  | _ => cases hout

/-- What is handed out is issued. -/
theorem issued_of_handsOut (host : Host) (h : r.rows.Wf) (hfenced : r.Fenced)
    (hout : c.handsOut r = some lease) : Issued lease (c.next host r) := by
  rcases handsOut_cases host h hout with ⟨-, hfence, hlock⟩ | ⟨⟨_, _, -, hlock, -⟩, hsame⟩
  · refine ⟨hfence.ge, fun {lock} hlock' _ => ?_⟩
    rw [hlock] at hlock'
    rw [some.inj hlock']
  · rw [hsame]
    refine ⟨(hfenced _ _ hlock).le, fun {lock} hlock' _ => ?_⟩
    rw [hlock] at hlock'
    rw [some.inj hlock']

/-! ## Presenting -/

/-- A lease check under a token that the lock does not have fails. -/
theorem not_owns_of_stale {operation : Operation} {token : ℕ} {now : Timestamp}
    (hstale : ∀ lock, r.locks.get operation.operationKey = some lock → lock.fencingToken ≠ token) :
    ¬ r.Owns operation token now := by
  rintro ⟨lock, hlock, -, htoken, -⟩
  exact hstale lock hlock htoken

/-- Checks that cannot pass leave the repository as it is. -/
theorem checking_snd_of_not_ok {α β : Type} {checks : Except Failure α}
    {k : α → RepositoryOutcome β} (h : ∀ a, checks ≠ .ok a) :
    (Outcome.checking r checks k).2 = r := by
  cases checks with
  | error e => rfl
  | ok a => exact absurd rfl (h a)

/-- A step dispatch under a token that the lock does not have is refused. -/
theorem stepDispatchChecks_stale {input : MutationStepDispatchAuthorizationInput}
    (hstale : ∀ lock, r.locks.get input.operationKey = some lock →
      lock.fencingToken ≠ input.fencingToken) : ∀ a, r.stepDispatchChecks input ≠ .ok a := by
  rintro ⟨operation, step⟩ hchecks
  obtain ⟨-, -, -, hkey, howns, -⟩ := stepDispatchChecks_ok hchecks
  rw [← hkey] at hstale
  exact not_owns_of_stale hstale howns

/-- A call that presents a token that is not that of the lock leaves the repository as it is. -/
theorem next_of_stale (host : Host) {key : JsString} {token : ℕ}
    (hpresents : c.presents = some (key, token))
    (hstale : ∀ lock, r.locks.get key = some lock → lock.fencingToken ≠ token) :
    c.next host r = r := by
  cases c with
  | authorizeStepDispatch input =>
    cases hpresents
    exact checking_snd_of_not_ok (stepDispatchChecks_stale hstale)
  | transitionStepWithAudit input =>
    cases hpresents
    refine checking_snd_of_not_ok fun _ hchecks => ?_
    obtain ⟨-, -, -, hkey, howns, -⟩ := stepTransitionChecks_eq_ok.mp hchecks
    exact not_owns_of_stale (hkey ▸ hstale) howns
  | finalizeStepAndParent input =>
    cases hpresents
    refine checking_snd_of_not_ok fun _ hchecks => ?_
    obtain ⟨-, -, -, -, hkey, howns, -⟩ := finalizeChecks_eq_ok.mp hchecks
    exact not_owns_of_stale (hkey ▸ hstale) howns
  | recoverStepAndParent operationId childStepId lease now =>
    cases hpresents
    refine checking_snd_of_not_ok fun _ hchecks => ?_
    obtain ⟨-, -, -, hkey, howns⟩ := recoverChecks_eq_ok.mp hchecks
    exact not_owns_of_stale (hkey ▸ hstale) howns
  | authorizeDispatch input =>
    cases hpresents
    change (r.authorizeDispatch input).2 = r
    unfold authorizeDispatch
    rcases r.requireOperation input.operationId with e | operation
    · rfl
    rw [Outcome.checking_ok]
    split
    · -- no step: the lock is checked after the row
      refine checking_snd_of_not_ok fun _ hchecks => ?_
      simp only [dispatchChecks, except_bind_eq_ok, requireLease_eq_ok] at hchecks
      obtain ⟨-, -, -, ⟨lock, hlock, -, htoken, -⟩, -⟩ := hchecks
      exact hstale lock hlock htoken
    · -- one step: the call is the step's
      next step serviceId _ _ =>
      rcases hchecks : r.stepDispatchChecks (stepDispatchInput input serviceId step) with e | a
      · simp only [authorizeStepDispatch, hchecks, Outcome.checking_error]
        rfl
      · exact absurd hchecks (stepDispatchChecks_stale hstale a)
    · rfl
  | transitionWithAudit input =>
    refine checking_snd_of_not_ok fun current hchecks => ?_
    obtain ⟨-, -, hownership⟩ := transitionChecks_ok hchecks
    obtain ⟨ownership, howner, hpair⟩ := map_eq_some_iff.mp hpresents
    cases hpair
    simp only [howner] at hownership
    obtain ⟨-, lock, hlock, -, htoken, -⟩ := hownership
    exact hstale lock hlock htoken
  | renewLease lease now leaseExpiresAt =>
    cases hpresents
    change (r.renewLease lease now leaseExpiresAt).2 = r
    unfold renewLease
    split_ifs with hexpiry
    · rfl
    cases hlock : r.locks.get lease.operationKey with
    | none => rfl
    | some lock =>
      have hholds : holds lock lease = false := by simp [holds, hstale lock hlock]
      simp [hholds, true_or]
  | releaseLease lease =>
    cases hpresents
    change (r.releaseLease lease).2 = r
    unfold releaseLease
    cases hlock : r.locks.get lease.operationKey with
    | none => rfl
    | some lock =>
      have hholds : holds lock lease = false := by simp [holds, hstale lock hlock]
      simp [hholds]
  | _ => cases hpresents

/-! ## The result -/

/-- An operation that had the first lease of the application and ended, and another one. -/
def endedHolder : List RepositoryCall :=
  unknownOutcome.take 3 ++
    [ .claim (sampleClaim "other" "key-2" 1),
      .transitionWithAudit
        { operationId := js "op", expected := [.executing], status := .failed, now := 3,
          eventType := .failed, ownership := some (sampleLease "op"), releaseLease := true } ]

/-- Behind a call that hands out a lease, every further lease of the key has a greater token, or is
the caller's own lease, unexpired and with its token; and a call that presents a smaller token on
the key changes nothing. -/
theorem tokens_fence (host : Host) (auditFaults : List Bool) (before later : List RepositoryCall)
    (c c' : RepositoryCall) (lease : MutationLease)
    (hout : c.handsOut ((initial auditFaults).run host before) = some lease) :
    let r' := (initial auditFaults).run host (before ++ c :: later)
    (∀ lease', c'.handsOut r' = some lease' → lease'.operationKey = lease.operationKey →
      lease.fencingToken < lease'.fencingToken ∨
        c'.ReturnsOwn r' lease' ∧ lease'.fencingToken = lease.fencingToken ∧
          lease'.ownerOperationId = lease.ownerOperationId) ∧
    ∀ token, c'.presents = some (lease.operationKey, token) → token < lease.fencingToken →
      c'.next host r' = r' := by
  intro r'
  obtain ⟨hwf, hfenced⟩ := run_fenced host auditFaults before
  obtain ⟨hwf', hfenced'⟩ := run_fenced host auditFaults (before ++ c :: later)
  have hissued : Issued lease r' := by
    have hrun : r' = (c.next host ((initial auditFaults).run host before)).run host later := by
      simp [r', run]
    rw [hrun]
    exact (issued_of_handsOut host hwf hfenced hout).run (next_wf host c hwf) later
  constructor
  · intro lease' hout' hkey
    -- a token is drawn anew, or it is the one of the lock that is held
    rcases handsOut_cases host hwf' hout' with ⟨htoken, -⟩ | ⟨hown, -⟩
    · left
      have hreached := hissued.reached
      rw [← hkey] at hreached
      change lease'.fencingToken = r'.fence lease'.operationKey + 1 at htoken
      omega
    · obtain ⟨now, leaseExpiresAt, -, hlock, -⟩ := id hown
      have htoken := hfenced' _ _ hlock
      have hreached := hissued.reached
      rw [← hkey, ← htoken] at hreached
      rcases hreached.lt_or_eq with hlt | heq
      · exact .inl hlt
      · exact .inr ⟨hown, heq.symm, hissued.owner (hkey ▸ hlock) heq.symm⟩
  · intro token hpresents hlt
    refine next_of_stale host hpresents fun lock hlock htoken => ?_
    have hreached := hissued.reached
    rw [← hfenced' _ _ hlock, htoken] at hreached
    omega

/-- The conditions are met by the second lease of the application: renewing the first one changes
nothing. -/
theorem tokens_fence_endedHolder :
    let c := RepositoryCall.acquireLease (js "application:app") (js "other") 4 120004
    let c' := RepositoryCall.renewLease (sampleLease "op") 5 120005
    c.handsOut ((initial []).run plainHost endedHolder) =
        some ⟨js "application:app", js "other", 2, 4, 120004⟩ ∧
      c'.next plainHost ((initial []).run plainHost (endedHolder ++ [c])) =
        (initial []).run plainHost (endedHolder ++ [c]) := by
  intro c c'
  have hout : c.handsOut ((initial []).run plainHost endedHolder) =
      some ⟨js "application:app", js "other", 2, 4, 120004⟩ := by decide +kernel
  exact ⟨hout, (tokens_fence plainHost [] endedHolder [] c c' _ hout).2 1 rfl (by decide)⟩

end InMemoryDurableMutationRepository

end ZimaControl
