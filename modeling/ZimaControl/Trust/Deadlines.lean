import ZimaControl.Trust.Agreement

/-!
# The deadlines of an admission

A challenge lives for ten seconds and a handshake for fifteen. `verifyResponse` checks both before it
waits for the snapshot and neither after: `isReserved` does not look at the deadline, and the record
of an expired challenge stays until some other call removes it. A slow read therefore lets an expired
handshake become a session (`slow_read_admits_late`). What does hold is that a call admits in time if
no deadline passes while it waits, along every interleaving (`timely_runs_meet_deadlines`): both were
ahead when it began to wait, because it had checked them (`Held`).
-/

namespace ZimaControl.RuntimeTrust

/-- The session was created less than ten seconds after its challenge was issued and less than
fifteen after its connection was accepted. -/
def InTime (before : List TrustEvent) (a : Admission) : Prop :=
  (∃ hello connection atNs,
    .issued hello connection a.challenge a.initialSnapshot atNs ∈ before ∧
    a.session.createdMonotonicNs < atNs + challengeLifetimeNs) ∧
  a.session.createdMonotonicNs < a.connection.acceptedMonotonicNs + maxHandshakeNs

/-- No deadline passes while a `verifyResponse` waits for its snapshot: if the deadline of its
challenge was ahead at the reading of the clock before the wait, it is at the reading that a session
would be created with, and so is the end of its handshake. Nothing is asked of the readings before
the wait. -/
def timely (host : AuthorityHost) (w : TrustWorld) : TrustCall → Bool
  | .resumeVerifyResponse place checkedAt _ connection =>
    (w.heap[place]?).all fun record =>
      (host.nowNs checkedAt < record.deadlineNs →
          host.nowNs (w.readings + 1) < record.deadlineNs) ∧
        (¬ outsideHandshake (host.nowNs (checkedAt + 1)) connection →
          ¬ outsideHandshake (host.nowNs (w.readings + 1)) connection)
  | _ => true

/-- A call that had checked its deadlines and waited while none of them passed admits in time. -/
theorem inTime_of_admits {host : AuthorityHost} {w : TrustWorld} {place checkedAt : ℕ}
    {record : ChallengeRecord} {a : Admission} (hregistered : Registered w)
    (hadmits : Admits host w place record a)
    (hheld : Held host w (.resumeVerifyResponse place checkedAt a.response a.connection))
    (htimely : timely host w (.resumeVerifyResponse place checkedAt a.response a.connection) = true) :
    InTime w.log a := by
  obtain ⟨hget, -⟩ := registered_of_isReserved hadmits.heap hadmits.reserved
  have hplace : w.reserved[place]? = some record.toReservedRuntimeChallenge := by
    rw [TrustWorld.reserved, List.getElem?_map, hadmits.heap]
    rfl
  obtain ⟨live, hlivePlace, -, hello, earlier, later, hlog, -⟩ := hregistered.live _ place hget
  have hlive : live = record.toReservedRuntimeChallenge :=
    Option.some.inj (hlivePlace.symm.trans hplace)
  rw [hlive] at hlog
  simp only [timely, hadmits.heap, Option.all_some, decide_eq_true_eq] at htimely
  -- what the checks found before the wait still holds
  obtain ⟨held, hheldPlace, -, -, hbefore, hinside⟩ := hheld
  rw [Option.some.inj (hheldPlace.symm.trans hplace)] at hbefore
  have hahead := htimely.1 hbefore
  have hinside' := htimely.2 hinside
  unfold outsideHandshake at hinside'
  unfold InTime
  rw [hadmits.challenge, hadmits.initialSnapshot, hadmits.createdMonotonicNs]
  constructor
  · refine ⟨hello, record.connection, record.deadlineNs - challengeLifetimeNs, ?_, ?_⟩
    · rw [hlog]
      exact List.mem_append_right earlier List.mem_cons_self
    · rw [Int.sub_add_cancel]
      exact hahead
  · omega

/-- The registry's invariant, and that every admission so far was in time. -/
structure OnTime (w : TrustWorld) : Prop where
  /-- The records are those of issued challenges. -/
  registered : Registered w
  /-- Each admission was in time for what the history shows before it. -/
  inTime : EachAfter (fun before event => ∀ a, event = .admitted a → InTime before a) w.log

/-- A step in time keeps it. -/
theorem OnTime.step {host : AuthorityHost} {w w' : TrustWorld} {call : TrustCall} (h : OnTime w)
    (htimely : timely host w call = true) (hheld : Held host w call)
    (hstep : TrustStep host w call w') : OnTime w' := by
  refine ⟨h.registered.step hstep, hstep.eachAfter h.inTime fun place _ record a hcall hadmits => ?_⟩
  subst hcall
  exact inTime_of_admits h.registered hadmits hheld htimely

/-- In every run in which no deadline passes while a `verifyResponse` waits for its snapshot, every
session is created within the deadlines. -/
theorem timely_runs_meet_deadlines {host : AuthorityHost}
    {labels : List (PoolLabel TrustJob TrustChoice)} {w : TrustWorld}
    (hrun : AdmissionRun host (timely host) labels w) {before after : List TrustEvent}
    {a : Admission} (hlog : w.log = before ++ .admitted a :: after) : InTime before a := by
  have hontime : OnTime w := hrun.induct
    (fun h htimely hheld hstep => h.step htimely hheld hstep)
    ⟨registered_initial, eachAfter_nil⟩
  exact hontime.inTime before _ after hlog a rfl

/-- The handshake with a clock that moves on at each reading. -/
theorem timely_runs_meet_deadlines_handshake :
    ∃ w before a,
      AdmissionRun (exampleHost fun n => n) (timely (exampleHost fun n => n)) handshake w ∧
      w.log = before ++ [.admitted a] ∧ InTime before a := by
  have hsome : (handshakeAdmission (exampleHost fun n => n)
      (timely (exampleHost fun n => n))).isSome = true := by decide +kernel
  obtain ⟨a, ha⟩ := Option.isSome_iff_exists.mp hsome
  obtain ⟨w, before, hrun, hlog⟩ := exists_of_handshakeAdmission ha
  exact ⟨w, before, a, hrun, hlog, timely_runs_meet_deadlines hrun hlog⟩

/-- A clock that stands still up to the second read of the snapshot, which takes twenty seconds. -/
def slowReadClock (n : ℕ) : ℤ := if n < 8 then 0 else 20000000000

theorem slowReadClock_mono {n m : ℕ} (h : n ≤ m) : slowReadClock n ≤ slowReadClock m := by
  unfold slowReadClock
  split_ifs <;> omega

/-- A session is created twenty seconds after its connection was accepted and its challenge was
issued, because the snapshot read of `verifyResponse` took that long. -/
theorem slow_read_admits_late :
    ¬ ∀ (host : AuthorityHost) labels w before a after,
      (∀ n m, n ≤ m → host.nowNs n ≤ host.nowNs m) → AdmissionRun host anyTime labels w →
      w.log = before ++ .admitted a :: after → InTime before a := by
  intro hall
  have htimes : (handshakeAdmission (exampleHost slowReadClock) anyTime).map (fun a =>
      (a.session.createdMonotonicNs, a.connection.acceptedMonotonicNs)) = some (20000000000, 0) := by
    decide +kernel
  obtain ⟨a, ha, hvalues⟩ := Option.map_eq_some_iff.mp htimes
  obtain ⟨hcreated, haccepted⟩ := Prod.mk.inj hvalues
  obtain ⟨w, before, hrun, hlog⟩ := exists_of_handshakeAdmission ha
  have hlate := (hall _ handshake w before a [] (fun _ _ => slowReadClock_mono) hrun hlog).2
  rw [hcreated, haccepted, maxHandshakeNs] at hlate
  omega

end ZimaControl.RuntimeTrust
