import ZimaControl.Daemon.RevisionGuard
import ZimaControl.Lib.Discipline

/-!
# One mutation of an application at a time

The mutex of the daemon knows application ids only, and whether a call of `execute` has taken a lock
is a local variable of the call. Any number of calls share one mutex, and between any two of their
questions to the environment the others may go on.

A call takes a lock while it has none, gives back a lock that it has taken, and has none when it
ends (`execute_follows`). So no two calls between the two have the same application
(`mutations_exclusive`).
-/

namespace ZimaControl

open ApplicationLifecycleController

/-! ## The mutex -/

/-- `ActiveMutationLock`. -/
structure ActiveMutationLock where
  applicationId : JsString
  requestId : JsString
  acquiredAt : JsString

/-- The locks of an `ApplicationMutationMutex`. -/
abbrev MutationLocks := JsMap JsString ActiveMutationLock

namespace ApplicationMutationMutex

/-- `acquire` at a time. -/
def acquire (locks : MutationLocks) (applicationId requestId now : JsString) :
    Except DaemonError Unit × MutationLocks :=
  match locks.get applicationId with
  | some active => (.error (.adapter .operationInProgress (js "Application " ++ applicationId ++
      js " is currently undergoing mutation (active requestId: " ++ active.requestId ++
      js ", acquiredAt: " ++ active.acquiredAt ++ js ")")), locks)
  | none => (.ok (), locks.set applicationId ⟨applicationId, requestId, now⟩)

/-- `release`. -/
def release (locks : MutationLocks) (applicationId : JsString) : MutationLocks :=
  locks.delete applicationId

end ApplicationMutationMutex

/-! ## Calls that share the mutex -/

/-- The mutex, the requests of the calls in order, and which calls have a lock. -/
structure MutexWorld where
  locks : MutationLocks
  requests : List ApplicationRuntimeRequest
  holding : ℕ → Bool

/-- The application of a call. -/
def MutexWorld.applicationOf (w : MutexWorld) (i : ℕ) : Option JsString :=
  w.requests[i]?.map (·.applicationId)

/-- An answer of the environment, and the time at which it comes. -/
structure MutexChoice where
  answer : DaemonChoice
  now : JsString

/-- The mutex answers for itself, and the environment answers the other questions in any way. -/
def MutexWorld.exec (i : ℕ) (w : MutexWorld) (c : DaemonCall) (choice : MutexChoice) :
    Option (Except DaemonError c.Answer × MutexWorld) :=
  (w.applicationOf i).bind fun applicationId =>
    match c with
    | .acquire =>
      let (r, locks) :=
        ApplicationMutationMutex.acquire w.locks applicationId (js "unspecified") choice.now
      some (r, { w with locks, holding := Function.update w.holding i (w.holding i || r.isOk) })
    | .release =>
      some (.ok (), { w with
        locks := ApplicationMutationMutex.release w.locks applicationId
        holding := Function.update w.holding i false })
    | c => (c.exec [] choice.answer).map fun (r, _) => (r, w)

/-- Calls of `execute`. -/
def controllerMachine (host : DaemonHost) :
    Machine DaemonCall DaemonCall.Answer DaemonError ApplicationRuntimeResponse MutexWorld
      ApplicationRuntimeRequest MutexChoice where
  body := execute host
  external _ := true
  jobs _ := []
  start request w := { w with requests := w.requests ++ [request] }
  exec := MutexWorld.exec
  finish _ _ w := w

/-- The daemon before any request. -/
def idleController :
    Pool DaemonCall DaemonCall.Answer DaemonError ApplicationRuntimeResponse MutexWorld :=
  ⟨⟨∅, [], fun _ => false⟩, []⟩

/-! ## The discipline of a call -/

/-- A call takes a lock while it has none, and gives back what it has. Looking at the deadline for
an error response does not fail. -/
def lockDiscipline : Discipline DaemonCall DaemonCall.Answer DaemonError Bool where
  initial := false
  Allows held c := (c = .acquire → held = false) ∧ (c = .release → held = true)
  Possible _ c r := c = .abortedAtError → r.isOk = true
  after held c r :=
    match c, r with
    | .acquire, r => held || r.isOk
    | .release, _ => false
    | _, _ => held

variable {host : DaemonHost} {held : Bool}

/-- A program that does not ask for the lock. -/
abbrev Lockless {α : Type} (t : Daemon α) : Prop := t.Only fun c => isLocking c = false

theorem lockless_ask {c : DaemonCall} (h : isLocking c = false) : Lockless (ask c) :=
  Task.Only.perform h

/-- A program that does not ask for the lock leaves it. -/
theorem Lockless.follows {α : Type} {t : Daemon α} (h : Lockless t) :
    t.Follows lockDiscipline (fun _ held' => held' = held) held := by
  refine Task.Only.follows h fun c hc => ?_
  cases c with
  | acquire => cases hc
  | release => cases hc
  | _ => exact ⟨⟨nofun, nofun⟩, fun _ => rfl⟩

variable (request : ApplicationRuntimeRequest)

/-- No handler asks for the lock. -/
theorem handle_unlocking (admission : AdmissionResult) :
    Lockless (handle host request admission) := by
  cases hmutates : mutates request.operation with
  | false => exact (handle_only hmutates).mono fun _ hc => hc.1
  | true =>
    obtain ⟨k, hk, honly⟩ := mutating_handlers host admission hmutates
    rw [hk]
    exact .bind (.bind (lockless_ask rfl) fun _ => .ret) fun targets =>
      (honly targets).mono fun _ hc => hc.1

/-- An error response is built without asking for the lock. -/
theorem buildErrorResponse_follows (error : DaemonError) :
    (buildErrorResponse request error).Follows lockDiscipline
      (fun r held' => (∃ response, r = .ok response) ∧ held' = held) held := by
  refine .bind (S := fun r held' => r.isOk = true ∧ held' = held)
    (.perform ⟨nofun, nofun⟩ fun r hr => ⟨hr rfl, rfl⟩) ?_ ?_
  · rintro aborted held ⟨-, rfl⟩
    exact ⟨⟨_, rfl⟩, rfl⟩
  · rintro e held ⟨hok, -⟩
    cases hok

/-- The response is built without asking for the lock, whatever the handler does. -/
theorem respond_follows (admission : AdmissionResult) :
    (respond request (handle host request admission)).Follows lockDiscipline
      (fun r held' => (∃ response, r = .ok response) ∧ held' = held) held := by
  refine .bindAttempt (handle_unlocking request admission).follows ?_
  rintro r held rfl
  cases r with
  | ok response => exact ⟨⟨response, rfl⟩, rfl⟩
  | error e => exact buildErrorResponse_follows request e

/-- Whatever is answered, a call of `execute` follows the discipline and ends without a lock. -/
theorem execute_follows :
    (execute host request).Follows lockDiscipline (fun _ held => held = false) false := by
  have herror : ∀ e, (buildErrorResponse request e).Follows lockDiscipline
      (fun _ held => held = false) false := fun e =>
    (buildErrorResponse_follows request e).mono fun _ _ h => h.2
  refine .bindAttempt (lockless_ask rfl).follows ?_
  rintro r held rfl
  cases r with
  | error e => exact herror e
  | ok admission =>
    split_ifs
    · refine .bindAttempt (S := fun r held => held = r.isOk)
        (.perform ⟨fun _ => rfl, nofun⟩ fun _ _ => Bool.false_or _) ?_
      rintro r held rfl
      cases r with
      | error e => exact herror e
      | ok _ =>
        -- The lock is held until the response is there, and then given back.
        refine .bind (respond_follows request admission) ?_ ?_
        · rintro response held ⟨-, rfl⟩
          exact .bind (S := fun _ held => held = false) (.perform ⟨nofun, fun _ => rfl⟩ fun _ _ => rfl)
            (fun _ _ h => h) fun _ _ h => h
        · rintro e held ⟨⟨response, hresponse⟩, -⟩
          cases hresponse
    · exact (respond_follows request admission).mono fun _ _ h => h.2

/-- A call that only reads does not ask for the lock. -/
theorem execute_unlocking (h : mutates request.operation = false) :
    Lockless (execute host request) := by
  have herror : ∀ e, Lockless (buildErrorResponse request e) := fun _ =>
    .bind (lockless_ask rfl) fun _ => .pure
  refine .bind (lockless_ask rfl).attempt fun r => ?_
  cases r with
  | error e => exact herror e
  | ok admission =>
    dsimp only
    rw [if_neg (by rw [h]; decide)]
    refine .bind (handle_unlocking request admission).attempt fun r => ?_
    cases r with
    | ok response => exact .pure
    | error e => exact herror e

/-! ## All calls together -/

/-- The locks are those of the applications of the calls that hold one, and no two hold the same. -/
structure LocksHeld (locks : MutationLocks) (holding : ℕ → Bool)
    (applicationOf : ℕ → Option JsString) : Prop where
  locked : ∀ applicationId, locks.has applicationId = true ↔
    ∃ i, holding i = true ∧ applicationOf i = some applicationId
  started : ∀ i, holding i = true → applicationOf i ≠ none
  one : ∀ i j, holding i = true → holding j = true → applicationOf i = applicationOf j → i = j

namespace LocksHeld

variable {locks : MutationLocks} {holding : ℕ → Bool} {applicationOf : ℕ → Option JsString} {i : ℕ}
  {applicationId : JsString}

variable (h : LocksHeld locks holding applicationOf)
include h

/-- Only the applications of calls that hold a lock matter. -/
theorem congr {applicationOf' : ℕ → Option JsString}
    (hsame : ∀ i, holding i = true → applicationOf' i = applicationOf i) :
    LocksHeld locks holding applicationOf' := by
  refine ⟨fun id => (h.locked id).trans ?_, fun i hi => ?_, fun i j hi hj => ?_⟩
  · exact exists_congr fun i => and_congr_right fun hi => by rw [hsame i hi]
  · rw [hsame i hi]
    exact h.started i hi
  · rw [hsame i hi, hsame j hj]
    exact h.one i j hi hj

/-- A call takes a lock that is free. -/
theorem take (lock : ActiveMutationLock) (hi : applicationOf i = some applicationId)
    (hfree : locks.get applicationId = none) :
    LocksHeld (locks.set applicationId lock) (Function.update holding i true) applicationOf := by
  have hnone : ∀ j, holding j = true → applicationOf j ≠ some applicationId := by
    intro j hj heq
    have hhas := (h.locked applicationId).mpr ⟨j, hj, heq⟩
    rw [JsMap.has, hfree] at hhas
    cases hhas
  have hholding : ∀ j, Function.update holding i true j = true ↔ j = i ∨ holding j = true := by
    intro j
    by_cases hj : j = i <;> simp [hj]
  refine ⟨fun id => ?_, fun j => ?_, fun j k => ?_⟩
  · have hlocked := h.locked id
    simp only [JsMap.has, hholding, JsMap.get_set] at hlocked ⊢
    grind
  · grind [h.started j]
  · grind [h.one j k]

/-- A call gives back its lock. -/
theorem give (hi : applicationOf i = some applicationId) (hheld : holding i = true) :
    LocksHeld (locks.delete applicationId) (Function.update holding i false) applicationOf := by
  have hholding : ∀ j, Function.update holding i false j = true ↔ j ≠ i ∧ holding j = true := by
    intro j
    by_cases hj : j = i <;> simp [hj]
  refine ⟨fun id => ?_, fun j => ?_, fun j k => ?_⟩
  · have hlocked := h.locked id
    simp only [JsMap.has, hholding, JsMap.get_delete] at hlocked ⊢
    grind [h.one i]
  · grind [h.started j]
  · grind [h.one j k]

end LocksHeld

/-- The locks of a world are those of the calls that hold one. -/
def MutexWorld.Exclusive (w : MutexWorld) : Prop := LocksHeld w.locks w.holding w.applicationOf

/-- The calls keep the invariant, and know whether they hold a lock. -/
theorem tracks_locks : lockDiscipline.Tracks (controllerMachine host) (fun _ held => held = false)
    MutexWorld.holding MutexWorld.Exclusive where
  body := execute_follows
  external _ := rfl
  start request w hw := by
    refine ⟨hw.congr fun i hi => ?_, rfl⟩
    have hlt : i < w.requests.length := by
      by_contra hge
      exact hw.started i hi (by simp [MutexWorld.applicationOf, Nat.le_of_not_lt hge])
    simp [controllerMachine, MutexWorld.applicationOf, List.getElem?_append_left hlt]
  step := by
    intro i w c choice r w' hw hallows hexec
    obtain ⟨applicationId, hi, hexec⟩ := Option.bind_eq_some_iff.mp hexec
    cases c with
    | acquire =>
      cases hexec
      have hheld : w.holding i = false := hallows.1 rfl
      refine ⟨?_, nofun, Function.update_self .., fun j hj => Function.update_of_ne hj ..⟩
      cases hlock : w.locks.get applicationId with
      | some active =>
        have hsame : Function.update w.holding i (w.holding i || false) = w.holding := by simp
        exact hsame.symm ▸ hw
      | none =>
        rw [hheld]
        exact hw.take _ hi hlock
    | release =>
      cases hexec
      exact ⟨hw.give hi (hallows.2 rfl), nofun, Function.update_self ..,
        fun j hj => Function.update_of_ne hj ..⟩
    | _ =>
      obtain ⟨⟨r', trace⟩, hanswer, heq⟩ := Option.map_eq_some_iff.mp hexec
      cases heq
      refine ⟨hw, fun hc => ?_, rfl, fun _ _ => rfl⟩
      first
        | (cases hc; done)
        | (cases hchoice : choice.answer <;> rw [hchoice] at hanswer <;> cases hanswer
           rfl)
  finish _ _ _ hw := ⟨hw, rfl⟩

/-- An answer leaves the requests. -/
theorem MutexWorld.exec_requests {w w' : MutexWorld} {i : ℕ} {c : DaemonCall} {choice : MutexChoice}
    {r : Except DaemonError c.Answer} (h : MutexWorld.exec i w c choice = some (r, w')) :
    w'.requests = w.requests := by
  obtain ⟨applicationId, -, h⟩ := Option.bind_eq_some_iff.mp h
  cases c <;> first
    | (cases h; rfl)
    | (obtain ⟨_, -, heq⟩ := Option.map_eq_some_iff.mp h; cases heq; rfl)

/-- A pool of calls of `execute`. -/
abbrev ControllerPool :=
  Pool DaemonCall DaemonCall.Answer DaemonError ApplicationRuntimeResponse MutexWorld

/-- The calls keep to the discipline, and those that only read have no lock and do not ask for one. -/
structure Disciplined (p : ControllerPool) : Prop where
  follows : p.Follows lockDiscipline (fun _ held => held = false) MutexWorld.holding
    MutexWorld.Exclusive
  length : p.tasks.length = p.world.requests.length
  reader : ∀ (i : ℕ) t request, p.tasks[i]? = some t → p.world.requests[i]? = some request →
    mutates request.operation = false →
    Lockless t ∧ p.world.holding i = false

/-- Whatever happens next. -/
theorem Disciplined.next {p p' : ControllerPool}
    {l : PoolLabel ApplicationRuntimeRequest MutexChoice} (h : Disciplined p)
    (hl : (controllerMachine host).next p l = some p') : Disciplined p' := by
  have hfollows := h.follows.next tracks_locks hl
  obtain ⟨request, -, rfl⟩ | ⟨i, c, next, choice, r, w', hcall, hexec, rfl⟩ | ⟨i, r, -, rfl⟩ :=
    Machine.next_cases hl
  · refine ⟨hfollows, by simp [controllerMachine, h.length], fun i t request' ht hr hread => ?_⟩
    simp only [controllerMachine, List.getElem?_append, h.length] at ht hr
    split_ifs at ht hr with hlt
    · exact h.reader i t request' ht hr hread
    · obtain ⟨_, rfl⟩ := List.getElem?_eq_some_iff.mp ht
      obtain ⟨_, rfl⟩ := List.getElem?_eq_some_iff.mp hr
      simp only [List.getElem_singleton] at hread ⊢
      exact ⟨execute_unlocking request hread, h.follows.fresh i (h.length ▸ Nat.le_of_not_lt hlt)⟩
  · have hlt : i < p.tasks.length := (List.getElem?_eq_some_iff.mp hcall).1
    have hrequests := MutexWorld.exec_requests hexec
    obtain ⟨-, -, hheld, hothers⟩ := tracks_locks.step i p.world c choice r w' h.follows.inv
      (h.follows.task i _ hcall).1 hexec
    have hjobs : ((controllerMachine host).jobs w') = [] := rfl
    simp only [hjobs, List.drop_nil, List.map_nil, List.append_nil] at hfollows ⊢
    refine ⟨hfollows, by simp [hrequests, h.length], fun j t request ht hr hread => ?_⟩
    rw [hrequests] at hr
    -- a reader makes no call on the lock, so it holds what it held before
    by_cases hj : j = i
    · subst hj
      rw [List.getElem?_set_self hlt] at ht
      cases ht
      obtain ⟨honly, hfree⟩ := h.reader j _ request hcall hr hread
      have hleaves : lockDiscipline.after (p.world.holding j) c r = p.world.holding j := by
        cases c <;> first | rfl | cases honly.1
      exact ⟨honly.2 r, (hheld.trans hleaves).trans hfree⟩
    · rw [List.getElem?_set_ne (Ne.symm hj)] at ht
      obtain ⟨honly, hfree⟩ := h.reader j t request ht hr hread
      exact ⟨honly, (hothers j hj).trans hfree⟩
  · exact ⟨hfollows, h.length, h.reader⟩

/-- However the calls interleave: at most one call of an application is between taking its lock and
giving it back, only such a call gives a lock back, and while a lock is taken a mutating call of its
application is under way. -/
theorem mutations_exclusive (host : DaemonHost)
    (labels : List (PoolLabel ApplicationRuntimeRequest MutexChoice)) (p : ControllerPool)
    (hrun : (controllerMachine host).run idleController labels = some p) :
    (∀ i j, p.world.holding i = true → p.world.holding j = true →
      p.world.applicationOf i = p.world.applicationOf j → i = j) ∧
    (∀ (i : ℕ) next, p.tasks[i]? = some (.call .release next) → p.world.holding i = true) ∧
    ∀ applicationId, p.world.locks.has applicationId = true → ∃ (i : ℕ) (request : _) (c : _) (next : _),
      p.tasks[i]? = some (.call c next) ∧ p.world.holding i = true ∧
      p.world.requests[i]? = some request ∧ request.applicationId = applicationId ∧
      mutates request.operation = true := by
  have hidle : Disciplined idleController := by
    refine ⟨⟨⟨fun _ => ?_, nofun, nofun⟩, nofun, fun _ _ => rfl⟩, rfl, nofun⟩
    simp [idleController, JsMap.has]
  obtain ⟨hfollows, -, hreader⟩ := Machine.run_induct hrun Disciplined hidle fun _ _ _ hl hq => hq.next hl
  refine ⟨hfollows.inv.one, fun i next hnext => (hfollows.task i _ hnext).1.2 rfl, ?_⟩
  intro applicationId hlocked
  obtain ⟨i, hheld, happlication⟩ := (hfollows.inv.locked applicationId).mp hlocked
  obtain ⟨request, hrequest, hid⟩ := Option.map_eq_some_iff.mp happlication
  cases htask : p.tasks[i]? with
  | none =>
    have hfree := hfollows.fresh i (List.getElem?_eq_none_iff.mp htask)
    rw [hheld] at hfree
    cases hfree
  | some t =>
    cases t with
    | ret r =>
      -- A call that has ended has given its lock back.
      have hfree : p.world.holding i = false := hfollows.task i _ htask
      rw [hheld] at hfree
      cases hfree
    | call c next =>
      refine ⟨i, request, c, next, htask, hheld, hrequest, hid, ?_⟩
      by_contra hread
      have hfree := (hreader i _ request htask hrequest (by simpa using hread)).2
      rw [hheld] at hfree
      cases hfree

/-- Two calls to stop an application: the first one takes the lock, and the second one is refused. -/
theorem mutations_exclusive_refused :
    let request : ApplicationRuntimeRequest := ⟨js "r", .stopApplication, ⟨js "operator", none⟩,
      js "app", js "deployment", none, 30000⟩
    let admitted : MutexChoice := ⟨.admission (.ok ⟨[]⟩), []⟩
    ∃ p, (controllerMachine ⟨fun _ => [], fun _ _ => .eq⟩).run idleController
        [.start request, .start request, .step 0 admitted, .step 1 admitted, .step 0 admitted,
          .step 1 admitted] = some p ∧
      p.world.holding 0 = true ∧ p.world.locks.has (js "app") = true ∧
      ∀ j, p.world.holding j = true → p.world.applicationOf 0 = p.world.applicationOf j → 0 = j := by
  refine exists_some_of_map (b := (true, true))
    (f := fun p => (p.world.holding 0, p.world.locks.has (js "app"))) (by decide +kernel)
    fun p hrun heq => ?_
  obtain ⟨hheld, hlocked⟩ := Prod.mk.inj heq
  exact ⟨hheld, hlocked, fun j => (mutations_exclusive _ _ p hrun).1 0 j hheld⟩

end ZimaControl
