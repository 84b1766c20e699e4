import ZimaControl.Lib.Solo

/-!
# Tasks that follow a discipline

What a task may do next can depend on what it was answered so far: a session with a server has a
state that only its own messages change. A `Discipline` says which calls are allowed in a state of
knowledge, which answers are possible, and what the task knows after an answer.

If all jobs of a pool follow a discipline (`Task.Follows`) and the world keeps track of what each of
them knows, then every call of a run is allowed by what its job knows (`Discipline.run`), however
the calls interleave.
-/

namespace ZimaControl

open List

variable {C : Type} {R : C → Type} {ε α β σ W Job O : Type}

/-- What is known at the start, allowed calls, possible answers and what they teach. -/
structure Discipline (C : Type) (R : C → Type) (ε σ : Type) where
  initial : σ
  Allows : σ → C → Prop
  Possible : σ → (c : C) → Except ε (R c) → Prop
  after : σ → (c : C) → Except ε (R c) → σ

namespace Task

variable (d : Discipline C R ε σ)

/-- Whatever is possible, a task makes allowed calls only, and ends with `Q`. -/
def Follows (Q : Except ε α → σ → Prop) : Task C R ε α → σ → Prop
  | ret r, s => Q r s
  | call c next, s => d.Allows s c ∧ ∀ r, d.Possible s c r → (next r).Follows Q (d.after s c r)

variable {d} {s : σ} {t : Task C R ε α}

/-- A weaker postcondition. -/
theorem Follows.mono {Q S : Except ε α → σ → Prop} (h : t.Follows d S s) (hQ : ∀ r s, S r s → Q r s) :
    t.Follows d Q s := by
  induction t generalizing s with
  | ret r => exact hQ r s h
  | call c next ih => exact ⟨h.1, fun r hr => ih r (h.2 r hr)⟩

variable {S : Except ε α → σ → Prop} {Q : Except ε β → σ → Prop}

/-- Sequencing. -/
theorem Follows.bind {f : α → Task C R ε β} (h : t.Follows d S s)
    (hok : ∀ a s', S (.ok a) s' → (f a).Follows d Q s')
    (herror : ∀ e s', S (.error e) s' → Q (.error e) s') : (t >>= f).Follows d Q s := by
  induction t generalizing s with
  | ret r =>
    cases r with
    | ok a => exact hok a s h
    | error e => exact herror e s h
  | call c next ih => exact ⟨h.1, fun r hr => ih r (h.2 r hr)⟩

/-- A `try`, followed by what is done with either outcome. -/
theorem Follows.bindAttempt {f : Except ε α → Task C R ε β} (h : t.Follows d S s)
    (hf : ∀ r s', S r s' → (f r).Follows d Q s') : (t.attempt >>= f).Follows d Q s := by
  induction t generalizing s with
  | ret r => exact hf r s h
  | call c next ih => exact ⟨h.1, fun r hr => ih r (h.2 r hr)⟩

/-- A call. -/
theorem Follows.perform {c : C} {Q : Except ε (R c) → σ → Prop} (hallows : d.Allows s c)
    (h : ∀ r, d.Possible s c r → Q r (d.after s c r)) : (Task.perform c).Follows d Q s :=
  ⟨hallows, h⟩

/-- A task whose calls are allowed and teach nothing. -/
theorem Only.follows {P : C → Prop} (h : t.Only P)
    (hP : ∀ c, P c → d.Allows s c ∧ ∀ r, d.after s c r = s) :
    t.Follows d (fun _ s' => s' = s) s := by
  induction t with
  | ret r => rfl
  | call c next ih =>
    obtain ⟨hallows, hafter⟩ := hP c h.1
    refine ⟨hallows, fun r _ => ?_⟩
    rw [hafter]
    exact ih r (h.2 r)

end Task

/-! ## Pools -/

/-- The world keeps track of what each job knows, and allowed calls keep its invariant. -/
structure Discipline.Tracks (d : Discipline C R ε σ) (m : Machine C R ε α W Job O)
    (Q : Except ε α → σ → Prop) (know : W → ℕ → σ) (I : W → Prop) : Prop where
  /-- The jobs follow the discipline. -/
  body : ∀ job, (m.body job).Follows d Q d.initial
  /-- Jobs are started by the environment only. -/
  external : ∀ w, m.jobs w = []
  /-- The start of a job changes nothing that matters. -/
  start : ∀ job w, I w → I (m.start job w) ∧ know (m.start job w) = know w
  /-- An allowed call has a possible answer, which its job knows, and keeps the invariant. -/
  step : ∀ i w c choice r w', I w → d.Allows (know w i) c → m.exec i w c choice = some (r, w') →
    I w' ∧ d.Possible (know w i) c r ∧ know w' i = d.after (know w i) c r ∧
      ∀ j, j ≠ i → know w' j = know w j
  /-- The end of a job changes nothing that matters. -/
  finish : ∀ i r w, I w → I (m.finish i r w) ∧ know (m.finish i r w) = know w

/-- The invariant holds, what is left of each job follows the discipline, and jobs to come know
nothing. -/
structure Pool.Follows (d : Discipline C R ε σ) (Q : Except ε α → σ → Prop) (know : W → ℕ → σ)
    (I : W → Prop) (p : Pool C R ε α W) : Prop where
  inv : I p.world
  task : ∀ (i : ℕ) (t : Task C R ε α), p.tasks[i]? = some t → t.Follows d Q (know p.world i)
  fresh : ∀ i, p.tasks.length ≤ i → know p.world i = d.initial

variable {d : Discipline C R ε σ} {m : Machine C R ε α W Job O} {Q : Except ε α → σ → Prop}
  {know : W → ℕ → σ} {I : W → Prop} {p : Pool C R ε α W} (h : d.Tracks m Q know I)
  (hp : p.Follows d Q know I)
include h hp

/-- The start of a job. -/
theorem Pool.Follows.start (job : Job) :
    Pool.Follows d Q know I ⟨m.start job p.world, p.tasks ++ [m.body job]⟩ := by
  obtain ⟨hinv, hknow⟩ := h.start job p.world hp.inv
  refine ⟨hinv, fun i t ht => ?_, fun i hi => ?_⟩
  · rw [hknow]
    rcases Nat.lt_trichotomy i p.tasks.length with hlt | heq | hgt
    · rw [getElem?_append_left hlt] at ht
      exact hp.task i t ht
    · rw [heq, getElem?_append_right (Nat.le_refl _), Nat.sub_self] at ht
      cases ht
      rw [hp.fresh i (Nat.le_of_eq heq.symm)]
      exact h.body job
    · rw [getElem?_eq_none (by simp; omega)] at ht
      cases ht
  · rw [hknow]
    refine hp.fresh i ?_
    simp only [length_append, length_singleton] at hi
    omega

/-- An answered call. -/
theorem Pool.Follows.step {i : ℕ} {c : C} {next : Except ε (R c) → Task C R ε α}
    (hcall : p.tasks[i]? = some (.call c next)) {choice : O} {r : Except ε (R c)} {w' : W}
    (hexec : m.exec i p.world c choice = some (r, w')) :
    Pool.Follows d Q know I ⟨w', p.tasks.set i (next r)⟩ := by
  have hlt : i < p.tasks.length := (List.getElem?_eq_some_iff.mp hcall).1
  obtain ⟨hallows, hnext⟩ := hp.task i _ hcall
  obtain ⟨hinv, hpossible, hown, hothers⟩ := h.step i p.world c choice r w' hp.inv hallows hexec
  refine ⟨hinv, fun j t ht => ?_, fun j hj => ?_⟩
  · by_cases hj : j = i
    · subst hj
      rw [getElem?_set_self hlt] at ht
      cases ht
      rw [hown]
      exact hnext r hpossible
    · rw [getElem?_set_ne (Ne.symm hj)] at ht
      rw [hothers j hj]
      exact hp.task j t ht
  · rw [length_set] at hj
    rw [hothers j (by omega)]
    exact hp.fresh j hj

/-- Whatever happens next. -/
theorem Pool.Follows.next {p' : Pool C R ε α W} {l : PoolLabel Job O}
    (hl : m.next p l = some p') : p'.Follows d Q know I := by
  obtain ⟨job, -, rfl⟩ | ⟨i, c, next, choice, r, w', hcall, hexec, rfl⟩ | ⟨i, r, -, rfl⟩ :=
    Machine.next_cases hl
  · exact hp.start h job
  · rw [h.external w', drop_nil, map_nil, append_nil]
    exact hp.step h hcall hexec
  · obtain ⟨hinv, hknow⟩ := h.finish i r p.world hp.inv
    exact ⟨hinv, fun j t ht => by rw [hknow]; exact hp.task j t ht,
      fun j hj => by rw [hknow]; exact hp.fresh j hj⟩

/-- Along every run, the invariant holds and the jobs follow the discipline. -/
theorem Discipline.Tracks.run {p' : Pool C R ε α W} {labels : List (PoolLabel Job O)}
    (hrun : m.run p labels = some p') : p'.Follows d Q know I :=
  Machine.run_induct hrun (Pool.Follows d Q know I) hp fun _ _ _ hl hq => hq.next h hl

end ZimaControl
