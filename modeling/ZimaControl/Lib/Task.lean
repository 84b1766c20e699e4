import Mathlib.Logic.Relation
import Mathlib.Tactic.Common

/-!
# Concurrent tasks

An asynchronous program is a `Task`: it has returned or thrown, or it waits for the answer of a
call. A `Pool` runs tasks side by side over a shared world: one step answers one call, and calls of
different tasks interleave in any order. A task that is never stepped again has crashed.

A `Contract` names an invariant of the world and what each task may change (its guarantee); `wp` is
the weakest precondition of a task under the changes that the others' guarantees allow.
`Contract.Holds.run` puts the verified tasks together: the invariant holds along every run of the
pool.
-/

namespace ZimaControl

open List

/-- A task over calls `C` with answers `R`, ending with an `α` or an error. -/
inductive Task (C : Type) (R : C → Type) (ε α : Type)
  /-- The task returned or threw. -/
  | ret (result : Except ε α)
  /-- The task waits for the answer of a call. -/
  | call (c : C) (next : Except ε (R c) → Task C R ε α)

/-- An option holds a value with a property if a computed part of the value implies it. -/
theorem exists_some_of_map {α β : Type} {x : Option α} {f : α → β} {b : β} {P : α → Prop}
    (h : x.map f = some b) (hP : ∀ a, x = some a → f a = b → P a) : ∃ a, x = some a ∧ P a := by
  obtain ⟨a, ha, hb⟩ := Option.map_eq_some_iff.mp h
  exact ⟨a, ha, hP a ha hb⟩

namespace Task

variable {C : Type} {R : C → Type} {ε α β : Type}

/-- Goes on with the value of a task that returned; an error ends the whole. -/
protected def bind : Task C R ε α → (α → Task C R ε β) → Task C R ε β
  | ret (.ok a), f => f a
  | ret (.error e), _ => ret (.error e)
  | call c next, f => call c fun r => (next r).bind f

/-- The outcome of a task as a value: the `try` of a `try`–`catch`. -/
def attempt : Task C R ε α → Task C R ε (Except ε α)
  | ret r => ret (.ok r)
  | call c next => call c fun r => (next r).attempt

instance : Monad (Task C R ε) where
  pure a := ret (.ok a)
  bind := Task.bind

instance : MonadExceptOf ε (Task C R ε) where
  throw e := ret (.error e)
  tryCatch t handler := t.attempt.bind fun
    | .ok a => ret (.ok a)
    | .error e => handler e

/-- Makes a call and waits for its answer. -/
def perform (c : C) : Task C R ε (R c) := call c ret

/-- Sequencing is associative. -/
theorem bind_assoc {γ : Type} (t : Task C R ε α) (f : α → Task C R ε β) (g : β → Task C R ε γ) :
    (t >>= f) >>= g = t >>= fun a => f a >>= g := by
  change (t.bind f).bind g = t.bind fun a => (f a).bind g
  induction t with
  | ret r => cases r <;> rfl
  | call c next ih =>
    simp only [Task.bind]
    congr 1
    funext r
    exact ih r

end Task

/-! ## Pools -/

/-- The tasks of a pool's jobs and how the world answers their calls. An `O` is a choice of the
environment. -/
structure Machine (C : Type) (R : C → Type) (ε α W Job O : Type) where
  /-- The task of a job. -/
  body : Job → Task C R ε α
  /-- The jobs that the environment may start. -/
  external : Job → Bool
  /-- The jobs started so far, in order; a job's place is its number. -/
  jobs : W → List Job
  /-- The environment starts a job. -/
  start : Job → W → W
  /-- The answer to a job's call, if the environment's choice fits it. -/
  exec : ℕ → W → (c : C) → O → Option (Except ε (R c) × W)
  /-- A job ends and leaves its outcome. -/
  finish : ℕ → Except ε α → W → W

variable {C : Type} {R : C → Type} {ε α W Job O : Type}

/-- The world and what is left of each job's task. -/
structure Pool (C : Type) (R : C → Type) (ε α W : Type) where
  world : W
  tasks : List (Task C R ε α)

/-- What happens next in a pool. -/
inductive PoolLabel (Job O : Type)
  /-- The environment starts a job. -/
  | start (job : Job)
  /-- The pending call of a job is answered. -/
  | step (i : ℕ) (choice : O)
  /-- A job that returned or threw leaves its outcome. -/
  | finish (i : ℕ)

variable {p : Pool C R ε α W}

namespace Machine

variable (m : Machine C R ε α W Job O)

/-- The pool after a label, if the label is possible. -/
def next (p : Pool C R ε α W) : PoolLabel Job O → Option (Pool C R ε α W)
  | .start job => if m.external job then some ⟨m.start job p.world, p.tasks ++ [m.body job]⟩ else none
  | .step i choice =>
    match p.tasks[i]? with
    | some (.call c k) => (m.exec i p.world c choice).map fun (r, w) =>
        ⟨w, p.tasks.set i (k r) ++ ((m.jobs w).drop p.tasks.length).map m.body⟩
    | _ => none
  | .finish i =>
    match p.tasks[i]? with
    | some (.ret r) => some ⟨m.finish i r p.world, p.tasks⟩
    | _ => none

/-- The pool after a sequence of labels. -/
def run (p : Pool C R ε α W) : List (PoolLabel Job O) → Option (Pool C R ε α W)
  | [] => some p
  | l :: labels => (m.next p l).bind fun p' => run p' labels

variable {m} in
/-- A job is started, a call is answered, or a job has ended. -/
theorem next_cases {p p' : Pool C R ε α W} {l : PoolLabel Job O} (hl : m.next p l = some p') :
    (∃ job, m.external job = true ∧ p' = ⟨m.start job p.world, p.tasks ++ [m.body job]⟩) ∨
      (∃ i c k choice r w', p.tasks[i]? = some (.call c k) ∧
        m.exec i p.world c choice = some (r, w') ∧
        p' = ⟨w', p.tasks.set i (k r) ++ ((m.jobs w').drop p.tasks.length).map m.body⟩) ∨
      ∃ i r, p.tasks[i]? = some (.ret r) ∧ p' = ⟨m.finish i r p.world, p.tasks⟩ := by
  cases l with
  | start job =>
    rw [next] at hl
    split_ifs at hl with hext
    cases hl
    exact .inl ⟨job, hext, rfl⟩
  | step i choice =>
    rw [next] at hl
    split at hl
    next c k hcall =>
      obtain ⟨⟨r, w'⟩, hexec, rfl⟩ := Option.map_eq_some_iff.mp hl
      exact .inr (.inl ⟨i, c, k, choice, r, w', hcall, hexec, rfl⟩)
    next => cases hl
  | finish i =>
    rw [next] at hl
    split at hl
    next r hret =>
      cases hl
      exact .inr (.inr ⟨i, r, hret, rfl⟩)
    next => cases hl

variable {m} in
/-- What every label preserves, every run preserves. -/
theorem run_induct {p p' : Pool C R ε α W} {labels : List (PoolLabel Job O)}
    (hrun : m.run p labels = some p') (P : Pool C R ε α W → Prop) (hp : P p)
    (hnext : ∀ q l q', m.next q l = some q' → P q → P q') : P p' := by
  induction labels generalizing p with
  | nil =>
    cases hrun
    exact hp
  | cons l labels ih =>
    obtain ⟨p₁, hl, hrest⟩ := Option.bind_eq_some_iff.mp hrun
    exact ih hrest (hnext p l p₁ hl hp)

variable {m} in
/-- A run is a run of its beginning, followed by a run of the rest. -/
theorem run_append {labels labels' : List (PoolLabel Job O)} :
    m.run p (labels ++ labels') = (m.run p labels).bind fun q => m.run q labels' := by
  induction labels generalizing p with
  | nil => rfl
  | cons l labels ih =>
    rw [cons_append, run, run, Option.bind_assoc]
    exact Option.bind_congr fun q _ => ih

end Machine

/-! ## Contracts -/

/-- What the tasks of a machine promise each other. -/
structure Contract (m : Machine C R ε α W Job O) where
  /-- Holds of the world between any two steps. -/
  Inv : W → Prop
  /-- The changes of the world that a job makes. -/
  Guar : ℕ → W → W → Prop
  /-- What a job finds when it starts. -/
  Pre : ℕ → Job → W → Prop
  /-- What a job leaves when it has returned or thrown. -/
  Post : ℕ → Job → Except ε α → W → Prop

namespace Contract

variable {m : Machine C R ε α W Job O} (k : Contract m)

/-- One change that a job may see others make. -/
def RelyStep (i : ℕ) (w w' : W) : Prop := k.Inv w ∧ k.Inv w' ∧ ∃ j, j ≠ i ∧ k.Guar j w w'

/-- Any number of such changes. -/
def Rely (i : ℕ) : W → W → Prop := Relation.ReflTransGen (k.RelyStep i)

/-- A condition on the world that the others do not break. -/
def Stable (i : ℕ) (P : W → Prop) : Prop := ∀ w w', k.RelyStep i w w' → P w → P w'

/-- The jobs that a step of the world started find their preconditions. -/
def Starts (w w' : W) : Prop :=
  ∃ new, m.jobs w' = m.jobs w ++ new ∧
    ∀ n job, new[n]? = some job → k.Pre ((m.jobs w).length + n) job w'

/-- What a job may do with one call. -/
def Allowed (i : ℕ) (w w' : W) : Prop := k.Inv w' ∧ k.Guar i w w' ∧ k.Starts w w'

/-- The weakest precondition of a task of job `i`: whatever the others do before each call, it is
allowed, and the task ends with `Q`. -/
def wp {β : Type} (i : ℕ) : Task C R ε β → (Except ε β → W → Prop) → W → Prop
  | .ret r, Q, w => Q r w
  | .call c next, Q, w => ∀ w₁, k.Rely i w w₁ → k.Inv w₁ → ∀ choice r w₂,
      m.exec i w₁ c choice = some (r, w₂) → k.Allowed i w₁ w₂ ∧ wp i (next r) Q w₂

variable {k} {i : ℕ} {β γ : Type} {w : W} {w' : W} {P : W → Prop}

/-- A stable condition survives any number of changes. -/
theorem Stable.rely (h : k.Stable i P) (hr : k.Rely i w w') (hw : P w) : P w' := by
  induction hr with
  | refl => exact hw
  | tail _ hstep ih => exact h _ _ hstep ih

/-- Two stable conditions are stable together. -/
theorem Stable.and {P P' : W → Prop} (h : k.Stable i P) (h' : k.Stable i P') :
    k.Stable i fun w => P w ∧ P' w :=
  fun w w' hstep hw => ⟨h w w' hstep hw.1, h' w w' hstep hw.2⟩

/-- A stable condition under an assumption is stable. -/
theorem Stable.imp (p : Prop) (h : k.Stable i P) : k.Stable i fun w => p → P w :=
  fun w w' hstep hw hp => h w w' hstep (hw hp)

/-- Stable conditions for some choice of a parameter are stable. -/
theorem Stable.exists {ι : Sort*} {P : ι → W → Prop} (h : ∀ x, k.Stable i (P x)) :
    k.Stable i fun w => ∃ x, P x w :=
  fun w w' hstep ⟨x, hw⟩ => ⟨x, h x w w' hstep hw⟩

variable {t : Task C R ε β}

/-- A weaker postcondition. -/
theorem wp_mono {Q Q' : Except ε β → W → Prop} (h : k.wp i t Q w) (hQ : ∀ r w, Q r w → Q' r w) :
    k.wp i t Q' w := by
  induction t generalizing w with
  | ret r => exact hQ _ _ h
  | call c next ih =>
    intro w₁ hr hinv choice r w₂ hexec
    obtain ⟨hallowed, hnext⟩ := h w₁ hr hinv choice r w₂ hexec
    exact ⟨hallowed, ih r hnext⟩

variable {Q : Except ε γ → W → Prop}

/-- Sequencing: the first task ends where the second may start, or with an error that may stand. -/
theorem wp_bind {f : β → Task C R ε γ} (h : k.wp i t (fun
      | .ok b, w => k.wp i (f b) Q w
      | .error e, w => Q (.error e) w) w) : k.wp i (t >>= f) Q w := by
  induction t generalizing w with
  | ret r => cases r <;> exact h
  | call c next ih =>
    intro w₁ hr hinv choice r w₂ hexec
    obtain ⟨hallowed, hnext⟩ := h w₁ hr hinv choice r w₂ hexec
    exact ⟨hallowed, ih r hnext⟩

/-- The outcome of a task as a value. -/
theorem wp_attempt {Q : Except ε (Except ε β) → W → Prop}
    (h : k.wp i t (fun r w => Q (.ok r) w) w) : k.wp i t.attempt Q w := by
  induction t generalizing w with
  | ret r => exact h
  | call c next ih =>
    intro w₁ hr hinv choice r w₂ hexec
    obtain ⟨hallowed, hnext⟩ := h w₁ hr hinv choice r w₂ hexec
    exact ⟨hallowed, ih r hnext⟩

variable {handler : ε → Task C R ε β}

/-- Catching: where the body throws, the handler may start. -/
theorem wp_tryCatch {Q : Except ε β → W → Prop} (h : k.wp i t (fun
      | .ok b, w => Q (.ok b) w
      | .error e, w => k.wp i (handler e) Q w) w) : k.wp i (tryCatch t handler) Q w := by
  refine wp_bind (wp_attempt (wp_mono h ?_))
  rintro (e | b) w hw <;> exact hw

/-- A call, from a condition that the others do not break. -/
theorem wp_perform {c : C} (hP : k.Stable i P) (hw : P w) {Q : Except ε (R c) → W → Prop}
    (h : ∀ w₁ choice r w₂, P w₁ → k.Inv w₁ → m.exec i w₁ c choice = some (r, w₂) →
      k.Allowed i w₁ w₂ ∧ Q r w₂) : k.wp i (Task.perform c) Q w :=
  fun w₁ hr hinv choice r w₂ hexec => h w₁ choice r w₂ (hP.rely hr hw) hinv hexec

/-- What others change does not invalidate a weakest precondition. -/
theorem wp_stable {Q : Except ε β → W → Prop} (hQ : ∀ r, k.Stable i (Q r)) :
    k.Stable i (k.wp i t Q) := by
  intro w w' hstep h
  cases t with
  | ret r => exact hQ r w w' hstep h
  | call c next => exact fun w₁ hr => h w₁ (.head hstep hr)

/-- What no job breaks, a task finds at its end as at its start. -/
theorem wp_frame {F : W → Prop} (hF : ∀ j w w', k.Guar j w w' → F w → F w')
    {Q : Except ε β → W → Prop} (h : k.wp i t Q w) (hw : F w) :
    k.wp i t (fun r w => Q r w ∧ F w) w := by
  induction t generalizing w with
  | ret r => exact ⟨h, hw⟩
  | call c next ih =>
    intro w₁ hr hinv choice r w₂ hexec
    obtain ⟨hallowed, hnext⟩ := h w₁ hr hinv choice r w₂ hexec
    have hstable : k.Stable i F := fun w w' ⟨_, _, j, _, hguar⟩ => hF j w w' hguar
    exact ⟨hallowed, ih r hnext (hF i w₁ w₂ hallowed.2.1 (hstable.rely hr hw))⟩

/-! ### Triples -/

variable (k) (i)

/-- From `P`, a task of job `i` does what is allowed and ends with `Q`. -/
def Triple (P : W → Prop) (t : Task C R ε β) (Q : Except ε β → W → Prop) : Prop :=
  ∀ w, P w → k.wp i t Q w

/-- A task of job `i` keeps `P` and throws only errors in `E`. -/
def Keeps (E : ε → Prop) (P : W → Prop) (t : Task C R ε β) : Prop :=
  k.Triple i P t fun r w => P w ∧ ∀ e, r = .error e → E e

variable {k i}

section Triple

variable {P : W → Prop} {E E' : ε → Prop} {t : Task C R ε β} {f : β → Task C R ε γ}

/-- A stronger precondition and a weaker postcondition. -/
theorem Triple.mono {P' : W → Prop} {Q Q' : Except ε β → W → Prop} (h : k.Triple i P t Q)
    (hP : ∀ w, P' w → P w) (hQ : ∀ r w, Q r w → Q' r w) : k.Triple i P' t Q' :=
  fun w hw => wp_mono (h w (hP w hw)) hQ

variable {S : Except ε β → W → Prop}

/-- Sequencing. -/
theorem Triple.bind (h : k.Triple i P t S) (hf : ∀ b, k.Triple i (S (.ok b)) (f b) Q)
    (he : ∀ e w, S (.error e) w → Q (.error e) w) : k.Triple i P (t >>= f) Q := by
  refine fun w hw => wp_bind (wp_mono (h w hw) ?_)
  rintro (e | b) w' hw'
  · exact he e w' hw'
  · exact hf b w' hw'

/-- Catching. -/
theorem Triple.tryCatch {Q S : Except ε β → W → Prop} (h : k.Triple i P t S)
    (hok : ∀ b w, S (.ok b) w → Q (.ok b) w) (hh : ∀ e, k.Triple i (S (.error e)) (handler e) Q) :
    k.Triple i P (MonadExcept.tryCatch t handler) Q := by
  refine fun w hw => wp_tryCatch (wp_mono (h w hw) ?_)
  rintro (e | b) w' hw'
  · exact hh e w' hw'
  · exact hok b w' hw'

/-- A call that every job could make keeps what the others keep. -/
theorem Triple.neutral {c : C} {A : Except ε (R c) → W → Prop} (hP : k.Stable i P)
    (h : ∀ w choice r w', P w → k.Inv w → m.exec i w c choice = some (r, w') →
      k.Inv w' ∧ (∀ j, k.Guar j w w') ∧ k.Starts w w' ∧ (P w' → A r w')) :
    k.Triple i P (Task.perform c) fun r w => P w ∧ A r w := by
  refine fun w hw => wp_perform hP hw fun w₁ choice r w₂ hw₁ hinv hexec => ?_
  obtain ⟨hinv', hguar, hstarts, hA⟩ := h w₁ choice r w₂ hw₁ hinv hexec
  -- The change is one that another job could have made.
  have hw₂ : P w₂ := hP w₁ w₂ ⟨hinv, hinv', i + 1, Nat.succ_ne_self i, hguar _⟩ hw₁
  exact ⟨⟨hinv', hguar i, hstarts⟩, hw₂, hA hw₂⟩

/-- A task that keeps a condition ends with it. -/
theorem Keeps.triple (h : k.Keeps i E P t) : k.Triple i P t fun _ w => P w :=
  Triple.mono h (fun _ hw => hw) fun _ _ hw => hw.1

/-- A task that keeps a condition, followed by another one. -/
theorem Keeps.bindTriple (h : k.Keeps i E P t) (hf : ∀ b, k.Triple i P (f b) Q)
    (he : ∀ e w, E e → P w → Q (.error e) w) : k.Triple i P (t >>= f) Q :=
  Triple.bind h (fun b w hw => hf b w hw.1) fun e w hw => he e w (hw.2 e rfl) hw.1

variable {g : Except ε β → Task C R ε γ}

/-- Going on with the outcome of a task, whatever it is. -/
theorem Triple.bindAttempt (h : k.Triple i P t S) (hg : ∀ r, k.Triple i (S r) (g r) Q) :
    k.Triple i P (t.attempt >>= g) Q :=
  fun w hw => wp_bind (wp_attempt (wp_mono (h w hw) fun r w' hw' => hg r w' hw'))

/-- Going on with the outcome of a task that keeps a condition. -/
theorem Keeps.bindAttempt (h : k.Keeps i E P t) (hg : ∀ r, k.Triple i P (g r) Q) :
    k.Triple i P (t.attempt >>= g) Q :=
  Triple.bindAttempt h fun r w hw => hg r w hw.1

/-- Two tasks that keep a condition. -/
theorem Keeps.bind (h : k.Keeps i E P t) (hf : ∀ b, k.Keeps i E P (f b)) :
    k.Keeps i E P (t >>= f) :=
  h.bindTriple hf fun _ _ he hw => ⟨hw, fun _ heq => by cases heq; exact he⟩

/-- Returning keeps everything. -/
theorem Keeps.pure (b : β) : k.Keeps i E P (Pure.pure b : Task C R ε β) :=
  fun _ hw => ⟨hw, fun _ heq => by cases heq⟩

/-- Throwing keeps everything. -/
theorem Keeps.throw {e : ε} (he : E e) : k.Keeps i E P (MonadExcept.throw e : Task C R ε β) :=
  fun _ hw => ⟨hw, fun _ heq => by cases heq; exact he⟩

/-- Returning or throwing keeps everything. -/
theorem Keeps.ret {r : Except ε β} (he : ∀ e, r = .error e → E e) :
    k.Keeps i E P (.ret r : Task C R ε β) :=
  fun _ hw => ⟨hw, he⟩

/-- A `try` keeps what its body keeps, and does not throw. -/
theorem Keeps.attempt (h : k.Keeps i E P t) : k.Keeps i E' P t.attempt :=
  fun w hw => wp_attempt (wp_mono (h w hw) fun _ _ hw' => ⟨hw'.1, fun _ heq => by cases heq⟩)

/-- A `try` with its `catch` keeps what both keep. -/
theorem Keeps.tryCatch (h : k.Keeps i E P t) (hh : ∀ e, E e → k.Keeps i E' P (handler e)) :
    k.Keeps i E' P (MonadExcept.tryCatch t handler) :=
  Triple.tryCatch h (fun _ _ hw => ⟨hw.1, fun _ heq => by cases heq⟩)
    fun e w hw => hh e (hw.2 e rfl) w hw.1

/-- A call that every job could make keeps what the others keep. -/
theorem Keeps.neutral {c : C} (hP : k.Stable i P)
    (h : ∀ w choice r w', P w → k.Inv w → m.exec i w c choice = some (r, w') →
      k.Inv w' ∧ (∀ j, k.Guar j w w') ∧ k.Starts w w' ∧ ∀ e, r = .error e → E e) :
    k.Keeps i E P (Task.perform c) :=
  Triple.neutral (A := fun r _ => ∀ e, r = .error e → E e) hP fun w choice r w' hw hinv hexec => by
    obtain ⟨hinv', hguar, hstarts, he⟩ := h w choice r w' hw hinv hexec
    exact ⟨hinv', hguar, hstarts, fun _ => he⟩

/-- More errors. -/
theorem Keeps.mono (h : k.Keeps i E P t) (hE : ∀ e, E e → E' e) : k.Keeps i E' P t :=
  Triple.mono h (fun _ hw => hw) fun _ _ hw => ⟨hw.1, fun e heq => hE e (hw.2 e heq)⟩

end Triple

/-- No job was started. -/
theorem starts_of_eq (h : m.jobs w' = m.jobs w) : k.Starts w w' :=
  ⟨[], by simp [h], fun n job hjob => by simp at hjob⟩

/-- One job was started, and finds its precondition. -/
theorem starts_one {job : Job} (h : m.jobs w' = m.jobs w ++ [job])
    (hpre : k.Pre (m.jobs w).length job w') : k.Starts w w' := by
  refine ⟨[job], h, fun n job' hjob => ?_⟩
  obtain rfl | hn := Nat.eq_zero_or_pos n
  · cases hjob
    exact hpre
  · rw [getElem?_eq_none (hn)] at hjob
    cases hjob

variable (k)

/-- Every job keeps its contract. -/
structure Holds : Prop where
  /-- From its precondition, a task does what is allowed and ends with its postcondition. -/
  body : ∀ i job w, k.Inv w → k.Pre i job w → k.wp i (m.body job) (k.Post i job) w
  /-- The others do not break a postcondition. -/
  post_stable : ∀ i job r, k.Stable i (k.Post i job r)
  /-- A job that the environment starts finds its precondition. -/
  start : ∀ job w, m.external job = true → k.Inv w → k.Inv (m.start job w) ∧
    m.jobs (m.start job w) = m.jobs w ++ [job] ∧ k.Guar (m.jobs w).length w (m.start job w) ∧
    k.Pre (m.jobs w).length job (m.start job w)
  /-- A job that ends leaves its outcome. -/
  finish : ∀ i job r w, k.Inv w → (m.jobs w)[i]? = some job → k.Post i job r w →
    k.Inv (m.finish i r w) ∧ m.jobs (m.finish i r w) = m.jobs w ∧ k.Guar i w (m.finish i r w) ∧
    k.Post i job r (m.finish i r w)

/-- The invariant holds and every job can finish under its contract. -/
structure Kept (p : Pool C R ε α W) : Prop where
  inv : k.Inv p.world
  length : p.tasks.length = (m.jobs p.world).length
  task : ∀ i t job, p.tasks[i]? = some t → (m.jobs p.world)[i]? = some job →
    k.wp i t (k.Post i job) p.world

variable {k}

section

variable (h : k.Holds)
include h

/-- A job other than the one that acted still can finish under its contract. -/
theorem Kept.other (hp : k.Kept p) {i j : ℕ} (hj : j ≠ i) (hinv : k.Inv w')
    (hguar : k.Guar i p.world w') {t : Task C R ε α} {job : Job} (ht : p.tasks[j]? = some t)
    (hjob : (m.jobs p.world)[j]? = some job) : k.wp j t (k.Post j job) w' :=
  wp_stable (h.post_stable j job) _ _ ⟨hp.inv, hinv, i, hj.symm, hguar⟩ (hp.task j t job ht hjob)

/-- The start of a job keeps the contract. -/
theorem Kept.start (hp : k.Kept p) {job : Job} (hext : m.external job = true) :
    k.Kept ⟨m.start job p.world, p.tasks ++ [m.body job]⟩ := by
  obtain ⟨hinv, hjobs, hguar, hpre⟩ := h.start job p.world hext hp.inv
  refine ⟨hinv, by simp [hp.length, hjobs], fun j t job' ht hjob => ?_⟩
  simp only [hjobs] at hjob
  rcases Nat.lt_trichotomy j p.tasks.length with hlt | heq | hgt
  · rw [getElem?_append_left hlt] at ht
    rw [getElem?_append_left (hp.length ▸ hlt)] at hjob
    exact hp.other h (by rw [← hp.length]; exact Nat.ne_of_lt hlt) hinv hguar ht hjob
  · -- The new job itself.
    rw [heq, getElem?_append_right (Nat.le_refl _), Nat.sub_self] at ht
    rw [heq, hp.length, getElem?_append_right (Nat.le_refl _), Nat.sub_self] at hjob
    cases ht
    cases hjob
    rw [heq, hp.length]
    exact h.body _ _ _ hinv hpre
  · rw [getElem?_eq_none (by simp; omega)] at ht
    cases ht

/-- The end of a job keeps the contract. -/
theorem Kept.finish (hp : k.Kept p) {i : ℕ} {r : Except ε α} (hret : p.tasks[i]? = some (.ret r)) :
    k.Kept ⟨m.finish i r p.world, p.tasks⟩ := by
  obtain ⟨job, hjob⟩ : ∃ job, (m.jobs p.world)[i]? = some job := by
    have hlt : i < p.tasks.length := (List.getElem?_eq_some_iff.mp hret).1
    exact ⟨_, getElem?_eq_getElem (hp.length ▸ hlt)⟩
  obtain ⟨hinv, hjobs, hguar, hpost⟩ := h.finish i job r p.world hp.inv hjob (hp.task i _ job hret hjob)
  refine ⟨hinv, by rw [hp.length, hjobs], fun j t job' ht hjob' => ?_⟩
  simp only [hjobs] at hjob'
  by_cases hj : j = i
  · subst hj
    rw [hret] at ht
    rw [hjob] at hjob'
    cases ht
    cases hjob'
    exact hpost
  · exact hp.other h hj hinv hguar ht hjob'

/-- An answered call keeps the contract. -/
theorem Kept.step (hp : k.Kept p) {i : ℕ} {c : C} {next : Except ε (R c) → Task C R ε α}
    (hcall : p.tasks[i]? = some (.call c next)) {choice : O} {r : Except ε (R c)}
    (hexec : m.exec i p.world c choice = some (r, w')) :
    k.Kept ⟨w', p.tasks.set i (next r) ++ ((m.jobs w').drop p.tasks.length).map m.body⟩ := by
  have hlt : i < p.tasks.length := (List.getElem?_eq_some_iff.mp hcall).1
  obtain ⟨job, hjob⟩ : ∃ job, (m.jobs p.world)[i]? = some job :=
    ⟨_, getElem?_eq_getElem (hp.length ▸ hlt)⟩
  obtain ⟨⟨hinv, hguar, new, hnew, hpre⟩, hnext⟩ :=
    hp.task i _ job hcall hjob p.world .refl hp.inv choice r w' hexec
  have hdrop : (m.jobs w').drop p.tasks.length = new := by
    rw [hnew, hp.length, drop_left]
  refine ⟨hinv, by simp [hnew, hp.length], fun j t job' ht hjob' => ?_⟩
  simp only [hnew] at hjob'
  simp only [hdrop] at ht
  by_cases hj : j < p.tasks.length
  · rw [getElem?_append_left (by simpa using hj)] at ht
    rw [getElem?_append_left (hp.length ▸ hj)] at hjob'
    by_cases hji : j = i
    · subst hji
      rw [getElem?_set_self hj] at ht
      rw [hjob] at hjob'
      cases ht
      cases hjob'
      exact hnext
    · rw [getElem?_set_ne (Ne.symm hji)] at ht
      exact hp.other h hji hinv hguar ht hjob'
  · -- A job that the call started.
    have hle : p.tasks.length ≤ j := Nat.le_of_not_lt hj
    rw [getElem?_append_right (by simpa using hle), length_set, getElem?_map] at ht
    rw [getElem?_append_right (hp.length ▸ hle), ← hp.length] at hjob'
    rw [hjob'] at ht
    cases ht
    have hj' : (m.jobs p.world).length + (j - p.tasks.length) = j := by rw [← hp.length]; omega
    have := hpre _ _ hjob'
    rw [hj'] at this
    exact h.body _ _ _ hinv this

/-- Whatever happens next keeps the contract. -/
theorem Kept.next {p p' : Pool C R ε α W} (hp : k.Kept p) {l : PoolLabel Job O}
    (hl : m.next p l = some p') : k.Kept p' := by
  obtain ⟨job, hext, rfl⟩ | ⟨i, c, next, choice, r, w', hcall, hexec, rfl⟩ | ⟨i, r, hret, rfl⟩ :=
    Machine.next_cases hl
  · exact hp.start h hext
  · exact hp.step h hcall hexec
  · exact hp.finish h hret

/-- Every run keeps the contract. -/
theorem Holds.run {p p' : Pool C R ε α W} (hp : k.Kept p) (labels : List (PoolLabel Job O))
    (hrun : m.run p labels = some p') : k.Kept p' :=
  Machine.run_induct hrun k.Kept hp fun _ _ _ hl hq => hq.next h hl

end

/-- A pool without jobs keeps the contract if its world does. -/
theorem kept_empty {w : W} (hinv : k.Inv w) (hjobs : m.jobs w = []) : k.Kept ⟨w, []⟩ :=
  ⟨hinv, by simp [hjobs], fun i t job ht => by simp at ht⟩

end Contract

end ZimaControl
