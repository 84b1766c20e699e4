import ZimaControl.Lib.Task

/-!
# One task alone

A task run from its start to its end. `Task.eval` takes the environment's choices from a list, and
`Task.Ensures` is the weakest precondition over all of them (`Task.Ensures.eval`). `Task.Runs`
relates the world before a task to the outcomes and worlds it can end with.

A task may also be cut off between two calls. `Task.Reaches` relates a world to those that a task
passes through, and `Task.Always` is the weakest precondition for an invariant of them. `Task.Only`
bounds the calls of a task; what each of them preserves, the task preserves (`Only.always`).
-/

namespace ZimaControl

/-- The answer to a call and the world after it, if the environment's choice fits the call. -/
abbrev Handler (C : Type) (R : C → Type) (ε W O : Type) :=
  W → (c : C) → O → Option (Except ε (R c) × W)

namespace Task

variable {C : Type} {R : C → Type} {ε α β W O : Type} (handle : Handler C R ε W O)

/-- The outcome of a task, the world it leaves and the choices not used; `none` when one is missing
or does not fit. -/
def eval : Task C R ε α → W → List O → Option (Except ε α × W × List O)
  | ret r, w, choices => some (r, w, choices)
  | call _ _, _, [] => none
  | call c next, w, choice :: choices =>
    (handle w c choice).bind fun (r, w') => (next r).eval w' choices

/-- Whatever the environment chooses, the task ends with `Q` if it ends. -/
def Ensures (Q : Except ε α → W → Prop) : Task C R ε α → W → Prop
  | ret r, w => Q r w
  | call c next, w => ∀ choice r w', handle w c choice = some (r, w') → (next r).Ensures Q w'

variable {handle} {w : W}

variable {t : Task C R ε α} {r : Except ε α} {choices rest : List O} {w' : W}

/-- What a task ensures holds at the end of each of its evaluations. -/
theorem Ensures.eval {Q : Except ε α → W → Prop} (h : t.Ensures handle Q w)
    (heval : t.eval handle w choices = some (r, w', rest)) : Q r w' := by
  induction t generalizing w choices with
  | ret r₀ =>
    cases heval
    exact h
  | call c next ih =>
    cases choices with
    | nil => cases heval
    | cons choice choices =>
      obtain ⟨⟨r₁, w₁⟩, hexec, hnext⟩ := Option.bind_eq_some_iff.mp heval
      exact ih r₁ (h choice r₁ w₁ hexec) hnext

/-- A weaker postcondition. -/
theorem Ensures.mono {Q S : Except ε α → W → Prop} (h : t.Ensures handle S w)
    (hQ : ∀ r w, S r w → Q r w) : t.Ensures handle Q w := by
  induction t generalizing w with
  | ret r => exact hQ r w h
  | call c next ih => exact fun choice r w' hexec => ih r (h choice r w' hexec)

/-- Two postconditions. -/
theorem Ensures.and {Q S : Except ε α → W → Prop} (hQ : t.Ensures handle Q w)
    (hS : t.Ensures handle S w) : t.Ensures handle (fun r w => Q r w ∧ S r w) w := by
  induction t generalizing w with
  | ret r => exact ⟨hQ, hS⟩
  | call c next ih =>
    exact fun choice r w' hexec => ih r (hQ choice r w' hexec) (hS choice r w' hexec)

variable {f : α → Task C R ε β} {Q : Except ε β → W → Prop} {S : Except ε α → W → Prop}

/-- Sequencing: the second task starts where the first returned. -/
theorem Ensures.bind (h : t.Ensures handle S w)
    (hok : ∀ a w', S (.ok a) w' → (f a).Ensures handle Q w')
    (herror : ∀ e w', S (.error e) w' → Q (.error e) w') : (t >>= f).Ensures handle Q w := by
  induction t generalizing w with
  | ret r =>
    cases r with
    | ok a => exact hok a w h
    | error e => exact herror e w h
  | call c next ih => exact fun choice r w' hexec => ih r (h choice r w' hexec)

/-- Sequencing behind a task that only returns. -/
theorem Ensures.bindOk {S : α → W → Prop}
    (h : t.Ensures handle (fun r w' => ∃ a, r = .ok a ∧ S a w') w)
    (hok : ∀ a w', S a w' → (f a).Ensures handle Q w') : (t >>= f).Ensures handle Q w := by
  refine h.bind ?_ ?_
  · rintro a w' ⟨a', ha, hS⟩
    cases ha
    exact hok a w' hS
  · rintro e w' ⟨a, ha, -⟩
    cases ha

/-- A `try`, followed by what is done with either outcome. -/
theorem Ensures.bindAttempt {f : Except ε α → Task C R ε β} (h : t.Ensures handle S w)
    (hf : ∀ r w', S r w' → (f r).Ensures handle Q w') : (t.attempt >>= f).Ensures handle Q w := by
  induction t generalizing w with
  | ret r => exact hf r w h
  | call c next ih => exact fun choice r w' hexec => ih r (h choice r w' hexec)

variable {handler : ε → Task C R ε α}

/-- A `try` with its `catch`. -/
theorem Ensures.tryCatch {Q S : Except ε α → W → Prop} (h : t.Ensures handle S w)
    (hok : ∀ a w', S (.ok a) w' → Q (.ok a) w')
    (herror : ∀ e w', S (.error e) w' → (handler e).Ensures handle Q w') :
    (MonadExcept.tryCatch t handler).Ensures handle Q w := by
  refine Ensures.bindAttempt h fun r w' hr => ?_
  cases r with
  | ok a => exact hok a w' hr
  | error e => exact herror e w' hr

variable {c : C}

/-- A call. -/
theorem Ensures.perform {Q : Except ε (R c) → W → Prop}
    (h : ∀ choice r w', handle w c choice = some (r, w') → Q r w') :
    (Task.perform c).Ensures handle Q w := h

/-- Sequencing behind a call that returns. -/
theorem Ensures.bindCall {f : R c → Task C R ε β}
    (h : ∀ choice r w', handle w c choice = some (r, w') →
      ∃ a, r = .ok a ∧ (f a).Ensures handle Q w') : (Task.perform c >>= f).Ensures handle Q w := by
  intro choice r w' hexec
  obtain ⟨a, rfl, hf⟩ := h choice r w' hexec
  exact hf

/-- A call in a `try`, followed by what is done with either outcome. -/
theorem Ensures.attemptCall {f : Except ε (R c) → Task C R ε β}
    (h : ∀ choice r w', handle w c choice = some (r, w') → (f r).Ensures handle Q w') :
    ((Task.perform c).attempt >>= f).Ensures handle Q w := h

/-- Sequencing behind a call that only reads. -/
theorem Ensures.bindRead {f : R c → Task C R ε β}
    (hread : ∀ choice r w', handle w c choice = some (r, w') → w' = w ∧ ∃ a, r = .ok a)
    (h : ∀ a, (f a).Ensures handle Q w) : (Task.perform c >>= f).Ensures handle Q w := by
  intro choice r w' hexec
  obtain ⟨rfl, a, rfl⟩ := hread choice r w' hexec
  exact h a

/-! ## What a task can do -/

section Runs

variable (handle)

/-- A task that starts in the first world can end so in the second. -/
def Runs : Task C R ε α → W → Except ε α → W → Prop
  | ret r, w, r', w' => r' = r ∧ w' = w
  | call c next, w, r', w' => ∃ choice r w₁, handle w c choice = some (r, w₁) ∧
      (next r).Runs w₁ r' w'

variable {handle} {w' : W}

/-- A task can do what it does for some choices of the environment. -/
theorem runs_iff_eval :
    t.Runs handle w r w' ↔ ∃ choices, t.eval handle w choices = some (r, w', []) := by
  induction t generalizing w with
  | ret r₀ =>
    constructor
    · intro h
      obtain ⟨hr, hw⟩ := h
      exact ⟨[], by rw [eval, hr, hw]⟩
    · intro h
      obtain ⟨choices, heval⟩ := h
      cases heval
      exact ⟨rfl, rfl⟩
  | call c next ih =>
    constructor
    · intro h
      obtain ⟨choice, r₁, w₁, hexec, hnext⟩ := h
      obtain ⟨choices, heval⟩ := (ih r₁).mp hnext
      exact ⟨choice :: choices, by rw [eval, hexec]; exact heval⟩
    · intro h
      obtain ⟨choices, heval⟩ := h
      cases choices with
      | nil => cases heval
      | cons choice choices =>
        obtain ⟨⟨r₁, w₁⟩, hexec, hnext⟩ := Option.bind_eq_some_iff.mp heval
        exact ⟨choice, r₁, w₁, hexec, (ih r₁).mpr ⟨choices, hnext⟩⟩

/-- What is ensured holds of whatever a task can do. -/
theorem Ensures.runs {Q : Except ε α → W → Prop} (h : t.Ensures handle Q w)
    (hruns : t.Runs handle w r w') : Q r w' := by
  obtain ⟨choices, heval⟩ := runs_iff_eval.mp hruns
  exact h.eval heval

/-- Returning. -/
@[simp]
theorem runs_pure {a : α} :
    (Pure.pure a : Task C R ε α).Runs handle w r w' ↔ r = .ok a ∧ w' = w := Iff.rfl

/-- Throwing. -/
@[simp]
theorem runs_throw {e : ε} :
    (MonadExcept.throw e : Task C R ε α).Runs handle w r w' ↔ r = .error e ∧ w' = w := Iff.rfl

/-- A call. -/
theorem runs_perform {r : Except ε (R c)} :
    (Task.perform c).Runs handle w r w' ↔ ∃ choice, handle w c choice = some (r, w') := by
  constructor
  · intro h
    obtain ⟨choice, r₁, w₁, hexec, hr, hw⟩ := h
    exact ⟨choice, by rw [hexec, hr, hw]⟩
  · intro h
    obtain ⟨choice, hexec⟩ := h
    exact ⟨choice, r, w', hexec, rfl, rfl⟩

/-- Sequencing: the second task starts where the first returned. -/
theorem runs_bind {r : Except ε β} : (t >>= f).Runs handle w r w' ↔
      (∃ a w₁, t.Runs handle w (.ok a) w₁ ∧ (f a).Runs handle w₁ r w') ∨
        ∃ e, t.Runs handle w (.error e) w' ∧ r = .error e := by
  change (t.bind f).Runs handle w r w' ↔ _
  induction t generalizing w with
  | ret r₀ =>
    cases r₀ with
    | ok a => simp [Task.bind, Runs]
    | error e => simp [Task.bind, Runs, and_comm]
  | call c next ih =>
    simp only [Task.bind, Runs, ih]
    constructor
    · rintro ⟨choice, r₁, w₁, hexec, ⟨a, w₂, ht, hf⟩ | ⟨e, ht, hr⟩⟩
      · exact .inl ⟨a, w₂, ⟨choice, r₁, w₁, hexec, ht⟩, hf⟩
      · exact .inr ⟨e, ⟨choice, r₁, w₁, hexec, ht⟩, hr⟩
    · rintro (⟨a, w₂, ⟨choice, r₁, w₁, hexec, ht⟩, hf⟩ | ⟨e, ⟨choice, r₁, w₁, hexec, ht⟩, hr⟩)
      · exact ⟨choice, r₁, w₁, hexec, .inl ⟨a, w₂, ht, hf⟩⟩
      · exact ⟨choice, r₁, w₁, hexec, .inr ⟨e, ht, hr⟩⟩

/-- Sequencing, where the whole returns. -/
theorem runs_bind_ok {b : β} : (t >>= f).Runs handle w (.ok b) w' ↔
      ∃ a w₁, t.Runs handle w (.ok a) w₁ ∧ (f a).Runs handle w₁ (.ok b) w' := by
  simp [runs_bind]

end Runs

/-! ## Tasks that are cut off -/

variable (handle)

/-- The worlds that a task passes through: its first, and the one behind each answered call. -/
inductive Reaches : Task C R ε α → W → W → Prop
  | start (t : Task C R ε α) (w : W) : Reaches t w w
  | step {c : C} {next : Except ε (R c) → Task C R ε α} {w w₁ w₂ : W} {choice : O}
      {r : Except ε (R c)} (hexec : handle w c choice = some (r, w₁))
      (hnext : Reaches (next r) w₁ w₂) : Reaches (call c next) w w₂

variable {handle} in
/-- A task reaches the world in which it ends. -/
theorem reaches_of_eval {w w' : W} (heval : t.eval handle w choices = some (r, w', rest)) :
    t.Reaches handle w w' := by
  induction t generalizing w choices with
  | ret r₀ =>
    cases heval
    exact .start _ _
  | call c next ih =>
    cases choices with
    | nil => cases heval
    | cons choice choices =>
      obtain ⟨⟨r₁, w₁⟩, hexec, hnext⟩ := Option.bind_eq_some_iff.mp heval
      exact .step hexec (ih r₁ hnext)

section Reaches

variable {handle} {w w₁ w₂ : W}

/-- What the first task of a sequence passes through. -/
theorem Reaches.bind_left (h : t.Reaches handle w w₂) : (t >>= f).Reaches handle w w₂ := by
  induction h with
  | start t w => exact .start _ w
  | step hexec _ ih => exact .step hexec ih

/-- What the second task of a sequence passes through. -/
theorem Reaches.bind_right {a : α} (ht : t.Runs handle w (.ok a) w₁)
    (h : (f a).Reaches handle w₁ w₂) : (t >>= f).Reaches handle w w₂ := by
  induction t generalizing w with
  | ret r =>
    obtain ⟨hr, hw⟩ := ht
    rw [← hr, ← hw]
    exact h
  | call c next ih =>
    obtain ⟨choice, r, w', hexec, hnext⟩ := ht
    exact .step hexec (ih r hnext)

/-- What a `try` passes through. -/
theorem Reaches.attempt (h : t.Reaches handle w w₂) : t.attempt.Reaches handle w w₂ := by
  induction h with
  | start t w => exact .start _ w
  | step hexec _ ih => exact .step hexec ih

end Reaches

/-- Whatever is chosen, `I` holds behind each call, and `Q` at the end. -/
def Always (I : W → Prop) (Q : Except ε α → W → Prop) : Task C R ε α → W → Prop
  | ret r, w => Q r w
  | call c next, w => ∀ choice r w', handle w c choice = some (r, w') →
      I w' ∧ (next r).Always I Q w'

variable {handle} {I : W → Prop}

/-- An invariant holds of every world that a task passes through. -/
theorem Always.reaches {Q : Except ε α → W → Prop} (h : t.Always handle I Q w) (hw : I w)
    (hreaches : t.Reaches handle w w') : I w' := by
  induction hreaches with
  | start t w => exact hw
  | step hexec hnext ih =>
    obtain ⟨hI, hrest⟩ := h _ _ _ hexec
    exact ih hrest hI

/-- A weaker invariant and a weaker postcondition. -/
theorem Always.mono {J : W → Prop} {Q S : Except ε α → W → Prop} (h : t.Always handle J S w)
    (hI : ∀ w, J w → I w) (hQ : ∀ r w, S r w → Q r w) : t.Always handle I Q w := by
  induction t generalizing w with
  | ret r => exact hQ r w h
  | call c next ih =>
    intro choice r w' hexec
    obtain ⟨hJ, hrest⟩ := h choice r w' hexec
    exact ⟨hI w' hJ, ih r hrest⟩

/-- Sequencing. -/
theorem Always.bind (h : t.Always handle I S w)
    (hok : ∀ a w', S (.ok a) w' → (f a).Always handle I Q w')
    (herror : ∀ e w', S (.error e) w' → Q (.error e) w') : (t >>= f).Always handle I Q w := by
  induction t generalizing w with
  | ret r =>
    cases r with
    | ok a => exact hok a w h
    | error e => exact herror e w h
  | call c next ih =>
    intro choice r w' hexec
    obtain ⟨hI, hrest⟩ := h choice r w' hexec
    exact ⟨hI, ih r hrest⟩

/-- A `try`, followed by what is done with either outcome. -/
theorem Always.bindAttempt {f : Except ε α → Task C R ε β} (h : t.Always handle I S w)
    (hf : ∀ r w', S r w' → (f r).Always handle I Q w') : (t.attempt >>= f).Always handle I Q w := by
  induction t generalizing w with
  | ret r => exact hf r w h
  | call c next ih =>
    intro choice r w' hexec
    obtain ⟨hI, hrest⟩ := h choice r w' hexec
    exact ⟨hI, ih r hrest⟩

/-- A call. -/
theorem Always.perform {Q : Except ε (R c) → W → Prop}
    (h : ∀ choice r w', handle w c choice = some (r, w') → I w' ∧ Q r w') :
    (Task.perform c).Always handle I Q w := h

/-- What a task always keeps, it ensures. -/
theorem Always.ensures {Q : Except ε α → W → Prop} (h : t.Always handle I Q w) :
    t.Ensures handle Q w := by
  induction t generalizing w with
  | ret r => exact h
  | call c next ih => exact fun choice r w' hexec => ih r (h choice r w' hexec).2

/-! ## The calls of a task -/

/-- Whatever a task is answered, it makes only calls with `P`. -/
def Only (P : C → Prop) : Task C R ε α → Prop
  | ret _ => True
  | call c next => P c ∧ ∀ r, (next r).Only P

variable {P P' : C → Prop}

/-- A task that has ended makes no call. -/
theorem Only.ret : (Task.ret r : Task C R ε α).Only P := trivial

/-- Returning makes no call. -/
theorem Only.pure {a : α} : (Pure.pure a : Task C R ε α).Only P := trivial

/-- Throwing makes no call. -/
theorem Only.throw {e : ε} : (MonadExcept.throw e : Task C R ε α).Only P := trivial

/-- One call. -/
theorem Only.perform (h : P c) : (Task.perform c : Task C R ε (R c)).Only P :=
  ⟨h, fun _ => trivial⟩

/-- The calls of a sequence. -/
theorem Only.bind (h : t.Only P) (hf : ∀ a, (f a).Only P) : (t >>= f).Only P := by
  induction t with
  | ret r =>
    cases r with
    | ok a => exact hf a
    | error e => trivial
  | call c next ih => exact ⟨h.1, fun r => ih r (h.2 r)⟩

/-- The calls of what goes on with a result. -/
theorem Only.bindRet (hf : ∀ a, r = .ok a → (f a).Only P) : (Task.ret r >>= f).Only P := by
  cases r with
  | ok a => exact hf a rfl
  | error e => trivial

/-- The calls of a `try`. -/
theorem Only.attempt (h : t.Only P) : t.attempt.Only P := by
  induction t with
  | ret r => trivial
  | call c next ih => exact ⟨h.1, fun r => ih r (h.2 r)⟩

/-- The calls of a `try` with its `catch`. -/
theorem Only.tryCatch (h : t.Only P) (hh : ∀ e, (handler e).Only P) :
    (MonadExcept.tryCatch t handler).Only P := by
  refine Only.bind h.attempt ?_
  rintro (e | a)
  · exact hh e
  · trivial

/-- The calls of both branches. -/
theorem Only.ite {p : Prop} [Decidable p] {t s : Task C R ε α} (ht : t.Only P) (hs : s.Only P) :
    (if p then t else s).Only P := by
  split_ifs
  · exact ht
  · exact hs

/-- More calls. -/
theorem Only.mono (h : t.Only P) (hP : ∀ c, P c → P' c) : t.Only P' := by
  induction t with
  | ret r => trivial
  | call c next ih => exact ⟨hP c h.1, fun r => ih r (h.2 r)⟩

/-- What each call preserves, the task preserves. -/
theorem Only.always (h : t.Only P) (hw : I w)
    (hstep : ∀ w c choice r w', P c → handle w c choice = some (r, w') → I w → I w') :
    t.Always handle I (fun _ => I) w := by
  induction t generalizing w with
  | ret r => exact hw
  | call c next ih =>
    intro choice r w' hexec
    have hI := hstep w c choice r w' h.1 hexec hw
    exact ⟨hI, ih r (h.2 r) hI⟩

/-- What each call preserves holds at the end of the task. -/
theorem Only.ensures (h : t.Only P) (hw : I w)
    (hstep : ∀ w c choice r w', P c → handle w c choice = some (r, w') → I w → I w') :
    t.Ensures handle (fun _ => I) w :=
  (h.always hw hstep).ensures

/-! ## The values of a task -/

/-- Whatever a task is answered, each value it returns has `Q`. -/
def Returns (Q : α → Prop) : Task C R ε α → Prop
  | ret (.ok a) => Q a
  | ret (.error _) => True
  | call _ next => ∀ r, (next r).Returns Q

/-- Anything may be returned. -/
theorem Returns.trivial (t : Task C R ε α) : t.Returns fun _ => True := by
  induction t with
  | ret r => cases r <;> exact True.intro
  | call c next ih => exact ih

/-- A weaker property. -/
theorem Returns.mono {Q S : α → Prop} (h : t.Returns S) (hQ : ∀ a, S a → Q a) : t.Returns Q := by
  induction t with
  | ret r =>
    cases r with
    | ok a => exact hQ a h
    | error e => exact True.intro
  | call c next ih => exact fun r => ih r (h r)

variable {Q : α → Prop}

/-- Returning. -/
theorem Returns.pure {a : α} (h : Q a) : (Pure.pure a : Task C R ε α).Returns Q := h

/-- The values of a sequence. -/
theorem Returns.bind {Q : β → Prop} {S : α → Prop} (h : t.Returns S)
    (hf : ∀ a, S a → (f a).Returns Q) : (t >>= f).Returns Q := by
  induction t with
  | ret r =>
    cases r with
    | ok a => exact hf a h
    | error e => exact True.intro
  | call c next ih => exact fun r => ih r (h r)

/-- The values of what goes on with a result. -/
theorem Returns.bindRet {Q : β → Prop} (hf : ∀ a, r = .ok a → (f a).Returns Q) :
    (Task.ret r >>= f).Returns Q := by
  cases r with
  | ok a => exact hf a rfl
  | error e => exact True.intro

/-- The values of a `try` whose `catch` only throws. -/
theorem Returns.tryCatch (h : t.Returns Q) (hh : ∀ e, (handler e).Returns Q) :
    (MonadExcept.tryCatch t handler).Returns Q := by
  have hattempt : t.attempt.Returns fun r => ∀ a, r = .ok a → Q a := by
    induction t with
    | ret r =>
      cases r with
      | ok a =>
        intro a' heq
        cases heq
        exact h
      | error e => exact fun a heq => by cases heq
    | call c next ih => exact fun r => ih r (h r)
  refine hattempt.bind ?_
  intro r hr
  cases r with
  | ok a => exact hr a rfl
  | error e => exact hh e

/-- Each value that a task can end with has `Q`. -/
theorem Returns.runs (h : t.Returns Q) {a : α} (hruns : t.Runs handle w (.ok a) w') : Q a := by
  induction t generalizing w with
  | ret r =>
    obtain ⟨rfl, -⟩ := hruns
    exact h
  | call c next ih =>
    obtain ⟨choice, r, w₁, -, hnext⟩ := hruns
    exact ih r (h r) hnext

end Task

end ZimaControl
