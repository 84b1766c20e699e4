import Mathlib.Tactic.Common

/-!
# Code between two awaits

What a program does between two awaits runs without interruption, and a throw keeps the changes made
before it. `Atomic` is that code, and `Ensures t Q s` says that from the state `s` it ends with an
outcome and a state in `Q`. The rules below take a program apart at its constructors.
-/

namespace ZimaControl

/-- Code that runs without interruption on a state `σ` and may throw an `ε`. -/
abbrev Atomic (σ ε α : Type) := ExceptT ε (StateM σ) α

namespace Atomic

variable {σ ε α β : Type} {s : σ} {Q : Except ε α → σ → Prop}

/-- The outcome and the state in which the code ends when it starts in `s`. -/
def exec (t : Atomic σ ε α) (s : σ) : Except ε α × σ := t s

/-- `try { t } finally { cleanup }`, when the cleanup does not throw. -/
def andFinally (cleanup : σ → σ) (t : Atomic σ ε α) : Atomic σ ε α :=
  fun s => ((t.exec s).1, cleanup (t.exec s).2)

/-- `try { t } catch (error) { cleanup; throw error }`, when the cleanup does not throw. -/
def onError (cleanup : σ → σ) (t : Atomic σ ε α) : Atomic σ ε α :=
  MonadExcept.tryCatch t fun e => do
    modify cleanup
    throw e

/-- The code, started in `s`, ends with an outcome and a state in `Q`. -/
def Ensures (t : Atomic σ ε α) (Q : Except ε α → σ → Prop) (s : σ) : Prop :=
  Q (t.exec s).1 (t.exec s).2

/-- Throws in `E`, or returns a value in `A`. -/
def Ends (E : σ → Prop) (A : α → σ → Prop) : Except ε α → σ → Prop
  | .error _, s => E s
  | .ok a, s => A a s

variable {R : Except ε α → σ → Prop} {t : Atomic σ ε α}

theorem Ensures.mono (h : t.Ensures R s) (hQ : ∀ r s', R r s' → Q r s') : t.Ensures Q s :=
  hQ _ _ h

theorem Ensures.pure {a : α} (h : Q (.ok a) s) : (Pure.pure a : Atomic σ ε α).Ensures Q s := h

theorem Ensures.throw {e : ε} (h : Q (.error e) s) :
    (MonadExcept.throw e : Atomic σ ε α).Ensures Q s := h

/-- Sequencing: what the first part ensures has to lead to `Q`, at once when it throws. -/
theorem Ensures.bind {f : α → Atomic σ ε β} {Q : Except ε β → σ → Prop} (h : t.Ensures R s)
    (hok : ∀ a s', R (.ok a) s' → (f a).Ensures Q s')
    (herror : ∀ e s', R (.error e) s' → Q (.error e) s') : (t >>= f).Ensures Q s := by
  have hexec : (t >>= f).exec s = match t.exec s with
      | (.ok a, s') => (f a).exec s'
      | (.error e, s') => (.error e, s') := by
    change (ExceptT.bindCont f (t.exec s).1) (t.exec s).2 = _
    rcases t.exec s with ⟨_ | _, _⟩ <;> rfl
  unfold Ensures at h ⊢
  rw [hexec]
  generalize t.exec s = x at h
  rcases x with ⟨e | a, s'⟩
  · exact herror e s' h
  · exact hok a s' h

/-- Catching: the handler runs in the state in which the code threw. -/
theorem Ensures.tryCatch {handler : ε → Atomic σ ε α} (h : t.Ensures R s)
    (hok : ∀ a s', R (.ok a) s' → Q (.ok a) s')
    (herror : ∀ e s', R (.error e) s' → (handler e).Ensures Q s') :
    (MonadExcept.tryCatch t handler).Ensures Q s := by
  have hexec : (MonadExcept.tryCatch t handler).exec s = match t.exec s with
      | (.ok a, s') => (.ok a, s')
      | (.error e, s') => (handler e).exec s' := by
    change (ExceptT.tryCatch t handler : Atomic σ ε α) s = _
    unfold ExceptT.tryCatch ExceptT.mk
    change StateT.bind (σ := σ) (m := Id) (α := Except ε α) (β := Except ε α) t _ s = _
    change _ = match t s with | (.ok a, s') => _ | (.error e, s') => _
    unfold StateT.bind
    rcases t s with ⟨_ | _, _⟩ <;> rfl
  unfold Ensures at h ⊢
  rw [hexec]
  generalize t.exec s = x at h
  rcases x with ⟨e | a, s'⟩
  · exact herror e s' h
  · exact hok a s' h

theorem Ensures.andFinally {cleanup : σ → σ} (h : t.Ensures (fun r s' => Q r (cleanup s')) s) :
    (t.andFinally cleanup).Ensures Q s := h

theorem Ensures.onError {cleanup : σ → σ} (h : t.Ensures R s)
    (hok : ∀ a s', R (.ok a) s' → Q (.ok a) s')
    (herror : ∀ e s', R (.error e) s' → Q (.error e) (cleanup s')) :
    (t.onError cleanup).Ensures Q s :=
  h.tryCatch hok fun e s' hr => herror e s' hr

theorem Ensures.getBind {f : σ → Atomic σ ε α} (h : (f s).Ensures Q s) :
    (MonadState.get >>= f).Ensures Q s := h

theorem Ensures.modifies {f : σ → σ} {Q : Except ε Unit → σ → Prop} (h : Q (.ok ()) (f s)) :
    (modify f : Atomic σ ε Unit).Ensures Q s := h

theorem Ensures.modifyBind {f : σ → σ} {g : Unit → Atomic σ ε α} (h : (g ()).Ensures Q (f s)) :
    (modify f >>= g).Ensures Q s := h

/-- A guard that throws. -/
theorem Ensures.guarded {p : Prop} [Decidable p] {e : ε} {f : Unit → Atomic σ ε α}
    (herror : p → Q (.error e) s) (hok : ¬p → (f ()).Ensures Q s) :
    (if p then (MonadExcept.throw e : Atomic σ ε Unit) >>= f else f ()).Ensures Q s := by
  by_cases hp : p
  · rw [if_pos hp]
    exact herror hp
  · rw [if_neg hp]
    exact hok hp

/-- Checks that do not touch the state, in front of code that starts when they pass. -/
theorem Ensures.checkBind {x : Except ε β} {f : β → Atomic σ ε α}
    (hok : ∀ b, x = .ok b → (f b).Ensures Q s) (herror : ∀ e, Q (.error e) s) :
    (MonadExcept.ofExcept x >>= f).Ensures Q s := by
  cases x with
  | ok b => exact hok b rfl
  | error e => exact herror e

/-- Checks that do not touch the state. -/
theorem Ensures.liftExcept {x : Except ε α} (h : Q x s) :
    (MonadExcept.ofExcept x : Atomic σ ε α).Ensures Q s := by
  cases x with
  | ok a => exact h
  | error e => exact h

end Atomic

end ZimaControl
