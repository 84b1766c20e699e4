import Mathlib.Tactic.Common

/-!
# Histories

A history is the list of what happened, oldest first. `EachAfter P` says of every element what must
have happened before it; it has to be checked only for what is added at the end.
-/

namespace ZimaControl

variable {α : Type} {P : List α → α → Prop}

/-- Every element of the history has `P` of what came before it. -/
def EachAfter (P : List α → α → Prop) (history : List α) : Prop :=
  ∀ before a after, history = before ++ a :: after → P before a

theorem eachAfter_nil : EachAfter P [] := fun before a after h => by simp at h

/-- One more element. -/
theorem EachAfter.append {history : List α} {a : α} (h : EachAfter P history) (ha : P history a) :
    EachAfter P (history ++ [a]) := by
  intro before b after heq
  rcases List.eq_nil_or_concat after with rfl | ⟨after, c, rfl⟩
  · obtain ⟨hbefore, hb⟩ := List.append_inj' heq rfl
    rw [← hbefore, ← List.singleton_inj.mp hb]
    exact ha
  · rw [List.concat_eq_append, ← List.cons_append, ← List.append_assoc] at heq
    exact h before b after (List.append_inj' heq rfl).1

end ZimaControl
