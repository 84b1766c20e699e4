import Mathlib.Order.Lattice.Nat
import Mathlib.Order.Max

/-!
# Computations with a bound on their rounds

A computation that may not end is a function of the rounds it is given, with no value when these do
not suffice. It settles with the value it gives with enough rounds.
-/

namespace ZimaControl

universe u v

variable {α : Type u} {β : Type v}

/-- The computation ends with the value, whatever further rounds it is given. -/
def Settles (f : ℕ → Option α) (value : α) : Prop := ∃ n, ∀ rounds, n ≤ rounds → f rounds = some value

/-- A computation settles with one value at most. -/
theorem Settles.unique {f : ℕ → Option α} {a b : α} (ha : Settles f a) (hb : Settles f b) :
    a = b := by
  obtain ⟨n, hn⟩ := ha
  obtain ⟨m, hm⟩ := hb
  have hboth := (hn (max n m) (le_max_left n m)).symm.trans (hm (max n m) (le_max_right n m))
  exact Option.some.inj hboth

/-- A computation that more rounds do not change settles with each value it gives. -/
theorem Settles.of_mono {f : ℕ → Option α} (hmono : ∀ {n m a}, n ≤ m → f n = some a → f m = some a)
    {n : ℕ} {a : α} (h : f n = some a) : Settles f a :=
  ⟨n, fun _ hle => hmono hle h⟩

/-- Two computations that settle have their values with the same rounds. -/
theorem Settles.both {f : ℕ → Option α} {g : ℕ → Option β} {a : α} {b : β} (hf : Settles f a)
    (hg : Settles g b) : ∃ n, ∀ rounds, n ≤ rounds → f rounds = some a ∧ g rounds = some b := by
  obtain ⟨n, hn⟩ := hf
  obtain ⟨m, hm⟩ := hg
  exact ⟨max n m, fun rounds hle =>
    ⟨hn rounds (le_of_max_le_left hle), hm rounds (le_of_max_le_right hle)⟩⟩

/-- Rounds that suffice for every element of a list. -/
theorem exists_rounds_forall (list : List α) (p : ℕ → α → Prop)
    (hmono : ∀ n m a, n ≤ m → p n a → p m a) (h : ∀ a ∈ list, ∃ n, p n a) :
    ∃ n, ∀ a ∈ list, p n a := by
  induction list with
  | nil => exact ⟨0, by simp⟩
  | cons a rest ih =>
    obtain ⟨n, hn⟩ := h a List.mem_cons_self
    obtain ⟨m, hm⟩ := ih fun b hb => h b (List.mem_cons_of_mem a hb)
    refine ⟨max n m, fun b hb => ?_⟩
    obtain rfl | hb := List.mem_cons.mp hb
    · exact hmono n _ b (le_max_left n m) hn
    · exact hmono m _ b (le_max_right n m) (hm b hb)

end ZimaControl
