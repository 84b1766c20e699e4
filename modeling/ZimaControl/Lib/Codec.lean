import Mathlib.Tactic.Common
import ZimaControl.Lib.Outcome

/-!
# Codecs

A binary message is written piece by piece behind what was written before, and read piece by piece
from the front of what is left. A `Codec` is a piece with both directions, either of which may
refuse. It is `Lawful` when reading and writing are inverse, as long as the message stays below a
limit on its size: then the bytes of a value are the only ones that are read as the value. The law
also says which values a piece accepts and how long they get. Lawful pieces in sequence are lawful.
-/

namespace ZimaControl

/-- A piece of a message: how a value is written behind `written`, and how it is read from the front
of `input`. -/
structure Codec (β ε α : Type) where
  write : List β → α → Except ε (List β)
  read : List β → Except ε (α × List β)

namespace Codec

variable {β ε α γ : Type} {limit : ℕ}

/-- Reading gives back what was written, and writing gives back what was read; the values of `valid`
are written, each in at most `bound` units, and no others. -/
structure Lawful (limit : ℕ) (c : Codec β ε α) (valid : α → Prop) (bound : ℕ) : Prop where
  read_write : ∀ {written a r}, c.write written a = .ok r →
    ∃ bytes, r = written ++ bytes ∧ ∀ rest, c.read (bytes ++ rest) = .ok (a, rest)
  write_read : ∀ {input a rest}, c.read input = .ok (a, rest) →
    ∃ bytes, input = bytes ++ rest ∧
      ∀ written, written.length + bytes.length ≤ limit → c.write written a = .ok (written ++ bytes)
  write_valid : ∀ {a}, valid a → ∀ written : List β, written.length + bound ≤ limit →
    ∃ r, c.write written a = .ok r ∧ r.length ≤ written.length + bound
  valid_of_write : ∀ {written a r}, c.write written a = .ok r → valid a

/-- Two pieces in sequence. -/
def pair (c : Codec β ε α) (d : Codec β ε γ) : Codec β ε (α × γ) where
  write written x := do
    let written ← c.write written x.1
    d.write written x.2
  read input := do
    let (a, input) ← c.read input
    let (b, input) ← d.read input
    return ((a, b), input)

/-- Reading two pieces and going on is reading one after the other and going on. -/
theorem pair_read_bind {δ : Type} (c : Codec β ε α) (d : Codec β ε γ) (input : List β)
    (f : (α × γ) × List β → Except ε δ) :
    ((c.pair d).read input >>= f) =
      (c.read input >>= fun x => d.read x.2 >>= fun y => f ((x.1, y.1), y.2)) := by
  simp only [Codec.pair, bind_assoc]
  refine bind_congr fun x => ?_
  simp [pure_bind]

theorem Lawful.pair {c : Codec β ε α} {d : Codec β ε γ} {valid : α → Prop} {valid' : γ → Prop}
    {bound bound' : ℕ} (hc : c.Lawful limit valid bound) (hd : d.Lawful limit valid' bound') :
    (c.pair d).Lawful limit (fun x => valid x.1 ∧ valid' x.2) (bound + bound') where
  read_write := by
    intro written x r h
    obtain ⟨w, hw, hr⟩ := except_bind_eq_ok.mp h
    obtain ⟨first, rfl, hfirst⟩ := hc.read_write hw
    obtain ⟨second, rfl, hsecond⟩ := hd.read_write hr
    refine ⟨first ++ second, by rw [List.append_assoc], fun rest => ?_⟩
    rw [List.append_assoc]
    simp only [Codec.pair, hfirst, hsecond, bind, Except.bind]
    rfl
  -- the bytes of the input leave room for both parts
  write_read := by
    intro input x rest h
    obtain ⟨⟨a, input'⟩, ha, h⟩ := except_bind_eq_ok.mp h
    obtain ⟨⟨b, input''⟩, hb, h⟩ := except_bind_eq_ok.mp h
    obtain ⟨hx, hrest⟩ := Prod.mk.inj (Except.ok.inj h)
    obtain ⟨first, hfirst, hwriteFirst⟩ := hc.write_read ha
    obtain ⟨second, hsecond, hwriteSecond⟩ := hd.write_read hb
    have hinput : input = (first ++ second) ++ rest := by
      rw [hfirst, hsecond, hrest, List.append_assoc]
    refine ⟨first ++ second, hinput, fun written hle => ?_⟩
    rw [List.length_append] at hle
    have hw := hwriteFirst written (by omega)
    have hw' := hwriteSecond (written ++ first) (by rw [List.length_append]; omega)
    subst hx
    simp [Codec.pair, hw, bind, Except.bind, hw']
  write_valid := by
    rintro x ⟨hx, hx'⟩ written hle
    obtain ⟨w, hw, hwle⟩ := hc.write_valid hx written (by omega)
    obtain ⟨r, hr, hrle⟩ := hd.write_valid hx' w (by omega)
    exact ⟨r, except_bind_eq_ok.mpr ⟨w, hw, hr⟩, by omega⟩
  valid_of_write := by
    intro written x r h
    obtain ⟨w, hw, hr⟩ := except_bind_eq_ok.mp h
    exact ⟨hc.valid_of_write hw, hd.valid_of_write hr⟩

end Codec

end ZimaControl
