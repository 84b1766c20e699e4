import Mathlib.Data.List.Basic
import Mathlib.Data.List.DropRight
import Mathlib.Tactic.Common

/-!
# Strings as the JavaScript runtime sees them

A JavaScript string is a sequence of 16-bit code units: its `length` counts them, and a surrogate
half may stand alone. Strings whose length or content an adversary controls are `JsString`s, not
Lean's `String`s of scalar values. `js` writes a literal.
-/

namespace ZimaControl

open List

/-- One UTF-16 code unit. -/
abbrev CodeUnit := UInt16

/-- A JavaScript string: its code units in order. -/
abbrev JsString := List CodeUnit

instance instLawfulBEqJsString : LawfulBEq JsString := inferInstance

/-- The code units of a scalar value: one below `0x10000`, else a surrogate pair. -/
def codeUnits (c : Char) : List CodeUnit :=
  let n := c.toNat
  if n < 0x10000 then [UInt16.ofNat n]
  else [UInt16.ofNat (0xD800 + (n - 0x10000) / 0x400), UInt16.ofNat (0xDC00 + (n - 0x10000) % 0x400)]

/-- A string literal as code units. -/
def js (s : String) : JsString := s.toList.flatMap codeUnits

/-- The code unit of a character of the basic plane. -/
def unit (c : Char) : CodeUnit := UInt16.ofNat c.toNat

/-- `String(n)` for a natural number: its decimal digits. -/
def decimal (n : ℕ) : JsString := (Nat.toDigits 10 n).map unit

/-- White space and line terminators, as `trim` skips them. -/
def isWhiteSpace (u : CodeUnit) : Bool :=
  let n := u.toNat
  (9 ≤ n && n ≤ 13) || n = 0x20 || n = 0xA0 || n = 0x1680 || (0x2000 ≤ n && n ≤ 0x200A)
    || n = 0x2028 || n = 0x2029 || n = 0x202F || n = 0x205F || n = 0x3000 || n = 0xFEFF

/-- `s.trim()`. -/
def trim (s : JsString) : JsString :=
  (s.dropWhile isWhiteSpace).rdropWhile isWhiteSpace

/-- The lower case of an ASCII letter. -/
def asciiLower (u : CodeUnit) : CodeUnit := if unit 'A' ≤ u && u ≤ unit 'Z' then u + 32 else u

/-- The scalar value of a decimal digit is at most that of `9`. -/
theorem toNat_le_of_isDigit {c : Char} (hc : c.isDigit) : c.toNat ≤ 57 := by
  simp only [Char.isDigit, Bool.and_eq_true, decide_eq_true_eq] at hc
  exact UInt32.le_iff_toNat_le.mp hc.2

/-- A digit is determined by its code unit. -/
theorem unit_injective_of_isDigit {c d : Char} (hc : c.isDigit) (hd : d.isDigit)
    (h : unit c = unit d) : c = d := by
  have hc' := toNat_le_of_isDigit hc
  have hd' := toNat_le_of_isDigit hd
  have hnat : c.toNat = d.toNat := by
    have := congrArg UInt16.toNat h
    simp only [unit, UInt16.toNat_ofNat'] at this
    omega
  exact Char.toNat_inj.mp hnat

/-- The decimal digits of a number determine it. -/
theorem decimal_injective : Function.Injective decimal := by
  intro m n h
  have hdig : ∀ k, ∀ c ∈ Nat.toDigits 10 k, c.isDigit := fun k c hc =>
    Nat.isDigit_of_mem_toDigits (by decide) (by decide) hc
  have hlist : Nat.toDigits 10 m = Nat.toDigits 10 n := by
    have hm := hdig m
    have hn := hdig n
    unfold decimal at h
    generalize Nat.toDigits 10 m = xs at h hm
    generalize Nat.toDigits 10 n = ys at h hn
    induction xs generalizing ys with
    | nil => simpa using h.symm
    | cons x xs ih =>
      obtain _ | ⟨y, ys⟩ := ys
      · simp at h
      · simp only [map_cons, cons.injEq] at h
        rw [unit_injective_of_isDigit (hm x (by simp)) (hn y (by simp)) h.1,
          ih (fun c hc => hm c (mem_cons_of_mem _ hc)) ys h.2
            (fun c hc => hn c (mem_cons_of_mem _ hc))]
  rw [← Nat.ofDigitChars_ten_toDigits (n := m), hlist, Nat.ofDigitChars_ten_toDigits]

/-- The scalar value of a decimal digit is at least that of `0`. -/
theorem le_toNat_of_isDigit {c : Char} (hc : c.isDigit) : 48 ≤ c.toNat := by
  simp only [Char.isDigit, Bool.and_eq_true, decide_eq_true_eq] at hc
  exact UInt32.le_iff_toNat_le.mp hc.1

/-- The decimal digits of a number are code units from `0` to `9`. -/
theorem toNat_of_mem_decimal {n : ℕ} {u : CodeUnit} (h : u ∈ decimal n) :
    48 ≤ u.toNat ∧ u.toNat ≤ 57 := by
  obtain ⟨c, hc, rfl⟩ := mem_map.mp h
  have hdigit := Nat.isDigit_of_mem_toDigits (by decide) (by decide) hc
  have hle := toNat_le_of_isDigit hdigit
  have hge := le_toNat_of_isDigit hdigit
  simp only [unit, UInt16.toNat_ofNat']
  omega

/-- No decimal digit is a colon. -/
theorem colon_notMem_decimal (n : ℕ) : unit ':' ∉ decimal n := fun h =>
  absurd (toNat_of_mem_decimal h) (by decide)

/-- No decimal digit is a slash. -/
theorem slash_notMem_decimal (n : ℕ) : unit '/' ∉ decimal n := fun h =>
  absurd (toNat_of_mem_decimal h) (by decide)

/-- Two equal sequences, each cut at the first `x`, agree on both sides. -/
theorem append_cons_inj_of_notMem {α : Type} {x : α} {l₁ l₂ r₁ r₂ : List α} (h₁ : x ∉ l₁)
    (h₂ : x ∉ l₂) (h : l₁ ++ x :: r₁ = l₂ ++ x :: r₂) : l₁ = l₂ ∧ r₁ = r₂ := by
  induction l₁ generalizing l₂ with
  | nil =>
    obtain _ | ⟨y, l₂⟩ := l₂
    · simpa using h
    · simp only [nil_append, cons_append, cons.injEq] at h
      exact absurd (by simp [h.1]) h₂
  | cons a l₁ ih =>
    obtain _ | ⟨y, l₂⟩ := l₂
    · simp only [nil_append, cons_append, cons.injEq] at h
      exact absurd (by simp [h.1]) h₁
    · simp only [cons_append, cons.injEq] at h
      obtain ⟨rfl, hr⟩ := ih (fun hm => h₁ (by simp [hm])) (fun hm => h₂ (by simp [hm])) h.2
      exact ⟨by rw [h.1], hr⟩

/-- A concatenation behind the length of its first part: `` `${a.length}:${a}${b}` ``. -/
def lengthPrefixed (a b : JsString) : JsString := decimal a.length ++ unit ':' :: (a ++ b)

/-- A length-prefixed concatenation determines both of its parts. -/
theorem lengthPrefixed_inj {a b a' b' : JsString} :
    lengthPrefixed a b = lengthPrefixed a' b' ↔ a = a' ∧ b = b' := by
  constructor
  · intro h
    obtain ⟨hlen, hrest⟩ := append_cons_inj_of_notMem (colon_notMem_decimal _)
      (colon_notMem_decimal _) h
    exact append_inj hrest (decimal_injective hlen)
  · rintro ⟨rfl, rfl⟩
    rfl

end ZimaControl
