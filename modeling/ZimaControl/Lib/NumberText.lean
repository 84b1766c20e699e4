import ZimaControl.Lib.JsNumber
import ZimaControl.Lib.JsString

/-!
# Reading numbers from text

`Number(text)` reads the whole text as a decimal literal with fraction and exponent, or as a binary,
octal or hexadecimal literal. `parseInt(text, 10)` reads the decimal digits in front. The two agree
on plain digits (`parseInt10_of_digits`, `stringToNumber_of_digits`).
-/

namespace ZimaControl

open List JsNumber

/-! ## Digits -/

/-- The value of a code unit as a digit, in either case of the letters. -/
def digitValue (u : CodeUnit) : Option ℕ :=
  let n := u.toNat
  if 48 ≤ n && n ≤ 57 then some (n - 48)
  else if 65 ≤ n && n ≤ 90 then some (n - 55)
  else if 97 ≤ n && n ≤ 122 then some (n - 87)
  else none

/-- A digit of a radix. -/
def isDigitOf (radix : ℕ) (u : CodeUnit) : Bool := (digitValue u).any (· < radix)

/-- A code unit of `\d`. -/
def isDigit (u : CodeUnit) : Bool := isDigitOf 10 u

/-- The number that digits write in a radix. -/
def digitsValue (radix : ℕ) (digits : JsString) : ℕ :=
  digits.foldl (fun n u => n * radix + (digitValue u).getD 0) 0

/-- `/^\d+$/`. -/
def isDigits (s : JsString) : Bool := !s.isEmpty && s.all isDigit

/-! ## `Number` -/

/-- A sign and the text behind it; the sign is `true` for a minus. -/
def splitSign : JsString → Bool × JsString
  | [] => (false, [])
  | u :: rest =>
    if u = unit '+' then (false, rest) else if u = unit '-' then (true, rest) else (false, u :: rest)

/-- The exponent part of a decimal literal; an absent one is zero. -/
def exponentValue : JsString → Option ℤ
  | [] => some 0
  | u :: rest =>
    if u = unit 'e' ∨ u = unit 'E' then
      let (negative, digits) := splitSign rest
      if isDigits digits then
        some (if negative then -(digitsValue 10 digits : ℤ) else digitsValue 10 digits)
      else none
    else none

/-- The fraction part of a decimal literal, and the text behind it. -/
def splitFraction : JsString → JsString × JsString
  | [] => ([], [])
  | u :: rest => if u = unit '.' then rest.span isDigit else ([], u :: rest)

/-- The value of an unsigned decimal literal. -/
def decimalValue (s : JsString) : Option ℚ :=
  let (whole, rest) := s.span isDigit
  let (fraction, rest) := splitFraction rest
  if whole ++ fraction = [] then none
  else (exponentValue rest).map fun e =>
    digitsValue 10 (whole ++ fraction) * (10 : ℚ) ^ (e - (fraction.length : ℤ))

/-- An unsigned decimal literal or `Infinity`. -/
def unsignedNumber (s : JsString) : JsNumber :=
  if s = js "Infinity" then .infinity false
  else match decimalValue s with
    | some value => .round value
    | none => .nan

/-- The radix of a literal that begins with `0b`, `0o` or `0x`. -/
def literalRadix (u : CodeUnit) : Option ℕ :=
  if u = unit 'b' ∨ u = unit 'B' then some 2
  else if u = unit 'o' ∨ u = unit 'O' then some 8
  else if u = unit 'x' ∨ u = unit 'X' then some 16
  else none

/-- The radix and digits of a binary, octal or hexadecimal literal. -/
def splitRadix : JsString → Option (ℕ × JsString)
  | zero :: u :: digits =>
    if zero = unit '0' then (literalRadix u).map fun radix => (radix, digits) else none
  | _ => none

/-- A decimal literal with a sign. -/
def signedNumber (s : JsString) : JsNumber :=
  let (negative, rest) := splitSign s
  if negative then (unsignedNumber rest).neg else unsignedNumber rest

/-- `Number(text)`. -/
def stringToNumber (text : JsString) : JsNumber :=
  let s := trim text
  if s = [] then .finite 0
  else match splitRadix s with
    | some (radix, digits) =>
      if !digits.isEmpty && digits.all (isDigitOf radix) then .ofNat (digitsValue radix digits)
      else .nan
    | none => signedNumber s

/-! ## `parseInt` -/

/-- `parseInt(text, 10)`. -/
def parseInt10 (text : JsString) : JsNumber :=
  let (negative, rest) := splitSign (text.dropWhile isWhiteSpace)
  let digits := rest.takeWhile isDigit
  if digits = [] then .nan
  else if negative then (ofNat (digitsValue 10 digits)).neg
  else .ofNat (digitsValue 10 digits)

example : stringToNumber (js "0x10") = .finite 16 ∧ parseInt10 (js "0x10") = .finite 0 := by
  decide +kernel

example : stringToNumber (js "4.99999999999999999999") = .finite 5 ∧
    parseInt10 (js "4.99999999999999999999") = .finite 4 := by
  decide +kernel

/-! ## Plain digits -/

/-- A digit means nothing else at the front of a number. -/
theorem isDigit_cases {u : CodeUnit} (h : isDigit u = true) : 48 ≤ u.toNat ∧ u.toNat ≤ 57 := by
  unfold isDigit isDigitOf digitValue at h
  dsimp only at h
  split_ifs at h with h1 h2 h3
  · simpa using h1
  all_goals simp at h h1
  all_goals simp at h2
  · omega
  · simp at h3
    omega

/-- A code unit outside the digits is different from a digit. -/
theorem ne_unit_of_isDigit {u : CodeUnit} (h : isDigit u = true) {c : Char}
    (hc : (unit c).toNat < 48 ∨ 57 < (unit c).toNat) : u ≠ unit c := by
  rintro rfl
  have := isDigit_cases h
  omega

/-- A digit is not white space. -/
theorem isWhiteSpace_of_isDigit {u : CodeUnit} (h : isDigit u = true) : isWhiteSpace u = false := by
  obtain ⟨h1, h2⟩ := isDigit_cases h
  simp only [isWhiteSpace, Bool.or_eq_false_iff, Bool.and_eq_false_iff, decide_eq_false_iff_not]
  omega

variable {s : JsString}

/-- Digits have no white space around them. -/
theorem trim_of_digits (h : s.all isDigit = true) : trim s = s := by
  have hall : ∀ u ∈ s, isWhiteSpace u = false := fun u hu =>
    isWhiteSpace_of_isDigit (all_eq_true.mp h u hu)
  have hdrop : s.dropWhile isWhiteSpace = s := by
    cases s with
    | nil => rfl
    | cons u s => rw [dropWhile_cons_of_neg (by simp [hall u])]
  unfold trim
  rw [hdrop]
  by_cases hs : s = []
  · subst hs
    rfl
  · rw [rdropWhile_eq_self_iff]
    intro _
    simp [hall _ (getLast_mem hs)]

/-- Digits have no sign. -/
theorem splitSign_of_digits (h : s.all isDigit = true) : splitSign s = (false, s) := by
  cases s with
  | nil => rfl
  | cons u s =>
    have hu := all_eq_true.mp h u mem_cons_self
    rw [splitSign, if_neg (ne_unit_of_isDigit hu (by decide)),
      if_neg (ne_unit_of_isDigit hu (by decide))]

/-- Digits do not begin as a binary, octal or hexadecimal literal. -/
theorem splitRadix_of_digits (h : s.all isDigit = true) : splitRadix s = none := by
  match s with
  | [] | [_] => rfl
  | zero :: u :: rest =>
    have hu := all_eq_true.mp h u (by simp)
    have hradix : literalRadix u = none := by
      rw [literalRadix, if_neg, if_neg, if_neg] <;>
        exact not_or_intro (ne_unit_of_isDigit hu (by decide)) (ne_unit_of_isDigit hu (by decide))
    simp [splitRadix, hradix]

section

variable (h : isDigits s = true)
include h

/-- Digits are one decimal literal, without a fraction or an exponent. -/
theorem decimalValue_of_digits : decimalValue s = some (digitsValue 10 s : ℚ) := by
  simp only [isDigits, Bool.and_eq_true, Bool.not_eq_true', isEmpty_eq_false_iff] at h
  obtain ⟨hne, hall⟩ := h
  have hspan : s.span isDigit = (s, []) := by
    rw [span_eq_takeWhile_dropWhile, takeWhile_eq_self_iff.mpr (all_eq_true.mp hall),
      dropWhile_eq_nil_iff.mpr (all_eq_true.mp hall)]
  unfold decimalValue
  rw [hspan]
  simp [splitFraction, exponentValue, hne]

/-- `Number` reads digits as the number they write. -/
theorem stringToNumber_of_digits : stringToNumber s = .ofNat (digitsValue 10 s) := by
  have h' := h
  simp only [isDigits, Bool.and_eq_true, Bool.not_eq_true', isEmpty_eq_false_iff] at h'
  obtain ⟨hne, hall⟩ := h'
  have hinfinity : s ≠ js "Infinity" := by
    rintro rfl
    exact absurd hall (by decide)
  simp [stringToNumber, trim_of_digits hall, hne, splitRadix_of_digits hall, signedNumber,
    splitSign_of_digits hall, unsignedNumber, hinfinity, decimalValue_of_digits h, ofNat]

/-- `parseInt` reads digits as the number they write. -/
theorem parseInt10_of_digits : parseInt10 s = .ofNat (digitsValue 10 s) := by
  simp only [isDigits, Bool.and_eq_true, Bool.not_eq_true', isEmpty_eq_false_iff] at h
  obtain ⟨hne, hall⟩ := h
  have hdrop : s.dropWhile isWhiteSpace = s := by
    cases s with
    | nil => rfl
    | cons u s =>
      rw [dropWhile_cons_of_neg]
      simp [isWhiteSpace_of_isDigit (all_eq_true.mp hall u mem_cons_self)]
  simp [parseInt10, hdrop, splitSign_of_digits hall,
    takeWhile_eq_self_iff.mpr (all_eq_true.mp hall), hne]

end

/-! ## Signs -/

/-- An unsigned literal is not negative. -/
theorem unsignedNumber_nonneg {q : ℚ} (h : unsignedNumber s = .finite q) : 0 ≤ q := by
  unfold unsignedNumber at h
  split_ifs at h with hinf
  cases hvalue : decimalValue s with
  | none => simp [hvalue] at h
  | some value =>
    rw [hvalue] at h
    refine round_nonneg ?_ h
    unfold decimalValue at hvalue
    dsimp only at hvalue
    split_ifs at hvalue
    obtain ⟨e, -, rfl⟩ := Option.map_eq_some_iff.mp hvalue
    positivity

/-- What `splitSign` calls negative begins with a minus. -/
theorem splitSign_negative (h : (splitSign s).1 = true) : ∃ rest, s = unit '-' :: rest := by
  cases s with
  | nil => cases h
  | cons u rest =>
    rw [splitSign] at h
    split_ifs at h with hplus hminus
    exact ⟨rest, by rw [hminus]⟩

/-- Behind a minus sign `Number` reads nothing positive. -/
theorem stringToNumber_of_minus {text rest : JsString} {q : ℚ} (htrim : trim text = unit '-' :: rest)
    (h : stringToNumber text = .finite q) : q ≤ 0 := by
  have hradix : splitRadix (unit '-' :: rest) = none := by
    cases rest with
    | nil => rfl
    | cons u rest => rw [splitRadix, if_neg (by decide)]
  have hsign : splitSign (unit '-' :: rest) = (true, rest) := by
    rw [splitSign, if_neg (by decide), if_pos rfl]
  simp only [stringToNumber, htrim, cons_ne_nil, if_false, hradix, signedNumber, hsign,
    if_true] at h
  cases hunsigned : unsignedNumber rest with
  | nan => simp [hunsigned, neg] at h
  | infinity negative => simp [hunsigned, neg] at h
  | finite value =>
    have hnonneg := unsignedNumber_nonneg hunsigned
    simp only [hunsigned, neg, finite.injEq] at h
    linarith

/-- Where `Number` reads a positive number, `parseInt` reads no minus sign. -/
theorem parseInt10_of_pos {text : JsString} {q : ℚ} (h : stringToNumber text = .finite q)
    (hq : 0 < q) : parseInt10 text = .nan ∨ ∃ n, parseInt10 text = .ofNat n := by
  cases hsign : (splitSign (text.dropWhile isWhiteSpace)).1 with
  | false =>
    simp only [parseInt10, hsign, Bool.false_eq_true, if_false]
    split_ifs
    · exact .inl rfl
    · exact .inr ⟨_, rfl⟩
  | true =>
    exfalso
    obtain ⟨rest, hrest⟩ := splitSign_negative hsign
    have hleading : trim text <+: unit '-' :: rest := by
      rw [← hrest]
      exact rdropWhile_prefix _ _
    cases htrim : trim text with
    | nil =>
      simp only [stringToNumber, htrim, if_true, finite.injEq] at h
      linarith
    | cons u rest' =>
      rw [htrim, cons_prefix_cons] at hleading
      rw [hleading.1] at htrim
      have := stringToNumber_of_minus htrim h
      linarith

end ZimaControl
