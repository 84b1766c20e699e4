import Mathlib.Algebra.Order.Field.Power
import Mathlib.Algebra.Order.Floor.Semiring
import Mathlib.Data.Rat.Floor
import Mathlib.Data.Nat.Log
import Mathlib.Tactic.FieldSimp
import Mathlib.Tactic.Linarith
import Mathlib.Tactic.Positivity

/-!
# Numbers as the JavaScript runtime sees them

A number is a finite binary64 value, an infinity or `NaN`. A finite value is the rational it stands
for; nothing below tells the two zeros apart.

`JsNumber.round` rounds to the nearest binary64 value, ties to even. It keeps natural numbers below
`2 ^ 53` (`round_natCast`) and does not fall below one up to `2 ^ 53` that the rational reaches
(`natLe_round`).
-/

namespace ZimaControl

/-- A JavaScript number. -/
inductive JsNumber
  | nan
  | infinity (negative : Bool)
  | finite (value : ℚ)
  deriving DecidableEq

namespace JsNumber

/-! ## Rounding -/

/-- The nearest integer, ties to even. -/
def roundHalfEven (x : ℚ) : ℤ :=
  if x - ⌊x⌋ < 1 / 2 ∨ x - ⌊x⌋ = 1 / 2 ∧ ⌊x⌋ % 2 = 0 then ⌊x⌋ else ⌊x⌋ + 1

/-- The exponent of the largest power of two up to a positive rational. -/
def floorLog2 (x : ℚ) : ℤ :=
  let k : ℤ := (x.num.toNat.log2 : ℤ) - x.den.log2
  if (2 : ℚ) ^ k ≤ x then k else k - 1

/-- The exponent of the last place of binary64 values around a positive rational. -/
def ulpExponent (x : ℚ) : ℤ := max (floorLog2 x - 52) (-1074)

/-- The nearest binary64 value to a positive rational; it may be out of range. -/
def roundMagnitude (x : ℚ) : ℚ := roundHalfEven (x / 2 ^ ulpExponent x) * 2 ^ ulpExponent x

/-- `-x`. -/
def neg : JsNumber → JsNumber
  | nan => nan
  | infinity negative => infinity (!negative)
  | finite value => finite (-value)

/-- The number of a positive magnitude. -/
def ofMagnitude (x : ℚ) : JsNumber :=
  if roundMagnitude x < 2 ^ 1024 then finite (roundMagnitude x) else infinity false

/-- The number nearest to a rational. -/
def round (x : ℚ) : JsNumber :=
  if x = 0 then finite 0 else if 0 < x then ofMagnitude x else neg (ofMagnitude (-x))

/-! ## Operations -/

/-- `x + y`. -/
def add : JsNumber → JsNumber → JsNumber
  | nan, _ | _, nan => nan
  | infinity s, infinity t => if s = t then infinity s else nan
  | infinity s, finite _ | finite _, infinity s => infinity s
  | finite x, finite y => round (x + y)

/-- `x <= y`. -/
def le : JsNumber → JsNumber → Bool
  | nan, _ | _, nan => false
  | infinity s, infinity t => s || !t
  | infinity s, finite _ => s
  | finite _, infinity t => !t
  | finite x, finite y => decide (x ≤ y)

/-- `x < n` for an integer `n`. -/
def ltInt (x : JsNumber) (n : ℤ) : Bool :=
  match x with
  | nan => false
  | infinity negative => negative
  | finite value => decide (value < n)

/-- `Number.isInteger(x)`. -/
def isInteger : JsNumber → Bool
  | finite value => decide (value.den = 1)
  | _ => false

/-- The number nearest to a natural number. -/
def ofNat (n : ℕ) : JsNumber := round n

/-- The natural number that a number is; what is none counts as zero. -/
def toNat : JsNumber → ℕ
  | finite value => value.num.toNat
  | _ => 0

/-- The number is at least `n`. -/
def NatLe (n : ℕ) : JsNumber → Prop
  | nan => False
  | infinity negative => negative = false
  | finite value => n ≤ value

/-! ## Facts about rounding -/

/-- A rounded rational is its floor or the integer above. -/
theorem floor_le_roundHalfEven (x : ℚ) : ⌊x⌋ ≤ roundHalfEven x := by
  unfold roundHalfEven
  split_ifs <;> omega

/-- An integer is its own rounding. -/
theorem roundHalfEven_intCast (n : ℤ) : roundHalfEven n = n := by
  unfold roundHalfEven
  rw [Int.floor_intCast, if_pos]
  left
  norm_num

variable {x : ℚ}

/-- The exponent found by `floorLog2` is the right one. -/
theorem floorLog2_spec (hx : 0 < x) : (2 : ℚ) ^ floorLog2 x ≤ x ∧ x < 2 ^ (floorLog2 x + 1) := by
  have hnum : 0 < x.num.toNat := by
    have := Rat.num_pos.mpr hx
    omega
  have hden : 0 < x.den := x.den_pos
  -- The fraction lies between the quotients of the powers of two around its two parts.
  have hvalue : x = (x.num.toNat : ℚ) / x.den := by
    have hcast : ((x.num.toNat : ℤ) : ℚ) = x.num := by
      rw [Int.toNat_of_nonneg (Rat.num_pos.mpr hx).le]
    rw [← Int.cast_natCast, hcast]
    exact (Rat.num_div_den x).symm
  have hn1 : ((2 : ℚ) ^ (x.num.toNat.log2 : ℤ)) ≤ x.num.toNat := by
    rw [zpow_natCast]
    exact_mod_cast Nat.log2_self_le hnum.ne'
  have hn2 : (x.num.toNat : ℚ) < 2 ^ ((x.num.toNat.log2 : ℤ) + 1) := by
    have : x.num.toNat < 2 ^ (x.num.toNat.log2 + 1) := Nat.lt_log2_self
    rw [← Nat.cast_succ, zpow_natCast]
    exact_mod_cast this
  have hd1 : ((2 : ℚ) ^ (x.den.log2 : ℤ)) ≤ x.den := by
    rw [zpow_natCast]
    exact_mod_cast Nat.log2_self_le hden.ne'
  have hd2 : (x.den : ℚ) < 2 ^ ((x.den.log2 : ℤ) + 1) := by
    have : x.den < 2 ^ (x.den.log2 + 1) := Nat.lt_log2_self
    rw [← Nat.cast_succ, zpow_natCast]
    exact_mod_cast this
  have hdpos : (0 : ℚ) < x.den := by exact_mod_cast hden
  set k : ℤ := (x.num.toNat.log2 : ℤ) - x.den.log2 with hk
  have hupper : x < 2 ^ (k + 1) := by
    rw [hvalue, div_lt_iff₀ hdpos]
    calc (x.num.toNat : ℚ) < 2 ^ ((x.num.toNat.log2 : ℤ) + 1) := hn2
      _ = 2 ^ (k + 1) * 2 ^ (x.den.log2 : ℤ) := by
        rw [← zpow_add₀ (by norm_num)]
        congr 1
        omega
      _ ≤ 2 ^ (k + 1) * x.den := by gcongr
  have hlower : (2 : ℚ) ^ (k - 1) ≤ x := by
    rw [hvalue, le_div_iff₀ hdpos]
    calc (2 : ℚ) ^ (k - 1) * x.den ≤ 2 ^ (k - 1) * 2 ^ ((x.den.log2 : ℤ) + 1) := by gcongr
      _ = 2 ^ (x.num.toNat.log2 : ℤ) := by
        rw [← zpow_add₀ (by norm_num)]
        congr 1
        omega
      _ ≤ x.num.toNat := hn1
  unfold floorLog2
  rw [← hk]
  dsimp only
  split_ifs with h
  · exact ⟨h, hupper⟩
  · refine ⟨hlower, ?_⟩
    rw [sub_add_cancel]
    exact lt_of_not_ge h

/-- Below `2 ^ 53` the last place is at most a unit. -/
theorem ulpExponent_nonpos (hx : 0 < x) (h : x < 2 ^ 53) : ulpExponent x ≤ 0 := by
  have hlog : floorLog2 x < 53 := by
    have := (floorLog2_spec hx).1.trans_lt h
    rw [← zpow_natCast] at this
    exact_mod_cast (zpow_lt_zpow_iff_right₀ (by norm_num)).mp this
  unfold ulpExponent
  omega

/-- From `2 ^ 53` on the last place is a unit or more. -/
theorem ulpExponent_pos (h : 2 ^ 53 ≤ x) : 1 ≤ ulpExponent x := by
  have hx : (0 : ℚ) < x := lt_of_lt_of_le (by norm_num) h
  have hlog : 53 < floorLog2 x + 1 := by
    have := h.trans_lt (floorLog2_spec hx).2
    rw [← zpow_natCast] at this
    exact_mod_cast (zpow_lt_zpow_iff_right₀ (by norm_num)).mp this
  unfold ulpExponent
  omega

variable {n : ℕ}

/-- Rounding does not fall below a natural number up to `2 ^ 53`. -/
theorem natCast_le_roundMagnitude (hn : n ≤ 2 ^ 53) (hx : 0 < x) (h : n ≤ x) :
    (n : ℚ) ≤ roundMagnitude x := by
  set e := ulpExponent x with he
  have hpow : (0 : ℚ) < 2 ^ e := by positivity
  have hfloor : ((⌊x / 2 ^ e⌋ : ℤ) : ℚ) * 2 ^ e ≤ roundMagnitude x := by
    unfold roundMagnitude
    rw [← he]
    have : ((⌊x / 2 ^ e⌋ : ℤ) : ℚ) ≤ roundHalfEven (x / 2 ^ e) := by
      exact_mod_cast floor_le_roundHalfEven _
    gcongr
  by_cases hsmall : x < 2 ^ 53
  · -- The natural number is a multiple of the last place.
    have hle : e ≤ 0 := ulpExponent_nonpos hx hsmall
    obtain ⟨j, hj⟩ : ∃ j : ℕ, e = -(j : ℤ) := ⟨(-e).toNat, by omega⟩
    have hmul : (n : ℚ) / 2 ^ e = ((n * 2 ^ j : ℕ) : ℤ) := by
      rw [hj, zpow_neg, zpow_natCast, div_inv_eq_mul]
      push_cast
      ring
    have hreach : ((n * 2 ^ j : ℕ) : ℤ) ≤ ⌊x / 2 ^ e⌋ := by
      rw [Int.le_floor, ← hmul]
      gcongr
    refine le_trans ?_ hfloor
    calc (n : ℚ) = (n : ℚ) / 2 ^ e * 2 ^ e := by field_simp
      _ = (((n * 2 ^ j : ℕ) : ℤ) : ℚ) * 2 ^ e := by rw [hmul]
      _ ≤ (⌊x / 2 ^ e⌋ : ℤ) * 2 ^ e := by
        gcongr
  · -- The significand has at least `2 ^ 52`, and the last place is at least two.
    have hbig : (2 : ℚ) ^ 53 ≤ x := le_of_not_gt hsmall
    have hpos : 1 ≤ e := ulpExponent_pos hbig
    have hexp : floorLog2 x = e + 52 := by
      have : e = max (floorLog2 x - 52) (-1074) := he
      omega
    have hsig : (2 : ℚ) ^ (52 : ℤ) ≤ x / 2 ^ e := by
      rw [le_div_iff₀ hpow, ← zpow_add₀ (by norm_num), add_comm, ← hexp]
      exact (floorLog2_spec hx).1
    have hreach : (2 ^ 52 : ℤ) ≤ ⌊x / 2 ^ e⌋ := by
      rw [Int.le_floor]
      refine le_trans (le_of_eq ?_) hsig
      norm_num
    have htwo : (2 : ℚ) ≤ 2 ^ e := by
      calc (2 : ℚ) = 2 ^ (1 : ℤ) := by norm_num
        _ ≤ 2 ^ e := zpow_le_zpow_right₀ (by norm_num) hpos
    refine le_trans ?_ hfloor
    calc (n : ℚ) ≤ 2 ^ 53 := by exact_mod_cast hn
      _ = (2 ^ 52 : ℤ) * 2 := by norm_num
      _ ≤ (⌊x / 2 ^ e⌋ : ℤ) * 2 ^ e := by
        have : (((2 : ℤ) ^ 52 : ℤ) : ℚ) ≤ ((⌊x / 2 ^ e⌋ : ℤ) : ℚ) := by exact_mod_cast hreach
        have h0 : (0 : ℚ) ≤ ((⌊x / 2 ^ e⌋ : ℤ) : ℚ) := le_trans (by norm_num) this
        exact mul_le_mul this htwo (by norm_num) h0

/-- A rational that reaches a natural number up to `2 ^ 53` still does when rounded. -/
theorem natLe_round (hn : n ≤ 2 ^ 53) (hx : 0 < x) (h : n ≤ x) : NatLe n (round x) := by
  have hmag := natCast_le_roundMagnitude hn hx h
  unfold round ofMagnitude
  rw [if_neg hx.ne', if_pos hx]
  split_ifs
  · exact hmag
  · rfl

/-- The rounding of a rational that is not negative is not negative. -/
theorem round_nonneg {x q : ℚ} (hx : 0 ≤ x) (h : round x = finite q) : 0 ≤ q := by
  obtain rfl | hpos := hx.eq_or_lt
  · simp only [round, if_true, finite.injEq] at h
    exact h.le
  have hmag := natCast_le_roundMagnitude (n := 0) (by norm_num) hpos (by exact_mod_cast hx)
  unfold round ofMagnitude at h
  rw [if_neg hpos.ne', if_pos hpos] at h
  split_ifs at h
  cases h
  exact_mod_cast hmag

/-- Natural numbers below `2 ^ 53` are kept. -/
theorem round_natCast (hn : n < 2 ^ 53) : round n = finite n := by
  obtain rfl | hpos := Nat.eq_zero_or_pos n
  · simp [round]
  have hx : (0 : ℚ) < n := by exact_mod_cast hpos
  have hle : ulpExponent n ≤ 0 := ulpExponent_nonpos hx (by exact_mod_cast hn)
  obtain ⟨j, hj⟩ : ∃ j : ℕ, ulpExponent n = -(j : ℤ) := ⟨(-ulpExponent n).toNat, by omega⟩
  have hmul : (n : ℚ) / 2 ^ ulpExponent n = ((n * 2 ^ j : ℕ) : ℤ) := by
    rw [hj, zpow_neg, zpow_natCast, div_inv_eq_mul]
    push_cast
    ring
  have hmag : roundMagnitude n = n := by
    unfold roundMagnitude
    rw [hmul, roundHalfEven_intCast, ← hmul]
    field_simp
  have hlt : (n : ℚ) < 2 ^ 1024 := by
    calc (n : ℚ) < 2 ^ 53 := by exact_mod_cast hn
      _ ≤ 2 ^ 1024 := by gcongr <;> norm_num
  unfold round ofMagnitude
  rw [if_neg hx.ne', if_pos hx, hmag, if_pos hlt]

/-- Natural numbers below `2 ^ 53` are themselves. -/
theorem ofNat_of_lt (hn : n < 2 ^ 53) : ofNat n = finite n := round_natCast hn

variable {m n : ℕ}

/-- A rounded number reaches each natural number below it up to `2 ^ 53`. -/
theorem natLe_ofNat (hm : m ≤ 2 ^ 53) (hmn : m ≤ n) : NatLe m (ofNat n) := by
  obtain rfl | hpos := Nat.eq_zero_or_pos n
  · obtain rfl := Nat.le_zero.mp hmn
    simp [ofNat, round, NatLe]
  · exact natLe_round hm (by exact_mod_cast hpos) (by exact_mod_cast hmn)

/-- Sums of natural numbers are exact below `2 ^ 53`. -/
theorem add_finite_natCast (h : m + n < 2 ^ 53) :
    add (finite m) (finite n) = finite ((m + n : ℕ) : ℚ) := by
  rw [add, ← Nat.cast_add, round_natCast h]

/-- A sum with something that reaches a number up to `2 ^ 53` reaches it. -/
theorem natLe_add (hn : 0 < n) (hle : n ≤ 2 ^ 53) {x : JsNumber} (h : NatLe n x) :
    NatLe n (add (finite m) x) := by
  cases x with
  | nan => exact h
  | infinity negative => exact h
  | finite value =>
    have hn' : (0 : ℚ) < n := by exact_mod_cast hn
    have hvalue : (n : ℚ) ≤ value := h
    exact natLe_round hle (by linarith) (by linarith)

/-- `<=` on natural numbers. -/
@[simp] theorem le_finite_natCast : le (finite m) (finite n) = decide (m ≤ n) := by
  simp [le]

/-- A number that reaches more than `n` is not at most `n`. -/
theorem le_eq_false_of_natLe {x : JsNumber} (h : NatLe (n + 1) x) : le x (finite n) = false := by
  cases x with
  | nan => rfl
  | infinity negative => exact h
  | finite value =>
    have hvalue : ((n + 1 : ℕ) : ℚ) ≤ value := h
    push_cast at hvalue
    simp only [le, decide_eq_false_iff_not, not_le]
    linarith

/-- A natural number is read back from its number. -/
@[simp] theorem toNat_finite_natCast (n : ℕ) : toNat (finite n) = n := by
  simp [toNat]

/-- What reaches `n` counts at least `n`, unless it is infinite. -/
theorem le_toNat_of_natLe {value : ℚ} (h : NatLe n (finite value)) : n ≤ toNat (finite value) := by
  have hvalue : (n : ℚ) ≤ value := h
  have hnonneg : (0 : ℚ) ≤ value := le_trans (Nat.cast_nonneg n) hvalue
  -- The numerator is the value times the denominator, which is at least one.
  have hden : (1 : ℚ) ≤ value.den := by exact_mod_cast value.den_pos
  have hnum : value ≤ (value.num : ℚ) := by
    calc value ≤ value * value.den := le_mul_of_one_le_right hnonneg hden
      _ = value.num := Rat.mul_den_eq_num value
  have : (n : ℤ) ≤ value.num := by exact_mod_cast hvalue.trans hnum
  simp only [toNat]
  omega

end JsNumber

end ZimaControl
