import Mathlib.Algebra.Order.Group.Int
import Mathlib.Order.Monotone.Basic
import Mathlib.Tactic.NormNum

/-!
# The Gregorian calendar

Days are counted from the first of January 1970, and months as `12 y + m` with `m` from `0` to `11`.
`monthStart` gives the first day of a month and `monthOfDay` the month of a day, computed as
ECMAScript does, through the year of the day and a table of the days before each month. The two form
a Galois connection (`le_monthOfDay_iff`), which is all that the users of the calendar need.
-/

namespace ZimaControl

/-! ## Years -/

/-- A leap year. -/
def isLeapYear (y : ℤ) : Bool := y % 4 = 0 && (y % 100 ≠ 0 || y % 400 = 0)

/-- The first day of a year. -/
def dayFromYear (y : ℤ) : ℤ :=
  365 * (y - 1970) + (y - 1969) / 4 - (y - 1901) / 100 + (y - 1601) / 400

/-- The number of leap days of a year. -/
def leapDays (y : ℤ) : ℤ := if isLeapYear y then 1 else 0

/-- A year has one leap day or none. -/
theorem leapDays_bounds (y : ℤ) : 0 ≤ leapDays y ∧ leapDays y ≤ 1 := by
  unfold leapDays
  split_ifs <;> decide

/-- A year has 365 days and its leap days. -/
theorem dayFromYear_succ (y : ℤ) : dayFromYear (y + 1) = dayFromYear y + 365 + leapDays y := by
  unfold dayFromYear leapDays
  split_ifs with hleap
  · simp only [isLeapYear, Bool.and_eq_true, Bool.or_eq_true, decide_eq_true_eq] at hleap
    omega
  · simp only [isLeapYear, Bool.and_eq_true, Bool.or_eq_true, decide_eq_true_eq] at hleap
    omega

/-- The first days of years deviate from the mean by less than two days. -/
theorem dayFromYear_bounds (y : ℤ) :
    146097 * (y - 1970) - 506 ≤ 400 * dayFromYear y ∧
      400 * dayFromYear y ≤ 146097 * (y - 1970) + 589 := by
  unfold dayFromYear
  omega

/-- The year of a day: the mean length of a year gives it up to one. -/
def yearFromDay (d : ℤ) : ℤ :=
  let estimate := 400 * d / 146097 + 1970
  if d < dayFromYear estimate then estimate - 1
  else if dayFromYear (estimate + 1) ≤ d then estimate + 1
  else estimate

/-- A day lies in its year. -/
theorem yearFromDay_spec (d : ℤ) :
    dayFromYear (yearFromDay d) ≤ d ∧ d < dayFromYear (yearFromDay d + 1) := by
  unfold yearFromDay
  dsimp only
  generalize hestimate : 400 * d / 146097 + 1970 = y
  have hbefore := dayFromYear_bounds (y - 1)
  have hafter := dayFromYear_bounds (y + 1 + 1)
  split_ifs with hlt hge
  · refine ⟨by omega, ?_⟩
    rw [sub_add_cancel]
    exact hlt
  · exact ⟨hge, by omega⟩
  · exact ⟨by omega, by omega⟩

/-! ## Months -/

/-- The days of a year before a month. From March on the months have 31 and 30 days in turn, with
two long ones in a row after every five, which the quotient counts. -/
def daysBeforeMonth (leap m : ℤ) : ℤ :=
  if m < 2 then 31 * m else 59 + leap + (153 * (m - 2) + 2) / 5

/-- The month of a day within a year. -/
def monthFromDay (leap d : ℤ) : ℤ :=
  if d < 59 + leap then d / 31 else (5 * (d - 59 - leap) + 2) / 153 + 2

example : (List.range 12).map (fun m : ℕ => daysBeforeMonth 1 m) =
    [0, 31, 60, 91, 121, 152, 182, 213, 244, 274, 305, 335] := by
  decide

/-- The first day of a month. -/
def monthStart (M : ℤ) : ℤ := dayFromYear (M / 12) + daysBeforeMonth (leapDays (M / 12)) (M % 12)

/-- The month of a day. -/
def monthOfDay (d : ℤ) : ℤ :=
  12 * yearFromDay d + monthFromDay (leapDays (yearFromDay d)) (d - dayFromYear (yearFromDay d))

/-- The first day of the month `m` of the year `y`. -/
theorem monthStart_eq {y m : ℤ} (hm : 0 ≤ m ∧ m < 12) :
    monthStart (12 * y + m) = dayFromYear y + daysBeforeMonth (leapDays y) m := by
  have hdiv : (12 * y + m) / 12 = y := by omega
  have hmod : (12 * y + m) % 12 = m := by omega
  rw [monthStart, hdiv, hmod]

/-- The day of a year lies in its month. -/
theorem monthFromDay_spec {leap d : ℤ} (hleap : 0 ≤ leap ∧ leap ≤ 1) (hd : 0 ≤ d ∧ d < 365 + leap) :
    (0 ≤ monthFromDay leap d ∧ monthFromDay leap d < 12) ∧
      daysBeforeMonth leap (monthFromDay leap d) ≤ d ∧
      (monthFromDay leap d < 11 → d < daysBeforeMonth leap (monthFromDay leap d + 1)) := by
  unfold monthFromDay
  split_ifs with hfebruary
  · have hcases : d / 31 = 0 ∨ d / 31 = 1 := by omega
    rcases hcases with hm | hm <;> rw [hm] <;> norm_num [daysBeforeMonth] <;> omega
  generalize hq : (5 * (d - 59 - leap) + 2) / 153 = q
  have hlater : ¬ q + 2 < 2 := by omega
  have hnext : ¬ q + 2 + 1 < 2 := by omega
  simp only [daysBeforeMonth, if_neg hlater, if_neg hnext]
  omega

/-- Every month is followed by the next after at least 28 days. -/
theorem monthStart_add_le (M : ℤ) : monthStart M + 28 ≤ monthStart (M + 1) := by
  obtain ⟨y, m, hm, rfl⟩ : ∃ y m : ℤ, (0 ≤ m ∧ m < 12) ∧ M = 12 * y + m :=
    ⟨M / 12, M % 12, by omega, by omega⟩
  have hleap := leapDays_bounds y
  rw [monthStart_eq hm]
  by_cases hdecember : m = 11
  · -- December is followed by the January of the next year.
    have hnext : 12 * y + m + 1 = 12 * (y + 1) + 0 := by omega
    rw [hnext, monthStart_eq (by decide), dayFromYear_succ, hdecember]
    norm_num [daysBeforeMonth]
    omega
  · rw [add_assoc (12 * y), monthStart_eq (by omega)]
    unfold daysBeforeMonth
    split_ifs <;> omega

/-- Later months start later. -/
theorem monthStart_lt_iff (M N : ℤ) : monthStart M < monthStart N ↔ M < N := by
  have hmono : StrictMono monthStart := strictMono_int_of_lt_succ fun M => by
    have := monthStart_add_le M
    omega
  exact hmono.lt_iff_lt

/-- A day lies in its month. -/
theorem monthOfDay_spec (d : ℤ) :
    monthStart (monthOfDay d) ≤ d ∧ d < monthStart (monthOfDay d + 1) := by
  obtain ⟨hyear, hnext⟩ := yearFromDay_spec d
  rw [dayFromYear_succ] at hnext
  unfold monthOfDay
  generalize yearFromDay d = y at *
  have hleap := leapDays_bounds y
  obtain ⟨hm, hstart, hend⟩ := monthFromDay_spec hleap
    (by omega : 0 ≤ d - dayFromYear y ∧ d - dayFromYear y < 365 + leapDays y)
  generalize monthFromDay (leapDays y) (d - dayFromYear y) = m at *
  rw [monthStart_eq hm]
  refine ⟨by omega, ?_⟩
  by_cases hdecember : m = 11
  · have hjanuary : 12 * y + m + 1 = 12 * (y + 1) + 0 := by omega
    rw [hjanuary, monthStart_eq (by decide), dayFromYear_succ]
    norm_num [daysBeforeMonth]
    omega
  · rw [add_assoc (12 * y), monthStart_eq (by omega)]
    omega

/-- The month of a day is the last that has started. -/
theorem le_monthOfDay_iff (M d : ℤ) : M ≤ monthOfDay d ↔ monthStart M ≤ d := by
  obtain ⟨hstart, hnext⟩ := monthOfDay_spec d
  constructor
  · intro hle
    have hstarts := monthStart_lt_iff (monthOfDay d) M
    omega
  · intro hle
    have hstarts := monthStart_lt_iff M (monthOfDay d + 1)
    omega

/-- A day belongs to the month in which it lies. -/
theorem monthOfDay_eq_iff (M d : ℤ) :
    monthOfDay d = M ↔ monthStart M ≤ d ∧ d < monthStart (M + 1) := by
  rw [← le_monthOfDay_iff, ← not_le (a := monthStart (M + 1)), ← le_monthOfDay_iff]
  omega

end ZimaControl
