import ZimaControl.Lib.Gregorian
import ZimaControl.Lib.JsString

/-!
# ECMAScript dates in UTC

A date is a number of milliseconds since the beginning of 1970, of at most `maxTime` on either side,
else an Invalid Date, here `none`. `Date.UTC` takes components outside their usual ranges (the day
`0` of a month is the last of the month before) and counts on from them.
-/

namespace ZimaControl

/-- The greatest time value of a date. -/
def maxTime : ℤ := 8640000000000000

/-- `TimeClip`: the time value of a date, unless it is out of range. -/
def timeClip (t : ℤ) : Option ℤ := if -maxTime ≤ t ∧ t ≤ maxTime then some t else none

/-! ## Components -/

/-- The day of an instant. -/
def dayOf (t : ℤ) : ℤ := t / 86400000

/-- `getUTCFullYear()`. -/
def getUTCFullYear (t : ℤ) : ℤ := yearFromDay (dayOf t)

/-- `getUTCMonth()`, from `0` to `11`. -/
def getUTCMonth (t : ℤ) : ℤ :=
  monthFromDay (leapDays (getUTCFullYear t)) (dayOf t - dayFromYear (getUTCFullYear t))

/-- The month of an instant, counted through the years. -/
def monthOf (t : ℤ) : ℤ := monthOfDay (dayOf t)

/-- `getUTCDate()`, from `1` to `31`. -/
def getUTCDate (t : ℤ) : ℤ := dayOf t - monthStart (monthOf t) + 1

/-- `getUTCDay()`, from `0` for Sunday to `6`. -/
def getUTCDay (t : ℤ) : ℤ := (dayOf t + 4) % 7

/-- `getUTCHours()`. -/
def getUTCHours (t : ℤ) : ℤ := t / 3600000 % 24

/-- `getUTCMinutes()`. -/
def getUTCMinutes (t : ℤ) : ℤ := t / 60000 % 60

/-- `new Date(Date.UTC(year, month, day, hours, minutes, seconds, ms))`; a year from `0` to `99` is
one of the twentieth century. -/
def dateUTC (year month day hours minutes seconds ms : ℤ) : Option ℤ :=
  let fullYear := if 0 ≤ year ∧ year ≤ 99 then 1900 + year else year
  timeClip ((monthStart (12 * fullYear + month) + day - 1) * 86400000 +
    (hours * 3600000 + minutes * 60000 + seconds * 1000 + ms))

example : dateUTC 2024 1 29 12 30 0 0 = some 1709209800000 ∧ getUTCDate 1709209800000 = 29 ∧
    getUTCMonth 1709209800000 = 1 ∧ getUTCDay 1709209800000 = 4 := by
  decide

/-! ## The ISO format -/

/-- A number with so many digits at least. -/
def padStart (width n : ℕ) : JsString :=
  List.replicate (width - (decimal n).length) (unit '0') ++ decimal n

/-- The year in a date: four digits, or a sign and six digits. -/
def isoYear (year : ℤ) : JsString :=
  if 0 ≤ year ∧ year ≤ 9999 then padStart 4 year.toNat
  else (if year < 0 then js "-" else js "+") ++ padStart 6 year.natAbs

/-- `toISOString()`. -/
def toISOString (t : ℤ) : JsString :=
  isoYear (getUTCFullYear t) ++ js "-" ++ padStart 2 (getUTCMonth t + 1).toNat ++ js "-" ++
    padStart 2 (getUTCDate t).toNat ++ js "T" ++ padStart 2 (getUTCHours t).toNat ++ js ":" ++
    padStart 2 (getUTCMinutes t).toNat ++ js ":" ++ padStart 2 (t / 1000 % 60).toNat ++ js "." ++
    padStart 3 (t % 1000).toNat ++ js "Z"

example : toISOString 1709209800007 = js "2024-02-29T12:30:00.007Z" := by decide +kernel

/-- A padded number has no slash. -/
theorem slash_notMem_padStart (width n : ℕ) : unit '/' ∉ padStart width n := by
  intro h
  rcases List.mem_append.mp h with h | h
  · exact absurd (List.eq_of_mem_replicate h) (by decide)
  · exact slash_notMem_decimal n h

variable (t : ℤ)

/-- A date has no slash. -/
theorem slash_notMem_toISOString : unit '/' ∉ toISOString t := by
  have hyear : unit '/' ∉ isoYear (getUTCFullYear t) := by
    unfold isoYear
    split_ifs
    · exact slash_notMem_padStart _ _
    all_goals
      rw [List.mem_append, not_or]
      exact ⟨by decide, slash_notMem_padStart _ _⟩
  have hliterals : unit '/' ∉ js "-" ∧ unit '/' ∉ js "T" ∧ unit '/' ∉ js ":" ∧ unit '/' ∉ js "." ∧
      unit '/' ∉ js "Z" := by
    decide
  simp [toISOString, slash_notMem_padStart, hyear, hliterals, or_self]

/-! ## Composing and taking apart -/

/-- Year and month count the months. -/
theorem monthOf_eq : 12 * getUTCFullYear t + getUTCMonth t = monthOf t := rfl

/-- The month number of an instant is within a year. -/
theorem getUTCMonth_bounds : 0 ≤ getUTCMonth t ∧ getUTCMonth t < 12 := by
  obtain ⟨hyear, hnext⟩ := yearFromDay_spec (dayOf t)
  rw [dayFromYear_succ] at hnext
  unfold getUTCMonth getUTCFullYear
  exact (monthFromDay_spec (leapDays_bounds _) ⟨by omega, by omega⟩).1

/-- The month number of an instant is determined by its month. -/
theorem getUTCMonth_eq : getUTCMonth t = monthOf t % 12 := by
  have hbounds := getUTCMonth_bounds t
  rw [← monthOf_eq]
  omega

/-- The day of an instant, from its month and its day in the month. -/
theorem dayOf_eq : dayOf t = monthStart (monthOf t) + getUTCDate t - 1 := by
  unfold getUTCDate
  omega

/-- The instants of a month. -/
theorem monthOf_eq_iff (M t : ℤ) :
    monthOf t = M ↔ monthStart M * 86400000 ≤ t ∧ t < monthStart (M + 1) * 86400000 := by
  rw [monthOf, monthOfDay_eq_iff, dayOf]
  omega

/-- Instants after the first century are of years after it. -/
theorem getUTCFullYear_gt {t : ℤ} (h : -59000000000000 ≤ t) : 99 < getUTCFullYear t := by
  obtain ⟨-, hnext⟩ := yearFromDay_spec (dayOf t)
  have hbounds := dayFromYear_bounds (yearFromDay (dayOf t) + 1)
  rw [getUTCFullYear]
  unfold dayOf at *
  omega

/-- `Date.UTC` of a year after the first century. -/
theorem dateUTC_eq {year : ℤ} (h : 99 < year) (month day hours minutes seconds ms : ℤ) :
    dateUTC year month day hours minutes seconds ms =
      timeClip ((monthStart (12 * year + month) + day - 1) * 86400000 +
        (hours * 3600000 + minutes * 60000 + seconds * 1000 + ms)) := by
  rw [dateUTC, if_neg (by omega)]

/-- An instant in range is the time value of its date. -/
theorem timeClip_of_le {t : ℤ} (hlow : -maxTime ≤ t) (hhigh : t ≤ maxTime) : timeClip t = some t :=
  if_pos ⟨hlow, hhigh⟩

end ZimaControl
