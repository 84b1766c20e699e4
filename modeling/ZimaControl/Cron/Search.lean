import ZimaControl.Cron.ParseExact
import ZimaControl.Lib.JsDate
import ZimaControl.Lib.JumpSearch
import ZimaControl.Lib.Rounds
import Mathlib.Order.Bounds.Basic

/-!
# Searching the slots of a schedule

`getNextCronOccurrence`, `getPreviousCronOccurrence` and `checkScheduleDue` of `cron-evaluator.ts`.
Both searches move a cursor over whole minutes and jump to the next month, day or hour where the
present one does not match; they are instances of `jumpSearch`. They find the first slot from the
first cursor on, if it is within five years and a valid date (`next_spec`, `previous_spec`).
-/

namespace ZimaControl

open Option

/-! ## The searches -/

/-- `set.has(n)`. -/
def setHas (set : List JsNumber) (n : ℤ) : Bool := .finite n ∈ set

/-- `matchesDay`. -/
def matchesDay (parsed : ParsedCronSchedule) (dayOfMonth dayOfWeek : ℤ) : Bool :=
  if parsed.isDayOfMonthWildcard && parsed.isDayOfWeekWildcard then true
  else if !parsed.isDayOfMonthWildcard && parsed.isDayOfWeekWildcard then
    setHas parsed.daysOfMonth dayOfMonth
  else if parsed.isDayOfMonthWildcard && !parsed.isDayOfWeekWildcard then
    setHas parsed.daysOfWeek dayOfWeek
  else setHas parsed.daysOfMonth dayOfMonth || setHas parsed.daysOfWeek dayOfWeek

/-- `daysInMonth`. -/
def daysInMonth (year month1Indexed : ℤ) : Option ℤ :=
  (dateUTC year month1Indexed 0 0 0 0 0).map getUTCDate

/-- The body of the loop of `getNextCronOccurrence`. -/
def nextProbe (parsed : ParsedCronSchedule) (cursor : ℤ) : Probe ℤ :=
  let year := getUTCFullYear cursor
  let month := getUTCMonth cursor + 1
  if setHas parsed.months month = false then .jump (dateUTC year month 1 0 0 0 0)
  else
    let maxDays := daysInMonth year month
    let dayOfMonth := getUTCDate cursor
    let dayOfWeek := getUTCDay cursor
    -- A comparison with the days of an Invalid Date is false.
    if maxDays.any (· < dayOfMonth) ∨ matchesDay parsed dayOfMonth dayOfWeek = false then
      .jump (dateUTC year (month - 1) (dayOfMonth + 1) 0 0 0 0)
    else
      let hour := getUTCHours cursor
      if setHas parsed.hours hour = false then
        .jump (dateUTC year (month - 1) dayOfMonth (hour + 1) 0 0 0)
      else
        let minute := getUTCMinutes cursor
        if setHas parsed.minutes minute = false then .jump (timeClip (cursor + 60000))
        else .found

/-- The body of the loop of `getPreviousCronOccurrence`. -/
def previousProbe (parsed : ParsedCronSchedule) (cursor : ℤ) : Probe ℤ :=
  let year := getUTCFullYear cursor
  let month := getUTCMonth cursor + 1
  if setHas parsed.months month = false then .jump (dateUTC year (month - 1) 0 23 59 0 0)
  else
    let dayOfMonth := getUTCDate cursor
    let dayOfWeek := getUTCDay cursor
    if matchesDay parsed dayOfMonth dayOfWeek = false then
      .jump (dateUTC year (month - 1) (dayOfMonth - 1) 23 59 0 0)
    else
      let hour := getUTCHours cursor
      if setHas parsed.hours hour = false then
        .jump (dateUTC year (month - 1) dayOfMonth (hour - 1) 59 0 0)
      else
        let minute := getUTCMinutes cursor
        if setHas parsed.minutes minute = false then .jump (timeClip (cursor - 60000))
        else .found

/-- The horizon of both searches, five years. -/
def searchHorizon : ℤ := 5 * 366 * 86400000

/-- The text of the error thrown behind the forward loop. -/
def noNextText (expression : JsString) : JsString :=
  js "No matching cron occurrence found within 5-year horizon for expression: '" ++ expression ++
    js "'"

/-- The text of the error thrown behind the backward loop. -/
def noPreviousText (expression : JsString) : JsString :=
  js "No matching cron occurrence found within 5-year backward horizon for expression: '" ++
    expression ++ js "'"

/-- The slot that a loop returned, or the error thrown behind it. -/
def searchResult (text : JsString) : Option ℤ → Except BackupDomainError ℤ
  | some slot => .ok slot
  | none => .error (backupCronInvalidError text)

/-- `getNextCronOccurrence`, with so many rounds for each of its loops. -/
def getNextCronOccurrence (rounds : ℕ) (expression : JsString) (fromDate : ℤ) :
    Option (Except BackupDomainError ℤ) :=
  match parseCronSchedule rounds expression with
  | none => none
  | some (.error error) => some (.error error)
  | some (.ok parsed) =>
    let cursor := dateUTC (getUTCFullYear fromDate) (getUTCMonth fromDate) (getUTCDate fromDate)
      (getUTCHours fromDate) (getUTCMinutes fromDate + 1) 0 0
    let inside c := cursor.any (c ≤ · + searchHorizon)
    (jumpSearch (nextProbe parsed) inside rounds cursor).map
      (searchResult (noNextText expression))

/-- `getPreviousCronOccurrence`, with so many rounds for each of its loops. -/
def getPreviousCronOccurrence (rounds : ℕ) (expression : JsString) (fromDate : ℤ)
    (inclusive : Bool) : Option (Except BackupDomainError ℤ) :=
  match parseCronSchedule rounds expression with
  | none => none
  | some (.error error) => some (.error error)
  | some (.ok parsed) =>
    let floor := dateUTC (getUTCFullYear fromDate) (getUTCMonth fromDate) (getUTCDate fromDate)
      (getUTCHours fromDate) (getUTCMinutes fromDate) 0 0
    let cursor := if inclusive then floor else floor.bind fun c => timeClip (c - 60000)
    let inside c := cursor.any (· - searchHorizon ≤ c)
    (jumpSearch (previousProbe parsed) inside rounds cursor).map
      (searchResult (noPreviousText expression))

/-- The answer of `checkScheduleDue`. -/
structure ScheduleDue where
  isDue : Bool
  dueSlot : ℤ
  nextRun : ℤ
  deriving DecidableEq

/-- `checkScheduleDue`. -/
def checkScheduleDue (rounds : ℕ) (expression : JsString) (lastScheduleTimestamp : Option ℤ)
    (now : ℤ) : Option (Except BackupDomainError ScheduleDue) :=
  match getPreviousCronOccurrence rounds expression now true with
  | none => none
  | some (.error error) => some (.error error)
  | some (.ok dueSlot) =>
    match getNextCronOccurrence rounds expression now with
    | none => none
    | some (.error error) => some (.error error)
    | some (.ok nextRun) =>
      match lastScheduleTimestamp with
      | none => some (.ok { isDue := true, dueSlot, nextRun })
      | some last => some (.ok { isDue := last < dueSlot, dueSlot, nextRun })

/-! ## More rounds -/

variable {expression : JsString} {rounds rounds' : ℕ}

/-- More rounds do not change what is parsed. -/
theorem parseCronSchedule_more (hle : rounds ≤ rounds')
    {result : Except BackupDomainError ParsedCronSchedule}
    (h : parseCronSchedule rounds expression = some result) :
    parseCronSchedule rounds' expression = some result := by
  cases hvalid : validateCronExpression expression with
  | false =>
    unfold parseCronSchedule at h ⊢
    rwa [if_pos hvalid] at h ⊢
  | true =>
    cases result with
    | ok parsed => exact parseCronSchedule_mono hle hvalid h
    | error e =>
      unfold parseCronSchedule at h
      rw [if_neg (by simp [hvalid])] at h
      simp [bind_eq_some_iff] at h

variable {t : ℤ} {result : Except BackupDomainError ℤ}

/-- More rounds do not change the next slot. -/
theorem getNextCronOccurrence_more (hle : rounds ≤ rounds')
    (h : getNextCronOccurrence rounds expression t = some result) :
    getNextCronOccurrence rounds' expression t = some result := by
  cases hparse : parseCronSchedule rounds expression with
  | none => simp [getNextCronOccurrence, hparse] at h
  | some parsed =>
    simp only [getNextCronOccurrence, hparse, parseCronSchedule_more hle hparse] at h ⊢
    cases parsed with
    | error e => exact h
    | ok parsed =>
      obtain ⟨found, hfound, hresult⟩ := map_eq_some_iff.mp h
      exact map_eq_some_iff.mpr ⟨found, jumpSearch_mono hle hfound, hresult⟩

/-- More rounds do not change the previous slot. -/
theorem getPreviousCronOccurrence_more (hle : rounds ≤ rounds') {inclusive : Bool}
    (h : getPreviousCronOccurrence rounds expression t inclusive = some result) :
    getPreviousCronOccurrence rounds' expression t inclusive = some result := by
  cases hparse : parseCronSchedule rounds expression with
  | none => simp [getPreviousCronOccurrence, hparse] at h
  | some parsed =>
    simp only [getPreviousCronOccurrence, hparse, parseCronSchedule_more hle hparse] at h ⊢
    cases parsed with
    | error e => exact h
    | ok parsed =>
      obtain ⟨found, hfound, hresult⟩ := map_eq_some_iff.mp h
      exact map_eq_some_iff.mpr ⟨found, jumpSearch_mono hle hfound, hresult⟩

/-- `checkScheduleDue` asks for the slots before and behind the instant. -/
theorem checkScheduleDue_eq_ok {rounds : ℕ} {last : Option ℤ} {due : ScheduleDue} :
    checkScheduleDue rounds expression last t = some (.ok due) ↔
      getPreviousCronOccurrence rounds expression t true = some (.ok due.dueSlot) ∧
        getNextCronOccurrence rounds expression t = some (.ok due.nextRun) ∧
        due.isDue = last.all (· < due.dueSlot) := by
  unfold checkScheduleDue
  cases hprevious : getPreviousCronOccurrence rounds expression t true with
  | none => simp
  | some previous =>
    cases previous with
    | error e => simp
    | ok dueSlot =>
      cases hnext : getNextCronOccurrence rounds expression t with
      | none => simp
      | some next =>
        cases next with
        | error e => simp
        | ok nextRun =>
          obtain ⟨isDue, dueSlot', nextRun'⟩ := due
          cases last <;> grind

/-- More rounds do not change a schedule that is evaluated. -/
theorem checkScheduleDue_more (hle : rounds ≤ rounds') {last : Option ℤ} {due : ScheduleDue}
    (h : checkScheduleDue rounds expression last t = some (.ok due)) :
    checkScheduleDue rounds' expression last t = some (.ok due) := by
  rw [checkScheduleDue_eq_ok] at h ⊢
  exact ⟨getPreviousCronOccurrence_more hle h.1, getNextCronOccurrence_more hle h.2.1, h.2.2⟩

/-! ## Slots -/

namespace ParsedCronSchedule

/-- A slot: a whole minute whose month, day, hour and minute match. -/
def IsSlot (parsed : ParsedCronSchedule) (s : ℤ) : Prop :=
  s % 60000 = 0 ∧ setHas parsed.months (getUTCMonth s + 1) = true ∧
    matchesDay parsed (getUTCDate s) (getUTCDay s) = true ∧
    setHas parsed.hours (getUTCHours s) = true ∧ setHas parsed.minutes (getUTCMinutes s) = true
  deriving Decidable

end ParsedCronSchedule

/-- Instants of one month have the same month number. -/
theorem getUTCMonth_congr {s c : ℤ} (h : monthOf s = monthOf c) : getUTCMonth s = getUTCMonth c := by
  rw [getUTCMonth_eq, getUTCMonth_eq, h]

/-- Instants of one day have the same day in the month. -/
theorem getUTCDate_congr {s c : ℤ} (h : dayOf s = dayOf c) : getUTCDate s = getUTCDate c := by
  unfold getUTCDate monthOf
  rw [h]

/-- Instants of one day have the same day of the week. -/
theorem getUTCDay_congr {s c : ℤ} (h : dayOf s = dayOf c) : getUTCDay s = getUTCDay c := by
  unfold getUTCDay
  rw [h]

variable {c : ℤ}

/-- `Date.UTC` of components of an instant, with the month moved on. -/
theorem dateUTC_components (hc : -59000000000000 ≤ c) (k day hours minutes : ℤ) :
    dateUTC (getUTCFullYear c) (getUTCMonth c + k) day hours minutes 0 0 =
      timeClip ((monthStart (monthOf c + k) + day - 1) * 86400000 +
        (hours * 3600000 + minutes * 60000)) := by
  rw [dateUTC_eq (getUTCFullYear_gt hc), ← add_assoc (12 * _), monthOf_eq]
  congr 1
  omega

/-- The day of an instant does not exceed the days of its month. -/
theorem daysInMonth_any (hc : -59000000000000 ≤ c) :
    (daysInMonth (getUTCFullYear c) (getUTCMonth c + 1)).any (· < getUTCDate c) = false := by
  rw [daysInMonth, dateUTC_components hc 1 0 0 0, timeClip]
  split_ifs with hrange
  · have hmonth := (monthOf_eq_iff (monthOf c) c).mp rfl
    have hlast : monthOf ((monthStart (monthOf c + 1) + 0 - 1) * 86400000 +
        (0 * 3600000 + 0 * 60000)) = monthOf c := by
      rw [monthOf_eq_iff]
      omega
    simp only [map_some, any_some, decide_eq_false_iff_not, not_lt]
    unfold getUTCDate
    rw [hlast]
    unfold dayOf
    omega
  · rfl

/-! ## What the probes do -/

variable {parsed : ParsedCronSchedule}

variable (parsed) in
/-- Why a minute is no slot: the month, day, hour or minute between these two instants, in which it
lies, does not match. -/
inductive Mismatch (c : ℤ) : ℤ → ℤ → Prop
  | month : setHas parsed.months (getUTCMonth c + 1) = false →
    Mismatch c (monthStart (monthOf c) * 86400000) (monthStart (monthOf c + 1) * 86400000)
  | day : matchesDay parsed (getUTCDate c) (getUTCDay c) = false →
    Mismatch c (dayOf c * 86400000) ((dayOf c + 1) * 86400000)
  | hour : setHas parsed.hours (getUTCHours c) = false →
    Mismatch c (c / 3600000 * 3600000) ((c / 3600000 + 1) * 3600000)
  | minute : setHas parsed.minutes (getUTCMinutes c) = false → Mismatch c c (c + 60000)

/-- What does not match is bounded by whole minutes around the present one. -/
theorem Mismatch.bounds {c lo hi : ℤ} (h : Mismatch parsed c lo hi) (hminute : c % 60000 = 0) :
    lo ≤ c ∧ c < hi ∧ lo % 60000 = 0 ∧ hi % 60000 = 0 := by
  have hinMonth := (monthOf_eq_iff (monthOf c) c).mp rfl
  have hday : dayOf c = c / 86400000 := rfl
  cases h <;> omega

/-- No slot is between the bounds of what does not match. -/
theorem Mismatch.no_slot {c lo hi : ℤ} (h : Mismatch parsed c lo hi) (hminute : c % 60000 = 0)
    {s : ℤ} (hs : parsed.IsSlot s) : s < lo ∨ hi ≤ s := by
  by_contra hin
  cases h with
  | month hno =>
    have hsame : monthOf s = monthOf c := (monthOf_eq_iff _ s).mpr (by omega)
    rw [← getUTCMonth_congr hsame, hs.2.1] at hno
    cases hno
  | day hno =>
    have hsame : dayOf s = dayOf c := by unfold dayOf at *; omega
    rw [← getUTCDate_congr hsame, ← getUTCDay_congr hsame, hs.2.2.1] at hno
    cases hno
  | hour hno =>
    have hsame : getUTCHours s = getUTCHours c := by unfold getUTCHours; omega
    rw [← hsame, hs.2.2.2.1] at hno
    cases hno
  | minute hno =>
    have hwhole := hs.1
    obtain rfl : s = c := by omega
    rw [hs.2.2.2.2] at hno
    cases hno

/-- The forward probe reports a slot, or jumps behind what does not match. -/
theorem nextProbe_cases (hc : -59000000000000 ≤ c) (hwhole : c % 60000 = 0) :
    (∃ lo hi, Mismatch parsed c lo hi ∧ nextProbe parsed c = .jump (timeClip hi)) ∨
      parsed.IsSlot c ∧ nextProbe parsed c = .found := by
  have hday := dayOf_eq c
  unfold nextProbe
  dsimp only
  rw [daysInMonth_any hc, add_sub_cancel_right, ← add_zero (getUTCMonth c)]
  split_ifs with hmonth hdays hhour hminute
  · refine .inl ⟨_, _, .month (by simpa using hmonth), ?_⟩
    rw [add_zero, dateUTC_components hc 1 1 0 0]
    congr 2
    omega
  · refine .inl ⟨_, _, .day (by simpa using hdays), ?_⟩
    rw [dateUTC_components hc 0 _ 0 0, add_zero]
    congr 2
    omega
  · refine .inl ⟨_, _, .hour hhour, ?_⟩
    rw [dateUTC_components hc 0 _ _ 0, add_zero, getUTCHours]
    unfold dayOf at hday
    congr 2
    omega
  · exact .inl ⟨_, _, .minute hminute, rfl⟩
  · exact .inr ⟨⟨hwhole, by simpa using hmonth, by simpa using hdays, by simpa using hhour,
      by simpa using hminute⟩, rfl⟩

/-- The backward probe reports a slot, or jumps to the last minute before what does not match. -/
theorem previousProbe_cases (hc : -59000000000000 ≤ c) (hwhole : c % 60000 = 0) :
    (∃ lo hi, Mismatch parsed c lo hi ∧ previousProbe parsed c = .jump (timeClip (lo - 60000))) ∨
      parsed.IsSlot c ∧ previousProbe parsed c = .found := by
  have hday := dayOf_eq c
  unfold previousProbe
  dsimp only
  rw [add_sub_cancel_right, ← add_zero (getUTCMonth c)]
  split_ifs with hmonth hdays hhour hminute
  · refine .inl ⟨_, _, .month (by simpa using hmonth), ?_⟩
    rw [dateUTC_components hc 0 0 23 59, add_zero (monthOf c)]
    congr 2
    omega
  · refine .inl ⟨_, _, .day hdays, ?_⟩
    rw [dateUTC_components hc 0 _ 23 59, add_zero (monthOf c)]
    congr 2
    omega
  · refine .inl ⟨_, _, .hour hhour, ?_⟩
    rw [dateUTC_components hc 0 _ _ 59, add_zero, getUTCHours]
    unfold dayOf at hday
    congr 2
    omega
  · exact .inl ⟨_, _, .minute hminute, rfl⟩
  · exact .inr ⟨⟨hwhole, by simpa using hmonth, by simpa using hdays, by simpa using hhour,
      by simpa using hminute⟩, rfl⟩

/-- The forward search is exact on the whole minutes from 1970 on. -/
theorem nextProbe_exact (limit : ℤ) :
    ExactProbe (nextProbe parsed) id (fun c => c % 60000 = 0 ∧ 0 ≤ c ∧ c ≤ maxTime)
      (fun s => parsed.IsSlot s ∧ s ≤ maxTime) limit := by
  rintro c ⟨hwhole, hpos, hmax⟩ -
  rcases nextProbe_cases (by omega) hwhole with ⟨lo, hi, hno, hprobe⟩ | ⟨hslot, hprobe⟩ <;> rw [hprobe]
  · obtain ⟨hlo, hhi, -, htwhole⟩ := hno.bounds hwhole
    have hafter : ∀ s, parsed.IsSlot s → c ≤ s → hi ≤ s := fun s hs hle =>
      (hno.no_slot hwhole hs).resolve_left (not_lt.mpr (hlo.trans hle))
    by_cases hrange : hi ≤ maxTime
    · rw [timeClip_of_le (by omega) hrange]
      exact ⟨⟨htwhole, by omega, hrange⟩, hhi, fun s hs hle => hafter s hs.1 hle⟩
    · -- the jump leaves the valid dates, and so does every slot behind it
      rw [timeClip, if_neg (by omega)]
      exact fun s hs hle => absurd ((hafter s hs.1 hle).trans hs.2) hrange
  · exact ⟨hslot, hmax⟩

/-- The backward search is exact on the whole minutes within its horizon. -/
theorem previousProbe_exact {limit : ℤ} (hlimit : limit ≤ 59000000000000) :
    ExactProbe (previousProbe parsed) Neg.neg (fun c => c % 60000 = 0 ∧ c ≤ maxTime)
      (fun s => parsed.IsSlot s ∧ -maxTime ≤ s) limit := by
  rintro c ⟨hwhole, hcmax⟩ hc
  have hmaxTime : maxTime = 8640000000000000 := rfl
  rcases previousProbe_cases (by omega) hwhole with ⟨lo, hi, hno, hprobe⟩ | ⟨hslot, hprobe⟩ <;>
    rw [hprobe]
  · obtain ⟨hlo, hhi, htwhole, -⟩ := hno.bounds hwhole
    -- a slot is a whole minute, so one before the bound is a minute before it
    have hbefore : ∀ s, parsed.IsSlot s → s ≤ c → s ≤ lo - 60000 := by
      intro s hs hle
      have hside := hno.no_slot hwhole hs
      have hslot := hs.1
      omega
    by_cases hrange : -maxTime ≤ lo - 60000
    · rw [timeClip_of_le hrange (by omega)]
      refine ⟨⟨by omega, by omega⟩, by omega, fun s hs hle => ?_⟩
      have := hbefore s hs.1 (by omega)
      omega
    · rw [timeClip, if_neg (by omega)]
      intro s hs hle
      have := hbefore s hs.1 (by omega)
      omega
  · exact ⟨hslot, by omega⟩

/-! ## What the searches find -/

/-- The beginning of the minute of an instant. -/
def floorMinute (t : ℤ) : ℤ := t / 60000 * 60000

/-- `Date.UTC` of an instant down to its minute, moved on by minutes. -/
theorem dateUTC_floorMinute (ht : 0 ≤ t) (k : ℤ) :
    dateUTC (getUTCFullYear t) (getUTCMonth t) (getUTCDate t) (getUTCHours t)
      (getUTCMinutes t + k) 0 0 = timeClip (floorMinute t + k * 60000) := by
  have hday := dayOf_eq t
  rw [← add_zero (getUTCMonth t), dateUTC_components (by omega), add_zero, getUTCHours,
    getUTCMinutes, floorMinute]
  unfold dayOf at hday
  congr 1
  omega

variable {expression : JsString}

section

variable (hparse : Settles (parseCronSchedule · expression) (.ok parsed))
include hparse

/-- The forward search from a valid first cursor. -/
theorem getNextCronOccurrence_settles {t start : ℤ}
    (hcursor : dateUTC (getUTCFullYear t) (getUTCMonth t) (getUTCDate t) (getUTCHours t)
      (getUTCMinutes t + 1) 0 0 = some start) {found : Option ℤ}
    (hrun : Settles (jumpSearch (nextProbe parsed) (fun c => c ≤ start + searchHorizon) ·
      (some start)) found) :
    Settles (getNextCronOccurrence · expression t)
      (searchResult (noNextText expression) found) := by
  obtain ⟨n, hn⟩ := hparse.both hrun
  refine ⟨n, fun rounds hle => ?_⟩
  obtain ⟨hparsed, hfound⟩ := hn rounds hle
  simp only [getNextCronOccurrence, hparsed, hcursor, any_some, hfound]
  rfl

/-- The forward search finds the first slot after an instant, if this is within the horizon and a
valid date. -/
theorem next_spec (ht : 0 ≤ t) :
    (∃ s, Settles (getNextCronOccurrence · expression t) (.ok s) ∧
      IsLeast {s | parsed.IsSlot s ∧ t < s} s ∧
      s ≤ floorMinute t + 60000 + searchHorizon ∧ s ≤ maxTime) ∨
    (∃ error, Settles (getNextCronOccurrence · expression t) (.error error) ∧
      ∀ s, parsed.IsSlot s → t < s →
        ¬ (s ≤ floorMinute t + 60000 + searchHorizon ∧ s ≤ maxTime)) := by
  have hcursor := dateUTC_floorMinute ht 1
  rw [one_mul] at hcursor
  -- a slot after the instant is not before the first cursor
  have hfrom : ∀ s, parsed.IsSlot s → (t < s ↔ floorMinute t + 60000 ≤ s) := by
    intro s hs
    have hwhole := hs.1
    unfold floorMinute
    omega
  have hnonneg : 0 ≤ floorMinute t := by
    unfold floorMinute
    omega
  by_cases hvalid : floorMinute t + 60000 ≤ maxTime
  · rw [timeClip_of_le (by omega) hvalid] at hcursor
    have hstart : (floorMinute t + 60000) % 60000 = 0 ∧ 0 ≤ floorMinute t + 60000 := by
      unfold floorMinute
      omega
    generalize floorMinute t + 60000 = start at *
    have hinside : ∀ c, (fun c : ℤ => decide (c ≤ start + searchHorizon)) c =
        (id c ≤ start + searchHorizon : Bool) := fun _ => rfl
    rcases jumpSearch_settles (nextProbe_exact (start + searchHorizon)) hinside
      ⟨hstart.1, hstart.2, hvalid⟩ with ⟨s, hrun, hfirst, hlimit⟩ | ⟨hrun, hnone⟩
    · have hsettles := getNextCronOccurrence_settles hparse hcursor hrun
      refine .inl ⟨s, hsettles, ⟨⟨hfirst.sought.1, (hfrom s hfirst.sought.1).mpr hfirst.from_le⟩,
        ?_⟩, hlimit, hfirst.sought.2⟩
      rintro s' ⟨hslot, hlater⟩
      by_cases hs' : s' ≤ maxTime
      · exact hfirst.first s' ⟨hslot, hs'⟩ ((hfrom s' hslot).mp hlater)
      · have := hfirst.sought.2
        omega
    · have hsettles := getNextCronOccurrence_settles hparse hcursor hrun
      refine .inr ⟨_, hsettles, fun s hslot hlater hreach => ?_⟩
      have := hnone s ⟨hslot, hreach.2⟩ ((hfrom s hslot).mp hlater)
      simp only [id] at this
      omega
  · -- there is no date after the instant
    rw [timeClip, if_neg (by omega)] at hcursor
    obtain ⟨n, hn⟩ := hparse
    refine .inr ⟨backupCronInvalidError (noNextText expression), ⟨n, fun rounds hle => ?_⟩,
      fun s hslot hlater hreach => ?_⟩
    · simp only [getNextCronOccurrence, hn rounds hle, hcursor]
      cases rounds <;> rfl
    · have := (hfrom s hslot).mp hlater
      omega

end

/-- The first cursor of the backward search. -/
def previousStart (inclusive : Bool) (t : ℤ) : ℤ :=
  if inclusive then floorMinute t else floorMinute t - 60000

/-- The backward search finds the last slot up to its first cursor, if this is within the horizon.
-/
theorem previous_spec (hparse : Settles (parseCronSchedule · expression) (.ok parsed)) (ht : 0 ≤ t)
    (hmax : t ≤ maxTime) (inclusive : Bool) :
    (∃ s, Settles (getPreviousCronOccurrence · expression t inclusive) (.ok s) ∧
      IsGreatest {s | parsed.IsSlot s ∧ s ≤ previousStart inclusive t} s ∧
      previousStart inclusive t - searchHorizon ≤ s) ∨
    (∃ error, Settles (getPreviousCronOccurrence · expression t inclusive) (.error error) ∧
      ∀ s, parsed.IsSlot s → s ≤ previousStart inclusive t →
        ¬ previousStart inclusive t - searchHorizon ≤ s) := by
  have hmaxTime : maxTime = 8640000000000000 := rfl
  have hhorizon : searchHorizon = 158112000000 := rfl
  have hfloor : dateUTC (getUTCFullYear t) (getUTCMonth t) (getUTCDate t) (getUTCHours t)
      (getUTCMinutes t) 0 0 = some (floorMinute t) := by
    have hcursor := dateUTC_floorMinute ht 0
    rw [zero_mul, add_zero, add_zero] at hcursor
    rw [hcursor, floorMinute]
    exact timeClip_of_le (by omega) (by omega)
  have hstart : (if inclusive then some (floorMinute t)
      else (some (floorMinute t)).bind fun c => timeClip (c - 60000)) =
      some (previousStart inclusive t) := by
    unfold previousStart
    split_ifs
    · rfl
    · rw [bind_some]
      exact timeClip_of_le (by unfold floorMinute; omega) (by unfold floorMinute; omega)
  have hbounds : -60000 ≤ previousStart inclusive t ∧ previousStart inclusive t ≤ maxTime ∧
      previousStart inclusive t % 60000 = 0 := by
    unfold previousStart floorMinute
    split_ifs <;> omega
  -- the start is a whole minute, from the last one before 1970 on
  generalize previousStart inclusive t = start at *
  have hsettles : ∀ found, Settles (jumpSearch (previousProbe parsed)
      (fun c => start - searchHorizon ≤ c) · (some start)) found →
      Settles (getPreviousCronOccurrence · expression t inclusive)
        (searchResult (noPreviousText expression) found) := by
    intro found hrun
    obtain ⟨n, hn⟩ := hparse.both hrun
    refine ⟨n, fun rounds hle => ?_⟩
    obtain ⟨hparsed, hfound⟩ := hn rounds hle
    simp only [getPreviousCronOccurrence, hparsed, hfloor, hstart, any_some, hfound]
    rfl
  have hinside : ∀ c, (fun c : ℤ => decide (start - searchHorizon ≤ c)) c =
      (-c ≤ searchHorizon - start : Bool) := by
    intro c
    simp only [decide_eq_decide]
    omega
  rcases jumpSearch_settles (previousProbe_exact (by omega)) hinside
    ⟨hbounds.2.2, hbounds.2.1⟩ with ⟨s, hrun, hfirst, hlimit⟩ | ⟨hrun, hnone⟩
  · have hfound := hsettles _ hrun
    have hfrom := hfirst.from_le
    refine .inl ⟨s, hfound, ⟨⟨hfirst.sought.1, by omega⟩, ?_⟩, by omega⟩
    rintro s' ⟨hslot, hearlier⟩
    -- a slot before the valid dates is earlier than the one that was found
    by_cases hs' : -maxTime ≤ s'
    · have := hfirst.first s' ⟨hslot, hs'⟩ (by omega)
      omega
    · omega
  · have hfound := hsettles _ hrun
    refine .inr ⟨_, hfound, fun s hslot hearlier hreach => ?_⟩
    have := hnone s ⟨hslot, by omega⟩ (by omega)
    omega

end ZimaControl
