import ZimaControl.Cron.Search

/-!
# When the search for slots is exact

The searches of `ZimaControl.Cron.Search` against the slots of the Gregorian calendar: strictly
after an instant, up to it, and strictly before it. A search gives up after five years, so the leap
day of 2104 is not found from the spring of 2096. The search for the slot strictly before an instant
starts one minute before the minute of the instant, so it misses the slot of this minute when some
of its seconds have passed. Nothing else goes wrong (`cron_search_exact_iff`).
-/

namespace ZimaControl

variable {parsed : ParsedCronSchedule} {expression : JsString}

/-! ## Exactness and reach -/

/-- The searches from an instant are exact: each returns the slot it is for, and throws only if
there is none; and the two slots that `checkScheduleDue` returns are neighbours. -/
structure SearchExact (parsed : ParsedCronSchedule) (expression : JsString) (t : ℤ) : Prop where
  next : ∃ outcome, Settles (getNextCronOccurrence · expression t) outcome ∧
    match outcome with
    | .ok s => IsLeast {s | parsed.IsSlot s ∧ t < s} s
    | .error _ => ∀ s, parsed.IsSlot s → ¬ t < s
  inclusive : ∃ outcome, Settles (getPreviousCronOccurrence · expression t true) outcome ∧
    match outcome with
    | .ok s => IsGreatest {s | parsed.IsSlot s ∧ s ≤ t} s
    | .error _ => ∀ s, parsed.IsSlot s → ¬ s ≤ t
  exclusive : ∃ outcome, Settles (getPreviousCronOccurrence · expression t false) outcome ∧
    match outcome with
    | .ok s => IsGreatest {s | parsed.IsSlot s ∧ s < t} s
    | .error _ => ∀ s, parsed.IsSlot s → ¬ s < t
  neighbours : ∀ last due, Settles (checkScheduleDue · expression last t) (.ok due) →
    ∀ s, parsed.IsSlot s → ¬ (due.dueSlot < s ∧ s < due.nextRun)

/-- The slots next to an instant are within the horizon, the next one is a valid date, and the one
strictly before is not in the minute of the instant. -/
structure InReach (parsed : ParsedCronSchedule) (t : ℤ) : Prop where
  next : ∀ s, IsLeast {s | parsed.IsSlot s ∧ t < s} s →
    s ≤ floorMinute t + 60000 + searchHorizon ∧ s ≤ maxTime
  inclusive : ∀ s, IsGreatest {s | parsed.IsSlot s ∧ s ≤ t} s → floorMinute t - searchHorizon ≤ s
  exclusive : ∀ s, IsGreatest {s | parsed.IsSlot s ∧ s < t} s →
    s ≤ floorMinute t - 60000 ∧ floorMinute t - 60000 - searchHorizon ≤ s

/-- Among integers with one after a bound there is a least. -/
theorem exists_isLeast {P : ℤ → Prop} {t s : ℤ} (hs : P s) (hlt : t < s) :
    ∃ s, IsLeast {s | P s ∧ t < s} s := by
  classical
  obtain ⟨least, ⟨hP, hafter⟩, hleast⟩ := Int.exists_least_of_bdd (P := fun s => P s ∧ t < s)
    ⟨t, fun _ h => h.2.le⟩ ⟨s, hs, hlt⟩
  exact ⟨least, ⟨hP, hafter⟩, fun z hz => hleast z hz⟩

/-- Among integers with one up to a bound there is a greatest. -/
theorem exists_isGreatest {P : ℤ → Prop} {t s : ℤ} (hs : P s) (hle : s ≤ t) :
    ∃ s, IsGreatest {s | P s ∧ s ≤ t} s := by
  classical
  obtain ⟨greatest, ⟨hP, hupto⟩, hgreatest⟩ := Int.exists_greatest_of_bdd (P := fun s => P s ∧ s ≤ t)
    ⟨t, fun _ h => h.2⟩ ⟨s, hs, hle⟩
  exact ⟨greatest, ⟨hP, hupto⟩, fun z hz => hgreatest z hz⟩

/-! ## The three searches -/

variable {t : ℤ}

section

variable (hparse : Settles (parseCronSchedule · expression) (.ok parsed))
include hparse

/-- The forward search is exact if and only if the next slot is in reach. -/
theorem next_exact_iff (ht : 0 ≤ t) :
    (∃ outcome, Settles (getNextCronOccurrence · expression t) outcome ∧
      match outcome with
      | .ok s => IsLeast {s | parsed.IsSlot s ∧ t < s} s
      | .error _ => ∀ s, parsed.IsSlot s → ¬ t < s) ↔
    ∀ s, IsLeast {s | parsed.IsSlot s ∧ t < s} s →
      s ≤ floorMinute t + 60000 + searchHorizon ∧ s ≤ maxTime := by
  rcases next_spec hparse ht with ⟨found, hsettles, hleast, hreach⟩ | ⟨error, hsettles, hnone⟩
  · constructor
    · intro _ s hs
      rw [hs.unique hleast]
      exact hreach
    · intro _
      exact ⟨_, hsettles, hleast⟩
  · constructor
    · rintro ⟨outcome, hsettles', hexact⟩ s hs
      rw [hsettles'.unique hsettles] at hexact
      exact absurd hs.1.2 (hexact s hs.1.1)
    · intro hreach
      refine ⟨_, hsettles, fun s hslot hlater => ?_⟩
      obtain ⟨least, hleast⟩ := exists_isLeast hslot hlater
      exact hnone least hleast.1.1 hleast.1.2 (hreach least hleast)

/-- The backward search for the last slot of a set is exact if and only if this slot is not after
the first cursor and within the horizon. -/
theorem previous_exact_iff (ht : 0 ≤ t) (hmax : t ≤ maxTime) (inclusive : Bool) (bound : ℤ)
    (hbound : previousStart inclusive t ≤ bound) :
    (∃ outcome, Settles (getPreviousCronOccurrence · expression t inclusive) outcome ∧
      match outcome with
      | .ok s => IsGreatest {s | parsed.IsSlot s ∧ s ≤ bound} s
      | .error _ => ∀ s, parsed.IsSlot s → ¬ s ≤ bound) ↔
    ∀ s, IsGreatest {s | parsed.IsSlot s ∧ s ≤ bound} s →
      s ≤ previousStart inclusive t ∧ previousStart inclusive t - searchHorizon ≤ s := by
  rcases previous_spec hparse ht hmax inclusive with
    ⟨found, hsettles, hgreatest, hreach⟩ | ⟨error, hsettles, hnone⟩
  · constructor
    · rintro ⟨outcome, hsettles', hexact⟩ s hs
      rw [hsettles'.unique hsettles] at hexact
      rw [hs.unique hexact]
      exact ⟨hgreatest.1.2, hreach⟩
    · intro hall
      refine ⟨_, hsettles, ⟨hgreatest.1.1, hgreatest.1.2.trans hbound⟩, fun s hs => ?_⟩
      -- The last slot up to the bound is up to the first cursor, so the search found it.
      obtain ⟨last, hlast⟩ := exists_isGreatest hs.1 hs.2
      exact (hlast.2 hs).trans (hgreatest.2 ⟨hlast.1.1, (hall last hlast).1⟩)
  · constructor
    · rintro ⟨outcome, hsettles', hexact⟩ s hs
      rw [hsettles'.unique hsettles] at hexact
      exact absurd hs.1.2 (hexact s hs.1.1)
    · intro hall
      refine ⟨_, hsettles, fun s hslot hle => ?_⟩
      obtain ⟨last, hlast⟩ := exists_isGreatest hslot hle
      exact hnone last hlast.1.1 (hall last hlast).1 (hall last hlast).2

end

/-- The slots that `checkScheduleDue` returns are those of the two searches. -/
theorem checkScheduleDue_slots {last : Option ℤ} {due : ScheduleDue}
    (h : Settles (checkScheduleDue · expression last t) (.ok due)) :
    ∃ n, ∀ rounds, n ≤ rounds →
      getPreviousCronOccurrence rounds expression t true = some (.ok due.dueSlot) ∧
      getNextCronOccurrence rounds expression t = some (.ok due.nextRun) := by
  obtain ⟨n, hn⟩ := h
  refine ⟨n, fun rounds hle => ?_⟩
  have hslots := checkScheduleDue_eq_ok.mp (hn rounds hle)
  exact ⟨hslots.1, hslots.2.1⟩

/-- No slot is strictly between the two that `checkScheduleDue` returns. -/
theorem checkScheduleDue_neighbours (hparse : Settles (parseCronSchedule · expression) (.ok parsed))
    (ht : 0 ≤ t) (hmax : t ≤ maxTime) {last : Option ℤ} {due : ScheduleDue}
    (h : Settles (checkScheduleDue · expression last t) (.ok due)) {s : ℤ} (hs : parsed.IsSlot s) :
    ¬ (due.dueSlot < s ∧ s < due.nextRun) := by
  rintro ⟨hafter, hbefore⟩
  obtain ⟨n, hn⟩ := checkScheduleDue_slots h
  have hprevious : Settles (getPreviousCronOccurrence · expression t true) (.ok due.dueSlot) :=
    ⟨n, fun rounds hle => (hn rounds hle).1⟩
  have hnext : Settles (getNextCronOccurrence · expression t) (.ok due.nextRun) :=
    ⟨n, fun rounds hle => (hn rounds hle).2⟩
  by_cases hupto : s ≤ t
  · rcases previous_spec hparse ht hmax true with ⟨found, hsettles, hgreatest, -⟩ | ⟨_, hsettles, -⟩
    · obtain rfl : found = due.dueSlot := by simpa using hsettles.unique hprevious
      have hwhole := hs.1
      have hstart : s ≤ previousStart true t := by
        simp only [previousStart, if_true, floorMinute]
        omega
      have := hgreatest.2 ⟨hs, hstart⟩
      omega
    · cases hsettles.unique hprevious
  · rcases next_spec hparse ht with ⟨found, hsettles, hleast, -⟩ | ⟨_, hsettles, -⟩
    · obtain rfl : found = due.nextRun := by simpa using hsettles.unique hnext
      have := hleast.2 ⟨hs, by omega⟩
      omega
    · cases hsettles.unique hnext

/-! ## Exact searches -/

/-- Only an accepted expression is parsed, and more rounds do not change the schedule. -/
theorem parseCronSchedule_settles {rounds : ℕ}
    (h : parseCronSchedule rounds expression = some (.ok parsed)) :
    Settles (parseCronSchedule · expression) (.ok parsed) := by
  have hvalid : validateCronExpression expression = true := by
    by_contra hinvalid
    rw [parseCronSchedule, if_pos (by simpa using hinvalid)] at h
    cases h
  exact ⟨rounds, fun more hle => parseCronSchedule_mono hle hvalid h⟩

/-- A slot that the inclusive search finds is not behind the instant. -/
theorem previous_le {rounds : ℕ} {t s : ℤ} (ht : 0 ≤ t) (hmax : t ≤ maxTime)
    (h : getPreviousCronOccurrence rounds expression t true = some (.ok s)) : s ≤ t := by
  have hsettles : Settles (getPreviousCronOccurrence · expression t true) (.ok s) :=
    .of_mono (fun hle hfound => getPreviousCronOccurrence_more hle hfound) h
  have hparsed : ∃ parsed, parseCronSchedule rounds expression = some (.ok parsed) := by
    unfold getPreviousCronOccurrence at h
    split at h
    · cases h
    · cases h
    · rename_i parsed hparsed
      exact ⟨parsed, hparsed⟩
  obtain ⟨parsed, hparsed⟩ := hparsed
  rcases previous_spec (parseCronSchedule_settles hparsed) ht hmax true with
    ⟨found, hfound, hgreatest, -⟩ | ⟨_, herror, -⟩
  · obtain rfl : found = s := by simpa using hfound.unique hsettles
    have hstart : found ≤ floorMinute t := hgreatest.1.2
    unfold floorMinute at hstart
    omega
  · cases herror.unique hsettles

/-- For an accepted and parsed expression and an instant from 1970 on, the searches are exact if and
only if the slots next to the instant are in reach. -/
theorem cron_search_exact_iff (expression : JsString) (parsed : ParsedCronSchedule)
    (hparse : ∃ rounds, parseCronSchedule rounds expression = some (.ok parsed)) (t : ℤ)
    (ht : 0 ≤ t) (hmax : t ≤ maxTime) : SearchExact parsed expression t ↔ InReach parsed t := by
  obtain ⟨rounds, hrounds⟩ := hparse
  have hparse := parseCronSchedule_settles hrounds
  have hnext := next_exact_iff hparse ht
  have hinclusive := previous_exact_iff hparse ht hmax true t
    (by simp only [previousStart, if_true, floorMinute]; omega)
  have hexclusive := previous_exact_iff hparse ht hmax false (t - 1)
    (by simp only [previousStart, floorMinute]; norm_num; omega)
  simp only [previousStart, if_true, Bool.false_eq_true, if_false, Int.le_sub_one_iff]
    at hinclusive hexclusive
  constructor
  · intro h
    exact ⟨hnext.mp h.next, fun s hs => (hinclusive.mp h.inclusive s hs).2,
      hexclusive.mp h.exclusive⟩
  intro h
  refine ⟨hnext.mpr h.next, hinclusive.mpr fun s hs => ⟨?_, h.inclusive s hs⟩,
    hexclusive.mpr h.exclusive, fun last due hdue s hs =>
      checkScheduleDue_neighbours hparse ht hmax hdue hs⟩
  -- A slot up to the instant is up to the beginning of its minute.
  have hwhole := hs.1.1.1
  have hle := hs.1.2
  unfold floorMinute
  omega

/-- The schedule of `* * * * *`. -/
def everyMinute : ParsedCronSchedule where
  minutes := (List.range 60).map fun n => .finite n
  hours := (List.range 24).map fun n => .finite n
  daysOfMonth := (List.range 31).map fun n => .finite (n + 1)
  months := (List.range 12).map fun n => .finite (n + 1)
  daysOfWeek := (List.range 7).map fun n => .finite n
  isDayOfMonthWildcard := true
  isDayOfWeekWildcard := true

/-- `* * * * *` is parsed to every minute. -/
theorem everyMinute_parsed : parseCronSchedule 60 (js "* * * * *") = some (.ok everyMinute) := by
  decide +kernel

/-- At the beginning of an hour the searches for every minute are exact. -/
theorem cron_search_exact_iff_everyMinute :
    (parseCronSchedule 60 (js "* * * * *") = some (.ok everyMinute) ∧ 0 ≤ (3600000 : ℤ) ∧
      3600000 ≤ maxTime) ∧ SearchExact everyMinute (js "* * * * *") 3600000 := by
  have hmax : (3600000 : ℤ) ≤ maxTime := by decide
  refine ⟨⟨everyMinute_parsed, by decide, hmax⟩, (cron_search_exact_iff _ _
    ⟨60, everyMinute_parsed⟩ 3600000 (by decide) hmax).mpr ⟨fun s hs => ?_, fun s hs => ?_,
      fun s hs => ?_⟩⟩
  · have hle := hs.2 (⟨by decide +kernel, by decide⟩ : everyMinute.IsSlot 3660000 ∧ _)
    exact ⟨hle.trans (by decide), hle.trans (by decide)⟩
  · have hge := hs.2 (⟨by decide +kernel, by decide⟩ : everyMinute.IsSlot 3600000 ∧ _)
    exact le_trans (by decide) hge
  have hge := hs.2 (⟨by decide +kernel, by decide⟩ : everyMinute.IsSlot 3540000 ∧ _)
  have hlt := hs.1.2
  have hwhole := hs.1.1.1
  refine ⟨?_, le_trans (by decide) hge⟩
  unfold floorMinute
  omega

/-- Half a minute past a slot, the search for the slot strictly before finds the one before it. -/
theorem exclusive_search_skips_slot :
    parseCronSchedule 60 (js "* * * * *") = some (.ok everyMinute) ∧ 0 ≤ (90000 : ℤ) ∧
      90000 ≤ maxTime ∧ ¬ SearchExact everyMinute (js "* * * * *") 90000 := by
  refine ⟨everyMinute_parsed, by decide, by decide, fun h => ?_⟩
  have hparse := parseCronSchedule_settles everyMinute_parsed
  have hexact := previous_exact_iff hparse (t := 90000) (by decide) (by decide) false 89999
    (by decide)
  have hexclusive := h.exclusive
  have hlast : IsGreatest {s | everyMinute.IsSlot s ∧ s ≤ 89999} 60000 := by
    refine ⟨⟨by decide +kernel, by decide⟩, fun s hs => ?_⟩
    have hwhole := hs.1.1
    have hle := hs.2
    omega
  have hlt : ∀ s : ℤ, s < 90000 ↔ s ≤ 89999 := fun s => by omega
  simp only [hlt] at hexclusive
  exact absurd (hexact.mp hexclusive 60000 hlast).1 (by decide)

end ZimaControl
