import Mathlib.Data.Finset.Union
import Mathlib.Order.Interval.Finset.Nat
import ZimaControl.Cron.Parser

/-!
# What the parser makes of an accepted expression

The text of a field denotes a set of values: each atom spans an interval and takes every value of
it, or every `step`-th from its start, and Sunday is both `0` and `7`. The reading of a step is a
parameter, because the validator and the parser read steps differently.

The parser computes the denotation with steps read by `parseInt`, and does not end if one of them is
read as zero (`parseCronField_spec`, `parseCronField_zero`). The validator checked the denotation
with steps read by `Number`. So the parser is exact just where the two readings give the same sets
and no step is read as zero (`parse_exact_iff`).
-/

namespace ZimaControl

open List JsNumber

/-! ## Progressions -/

/-- The numbers `start`, `start + step`, … up to `stop`; for a step of zero, `start` alone. -/
def progression (start stop step : ℕ) : Finset ℕ :=
  (Finset.Icc start stop).filter (step ∣ · - start)

theorem mem_progression {start stop step v : ℕ} :
    v ∈ progression start stop step ↔ (start ≤ v ∧ v ≤ stop) ∧ step ∣ v - start := by
  simp [progression]

variable {start stop step : ℕ}

/-- Behind the end there is nothing. -/
theorem progression_eq_empty (h : stop < start) : progression start stop step = ∅ := by
  simp [progression, Finset.Icc_eq_empty_of_lt h]

/-- A progression is its first value and the progression from the next. -/
theorem progression_eq_insert (h : start ≤ stop) (hstep : 0 < step) :
    progression start stop step = insert start (progression (start + step) stop step) := by
  ext v
  simp only [Finset.mem_insert, mem_progression]
  constructor
  · rintro ⟨⟨hle, hstop⟩, k, hk⟩
    obtain rfl | hpos := Nat.eq_zero_or_pos k
    · left
      omega
    right
    have hge : step ≤ step * k := Nat.le_mul_of_pos_right step hpos
    refine ⟨⟨by omega, hstop⟩, k - 1, ?_⟩
    rw [Nat.mul_sub_one, ← hk]
    omega
  · rintro (rfl | ⟨⟨hle, hstop⟩, k, hk⟩)
    · exact ⟨⟨le_rfl, h⟩, by simp⟩
    · refine ⟨⟨by omega, hstop⟩, k + 1, ?_⟩
      rw [Nat.mul_succ, ← hk]
      omega

/-- A step of zero, or one that leaves the interval, gives the start alone. -/
theorem progression_eq_singleton (h : start ≤ stop) (hstep : step = 0 ∨ stop < start + step) :
    progression start stop step = {start} := by
  obtain rfl | hlt := hstep
  · ext v
    simp only [mem_progression, Finset.mem_singleton, Nat.zero_dvd]
    omega
  · have hpos : 0 < step := by omega
    rw [progression_eq_insert h hpos, progression_eq_empty hlt]
    rfl

/-! ## The denotation of a field -/

/-- The interval that an atom spans and the text of its step, if any. -/
structure AtomReading where
  start : ℕ
  stop : ℕ
  step : Option JsString
  deriving DecidableEq

/-- The two numbers of a range. -/
def rangeEnds (rangePart : JsString) : ℕ × ℕ :=
  match rangePart.splitOn (unit '-') with
  | [start, stop] => (digitsValue 10 start, digitsValue 10 stop)
  | _ => (0, 0)

/-- The reading of an atom of a field with the given bounds. -/
def readAtom (min max : ℕ) (atom : JsString) : AtomReading :=
  if unit '/' ∈ atom then
    match atom.splitOn (unit '/') with
    | rangePart :: stepPart :: _ =>
      if rangePart = js "*" then ⟨min, max, some stepPart⟩
      else ⟨(rangeEnds rangePart).1, (rangeEnds rangePart).2, some stepPart⟩
    | _ => ⟨0, 0, none⟩
  else if unit '-' ∈ atom then ⟨(rangeEnds atom).1, (rangeEnds atom).2, none⟩
  else if atom = js "*" then ⟨min, max, none⟩
  else ⟨digitsValue 10 atom, digitsValue 10 atom, none⟩

/-- The values of an atom whose step is read by `readStep`. -/
def AtomReading.values (readStep : JsString → JsNumber) (atom : AtomReading) : Finset ℕ :=
  progression atom.start atom.stop (match atom.step with
    | none => 1
    | some text => (readStep text).toNat)

variable (column : CronColumn)

namespace CronColumn

/-- Sunday is `0`, also where it is written `7`. -/
def canonical (column : CronColumn) (v : ℕ) : ℕ := if column = dayOfWeek ∧ v = 7 then 0 else v

/-- The atoms of a field. -/
def atoms (column : CronColumn) (field : JsString) : List AtomReading :=
  (field.splitOn (unit ',')).map (readAtom column.min column.max)

/-- The values that a field denotes when steps are read by `readStep`. -/
def Denotes (readStep : JsString → JsNumber) (column : CronColumn) (field : JsString) (v : ℕ) :
    Prop :=
  ∃ atom ∈ column.atoms field, ∃ u ∈ atom.values readStep, v = column.canonical u

/-- Every bound is small. -/
theorem max_le : column.max ≤ 59 := by
  cases column <;> decide

/-- Every field has values. -/
theorem min_le_max : column.min ≤ column.max := by
  cases column <;> decide

end CronColumn

/-- An accepted atom: a non-empty interval within the bounds, and a step that `Number` reads as a
positive whole number within the bounds. -/
structure AtomReading.Accepted (atom : AtomReading) (min max : ℕ) : Prop where
  min_le : min ≤ atom.start
  start_le : atom.start ≤ atom.stop
  le_max : atom.stop ≤ max
  step : ∀ text, atom.step = some text →
    ∃ n : ℕ, 0 < n ∧ n ≤ max ∧ stringToNumber text = .finite n

/-! ## What the validator accepts -/

variable {min max : ℕ}

/-- Digits within small bounds are read as the number they write. -/
theorem withinBounds_digits {s : JsString} (hmax : max < 2 ^ 53) (hs : isDigits s = true)
    (h : withinBounds (stringToNumber s) min max = true) :
    stringToNumber s = .finite (digitsValue 10 s) ∧ min ≤ digitsValue 10 s ∧
      digitsValue 10 s ≤ max := by
  rw [stringToNumber_of_digits hs] at h ⊢
  simp only [withinBounds, Bool.and_eq_true] at h
  obtain ⟨⟨-, hmin⟩, hle⟩ := h
  have hsmall : digitsValue 10 s < 2 ^ 53 := by
    by_contra hbig
    have hreach : JsNumber.NatLe (max + 1) (.ofNat (digitsValue 10 s)) :=
      natLe_ofNat hmax (by omega)
    rw [le_eq_false_of_natLe hreach] at hle
    cases hle
  rw [ofNat_of_lt hsmall] at hmin hle ⊢
  rw [le_finite_natCast, decide_eq_true_eq] at hmin hle
  exact ⟨rfl, hmin, hle⟩

/-- An accepted range, as numbers and as the numbers it writes. -/
theorem validateRange_spec {rangeStr : JsString} (hmax : max < 2 ^ 53)
    (h : validateRange rangeStr min max = true) :
    rangeNumbers rangeStr max = (.finite (rangeEnds rangeStr).1, .finite (rangeEnds rangeStr).2) ∧
      min ≤ (rangeEnds rangeStr).1 ∧ (rangeEnds rangeStr).1 ≤ (rangeEnds rangeStr).2 ∧
      (rangeEnds rangeStr).2 ≤ max := by
  unfold validateRange at h
  split at h
  next startStr endStr hsplit =>
    split_ifs at h with hdigits
    simp only [not_or, Bool.not_eq_false] at hdigits
    simp only [Bool.and_eq_true] at h
    obtain ⟨⟨hstart, hstop⟩, hle⟩ := h
    obtain ⟨hsv, hsmin, -⟩ := withinBounds_digits hmax hdigits.1 hstart
    obtain ⟨hev, -, hemax⟩ := withinBounds_digits hmax hdigits.2 hstop
    rw [hsv, hev, le_finite_natCast, decide_eq_true_eq] at hle
    simp only [rangeNumbers, rangeEnds, hsplit, map_cons, map_nil, hsv, hev]
    exact ⟨trivial, hsmin, hle, hemax⟩
  next => cases h

variable {step : JsNumber}

/-- A step that the validator lets pass is a positive whole number within the bounds. -/
theorem natural_of_step {max : ℕ}
    (h : ¬ (step.isInteger = false ∨ step.le (.finite 0) ∨ ¬ step.le (.finite max))) :
    ∃ n : ℕ, 0 < n ∧ n ≤ max ∧ step = .finite n := by
  simp only [not_or, Bool.not_eq_false, Bool.not_eq_true] at h
  obtain ⟨hint, hpos, hle⟩ := h
  cases step with
  | nan => cases hint
  | infinity negative => cases hint
  | finite value =>
    simp only [isInteger, decide_eq_true_eq] at hint
    simp only [le, decide_eq_false_iff_not, not_le, decide_eq_true_eq] at hpos hle
    have hnum : (value.num : ℚ) = value := by
      rw [← Rat.num_div_den value, hint]
      simp
    have hnumpos : 0 < value.num := Rat.num_pos.mpr hpos
    have hcast : ((value.num.toNat : ℕ) : ℚ) = value := by
      rw [← hnum]
      exact_mod_cast Int.toNat_of_nonneg hnumpos.le
    refine ⟨value.num.toNat, by omega, ?_, by rw [hcast]⟩
    rw [← hcast] at hle
    exact_mod_cast hle

variable {field : JsString} {part : JsString} {set : List JsNumber}

/-- The parts of an accepted field are `*` or accepted atoms. -/
theorem validateCronField_parts (h : validateCronField field min max = true)
    (hpart : part ∈ field.splitOn (unit ',')) :
    part = js "*" ∨ validateCronAtom part min max = true := by
  unfold validateCronField at h
  dsimp only at h
  split_ifs at h with hstar hempty
  · left
    rw [hstar] at hpart
    have hsplit : (js "*").splitOn (unit ',') = [js "*"] := by decide
    rw [hsplit, mem_singleton] at hpart
    exact hpart
  · exact .inr (all_eq_true.mp h part hpart)

/-! ## The loops of the parser -/

theorem mem_setAdd {value x : JsNumber} : x ∈ setAdd set value ↔ x ∈ set ∨ x = value := by
  unfold setAdd
  split_ifs with h
  · exact ⟨.inl, fun hx => hx.elim id fun heq => heq ▸ h⟩
  · simp

variable {isDayOfWeek : Bool}

/-- The result of a loop: what was there, and the values of a set. -/
def Adds (isDayOfWeek : Bool) (values : Finset ℕ) (result result' : List JsNumber) : Prop :=
  ∀ x, x ∈ result' ↔ x ∈ result ∨ ∃ v ∈ values, x = dayOfWeekValue isDayOfWeek (.finite v)

/-- A loop with a positive whole step adds the progression. -/
theorem addSteps_counting {stop step : ℕ} (hstop : stop < 2 ^ 52) (hpos : 0 < step)
    (hstep : step < 2 ^ 52) (rounds : ℕ) {start : ℕ} (hrounds : stop + 1 ≤ start + rounds)
    (hstart : start < 2 ^ 53) (result : List JsNumber) :
    ∃ result', addSteps isDayOfWeek (.finite stop) (.finite step) rounds (.finite start) result =
      some result' ∧ Adds isDayOfWeek (progression start stop step) result result' := by
  -- Each round moves the start on by at least one, so the rounds suffice.
  induction rounds generalizing start result with
  | zero =>
    have hgt : stop < start := by omega
    refine ⟨result, ?_, ?_⟩
    · rw [addSteps, le_finite_natCast, if_neg (by simpa using hgt)]
    · rw [progression_eq_empty hgt]
      simp [Adds]
  | succ rounds ih =>
    rw [addSteps, le_finite_natCast]
    by_cases hle : start ≤ stop
    · rw [if_pos (by simpa using hle), add_finite_natCast (by omega)]
      obtain ⟨result', hrun, hadds⟩ := @ih (start + step) (by omega) (by omega)
        (setAdd result (dayOfWeekValue isDayOfWeek (.finite start)))
      refine ⟨result', hrun, fun x => ?_⟩
      rw [hadds, mem_setAdd, progression_eq_insert hle hpos]
      simp [Finset.mem_insert, exists_eq_or_imp, or_assoc]
    · have hgt : stop < start := by omega
      refine ⟨result, by rw [if_neg (by simpa using hgt)], ?_⟩
      rw [progression_eq_empty hgt]
      simp [Adds]

variable {rounds : ℕ} {start stop : ℕ}

/-- A loop whose first step leaves the interval adds its start. -/
theorem addSteps_once (hle : start ≤ stop)
    (hleaves : (add (.finite start) step).le (.finite stop) = false) (hrounds : 0 < rounds)
    (result : List JsNumber) :
    ∃ result', addSteps isDayOfWeek (.finite stop) step rounds (.finite start) result =
      some result' ∧ Adds isDayOfWeek {start} result result' := by
  obtain ⟨rounds, rfl⟩ : ∃ n, rounds = n + 1 := ⟨rounds - 1, by omega⟩
  refine ⟨setAdd result (dayOfWeekValue isDayOfWeek (.finite start)), ?_, fun x => ?_⟩
  · rw [addSteps, le_finite_natCast, if_pos (by simpa using hle)]
    cases rounds with
    | zero => rw [addSteps, hleaves, if_neg (by decide)]
    | succ rounds => rw [addSteps, hleaves, if_neg (by decide)]
  · simp [mem_setAdd]

/-- A loop with step zero does not end. -/
theorem addSteps_zero (hle : start ≤ stop) (hstart : start < 2 ^ 53) (rounds : ℕ)
    (result : List JsNumber) :
    addSteps isDayOfWeek (.finite stop) (.finite 0) rounds (.finite start) result = none := by
  have hadd : add (.finite start) (.finite 0) = .finite start := by
    have := add_finite_natCast (m := start) (n := 0) (by omega)
    simpa using this
  induction rounds generalizing result with
  | zero => rw [addSteps, le_finite_natCast, if_pos (by simpa using hle)]
  | succ rounds ih =>
    rw [addSteps, le_finite_natCast, if_pos (by simpa using hle), hadd]
    exact ih _

/-- A loop over an accepted interval with a step that `parseInt` reads as nonzero. -/
theorem addSteps_spec (hle : start ≤ stop) (hstop : stop < 2 ^ 52)
    (hread : step = .nan ∨ ∃ n, step = .ofNat n) (hzero : step ≠ .finite 0)
    (hrounds : stop < rounds) (result : List JsNumber) :
    ∃ result', addSteps isDayOfWeek (.finite stop) step rounds (.finite start) result =
      some result' ∧ Adds isDayOfWeek (progression start stop step.toNat) result result' := by
  rcases hread with rfl | ⟨n, rfl⟩
  · have hsingle : progression start stop nan.toNat = {start} :=
      progression_eq_singleton hle (.inl rfl)
    rw [hsingle]
    exact addSteps_once hle rfl (by omega) result
  by_cases hn : n ≤ stop
  · -- The step is small, and the loop counts with it.
    have hofNat : ofNat n = .finite n := ofNat_of_lt (by omega)
    have hpos : 0 < n := by
      rw [Nat.pos_iff_ne_zero]
      rintro rfl
      exact hzero (by rw [hofNat]; simp)
    rw [hofNat, toNat_finite_natCast]
    exact addSteps_counting hstop hpos (by omega) rounds (by omega) (by omega) result
  · -- The step is beyond the interval, whatever its rounding.
    have hreach : JsNumber.NatLe (stop + 1) (.ofNat n) :=
      natLe_ofNat (by omega) (by omega)
    have hleaves := le_eq_false_of_natLe
      (natLe_add (m := start) (by omega) (by omega) hreach)
    have hsingle : progression start stop (ofNat n).toNat = {start} := by
      refine progression_eq_singleton hle ?_
      cases hvalue : ofNat n with
      | nan => exact .inl rfl
      | infinity negative => exact .inl rfl
      | finite value =>
        rw [hvalue] at hreach
        have := le_toNat_of_natLe hreach
        exact .inr (by omega)
    rw [hsingle]
    exact addSteps_once hle hleaves (by omega) result

/-! ## Parts and fields -/

/-- The step of an atom as the parser reads it. -/
def AtomReading.parsedStep (atom : AtomReading) : JsNumber :=
  match atom.step with
  | none => .finite 1
  | some text => parseInt10 text

/-- An accepted part is read within the bounds, and parsed by the loop over its interval. -/
theorem accepted_part (hmax : max < 2 ^ 52) (hminmax : min ≤ max)
    (h : part = js "*" ∨ validateCronAtom part min max = true) :
    (readAtom min max part).Accepted min max ∧
      ∀ isDayOfWeek rounds result, ((readAtom min max part).step = none → 0 < rounds) →
        parseCronPart rounds min max isDayOfWeek result part =
          addSteps isDayOfWeek (.finite (readAtom min max part).stop)
            (readAtom min max part).parsedStep rounds (.finite (readAtom min max part).start)
            result := by
  rcases h with rfl | h
  · rw [readAtom, if_neg (by decide), if_neg (by decide), if_pos rfl]
    refine ⟨⟨le_rfl, hminmax, le_rfl, fun text htext => by cases htext⟩, fun _ rounds result _ => ?_⟩
    rw [parseCronPart, if_neg (by decide), if_neg (by decide), if_pos rfl]
    rfl
  unfold validateCronAtom at h
  rw [readAtom]
  unfold parseCronPart
  by_cases hslash : unit '/' ∈ part
  · rw [if_pos hslash] at h ⊢
    simp only [if_pos hslash]
    generalize part.splitOn (unit '/') = parts at h ⊢
    obtain _ | ⟨rangePart, _ | ⟨stepPart, rest⟩⟩ := parts
    · cases h
    · cases h
    · dsimp only at h ⊢
      split_ifs at h with hempty hstep hwild
      · rw [if_pos hwild]
        refine ⟨⟨le_rfl, hminmax, le_rfl, fun text htext => ?_⟩, fun _ rounds result _ => ?_⟩
        · cases htext
          exact natural_of_step hstep
        · rw [if_neg (by simpa using hwild)]
          rfl
      · obtain ⟨hnumbers, hmin, hle, hmax'⟩ := validateRange_spec (by omega) h
        rw [if_neg hwild]
        refine ⟨⟨hmin, hle, hmax', fun text htext => ?_⟩, fun _ rounds result _ => ?_⟩
        · cases htext
          exact natural_of_step hstep
        · rw [if_pos hwild, hnumbers]
          rfl
  · rw [if_neg hslash] at h ⊢
    simp only [if_neg hslash]
    split_ifs at h with hdash hdigits
    · obtain ⟨hnumbers, hmin, hle, hmax'⟩ := validateRange_spec (by omega) h
      simp only [if_pos hdash, hnumbers]
      exact ⟨⟨hmin, hle, hmax', fun text htext => by cases htext⟩, fun _ _ _ _ => rfl⟩
    have hstar : part ≠ js "*" := by
      rintro rfl
      exact absurd hdigits (by decide)
    obtain ⟨hvalue, hmin, hle⟩ := withinBounds_digits (by omega) hdigits h
    simp only [if_neg hdash, if_neg hstar, hvalue]
    refine ⟨⟨hmin, le_rfl, hle, fun text htext => by cases htext⟩,
      fun _ rounds result hrounds => ?_⟩
    have hpos : 0 < rounds := by simpa using hrounds
    obtain ⟨rounds, rfl⟩ : ∃ n, rounds = n + 1 := ⟨rounds - 1, by omega⟩
    -- A single number is a loop of one round.
    have hleaves : (add (.finite (digitsValue 10 part)) (.finite 1)).le
        (.finite (digitsValue 10 part)) = false := by
      have hadd := add_finite_natCast (m := digitsValue 10 part) (n := 1) (by omega)
      rw [Nat.cast_one] at hadd
      rw [hadd, le_finite_natCast]
      simp
    simp only [AtomReading.parsedStep, addSteps, le_finite_natCast, le_refl, decide_true,
      if_true]
    cases rounds <;> simp [addSteps, hleaves]

/-- The values of an atom as the parser computes them. -/
theorem AtomReading.values_parseInt10 (atom : AtomReading) :
    atom.values parseInt10 = progression atom.start atom.stop atom.parsedStep.toNat := by
  unfold AtomReading.values AtomReading.parsedStep
  cases atom.step with
  | none =>
    have hone : (finite 1).toNat = 1 := by exact_mod_cast toNat_finite_natCast 1
    rw [hone]
  | some text => rfl

/-- An accepted part with a step other than zero adds its values. -/
theorem parseCronPart_spec (hmax : max < 2 ^ 52) (hminmax : min ≤ max)
    (h : part = js "*" ∨ validateCronAtom part min max = true)
    (hzero : (readAtom min max part).parsedStep ≠ .finite 0) (hrounds : max < rounds)
    (result : List JsNumber) :
    ∃ result', parseCronPart rounds min max isDayOfWeek result part = some result' ∧
      Adds isDayOfWeek ((readAtom min max part).values parseInt10) result result' := by
  obtain ⟨hacc, hloop⟩ := accepted_part hmax hminmax h
  have hle_max := hacc.le_max
  rw [hloop _ _ _ fun _ => by omega, AtomReading.values_parseInt10]
  refine addSteps_spec hacc.start_le (by omega) ?_ hzero (by omega) result
  -- A step that `Number` reads as positive has no sign, so `parseInt` reads no negative number.
  unfold AtomReading.parsedStep
  cases hstep : (readAtom min max part).step with
  | none => exact .inr ⟨1, by rw [ofNat_of_lt (by norm_num), Nat.cast_one]⟩
  | some text =>
    obtain ⟨n, hpos, -, hnumber⟩ := hacc.step text hstep
    exact parseInt10_of_pos hnumber (by exact_mod_cast hpos)

variable (isDayOfWeek) in
/-- The loop over the parts of a field. -/
theorem parseCronParts_spec (hmax : max < 2 ^ 52) (hminmax : min ≤ max) (hrounds : max < rounds)
    (parts : List JsString)
    (h : ∀ part ∈ parts, part = js "*" ∨ validateCronAtom part min max = true)
    (hzero : ∀ part ∈ parts, (readAtom min max part).parsedStep ≠ .finite 0)
    (result : List JsNumber) :
    ∃ result', parts.foldlM (parseCronPart rounds min max isDayOfWeek) result = some result' ∧
      ∀ x, x ∈ result' ↔ x ∈ result ∨ ∃ part ∈ parts,
        ∃ v ∈ (readAtom min max part).values parseInt10,
          x = dayOfWeekValue isDayOfWeek (.finite v) := by
  induction parts generalizing result with
  | nil => exact ⟨result, rfl, by simp⟩
  | cons part parts ih =>
    simp only [mem_cons, forall_eq_or_imp] at h hzero
    obtain ⟨next, hpart, hadds⟩ : ∃ next,
        parseCronPart rounds min max isDayOfWeek result part = some next ∧
          Adds isDayOfWeek ((readAtom min max part).values parseInt10) result next :=
      parseCronPart_spec hmax hminmax h.1 hzero.1 hrounds result
    obtain ⟨result', hrest, hmem⟩ := ih h.2 hzero.2 next
    refine ⟨result', by simp [foldlM_cons, hpart, hrest], fun x => ?_⟩
    rw [hmem, hadds]
    simp [exists_eq_or_imp, or_assoc]

/-- A part whose step is read as zero ends no loop over parts. -/
theorem parseCronParts_zero (hmax : max < 2 ^ 52) (hminmax : min ≤ max) (rounds : ℕ)
    (parts : List JsString)
    (h : ∀ part ∈ parts, part = js "*" ∨ validateCronAtom part min max = true)
    (hzero : ∃ part ∈ parts, (readAtom min max part).parsedStep = .finite 0)
    (result : List JsNumber) :
    parts.foldlM (parseCronPart rounds min max isDayOfWeek) result = none := by
  induction parts generalizing result with
  | nil => simp at hzero
  | cons part parts ih =>
    simp only [mem_cons, forall_eq_or_imp, exists_eq_or_imp] at h hzero
    rw [foldlM_cons]
    rcases hzero with hzero | hzero
    · obtain ⟨hacc, hloop⟩ := accepted_part hmax hminmax h.1
      have hstart := hacc.start_le
      have hstop := hacc.le_max
      have hpart : parseCronPart rounds min max isDayOfWeek result part = none := by
        rw [hloop, hzero, addSteps_zero hstart (by omega)]
        intro hnone
        rw [AtomReading.parsedStep, hnone] at hzero
        cases hzero
      rw [hpart]
      rfl
    · cases parseCronPart rounds min max isDayOfWeek result part with
      | none => rfl
      | some next => exact ih h.2 hzero next

/-- Sunday as the parser writes it. -/
theorem dayOfWeekValue_finite (v : ℕ) :
    dayOfWeekValue (column = .dayOfWeek) (.finite v) = .finite (column.canonical v) := by
  unfold dayOfWeekValue CronColumn.canonical
  by_cases hcolumn : column = .dayOfWeek
  · by_cases hv : v = 7
    · simp [hcolumn, hv]
    · have hne : (v : ℚ) ≠ 7 := by exact_mod_cast hv
      simp [hcolumn, hv, hne]
  · simp [hcolumn]

/-- The field of a column, with its bounds. -/
def parseColumn (rounds : ℕ) (column : CronColumn) (field : JsString) : Option (List JsNumber) :=
  parseCronField rounds field column.min column.max (column = .dayOfWeek)

variable {column : CronColumn}

/-- An accepted field without a step read as zero is parsed to its denotation. -/
theorem parseCronField_spec (h : validateCronField field column.min column.max = true)
    (hzero : ∀ atom ∈ column.atoms field, atom.parsedStep ≠ .finite 0) (hrounds : 60 ≤ rounds) :
    ∃ set, parseColumn rounds column field = some set ∧
      ∀ x, x ∈ set ↔ ∃ v, column.Denotes parseInt10 field v ∧ x = .finite v := by
  have hmax := column.max_le
  obtain ⟨set, hset, hmem⟩ := parseCronParts_spec (column = .dayOfWeek)
    (by omega : column.max < 2 ^ 52) column.min_le_max (by omega : column.max < rounds)
    (field.splitOn (unit ',')) (fun part hpart => validateCronField_parts h hpart)
    (fun part hpart => hzero _ (mem_map_of_mem hpart)) []
  refine ⟨set, hset, fun x => ?_⟩
  rw [hmem]
  simp only [not_mem_nil, false_or, CronColumn.Denotes, CronColumn.atoms, mem_map,
    exists_exists_and_eq_and, dayOfWeekValue_finite]
  constructor
  · rintro ⟨part, hpart, v, hv, rfl⟩
    exact ⟨_, ⟨part, hpart, v, hv, rfl⟩, rfl⟩
  · rintro ⟨_, ⟨part, hpart, v, hv, rfl⟩, rfl⟩
    exact ⟨part, hpart, v, hv, rfl⟩

variable {atom : AtomReading}

/-- An accepted field with a step read as zero is never parsed. -/
theorem parseCronField_zero (h : validateCronField field column.min column.max = true)
    (hatom : atom ∈ column.atoms field) (hzero : atom.parsedStep = .finite 0) (rounds : ℕ) :
    parseColumn rounds column field = none := by
  have hmax := column.max_le
  obtain ⟨part, hpart, rfl⟩ := mem_map.mp hatom
  exact parseCronParts_zero (by omega) column.min_le_max rounds _
    (fun part hpart => validateCronField_parts h hpart) ⟨part, hpart, hzero⟩ []

/-! ## More rounds -/

variable {rounds rounds' : ℕ} {result set : List JsNumber}

/-- More rounds do not change the result of a loop. -/
theorem addSteps_mono {stop step : JsNumber} (hle : rounds ≤ rounds') {i : JsNumber}
    (h : addSteps isDayOfWeek stop step rounds i result = some set) :
    addSteps isDayOfWeek stop step rounds' i result = some set := by
  induction rounds generalizing rounds' i result with
  | zero =>
    rw [addSteps] at h
    split_ifs at h with hstop
    cases rounds' with
    | zero => rw [addSteps, if_neg hstop, h]
    | succ rounds' => rw [addSteps, if_neg hstop, h]
  | succ rounds ih =>
    obtain ⟨more, rfl⟩ : ∃ n, rounds' = n + 1 := ⟨rounds' - 1, by omega⟩
    rw [addSteps] at h ⊢
    split_ifs at h ⊢ with hstop
    · exact ih (by omega) h
    · exact h

/-- More rounds do not change what a part adds. -/
theorem parseCronPart_mono {min max rounds rounds' : ℕ} (hle : rounds ≤ rounds')
    (h : parseCronPart rounds min max isDayOfWeek result part = some set) :
    parseCronPart rounds' min max isDayOfWeek result part = some set := by
  unfold parseCronPart at h ⊢
  by_cases hslash : unit '/' ∈ part
  · rw [if_pos hslash] at h ⊢
    split at h
    next => exact addSteps_mono hle h
    next => exact h
  · rw [if_neg hslash] at h ⊢
    split_ifs at h ⊢ with hdash hstar
    · exact addSteps_mono hle h
    · exact addSteps_mono hle h
    · exact h

/-- More rounds do not change the set of a field. -/
theorem parseColumn_mono (hle : rounds ≤ rounds') (h : parseColumn rounds column field = some set) :
    parseColumn rounds' column field = some set := by
  unfold parseColumn parseCronField at h ⊢
  generalize field.splitOn (unit ',') = parts at h ⊢
  generalize ([] : List JsNumber) = result at h ⊢
  induction parts generalizing result with
  | nil => exact h
  | cons part parts ih =>
    rw [foldlM_cons, Option.bind_eq_bind, Option.bind_eq_some_iff] at h ⊢
    obtain ⟨next, hpart, hrest⟩ := h
    exact ⟨next, parseCronPart_mono hle hpart, ih next hrest⟩

/-! ## Schedules -/

variable {expression : JsString} {schedule : ParsedCronSchedule}

/-- A schedule parsed from an accepted expression, field by field. -/
theorem parseCronSchedule_eq_ok (hvalid : validateCronExpression expression = true) :
    parseCronSchedule rounds expression = some (.ok schedule) ↔
      (∀ column, parseColumn rounds column (cronField expression column) =
        some (schedule.set column)) ∧
      schedule.isDayOfMonthWildcard = (cronField expression .dayOfMonth = js "*" : Bool) ∧
      schedule.isDayOfWeekWildcard = (cronField expression .dayOfWeek = js "*" : Bool) := by
  -- each of the five columns is parsed on its own
  rw [parseCronSchedule, if_neg (by simp [hvalid])]
  simp only [Option.bind_eq_bind, Option.bind_eq_some_iff, Option.pure_def, Option.some.injEq,
    Except.ok.injEq]
  constructor
  · rintro ⟨minutes, hminute, hours, hhour, days, hdom, months, hmonth, week, hdow, rfl⟩
    refine ⟨fun column => ?_, rfl, rfl⟩
    cases column with
    | minute => exact hminute
    | hour => exact hhour
    | dayOfMonth => exact hdom
    | month => exact hmonth
    | dayOfWeek => exact hdow
  · rintro ⟨hcolumns, hdomWild, hdowWild⟩
    refine ⟨_, hcolumns .minute, _, hcolumns .hour, _, hcolumns .dayOfMonth, _, hcolumns .month, _,
      hcolumns .dayOfWeek, ?_⟩
    rw [← hdomWild, ← hdowWild]
    rfl

/-- An accepted expression names accepted fields. -/
theorem validateCronExpression_field (hvalid : validateCronExpression expression = true)
    (column : CronColumn) :
    validateCronField (cronField expression column) column.min column.max = true := by
  unfold validateCronExpression at hvalid
  dsimp only at hvalid
  split_ifs at hvalid with hempty hcontrol hlength
  have hmem : column ∈ CronColumn.all := by cases column <;> decide
  exact all_eq_true.mp hvalid column hmem

/-- More rounds do not change a parsed schedule. -/
theorem parseCronSchedule_mono (hle : rounds ≤ rounds')
    (hvalid : validateCronExpression expression = true)
    (h : parseCronSchedule rounds expression = some (.ok schedule)) :
    parseCronSchedule rounds' expression = some (.ok schedule) := by
  rw [parseCronSchedule_eq_ok hvalid] at h ⊢
  exact ⟨fun column => parseColumn_mono hle (h.1 column), h.2⟩

/-- The schedule of an accepted expression without a step read as zero. -/
theorem parseCronSchedule_spec (hvalid : validateCronExpression expression = true)
    (hzero : ∀ (column : CronColumn), ∀ atom ∈ column.atoms (cronField expression column),
      atom.parsedStep ≠ .finite 0) :
    ∃ schedule, (∀ rounds, 60 ≤ rounds →
      parseCronSchedule rounds expression = some (.ok schedule)) ∧
      ∀ (column : CronColumn) x, x ∈ schedule.set column ↔
        ∃ v, column.Denotes parseInt10 (cronField expression column) v ∧ x = .finite v := by
  have hspec := fun column : CronColumn =>
    parseCronField_spec (validateCronExpression_field hvalid column) (hzero column) le_rfl
  choose set hset hmem using hspec
  let schedule : ParsedCronSchedule :=
    { minutes := set .minute, hours := set .hour, daysOfMonth := set .dayOfMonth
      months := set .month, daysOfWeek := set .dayOfWeek
      isDayOfMonthWildcard := cronField expression .dayOfMonth = js "*"
      isDayOfWeekWildcard := cronField expression .dayOfWeek = js "*" }
  have heq : ∀ column, schedule.set column = set column := by
    intro column
    cases column <;> rfl
  refine ⟨schedule, fun rounds hrounds => ?_, fun column x => by rw [heq]; exact hmem column x⟩
  rw [parseCronSchedule_eq_ok hvalid]
  refine ⟨fun column => ?_, rfl, rfl⟩
  rw [heq]
  exact parseColumn_mono hrounds (hset column)

/-! ## When the parser is exact -/

/-- The schedule is what the expression denotes with the steps that the validator checked, and each
of its sets is non-empty and within the bounds of its field. -/
def ParsedCronSchedule.Exact (schedule : ParsedCronSchedule) (expression : JsString) : Prop :=
  ∀ column : CronColumn,
    (∀ x, x ∈ schedule.set column ↔
      ∃ v, column.Denotes stringToNumber (cronField expression column) v ∧ x = .finite v) ∧
    schedule.set column ≠ [] ∧
    ∀ x ∈ schedule.set column, ∃ v : ℕ, x = .finite v ∧ column.min ≤ v ∧ v ≤ column.max

/-- No step is read by `parseInt` as zero, and `parseInt` and `Number` give each field the same
values. -/
def StepsAgree (expression : JsString) : Prop :=
  ∀ column : CronColumn,
    (∀ atom ∈ column.atoms (cronField expression column), ∀ text, atom.step = some text →
      parseInt10 text ≠ .finite 0) ∧
    ∀ v, column.Denotes parseInt10 (cronField expression column) v ↔
      column.Denotes stringToNumber (cronField expression column) v

section

variable (h : validateCronField field column.min column.max = true)
include h

/-- The values of an accepted field are within its bounds. -/
theorem CronColumn.Denotes.bounds {readStep : JsString → JsNumber} {v : ℕ}
    (hv : column.Denotes readStep field v) : column.min ≤ v ∧ v ≤ column.max := by
  obtain ⟨atom, hatom, u, hu, rfl⟩ := hv
  obtain ⟨part, hpart, rfl⟩ := mem_map.mp hatom
  have hmax := column.max_le
  have hacc := (accepted_part (by omega) column.min_le_max (validateCronField_parts h hpart)).1
  obtain ⟨⟨hstart, hstop⟩, -⟩ := mem_progression.mp hu
  have hmin_le := hacc.min_le
  have hle_max := hacc.le_max
  unfold canonical
  split_ifs with hsunday
  · rw [hsunday.1]
    decide
  · omega

/-- An accepted field has a value. -/
theorem CronColumn.exists_denotes (readStep : JsString → JsNumber) :
    ∃ v, column.Denotes readStep field v := by
  obtain ⟨part, parts, hparts⟩ :=
    exists_cons_of_ne_nil (splitOn_ne_nil (unit ',') field)
  have hpart : part ∈ field.splitOn (unit ',') := by
    rw [hparts]
    exact mem_cons_self
  have hmax := column.max_le
  have hacc := (accepted_part (by omega) column.min_le_max (validateCronField_parts h hpart)).1
  refine ⟨_, _, mem_map_of_mem hpart, (readAtom column.min column.max part).start, ?_, rfl⟩
  exact mem_progression.mpr ⟨⟨le_rfl, hacc.start_le⟩, by simp⟩

end

/-- The step of an atom is read as zero only if its text is. -/
theorem AtomReading.parsedStep_ne_zero
    (h : ∀ text, atom.step = some text → parseInt10 text ≠ .finite 0) :
    atom.parsedStep ≠ .finite 0 := by
  unfold AtomReading.parsedStep
  cases hstep : atom.step with
  | none => simp
  | some text => exact h text hstep

/-- Steps written in plain digits are read alike. -/
theorem stepsAgree_of_digits (hvalid : validateCronExpression expression = true)
    (h : ∀ (column : CronColumn), ∀ atom ∈ column.atoms (cronField expression column),
      ∀ text ∈ atom.step, isDigits text = true) : StepsAgree expression := by
  intro column
  have hmax := column.max_le
  have hread : ∀ atom ∈ column.atoms (cronField expression column), ∀ text,
      atom.step = some text → parseInt10 text = stringToNumber text := by
    intro atom hatom text htext
    have hdigits := h column atom hatom text htext
    rw [parseInt10_of_digits hdigits, stringToNumber_of_digits hdigits]
  constructor
  · intro atom hatom text htext hzero
    have hnumber := (hread atom hatom text htext).symm.trans hzero
    obtain ⟨part, hpart, rfl⟩ := mem_map.mp hatom
    have hacc := (accepted_part (by omega) column.min_le_max
      (validateCronField_parts (validateCronExpression_field hvalid column) hpart)).1
    obtain ⟨n, hpos, -, hn⟩ := hacc.step text htext
    rw [hn, finite.injEq, Nat.cast_eq_zero] at hnumber
    omega
  · intro v
    have hvalues : ∀ atom ∈ column.atoms (cronField expression column),
        atom.values parseInt10 = atom.values stringToNumber := by
      intro atom hatom
      unfold AtomReading.values
      cases hstep : atom.step with
      | none => rfl
      | some text => simp [hread atom hatom text hstep]
    exact exists_congr fun atom => and_congr_right fun hatom => by rw [hvalues atom hatom]

/-- An accepted expression is parsed in finitely many steps and to exactly the sets that its text
denotes if and only if the two readings of its steps agree. -/
theorem parse_exact_iff (expression : JsString)
    (hvalid : validateCronExpression expression = true) :
    (∃ rounds schedule, parseCronSchedule rounds expression = some (.ok schedule) ∧
      schedule.Exact expression) ↔ StepsAgree expression := by
  have hfield := validateCronExpression_field hvalid
  constructor
  · rintro ⟨rounds, schedule, hparse, hexact⟩
    -- Had a step been read as zero, its field would not have been parsed.
    have hsteps : ∀ (column : CronColumn), ∀ atom ∈ column.atoms (cronField expression column),
        atom.parsedStep ≠ .finite 0 := by
      intro column atom hatom hzero
      have hnone := parseCronField_zero (hfield column) hatom hzero rounds
      rw [((parseCronSchedule_eq_ok hvalid).mp hparse).1 column] at hnone
      cases hnone
    obtain ⟨schedule', hparse', hmem⟩ := parseCronSchedule_spec hvalid hsteps
    have hmore := parseCronSchedule_mono (Nat.le_add_right rounds 60) hvalid hparse
    rw [hparse' _ (Nat.le_add_left 60 rounds)] at hmore
    obtain rfl : schedule' = schedule := by simpa using hmore
    refine fun column => ⟨fun atom hatom text htext hzero => hsteps column atom hatom ?_,
      fun v => ?_⟩
    · rw [AtomReading.parsedStep, htext]
      exact hzero
    · have hboth := (hmem column (.finite v)).symm.trans ((hexact column).1 (.finite v))
      simpa using hboth
  · intro hagree
    obtain ⟨schedule, hparse, hmem⟩ := parseCronSchedule_spec hvalid fun column atom hatom =>
      AtomReading.parsedStep_ne_zero ((hagree column).1 atom hatom)
    refine ⟨60, schedule, hparse 60 le_rfl, fun column => ⟨fun x => ?_, ?_, fun x hx => ?_⟩⟩
    · rw [hmem]
      simp [(hagree column).2]
    · obtain ⟨v, hv⟩ := CronColumn.exists_denotes (hfield column) parseInt10
      exact ne_nil_of_mem ((hmem column (.finite v)).mpr ⟨v, hv, rfl⟩)
    · obtain ⟨v, hv, rfl⟩ := (hmem column x).mp hx
      exact ⟨v, rfl, hv.bounds (hfield column)⟩

/-- A quarter-hourly schedule on working days is parsed exactly. -/
theorem parse_exact_iff_workingDays :
    validateCronExpression (js "*/15 8-18 * * 1-5") = true ∧
      ∃ rounds schedule, parseCronSchedule rounds (js "*/15 8-18 * * 1-5") = some (.ok schedule) ∧
        schedule.Exact (js "*/15 8-18 * * 1-5") := by
  have hvalid : validateCronExpression (js "*/15 8-18 * * 1-5") = true := by decide +kernel
  refine ⟨hvalid, (parse_exact_iff _ hvalid).mpr (stepsAgree_of_digits hvalid ?_)⟩
  intro column
  cases column <;> decide +kernel

/-- The step `0x10` is sixteen to the validator and zero to the parser, which does not end. -/
theorem hexadecimal_step_never_parsed :
    validateCronExpression (js "*/0x10 * * * *") = true ∧
      ¬ ∃ rounds schedule, parseCronSchedule rounds (js "*/0x10 * * * *") = some (.ok schedule) ∧
        schedule.Exact (js "*/0x10 * * * *") := by
  have hvalid : validateCronExpression (js "*/0x10 * * * *") = true := by decide +kernel
  refine ⟨hvalid, ?_⟩
  rintro ⟨rounds, schedule, hparse, -⟩
  have hatom : (⟨0, 59, some (js "0x10")⟩ : AtomReading) ∈
      CronColumn.minute.atoms (cronField (js "*/0x10 * * * *") .minute) := by
    have hatoms : CronColumn.minute.atoms (cronField (js "*/0x10 * * * *") .minute) =
        [⟨0, 59, some (js "0x10")⟩] := by decide +kernel
    rw [hatoms]
    exact mem_singleton.mpr rfl
  have hnone := parseCronField_zero (validateCronExpression_field hvalid .minute) hatom
    (by decide +kernel) rounds
  rw [((parseCronSchedule_eq_ok hvalid).mp hparse).1 .minute] at hnone
  cases hnone

end ZimaControl
