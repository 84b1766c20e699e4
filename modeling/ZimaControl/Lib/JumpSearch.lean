import Mathlib.Algebra.Order.Group.Int
import ZimaControl.Lib.Rounds

/-!
# Searching by jumps

A search moves a cursor through an ordered set in one direction, inside a horizon. At each place a
probe says that the place is one of those sought, or where to go on. If no jump passes over a place
that is sought, the search finds the first of them within the horizon, and ends without a result
just if there is none.

The direction is that of a position `pos` which every jump increases.
-/

namespace ZimaControl

universe u

variable {α : Type u}

/-- What a probe says: the place is sought, or the next place to look at, if any. -/
inductive Probe (α : Type u)
  | found
  | jump (next : Option α)

/-- The search, with so many rounds at most: `some (some place)` when it finds one, `some none` when
it leaves the horizon. -/
def jumpSearch (probe : α → Probe α) (inside : α → Bool) : ℕ → Option α → Option (Option α)
  | _, none => some none
  | 0, some cursor => if inside cursor then none else some none
  | rounds + 1, some cursor =>
    if inside cursor then
      match probe cursor with
      | .found => some (some cursor)
      | .jump next => jumpSearch probe inside rounds next
    else some none

/-- A place is the first of those sought from a cursor on. -/
structure FirstFrom (pos : α → ℤ) (Sought : α → Prop) (cursor place : α) : Prop where
  sought : Sought place
  from_le : pos cursor ≤ pos place
  first : ∀ other, Sought other → pos cursor ≤ pos other → pos place ≤ pos other

/-- A probe is exact: what it reports is sought, and its jumps go forward and pass over nothing that
is sought. -/
def ExactProbe (probe : α → Probe α) (pos : α → ℤ) (Cursor Sought : α → Prop) (limit : ℤ) : Prop :=
  ∀ c, Cursor c → pos c ≤ limit → match probe c with
    | .found => Sought c
    | .jump (some next) =>
      Cursor next ∧ pos c < pos next ∧ ∀ s, Sought s → pos c ≤ pos s → pos next ≤ pos s
    | .jump none => ∀ s, Sought s → pos c ≤ pos s → limit < pos s

variable {probe : α → Probe α} {inside : α → Bool} {pos : α → ℤ} {Cursor Sought : α → Prop}
  {limit : ℤ}

/-- With an exact probe and enough rounds a search ends with the first place sought within the
horizon, or because there is none. -/
theorem jumpSearch_spec (hprobe : ExactProbe probe pos Cursor Sought limit)
    (hinside : ∀ c, inside c = (pos c ≤ limit : Bool)) (rounds : ℕ) {cursor : α}
    (hcursor : Cursor cursor) (hrounds : limit < pos cursor + rounds) :
    (∃ place, jumpSearch probe inside rounds (some cursor) = some (some place) ∧
      FirstFrom pos Sought cursor place ∧ pos place ≤ limit) ∨
    (jumpSearch probe inside rounds (some cursor) = some none ∧
      ∀ s, Sought s → pos cursor ≤ pos s → limit < pos s) := by
  induction rounds generalizing cursor with
  | zero =>
    have hout : limit < pos cursor := by simpa using hrounds
    refine .inr ⟨?_, fun s _ hs => by omega⟩
    rw [jumpSearch, hinside, if_neg (by simpa using hout)]
  | succ rounds ih =>
    rw [jumpSearch, hinside]
    by_cases hin : pos cursor ≤ limit
    · rw [if_pos (by simpa using hin)]
      have hexact := hprobe cursor hcursor hin
      cases hprobed : probe cursor with
      | found =>
        rw [hprobed] at hexact
        exact .inl ⟨cursor, rfl, ⟨hexact, le_rfl, fun _ _ h => h⟩, hin⟩
      | jump next =>
        rw [hprobed] at hexact
        cases next with
        | none => exact .inr ⟨by simp [jumpSearch], hexact⟩
        | some next =>
          obtain ⟨hnext, hforward, hover⟩ := hexact
          -- nothing that is sought lies between the cursor and where it jumps
          rcases ih hnext (by omega) with ⟨place, hrun, hfirst, hplace⟩ | ⟨hrun, hnone⟩
          · refine .inl ⟨place, hrun, ⟨hfirst.sought, ?_, fun s hs hle => ?_⟩, hplace⟩
            · have := hfirst.from_le
              omega
            · exact hfirst.first s hs (hover s hs hle)
          · exact .inr ⟨hrun, fun s hs hle => hnone s hs (hover s hs hle)⟩
    · refine .inr ⟨if_neg (by simpa using hin), fun s _ hs => by omega⟩

/-- More rounds do not change the result of a search. -/
theorem jumpSearch_mono {rounds rounds' : ℕ} (hle : rounds ≤ rounds') {cursor result : Option α}
    (h : jumpSearch probe inside rounds cursor = some result) :
    jumpSearch probe inside rounds' cursor = some result := by
  induction rounds generalizing rounds' cursor with
  | zero =>
    cases cursor with
    | none => simpa [jumpSearch] using h
    | some cursor =>
      rw [jumpSearch] at h
      split_ifs at h with hin
      cases rounds' with
      | zero => rw [jumpSearch, if_neg hin, h]
      | succ rounds' => rw [jumpSearch, if_neg hin, h]
  | succ rounds ih =>
    obtain ⟨more, rfl⟩ : ∃ n, rounds' = n + 1 := ⟨rounds' - 1, by omega⟩
    cases cursor with
    | none => simpa [jumpSearch] using h
    | some cursor =>
      rw [jumpSearch] at h ⊢
      split_ifs at h ⊢ with hin
      · cases hprobed : probe cursor with
        | found => simpa [hprobed] using h
        | jump next =>
          rw [hprobed] at h
          exact ih (by omega) h
      · exact h

/-- A search with an exact probe settles as `jumpSearch_spec` says. -/
theorem jumpSearch_settles (hprobe : ExactProbe probe pos Cursor Sought limit)
    (hinside : ∀ c, inside c = (pos c ≤ limit : Bool)) {cursor : α} (hcursor : Cursor cursor) :
    (∃ place, Settles (jumpSearch probe inside · (some cursor)) (some place) ∧
      FirstFrom pos Sought cursor place ∧ pos place ≤ limit) ∨
    (Settles (jumpSearch probe inside · (some cursor)) none ∧
      ∀ s, Sought s → pos cursor ≤ pos s → limit < pos s) := by
  have henough : limit < pos cursor + ((limit - pos cursor + 1).toNat : ℤ) := by omega
  rcases jumpSearch_spec hprobe hinside _ hcursor henough with ⟨place, hrun, hfirst⟩ | ⟨hrun, hnone⟩
  · exact .inl ⟨place, .of_mono (fun hle h => jumpSearch_mono hle h) hrun, hfirst⟩
  · exact .inr ⟨.of_mono (fun hle h => jumpSearch_mono hle h) hrun, hnone⟩

end ZimaControl
