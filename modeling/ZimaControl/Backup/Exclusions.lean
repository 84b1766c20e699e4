import ZimaControl.Backup.FileScan

/-!
# What an exclusion list excludes

`isPathExcluded` tests a regular expression against the path and its base name. For paths without
backslashes and line terminators, which the expressions read differently, this says: some pattern
matches the path, a directory above it, or its base name (`excluded_iff`). The base names of the
directories above are not looked at, so what is excluded by its base name alone is excluded without
what is below it.
-/

namespace ZimaControl

open List

/-! ## Globs -/

/-- The texts that a part of a glob stands for; `**/` may stand for nothing. -/
def GlobToken.StandsFor : GlobToken → JsString → Prop
  | literal v, text => text = [v]
  | name, text => unit '/' ∉ text
  | one, text => ∃ u ≠ unit '/', text = [u]
  | any, _ => True
  | directories, text => text = [] ∨ ∃ run, text = run ++ [unit '/']

/-- The texts that a glob matches. -/
def GlobMatches : List GlobToken → JsString → Prop
  | [], text => text = []
  | token :: tokens, text =>
    ∃ run rest, text = run ++ rest ∧ token.StandsFor run ∧ GlobMatches tokens rest

/-- The first path is the second, or a directory above it. -/
def IsAbove (front path : JsString) : Prop := path = front ∨ ∃ rest, path = front ++ unit '/' :: rest

variable {front path below : JsString}

/-- The same text in front of two paths. -/
theorem isAbove_append {run : JsString} :
    IsAbove (run ++ front) (run ++ path) ↔ IsAbove front path := by
  simp [IsAbove]

/-- Above a path that is above another one. -/
theorem IsAbove.trans (h : IsAbove front path) (h' : IsAbove path below) : IsAbove front below := by
  obtain rfl | ⟨rest, rfl⟩ := h'
  · exact h
  · obtain rfl | ⟨rest', rfl⟩ := h
    · exact .inr ⟨rest, rfl⟩
    · exact .inr ⟨rest' ++ unit '/' :: rest, by simp⟩

/-- `p*` stands for a run of units with `p`. -/
theorem matchStar_iff {p : CodeUnit → Bool} {rest : JsString → Bool} {text : JsString} :
    matchStar p rest text = true ↔
      ∃ run tail, text = run ++ tail ∧ (∀ u ∈ run, p u = true) ∧ rest tail = true := by
  induction text with
  | nil => simp [matchStar]
  | cons u text ih =>
    rw [matchStar, Bool.or_eq_true, Bool.and_eq_true, ih]
    constructor
    · rintro (h | ⟨hu, run, tail, rfl, hrun, h⟩)
      · exact ⟨[], _, rfl, by simp, h⟩
      · exact ⟨u :: run, tail, rfl, forall_mem_cons.mpr ⟨hu, hrun⟩, h⟩
    rintro ⟨run, tail, htext, hrun, h⟩
    cases run with
    | nil =>
      rw [nil_append] at htext
      exact .inl (htext ▸ h)
    | cons v run =>
      cases htext
      obtain ⟨hu, hrun⟩ := forall_mem_cons.mp hrun
      exact .inr ⟨hu, run, tail, rfl, hrun, h⟩

variable {token : GlobToken} {tokens : List GlobToken} {text : JsString}

/-- The first part of a glob takes what it stands for. -/
theorem exists_of_matchTokens_cons (h : matchTokens (token :: tokens) text = true) :
    ∃ run tail, text = run ++ tail ∧ token.StandsFor run ∧ matchTokens tokens tail = true := by
  cases token with
  | literal v => cases text <;> simp_all [matchTokens, GlobToken.StandsFor]
  | one => cases text <;> simp_all [matchTokens, GlobToken.StandsFor]
  | name =>
    rw [matchTokens, matchStar_iff] at h
    simpa [GlobToken.StandsFor, forall_mem_ne'] using h
  | any =>
    rw [matchTokens, matchStar_iff] at h
    obtain ⟨run, tail, htext, -, h⟩ := h
    exact ⟨run, tail, htext, trivial, h⟩
  | directories =>
    rw [matchTokens, Bool.or_eq_true, matchStar_iff] at h
    obtain h | ⟨run, tail, htext, -, h⟩ := h
    · exact ⟨[], text, rfl, .inl rfl, h⟩
    · obtain ⟨hhead, h⟩ := (Bool.and_eq_true ..).mp h
      obtain ⟨rest, rfl⟩ := head?_eq_some_iff.mp (of_decide_eq_true hhead)
      exact ⟨run ++ [unit '/'], rest, by simpa using htext, .inr ⟨run, rfl⟩, h⟩

/-- It takes all of that where `.` matches all units. -/
theorem matchTokens_append {run tail : JsString} (hdots : ∀ u ∈ run, isDotUnit u = true)
    (hstands : token.StandsFor run) (h : matchTokens tokens tail = true) :
    matchTokens (token :: tokens) (run ++ tail) = true := by
  cases token with
  | literal v =>
    obtain rfl := hstands
    simpa [matchTokens] using h
  | one =>
    obtain ⟨u, hu, rfl⟩ := hstands
    simp [matchTokens, hu, h]
  | name =>
    rw [matchTokens, matchStar_iff]
    exact ⟨run, tail, rfl, by simpa [GlobToken.StandsFor, forall_mem_ne'] using hstands, h⟩
  | any =>
    rw [matchTokens, matchStar_iff]
    exact ⟨run, tail, rfl, hdots, h⟩
  | directories =>
    rw [matchTokens, Bool.or_eq_true, matchStar_iff]
    obtain rfl | ⟨run, rfl⟩ := hstands
    · exact .inl h
    · exact .inr ⟨run, unit '/' :: tail, by simp, fun u hu => hdots u (by simp [hu]), by simpa using h⟩

/-- If the expression matches a path, the glob matches it or a directory above it. -/
theorem globMatches_of_matchTokens (h : matchTokens tokens text = true) :
    ∃ front, GlobMatches tokens front ∧ IsAbove front text := by
  induction tokens generalizing text with
  | nil =>
    cases text with
    | nil => exact ⟨[], rfl, .inl rfl⟩
    | cons u text =>
      rw [matchTokens, Bool.and_eq_true, decide_eq_true_eq] at h
      exact ⟨[], rfl, .inr ⟨text, by rw [h.1]; rfl⟩⟩
  | cons token tokens ih =>
    obtain ⟨run, tail, rfl, hstands, h⟩ := exists_of_matchTokens_cons h
    obtain ⟨front, hfront, habove⟩ := ih h
    exact ⟨run ++ front, ⟨run, front, rfl, hstands, hfront⟩, isAbove_append.mpr habove⟩

/-- The other way round this holds where `.` matches all units of the path. -/
theorem matchTokens_of_globMatches (hdots : ∀ u ∈ text, isDotUnit u = true)
    (h : GlobMatches tokens front) (habove : IsAbove front text) : matchTokens tokens text = true := by
  induction tokens generalizing text front with
  | nil =>
    obtain rfl : front = [] := h
    obtain rfl | ⟨rest, rfl⟩ := habove
    · rfl
    · simpa [matchTokens] using fun u hu => hdots u (mem_cons_of_mem _ hu)
  | cons token tokens ih =>
    obtain ⟨run, front, rfl, hstands, hfront⟩ := h
    obtain ⟨tail, rfl⟩ : ∃ tail, text = run ++ tail := by
      obtain rfl | ⟨rest, rfl⟩ := habove
      · exact ⟨front, rfl⟩
      · exact ⟨front ++ unit '/' :: rest, append_assoc ..⟩
    rw [forall_mem_append] at hdots
    exact matchTokens_append hdots.1 hstands (ih hdots.2 hfront (isAbove_append.mp habove))

/-- A glob matches itself. -/
theorem globMatches_self (pattern : JsString) : GlobMatches (globTokens pattern) pattern := by
  have htoken : ∀ u, (globToken u).StandsFor [u] := by
    intro u
    unfold globToken
    split_ifs with hstar hone
    · change unit '/' ∉ [u]
      rw [hstar]
      decide
    · exact ⟨u, by rw [hone]; decide, rfl⟩
    · rfl
  fun_induction globTokens pattern with
  | case1 => rfl
  | case2 c => exact ⟨[c], [], rfl, htoken c, rfl⟩
  | case3 c d h => exact ⟨[c, d], [], rfl, trivial, rfl⟩
  | case4 c d h ih => exact ⟨[c], [d], rfl, htoken c, ih⟩
  | case5 c d rest h ih =>
    exact ⟨[c, d, unit '/'], rest, rfl, .inr ⟨[c, d], rfl⟩, ih⟩
  | case6 c d e rest h he ih => exact ⟨[c, d], e :: rest, rfl, trivial, ih⟩
  | case7 c d e rest h ih => exact ⟨[c], d :: e :: rest, rfl, htoken c, ih⟩

/-! ## Exclusion lists -/

/-- Trimming and replacing backslashes twice is doing it once. -/
theorem slashes_trim_twice (text : JsString) :
    slashes (trim (slashes (trim text))) = slashes (trim text) := by
  -- Neither of the two separators is white space.
  have hspace : ∀ u, isWhiteSpace (if u = unit '\\' then unit '/' else u) = isWhiteSpace u := by
    intro u
    split_ifs with hu
    · rw [hu]
      decide
    · rfl
  have hcomm : ∀ text, trim (slashes text) = slashes (trim text) := by
    intro text
    simp [trim, slashes, rdropWhile, dropWhile_map, ← map_reverse, Function.comp_def,
      hspace]
  have htrim : trim (trim text) = trim text := by
    have hfirst : (trim text).dropWhile isWhiteSpace = trim text := by
      obtain ⟨rest, hrest⟩ : trim text <+: text.dropWhile isWhiteSpace := rdropWhile_prefix ..
      have hnot := head?_dropWhile_not isWhiteSpace text
      rw [← hrest] at hnot
      cases htext : trim text with
      | nil => rfl
      | cons u tail =>
        rw [htext] at hnot
        exact dropWhile_cons_of_neg (by simpa using hnot)
    rw [trim, hfirst]
    exact rdropWhile_idempotent ..
  have hslashes : ∀ text, slashes (slashes text) = slashes text := by
    intro text
    simp only [slashes, map_map]
    refine map_congr_left fun u _ => ?_
    by_cases hu : u = unit '\\' <;> simp [hu]
  rw [hcomm, htrim, hslashes]

/-- A path of non-empty parts without backslashes and line terminators. -/
structure IsPlainPath (path : JsString) : Prop where
  parts : [] ∉ Posix.segments path
  units : ∀ u ∈ path, isDotUnit u = true ∧ u ≠ unit '\\'

/-- A pattern of the list matches a text. -/
def MatchedBy (exclusions : List JsString) (text : JsString) : Prop :=
  ∃ pattern ∈ exclusions, slashes (trim pattern) ≠ [] ∧
    GlobMatches (globTokens (slashes (trim pattern))) text

variable {pattern base : JsString} {exclusions : List JsString}

section

variable (hbase : (Posix.segments path).getLast? = some base)
include hbase

/-- A pattern matches what it excludes, a directory above it or its base name. -/
theorem matched_of_isExcludedBy (h : isExcludedBy path pattern = true) :
    slashes (trim pattern) ≠ [] ∧ ∃ text, (IsAbove text path ∨ text = base) ∧
      GlobMatches (globTokens (slashes (trim pattern))) text := by
  unfold isExcludedBy globMatches at h
  simp only [hbase, Option.getD_some, slashes_trim_twice, Bool.and_eq_true, Bool.or_eq_true,
    decide_eq_true_eq, isPrefixOf_iff_prefix] at h
  obtain ⟨hne, (((heq | ⟨rest, hrest⟩) | heq) | h) | h⟩ := h <;> refine ⟨hne, ?_⟩
  · exact ⟨path, .inl (.inl rfl), heq ▸ globMatches_self _⟩
  · refine ⟨_, .inl (.inr ⟨rest, ?_⟩), globMatches_self _⟩
    rw [← hrest, append_assoc]
    rfl
  · exact ⟨base, .inr rfl, heq ▸ globMatches_self _⟩
  · obtain ⟨text, hmatches, htext⟩ := globMatches_of_matchTokens h
    exact ⟨text, .inl htext, hmatches⟩
  · obtain ⟨text, hmatches, heq | ⟨rest, hrest⟩⟩ := globMatches_of_matchTokens h
    · exact ⟨text, .inr heq.symm, hmatches⟩
    · exact absurd (by simp [hrest]) (Posix.noSlash_of_mem_segments (mem_of_getLast? hbase))

/-- It excludes them where `.` matches all units of the path. -/
theorem isExcludedBy_of_matched (hdots : ∀ u ∈ path, isDotUnit u = true)
    (hne : slashes (trim pattern) ≠ []) (htext : IsAbove text path ∨ text = base)
    (hmatches : GlobMatches (globTokens (slashes (trim pattern))) text) :
    isExcludedBy path pattern = true := by
  unfold isExcludedBy globMatches
  simp only [hbase, Option.getD_some, slashes_trim_twice, Bool.and_eq_true, Bool.or_eq_true,
    decide_eq_true_eq]
  refine ⟨hne, ?_⟩
  obtain htext | rfl := htext
  · exact .inl (.inr (matchTokens_of_globMatches hdots hmatches htext))
  · refine .inr (matchTokens_of_globMatches (fun u hu => hdots u ?_) hmatches (.inl rfl))
    exact (Posix.infix_of_mem_segments (mem_of_getLast? hbase)).subset hu

end

/-- Every path has a base name. -/
theorem exists_base (path : JsString) : ∃ base, (Posix.segments path).getLast? = some base :=
  ⟨_, getLast?_eq_some_getLast (splitOnP_ne_nil _ _)⟩

section

variable (hparts : [] ∉ Posix.segments path) (hslashes : unit '\\' ∉ path)
include hparts hslashes

/-- A path of non-empty parts without backslashes is tested as it is. -/
theorem isPathExcluded_iff : isPathExcluded path exclusions = true ↔
      ∃ pattern ∈ exclusions, isExcludedBy path pattern = true := by
  have hsame : slashes path = path := by
    refine (map_congr_left fun u hu => if_neg ?_).trans (map_id _)
    rintro rfl
    exact hslashes hu
  unfold isPathExcluded
  rw [hsame]
  cases path with
  | nil => exact absurd (mem_singleton.mpr rfl) hparts
  | cons u rest =>
    have hu : u ≠ unit '/' := by
      rintro rfl
      exact hparts (by rw [Posix.segments_cons_slash]; exact mem_cons_self)
    simp [hu]

/-- What is excluded is matched, also where line terminators are in the path. -/
theorem matched_of_isPathExcluded (h : isPathExcluded path exclusions = true) :
    (∃ text, IsAbove text path ∧ MatchedBy exclusions text) ∨
      ∃ base, (Posix.segments path).getLast? = some base ∧ MatchedBy exclusions base := by
  obtain ⟨base, hbase⟩ := exists_base path
  obtain ⟨pattern, hmem, h⟩ := (isPathExcluded_iff hparts hslashes).mp h
  obtain ⟨hne, text, htext | rfl, hmatches⟩ := matched_of_isExcludedBy hbase h
  · exact .inl ⟨text, htext, pattern, hmem, hne, hmatches⟩
  · exact .inr ⟨text, hbase, pattern, hmem, hne, hmatches⟩

end

/-- What is matched is excluded, if the path is plain. -/
theorem IsPlainPath.excluded (h : IsPlainPath path)
    (hmatched : (∃ text, IsAbove text path ∧ MatchedBy exclusions text) ∨
      ∃ base, (Posix.segments path).getLast? = some base ∧ MatchedBy exclusions base) :
    isPathExcluded path exclusions = true := by
  rw [isPathExcluded_iff h.parts fun hmem => (h.units _ hmem).2 rfl]
  have hdots : ∀ u ∈ path, isDotUnit u = true := fun u hu => (h.units u hu).1
  obtain ⟨text, htext, pattern, hmem, hne, hmatches⟩ |
    ⟨text, hbase, pattern, hmem, hne, hmatches⟩ := hmatched
  · obtain ⟨base, hbase⟩ := exists_base path
    exact ⟨pattern, hmem, isExcludedBy_of_matched hbase hdots hne (.inl htext) hmatches⟩
  · exact ⟨pattern, hmem, isExcludedBy_of_matched hbase hdots hne (.inr rfl) hmatches⟩

/-- A path is excluded if a pattern matches it, a directory above it or its base name. What is
excluded otherwise than by its base name is excluded with everything below it. -/
theorem excluded_iff {path : JsString} (exclusions : List JsString) (h : IsPlainPath path) :
    (isPathExcluded path exclusions = true ↔
      (∃ text, IsAbove text path ∧ MatchedBy exclusions text) ∨
        ∃ base, (Posix.segments path).getLast? = some base ∧ MatchedBy exclusions base) ∧
    ((∃ text, IsAbove text path ∧ MatchedBy exclusions text) → ∀ below, IsPlainPath below →
      IsAbove path below → isPathExcluded below exclusions = true) := by
  refine ⟨⟨matched_of_isPathExcluded h.parts fun hmem => (h.units _ hmem).2 rfl, h.excluded⟩, ?_⟩
  rintro ⟨text, htext, hmatched⟩ below hplain hbelow
  exact hplain.excluded (.inl ⟨text, htext.trans hbelow, hmatched⟩)

/-- `cache` excludes `cache/tmp` with all that is below it. -/
theorem excluded_iff_cache : isPathExcluded (js "cache/tmp/a") [js "cache"] = true := by
  have hunits : ∀ path ∈ [js "cache/tmp", js "cache/tmp/a"],
      path.all (fun u => isDotUnit u && u ≠ unit '\\') = true := by decide +kernel
  have hplain : ∀ path ∈ [js "cache/tmp", js "cache/tmp/a"], IsPlainPath path := fun path hpath =>
    ⟨by revert path; decide +kernel, by simpa using hunits path hpath⟩
  exact (excluded_iff [js "cache"] (hplain _ (.head _))).2
    ⟨js "cache", .inr ⟨js "tmp", rfl⟩, js "cache", mem_singleton.mpr rfl, by decide,
      globMatches_self (js "cache")⟩ _ (hplain _ (.tail _ (.head _))) (.inr ⟨js "a", rfl⟩)

/-- A directory is excluded by its base name, and a file in it is not. -/
theorem base_name_excluded_alone :
    isPathExcluded (js "app/node_modules") [js "node_modules"] = true ∧
      isPathExcluded (js "app/node_modules/index.js") [js "node_modules"] = false := by
  decide +kernel

end ZimaControl
