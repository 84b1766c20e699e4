import ZimaControl.Lib.JsString

/-!
# POSIX paths

`isAbsolute`, `normalize`, `resolve`, `join`, `relative` and `basename` of the module `path`, on a
POSIX host. They go through the parts of a path: an empty part and `.` are dropped, `..` takes the
part before it away. What is left, seen from the working directory, is where the path leads if no
link is on its way (`location`); `location_join` and `location_append` compose locations.
-/

namespace ZimaControl

open List

namespace Posix

/-! ## The functions -/

/-- `isAbsolute`. -/
def isAbsolute (path : JsString) : Bool := path.head? = some (unit '/')

/-- The parts of a path. -/
def segments (path : JsString) : List JsString := path.splitOn (unit '/')

/-- One part in the loop of `normalizeString`; the parts kept are in reverse order. -/
def pushSegment (allowAboveRoot : Bool) (kept : List JsString) (segment : JsString) :
    List JsString :=
  if segment = [] ∨ segment = js "." then kept
  else if segment = js ".." then
    match kept with
    | last :: rest =>
      if last ≠ js ".." then rest else if allowAboveRoot then js ".." :: kept else kept
    | [] => if allowAboveRoot then [js ".."] else []
  else segment :: kept

/-- The parts that `normalizeString` keeps of a path. -/
def normalizeSegments (allowAboveRoot : Bool) (path : JsString) : List JsString :=
  ((segments path).foldl (pushSegment allowAboveRoot) []).reverse

/-- Parts, joined by slashes. -/
def joinSegments (parts : List JsString) : JsString := [unit '/'].intercalate parts

/-- `normalize`. -/
def normalize (path : JsString) : JsString :=
  if path = [] then js "."
  else
    let trailingSeparator := path.getLast? = some (unit '/')
    let normalized := joinSegments (normalizeSegments (!isAbsolute path) path)
    if normalized = [] then
      if isAbsolute path then js "/" else if trailingSeparator then js "./" else js "."
    else (if isAbsolute path then js "/" else []) ++
      (normalized ++ if trailingSeparator then js "/" else [])

/-- Where a path leads from the working directory, from the root downwards. -/
def location (cwd path : JsString) : List JsString :=
  normalizeSegments false (if isAbsolute path then path else cwd ++ unit '/' :: path)

/-- `resolve`, with one argument. -/
def resolve (cwd path : JsString) : JsString := unit '/' :: joinSegments (location cwd path)

/-- `join`. -/
def join (paths : List JsString) : JsString :=
  match paths.filter (· ≠ []) with
  | [] => js "."
  | joined => normalize (joinSegments joined)

/-- The part of a list of parts behind what it has in common with another. -/
def dropCommon : List JsString → List JsString → List JsString × List JsString
  | a :: l, b :: l' => if a = b then dropCommon l l' else (a :: l, b :: l')
  | l, l' => (l, l')

/-- `relative`. -/
def relative (cwd fromPath toPath : JsString) : JsString :=
  let (up, down) := dropCommon (location cwd fromPath) (location cwd toPath)
  joinSegments (up.map (fun _ => js "..") ++ down)

/-- `basename`. -/
def basename (path : JsString) : JsString := (((segments path).rdropWhile (· = [])).getLast?).getD []

/-! ## Parts -/

/-- A part that names an entry of a directory. -/
structure IsName (segment : JsString) : Prop where
  ne_nil : segment ≠ []
  ne_dot : segment ≠ js "."
  ne_dots : segment ≠ js ".."
  noSlash : unit '/' ∉ segment

/-- The parts of a path with a slash in it. -/
theorem segments_append (a b : JsString) :
    segments (a ++ unit '/' :: b) = segments a ++ segments b :=
  splitOn_append_cons_self a b

/-- A path without a slash is its only part. -/
theorem segments_of_notMem {s : JsString} (h : unit '/' ∉ s) : segments s = [s] :=
  splitOn_eq_singleton h

/-- The parts of an absolute path. -/
theorem segments_cons_slash (s : JsString) : segments (unit '/' :: s) = [] :: segments s := by
  simpa [segments] using segments_append [] s

/-- No part has a slash. -/
theorem noSlash_of_mem_segments {path segment : JsString} (h : segment ∈ segments path) :
    unit '/' ∉ segment := by
  induction path generalizing segment with
  | nil =>
    simp only [segments, splitOn_nil, mem_singleton] at h
    simp [h]
  | cons u path ih =>
    by_cases hu : u = unit '/'
    · rw [hu, segments_cons_slash] at h
      rcases mem_cons.mp h with rfl | h
      · simp
      · exact ih h
    · obtain ⟨first, rest, hsplit⟩ := exists_cons_of_ne_nil (splitOn_ne_nil (unit '/') path)
      have hcons : segments (u :: path) = (u :: first) :: rest := by
        rw [segments, splitOn_cons_eq_if_modifyHead, if_neg (by simpa using hu), hsplit]
        rfl
      rw [hcons] at h
      rw [segments, hsplit] at ih
      rcases mem_cons.mp h with rfl | h
      · simpa [Ne.symm hu] using ih (mem_cons_self ..)
      · exact ih (mem_cons_of_mem _ h)

/-- Joining one more part. -/
theorem joinSegments_cons (part : JsString) {rest : List JsString} (h : rest ≠ []) :
    joinSegments (part :: rest) = part ++ unit '/' :: joinSegments rest := by
  obtain ⟨next, rest, rfl⟩ := exists_cons_of_ne_nil h
  simp [joinSegments, intercalate]

/-- One part alone. -/
theorem joinSegments_singleton (part : JsString) : joinSegments [part] = part := by
  simp [joinSegments, intercalate]

/-- Joining two lists of parts. -/
theorem joinSegments_append {a b : List JsString} (ha : a ≠ []) (hb : b ≠ []) :
    joinSegments (a ++ b) = joinSegments a ++ unit '/' :: joinSegments b := by
  induction a with
  | nil => exact absurd rfl ha
  | cons part a ih =>
    by_cases hnil : a = []
    · rw [hnil, joinSegments_singleton]
      exact joinSegments_cons part hb
    · rw [cons_append, joinSegments_cons part (append_ne_nil_of_left_ne_nil hnil b), ih hnil,
        joinSegments_cons part hnil, append_assoc, cons_append]

variable {parts : List JsString}

/-- Joining parts and splitting again gives the parts. -/
theorem segments_joinSegments (hne : parts ≠ []) (h : ∀ part ∈ parts, unit '/' ∉ part) :
    segments (joinSegments parts) = parts :=
  splitOn_intercalate (unit '/') h hne

/-! ## Going through the parts -/

variable {segment : JsString}

/-- What one part does: an empty one and `.` are dropped, `..` takes the last name away or stays
above the others, and a name is kept. -/
theorem pushSegment_cases (allow : Bool) (kept : List JsString) (h : unit '/' ∉ segment) :
    ((segment = [] ∨ segment = js ".") ∧ pushSegment allow kept segment = kept) ∨
    (segment = js ".." ∧ ∃ last rest, kept = last :: rest ∧ last ≠ js ".." ∧
      pushSegment allow kept segment = rest) ∨
    (segment = js ".." ∧ (∀ last rest, kept = last :: rest → last = js "..") ∧
      pushSegment allow kept segment = if allow then js ".." :: kept else kept) ∨
    (IsName segment ∧ pushSegment allow kept segment = segment :: kept) := by
  unfold pushSegment
  by_cases hskip : segment = [] ∨ segment = js "."
  · rw [if_pos hskip]
    exact .inl ⟨hskip, rfl⟩
  rw [if_neg hskip]
  by_cases hdots : segment = js ".."
  · rw [if_pos hdots]
    cases kept with
    | nil => exact .inr (.inr (.inl ⟨hdots, nofun, rfl⟩))
    | cons last rest =>
      dsimp only
      by_cases hlast : last = js ".."
      · rw [if_neg (not_not.mpr hlast)]
        refine .inr (.inr (.inl ⟨hdots, fun last' rest' heq => ?_, rfl⟩))
        cases heq
        exact hlast
      · rw [if_pos hlast]
        exact .inr (.inl ⟨hdots, last, rest, rfl, hlast, rfl⟩)
  · rw [if_neg hdots]
    exact .inr (.inr (.inr ⟨⟨fun h => hskip (.inl h), fun h => hskip (.inr h), hdots, h⟩, rfl⟩))

variable {allow : Bool} {kept : List JsString}

/-- A name is kept. -/
theorem pushSegment_name (h : IsName segment) :
    pushSegment allow kept segment = segment :: kept := by
  unfold pushSegment
  rw [if_neg (not_or.mpr ⟨h.ne_nil, h.ne_dot⟩), if_neg h.ne_dots]

/-- `..` takes a name away. -/
theorem pushSegment_dots {name : JsString} (h : name ≠ js "..") :
    pushSegment allow (name :: kept) (js "..") = kept := by
  unfold pushSegment
  rw [if_neg (by decide), if_pos rfl]
  exact if_pos h

/-- Names are kept. -/
theorem foldl_pushSegment_names (names kept : List JsString) (h : ∀ name ∈ names, IsName name) :
    names.foldl (pushSegment allow) kept = names.reverse ++ kept := by
  induction names generalizing kept with
  | nil => rfl
  | cons name names ih =>
    rw [foldl_cons, pushSegment_name (h name (mem_cons_self ..)),
      ih _ fun n hn => h n (mem_cons_of_mem _ hn)]
    simp

/-- The parts that are kept: names, and `..` above them. -/
def IsKept (allow : Bool) (segment : JsString) : Prop :=
  IsName segment ∨ (allow = true ∧ segment = js "..")

/-- A part that is kept has no slash. -/
theorem IsKept.noSlash (h : IsKept allow segment) : unit '/' ∉ segment := by
  rcases h with h | ⟨-, rfl⟩
  · exact h.noSlash
  · decide

/-- One part. -/
theorem isKept_of_mem_pushSegment {part : JsString} (hpart : unit '/' ∉ part)
    (hkept : ∀ k ∈ kept, IsKept allow k) : ∀ k ∈ pushSegment allow kept part, IsKept allow k := by
  rcases pushSegment_cases allow kept hpart with
    ⟨-, heq⟩ | ⟨-, last, rest, rfl, -, heq⟩ | ⟨-, -, heq⟩ | ⟨hname, heq⟩
  · rwa [heq]
  · rw [heq]
    exact fun k hk => hkept k (mem_cons_of_mem _ hk)
  · rw [heq]
    cases allow with
    | false => exact hkept
    | true => exact forall_mem_cons.mpr ⟨.inr ⟨rfl, rfl⟩, hkept⟩
  · rw [heq]
    exact forall_mem_cons.mpr ⟨.inl hname, hkept⟩

/-- All parts. -/
theorem isKept_of_mem_foldl {parts kept : List JsString} (hparts : ∀ p ∈ parts, unit '/' ∉ p)
    (hkept : ∀ k ∈ kept, IsKept allow k) :
    ∀ k ∈ parts.foldl (pushSegment allow) kept, IsKept allow k := by
  induction parts generalizing kept with
  | nil => exact hkept
  | cons part parts ih =>
    obtain ⟨hpart, hrest⟩ := forall_mem_cons.mp hparts
    exact ih hrest (isKept_of_mem_pushSegment hpart hkept)

/-! ## Locations -/

/-- Where a path starts, the working directory or the root, upwards. -/
def start (cwd path : JsString) : List JsString :=
  if isAbsolute path then [] else (segments cwd).foldl (pushSegment false) []

/-- A location is found from where the path starts. -/
theorem location_eq (cwd path : JsString) : location cwd path =
      ((segments path).foldl (pushSegment false) (start cwd path)).reverse := by
  unfold location start normalizeSegments
  split_ifs with habs
  · rfl
  · rw [segments_append, foldl_append]

variable {a : JsString}

/-- The start of a path that begins like another. -/
theorem start_append (ha : a ≠ []) (cwd b : JsString) : start cwd (a ++ b) = start cwd a := by
  obtain ⟨u, a, rfl⟩ := exists_cons_of_ne_nil ha
  rfl

/-- Where a path leads that goes on behind another. -/
theorem location_append (ha : a ≠ []) (cwd b : JsString) :
    location cwd (a ++ unit '/' :: b) =
      ((segments b).foldl (pushSegment false) (location cwd a).reverse).reverse := by
  rw [location_eq, location_eq, start_append ha, segments_append, foldl_append, reverse_reverse]

/-- Names behind a path lead downwards. -/
theorem location_append_names {a b : JsString} (ha : a ≠ []) {names : List JsString}
    (hb : segments b = names) (hnames : ∀ name ∈ names, IsName name) (cwd : JsString) :
    location cwd (a ++ unit '/' :: b) = location cwd a ++ names := by
  rw [location_append ha, hb, foldl_pushSegment_names names _ hnames, reverse_append,
    reverse_reverse, reverse_reverse]

/-- A name behind a path leads to an entry of the directory. -/
theorem location_append_name {a name : JsString} (ha : a ≠ []) (hname : IsName name)
    (cwd : JsString) : location cwd (a ++ unit '/' :: name) = location cwd a ++ [name] :=
  location_append_names ha (segments_of_notMem hname.noSlash) (forall_mem_singleton.mpr hname) cwd

/-- A slash at the end of a path does not change where it leads. -/
theorem location_append_slash (ha : a ≠ []) (cwd : JsString) :
    location cwd (a ++ [unit '/']) = location cwd a := by
  have hnil : segments [] = [[]] := by decide
  rw [location_append ha, hnil]
  exact reverse_reverse _

/-! ## Normalised paths -/

/-- Going on behind the parts that were kept leads where the whole path does. -/
theorem foldl_pushSegment {part : JsString} {kept base : List JsString} (hpart : unit '/' ∉ part)
    (hkept : ∀ k ∈ kept, IsKept allow k) (hallow : allow = true ∨ base = []) :
    (pushSegment allow kept part).reverse.foldl (pushSegment false) base =
      pushSegment false (kept.reverse.foldl (pushSegment false) base) part := by
  rcases pushSegment_cases allow kept hpart with
    ⟨hskip, heq⟩ | ⟨rfl, last, rest, rfl, hlast, heq⟩ | ⟨rfl, habove, heq⟩ | ⟨hname, heq⟩
  · rw [heq]
    unfold pushSegment
    rw [if_pos hskip]
  · -- A name that was kept is taken away again.
    have hname : IsName last :=
      (hkept last (mem_cons_self ..)).resolve_right fun h => hlast h.2
    rw [heq, reverse_cons, foldl_append, foldl_cons, foldl_nil,
      pushSegment_name hname, pushSegment_dots hlast]
  · cases allow with
    | true =>
      rw [heq, if_pos rfl, reverse_cons, foldl_append, foldl_cons, foldl_nil]
    | false =>
      -- Below the root nothing was kept, and nothing is above it.
      have hnil : kept = [] := by
        cases kept with
        | nil => rfl
        | cons last rest =>
          have hname := (hkept last (mem_cons_self ..)).resolve_right (by simp)
          exact absurd (habove last rest rfl) hname.ne_dots
      have hbase : base = [] := hallow.resolve_left (by simp)
      rw [heq, hnil, hbase]
      decide
  · rw [heq, reverse_cons, foldl_append, foldl_cons, foldl_nil]

/-- Going through the parts kept of a path leads where the path does. -/
theorem foldl_foldl_pushSegment {parts base : List JsString} (kept : List JsString)
    (hparts : ∀ p ∈ parts, unit '/' ∉ p) (hkept : ∀ k ∈ kept, IsKept allow k)
    (hallow : allow = true ∨ base = []) :
    (parts.foldl (pushSegment allow) kept).reverse.foldl (pushSegment false) base =
      parts.foldl (pushSegment false) (kept.reverse.foldl (pushSegment false) base) := by
  induction parts generalizing kept with
  | nil => rfl
  | cons part parts ih =>
    obtain ⟨hpart, hrest⟩ := forall_mem_cons.mp hparts
    rw [foldl_cons, ih _ hrest (isKept_of_mem_pushSegment hpart hkept), foldl_cons,
      foldl_pushSegment hpart hkept hallow]

variable (path : JsString)

/-- What is kept of a path leads to the same place. -/
theorem foldl_normalizeSegments {base : List JsString} (hallow : allow = true ∨ base = []) :
    (normalizeSegments allow path).foldl (pushSegment false) base =
      (segments path).foldl (pushSegment false) base :=
  foldl_foldl_pushSegment [] (fun _ hp => noSlash_of_mem_segments hp) (by simp) hallow

/-- A slash at the end does not change where a path leads. -/
theorem foldl_segments_slash (base : List JsString) :
    (segments (path ++ js "/")).foldl (pushSegment false) base =
      (segments path).foldl (pushSegment false) base := by
  have hslash : js "/" = unit '/' :: [] := by decide
  have hnil : segments [] = [[]] := by decide
  rw [hslash, segments_append, hnil, foldl_append]
  rfl

/-- The parts that are kept are not empty. -/
theorem IsKept.ne_nil (h : IsKept allow segment) : segment ≠ [] := by
  rcases h with h | ⟨-, rfl⟩
  · exact h.ne_nil
  · decide

/-- Parts that are kept, joined by slashes, do not start with a slash. -/
theorem isAbsolute_joinSegments (hne : joinSegments parts ≠ [])
    (h : ∀ part ∈ parts, IsKept allow part) (rest : JsString) :
    isAbsolute (joinSegments parts ++ rest) = false := by
  cases parts with
  | nil => exact absurd rfl hne
  | cons part parts =>
    obtain ⟨hpart, -⟩ := forall_mem_cons.mp h
    obtain ⟨u, part', rfl⟩ := exists_cons_of_ne_nil hpart.ne_nil
    have hu : u ≠ unit '/' := fun heq => hpart.noSlash (by simp [heq])
    cases parts <;> simpa [joinSegments, isAbsolute, intercalate] using hu

/-- The parts that are kept of a path. -/
theorem isKept_of_mem_normalizeSegments {path part : JsString}
    (h : part ∈ normalizeSegments allow path) : IsKept allow part :=
  isKept_of_mem_foldl (fun _ hp => noSlash_of_mem_segments hp) (by simp) part (mem_reverse.mp h)

/-- What is kept of a path is not lost when it is written. -/
theorem joinSegments_ne_nil (hne : parts ≠ []) (h : ∀ part ∈ parts, IsKept allow part) :
    joinSegments parts ≠ [] := by
  intro hnil
  have hparts := segments_joinSegments hne fun part hpart => (h part hpart).noSlash
  rw [hnil] at hparts
  have hmem : [] ∈ parts := by
    rw [← hparts]
    decide
  exact (h [] hmem).ne_nil rfl

/-- A slash in front does not change where the parts lead. -/
theorem foldl_segments_cons_slash (base : List JsString) :
    (segments (js "/" ++ path)).foldl (pushSegment false) base =
      (segments path).foldl (pushSegment false) base := by
  have hslash : js "/" = [unit '/'] := by decide
  rw [hslash, singleton_append, segments_cons_slash]
  rfl

/-- The parts of the normalised path are those that were kept, and empty ones. -/
theorem foldl_segments_normalize {path : JsString} (hnil : path ≠ []) (base : List JsString) :
    (segments (normalize path)).foldl (pushSegment false) base =
      (normalizeSegments (!isAbsolute path) path).foldl (pushSegment false) base := by
  unfold normalize
  rw [if_neg hnil]
  by_cases hkept : normalizeSegments (!isAbsolute path) path = []
  · rw [hkept, if_pos (by decide)]
    split_ifs <;> rfl
  rw [if_neg (joinSegments_ne_nil hkept fun _ => isKept_of_mem_normalizeSegments)]
  have hjoin := segments_joinSegments hkept fun part hpart =>
    (isKept_of_mem_normalizeSegments hpart).noSlash
  have hfront : ∀ s, (segments ((if isAbsolute path then js "/" else []) ++ s)).foldl
      (pushSegment false) base = (segments s).foldl (pushSegment false) base := by
    intro s
    split_ifs
    · exact foldl_segments_cons_slash s base
    · rfl
  rw [hfront]
  split_ifs
  · rw [foldl_segments_slash, hjoin]
  · rw [append_nil, hjoin]

/-- A normalised path is not empty. -/
theorem normalize_ne_nil : normalize path ≠ [] := by
  unfold normalize
  by_cases hnil : path = []
  · rw [if_pos hnil]
    decide
  rw [if_neg hnil]
  by_cases hempty : joinSegments (normalizeSegments (!isAbsolute path) path) = []
  · rw [if_pos hempty]
    split_ifs <;> decide
  · rw [if_neg hempty]
    simp [hempty]

/-- Normalising a path keeps it absolute or relative. -/
theorem isAbsolute_normalize : isAbsolute (normalize path) = isAbsolute path := by
  unfold normalize
  by_cases hnil : path = []
  · rw [if_pos hnil, hnil]
    rfl
  rw [if_neg hnil]
  cases habs : isAbsolute path with
  | true =>
    simp only [if_true]
    split_ifs <;> rfl
  | false =>
    have hkept : ∀ part ∈ normalizeSegments true path, IsKept true part := fun _ =>
      isKept_of_mem_normalizeSegments
    simp only [Bool.not_false, Bool.false_eq_true, if_false, nil_append]
    by_cases hempty : joinSegments (normalizeSegments true path) = []
    · rw [if_pos hempty]
      split_ifs <;> rfl
    · rw [if_neg hempty]
      exact isAbsolute_joinSegments hempty hkept _

/-- Normalising a path does not change where it leads. -/
theorem location_normalize (cwd path : JsString) :
    location cwd (normalize path) = location cwd path := by
  by_cases hnil : path = []
  · rw [hnil, normalize, if_pos rfl, location_eq, location_eq]
    rfl
  rw [location_eq, location_eq, start, isAbsolute_normalize, foldl_segments_normalize hnil, ← start,
    foldl_normalizeSegments]
  cases habs : isAbsolute path with
  | true => exact .inr (if_pos habs)
  | false => exact .inl rfl

/-- A joined path is not empty. -/
theorem join_ne_nil (paths : List JsString) : join paths ≠ [] := by
  unfold join
  split
  · decide
  · exact normalize_ne_nil _

/-- Where a joined path leads. -/
theorem location_join {a b : JsString} (ha : a ≠ []) (hb : b ≠ []) (cwd : JsString) :
    location cwd (join [a, b]) = location cwd (a ++ unit '/' :: b) := by
  have hjoin : join [a, b] = normalize (a ++ unit '/' :: b) := by
    simp [join, ha, hb, joinSegments, intercalate]
  rw [hjoin, location_normalize]

/-! ## Paths without `..` -/

/-- A part that leads somewhere. -/
def matters (segment : JsString) : Bool := segment ≠ [] && segment ≠ js "."

/-- A part of a text stands in it. -/
theorem infix_of_mem_segments {text part : JsString} (h : part ∈ segments text) :
    part <:+: text := by
  have hjoin : ∀ parts : List JsString, part ∈ parts → part <:+: joinSegments parts := by
    intro parts hmem
    induction parts with
    | nil => cases hmem
    | cons first rest ih =>
      by_cases hnil : rest = []
      · rw [hnil] at hmem
        rw [hnil, joinSegments_singleton]
        exact mem_singleton.mp hmem ▸ infix_rfl
      rw [joinSegments_cons first hnil]
      obtain rfl | hrest := mem_cons.mp hmem
      · exact (prefix_append _ _).isInfix
      · exact ((ih hrest).trans (suffix_cons _ _).isInfix).trans (suffix_append _ _).isInfix
  have htext : joinSegments (segments text) = text := intercalate_splitOn (unit '/')
  rw [← htext]
  exact hjoin _ h

/-- Without `..` the parts that matter are kept. -/
theorem foldl_pushSegment_filter (kept : List JsString) (h : js ".." ∉ parts) :
    parts.foldl (pushSegment allow) kept = (parts.filter matters).reverse ++ kept := by
  induction parts generalizing kept with
  | nil => rfl
  | cons part rest ih =>
    obtain ⟨hpart, hrest⟩ := not_or.mp (mem_cons.not.mp h)
    rw [foldl_cons, ih _ hrest]
    unfold pushSegment
    cases hmatters : matters part with
    | true =>
      have hkeep : ¬ (part = [] ∨ part = js ".") := by simpa [matters] using hmatters
      rw [if_neg hkeep, if_neg (Ne.symm hpart), filter_cons_of_pos hmatters]
      simp
    | false =>
      have hskip : part = [] ∨ part = js "." := by
        simpa [matters, or_iff_not_imp_left] using hmatters
      rw [if_pos hskip, filter_cons_of_neg (by rw [hmatters]; decide)]

/-- Without `..` a path leads along the parts that matter. -/
theorem location_eq_filter {cwd path : JsString} (h : js ".." ∉ segments path) : location cwd path =
      (start cwd path).reverse ++ (segments path).filter matters := by
  rw [location_eq, foldl_pushSegment_filter _ h, reverse_append, reverse_reverse]

/-- Without `..` a path is normalised by keeping the parts that matter. -/
theorem normalizeSegments_eq_filter {path : JsString} (h : js ".." ∉ segments path) :
    normalizeSegments allow path = (segments path).filter matters := by
  unfold normalizeSegments
  rw [foldl_pushSegment_filter _ h, append_nil, reverse_reverse]

/-- A normalised path without `..`: the parts that matter, with a slash in front of an absolute one
and at the end if there was one. -/
theorem normalize_cases {path : JsString} (hnil : path ≠ []) (h : js ".." ∉ segments path) :
    ((segments path).filter matters = [] ∧ normalize path ∈ [js "/", js "./", js "."]) ∨
      ((segments path).filter matters ≠ [] ∧
        normalize path = (if isAbsolute path then js "/" else []) ++
          (joinSegments ((segments path).filter matters) ++
            if path.getLast? = some (unit '/') then js "/" else [])) := by
  have hkept : normalizeSegments (!isAbsolute path) path =
      (segments path).filter matters := normalizeSegments_eq_filter h
  unfold normalize
  rw [if_neg hnil]
  rw [hkept]
  by_cases hempty : (segments path).filter matters = []
  · rw [hempty, if_pos (by decide)]
    refine .inl ⟨rfl, ?_⟩
    split_ifs <;> decide
  have hne : joinSegments ((segments path).filter matters) ≠ [] := by
    rw [← hkept] at hempty ⊢
    exact joinSegments_ne_nil hempty fun _ => isKept_of_mem_normalizeSegments
  rw [if_neg hne]
  exact .inr ⟨hempty, rfl⟩

end Posix

end ZimaControl
