import ZimaControl.Backup.Contracts
import ZimaControl.Lib.FileTree

/-!
# Paths of file sources

`validatePersistentFilesHostPath` of `source.ts`, and the canonical root that
`scanPersistentFilesDirectory` reads. The path is normalised as a POSIX path, and its backslashes
are replaced by slashes behind that; the result is compared with the system directories as a text.
So a backslash next to a slash leaves an empty part or a `.` in the text, and the comparison misses
a directory that the file system finds. A link is not seen at all.

`system_directories_iff` says when an accepted path leads nowhere it must not. If its first part
stands directly behind the slash at its start, the comparison saw it
(`not_isProtected_of_showsFirst`); else the text has to lead outside of the system directories, with
both separators. If a link is on its way, so has the directory that the file system finds.
-/

namespace ZimaControl

open List Posix FileSystem FileTree

/-! ## The functions -/

/-- `FORBIDDEN_ROOTS`. -/
def forbiddenRoots : List JsString :=
  [js "/", js "/etc", js "/var", js "/run", js "/sys", js "/proc", js "/var/run",
    js "/var/lib/docker", js "/var/lib/authority-trust", js "/dev", js "/boot", js "/root"]

/-- `new InvalidBackupSourcePathError(path, reason)`. -/
def invalidBackupSourcePathError (path reason : JsString) : BackupFailure :=
  domainError (js "Invalid backup source path '" ++ path ++ js "': " ++ reason)
    "INVALID_BACKUP_SOURCE_PATH"

/-- `/(?:^|[/\\])~/.test(text)`. -/
def hasTilde (text : JsString) : Bool :=
  (js "~").isPrefixOf text || js "/~" <:+: text || js "\\~" <:+: text

/-- An ASCII letter. -/
def isLetter (u : CodeUnit) : Bool :=
  (unit 'a' ≤ u && u ≤ unit 'z') || (unit 'A' ≤ u && u ≤ unit 'Z')

/-- `/^[a-zA-Z]:[...]/.test(text)`, with these separators. -/
def hasDrive (separators : List CodeUnit) : JsString → Bool
  | letter :: colon :: separator :: _ =>
    isLetter letter && colon = unit ':' && separator ∈ separators
  | _ => false

/-- `normalize(trimmed).replace(/\\/g, "/")`. -/
def normalizedHostPath (trimmed : JsString) : JsString := slashes (normalize trimmed)

/-- `cleanPath`, from the normalised path. -/
def cleanHostPath (normalized : JsString) : JsString :=
  if normalized.getLast? = some (unit '/') ∧ normalized.length > 1 then normalized.dropLast
  else normalized

/-- The path is a forbidden root or within it, as a text. -/
def isForbidden (cleanPath forbidden : JsString) : Bool :=
  cleanPath = forbidden ||
    (if forbidden = js "/" then js "///" else forbidden ++ js "/").isPrefixOf cleanPath

/-- The paths of the container runtime and of the trust storage. -/
def isRuntimePath (cleanPath : JsString) : Bool :=
  cleanPath = js "/var/run/docker.sock" || (js "/var/run/docker").isPrefixOf cleanPath ||
    (js "/var/lib/docker").isPrefixOf cleanPath || (js "/var/lib/authority-trust").isPrefixOf cleanPath

/-- `validatePersistentFilesHostPath`. -/
def validatePersistentFilesHostPath (rawPath : JsString) : Except BackupFailure JsString :=
  let invalid (reason : JsString) : Except BackupFailure JsString :=
    .error (invalidBackupSourcePathError rawPath reason)
  let trimmed := trim rawPath
  let normalized := normalizedHostPath trimmed
  let cleanPath := cleanHostPath normalized
  let startsWithSlash := isAbsolute normalized
  let isAbs := isAbsolute trimmed || startsWithSlash ||
    hasDrive [unit '/', unit '\\'] trimmed
  if rawPath = [] then invalid (js "Path must be a non-empty string")
  else if trimmed = [] then invalid (js "Path cannot be blank")
  else if js ".." <:+: trimmed ∨ hasTilde trimmed then
    invalid (js "Path traversal ('..' or '~') is strictly prohibited")
  else if js ".." <:+: normalized then
    invalid (js "Path traversal ('..') is strictly prohibited")
  else if isAbs = false ∨ (startsWithSlash = false ∧ hasDrive [unit '/'] normalized = false) then
    invalid (js "Path must be absolute")
  else
    match forbiddenRoots.find? (isForbidden cleanPath) with
    | some forbidden => invalid
        (js "Path resolves to or within forbidden system directory '" ++ forbidden ++ js "'")
    | none =>
      if isRuntimePath cleanPath then
        invalid (js "Access to Docker runtime or protected trust storage is strictly forbidden")
      else .ok cleanPath

/-- The code of an error of the file system. -/
def Errno.code : Errno → JsString
  | enoent => js "ENOENT"
  | enotdir => js "ENOTDIR"
  | eloop => js "ELOOP"
  | other code => code

/-- An error of the file system, thrown. -/
def Errno.thrown (e : Errno) (syscall : String) (path : JsString) : BackupFailure :=
  ⟨e.code ++ js ", " ++ js syscall ++ js " '" ++ path ++ js "'", some e.code, false⟩

/-- The canonical root of `scanPersistentFilesDirectory`. -/
def scanRoot (fs : FileSystem) (rawHostPath : JsString) : Except BackupFailure (List JsString) :=
  match validatePersistentFilesHostPath rawHostPath with
  | .error e => .error e
  | .ok cleanPath =>
    match fs.realpath cleanPath with
    | .error e => .error (invalidBackupSourcePathError cleanPath
        (js "Source directory does not exist or cannot be accessed: " ++
          (e.thrown "realpath" cleanPath).message))
    | .ok canonicalRoot =>
      match fs.stat (pathText canonicalRoot) (pathText canonicalRoot) with
      | .error e => .error (e.thrown "stat" (pathText canonicalRoot))
      | .ok entry =>
        if entry.isDirectory = false then
          .error (invalidBackupSourcePathError cleanPath (js "Source path must be a directory"))
        else .ok canonicalRoot

/-! ## What the path says -/

/-- A system directory, something inside of one, or the root. -/
def IsProtected (loc : List JsString) : Prop :=
  loc = [] ∨ ∃ forbidden ∈ forbiddenRoots, forbidden ≠ js "/" ∧
    location (js "/") forbidden <+: loc

/-- The parts of a text between slashes or backslashes, without empty ones and `.`. -/
def partsOf (text : JsString) : List JsString :=
  (segments (slashes text)).filter matters

/-- The text begins with a slash, or its first part other than `.` with a backslash. -/
def isRooted (text : JsString) : Bool :=
  isAbsolute text ||
    ((segments text).find? matters).any fun part => part.head? = some (unit '\\')

/-- Where the parts of a text start. -/
def FileSystem.rootOf (fs : FileSystem) (text : JsString) : List JsString :=
  if isRooted text then [] else fs.cwd

/-- What stands in a rooted text between the separator at its start and the next one. -/
def leadingPart (text : JsString) : JsString :=
  let first := ((segments text).find? matters).getD []
  (if isAbsolute text then first else first.tail).takeWhile (· ≠ unit '\\')

/-- The text is rooted, and no backslash leaves an empty part or a `.` in front of its first part.
-/
def showsFirst (text : JsString) : Bool := isRooted text && matters (leadingPart text)

/-- A link stands on the way of the parts of a text. -/
def FileSystem.LinkOnWay (fs : FileSystem) (text : JsString) : Prop :=
  ∃ front, front <+: partsOf text ∧ (fs.tree.get (fs.rootOf text ++ front)).any isLink = true

/-- An accepted path passed each check. -/
theorem validate_eq_ok {rawPath path : JsString}
    (h : validatePersistentFilesHostPath rawPath = .ok path) :
    trim rawPath ≠ [] ∧ ¬ js ".." <:+: trim rawPath ∧ ¬ js ".." <:+: normalizedHostPath (trim rawPath) ∧
      path = cleanHostPath (normalizedHostPath (trim rawPath)) ∧
      ∀ forbidden ∈ forbiddenRoots, isForbidden path forbidden = false := by
  unfold validatePersistentFilesHostPath at h
  dsimp only at h
  split_ifs at h with hnil hblank htraversal hnormalized habsolute hruntime
  · split at h <;> cases h
  split at h
  · cases h
  rename_i hfind
  cases h
  refine ⟨hblank, fun hdots => htraversal (.inl hdots), hnormalized, rfl, ?_⟩
  intro forbidden hforbidden
  have hnot := find?_eq_none.mp hfind forbidden hforbidden
  exact Bool.not_eq_true _ ▸ hnot

/-! ## Parts of a text -/

/-- Backslashes are replaced unit by unit. -/
theorem slashes_append (a b : JsString) : slashes (a ++ b) = slashes a ++ slashes b :=
  map_append

/-- A slash stays. -/
theorem slashes_cons_slash (b : JsString) : slashes (unit '/' :: b) = unit '/' :: slashes b := rfl

/-- The parts of a text with a slash in it. -/
theorem partsOf_append (a b : JsString) : partsOf (a ++ unit '/' :: b) = partsOf a ++ partsOf b := by
  unfold partsOf
  rw [slashes_append, slashes_cons_slash, segments_append, filter_append]

/-- A slash in front does not matter. -/
theorem partsOf_slash_append (b : JsString) : partsOf (js "/" ++ b) = partsOf b := by
  have hslash : js "/" ++ b = [] ++ unit '/' :: b := rfl
  have hnil : partsOf [] = [] := by decide
  rw [hslash, partsOf_append, hnil, nil_append]

/-- A slash at the end does not matter. -/
theorem partsOf_append_slash (a : JsString) : partsOf (a ++ js "/") = partsOf a := by
  have hslash : a ++ js "/" = a ++ unit '/' :: [] := rfl
  have hnil : partsOf [] = [] := by decide
  rw [hslash, partsOf_append, hnil, append_nil]

/-- The parts of joined parts. -/
theorem partsOf_joinSegments (parts : List JsString) :
    partsOf (joinSegments parts) = parts.flatMap partsOf := by
  induction parts with
  | nil => decide
  | cons part rest ih =>
    by_cases hnil : rest = []
    · rw [hnil, joinSegments_singleton, flatMap_singleton]
    · rw [joinSegments_cons part hnil, partsOf_append, ih, flatMap_cons]

variable (text : JsString)

/-- A text is split at its slashes first. -/
theorem partsOf_eq_flatMap : partsOf text = ((segments text).filter matters).flatMap partsOf := by
  have hdrop : ∀ parts : List JsString,
      parts.flatMap partsOf = (parts.filter matters).flatMap partsOf := by
    intro parts
    induction parts with
    | nil => rfl
    | cons part rest ih =>
      rw [flatMap_cons, ih]
      cases hmatters : matters part with
      | true => rw [filter_cons_of_pos hmatters, flatMap_cons]
      | false =>
        have hskip : part = [] ∨ part = js "." := by
          simpa [matters, or_iff_not_imp_left] using hmatters
        have hnone : partsOf part = [] := by obtain rfl | rfl := hskip <;> decide
        rw [filter_cons_of_neg (by rw [hmatters]; decide), hnone, nil_append]
  have hjoin : joinSegments (segments text) = text := intercalate_splitOn (unit '/')
  rw [← hdrop, ← partsOf_joinSegments, hjoin]

/-! ## Normalised texts without `..` -/

/-- Normalising keeps the parts of a text. -/
theorem partsOf_normalize {path : JsString} (hnil : path ≠ []) (h : js ".." ∉ segments path) :
    partsOf (normalize path) = partsOf path := by
  rw [partsOf_eq_flatMap path]
  obtain ⟨hempty, hmem⟩ | ⟨-, heq⟩ := normalize_cases hnil h
  · rw [hempty, flatMap_nil]
    simp only [mem_cons, not_mem_nil, or_false] at hmem
    obtain heq | heq | heq := hmem <;> rw [heq] <;> decide
  have hfront : ∀ text, partsOf ((if isAbsolute path then js "/" else []) ++ text) =
      partsOf text := by
    intro text
    split_ifs
    · exact partsOf_slash_append text
    · rfl
  rw [heq, hfront, ← partsOf_joinSegments]
  split_ifs
  · exact partsOf_append_slash _
  · rw [append_nil]

/-- With backslashes as slashes a text is absolute that starts with one of them. -/
theorem isAbsolute_slashes :
    isAbsolute (slashes text) =
      (isAbsolute text || (text.head? = some (unit '\\') : Bool)) := by
  cases text with
  | nil => rfl
  | cons u rest =>
    by_cases hback : u = unit '\\'
    · simp [isAbsolute, slashes, hback]
    · simp [isAbsolute, slashes, hback]

/-- The normalised text starts at the root exactly if the text does. -/
theorem isAbsolute_normalizedHostPath {text : JsString} (hnil : text ≠ [])
    (h : js ".." ∉ segments text) : isAbsolute (normalizedHostPath text) = isRooted text := by
  unfold normalizedHostPath isRooted
  rw [isAbsolute_slashes, isAbsolute_normalize]
  cases habs : isAbsolute text with
  | true => rfl
  | false =>
    rw [Bool.false_or, Bool.false_or, ← head?_filter]
    obtain ⟨hempty, hmem⟩ | ⟨hne, heq⟩ := normalize_cases hnil h
    · rw [hempty]
      simp only [mem_cons, not_mem_nil, or_false] at hmem
      obtain heq | heq | heq := hmem <;> rw [heq] <;> rfl
    rw [heq, habs]
    obtain ⟨first, rest, hparts⟩ := exists_cons_of_ne_nil hne
    have hfirst : first ≠ [] := by
      have hmem : first ∈ (segments text).filter matters := by
        rw [hparts]
        exact mem_cons_self
      have hmatters := (mem_filter.mp hmem).2
      rintro rfl
      cases hmatters
    obtain ⟨u, first, rfl⟩ := exists_cons_of_ne_nil hfirst
    rw [hparts]
    cases rest <;> simp [joinSegments, intercalate]

/-! ## Where an accepted path leads -/

/-- Dropping a slash at the end keeps the parts. -/
theorem segments_cleanHostPath :
    (segments (cleanHostPath text)).filter matters =
      (segments text).filter matters := by
  unfold cleanHostPath
  split_ifs with hslash
  · obtain ⟨hlast, -⟩ := hslash
    have htext : text.dropLast ++ unit '/' :: [] = text := dropLast_append_getLast? _ hlast
    have hnil : (segments []).filter matters = [] := by decide
    nth_rewrite 2 [← htext]
    rw [segments_append, filter_append, hnil, append_nil]
  · rfl

/-- Dropping a slash at the end keeps the start. -/
theorem isAbsolute_cleanHostPath : isAbsolute (cleanHostPath text) = isAbsolute text := by
  unfold cleanHostPath
  split_ifs with hslash
  · obtain ⟨-, hlength⟩ := hslash
    obtain ⟨u, rest, rfl⟩ := exists_cons_of_length_pos (Nat.zero_lt_of_lt hlength)
    have hrest : rest ≠ [] := by
      rintro rfl
      exact absurd hlength (by simp)
    rw [dropLast_cons_of_ne_nil hrest]
    rfl
  · rfl

/-- The clean text stands in the text. -/
theorem cleanHostPath_isPrefix : cleanHostPath text <+: text := by
  unfold cleanHostPath
  split_ifs
  · exact dropLast_prefix text
  · exact prefix_rfl

/-- The working directory is where its path leads. -/
theorem FileSystem.start_cwdText (fs : FileSystem) {path : JsString} :
    (start fs.cwdText path).reverse = fs.startOf path := by
  unfold start startOf
  split_ifs
  · rfl
  unfold cwdText pathText
  rw [segments_cons_slash, foldl_cons]
  have hskip : pushSegment false [] [] = [] := by decide
  rw [hskip]
  cases hcwd : fs.cwd with
  | nil => decide
  | cons name rest =>
    have hnames : ∀ n ∈ name :: rest, Posix.IsName n := hcwd ▸ fs.cwd_names
    rw [segments_joinSegments (cons_ne_nil _ _) fun n hn => (hnames n hn).noSlash,
      foldl_pushSegment_names _ _ hnames, append_nil, reverse_reverse]

variable {fs : FileSystem} {rawPath path : JsString}

section

variable (h : validatePersistentFilesHostPath rawPath = .ok path)
include h

/-- The parts of an accepted path. -/
theorem accepted_parts :
    (segments path).filter matters = partsOf (trim rawPath) ∧
      js ".." ∉ segments path := by
  obtain ⟨hnil, hraw, hnormalized, rfl, -⟩ := validate_eq_ok h
  have hdots : js ".." ∉ segments (trim rawPath) := fun hmem =>
    hraw (infix_of_mem_segments hmem)
  refine ⟨?_, fun hmem => ?_⟩
  · rw [segments_cleanHostPath, ← partsOf_normalize hnil hdots]
    rfl
  · exact hnormalized ((infix_of_mem_segments hmem).trans (cleanHostPath_isPrefix _).isInfix)

/-- An accepted path starts where its text starts. -/
theorem isAbsolute_accepted : isAbsolute path = isRooted (trim rawPath) := by
  obtain ⟨hnil, hraw, -, rfl, -⟩ := validate_eq_ok h
  rw [isAbsolute_cleanHostPath, isAbsolute_normalizedHostPath hnil]
  exact fun hmem => hraw (infix_of_mem_segments hmem)

end

/-- An accepted path starts where its text starts, in a file system. -/
theorem startOf_accepted (fs : FileSystem) (h : validatePersistentFilesHostPath rawPath = .ok path) :
    fs.startOf path = fs.rootOf (trim rawPath) := by
  unfold startOf rootOf
  rw [isAbsolute_accepted h]

/-- Where an accepted path leads if no link is on its way. -/
theorem location_accepted (h : validatePersistentFilesHostPath rawPath = .ok path) :
    location fs.cwdText path = fs.rootOf (trim rawPath) ++ partsOf (trim rawPath) := by
  obtain ⟨hparts, hdots⟩ := accepted_parts h
  rw [location_eq_filter hdots, fs.start_cwdText, startOf_accepted fs h, hparts]

/-- A canonical root is a directory, found under the accepted path. -/
theorem found_of_scanRoot {root : List JsString} (h : scanRoot fs rawPath = .ok root) :
    (∃ path, validatePersistentFilesHostPath rawPath = .ok path ∧ fs.locate path = .ok root) ∧
      (fs.tree.get root).any isDirectory = true := by
  unfold scanRoot at h
  split at h
  · cases h
  rename_i path hpath
  split at h
  · cases h
  rename_i loc hreal
  split at h
  · cases h
  rename_i entry hstat
  split_ifs at h with hdirectory
  cases h
  obtain ⟨-, hlocate⟩ := realpath_eq_ok_iff.mp hreal
  obtain ⟨-, hfind⟩ := stat_eq_ok_iff.mp hstat
  obtain ⟨found, hagain, hget⟩ := find_eq_ok_iff.mp hfind
  rw [(locate_again hlocate).2] at hagain
  refine ⟨⟨path, hpath, hlocate⟩, ?_⟩
  rw [Except.ok.inj hagain, hget, Option.any_some]
  exact Bool.not_eq_false _ ▸ hdirectory

/-- The canonical root is what is found along the parts of the path. -/
theorem scanRoot_eq_ok_iff (hcalls : ∀ op path, fs.failure op path = none) {root : List JsString}
    (h : validatePersistentFilesHostPath rawPath = .ok path) :
    scanRoot fs rawPath = .ok root ↔
      fs.tree.lookUp fs.linkLimit (fs.rootOf (trim rawPath)) (partsOf (trim rawPath)) = .ok root ∧
        (fs.tree.get root).any isDirectory = true := by
  obtain ⟨hparts, -⟩ := accepted_parts h
  have hlocate : fs.locate path =
      fs.tree.lookUp fs.linkLimit (fs.rootOf (trim rawPath)) (segments path) := by
    rw [← startOf_accepted fs h]
    rfl
  constructor
  · intro hroot
    obtain ⟨⟨path', h', hloc⟩, hany⟩ := found_of_scanRoot hroot
    cases h.symm.trans h'
    rw [hlocate, lookUp_filter hany, hparts] at hloc
    exact ⟨hloc, hany⟩
  · rintro ⟨hlookUp, hany⟩
    rw [← hparts, ← lookUp_filter hany, ← hlocate] at hlookUp
    -- A location that is found is real, and `stat` finds it again.
    obtain ⟨⟨entry, hget, -⟩, hagain⟩ := locate_again hlookUp
    have hreal : fs.realpath path = .ok root :=
      realpath_eq_ok_iff.mpr ⟨hcalls _ _, hlookUp⟩
    have hstat : fs.stat (pathText root) (pathText root) = .ok entry :=
      stat_eq_ok_iff.mpr
        ⟨hcalls _ _, find_eq_ok_iff.mpr ⟨root, hagain, hget⟩⟩
    rw [hget, Option.any_some] at hany
    simp [scanRoot, h, hreal, hstat, hany]

/-! ## System directories -/

/-- The text is a slash and the part, and ends there or goes on with a slash. -/
def StartsWith (part text : JsString) : Prop :=
  ∃ rest, text = unit '/' :: (part ++ rest) ∧ ∀ u ∈ rest.head?, u = unit '/'

/-- What stands in front of the first backslash stays in front of a slash. -/
theorem slashes_takeWhile (first : JsString) {tail : JsString} (htail : ∀ u ∈ tail.head?, u = unit '/') :
    ∃ rest, slashes (first ++ tail) = first.takeWhile (· ≠ unit '\\') ++ rest ∧
      ∀ u ∈ rest.head?, u = unit '/' := by
  induction first with
  | nil =>
    refine ⟨slashes tail, rfl, ?_⟩
    cases tail with
    | nil => exact nofun
    | cons u tail =>
      obtain rfl := htail u rfl
      simp [slashes]
  | cons u first ih =>
    by_cases hback : u = unit '\\'
    · exact ⟨slashes (u :: first ++ tail), by simp [hback], by simp [slashes, hback]⟩
    · obtain ⟨rest, heq, hrest⟩ := ih
      refine ⟨rest, ?_, hrest⟩
      rw [takeWhile_cons_of_pos (by simpa using hback), cons_append, cons_append, ← heq]
      simp [slashes, hback]

/-- A text that shows its first part begins with it when it is normalised. -/
theorem startsWith_normalizedHostPath {text : JsString} (hnil : text ≠ [])
    (hdots : js ".." ∉ segments text) (hshows : showsFirst text = true) :
    StartsWith (leadingPart text) (normalizedHostPath text) := by
  obtain ⟨hrooted, hmatters⟩ := Bool.and_eq_true_iff.mp hshows
  unfold leadingPart at hmatters ⊢
  unfold isRooted at hrooted
  rw [← head?_filter] at hmatters hrooted ⊢
  obtain ⟨hempty, -⟩ | ⟨hne, heq⟩ := normalize_cases hnil hdots
  · rw [hempty] at hmatters
    split_ifs at hmatters <;> cases hmatters
  obtain ⟨first, others, hparts⟩ := exists_cons_of_ne_nil hne
  rw [hparts] at hmatters hrooted heq ⊢
  -- Behind the first part the normalised text ends or goes on with a slash.
  obtain ⟨tail, htail, hjoin⟩ : ∃ tail : JsString, (∀ u ∈ tail.head?, u = unit '/') ∧
      normalize text = (if isAbsolute text then js "/" else []) ++ (first ++ tail) := by
    rw [heq]
    by_cases hothers : others = []
    · refine ⟨_, ?_, by rw [hothers, joinSegments_singleton]⟩
      split_ifs <;> rintro u hu <;> cases hu
      rfl
    · refine ⟨_, ?_, by rw [joinSegments_cons first hothers, append_assoc, cons_append]⟩
      simp
  obtain ⟨rest, hrest, hhead⟩ := slashes_takeWhile
    (if isAbsolute text then first else first.tail) htail
  refine ⟨rest, ?_, hhead⟩
  rw [normalizedHostPath, hjoin, head?_cons, Option.getD_some, ← hrest]
  cases habs : isAbsolute text with
  | true => rfl
  | false =>
    rw [habs, Bool.false_or, head?_cons, Option.any_some, decide_eq_true_eq] at hrooted
    obtain ⟨first, rfl⟩ := head?_eq_some_iff.mp hrooted
    rfl

/-- So does the clean text. -/
theorem startsWith_cleanHostPath {part : JsString} (hpart : part ≠ []) (hslash : unit '/' ∉ part)
    {text : JsString} (h : StartsWith part text) : StartsWith part (cleanHostPath text) := by
  obtain ⟨rest, rfl, hhead⟩ := h
  unfold cleanHostPath
  split_ifs with hends
  · obtain rfl | ⟨front, last, rfl⟩ := eq_nil_or_concat' rest
    · -- The part itself does not end with a slash.
      rw [append_nil, getLast?_cons_of_ne_nil hpart] at hends
      exact absurd (mem_of_getLast? hends.1) hslash
    · refine ⟨front, ?_, fun u hu => hhead u (by cases front <;> simp_all)⟩
      rw [← append_assoc, ← cons_append, dropLast_concat]
  · exact ⟨rest, rfl, hhead⟩

/-- The parts of such a text begin with the part. -/
theorem parts_of_startsWith {part text : JsString} (hmatters : matters part = true)
    (hslash : unit '/' ∉ part) (h : StartsWith part text) :
    ∃ more, (segments text).filter matters = part :: more := by
  obtain ⟨rest, rfl, hhead⟩ := h
  rw [segments_cons_slash, filter_cons_of_neg (by decide)]
  cases rest with
  | nil => exact ⟨[], by rw [append_nil, segments_of_notMem hslash]; simp [hmatters]⟩
  | cons u rest =>
    obtain rfl := hhead u rfl
    exact ⟨_, by rw [segments_append, segments_of_notMem hslash, singleton_append,
      filter_cons_of_pos hmatters]⟩

/-- The comparison sees that such a text is in the directory of the part. -/
theorem isForbidden_of_startsWith {part text : JsString} (hpart : part ≠ [])
    (h : StartsWith part text) : isForbidden text (unit '/' :: part) = true := by
  obtain ⟨rest, rfl, hhead⟩ := h
  have hroot : unit '/' :: part ≠ js "/" := fun h => hpart (cons.inj h).2
  rw [isForbidden, if_neg hroot]
  cases rest with
  | nil => simp
  | cons u rest =>
    obtain rfl := hhead u rfl
    have hbegins : unit '/' :: part ++ js "/" <+: unit '/' :: (part ++ unit '/' :: rest) :=
      ⟨rest, append_assoc (unit '/' :: part) (js "/") rest⟩
    rw [ isPrefixOf_iff_prefix.mpr hbegins, Bool.or_true]

/-- The leading part is one part. -/
theorem slash_notMem_leadingPart : unit '/' ∉ leadingPart text := by
  intro hmem
  have hpart := (takeWhile_sublist _).subset hmem
  have hfirst : unit '/' ∉ ((segments text).find? matters).getD [] := by
    cases hfind : (segments text).find? matters with
    | none => exact not_mem_nil
    | some part => exact noSlash_of_mem_segments (mem_of_find?_eq_some hfind)
  split_ifs at hpart
  · exact hfirst hpart
  · exact hfirst (mem_of_mem_tail hpart)

/-- An accepted text that shows its first part leads outside of the system directories: each is
below a directory of the root that is one itself, and the comparison has seen the part. -/
theorem not_isProtected_of_showsFirst (h : validatePersistentFilesHostPath rawPath = .ok path)
    (hshows : showsFirst (trim rawPath) = true) :
    ¬ IsProtected (fs.rootOf (trim rawPath) ++ partsOf (trim rawPath)) := by
  obtain ⟨hrooted, hmatters⟩ := Bool.and_eq_true_iff.mp hshows
  rw [rootOf, if_pos hrooted, nil_append, ← (accepted_parts h).1]
  obtain ⟨hnil, hraw, -, rfl, hforbidden⟩ := validate_eq_ok h
  have hdots : js ".." ∉ segments (trim rawPath) := fun hmem => hraw (infix_of_mem_segments hmem)
  have hne : leadingPart (trim rawPath) ≠ [] := fun hnil => by rw [hnil] at hmatters; cases hmatters
  have hslash := slash_notMem_leadingPart (trim rawPath)
  have hstarts := startsWith_cleanHostPath hne hslash
    (startsWith_normalizedHostPath hnil hdots hshows)
  obtain ⟨more, hmore⟩ := parts_of_startsWith hmatters hslash hstarts
  rw [hmore]
  have hfirst : ∀ forbidden ∈ forbiddenRoots, forbidden ≠ js "/" →
      (location (js "/") forbidden).head?.any (fun name => unit '/' :: name ∈ forbiddenRoots) =
        true := by
    decide +kernel
  rintro (hroot | ⟨forbidden, hmem, hnot, hbegins⟩)
  · cases hroot
  obtain ⟨name, hname, htop⟩ := (Option.any_eq_true _ _).mp (hfirst forbidden hmem hnot)
  obtain ⟨below, hbelow⟩ := head?_eq_some_iff.mp hname
  rw [hbelow, cons_prefix_cons] at hbegins
  have hseen := hforbidden _ (of_decide_eq_true htop)
  rw [hbegins.1, isForbidden_of_startsWith hne hstarts] at hseen
  cases hseen

/-- A file system in which `/data/etc` is a link to `/etc`. -/
def linkedData : FileSystem where
  tree := .directory [(js "etc", .directory []),
    (js "data", .directory [(js "etc", .link (js "/etc")), (js "app", .directory [])])]
  cwd := []
  linkLimit := 40
  failure := fun _ _ => none
  wellFormed := by decide
  cwd_names := isName_nil

/-- Without a link on its way, an accepted path leads where its text says. -/
theorem root_of_no_link (h : validatePersistentFilesHostPath rawPath = .ok path)
    (hlinks : ¬ fs.LinkOnWay (trim rawPath)) {root : List JsString} (hfound : fs.tree.lookUp
      fs.linkLimit (fs.rootOf (trim rawPath)) (partsOf (trim rawPath)) = .ok root) :
    root = fs.rootOf (trim rawPath) ++ partsOf (trim rawPath) := by
  refine (leads_of_lookUp hfound).eq_append ?_ fun front hfront => ?_
  · obtain ⟨hparts, hdots⟩ := accepted_parts h
    rw [← hparts]
    rintro name hname
    obtain ⟨hmem, hmatters⟩ := mem_filter.mp hname
    exact ⟨hmatters, fun heq => hdots (heq ▸ hmem)⟩
  · exact Bool.eq_false_iff.mpr fun hlink => hlinks ⟨front, hfront, hlink⟩

/-- Whatever links there are, an accepted path and the canonical root read under it are outside of
the system directories exactly if the trimmed text shows its first part or, with slashes and
backslashes as separators, leads outside of them, and, when a link is on its way, so does the
directory that the file system finds. -/
theorem system_directories_iff (fs : FileSystem) (hcalls : ∀ op path, fs.failure op path = none)
    {rawPath path : JsString} (h : validatePersistentFilesHostPath rawPath = .ok path) :
    (¬ IsProtected (location fs.cwdText path) ∧
        ∀ root, scanRoot fs rawPath = .ok root → ¬ IsProtected root) ↔
      (showsFirst (trim rawPath) = true ∨
        ¬ IsProtected (fs.rootOf (trim rawPath) ++ partsOf (trim rawPath))) ∧
      (fs.LinkOnWay (trim rawPath) → ∀ root,
        fs.tree.lookUp fs.linkLimit (fs.rootOf (trim rawPath)) (partsOf (trim rawPath)) = .ok root →
          (fs.tree.get root).any isDirectory = true → ¬ IsProtected root) := by
  have htext : showsFirst (trim rawPath) = true ∨
      ¬ IsProtected (fs.rootOf (trim rawPath) ++ partsOf (trim rawPath)) ↔
      ¬ IsProtected (fs.rootOf (trim rawPath) ++ partsOf (trim rawPath)) :=
    or_iff_right_of_imp (not_isProtected_of_showsFirst h)
  rw [location_accepted h, htext]
  refine and_congr_right fun hlocation => ?_
  simp only [scanRoot_eq_ok_iff hcalls h, and_imp]
  refine ⟨fun hroot _ => hroot, fun hroot root hfound => ?_⟩
  by_cases hlinks : fs.LinkOnWay (trim rawPath)
  · exact hroot hlinks root hfound
  · rw [root_of_no_link h hlinks hfound]
    exact fun _ => hlocation

/-- A link to a system directory is not noticed, although the text shows its first part. -/
theorem system_directories_iff_linked :
    showsFirst (js "/data/etc") = true ∧
      ¬ ∀ root, scanRoot linkedData (js "/data/etc") = .ok root → ¬ IsProtected root := by
  have haccepted : validatePersistentFilesHostPath (js "/data/etc") = .ok (js "/data/etc") := by
    decide +kernel
  refine ⟨by decide +kernel, fun hroot => ?_⟩
  have hpath : ¬ IsProtected (location linkedData.cwdText (js "/data/etc")) := by
    unfold IsProtected
    decide +kernel
  have hlinks := ((system_directories_iff linkedData (fun _ _ => rfl) haccepted).mp
    ⟨hpath, hroot⟩).2
  refine hlinks ⟨[js "data", js "etc"], by decide +kernel, by decide +kernel⟩ [js "etc"]
    (by decide +kernel) (by decide +kernel) (.inr ⟨js "/etc", by decide, by decide, by decide⟩)

/-- `/\etc` is accepted as `//etc`, which is `/etc`. -/
theorem backslash_hides_system_directory :
    ∃ path, validatePersistentFilesHostPath (js "/\\etc") = .ok path ∧
      IsProtected (location (js "/") path) :=
  ⟨js "//etc", by decide +kernel, .inr ⟨js "/etc", by decide, by decide, by decide⟩⟩

end ZimaControl
