import Mathlib.Data.List.Sort
import ZimaControl.Backup.Calls
import ZimaControl.Backup.SourcePath

/-!
# Scanning a directory

`isPathExcluded` of `exclusion.ts` and `scanPersistentFilesDirectory` of
`persistent-files-source.ts`. The scan walks down from the canonical root, entry by entry, and keeps
what it found in variables that all nested calls of `walk` share; so what was found stays when an
error is caught further up, and the model passes the variables on next to the outcome of a call.

`walk` calls itself without a bound, for links may lead back. The model takes the depth to which it
may call itself, and has no outcome if that is not enough. Digests are left out; that each file is
read for them is not.
-/

namespace ZimaControl

/-! ## Exclusions -/

/-- What a pattern is made of. -/
inductive GlobToken
  /-- The unit itself. -/
  | literal (u : CodeUnit)
  /-- `[^/]*`. -/
  | name
  /-- `[^/]`. -/
  | one
  /-- `.*`. -/
  | any
  /-- `(?:.*/)?`. -/
  | directories

/-- The token of a single unit. -/
def globToken (u : CodeUnit) : GlobToken :=
  if u = unit '*' then .name else if u = unit '?' then .one else .literal u

/-- The loop of `globToRegExp`. -/
def globTokens : JsString → List GlobToken
  | [] => []
  | [c] => [globToken c]
  | [c, d] => if c = unit '*' ∧ d = unit '*' then [.any] else globToken c :: globTokens [d]
  | c :: d :: e :: rest =>
    if c = unit '*' ∧ d = unit '*' then
      if e = unit '/' then .directories :: globTokens rest else .any :: globTokens (e :: rest)
    else globToken c :: globTokens (d :: e :: rest)

/-- What `.` stands for in a regular expression. -/
def isDotUnit (u : CodeUnit) : Bool :=
  u ≠ unit '\n' && u ≠ unit '\r' && u.toNat ≠ 0x2028 && u.toNat ≠ 0x2029

/-- `p*`, followed by what `rest` matches. -/
def matchStar (p : CodeUnit → Bool) (rest : JsString → Bool) : JsString → Bool
  | [] => rest []
  | u :: text => rest (u :: text) || (p u && matchStar p rest text)

/-- The tokens, followed by `(?:/.*)?$`. -/
def matchTokens : List GlobToken → JsString → Bool
  | [], [] => true
  | [], u :: text => u = unit '/' && text.all isDotUnit
  | .literal _ :: _, [] => false
  | .literal v :: tokens, u :: text => u = v && matchTokens tokens text
  | .one :: _, [] => false
  | .one :: tokens, u :: text => u ≠ unit '/' && matchTokens tokens text
  | .name :: tokens, text => matchStar (· ≠ unit '/') (matchTokens tokens) text
  | .any :: tokens, text => matchStar isDotUnit (matchTokens tokens) text
  | .directories :: tokens, text => matchTokens tokens text ||
      matchStar isDotUnit (fun rest => rest.head? = some (unit '/') && matchTokens tokens rest.tail) text

/-- `globToRegExp(pattern).test(text)`. -/
def globMatches (pattern text : JsString) : Bool :=
  matchTokens (globTokens (slashes (trim pattern))) text

/-- One pattern of `isPathExcluded`. -/
def isExcludedBy (cleanRelative rawPattern : JsString) : Bool :=
  let pattern := slashes (trim rawPattern)
  let basename := ((Posix.segments cleanRelative).getLast?).getD cleanRelative
  pattern ≠ [] && (cleanRelative = pattern || (pattern ++ js "/").isPrefixOf cleanRelative ||
    pattern = basename || globMatches pattern cleanRelative || globMatches pattern basename)

/-- `isPathExcluded`. -/
def isPathExcluded (relativePath : JsString) (exclusions : List JsString) : Bool :=
  let cleanRelative := (slashes relativePath).dropWhile (· = unit '/')
  cleanRelative ≠ [] && exclusions.any (isExcludedBy cleanRelative)

/-! ## The walk -/

/-- The arguments of a scan: the file system, the canonical root, the exclusions, whether links are
followed, and the order of `localeCompare`. -/
structure Scan where
  fs : FileSystem
  canonicalRoot : List JsString
  exclusions : List JsString
  followSymlinks : Bool
  before : JsString → JsString → Bool

/-- The variables of the scan. -/
structure ScanState where
  entries : List PersistentFileEntry
  totalBytes : ℕ
  excludedCount : ℕ
  symlinksIgnored : ℕ

/-- A file that is backed up. -/
def ScanState.push (st : ScanState) (entry : PersistentFileEntry) : ScanState :=
  { st with entries := st.entries ++ [entry], totalBytes := st.totalBytes + entry.sizeBytes }

/-- An entry that is excluded. -/
def ScanState.exclude (st : ScanState) : ScanState :=
  { st with excludedCount := st.excludedCount + 1 }

/-- A link that is ignored. -/
def ScanState.ignore (st : ScanState) : ScanState :=
  { st with symlinksIgnored := st.symlinksIgnored + 1 }

/-- The outcome of `walk` with the variables behind it; none if the depth is not enough. -/
abbrev WalkResult := Option (Except BackupFailure Unit × ScanState)

/-- The size of a file. -/
def FileTree.size : FileTree → ℕ
  | file size => size
  | _ => 0

namespace Scan

variable (s : Scan)

/-- The canonical root as a path. -/
def rootText : JsString := FileSystem.pathText s.canonicalRoot

/-- `normalize(path).replace(/\\/g, "/")` of a real path. -/
def normalizedText (loc : List JsString) : JsString :=
  slashes (Posix.normalize (FileSystem.pathText loc))

/-- The test that the target of a link is within the root. -/
def passesContainment (target : List JsString) : Bool :=
  (normalizedText s.canonicalRoot).isPrefixOf (normalizedText target) &&
    normalizedText target ≠ normalizedText s.canonicalRoot

/-- `relPath`. -/
def relPath (fullPath : JsString) : JsString :=
  slashes (Posix.relative s.fs.cwdText s.rootText fullPath)

/-- A link that is followed; what is thrown on the way counts as a broken link. -/
def visitLink (recur : JsString → ScanState → WalkResult) (fullPath : JsString) (st : ScanState) :
    WalkResult :=
  match s.fs.realpath fullPath with
  | .error _ => some (.ok (), st.ignore)
  | .ok resolvedTarget =>
    if s.passesContainment resolvedTarget = false then some (.ok (), st.ignore)
    else
      match s.fs.stat fullPath (FileSystem.pathText resolvedTarget) with
      | .error _ => some (.ok (), st.ignore)
      | .ok (.directory _) =>
        match recur fullPath st with
        | none => none
        | some (.ok _, st') => some (.ok (), st')
        | some (.error _, st') => some (.ok (), st'.ignore)
      | .ok (.file size) =>
        some (.ok (), st.push ⟨fullPath, s.relPath fullPath, size, true⟩)
      | .ok _ => some (.ok (), st)

/-- One entry of a directory. -/
def visit (recur : JsString → ScanState → WalkResult) (currentDir : JsString)
    (dirent : JsString × FileTree) (st : ScanState) : WalkResult :=
  let fullPath := Posix.join [currentDir, dirent.1]
  if isPathExcluded (s.relPath fullPath) s.exclusions then some (.ok (), st.exclude)
  else
    match dirent.2 with
    | .link _ =>
      if s.followSymlinks = false then some (.ok (), st.ignore)
      else s.visitLink recur fullPath st
    | .directory _ => recur fullPath st
    | .file _ =>
      match s.fs.lstat fullPath dirent.2 with
      | .error e => some (.error (e.thrown "lstat" fullPath), st)
      | .ok fileStat =>
        some (.ok (), st.push ⟨fullPath, s.relPath fullPath, fileStat.size, false⟩)
    | .other => some (.ok (), st)

/-- The loop over the entries of a directory. -/
def visitAll (recur : JsString → ScanState → WalkResult) (currentDir : JsString) :
    List (JsString × FileTree) → ScanState → WalkResult
  | [], st => some (.ok (), st)
  | dirent :: rest, st =>
    match s.visit recur currentDir dirent st with
    | some (.ok _, st') => visitAll recur currentDir rest st'
    | stopped => stopped

/-- `dirEntries`, sorted by name. -/
def sorted (dirents : List (JsString × FileTree)) : List (JsString × FileTree) :=
  dirents.insertionSort fun a b => s.before a.1 b.1 = true

/-- `walk`, up to a depth. -/
def walk : ℕ → JsString → ScanState → WalkResult
  | 0, _, _ => none
  | depth + 1, currentDir, st =>
    match s.fs.readdir currentDir with
    | .error e => some (.error (e.thrown "scandir" currentDir), st)
    | .ok dirEntries => s.visitAll (walk depth) currentDir (s.sorted dirEntries) st

/-- The files are read one after the other, for the digest. -/
def readAll : List PersistentFileEntry → Except BackupFailure Unit
  | [] => .ok ()
  | entry :: rest =>
    match s.fs.failure .read entry.absolutePath with
    | some e => .error (e.thrown "open" entry.absolutePath)
    | none => readAll rest

end Scan

/-- `PersistentFilesScanResult`, without the digest. -/
structure PersistentFilesScanResult where
  canonicalRoot : List JsString
  files : List PersistentFileEntry
  fileCount : ℕ
  totalUncompressedBytes : ℕ
  excludedCount : ℕ
  symlinksIgnoredCount : ℕ
  deriving DecidableEq

/-- What the scan returns when the walk is over. -/
def Scan.finish (s : Scan) :
    Except BackupFailure Unit × ScanState → Except BackupFailure PersistentFilesScanResult
  | (.error e, _) => .error e
  | (.ok _, st) =>
    let files := st.entries.insertionSort fun a b =>
      s.before a.relativePath b.relativePath = true
    match s.readAll files with
    | .error e => .error e
    | .ok _ => .ok {
        canonicalRoot := s.canonicalRoot
        files
        fileCount := files.length
        totalUncompressedBytes := st.totalBytes
        excludedCount := st.excludedCount
        symlinksIgnoredCount := st.symlinksIgnored }

/-- `scanPersistentFilesDirectory`, up to a depth of the walk. -/
def scanPersistentFilesDirectory (fs : FileSystem) (before : JsString → JsString → Bool)
    (rawHostPath : JsString) (exclusions : List JsString) (followSymlinks : Bool) (depth : ℕ) :
    Option (Except BackupFailure PersistentFilesScanResult) :=
  match scanRoot fs rawHostPath with
  | .error e => some (.error e)
  | .ok canonicalRoot =>
    let s : Scan := ⟨fs, canonicalRoot, exclusions, followSymlinks, before⟩
    (s.walk depth s.rootText ⟨[], 0, 0, 0⟩).map s.finish

end ZimaControl
