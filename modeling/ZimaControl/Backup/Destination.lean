import ZimaControl.Backup.Contracts
import ZimaControl.Lib.JsDate
import ZimaControl.Lib.Posix

/-!
# Where backups live

The paths of a destination (`FilesystemDestinationProviderBase` of `destination.ts`), the names of
the three files of a backup, and the registry of the providers. `location_final` and
`location_staging` say where the paths lead.
-/

namespace ZimaControl

open List Posix Posix

/-- What the services know of their host: the working directory, the destination types with a
provider, `isFilesystemIoError`, and `JSON.parse` of an exclusion list. -/
structure BackupHost where
  cwd : JsString
  providers : List DestinationType
  isFilesystemIoError : BackupFailure → Bool
  parseExclusions : JsString → Except BackupFailure (List JsString)

namespace BackupHost

variable (host : BackupHost)

/-- `isPathContained`. -/
def isPathContained (targetPath rootDir : JsString) : Bool :=
  let resolvedTarget := resolve host.cwd targetPath
  let resolvedRoot := resolve host.cwd rootDir
  if resolvedRoot.isPrefixOf resolvedTarget = false then false
  else if resolvedTarget.length = resolvedRoot.length then true
  else
    let sep := resolvedTarget[resolvedRoot.length]?
    sep = some (unit '/') || sep = some (unit '\\')

/-- `resolveStagingDirectory`. -/
def resolveStagingDirectory (destination : BackupDestination) (jobId : JsString) :
    Except BackupFailure JsString :=
  let base := slashes (normalize destination.basePath)
  let stagingDir := base ++ js "/staging/.tmp-" ++ jobId
  if host.isPathContained stagingDir destination.basePath = false then
    .error (backupDestinationInvalidError
      (js "Path traversal detected in staging directory for job '" ++ jobId ++ js "'"))
  else .ok stagingDir

/-- `resolveStorageDirectory`. -/
def resolveStorageDirectory (destination : BackupDestination) (applicationName : JsString) :
    Except BackupFailure JsString :=
  let base := slashes (normalize destination.basePath)
  let storageDir := base ++ js "/storage/" ++ safeName applicationName
  if host.isPathContained storageDir destination.basePath = false then
    .error (backupDestinationInvalidError
      (js "Path traversal detected in storage directory for application '" ++ applicationName ++
        js "'"))
  else .ok storageDir

/-- `registry.resolve(destination)`. All providers resolve paths alike. -/
def resolveProvider (destination : BackupDestination) : Except BackupFailure Unit :=
  if destination.type ∈ host.providers then .ok ()
  else .error (backupDestinationInvalidError
    (js "Unsupported destination type: '" ++ js destination.type.text ++ js "'"))

/-- A host with the default providers, at the root of its filesystem. -/
def plain : BackupHost where
  cwd := js "/"
  providers := [.localFilesystem, .synologyNas]
  isFilesystemIoError := fun _ => false
  parseExclusions := fun _ => .ok []

end BackupHost

/-! ## File names -/

/-- `bundleFileName.replace(/\.tar\.zst$/, "")`. -/
def baseName (bundleFileName : JsString) : JsString :=
  if (js ".tar.zst").isSuffixOf bundleFileName then
    bundleFileName.take (bundleFileName.length - (js ".tar.zst").length)
  else bundleFileName

/-- The name of the manifest of a bundle. -/
def manifestFileName (bundleFileName : JsString) : JsString :=
  baseName bundleFileName ++ js ".manifest.json"

/-- The name of the checksum file of a bundle. -/
def sha256FileName (bundleFileName : JsString) : JsString := baseName bundleFileName ++ js ".sha256"

/-- The name of the bundle that a job writes. -/
def bundleFileName (applicationName : JsString) (startedAt : ℤ) (jobId : JsString) : JsString :=
  let timestampStr := ((toISOString startedAt).filter fun u =>
    u ≠ unit '-' ∧ u ≠ unit ':' ∧ u ≠ unit 'T').take 14
  js "backup-" ++ safeName applicationName ++ js "-" ++ timestampStr ++ js "-" ++ jobId.take 8 ++
    js ".tar.zst"

/-- What stands before `.tar.zst`. -/
theorem baseName_append (front : JsString) : baseName (front ++ js ".tar.zst") = front := by
  unfold baseName
  rw [if_pos (isSuffixOf_iff_suffix.mpr (suffix_append front (js ".tar.zst"))),
    length_append, Nat.add_sub_cancel, take_left]

/-- A safe name has safe units only. -/
theorem isSafeUnit_of_mem_safeName {text : JsString} {u : CodeUnit} (h : u ∈ safeName text) :
    isSafeUnit u = true := by
  obtain ⟨v, -, rfl⟩ := mem_map.mp h
  split_ifs with hsafe
  · exact hsafe
  · decide

/-- A safe name has no slash. -/
theorem slash_notMem_safeName (text : JsString) : unit '/' ∉ safeName text := fun h =>
  absurd (isSafeUnit_of_mem_safeName h) (by decide)

/-- A safe name that is not empty names a directory. -/
theorem isName_safeName {text : JsString} (h : safeName text ≠ []) :
    IsName (safeName text) := by
  have hdot : ∀ name, safeName text = name → unit '.' ∉ name := fun name heq hmem =>
    absurd (isSafeUnit_of_mem_safeName (heq ▸ hmem)) (by decide)
  exact ⟨h, fun heq => hdot _ heq (by decide), fun heq => hdot _ heq (by decide),
    slash_notMem_safeName text⟩

/-- What stands in the name of a bundle before `.tar.zst`. -/
theorem bundleFileName_eq (applicationName : JsString) (startedAt : ℤ) (jobId : JsString) :
    ∃ middle, bundleFileName applicationName startedAt jobId =
        js "backup-" ++ middle ++ js ".tar.zst" ∧ (unit '/' ∉ jobId → unit '/' ∉ middle) := by
  refine ⟨safeName applicationName ++ js "-" ++ ((toISOString startedAt).filter fun u =>
    u ≠ unit '-' ∧ u ≠ unit ':' ∧ u ≠ unit 'T').take 14 ++ js "-" ++ jobId.take 8, ?_, ?_⟩
  · simp [bundleFileName]
  · intro hid
    have hdash : unit '/' ∉ js "-" := by decide
    have htime : unit '/' ∉ ((toISOString startedAt).filter fun u =>
        u ≠ unit '-' ∧ u ≠ unit ':' ∧ u ≠ unit 'T').take 14 := fun h =>
      slash_notMem_toISOString startedAt (mem_of_mem_filter (mem_of_mem_take h))
    simp only [mem_append, slash_notMem_safeName, hdash, or_false, false_or, not_or]
    exact ⟨htime, fun h => hid (mem_of_mem_take h)⟩

/-- A text that starts with a letter and has no slash names a file. -/
theorem isName_append {front rest : JsString} (hfront : IsName front)
    (hlong : 2 < front.length) (hrest : unit '/' ∉ rest) : IsName (front ++ rest) := by
  have hlength : (front ++ rest).length = front.length + rest.length := length_append
  refine ⟨?_, ?_, ?_, ?_⟩
  · exact append_ne_nil_of_left_ne_nil hfront.ne_nil rest
  all_goals intro h
  · rw [h] at hlength
    have : (js ".").length = 1 := by decide
    omega
  · rw [h] at hlength
    have : (js "..").length = 2 := by decide
    omega
  · rcases mem_append.mp h with h | h
    · exact hfront.noSlash h
    · exact hrest h

/-- The start of the name of a bundle. -/
theorem isName_backup : IsName (js "backup-") := ⟨by decide, by decide, by decide, by decide⟩

/-- The names of a job's files. -/
theorem isName_fileNames {jobId : JsString} (hid : unit '/' ∉ jobId) (applicationName : JsString)
    (startedAt : ℤ) :
    IsName (bundleFileName applicationName startedAt jobId) ∧
      IsName (manifestFileName (bundleFileName applicationName startedAt jobId)) ∧
      IsName (sha256FileName (bundleFileName applicationName startedAt jobId)) := by
  obtain ⟨middle, heq, hmiddle⟩ := bundleFileName_eq applicationName startedAt jobId
  unfold manifestFileName sha256FileName
  rw [heq, baseName_append, append_assoc, append_assoc, append_assoc]
  have hslash : ∀ suffix ∈ [js ".tar.zst", js ".manifest.json", js ".sha256"],
      unit '/' ∉ middle ++ suffix := by
    intro suffix hsuffix
    rw [mem_append, not_or]
    refine ⟨hmiddle hid, ?_⟩
    revert suffix
    decide
  exact ⟨isName_append isName_backup (by decide) (hslash _ (by simp)),
    isName_append isName_backup (by decide) (hslash _ (by simp)),
    isName_append isName_backup (by decide) (hslash _ (by simp))⟩

/-! ## Locations -/

/-- The base path of a destination as it is used. -/
theorem slashes_normalize_ne_nil (path : JsString) : slashes (normalize path) ≠ [] := by
  simpa [slashes] using normalize_ne_nil path

/-- The directory of staging areas. -/
theorem isName_staging : IsName (js "staging") := ⟨by decide, by decide, by decide, by decide⟩

/-- The directory of finished backups. -/
theorem isName_storage : IsName (js "storage") := ⟨by decide, by decide, by decide, by decide⟩

/-- Where the base path of a destination leads. -/
def baseLocation (host : BackupHost) (destination : BackupDestination) : List JsString :=
  location host.cwd (slashes (normalize destination.basePath))

variable {destination : BackupDestination}

/-- Where the staging directory of a job lies. -/
theorem location_staging {host : BackupHost} {jobId path : JsString} (hid : unit '/' ∉ jobId)
    (h : host.resolveStagingDirectory destination jobId = .ok path) :
    path ≠ [] ∧ location host.cwd path =
      baseLocation host destination ++ [js "staging", js ".tmp-" ++ jobId] := by
  unfold BackupHost.resolveStagingDirectory at h
  dsimp only at h
  split_ifs at h
  cases h
  have hbase := slashes_normalize_ne_nil destination.basePath
  have hname : IsName (js ".tmp-" ++ jobId) :=
    isName_append ⟨by decide, by decide, by decide, by decide⟩ (by decide) hid
  have hpath : slashes (normalize destination.basePath) ++ js "/staging/.tmp-" ++ jobId =
      slashes (normalize destination.basePath) ++
        unit '/' :: (js "staging" ++ unit '/' :: (js ".tmp-" ++ jobId)) := by
    have hliteral : js "/staging/.tmp-" =
        unit '/' :: (js "staging" ++ unit '/' :: js ".tmp-") := by decide
    rw [hliteral]
    simp
  refine ⟨by simp [hbase], ?_⟩
  rw [hpath]
  refine location_append_names hbase ?_ ?_ host.cwd
  · rw [segments_append, segments_of_notMem isName_staging.noSlash,
      segments_of_notMem hname.noSlash]
    rfl
  · simp [isName_staging, hname]

/-- The storage directory of an application, below its destination. -/
def storagePath (applicationName : JsString) : List JsString :=
  js "storage" :: if safeName applicationName = [] then [] else [safeName applicationName]

/-- Where the storage directory of an application lies. -/
theorem location_storage {host : BackupHost} {applicationName path : JsString}
    (h : host.resolveStorageDirectory destination applicationName = .ok path) :
    path ≠ [] ∧ location host.cwd path =
      baseLocation host destination ++ storagePath applicationName := by
  unfold BackupHost.resolveStorageDirectory at h
  dsimp only at h
  split_ifs at h
  cases h
  have hbase := slashes_normalize_ne_nil destination.basePath
  have hliteral : js "/storage/" = unit '/' :: (js "storage" ++ [unit '/']) := by decide
  refine ⟨by simp [hbase], ?_⟩
  unfold storagePath
  by_cases hempty : safeName applicationName = []
  · rw [hempty, if_pos rfl, append_nil, hliteral, ← cons_append, ← append_assoc,
      location_append_slash (by simp [hbase]), location_append_name hbase isName_storage]
    rfl
  · have hname := isName_safeName hempty
    have hpath : slashes (normalize destination.basePath) ++ js "/storage/" ++
        safeName applicationName = slashes (normalize destination.basePath) ++
          unit '/' :: (js "storage" ++ unit '/' :: safeName applicationName) := by
      rw [hliteral]
      simp
    rw [if_neg hempty, hpath]
    refine location_append_names hbase ?_ ?_ host.cwd
    · rw [segments_append, segments_of_notMem isName_storage.noSlash,
        segments_of_notMem hname.noSlash]
      rfl
    · simp [isName_storage, hname]

/-- Where a file of a backup lies. -/
theorem location_file {host : BackupHost} {applicationName path name : JsString}
    (hname : IsName name)
    (h : host.resolveStorageDirectory destination applicationName = .ok path) :
    location host.cwd (join [path, name]) =
      baseLocation host destination ++ storagePath applicationName ++ [name] := by
  obtain ⟨hne, hpath⟩ := location_storage h
  rw [location_join hne hname.ne_nil, location_append_name hne hname, hpath]

end ZimaControl
