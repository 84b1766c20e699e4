import ZimaControl.Backup.Configure
import ZimaControl.Backup.ExecuteJob

/-!
# Names in the archive

Each payload of a backup gets a path in the archive, and each dump a path in the staging directory.
The path of a dump is made of the engine and of the target with some units replaced; the host and
the name of the source are not in it. The path of a file is made of the name of its source with some
units replaced and of its relative path, in which backslashes were replaced before. A configuration
is accepted if the names of its sources differ in lower case, which is something else.

No payload shadows another exactly if no two database sources have the same engine and target in
this spelling, and no two files the same relative path in sources whose names have the same spelling
(`archive_paths_unique_iff`).
-/

namespace ZimaControl

open List Posix ZimaControl.Task

/-! ## What is captured -/

/-- The entry of the dump of a source. -/
def IsDumpOf (stagingDirectory : JsString) (source : BackupSourceConfig) (entry : ArchiveFileEntry) :
    Prop :=
  ∃ engine target, engineName source.dbEngine = .ok engine ∧
    sanitizeTarget source.dbTarget = .ok target ∧
    entry.archiveRelativePath = js "database/" ++ sqlFileName engine target ∧
    entry.diskPath = Posix.join [dumpDirectory stagingDirectory, sqlFileName engine target]

/-- The entries of the files that the scans of sources found. -/
def scannedEntries (record : JobRecord)
    (scanned : List (BackupSourceConfig × List PersistentFileEntry)) : List ArchiveFileEntry :=
  scanned.flatMap fun scan => scan.2.map (fileEntry record scan.1)

variable {host : BackupHost} {record : JobRecord} {stagingDirectory : JsString}
  (source : BackupSourceConfig)

/-- What is captured under a task is what the capture returns. -/
theorem underTask_returns {α : Type} {Q : α → Prop} (code : String) {capture : Backup α}
    (h : capture.Returns Q) : (underTask record source code capture).Returns Q := by
  refine (Returns.trivial _).bind fun task _ => ?_
  refine Returns.tryCatch ?_ fun e => ?_
  · refine h.bind fun captured hcaptured => ?_
    exact (Returns.trivial _).bind fun _ _ => .pure hcaptured
  · exact (Returns.trivial _).bind fun _ _ => True.intro

/-- A database source gives the entry of its dump. -/
theorem captureDatabase_returns :
    (captureDatabase record stagingDirectory source).Returns fun entries =>
      ∃ entry, entries = [entry] ∧ IsDumpOf stagingDirectory source entry := by
  refine underTask_returns source _ ?_
  refine (Returns.trivial _).bind fun _ _ => ?_
  have hdump : (captureDump source stagingDirectory).Returns (IsDumpOf stagingDirectory source) := by
    refine Returns.bindRet fun engine hengine => ?_
    refine Returns.bindRet fun target htarget => ?_
    refine (Returns.trivial _).bind fun _ _ => ?_
    refine (Returns.trivial _).bind fun _ _ => ?_
    exact .pure ⟨engine, target, hengine, htarget, rfl, rfl⟩
  exact hdump.bind fun entry hentry => .pure ⟨entry, rfl, hentry⟩

/-- A source of files gives the entries of the files that a scan found. -/
theorem captureFiles_returns :
    (captureFiles host record source).Returns fun entries =>
      ∃ files : List PersistentFileEntry, entries = files.map (fileEntry record source) := by
  refine underTask_returns source _ ?_
  split
  · exact True.intro
  · exact True.intro
  refine Returns.bindRet fun exclusions _ => ?_
  refine (Returns.trivial _).bind fun files _ => ?_
  split_ifs
  · exact True.intro
  · exact .pure ⟨files, rfl⟩

/-- A list of sources gives the entries of each of them. -/
theorem captureAll_returns {P : BackupSourceConfig → List ArchiveFileEntry → Prop}
    {capture : BackupSourceConfig → Backup (List ArchiveFileEntry)}
    (h : ∀ source, (capture source).Returns (P source)) (sources : List BackupSourceConfig) :
    (captureAll capture sources).Returns fun entries =>
      ∃ parts, List.Forall₂ P sources parts ∧ entries = parts.flatten := by
  induction sources with
  | nil => exact .pure ⟨[], .nil, rfl⟩
  | cons source rest ih =>
    refine (h source).bind fun entries hentries => ?_
    refine ih.bind fun others hothers => ?_
    obtain ⟨parts, hparts, rfl⟩ := hothers
    exact .pure ⟨entries :: parts, .cons hentries hparts, rfl⟩

variable (sources : List BackupSourceConfig)

/-- The dumps are those of the database sources, in order. -/
theorem dumps_returns :
    (captureAll (captureDatabase record stagingDirectory) sources).Returns
      (List.Forall₂ (IsDumpOf stagingDirectory) sources) := by
  refine (captureAll_returns captureDatabase_returns sources).mono ?_
  rintro entries ⟨parts, hparts, rfl⟩
  induction hparts with
  | nil => exact .nil
  | cons hfirst hrest ih =>
    obtain ⟨entry, rfl, hentry⟩ := hfirst
    exact .cons hentry ih

/-- The entries of files are those of what the scans of the sources found. -/
theorem files_returns :
    (captureAll (captureFiles host record) sources).Returns fun entries =>
      ∃ scanned, scanned.map (·.1) = sources ∧ entries = scannedEntries record scanned := by
  refine (captureAll_returns captureFiles_returns sources).mono ?_
  rintro entries ⟨parts, hparts, rfl⟩
  induction hparts with
  | nil => exact ⟨[], rfl, rfl⟩
  | cons hfirst hrest ih =>
    rename_i source part sources parts
    obtain ⟨files, rfl⟩ := hfirst
    obtain ⟨scanned, rfl, hentries⟩ := ih
    refine ⟨(source, files) :: scanned, rfl, ?_⟩
    rw [flatten_cons, hentries]
    rfl

/-! ## Dumps -/

/-- The engine, and the target in its spelling for file names. -/
def dumpKey (source : BackupSourceConfig) : Option DatabaseEngineType × Option JsString :=
  (source.dbEngine, source.dbTarget.map fun target => safeName (trim target))

/-- The text of an engine that can be dumped. -/
def engineText : Option DatabaseEngineType → JsString
  | some .mysql => js "mysql"
  | _ => js "mariadb"

/-- The file name of a dump. -/
def dumpName (key : Option DatabaseEngineType × Option JsString) : JsString :=
  engineText key.1 ++ js "-" ++ key.2.getD [] ++ js ".sql"

/-- A key of a dump that was made. -/
def IsDumpKey (key : Option DatabaseEngineType × Option JsString) : Prop :=
  (key.1 = some .mariadb ∨ key.1 = some .mysql) ∧ ∃ target, key.2 = some (safeName target)

/-- The paths of a dump, by its key. -/
theorem isDumpKey_of_isDumpOf {source : BackupSourceConfig} {entry : ArchiveFileEntry}
    (h : IsDumpOf stagingDirectory source entry) : IsDumpKey (dumpKey source) ∧
      entry.archiveRelativePath = js "database/" ++ dumpName (dumpKey source) ∧
      entry.diskPath = Posix.join [dumpDirectory stagingDirectory, dumpName (dumpKey source)] := by
  obtain ⟨engine, target, hengine, htarget, harchive, hdisk⟩ := h
  obtain ⟨text, htext, rfl⟩ : ∃ text, source.dbTarget = some text ∧ target = trim text := by
    unfold sanitizeTarget at htarget
    split at htarget
    · cases htarget
    · cases htarget
    · rename_i text hnil heq
      split_ifs at htarget
      cases htarget
      exact ⟨text, heq, rfl⟩
  have hkey : dumpKey source = (source.dbEngine, some (safeName (trim text))) := by
    unfold dumpKey
    rw [htext]
    rfl
  have hengines : (source.dbEngine = some .mariadb ∨ source.dbEngine = some .mysql) ∧
      engine = engineText source.dbEngine := by
    unfold engineName at hengine
    split at hengine
    · cases hengine
      rename_i heq
      rw [heq]
      exact ⟨.inl rfl, rfl⟩
    · cases hengine
      rename_i heq
      rw [heq]
      exact ⟨.inr rfl, rfl⟩
    all_goals cases hengine
  have hname : sqlFileName engine (trim text) = dumpName (dumpKey source) := by
    rw [hkey, hengines.2]
    rfl
  rw [hname] at harchive hdisk
  refine ⟨?_, harchive, hdisk⟩
  rw [hkey]
  exact ⟨hengines.1, trim text, rfl⟩

variable {a b : Option DatabaseEngineType × Option JsString}

/-- Different keys give different file names. -/
theorem dumpName_injective (ha : IsDumpKey a) (hb : IsDumpKey b) (h : dumpName a = dumpName b) :
    a = b := by
  obtain ⟨engineA, targetA⟩ := a
  obtain ⟨engineB, targetB⟩ := b
  obtain ⟨hengineA, textA, htargetA⟩ := ha
  obtain ⟨hengineB, textB, htargetB⟩ := hb
  subst htargetA htargetB
  have hbody := append_cancel_right h
  -- The engines differ in their second letter.
  have hmariadb : ∀ text, (js "mariadb" ++ js "-" ++ text).take 2 = js "ma" := fun _ => rfl
  have hmysql : ∀ text, (js "mysql" ++ js "-" ++ text).take 2 = js "my" := fun _ => rfl
  have hletters := congrArg (List.take 2) hbody
  have hengine : engineA = engineB := by
    obtain rfl | rfl := hengineA <;> obtain rfl | rfl := hengineB
    · rfl
    · exact absurd ((hmariadb _).symm.trans (hletters.trans (hmysql _))) (by decide)
    · exact absurd ((hmysql _).symm.trans (hletters.trans (hmariadb _))) (by decide)
    · rfl
  subst hengine
  have htarget := append_cancel_left hbody
  rw [Option.getD_some, Option.getD_some] at htarget
  rw [htarget]

/-- Different keys give different paths in the staging directory. -/
theorem diskPath_injective (ha : IsDumpKey a) (hb : IsDumpKey b)
    (h : Posix.join [dumpDirectory stagingDirectory, dumpName a] =
      Posix.join [dumpDirectory stagingDirectory, dumpName b]) : a = b := by
  have hname : ∀ key, IsDumpKey key → Posix.IsName (dumpName key) := by
    rintro ⟨engine, target⟩ ⟨hengine, text, rfl⟩
    have hfront : Posix.IsName (engineText engine ++ js "-") ∧
        2 < (engineText engine ++ js "-").length := by
      obtain rfl | rfl := hengine
      all_goals exact ⟨⟨by decide, by decide, by decide, by decide⟩, by decide⟩
    unfold dumpName
    rw [append_assoc]
    refine isName_append hfront.1 hfront.2 ?_
    rw [Option.getD_some, mem_append, not_or]
    exact ⟨slash_notMem_safeName text, by decide⟩
  have hlocation : ∀ key, IsDumpKey key → location []
      (Posix.join [dumpDirectory stagingDirectory, dumpName key]) =
        location [] (dumpDirectory stagingDirectory) ++ [dumpName key] := by
    intro key hkey
    have hdirectory : dumpDirectory stagingDirectory ≠ [] := join_ne_nil _
    rw [location_join hdirectory (hname key hkey).ne_nil,
      location_append_name hdirectory (hname key hkey)]
  have hlocations := congrArg (location []) h
  rw [hlocation a ha, hlocation b hb] at hlocations
  have hnames := append_cancel_left hlocations
  exact dumpName_injective ha hb (singleton_inj.mp hnames)

variable {dumps : List ArchiveFileEntry} {sources : List BackupSourceConfig}

section

variable (h : List.Forall₂ (IsDumpOf stagingDirectory) sources dumps)
include h

/-- The paths of dumps are those of their keys. -/
theorem dumps_paths :
    (∀ key ∈ sources.map dumpKey, IsDumpKey key) ∧
      dumps.map (·.archiveRelativePath) =
        (sources.map dumpKey).map (fun key => js "database/" ++ dumpName key) ∧
      dumps.map (·.diskPath) = (sources.map dumpKey).map
        (fun key => Posix.join [dumpDirectory stagingDirectory, dumpName key]) := by
  induction h with
  | nil => exact ⟨fun _ hmem => absurd hmem not_mem_nil, rfl, rfl⟩
  | cons hfirst hrest ih =>
    obtain ⟨hkey, harchive, hdisk⟩ := isDumpKey_of_isDumpOf hfirst
    obtain ⟨hkeys, harchives, hdisks⟩ := ih
    simp only [map_cons]
    exact ⟨forall_mem_cons.mpr ⟨hkey, hkeys⟩, by rw [harchive, harchives],
      by rw [hdisk, hdisks]⟩

/-- The paths of dumps differ exactly if their keys do. -/
theorem dumps_nodup_iff :
    ((dumps.map (·.archiveRelativePath)).Nodup ↔ (sources.map dumpKey).Nodup) ∧
      ((dumps.map (·.diskPath)).Nodup ↔ (sources.map dumpKey).Nodup) := by
  obtain ⟨hkeys, harchives, hdisks⟩ := dumps_paths h
  rw [harchives, hdisks]
  constructor
  · refine ⟨List.Nodup.of_map _, List.Nodup.map_on fun a ha b hb heq => ?_⟩
    exact dumpName_injective (hkeys a ha) (hkeys b hb) (append_cancel_left heq)
  · refine ⟨List.Nodup.of_map _, List.Nodup.map_on fun a ha b hb heq => ?_⟩
    exact diskPath_injective (hkeys a ha) (hkeys b hb) heq

end

/-! ## Files -/

/-- The name of the source in its spelling for file names, and the relative path. -/
def fileKeys (scanned : List (BackupSourceConfig × List PersistentFileEntry)) :
    List (JsString × JsString) :=
  scanned.flatMap fun scan => scan.2.map fun file => (safeName scan.1.name, file.relativePath)

/-- The files of each source are in a directory of their own. -/
def HasFolders (record : JobRecord) : Prop :=
  ((record.sourcesOf .database).length > 0 ∧ (record.sourcesOf .persistentFiles).length > 0) ∨
    (record.sourcesOf .persistentFiles).length > 1

instance (record : JobRecord) : Decidable (HasFolders record) :=
  inferInstanceAs (Decidable (_ ∨ _))

/-- The path of a file in a directory. -/
def folderPath (key : JsString × JsString) : JsString := js "files/" ++ key.1 ++ js "/" ++ key.2

/-- The path of a file. -/
def filePath (record : JobRecord) (key : JsString × JsString) : JsString :=
  if HasFolders record then folderPath key else key.2

/-- Different keys give different paths in directories. -/
theorem folderPath_injective {a b : JsString × JsString} (ha : unit '/' ∉ a.1) (hb : unit '/' ∉ b.1)
    (h : folderPath a = folderPath b) : a = b := by
  have hslash : js "/" = [unit '/'] := by decide
  unfold folderPath at h
  rw [hslash, append_assoc, append_assoc, append_assoc, append_assoc] at h
  have hrest := append_cancel_left h
  have hsegments : segments (a.1 ++ unit '/' :: a.2) =
      segments (b.1 ++ unit '/' :: b.2) := congrArg segments hrest
  rw [segments_append, segments_append, segments_of_notMem ha,
    segments_of_notMem hb] at hsegments
  have hname : a.1 = b.1 := (cons_eq_cons.mp hsegments).1
  rw [hname] at hrest
  have hpath : unit '/' :: a.2 = unit '/' :: b.2 := append_cancel_left hrest
  exact Prod.ext hname (cons_eq_cons.mp hpath).2

/-- The path of an entry is that of its key. -/
theorem archivePath_fileEntry (record : JobRecord) (source : BackupSourceConfig)
    (file : PersistentFileEntry) : (fileEntry record source file).archiveRelativePath =
      filePath record (safeName source.name, file.relativePath) := by
  unfold fileEntry filePath folderPath
  by_cases hfolders : HasFolders record
  · have hfolder : sourceArchiveFolder record source = js "files/" ++ safeName source.name :=
      if_pos hfolders
    have hlength : (js "files/").length = 6 := by decide
    have hlong : (js "files/" ++ safeName source.name).length > 0 := by
      rw [length_append, hlength]
      omega
    rw [hfolder, if_pos hlong, if_pos hfolders]
  · have hfolder : sourceArchiveFolder record source = [] := if_neg hfolders
    rw [hfolder, if_neg (by decide), if_neg hfolders]

variable {scanned : List (BackupSourceConfig × List PersistentFileEntry)}

/-- A key is made of the name of a source. -/
theorem exists_source_of_mem_fileKeys {key : JsString × JsString} (h : key ∈ fileKeys scanned) :
    ∃ source ∈ scanned.map (·.1), key.1 = safeName source.name := by
  obtain ⟨scan, hscan, hkey⟩ := mem_flatMap.mp h
  obtain ⟨file, -, rfl⟩ := mem_map.mp hkey
  exact ⟨scan.1, mem_map_of_mem hscan, rfl⟩

/-- The paths of files are those of their keys. -/
theorem files_paths (record : JobRecord)
    (scanned : List (BackupSourceConfig × List PersistentFileEntry)) :
    (scannedEntries record scanned).map (·.archiveRelativePath) =
      (fileKeys scanned).map (filePath record) := by
  simp [scannedEntries, fileKeys, map_flatMap, archivePath_fileEntry, Function.comp_def]

/-- The paths of files differ exactly if their keys do. -/
theorem files_nodup_iff (hscanned : scanned.map (·.1) = record.sourcesOf .persistentFiles) :
    ((scannedEntries record scanned).map (·.archiveRelativePath)).Nodup ↔
      (fileKeys scanned).Nodup := by
  rw [files_paths]
  refine ⟨List.Nodup.of_map _, List.Nodup.map_on fun a ha b hb heq => ?_⟩
  obtain ⟨sourceA, hmemA, hnameA⟩ := exists_source_of_mem_fileKeys ha
  obtain ⟨sourceB, hmemB, hnameB⟩ := exists_source_of_mem_fileKeys hb
  unfold filePath at heq
  by_cases hfolders : HasFolders record
  · rw [if_pos hfolders, if_pos hfolders] at heq
    refine folderPath_injective ?_ ?_ heq
    · rw [hnameA]
      exact slash_notMem_safeName _
    · rw [hnameB]
      exact slash_notMem_safeName _
  · -- Without directories there is one source of files.
    rw [if_neg hfolders, if_neg hfolders] at heq
    rw [hscanned] at hmemA hmemB
    have hsame : sourceA = sourceB := by
      unfold HasFolders at hfolders
      obtain ⟨source, hsource⟩ : ∃ source, record.sourcesOf .persistentFiles = [source] := by
        rw [← length_eq_one_iff]
        have hpos := length_pos_of_mem hmemA
        omega
      rw [hsource, mem_singleton] at hmemA hmemB
      rw [hmemA, hmemB]
    exact Prod.ext (by rw [hnameA, hnameB, hsame]) heq

/-! ## All payloads -/

/-- No dump has the path of a file. -/
theorem dumps_files_disjoint
    (hdumps : List.Forall₂ (IsDumpOf stagingDirectory) (record.sourcesOf .database) dumps)
    (hscanned : scanned.map (·.1) = record.sourcesOf .persistentFiles) :
    (dumps.map (·.archiveRelativePath)).Disjoint
      ((scannedEntries record scanned).map (·.archiveRelativePath)) := by
  obtain ⟨-, harchives, -⟩ := dumps_paths hdumps
  rw [harchives, files_paths]
  intro path hdump hfile
  obtain ⟨dumpKey, hdumpKey, rfl⟩ := mem_map.mp hdump
  obtain ⟨key, hkey, heq⟩ := mem_map.mp hfile
  obtain ⟨source, hsource, -⟩ := exists_source_of_mem_fileKeys hkey
  rw [hscanned] at hsource
  have hfolders : HasFolders record := by
    have hdatabase := length_pos_of_mem hdumpKey
    rw [length_map] at hdatabase
    exact .inl ⟨hdatabase, length_pos_of_mem hsource⟩
  unfold filePath folderPath at heq
  rw [if_pos hfolders, append_assoc, append_assoc] at heq
  have hfiles : ∀ text, (js "files/" ++ text).take 1 = js "f" := fun _ => rfl
  have hdatabase : ∀ text, (js "database/" ++ text).take 1 = js "d" := fun _ => rfl
  have hletter := congrArg (List.take 1) heq
  rw [hfiles, hdatabase] at hletter
  exact absurd hletter (by decide)

/-- Whatever the sources and scans: no two payloads of a backup have the same path in the archive
and no two dumps the same path in the staging directory, exactly if no two database sources have the
same engine and target and no two files the same relative path in sources of the same name, in the
spellings for file names. -/
theorem archive_paths_unique_iff (host : BackupHost) (record : JobRecord)
    (stagingDirectory : JsString) {w₀ w₁ w₂ : BackupWorld} {dumps files : List ArchiveFileEntry}
    (hdumps : (captureAll (captureDatabase record stagingDirectory)
      (record.sourcesOf .database)).Runs (backupHandler host) w₀ (.ok dumps) w₁)
    (hfiles : (captureAll (captureFiles host record)
      (record.sourcesOf .persistentFiles)).Runs (backupHandler host) w₁ (.ok files) w₂) :
    ∃ scanned, scanned.map (·.1) = record.sourcesOf .persistentFiles ∧
      files = scannedEntries record scanned ∧
      ((((dumps ++ files).map (·.archiveRelativePath)).Nodup ∧ (dumps.map (·.diskPath)).Nodup) ↔
        ((record.sourcesOf .database).map dumpKey).Nodup ∧ (fileKeys scanned).Nodup) := by
  have hall := (dumps_returns _).runs hdumps
  obtain ⟨scanned, hscanned, rfl⟩ := (files_returns _).runs hfiles
  obtain ⟨harchive, hdisk⟩ := dumps_nodup_iff hall
  have hdisjoint := dumps_files_disjoint hall hscanned
  refine ⟨scanned, hscanned, rfl, ?_⟩
  rw [map_append, nodup_append', harchive, hdisk, files_nodup_iff hscanned]
  constructor
  · rintro ⟨⟨hkeys, hfileKeys, -⟩, -⟩
    exact ⟨hkeys, hfileKeys⟩
  · rintro ⟨hkeys, hfileKeys⟩
    exact ⟨⟨hkeys, hfileKeys, hdisjoint⟩, hkeys⟩

/-- A database source of an input. -/
def databaseInput (name target dbHost : String) : BackupSourceInput where
  name := some (js name)
  sourceType := js "DATABASE"
  dbEngine := some (js "mariadb")
  dbTarget := some (js target)
  dbHost := some (js dbHost)
  dbPort := none
  dbUser := some (js "backup")
  dbSecretRef := none
  fileHostPath := none
  fileExclusions := none
  fileFollowSymlinks := false

/-- What becomes of an input in a world with one application. -/
def acceptedConfig (sources : List BackupSourceInput) : Except BackupFailure BackupConfig :=
  (updateBackupConfig .ascii .plain ⟨js "d", js "c", 0⟩
    { BackupWorld.empty with applications := [⟨js "app", js "app"⟩] } (js "app")
    ⟨false, none, none, none, sources⟩).1

/-- The configuration that is made of these sources. -/
def configWith (sources : List BackupSourceConfig) : BackupConfig :=
  ⟨js "c", ⟨js "app", js "app"⟩, true, 3, none, js "d", sources, 0⟩

/-- The source that is made of a database. -/
def databaseSource (name target dbHost : String) : BackupSourceConfig :=
  ⟨.database, js name, some .mariadb, some (js target), some (js dbHost), some 3306,
    some (js "backup"), none, none, none, false⟩

/-- The source that is made of a directory. -/
def filesSource (name path : String) : BackupSourceConfig :=
  ⟨.persistentFiles, js name, none, none, none, none, none, none, some (js path), none, false⟩

/-- A job with these sources. -/
def jobOf (sources : List BackupSourceConfig) : JobRecord where
  job := ⟨js "j", js "app", js "c", .manual, none, .queued, none, none, none, none, 0⟩
  config := configWith sources
  destination := none
  tasks := []

/-- The two loops of the capture. -/
def captureEntries (host : BackupHost) (record : JobRecord) (stagingDirectory : JsString) :
    Backup (List ArchiveFileEntry × List ArchiveFileEntry) := do
  let dumps ← captureAll (captureDatabase record stagingDirectory) (record.sourcesOf .database)
  let files ← captureAll (captureFiles host record) (record.sourcesOf .persistentFiles)
  return (dumps, files)

/-- A database source is captured. -/
def databaseChoices (id : String) : List BackupChoice :=
  [.created (js id) 0, .done, .done, .number 1, .done]

/-- What the two loops do for these choices of the environment. -/
theorem exists_captures {record : JobRecord} {choices : List BackupChoice}
    {dumps files : List ArchiveFileEntry}
    (h : ((captureEntries .plain record (js "/s")).eval (backupHandler .plain) .empty choices).map
      (fun o => (o.1, o.2.2)) = some (.ok (dumps, files), [])) :
    ∃ w₁ w₂, (captureAll (captureDatabase record (js "/s")) (record.sourcesOf .database)).Runs
        (backupHandler .plain) .empty (.ok dumps) w₁ ∧
      (captureAll (captureFiles .plain record) (record.sourcesOf .persistentFiles)).Runs
        (backupHandler .plain) w₁ (.ok files) w₂ := by
  obtain ⟨⟨r, w₂, rest⟩, heval, heq⟩ := Option.map_eq_some_iff.mp h
  obtain ⟨rfl, rfl⟩ := Prod.mk.inj heq
  have hruns := runs_iff_eval.mpr ⟨choices, heval⟩
  obtain ⟨dumps', w₁, hdumps, hnext⟩ := runs_bind_ok.mp hruns
  obtain ⟨files', w₂', hfiles, hreturn⟩ := runs_bind_ok.mp hnext
  obtain ⟨hpair, rfl⟩ := runs_pure.mp hreturn
  cases hpair
  exact ⟨w₁, w₂, hdumps, hfiles⟩

/-- A database and a directory with one file have different paths. -/
theorem archive_paths_unique_mixed : ∃ dumps files scanned,
    files = scannedEntries (jobOf [databaseSource "db" "shop" "db1",
      filesSource "media" "/data/media"]) scanned ∧
    (dumps ++ files).map (·.archiveRelativePath) =
      [js "database/mariadb-shop.sql", js "files/media/a"] ∧
    ([databaseSource "db" "shop" "db1"].map dumpKey).Nodup ∧ (fileKeys scanned).Nodup := by
  have hentries : ((captureEntries .plain (jobOf [databaseSource "db" "shop" "db1",
      filesSource "media" "/data/media"]) (js "/s")).eval (backupHandler .plain) .empty
        (databaseChoices "t1" ++ [.created (js "t2") 0,
          .files [⟨js "/data/media/a", js "a", 2, false⟩], .done])).map
        (fun o => (o.1, o.2.2)) =
          some (.ok ([⟨js "/s/database/mariadb-shop.sql", js "database/mariadb-shop.sql", 1⟩],
            [⟨js "/data/media/a", js "files/media/a", 2⟩]), []) := by decide +kernel
  obtain ⟨w₁, w₂, hdumps, hfiles⟩ := exists_captures hentries
  obtain ⟨scanned, -, hscanned, hiff⟩ :=
    archive_paths_unique_iff .plain _ (js "/s") hdumps hfiles
  have hkeys := hiff.mp ⟨by decide +kernel, by decide +kernel⟩
  exact ⟨[⟨js "/s/database/mariadb-shop.sql", js "database/mariadb-shop.sql", 1⟩], _, scanned,
    hscanned, rfl, hkeys⟩

/-- Databases of one name on two hosts are accepted, and the second dump overwrites the first. -/
theorem same_target_shadowed : ∃ dumps w₁,
    acceptedConfig [databaseInput "main" "shop" "db1", databaseInput "copy" "shop" "db2"] =
      .ok (configWith [databaseSource "main" "shop" "db1", databaseSource "copy" "shop" "db2"]) ∧
    (captureAll (captureDatabase (jobOf [databaseSource "main" "shop" "db1",
        databaseSource "copy" "shop" "db2"]) (js "/s"))
      [databaseSource "main" "shop" "db1", databaseSource "copy" "shop" "db2"]).Runs
        (backupHandler .plain) .empty (.ok dumps) w₁ ∧
    ¬ (dumps.map (·.archiveRelativePath)).Nodup ∧ ¬ (dumps.map (·.diskPath)).Nodup := by
  have hentries : ((captureEntries .plain (jobOf [databaseSource "main" "shop" "db1",
      databaseSource "copy" "shop" "db2"]) (js "/s")).eval (backupHandler .plain) .empty
        (databaseChoices "t1" ++ databaseChoices "t2")).map (fun o => (o.1, o.2.2)) =
          some (.ok ([⟨js "/s/database/mariadb-shop.sql", js "database/mariadb-shop.sql", 1⟩,
            ⟨js "/s/database/mariadb-shop.sql", js "database/mariadb-shop.sql", 1⟩], []), []) := by
    decide +kernel
  obtain ⟨w₁, -, hdumps, -⟩ := exists_captures hentries
  exact ⟨_, w₁, by decide +kernel, hdumps, by decide +kernel, by decide +kernel⟩

end ZimaControl
