import ZimaControl.Backup.Destination
import ZimaControl.Lib.Solo
import Mathlib.Data.List.Perm.Basic

/-!
# The world of the backup services

What the backup services ask of the database, the filesystem and the host, and how a world of tables
and files answers. A statement is one call, and so is a transaction, for transactions are
serialisable. The environment chooses the order of rows, new identifiers, times, what an external
tool reports, and whether a call fails. A call that fails leaves no effect, except that a file it
was writing may be there, and a directory it was removing may be gone in part.

Files are found by their locations, so two paths that lead to one place name one file. The list
`failed` is kept for the properties that speak of failing calls.
-/

namespace ZimaControl

/-! ## Data of the calls -/

/-- `ArchiveFileEntry`. -/
structure ArchiveFileEntry where
  diskPath : JsString
  archiveRelativePath : JsString
  sizeBytes : ℕ
  deriving DecidableEq

/-- `PersistentFileEntry`. -/
structure PersistentFileEntry where
  absolutePath : JsString
  relativePath : JsString
  sizeBytes : ℕ
  isSymlink : Bool
  deriving DecidableEq

/-- `DestinationHealth`, with the fields that are read. -/
structure DestinationHealth where
  isAvailable : Bool
  reasonCode : Option JsString
  detail : Option JsString
  deriving DecidableEq

/-- The detail of a health report, in parentheses. -/
def detailText : Option JsString → JsString
  | none | some [] => []
  | some detail => js " (" ++ detail ++ js ")"

/-- `BackupVerificationSummary`, with the fields that are read. -/
structure VerificationSummary where
  isVerified : Bool
  failureReasonCode : Option JsString
  deriving DecidableEq

/-- A job as `executeBackupJob` loads it. -/
structure JobRecord where
  job : BackupJob
  config : BackupConfig
  destination : Option BackupDestination
  tasks : List BackupJobSourceTask

/-- The data of an update of a job; a field without a value stays as it is. -/
structure JobUpdate where
  status : BackupJobStatus
  failureReasonCode : Option JsString := none
  failureDetail : Option JsString := none
  startedAt : Option ℤ := none
  completedAt : Option ℤ := none
  deriving DecidableEq

/-- The row after an update. -/
def JobUpdate.apply (data : JobUpdate) (job : BackupJob) : BackupJob :=
  { job with
    status := data.status
    failureReasonCode := data.failureReasonCode <|> job.failureReasonCode
    failureDetail := data.failureDetail <|> job.failureDetail
    startedAt := data.startedAt <|> job.startedAt
    completedAt := data.completedAt <|> job.completedAt }

/-- The data of a new job. -/
structure NewJob where
  applicationId : JsString
  backupConfigId : JsString
  triggerType : BackupTriggerType
  actorId : Option JsString
  createdAt : Option ℤ
  deriving DecidableEq

/-- The row of a new job, created at the database's time if none is given. -/
def NewJob.row (data : NewJob) (id : JsString) (now : ℤ) : BackupJob where
  id := id
  applicationId := data.applicationId
  backupConfigId := data.backupConfigId
  triggerType := data.triggerType
  actorId := data.actorId
  status := .queued
  failureReasonCode := none
  failureDetail := none
  startedAt := none
  completedAt := none
  createdAt := data.createdAt.getD now

/-- The outcome of the transaction that enqueues a job. -/
inductive Enqueued
  /-- An active job of the application was there. -/
  | existing (job : BackupJob)
  /-- A job was created. -/
  | created (job : BackupJob)

/-- The data of a new artifact, which is verified and retained. -/
structure NewArtifact where
  jobId : JsString
  applicationId : JsString
  destinationId : JsString
  bundleFileName : JsString
  verifiedAt : ℤ
  deriving DecidableEq

/-- The row of a new artifact. -/
def NewArtifact.row (data : NewArtifact) (id : JsString) (now : ℤ) : BackupArtifact where
  id := id
  jobId := data.jobId
  applicationId := data.applicationId
  destinationId := data.destinationId
  bundleFileName := data.bundleFileName
  verificationStatus := .verified
  verifiedAt := some data.verifiedAt
  isRetained := true
  prunedAt := none
  createdAt := now

/-! ## Calls -/

/-- What the backup services ask of their environment. -/
inductive BackupCall
  /-- The job with its configuration, destination and source tasks. -/
  | findJob (jobId : JsString)
  /-- The oldest queued job. -/
  | findQueued
  /-- A job of the application in progress, other than this one. -/
  | findInProgress (applicationId jobId : JsString)
  /-- The jobs in progress, with the base paths of their destinations. -/
  | findStale
  /-- An active job of the application. -/
  | findActive (applicationId : JsString)
  /-- The latest scheduled job of the application. -/
  | findLatestScheduled (applicationId : JsString)
  /-- The enabled configurations with a schedule. -/
  | findScheduledConfigs
  /-- `resolveApp`: an application by its identifier or its name. -/
  | findApplication (identifier : JsString)
  /-- The configuration of an application, with its destination. -/
  | findConfig (applicationId : JsString)
  /-- The artifacts of an application. -/
  | findArtifacts (applicationId : JsString)
  /-- The active jobs of an application. -/
  | findActiveJobs (applicationId : JsString)
  /-- Destinations by their identifiers. -/
  | findDestinations (ids : List JsString)
  /-- An update of a job. -/
  | updateJob (jobId : JsString) (data : JobUpdate)
  /-- The transaction that creates a job unless the application has an active one. -/
  | enqueue (data : NewJob)
  /-- A source task of a job is created. -/
  | createTask (jobId sourceName : JsString) (sourceType : BackupSourceType)
  /-- A source task is updated. -/
  | updateTask (id : JsString) (status : BackupJobStatus) (failureReasonCode : Option JsString)
  /-- The active source tasks of a job are failed. -/
  | failTasks (jobId : JsString)
  /-- An artifact is recorded. -/
  | createArtifact (data : NewArtifact)
  /-- An artifact is marked as pruned. -/
  | pruneArtifact (id : JsString) (prunedAt : ℤ)
  /-- `new Date()`. -/
  | now
  /-- The lock of a retention pass is taken, unless it is held. -/
  | lockRetention (applicationId : JsString)
  /-- The lock of a retention pass is released. -/
  | unlockRetention (applicationId : JsString)
  /-- `provider.preflight(destination)`. -/
  | preflight (destination : BackupDestination)
  /-- `dbSourceProvider.preflight(source)`. -/
  | databasePreflight (source : BackupSourceConfig)
  /-- The dump of a database into a file, with its verification. -/
  | dump (source : BackupSourceConfig) (payloadPath : JsString)
  /-- `scanPersistentFilesDirectory`. -/
  | scan (hostPath : JsString) (exclusions : List JsString) (followSymlinks : Bool)
  /-- `mkdir(path, recursive)`. -/
  | mkdir (path : JsString)
  /-- `createTarZstdBundle`. -/
  | createTarZstdBundle (entries : List ArchiveFileEntry) (path : JsString)
  /-- `readFile(path)`. -/
  | readFile (path : JsString)
  /-- `writeFile(path, text)`. -/
  | writeFile (path : JsString)
  /-- `executeFourTierVerification`. -/
  | verify (directory bundleFileName : JsString)
  /-- `rename(source, target)`. -/
  | rename (source target : JsString)
  /-- `copyFile(source, target)`. -/
  | copyFile (source target : JsString)
  /-- `unlink(path)`. -/
  | unlink (path : JsString)
  /-- `rm(path, recursive, force)`. -/
  | rm (path : JsString)
  /-- A loop that does not end. -/
  | diverge
  deriving DecidableEq

/-- The answer to each call of the backup service. -/
@[reducible]
def BackupCall.Answer : BackupCall → Type
  | findJob _ => Option JobRecord
  | findQueued | findInProgress _ _ | findActive _ | findLatestScheduled _ => Option BackupJob
  | findStale => List (BackupJob × Option JsString)
  | findScheduledConfigs => List BackupConfig
  | findApplication _ => Option Application
  | findConfig _ => Option (BackupConfig × Option BackupDestination)
  | findArtifacts _ => List BackupArtifact
  | findActiveJobs _ => List BackupJob
  | findDestinations _ => List BackupDestination
  | enqueue _ => Enqueued
  | createTask _ _ _ => BackupJobSourceTask
  | createArtifact _ => BackupArtifact
  | now | dump _ _ => ℤ
  | lockRetention _ => Bool
  | preflight _ => DestinationHealth
  | scan _ _ _ => List PersistentFileEntry
  | verify _ _ => VerificationSummary
  | updateJob _ _ | updateTask _ _ _ | failTasks _ | pruneArtifact _ _ | unlockRetention _
  | databasePreflight _ | mkdir _ | createTarZstdBundle _ _ | readFile _ | writeFile _
  | rename _ _ | copyFile _ _ | unlink _ | rm _ => Unit
  | diverge => Empty

/-- A program of the backup services. -/
abbrev Backup := Task BackupCall BackupCall.Answer BackupFailure

/-- Asks the environment and waits for its answer. -/
def call (c : BackupCall) : Backup c.Answer := Task.perform c

/-! ## The world -/

/-- What a file holds, as far as it matters. -/
inductive FileContent
  | bundle (entries : List ArchiveFileEntry)
  | other
  deriving DecidableEq

/-- The tables, the files by location, the retention locks and the failed calls. -/
structure BackupWorld where
  applications : List Application
  configs : List BackupConfig
  destinations : List BackupDestination
  jobs : List BackupJob
  tasks : List BackupJobSourceTask
  artifacts : List BackupArtifact
  files : List JsString → Option FileContent
  retentionLocks : List JsString
  failed : List BackupCall

/-- A world without rows and files. -/
def BackupWorld.empty : BackupWorld where
  applications := []
  configs := []
  destinations := []
  jobs := []
  tasks := []
  artifacts := []
  files := fun _ => none
  retentionLocks := []
  failed := []

/-- What the environment chooses. -/
inductive BackupChoice
  /-- The call succeeds, and its answer is determined. -/
  | done
  /-- The call fails. -/
  | fail (e : BackupFailure)
  /-- A call that writes a file fails and leaves it. -/
  | failWriting (e : BackupFailure)
  /-- A recursive removal fails behind these files. -/
  | failRemoving (e : BackupFailure) (removed : List (List JsString))
  /-- Source and target of a renaming are on different devices. -/
  | crossDevice
  /-- The row that is found. -/
  | row (id : JsString)
  /-- The identifier and the time of creation of a new row. -/
  | created (id : JsString) (createdAt : ℤ)
  /-- The jobs that are found, in their order. -/
  | jobs (rows : List BackupJob)
  /-- The configurations that are found, in their order. -/
  | configs (rows : List BackupConfig)
  /-- The artifacts that are found, in their order. -/
  | artifacts (rows : List BackupArtifact)
  /-- The application that is found. -/
  | application (row : Application)
  /-- The time, or the size of a dump. -/
  | number (value : ℤ)
  /-- What a preflight check reports. -/
  | health (value : DestinationHealth)
  /-- What a scan finds. -/
  | files (entries : List PersistentFileEntry)
  /-- What the verification reports. -/
  | summary (value : VerificationSummary)
  deriving DecidableEq

namespace BackupWorld

variable (host : BackupHost) (w : BackupWorld)

/-- The destination with an identifier. -/
def destination (id : JsString) : Option BackupDestination := w.destinations.find? (·.id = id)

/-- The row that a query for one row finds, by the choice of the environment. -/
def pick (rows : List BackupJob) (first : BackupJob → BackupJob → Bool) :
    BackupChoice → Option (Option BackupJob)
  | .row id => (rows.find? fun job => job.id = id && rows.all (first job)).map some
  | .done => if rows = [] then some none else none
  | _ => none

variable {rows : List BackupJob} {first : BackupJob → BackupJob → Bool}

/-- A query for one row finds none in an empty table, else a row that comes first. -/
theorem pick_eq_some {choice : BackupChoice} {found : Option BackupJob}
    (h : pick rows first choice = some found) :
    found = none ∧ rows = [] ∨
      ∃ job ∈ rows, found = some job ∧ ∀ other ∈ rows, first job other = true := by
  unfold pick at h
  split at h
  · obtain ⟨job, hfind, hfound⟩ := Option.map_eq_some_iff.mp h
    have hjob := List.find?_some hfind
    simp only [Bool.and_eq_true, List.all_eq_true] at hjob
    exact .inr ⟨job, List.mem_of_find?_eq_some hfind, hfound.symm, hjob.2⟩
  · split_ifs at h with hrows
    cases h
    exact .inl ⟨rfl, hrows⟩
  · cases h

/-- A query for one row has an answer if some row comes first. -/
theorem exists_pick (rows : List BackupJob) (first : BackupJob → BackupJob → Bool)
    (hfirst : rows ≠ [] → ∃ job ∈ rows, ∀ other ∈ rows, first job other = true) :
    ∃ choice found, pick rows first choice = some found := by
  by_cases hrows : rows = []
  · exact ⟨.done, none, by simp [pick, hrows]⟩
  · obtain ⟨job, hmem, hjob⟩ := hfirst hrows
    have hfind : (rows.find? fun other => other.id = job.id && rows.all (first other)).isSome := by
      rw [List.find?_isSome]
      exact ⟨job, hmem, by simpa using hjob⟩
    obtain ⟨found, hfound⟩ := Option.isSome_iff_exists.mp hfind
    exact ⟨.row job.id, some found, by simp [pick, hfound]⟩

/-- The world with a file. -/
def putFile (path : JsString) (content : FileContent) : BackupWorld :=
  { w with files := Function.update w.files (Posix.location host.cwd path) (some content) }

/-- The world without a file. -/
def removeFile (path : JsString) : BackupWorld :=
  { w with files := Function.update w.files (Posix.location host.cwd path) none }

/-- The world without some of the files below a directory. -/
def removeBelow (path : JsString) (removed : List JsString → Bool) : BackupWorld :=
  { w with files := fun file =>
      if (Posix.location host.cwd path).isPrefixOf file && removed file then none else w.files file }

end BackupWorld

/-- A path that does not exist. -/
def enoent (path : JsString) : BackupFailure :=
  ⟨js "ENOENT: no such file or directory, '" ++ path ++ js "'", some (js "ENOENT"), false⟩

/-- The error of a renaming across devices. -/
def exdev (source target : JsString) : BackupFailure :=
  ⟨js "EXDEV: cross-device link not permitted, rename '" ++ source ++ js "' -> '" ++ target ++ js "'",
    some (js "EXDEV"), false⟩

/-- A constraint of the database that a statement violates. -/
def constraintError (code : String) : BackupFailure := ⟨js "Database constraint", some (js code), false⟩

/-- The calls that can fail; the others do not leave the process. -/
def BackupCall.canFail : BackupCall → Bool
  | now | lockRetention _ | unlockRetention _ | diverge => false
  | _ => true

open BackupWorld in
/-- The answer of a call that the environment does not let fail. -/
def BackupCall.succeed (host : BackupHost) (w : BackupWorld) :
    (c : BackupCall) → BackupChoice → Option (Except BackupFailure c.Answer × BackupWorld)
  | findJob jobId, .done =>
    match w.jobs.find? (·.id = jobId) with
    | none => some (.ok none, w)
    | some job =>
      (w.configs.find? (·.id = job.backupConfigId)).map fun config =>
        (.ok (some ⟨job, config, w.destination config.destinationId,
          w.tasks.filter (·.jobId = jobId)⟩), w)
  | findQueued, choice =>
    (pick (w.jobs.filter (·.status = .queued)) (·.createdAt ≤ ·.createdAt) choice).map
      fun row => (.ok row, w)
  | findInProgress applicationId jobId, choice =>
    (pick (w.jobs.filter fun job => job.applicationId = applicationId && job.id ≠ jobId &&
      isInProgress job.status) (fun _ _ => true) choice).map fun row => (.ok row, w)
  | findActive applicationId, choice =>
    (pick (w.jobs.filter fun job => job.applicationId = applicationId &&
      isActiveBackupJobStatus job.status) (fun _ _ => true) choice).map fun row => (.ok row, w)
  | findLatestScheduled applicationId, choice =>
    (pick (w.jobs.filter fun job => job.applicationId = applicationId &&
      job.triggerType = .scheduled) (fun a b => b.createdAt ≤ a.createdAt) choice).map
        fun row => (.ok row, w)
  | findStale, .jobs rows =>
    if rows.Perm (w.jobs.filter (isInProgress ·.status)) then
      some (.ok (rows.map fun job => (job, ((w.configs.find? (·.id = job.backupConfigId)).bind
        fun config => w.destination config.destinationId).map (·.basePath))), w)
    else none
  | findScheduledConfigs, .configs rows =>
    if rows.Perm (w.configs.filter fun config => config.enabled && config.scheduleCron.isSome) then
      some (.ok rows, w)
    else none
  | findApplication identifier, .application row =>
    if row ∈ w.applications ∧ (row.id = identifier ∨ row.name = identifier) then
      some (.ok (some row), w)
    else none
  | findApplication identifier, .done =>
    if w.applications.all fun row => row.id ≠ identifier && row.name ≠ identifier then
      some (.ok none, w)
    else none
  | findConfig applicationId, .done =>
    some (.ok ((w.configs.find? (·.application.id = applicationId)).map fun config =>
      (config, w.destination config.destinationId)), w)
  | findArtifacts applicationId, .artifacts rows =>
    if rows.Perm (w.artifacts.filter (·.applicationId = applicationId)) then some (.ok rows, w)
    else none
  | findActiveJobs applicationId, .done =>
    some (.ok (w.jobs.filter fun job => job.applicationId = applicationId &&
      isActiveBackupJobStatus job.status), w)
  | findDestinations ids, .done => some (.ok (w.destinations.filter (·.id ∈ ids)), w)
  | updateJob jobId data, .done =>
    if w.jobs.any (·.id = jobId) then
      some (.ok (), { w with jobs := w.jobs.map fun job =>
        if job.id = jobId then data.apply job else job })
    else some (.error (constraintError "P2025"), w)
  | enqueue data, .row id =>
    (w.jobs.find? fun job => job.id = id && job.applicationId = data.applicationId &&
      isActiveBackupJobStatus job.status).map fun job => (.ok (.existing job), w)
  | enqueue data, .created id createdAt =>
    if (w.jobs.all fun job => job.id ≠ id && !(job.applicationId = data.applicationId &&
        isActiveBackupJobStatus job.status)) then
      some (.ok (.created (data.row id createdAt)),
        { w with jobs := w.jobs ++ [data.row id createdAt] })
    else none
  | createTask jobId sourceName sourceType, .created id _ =>
    if w.tasks.any fun task => task.jobId = jobId && task.sourceName = sourceName then
      some (.error (constraintError "P2002"), w)
    else
      some (.ok ⟨id, jobId, sourceName, sourceType, .capturing, none⟩,
        { w with tasks := w.tasks ++ [⟨id, jobId, sourceName, sourceType, .capturing, none⟩] })
  | updateTask id status failureReasonCode, .done =>
    some (.ok (), { w with tasks := w.tasks.map fun task =>
      if task.id = id then
        { task with status, failureReasonCode := failureReasonCode <|> task.failureReasonCode }
      else task })
  | failTasks jobId, .done =>
    some (.ok (), { w with tasks := w.tasks.map fun task =>
      if task.jobId = jobId && isActiveBackupJobStatus task.status then
        { task with status := .failed
                    failureReasonCode := some (js "WORKER_TERMINATED_UNEXPECTEDLY") }
      else task })
  | createArtifact data, .created id createdAt =>
    if w.artifacts.any (·.jobId = data.jobId) then some (.error (constraintError "P2002"), w)
    else if w.artifacts.any (·.id = id) then none
    else some (.ok (data.row id createdAt),
      { w with artifacts := w.artifacts ++ [data.row id createdAt] })
  | pruneArtifact id prunedAt, .done =>
    if w.artifacts.any (·.id = id) then
      some (.ok (), { w with artifacts := w.artifacts.map fun artifact =>
        if artifact.id = id then { artifact with isRetained := false, prunedAt := some prunedAt }
        else artifact })
    else some (.error (constraintError "P2025"), w)
  | now, .number value => some (.ok value, w)
  | lockRetention applicationId, .done =>
    if applicationId ∈ w.retentionLocks then some (.ok false, w)
    else some (.ok true, { w with retentionLocks := applicationId :: w.retentionLocks })
  | unlockRetention applicationId, .done =>
    some (.ok (), { w with retentionLocks := w.retentionLocks.filter (· ≠ applicationId) })
  | preflight _, .health value => some (.ok value, w)
  | databasePreflight _, .done => some (.ok (), w)
  | dump _ payloadPath, .number size => some (.ok size, w.putFile host payloadPath .other)
  | dump source payloadPath, .failWriting e =>
    some (.error e, { w.putFile host payloadPath .other with
      failed := dump source payloadPath :: w.failed })
  | scan _ _ _, .files entries => some (.ok entries, w)
  | mkdir _, .done => some (.ok (), w)
  | createTarZstdBundle entries path, .done =>
    some (.ok (), w.putFile host path (.bundle entries))
  | createTarZstdBundle entries path, .failWriting e =>
    some (.error e, { w.putFile host path .other with
      failed := createTarZstdBundle entries path :: w.failed })
  | readFile path, .done =>
    match w.files (Posix.location host.cwd path) with
    | some _ => some (.ok (), w)
    | none => some (.error (enoent path), w)
  | writeFile path, .done => some (.ok (), w.putFile host path .other)
  | writeFile path, .failWriting e =>
    some (.error e, { w.putFile host path .other with failed := writeFile path :: w.failed })
  | verify _ _, .summary value => some (.ok value, w)
  | rename source target, .done =>
    match w.files (Posix.location host.cwd source) with
    | some content => some (.ok (), (w.removeFile host source).putFile host target content)
    | none => some (.error (enoent source), w)
  | rename source target, .crossDevice => some (.error (exdev source target), w)
  | copyFile source target, .done =>
    match w.files (Posix.location host.cwd source) with
    | some content => some (.ok (), w.putFile host target content)
    | none => some (.error (enoent source), w)
  | copyFile source target, .failWriting e =>
    some (.error e, { w.putFile host target .other with failed := copyFile source target :: w.failed })
  | unlink path, .done =>
    match w.files (Posix.location host.cwd path) with
    | some _ => some (.ok (), w.removeFile host path)
    | none => some (.error (enoent path), w)
  | rm path, .done => some (.ok (), w.removeBelow host path fun _ => true)
  | rm path, .failRemoving e removed =>
    some (.error e, { w.removeBelow host path fun file => file ∈ removed with
      failed := rm path :: w.failed })
  | _, _ => none

/-- How the world answers a call. -/
def BackupCall.exec (host : BackupHost) (w : BackupWorld) (c : BackupCall) :
    BackupChoice → Option (Except BackupFailure c.Answer × BackupWorld)
  | .fail e => if c.canFail then some (.error e, { w with failed := c :: w.failed }) else none
  | choice => c.succeed host w choice

/-- The handler of the backup services' calls. -/
def backupHandler (host : BackupHost) :
    Handler BackupCall BackupCall.Answer BackupFailure BackupWorld BackupChoice :=
  BackupCall.exec host

/-- The calls that the database answers. -/
def BackupCall.isDatabase : BackupCall → Bool
  | findJob _ | findQueued | findInProgress _ _ | findStale | findActive _ | findLatestScheduled _
  | findScheduledConfigs | findApplication _ | findConfig _ | findArtifacts _ | findActiveJobs _
  | findDestinations _ | updateJob _ _ | enqueue _ | createTask _ _ _ | updateTask _ _ _
  | failTasks _ | createArtifact _ | pruneArtifact _ _ => true
  | _ => false

/-- The handler of a world whose database does not fail. -/
def databaseHandler (host : BackupHost) :
    Handler BackupCall BackupCall.Answer BackupFailure BackupWorld BackupChoice :=
  fun w c choice => if c.isDatabase then c.succeed host w choice else c.exec host w choice

end ZimaControl
