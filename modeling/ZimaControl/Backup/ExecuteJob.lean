import ZimaControl.Backup.Calls

/-!
# Executing a backup job

`executeBackupJob` of `backup-service.ts`. A job goes through INITIALIZING, CAPTURING and VERIFYING
to COMPLETED; its files are captured, bundled and verified in the staging directory, moved to the
storage directory of the application, and recorded as an artifact. Whatever is thrown on the way,
the `catch` block removes the staging directory and the files in storage and marks the job as
failed.

The `catch` block reads four local variables. They are a `JobLocals`, and `guarded` runs a part of
the `try` block during which they do not change. Manifests, digests and sizes of bundles do not
enter the control flow and are left out.
-/

namespace ZimaControl

open Posix

/-! ## Moving and catching -/

/-- `BackupJobExecutionResult`. -/
structure BackupJobExecutionResult where
  jobId : JsString
  status : BackupJobStatus
  artifactId : Option JsString := none
  bundleFileName : Option JsString := none
  failureReasonCode : Option JsString := none
  failureDetail : Option JsString := none

/-- `atomicMoveFile`. -/
def atomicMoveFile (sourcePath targetPath : JsString) (allowCrossDevice : Bool) : Backup Unit := do
  match ← (call (.rename sourcePath targetPath)).attempt with
  | .ok _ => pure ()
  | .error e =>
    if e.code = some (js "EXDEV") then
      if allowCrossDevice = false then
        throw (domainError (js "Cross-device rename failed between '" ++ sourcePath ++ js "' and '" ++
          targetPath ++ js "'. Staging and storage must share the same filesystem.")
          "DESTINATION_MISCONFIGURED")
      else
        let _ : Unit ← call (.copyFile sourcePath targetPath)
        call (.unlink sourcePath)
    else throw e

/-- A step whose filesystem errors are reported as errors of the destination. -/
def withIoErrors (host : BackupHost) (text : String) (step : Backup Unit) : Backup Unit :=
  tryCatch step fun e =>
    if host.isFilesystemIoError e then
      throw (domainError (js text ++ js ": " ++ e.message) "DESTINATION_IO_ERROR")
    else throw e

/-- The local variables that the `catch` block of `executeBackupJob` reads. -/
structure JobLocals where
  currentStatus : BackupJobStatus
  stagingDirectory : Option JsString := none
  targetStorageDir : Option JsString := none
  bundleFileName : Option JsString := none

/-- The removal of the staging directory in the `catch` block. -/
def removeStaging : Option JsString → Backup Unit
  | some stagingDirectory => do
    let _ ← (call (.rm stagingDirectory)).attempt
    return ()
  | none => pure ()

/-- The removal of files in storage in the `catch` block. -/
def removePromoted : Option JsString → Option JsString → Backup Unit
  | some targetStorageDir, some bundle => do
    let _ ← (call (.unlink (join [targetStorageDir, bundle]))).attempt
    let _ ← (call (.unlink (join [targetStorageDir, manifestFileName bundle]))).attempt
    let _ ← (call (.unlink (join [targetStorageDir, sha256FileName bundle]))).attempt
    return ()
  | _, _ => pure ()

/-- The last step of the `catch` block. -/
def markFailed (jobId : JsString) (currentStatus : BackupJobStatus) (error : BackupFailure) :
    Backup Unit :=
  if currentStatus ≠ .failed ∧ currentStatus ≠ .cancelled then do
    let completedAt : ℤ ← call .now
    let _ ← (call (.updateJob jobId
      { status := .failed
        failureReasonCode := some (error.reasonCode "BACKUP_EXECUTION_FAILED")
        failureDetail := some error.message
        completedAt := some completedAt })).attempt
    return ()
  else pure ()

/-- The `catch` block of `executeBackupJob`. -/
def cleanUp (jobId : JsString) (locals : JobLocals) (error : BackupFailure) :
    Backup BackupJobExecutionResult := do
  removeStaging locals.stagingDirectory
  removePromoted locals.targetStorageDir locals.bundleFileName
  markFailed jobId locals.currentStatus error
  return { jobId, status := .failed
           failureReasonCode := some (error.reasonCode "BACKUP_EXECUTION_FAILED")
           failureDetail := some error.message }

/-- A part of the `try` block, and what follows it. -/
def guarded {α : Type} (jobId : JsString) (locals : JobLocals) (part : Backup α)
    (rest : α → Backup BackupJobExecutionResult) : Backup BackupJobExecutionResult := do
  match ← part.attempt with
  | .ok a => rest a
  | .error e => cleanUp jobId locals e

/-! ## Capturing -/

/-- `getOrCreateTask`. -/
def getOrCreateTask (record : JobRecord) (source : BackupSourceConfig) :
    Backup BackupJobSourceTask :=
  match record.tasks.find? (·.sourceName = source.name) with
  | none => call (.createTask record.job.id source.name source.sourceType)
  | some task => do
    let _ : Unit ← call (.updateTask task.id .capturing none)
    return task

/-- The code units that `sanitizeConnectionIdentifier` refuses. -/
def isIllegalInIdentifier (u : CodeUnit) : Bool :=
  u = 0 || u = unit '\r' || u = unit '\n' || u = unit '\t' || u = unit ';' || u = unit '\\'

/-- `sanitizeConnectionIdentifier(name, "dbTarget")`. -/
def sanitizeTarget (name : Option JsString) : Except BackupFailure JsString :=
  match name with
  | none | some [] =>
    .error (domainError (js "dbTarget must be a non-empty string") "INVALID_DATABASE_CONFIG")
  | some name =>
    if trim name = [] then
      .error (domainError (js "dbTarget cannot be blank") "INVALID_DATABASE_CONFIG")
    else if (trim name).head? = some (unit '-') then
      .error (domainError (js "dbTarget cannot start with a hyphen (flag injection prevention)")
        "INVALID_DATABASE_CONFIG")
    else if (trim name).any isIllegalInIdentifier then
      .error (domainError (js "dbTarget contains illegal control characters")
        "INVALID_DATABASE_CONFIG")
    else .ok (trim name)

/-- The engine of a dump: `resolveEngineProvider` with default providers. -/
def engineName : Option DatabaseEngineType → Except BackupFailure JsString
  | some .mariadb => .ok (js "mariadb")
  | some .mysql => .ok (js "mysql")
  | some .postgresql => .error (domainError (js
      "Database engine 'POSTGRESQL' is not supported in Phase 3A (planned for future phase)")
      "ENGINE_NOT_SUPPORTED")
  | some .sqlite => .error (domainError (js
      "Database engine 'SQLITE' is not supported in Phase 3A (planned for future phase)")
      "ENGINE_NOT_SUPPORTED")
  | none => .error (domainError (js "Unsupported database engine: 'null'") "ENGINE_NOT_SUPPORTED")

/-- `sqlFileName`, from the engine and the target. -/
def sqlFileName (engine target : JsString) : JsString :=
  engine ++ js "-" ++ safeName target ++ js ".sql"

/-- The directory of the dumps in the staging directory. -/
def dumpDirectory (stagingDirectory : JsString) : JsString :=
  join [stagingDirectory, js "database"]

/-- `dbSourceProvider.capture`. -/
def captureDump (source : BackupSourceConfig) (stagingDirectory : JsString) :
    Backup ArchiveFileEntry := do
  let engine ← .ret (engineName source.dbEngine)
  let target ← .ret (sanitizeTarget source.dbTarget)
  let _ : Unit ← call (.mkdir (dumpDirectory stagingDirectory))
  let payloadPath := join [dumpDirectory stagingDirectory, sqlFileName engine target]
  let uncompressedBytes : ℤ ← call (.dump source payloadPath)
  return { diskPath := payloadPath
           archiveRelativePath := js "database/" ++ sqlFileName engine target
           sizeBytes := uncompressedBytes.toNat }

/-- A source, captured under its task; a failure is recorded in the task. -/
def underTask {α : Type} (record : JobRecord) (source : BackupSourceConfig) (code : String)
    (capture : Backup α) : Backup α := do
  let task ← getOrCreateTask record source
  tryCatch (do
    let captured ← capture
    let _ : Unit ← call (.updateTask task.id .completed none)
    return captured) fun e => do
      let _ ← (call (.updateTask task.id .failed (some (e.reasonCode code)))).attempt
      throw e

/-- A database source. -/
def captureDatabase (record : JobRecord) (stagingDirectory : JsString)
    (source : BackupSourceConfig) : Backup (List ArchiveFileEntry) :=
  underTask record source "DATABASE_CAPTURE_FAILED" do
    let _ : Unit ← call (.databasePreflight source)
    let entry ← captureDump source stagingDirectory
    return [entry]

/-- The sources of a type. -/
def JobRecord.sourcesOf (record : JobRecord) (sourceType : BackupSourceType) :
    List BackupSourceConfig :=
  record.config.sources.filter (·.sourceType = sourceType)

/-- `sourceArchiveFolder`. -/
def sourceArchiveFolder (record : JobRecord) (source : BackupSourceConfig) : JsString :=
  let dbSources := record.sourcesOf .database
  let persistentSources := record.sourcesOf .persistentFiles
  if (dbSources.length > 0 ∧ persistentSources.length > 0) ∨ persistentSources.length > 1 then
    js "files/" ++ safeName source.name
  else []

/-- The entry of a file in the archive. -/
def fileEntry (record : JobRecord) (source : BackupSourceConfig) (file : PersistentFileEntry) :
    ArchiveFileEntry where
  diskPath := file.absolutePath
  archiveRelativePath :=
    if (sourceArchiveFolder record source).length > 0 then
      sourceArchiveFolder record source ++ js "/" ++ file.relativePath
    else file.relativePath
  sizeBytes := file.sizeBytes

/-- The exclusions of a source. -/
def exclusionsOf (host : BackupHost) (source : BackupSourceConfig) :
    Except BackupFailure (List JsString) :=
  match source.fileExclusions with
  | none | some [] => .ok []
  | some text => host.parseExclusions text

/-- A source of files. -/
def captureFiles (host : BackupHost) (record : JobRecord) (source : BackupSourceConfig) :
    Backup (List ArchiveFileEntry) :=
  underTask record source "FILE_CAPTURE_FAILED" do
    match source.fileHostPath with
    | none | some [] => throw (domainError (js "Source '" ++ source.name ++
        js "' has no fileHostPath") "INVALID_SOURCE_PATH")
    | some fileHostPath =>
      let exclusions ← .ret (exclusionsOf host source)
      let files : List PersistentFileEntry ←
        call (.scan fileHostPath exclusions source.fileFollowSymlinks)
      if files = [] then
        throw (domainError (js "Source '" ++ source.name ++ js "' at '" ++ fileHostPath ++
          js "' contains no files to back up") "SOURCE_EMPTY")
      else return files.map (fileEntry record source)

/-- The entries of a list of sources, one after the other. -/
def captureAll (capture : BackupSourceConfig → Backup (List ArchiveFileEntry)) :
    List BackupSourceConfig → Backup (List ArchiveFileEntry)
  | [] => pure []
  | source :: rest => do
    let entries ← capture source
    let others ← captureAll capture rest
    return entries ++ others

/-- The bundle with all entries. -/
def packBundle (host : BackupHost) (entries : List ArchiveFileEntry) (stagingBundlePath : JsString) :
    Backup Unit :=
  tryCatch (call (.createTarZstdBundle entries stagingBundlePath)) fun e =>
    if e.code = some (js "DESTINATION_IO_ERROR") ∨ host.isFilesystemIoError e then
      throw (domainError (js "Destination I/O failure while writing archive bundle: " ++ e.message)
        "DESTINATION_IO_ERROR")
    else if e.code = some (js "STREAM_TRUNCATED") then
      throw (domainError (js "Archive bundle stream interrupted: " ++ e.message) "STREAM_TRUNCATED")
    else throw e

/-! ## The job -/

/-- What the preflight check of an unavailable destination reports. -/
def unavailableError (text : JsString) (health : DestinationHealth) : BackupFailure where
  message := text ++ js ": " ++ health.reasonCode.getD (js "DESTINATION_UNAVAILABLE") ++
    detailText health.detail
  code := some (health.reasonCode.getD (js "DESTINATION_UNAVAILABLE"))
  isDomainError := true

/-- `updateJobState`, behind its check of the transition. -/
def updateJobState (jobId : JsString) (data : JobUpdate) : Backup Unit := call (.updateJob jobId data)

/-- The first part of INITIALIZING. -/
def startJob (jobId : JsString) (destination : BackupDestination) (startedAt : ℤ) :
    Backup Unit := do
  updateJobState jobId { status := .initializing, startedAt := some startedAt }
  let health : DestinationHealth ← call (.preflight destination)
  if health.isAvailable = false then
    throw (unavailableError (js "Destination '" ++ destination.name ++
      js "' preflight check failed") health)
  else pure ()

/-- CAPTURING. -/
def captureBundle (host : BackupHost) (record : JobRecord) (stagingDirectory bundle : JsString) :
    Backup Unit := do
  updateJobState record.job.id { status := .capturing }
  if record.config.sources = [] then
    throw (domainError (js "No sources configured for backup") "NO_SOURCES_CONFIGURED")
  else
    let dumps ← captureAll (captureDatabase record stagingDirectory) (record.sourcesOf .database)
    let files ← captureAll (captureFiles host record) (record.sourcesOf .persistentFiles)
    let stagingBundlePath := join [stagingDirectory, bundle]
    packBundle host (dumps ++ files) stagingBundlePath
    withIoErrors host "Destination I/O failure while reading generated bundle"
      (call (.readFile stagingBundlePath))
    withIoErrors host "Destination I/O failure while writing checksum file"
      (call (.writeFile (join [stagingDirectory, sha256FileName bundle])))
    withIoErrors host "Destination I/O failure while writing initial manifest"
      (call (.writeFile (join [stagingDirectory, manifestFileName bundle])))

/-- VERIFYING, up to the promotion. -/
def verifyBundle (record : JobRecord) (destination : BackupDestination)
    (stagingDirectory targetStorageDir bundle : JsString) : Backup ℤ := do
  updateJobState record.job.id { status := .verifying }
  let summary : VerificationSummary ← call (.verify stagingDirectory bundle)
  if summary.isVerified = false then
    throw ⟨js "Verification failed: " ++ summary.failureReasonCode.getD (js "null"),
      some (summary.failureReasonCode.getD (js "VERIFICATION_FAILED")), true⟩
  else
    let verifiedAt : ℤ ← call .now
    let _ : Unit ← call (.writeFile (join [stagingDirectory, manifestFileName bundle]))
    let health : DestinationHealth ← call (.preflight destination)
    if health.isAvailable = false then
      throw (unavailableError (js "Destination preflight check failed before promotion") health)
    else
      let _ : Unit ← call (.mkdir targetStorageDir)
      return verifiedAt

/-- The promotion of the three files. -/
def promote (host : BackupHost) (destination : BackupDestination)
    (stagingDirectory targetStorageDir bundle : JsString) : Backup Unit :=
  withIoErrors host "Destination I/O failure during artifact promotion" do
    let allowCrossDevice := destination.type ≠ .synologyNas
    atomicMoveFile (join [stagingDirectory, bundle])
      (join [targetStorageDir, bundle]) allowCrossDevice
    atomicMoveFile (join [stagingDirectory, manifestFileName bundle])
      (join [targetStorageDir, manifestFileName bundle]) allowCrossDevice
    atomicMoveFile (join [stagingDirectory, sha256FileName bundle])
      (join [targetStorageDir, sha256FileName bundle]) allowCrossDevice

/-- The record of the artifact, behind the removal of the staging directory. -/
def recordArtifact (record : JobRecord) (destination : BackupDestination)
    (stagingDirectory bundle : JsString) (verifiedAt : ℤ) : Backup BackupArtifact := do
  let _ : Unit ← call (.rm stagingDirectory)
  call (.createArtifact
    { jobId := record.job.id
      applicationId := record.config.application.id
      destinationId := destination.id
      bundleFileName := bundle
      verifiedAt })

/-- VERIFYING, promotion and persistence. -/
def verifyAndPromote (host : BackupHost) (record : JobRecord) (destination : BackupDestination)
    (stagingDirectory targetStorageDir bundle : JsString) : Backup BackupArtifact := do
  let verifiedAt ← verifyBundle record destination stagingDirectory targetStorageDir bundle
  promote host destination stagingDirectory targetStorageDir bundle
  recordArtifact record destination stagingDirectory bundle verifiedAt

/-- COMPLETED. -/
def complete (jobId : JsString) : Backup Unit := do
  let completedAt : ℤ ← call .now
  updateJobState jobId { status := .completed, completedAt := some completedAt }

/-- A transition of the local status, and what follows under the new one. -/
def guardedTransition (jobId : JsString) (locals : JobLocals) (next : BackupJobStatus)
    (rest : JobLocals → Backup BackupJobExecutionResult) : Backup BackupJobExecutionResult :=
  match transitionBackupJobStatus locals.currentStatus next with
  | .ok status => rest { locals with currentStatus := status }
  | .error e => cleanUp jobId locals e

/-- The `try` block from CAPTURING on. -/
def captureAndStore (host : BackupHost) (record : JobRecord) (destination : BackupDestination)
    (stagingDirectory targetStorageDir bundle : JsString) (locals : JobLocals) :
    Backup BackupJobExecutionResult :=
  let jobId := record.job.id
  guardedTransition jobId locals .capturing fun capturing =>
  guarded jobId capturing (captureBundle host record stagingDirectory bundle) fun _ =>
  guardedTransition jobId capturing .verifying fun verifying =>
  guarded jobId verifying
    (verifyAndPromote host record destination stagingDirectory targetStorageDir bundle)
    fun artifact =>
  -- the row of the artifact is there now, and a failure still unlinks its files
  guardedTransition jobId verifying .completed fun completed =>
  guarded jobId completed (complete jobId) fun _ =>
  return { jobId, status := .completed, artifactId := some artifact.id
           bundleFileName := some bundle }

/-- The `try` block of `executeBackupJob`, with its `catch` block. -/
def runJob (host : BackupHost) (record : JobRecord) (destination : BackupDestination) :
    Backup BackupJobExecutionResult := do
  let jobId := record.job.id
  let applicationName := record.config.application.name
  let startedAt : ℤ ← call .now
  guardedTransition jobId { currentStatus := record.job.status } .initializing fun initializing =>
    guarded jobId initializing (startJob jobId destination startedAt) fun _ =>
    match host.resolveStagingDirectory destination jobId with
    | .error e => cleanUp jobId initializing e
    | .ok stagingDirectory =>
      let staged := { initializing with stagingDirectory := some stagingDirectory }
      match host.resolveStorageDirectory destination applicationName with
      | .error e => cleanUp jobId staged e
      | .ok targetStorageDir =>
        let stored := { staged with targetStorageDir := some targetStorageDir }
        guarded jobId stored (call (.mkdir stagingDirectory)) fun (_ : Unit) =>
        let bundle := bundleFileName applicationName startedAt jobId
        captureAndStore host record destination stagingDirectory targetStorageDir bundle
          { stored with bundleFileName := some bundle }

/-- `executeBackupJob`. -/
def executeBackupJob (host : BackupHost) (jobId : JsString) : Backup BackupJobExecutionResult := do
  let found : Option JobRecord ← call (.findJob jobId)
  match found with
  | none => throw (domainError (js "BackupJob '" ++ jobId ++ js "' not found") "JOB_NOT_FOUND")
  | some record =>
    match record.destination with
    | none => throw (domainError (js "Backup job has no configured destination")
        "NO_DESTINATION_CONFIGURED")
    | some destination =>
      if destination.isActive = false then
        throw (backupDestinationInvalidError (js "Backup destination '" ++ destination.name ++
          js "' is inactive"))
      else
        .ret (host.resolveProvider destination)
        runJob host record destination

end ZimaControl
