import ZimaControl.Cron.Parser

/-!
# The backup domain

The rows of the backup tables, the errors of the domain and the state machine of backup jobs
(`contracts.ts`, `state-machine.ts` and the Prisma schema). A row has the fields that the services
read or write. Instants are milliseconds since the epoch.
-/

namespace ZimaControl

/-! ## Errors -/

/-- What a `catch` of the backup services sees: the message, the property `code`, and whether the
error is a `BackupDomainError`. -/
structure BackupFailure where
  message : JsString
  code : Option JsString
  isDomainError : Bool
  deriving DecidableEq

/-- A domain error, thrown. -/
def BackupDomainError.thrown (e : BackupDomainError) : BackupFailure :=
  ⟨e.message, some e.code, true⟩

/-- A domain error by its texts, thrown. -/
def domainError (message : JsString) (code : String) : BackupFailure := ⟨message, some (js code), true⟩

/-- `new BackupDestinationInvalidError(message)`. -/
def backupDestinationInvalidError (message : JsString) : BackupFailure :=
  domainError message "BACKUP_DESTINATION_INVALID"

/-- `error instanceof BackupDomainError ? error.code : code`. -/
def BackupFailure.reasonCode (e : BackupFailure) (code : String) : JsString :=
  if e.isDomainError then e.code.getD [] else js code

/-! ## Names in file names -/

/-- A code unit in `[a-zA-Z0-9_-]`. -/
def isSafeUnit (u : CodeUnit) : Bool :=
  (unit 'a' ≤ u && u ≤ unit 'z') || (unit 'A' ≤ u && u ≤ unit 'Z') || (unit '0' ≤ u && u ≤ unit '9')
    || u = unit '_' || u = unit '-'

/-- `text.replace(/[^a-zA-Z0-9_-]/g, "_")`. -/
def safeName (text : JsString) : JsString := text.map fun u => if isSafeUnit u then u else unit '_'

/-- `text.replace(/\\/g, "/")`. -/
def slashes (text : JsString) : JsString := text.map fun u => if u = unit '\\' then unit '/' else u

/-! ## Configurations -/

/-- `BackupSourceType`. -/
inductive BackupSourceType
  | database
  | persistentFiles
  deriving DecidableEq

/-- `DatabaseEngineType`. -/
inductive DatabaseEngineType
  | mariadb
  | mysql
  | postgresql
  | sqlite
  deriving DecidableEq

/-- `DestinationType`. -/
inductive DestinationType
  | localFilesystem
  | synologyNas
  | smbShare
  | s3Compatible
  deriving DecidableEq

/-- The type as it is written. -/
def DestinationType.text : DestinationType → String
  | localFilesystem => "LOCAL_FILESYSTEM"
  | synologyNas => "SYNOLOGY_NAS"
  | smbShare => "SMB_SHARE"
  | s3Compatible => "S3_COMPATIBLE"

/-- `BackupSourceConfig`. -/
structure BackupSourceConfig where
  sourceType : BackupSourceType
  name : JsString
  dbEngine : Option DatabaseEngineType
  dbTarget : Option JsString
  dbHost : Option JsString
  dbPort : Option ℕ
  dbUser : Option JsString
  dbSecretRef : Option JsString
  fileHostPath : Option JsString
  fileExclusions : Option JsString
  fileFollowSymlinks : Bool
  deriving DecidableEq

/-- `Application`, with the fields that the backup services read. -/
structure Application where
  id : JsString
  name : JsString
  deriving DecidableEq

/-- `BackupDestination`. -/
structure BackupDestination where
  id : JsString
  name : JsString
  type : DestinationType
  basePath : JsString
  isActive : Bool
  deriving DecidableEq

/-- `BackupConfig`, with its application and its sources. -/
structure BackupConfig where
  id : JsString
  application : Application
  enabled : Bool
  retentionVersions : ℤ
  scheduleCron : Option JsString
  destinationId : JsString
  sources : List BackupSourceConfig
  createdAt : ℤ
  deriving DecidableEq

/-! ## Jobs -/

/-- `BackupJobStatus`. -/
inductive BackupJobStatus
  | queued
  | initializing
  | capturing
  | verifying
  | completed
  | failed
  | cancelled
  deriving DecidableEq

/-- The status as it is written. -/
def BackupJobStatus.text : BackupJobStatus → String
  | queued => "QUEUED"
  | initializing => "INITIALIZING"
  | capturing => "CAPTURING"
  | verifying => "VERIFYING"
  | completed => "COMPLETED"
  | failed => "FAILED"
  | cancelled => "CANCELLED"

/-- `BackupTriggerType`. -/
inductive BackupTriggerType
  | manual
  | scheduled
  deriving DecidableEq

/-- `BackupJob`. -/
structure BackupJob where
  id : JsString
  applicationId : JsString
  backupConfigId : JsString
  triggerType : BackupTriggerType
  actorId : Option JsString
  status : BackupJobStatus
  failureReasonCode : Option JsString
  failureDetail : Option JsString
  startedAt : Option ℤ
  completedAt : Option ℤ
  createdAt : ℤ
  deriving DecidableEq

/-- `BackupJobSourceTask`, without what it captured. -/
structure BackupJobSourceTask where
  id : JsString
  jobId : JsString
  sourceName : JsString
  sourceType : BackupSourceType
  status : BackupJobStatus
  failureReasonCode : Option JsString

/-- `VerificationStatus`. -/
inductive VerificationStatus
  | pending
  | verified
  | verificationFailed
  deriving DecidableEq

/-- `BackupArtifact`, without its sizes, digest and manifest. -/
structure BackupArtifact where
  id : JsString
  jobId : JsString
  applicationId : JsString
  destinationId : JsString
  bundleFileName : JsString
  verificationStatus : VerificationStatus
  verifiedAt : Option ℤ
  isRetained : Bool
  prunedAt : Option ℤ
  createdAt : ℤ
  deriving DecidableEq

/-! ## The state machine -/

/-- `LEGAL_TRANSITIONS`. -/
def legalTransitions : BackupJobStatus → List BackupJobStatus
  | .queued => [.initializing, .cancelled]
  | .initializing => [.capturing, .failed, .cancelled]
  | .capturing => [.verifying, .failed]
  | .verifying => [.completed, .failed]
  | .completed | .failed | .cancelled => []

/-- `isActiveBackupJobStatus`. -/
def isActiveBackupJobStatus (status : BackupJobStatus) : Bool :=
  status ∈ [.queued, .initializing, .capturing, .verifying]

/-- `["INITIALIZING", "CAPTURING", "VERIFYING"].includes(status)`. -/
def isInProgress (status : BackupJobStatus) : Bool :=
  status ∈ [.initializing, .capturing, .verifying]

/-- `canTransitionBackupJobStatus`. -/
def canTransitionBackupJobStatus (current next : BackupJobStatus) : Bool :=
  next ∈ legalTransitions current

/-- `transitionBackupJobStatus`. -/
def transitionBackupJobStatus (current next : BackupJobStatus) :
    Except BackupFailure BackupJobStatus :=
  if canTransitionBackupJobStatus current next = false then
    .error (domainError (js "Illegal backup job state transition from '" ++ js current.text ++
      js "' to '" ++ js next.text ++ js "'") "ILLEGAL_BACKUP_STATE_TRANSITION")
  else .ok next

/-- A job moves to the status that was asked for, along a legal transition. -/
theorem transitionBackupJobStatus_eq_ok {current next status : BackupJobStatus}
    (h : transitionBackupJobStatus current next = .ok status) :
    status = next ∧ canTransitionBackupJobStatus current next = true := by
  unfold transitionBackupJobStatus at h
  split_ifs at h with hlegal
  cases h
  exact ⟨rfl, by simpa using hlegal⟩

/-- No transition leads to `QUEUED`. -/
theorem not_canTransition_queued (status : BackupJobStatus) :
    canTransitionBackupJobStatus status .queued = false := by
  cases status <;> decide

/-- Only a queued job is initialised. -/
theorem eq_queued_of_canTransition_initializing {status : BackupJobStatus}
    (h : canTransitionBackupJobStatus status .initializing = true) : status = .queued := by
  cases status <;> first | rfl | cases h

end ZimaControl
