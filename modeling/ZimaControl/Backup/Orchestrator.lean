import ZimaControl.Backup.ExecuteJob
import ZimaControl.Backup.Retention
import ZimaControl.Cron.Search

/-!
# The backup orchestrator

The four entry points of `orchestrator.ts` that make backup jobs and run them: `triggerBackupRun`
for a user, `evaluateDueSchedules` for the clock, `processNextQueuedJob` for the worker, and
`recoverStaleBackupJobs` when a worker starts again. A schedule whose evaluation does not end within
the rounds given hangs.
-/

namespace ZimaControl

/-! ## The user -/

/-- `triggerBackupRun`. -/
def triggerBackupRun (applicationId : JsString) (actorId : Option JsString) : Backup Enqueued := do
  let app : Option Application ← call (.findApplication applicationId)
  match app with
  | none => throw (domainError (js "Application '" ++ applicationId ++ js "' not found")
      "APPLICATION_NOT_FOUND")
  | some app =>
    let found : Option (BackupConfig × Option BackupDestination) ← call (.findConfig app.id)
    match found with
    | none => throw (domainError (js
        "Application backup is not configured or is currently disabled") "BACKUP_NOT_CONFIGURED")
    | some (config, _) =>
      if config.enabled = false ∨ config.sources = [] then
        throw (domainError (js
          "Application backup is not configured or is currently disabled") "BACKUP_NOT_CONFIGURED")
      else
        call (.enqueue
          { applicationId := app.id, backupConfigId := config.id, triggerType := .manual, actorId
            createdAt := none })

/-! ## The worker -/

/-- The loop of `recoverStaleBackupJobs`. -/
def recoverJobs : List (BackupJob × Option JsString) → Backup Unit
  | [] => pure ()
  | (job, basePath) :: rest => do
    let completedAt : ℤ ← call .now
    let _ : Unit ← call (.updateJob job.id
      { status := .failed
        failureReasonCode := some (js "WORKER_TERMINATED_UNEXPECTEDLY")
        failureDetail := some (js "Job was interrupted by worker restart or process termination")
        completedAt := some completedAt })
    let _ : Unit ← call (.failTasks job.id)
    match basePath with
    | none | some [] => recoverJobs rest
    | some basePath =>
      let _ ← (call (.rm (Posix.join [basePath, js "staging", js ".tmp-" ++ job.id]))).attempt
      recoverJobs rest

/-- `recoverStaleBackupJobs`. -/
def recoverStaleBackupJobs : Backup ℕ := do
  let staleJobs : List (BackupJob × Option JsString) ← call .findStale
  recoverJobs staleJobs
  return staleJobs.length

/-- `processNextQueuedJob`. -/
def processNextQueuedJob (host : BackupHost) : Backup (Option BackupJobExecutionResult) := do
  let queued : Option BackupJob ← call .findQueued
  match queued with
  | none => return none
  | some queuedJob =>
    let inProgress : Option BackupJob ←
      call (.findInProgress queuedJob.applicationId queuedJob.id)
    match inProgress with
    | some _ => return none
    | none =>
      let result ← executeBackupJob host queuedJob.id
      if result.status = .completed then
        let _ ← (pruneApplicationBackups host queuedJob.applicationId).attempt
        return some result
      else return some result

/-! ## The clock -/

/-- The outcome of an evaluation for an application. -/
inductive ScheduledOutcome
  | noCron
  | invalidCron
  | notDue
  | skippedActiveJob
  | enqueued

/-- `ScheduledTriggerResult`. -/
structure ScheduledTriggerResult where
  applicationId : JsString
  outcome : ScheduledOutcome
  jobId : Option JsString := none
  dueSlot : Option ℤ := none
  nextRun : Option ℤ := none
  error : Option JsString := none

/-- The result for an application with an active job. -/
def skippedActiveJob (applicationId : JsString) (due : ScheduleDue) : ScheduledTriggerResult where
  applicationId := applicationId
  outcome := .skippedActiveJob
  dueSlot := some due.dueSlot
  nextRun := some due.nextRun
  error := some (js "Active backup job already in progress for this application")

/-- The loop of `evaluateDueSchedules` behind a schedule that is due. -/
def enqueueDue (config : BackupConfig) (now : ℤ) (due : ScheduleDue) :
    Backup ScheduledTriggerResult := do
  let activeJob : Option BackupJob ← call (.findActive config.application.id)
  match activeJob with
  | some _ => return skippedActiveJob config.application.id due
  | none =>
    let enqueued : Enqueued ← call (.enqueue
      { applicationId := config.application.id, backupConfigId := config.id
        triggerType := .scheduled, actorId := none, createdAt := some now })
    match enqueued with
    | .created job => return { applicationId := config.application.id, outcome := .enqueued
                               jobId := some job.id, dueSlot := some due.dueSlot
                               nextRun := some due.nextRun }
    | .existing _ => return skippedActiveJob config.application.id due

/-- `checkScheduleDue`, which may throw or not end. -/
def scheduleDue (rounds : ℕ) (expression : JsString) (last now : ℤ) : Backup ScheduleDue :=
  match checkScheduleDue rounds expression (some last) now with
  | some (.ok due) => pure due
  | some (.error e) => throw e.thrown
  | none => do
    let never : Empty ← call .diverge
    nomatch never

/-- The body of the loop of `evaluateDueSchedules`. -/
def evaluateConfig (rounds : ℕ) (now : ℤ) (config : BackupConfig) : Backup ScheduledTriggerResult :=
  match config.scheduleCron with
  | none | some [] => return { applicationId := config.application.id, outcome := .noCron }
  | some scheduleCron =>
    if config.sources = [] then
      return { applicationId := config.application.id, outcome := .noCron }
    else if validateCronExpression scheduleCron = false then
      return { applicationId := config.application.id, outcome := .invalidCron
               error := some (js "Invalid cron expression '" ++ scheduleCron ++ js "'") }
    else do
      let latestScheduledJob : Option BackupJob ←
        call (.findLatestScheduled config.application.id)
      let lastScheduledTime := (latestScheduledJob.map (·.createdAt)).getD config.createdAt
      let due ← scheduleDue rounds scheduleCron lastScheduledTime now
      if due.isDue = false then
        return { applicationId := config.application.id, outcome := .notDue
                 nextRun := some due.nextRun }
      else enqueueDue config now due

/-- The loop of `evaluateDueSchedules`. -/
def evaluateConfigs (rounds : ℕ) (now : ℤ) : List BackupConfig → Backup (List ScheduledTriggerResult)
  | [] => pure []
  | config :: rest => do
    let result ← evaluateConfig rounds now config
    let results ← evaluateConfigs rounds now rest
    return result :: results

/-- `evaluateDueSchedules`. -/
def evaluateDueSchedules (rounds : ℕ) (now : ℤ) : Backup (List ScheduledTriggerResult) := do
  let configs : List BackupConfig ← call .findScheduledConfigs
  evaluateConfigs rounds now configs

end ZimaControl
