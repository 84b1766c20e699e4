import ZimaControl.Backup.Frames
import ZimaControl.Backup.Orchestrator

/-!
# What the services write to the table of jobs

Which job each part of the services writes, and with which status: a phase of `executeBackupJob`
writes the status of its phase to its own job, its `catch` block and recovery FAILED, and retention
writes no job. None of these parts loads a job.
-/

namespace ZimaControl

open ZimaControl.Task Posix

/-- The calls that load or write jobs. -/
def BackupCall.isJobCall : BackupCall → Bool
  | findJob _ | findStale | updateJob _ _ | enqueue _ => true
  | _ => false

variable {c : BackupCall}

/-- What changes the table of jobs is one of these. -/
theorem isJobCall_of_table (h : c.table = some .jobs) : c.isJobCall = true := by
  cases c <;> first | rfl | cases h

/-- The call loads and writes no job, or writes one of these statuses to this one. -/
def WritesOnly (jobId : JsString) (statuses : List BackupJobStatus) (c : BackupCall) : Prop :=
  c.isJobCall = true → ∃ data, c = .updateJob jobId data ∧ data.status ∈ statuses

variable {jobId : JsString} {statuses : List BackupJobStatus}

variable {data : JobUpdate}

/-- An update of the job. -/
theorem writesOnly_updateJob (h : data.status ∈ statuses) :
    WritesOnly jobId statuses (.updateJob jobId data) := fun _ => ⟨data, rfl, h⟩

/-- A call that loads and writes no job. -/
theorem writesOnly_of_isJobCall (h : c.isJobCall = false) : WritesOnly jobId statuses c := by
  intro hjob
  rw [hjob] at h
  cases h

/-- A program with one such call. -/
theorem only_call (h : c.isJobCall = false) : (call c).Only (WritesOnly jobId statuses) :=
  Only.perform (writesOnly_of_isJobCall h)

/-! ## The parts of a job -/

/-- The calls that load and write no job, record no artifact and change no file. -/
def BackupCall.isQuiet (c : BackupCall) : Bool :=
  c.isJobCall = false && c.table ≠ some .artifacts && c.table ≠ some .files

/-- A property of the calls that capture and verify a bundle. -/
structure Staged (P : BackupCall → Prop) (staging bundle : JsString) : Prop where
  quiet : ∀ c : BackupCall, c.isQuiet = true → P c
  dump : ∀ source engine target, engineName source.dbEngine = .ok engine →
    P (.dump source (join [dumpDirectory staging, sqlFileName engine target]))
  pack : ∀ entries, P (.createTarZstdBundle entries (join [staging, bundle]))
  write : ∀ name ∈ [manifestFileName bundle, sha256FileName bundle],
    P (.writeFile (join [staging, name]))

/-- None of these calls loads or writes a job. -/
theorem staged_writesOnly (staging bundle : JsString) :
    Staged (WritesOnly jobId statuses) staging bundle where
  quiet c hquiet := by
    simp only [BackupCall.isQuiet, Bool.and_eq_true, decide_eq_true_eq] at hquiet
    exact writesOnly_of_isJobCall hquiet.1.1
  dump _ _ _ _ := writesOnly_of_isJobCall rfl
  pack _ := writesOnly_of_isJobCall rfl
  write _ _ := writesOnly_of_isJobCall rfl

variable (host : BackupHost) (record : JobRecord)

section Staged

variable {P : BackupCall → Prop} {staging bundle : JsString} (h : Staged P staging bundle)
include h

/-- A quiet call. -/
theorem Staged.call (hquiet : c.isQuiet = true) : (call c).Only P :=
  Only.perform (h.quiet c hquiet)

variable (source : BackupSourceConfig)

/-- The task of a source. -/
theorem Staged.getOrCreateTask : (getOrCreateTask record source).Only P := by
  unfold ZimaControl.getOrCreateTask
  split
  · exact h.call rfl
  · exact .bind (h.call rfl) fun _ => .pure

/-- A source, captured under its task. -/
theorem Staged.underTask {α : Type} {record : JobRecord} {source : BackupSourceConfig}
    {code : String} {capture : Backup α} (hcapture : capture.Only P) :
    (underTask record source code capture).Only P := by
  refine .bind (h.getOrCreateTask record source) fun task => .tryCatch ?_ fun e => ?_
  · exact .bind hcapture fun _ => .bind (h.call rfl) fun _ => .pure
  · exact .bind (h.call rfl).attempt fun _ => .throw

/-- The capture of a database writes below the staging directory. -/
theorem Staged.captureDatabase : (captureDatabase record staging source).Only P := by
  refine h.underTask (.bind (h.call rfl) fun _ => .bind ?_ fun _ => .pure)
  refine .bindRet fun engine hengine => .bind .ret fun target => .bind (h.call rfl) fun _ => ?_
  exact .bind (Only.perform (h.dump source engine target hengine)) fun _ => .pure

/-- So does that of files. -/
theorem Staged.captureFiles : (captureFiles host record source).Only P := by
  refine h.underTask ?_
  split
  · exact .throw
  · exact .throw
  · exact .bind .ret fun exclusions => .bind (h.call rfl) fun files => .ite .throw .pure

/-- The bundle. -/
theorem Staged.packBundle (entries : List ArchiveFileEntry) :
    (packBundle host entries (join [staging, bundle])).Only P :=
  .tryCatch (Only.perform (h.pack entries)) fun _ => .ite .throw (.ite .throw .throw)

end Staged

variable {P : BackupCall → Prop}

/-- A step with its filesystem errors. -/
theorem withIoErrors_only {host : BackupHost} {text : String} {step : Backup Unit}
    (h : step.Only P) : (withIoErrors host text step).Only P :=
  .tryCatch h fun _ => .ite .throw .throw

/-- All sources of a kind. -/
theorem captureAll_only {capture : BackupSourceConfig → Backup (List ArchiveFileEntry)}
    (h : ∀ source, (capture source).Only P) (sources : List BackupSourceConfig) :
    (captureAll capture sources).Only P := by
  induction sources with
  | nil => exact .pure
  | cons source rest ih => exact .bind (h source) fun _ => .bind ih fun _ => .pure

/-- Moving a file. -/
theorem atomicMoveFile_only {source target : JsString} (hrename : P (.rename source target))
    (hcopy : P (.copyFile source target)) (hunlink : P (.unlink source)) (allow : Bool) :
    (atomicMoveFile source target allow).Only P := by
  refine .bind (Only.perform hrename).attempt fun moved => ?_
  cases moved with
  | ok _ => exact .pure
  | error e =>
    refine .ite (.ite .throw ?_) .throw
    exact .bind (Only.perform hcopy) fun _ => Only.perform hunlink

/-- The promotion. -/
theorem promote_only {staging storage bundle : JsString}
    (hmove : ∀ name ∈ [bundle, manifestFileName bundle, sha256FileName bundle],
      P (.rename (join [staging, name]) (join [storage, name])) ∧
      P (.copyFile (join [staging, name]) (join [storage, name])) ∧
      P (.unlink (join [staging, name]))) (host : BackupHost)
    (destination : BackupDestination) :
    (promote host destination staging storage bundle).Only P := by
  have hfile : ∀ name ∈ [bundle, manifestFileName bundle, sha256FileName bundle], ∀ allow,
      (atomicMoveFile (join [staging, name]) (join [storage, name]) allow).Only P := by
    intro name hname allow
    obtain ⟨hrename, hcopy, hunlink⟩ := hmove name hname
    exact atomicMoveFile_only hrename hcopy hunlink allow
  exact withIoErrors_only (.bind (hfile _ (by simp) _) fun _ =>
    .bind (hfile _ (by simp) _) fun _ => hfile _ (by simp) _)

/-! ## The phases of a job -/

/-- An update of the job by its program. -/
theorem updateJobState_only (h : data.status ∈ statuses) :
    (updateJobState jobId data).Only (WritesOnly jobId statuses) :=
  Only.perform (writesOnly_updateJob h)

/-- A program that updates the job first, and loads and writes none behind it. -/
def IsPhase {α : Type} (jobId : JsString) (data : JobUpdate) (t : Backup α) : Prop :=
  ∃ rest : Backup α, t = (updateJobState jobId data >>= fun _ => rest) ∧
    rest.Only (WritesOnly jobId [])

/-- More statuses. -/
theorem WritesOnly.mono {more : List BackupJobStatus} (h : WritesOnly jobId statuses c)
    (hsub : statuses ⊆ more) : WritesOnly jobId more c := by
  intro htable
  obtain ⟨data, hc, hstatus⟩ := h htable
  exact ⟨data, hc, hsub hstatus⟩

/-- What a phase writes. -/
theorem IsPhase.only {α : Type} {t : Backup α} (h : IsPhase jobId data t) :
    t.Only (WritesOnly jobId [data.status]) := by
  obtain ⟨rest, rfl, hrest⟩ := h
  exact .bind (updateJobState_only (by simp)) fun _ =>
    hrest.mono fun _ hc => hc.mono (List.nil_subset _)

/-- A phase, followed by what loads and writes no job. -/
theorem IsPhase.bind {α β : Type} {t : Backup α} (h : IsPhase jobId data t) {f : α → Backup β}
    (hf : ∀ a, (f a).Only (WritesOnly jobId [])) : IsPhase jobId data (t >>= f) := by
  obtain ⟨rest, rfl, hrest⟩ := h
  exact ⟨rest >>= f, bind_assoc _ _ _, .bind hrest hf⟩

variable (destination : BackupDestination)

/-- INITIALIZING. -/
theorem startJob_phase (startedAt : ℤ) :
    IsPhase jobId { status := .initializing, startedAt := some startedAt }
      (startJob jobId destination startedAt) :=
  ⟨_, rfl, .bind (only_call rfl) fun _ => .ite .throw .pure⟩

variable {staging bundle : JsString}

/-- CAPTURING, with what its calls have in common. -/
theorem captureBundle_calls (h : Staged P staging bundle) (host : BackupHost) (record : JobRecord) :
    ∃ rest : Backup Unit, captureBundle host record staging bundle =
      (updateJobState record.job.id { status := .capturing } >>= fun _ => rest) ∧ rest.Only P := by
  refine ⟨_, rfl, .ite .throw ?_⟩
  exact .bind (captureAll_only (h.captureDatabase record) _) fun dumps =>
    .bind (captureAll_only (h.captureFiles host record) _) fun files =>
    .bind (h.packBundle host _) fun _ =>
    .bind (withIoErrors_only (h.call rfl)) fun _ =>
    .bind (withIoErrors_only (Only.perform (h.write _ (by simp)))) fun _ =>
    withIoErrors_only (Only.perform (h.write _ (by simp)))

/-- CAPTURING is a phase. -/
theorem captureBundle_phase (staging bundle : JsString) :
    IsPhase record.job.id { status := .capturing } (captureBundle host record staging bundle) :=
  captureBundle_calls (staged_writesOnly staging bundle) host record

/-- VERIFYING, up to the promotion, with what its calls have in common. -/
theorem verifyBundle_calls (h : Staged P staging bundle) (record : JobRecord)
    (destination : BackupDestination) (storage : JsString) :
    ∃ rest : Backup ℤ, verifyBundle record destination staging storage bundle =
      (updateJobState record.job.id { status := .verifying } >>= fun _ => rest) ∧ rest.Only P := by
  refine ⟨_, rfl, .bind (h.call rfl) fun summary => .ite .throw ?_⟩
  exact .bind (h.call rfl) fun verifiedAt =>
    .bind (Only.perform (h.write _ (by simp))) fun _ =>
    .bind (h.call rfl) fun health => .ite .throw (.bind (h.call rfl) fun _ => .pure)

variable (staging storage bundle : JsString)

/-- So is VERIFYING up to the promotion. -/
theorem verifyBundle_phase :
    IsPhase record.job.id { status := .verifying }
      (verifyBundle record destination staging storage bundle) :=
  verifyBundle_calls (staged_writesOnly staging bundle) record destination storage

/-- VERIFYING. -/
theorem verifyAndPromote_phase :
    IsPhase record.job.id { status := .verifying }
      (verifyAndPromote host record destination staging storage bundle) :=
  (verifyBundle_phase record destination staging storage bundle).bind fun _ =>
    .bind (promote_only (fun _ _ => ⟨writesOnly_of_isJobCall rfl, writesOnly_of_isJobCall rfl,
      writesOnly_of_isJobCall rfl⟩) host destination) fun _ =>
    .bind (only_call rfl) fun _ => only_call rfl

/-- COMPLETED writes the job. -/
theorem complete_only : (complete jobId).Only (WritesOnly jobId [.completed]) :=
  .bind (only_call rfl) fun _ => updateJobState_only (by simp)

/-- The removal of the staging directory. -/
theorem removeStaging_only {staging : Option JsString}
    (h : ∀ directory, staging = some directory → P (.rm directory)) :
    (removeStaging staging).Only P := by
  cases staging with
  | none => exact .pure
  | some directory => exact .bind (Only.perform (h directory rfl)).attempt fun _ => .pure

/-- The removal of files in storage. -/
theorem removePromoted_only {storage bundle : Option JsString}
    (h : ∀ directory name, storage = some directory → bundle = some name →
      ∀ path ∈ artifactPaths directory name, P (.unlink path)) :
    (removePromoted storage bundle).Only P := by
  unfold removePromoted
  split
  · rename_i directory name
    have hunlink := h directory name rfl rfl
    exact .bind (Only.perform (hunlink _ (by simp [artifactPaths]))).attempt fun _ =>
      .bind (Only.perform (hunlink _ (by simp [artifactPaths]))).attempt fun _ =>
      .bind (Only.perform (hunlink _ (by simp [artifactPaths]))).attempt fun _ => .pure
  · exact .pure

/-- What the last step of the `catch` block writes. -/
theorem markFailed_only (hnow : P .now)
    (hmark : ∀ data : JobUpdate, data.status = .failed → P (.updateJob jobId data))
    (status : BackupJobStatus) (e : BackupFailure) : (markFailed jobId status e).Only P :=
  .ite (.bind (Only.perform hnow) fun _ =>
    .bind (Only.perform (hmark _ rfl)).attempt fun _ => .pure) .pure

/-- What the `catch` block writes. -/
theorem cleanUp_only (locals : JobLocals) (e : BackupFailure) :
    (cleanUp jobId locals e).Only (WritesOnly jobId [.failed]) :=
  .bind (removeStaging_only fun _ _ => writesOnly_of_isJobCall rfl) fun _ =>
    .bind (removePromoted_only fun _ _ _ _ _ _ => writesOnly_of_isJobCall rfl) fun _ =>
    .bind (markFailed_only (writesOnly_of_isJobCall rfl)
      (fun data hdata => writesOnly_updateJob (by simp [hdata])) _ _) fun _ => .pure

/-! ## The job -/

/-- The statuses that a running job is given. -/
def runningStatuses : List BackupJobStatus :=
  [.initializing, .capturing, .verifying, .completed, .failed]

/-- The `catch` block of a running job. -/
theorem cleanUp_only_running (locals : JobLocals) (e : BackupFailure) :
    (cleanUp jobId locals e).Only (WritesOnly jobId runningStatuses) :=
  (cleanUp_only locals e).mono fun _ hc => hc.mono (by decide)

variable {locals : JobLocals}

/-- A phase of the `try` block, with what follows it. -/
theorem guarded_only {α : Type} {part : Backup α} {rest : α → Backup BackupJobExecutionResult}
    (hpart : part.Only (WritesOnly jobId statuses)) (hsub : statuses ⊆ runningStatuses)
    (hrest : ∀ a, (rest a).Only (WritesOnly jobId runningStatuses)) :
    (guarded jobId locals part rest).Only (WritesOnly jobId runningStatuses) := by
  refine .bind (hpart.mono fun _ hc => hc.mono hsub).attempt fun outcome => ?_
  cases outcome with
  | ok a => exact hrest a
  | error e => exact cleanUp_only_running locals e

/-- A transition of the local status. -/
theorem guardedTransition_only {next : BackupJobStatus}
    {rest : JobLocals → Backup BackupJobExecutionResult}
    (hrest : ∀ locals', (rest locals').Only (WritesOnly jobId runningStatuses)) :
    (guardedTransition jobId locals next rest).Only (WritesOnly jobId runningStatuses) := by
  unfold guardedTransition
  split
  · exact hrest _
  · exact cleanUp_only_running locals _

/-- What the phases from CAPTURING on write. -/
theorem captureAndStore_only (staging storage bundle : JsString) (locals : JobLocals) :
    (captureAndStore host record destination staging storage bundle locals).Only
      (WritesOnly record.job.id runningStatuses) := by
  unfold captureAndStore
  refine guardedTransition_only fun capturing =>
    guarded_only (captureBundle_phase host record staging bundle).only (by decide) fun _ =>
    guardedTransition_only fun verifying =>
    guarded_only (verifyAndPromote_phase host record destination staging storage bundle).only
      (by decide) fun artifact =>
    guardedTransition_only fun completed =>
    guarded_only complete_only (by decide) fun _ => .pure

/-! ## Retention -/

/-- The files of an artifact. -/
theorem deleteFiles_only (paths : List JsString) :
    (deleteFiles paths).Only (WritesOnly jobId statuses) := by
  induction paths with
  | nil => exact .pure
  | cons path rest ih =>
    refine .bind (.tryCatch (only_call rfl) fun e => ?_) fun _ => ih
    split_ifs
    · exact .throw
    · exact .pure

/-- What is written for one candidate. -/
theorem pruneCandidate_only (config : BackupConfig) (configured : BackupDestination)
    (destinations : List BackupDestination) (activeJobIds : List JsString) (state : PruneState)
    (candidate : BackupArtifact) :
    (pruneCandidate host config configured destinations activeJobIds state candidate).Only
      (WritesOnly jobId statuses) := by
  have hfiles : ∀ storageDirectory, (pruneFiles host storageDirectory state candidate).Only
      (WritesOnly jobId statuses) := by
    intro storageDirectory
    unfold pruneFiles
    dsimp only
    split_ifs
    · exact .pure
    · exact .pure
    refine .bind (deleteFiles_only _).attempt fun deleted => ?_
    cases deleted with
    | error e => exact .pure
    | ok _ =>
      exact .bind (only_call rfl) fun _ => .bind (only_call rfl) fun _ => .pure
  unfold pruneCandidate
  split_ifs
  · exact .pure
  · exact .pure
  split
  · split
    · exact .pure
    · refine .bind (only_call rfl) fun health => ?_
      split_ifs
      · exact .pure
      · exact .bind .ret fun _ => hfiles _
  · exact .pure

/-- All candidates. -/
theorem pruneCandidates_only (config : BackupConfig) (configured : BackupDestination)
    (destinations : List BackupDestination) (activeJobIds : List JsString)
    (candidates : List BackupArtifact) (state : PruneState) :
    (pruneCandidates host config configured destinations activeJobIds candidates state).Only
      (WritesOnly jobId statuses) := by
  induction candidates generalizing state with
  | nil => exact .pure
  | cons candidate rest ih =>
    exact .bind (pruneCandidate_only host config configured destinations activeJobIds state
      candidate) ih

/-- A retention pass writes no job. -/
theorem pruneApplicationBackups_only (jobId : JsString) (statuses : List BackupJobStatus)
    (host : BackupHost) (applicationId : JsString) :
    (pruneApplicationBackups host applicationId).Only (WritesOnly jobId statuses) := by
  have hprune : (executePruneInternal host applicationId).Only (WritesOnly jobId statuses) := by
    refine .bind (only_call rfl) fun found => ?_
    split
    · refine .bind (only_call rfl) fun artifacts =>
        .bind (only_call rfl) fun activeJobs => ?_
      dsimp only
      split_ifs
      · exact .pure
      · exact .bind (only_call rfl) fun destinations =>
          .bind (pruneCandidates_only host _ _ destinations _ _ _) fun _ => .pure
    · exact .pure
  refine .bind (only_call rfl) fun locked => ?_
  split_ifs
  · exact .pure
  · exact .bind hprune.attempt fun _ => .bind (only_call rfl) fun _ => .ret

end ZimaControl
