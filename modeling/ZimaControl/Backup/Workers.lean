import ZimaControl.Backup.Queue
import ZimaControl.Lib.Discipline

/-!
# Workers side by side

Any number of calls of `executeBackupJob`, `processNextQueuedJob` and `recoverStaleBackupJobs` on
one database, with their awaits interleaved. A call checks the transitions of a job against the
status that it loaded or wrote last. The row may have changed since, for updates are unconditional.

What a call does is fixed by what it has seen (`jobDiscipline`): it writes a status to which the
seen one leads, except that a job loaded as COMPLETED is marked as failed, and so is a queued job
whose update to INITIALIZING fails. If neither happens and the rows written still have the status
that was seen (or, where FAILED is written, are still in progress), the table obeys the state
machine (`job_statuses_obeyed`).
-/

namespace ZimaControl

open List

/-! ## The machine -/

/-- A call of a worker. -/
inductive WorkerCall
  | executeBackupJob (jobId : JsString)
  | processNextQueuedJob
  | recoverStaleBackupJobs

/-- The program of a call, without its result. -/
def WorkerCall.task (host : BackupHost) : WorkerCall → Backup Unit
  | executeBackupJob jobId => do
    let _ ← ZimaControl.executeBackupJob host jobId
    return ()
  | processNextQueuedJob => do
    let _ ← ZimaControl.processNextQueuedJob host
    return ()
  | recoverStaleBackupJobs => do
    let _ ← ZimaControl.recoverStaleBackupJobs
    return ()

/-- The statuses of jobs that a call has loaded or written last. -/
abbrev Seen := JsString → Option BackupJobStatus

/-- What a call has seen after an answer. -/
def learn (seen : Seen) : (c : BackupCall) → Except BackupFailure c.Answer → Seen
  | .findJob _, .ok (some record) => Function.update seen record.job.id (some record.job.status)
  | .findStale, .ok rows => fun id =>
    (rows.find? fun row => row.1.id = id).map (·.1.status) <|> seen id
  | .updateJob jobId data, .ok _ => Function.update seen jobId (some data.status)
  | _, _ => seen

/-- A status that was written: by which call, to which job, over which status. -/
structure StatusWrite where
  writer : ℕ
  jobId : JsString
  before : BackupJobStatus
  after : BackupJobStatus
  deriving DecidableEq

/-- The database, what each call has seen, and the statuses that were written. -/
structure WorkerWorld where
  db : BackupWorld
  seen : ℕ → Seen
  writes : List StatusWrite

/-- The status of a job. -/
def BackupWorld.statusOf (w : BackupWorld) (jobId : JsString) : Option BackupJobStatus :=
  (w.jobs.find? (·.id = jobId)).map (·.status)

/-- The statuses written so far, behind an answer. -/
def WorkerWorld.record (w : WorkerWorld) (i : ℕ) :
    (c : BackupCall) → Except BackupFailure c.Answer → List StatusWrite
  | .updateJob jobId data, .ok _ =>
    w.writes ++ ((w.db.statusOf jobId).map fun before => ⟨i, jobId, before, data.status⟩).toList
  | _, _ => w.writes

/-- A condition on the steps of a run: the call and how it is answered. -/
abbrev StepCondition :=
  WorkerWorld → ℕ → (c : BackupCall) → Except BackupFailure c.Answer → Bool

/-- Worker calls side by side, along runs whose steps meet a condition. -/
def workerMachine (host : BackupHost) (condition : StepCondition) :
    Machine BackupCall BackupCall.Answer BackupFailure Unit WorkerWorld WorkerCall BackupChoice where
  body := WorkerCall.task host
  external _ := true
  jobs _ := []
  start _ w := w
  exec i w c choice := (c.exec host w.db choice).bind fun (r, db) =>
    if condition w i c r then
      some (r, ⟨db, Function.update w.seen i (learn (w.seen i) c r), w.record i c r⟩)
    else none
  finish _ _ w := w

/-- A database before any call. -/
def initialPool (db : BackupWorld) :
    Pool BackupCall BackupCall.Answer BackupFailure Unit WorkerWorld :=
  ⟨⟨db, fun _ _ => none, []⟩, []⟩

/-- No condition. -/
def anyStep : StepCondition := fun _ _ _ _ => true

/-- No job is loaded as COMPLETED, no update to INITIALIZING fails, and a status is written only
while the row has the status seen, or FAILED while it is in progress. -/
def carefulStep : StepCondition := fun w i c r =>
  match c, r with
  | .findJob _, .ok (some record) => record.job.status ≠ .completed
  | .updateJob jobId data, .ok _ => w.db.statusOf jobId = w.seen i jobId ||
      (data.status = .failed && (w.db.statusOf jobId).any isInProgress)
  | .updateJob _ data, .error _ => data.status ≠ .initializing
  | _, _ => true

/-! ## What a call does with what it has seen -/

/-- The calls of workers, from what they have seen. -/
def jobDiscipline : Discipline BackupCall BackupCall.Answer BackupFailure Seen where
  initial := fun _ => none
  Allows seen c := (∀ data, c ≠ .enqueue data) ∧
    ∀ jobId data, c = .updateJob jobId data → ∃ status, seen jobId = some status ∧
      if data.status = .failed then isInProgress status = true
      else canTransitionBackupJobStatus status data.status = true
  Possible _ c r :=
    match c, r with
    | .findJob jobId, .ok (some record) =>
      record.job.id = jobId ∧ record.job.status ≠ .completed
    | .findStale, .ok rows =>
      (rows.map (·.1.id)).Nodup ∧ ∀ row ∈ rows, isInProgress row.1.status = true
    | .updateJob _ data, .error _ => data.status ≠ .initializing
    | _, _ => True
  after := learn

variable {host : BackupHost} {seen : Seen} {jobId : JsString}

variable {c : BackupCall}

/-- An answer about other things teaches nothing about jobs. -/
theorem learn_of_not_isJobCall (hc : c.isJobCall = false) (r : Except BackupFailure c.Answer) :
    learn seen c r = seen := by
  cases c <;> first | rfl | cases hc

variable {α : Type}

/-- A program that loads and writes no job follows the discipline, and learns nothing. -/
theorem follows_of_only (jobId : JsString) {t : Backup α} (h : t.Only (WritesOnly jobId [])) :
    t.Follows jobDiscipline (fun _ seen' => seen' = seen) seen := by
  refine h.follows fun c hwrites => ?_
  have hc : c.isJobCall = false := by
    by_contra hjob
    obtain ⟨data, -, hstatus⟩ := hwrites (by simpa using hjob)
    cases hstatus
  refine ⟨⟨fun data henqueue => ?_, fun jobId data hupdate => ?_⟩, learn_of_not_isJobCall hc⟩
  · rw [henqueue] at hc
    cases hc
  · rw [hupdate] at hc
    cases hc

/-- A program that follows the discipline, whatever it ends with. -/
abbrev FollowsJobs {α : Type} (t : Backup α) (seen : Seen) : Prop :=
  t.Follows jobDiscipline (fun _ _ => True) seen

/-- A program that loads and writes no job, and then one that follows the discipline. -/
theorem FollowsJobs.bindOnly {α β : Type} (jobId : JsString) {t : Backup α} {f : α → Backup β}
    (h : t.Only (WritesOnly jobId [])) (hf : ∀ a, FollowsJobs (f a) seen) :
    FollowsJobs (t >>= f) seen := by
  refine .bind (follows_of_only jobId h) ?_ fun _ _ _ => trivial
  rintro a seen' rfl
  exact hf a

variable {status : BackupJobStatus} {data : JobUpdate}

/-- FAILED is written to a job that was seen in progress. -/
theorem updateFailed_follows (hdata : data.status = .failed)
    (h : ∃ status, seen jobId = some status ∧ isInProgress status = true) :
    (call (.updateJob jobId data)).Follows jobDiscipline
      (fun r seen' => ∀ a, r = .ok a → seen' = Function.update seen jobId (some .failed)) seen := by
  refine .perform ⟨nofun, ?_⟩ fun r _ a hr => ?_
  · rintro jobId' data' heq
    cases heq
    obtain ⟨status, hstatus, hprogress⟩ := h
    exact ⟨status, hstatus, by rw [if_pos hdata]; exact hprogress⟩
  · rw [hr, ← hdata]
    rfl

/-- An update of a job along a legal transition. -/
theorem updateJob_follows (hseen : seen jobId = some status) (hfinal : data.status ≠ .failed)
    (hlegal : canTransitionBackupJobStatus status data.status = true) :
    (updateJobState jobId data).Follows jobDiscipline (fun r seen' =>
      r = .ok () ∧ seen' jobId = some data.status ∨
        data.status ≠ .initializing ∧ seen' jobId = some status ∧ ∃ e, r = .error e) seen := by
  refine .perform ⟨nofun, ?_⟩ ?_
  · rintro jobId' data' heq
    cases heq
    exact ⟨status, hseen, by rw [if_neg hfinal]; exact hlegal⟩
  · intro r hpossible
    cases r with
    | ok _ => exact .inl ⟨rfl, Function.update_self ..⟩
    | error e => exact .inr ⟨hpossible, hseen, e, rfl⟩

/-- A phase along a legal transition. -/
theorem phase_follows {t : Backup α} (ht : IsPhase jobId data t) (hseen : seen jobId = some status)
    (hfinal : data.status ≠ .failed)
    (hlegal : canTransitionBackupJobStatus status data.status = true) :
    t.Follows jobDiscipline (fun r seen' =>
      seen' jobId = some data.status ∨
        data.status ≠ .initializing ∧ seen' jobId = some status ∧ ∃ e, r = .error e) seen := by
  obtain ⟨rest, rfl, hrest⟩ := ht
  refine .bind (updateJob_follows hseen hfinal hlegal) (fun _ seen' hupdated => ?_) ?_
  · obtain ⟨-, hupdated⟩ | ⟨-, -, e, he⟩ := hupdated
    · refine (follows_of_only jobId hrest).mono fun r seen'' hsame => .inl ?_
      rw [hsame]
      exact hupdated
    · cases he
  · intro e seen' hfailed
    obtain ⟨hok, -⟩ | ⟨hnot, hsame, -⟩ := hfailed
    · cases hok
    · exact .inr ⟨hnot, hsame, e, rfl⟩

variable {locals : JobLocals}

/-- The `catch` block, for a job that was seen in progress unless it is not marked. -/
theorem cleanUp_follows (e : BackupFailure)
    (h : locals.currentStatus ≠ .failed → locals.currentStatus ≠ .cancelled →
      ∃ status, seen jobId = some status ∧ isInProgress status = true) :
    FollowsJobs (cleanUp jobId locals e) seen := by
  have hstaging : (removeStaging locals.stagingDirectory).Only (WritesOnly jobId []) :=
    removeStaging_only fun _ _ => writesOnly_of_isJobCall rfl
  have hpromoted : (removePromoted locals.targetStorageDir locals.bundleFileName).Only
      (WritesOnly jobId []) := removePromoted_only fun _ _ _ _ _ _ => writesOnly_of_isJobCall rfl
  refine .bindOnly jobId hstaging fun _ => .bindOnly jobId hpromoted fun _ => ?_
  have hmark : FollowsJobs (markFailed jobId locals.currentStatus e) seen := by
    unfold markFailed
    split_ifs with hcurrent
    · refine .bindOnly jobId (only_call rfl) fun completedAt => ?_
      exact .bindAttempt (updateFailed_follows rfl (h hcurrent.1 hcurrent.2)) fun _ _ _ => trivial
    · trivial
  exact .bind hmark (fun _ _ _ => trivial) fun _ _ _ => trivial

/-- What is left of a phase: the next one starts from its status, and the `catch` block finds the
job in progress. -/
theorem guarded_follows {part : Backup α} {rest : α → Backup BackupJobExecutionResult}
    (hpart : IsPhase jobId data part) (hseen : seen jobId = some status)
    (hlegal : canTransitionBackupJobStatus status data.status = true)
    (hprogress : isInProgress data.status = true)
    (hbefore : data.status ≠ .initializing → isInProgress status = true)
    (hrest : ∀ a seen', seen' jobId = some data.status → FollowsJobs (rest a) seen') :
    FollowsJobs (guarded jobId locals part rest) seen := by
  have hfinal : data.status ≠ .failed := by
    intro heq
    rw [heq] at hprogress
    cases hprogress
  refine .bindAttempt (phase_follows hpart hseen hfinal hlegal) fun r seen' hr => ?_
  cases r with
  | ok a =>
    obtain hseen' | ⟨-, -, e, he⟩ := hr
    · exact hrest a seen' hseen'
    · cases he
  | error e =>
    refine cleanUp_follows e fun _ _ => ?_
    obtain hseen' | ⟨hnot, hseen', -⟩ := hr
    · exact ⟨data.status, hseen', hprogress⟩
    · exact ⟨status, hseen', hbefore hnot⟩

/-- A part of the `try` block that loads and writes no job. -/
theorem guarded_follows_of_only {part : Backup α} {rest : α → Backup BackupJobExecutionResult}
    (hpart : part.Only (WritesOnly jobId [])) (hseen : seen jobId = some status)
    (hprogress : isInProgress status = true) (hrest : ∀ a, FollowsJobs (rest a) seen) :
    FollowsJobs (guarded jobId locals part rest) seen := by
  refine .bindAttempt (follows_of_only jobId hpart) fun r seen' hr => ?_
  subst hr
  cases r with
  | ok a => exact hrest a
  | error e => exact cleanUp_follows e fun _ _ => ⟨status, hseen, hprogress⟩

/-- COMPLETED, for a job that was seen as VERIFYING. -/
theorem complete_follows (hseen : seen jobId = some .verifying)
    {result : BackupJobExecutionResult} :
    FollowsJobs (guarded jobId locals (complete jobId) fun _ => return result) seen := by
  have hcomplete : (complete jobId).Follows jobDiscipline
      (fun r seen' => ∀ e, r = .error e → seen' jobId = some .verifying) seen := by
    refine .bind (follows_of_only jobId (only_call rfl)) ?_ ?_
    · rintro completedAt seen₁ rfl
      have hcompleted : BackupJobStatus.completed ≠ .failed := by decide
      refine (updateJob_follows hseen hcompleted rfl).mono fun r seen₂ hr e he => ?_
      obtain ⟨hok, -⟩ | ⟨-, hseen₂, -⟩ := hr
      · rw [he] at hok
        cases hok
      · exact hseen₂
    · rintro e seen₁ rfl e' -
      exact hseen
  refine .bindAttempt hcomplete fun r seen' hr => ?_
  cases r with
  | ok a => trivial
  | error e => exact cleanUp_follows e fun _ _ => ⟨.verifying, hr e rfl, rfl⟩

variable {destination : BackupDestination} {record : JobRecord}

/-- The phases from CAPTURING on, for a job that was seen as INITIALIZING. -/
theorem captureAndStore_follows {staging storage bundle : JsString}
    (hlocal : locals.currentStatus = .initializing)
    (hseen : seen record.job.id = some .initializing) :
    FollowsJobs (captureAndStore host record destination staging storage bundle locals) seen := by
  unfold captureAndStore guardedTransition
  rw [hlocal]
  refine guarded_follows (captureBundle_phase host record staging bundle) hseen rfl rfl
    (fun _ => rfl) fun _ seen₁ hseen₁ => ?_
  refine guarded_follows (verifyAndPromote_phase host record destination staging storage bundle)
    hseen₁ rfl rfl (fun _ => rfl) fun artifact seen₂ hseen₂ => ?_
  exact complete_follows hseen₂

/-- A job from what it was loaded with. -/
theorem runJob_follows (hseen : seen record.job.id = some record.job.status)
    (hcompleted : record.job.status ≠ .completed) :
    FollowsJobs (runJob host record destination) seen := by
  refine .bindOnly record.job.id (only_call rfl) fun startedAt => ?_
  by_cases hqueued : record.job.status = .queued
  · rw [hqueued] at hseen ⊢
    refine guarded_follows (startJob_phase destination startedAt) hseen rfl rfl (nomatch · rfl)
      fun _ seen₂ hseen₂ => ?_
    have hprogress : isInProgress .initializing = true := rfl
    split
    · exact cleanUp_follows _ fun _ _ => ⟨_, hseen₂, hprogress⟩
    · split
      · exact cleanUp_follows _ fun _ _ => ⟨_, hseen₂, hprogress⟩
      · exact guarded_follows_of_only (only_call rfl) hseen₂ hprogress fun _ =>
          captureAndStore_follows rfl hseen₂
  · -- The transition is refused, and the job is marked as failed if it is in progress.
    have hrefused : ∃ e, transitionBackupJobStatus record.job.status .initializing = .error e := by
      refine ⟨_, if_pos ?_⟩
      rw [Bool.eq_false_iff]
      exact fun hlegal => hqueued (eq_queued_of_canTransition_initializing hlegal)
    obtain ⟨e, hrefused⟩ := hrefused
    unfold guardedTransition
    rw [hrefused]
    refine cleanUp_follows e fun hfailed hcancelled => ⟨_, hseen, ?_⟩
    revert hqueued hcompleted hfailed hcancelled
    cases record.job.status <;> decide

/-! ## The three calls -/

/-- `executeBackupJob` writes what the status it has seen allows. -/
theorem executeBackupJob_follows (jobId : JsString) :
    FollowsJobs (executeBackupJob host jobId) seen := by
  have hfind : (call (.findJob jobId)).Follows jobDiscipline (fun r seen' => ∀ record,
      r = .ok (some record) → seen' record.job.id = some record.job.status ∧
        record.job.status ≠ .completed) seen := by
    refine .perform ⟨nofun, nofun⟩ fun r hpossible record hr => ?_
    subst hr
    exact ⟨Function.update_self .., hpossible.2⟩
  refine .bind hfind ?_ fun _ _ _ => trivial
  intro found seen₁ hfound
  cases found with
  | none => trivial
  | some record =>
    obtain ⟨hseen, hcompleted⟩ := hfound record rfl
    dsimp only
    split
    · trivial
    split_ifs
    · trivial
    · cases host.resolveProvider ‹_› with
      | error e => trivial
      | ok _ => exact runJob_follows hseen hcompleted

/-- So does `processNextQueuedJob`. -/
theorem processNextQueuedJob_follows : FollowsJobs (processNextQueuedJob host) seen := by
  refine .bindOnly [] (only_call rfl) fun queued => ?_
  cases queued with
  | none => trivial
  | some job =>
    refine .bindOnly [] (only_call rfl) fun inProgress => ?_
    cases inProgress with
    | some other => trivial
    | none =>
      refine .bind (executeBackupJob_follows job.id) ?_ fun _ _ _ => trivial
      intro result seen₃ _
      split_ifs
      · exact .bindAttempt
          (follows_of_only [] (pruneApplicationBackups_only [] [] host _)) fun _ _ _ => trivial
      · trivial

/-- The loop of `recoverStaleBackupJobs`, for jobs that were seen in progress. -/
theorem recoverJobs_follows {rows : List (BackupJob × Option JsString)}
    (hids : (rows.map (·.1.id)).Nodup)
    (hrows : ∀ row ∈ rows, ∃ status, seen row.1.id = some status ∧ isInProgress status = true) :
    FollowsJobs (recoverJobs rows) seen := by
  induction rows generalizing seen with
  | nil => trivial
  | cons row rest ih =>
    obtain ⟨job, basePath⟩ := row
    rw [map_cons, nodup_cons] at hids
    refine .bindOnly job.id (only_call rfl) fun completedAt => ?_
    refine .bind (updateFailed_follows rfl (hrows _ mem_cons_self)) ?_ fun _ _ _ => trivial
    intro _ seen₁ hseen₁
    obtain rfl := hseen₁ _ rfl
    refine FollowsJobs.bindOnly job.id (only_call rfl) fun _ => ?_
    have hrest : ∀ row ∈ rest, ∃ status,
        Function.update seen job.id (some .failed) row.1.id = some status ∧
          isInProgress status = true := by
      intro row hrow
      have hne : row.1.id ≠ job.id := fun heq => hids.1 (mem_map.mpr ⟨row, hrow, heq⟩)
      rw [Function.update_of_ne hne]
      exact hrows row (mem_cons_of_mem _ hrow)
    split
    · exact ih hids.2 hrest
    · exact ih hids.2 hrest
    · refine .bindAttempt (follows_of_only job.id (only_call rfl)) ?_
      rintro - seen₂ rfl
      exact ih hids.2 hrest

/-- So does `recoverStaleBackupJobs`. -/
theorem recoverStaleBackupJobs_follows : FollowsJobs recoverStaleBackupJobs seen := by
  have hfind : (call .findStale).Follows jobDiscipline
      (fun r seen' => ∀ rows : List (BackupJob × Option JsString), r = .ok rows →
        (rows.map (·.1.id)).Nodup ∧
        ∀ row ∈ rows, ∃ status, seen' row.1.id = some status ∧ isInProgress status = true) seen := by
    refine .perform ⟨nofun, nofun⟩ fun r hpossible rows hr => ?_
    subst hr
    refine ⟨hpossible.1, fun row hrow => ?_⟩
    have hsome : (rows.find? fun other => other.1.id = row.1.id).isSome :=
      find?_isSome.mpr ⟨row, hrow, decide_eq_true rfl⟩
    obtain ⟨found, hfound⟩ := Option.isSome_iff_exists.mp hsome
    refine ⟨found.1.status, ?_, hpossible.2 found (mem_of_find?_eq_some hfound)⟩
    change ((rows.find? fun other => other.1.id = row.1.id).map (·.1.status) <|> seen row.1.id) = _
    rw [hfound]
    rfl
  refine .bind hfind ?_ fun _ _ _ => trivial
  intro rows seen₁ hrows
  obtain ⟨hids, hprogress⟩ := hrows rows rfl
  exact .bind (recoverJobs_follows hids hprogress) (fun _ _ _ => trivial)
    fun _ _ _ => trivial

/-- Every call follows the discipline. -/
theorem task_follows (c : WorkerCall) : FollowsJobs (c.task host) seen := by
  cases c with
  | executeBackupJob jobId =>
    exact .bind (executeBackupJob_follows jobId) (fun _ _ _ => trivial) fun _ _ _ => trivial
  | processNextQueuedJob =>
    exact .bind processNextQueuedJob_follows (fun _ _ _ => trivial) fun _ _ _ => trivial
  | recoverStaleBackupJobs =>
    exact .bind recoverStaleBackupJobs_follows (fun _ _ _ => trivial) fun _ _ _ => trivial

/-! ## What the table does -/

/-- The status of a job behind an update. -/
theorem statusOf_updateRows (db : BackupWorld) (jobId other : JsString) (data : JobUpdate) :
    BackupWorld.statusOf { db with jobs := updateRows jobId data db.jobs } other =
      (db.statusOf other).map fun status => if other = jobId then data.status else status := by
  have hid : ∀ job : BackupJob, (if job.id = jobId then data.apply job else job).id = job.id := by
    intro job
    split_ifs <;> rfl
  unfold BackupWorld.statusOf updateRows
  rw [find?_map, Option.map_map, Option.map_map]
  simp only [Function.comp_def, hid]
  cases hfind : db.jobs.find? (·.id = other) with
  | none => rfl
  | some job =>
    have hjob := find?_some hfind
    rw [Option.map_some, Option.map_some, of_decide_eq_true hjob]
    split_ifs <;> rfl

/-- The writes of INITIALIZING to a job. -/
def initializations (writes : List StatusWrite) (jobId : JsString) : List StatusWrite :=
  writes.filter fun write => write.jobId = jobId && write.after = .initializing

/-- The rows are distinct, every write was legal, and no job was initialised twice. -/
structure StatusesObeyed (w : WorkerWorld) : Prop where
  ids : (w.db.jobs.map (·.id)).Nodup
  legal : ∀ write ∈ w.writes, canTransitionBackupJobStatus write.before write.after = true
  once : ∀ jobId, (initializations w.writes jobId).length ≤ 1
  started : ∀ jobId, initializations w.writes jobId ≠ [] → w.db.statusOf jobId ≠ some .queued

variable {w w' : WorkerWorld} {i : ℕ}

/-- A careful update is legal from the status of the row. -/
theorem legal_of_careful (hallows : jobDiscipline.Allows (w.seen i)
    (.updateJob jobId data)) (hcareful : carefulStep w i (.updateJob jobId data) (.ok ()) = true) :
    ∃ before, w.db.statusOf jobId = some before ∧
      canTransitionBackupJobStatus before data.status = true := by
  have hfailed : ∀ status, isInProgress status = true →
      canTransitionBackupJobStatus status .failed = true := by
    intro status
    cases status <;> decide
  obtain ⟨status, hseen, hstatus⟩ := hallows.2 jobId data rfl
  simp only [carefulStep, Bool.or_eq_true, decide_eq_true_eq, Bool.and_eq_true,
    Option.any_eq_true] at hcareful
  obtain hsame | ⟨hdata, before, hbefore, hprogress⟩ := hcareful
  · refine ⟨status, hsame.trans hseen, ?_⟩
    split_ifs at hstatus with hdata
    · rw [hdata]
      exact hfailed status hstatus
    · exact hstatus
  · exact ⟨before, hbefore, by rw [hdata]; exact hfailed before hprogress⟩

/-- A legal update keeps the rules. -/
theorem StatusesObeyed.update (h : StatusesObeyed w) {before : BackupJobStatus}
    (hbefore : w.db.statusOf jobId = some before)
    (hlegal : canTransitionBackupJobStatus before data.status = true)
    (hdb : w'.db = { w.db with jobs := updateRows jobId data w.db.jobs })
    (hwrites : w'.writes = w.writes ++ [⟨i, jobId, before, data.status⟩]) : StatusesObeyed w' := by
  have hnotQueued : data.status ≠ .queued := by
    intro heq
    rw [heq, not_canTransition_queued] at hlegal
    cases hlegal
  -- A job that was initialised is not queued, so it is not initialised again.
  have hfirst : data.status = .initializing → initializations w.writes jobId = [] := by
    intro hstatus
    by_contra hsome
    rw [hstatus] at hlegal
    exact h.started jobId hsome (by rw [hbefore, eq_queued_of_canTransition_initializing hlegal])
  have hinit : ∀ other, initializations w'.writes other = initializations w.writes other ++
      if jobId = other ∧ data.status = .initializing then [⟨i, jobId, before, data.status⟩]
      else [] := by
    intro other
    unfold initializations
    rw [hwrites, filter_append]
    congr 1
    by_cases hother : jobId = other <;> by_cases hstatus : data.status = .initializing <;>
      simp [hother, hstatus]
  have hstatusOf : ∀ other, w'.db.statusOf other =
      (w.db.statusOf other).map fun status => if other = jobId then data.status else status := by
    intro other
    rw [hdb]
    exact statusOf_updateRows w.db jobId other data
  refine ⟨?_, ?_, ?_, ?_⟩
  · rw [hdb, map_id_updateRows]
    exact h.ids
  · intro write hwrite
    rw [hwrites] at hwrite
    obtain hwrite | hwrite := mem_append.mp hwrite
    · exact h.legal write hwrite
    · rw [mem_singleton.mp hwrite]
      exact hlegal
  · intro other
    rw [hinit]
    split_ifs with hnew
    · rw [← hnew.1, hfirst hnew.2]
      rfl
    · rw [append_nil]
      exact h.once other
  · intro other hsome
    rw [hstatusOf]
    by_cases hother : other = jobId
    · rw [hother, hbefore, Option.map_some, if_pos rfl]
      simpa using hnotQueued
    · rw [hinit, if_neg fun hnew => hother hnew.1.symm, append_nil] at hsome
      have hqueued := h.started other hsome
      simpa [hother] using hqueued

/-- A call that does not change the table of jobs keeps the rules. -/
theorem StatusesObeyed.congr (h : StatusesObeyed w) (hjobs : w'.db.jobs = w.db.jobs)
    (hwrites : w'.writes = w.writes) : StatusesObeyed w' where
  ids := by rw [hjobs]; exact h.ids
  legal := by rw [hwrites]; exact h.legal
  once := by rw [hwrites]; exact h.once
  started := by
    rw [hwrites]
    unfold BackupWorld.statusOf
    rw [hjobs]
    exact h.started

variable {choice : BackupChoice} {r : Except BackupFailure c.Answer} {db : BackupWorld}

/-- The answers of a careful step are possible. -/
theorem possible_of_exec (h : StatusesObeyed w) (hexec : c.exec host w.db choice = some (r, db))
    (hcareful : carefulStep w i c r = true) : jobDiscipline.Possible (w.seen i) c r := by
  cases c with
  | findJob jobId =>
    cases r with
    | error e => trivial
    | ok found =>
      cases found with
      | none => trivial
      | some record =>
        obtain ⟨e, -, herror, -⟩ | hsucceed := exec_cases hexec
        · cases herror
        · exact ⟨(findJob_succeed hsucceed).2.1, of_decide_eq_true hcareful⟩
  | findStale =>
    cases r with
    | error e => trivial
    | ok rows =>
      obtain ⟨e, -, herror, -⟩ | hsucceed := exec_cases hexec
      · cases herror
      cases choice <;> try cases hsucceed
      rename_i jobs
      rw [BackupCall.succeed] at hsucceed
      split_ifs at hsucceed with hperm
      cases hsucceed
      have hids : (jobs.map (·.id)).Nodup :=
        ((hperm.map _).nodup_iff).mpr (h.ids.sublist (filter_sublist.map _))
      refine ⟨by rw [map_map]; exact hids, fun row hrow => ?_⟩
      obtain ⟨job, hjob, rfl⟩ := mem_map.mp hrow
      exact (mem_filter.mp (hperm.mem_iff.mp hjob)).2
  | updateJob jobId data =>
    cases r with
    | ok _ => trivial
    | error e =>
      have hnot : data.status ≠ .initializing := of_decide_eq_true hcareful
      exact hnot
  | _ => trivial

/-- A careful step of a call changes no job, or updates one along a legal transition. -/
theorem careful_change (hallows : jobDiscipline.Allows (w.seen i) c)
    (hexec : c.exec host w.db choice = some (r, db)) (hcareful : carefulStep w i c r = true) :
    db.jobs = w.db.jobs ∧ w.record i c r = w.writes ∨
    ∃ jobId data before, w.db.statusOf jobId = some before ∧
      canTransitionBackupJobStatus before data.status = true ∧
      db = { w.db with jobs := updateRows jobId data w.db.jobs } ∧
      w.record i c r = w.writes ++ [⟨i, jobId, before, data.status⟩] := by
  by_cases htable : c.table = some .jobs
  · cases c with
    | updateJob jobId data =>
      obtain ⟨hr, hdb⟩ | ⟨e, hr, hjobs⟩ := updateJob_exec hexec
      · subst hr
        obtain ⟨before, hbefore, hlegal⟩ := legal_of_careful hallows hcareful
        refine .inr ⟨jobId, data, before, hbefore, hlegal, hdb, ?_⟩
        change w.writes ++ ((w.db.statusOf jobId).map _).toList = _
        rw [hbefore]
        rfl
      · subst hr
        exact .inl ⟨hjobs, rfl⟩
    | enqueue data => exact absurd rfl (hallows.1 data)
    | _ => cases htable
  · refine .inl ⟨(frame_of_exec hexec).jobs htable, ?_⟩
    cases c <;> first | rfl | exact absurd rfl htable

/-- A careful step keeps the rules, and a job that has ended keeps its status. -/
theorem careful_step (h : StatusesObeyed w) (hallows : jobDiscipline.Allows (w.seen i) c)
    (hexec : (workerMachine host carefulStep).exec i w c choice = some (r, w')) :
    StatusesObeyed w' ∧ jobDiscipline.Possible (w.seen i) c r ∧
      w'.seen = Function.update w.seen i (learn (w.seen i) c r) ∧
      ∀ jobId status, w.db.statusOf jobId = some status → legalTransitions status = [] →
        w'.db.statusOf jobId = some status := by
  obtain ⟨⟨r', db⟩, hcall, hstep⟩ := Option.bind_eq_some_iff.mp hexec
  dsimp only at hstep
  split_ifs at hstep with hcareful
  cases hstep
  have hpossible := possible_of_exec h hcall hcareful
  obtain ⟨hjobs, hwrites⟩ | ⟨jobId, data, before, hbefore, hlegal, hdb, hwrites⟩ :=
    careful_change hallows hcall hcareful
  · refine ⟨h.congr hjobs hwrites, hpossible, rfl, fun other status hstatus _ => ?_⟩
    unfold BackupWorld.statusOf at hstatus ⊢
    rw [hjobs]
    exact hstatus
  · refine ⟨h.update hbefore hlegal hdb hwrites, hpossible, rfl, fun other status hstatus hended => ?_⟩
    have hne : other ≠ jobId := by
      intro heq
      rw [heq, hbefore] at hstatus
      cases hstatus
      simp [canTransitionBackupJobStatus, hended] at hlegal
    rw [hdb, statusOf_updateRows, hstatus, Option.map_some, if_neg hne]

/-- Careful runs keep the rules, and whatever careful steps keep. -/
theorem tracks_careful (P : WorkerWorld → Prop)
    (hP : ∀ w w' : WorkerWorld, P w → (∀ jobId status, w.db.statusOf jobId = some status →
      legalTransitions status = [] → w'.db.statusOf jobId = some status) → P w') :
    jobDiscipline.Tracks (workerMachine host carefulStep) (fun _ _ => True) WorkerWorld.seen
      (fun w => StatusesObeyed w ∧ P w) where
  body c := task_follows c
  external _ := rfl
  start _ _ hw := ⟨hw, rfl⟩
  step := by
    rintro i w c choice r w' ⟨h, hp⟩ hallows hexec
    obtain ⟨hobeyed, hpossible, hseen, hended⟩ := careful_step h hallows hexec
    refine ⟨⟨hobeyed, hP w w' hp hended⟩, hpossible, ?_, fun j hj => ?_⟩
    · rw [hseen, Function.update_self]
      rfl
    · rw [hseen, Function.update_of_ne hj]
  finish _ _ _ hw := ⟨hw, rfl⟩

/-- Along every run in which no job is loaded as COMPLETED, no update to INITIALIZING fails, and a
status is written only while the row has the status that the call has seen (or FAILED while it is in
progress), every status is written along a legal transition, no job is initialised by two calls, and
a job that has ended keeps its status. -/
theorem job_statuses_obeyed (host : BackupHost) (db : BackupWorld)
    (hids : (db.jobs.map (·.id)).Nodup) (labels labels' : List (PoolLabel WorkerCall BackupChoice))
    (p p' : Pool BackupCall BackupCall.Answer BackupFailure Unit WorkerWorld)
    (hrun : (workerMachine host carefulStep).run (initialPool db) labels = some p)
    (hrun' : (workerMachine host carefulStep).run p labels' = some p') :
    (∀ write ∈ p.world.writes, canTransitionBackupJobStatus write.before write.after = true) ∧
    (∀ jobId, (initializations p.world.writes jobId).length ≤ 1) ∧
    ∀ jobId status, p.world.db.statusOf jobId = some status → legalTransitions status = [] →
      p'.world.db.statusOf jobId = some status := by
  have hstart : (initialPool db).Follows jobDiscipline (fun _ _ => True) WorkerWorld.seen
      (fun w => StatusesObeyed w ∧ True) := by
    refine ⟨⟨⟨hids, nofun, fun _ => Nat.zero_le 1, nofun⟩, trivial⟩, fun i t ht => ?_, fun _ _ => rfl⟩
    simp [initialPool] at ht
  have hp := (tracks_careful (fun _ => True) fun _ _ _ _ => trivial).run hstart hrun
  refine ⟨hp.inv.1.legal, hp.inv.1.once, fun jobId status hstatus hended => ?_⟩
  have hp' := (tracks_careful (fun w => w.db.statusOf jobId = some status)
    fun w w' hw hkeeps => hkeeps jobId status hw hended).run
    ⟨⟨hp.inv.1, hstatus⟩, hp.task, hp.fresh⟩ hrun'
  exact hp'.inv.2

/-- Two jobs without sources, executed step by step in turn, each from QUEUED to FAILED. -/
theorem job_statuses_obeyed_noSources :
    ∃ p, (workerMachine .plain carefulStep).run (initialPool (twoQueued true))
        ([.start (.executeBackupJob (js "older")), .start (.executeBackupJob (js "younger"))] ++
          [.done, .number 0, .done, .health ⟨true, none, none⟩, .done, .done, .done, .done, .done,
            .done, .number 1, .done].flatMap fun choice => [.step 0 choice, .step 1 choice]) = some p ∧
      p.world.writes.length = 6 ∧
      ∀ write ∈ p.world.writes, canTransitionBackupJobStatus write.before write.after = true := by
  refine exists_some_of_map (f := (·.world.writes.length)) (b := 6) (by decide +kernel)
    fun p hrun hlength => ?_
  exact ⟨hlength, (job_statuses_obeyed .plain (twoQueued true) (by decide) _ [] p p hrun rfl).1⟩

/-- Recovery marks a job as failed that another call is executing, and the other call goes on. -/
theorem recovered_job_captures :
    ∃ p, (workerMachine .plain anyStep).run (initialPool (twoQueued true))
        [.start (.executeBackupJob (js "older")), .start .recoverStaleBackupJobs,
          .step 0 .done, .step 0 (.number 0), .step 0 .done,
          .step 1 (.jobs [{ queuedJob "older" 0 with status := .initializing, startedAt := some 0 }]),
          .step 1 (.number 1), .step 1 .done,
          .step 0 (.health ⟨true, none, none⟩), .step 0 .done, .step 0 .done] = some p ∧
      ⟨0, js "older", .failed, .capturing⟩ ∈ p.world.writes ∧
      canTransitionBackupJobStatus .failed .capturing = false := by
  refine exists_some_of_map (b := true)
    (f := fun p => (⟨0, js "older", .failed, .capturing⟩ ∈ p.world.writes : Bool))
    (by decide +kernel) fun p _ hmem => ?_
  exact ⟨of_decide_eq_true hmem, rfl⟩

end ZimaControl
