import ZimaControl.Backup.Calls

/-!
# What a call changes

Each call of the backup services changes one table of the world at most, or files, or the retention
locks (`frame_of_exec`). A job is updated, or created for an application that has no active one
(`jobsChange_of_exec`). Of the files a call changes those that it names (`files_of_exec`), and it is
added to the failed calls or these stay (`failed_of_exec`).
-/

namespace ZimaControl

open Posix BackupCall

/-- What calls change. -/
inductive BackupTable
  | jobs
  | tasks
  | artifacts
  | files
  | locks
  deriving DecidableEq

/-- What a call changes. -/
def BackupCall.table : BackupCall → Option BackupTable
  | updateJob _ _ | enqueue _ => some .jobs
  | createTask _ _ _ | updateTask _ _ _ | failTasks _ => some .tasks
  | createArtifact _ | pruneArtifact _ _ => some .artifacts
  | dump _ _ | createTarZstdBundle _ _ | writeFile _ | rename _ _ | copyFile _ _ | unlink _
  | rm _ => some .files
  | lockRetention _ | unlockRetention _ => some .locks
  | _ => none

/-- Everything that is not in the table is as it was. -/
structure BackupFrame (table : Option BackupTable) (w w' : BackupWorld) : Prop where
  applications : w'.applications = w.applications
  configs : w'.configs = w.configs
  destinations : w'.destinations = w.destinations
  jobs : table ≠ some .jobs → w'.jobs = w.jobs
  artifacts : table ≠ some .artifacts → w'.artifacts = w.artifacts
  files : table ≠ some .files → w'.files = w.files

/-- Nothing changes. -/
theorem BackupFrame.refl (table : Option BackupTable) (w : BackupWorld) : BackupFrame table w w :=
  ⟨rfl, rfl, rfl, fun _ => rfl, fun _ => rfl, fun _ => rfl⟩

variable {host : BackupHost} {w w' : BackupWorld} {c : BackupCall} {choice : BackupChoice}
  {r : Except BackupFailure c.Answer}

/-- A call that the environment does not let fail changes its table only. -/
theorem frame_of_succeed (h : c.succeed host w choice = some (r, w')) :
    BackupFrame c.table w w' := by
  unfold succeed at h
  split at h
  all_goals repeat' split at h
  -- Queries, and calls that find nothing to change; then the tables one by one.
  all_goals first
    | cases h <;> first
      | exact .refl _ _
      | exact ⟨rfl, rfl, rfl, fun hne => absurd rfl hne, fun _ => rfl, fun _ => rfl⟩
      | exact ⟨rfl, rfl, rfl, fun _ => rfl, fun hne => absurd rfl hne, fun _ => rfl⟩
      | exact ⟨rfl, rfl, rfl, fun _ => rfl, fun _ => rfl, fun hne => absurd rfl hne⟩
      | exact ⟨rfl, rfl, rfl, fun _ => rfl, fun _ => rfl, fun _ => rfl⟩
    | (obtain ⟨_, -, hrow⟩ := Option.map_eq_some_iff.mp h
       cases hrow
       exact .refl _ _)

/-- A call fails without an effect, or it is answered. -/
theorem exec_cases (h : c.exec host w choice = some (r, w')) :
    (∃ e, choice = .fail e ∧ r = .error e ∧ c.canFail = true ∧
      w' = { w with failed := c :: w.failed }) ∨ c.succeed host w choice = some (r, w') := by
  cases choice with
  | fail e =>
    rw [exec] at h
    split_ifs at h with hfail
    cases h
    exact .inl ⟨e, rfl, rfl, hfail, rfl⟩
  | _ => exact .inr h

/-- A call that is answered. -/
theorem exec_of_succeed (h : c.succeed host w choice = some (r, w')) :
    c.exec host w choice = some (r, w') := by
  cases choice with
  | fail e =>
    cases c <;> cases h
  | _ => exact h

/-- The clock is read, and nothing changes. -/
theorem now_exec {r : Except BackupFailure BackupCall.now.Answer}
    (h : BackupCall.now.exec host w choice = some (r, w')) : w' = w ∧ ∃ now, r = .ok now := by
  cases choice <;> cases h
  exact ⟨rfl, _, rfl⟩

/-- A database that does not fail answers as one that may fail. -/
theorem exec_of_databaseHandler (h : databaseHandler host w c choice = some (r, w')) :
    c.exec host w choice = some (r, w') := by
  unfold databaseHandler at h
  split_ifs at h
  · exact exec_of_succeed h
  · exact h

/-- A call changes its table only. -/
theorem frame_of_exec (h : c.exec host w choice = some (r, w')) : BackupFrame c.table w w' := by
  obtain ⟨e, -, -, -, hw⟩ | hsucceed := exec_cases h
  · rw [hw]
    exact ⟨rfl, rfl, rfl, fun _ => rfl, fun _ => rfl, fun _ => rfl⟩
  · exact frame_of_succeed hsucceed

/-! ## Files -/

/-- The files that a call may write or remove. -/
def BackupCall.Touches (host : BackupHost) (file : List JsString) : BackupCall → Prop
  | dump _ path | createTarZstdBundle _ path | writeFile path | unlink path =>
    file = location host.cwd path
  | copyFile _ target => file = location host.cwd target
  | rename source target =>
    file = location host.cwd source ∨ file = location host.cwd target
  | rm path => location host.cwd path <+: file
  | _ => False

variable {file : List JsString}

/-- A file that is put. -/
theorem putFile_self (path : JsString) (content : FileContent) :
    (w.putFile host path content).files (location host.cwd path) = some content :=
  Function.update_self _ _ _

/-- A file that is removed. -/
theorem removeFile_self (path : JsString) :
    (w.removeFile host path).files (location host.cwd path) = none :=
  Function.update_self _ _ _

/-- Putting a file changes that file only. -/
theorem putFile_cases (w : BackupWorld) (path : JsString) (content : FileContent) :
    (w.putFile host path content).files file = w.files file ∨
      file = location host.cwd path ∧ (w.putFile host path content).files file ≠ none := by
  by_cases hfile : file = location host.cwd path
  · rw [hfile, putFile_self]
    exact .inr ⟨rfl, Option.some_ne_none _⟩
  · exact .inl (Function.update_of_ne hfile _ _)

/-- Removing a file changes that file only. -/
theorem removeFile_cases (w : BackupWorld) (path : JsString) :
    (w.removeFile host path).files file = w.files file ∨
      file = location host.cwd path ∧ (w.removeFile host path).files file = none := by
  by_cases hfile : file = location host.cwd path
  · rw [hfile, removeFile_self]
    exact .inr ⟨rfl, rfl⟩
  · exact .inl (Function.update_of_ne hfile _ _)

/-- Removing files below a directory changes files below it only. -/
theorem removeBelow_cases (w : BackupWorld) (path : JsString) (removed : List JsString → Bool) :
    (w.removeBelow host path removed).files file = w.files file ∨
      location host.cwd path <+: file ∧ (w.removeBelow host path removed).files file = none := by
  unfold BackupWorld.removeBelow
  dsimp only
  split_ifs with hbelow
  · rw [Bool.and_eq_true] at hbelow
    exact .inr ⟨List.isPrefixOf_iff_prefix.mp hbelow.1, rfl⟩
  · exact .inl rfl

/-- The files that a call may remove. -/
def BackupCall.Removes (host : BackupHost) (file : List JsString) : BackupCall → Prop
  | rename path _ | unlink path => file = location host.cwd path
  | rm path => location host.cwd path <+: file
  | _ => False

/-- The files that a call may write. -/
def BackupCall.Writes (host : BackupHost) (file : List JsString) : BackupCall → Prop
  | dump _ path | createTarZstdBundle _ path | writeFile path | copyFile _ path | rename _ path =>
    file = location host.cwd path
  | _ => False

section

variable (h : c.exec host w choice = some (r, w'))
include h

/-- A file stays, or the call writes it and it is there, or removes it and it is gone. -/
theorem file_cases (file : List JsString) :
    w'.files file = w.files file ∨ c.Writes host file ∧ w'.files file ≠ none ∨
      c.Removes host file ∧ w'.files file = none := by
  obtain ⟨e, -, -, -, hw⟩ | hsucceed := exec_cases h
  · exact .inl (by rw [hw])
  by_cases htable : c.table = some .files
  · cases c with
    | dump | createTarZstdBundle | writeFile =>
      cases choice <;> cases hsucceed <;> exact (putFile_cases w _ _).imp_right .inl
    | rename source target =>
      cases choice <;> try cases hsucceed
      · rw [succeed] at hsucceed
        split at hsucceed
        · cases hsucceed
          obtain hput | hput := putFile_cases (w.removeFile host source) target _
          · rw [hput]
            exact (removeFile_cases w source).imp_right .inr
          · exact .inr (.inl hput)
        · cases hsucceed
          exact .inl rfl
      · exact .inl rfl
    | copyFile source target =>
      cases choice <;> try cases hsucceed
      · rw [succeed] at hsucceed
        split at hsucceed <;> cases hsucceed
        · exact (putFile_cases w _ _).imp_right .inl
        · exact .inl rfl
      · exact (putFile_cases w _ _).imp_right .inl
    | unlink path =>
      cases choice <;> try cases hsucceed
      rw [succeed] at hsucceed
      split at hsucceed <;> cases hsucceed
      · exact (removeFile_cases w path).imp_right .inr
      · exact .inl rfl
    | rm path =>
      cases choice <;> cases hsucceed
      · exact (removeBelow_cases w path fun _ => true).imp_right .inr
      · rename_i removed
        exact (removeBelow_cases w path fun file => file ∈ removed).imp_right .inr
    | _ => cases htable
  · exact .inl (by rw [(frame_of_succeed hsucceed).files htable])

/-- A call leaves the files alone that it does not name. -/
theorem files_of_exec (hfile : ¬ c.Touches host file) : w'.files file = w.files file := by
  obtain hsame | ⟨hwrites, -⟩ | ⟨hremoves, -⟩ := file_cases h file
  · exact hsame
  · cases c <;> first
      | exact absurd hwrites hfile | exact hwrites.elim | exact absurd (.inr hwrites) hfile
  · cases c <;> first
      | exact absurd hremoves hfile | exact hremoves.elim | exact absurd (.inl hremoves) hfile

/-- A call that does not remove a file leaves it there. -/
theorem present_of_exec (hfile : ¬ c.Removes host file) (hpresent : w.files file ≠ none) :
    w'.files file ≠ none := by
  obtain hsame | ⟨-, hput⟩ | ⟨hremoves, -⟩ := file_cases h file
  · exact hsame ▸ hpresent
  · exact hput
  · exact absurd hremoves hfile

/-- A call that does not write a file does not make one. -/
theorem absent_of_exec (hfile : ¬ c.Writes host file) (habsent : w.files file = none) :
    w'.files file = none := by
  obtain hsame | ⟨hwrites, -⟩ | ⟨-, hgone⟩ := file_cases h file
  · exact hsame.trans habsent
  · exact absurd hwrites hfile
  · exact hgone

/-- A call fails and is recorded, or the list of failed calls stays. -/
theorem failed_of_exec : w'.failed = w.failed ∨ w'.failed = c :: w.failed := by
  obtain ⟨e, -, -, -, hw⟩ | hsucceed := exec_cases h
  · exact .inr (by rw [hw])
  unfold succeed at hsucceed
  split at hsucceed
  all_goals repeat' split at hsucceed
  all_goals first
    | cases hsucceed <;> first | exact .inl rfl | exact .inr rfl
    | (obtain ⟨_, -, hrow⟩ := Option.map_eq_some_iff.mp hsucceed
       cases hrow
       exact .inl rfl)

end

variable {r : Except BackupFailure Unit}

/-- An unlink fails without an effect, or the file is gone. -/
theorem unlink_exec {path : JsString}
    (h : (unlink path).exec host w choice = some (r, w')) :
    (∃ e, choice = .fail e ∧ r = .error e ∧ w' = { w with failed := .unlink path :: w.failed }) ∨
      w'.files (location host.cwd path) = none := by
  obtain ⟨e, hchoice, hr, -, hw⟩ | hsucceed := exec_cases h
  · exact .inl ⟨e, hchoice, hr, hw⟩
  cases choice <;> try cases hsucceed
  rw [succeed] at hsucceed
  split at hsucceed <;> cases hsucceed
  · exact .inr (removeFile_self path)
  · exact .inr ‹_›

/-- A call that names a file changes files. -/
theorem table_of_touches (h : c.Touches host file) : c.table = some .files := by
  cases c <;> first | rfl | exact absurd h id

/-! ## Jobs -/

/-- The rows behind an update of a job. -/
def updateRows (jobId : JsString) (data : JobUpdate) (jobs : List BackupJob) : List BackupJob :=
  jobs.map fun job => if job.id = jobId then data.apply job else job

variable {jobId : JsString} {data : JobUpdate}

/-- An update of a job. -/
theorem updateJob_exec (h : (updateJob jobId data).exec host w choice = some (r, w')) :
    (r = .ok () ∧ w' = { w with jobs := updateRows jobId data w.jobs }) ∨
      ∃ e, r = .error e ∧ w'.jobs = w.jobs := by
  obtain ⟨e, -, hr, -, hw⟩ | hsucceed := exec_cases h
  · exact .inr ⟨e, hr, by rw [hw]⟩
  cases choice <;> try cases hsucceed
  rw [succeed] at hsucceed
  split_ifs at hsucceed
  · cases hsucceed
    exact .inl ⟨rfl, rfl⟩
  · cases hsucceed
    exact .inr ⟨_, rfl, rfl⟩

/-- The transaction that enqueues a job. -/
theorem enqueue_exec {data : NewJob} {r : Except BackupFailure Enqueued}
    (h : (enqueue data).exec host w choice = some (r, w')) :
    w'.jobs = w.jobs ∨ ∃ id createdAt, w'.jobs = w.jobs ++ [data.row id createdAt] ∧
      (∀ job ∈ w.jobs, job.id ≠ id) ∧
      ∀ job ∈ w.jobs, job.applicationId = data.applicationId →
        isActiveBackupJobStatus job.status = false := by
  obtain ⟨e, -, -, -, hw⟩ | hsucceed := exec_cases h
  · exact .inl (by rw [hw])
  cases choice <;> try cases hsucceed
  case row id =>
    obtain ⟨job, -, hrow⟩ := Option.map_eq_some_iff.mp hsucceed
    cases hrow
    exact .inl rfl
  case created id createdAt =>
    rw [succeed] at hsucceed
    split_ifs at hsucceed with hall
    cases hsucceed
    have hrows : ∀ job ∈ w.jobs, job.id ≠ id ∧ (job.applicationId = data.applicationId →
        isActiveBackupJobStatus job.status = false) := by
      intro job hjob
      simpa [or_iff_not_imp_left] using List.all_eq_true.mp hall job hjob
    exact .inr ⟨id, createdAt, rfl, fun job hjob => (hrows job hjob).1,
      fun job hjob => (hrows job hjob).2⟩

/-- The job that is loaded is the one that was asked for. -/
theorem findJob_succeed {record : JobRecord}
    (h : (findJob jobId).succeed host w choice = some (.ok (some record), w')) :
    record.job ∈ w.jobs ∧ record.job.id = jobId ∧ record.config ∈ w.configs ∧
      record.destination = w.destination record.config.destinationId := by
  cases choice <;> try cases h
  rw [succeed] at h
  split at h
  · cases h
  rename_i job hjob
  obtain ⟨config, hconfig, hrecord⟩ := Option.map_eq_some_iff.mp h
  cases hrecord
  have hid := List.find?_some hjob
  exact ⟨List.mem_of_find?_eq_some hjob, of_decide_eq_true hid,
    List.mem_of_find?_eq_some hconfig, rfl⟩

/-! ## Rows of an update -/

/-- A row behind an update comes from one that differs in its status and what belongs to it. -/
theorem mem_updateRows {jobs : List BackupJob} {job : BackupJob}
    (h : job ∈ updateRows jobId data jobs) :
    ∃ before ∈ jobs, job = if before.id = jobId then data.apply before else before := by
  obtain ⟨before, hbefore, hjob⟩ := List.mem_map.mp h
  exact ⟨before, hbefore, hjob.symm⟩

/-- An update keeps the identifiers. -/
theorem map_id_updateRows (jobId : JsString) (data : JobUpdate) (jobs : List BackupJob) :
    (updateRows jobId data jobs).map (·.id) = jobs.map (·.id) := by
  unfold updateRows
  rw [List.map_map]
  refine List.map_congr_left fun job _ => ?_
  rw [Function.comp_apply]
  split_ifs <;> rfl

end ZimaControl
