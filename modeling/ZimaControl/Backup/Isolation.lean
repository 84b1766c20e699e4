import ZimaControl.Backup.Orchestrator
import Mathlib.Data.Finset.Max
import Mathlib.Data.Fintype.EquivFin

/-!
# The scheduler and its applications

`evaluateDueSchedules` looks at one configuration after the other, and does not catch what
`checkScheduleDue` throws. What it finds for an application depends on its own configuration and
jobs only, once the pass ends (`evaluateConfigs_shown`); but the pass ends only if every schedule
can be evaluated. So an application is isolated from the others exactly if their schedules can be
evaluated, or its own cannot (`isolated_iff`).
-/

namespace ZimaControl

open List BackupCall ZimaControl.Task BackupWorld

/-! ## What a schedule yields -/

/-- The configurations that a pass looks at. -/
def BackupWorld.scheduledConfigs (w : BackupWorld) : List BackupConfig :=
  w.configs.filter fun config => config.enabled && config.scheduleCron.isSome

/-- The jobs of an application. -/
def jobsOf (jobs : List BackupJob) (applicationId : JsString) : List BackupJob :=
  jobs.filter (·.applicationId = applicationId)

/-- The instant behind which slots are due: the creation of the latest job, or of the configuration.
-/
def lastScheduledTime (jobs : List BackupJob) (config : BackupConfig) : ℤ :=
  (((jobsOf jobs config.application.id).filter (·.triggerType = .scheduled)).map
    (·.createdAt)).max?.getD config.createdAt

/-- The application has an active job. -/
def hasActiveJob (jobs : List BackupJob) (applicationId : JsString) : Bool :=
  (jobsOf jobs applicationId).any (isActiveBackupJobStatus ·.status)

/-- The job that a due schedule creates. -/
def scheduledJob (config : BackupConfig) (now : ℤ) : NewJob where
  applicationId := config.application.id
  backupConfigId := config.id
  triggerType := .scheduled
  actorId := none
  createdAt := some now

/-- What a pass finds for an application, without a new identifier. -/
structure Evaluation where
  result : ScheduledTriggerResult
  isCreated : Bool

/-- The evaluation of a schedule whose slots are known. -/
def evaluationOf (jobs : List BackupJob) (config : BackupConfig) (due : ScheduleDue) : Evaluation :=
  if due.isDue = false then
    ⟨{ applicationId := config.application.id, outcome := .notDue, nextRun := some due.nextRun },
      false⟩
  else if hasActiveJob jobs config.application.id then
    ⟨skippedActiveJob config.application.id due, false⟩
  else
    ⟨{ applicationId := config.application.id, outcome := .enqueued, dueSlot := some due.dueSlot
       nextRun := some due.nextRun }, true⟩

/-- The evaluation of a configuration, from the jobs of the application only. -/
def evaluation (rounds : ℕ) (now : ℤ) (jobs : List BackupJob) (config : BackupConfig) :
    Option Evaluation :=
  match config.scheduleCron with
  | none | some [] =>
    some ⟨{ applicationId := config.application.id, outcome := .noCron }, false⟩
  | some scheduleCron =>
    if config.sources = [] then
      some ⟨{ applicationId := config.application.id, outcome := .noCron }, false⟩
    else if validateCronExpression scheduleCron = false then
      some ⟨{ applicationId := config.application.id, outcome := .invalidCron
              error := some (js "Invalid cron expression '" ++ scheduleCron ++ js "'") }, false⟩
    else
      match checkScheduleDue rounds scheduleCron (some (lastScheduledTime jobs config)) now with
      | some (.ok due) => some (evaluationOf jobs config due)
      | _ => none

/-- The searches for the slots around an instant end and find them, or the configuration is not
looked at. -/
def ScheduleEvaluates (now : ℤ) (config : BackupConfig) : Prop :=
  ∀ scheduleCron, config.scheduleCron = some scheduleCron → config.sources ≠ [] →
    validateCronExpression scheduleCron = true →
    ∃ rounds due, checkScheduleDue rounds scheduleCron none now = some (.ok due)

variable {now : ℤ} {rounds : ℕ} {expression : JsString}

/-- Whether a schedule can be evaluated does not depend on the latest job. -/
theorem exists_checkScheduleDue (last last' : Option ℤ)
    (h : ∃ due, checkScheduleDue rounds expression last now = some (.ok due)) :
    ∃ due, checkScheduleDue rounds expression last' now = some (.ok due) := by
  obtain ⟨due, hdue⟩ := h
  have ⟨hprevious, hnext, _⟩ := checkScheduleDue_eq_ok.mp hdue
  exact ⟨⟨last'.all (· < due.dueSlot), due.dueSlot, due.nextRun⟩,
    checkScheduleDue_eq_ok.mpr ⟨hprevious, hnext, rfl⟩⟩

variable {config : BackupConfig}

/-- Jobs of other applications do not matter. -/
theorem evaluation_congr {jobs jobs' : List BackupJob}
    (h : jobsOf jobs config.application.id = jobsOf jobs' config.application.id) :
    evaluation rounds now jobs config = evaluation rounds now jobs' config := by
  unfold evaluation evaluationOf hasActiveJob lastScheduledTime
  rw [h]

/-! ## The configurations that are looked at -/

section Valid

variable {config : BackupConfig} {scheduleCron : JsString}
  (hcron : config.scheduleCron = some scheduleCron) (hsources : config.sources ≠ [])
  (hvalid : validateCronExpression scheduleCron = true)
include hcron hsources hvalid

/-- The evaluation of a configuration that is looked at. -/
theorem evaluation_of_valid (rounds : ℕ) (now : ℤ) (jobs : List BackupJob) :
    evaluation rounds now jobs config =
      match checkScheduleDue rounds scheduleCron (some (lastScheduledTime jobs config)) now with
      | some (.ok due) => some (evaluationOf jobs config due)
      | _ => none := by
  unfold evaluation
  rw [hcron]
  cases scheduleCron with
  | nil => cases hvalid
  | cons u rest => simp [if_neg hsources, hvalid, Bool.true_eq_false]

/-- The body of the loop for a configuration that is looked at. -/
theorem evaluateConfig_of_valid (rounds : ℕ) (now : ℤ) :
    evaluateConfig rounds now config = (do
      let latestScheduledJob : Option BackupJob ←
        call (.findLatestScheduled config.application.id)
      let due ← scheduleDue rounds scheduleCron
        ((latestScheduledJob.map (·.createdAt)).getD config.createdAt) now
      if due.isDue = false then
        return { applicationId := config.application.id, outcome := .notDue
                 nextRun := some due.nextRun }
      else enqueueDue config now due) := by
  unfold evaluateConfig
  rw [hcron]
  cases scheduleCron with
  | nil => cases hvalid
  | cons u rest => simp [if_neg hsources, hvalid, Bool.true_eq_false]

end Valid

/-- A configuration is looked at, or its result does not depend on anything. -/
theorem evaluateConfig_cases (rounds : ℕ) (now : ℤ) (jobs : List BackupJob) (config : BackupConfig) :
    (∃ scheduleCron, config.scheduleCron = some scheduleCron ∧ config.sources ≠ [] ∧
      validateCronExpression scheduleCron = true) ∨
    ∃ result, evaluateConfig rounds now config = pure result ∧
      evaluation rounds now jobs config = some ⟨result, false⟩ := by
  unfold evaluateConfig evaluation
  cases hcron : config.scheduleCron with
  | none => exact .inr ⟨_, rfl, rfl⟩
  | some scheduleCron =>
    cases scheduleCron with
    | nil => exact .inr ⟨_, rfl, rfl⟩
    | cons u rest =>
      by_cases hsources : config.sources = []
      · exact .inr ⟨_, if_pos hsources, if_pos hsources⟩
      · cases hvalid : validateCronExpression (u :: rest) with
        | false => exact .inr ⟨_, by simp [hsources, hvalid]; rfl, by simp [hsources, hvalid]⟩
        | true => exact .inl ⟨_, rfl, hsources, hvalid⟩

/-- A configuration is evaluated if its schedule can be. -/
theorem exists_evaluation_iff (jobs : List BackupJob) :
    (∃ rounds e, evaluation rounds now jobs config = some e) ↔ ScheduleEvaluates now config := by
  constructor
  · rintro ⟨rounds, e, he⟩ scheduleCron hcron hsources hvalid
    rw [evaluation_of_valid hcron hsources hvalid] at he
    split at he
    · rename_i due hdue
      exact ⟨rounds, exists_checkScheduleDue _ none ⟨due, hdue⟩⟩
    · cases he
  · intro h
    obtain ⟨scheduleCron, hcron, hsources, hvalid⟩ | ⟨result, -, hevaluation⟩ :=
      evaluateConfig_cases 0 now jobs config
    · obtain ⟨rounds, hdue⟩ := h scheduleCron hcron hsources hvalid
      obtain ⟨due, hdue⟩ := exists_checkScheduleDue _ (some (lastScheduledTime jobs config)) hdue
      exact ⟨rounds, _, by rw [evaluation_of_valid hcron hsources hvalid, hdue]⟩
    · exact ⟨0, _, hevaluation⟩

variable {jobs : List BackupJob} {e : Evaluation}

/-- More rounds do not change an evaluation. -/
theorem evaluation_more {rounds rounds' : ℕ} (hle : rounds ≤ rounds')
    (h : evaluation rounds now jobs config = some e) :
    evaluation rounds' now jobs config = some e := by
  unfold evaluation at h ⊢
  split at h
  · exact h
  · exact h
  split_ifs at h ⊢
  · exact h
  · exact h
  split at h
  · rename_i due hdue
    rw [checkScheduleDue_more hle hdue]
    exact h
  · cases h

/-! ## One configuration -/

/-- The body of the loop returns the evaluation, and if a job is to be created, it is there under a
new identifier. -/
def Evaluation.Realised (e : Evaluation) (config : BackupConfig) (now : ℤ) (w : BackupWorld)
    (result : ScheduledTriggerResult) (w' : BackupWorld) : Prop :=
  if e.isCreated then
    ∃ id, result = { e.result with jobId := some id } ∧
      w' = { w with jobs := w.jobs ++ [(scheduledJob config now).row id now] }
  else result = e.result ∧ w' = w

variable {host : BackupHost} {w w' : BackupWorld} {found : Option BackupJob} {choice : BackupChoice}

/-- The latest scheduled job gives the last scheduled time. -/
theorem lastScheduledTime_of_pick
    (h : pick (w.jobs.filter fun job => job.applicationId = config.application.id &&
      job.triggerType = .scheduled) (fun a b => b.createdAt ≤ a.createdAt) choice = some found) :
    (found.map (·.createdAt)).getD config.createdAt = lastScheduledTime w.jobs config := by
  have hrows : (jobsOf w.jobs config.application.id).filter (·.triggerType = .scheduled) =
      w.jobs.filter fun job => job.applicationId = config.application.id &&
        job.triggerType = .scheduled := by
    simp [jobsOf, filter_filter, Bool.and_comm]
  unfold lastScheduledTime
  rw [hrows]
  obtain ⟨hfound, hnone⟩ | ⟨job, hmem, hfound, hfirst⟩ := pick_eq_some h
  · rw [hnone, hfound]
    rfl
  have hmax : ((w.jobs.filter fun job => job.applicationId = config.application.id &&
      job.triggerType = .scheduled).map (·.createdAt)).max? = some job.createdAt := by
    rw [max?_eq_some_iff]
    refine ⟨mem_map_of_mem hmem, fun t ht => ?_⟩
    obtain ⟨other, hother, rfl⟩ := mem_map.mp ht
    exact of_decide_eq_true (hfirst other hother)
  rw [hmax, hfound]
  rfl

variable {applicationId : JsString}

/-- A query for an active job finds one exactly if there is one. -/
theorem hasActiveJob_of_pick
    (h : pick (w.jobs.filter fun job => job.applicationId = applicationId &&
      isActiveBackupJobStatus job.status) (fun _ _ => true) choice = some found) :
    hasActiveJob w.jobs applicationId = found.isSome := by
  unfold hasActiveJob jobsOf
  obtain ⟨hfound, hnone⟩ | ⟨job, hmem, hfound, -⟩ := pick_eq_some h
  · rw [hfound, Option.isSome_none, any_eq_false]
    intro job hjob
    have hnot := filter_eq_nil_iff.mp hnone job (mem_of_mem_filter hjob)
    have happlication := (mem_filter.mp hjob).2
    simpa [of_decide_eq_true happlication] using hnot
  · rw [hfound, Option.isSome_some, any_eq_true]
    have hjob := mem_filter.mp hmem
    simp only [Bool.and_eq_true] at hjob
    exact ⟨job, mem_filter.mpr ⟨hjob.1, hjob.2.1⟩, hjob.2.2⟩

/-- The evaluation of the slots returns them if it ends. -/
theorem scheduleDue_runs {last now : ℤ} {due : ScheduleDue} :
    (scheduleDue rounds expression last now).Runs (succeed host) w (.ok due) w' ↔
      checkScheduleDue rounds expression (some last) now = some (.ok due) ∧ w' = w := by
  unfold scheduleDue
  cases hdue : checkScheduleDue rounds expression (some last) now with
  | none =>
    refine ⟨fun h => ?_, fun h => nomatch h.1⟩
    obtain ⟨never, -⟩ := runs_bind_ok.mp h
    exact nomatch never
  | some found =>
    cases found with
    | error e => simp
    | ok due' => simp [eq_comm]

variable {result : ScheduledTriggerResult}

/-- The part behind a schedule that is due. -/
theorem enqueueDue_runs {due : ScheduleDue} (hdue : due.isDue ≠ false)
    (h : (enqueueDue config now due).Runs (succeed host) w (.ok result) w') :
    (evaluationOf w.jobs config due).Realised config now w result w' := by
  unfold evaluationOf
  rw [if_neg hdue]
  obtain ⟨found, w₁, hfind, hrest⟩ := runs_bind_ok.mp h
  obtain ⟨choice, hchoice⟩ := runs_perform.mp hfind
  obtain ⟨found', hpick, hfound⟩ := Option.map_eq_some_iff.mp hchoice
  cases hfound
  have hactive := hasActiveJob_of_pick hpick
  cases found with
  | some job =>
    obtain ⟨hresult, hw⟩ := hrest
    cases hresult
    rw [hactive, Option.isSome_some, if_pos rfl, hw]
    exact ⟨rfl, rfl⟩
  | none =>
    rw [hactive, if_neg (by simp)]
    obtain ⟨enqueued, w₂, henqueue, hreturn⟩ := runs_bind_ok.mp hrest
    obtain ⟨choice, hchoice⟩ := runs_perform.mp henqueue
    cases choice <;> try cases hchoice
    -- An active job was not found, so the transaction does not find one either.
    case row id =>
      obtain ⟨job, hfind, -⟩ := Option.map_eq_some_iff.mp hchoice
      have hjob := find?_some hfind
      simp only [Bool.and_eq_true, decide_eq_true_eq] at hjob
      have hnone := any_eq_false.mp hactive job
        (mem_filter.mpr ⟨mem_of_find?_eq_some hfind, decide_eq_true hjob.1.2⟩)
      exact absurd hjob.2 hnone
    case created id createdAt =>
      simp only [succeed] at hchoice
      split_ifs at hchoice
      cases hchoice
      obtain ⟨hresult, hw⟩ := hreturn
      cases hresult
      exact ⟨id, rfl, hw⟩

variable {scheduleCron : JsString}

/-- The body of the loop, for a configuration that is looked at. -/
theorem evaluateConfig_runs_valid (hcron : config.scheduleCron = some scheduleCron)
    (hsources : config.sources ≠ []) (hvalid : validateCronExpression scheduleCron = true)
    (h : (evaluateConfig rounds now config).Runs (succeed host) w (.ok result) w') :
    ∃ due, checkScheduleDue rounds scheduleCron (some (lastScheduledTime w.jobs config)) now =
      some (.ok due) ∧ (evaluationOf w.jobs config due).Realised config now w result w' := by
  rw [evaluateConfig_of_valid hcron hsources hvalid] at h
  obtain ⟨found, w₁, hfind, hrest⟩ := runs_bind_ok.mp h
  obtain ⟨choice, hchoice⟩ := runs_perform.mp hfind
  obtain ⟨found', hpick, hfound⟩ := Option.map_eq_some_iff.mp hchoice
  cases hfound
  obtain ⟨due, w₂, hschedule, hbody⟩ := runs_bind_ok.mp hrest
  rw [lastScheduledTime_of_pick hpick] at hschedule
  obtain ⟨hdue, hw⟩ := scheduleDue_runs.mp hschedule
  subst hw
  refine ⟨due, hdue, ?_⟩
  split_ifs at hbody with hdue'
  · unfold evaluationOf
    rw [if_pos hdue']
    cases hbody.1
    exact ⟨rfl, hbody.2⟩
  · exact enqueueDue_runs hdue' hbody

/-- The body of the loop. -/
theorem evaluateConfig_runs
    (h : (evaluateConfig rounds now config).Runs (succeed host) w (.ok result) w') :
    ∃ e, evaluation rounds now w.jobs config = some e ∧ e.Realised config now w result w' := by
  obtain ⟨scheduleCron, hcron, hsources, hvalid⟩ | ⟨result₀, htask, hevaluation⟩ :=
    evaluateConfig_cases rounds now w.jobs config
  · obtain ⟨due, hdue, hrealised⟩ := evaluateConfig_runs_valid hcron hsources hvalid h
    refine ⟨_, ?_, hrealised⟩
    rw [evaluation_of_valid hcron hsources hvalid, hdue]
  · rw [htask] at h
    cases h.1
    exact ⟨_, hevaluation, rfl, h.2⟩

/-- The database can always answer behind a schedule that is due. -/
theorem exists_enqueueDue_runs (host : BackupHost) (w : BackupWorld) (config : BackupConfig)
    (now : ℤ) (due : ScheduleDue) :
    ∃ result w', (enqueueDue config now due).Runs (succeed host) w (.ok result) w' := by
  obtain ⟨choice, found, hpick⟩ := exists_pick
    (w.jobs.filter fun job => job.applicationId = config.application.id &&
      isActiveBackupJobStatus job.status) (fun _ _ => true)
    fun hrows => (exists_mem_of_ne_nil _ hrows).imp fun job hjob => ⟨hjob, fun _ _ => rfl⟩
  have hfind : (call (.findActive config.application.id)).Runs (succeed host) w
      (.ok found) w := runs_perform.mpr ⟨choice, by rw [succeed, hpick]; rfl⟩
  cases found with
  | some job => exact ⟨_, w, runs_bind_ok.mpr ⟨some job, w, hfind, rfl, rfl⟩⟩
  | none =>
    have hactive := hasActiveJob_of_pick hpick
    obtain ⟨id, hid⟩ := Infinite.exists_notMem_finset (w.jobs.map (·.id)).toFinset
    have hfree : (w.jobs.all fun job => job.id ≠ id &&
        !(job.applicationId = config.application.id && isActiveBackupJobStatus job.status)) := by
      rw [all_eq_true]
      intro job hjob
      have hne : job.id ≠ id := by
        intro h
        exact hid (mem_toFinset.mpr (mem_map.mpr ⟨job, hjob, h⟩))
      have hidle : job.applicationId = config.application.id →
          isActiveBackupJobStatus job.status = false := by
        intro happlication
        exact Bool.eq_false_iff.mpr (any_eq_false.mp hactive job
          (mem_filter.mpr ⟨hjob, decide_eq_true happlication⟩))
      simpa [hne, or_iff_not_imp_left] using hidle
    refine ⟨_, _, runs_bind_ok.mpr ⟨none, w, hfind, runs_bind_ok.mpr
      ⟨_, _, runs_perform.mpr ⟨.created id now, if_pos hfree⟩, rfl, rfl⟩⟩⟩

/-- The body of the loop ends if the schedule is evaluated. -/
theorem exists_evaluateConfig_runs (he : evaluation rounds now w.jobs config = some e) :
    ∃ result w', (evaluateConfig rounds now config).Runs (succeed host) w
      (.ok result) w' := by
  obtain ⟨scheduleCron, hcron, hsources, hvalid⟩ | ⟨result, htask, -⟩ :=
    evaluateConfig_cases rounds now w.jobs config
  · rw [evaluation_of_valid hcron hsources hvalid] at he
    split at he
    · rename_i due hdue
      -- the query can answer with a job that no other is later than
      obtain ⟨choice, found, hpick⟩ := exists_pick
        (w.jobs.filter fun job => job.applicationId = config.application.id &&
          job.triggerType = .scheduled) (fun a b => b.createdAt ≤ a.createdAt)
        fun hrows => by
          obtain ⟨job, hjob, hmax⟩ := Finset.exists_max_image _ (·.createdAt)
            (toFinset_nonempty_iff _ |>.mpr hrows)
          exact ⟨job, mem_toFinset.mp hjob,
            fun other hother => decide_eq_true (hmax other (mem_toFinset.mpr hother))⟩
      have hfind : (call (.findLatestScheduled config.application.id)).Runs
          (succeed host) w (.ok found) w :=
        runs_perform.mpr ⟨choice, by rw [succeed, hpick]; rfl⟩
      have hschedule : (scheduleDue rounds scheduleCron
          ((found.map (·.createdAt)).getD config.createdAt) now).Runs (succeed host) w
          (.ok due) w := by
        rw [lastScheduledTime_of_pick hpick]
        exact scheduleDue_runs.mpr ⟨hdue, rfl⟩
      have hbody : ∃ result w', (if due.isDue = false then
          pure { applicationId := config.application.id, outcome := .notDue
                 nextRun := some due.nextRun }
          else enqueueDue config now due : Backup ScheduledTriggerResult).Runs
            (succeed host) w (.ok result) w' := by
        split_ifs
        · exact ⟨_, w, rfl, rfl⟩
        · exact exists_enqueueDue_runs host w config now due
      obtain ⟨result, w', hbody⟩ := hbody
      rw [evaluateConfig_of_valid hcron hsources hvalid]
      exact ⟨result, w', runs_bind_ok.mpr ⟨found, w, hfind,
        runs_bind_ok.mpr ⟨due, w, hschedule, hbody⟩⟩⟩
    · cases he
  · exact ⟨result, w, by rw [htask]; exact ⟨rfl, rfl⟩⟩

/-! ## What a pass shows of an application -/

/-- The entries of an application in the result and its new jobs, without the identifiers that the
database makes up. -/
@[ext]
structure Shown where
  results : List ScheduledTriggerResult
  jobs : List BackupJob

/-- What is shown of an application by a result and the jobs before and after. -/
def shown (applicationId : JsString) (jobs jobs' : List BackupJob)
    (results : List ScheduledTriggerResult) : Shown where
  results := (results.filter (·.applicationId = applicationId)).map fun result =>
    { result with jobId := none }
  jobs := (jobsOf (jobs'.drop jobs.length) applicationId).map fun job => { job with id := [] }

/-- What an evaluation of the application's configuration shows. -/
def Evaluation.shown (e : Evaluation) (config : BackupConfig) (now : ℤ) : Shown where
  results := [e.result]
  jobs := if e.isCreated then [(scheduledJob config now).row [] now] else []

/-- An evaluation is about its application, and has no identifier of a job. -/
theorem evaluation_result (he : evaluation rounds now jobs config = some e) :
    e.result.applicationId = config.application.id ∧ e.result.jobId = none := by
  unfold evaluation evaluationOf at he
  repeat' split at he
  all_goals cases he
  all_goals exact ⟨rfl, rfl⟩

/-- The body of the loop leaves an entry of its application, and new jobs of its application behind
those that were there. -/
theorem evaluateConfig_created
    (h : (evaluateConfig rounds now config).Runs (succeed host) w (.ok result) w') :
    result.applicationId = config.application.id ∧ ∃ e created,
      evaluation rounds now w.jobs config = some e ∧ { result with jobId := none } = e.result ∧
        w'.jobs = w.jobs ++ created ∧
        (∀ job ∈ created, job.applicationId = config.application.id) ∧
        (created.map fun job => { job with id := [] }) = (e.shown config now).jobs := by
  obtain ⟨e, he, h⟩ := evaluateConfig_runs h
  obtain ⟨hresult, hid⟩ := evaluation_result he
  have herase : { e.result with jobId := none } = e.result := by
    rw [← hid]
  unfold Evaluation.Realised at h
  unfold Evaluation.shown
  split_ifs at h with hcreated
  · obtain ⟨id, hr, hw⟩ := h
    rw [hr, hw]
    exact ⟨hresult, e, _, he, herase, rfl, by simp [NewJob.row, scheduledJob],
      by rw [if_pos hcreated]; rfl⟩
  · obtain ⟨hr, hw⟩ := h
    rw [hr, hw]
    exact ⟨hresult, e, [], he, herase, by simp, by simp, by simp [hcreated]⟩

/-- The jobs of an application in two parts of the table. -/
theorem jobsOf_append (jobs created : List BackupJob) (applicationId : JsString) :
    jobsOf (jobs ++ created) applicationId =
      jobsOf jobs applicationId ++ jobsOf created applicationId :=
  filter_append ..

/-- Jobs of other applications. -/
theorem jobsOf_eq_nil (h : ∀ job ∈ jobs, job.applicationId ≠ applicationId) :
    jobsOf jobs applicationId = [] := by
  unfold jobsOf
  rw [filter_eq_nil_iff]
  intro job hjob
  simpa using h job hjob

/-- The jobs of another application are not touched. -/
theorem jobsOf_append_of_ne {jobs created : List BackupJob} {applicationId other : JsString}
    (hne : other ≠ applicationId) (hcreated : ∀ job ∈ created, job.applicationId = applicationId) :
    jobsOf (jobs ++ created) other = jobsOf jobs other := by
  have hnone : jobsOf created other = [] :=
    jobsOf_eq_nil fun job hjob => by rw [hcreated job hjob]; exact hne.symm
  rw [jobsOf_append, hnone, append_nil]

variable {rows : List BackupConfig} {results : List ScheduledTriggerResult}

/-- A pass adds jobs and entries of the applications it looks at only. -/
theorem evaluateConfigs_confined
    (h : (evaluateConfigs rounds now rows).Runs (succeed host) w (.ok results) w') :
    (∀ result ∈ results, ∃ config ∈ rows, result.applicationId = config.application.id) ∧
      ∃ created, w'.jobs = w.jobs ++ created ∧
        ∀ job ∈ created, ∃ config ∈ rows, job.applicationId = config.application.id := by
  induction rows generalizing w results with
  | nil =>
    obtain ⟨hresults, hw⟩ := h
    cases hresults
    rw [hw]
    exact ⟨by simp, [], by simp, by simp⟩
  | cons config rest ih =>
    obtain ⟨result, w₁, hconfig, hrest⟩ := runs_bind_ok.mp h
    obtain ⟨results', w₂, hrest, hreturn⟩ := runs_bind_ok.mp hrest
    obtain ⟨hresults, hw⟩ := hreturn
    cases hresults
    subst hw
    obtain ⟨hresult, -, created, -, -, hjobs, hcreated, -⟩ := evaluateConfig_created hconfig
    obtain ⟨hentries, created', hjobs', hcreated'⟩ := ih hrest
    refine ⟨?_, created ++ created', by rw [hjobs', hjobs, append_assoc], ?_⟩
    · intro r hr
      obtain rfl | hr := mem_cons.mp hr
      · exact ⟨config, mem_cons_self, hresult⟩
      · obtain ⟨other, hother, hr⟩ := hentries r hr
        exact ⟨other, mem_cons_of_mem _ hother, hr⟩
    · intro job hjob
      obtain hjob | hjob := mem_append.mp hjob
      · exact ⟨config, mem_cons_self, hcreated job hjob⟩
      · obtain ⟨other, hother, hjob⟩ := hcreated' job hjob
        exact ⟨other, mem_cons_of_mem _ hother, hjob⟩

/-- A pass shows of each application the evaluation of its own configuration. -/
theorem evaluateConfigs_shown (hrows : (rows.map (·.application.id)).Nodup)
    (h : (evaluateConfigs rounds now rows).Runs (succeed host) w (.ok results) w') :
    ∀ config ∈ rows, ∃ e, evaluation rounds now w.jobs config = some e ∧
      shown config.application.id w.jobs w'.jobs results = e.shown config now := by
  induction rows generalizing w results with
  | nil => simp
  | cons config rest ih =>
    obtain ⟨result, w₁, hconfig, hrest⟩ := runs_bind_ok.mp h
    obtain ⟨results', w₂, hrest, hreturn⟩ := runs_bind_ok.mp hrest
    obtain ⟨hresults, hw⟩ := hreturn
    cases hresults
    subst hw
    obtain ⟨hresult, e, created, he, herase, hjobs, hcreated, hshown⟩ :=
      evaluateConfig_created hconfig
    obtain ⟨hentries, created', hjobs', hcreated'⟩ := evaluateConfigs_confined hrest
    rw [map_cons, nodup_cons] at hrows
    have hdistinct : ∀ other ∈ rest, other.application.id ≠ config.application.id :=
      fun other hother heq => hrows.1 (mem_map.mpr ⟨other, hother, heq⟩)
    have hdrop : w'.jobs.drop w.jobs.length = created ++ created' := by
      rw [hjobs', hjobs, append_assoc, drop_left]
    have hdrop' : w'.jobs.drop w₁.jobs.length = created' := by
      rw [hjobs', drop_left]
    intro other hother
    obtain rfl | hother := mem_cons.mp hother
    · -- The rest of the pass shows nothing of the first application.
      refine ⟨e, he, Shown.ext ?_ ?_⟩
      · have hnone : results'.filter (·.applicationId = other.application.id) = [] := by
          rw [filter_eq_nil_iff]
          intro r hr
          obtain ⟨config', hconfig', hr⟩ := hentries r hr
          simpa [hr] using hdistinct config' hconfig'
        have hentry : (result :: results').filter (·.applicationId = other.application.id) =
            [result] := by
          rw [filter_cons, if_pos (decide_eq_true hresult), hnone]
        unfold shown Evaluation.shown
        rw [hentry, map_singleton, herase]
      · have hnone : jobsOf created' other.application.id = [] := by
          refine jobsOf_eq_nil fun job hjob => ?_
          obtain ⟨config', hconfig', hjob⟩ := hcreated' job hjob
          rw [hjob]
          exact hdistinct config' hconfig'
        have hall : jobsOf created other.application.id = created := by
          unfold jobsOf
          rw [filter_eq_self]
          exact fun job hjob => decide_eq_true (hcreated job hjob)
        rw [← hshown]
        unfold shown
        rw [hdrop, jobsOf_append, hnone, hall, append_nil]
    · -- The first application leaves the jobs of the others alone.
      obtain ⟨e', he', hshown'⟩ := ih hrows.2 hrest other hother
      have hne := hdistinct other hother
      refine ⟨e', ?_, ?_⟩
      · rw [← he']
        refine evaluation_congr ?_
        rw [hjobs, jobsOf_append_of_ne hne hcreated]
      rw [← hshown']
      have hentry : (result :: results').filter (·.applicationId = other.application.id) =
          results'.filter (·.applicationId = other.application.id) := by
        rw [filter_cons, if_neg (by simpa [hresult] using hne.symm)]
      have hnone : jobsOf created other.application.id = [] :=
        jobsOf_eq_nil fun job hjob => by rw [hcreated job hjob]; exact hne.symm
      unfold shown
      rw [hdrop, hdrop', hentry, jobsOf_append, hnone, nil_append]

/-- A pass ends if every schedule can be evaluated in its rounds. -/
theorem exists_evaluateConfigs_runs (host : BackupHost)
    (hrows : (rows.map (·.application.id)).Nodup)
    (h : ∀ config ∈ rows, ∃ e, evaluation rounds now w.jobs config = some e) :
    ∃ results w', (evaluateConfigs rounds now rows).Runs (succeed host) w
      (.ok results) w' := by
  induction rows generalizing w with
  | nil => exact ⟨[], w, rfl, rfl⟩
  | cons config rest ih =>
    rw [map_cons, nodup_cons] at hrows
    obtain ⟨e₀, he₀⟩ := h config mem_cons_self
    obtain ⟨result, w₁, hconfig⟩ := exists_evaluateConfig_runs he₀
    obtain ⟨-, -, created, -, -, hjobs, hcreated, -⟩ := evaluateConfig_created hconfig
    have hrest : ∀ other ∈ rest, ∃ e, evaluation rounds now w₁.jobs other = some e := by
      intro other hother
      have hne : other.application.id ≠ config.application.id :=
        fun heq => hrows.1 (mem_map.mpr ⟨other, hother, heq⟩)
      rw [hjobs, evaluation_congr (jobsOf_append_of_ne hne hcreated)]
      exact h other (mem_cons_of_mem _ hother)
    obtain ⟨results, w₂, hresults⟩ := ih hrows.2 hrest
    exact ⟨_, w₂, runs_bind_ok.mpr ⟨result, w₁, hconfig,
      runs_bind_ok.mpr ⟨results, w₂, hresults, rfl, rfl⟩⟩⟩

/-! ## Isolation -/

/-- A pass can show this of an application. -/
def Shows (host : BackupHost) (w : BackupWorld) (now : ℤ) (applicationId : JsString) (s : Shown) :
    Prop :=
  ∃ rounds choices results w', (evaluateDueSchedules rounds now).eval (succeed host) w
    choices = some (.ok results, w', []) ∧ s = shown applicationId w.jobs w'.jobs results

/-- The same database without the configurations of other applications. -/
def BackupWorld.onlyConfig (w : BackupWorld) (applicationId : JsString) : BackupWorld :=
  { w with configs := w.configs.filter (·.application.id = applicationId) }

/-- A pass can show the same of an application with and without the configurations of the others. -/
def Isolated (host : BackupHost) (w : BackupWorld) (now : ℤ) (applicationId : JsString) : Prop :=
  ∀ s, Shows host w now applicationId s ↔ Shows host (w.onlyConfig applicationId) now applicationId s

/-- A pass shows the evaluation of an application's configuration, provided that all schedules can
be evaluated. -/
theorem shows_iff {s : Shown} (hunique : (w.configs.map (·.application.id)).Nodup)
    (hconfig : config ∈ w.scheduledConfigs) :
    Shows host w now config.application.id s ↔
      (∀ other ∈ w.scheduledConfigs, ScheduleEvaluates now other) ∧
        ∃ rounds e, evaluation rounds now w.jobs config = some e ∧ s = e.shown config now := by
  have hnodup : (w.scheduledConfigs.map (·.application.id)).Nodup :=
    hunique.sublist (filter_sublist.map _)
  constructor
  · rintro ⟨rounds, choices, results, w', heval, hs⟩
    have hruns := runs_iff_eval.mpr ⟨choices, heval⟩
    obtain ⟨rows, w₁, hfind, hruns⟩ := runs_bind_ok.mp hruns
    obtain ⟨choice, hchoice⟩ := runs_perform.mp hfind
    cases choice <;> try cases hchoice
    simp only [succeed] at hchoice
    split_ifs at hchoice with hperm
    cases hchoice
    have hrows : (rows.map (·.application.id)).Nodup := (hperm.map _).nodup_iff.mpr hnodup
    have hshown := evaluateConfigs_shown hrows hruns
    refine ⟨fun other hother => ?_, ?_⟩
    · obtain ⟨e, he, -⟩ := hshown other (hperm.mem_iff.mpr hother)
      exact (exists_evaluation_iff w.jobs).mp ⟨rounds, e, he⟩
    · obtain ⟨e, he, hs'⟩ := hshown config (hperm.mem_iff.mpr hconfig)
      exact ⟨rounds, e, he, hs.trans hs'⟩
  · rintro ⟨hall, rounds, e, he, hs⟩
    -- Enough rounds for all schedules.
    have hrounds : ∃ rounds', ∀ other ∈ w.scheduledConfigs, ∃ e,
        evaluation rounds' now w.jobs other = some e := by
      refine exists_rounds_forall _
        (fun rounds' other => ∃ e, evaluation rounds' now w.jobs other = some e)
        ?_ fun other hother => (exists_evaluation_iff w.jobs).mpr (hall other hother)
      intro rounds₁ rounds₂ other hle h
      obtain ⟨e, he⟩ := h
      exact ⟨e, evaluation_more hle he⟩
    obtain ⟨rounds', hrounds'⟩ := hrounds
    obtain ⟨results, w', hruns⟩ := exists_evaluateConfigs_runs host hnodup hrounds'
    obtain ⟨e', he', hs'⟩ := evaluateConfigs_shown hnodup hruns config hconfig
    have hfind : (call .findScheduledConfigs).Runs (succeed host) w
        (.ok w.scheduledConfigs) w :=
      runs_perform.mpr ⟨.configs w.scheduledConfigs, if_pos (List.Perm.refl _)⟩
    obtain ⟨choices, heval⟩ := runs_iff_eval.mp
      (runs_bind_ok.mpr ⟨_, w, hfind, hruns⟩)
    have heq : e' = e := by
      have h₁ := evaluation_more (le_max_left rounds rounds') he
      have h₂ := evaluation_more (le_max_right rounds rounds') he'
      exact Option.some_inj.mp (h₂.symm.trans h₁)
    exact ⟨rounds', choices, results, w', heval, by rw [hs, hs', heq]⟩

/-- A schedule without a slot around an instant cannot be evaluated. -/
theorem not_scheduleEvaluates (hcron : config.scheduleCron = some scheduleCron)
    (hsources : config.sources ≠ []) (hvalid : validateCronExpression scheduleCron = true)
    {e : BackupDomainError}
    (herror : getPreviousCronOccurrence rounds scheduleCron now true = some (.error e)) :
    ¬ ScheduleEvaluates now config := by
  intro h
  obtain ⟨rounds', due, hdue⟩ := h scheduleCron hcron hsources hvalid
  have hprevious := (checkScheduleDue_eq_ok.mp hdue).1
  have h₁ := getPreviousCronOccurrence_more (le_max_left rounds rounds') herror
  have h₂ := getPreviousCronOccurrence_more (le_max_right rounds rounds') hprevious
  cases h₁.symm.trans h₂

/-- The configurations that a pass looks at when the others have none. -/
theorem mem_scheduledConfigs_onlyConfig (hunique : (w.configs.map (·.application.id)).Nodup)
    (hconfig : config ∈ w.scheduledConfigs) (other : BackupConfig) :
    other ∈ (w.onlyConfig config.application.id).scheduledConfigs ↔ other = config := by
  unfold scheduledConfigs onlyConfig
  constructor
  · intro hother
    rw [mem_filter, mem_filter] at hother
    exact inj_on_of_nodup_map hunique hother.1.1 (mem_of_mem_filter hconfig)
      (of_decide_eq_true hother.1.2)
  · rintro rfl
    have ⟨hmem, hscheduled⟩ := mem_filter.mp hconfig
    exact mem_filter.mpr ⟨mem_filter.mpr ⟨hmem, decide_eq_true rfl⟩, hscheduled⟩

/-- What a pass can show when the others have no configurations. -/
theorem shows_onlyConfig_iff {s : Shown} (hunique : (w.configs.map (·.application.id)).Nodup)
    (hconfig : config ∈ w.scheduledConfigs) :
    Shows host (w.onlyConfig config.application.id) now config.application.id s ↔
      ScheduleEvaluates now config ∧
        ∃ rounds e, evaluation rounds now w.jobs config = some e ∧ s = e.shown config now := by
  have hmem := mem_scheduledConfigs_onlyConfig hunique hconfig
  rw [shows_iff (hunique.sublist (filter_sublist.map _)) ((hmem config).mpr rfl)]
  simp only [hmem, forall_eq]
  rfl

/-- A configuration with a schedule and a source. -/
def scheduleOf (name expression : String) : BackupConfig where
  id := js name
  application := ⟨js name, js name⟩
  enabled := true
  retentionVersions := 1
  scheduleCron := some (js expression)
  destinationId := js "local"
  sources := [⟨.persistentFiles, js "data", none, none, none, none, none, none,
    some (js "/srv/data"), none, false⟩]
  createdAt := 0

/-- A database with the schedules of two applications. -/
def twoSchedules (first second : String) : BackupWorld :=
  { BackupWorld.empty with configs := [scheduleOf "first" first, scheduleOf "second" second] }

/-- An application is isolated from the others exactly if all schedules can be evaluated, or its own
cannot. -/
theorem isolated_iff (host : BackupHost) (w : BackupWorld) (now : ℤ) (config : BackupConfig)
    (hunique : (w.configs.map (·.application.id)).Nodup) (hconfig : config ∈ w.scheduledConfigs) :
    Isolated host w now config.application.id ↔
      ¬ ScheduleEvaluates now config ∨
        ∀ other ∈ w.scheduledConfigs, ScheduleEvaluates now other := by
  constructor
  · intro h
    by_cases hevaluates : ScheduleEvaluates now config
    · obtain ⟨rounds, e, he⟩ := (exists_evaluation_iff w.jobs).mpr hevaluates
      have halone : Shows host (w.onlyConfig config.application.id) now config.application.id
          (e.shown config now) :=
        (shows_onlyConfig_iff hunique hconfig).mpr ⟨hevaluates, rounds, e, he, rfl⟩
      exact .inr ((shows_iff hunique hconfig).mp ((h _).mpr halone)).1
    · exact .inl hevaluates
  · intro h s
    rw [shows_iff hunique hconfig, shows_onlyConfig_iff hunique hconfig]
    obtain hnot | hall := h
    · have hnotall : ¬ ∀ other ∈ w.scheduledConfigs, ScheduleEvaluates now other :=
        fun hall => hnot (hall config hconfig)
      simp [hnot, hnotall, false_and]
    · simp only [hall config hconfig, true_and, and_iff_right_iff_imp]
      exact fun _ => hall

/-- Two applications with a daily schedule each do not disturb each other. -/
theorem isolated_iff_daily :
    Isolated .plain (twoSchedules "0 3 * * *" "0 4 * * *") 1700000000000 (js "first") := by
  refine (isolated_iff .plain (twoSchedules "0 3 * * *" "0 4 * * *") 1700000000000
    (scheduleOf "first" "0 3 * * *") (by decide +kernel) (by decide +kernel)).mpr (.inr ?_)
  intro other hother scheduleCron hcron hsources hvalid
  have hother' : other ∈ [scheduleOf "first" "0 3 * * *", scheduleOf "second" "0 4 * * *"] := hother
  simp only [mem_cons, not_mem_nil, or_false] at hother'
  obtain rfl | rfl := hother'
  · cases hcron
    exact ⟨100, ⟨true, 1699930800000, 1700017200000⟩, by decide +kernel⟩
  · cases hcron
    exact ⟨100, ⟨true, 1699934400000, 1700020800000⟩, by decide +kernel⟩

/-- The schedule of the thirtieth of February is accepted, and no due backup of another application
is enqueued beside it. -/
theorem never_matching_schedule_stops_others :
    (∀ config ∈ (twoSchedules "* * * * *" "0 0 30 2 *").configs, config.enabled = true ∧
      ∀ expression ∈ config.scheduleCron, validateCronExpression expression = true) ∧
    ¬ Isolated .plain (twoSchedules "* * * * *" "0 0 30 2 *") 1700000000000 (js "first") := by
  refine ⟨by decide +kernel, fun h => ?_⟩
  have hunique : ((twoSchedules "* * * * *" "0 0 30 2 *").configs.map
      (·.application.id)).Nodup := by decide +kernel
  have hfirst : scheduleOf "first" "* * * * *" ∈
      (twoSchedules "* * * * *" "0 0 30 2 *").scheduledConfigs := by decide +kernel
  have hsecond : scheduleOf "second" "0 0 30 2 *" ∈
      (twoSchedules "* * * * *" "0 0 30 2 *").scheduledConfigs := by decide +kernel
  -- Alone, the first application gets its job.
  obtain ⟨e, he⟩ : ∃ e, evaluation 100 1700000000000 (twoSchedules "* * * * *" "0 0 30 2 *").jobs
      (scheduleOf "first" "* * * * *") = some e := Option.isSome_iff_exists.mp (by decide +kernel)
  have halone : Shows .plain ((twoSchedules "* * * * *" "0 0 30 2 *").onlyConfig (js "first"))
      1700000000000 (js "first") (e.shown (scheduleOf "first" "* * * * *") 1700000000000) :=
    (shows_onlyConfig_iff hunique hfirst).mpr
      ⟨(exists_evaluation_iff _).mp ⟨100, e, he⟩, 100, e, he, rfl⟩
  have hevaluates := ((shows_iff hunique hfirst).mp ((h _).mpr halone)).1 _ hsecond
  -- The search for the thirtieth of February throws.
  have hthrows : getPreviousCronOccurrence 300 (js "0 0 30 2 *") 1700000000000 true =
      some (.error (backupCronInvalidError (noPreviousText (js "0 0 30 2 *")))) := by decide +kernel
  exact not_scheduleEvaluates rfl (by decide) (by decide +kernel) hthrows hevaluates

end ZimaControl
