import ZimaControl.Backup.Isolation
import ZimaControl.Backup.JobWrites
import ZimaControl.Cron.SearchExact

/-!
# One job at a time, and one job per slot

A session is a sequence of requests to the orchestrator. Each runs alone; it may be cut off between
any two of its calls, and any call may fail. In every world that a session passes through an
application has at most one active job, and no two scheduled jobs of an application were created for
the same slot of its schedule.

A new active job comes from a transaction that finds no other, and a status is written to a job that
is active already, or it is a final one. A job is created behind its slot, and the next one for a
slot behind that instant.
-/

namespace ZimaControl

open List

/-! ## Sessions -/

/-- A reading of the clock: a valid date from 1970 on. -/
structure ClockReading where
  time : ℤ
  nonneg : 0 ≤ time
  le_maxTime : time ≤ maxTime

/-- A request to the orchestrator. -/
inductive BackupRequest
  | evaluateDueSchedules (rounds : ℕ) (now : ClockReading)
  | triggerBackupRun (applicationId : JsString) (actorId : Option JsString)
  | processNextQueuedJob
  | recoverStaleBackupJobs

/-- The worlds that a request passes through. -/
def BackupRequest.Reaches (host : BackupHost) (w w' : BackupWorld) : BackupRequest → Prop
  | evaluateDueSchedules rounds now =>
    (ZimaControl.evaluateDueSchedules rounds now.time).Reaches (backupHandler host) w w'
  | triggerBackupRun applicationId actorId =>
    (ZimaControl.triggerBackupRun applicationId actorId).Reaches (backupHandler host) w w'
  | processNextQueuedJob =>
    (ZimaControl.processNextQueuedJob host).Reaches (backupHandler host) w w'
  | recoverStaleBackupJobs => ZimaControl.recoverStaleBackupJobs.Reaches (backupHandler host) w w'

/-- The worlds that a sequence of requests passes through. Each request but the last has ended or
was cut off where the next one starts. -/
inductive Session (host : BackupHost) : List BackupRequest → BackupWorld → BackupWorld → Prop
  | nil (w : BackupWorld) : Session host [] w w
  | cons {request : BackupRequest} {rest : List BackupRequest} {w w₁ w₂ : BackupWorld}
      (hrequest : request.Reaches host w w₁) (hrest : Session host rest w₁ w₂) :
      Session host (request :: rest) w w₂

/-! ## Active jobs -/

/-- The number of active jobs of an application. -/
def activeCount (jobs : List BackupJob) (applicationId : JsString) : ℕ :=
  jobs.countP fun job => job.applicationId = applicationId && isActiveBackupJobStatus job.status

variable {jobId : JsString} {jobs : List BackupJob} {data : JobUpdate}

/-- A status that is active is written to active jobs only. -/
theorem activeCount_updateRows_le
    (h : isActiveBackupJobStatus data.status = true → ∀ job ∈ jobs, job.id = jobId →
      isActiveBackupJobStatus job.status = true) (applicationId : JsString) :
    activeCount (updateRows jobId data jobs) applicationId ≤ activeCount jobs applicationId := by
  unfold activeCount updateRows
  rw [countP_map]
  refine countP_mono_left fun job hjob hactive => ?_
  rw [Function.comp_apply] at hactive
  split_ifs at hactive with hid
  · simp only [JobUpdate.apply, Bool.and_eq_true] at hactive
    rw [Bool.and_eq_true]
    exact ⟨hactive.1, h hactive.2 job hjob hid⟩
  · exact hactive

/-- A new job of an application without active jobs. -/
theorem activeCount_append_le {job : BackupJob} {applicationId : JsString}
    (hjobs : activeCount jobs applicationId ≤ 1)
    (hidle : ∀ other ∈ jobs, other.applicationId = job.applicationId →
      isActiveBackupJobStatus other.status = false) :
    activeCount (jobs ++ [job]) applicationId ≤ 1 := by
  unfold activeCount at *
  rw [countP_append, countP_singleton]
  split_ifs with hactive
  · have hnone : (jobs.countP fun other => other.applicationId = applicationId &&
        isActiveBackupJobStatus other.status) = 0 := by
      rw [countP_eq_zero]
      intro other hother
      simp only [Bool.and_eq_true, decide_eq_true_eq] at hactive
      simp only [Bool.and_eq_true, decide_eq_true_eq, not_and, Bool.not_eq_true]
      exact fun happlication => hidle other hother (happlication.trans hactive.1.symm)
    omega
  · omega

/-! ## Slots -/

/-- The instants at which the scheduled jobs of an application were created. -/
def scheduledTimes (jobs : List BackupJob) (applicationId : JsString) : List ℤ :=
  ((jobsOf jobs applicationId).filter (·.triggerType = .scheduled)).map (·.createdAt)

/-- The slot that is due at an instant, as `checkScheduleDue` finds it. -/
def IsDueSlot (expression : JsString) (t slot : ℤ) : Prop :=
  ∃ rounds last due, checkScheduleDue rounds expression last t = some (.ok due) ∧ due.dueSlot = slot

variable {expression : JsString}

/-- The due slot at an instant is unique. -/
theorem IsDueSlot.unique {t slot slot' : ℤ} (h : IsDueSlot expression t slot)
    (h' : IsDueSlot expression t slot') : slot = slot' := by
  obtain ⟨rounds, last, due, hdue, rfl⟩ := h
  obtain ⟨rounds', last', due', hdue', rfl⟩ := h'
  have hprevious := getPreviousCronOccurrence_more (le_max_left rounds rounds')
    (checkScheduleDue_eq_ok.mp hdue).1
  have hprevious' := getPreviousCronOccurrence_more (le_max_right rounds rounds')
    (checkScheduleDue_eq_ok.mp hdue').1
  simpa using hprevious.symm.trans hprevious'

/-- The due slot at an instant is not behind it. -/
theorem IsDueSlot.le {t slot : ℤ} (ht : 0 ≤ t) (hmax : t ≤ maxTime)
    (h : IsDueSlot expression t slot) : slot ≤ t := by
  obtain ⟨rounds, last, due, hdue, rfl⟩ := h
  exact previous_le ht hmax (checkScheduleDue_eq_ok.mp hdue).1

/-- Instants from 1970 on, each with a due slot behind the instants before. -/
structure SlotsInOrder (expression : JsString) (times : List ℤ) : Prop where
  bounds : ∀ t ∈ times, 0 ≤ t ∧ t ≤ maxTime
  due : ∀ t ∈ times, ∃ slot, IsDueSlot expression t slot
  order : times.Pairwise fun t t' => ∀ slot, IsDueSlot expression t' slot → t < slot

/-- An instant whose due slot is behind the instants before. -/
theorem SlotsInOrder.append {times : List ℤ} (h : SlotsInOrder expression times)
    (now : ClockReading) {slot : ℤ} (hdue : IsDueSlot expression now.time slot)
    (hlater : ∀ t ∈ times, t < slot) : SlotsInOrder expression (times ++ [now.time]) where
  bounds := by
    intro t ht
    obtain ht | ht := mem_append.mp ht
    · exact h.bounds t ht
    · rw [mem_singleton.mp ht]
      exact ⟨now.nonneg, now.le_maxTime⟩
  due := by
    intro t ht
    obtain ht | ht := mem_append.mp ht
    · exact h.due t ht
    · rw [mem_singleton.mp ht]
      exact ⟨slot, hdue⟩
  order := by
    refine pairwise_append.mpr ⟨h.order, pairwise_singleton _ _, fun t ht t' ht' => ?_⟩
    rw [mem_singleton.mp ht']
    intro slot' hslot'
    rw [hslot'.unique hdue]
    exact hlater t ht

/-- Two instants have different due slots. -/
theorem SlotsInOrder.distinct {times : List ℤ} (h : SlotsInOrder expression times) :
    times.Pairwise fun t t' => ∀ slot, ¬ (IsDueSlot expression t slot ∧
      IsDueSlot expression t' slot) := by
  refine List.Pairwise.imp_of_mem (fun {t t'} ht _ hlt slot hboth => ?_) h.order
  have hle := hboth.1.le (h.bounds t ht).1 (h.bounds t ht).2
  have hlater := hlt slot hboth.2
  omega

/-! ## The invariant -/

variable {host : BackupHost} {start w w' : BackupWorld}

/-- What holds of the worlds of a session that starts in a world. -/
structure JobsInvariant (start w : BackupWorld) : Prop where
  configs : w.configs = start.configs
  ids : (w.jobs.map (·.id)).Nodup
  length : start.jobs.length ≤ w.jobs.length
  active : ∀ applicationId, activeCount w.jobs applicationId ≤ 1
  slots : ∀ config ∈ start.configs, ∀ expression, config.scheduleCron = some expression →
    SlotsInOrder expression
      (scheduledTimes (w.jobs.drop start.jobs.length) config.application.id)

/-- The invariant is about the configurations and the jobs. -/
theorem JobsInvariant.congr (h : JobsInvariant start w) (hconfigs : w'.configs = w.configs)
    (hjobs : w'.jobs = w.jobs) : JobsInvariant start w' where
  configs := hconfigs.trans h.configs
  ids := by rw [hjobs]; exact h.ids
  length := by rw [hjobs]; exact h.length
  active := by rw [hjobs]; exact h.active
  slots := by rw [hjobs]; exact h.slots

/-- An update keeps the application, the trigger and the time of a job. -/
theorem scheduledTimes_updateRows (jobId : JsString) (data : JobUpdate) (jobs : List BackupJob)
    (applicationId : JsString) :
    scheduledTimes (updateRows jobId data jobs) applicationId =
      scheduledTimes jobs applicationId := by
  have hfields : ∀ job : BackupJob,
      (if job.id = jobId then data.apply job else job).applicationId = job.applicationId ∧
      (if job.id = jobId then data.apply job else job).triggerType = job.triggerType ∧
      (if job.id = jobId then data.apply job else job).createdAt = job.createdAt := by
    intro job
    split_ifs <;> exact ⟨rfl, rfl, rfl⟩
  unfold scheduledTimes jobsOf updateRows
  rw [filter_map, filter_map, map_map]
  simp [Function.comp_def, hfields]

/-- An update keeps the invariant if it writes an active status to active jobs only. -/
theorem JobsInvariant.updateRows (h : JobsInvariant start w)
    (hactive : isActiveBackupJobStatus data.status = true → ∀ job ∈ w.jobs, job.id = jobId →
      isActiveBackupJobStatus job.status = true) (hconfigs : w'.configs = w.configs)
    (hjobs : w'.jobs = ZimaControl.updateRows jobId data w.jobs) : JobsInvariant start w' where
  configs := hconfigs.trans h.configs
  ids := by
    rw [hjobs, map_id_updateRows]
    exact h.ids
  length := by
    rw [hjobs, ZimaControl.updateRows, length_map]
    exact h.length
  active := by
    intro applicationId
    rw [hjobs]
    exact (activeCount_updateRows_le hactive applicationId).trans (h.active applicationId)
  slots := by
    intro config hconfig expression hexpression
    have hdrop : w'.jobs.drop start.jobs.length =
        ZimaControl.updateRows jobId data (w.jobs.drop start.jobs.length) := by
      rw [hjobs, ZimaControl.updateRows, ZimaControl.updateRows, map_drop]
    rw [hdrop, scheduledTimes_updateRows]
    exact h.slots config hconfig expression hexpression

/-- A new job is manual, or created for a slot behind the scheduled jobs of its application. -/
def NewJob.Timely (data : NewJob) (start w : BackupWorld) : Prop :=
  data.triggerType = .scheduled → ∀ config ∈ start.configs,
    config.application.id = data.applicationId → ∀ expression,
    config.scheduleCron = some expression → ∃ (now : ClockReading) (slot : ℤ),
      data.createdAt = some now.time ∧ IsDueSlot expression now.time slot ∧
        ∀ t ∈ scheduledTimes w.jobs data.applicationId, t < slot

/-- A new row at the end of the table. -/
theorem scheduledTimes_append (jobs : List BackupJob) (job : BackupJob) (applicationId : JsString) :
    scheduledTimes (jobs ++ [job]) applicationId = scheduledTimes jobs applicationId ++
      if job.applicationId = applicationId ∧ job.triggerType = .scheduled then [job.createdAt]
      else [] := by
  unfold scheduledTimes jobsOf
  rw [filter_append, filter_append, map_append]
  congr 1
  by_cases happlication : job.applicationId = applicationId <;>
    by_cases htrigger : job.triggerType = .scheduled <;> simp [happlication, htrigger]

variable {choice : BackupChoice}

/-- A transaction that enqueues a timely job keeps the invariant. -/
theorem JobsInvariant.enqueue (h : JobsInvariant start w) {data : NewJob}
    (htimely : data.Timely start w) {r : Except BackupFailure Enqueued}
    (hexec : backupHandler host w (.enqueue data) choice = some (r, w')) :
    JobsInvariant start w' := by
  have hconfigs := (frame_of_exec hexec).configs
  obtain hjobs | ⟨id, createdAt, hjobs, hid, hidle⟩ := enqueue_exec hexec
  · exact h.congr hconfigs hjobs
  refine ⟨hconfigs.trans h.configs, ?_, ?_, ?_, ?_⟩
  · rw [hjobs, map_append, nodup_append]
    refine ⟨h.ids, nodup_singleton _, fun a ha b hb => ?_⟩
    obtain ⟨job, hjob, rfl⟩ := mem_map.mp ha
    rw [mem_singleton.mp hb]
    exact hid job hjob
  · rw [hjobs, length_append]
    exact h.length.trans (Nat.le_add_right _ _)
  · intro applicationId
    rw [hjobs]
    exact activeCount_append_le (h.active applicationId) hidle
  · intro config hconfig expression hexpression
    have hslots := h.slots config hconfig expression hexpression
    rw [hjobs, drop_append_of_le_length h.length, scheduledTimes_append]
    split_ifs with hscheduled
    · obtain ⟨now, slot, hcreated, hdue, hlater⟩ :=
        htimely hscheduled.2 config hconfig hscheduled.1.symm expression hexpression
      have htime : (data.row id createdAt).createdAt = now.time := by
        rw [NewJob.row, hcreated, Option.getD_some]
      rw [htime]
      refine hslots.append now hdue fun t ht => hlater t ?_
      have happlication : data.applicationId = config.application.id := hscheduled.1
      rw [happlication]
      exact ((((drop_sublist _ _).filter _).filter _).map _).subset ht
    · rw [append_nil]
      exact hslots

/-- The call writes no job, or a final status, or it enqueues a manual job. -/
def Harmless (c : BackupCall) : Prop :=
  c.table = some .jobs →
    (∃ jobId data, c = .updateJob jobId data ∧ isActiveBackupJobStatus data.status = false) ∨
      ∃ data, c = .enqueue data ∧ data.triggerType = .manual

variable {statuses : List BackupJobStatus} {c : BackupCall}

/-- Final statuses are harmless. -/
theorem WritesOnly.harmless (h : WritesOnly jobId statuses c)
    (hfinal : ∀ status ∈ statuses, isActiveBackupJobStatus status = false) : Harmless c := by
  intro htable
  obtain ⟨data, hc, hstatus⟩ := h (isJobCall_of_table htable)
  exact .inl ⟨jobId, data, hc, hfinal _ hstatus⟩

/-- Harmless calls keep the invariant. -/
theorem JobsInvariant.harmless (h : JobsInvariant start w) (hc : Harmless c)
    {r : Except BackupFailure c.Answer} (hexec : backupHandler host w c choice = some (r, w')) :
    JobsInvariant start w' := by
  have hframe := frame_of_exec hexec
  by_cases htable : c.table = some .jobs
  · obtain ⟨jobId, data, rfl, hfinal⟩ | ⟨data, rfl, hmanual⟩ := hc htable
    · obtain ⟨-, hw⟩ | ⟨e, -, hjobs⟩ := updateJob_exec hexec
      · exact h.updateRows (fun hactive => by rw [hfinal] at hactive; cases hactive)
          hframe.configs (by rw [hw])
      · exact h.congr hframe.configs hjobs
    · refine h.enqueue (fun hscheduled => ?_) hexec
      rw [hmanual] at hscheduled
      cases hscheduled
  · exact h.congr hframe.configs (hframe.jobs htable)

/-- A program that keeps the invariant in all the worlds it passes through. -/
abbrev KeepsJobs (host : BackupHost) (start : BackupWorld) {α : Type} (t : Backup α)
    (w : BackupWorld) : Prop :=
  t.Always (backupHandler host) (JobsInvariant start) (fun _ => JobsInvariant start) w

variable {α : Type}

/-- A program of harmless calls keeps the invariant. -/
theorem JobsInvariant.always_of_harmless (h : JobsInvariant start w) {t : Backup α}
    (hc : t.Only Harmless) : KeepsJobs host start t w :=
  hc.always h fun _ _ _ _ _ hharmless hexec hinv => hinv.harmless hharmless hexec

/-- A query, and what goes on with its answer. -/
theorem JobsInvariant.bindQuery {f : c.Answer → Backup α} (h : JobsInvariant start w)
    (hquery : (c.table == some .jobs) = false)
    (hf : ∀ choice a w', BackupCall.succeed host w c choice = some (.ok a, w') →
      JobsInvariant start w' → w'.jobs = w.jobs → KeepsJobs host start (f a) w') :
    KeepsJobs host start (call c >>= f) w := by
  refine .bind (S := fun r w' => JobsInvariant start w' ∧
    ∀ a, r = .ok a → KeepsJobs host start (f a) w') (.perform fun choice r w' hexec => ?_)
    (fun a w' hw => hw.2 a rfl) fun e w' hw => hw.1
  have hframe := frame_of_exec hexec
  have hjobs := hframe.jobs fun htable => by rw [htable] at hquery; cases hquery
  have hinv := h.congr hframe.configs hjobs
  refine ⟨hinv, hinv, ?_⟩
  rintro a rfl
  obtain ⟨e, -, herror, -⟩ | hsucceed := exec_cases hexec
  · cases herror
  · exact hf choice a w' hsucceed hinv hjobs

/-! ## The worker -/

/-- The rows of a job are active. -/
def Live (jobId : JsString) (w : BackupWorld) : Prop :=
  ∀ job ∈ w.jobs, job.id = jobId → isActiveBackupJobStatus job.status = true

theorem Live.congr (h : Live jobId w) (hjobs : w'.jobs = w.jobs) : Live jobId w' := by
  unfold Live
  rw [hjobs]
  exact h

/-- A phase that writes an active status to an active job. -/
theorem JobsInvariant.always_of_live {part : Backup α}
    (hpart : part.Only (WritesOnly jobId statuses))
    (hactive : ∀ status ∈ statuses, isActiveBackupJobStatus status = true)
    (h : JobsInvariant start w) (hlive : Live jobId w) :
    part.Always (backupHandler host) (JobsInvariant start)
      (fun _ w' => JobsInvariant start w' ∧ Live jobId w') w := by
  have halways : part.Always (backupHandler host) (fun w => JobsInvariant start w ∧ Live jobId w)
      (fun _ w' => JobsInvariant start w' ∧ Live jobId w') w := by
    refine hpart.always ⟨h, hlive⟩ ?_
    rintro w c choice r w' hwrites hexec ⟨hinv, hlive⟩
    have hframe := frame_of_exec hexec
    by_cases htable : c.table = some .jobs
    · obtain ⟨data, rfl, hstatus⟩ := hwrites (isJobCall_of_table htable)
      obtain ⟨-, hw⟩ | ⟨e, -, hjobs⟩ := updateJob_exec hexec
      · refine ⟨hinv.updateRows (fun _ => hlive) hframe.configs (by rw [hw]), fun job hjob hid => ?_⟩
        rw [hw] at hjob
        obtain ⟨before, hbefore, rfl⟩ := mem_updateRows hjob
        split_ifs at hid ⊢ with hsame
        · exact hactive _ hstatus
        · exact absurd hid hsame
      · exact ⟨hinv.congr hframe.configs hjobs, hlive.congr hjobs⟩
    · have hjobs := hframe.jobs htable
      exact ⟨hinv.congr hframe.configs hjobs, hlive.congr hjobs⟩
  exact halways.mono (fun _ hboth => hboth.1) fun _ _ hboth => hboth

section Job

variable {jobId : JsString} {locals : JobLocals}

/-- The `catch` block keeps the invariant. -/
theorem cleanUp_always (h : JobsInvariant start w) (e : BackupFailure) :
    KeepsJobs host start (cleanUp jobId locals e) w :=
  h.always_of_harmless ((cleanUp_only locals e).mono fun _ hc => hc.harmless (by decide))

/-- A phase of the `try` block, with what follows it. -/
theorem guarded_always {part : Backup α} {rest : α → Backup BackupJobExecutionResult}
    (hpart : part.Only (WritesOnly jobId statuses))
    (hactive : ∀ status ∈ statuses, isActiveBackupJobStatus status = true)
    (h : JobsInvariant start w) (hlive : Live jobId w)
    (hrest : ∀ a w', JobsInvariant start w' → Live jobId w' → KeepsJobs host start (rest a) w') :
    KeepsJobs host start (guarded jobId locals part rest) w := by
  refine .bindAttempt (h.always_of_live hpart hactive hlive) ?_
  rintro (e | a) w' ⟨hinv, hlive'⟩
  · exact cleanUp_always hinv e
  · exact hrest a w' hinv hlive'

/-- A transition of the local status. -/
theorem guardedTransition_always {next : BackupJobStatus}
    {rest : JobLocals → Backup BackupJobExecutionResult} (h : JobsInvariant start w)
    (hrest : ∀ locals', KeepsJobs host start (rest locals') w) :
    KeepsJobs host start (guardedTransition jobId locals next rest) w := by
  unfold guardedTransition
  split
  · exact hrest _
  · exact cleanUp_always h _

end Job

section

variable (h : JobsInvariant start w)
include h

/-- The phases from CAPTURING on keep the invariant. -/
theorem captureAndStore_always {record : JobRecord} {destination : BackupDestination}
    {staging storage bundle : JsString} {locals : JobLocals} (hlive : Live record.job.id w) :
    KeepsJobs host start (captureAndStore host record destination staging storage bundle locals)
      w := by
  unfold captureAndStore
  refine guardedTransition_always h fun capturing => ?_
  refine guarded_always (captureBundle_phase host record staging bundle).only (by decide) h hlive
    fun _ w₁ h₁ hlive₁ => ?_
  refine guardedTransition_always h₁ fun verifying => ?_
  refine guarded_always (verifyAndPromote_phase host record destination staging storage bundle).only
    (by decide) h₁ hlive₁ fun artifact w₂ h₂ hlive₂ => ?_
  refine guardedTransition_always h₂ fun completed => ?_
  -- COMPLETED is final, and so is what the `catch` block writes if the update fails.
  have hfinal : (complete record.job.id).Only Harmless :=
    complete_only.mono fun _ hc => hc.harmless (by decide)
  refine .bindAttempt (h₂.always_of_harmless hfinal) ?_
  rintro (e | a) w₃ h₃
  · exact cleanUp_always h₃ e
  · exact h₃

/-- A job that is active. -/
theorem runJob_always {record : JobRecord} {destination : BackupDestination}
    (hlive : Live record.job.id w) : KeepsJobs host start (runJob host record destination) w := by
  have hnow : (call .now).Only (WritesOnly record.job.id []) := only_call rfl
  refine .bind (h.always_of_live hnow (by decide) hlive) ?_ fun e w' hw => hw.1
  rintro startedAt w₁ ⟨h₁, hlive₁⟩
  refine guardedTransition_always h₁ fun initializing => ?_
  refine guarded_always (startJob_phase destination startedAt).only (by simp; decide) h₁ hlive₁
    fun _ w₂ h₂ hlive₂ => ?_
  split
  · exact cleanUp_always h₂ _
  split
  · exact cleanUp_always h₂ _
  · have hmkdir : ∀ path, (call (.mkdir path)).Only (WritesOnly record.job.id []) :=
      fun _ => only_call rfl
    exact guarded_always (hmkdir _) (by decide) h₂ hlive₂
      fun _ w₃ h₃ hlive₃ => captureAndStore_always h₃ hlive₃

/-- `executeBackupJob` on a job that is active. -/
theorem executeBackupJob_always (hlive : Live jobId w) :
    KeepsJobs host start (executeBackupJob host jobId) w := by
  refine h.bindQuery rfl fun choice found w₁ hsucceed h₁ hjobs => ?_
  cases found with
  | none => exact h₁
  | some record =>
    have hid := (findJob_succeed hsucceed).2.1
    dsimp only
    split
    · exact h₁
    split_ifs
    · exact h₁
    · rename_i destination _ _
      cases host.resolveProvider destination with
      | error e => exact h₁
      | ok _ => exact runJob_always h₁ (by rw [hid]; exact hlive.congr hjobs)

/-- So does `processNextQueuedJob`. -/
theorem processNextQueuedJob_always : KeepsJobs host start (processNextQueuedJob host) w := by
  refine h.bindQuery rfl fun choice queued w₁ hsucceed h₁ hjobs => ?_
  cases queued with
  | none => exact h₁
  | some job =>
    have hlive : Live job.id w := by
      intro other hother hid
      obtain ⟨found, hpick, hfound⟩ := Option.map_eq_some_iff.mp hsucceed
      cases hfound
      obtain ⟨hnone, -⟩ | ⟨job', hmem, hjob', -⟩ := BackupWorld.pick_eq_some hpick
      · cases hnone
      cases hjob'
      have ⟨hmem, hstatus⟩ := mem_filter.mp hmem
      have heq := inj_on_of_nodup_map h.ids hother hmem hid
      rw [heq, of_decide_eq_true hstatus]
      rfl
    refine h₁.bindQuery rfl fun _ inProgress w₂ _ h₂ hjobs₂ => ?_
    cases inProgress with
    | some other => exact h₂
    | none =>
      have hlive₂ := (hlive.congr hjobs).congr hjobs₂
      refine .bind (executeBackupJob_always h₂ hlive₂) ?_ fun e w' hw => hw
      intro result w₃ h₃
      split_ifs
      · have hprune : (pruneApplicationBackups host job.applicationId).Only Harmless :=
          (pruneApplicationBackups_only job.id [] host _).mono fun _ hc => hc.harmless (by decide)
        refine .bindAttempt (h₃.always_of_harmless hprune) fun _ w₄ h₄ => h₄
      · exact h₃

end

/-- `recoverStaleBackupJobs` makes jobs final. -/
theorem recoverStaleBackupJobs_only : recoverStaleBackupJobs.Only Harmless := by
  have hcall : ∀ c : BackupCall, (c.table == some .jobs) = false → (call c).Only Harmless := by
    intro c hc
    refine .perform fun htable => ?_
    rw [htable] at hc
    cases hc
  have hloop : ∀ jobs, (recoverJobs jobs).Only Harmless := by
    intro jobs
    induction jobs with
    | nil => exact .pure
    | cons row rest ih =>
      obtain ⟨job, basePath⟩ := row
      refine .bind (hcall _ rfl) fun completedAt => .bind (.perform fun _ => ?_) fun _ =>
        .bind (hcall _ rfl) fun _ => ?_
      · exact .inl ⟨_, _, rfl, rfl⟩
      · split
        · exact ih
        · exact ih
        · exact .bind (hcall _ rfl).attempt fun _ => ih
  exact .bind (hcall _ rfl) fun jobs => .bind (hloop jobs) fun _ => .pure

/-! ## The user and the clock -/

/-- `triggerBackupRun` creates manual jobs. -/
theorem triggerBackupRun_only (applicationId : JsString) (actorId : Option JsString) :
    (triggerBackupRun applicationId actorId).Only Harmless := by
  refine .bind (.perform nofun) fun app => ?_
  split
  · exact .throw
  · refine .bind (.perform nofun) fun found => ?_
    split
    · exact .throw
    · exact .ite .throw (.perform fun _ => .inr ⟨_, rfl, rfl⟩)

variable {config : BackupConfig}

/-- The part behind a schedule that is due, for a job that is timely. -/
theorem enqueueDue_always {now : ℤ} {due : ScheduleDue} (h : JobsInvariant start w)
    (htimely : (scheduledJob config now).Timely start w) :
    KeepsJobs host start (enqueueDue config now due) w := by
  refine h.bindQuery rfl fun _ activeJob w₁ _ h₁ hjobs => ?_
  cases activeJob with
  | some job => exact h₁
  | none =>
    have htimely₁ : (scheduledJob config now).Timely start w₁ := by
      unfold NewJob.Timely
      rw [hjobs]
      exact htimely
    have henqueue : KeepsJobs host start (call (.enqueue (scheduledJob config now))) w₁ := by
      refine .perform fun choice r w' hexec => ?_
      have hinv := h₁.enqueue htimely₁ hexec
      exact ⟨hinv, hinv⟩
    refine .bind henqueue ?_ fun e w' hw => hw
    intro enqueued w₂ h₂
    cases enqueued <;> exact h₂

/-- The last scheduled time is not before a scheduled job. -/
theorem le_lastScheduledTime {t : ℤ} (ht : t ∈ scheduledTimes jobs config.application.id) :
    t ≤ lastScheduledTime jobs config := by
  change t ≤ (scheduledTimes jobs config.application.id).max?.getD config.createdAt
  cases hmax : (scheduledTimes jobs config.application.id).max? with
  | none =>
    rw [max?_eq_none_iff.mp hmax] at ht
    cases ht
  | some last => exact (max?_eq_some_iff.mp hmax).2 t ht

section

variable (hunique : (start.configs.map (·.application.id)).Nodup)
include hunique

/-- A scheduled job is created behind its slot. -/
theorem evaluateConfig_always {rounds : ℕ} {now : ClockReading} (hconfig : config ∈ start.configs)
    (h : JobsInvariant start w) : KeepsJobs host start (evaluateConfig rounds now.time config) w := by
  obtain ⟨scheduleCron, hcron, hsources, hvalid⟩ | ⟨result, htask, -⟩ :=
    evaluateConfig_cases rounds now.time w.jobs config
  · rw [evaluateConfig_of_valid hcron hsources hvalid]
    refine h.bindQuery rfl fun choice latest w₁ hsucceed h₁ hjobs => ?_
    obtain ⟨found, hpick, hfound⟩ := Option.map_eq_some_iff.mp hsucceed
    cases hfound
    rw [lastScheduledTime_of_pick hpick]
    unfold scheduleDue
    split
    · -- The slot that is due is behind all scheduled jobs.
      rename_i due hdue
      change (if due.isDue = false then _ else _ : Backup ScheduledTriggerResult).Always _ _ _ _
      split_ifs with hnot
      · exact h₁
      refine enqueueDue_always h₁ fun _ config' hconfig' happlication expression hexpression => ?_
      obtain rfl : config' = config :=
        inj_on_of_nodup_map hunique hconfig' hconfig happlication
      obtain rfl : scheduleCron = expression := by
        rw [hcron] at hexpression
        exact Option.some_inj.mp hexpression
      refine ⟨now, due.dueSlot, rfl, ⟨rounds, _, due, hdue, rfl⟩, fun t ht => ?_⟩
      have hbehind : lastScheduledTime w.jobs config' < due.dueSlot := by
        have hisDue := (checkScheduleDue_eq_ok.mp hdue).2.2
        rw [Bool.not_eq_false] at hnot
        rw [hnot] at hisDue
        simpa using hisDue.symm
      exact (le_lastScheduledTime ht).trans_lt hbehind
    · exact h₁
    · -- A loop that does not end is not answered.
      intro choice r w' hexec
      cases choice <;> cases hexec
  · rw [htask]
    exact h

/-- So in the whole loop. -/
theorem evaluateConfigs_always {rounds : ℕ} {now : ClockReading} {rows : List BackupConfig}
    (hrows : ∀ config ∈ rows, config ∈ start.configs) (h : JobsInvariant start w) :
    KeepsJobs host start (evaluateConfigs rounds now.time rows) w := by
  induction rows generalizing w with
  | nil => exact h
  | cons config rest ih =>
    have hconfig := hrows config mem_cons_self
    refine .bind (evaluateConfig_always hunique hconfig h) ?_ fun e w' hw => hw
    intro result w₁ h₁
    have hrest : ∀ config ∈ rest, config ∈ start.configs :=
      fun config hconfig => hrows config (mem_cons_of_mem _ hconfig)
    exact .bind (ih hrest h₁) (fun results w₂ h₂ => h₂) fun e w' hw => hw

/-- And in a whole pass. -/
theorem evaluateDueSchedules_always {rounds : ℕ} {now : ClockReading} (h : JobsInvariant start w) :
    KeepsJobs host start (evaluateDueSchedules rounds now.time) w := by
  refine h.bindQuery rfl fun choice rows w₁ hsucceed h₁ _ => ?_
  refine evaluateConfigs_always hunique (fun config hconfig => ?_) h₁
  cases choice <;> try cases hsucceed
  rw [BackupCall.succeed] at hsucceed
  split_ifs at hsucceed with hperm
  cases hsucceed
  rw [← h.configs]
  exact mem_of_mem_filter (hperm.mem_iff.mp hconfig)

/-! ## Sessions keep the invariant -/

/-- A request keeps the invariant in every world that it passes through. -/
theorem JobsInvariant.reaches (h : JobsInvariant start w) {request : BackupRequest}
    (hreaches : request.Reaches host w w') : JobsInvariant start w' := by
  cases request with
  | evaluateDueSchedules rounds now => exact (evaluateDueSchedules_always hunique h).reaches h hreaches
  | triggerBackupRun applicationId actorId =>
    exact (h.always_of_harmless (triggerBackupRun_only applicationId actorId)).reaches h hreaches
  | processNextQueuedJob => exact (processNextQueuedJob_always h).reaches h hreaches
  | recoverStaleBackupJobs =>
    exact (h.always_of_harmless recoverStaleBackupJobs_only).reaches h hreaches

/-- A session keeps the invariant. -/
theorem JobsInvariant.session {requests : List BackupRequest}
    (hsession : Session host requests w w') (h : JobsInvariant start w) :
    JobsInvariant start w' := by
  induction hsession with
  | nil w => exact h
  | cons hrequest hrest ih => exact ih (h.reaches hunique hrequest)

end

/-- The scheduled jobs of an application created behind the first ones of the table. -/
def newScheduledJobs (start w : BackupWorld) (applicationId : JsString) : List BackupJob :=
  (jobsOf (w.jobs.drop start.jobs.length) applicationId).filter (·.triggerType = .scheduled)

/-- Along every session an application has at most one active job; each scheduled job was created for
a slot of the schedule, and no two of them for the same slot. -/
theorem one_scheduled_job_per_slot (host : BackupHost) (start : BackupWorld)
    (hids : (start.jobs.map (·.id)).Nodup) (hunique : (start.configs.map (·.application.id)).Nodup)
    (hactive : ∀ applicationId, activeCount start.jobs applicationId ≤ 1)
    (requests : List BackupRequest) (w : BackupWorld) (hsession : Session host requests start w) :
    (∀ applicationId, activeCount w.jobs applicationId ≤ 1) ∧
    ∀ config ∈ start.configs, ∀ expression, config.scheduleCron = some expression →
      (∀ job ∈ newScheduledJobs start w config.application.id,
        ∃ slot, IsDueSlot expression job.createdAt slot) ∧
      (newScheduledJobs start w config.application.id).Pairwise fun job job' =>
        ∀ slot, ¬ (IsDueSlot expression job.createdAt slot ∧
          IsDueSlot expression job'.createdAt slot) := by
  have hstart : JobsInvariant start start := by
    refine ⟨rfl, hids, le_rfl, hactive, fun config _ expression _ => ?_⟩
    rw [drop_length]
    exact ⟨by simp [scheduledTimes, jobsOf], by simp [scheduledTimes, jobsOf],
      by simp [scheduledTimes, jobsOf]⟩
  have hinv := hstart.session hunique hsession
  refine ⟨hinv.active, fun config hconfig expression hexpression => ?_⟩
  have hslots := hinv.slots config hconfig expression hexpression
  refine ⟨fun job hjob => hslots.due _ (mem_map_of_mem hjob), ?_⟩
  exact pairwise_map.mp hslots.distinct

/-- Two passes over two applications of which one is due: the first creates a job for its slot, the
second, a day later, finds the schedule due again and the job still active, and creates no other. -/
theorem one_scheduled_job_per_slot_daily :
    ∃ w, Session .plain [.evaluateDueSchedules 100 ⟨1700000000000, by decide, by decide⟩,
        .evaluateDueSchedules 100 ⟨1700086400000, by decide, by decide⟩]
        (twoSchedules "0 3 * * *" "0 4 1 1 *") w ∧
      (newScheduledJobs (twoSchedules "0 3 * * *" "0 4 1 1 *") w (js "first")).length = 1 ∧
      ∀ applicationId, activeCount w.jobs applicationId ≤ 1 := by
  have hpasses : (((evaluateDueSchedules 100 1700000000000).eval (backupHandler .plain)
      (twoSchedules "0 3 * * *" "0 4 1 1 *")
      [.configs [scheduleOf "first" "0 3 * * *", scheduleOf "second" "0 4 1 1 *"], .done, .done,
        .created (js "job") 0, .fail (enoent [])]).bind fun first =>
      ((evaluateDueSchedules 100 1700086400000).eval (backupHandler .plain) first.2.1
        [.configs [scheduleOf "first" "0 3 * * *", scheduleOf "second" "0 4 1 1 *"],
          .row (js "job"), .row (js "job"), .fail (enoent [])]).map fun second =>
        (newScheduledJobs (twoSchedules "0 3 * * *" "0 4 1 1 *") second.2.1
          (js "first")).length) = some 1 := by
    decide +kernel
  obtain ⟨first, hfirst, hrest⟩ := Option.bind_eq_some_iff.mp hpasses
  obtain ⟨second, hsecond, hlength⟩ := Option.map_eq_some_iff.mp hrest
  have hsession : Session .plain [.evaluateDueSchedules 100 ⟨1700000000000, by decide, by decide⟩,
      .evaluateDueSchedules 100 ⟨1700086400000, by decide, by decide⟩]
      (twoSchedules "0 3 * * *" "0 4 1 1 *") second.2.1 :=
    .cons (Task.reaches_of_eval hfirst) (.cons (Task.reaches_of_eval hsecond) (.nil _))
  exact ⟨_, hsession, hlength, (one_scheduled_job_per_slot .plain
    (twoSchedules "0 3 * * *" "0 4 1 1 *") (by decide) (by decide) (fun _ => Nat.zero_le 1) _ _
    hsession).1⟩

end ZimaControl
