import ZimaControl.Backup.JobWrites

/-!
# The queue of backup jobs

`processNextQueuedJob` takes the oldest queued job, whatever its application and its destination are.
If a job of the application is in progress it returns, and what `executeBackupJob` refuses before its
`try` block it throws, and the job stays at the head of the queue. So with a database that does not
fail a call takes a job out of the queue exactly if every job that can be at the head can be started
(`queue_advances_iff`).
-/

namespace ZimaControl

open List BackupWorld ZimaControl.Task

/-- The job is queued, and no queued job is older. -/
def IsHead (w : BackupWorld) (job : BackupJob) : Prop :=
  job.status = .queued ∧ ∀ other ∈ w.jobs, other.status = .queued → job.createdAt ≤ other.createdAt

/-- No other job of the application is in progress. -/
def IsFree (w : BackupWorld) (job : BackupJob) : Prop :=
  ∀ other ∈ w.jobs, other.applicationId = job.applicationId → other.id ≠ job.id →
    isInProgress other.status = false

/-- The job has a destination that is active and has a provider. -/
def HasDestination (host : BackupHost) (w : BackupWorld) (job : BackupJob) : Prop :=
  ∃ config destination, w.configs.find? (·.id = job.backupConfigId) = some config ∧
    w.destination config.destinationId = some destination ∧ destination.isActive = true ∧
    destination.type ∈ host.providers

/-- A job that was queued is not queued any more. -/
def LeavesQueue (w w' : BackupWorld) : Prop :=
  ∃ job ∈ w.jobs, job.status = .queued ∧
    ∀ after ∈ w'.jobs, after.id = job.id → after.status ≠ .queued

/-- Every call of `processNextQueuedJob` takes a job out of the queue, if the database does not
fail. -/
def QueueAdvances (host : BackupHost) (w : BackupWorld) : Prop :=
  ∀ choices r w' rest, (processNextQueuedJob host).eval (databaseHandler host) w choices =
    some (r, w', rest) → LeavesQueue w w'

/-! ## A job that is started -/

variable {host : BackupHost} {w w' : BackupWorld} {job : BackupJob}

/-- The rows of a job are not queued. -/
def NotQueued (jobId : JsString) (w : BackupWorld) : Prop :=
  ∀ job ∈ w.jobs, job.id = jobId → job.status ≠ .queued

/-- A running job does not get back into the queue. -/
theorem notQueued_of_only {α : Type} {jobId : JsString} {t : Backup α}
    {statuses : List BackupJobStatus} (hqueued : .queued ∉ statuses)
    (ht : t.Only (WritesOnly jobId statuses)) (h : NotQueued jobId w) :
    t.Ensures (databaseHandler host) (fun _ => NotQueued jobId) w := by
  refine ht.ensures h ?_
  intro w c choice r w' hwrites hhandler hnot
  have hexec := exec_of_databaseHandler hhandler
  by_cases htable : c.table = some .jobs
  · obtain ⟨data, rfl, hstatus⟩ := hwrites (isJobCall_of_table htable)
    obtain ⟨-, hw⟩ | ⟨e, -, hjobs⟩ := updateJob_exec hexec
    · intro job hjob hid
      rw [hw] at hjob
      obtain ⟨before, hbefore, rfl⟩ := mem_updateRows hjob
      split_ifs at hid ⊢ with hsame
      · exact fun heq => hqueued (heq ▸ hstatus)
      · exact absurd hid hsame
    · unfold NotQueued
      rw [hjobs]
      exact hnot
  · unfold NotQueued
    rw [(frame_of_exec hexec).jobs htable]
    exact hnot

/-- The first phase takes the job out of the queue. -/
theorem notQueued_of_phase {α : Type} {data : JobUpdate} {t : Backup α} (ht : IsPhase job.id data t)
    (hjob : job ∈ w.jobs) (hstatus : data.status ≠ .queued) :
    t.Ensures (databaseHandler host) (fun _ => NotQueued job.id) w := by
  obtain ⟨rest, rfl, hrest⟩ := ht
  have hupdate : (updateJobState job.id data).Ensures (databaseHandler host)
      (fun _ => NotQueued job.id) w := by
    refine .perform fun choice r w' hsucceed => ?_
    cases choice <;> try cases hsucceed
    have hany : (w.jobs.any (·.id = job.id)) = true :=
      any_eq_true.mpr ⟨job, hjob, decide_eq_true rfl⟩
    change (if w.jobs.any (·.id = job.id) then _ else _) = _ at hsucceed
    rw [if_pos hany] at hsucceed
    cases hsucceed
    intro after hafter hid
    obtain ⟨before, hbefore, rfl⟩ := mem_updateRows hafter
    split_ifs at hid ⊢ with hsame
    · exact hstatus
    · exact absurd hid hsame
  exact .bind hupdate (fun _ w₁ h₁ => notQueued_of_only not_mem_nil hrest h₁)
    fun e w₁ h₁ => h₁

/-- A job that can be started leaves the queue. -/
theorem runJob_ensures (record : JobRecord) {destination : BackupDestination}
    (hjob : record.job ∈ w.jobs) (hqueued : record.job.status = .queued) :
    (runJob host record destination).Ensures (databaseHandler host)
      (fun _ => NotQueued record.job.id) w := by
  have hnever : BackupJobStatus.queued ∉ runningStatuses := by decide
  refine .bindRead (fun _ _ _ h => now_exec (exec_of_databaseHandler h)) fun startedAt => ?_
  rw [hqueued]
  refine .bindAttempt (notQueued_of_phase (startJob_phase destination startedAt) hjob
    nofun) fun started w₂ h₂ => ?_
  cases started with
  | error e => exact notQueued_of_only hnever (cleanUp_only_running _ e) h₂
  | ok _ =>
    refine notQueued_of_only hnever ?_ h₂
    dsimp only
    split
    · exact cleanUp_only_running _ _
    split
    · exact cleanUp_only_running _ _
    · have hmkdir : ∀ path, (call (.mkdir path)).Only (WritesOnly record.job.id []) :=
        fun _ => only_call rfl
      exact guarded_only (hmkdir _) (by decide) fun _ =>
        captureAndStore_only host record destination _ _ _ _

section

variable (hids : (w.jobs.map (·.id)).Nodup)
include hids

/-- A job is found by its identifier. -/
theorem find_row (hjob : job ∈ w.jobs) : w.jobs.find? (·.id = job.id) = some job := by
  have hsome : (w.jobs.find? (·.id = job.id)).isSome :=
    find?_isSome.mpr ⟨job, hjob, decide_eq_true rfl⟩
  obtain ⟨other, hother⟩ := Option.isSome_iff_exists.mp hsome
  have hid := find?_some hother
  rw [hother, inj_on_of_nodup_map hids (mem_of_find?_eq_some hother) hjob
    (of_decide_eq_true hid)]

/-- `executeBackupJob` on a queued job with a destination. -/
theorem executeBackupJob_ensures (hjob : job ∈ w.jobs) (hqueued : job.status = .queued)
    (hdestination : HasDestination host w job) :
    (executeBackupJob host job.id).Ensures (databaseHandler host)
      (fun _ => NotQueued job.id) w := by
  obtain ⟨config, destination, hconfig, hfound, hactive, hprovider⟩ := hdestination
  have hfind : (call (.findJob job.id)).Ensures (databaseHandler host)
      (fun r w' => w' = w ∧ r = .ok (some ⟨job, config, some destination,
        w.tasks.filter (·.jobId = job.id)⟩)) w := by
    refine .perform fun choice r w' hsucceed => ?_
    cases choice <;> try cases hsucceed
    have hrow := find_row hids hjob
    change BackupCall.succeed host w (.findJob job.id) .done = _ at hsucceed
    rw [BackupCall.succeed, hrow] at hsucceed
    dsimp only at hsucceed
    rw [hconfig] at hsucceed
    cases hsucceed
    exact ⟨rfl, by rw [hfound]⟩
  refine .bind hfind ?_ fun e w₁ h => by cases h.2
  rintro found w₁ ⟨rfl, hfound⟩
  cases hfound
  dsimp only
  rw [if_neg (by rw [hactive]; decide)]
  have hresolve : host.resolveProvider destination = .ok () := if_pos hprovider
  rw [hresolve]
  exact runJob_ensures ⟨job, config, some destination, _⟩ hjob hqueued

/-- A call that finds a job that can be started takes it out of the queue. -/
theorem processNextQueuedJob_ensures (hnonempty : ∃ job ∈ w.jobs, job.status = .queued)
    (hheads : ∀ job ∈ w.jobs, IsHead w job → IsFree w job ∧ HasDestination host w job) :
    (processNextQueuedJob host).Ensures (databaseHandler host) (fun _ w' => LeavesQueue w w') w := by
  have hqueued : (call .findQueued).Ensures (databaseHandler host)
      (fun r w' => w' = w ∧ ∃ job ∈ w.jobs, IsHead w job ∧ r = .ok (some job)) w := by
    refine .perform fun choice r w' hsucceed => ?_
    obtain ⟨found, hpick, hfound⟩ := Option.map_eq_some_iff.mp hsucceed
    cases hfound
    obtain ⟨-, hnone⟩ | ⟨job, hmem, hjob, hfirst⟩ := pick_eq_some hpick
    · obtain ⟨job, hjob, hstatus⟩ := hnonempty
      exact absurd (decide_eq_true hstatus) (filter_eq_nil_iff.mp hnone job hjob)
    · have ⟨hmem, hstatus⟩ := mem_filter.mp hmem
      refine ⟨rfl, job, hmem, ⟨of_decide_eq_true hstatus, fun other hother hq => ?_⟩, by rw [hjob]⟩
      exact of_decide_eq_true (hfirst other (mem_filter.mpr ⟨hother, decide_eq_true hq⟩))
  -- the head is taken, and nothing of its application is in progress
  refine .bind hqueued ?_ fun e w₁ h => by simp at h
  rintro queued w₁ ⟨rfl, job, hjob, hhead, hfound⟩
  cases hfound
  obtain ⟨hfree, hdestination⟩ := hheads job hjob hhead
  have hprogress : (call (.findInProgress job.applicationId job.id)).Ensures (databaseHandler host)
      (fun r w' => w' = w₁ ∧ r = .ok none) w₁ := by
    refine .perform fun choice r w' hsucceed => ?_
    obtain ⟨found, hpick, hfound⟩ := Option.map_eq_some_iff.mp hsucceed
    cases hfound
    obtain ⟨hnone, -⟩ | ⟨other, hmem, -, -⟩ := pick_eq_some hpick
    · exact ⟨rfl, by rw [hnone]⟩
    have ⟨hmem, hother⟩ := mem_filter.mp hmem
    simp only [Bool.and_eq_true, decide_eq_true_eq] at hother
    have hidle := hfree other hmem hother.1.1 hother.1.2
    rw [hother.2] at hidle
    cases hidle
  refine .bind hprogress ?_ fun e w₂ h => by cases h.2
  rintro inProgress w₂ ⟨rfl, hnone⟩
  cases hnone
  have hleaves : ∀ w', NotQueued job.id w' → LeavesQueue w₂ w' :=
    fun w' h => ⟨job, hjob, hhead.1, h⟩
  refine .bind (executeBackupJob_ensures hids hjob hhead.1 hdestination) ?_
    fun e w₃ h₃ => hleaves w₃ h₃
  intro result w₃ h₃
  split_ifs
  · have hprune := pruneApplicationBackups_only job.id [] host job.applicationId
    exact .bindAttempt (notQueued_of_only not_mem_nil hprune h₃)
      fun _ w₄ h₄ => hleaves w₄ h₄
  · exact hleaves w₃ h₃

/-! ## A job that blocks the queue -/

variable (hjob : job ∈ w.jobs)
include hjob

/-- `executeBackupJob` refuses a job without a destination before its `try` block. -/
theorem executeBackupJob_refuses (hconfig : ∃ config ∈ w.configs, config.id = job.backupConfigId)
    (hnone : ¬ HasDestination host w job) :
    ∃ e, (executeBackupJob host job.id).Runs (databaseHandler host) w (.error e) w := by
  have hsome : (w.configs.find? (·.id = job.backupConfigId)).isSome := by
    obtain ⟨config, hmem, hid⟩ := hconfig
    exact find?_isSome.mpr ⟨config, hmem, decide_eq_true hid⟩
  obtain ⟨config, hfound⟩ := Option.isSome_iff_exists.mp hsome
  have hfind : (call (.findJob job.id)).Runs (databaseHandler host) w
      (.ok (some ⟨job, config, w.destination config.destinationId,
        w.tasks.filter (·.jobId = job.id)⟩)) w := by
    refine runs_perform.mpr ⟨.done, ?_⟩
    change BackupCall.succeed host w (.findJob job.id) .done = _
    rw [BackupCall.succeed, find_row hids hjob]
    dsimp only
    rw [hfound]
    rfl
  -- the three ways in which a destination is missing
  cases hdestination : w.destination config.destinationId with
  | none =>
    rw [hdestination] at hfind
    exact ⟨_, runs_bind.mpr (.inl ⟨_, w, hfind, rfl, rfl⟩)⟩
  | some destination =>
    rw [hdestination] at hfind
    cases hactive : destination.isActive with
    | false =>
      refine ⟨backupDestinationInvalidError (js "Backup destination '" ++ destination.name ++
        js "' is inactive"), runs_bind.mpr (.inl ⟨_, w, hfind, ?_⟩)⟩
      dsimp only
      rw [if_pos hactive]
      exact ⟨rfl, rfl⟩
    | true =>
      have hprovider : destination.type ∉ host.providers :=
        fun h => hnone ⟨config, destination, hfound, hdestination, hactive, h⟩
      have hresolve : ∃ e, host.resolveProvider destination = .error e := ⟨_, if_neg hprovider⟩
      obtain ⟨e, hresolve⟩ := hresolve
      refine ⟨e, runs_bind.mpr (.inl ⟨_, w, hfind, ?_⟩)⟩
      dsimp only
      rw [if_neg (by rw [hactive]; decide), hresolve]
      exact ⟨rfl, rfl⟩

/-- The query for the oldest queued job can find any head. -/
theorem findQueued_runs (hhead : IsHead w job) :
    (call .findQueued).Runs (databaseHandler host) w (.ok (some job)) w := by
  have hmem : job ∈ w.jobs.filter (·.status = .queued) :=
    mem_filter.mpr ⟨hjob, decide_eq_true hhead.1⟩
  have hfirst : (w.jobs.filter (·.status = .queued)).all (job.createdAt ≤ ·.createdAt) := by
    rw [all_eq_true]
    intro other hother
    have ⟨hmem, hqueued⟩ := mem_filter.mp hother
    exact decide_eq_true (hhead.2 other hmem (of_decide_eq_true hqueued))
  have hpick : pick (w.jobs.filter (·.status = .queued)) (·.createdAt ≤ ·.createdAt)
      (.row job.id) = some (some job) := by
    obtain ⟨found, hfound⟩ := Option.isSome_iff_exists.mp (find?_isSome
      (p := fun other : BackupJob => other.id = job.id && (w.jobs.filter (·.status = .queued)).all
        (other.createdAt ≤ ·.createdAt)).mpr ⟨job, hmem, by simpa using hfirst⟩)
    have hid := find?_some hfound
    rw [Bool.and_eq_true] at hid
    have heq := inj_on_of_nodup_map hids
      (mem_of_mem_filter (mem_of_find?_eq_some hfound)) hjob (of_decide_eq_true hid.1)
    rw [pick, hfound, heq]
    rfl
  refine runs_perform.mpr ⟨.row job.id, ?_⟩
  change Option.map _ (pick _ _ _) = _
  rw [hpick]
  rfl

/-- A call that finds a job that cannot be started leaves everything. -/
theorem exists_stuck_run (hhead : IsHead w job)
    (hconfig : ∃ config ∈ w.configs, config.id = job.backupConfigId)
    (hblocked : ¬ (IsFree w job ∧ HasDestination host w job)) :
    ∃ r, (processNextQueuedJob host).Runs (databaseHandler host) w r w := by
  obtain ⟨choice, found, hpick⟩ := exists_pick
    (w.jobs.filter fun other => other.applicationId = job.applicationId && other.id ≠ job.id &&
      isInProgress other.status) (fun _ _ => true)
    fun hrows => (exists_mem_of_ne_nil _ hrows).imp fun other hother => ⟨hother, fun _ _ => rfl⟩
  have hprogress : (call (.findInProgress job.applicationId job.id)).Runs (databaseHandler host) w
      (.ok found) w := by
    refine runs_perform.mpr ⟨choice, ?_⟩
    change Option.map _ (pick _ _ _) = _
    rw [hpick]
    rfl
  cases found with
  | some other =>
    exact ⟨.ok none, runs_bind_ok.mpr ⟨_, w, findQueued_runs hids hjob hhead,
      runs_bind_ok.mpr ⟨_, w, hprogress, rfl, rfl⟩⟩⟩
  | none =>
    have hfree : IsFree w job := by
      obtain ⟨-, hnone⟩ | ⟨other, -, hother, -⟩ := pick_eq_some hpick
      · intro other hother happlication hid
        have hnot := filter_eq_nil_iff.mp hnone other hother
        simpa [happlication, hid] using hnot
      · cases hother
    obtain ⟨e, hrefuses⟩ := executeBackupJob_refuses hids hjob hconfig
      fun hdestination => hblocked ⟨hfree, hdestination⟩
    refine ⟨.error e, runs_bind.mpr (.inl ⟨_, w, findQueued_runs hids hjob hhead,
      runs_bind.mpr (.inl ⟨_, w, hprogress, runs_bind.mpr (.inr ⟨e, hrefuses, rfl⟩)⟩)⟩)⟩

end

/-- A queued job of an application, and its configuration. -/
def queuedJob (name : String) (createdAt : ℤ) : BackupJob where
  id := js name
  applicationId := js name
  backupConfigId := js name
  triggerType := .manual
  actorId := none
  status := .queued
  failureReasonCode := none
  failureDetail := none
  startedAt := none
  completedAt := none
  createdAt := createdAt

/-- The configuration of an application with a destination of the same name. -/
def configOf (name : String) : BackupConfig where
  id := js name
  application := ⟨js name, js name⟩
  enabled := true
  retentionVersions := 1
  scheduleCron := none
  destinationId := js name
  sources := []
  createdAt := 0

/-- The queued jobs of two applications; the older one's destination is active or not. -/
def twoQueued (isActive : Bool) : BackupWorld :=
  { BackupWorld.empty with
    configs := [configOf "older", configOf "younger"]
    destinations := [⟨js "older", js "older", .localFilesystem, js "/backup/older", isActive⟩,
      ⟨js "younger", js "younger", .localFilesystem, js "/backup/younger", true⟩]
    jobs := [queuedJob "older" 0, queuedJob "younger" 1] }

/-- With a database that does not fail, and while some queued job is of an application that has no
job in progress, a call takes a job out of the queue exactly if every job that can be at the head is
of an application without another job in progress, and has an active destination with a provider. -/
theorem queue_advances_iff (host : BackupHost) (w : BackupWorld)
    (hids : (w.jobs.map (·.id)).Nodup)
    (hconfigs : ∀ job ∈ w.jobs, ∃ config ∈ w.configs, config.id = job.backupConfigId)
    (hwaiting : ∃ job ∈ w.jobs, job.status = .queued ∧ ∀ other ∈ w.jobs,
      other.applicationId = job.applicationId → isInProgress other.status = false) :
    QueueAdvances host w ↔
      ∀ job ∈ w.jobs, IsHead w job → IsFree w job ∧ HasDestination host w job := by
  constructor
  · intro hadvances job hjob hhead
    by_contra hblocked
    obtain ⟨r, hruns⟩ := exists_stuck_run hids hjob hhead (hconfigs job hjob) hblocked
    obtain ⟨choices, heval⟩ := runs_iff_eval.mp hruns
    obtain ⟨left, hleft, hqueued, hmoved⟩ := hadvances choices r w [] heval
    exact hmoved left hleft rfl hqueued
  · intro hheads choices r w' rest heval
    obtain ⟨job, hjob, hqueued, -⟩ := hwaiting
    exact (processNextQueuedJob_ensures hids ⟨job, hjob, hqueued⟩ hheads).eval heval

/-- With active destinations the queue of two applications advances. -/
theorem queue_advances_iff_active : QueueAdvances .plain (twoQueued true) := by
  refine (queue_advances_iff .plain (twoQueued true) (by decide) (by decide) ?_).mpr ?_
  · exact ⟨queuedJob "older" 0, mem_cons_self, rfl, by decide⟩
  intro job hjob hhead
  have hjob' : job ∈ [queuedJob "older" 0, queuedJob "younger" 1] := hjob
  simp only [mem_cons, not_mem_nil, or_false] at hjob'
  obtain rfl | rfl := hjob'
  · exact ⟨by unfold IsFree; decide, configOf "older", _, rfl, rfl, rfl, by decide⟩
  · exact ⟨by unfold IsFree; decide, configOf "younger", _, rfl, rfl, rfl, by decide⟩

/-- An inactive destination of the oldest job keeps the other applications' jobs in the queue. -/
theorem inactive_destination_blocks_queue :
    (∃ job ∈ (twoQueued false).jobs, job.status = .queued ∧ ∀ other ∈ (twoQueued false).jobs,
      other.applicationId = job.applicationId → isInProgress other.status = false) ∧
    ¬ QueueAdvances .plain (twoQueued false) := by
  refine ⟨⟨queuedJob "younger" 1, by decide, rfl, by decide⟩, fun hadvances => ?_⟩
  have heval : (processNextQueuedJob .plain).eval (databaseHandler .plain) (twoQueued false)
      [.row (js "older"), .done, .done] = some (.error (backupDestinationInvalidError
        (js "Backup destination 'older' is inactive")), twoQueued false, []) := rfl
  obtain ⟨job, hjob, hqueued, hleft⟩ := hadvances _ _ _ _ heval
  exact hleft job hjob rfl hqueued

end ZimaControl
