import ZimaControl.Backup.Queue

/-!
# Artifacts and their files

A job moves its three files to storage, records the artifact and then marks itself as completed, in
three steps that are not one transaction. Whatever fails, the `catch` block removes the three files
and leaves the artifact. So at most one failing call keeps records and files together unless it is
the update to COMPLETED: then the artifact is recorded as verified and retained, and its files are
gone (`artifact_iff_files`).

The calls of a job change the files below its staging directory and its three files in storage, no
other (`Kept`); what the parts of the job do to the three files is said on top of that.
-/

namespace ZimaControl

open List Posix BackupCall

/-! ## What is recorded and what is stored -/

/-- A verified and retained artifact of the job is recorded. -/
def HasArtifact (w : BackupWorld) (jobId : JsString) : Prop :=
  ∃ artifact ∈ w.artifacts, artifact.jobId = jobId ∧ artifact.counts = true

/-- The configuration of a job. -/
def jobConfig (w : BackupWorld) (jobId : JsString) : Option BackupConfig :=
  (w.jobs.find? (·.id = jobId)).bind fun job => w.configs.find? (·.id = job.backupConfigId)

/-- The three files of a bundle are in a directory. -/
def HasBundle (host : BackupHost) (w : BackupWorld) (directory bundle : JsString) : Prop :=
  ∀ path ∈ artifactPaths directory bundle, w.files (location host.cwd path) ≠ none

/-- The bundle of the job, its manifest and its checksum are in the storage directory. -/
def HasFiles (host : BackupHost) (w : BackupWorld) (jobId : JsString) : Prop :=
  ∃ config destination directory startedAt, jobConfig w jobId = some config ∧
    w.destination config.destinationId = some destination ∧
    host.resolveStorageDirectory destination config.application.name = .ok directory ∧
    HasBundle host w directory (bundleFileName config.application.name startedAt jobId)

/-- The update of the job to COMPLETED failed. -/
def CompletionLost (w : BackupWorld) (jobId : JsString) : Prop :=
  ∃ data : JobUpdate, data.status = .completed ∧ .updateJob jobId data ∈ w.failed

/-- Without a failed call no update was lost. -/
theorem not_completionLost {w : BackupWorld} {jobId : JsString} (h : w.failed = []) :
    ¬ CompletionLost w jobId := by
  intro hlost
  obtain ⟨data, -, hmem⟩ := hlost
  rw [h] at hmem
  cases hmem

/-- An artifact of the job, by what is shown of the rows. -/
theorem hasArtifact_of_rows {w : BackupWorld} {jobId : JsString}
    (h : (w.artifacts.map fun artifact => (artifact.jobId, artifact.counts)) = [(jobId, true)]) :
    HasArtifact w jobId := by
  obtain ⟨artifact, hmem, hjob⟩ := mem_map.mp (h ▸ mem_cons_self)
  exact ⟨artifact, hmem, congrArg Prod.fst hjob, congrArg Prod.snd hjob⟩

/-! ## What a job leaves alone -/

/-- The job kept its configuration, and other files than these did not change. -/
structure JobFrame (jobId : JsString) (touched : List JsString → Prop) (w w' : BackupWorld) :
    Prop where
  config : jobConfig w' jobId = jobConfig w jobId
  destinations : w'.destinations = w.destinations
  files : ∀ file, ¬ touched file → w'.files file = w.files file

/-- A job that has recorded no artifact and has not tried to complete. -/
structure Kept (jobId : JsString) (touched : List JsString → Prop) (w w' : BackupWorld) : Prop
    extends JobFrame jobId touched w w' where
  artifacts : w'.artifacts = w.artifacts
  lost : CompletionLost w' jobId ↔ CompletionLost w jobId

variable {host : BackupHost} {jobId : JsString} {touched : List JsString → Prop}
  {w w' w'' : BackupWorld}

/-- Nothing changed. -/
theorem Kept.refl (jobId : JsString) (touched : List JsString → Prop) (w : BackupWorld) :
    Kept jobId touched w w := ⟨⟨rfl, rfl, fun _ _ => rfl⟩, rfl, Iff.rfl⟩

/-- Two parts of a job leave what each of them leaves. -/
theorem JobFrame.trans (h : JobFrame jobId touched w w') (h' : JobFrame jobId touched w' w'') :
    JobFrame jobId touched w w'' where
  config := h'.config.trans h.config
  destinations := h'.destinations.trans h.destinations
  files file hfile := (h'.files file hfile).trans (h.files file hfile)

/-- What two parts in a row keep. -/
theorem Kept.trans (h : Kept jobId touched w w') (h' : Kept jobId touched w' w'') :
    Kept jobId touched w w'' :=
  ⟨h.toJobFrame.trans h'.toJobFrame, h'.artifacts.trans h.artifacts, h'.lost.trans h.lost⟩

/-- The artifacts are as they were. -/
theorem Kept.hasArtifact (h : Kept jobId touched w w') :
    HasArtifact w' jobId ↔ HasArtifact w jobId := by
  unfold HasArtifact
  rw [h.artifacts]

/-- The calls of a job that neither record an artifact nor complete it. -/
structure Tame (host : BackupHost) (jobId : JsString) (touched : List JsString → Prop)
    (c : BackupCall) : Prop where
  jobs : c.table = some .jobs → ∃ data : JobUpdate, c = .updateJob jobId data ∧
    data.status ≠ .completed
  artifacts : c.table ≠ some .artifacts
  files : ∀ file, c.Touches host file → touched file

/-- An update of the job keeps its configuration. -/
theorem jobConfig_updateRows (data : JobUpdate) :
    jobConfig { w with jobs := updateRows jobId data w.jobs } jobId = jobConfig w jobId := by
  have hids : ((fun job : BackupJob => decide (job.id = jobId)) ∘ fun job =>
      if job.id = jobId then data.apply job else job) = fun job => decide (job.id = jobId) := by
    funext job
    rw [Function.comp_apply]
    split_ifs <;> rfl
  unfold jobConfig updateRows
  rw [find?_map, hids]
  cases w.jobs.find? fun job => decide (job.id = jobId) with
  | none => rfl
  | some job =>
    rw [Option.map_some, Option.bind_some, Option.bind_some]
    split_ifs <;> rfl

/-- The jobs and configurations determine the configuration of a job. -/
theorem jobConfig_congr (hjobs : w'.jobs = w.jobs) (hconfigs : w'.configs = w.configs) :
    jobConfig w' jobId = jobConfig w jobId := by
  unfold jobConfig
  rw [hjobs, hconfigs]

variable {config : BackupConfig} {destination : BackupDestination}

/-- The configuration of a job and its destination are there. -/
structure Known (w : BackupWorld) (jobId : JsString) (config : BackupConfig)
    (destination : BackupDestination) : Prop where
  jobConfig_eq : jobConfig w jobId = some config
  destination_eq : w.destination config.destinationId = some destination

/-- They stay. -/
theorem JobFrame.known (h : JobFrame jobId touched w w') (hknown : Known w jobId config destination) :
    Known w' jobId config destination := by
  refine ⟨h.config.trans hknown.jobConfig_eq, ?_⟩
  rw [← hknown.destination_eq, BackupWorld.destination, BackupWorld.destination, h.destinations]

/-- The files of a job are then in one directory. -/
theorem Known.hasFiles_iff (h : Known w jobId config destination) :
    HasFiles host w jobId ↔ ∃ directory startedAt,
      host.resolveStorageDirectory destination config.application.name = .ok directory ∧
      HasBundle host w directory (bundleFileName config.application.name startedAt jobId) := by
  constructor
  · rintro ⟨config', destination', directory, startedAt, hconfig, hdestination, hstored⟩
    obtain rfl := Option.some.inj (h.jobConfig_eq.symm.trans hconfig)
    obtain rfl := Option.some.inj (h.destination_eq.symm.trans hdestination)
    exact ⟨directory, startedAt, hstored⟩
  · rintro ⟨directory, startedAt, hstored⟩
    exact ⟨config, destination, directory, startedAt, h.jobConfig_eq, h.destination_eq, hstored⟩

/-- A bundle of untouched files was there before. -/
theorem JobFrame.hasBundle (h : JobFrame jobId touched w w') {directory bundle : JsString}
    (hclear : ∀ path ∈ artifactPaths directory bundle, ¬ touched (location host.cwd path))
    (hbundle : HasBundle host w' directory bundle) : HasBundle host w directory bundle := by
  intro path hpath
  rw [← h.files _ (hclear path hpath)]
  exact hbundle path hpath

variable {c : BackupCall} {choice : BackupChoice} {r : Except BackupFailure c.Answer}

/-- A tame call keeps the configuration of the job. -/
theorem Tame.jobConfig_eq (hc : Tame host jobId touched c)
    (h : c.exec host w choice = some (r, w')) : jobConfig w' jobId = jobConfig w jobId := by
  have hframe := frame_of_exec h
  by_cases htable : c.table = some .jobs
  · obtain ⟨data, rfl, -⟩ := hc.jobs htable
    obtain ⟨-, hw⟩ | ⟨e, -, hjobs⟩ := updateJob_exec h
    · rw [hw, jobConfig_updateRows]
    · exact jobConfig_congr hjobs hframe.configs
  · exact jobConfig_congr (hframe.jobs htable) hframe.configs

/-- A tame call keeps what a job keeps. -/
theorem Tame.kept (hc : Tame host jobId touched c) (h : c.exec host w choice = some (r, w')) :
    Kept jobId touched w w' where
  config := hc.jobConfig_eq h
  destinations := (frame_of_exec h).destinations
  files file hfile := files_of_exec h fun ht => hfile (hc.files file ht)
  artifacts := (frame_of_exec h).artifacts hc.artifacts
  lost := by
    unfold CompletionLost
    obtain hfailed | hfailed := failed_of_exec h
    · rw [hfailed]
    rw [hfailed]
    refine exists_congr fun data => and_congr_right fun hdata => ?_
    rw [mem_cons, or_iff_right]
    intro heq
    obtain ⟨data', heq', hdata'⟩ := hc.jobs (heq ▸ rfl)
    rw [← heq] at heq'
    cases heq'
    exact hdata' hdata

variable {α : Type} {t : Backup α}

/-- A program of tame calls keeps what a job keeps. -/
theorem kept_of_only (ht : t.Only (Tame host jobId touched)) :
    t.Ensures (backupHandler host) (fun _ w' => Kept jobId touched w w') w :=
  ht.ensures (.refl jobId touched w) fun _ _ _ _ _ hc hexec h => h.trans (hc.kept hexec)

/-- Quiet calls are tame. -/
theorem tame_of_isQuiet (h : c.isQuiet = true) : Tame host jobId touched c := by
  simp only [isQuiet, Bool.and_eq_true, decide_eq_true_eq] at h
  obtain ⟨⟨hjob, hartifacts⟩, hfiles⟩ := h
  refine ⟨fun htable => ?_, hartifacts, fun file ht => absurd (table_of_touches ht) hfiles⟩
  rw [isJobCall_of_table htable] at hjob
  cases hjob

/-- An update to another status than COMPLETED is tame. -/
theorem tame_updateJob {data : JobUpdate} (h : data.status ≠ .completed) :
    Tame host jobId touched (.updateJob jobId data) :=
  ⟨fun _ => ⟨data, rfl, h⟩, (by cases ·), fun _ ht => absurd ht id⟩

/-- A call that changes files is tame if it changes these only. -/
theorem tame_of_files (htable : c.table = some .files)
    (h : ∀ file, c.Touches host file → touched file) : Tame host jobId touched c := by
  refine ⟨fun hjobs => ?_, ?_, h⟩
  · rw [htable] at hjobs
    cases hjobs
  · rw [htable]
    decide

/-! ## Where the files are -/

/-- The names of the files of a bundle. -/
def bundleFiles (bundle : JsString) : List JsString :=
  [bundle, manifestFileName bundle, sha256FileName bundle]

/-- The directories of a job. -/
structure Places (host : BackupHost) (destination : BackupDestination)
    (applicationName jobId staging storage : JsString) : Prop where
  noSlash : unit '/' ∉ jobId
  staging : host.resolveStagingDirectory destination jobId = .ok staging
  storage : host.resolveStorageDirectory destination applicationName = .ok storage

/-- The files below a directory. -/
def Below (host : BackupHost) (directory : JsString) (file : List JsString) : Prop :=
  location host.cwd directory <+: file

/-- The files that a job changes. -/
def JobFile (host : BackupHost) (staging storage bundle : JsString) (file : List JsString) : Prop :=
  Below host staging file ∨ ∃ path ∈ artifactPaths storage bundle, file = location host.cwd path

/-- The paths of the files of a bundle, by their names. -/
theorem mem_artifactPaths {directory bundle path : JsString} :
    path ∈ artifactPaths directory bundle ↔
      ∃ name ∈ bundleFiles bundle, path = join [directory, name] := by
  simp [artifactPaths, bundleFiles]

/-- The last unit of the name of a file of a bundle shows which of the three it is. -/
theorem bundle_eq_of_mem {front front' name : JsString}
    (h : name ∈ bundleFiles (front ++ js ".tar.zst"))
    (h' : name ∈ bundleFiles (front' ++ js ".tar.zst")) : front = front' := by
  have hlast : ∀ (text suffix : JsString), suffix ≠ [] →
      (text ++ suffix).getLast? = suffix.getLast? := fun text suffix hne =>
    getLast?_append_of_ne_nil text hne
  have hne : ∀ {suffix suffix' : JsString}, suffix ≠ [] → suffix' ≠ [] →
      suffix.getLast? ≠ suffix'.getLast? → front ++ suffix ≠ front' ++ suffix' := by
    intro suffix suffix' hs hs' hdiff heq
    rw [← hlast front suffix hs, ← hlast front' suffix' hs', heq] at hdiff
    exact hdiff rfl
  unfold bundleFiles manifestFileName sha256FileName at h h'
  rw [baseName_append] at h h'
  simp only [mem_cons, not_mem_nil, or_false] at h h'
  obtain h | h | h := h <;> obtain h' | h' | h' := h' <;> rw [h] at h' <;>
    first
    | exact append_cancel_right h'
    | exact absurd h' (hne (by decide) (by decide) (by decide))

/-- Bundles of a job with a file in common are the same. -/
theorem bundleFileName_eq_of_mem {applicationName name : JsString} {startedAt startedAt' : ℤ}
    (h : name ∈ bundleFiles (bundleFileName applicationName startedAt jobId))
    (h' : name ∈ bundleFiles (bundleFileName applicationName startedAt' jobId)) :
    bundleFileName applicationName startedAt jobId =
      bundleFileName applicationName startedAt' jobId := by
  obtain ⟨middle, heq, -⟩ := bundleFileName_eq applicationName startedAt jobId
  obtain ⟨middle', heq', -⟩ := bundleFileName_eq applicationName startedAt' jobId
  rw [heq] at h ⊢
  rw [heq'] at h' ⊢
  rw [bundle_eq_of_mem h h']

variable {name : JsString}

section Places

variable {destination : BackupDestination} {applicationName staging storage : JsString}
  {startedAt : ℤ} (places : Places host destination applicationName jobId staging storage)
include places

section

variable (h : name ∈ bundleFiles (bundleFileName applicationName startedAt jobId))
include h

/-- The names of the files of a job name files. -/
theorem Places.isName : Posix.IsName name := by
  obtain ⟨hbundle, hmanifest, hsha256⟩ := isName_fileNames places.noSlash applicationName startedAt
  simp only [bundleFiles, mem_cons, not_mem_nil, or_false] at h
  obtain rfl | rfl | rfl := h
  · exact hbundle
  · exact hmanifest
  · exact hsha256

/-- Where a file in storage lies. -/
theorem Places.location_stored :
    location host.cwd (join [storage, name]) =
      baseLocation host destination ++ storagePath applicationName ++ [name] :=
  location_file (places.isName h) places.storage

end

/-- Files in storage are not in the staging directory. -/
theorem Places.not_below_stored
    (hname : name ∈ bundleFiles (bundleFileName applicationName startedAt jobId)) :
    ¬ Below host staging (location host.cwd (join [storage, name])) := by
  unfold Below
  rw [(location_staging places.noSlash places.staging).2, places.location_stored hname,
    append_assoc, prefix_append_right_inj]
  unfold storagePath
  rw [cons_append, cons_prefix_cons]
  exact fun hstaging => absurd hstaging.1 (by decide)

/-- A file directly in the staging directory. -/
theorem Places.below_staged (hname : Posix.IsName name) :
    Below host staging (location host.cwd (join [staging, name])) := by
  have hne := (location_staging places.noSlash places.staging).1
  rw [location_join hne hname.ne_nil, location_append_name hne hname]
  exact prefix_append _ _

/-- A dump is in the staging directory. -/
theorem Places.below_dump {engine : JsString} {dbEngine : Option DatabaseEngineType}
    (hengine : engineName dbEngine = .ok engine) (target : JsString) :
    Below host staging (location host.cwd
      (join [dumpDirectory staging, sqlFileName engine target])) := by
  have hdirectory : Posix.IsName (js "database") := ⟨by decide, by decide, by decide, by decide⟩
  have hfront : Posix.IsName engine ∧ 2 < engine.length := by
    rcases dbEngine with _ | _ | _ | _ | _ <;> cases hengine <;>
      exact ⟨⟨by decide, by decide, by decide, by decide⟩, by decide⟩
  have hname : Posix.IsName (sqlFileName engine target) := by
    unfold sqlFileName
    rw [append_assoc, append_assoc]
    refine isName_append hfront.1 hfront.2 ?_
    simp only [mem_append, not_or]
    exact ⟨by decide, slash_notMem_safeName target, by decide⟩
  have hne : dumpDirectory staging ≠ [] := join_ne_nil _
  have hbelow := places.below_staged hdirectory
  rw [location_join hne hname.ne_nil, location_append_name hne hname]
  exact hbelow.trans (prefix_append _ _)

end Places

/-! ## Tame parts of a job -/

section Parts

variable {destination : BackupDestination} {applicationName staging storage bundle : JsString}
  {startedAt : ℤ} (places : Places host destination applicationName jobId staging storage)
  (hbundle : bundle = bundleFileName applicationName startedAt jobId)
include places hbundle

/-- The calls that capture and verify the bundle. -/
theorem Places.staged : Staged (Tame host jobId (JobFile host staging storage bundle)) staging bundle := by
  have hname : ∀ name ∈ bundleFiles bundle, ∀ file,
      file = location host.cwd (join [staging, name]) →
        JobFile host staging storage bundle file := by
    intro name hname file hfile
    rw [hbundle] at hname
    rw [hfile]
    exact .inl (places.below_staged (places.isName hname))
  refine ⟨fun c hquiet => tame_of_isQuiet hquiet, fun source engine target hengine => ?_,
    fun entries => ?_, fun name hmem => ?_⟩
  · refine tame_of_files rfl fun file hfile => ?_
    rw [show file = _ from hfile]
    exact .inl (places.below_dump hengine target)
  · exact tame_of_files rfl (hname bundle (by simp [bundleFiles]))
  · exact tame_of_files rfl (hname name (mem_cons_of_mem _ hmem))

/-- The calls of the promotion. -/
theorem Places.move_tame (hname : name ∈ bundleFiles bundle) :
    Tame host jobId (JobFile host staging storage bundle)
        (.rename (join [staging, name]) (join [storage, name])) ∧
      Tame host jobId (JobFile host staging storage bundle)
        (.copyFile (join [staging, name]) (join [storage, name])) ∧
      Tame host jobId (JobFile host staging storage bundle) (.unlink (join [staging, name])) := by
  have hsource : JobFile host staging storage bundle
      (location host.cwd (join [staging, name])) := by
    rw [hbundle] at hname
    exact .inl (places.below_staged (places.isName hname))
  have htarget : JobFile host staging storage bundle
      (location host.cwd (join [storage, name])) :=
    .inr ⟨_, mem_artifactPaths.mpr ⟨name, hname, rfl⟩, rfl⟩
  refine ⟨tame_of_files rfl fun file hfile => ?_, tame_of_files rfl fun file hfile => ?_,
    tame_of_files rfl fun file hfile => ?_⟩
  · obtain hfile | hfile := hfile
    · rw [hfile]
      exact hsource
    · rw [hfile]
      exact htarget
  · rw [show file = _ from hfile]
    exact htarget
  · rw [show file = _ from hfile]
    exact hsource

end Parts

variable {staging : JsString}

/-- The removal of a staging directory. -/
theorem tame_rm (h : ∀ file, Below host staging file → touched file) :
    Tame host jobId touched (.rm staging) := tame_of_files rfl h

variable {locals : JobLocals}

/-- The `catch` block records no artifact. -/
theorem cleanUp_tame (e : BackupFailure)
    (hstaging : ∀ directory, locals.stagingDirectory = some directory →
      ∀ file, Below host directory file → touched file)
    (hstorage : ∀ directory bundle, locals.targetStorageDir = some directory →
      locals.bundleFileName = some bundle → ∀ path ∈ artifactPaths directory bundle,
        touched (location host.cwd path)) :
    (cleanUp jobId locals e).Only (Tame host jobId touched) := by
  refine .bind (removeStaging_only fun directory h => tame_rm (hstaging directory h)) fun _ =>
    .bind (removePromoted_only fun directory bundle h h' path hpath => ?_) fun _ =>
    .bind (markFailed_only (tame_of_isQuiet rfl) (fun data hdata => tame_updateJob ?_) _ _)
      fun _ => .pure
  · refine tame_of_files rfl fun file hfile => ?_
    rw [show file = _ from hfile]
    exact hstorage directory bundle h h' path hpath
  · rw [hdata]
    decide

/-! ## The three files -/

/-- What is not in the staging directory is still there. -/
def StillThere (host : BackupHost) (staging : JsString) (w w' : BackupWorld) : Prop :=
  ∀ file, ¬ Below host staging file → w.files file ≠ none → w'.files file ≠ none

/-- A program that removes files in the staging directory only. -/
theorem stillThere_of_only
    (ht : t.Only fun c => ∀ file, c.Removes host file → Below host staging file) :
    t.Ensures (backupHandler host) (fun _ w' => StillThere host staging w w') w := by
  refine ht.ensures (fun _ _ hpresent => hpresent) ?_
  intro w₁ c choice r w₂ hc hexec h file hfile hpresent
  exact present_of_exec hexec (fun hremoves => hfile (hc file hremoves)) (h file hfile hpresent)

variable {choice : BackupChoice} {source target : JsString}

/-- Unless it threw, there is a file at the target. -/
def Arrived (host : BackupHost) (target : JsString) (r : Except BackupFailure Unit)
    (w : BackupWorld) : Prop :=
  r = .ok () → w.files (location host.cwd target) ≠ none

/-- A file that is renamed or copied is at its target. -/
theorem arrived_of_call (w : BackupWorld) :
    (call (.rename source target)).Ensures (backupHandler host) (Arrived host target) w ∧
      (call (.copyFile source target)).Ensures (backupHandler host) (Arrived host target) w := by
  constructor <;>
  · refine .perform fun choice r w' hexec hr => ?_
    subst hr
    obtain ⟨e, -, he, -⟩ | hsucceed := exec_cases hexec
    · cases he
    cases choice <;> try cases hsucceed
    rw [succeed] at hsucceed
    split at hsucceed <;> cases hsucceed
    rw [putFile_self]
    exact Option.some_ne_none _

/-- A file that was moved is at its target. -/
theorem atomicMoveFile_ensures
    (hne : location host.cwd target ≠ location host.cwd source) (allow : Bool) :
    (atomicMoveFile source target allow).Ensures (backupHandler host) (Arrived host target) w := by
  refine .bindAttempt (arrived_of_call w).1 fun moved w₁ h₁ => ?_
  cases moved with
  | ok _ => exact fun _ => h₁ rfl
  | error e =>
    dsimp only
    split_ifs
    · exact nofun
    · refine .bind (arrived_of_call w₁).2 (fun _ w₂ h₂ => ?_) fun _ _ _ => nofun
      -- The source is unlinked, and the target is another file.
      exact .perform fun choice r w₃ hexec _ => present_of_exec hexec hne (h₂ rfl)
    · exact nofun

section Promotion

variable {destination : BackupDestination} {applicationName staging storage bundle : JsString}
  {startedAt : ℤ} (places : Places host destination applicationName jobId staging storage)
  (hbundle : bundle = bundleFileName applicationName startedAt jobId)
include places hbundle

/-- One of the three files is moved; what is in storage already stays. -/
theorem Places.move_ensures (hname : name ∈ bundleFiles bundle) (allow : Bool) (w : BackupWorld) :
    (atomicMoveFile (join [staging, name]) (join [storage, name]) allow).Ensures
      (backupHandler host) (fun r w' => Arrived host (join [storage, name]) r w' ∧
        StillThere host staging w w') w := by
  rw [hbundle] at hname
  have hsource := places.below_staged (places.isName hname)
  have htarget := places.not_below_stored hname
  have hne : location host.cwd (join [storage, name]) ≠
      location host.cwd (join [staging, name]) := by
    intro heq
    rw [heq] at htarget
    exact htarget hsource
  refine (atomicMoveFile_ensures hne allow).and (stillThere_of_only ?_)
  refine atomicMoveFile_only ?_ ?_ ?_ allow <;> intro file hfile
  · rw [show file = _ from hfile]
    exact hsource
  · exact absurd hfile id
  · rw [show file = _ from hfile]
    exact hsource

/-- Behind the promotion the three files are in storage. -/
theorem Places.promote_ensures (w : BackupWorld) :
    (promote host destination staging storage bundle).Ensures (backupHandler host)
      (fun r w' => r = .ok () → HasBundle host w' storage bundle) w := by
  have hclear : ∀ name ∈ bundleFiles bundle,
      ¬ Below host staging (location host.cwd (join [storage, name])) := by
    intro name hname
    rw [hbundle] at hname
    exact places.not_below_stored hname
  have hmem : bundle ∈ bundleFiles bundle ∧ manifestFileName bundle ∈ bundleFiles bundle ∧
      sha256FileName bundle ∈ bundleFiles bundle := by simp [bundleFiles]
  obtain ⟨hmem₁, hmem₂, hmem₃⟩ := hmem
  refine .tryCatch (S := fun r w' => r = .ok () → HasBundle host w' storage bundle) ?_
    (fun _ _ h => h) fun e w' _ => ?_
  · refine .bind (places.move_ensures hbundle hmem₁ _ w) ?_ fun _ _ _ h => by cases h
    rintro _ w₁ ⟨h₁, -⟩
    refine .bind (places.move_ensures hbundle hmem₂ _ w₁) ?_ fun _ _ _ h => by cases h
    rintro _ w₂ ⟨h₂, hstill₂⟩
    refine (places.move_ensures hbundle hmem₃ _ w₂).mono ?_
    rintro r w₃ ⟨h₃, hstill₃⟩ hr path hpath
    simp only [artifactPaths, mem_cons, not_mem_nil, or_false] at hpath
    obtain rfl | rfl | rfl := hpath
    · exact hstill₃ _ (hclear _ hmem₁) (hstill₂ _ (hclear _ hmem₁) (h₁ rfl))
    · exact hstill₃ _ (hclear _ hmem₂) (h₂ rfl)
    · exact h₃ hr
  · split_ifs <;> exact fun h => by cases h

end Promotion

/-! ## The artifact -/

/-- The artifact is recorded, and its files are there. -/
structure Recorded (host : BackupHost) (jobId : JsString) (touched : List JsString → Prop)
    (storage bundle : JsString) (w w' : BackupWorld) : Prop extends JobFrame jobId touched w w' where
  artifact : HasArtifact w' jobId
  bundle : HasBundle host w' storage bundle
  lost : CompletionLost w' jobId ↔ CompletionLost w jobId

/-- The artifact is recorded, or an error came before that. -/
def RecordedOrKept (host : BackupHost) (jobId staging storage bundle : JsString) (w : BackupWorld)
    (r : Except BackupFailure BackupArtifact) (w' : BackupWorld) : Prop :=
  (∀ e, r = .error e → Kept jobId (JobFile host staging storage bundle) w w') ∧
    ∀ row, r = .ok row →
      Recorded host jobId (JobFile host staging storage bundle) storage bundle w w'

/-- A job that had kept everything records the artifact. -/
theorem Kept.recorded {storage bundle : JsString} (h : Kept jobId touched w w')
    (h' : Recorded host jobId touched storage bundle w' w'') :
    Recorded host jobId touched storage bundle w w'' :=
  ⟨h.toJobFrame.trans h'.toJobFrame, h'.artifact, h'.bundle, h'.lost.trans h.lost⟩

/-- An artifact is recorded, or only the list of failed calls changes. -/
theorem createArtifact_exec {data : NewArtifact} {r : Except BackupFailure BackupArtifact}
    (h : (createArtifact data).exec host w choice = some (r, w')) :
    (∃ row, r = .ok row ∧ row.jobId = data.jobId ∧ row.counts = true ∧
      w' = { w with artifacts := w.artifacts ++ [row] }) ∨
      ∃ e failed, r = .error e ∧ w' = { w with failed := failed } ∧
        (failed = w.failed ∨ failed = .createArtifact data :: w.failed) := by
  obtain ⟨e, -, hr, -, hw⟩ | hsucceed := exec_cases h
  · exact .inr ⟨e, _, hr, hw, .inr rfl⟩
  cases choice <;> try cases hsucceed
  rw [succeed] at hsucceed
  split_ifs at hsucceed
  · cases hsucceed
    exact .inr ⟨_, w.failed, rfl, rfl, .inl rfl⟩
  · cases hsucceed
    exact .inl ⟨_, rfl, rfl, rfl, rfl⟩

section Record

variable {record : JobRecord} {destination : BackupDestination}
  {staging storage bundle : JsString} {startedAt : ℤ}
  (places : Places host destination record.config.application.name record.job.id staging storage)
  (hbundle : bundle = bundleFileName record.config.application.name startedAt record.job.id)
include places hbundle

/-- The artifact of the job is recorded behind the removal of the staging directory. -/
theorem Places.recordArtifact_ensures (verifiedAt : ℤ) (hfiles : HasBundle host w storage bundle) :
    (recordArtifact record destination staging bundle verifiedAt).Ensures (backupHandler host)
      (RecordedOrKept host record.job.id staging storage bundle w) w := by
  have htame : Tame host record.job.id (JobFile host staging storage bundle) (.rm staging) :=
    tame_rm fun _ h => .inl h
  have hrm : (call (.rm staging)).Ensures (backupHandler host)
      (fun _ w' => Kept record.job.id (JobFile host staging storage bundle) w w' ∧
        HasBundle host w' storage bundle) w := by
    refine .perform fun choice r w' hexec => ⟨htame.kept hexec, fun path hpath => ?_⟩
    obtain ⟨name, hname, rfl⟩ := mem_artifactPaths.mp hpath
    rw [hbundle] at hname
    exact present_of_exec hexec (places.not_below_stored hname) (hfiles _ hpath)
  refine .bind hrm ?_ fun e w₁ h₁ => ⟨fun _ _ => h₁.1, fun _ h => by cases h⟩
  rintro - w₁ ⟨hkept, hfiles₁⟩
  refine .perform fun choice r w₂ hexec => ?_
  obtain ⟨row, hr, hjob, hcounts, hw⟩ | ⟨e, failed, hr, hw, hfailed⟩ := createArtifact_exec hexec
  · refine ⟨fun e he => ?_, fun _ _ => ?_⟩
    · rw [hr] at he
      cases he
    rw [hw]
    exact ⟨⟨hkept.config, hkept.destinations, hkept.files⟩,
      ⟨row, mem_append_right _ (mem_singleton_self row), hjob, hcounts⟩, hfiles₁,
      hkept.lost⟩
  · refine ⟨fun _ _ => hkept.trans ?_, fun row hrow => ?_⟩
    swap
    · rw [hr] at hrow
      cases hrow
    rw [hw]
    refine ⟨⟨rfl, rfl, fun _ _ => rfl⟩, rfl, ?_⟩
    unfold CompletionLost
    obtain hfailed | hfailed := hfailed
    · rw [hfailed]
    · rw [hfailed]
      simp

/-- VERIFYING: an error comes before the artifact is recorded. -/
theorem Places.verifyAndPromote_ensures (w : BackupWorld) :
    (verifyAndPromote host record destination staging storage bundle).Ensures (backupHandler host)
      (RecordedOrKept host record.job.id staging storage bundle w) w := by
  obtain ⟨rest, hverify, hrest⟩ :=
    verifyBundle_calls (places.staged hbundle) record destination storage
  have hphase : (verifyBundle record destination staging storage bundle).Only
      (Tame host record.job.id (JobFile host staging storage bundle)) := by
    rw [hverify]
    exact .bind (Task.Only.perform (tame_updateJob nofun)) fun _ => hrest
  refine .bind (kept_of_only hphase) ?_ fun e w₁ h₁ =>
    ⟨fun _ _ => h₁, fun _ h => by cases h⟩
  intro verifiedAt w₁ h₁
  have hpromote := (kept_of_only (promote_only (fun _ hname => places.move_tame hbundle hname) host
    destination)).and (places.promote_ensures hbundle w₁)
  refine .bind hpromote ?_ fun e w₂ h₂ =>
    ⟨fun _ _ => h₁.trans h₂.1, fun _ h => by cases h⟩
  intro _ w₂ h₂
  refine (places.recordArtifact_ensures hbundle verifiedAt (h₂.2 rfl)).mono ?_
  intro r w₃ h₃
  exact ⟨fun e he => (h₁.trans h₂.1).trans (h₃.1 e he), fun row hrow =>
    (h₁.trans h₂.1).recorded (h₃.2 row hrow)⟩

end Record

/-- The last update succeeds, or it is lost. -/
theorem complete_ensures (host : BackupHost) (hconfig : jobConfig w jobId ≠ none)
    (touched : List JsString → Prop) :
    (complete jobId).Ensures (backupHandler host)
      (fun r w' => JobFrame jobId touched w w' ∧ w'.artifacts = w.artifacts ∧ w'.files = w.files ∧
        (r = .ok () → (CompletionLost w' jobId ↔ CompletionLost w jobId)) ∧
        ∀ e, r = .error e → CompletionLost w' jobId) w := by
  refine .bindRead (fun _ _ _ => now_exec) fun completedAt => ?_
  refine .perform fun choice r w₂ hexec => ?_
  have hjob : (w.jobs.any (·.id = jobId)) = true := by
    rw [any_eq_true, ← find?_isSome, Option.isSome_iff_ne_none]
    intro hnone
    rw [jobConfig, hnone] at hconfig
    exact hconfig rfl
  obtain ⟨e, -, hr, -, hw⟩ | hsucceed := exec_cases hexec
  · rw [hw, hr]
    exact ⟨⟨rfl, rfl, fun _ _ => rfl⟩, rfl, rfl, nofun, fun _ _ => ⟨_, rfl, mem_cons_self⟩⟩
  cases choice <;> try cases hsucceed
  rw [succeed, if_pos hjob] at hsucceed
  cases hsucceed
  exact ⟨⟨jobConfig_updateRows _, rfl, fun _ _ => rfl⟩, rfl, rfl, fun _ => Iff.rfl,
    fun _ h => by cases h⟩

/-! ## The `catch` block -/

/-- A file of the bundle is missing, or so many calls failed. -/
def Gone (host : BackupHost) (storage bundle : JsString) (n : ℕ) (w : BackupWorld) : Prop :=
  ¬ HasBundle host w storage bundle ∨ n ≤ w.failed.length

variable {storage bundle : JsString} {n : ℕ}

section

variable (h : Gone host storage bundle n w)
include h

/-- A call that writes no file does not bring a file back. -/
theorem Gone.exec {c : BackupCall} {r : Except BackupFailure c.Answer}
    (hc : ∀ file, ¬ c.Writes host file) (hexec : c.exec host w choice = some (r, w')) :
    Gone host storage bundle n w' := by
  obtain hmissing | hfailed := h
  · refine .inl fun hall => hmissing fun path hpath hnone => ?_
    exact hall path hpath (absent_of_exec hexec (hc _) hnone)
  refine .inr ?_
  obtain hsame | hmore := failed_of_exec hexec
  · rw [hsame]
    exact hfailed
  · rw [hmore, length_cons]
    omega

/-- A program that writes no file. -/
theorem Gone.only (ht : t.Only fun c => ∀ file, ¬ c.Writes host file) :
    t.Ensures (backupHandler host) (fun _ => Gone host storage bundle n) w :=
  ht.ensures h fun _ _ _ _ _ hc hexec hgone => hgone.exec hc hexec

/-- A file that is unlinked is missing, unless the call fails. -/
theorem Gone.unlink {path : JsString} (hpath : path ∈ artifactPaths storage bundle) :
    (call (.unlink path)).Ensures (backupHandler host)
      (fun _ => Gone host storage bundle (n + 1)) w := by
  refine .perform fun choice r w' hexec => ?_
  obtain ⟨e, -, -, hw⟩ | hgone := unlink_exec hexec
  · obtain hmissing | hfailed := h
    · exact .inl (by rw [hw]; exact hmissing)
    · exact .inr (by rw [hw, length_cons]; omega)
  · exact .inl fun hall => hall path hpath hgone

end

/-- The removal of the staging directory does not throw. -/
theorem removeStaging_returns (staging : Option JsString) (w : BackupWorld) :
    (removeStaging staging).Ensures (backupHandler host) (fun r _ => r = .ok ()) w := by
  cases staging with
  | none => exact rfl
  | some directory =>
    have hrm : (call (.rm directory)).Ensures (backupHandler host) (fun _ _ => True) w :=
      Task.Ensures.perform fun _ _ _ _ => trivial
    exact .bindAttempt hrm fun _ _ _ => rfl

/-- The `catch` block leaves no complete bundle, unless three calls fail. -/
theorem cleanUp_gone (hstorage : locals.targetStorageDir = some storage)
    (hbundle : locals.bundleFileName = some bundle) (e : BackupFailure) (w : BackupWorld) :
    (cleanUp jobId locals e).Ensures (backupHandler host)
      (fun _ => Gone host storage bundle 3) w := by
  have hpromoted : ∀ w, (removePromoted (some storage) (some bundle)).Ensures (backupHandler host)
      (fun _ => Gone host storage bundle 3) w := by
    intro w
    have hstart : Gone host storage bundle 0 w := .inr (Nat.zero_le _)
    refine .bindAttempt (hstart.unlink (by simp [artifactPaths])) fun _ w₁ h₁ => ?_
    refine .bindAttempt (h₁.unlink (by simp [artifactPaths])) fun _ w₂ h₂ => ?_
    exact .bindAttempt (h₂.unlink (by simp [artifactPaths])) fun _ w₃ h₃ => h₃
  have hmark : (markFailed jobId locals.currentStatus e).Only fun c => ∀ file, ¬ c.Writes host file :=
    markFailed_only (fun _ => id) (fun _ _ _ => id) _ _
  unfold cleanUp
  rw [hstorage, hbundle]
  refine .bind (removeStaging_returns _ w) (fun _ w₁ _ => ?_) fun e w₁ h => by cases h
  refine .bind (hpromoted w₁) (fun _ w₂ h₂ => ?_) fun e w₂ h₂ => h₂
  exact .bind (h₂.only hmark) (fun _ w₃ h₃ => h₃) fun e w₃ h₃ => h₃

/-! ## The job -/

/-- If at most one call failed, records and files agree unless it was the update to COMPLETED. -/
def Settled (host : BackupHost) (jobId : JsString) (w : BackupWorld) : Prop :=
  w.failed.length ≤ 1 → ((HasArtifact w jobId ↔ HasFiles host w jobId) ↔ ¬ CompletionLost w jobId)

/-- A job without artifact and files, whose update to COMPLETED did not fail. -/
structure Fresh (host : BackupHost) (jobId : JsString) (w : BackupWorld) : Prop where
  artifact : ¬ HasArtifact w jobId
  files : ¬ HasFiles host w jobId
  lost : ¬ CompletionLost w jobId

/-- A job without artifact and files is settled. -/
theorem Fresh.settled (h : Fresh host jobId w) : Settled host jobId w := fun _ =>
  iff_of_true (iff_of_false h.artifact h.files) h.lost

/-- Where no file is touched none is made. -/
theorem JobFrame.hasFiles (h : JobFrame jobId (fun _ => False) w w') (hfiles : HasFiles host w' jobId) :
    HasFiles host w jobId := by
  obtain ⟨config, destination, directory, startedAt, hconfig, hdestination, hdirectory, hbundle⟩ :=
    hfiles
  rw [h.config] at hconfig
  rw [BackupWorld.destination, h.destinations] at hdestination
  exact ⟨config, destination, directory, startedAt, hconfig, hdestination, hdirectory,
    h.hasBundle (fun _ _ => id) hbundle⟩

/-- A job that keeps everything outside these files stays fresh. -/
theorem Fresh.kept (h : Fresh host jobId w) (hkept : Kept jobId touched w w')
    (hfiles : HasFiles host w' jobId → HasFiles host w jobId) : Fresh host jobId w' :=
  ⟨fun hartifact => h.artifact (hkept.hasArtifact.mp hartifact), fun h' => h.files (hfiles h'),
    fun hlost => h.lost (hkept.lost.mp hlost)⟩

section

variable {part : Backup α} (h : Fresh host jobId w) (hpart : part.Only (Tame host jobId touched))
  (hclear : ∀ w', JobFrame jobId touched w w' → HasFiles host w' jobId → HasFiles host w jobId)
include h hpart hclear

/-- A part of the job that makes none of its files and is the last one. -/
theorem Fresh.settles : part.Ensures (backupHandler host) (fun _ => Settled host jobId) w :=
  (kept_of_only hpart).mono fun _ w' hkept => (h.kept hkept (hclear w' hkept.toJobFrame)).settled

/-- A part of the job before its files are named, and what follows it. -/
theorem guarded_settled {rest : α → Backup BackupJobExecutionResult}
    (hclean : ∀ e, (cleanUp jobId locals e).Only (Tame host jobId touched))
    (hrest : ∀ a w', Kept jobId touched w w' → Fresh host jobId w' →
      (rest a).Ensures (backupHandler host) (fun _ => Settled host jobId) w') :
    (guarded jobId locals part rest).Ensures (backupHandler host) (fun _ => Settled host jobId) w := by
  refine .bindAttempt (kept_of_only hpart) fun r w₁ h₁ => ?_
  cases r with
  | ok a => exact hrest a w₁ h₁ (h.kept h₁ (hclear w₁ h₁.toJobFrame))
  | error e =>
    refine (kept_of_only (hclean e)).mono fun _ w₂ h₂ => ?_
    have hkept := h₁.trans h₂
    exact (h.kept hkept (hclear w₂ hkept.toJobFrame)).settled

end

/-- What the `catch` block reads once the bundle is named. -/
structure Named (locals : JobLocals) (staging storage bundle : JsString) : Prop where
  staging : locals.stagingDirectory = some staging
  storage : locals.targetStorageDir = some storage
  bundle : locals.bundleFileName = some bundle

/-- The status does not matter there. -/
theorem Named.withStatus (h : Named locals staging storage bundle) (status : BackupJobStatus) :
    Named { locals with currentStatus := status } staging storage bundle :=
  ⟨h.staging, h.storage, h.bundle⟩

/-- The `catch` block keeps all but the job's files, and leaves no complete bundle. -/
theorem cleanUp_ensures (hlocals : Named locals staging storage bundle) (e : BackupFailure)
    (w : BackupWorld) :
    (cleanUp jobId locals e).Ensures (backupHandler host)
      (fun _ w' => Kept jobId (JobFile host staging storage bundle) w w' ∧
        Gone host storage bundle 3 w') w := by
  have htame : (cleanUp jobId locals e).Only
      (Tame host jobId (JobFile host staging storage bundle)) := by
    refine cleanUp_tame e ?_ ?_
    · intro directory hdirectory file hbelow
      rw [hlocals.staging] at hdirectory
      cases hdirectory
      exact .inl hbelow
    · intro directory bundle' hdirectory hbundle' path hpath
      rw [hlocals.storage] at hdirectory
      cases hdirectory
      rw [hlocals.bundle] at hbundle'
      cases hbundle'
      exact .inr ⟨path, hpath, rfl⟩
  exact (kept_of_only htame).and (cleanUp_gone hlocals.storage hlocals.bundle e w)

section Job

variable {record : JobRecord} {destination : BackupDestination}
  {staging : JsString} {startedAt : ℤ}
  (places : Places host destination record.config.application.name record.job.id staging storage)
  (hbundle : bundle = bundleFileName record.config.application.name startedAt record.job.id)
  (known : Known w record.job.id record.config destination)
include places known

/-- Files of a bundle that are not in the staging directory are not touched there. -/
theorem Places.hasFiles_of_staging (h : JobFrame record.job.id (Below host staging) w w')
    (hfiles : HasFiles host w' record.job.id) : HasFiles host w record.job.id := by
  obtain ⟨directory, startedAt, hdirectory, hstored⟩ := (h.known known).hasFiles_iff.mp hfiles
  obtain rfl := Except.ok.inj (places.storage.symm.trans hdirectory)
  refine known.hasFiles_iff.mpr ⟨storage, startedAt, hdirectory, h.hasBundle (fun path hpath => ?_)
    hstored⟩
  obtain ⟨name, hname, rfl⟩ := mem_artifactPaths.mp hpath
  exact places.not_below_stored hname

include hbundle

/-- A job makes the files of its own bundle only. -/
theorem Places.hasFiles_of_jobFile
    (h : JobFrame record.job.id (JobFile host staging storage bundle) w w')
    (hmissing : ¬ HasBundle host w' storage bundle) (hfiles : HasFiles host w' record.job.id) :
    HasFiles host w record.job.id := by
  obtain ⟨directory, startedAt', hdirectory, hstored⟩ := (h.known known).hasFiles_iff.mp hfiles
  obtain rfl := Except.ok.inj (places.storage.symm.trans hdirectory)
  -- A bundle with another name shares no file with this one.
  have hother : bundleFileName record.config.application.name startedAt' record.job.id ≠ bundle := by
    intro heq
    rw [heq] at hstored
    exact hmissing hstored
  refine known.hasFiles_iff.mpr ⟨storage, startedAt', hdirectory, h.hasBundle (fun path hpath => ?_)
    hstored⟩
  obtain ⟨name, hname, rfl⟩ := mem_artifactPaths.mp hpath
  rintro (hbelow | ⟨path', hpath', heq⟩)
  · exact places.not_below_stored hname hbelow
  obtain ⟨name', hname', rfl⟩ := mem_artifactPaths.mp hpath'
  rw [hbundle] at hname' hother
  rw [places.location_stored hname, places.location_stored hname'] at heq
  have hnames : name = name' := by simpa using heq
  rw [hnames] at hname
  exact hother (bundleFileName_eq_of_mem hname hname')

section

variable (hfresh : Fresh host record.job.id w) (hlocals : Named locals staging storage bundle)
include hfresh hlocals

/-- The `catch` block of a job that has not recorded its artifact. -/
theorem Places.cleanUp_settled (e : BackupFailure) {w₁ : BackupWorld}
    (hkept : Kept record.job.id (JobFile host staging storage bundle) w w₁) :
    (cleanUp record.job.id locals e).Ensures (backupHandler host)
      (fun _ => Settled host record.job.id) w₁ := by
  refine (cleanUp_ensures hlocals e w₁).mono ?_
  rintro _ w₂ ⟨h₂, hgone⟩ hone
  have hmissing : ¬ HasBundle host w₂ storage bundle := hgone.resolve_right (by omega)
  have hkept₂ := hkept.trans h₂
  have hfiles := places.hasFiles_of_jobFile hbundle known hkept₂.toJobFrame hmissing
  exact (hfresh.kept hkept₂ hfiles).settled hone

/-- COMPLETED. If the update fails the artifact stays and its files are removed. -/
theorem Places.complete_settled {w₁ : BackupWorld}
    (hrecorded : Recorded host record.job.id (JobFile host staging storage bundle) storage bundle
      w w₁) (result : BackupJobExecutionResult) :
    (guarded record.job.id locals (complete record.job.id) fun _ => pure result).Ensures
      (backupHandler host) (fun _ => Settled host record.job.id) w₁ := by
  have known₁ := hrecorded.known known
  have hsome : jobConfig w₁ record.job.id ≠ none := by
    rw [known₁.jobConfig_eq]
    exact Option.some_ne_none _
  refine .bindAttempt (complete_ensures host hsome (JobFile host staging storage bundle))
    fun r w₂ h₂ => ?_
  obtain ⟨hframe, hartifacts, hfiles, hok, herror⟩ := h₂
  have hartifact : HasArtifact w₂ record.job.id := by
    unfold HasArtifact
    rw [hartifacts]
    exact hrecorded.artifact
  cases r with
  | ok _ =>
    have hlost : ¬ CompletionLost w₂ record.job.id := by
      rw [hok rfl, hrecorded.lost]
      exact hfresh.lost
    have hstored : HasFiles host w₂ record.job.id := by
      refine (hframe.known known₁).hasFiles_iff.mpr ⟨storage, startedAt, places.storage, ?_⟩
      rw [← hbundle, HasBundle, hfiles]
      exact hrecorded.bundle
    exact fun _ => iff_of_true (iff_of_true hartifact hstored) hlost
  -- the clean-up removes the files that the artifact names
  | error e =>
    have hlost := herror e rfl
    refine (cleanUp_ensures hlocals e w₂).mono ?_
    rintro _ w₃ ⟨h₃, hgone⟩ hone
    have hmissing : ¬ HasBundle host w₃ storage bundle := hgone.resolve_right (by omega)
    have hnone : ¬ HasFiles host w₃ record.job.id := fun hall =>
      hfresh.files (places.hasFiles_of_jobFile hbundle known
        ((hrecorded.toJobFrame.trans hframe).trans h₃.toJobFrame) hmissing hall)
    refine iff_of_false (fun hiff => hnone (hiff.mp (h₃.hasArtifact.mpr hartifact))) ?_
    exact not_not_intro (h₃.lost.mpr hlost)

/-- The phases from CAPTURING on. -/
theorem Places.captureAndStore_settled :
    (captureAndStore host record destination staging storage bundle locals).Ensures
      (backupHandler host) (fun _ => Settled host record.job.id) w := by
  have hclean : ∀ (status : BackupJobStatus) (e : BackupFailure) (w₁ : BackupWorld),
      Kept record.job.id (JobFile host staging storage bundle) w w₁ →
      (cleanUp record.job.id { locals with currentStatus := status } e).Ensures (backupHandler host)
        (fun _ => Settled host record.job.id) w₁ := fun status e _ hkept =>
    places.cleanUp_settled hbundle known hfresh (hlocals.withStatus status) e hkept
  obtain ⟨rest, hcapture, hrest⟩ := captureBundle_calls (places.staged hbundle) host record
  have hphase : (captureBundle host record staging bundle).Only
      (Tame host record.job.id (JobFile host staging storage bundle)) := by
    rw [hcapture]
    exact .bind (Task.Only.perform (tame_updateJob nofun)) fun _ => hrest
  unfold captureAndStore
  unfold guardedTransition
  split
  case h_2 e _ => exact hclean locals.currentStatus e w (.refl _ _ w)
  -- each phase that fails runs into the same clean-up
  refine .bindAttempt (kept_of_only hphase) fun r w₁ h₁ => ?_
  cases r with
  | error e => exact hclean _ e w₁ h₁
  | ok _ =>
    dsimp only
    split
    case h_2 e _ => exact hclean _ e w₁ h₁
    rename_i status hverifying
    obtain ⟨rfl, -⟩ := transitionBackupJobStatus_eq_ok hverifying
    refine .bindAttempt (places.verifyAndPromote_ensures hbundle w₁) fun r w₂ h₂ => ?_
    cases r with
    | error e => exact hclean _ e w₂ (h₁.trans (h₂.1 e rfl))
    | ok artifact =>
      have hrecorded := h₁.recorded (h₂.2 artifact rfl)
      have hcompleted : transitionBackupJobStatus .verifying .completed = .ok .completed := rfl
      rw [hcompleted]
      exact places.complete_settled hbundle known hfresh (hlocals.withStatus _) hrecorded _

end

end Job

variable {record : JobRecord}

/-- The `try` block. -/
theorem runJob_settled {destination : BackupDestination} (hid : unit '/' ∉ record.job.id)
    (known : Known w record.job.id record.config destination) (hfresh : Fresh host record.job.id w) :
    (runJob host record destination).Ensures (backupHandler host)
      (fun _ => Settled host record.job.id) w := by
  refine .bindRead (fun _ _ _ => now_exec) fun startedAt => ?_
  -- Before the directories are known no file is touched.
  have huntouched : ∀ w w', JobFrame record.job.id (fun _ => False) w w' →
      HasFiles host w' record.job.id → HasFiles host w record.job.id := fun _ _ => JobFrame.hasFiles
  have hclean : ∀ status e, (cleanUp record.job.id { currentStatus := status } e).Only
      (Tame host record.job.id fun _ => False) := fun status e =>
    cleanUp_tame e (fun _ h => by cases h) fun _ _ h => by cases h
  have hstart : (startJob record.job.id destination startedAt).Only
      (Tame host record.job.id fun _ => False) :=
    .bind (Task.Only.perform (tame_updateJob nofun)) fun _ =>
      .bind (Task.Only.perform (tame_of_isQuiet rfl)) fun _ => .ite .throw .pure
  unfold guardedTransition
  split
  case h_2 e _ => exact hfresh.settles (hclean _ e) (huntouched w)
  refine guarded_settled hfresh hstart (huntouched w) (hclean _) fun _ w₂ h₂ hfresh₂ => ?_
  have known₂ := h₂.known known
  split
  case h_1 e hstaging => exact hfresh₂.settles (hclean _ e) (huntouched w₂)
  case h_2 staging hstaging =>
    have hcleanStaging : ∀ locals : JobLocals, locals.stagingDirectory = some staging →
        locals.bundleFileName = none → ∀ e, (cleanUp record.job.id locals e).Only
          (Tame host record.job.id (Below host staging)) := by
      intro locals hlocals hunnamed e
      refine cleanUp_tame e (fun directory hdirectory => ?_) fun _ bundle _ hname => ?_
      · rw [hlocals] at hdirectory
        cases hdirectory
        exact fun _ hbelow => hbelow
      · rw [hunnamed] at hname
        cases hname
    split
    case h_1 e hstorage =>
      refine hfresh₂.settles (hcleanStaging _ rfl rfl e) fun w₃ h₃ hfiles => ?_
      -- Without a storage directory there are no files of the job.
      obtain ⟨directory, _, hdirectory, -⟩ := (h₃.known known₂).hasFiles_iff.mp hfiles
      cases hstorage.symm.trans hdirectory
    case h_2 storage hstorage =>
      have places : Places host destination record.config.application.name record.job.id staging
          storage := ⟨hid, hstaging, hstorage⟩
      have hmkdir : (call (.mkdir staging)).Only (Tame host record.job.id (Below host staging)) :=
        Task.Only.perform (tame_of_isQuiet rfl)
      refine guarded_settled hfresh₂ hmkdir
        (fun w' => places.hasFiles_of_staging known₂) (hcleanStaging _ rfl rfl) ?_
      intro _ w₃ h₃ hfresh₃
      exact places.captureAndStore_settled rfl (h₃.known known₂) hfresh₃ ⟨rfl, rfl, rfl⟩

/-- The job that is loaded comes with its configuration. -/
theorem jobConfig_of_findJob
    (h : (findJob jobId).succeed host w choice = some (.ok (some record), w')) :
    w' = w ∧ jobConfig w jobId = some record.config := by
  cases choice <;> try cases h
  rw [succeed] at h
  unfold jobConfig
  split at h
  · cases h
  · rename_i job hjob
    obtain ⟨config, hconfig, hrecord⟩ := Option.map_eq_some_iff.mp h
    cases hrecord
    exact ⟨rfl, by rw [hjob, Option.bind_some, hconfig]⟩

/-- A query leaves the world as it is, but for the list of failed calls. -/
theorem tame_findJob : Tame host jobId (fun _ => False) (.findJob jobId) :=
  ⟨(by cases ·), (by cases ·), fun _ h => h⟩

/-- A whole job leaves artifact and files together, unless its completion is lost. -/
theorem executeBackupJob_settled (hid : unit '/' ∉ jobId) (hfresh : Fresh host jobId w) :
    (executeBackupJob host jobId).Ensures (backupHandler host) (fun _ => Settled host jobId) w := by
  have hfind : (call (.findJob jobId)).Ensures (backupHandler host) (fun r w' =>
      Fresh host jobId w' ∧ ∀ record, r = .ok (some record) → record.job.id = jobId ∧
        jobConfig w' jobId = some record.config ∧
        record.destination = w'.destination record.config.destinationId) w := by
    refine .perform fun choice r w' hexec => ⟨?_, fun record hr => ?_⟩
    · have hkept := tame_findJob.kept hexec
      exact hfresh.kept hkept hkept.hasFiles
    rw [hr] at hexec
    obtain ⟨e, -, he, -⟩ | hsucceed := exec_cases hexec
    · cases he
    · obtain ⟨-, hjob, -, hdestination⟩ := findJob_succeed hsucceed
      obtain ⟨hw, hconfig⟩ := jobConfig_of_findJob hsucceed
      rw [hw]
      exact ⟨hjob, hconfig, hdestination⟩
  refine .bind hfind ?_ fun e w₁ h => h.1.settled
  rintro found w₁ ⟨hfresh₁, hfound⟩
  cases found with
  | none => exact hfresh₁.settled
  | some record =>
    obtain ⟨rfl, hconfig, hdestination⟩ := hfound record rfl
    dsimp only
    split
    · exact hfresh₁.settled
    rename_i destination hsome
    rw [hsome] at hdestination
    split_ifs
    · exact hfresh₁.settled
    · cases hresolve : host.resolveProvider destination with
      | error e => exact hfresh₁.settled
      | ok _ => exact runJob_settled hid ⟨hconfig, hdestination.symm⟩ hfresh₁

/-! ## Records and files -/

/-- A queued job with one source of files. -/
def fileJob : BackupWorld :=
  { BackupWorld.empty with
    configs := [{ configOf "app" with sources :=
      [⟨.persistentFiles, js "data", none, none, none, none, none, none, some (js "/data"), none,
        false⟩] }]
    destinations := [⟨js "app", js "app", .localFilesystem, js "/backup", true⟩]
    jobs := [queuedJob "app" 0] }

/-- The answers that the job is given up to its last update. -/
def fileJobAnswers : List BackupChoice :=
  [.done, .number 0, .done, .health ⟨true, none, none⟩, .done, .done, .created (js "task") 0,
    .files [⟨js "/data/a", js "a", 1, false⟩], .done, .done, .done, .done, .done, .done,
    .summary ⟨true, none⟩, .number 1, .done, .health ⟨true, none, none⟩, .done, .done, .done, .done,
    .done, .created (js "artifact") 1, .number 2]

/-- The job has not left anything yet. -/
theorem fileJob_fresh : Fresh .plain (js "app") fileJob where
  artifact h := by
    obtain ⟨artifact, hmem, -⟩ := h
    cases hmem
  files h := by
    obtain ⟨config, destination, directory, startedAt, -, -, -, hbundle⟩ := h
    exact hbundle _ mem_cons_self rfl
  lost := not_completionLost rfl

/-- Whatever the environment answers to a job that has left no artifact and no files, if at most one
call failed there is a verified and retained artifact of the job exactly if its three files are in
the storage directory, unless the call that failed is the update to COMPLETED. A second execution of
a job that was promoted is not meant: the files of the first are there then. -/
theorem artifact_iff_files {host : BackupHost} {jobId : JsString} {w w' : BackupWorld}
    {choices rest : List BackupChoice} {r : Except BackupFailure BackupJobExecutionResult}
    (hid : unit '/' ∉ jobId) (hartifact : ¬ HasArtifact w jobId) (hfiles : ¬ HasFiles host w jobId)
    (hfailed : w.failed = [])
    (heval : (executeBackupJob host jobId).eval (backupHandler host) w choices = some (r, w', rest))
    (hone : w'.failed.length ≤ 1) :
    (HasArtifact w' jobId ↔ HasFiles host w' jobId) ↔ ¬ CompletionLost w' jobId := by
  have hfresh : Fresh host jobId w := ⟨hartifact, hfiles, not_completionLost hfailed⟩
  exact (executeBackupJob_settled hid hfresh).eval heval hone

/-- A job whose calls all succeed has its artifact and its files. -/
theorem artifact_iff_files_succeeds :
    ∃ r w', (executeBackupJob .plain (js "app")).eval (backupHandler .plain) fileJob
        (fileJobAnswers ++ [.done]) = some (r, w', []) ∧
      HasArtifact w' (js "app") ∧ HasFiles .plain w' (js "app") := by
  have hrun : ((executeBackupJob .plain (js "app")).eval (backupHandler .plain) fileJob
      (fileJobAnswers ++ [.done])).map
        (fun o => (o.2.1.failed, o.2.1.artifacts.map fun a => (a.jobId, a.counts), o.2.2)) =
      some ([], [(js "app", true)], []) := by decide +kernel
  obtain ⟨⟨r, w', rest⟩, heval, hw⟩ := Option.map_eq_some_iff.mp hrun
  simp only [Prod.mk.injEq] at hw
  obtain ⟨hfailed, hartifacts, rfl⟩ := hw
  have hartifact : HasArtifact w' (js "app") := hasArtifact_of_rows hartifacts
  have hlost : ¬ CompletionLost w' (js "app") := not_completionLost hfailed
  have hiff := (artifact_iff_files (by decide) fileJob_fresh.artifact fileJob_fresh.files rfl heval
    (by rw [hfailed]; decide)).mpr hlost
  exact ⟨r, w', heval, hartifact, hiff.mp hartifact⟩

/-- If only the update to COMPLETED fails, the artifact is recorded and its files are removed. -/
theorem lost_completion_removes_files :
    ∃ choices r w', ¬ HasArtifact fileJob (js "app") ∧ ¬ HasFiles .plain fileJob (js "app") ∧
      (executeBackupJob .plain (js "app")).eval (backupHandler .plain) fileJob choices =
        some (r, w', []) ∧
      w'.failed.length = 1 ∧ HasArtifact w' (js "app") ∧ ¬ HasFiles .plain w' (js "app") := by
  have hrun : ((executeBackupJob .plain (js "app")).eval (backupHandler .plain) fileJob
      (fileJobAnswers ++ [.fail (constraintError "P1001"), .done, .done, .done, .done, .number 3,
        .done])).map
        (fun o => (o.2.1.failed, o.2.1.artifacts.map fun a => (a.jobId, a.counts), o.2.2)) =
      some ([.updateJob (js "app") { status := .completed, completedAt := some 2 }],
        [(js "app", true)], []) := by decide +kernel
  obtain ⟨⟨r, w', rest⟩, heval, hw⟩ := Option.map_eq_some_iff.mp hrun
  simp only [Prod.mk.injEq] at hw
  obtain ⟨hfailed, hartifacts, rfl⟩ := hw
  have hartifact : HasArtifact w' (js "app") := hasArtifact_of_rows hartifacts
  have hlost : CompletionLost w' (js "app") :=
    ⟨_, rfl, by rw [hfailed]; exact mem_cons_self⟩
  have hsettled := (executeBackupJob_settled (by decide) fileJob_fresh).eval heval
    (by rw [hfailed]; decide)
  refine ⟨_, r, w', fileJob_fresh.artifact, fileJob_fresh.files, heval, by rw [hfailed]; rfl,
    hartifact, fun hstored => ?_⟩
  exact hsettled.mp (iff_of_true hartifact hstored) hlost

end ZimaControl
