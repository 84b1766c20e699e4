import Mathlib.Data.List.Perm.Subperm
import Mathlib.Data.List.Nodup
import Mathlib.Data.List.Sort
import ZimaControl.Backup.Retention
import ZimaControl.Backup.Frames

/-!
# What a retention pass leaves alone

A pass may fail anywhere: a destination is not available, a file cannot be removed, a preflight
check throws. `Loop` is the invariant of the loop over the candidates: the rows that were marked are
those of the state, and their files are gone; a file that changed is gone and is one of a candidate
without an active job; and the counter is the number of rows left. One candidate keeps it
(`pruneCandidate_ensures`), and `retention_spares` reads off what the whole pass has done, whether
it returns or throws.

The files of an artifact are named by its destination and its bundle. Two destinations may have the
same base path, so two artifacts with one bundle name may share their files
(`shared_base_path_loses_newest`); the theorem assumes that they do not.
-/

namespace ZimaControl

open List Posix

/-! ## Unlinking -/

/-- A file that is there is reported as missing. -/
def isSpurious : BackupCall → BackupChoice → Bool
  | .unlink _, .fail e => e.code = some (js "ENOENT")
  | _, _ => false

/-- The handler of a pass: the database does not fail, and what is reported as missing is missing.
-/
def retentionHandler (host : BackupHost) :
    Handler BackupCall BackupCall.Answer BackupFailure BackupWorld BackupChoice :=
  fun w c choice => if isSpurious c choice then none else databaseHandler host w c choice

variable {host : BackupHost} {w w' w'' : BackupWorld} {c : BackupCall}

/-- The world of a retention pass answers as one that may fail. -/
theorem exec_of_retentionHandler {choice : BackupChoice} {r : Except BackupFailure c.Answer}
    (h : retentionHandler host w c choice = some (r, w')) :
    isSpurious c choice = false ∧ c.exec host w choice = some (r, w') := by
  unfold retentionHandler at h
  split_ifs at h with hspurious
  exact ⟨by simpa using hspurious, exec_of_databaseHandler h⟩

/-- Some of the files are gone, and nothing else has changed. -/
structure Unlinks (gone : List (List JsString)) (w w' : BackupWorld) : Prop where
  frame : BackupFrame (some .files) w w'
  files : ∀ file, w'.files file = w.files file ∨ w'.files file = none ∧ file ∈ gone

variable {gone gone' : List (List JsString)}

/-- Nothing is gone. -/
theorem Unlinks.refl (gone : List (List JsString)) (w : BackupWorld) : Unlinks gone w w :=
  ⟨.refl _ _, fun _ => .inl rfl⟩

/-- More files may be gone. -/
theorem Unlinks.mono (h : Unlinks gone w w') (hsub : gone ⊆ gone') : Unlinks gone' w w' :=
  ⟨h.frame, fun file => (h.files file).imp_right fun hfile => ⟨hfile.1, hsub hfile.2⟩⟩

/-- What is gone stays so. -/
theorem Unlinks.absent (h : Unlinks gone w w') {file : List JsString} (hfile : w.files file = none) :
    w'.files file = none := by
  obtain hsame | ⟨hgone, -⟩ := h.files file
  · rw [hsame, hfile]
  · exact hgone

/-- One removal after the other. -/
theorem Unlinks.trans (h : Unlinks gone w w') (h' : Unlinks gone w' w'') : Unlinks gone w w'' where
  frame :=
    { applications := h'.frame.applications.trans h.frame.applications
      configs := h'.frame.configs.trans h.frame.configs
      destinations := h'.frame.destinations.trans h.frame.destinations
      jobs := fun hne => (h'.frame.jobs hne).trans (h.frame.jobs hne)
      artifacts := fun hne => (h'.frame.artifacts hne).trans (h.frame.artifacts hne)
      files := fun hne => absurd rfl hne }
  files file := by
    obtain hsame | hgone := h'.files file
    · rw [hsame]
      exact h.files file
    · exact .inr hgone

/-- A file that may be gone already is gone, unless its removal throws. -/
theorem unlinkIfPresent_ensures (path : JsString) (w : BackupWorld) :
    (unlinkIfPresent path).Ensures (retentionHandler host)
      (fun r w' => Unlinks [location host.cwd path] w w' ∧
        (r = .ok () → w'.files (location host.cwd path) = none)) w := by
  have hcall : (call (.unlink path)).Ensures (retentionHandler host)
      (fun r w' => Unlinks [location host.cwd path] w w' ∧
        ((∀ e, r = .error e → e.code = some (js "ENOENT")) →
          w'.files (location host.cwd path) = none)) w := by
    refine .perform fun choice r w' h => ?_
    obtain ⟨hspurious, hexec⟩ := exec_of_retentionHandler h
    refine ⟨⟨frame_of_exec hexec, fun file => ?_⟩, fun hr => ?_⟩
    · obtain hsame | ⟨hwrites, -⟩ | ⟨hfile, hgone⟩ := file_cases hexec file
      · exact .inl hsame
      · exact hwrites.elim
      · exact .inr ⟨hgone, mem_singleton.mpr hfile⟩
    · obtain ⟨e, hchoice, hr', -⟩ | hgone := unlink_exec hexec
      · -- A failure of another kind: its code is not the one of a missing file.
        rw [hchoice] at hspurious
        exact absurd (hr e hr') (of_decide_eq_false hspurious)
      · exact hgone
  refine .tryCatch hcall (fun a w' h => ⟨h.1, fun _ => h.2 fun e he => by cases he⟩)
    fun e w' h => ?_
  split_ifs with hcode
  · exact ⟨h.1, fun hr => by cases hr⟩
  · refine ⟨h.1, fun _ => h.2 fun e' he => ?_⟩
    cases he
    exact not_not.mp hcode

/-- The locations of paths. -/
def locations (host : BackupHost) (paths : List JsString) : List (List JsString) :=
  paths.map (location host.cwd)

/-- The files of an artifact are gone, unless the removal of one of them throws. -/
theorem deleteFiles_ensures (paths : List JsString) (w : BackupWorld) :
    (deleteFiles paths).Ensures (retentionHandler host)
      (fun r w' => Unlinks (locations host paths) w w' ∧
        (r = .ok () → ∀ file ∈ locations host paths, w'.files file = none)) w := by
  induction paths generalizing w with
  | nil => exact ⟨.refl _ _, fun _ file hfile => by cases hfile⟩
  | cons path rest ih =>
    refine .bind (unlinkIfPresent_ensures path w) (fun a w₁ h₁ => ?_) fun e w₁ h₁ => ?_
    · refine (ih w₁).mono fun r w₂ h₂ => ⟨?_, fun hr file hfile => ?_⟩
      · exact (h₁.1.mono (by simp [locations])).trans (h₂.1.mono (subset_cons_self _ _))
      · obtain rfl | hrest := mem_cons.mp hfile
        · exact h₂.1.absent (h₁.2 rfl)
        · exact h₂.2 hr file hrest
    · exact ⟨h₁.1.mono (by simp [locations]), fun hr => by cases hr⟩

/-! ## The rows and files of a pass -/

/-- The row of an artifact behind a pass that marked the given artifacts. -/
def IsMarked (pruned : List JsString) (a a' : BackupArtifact) : Prop :=
  if a.id ∈ pruned then ∃ prunedAt, a' = { a with isRetained := false, prunedAt := some prunedAt }
  else a' = a

/-- A row keeps its identifier and its application. -/
theorem IsMarked.id_eq {pruned : List JsString} {a a' : BackupArtifact} (h : IsMarked pruned a a') :
    a'.id = a.id ∧ a'.applicationId = a.applicationId := by
  unfold IsMarked at h
  split_ifs at h
  · obtain ⟨prunedAt, rfl⟩ := h
    exact ⟨rfl, rfl⟩
  · rw [h]
    exact ⟨rfl, rfl⟩

/-- What a pass has done so far: the artifacts in the list are marked, and their files are gone; the
files that changed are gone, and belong to artifacts that may be pruned. -/
structure Progress (files : BackupArtifact → List (List JsString)) (MayPrune : BackupArtifact → Prop)
    (w w' : BackupWorld) (pruned : List JsString) : Prop where
  applications : w'.applications = w.applications
  configs : w'.configs = w.configs
  destinations : w'.destinations = w.destinations
  jobs : w'.jobs = w.jobs
  rows : List.Forall₂ (IsMarked pruned) w.artifacts w'.artifacts
  removed : ∀ file, w'.files file = w.files file ∨
    w'.files file = none ∧ ∃ a, MayPrune a ∧ file ∈ files a
  gone : ∀ a ∈ w.artifacts, a.id ∈ pruned →
    MayPrune a ∧ (files a).length = 3 ∧ ∀ file ∈ files a, w'.files file = none

variable {files : BackupArtifact → List (List JsString)} {MayPrune : BackupArtifact → Prop}
  {pruned : List JsString} {a : BackupArtifact}

/-- Nothing is done yet. -/
theorem Progress.refl (w : BackupWorld) : Progress files MayPrune w w [] where
  applications := rfl
  configs := rfl
  destinations := rfl
  jobs := rfl
  rows := forall₂_same.mpr fun a _ => by
    unfold IsMarked
    rw [if_neg not_mem_nil]
  removed _ := .inl rfl
  gone a _ hmem := by cases hmem

section

variable (h : Progress files MayPrune w w' pruned)
include h

/-- A call that changes neither rows nor files. -/
theorem Progress.frame {table : Option BackupTable} (hframe : BackupFrame table w' w'')
    (hjobs : table ≠ some .jobs) (hartifacts : table ≠ some .artifacts)
    (hfiles : table ≠ some .files) : Progress files MayPrune w w'' pruned where
  applications := hframe.applications.trans h.applications
  configs := hframe.configs.trans h.configs
  destinations := hframe.destinations.trans h.destinations
  jobs := (hframe.jobs hjobs).trans h.jobs
  rows := by rw [hframe.artifacts hartifacts]; exact h.rows
  removed := by rw [hframe.files hfiles]; exact h.removed
  gone := by rw [hframe.files hfiles]; exact h.gone

/-- Some files of an artifact that may be pruned are removed. -/
theorem Progress.unlinks (hunlinks : Unlinks (files a) w' w'') (ha : MayPrune a) :
    Progress files MayPrune w w'' pruned where
  applications := hunlinks.frame.applications.trans h.applications
  configs := hunlinks.frame.configs.trans h.configs
  destinations := hunlinks.frame.destinations.trans h.destinations
  jobs := (hunlinks.frame.jobs (by decide)).trans h.jobs
  rows := by rw [hunlinks.frame.artifacts (by decide)]; exact h.rows
  removed file := by
    obtain hsame | ⟨hgone, hfile⟩ := hunlinks.files file
    · rw [hsame]
      exact h.removed file
    · exact .inr ⟨hgone, a, ha, hfile⟩
  gone b hb hpruned := by
    obtain ⟨hmay, hlength, hgone⟩ := h.gone b hb hpruned
    exact ⟨hmay, hlength, fun file hfile => hunlinks.absent (hgone file hfile)⟩

/-- The identifiers do not change. -/
theorem Progress.ids : w'.artifacts.map (·.id) = w.artifacts.map (·.id) := by
  have hids : List.Forall₂ (· = ·) (w'.artifacts.map (·.id)) (w.artifacts.map (·.id)) := by
    rw [forall₂_map_left_iff, forall₂_map_right_iff]
    exact h.rows.flip.imp fun b' b hrow => (IsMarked.id_eq (a := b) hrow).1
  rwa [forall₂_eq_eq_eq] at hids

/-- The row of an artifact whose files are gone is marked. -/
theorem Progress.mark (hmem : a ∈ w.artifacts) (hids : (w.artifacts.map (·.id)).Nodup)
    (ha : MayPrune a) (hlength : (files a).length = 3)
    (hgone : ∀ file ∈ files a, w'.files file = none) (prunedAt : ℤ) :
    (call (.pruneArtifact a.id prunedAt)).Ensures (retentionHandler host)
      (fun r w'' => r = .ok () ∧ Progress files MayPrune w w'' (pruned ++ [a.id])) w' := by
  refine .perform fun choice r w'' hexec => ?_
  have hfound : (w'.artifacts.any (·.id = a.id)) = true := by
    have hid : a.id ∈ w'.artifacts.map (·.id) := by
      rw [h.ids]
      exact mem_map_of_mem hmem
    obtain ⟨b, hb, hba⟩ := mem_map.mp hid
    exact any_eq_true.mpr ⟨b, hb, by simpa using hba⟩
  have hsucceed : (BackupCall.pruneArtifact a.id prunedAt).succeed host w' choice = some (r, w'') := by
    unfold retentionHandler databaseHandler at hexec
    split_ifs at hexec with _ hdatabase
    · exact hexec
    · exact absurd rfl hdatabase
  cases choice <;> try cases hsucceed
  rw [BackupCall.succeed, if_pos hfound] at hsucceed
  cases hsucceed
  refine ⟨rfl, h.applications, h.configs, h.destinations, h.jobs, ?_, h.removed, ?_⟩
  · rw [forall₂_map_right_iff]
    refine h.rows.imp fun b b' hb => ?_
    rw [hb.id_eq.1]
    unfold IsMarked at hb ⊢
    -- the row of the artifact is marked, the others stay as they were
    by_cases hba : b.id = a.id
    · rw [if_pos hba, if_pos (by rw [hba]; exact mem_append_right _ mem_cons_self)]
      refine ⟨prunedAt, ?_⟩
      split_ifs at hb
      · obtain ⟨earlier, rfl⟩ := hb
        rfl
      · rw [hb]
    · rw [if_neg hba]
      have hiff : b.id ∈ pruned ++ [a.id] ↔ b.id ∈ pruned := by simp [hba]
      simp only [hiff]
      exact hb
  · intro b hb hpruned
    obtain hearlier | hlast := mem_append.mp hpruned
    · exact h.gone b hb hearlier
    · have hba : b = a := inj_on_of_nodup_map hids hb hmem (mem_singleton.mp hlast)
      rw [hba]
      exact ⟨ha, hlength, hgone⟩

end

/-! ## The loop over the candidates -/

/-- The destination directory of an artifact of an application. -/
def artifactDirectory (host : BackupHost) (config : BackupConfig) (configured : BackupDestination)
    (destinations : List BackupDestination) (a : BackupArtifact) : Option JsString :=
  (artifactDestination configured (destinations.filter (·.id ≠ [])) a.destinationId).bind
    fun destination => (host.resolveStorageDirectory destination config.application.name).toOption

/-- The locations of the three files of an artifact. -/
def artifactFiles (host : BackupHost) (config : BackupConfig) (configured : BackupDestination)
    (destinations : List BackupDestination) (a : BackupArtifact) : List (List JsString) :=
  match artifactDirectory host config configured destinations a with
  | some directory => locations host (artifactPaths directory a.bundleFileName)
  | none => []

variable {config : BackupConfig} {configured : BackupDestination}
  {destinations : List BackupDestination} {activeJobIds : List JsString}
  {total : ℕ} {done rest : List BackupArtifact} {state : PruneState}

/-- The invariant of the loop, behind the first candidates. -/
structure Loop (files : BackupArtifact → List (List JsString)) (MayPrune : BackupArtifact → Prop)
    (total : ℕ) (w : BackupWorld) (done : List BackupArtifact) (state : PruneState)
    (w' : BackupWorld) : Prop where
  progress : Progress files MayPrune w w' state.prunedArtifactIds
  sublist : state.prunedArtifactIds.Sublist (done.map (·.id))
  remaining : state.currentRemainingVerified = total - state.prunedArtifactIds.length

/-- A candidate whose row is left as it is. -/
theorem Loop.skip {state' : PruneState} (h : Loop files MayPrune total w done state w')
    (hids : state'.prunedArtifactIds = state.prunedArtifactIds)
    (hremaining : state'.currentRemainingVerified = state.currentRemainingVerified) :
    Loop files MayPrune total w (done ++ [a]) state' w' where
  progress := by rw [hids]; exact h.progress
  sublist := by
    rw [hids, map_append]
    exact h.sublist.trans (sublist_append_left _ _)
  remaining := by rw [hids, hremaining]; exact h.remaining

/-- A candidate whose row is marked. -/
theorem Loop.prune (h : Loop files MayPrune total w done state w')
    (hprogress : Progress files MayPrune w w'' (state.prunedArtifactIds ++ [a.id])) :
    Loop files MayPrune total w (done ++ [a]) (state.prune a) w'' where
  progress := hprogress
  sublist := by
    rw [map_append]
    exact h.sublist.append (List.Sublist.refl _)
  remaining := by
    have hremaining := h.remaining
    rw [PruneState.prune, length_append, length_singleton]
    push_cast
    omega

/-- The invariant holds of the state with which a part of the loop returns, and of some state if it
throws. -/
def LoopEnds (files : BackupArtifact → List (List JsString)) (MayPrune : BackupArtifact → Prop)
    (total : ℕ) (w : BackupWorld) (done : List BackupArtifact) (r : Except BackupFailure PruneState)
    (w' : BackupWorld) : Prop :=
  ∃ state, Loop files MayPrune total w done state w' ∧ ∀ state', r = .ok state' → state' = state

section

variable (h : Loop files MayPrune total w done state w')
include h

/-- A part of the loop that returns. -/
theorem Loop.ends : LoopEnds files MayPrune total w done (.ok state) w' :=
  ⟨state, h, fun state' hstate => by cases hstate; rfl⟩

/-- A candidate that is left alone. -/
theorem Loop.protect (a : BackupArtifact) :
    LoopEnds files MayPrune total w (done ++ [a]) (.ok (state.protect a)) w' :=
  Loop.ends (h.skip rfl rfl)

/-- A candidate that could not be pruned. -/
theorem Loop.report (a : BackupArtifact) (error : JsString) :
    LoopEnds files MayPrune total w (done ++ [a]) (.ok (state.report a error)) w' :=
  Loop.ends (h.skip rfl rfl)

/-- A candidate with which the loop throws. -/
theorem Loop.throws (a : BackupArtifact) (e : BackupFailure) :
    LoopEnds files MayPrune total w (done ++ [a]) (.error e) w' :=
  ⟨state, h.skip rfl rfl, fun state' hstate => by cases hstate⟩

/-- A candidate whose directory is known. -/
theorem pruneFiles_ensures {directory : JsString} (hmem : a ∈ w.artifacts)
    (hids : (w.artifacts.map (·.id)).Nodup) (ha : MayPrune a)
    (hfiles : files a = locations host (artifactPaths directory a.bundleFileName)) :
    (pruneFiles host directory state a).Ensures (retentionHandler host)
      (LoopEnds files MayPrune total w (done ++ [a])) w' := by
  unfold pruneFiles
  dsimp only
  split_ifs
  · exact h.report a _
  · exact h.report a _
  refine .bindAttempt (deleteFiles_ensures _ w') fun r w₁ h₁ => ?_
  rw [← hfiles] at h₁
  have hprogress := h.progress.unlinks h₁.1 ha
  cases r with
  | error e =>
    have hloop : Loop files MayPrune total w done state w₁ := ⟨hprogress, h.sublist, h.remaining⟩
    exact hloop.report a _
  | ok _ =>
    refine .bindRead (fun _ _ _ h => now_exec (exec_of_retentionHandler h).2) fun prunedAt => ?_
    have hlength : (files a).length = 3 := by
      rw [hfiles]
      rfl
    refine .bind (hprogress.mark hmem hids ha hlength (h₁.2 rfl) prunedAt)
      (fun _ w₃ h₃ => (h.prune h₃.2).ends) fun e w₃ h₃ => by cases h₃.1

/-- One candidate keeps the invariant, whatever the environment chooses. -/
theorem pruneCandidate_ensures (hmem : a ∈ w.artifacts) (hids : (w.artifacts.map (·.id)).Nodup)
    (ha : a.jobId ∉ activeJobIds → MayPrune a) (hfiles : ∀ destination directory,
      artifactDestination configured destinations a.destinationId = some destination →
      host.resolveStorageDirectory destination config.application.name = .ok directory →
      files a = locations host (artifactPaths directory a.bundleFileName)) :
    (pruneCandidate host config configured destinations activeJobIds state a).Ensures
      (retentionHandler host) (LoopEnds files MayPrune total w (done ++ [a])) w' := by
  unfold pruneCandidate
  split_ifs with hactive hlast
  · exact h.protect a
  · exact h.protect a
  cases hdestination : artifactDestination configured destinations a.destinationId with
  | none => exact h.report a _
  | some destination =>
    dsimp only
    cases hprovider : host.resolveProvider destination with
    | error err => exact h.report a _
    | ok provider =>
      have hpreflight : (call (.preflight destination)).Ensures (retentionHandler host)
          (fun _ w₁ => Loop files MayPrune total w done state w₁) w' := by
        refine .perform fun choice r w₁ hexec => ?_
        have hframe : BackupFrame none w' w₁ :=
          frame_of_exec (exec_of_retentionHandler hexec).2
        exact ⟨h.progress.frame hframe (by decide) (by decide) (by decide), h.sublist, h.remaining⟩
      refine .bind hpreflight (fun health w₁ h₁ => ?_) fun e w₁ h₁ =>
        h₁.throws a e
      -- a destination that is not available is reported, and its artifacts stay
      by_cases hhealth : health.isAvailable = false
      · rw [if_pos hhealth]
        exact h₁.report a _
      rw [if_neg hhealth]
      cases hdirectory : host.resolveStorageDirectory destination config.application.name with
      | error e => exact h₁.throws a e
      | ok directory =>
        exact pruneFiles_ensures h₁ hmem hids (ha hactive)
          (hfiles destination directory hdestination hdirectory)

/-- The whole loop keeps the invariant. -/
theorem pruneCandidates_ensures (hids : (w.artifacts.map (·.id)).Nodup)
    (hmem : ∀ a ∈ rest, a ∈ w.artifacts) (hrest : ∀ a ∈ rest, a.jobId ∉ activeJobIds → MayPrune a)
    (hfiles : ∀ a ∈ rest, ∀ destination directory,
      artifactDestination configured destinations a.destinationId = some destination →
      host.resolveStorageDirectory destination config.application.name = .ok directory →
      files a = locations host (artifactPaths directory a.bundleFileName)) :
    (pruneCandidates host config configured destinations activeJobIds rest state).Ensures
      (retentionHandler host) (LoopEnds files MayPrune total w (done ++ rest)) w' := by
  induction rest generalizing done state w' with
  | nil =>
    rw [append_nil]
    exact h.ends
  | cons a rest ih =>
    have hhead := pruneCandidate_ensures h (hmem a mem_cons_self) hids
      (hrest a mem_cons_self) (hfiles a mem_cons_self)
    refine .bind hhead (fun state' w₁ h₁ => ?_) fun e w₁ h₁ => ?_
    · obtain ⟨state₁, hloop, hstate⟩ := h₁
      rw [hstate state' rfl]
      have hrest' := ih hloop (fun b hb => hmem b (mem_cons_of_mem _ hb))
        (fun b hb => hrest b (mem_cons_of_mem _ hb))
        fun b hb => hfiles b (mem_cons_of_mem _ hb)
      rwa [append_assoc] at hrest'
    · obtain ⟨state₁, hloop, -⟩ := h₁
      refine ⟨state₁, ⟨hloop.progress, ?_, hloop.remaining⟩, fun state' hstate => by cases hstate⟩
      refine hloop.sublist.trans (List.Sublist.map _ ?_)
      rw [append_cons done a rest]
      exact sublist_append_left _ _

end

/-! ## The pass -/

variable {applicationId : JsString}

/-- The verified and retained artifacts of an application. -/
def countingArtifacts (w : BackupWorld) (applicationId : JsString) : List BackupArtifact :=
  w.artifacts.filter fun a => a.applicationId = applicationId && a.counts

/-- `retainedVersionsLimit`. -/
def retentionLimit (config : BackupConfig) : ℕ := (max 1 config.retentionVersions).toNat

/-- The newest artifacts among those that count, and the others. -/
structure IsNewest (limit : ℕ) (counting kept others : List BackupArtifact) : Prop where
  perm : (kept ++ others).Perm counting
  length : kept.length = min counting.length limit
  newest : ∀ a ∈ kept, ∀ b ∈ others, b.time ≤ a.time

/-- The artifact belongs to a job that is queued or in progress. -/
def IsActive (w : BackupWorld) (a : BackupArtifact) : Prop :=
  ∃ job ∈ w.jobs, job.id = a.jobId ∧ job.applicationId = a.applicationId ∧
    isActiveBackupJobStatus job.status = true

theorem newer_trans (a b c : BackupArtifact) (hab : decide (b.time ≤ a.time) = true)
    (hbc : decide (c.time ≤ b.time) = true) : decide (c.time ≤ a.time) = true := by
  simp only [decide_eq_true_eq] at *
  omega

theorem newer_total (a b : BackupArtifact) :
    (decide (b.time ≤ a.time) || decide (a.time ≤ b.time)) = true := by
  simp only [Bool.or_eq_true, decide_eq_true_eq]
  omega

/-- The first artifacts of the sorted list are the newest. -/
theorem isNewest_verifiedArtifacts {rows : List BackupArtifact} (limit : ℕ)
    (hrows : rows.Perm (w.artifacts.filter (·.applicationId = applicationId))) :
    IsNewest limit (countingArtifacts w applicationId) ((verifiedArtifacts rows).take limit)
      ((verifiedArtifacts rows).drop limit) := by
  have hperm : (verifiedArtifacts rows).Perm (countingArtifacts w applicationId) := by
    refine (mergeSort_perm _ _).trans ((hrows.filter _).trans ?_)
    rw [filter_filter, countingArtifacts]
    simp only [Bool.and_comm]
    exact List.Perm.refl _
  have hsorted : (verifiedArtifacts rows).Pairwise fun a b => b.time ≤ a.time :=
    (pairwise_mergeSort newer_trans newer_total _).imp fun h => of_decide_eq_true h
  rw [← take_append_drop limit (verifiedArtifacts rows), pairwise_append] at hsorted
  refine ⟨?_, ?_, hsorted.2.2⟩
  · rw [take_append_drop]
    exact hperm
  · rw [length_take, hperm.length_eq, min_comm]

/-- The rows that count behind a pass are those that were not marked. -/
theorem length_counting_marked {rows rows' : List BackupArtifact}
    (h : List.Forall₂ (IsMarked pruned) rows rows') :
    (rows'.filter fun a => a.applicationId = applicationId && a.counts).length =
      ((rows.filter fun a => a.applicationId = applicationId && a.counts).filter
        fun a => a.id ∉ pruned).length := by
  rw [filter_filter, ← countP_eq_length_filter, ← countP_eq_length_filter]
  induction h with
  | nil => rfl
  | @cons a a' rows rows' hrow _ ih =>
    rw [countP_cons, countP_cons, ih]
    congr 2
    unfold IsMarked at hrow
    split_ifs at hrow with hmem
    · obtain ⟨prunedAt, rfl⟩ := hrow
      simp [BackupArtifact.counts, hmem]
    · simp [hrow, hmem]

/-- How many rows count behind a pass. -/
theorem Progress.length_counting {kept others : List BackupArtifact} {limit : ℕ}
    (h : Progress files MayPrune w w' pruned)
    (hnewest : IsNewest limit (countingArtifacts w applicationId) kept others)
    (hids : (w.artifacts.map (·.id)).Nodup) (hsublist : pruned.Sublist (others.map (·.id))) :
    (countingArtifacts w' applicationId).length + pruned.length =
      (countingArtifacts w applicationId).length := by
  have hnodup : ((countingArtifacts w applicationId).map (·.id)).Nodup :=
    hids.sublist (filter_sublist.map _)
  have hothers : (others.map (·.id)).Nodup :=
    ((hnewest.perm.map (·.id)).nodup_iff.mpr hnodup).sublist ((sublist_append_right _ _).map _)
  -- The identifiers that were marked are those of as many rows that counted.
  have hmarked : (((countingArtifacts w applicationId).filter (·.id ∈ pruned)).map (·.id)).Perm
      pruned := by
    refine (perm_ext_iff_of_nodup (hnodup.sublist (filter_sublist.map _))
      (hothers.sublist hsublist)).mpr fun id => ?_
    simp only [mem_map, mem_filter, decide_eq_true_eq]
    constructor
    · intro hid
      obtain ⟨b, hb, hbid⟩ := hid
      rw [← hbid]
      exact hb.2
    · intro hid
      obtain ⟨b, hb, hbid⟩ := mem_map.mp (hsublist.subset hid)
      exact ⟨b, ⟨hnewest.perm.subset (mem_append_right _ hb), by rw [hbid]; exact hid⟩, hbid⟩
  have hsplit := length_eq_length_filter_add (l := countingArtifacts w applicationId)
    fun a => decide (a.id ∈ pruned)
  have hlength := hmarked.length_eq
  have hafter : (countingArtifacts w' applicationId).length = _ := length_counting_marked h.rows
  rw [length_map] at hlength
  rw [hafter, hsplit, hlength, countingArtifacts]
  simp only [decide_not]
  omega

/-- The given artifacts that belong to no active job. -/
def MayBePruned (w : BackupWorld) (others : List BackupArtifact) (a : BackupArtifact) : Prop :=
  a ∈ others ∧ ¬ IsActive w a

/-- How a pass ends. -/
def PassEnds (host : BackupHost) (config : BackupConfig) (configured : BackupDestination)
    (applicationId : JsString) (w : BackupWorld) (r : Except BackupFailure RetentionPruneResult)
    (w' : BackupWorld) : Prop :=
  ∃ kept others pruned,
    IsNewest (retentionLimit config) (countingArtifacts w applicationId) kept others ∧
    Progress (artifactFiles host config configured w.destinations)
      (MayBePruned w others) w w' pruned ∧
    pruned.Sublist (others.map (·.id)) ∧
    ∀ result, r = .ok result → result.prunedArtifactIds = pruned ∧
      result.prunedCount = pruned.length ∧
      result.retainedCount = (countingArtifacts w applicationId).length - pruned.length

/-- The identifiers of the destinations that are loaded for some candidates. -/
def destinationIds (candidates : List BackupArtifact) : List JsString :=
  ((candidates.map (·.destinationId)).filter (· ≠ [])).eraseDups

variable {candidates : List BackupArtifact}

/-- A candidate's destination is among those loaded if it is found at all. -/
theorem artifactDestination_loaded (ha : a ∈ candidates) :
    artifactDestination configured (destinations.filter (·.id ∈ destinationIds candidates))
      a.destinationId =
      artifactDestination configured (destinations.filter (·.id ≠ [])) a.destinationId := by
  have hiff : a.destinationId ∈ destinationIds candidates ↔ a.destinationId ≠ [] := by
    unfold destinationIds
    rw [mem_eraseDups, mem_filter, decide_eq_true_iff]
    exact and_iff_right (mem_map_of_mem ha)
  have hfind : (destinations.filter (·.id ∈ destinationIds candidates)).reverse.find?
      (·.id = a.destinationId) =
        (destinations.filter (·.id ≠ [])).reverse.find? (·.id = a.destinationId) := by
    rw [← filter_reverse, ← filter_reverse, find?_filter, find?_filter]
    congr 1
    funext destination
    by_cases hid : destination.id = a.destinationId
    · simp [hid, hiff]
    · simp [hid]
  unfold artifactDestination
  rw [hfind]

/-- The files of a candidate, by the destinations that are loaded. -/
theorem artifactFiles_loaded (ha : a ∈ candidates) {destination : BackupDestination}
    {directory : JsString} (hdestination : artifactDestination configured
      (destinations.filter (·.id ∈ destinationIds candidates)) a.destinationId = some destination)
    (hdirectory : host.resolveStorageDirectory destination config.application.name = .ok directory) :
    artifactFiles host config configured destinations a =
      locations host (artifactPaths directory a.bundleFileName) := by
  have hfound : artifactDirectory host config configured destinations a = some directory := by
    unfold artifactDirectory
    rw [← artifactDestination_loaded ha, hdestination, Option.bind_some, hdirectory]
    rfl
  unfold artifactFiles
  rw [hfound]

/-- A query of the database, followed by what is done with its answer. -/
theorem query_ensures {α : Type} {f : c.Answer → Backup α}
    {Q : Except BackupFailure α → BackupWorld → Prop} (hdatabase : c.isDatabase = true)
    (h : ∀ choice r w', c.succeed host w choice = some (r, w') →
      w' = w ∧ ∃ answer, r = .ok answer ∧ (f answer).Ensures (retentionHandler host) Q w) :
    (call c >>= f).Ensures (retentionHandler host) Q w := by
  refine .bindCall fun choice r w' hexec => ?_
  unfold retentionHandler databaseHandler at hexec
  split_ifs at hexec
  obtain ⟨rfl, hanswer⟩ := h choice r w' hexec
  exact hanswer

/-- The loop from its start, over artifacts that count. -/
theorem startLoop_ensures {w₁ : BackupWorld} {others : List BackupArtifact}
    (hframe : BackupFrame (some .locks) w w₁) (hids : (w.artifacts.map (·.id)).Nodup)
    (hothers : ∀ a ∈ others, a ∈ countingArtifacts w applicationId) (total : ℕ) :
    (pruneCandidates host config configured (w₁.destinations.filter (·.id ∈ destinationIds others))
      ((w₁.jobs.filter fun job => job.applicationId = applicationId &&
        isActiveBackupJobStatus job.status).map (·.id)) others ⟨total, [], [], []⟩).Ensures
      (retentionHandler host)
      (LoopEnds (artifactFiles host config configured w.destinations) (MayBePruned w others) total w
        others) w₁ := by
  have hstart : Loop (artifactFiles host config configured w.destinations) (MayBePruned w others)
      total w [] ⟨total, [], [], []⟩ w₁ :=
    ⟨(Progress.refl w).frame hframe (by decide) (by decide) (by decide), List.Sublist.refl _,
      (sub_zero _).symm⟩
  rw [hframe.destinations, hframe.jobs (by decide)]
  refine pruneCandidates_ensures hstart hids (fun a ha => (mem_filter.mp (hothers a ha)).1)
    (fun a ha hinactive => ⟨ha, fun hactive => hinactive ?_⟩) fun a ha destination directory =>
      artifactFiles_loaded ha
  obtain ⟨job, hjob, hid, happlication, hstatus⟩ := hactive
  have hcounts := (mem_filter.mp (hothers a ha)).2
  simp only [Bool.and_eq_true, decide_eq_true_eq] at hcounts
  rw [← hid]
  refine mem_map_of_mem (mem_filter.mpr ⟨hjob, ?_⟩)
  simp [happlication, hcounts.1, hstatus]

/-- The body of a pass. -/
theorem executePruneInternal_ensures {w₁ : BackupWorld} (hframe : BackupFrame (some .locks) w w₁)
    (hconfig : w.configs.find? (·.application.id = applicationId) = some config)
    (hconfigured : w.destination config.destinationId = some configured)
    (hids : (w.artifacts.map (·.id)).Nodup) :
    (executePruneInternal host applicationId).Ensures (retentionHandler host)
      (PassEnds host config configured applicationId w) w₁ := by
  refine query_ensures rfl fun choice r w' h => ?_
  cases choice <;> cases h
  have hfound : ((w₁.configs.find? (·.application.id = applicationId)).map fun config =>
      (config, w₁.destination config.destinationId)) = some (config, some configured) := by
    unfold BackupWorld.destination at hconfigured ⊢
    rw [hframe.configs, hconfig, Option.map_some, hframe.destinations, hconfigured]
  refine ⟨rfl, _, rfl, ?_⟩
  rw [hfound]
  refine query_ensures rfl fun choice r w' h => ?_
  cases choice <;> try cases h
  rename_i rows
  rw [BackupCall.succeed, hframe.artifacts (by decide)] at h
  split_ifs at h with hperm
  cases h
  refine ⟨rfl, _, rfl, ?_⟩
  refine query_ensures rfl fun choice r w' h => ?_
  cases choice <;> cases h
  refine ⟨rfl, _, rfl, ?_⟩
  have hnewest := isNewest_verifiedArtifacts (retentionLimit config) hperm
  have hlength : (verifiedArtifacts rows).length = (countingArtifacts w applicationId).length := by
    rw [← hnewest.perm.length_eq, take_append_drop]
  have hstart : ∀ MayPrune, Progress (artifactFiles host config configured w.destinations) MayPrune
      w w₁ [] := fun MayPrune =>
    (Progress.refl w).frame hframe (by decide) (by decide) (by decide)
  dsimp only
  split_ifs with hfew
  · -- Nothing has to go.
    refine ⟨_, _, [], hnewest, hstart _, nil_sublist _, fun result hresult => ?_⟩
    cases hresult
    exact ⟨rfl, rfl, by rw [← hlength]; exact (sub_zero _).symm⟩
  · refine query_ensures rfl fun choice r w' h => ?_
    cases choice <;> cases h
    refine ⟨rfl, _, rfl, ?_⟩
    have hothers : ∀ a ∈ (verifiedArtifacts rows).drop (retentionLimit config),
        a ∈ countingArtifacts w applicationId := fun a ha =>
      hnewest.perm.subset (mem_append_right _ ha)
    refine .bind (startLoop_ensures hframe hids hothers _) (fun state w₂ h₂ => ?_) fun e w₂ h₂ => ?_
    · obtain ⟨state', hloop, heq⟩ := h₂
      rw [← heq state rfl] at hloop
      refine ⟨_, _, _, hnewest, hloop.progress, hloop.sublist, fun result hresult => ?_⟩
      cases hresult
      exact ⟨rfl, rfl, by rw [← hlength]; exact hloop.remaining⟩
    · obtain ⟨state, hloop, -⟩ := h₂
      exact ⟨_, _, _, hnewest, hloop.progress, hloop.sublist, fun result hresult => by cases hresult⟩

/-- A pass that gets the lock of its application. -/
theorem pruneApplicationBackups_ensures (hfree : applicationId ∉ w.retentionLocks)
    (hconfig : w.configs.find? (·.application.id = applicationId) = some config)
    (hconfigured : w.destination config.destinationId = some configured)
    (hids : (w.artifacts.map (·.id)).Nodup) :
    (pruneApplicationBackups host applicationId).Ensures (retentionHandler host)
      (PassEnds host config configured applicationId w) w := by
  refine .bindCall fun choice r w₁ h => ?_
  have hframe := frame_of_exec (exec_of_retentionHandler h).2
  cases choice <;> try cases h
  change (if applicationId ∈ w.retentionLocks then _ else _) = _ at h
  rw [if_neg hfree] at h
  cases h
  refine ⟨true, rfl, ?_⟩
  rw [if_neg (by decide)]
  refine .bindAttempt (executePruneInternal_ensures hframe hconfig hconfigured hids)
    fun result w₂ h₂ => ?_
  obtain ⟨kept, others, pruned, hnewest, hprogress, hsublist, hresult⟩ := h₂
  refine .bindCall fun choice r w₃ h => ?_
  have hframe₃ : BackupFrame (some .locks) w₂ w₃ := frame_of_exec (exec_of_retentionHandler h).2
  cases choice <;> cases h
  exact ⟨(), rfl, kept, others, pruned, hnewest,
    hprogress.frame hframe₃ (by decide) (by decide) (by decide), hsublist, hresult⟩

/-- A pass removed files of artifacts that may be pruned and of no other artifact of the
application; it marked rows of such artifacts whose three files are gone; and it changed nothing
else. -/
structure Spares (files : BackupArtifact → List (List JsString)) (applicationId : JsString)
    (others : List BackupArtifact) (pruned : List JsString) (w w' : BackupWorld) : Prop where
  removed : ∀ file, w'.files file ≠ w.files file → w'.files file = none ∧
    (∃ a ∈ w.artifacts, MayBePruned w others a ∧ file ∈ files a) ∧
    ∀ a ∈ w.artifacts, a.applicationId = applicationId → file ∈ files a → MayBePruned w others a
  rows : List.Forall₂ (IsMarked pruned) w.artifacts w'.artifacts
  marked : pruned.Sublist (others.map (·.id))
  gone : ∀ a ∈ w.artifacts, a.id ∈ pruned →
    MayBePruned w others a ∧ (files a).length = 3 ∧ ∀ file ∈ files a, w'.files file = none
  applications : w'.applications = w.applications
  configs : w'.configs = w.configs
  destinations : w'.destinations = w.destinations
  jobs : w'.jobs = w.jobs

/-- No two artifacts of an application share a file. -/
def FilesDisjoint (files : BackupArtifact → List (List JsString)) (applicationId : JsString)
    (w : BackupWorld) : Prop :=
  ∀ a ∈ w.artifacts, ∀ b ∈ w.artifacts, a.applicationId = applicationId →
    b.applicationId = applicationId → a ≠ b → (files a).Disjoint (files b)

/-- However the preflight checks and the removals of a pass end, and whether the pass returns or
throws: it spares the newest artifacts and those of active jobs, with their files; at least as many
verified and retained rows are left as it has to keep; and its result counts what it did. -/
theorem retention_spares {r : Except BackupFailure RetentionPruneResult}
    (hfree : applicationId ∉ w.retentionLocks)
    (hconfig : w.configs.find? (·.application.id = applicationId) = some config)
    (hconfigured : w.destination config.destinationId = some configured)
    (hids : (w.artifacts.map (·.id)).Nodup)
    (hdisjoint : FilesDisjoint (artifactFiles host config configured w.destinations) applicationId w)
    (hruns : (pruneApplicationBackups host applicationId).Runs (retentionHandler host) w r w') :
    ∃ kept others pruned,
      IsNewest (retentionLimit config) (countingArtifacts w applicationId) kept others ∧
      Spares (artifactFiles host config configured w.destinations) applicationId others pruned w w' ∧
      min (countingArtifacts w applicationId).length (retentionLimit config) ≤
        (countingArtifacts w' applicationId).length ∧
      ∀ result, r = .ok result →
        result.retainedCount = (countingArtifacts w' applicationId).length ∧
        result.prunedCount = pruned.length ∧ result.prunedArtifactIds = pruned := by
  obtain ⟨kept, others, pruned, hnewest, hprogress, hsublist, hresult⟩ :=
    (pruneApplicationBackups_ensures hfree hconfig hconfigured hids).runs hruns
  have hlength := hprogress.length_counting hnewest hids hsublist
  have hothers : ∀ a ∈ others, a ∈ w.artifacts ∧ a.applicationId = applicationId := by
    intro a ha
    have hcounts := mem_filter.mp (hnewest.perm.subset (mem_append_right _ ha))
    simp only [Bool.and_eq_true, decide_eq_true_eq] at hcounts
    exact ⟨hcounts.1, hcounts.2.1⟩
  refine ⟨kept, others, pruned, hnewest, ⟨fun file hchanged => ?_, hprogress.rows, hsublist,
    hprogress.gone, hprogress.applications, hprogress.configs, hprogress.destinations,
    hprogress.jobs⟩, ?_, fun result hok => ?_⟩
  · -- a file that is gone is one of an artifact that may be pruned, and of no other artifact
    obtain hsame | ⟨hgone, b, hb, hfile⟩ := hprogress.removed file
    · exact absurd hsame hchanged
    obtain ⟨hmem, happlication⟩ := hothers b hb.1
    refine ⟨hgone, ⟨b, hmem, hb, hfile⟩, fun a ha happlication' hfile' => ?_⟩
    by_contra hspared
    have hne : a ≠ b := fun heq => hspared (by rw [heq]; exact hb)
    exact hdisjoint a ha b hmem happlication' happlication hne hfile' hfile
  · have hpruned : pruned.length ≤ others.length := by
      have hle := hsublist.length_le
      rwa [length_map] at hle
    have htotal := hnewest.perm.length_eq
    have hkept := hnewest.length
    rw [length_append] at htotal
    omega
  · obtain ⟨hprunedIds, hcount, hretained⟩ := hresult result hok
    refine ⟨?_, hcount, hprunedIds⟩
    rw [hretained]
    omega

/-- The sort of the artifacts, by insertion: the form that can be evaluated. -/
theorem verifiedArtifacts_eq_insertionSort (allArtifacts : List BackupArtifact) :
    verifiedArtifacts allArtifacts =
      (allArtifacts.filter (·.counts)).insertionSort fun a b => b.time ≤ a.time := by
  unfold verifiedArtifacts
  induction allArtifacts.filter (·.counts) with
  | nil => exact mergeSort_nil
  | cons a l ih =>
    obtain ⟨newer, older, hcons, hl, hnewer⟩ := mergeSort_cons newer_trans newer_total a l
    have hsorted := pairwise_mergeSort newer_trans newer_total (a :: l)
    rw [hcons, pairwise_append, pairwise_cons] at hsorted
    have holder := hsorted.2.1.1
    rw [hcons, insertionSort_cons, ← ih, hl]
    clear hcons hl hsorted ih
    induction newer with
    | nil => cases older <;> simp_all
    | cons b newer ih => simp_all

/-- Two artifacts of an application, the second one newer, in two destinations. -/
def twoArtifacts (secondPath : String) : BackupWorld :=
  { BackupWorld.empty with
    configs := [⟨js "c", ⟨js "app", js "app"⟩, true, 1, none, js "d1", [], 0⟩]
    destinations := [⟨js "d1", js "first", .localFilesystem, js "/backup", true⟩,
      ⟨js "d2", js "second", .localFilesystem, js secondPath, true⟩]
    artifacts := [⟨js "old", js "j1", js "app", js "d1", js "b.tar.zst", .verified, some 1, true,
        none, 1⟩,
      ⟨js "new", js "j2", js "app", js "d2", js "b.tar.zst", .verified, some 2, true, none, 2⟩]
    files := fun file =>
      if (locations .plain
          (artifactPaths (js "/backup/storage/app") (js "b.tar.zst"))).contains file then
        some .other
      else none }

/-- The answers to a pass that removes the older one. -/
def pruneOldAnswers (secondPath : String) : List BackupChoice :=
  [.done, .done, .artifacts (twoArtifacts secondPath).artifacts, .done, .done,
    .health ⟨true, none, none⟩, .done, .done, .done, .number 5, .done, .done]

/-- In different directories the older artifact is pruned, and the newer one is left. -/
theorem retention_spares_newer :
    ∃ r w', (pruneApplicationBackups .plain (js "app")).Runs (retentionHandler .plain)
        (twoArtifacts "/other") r w' ∧
      (w'.artifacts.map (·.isRetained)) = [false, true] ∧
      ∃ kept others pruned, IsNewest 1 (twoArtifacts "/other").artifacts kept others ∧
        Spares (artifactFiles .plain ⟨js "c", ⟨js "app", js "app"⟩, true, 1, none, js "d1", [], 0⟩
          ⟨js "d1", js "first", .localFilesystem, js "/backup", true⟩
          (twoArtifacts "/other").destinations) (js "app") others pruned (twoArtifacts "/other") w' := by
  have hrun : ((pruneApplicationBackups .plain (js "app")).eval (retentionHandler .plain)
      (twoArtifacts "/other") (pruneOldAnswers "/other")).map
        (fun o => (o.2.1.artifacts.map (·.isRetained), o.2.2)) = some ([false, true], []) := by
    unfold pruneApplicationBackups executePruneInternal
    simp only [verifiedArtifacts_eq_insertionSort]
    decide +kernel
  obtain ⟨⟨r, w', rest⟩, heval, hw⟩ := Option.map_eq_some_iff.mp hrun
  obtain ⟨hrows, rfl⟩ := Prod.mk.inj hw
  have hruns := Task.runs_iff_eval.mpr ⟨_, heval⟩
  have hdisjoint : FilesDisjoint (artifactFiles .plain
      ⟨js "c", ⟨js "app", js "app"⟩, true, 1, none, js "d1", [], 0⟩
      ⟨js "d1", js "first", .localFilesystem, js "/backup", true⟩
      (twoArtifacts "/other").destinations) (js "app") (twoArtifacts "/other") := by
    unfold FilesDisjoint List.Disjoint
    decide +kernel
  obtain ⟨kept, others, pruned, hnewest, hspares, -⟩ :=
    retention_spares (by decide) rfl rfl (by decide +kernel) hdisjoint hruns
  exact ⟨r, w', hruns, hrows, kept, others, pruned, hnewest, hspares⟩

/-- Two destinations with one base path, and in each one artifact with the same bundle name: the
older one is pruned, and the files of the only artifact that is left are gone. -/
theorem shared_base_path_loses_newest :
    ∃ r w', (pruneApplicationBackups .plain (js "app")).Runs (retentionHandler .plain)
        (twoArtifacts "/backup") r w' ∧
      (∀ a ∈ (twoArtifacts "/backup").artifacts, ∀ b ∈ (twoArtifacts "/backup").artifacts,
        a.destinationId = b.destinationId → a.bundleFileName = b.bundleFileName → a = b) ∧
      (w'.artifacts.map fun a => (a.id, a.counts)) = [(js "old", false), (js "new", true)] ∧
      ∀ path ∈ artifactPaths (js "/backup/storage/app") (js "b.tar.zst"),
        (twoArtifacts "/backup").files (location (js "/") path) ≠ none ∧
        w'.files (location (js "/") path) = none := by
  have hrun : ((pruneApplicationBackups .plain (js "app")).eval (retentionHandler .plain)
      (twoArtifacts "/backup") (pruneOldAnswers "/backup")).map
        (fun o => (o.2.1.artifacts.map fun a => (a.id, a.counts),
          (artifactPaths (js "/backup/storage/app") (js "b.tar.zst")).map fun path =>
            o.2.1.files (location (js "/") path), o.2.2)) =
      some ([(js "old", false), (js "new", true)], [none, none, none], []) := by
    unfold pruneApplicationBackups executePruneInternal
    simp only [verifiedArtifacts_eq_insertionSort]
    decide +kernel
  obtain ⟨⟨r, w', rest⟩, heval, hw⟩ := Option.map_eq_some_iff.mp hrun
  simp only [Prod.mk.injEq] at hw
  obtain ⟨hrows, hfiles, rfl⟩ := hw
  refine ⟨r, w', Task.runs_iff_eval.mpr ⟨_, heval⟩, by decide +kernel, hrows, fun path hpath => ?_⟩
  refine ⟨?_, ?_⟩
  · revert path
    decide +kernel
  · have hmem := mem_map_of_mem (f := fun path => w'.files (location (js "/") path)) hpath
    rw [hfiles] at hmem
    simpa using hmem

end ZimaControl
