import ZimaControl.Daemon.Server
import ZimaControl.Lib.Outcome

/-!
# The revision guard

A container is stopped or started only if the daemon listed it with the labels of the application
and the deployment of the request (`execute_labelled`), and an admitted request names the active
deployment of its application (`activeDeployment_of_admitRequest`). The expected revision is
compared with that deployment if the request carries one.

`revision_guard_iff` says which payloads are handled as they should be: all but those of a mutating
request that is admitted without a revision. A deployment that declares a service without a name is
never acted on, since no list of containers can be resolved against it.
-/

namespace ZimaControl

open List TargetResolver ZimaControl.Task

namespace ApplicationLifecycleController

variable {host : DaemonHost} {request : ApplicationRuntimeRequest} {admission : AdmissionResult}
  {registry : Registry} {trace : List DaemonEvent}

/-! ## What a trace says -/

/-- The container that a call to stop or start was about. -/
def actedOn : DaemonEvent → Option JsString
  | .stopped containerId _ | .started containerId _ => some containerId
  | _ => none

/-- The daemon was told about a container with this identifier and the labels of the request. -/
def IsLabelled (request : ApplicationRuntimeRequest) (trace : List DaemonEvent)
    (containerId : JsString) : Prop :=
  ∃ containers, DaemonEvent.listed containers ∈ trace ∧ ∃ c ∈ containers,
    c.containerId = containerId ∧ c.label "zcc.application_id" = some request.applicationId ∧
      c.label "zcc.deployment_id" = some request.deploymentId

/-- Every container that was stopped or started is one of the application and the deployment. -/
def ActsLabelled (request : ApplicationRuntimeRequest) (trace : List DaemonEvent) : Prop :=
  ∀ event ∈ trace, ∀ containerId, actedOn event = some containerId →
    IsLabelled request trace containerId

/-- What is known about a container stays known. -/
theorem IsLabelled.append {containerId : JsString} (h : IsLabelled request trace containerId)
    (events : List DaemonEvent) : IsLabelled request (trace ++ events) containerId := by
  obtain ⟨containers, hlisted, hc⟩ := h
  exact ⟨containers, mem_append_left _ hlisted, hc⟩

/-- An event that is not about a container, or is about one that is known. -/
theorem ActsLabelled.append (h : ActsLabelled request trace) {event : DaemonEvent}
    (hevent : ∀ containerId, actedOn event = some containerId →
      IsLabelled request trace containerId) : ActsLabelled request (trace ++ [event]) := by
  intro e he containerId hacted
  obtain hold | hnew := mem_append.mp he
  · exact (h e hold containerId hacted).append _
  · rw [mem_singleton.mp hnew] at hacted
    exact (hevent containerId hacted).append _

/-! ## The resolver -/

variable {declared : List AdmittedService} {applicationId deploymentId : JsString}

/-- A container that is kept has both labels. -/
theorem labels_of_matchContainer {c c' : ApplicationContainerSummary}
    (h : matchContainer applicationId deploymentId declared c = .ok (some c')) :
    c' = c ∧ c.label "zcc.application_id" = some applicationId ∧
      c.label "zcc.deployment_id" = some deploymentId := by
  unfold matchContainer at h
  split at h
  · cases h
  · rename_i application happlication
    split_ifs at h with hsame hdeployment hservice
    cases h
    exact ⟨rfl, by rw [happlication, hsame], not_not.mp hdeployment⟩

variable {service : AdmittedService}

/-- The targets of the only container of a service. -/
theorem containerId_of_resolveSingle {c : ApplicationContainerSummary} {t : ResolvedTargetContainer}
    (h : resolveSingle host service c = .ok t) : t.containerId = c.containerId := by
  unfold resolveSingle at h
  split at h
  · cases h
    rfl
  split_ifs at h
  · cases h
    rfl
  · split at h <;> cases h
    rfl

variable {targets : List ResolvedTargetContainer} {containers : List ApplicationContainerSummary}

/-- The targets of the replicas of a service. -/
theorem containerId_of_resolveReplicas {seen all : List JsNumber}
    (h : resolveReplicas host service containers seen = .ok (targets, all)) :
    ∀ t ∈ targets, ∃ c ∈ containers, c.containerId = t.containerId := by
  induction containers generalizing seen targets with
  | nil =>
    cases h
    exact fun t ht => absurd ht not_mem_nil
  | cons c rest ih =>
    rw [resolveReplicas] at h
    split at h
    · cases h
    split_ifs at h
    split at h
    · cases h
    split_ifs at h
    obtain ⟨pair, hrest, hpair⟩ := except_map_eq_ok.mp h
    cases hpair
    intro t ht
    obtain rfl | htail := mem_cons.mp ht
    · exact ⟨c, mem_cons_self, rfl⟩
    · obtain ⟨c', hc', hid⟩ := ih hrest t htail
      exact ⟨c', mem_cons_of_mem _ hc', hid⟩

/-- The targets of a service are containers that were found for it. -/
theorem containerId_of_resolveService {deploymentId : JsString}
    (h : resolveService host deploymentId service containers = .ok targets) :
    ∀ t ∈ targets, ∃ c ∈ containers, c.containerId = t.containerId := by
  unfold resolveService at h
  split at h
  · cases h
  · rename_i c
    obtain ⟨t, hsingle, rfl⟩ := except_map_eq_ok.mp h
    intro t' ht'
    rw [mem_singleton.mp ht']
    exact ⟨c, mem_cons_self, (containerId_of_resolveSingle hsingle).symm⟩
  · obtain ⟨⟨found, seen⟩, hreplicas, h⟩ := except_bind_eq_ok.mp h
    dsimp only at h
    split at h <;> cases h
    exact containerId_of_resolveReplicas hreplicas

/-- Every target is a listed container with the labels of the application and the deployment. -/
theorem labels_of_resolveTargets {observed : List ApplicationContainerSummary}
    (h : resolveTargets host applicationId deploymentId declared observed =
      .ok targets) :
    ∀ t ∈ targets, ∃ c ∈ observed, c.containerId = t.containerId ∧
      c.label "zcc.application_id" = some applicationId ∧
      c.label "zcc.deployment_id" = some deploymentId := by
  obtain ⟨kept, hkept, hrest⟩ := except_bind_eq_ok.mp h
  obtain ⟨resolved, hresolved, hsorted⟩ := except_bind_eq_ok.mp hrest
  cases hsorted
  intro t ht
  obtain ⟨group, hgroup, htgroup⟩ := mem_flatten.mp ((mergeSort_perm _ _).mem_iff.mp ht)
  obtain ⟨name, -, hname⟩ := exists_of_mem_mapM hresolved hgroup
  cases hservice : declared.reverse.find? (·.name = name) with
  | none =>
    rw [hservice] at hname
    cases hname
    cases htgroup
  | some service =>
    rw [hservice] at hname
    obtain ⟨c, hc, hid⟩ := containerId_of_resolveService hname t htgroup
    obtain ⟨found, hfound, hsome⟩ := mem_filterMap.mp (mem_filter.mp hc).1
    obtain ⟨observed', hobserved, hmatch⟩ := exists_of_mem_mapM hkept hfound
    have hkeeps : found = some c := hsome
    rw [hkeeps] at hmatch
    obtain ⟨rfl, hlabels⟩ := labels_of_matchContainer hmatch
    exact ⟨c, hobserved, hid, hlabels⟩

/-- No container can be found for a service without a name. -/
theorem resolveTargets_unnamed (hname : [] ∈ declared.map (·.name))
    (observed : List ApplicationContainerSummary) (targets : List ResolvedTargetContainer) :
    resolveTargets host applicationId deploymentId declared observed ≠
      .ok targets := by
  intro h
  obtain ⟨kept, hkept, hrest⟩ := except_bind_eq_ok.mp h
  obtain ⟨resolved, hresolved, -⟩ := except_bind_eq_ok.mp hrest
  have hnone : (kept.filterMap id).filter (·.service = []) = [] := by
    rw [filter_eq_nil_iff]
    intro c hc hservice
    obtain ⟨found, hfound, hsome⟩ := mem_filterMap.mp hc
    obtain ⟨c', -, hmatch⟩ := exists_of_mem_mapM hkept hfound
    have hkeeps : found = some c := hsome
    rw [hkeeps] at hmatch
    obtain ⟨rfl, happlication, hdeployment⟩ := labels_of_matchContainer hmatch
    unfold matchContainer at hmatch
    rw [happlication] at hmatch
    dsimp only at hmatch
    rw [if_pos rfl, if_neg (not_not.mpr hdeployment),
      if_pos (.inl (of_decide_eq_true hservice))] at hmatch
    cases hmatch
  obtain ⟨group, -, hgroup⟩ := exists_of_mapM_mem hresolved (mem_eraseDups.mpr hname)
  cases hservice : declared.reverse.find? (·.name = []) with
  | none =>
    obtain ⟨service, hmem, hempty⟩ := mem_map.mp hname
    exact absurd (decide_eq_true hempty)
      (find?_eq_none.mp hservice service (mem_reverse.mpr hmem))
  | some service =>
    rw [hservice, hnone] at hgroup
    cases hgroup

/-! ## The handlers -/

/-- The container that a call stops or starts. -/
def targetOf : DaemonCall → Option JsString
  | .stopContainer containerId | .startContainer containerId => some containerId
  | _ => none

variable {trace' : List DaemonEvent} {choice : DaemonChoice} {c : DaemonCall}
  {r : Except DaemonError c.Answer}

/-- A call adds one event at most to the trace, about the container that it stops or starts. -/
theorem registryHandler_trace
    (h : registryHandler registry request trace c choice = some (r, trace')) :
    trace' = trace ∨ ∃ event, trace' = trace ++ [event] ∧ actedOn event = targetOf c := by
  unfold registryHandler at h
  split_ifs at h
  unfold daemonHandler DaemonCall.exec at h
  split at h <;> try split_ifs at h
  all_goals cases h
  all_goals first
    | exact .inl rfl
    | exact .inr ⟨_, rfl, rfl⟩

/-- No container was stopped or started. -/
def NoActs (trace : List DaemonEvent) : Prop := ∀ event ∈ trace, actedOn event = none

/-- A call that stops and starts nothing. -/
theorem NoActs.exec (h : NoActs trace) (hc : targetOf c = none)
    (hexec : registryHandler registry request trace c choice = some (r, trace')) :
    NoActs trace' := by
  obtain rfl | ⟨event, rfl, hevent⟩ := registryHandler_trace hexec
  · exact h
  · intro e he
    obtain hold | hnew := mem_append.mp he
    · exact h e hold
    · rw [mem_singleton.mp hnew, hevent, hc]

variable {α : Type} {t : Daemon α}

/-- A program that stops and starts nothing. -/
theorem NoActs.always (h : NoActs trace) (ht : t.Only fun c => targetOf c = none) :
    t.Always (registryHandler registry request) NoActs (fun _ => NoActs) trace :=
  ht.always h fun _ _ _ _ _ hc hexec hacts => hacts.exec hc hexec

/-- Behind the resolution the targets are labelled, and so is what was stopped and started. -/
structure Resolved (request : ApplicationRuntimeRequest) (targets : List ResolvedTargetContainer)
    (trace : List DaemonEvent) : Prop where
  acts : ActsLabelled request trace
  known : ∀ containerId ∈ targets.map (·.containerId), IsLabelled request trace containerId

/-- A call that stops and starts targets only. -/
def OnTargets (targets : List ResolvedTargetContainer) (c : DaemonCall) : Prop :=
  ∀ containerId, targetOf c = some containerId → containerId ∈ targets.map (·.containerId)

/-- A call that stops and starts nothing is one on targets. -/
theorem onTargets_of_none (h : targetOf c = none) : OnTargets targets c := by
  intro containerId hcontainer
  rw [h] at hcontainer
  cases hcontainer

/-- A call on targets keeps what is known. -/
theorem Resolved.exec (h : Resolved request targets trace) (hc : OnTargets targets c)
    (hexec : registryHandler registry request trace c choice = some (r, trace')) :
    Resolved request targets trace' := by
  obtain rfl | ⟨event, rfl, hevent⟩ := registryHandler_trace hexec
  · exact h
  · refine ⟨h.acts.append fun containerId hacted => ?_, fun containerId hmem =>
      (h.known containerId hmem).append _⟩
    rw [hevent] at hacted
    exact h.known containerId (hc containerId hacted)

/-- A program on targets keeps what is known. -/
theorem Resolved.always (h : Resolved request targets trace) (ht : t.Only (OnTargets targets)) :
    t.Always (registryHandler registry request) (Resolved request targets)
      (fun _ => Resolved request targets) trace :=
  ht.always h fun _ _ _ _ _ hc hexec hresolved => hresolved.exec hc hexec

/-- A program that stops and starts nothing stops and starts what is labelled. -/
theorem ActsLabelled.always (h : ActsLabelled request trace)
    (ht : t.Only fun c => targetOf c = none) :
    t.Always (registryHandler registry request) (ActsLabelled request)
      (fun _ => ActsLabelled request) trace := by
  have hresolved : Resolved request [] trace := ⟨h, fun containerId hmem => by cases hmem⟩
  exact (hresolved.always (ht.mono fun _ => onTargets_of_none)).mono (fun _ h' => h'.acts)
    fun _ _ h' => h'.acts

/-- Whether a call is about the lock. -/
def isLocking : DaemonCall → Bool
  | .acquire | .release => true
  | _ => false

/-- A call of a handler: it is not about the lock, and stops and starts targets only. -/
def OfHandler (targets : List ResolvedTargetContainer) (c : DaemonCall) : Prop :=
  isLocking c = false ∧ OnTargets targets c

/-- A call that stops or starts a target. -/
theorem onTargets_of_mem {t : ResolvedTargetContainer} (hc : targetOf c = some t.containerId)
    (h : t ∈ targets) : OnTargets targets c := by
  intro containerId hcontainer
  cases hc.symm.trans hcontainer
  exact mem_map_of_mem h

variable {targets all : List ResolvedTargetContainer}

/-- The stop phase stops targets. -/
theorem stopTargets_only (h : targets ⊆ all) : (stopTargets targets).Only (OfHandler all) := by
  induction targets with
  | nil => exact .pure
  | cons target rest ih =>
    obtain ⟨htarget, hrest⟩ := cons_subset.mp h
    exact .bind (Only.perform ⟨rfl, onTargets_of_mem rfl htarget⟩).attempt fun _ =>
      .bind (ih hrest) fun _ => .pure

/-- The start phase starts targets. -/
theorem startTargets_only (phase suffix : String) (h : targets ⊆ all) :
    (startTargets phase suffix targets).Only (OfHandler all) := by
  induction targets with
  | nil => exact .pure
  | cons target rest ih =>
    obtain ⟨htarget, hrest⟩ := cons_subset.mp h
    refine .bind (Only.perform ⟨rfl, onTargets_of_none rfl⟩) fun aborted => .ite .throw ?_
    refine .bind (Only.perform ⟨rfl, onTargets_of_mem rfl htarget⟩).attempt fun result => ?_
    cases result with
    | error e => cases e <;> exact .throw
    | ok _ => exact ih hrest

/-- The verification behind a start phase stops and starts nothing. -/
theorem verifyRunning_only (code : AdapterErrorCode) (title : String)
    (targets all : List ResolvedTargetContainer) :
    (verifyRunning code title targets).Only (OfHandler all) :=
  .bind (Only.perform ⟨rfl, onTargets_of_none rfl⟩) fun _ => .ite .pure .throw

/-- The list of the containers becomes part of the trace. -/
theorem listContainers_always (h : ActsLabelled request trace) :
    (ask .listContainers).Always (registryHandler registry request) (ActsLabelled request)
      (fun r trace' => ActsLabelled request trace' ∧
        ∀ containers : List ApplicationContainerSummary, r = .ok containers →
          DaemonEvent.listed containers ∈ trace') trace := by
  refine .perform fun choice r trace' hexec => ?_
  have hacts : ActsLabelled request trace' := by
    obtain rfl | ⟨event, rfl, hevent⟩ := registryHandler_trace hexec
    · exact h
    · refine h.append fun containerId hacted => ?_
      rw [hevent] at hacted
      cases hacted
  refine ⟨hacts, hacts, fun containers hr => ?_⟩
  rw [hr] at hexec
  cases choice with
  | containers answer =>
    cases answer with
    | error e => cases hexec
    | ok listed =>
      cases hexec
      exact mem_append_right _ mem_cons_self
  | _ => cases hexec

variable {k : List ResolvedTargetContainer → Daemon α}

/-- What a handler does with the targets that it resolved. -/
theorem resolved_always (hk : ∀ targets, (k targets).Only (OnTargets targets))
    (h : ActsLabelled request trace) :
    (resolvedTargets host request admission >>= k).Always (registryHandler registry request)
      (ActsLabelled request) (fun _ => ActsLabelled request) trace := by
  have htargets : (resolvedTargets host request admission).Always (registryHandler registry request)
      (ActsLabelled request) (fun r trace' => ActsLabelled request trace' ∧
        ∀ targets, r = .ok targets → Resolved request targets trace') trace := by
    refine .bind (listContainers_always h) (fun containers trace' hlisted => ?_)
      fun e trace' hlisted => ⟨hlisted.1, fun targets hr => by cases hr⟩
    refine ⟨hlisted.1, fun targets hr => ⟨hlisted.1, fun containerId hmem => ?_⟩⟩
    obtain ⟨t, ht, rfl⟩ := mem_map.mp hmem
    obtain ⟨c, hc, hid, hlabels⟩ := labels_of_resolveTargets hr t ht
    exact ⟨containers, hlisted.2 containers rfl, c, hc, hid, hlabels⟩
  refine .bind htargets (fun targets trace' htrace => ?_) fun e trace' htrace => htrace.1
  exact ((htrace.2 targets rfl).always (hk targets)).mono (fun _ hresolved => hresolved.acts)
    fun _ _ hresolved => hresolved.acts

/-- Nothing is stopped or started if the containers cannot be resolved. -/
theorem unresolved_always
    (hnone : ∀ observed targets, resolveTargets host request.applicationId
      request.deploymentId admission.services observed ≠ .ok targets) (h : NoActs trace) :
    (resolvedTargets host request admission >>= k).Always (registryHandler registry request)
      NoActs (fun _ => NoActs) trace := by
  have htargets : (resolvedTargets host request admission).Always (registryHandler registry request)
      NoActs (fun r trace' => NoActs trace' ∧ ∀ targets, r ≠ .ok targets) trace := by
    refine .bind (h.always (Only.perform rfl))
      (fun containers trace' hacts => ⟨hacts, hnone containers⟩)
      fun e trace' hacts => ⟨hacts, fun targets hr => by cases hr⟩
  exact .bind htargets (fun targets trace' htrace => absurd rfl (htrace.2 targets))
    fun e trace' htrace => htrace.1

/-- The parts of the three mutating handlers behind the resolution. -/
theorem mutating_handlers (host : DaemonHost) (admission : AdmissionResult)
    (hmutates : mutates request.operation = true) :
    ∃ k : List ResolvedTargetContainer → Daemon ApplicationRuntimeResponse,
      handle host request admission = resolvedTargets host request admission >>= k ∧
      ∀ targets, (k targets).Only (OfHandler targets) := by
  unfold handle
  cases hoperation : request.operation with
  | statusApplication | inspectApplication =>
    rw [hoperation] at hmutates
    cases hmutates
  | startApplication =>
    refine ⟨_, rfl, fun targets => ?_⟩
    exact .bind (startTargets_only _ _ (List.Subset.refl _)) fun _ =>
      .bind (verifyRunning_only _ _ _ _) fun _ => .pure
  | stopApplication =>
    refine ⟨_, rfl, fun targets => ?_⟩
    refine .bind (stopTargets_only fun t ht => mem_reverse.mp ht) fun failures => ?_
    refine .ite .throw (.bind (Only.perform ⟨rfl, onTargets_of_none rfl⟩) fun completions => ?_)
    exact .ite .throw .pure
  | restartApplication =>
    refine ⟨_, rfl, fun targets => ?_⟩
    refine .bind (stopTargets_only fun t ht => mem_reverse.mp ht) fun failures => ?_
    refine .bind (Only.perform ⟨rfl, onTargets_of_none rfl⟩) fun completions => .ite .throw ?_
    exact .bind (startTargets_only _ _ (List.Subset.refl _)) fun _ =>
      .bind (verifyRunning_only _ _ _ _) fun _ => .pure

/-- An error response stops and starts nothing. -/
theorem buildErrorResponse_only (error : DaemonError) :
    (buildErrorResponse request error).Only fun c => targetOf c = none :=
  .bind (Only.perform rfl) fun _ => .pure

/-- The handlers that only look stop and start nothing. -/
theorem handle_only (hmutates : mutates request.operation = false) :
    (handle host request admission).Only fun c => isLocking c = false ∧ targetOf c = none := by
  have hstatus : (handleStatus request).Only fun c => isLocking c = false ∧ targetOf c = none :=
    .bind (Only.perform ⟨rfl, rfl⟩) fun _ => .bind (Only.perform ⟨rfl, rfl⟩) fun _ => .pure
  unfold handle
  cases hoperation : request.operation with
  | statusApplication | inspectApplication => exact hstatus
  | _ => exact absurd hmutates (by rw [hoperation]; decide)

/-- The admission is what the registry says. -/
theorem admission_of_registryHandler {r : Except DaemonError AdmissionResult}
    (h : registryHandler registry request trace .admission choice = some (r, trace')) :
    r = (registry.admitRequest request).map Admission.result := by
  unfold registryHandler at h
  split_ifs at h with hchoice
  have hadmission : choice = .admission ((registry.admitRequest request).map Admission.result) := by
    simpa [DaemonCall.isAdmission] using hchoice
  rw [hadmission] at h
  generalize (registry.admitRequest request).map Admission.result = answer at h ⊢
  cases answer <;> (cases h; rfl)

/-- What a program without targets and the handler of an admitted request keep, the controller
keeps. -/
theorem execute_always {I : List DaemonEvent → Prop}
    (hidle : ∀ {α : Type} {t : Daemon α} {trace : List DaemonEvent}, I trace →
      t.Only (fun c => targetOf c = none) →
      t.Always (registryHandler registry request) I (fun _ => I) trace)
    (hhandle : ∀ admission trace, registry.admitRequest request = .ok admission → I trace →
      (handle host request admission.result).Always (registryHandler registry request) I (fun _ => I)
        trace)
    (h : I trace) :
    (execute host request).Always (registryHandler registry request) I (fun _ => I) trace := by
  have hadmission : (ask .admission).Always (registryHandler registry request) I
      (fun r trace' => I trace' ∧ r = (registry.admitRequest request).map Admission.result) trace := by
    refine .perform fun choice r trace' hexec => ?_
    have hkept := (hidle h (Only.perform (c := .admission) rfl)) choice r trace' hexec
    exact ⟨hkept.1, hkept.1, admission_of_registryHandler hexec⟩
  have hrespond : ∀ {admission : Admission} {trace : List DaemonEvent},
      registry.admitRequest request = .ok admission → I trace →
      (respond request (handle host request admission.result)).Always
        (registryHandler registry request) I (fun _ => I) trace := by
    intro admission trace hadmitted htrace
    refine .bindAttempt (hhandle admission trace hadmitted htrace) fun r trace' htrace' => ?_
    cases r with
    | ok response => exact htrace'
    | error error => exact hidle htrace' (buildErrorResponse_only error)
  -- outside of the handler no container is touched
  refine .bindAttempt hadmission fun r trace' htrace' => ?_
  cases r with
  | error error => exact hidle htrace'.1 (buildErrorResponse_only error)
  | ok result =>
    obtain ⟨admission, hadmitted, rfl⟩ := except_map_eq_ok.mp htrace'.2.symm
    split_ifs
    · refine .bindAttempt (hidle htrace'.1 (Only.perform rfl)) fun r trace₂ htrace₂ => ?_
      cases r with
      | error error => exact hidle htrace₂ (buildErrorResponse_only error)
      | ok _ =>
        refine .bind (hrespond hadmitted htrace₂) (fun response trace₃ htrace₃ => ?_)
          fun e trace₃ htrace₃ => htrace₃
        exact hidle htrace₃ (.bind (Only.perform rfl) fun _ => .pure)
    · exact hrespond hadmitted htrace'.1

/-- Whatever the environment answers, what is stopped and started has the labels of the request. -/
theorem execute_labelled :
    (execute host request).Always (registryHandler registry request) (ActsLabelled request)
      (fun _ => ActsLabelled request) [] := by
  refine execute_always (fun h ht => h.always ht) (fun admission trace _ h => ?_)
    fun event hevent => absurd hevent not_mem_nil
  cases hmutates : mutates request.operation with
  | false => exact h.always ((handle_only hmutates).mono fun _ hc => hc.2)
  | true =>
    obtain ⟨k, hk, honly⟩ := mutating_handlers host admission.result hmutates
    rw [hk]
    exact resolved_always (fun targets => (honly targets).mono fun _ hc => hc.2) h

/-- Nothing is stopped or started for an operation that only looks, for a request that is not
admitted, and for a deployment with a nameless service. -/
theorem execute_idle
    (h : ∀ admission, mutates request.operation = true → registry.admitRequest request = .ok admission →
      [] ∈ admission.services.map (·.name)) :
    (execute host request).Always (registryHandler registry request) NoActs (fun _ => NoActs) [] := by
  refine execute_always (fun h ht => h.always ht) (fun admission trace hadmitted hacts => ?_)
    fun event hevent => absurd hevent not_mem_nil
  cases hmutates : mutates request.operation with
  | false => exact hacts.always ((handle_only hmutates).mono fun _ hc => hc.2)
  | true =>
    obtain ⟨k, hk, -⟩ := mutating_handlers host admission.result hmutates
    rw [hk]
    have hname : [] ∈ admission.result.services.map (·.name) := by
      unfold Admission.result
      rw [map_map]
      exact h admission hmutates hadmitted
    exact unresolved_always (fun observed targets => resolveTargets_unnamed hname observed targets)
      hacts

/-! ## Admission -/

/-- An admitted request names the active deployment of its application, as does its revision if it
carries one. -/
theorem activeDeployment_of_admitRequest {admission : Admission}
    (h : registry.admitRequest request = .ok admission) :
    registry.activeDeployment request.applicationId = some admission.deployment ∧
      request.deploymentId = admission.deployment.id ∧
      (∀ revision, request.expectedRevision = some revision → revision = admission.deployment.id) ∧
      admission.services = registry.servicesOf request.deploymentId ∧ admission.services ≠ [] := by
  unfold Registry.admitRequest Registry.validateAdmission at h
  split at h
  · cases h
  split at h
  · cases h
  rename_i deployment hdeployment
  split at h
  · cases h
  rename_i hrevision
  split_ifs at h with hservices
  cases h
  have hfound := find?_some hdeployment
  simp only [Bool.and_eq_true, decide_eq_true_eq] at hfound
  refine ⟨?_, hfound.1.symm, fun revision hsome => ?_, rfl, hservices⟩
  · -- The unique index over the applications makes it the only row of its application.
    have hmem := mem_of_find?_eq_some hdeployment
    have hsome : (registry.activeDeployment request.applicationId).isSome := by
      unfold Registry.activeDeployment
      rw [find?_isSome]
      exact ⟨deployment, hmem, decide_eq_true hfound.2⟩
    obtain ⟨active, hactive⟩ := Option.isSome_iff_exists.mp hsome
    have hrow : active.applicationId = request.applicationId := by
      simpa using find?_some hactive
    rw [hactive, inj_on_of_nodup_map registry.deployment_unique (mem_of_find?_eq_some hactive) hmem
      (hrow.trans hfound.2.symm)]
  · rw [hsome, Option.filter_eq_none_iff] at hrevision
    simpa using hrevision revision rfl

/-- The services of a deployment have different names. -/
theorem nodup_servicesOf (deploymentId : JsString) :
    ((registry.servicesOf deploymentId).map (·.name)).Nodup := by
  have hperm : (registry.servicesOf deploymentId).Perm
      (registry.services.filter (·.deploymentId = deploymentId)) := perm_insertionSort _ _
  rw [(hperm.map (·.name)).nodup_iff]
  refine ((List.Nodup.of_map _ registry.service_unique).filter _).map_on fun a ha b hb hname => ?_
  have hdeployment : ∀ service ∈ registry.services.filter (·.deploymentId = deploymentId),
      service.deploymentId = deploymentId := fun service hservice =>
    of_decide_eq_true (mem_filter.mp hservice).2
  refine inj_on_of_nodup_map registry.service_unique (mem_filter.mp ha).1
    (mem_filter.mp hb).1 ?_
  rw [hdeployment a ha, hdeployment b hb, hname]

/-! ## An acting run -/

/-- A container of the application and the deployment for a service. -/
def containerFor (request : ApplicationRuntimeRequest) (name : JsString) :
    ApplicationContainerSummary where
  containerId := name
  serviceName := name
  state := .exited
  labels := [(js "zcc.application_id", request.applicationId),
    (js "zcc.deployment_id", request.deploymentId)]

/-- One container for each service can be resolved. -/
theorem exists_targets (host : DaemonHost) (request : ApplicationRuntimeRequest)
    (hsome : declared ≠ []) (hnodup : (declared.map (·.name)).Nodup)
    (hnamed : [] ∉ declared.map (·.name)) :
    ∃ targets, targets ≠ [] ∧
      resolveTargets host request.applicationId request.deploymentId declared
        ((declared.map (·.name)).map (containerFor request)) = .ok targets := by
  have hkept : ((declared.map (·.name)).map (containerFor request)).mapM
      (matchContainer request.applicationId request.deploymentId declared) =
        .ok (((declared.map (·.name)).map (containerFor request)).map some) := by
    refine except_mapM_eq_ok.mpr (forall₂_map_right_iff.mpr (forall₂_same.mpr ?_))
    intro c hc
    obtain ⟨name, hname, rfl⟩ := mem_map.mp hc
    have happlication : (containerFor request name).label "zcc.application_id" =
      some request.applicationId := rfl
    unfold matchContainer
    rw [happlication]
    dsimp only
    rw [if_pos rfl, if_neg (fun hne => hne rfl), if_neg]
    refine not_or.mpr ⟨fun hempty : name = [] => hnamed (hempty ▸ hname), fun hall => ?_⟩
    obtain ⟨service, hmem, hserviceName⟩ := mem_map.mp hname
    have hother := all_eq_true.mp hall service hmem
    exact of_decide_eq_true hother hserviceName
  have hmatched : (((declared.map (·.name)).map (containerFor request)).map some).filterMap id =
      (declared.map (·.name)).map (containerFor request) := by
    rw [filterMap_map]
    exact filterMap_some
  -- the declared names are distinct, so each has one container
  have honly : ∀ name ∈ declared.map (·.name),
      ((declared.map (·.name)).map (containerFor request)).filter (·.service = name) =
        [containerFor request name] := by
    intro name hname
    rw [filter_map]
    have hservice : ((fun c : ApplicationContainerSummary => decide (c.service = name)) ∘
        containerFor request) = fun name' => decide (name' = name) := rfl
    rw [hservice, filter_eq, count_eq_one_of_mem hnodup hname]
    rfl
  unfold resolveTargets
  simp only [hkept]
  -- Behind the first loop each name finds its declaration and its only container.
  have hservice : ∀ name ∈ (declared.map (·.name)).eraseDups, ∃ service,
      declared.reverse.find? (·.name = name) = some service ∧
      resolveService host request.deploymentId service
        (((declared.map (·.name)).map (containerFor request)).filter (·.service = name)) =
          .ok [target service (containerFor request name) (.finite 1)] := by
    intro name hname
    have hmem := mem_eraseDups.mp hname
    obtain ⟨service, hdeclared, hserviceName⟩ := mem_map.mp hmem
    have hsome : (declared.reverse.find? (·.name = name)).isSome := by
      rw [find?_isSome]
      exact ⟨service, mem_reverse.mpr hdeclared, decide_eq_true hserviceName⟩
    obtain ⟨found, hfound⟩ := Option.isSome_iff_exists.mp hsome
    refine ⟨found, hfound, ?_⟩
    rw [honly name hmem]
    rfl
  refine exists_bind_mapM (fun name hname => ?_) fun groups hgroups => ?_
  · obtain ⟨service, hfound, hgroup⟩ := hservice name hname
    refine ⟨[target service (containerFor request name) (.finite 1)], ?_⟩
    rw [hmatched, hfound]
    exact hgroup
  · -- the target of the first service is in the sorted list
    refine ⟨_, fun hnil => ?_, rfl⟩
    obtain ⟨first, hfirst⟩ := exists_mem_of_ne_nil _ hsome
    have hname : first.name ∈ (declared.map (·.name)).eraseDups :=
      mem_eraseDups.mpr (mem_map_of_mem hfirst)
    obtain ⟨service, hfound, hgroup⟩ := hservice first.name hname
    obtain ⟨group, hmem, hmade⟩ := exists_of_mapM_mem hgroups hname
    rw [hmatched, hfound] at hmade
    have heq := hgroup.symm.trans hmade
    cases heq
    have hflat : groups.flatten = [] := by
      rw [← length_eq_zero_iff, ← length_mergeSort, hnil, length_nil]
    have hin := mem_flatten.mpr ⟨_, hmem, mem_cons_self⟩
    rw [hflat] at hin
    cases hin

/-- A container was stopped or started. -/
def Acts (trace : List DaemonEvent) : Prop := ∃ event ∈ trace, actedOn event ≠ none

/-- The environment answers a call that is not the admission as it likes. -/
theorem registryHandler_of_exec (hc : c.isAdmission = false)
    (h : c.exec trace choice = some (r, trace')) :
    registryHandler registry request trace c choice = some (r, trace') := by
  unfold registryHandler
  rw [hc, Bool.false_and, if_neg Bool.false_ne_true]
  exact h

/-- A stop phase with a target stops it. -/
theorem stopTargets_acts (h : targets ≠ []) (trace : List DaemonEvent) :
    ∃ trace', (stopTargets targets).Reaches (registryHandler registry request) trace trace' ∧
      Acts trace' := by
  obtain ⟨target, rest, rfl⟩ := exists_cons_of_ne_nil h
  have hstop : registryHandler registry request trace (.stopContainer target.containerId)
      (.outcome (.ok ())) = some (.ok (), trace ++ [.stopped target.containerId true]) :=
    registryHandler_of_exec rfl rfl
  refine ⟨trace ++ [.stopped target.containerId true], ?_, .stopped target.containerId true,
    mem_append_right _ mem_cons_self, by simp [actedOn]⟩
  exact .step hstop (.start _ _)

/-- A start phase with a target starts it if the deadline has not passed. -/
theorem startTargets_acts (phase suffix : String) (h : targets ≠ []) (trace : List DaemonEvent) :
    ∃ trace', (startTargets phase suffix targets).Reaches (registryHandler registry request) trace
      trace' ∧ Acts trace' := by
  obtain ⟨target, rest, rfl⟩ := exists_cons_of_ne_nil h
  have hdeadline : registryHandler registry request trace .aborted (.flag false) =
      some (.ok false, trace ++ [.deadline false]) := registryHandler_of_exec rfl rfl
  have hstart : registryHandler registry request (trace ++ [.deadline false])
      (.startContainer target.containerId) (.outcome (.ok ())) =
        some (.ok (), trace ++ [.deadline false] ++ [.started target.containerId true]) :=
    registryHandler_of_exec rfl rfl
  refine ⟨_, .step hdeadline (.step hstart (.start _ _)), .started target.containerId true,
    mem_append_right _ mem_cons_self, by simp [actedOn]⟩

/-- A mutating handler acts if its containers can be resolved. -/
theorem handle_acts (registry : Registry) (hmutates : mutates request.operation = true)
    (hresolve : resolveTargets host request.applicationId request.deploymentId
      admission.services containers = .ok targets) (hsome : targets ≠ [])
    (trace : List DaemonEvent) :
    ∃ trace', (handle host request admission).Reaches (registryHandler registry request) trace
      trace' ∧ Acts trace' := by
  have hlist : registryHandler registry request trace .listContainers (.containers (.ok containers)) =
      some (.ok containers, trace ++ [.listed containers]) := registryHandler_of_exec rfl rfl
  have hruns : (resolvedTargets host request admission).Runs (registryHandler registry request) trace
      (.ok targets) (trace ++ [.listed containers]) := by
    refine ⟨_, _, _, hlist, ?_⟩
    exact ⟨hresolve.symm, rfl⟩
  have hreversed : targets.reverse ≠ [] := by simpa using hsome
  unfold handle
  cases hoperation : request.operation with
  | statusApplication | inspectApplication => exact absurd hmutates (by rw [hoperation]; decide)
  | startApplication =>
    obtain ⟨trace', hreaches, hacts⟩ := startTargets_acts "container start" "" hsome
      (trace ++ [.listed containers])
    exact ⟨trace', .bind_right hruns hreaches.bind_left, hacts⟩
  | stopApplication | restartApplication =>
    obtain ⟨trace', hreaches, hacts⟩ := stopTargets_acts hreversed (trace ++ [.listed containers])
    exact ⟨trace', .bind_right hruns hreaches.bind_left, hacts⟩

/-- A mutating request that is admitted acts on some containers, if its services have names. -/
theorem execute_acts (host : DaemonHost) {admission : Admission}
    (hmutates : mutates request.operation = true)
    (hadmitted : registry.admitRequest request = .ok admission)
    (hnamed : [] ∉ admission.services.map (·.name)) :
    ∃ trace, (execute host request).Reaches (registryHandler registry request) [] trace ∧
      Acts trace := by
  obtain ⟨-, -, -, hservices, hsome⟩ := activeDeployment_of_admitRequest hadmitted
  have hnames : admission.result.services.map (·.name) = admission.services.map (·.name) := by
    unfold Admission.result
    rw [map_map]
    rfl
  have hnodup : (admission.services.map (·.name)).Nodup := by
    rw [hservices]
    exact nodup_servicesOf _
  rw [← hnames] at hnamed hnodup
  have hdeclared : admission.result.services ≠ [] := by simpa [Admission.result] using hsome
  obtain ⟨targets, htargets, hresolve⟩ := exists_targets host request hdeclared hnodup hnamed
  have hadmission : registryHandler registry request [] .admission
      (.admission (.ok admission.result)) = some (.ok admission.result, [.admitted admission.result]) := by
    unfold registryHandler
    rw [hadmitted, if_neg (by simp [Except.map])]
    rfl
  have hacquire : registryHandler registry request [.admitted admission.result] .acquire
      (.outcome (.ok ())) = some (.ok (), [.admitted admission.result]) :=
    registryHandler_of_exec rfl rfl
  obtain ⟨trace, hreaches, hacts⟩ := handle_acts registry hmutates hresolve htargets
    [.admitted admission.result]
  refine ⟨trace, ?_, hacts⟩
  -- the run: the admission, the lock, and what the handler does
  refine .step hadmission ?_
  change Reaches _ (if mutates request.operation = true then _ else _) _ _
  rw [if_pos hmutates]
  have hrespond : (respond request (handle host request admission.result)).Reaches
      (registryHandler registry request) [.admitted admission.result] trace :=
    Reaches.bind_left hreaches.attempt
  refine .step hacquire ?_
  change Reaches _ (respond request (handle host request admission.result) >>= _) _ _
  exact Reaches.bind_left hrespond

/-- The request carries the revision of the active deployment, asks for it, and the containers are
its own. -/
structure Guarded (registry : Registry) (request : ApplicationRuntimeRequest)
    (trace : List DaemonEvent) : Prop where
  revision : ∃ deployment, registry.activeDeployment request.applicationId = some deployment ∧
    request.expectedRevision = some deployment.id ∧ request.deploymentId = deployment.id
  labelled : ActsLabelled request trace

/-- A payload that is received is handled by the controller. -/
theorem dispatchConnection_of_receive {valueText : Option JsonValue → JsString}
    {parse : PayloadParser} {rawPayload : List Byte}
    (h : receive valueText parse rawPayload = .ok request) :
    dispatchConnection host valueText parse rawPayload = execute host request := by
  unfold dispatchConnection
  rw [h]

/-- Containers are stopped and started behind the guard only, whatever the environment answers,
exactly if the payload is not that of a mutating request that is admitted without a revision;
requests for a deployment with a nameless service aside, for which nothing is stopped or started. -/
theorem revision_guard_iff (host : DaemonHost) (valueText : Option JsonValue → JsString)
    (parse : PayloadParser) (registry : Registry) (rawPayload : List Byte) :
    (∀ request, receive valueText parse rawPayload = .ok request → ∀ trace,
      (dispatchConnection host valueText parse rawPayload).Reaches (registryHandler registry request)
        [] trace → Acts trace → Guarded registry request trace) ↔
      ∀ request, receive valueText parse rawPayload = .ok request →
        mutates request.operation = true → ∀ admission, registry.admitRequest request = .ok admission →
        [] ∉ admission.services.map (·.name) → request.expectedRevision ≠ none := by
  constructor
  · intro hguard request hreceive hmutates admission hadmitted hnamed hmissing
    obtain ⟨trace, hreaches, hacts⟩ := execute_acts host hmutates hadmitted hnamed
    rw [← dispatchConnection_of_receive hreceive] at hreaches
    obtain ⟨deployment, -, hrevision, -⟩ := (hguard request hreceive trace hreaches hacts).revision
    rw [hmissing] at hrevision
    cases hrevision
  · intro hcondition request hreceive trace hreaches hacts
    rw [dispatchConnection_of_receive hreceive] at hreaches
    have hstart : ActsLabelled request [] := fun event hevent => absurd hevent not_mem_nil
    have hlabelled := execute_labelled.reaches hstart hreaches
    by_cases hidle : ∀ admission, mutates request.operation = true →
        registry.admitRequest request = .ok admission → [] ∈ admission.services.map (·.name)
    · -- Nothing can have been stopped or started.
      obtain ⟨event, hevent, hacted⟩ := hacts
      exact absurd ((execute_idle hidle).reaches (fun _ h => absurd h not_mem_nil) hreaches
        event hevent) hacted
    · simp only [not_forall] at hidle
      obtain ⟨admission, hmutates, hadmitted, hnamed⟩ := hidle
      have hcarried := hcondition request hreceive hmutates admission hadmitted hnamed
      obtain ⟨revision, hrevision⟩ := Option.ne_none_iff_exists'.mp hcarried
      obtain ⟨hactive, hdeployment, hequal, -⟩ := activeDeployment_of_admitRequest hadmitted
      exact ⟨⟨admission.deployment, hactive, by rw [hrevision, hequal revision hrevision],
        hdeployment⟩, hlabelled⟩

/-- The identifiers of the example below. -/
def exampleId (last : String) : JsString := js "00000000-0000-4000-8000-00000000000" ++ js last

/-- A registry with one application, its deployment and a service. -/
def smallRegistry : Registry where
  applications := [⟨exampleId "1"⟩]
  deployments := [⟨exampleId "2", exampleId "1"⟩]
  services := [⟨exampleId "3", exampleId "2", js "web"⟩]
  deployment_unique := nodup_singleton _
  service_unique := nodup_singleton _

/-- A request to start the application that carries no revision. -/
def startWithoutRevision : JsonValue :=
  .object [(js "protocolVersion", .string applicationRuntimeProtocolVersion),
    (js "requestId", .string (exampleId "9")), (js "operation", .string (js "START_APPLICATION")),
    (js "applicationId", .string (exampleId "1")), (js "deploymentId", .string (exampleId "2")),
    (js "actor", .object [(js "actorId", .string (js "operator"))]),
    (js "timeoutMs", .number (.finite 30000))]

/-- A payload without a revision starts a container. -/
theorem start_without_revision :
    ∃ value registry, ∀ host parse rawPayload, parse rawPayload = some value →
      ∃ request trace, receive (fun _ => []) parse rawPayload = .ok request ∧
        (dispatchConnection host (fun _ => []) parse rawPayload).Reaches
          (registryHandler registry request) [] trace ∧
        Acts trace ∧ request.expectedRevision = none ∧ ¬ Guarded registry request trace := by
  refine ⟨startWithoutRevision, smallRegistry, fun host parse rawPayload hparse => ?_⟩
  let request : ApplicationRuntimeRequest := ⟨exampleId "9", .startApplication,
    ⟨js "operator", none⟩, exampleId "1", exampleId "2", none, 30000⟩
  let admission : Admission := ⟨⟨exampleId "1"⟩, ⟨exampleId "2", exampleId "1"⟩,
    [⟨exampleId "3", exampleId "2", js "web"⟩]⟩
  have hvalid : DaemonServer.validateRequest (fun _ => []) startWithoutRevision = .ok request := by
    decide +kernel
  have hadmitted : smallRegistry.admitRequest request = .ok admission := by decide +kernel
  have hreceive : receive (fun _ => []) parse rawPayload = .ok request := by
    unfold receive
    rw [hparse]
    exact hvalid
  obtain ⟨trace, hreaches, hacts⟩ := execute_acts host (by decide) hadmitted (by decide +kernel)
  rw [← dispatchConnection_of_receive hreceive] at hreaches
  refine ⟨request, trace, hreceive, hreaches, hacts, rfl, fun hguarded => ?_⟩
  obtain ⟨deployment, -, hrevision, -⟩ := hguarded.revision
  cases hrevision

end ApplicationLifecycleController

end ZimaControl
