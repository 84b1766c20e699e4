import ZimaControl.Daemon.Controller

/-!
# The gate between stopping and starting

Behind its stop phase the daemon inspects all targets. A restart goes on to start them unless a stop
failed or a target is reported running or restarting, and a stop succeeds unless a stop failed or a
target is reported running. Neither asks that every inspection succeeded, and a paused container or
one in an unknown state passes. `restart_gate_iff` says when the gate is nevertheless what it is
meant to be: every target was inspected behind the stop phase and reported `exited`, `created` or
`dead`.

The specifications below describe the trace that each part of a handler leaves, whatever the
environment answers.
-/

namespace ZimaControl

open List TargetResolver

namespace ApplicationLifecycleController

variable {host : DaemonHost} {request : ApplicationRuntimeRequest} {admission : AdmissionResult}

/-! ## What a trace says -/

/-- A state in which a container is stopped. -/
def isStopped : ContainerExecutionState → Bool
  | .exited | .created | .dead => true
  | .running | .restarting | .paused | .unknown => false

/-- The container was inspected, and every inspection of it succeeded and reported it stopped. -/
def ReportedStopped (completions : Completions) (containerId : JsString) : Prop :=
  containerId ∈ completions.map (·.1) ∧
    ∀ c ∈ completions, c.1 = containerId → ∃ insp, c.2 = some insp ∧ isStopped insp.state = true

/-- Behind the stop phase all resolved targets were inspected and reported stopped. -/
def StoppedGate (host : DaemonHost) (request : ApplicationRuntimeRequest)
    (trace : List DaemonEvent) : Prop :=
  ∃ admission containers targets completions, DaemonEvent.admitted admission ∈ trace ∧
    DaemonEvent.listed containers ∈ trace ∧
    resolveTargets host request.applicationId request.deploymentId
      admission.services containers = .ok targets ∧
    (∃ before after, trace = before ++ .inspected .postStop completions :: after ∧
      ∀ id success, DaemonEvent.stopped id success ∉ after) ∧
    ∀ target ∈ targets, ReportedStopped completions target.containerId

/-- Containers are started only behind the gate. -/
def StartsGated (host : DaemonHost) (request : ApplicationRuntimeRequest)
    (trace : List DaemonEvent) : Prop :=
  ∀ before id success after, trace = before ++ .started id success :: after →
    StoppedGate host request before

/-- The state that the map of inspections has for a container. -/
def reportedState (completions : Completions) (containerId : JsString) :
    Option ContainerExecutionState :=
  ((inspectionMap completions).get containerId).map (·.state)

/-- Whenever no stop failed and no inspection behind the stop phase reports a state in `blocking`,
all of them succeeded and reported their container stopped. -/
def InspectionsConclusive (blocking : List ContainerExecutionState) (trace : List DaemonEvent) :
    Prop :=
  ∀ completions, DaemonEvent.inspected .postStop completions ∈ trace →
    (∀ id, DaemonEvent.stopped id false ∉ trace) →
    (∀ c ∈ completions, ∀ state ∈ blocking, reportedState completions c.1 ≠ some state) →
    ∀ c ∈ completions, ∃ insp, c.2 = some insp ∧ isStopped insp.state = true

/-! ## The phases -/

variable (targets : List ResolvedTargetContainer) (trace : List DaemonEvent)

/-- The stop phase leaves an event for each container, and no failures if all stops succeeded. -/
theorem stopTargets_spec : (stopTargets targets).Ensures daemonHandler (fun r trace' =>
      ∃ failures, r = .ok failures ∧ ∃ events, trace' = trace ++ events ∧
        (∀ e ∈ events, ∃ id success, e = .stopped id success) ∧
        (failures = [] ↔ ∀ id, DaemonEvent.stopped id false ∉ events)) trace := by
  induction targets generalizing trace with
  | nil => exact ⟨[], rfl, [], by simp, by simp, by simp⟩
  | cons target rest ih =>
    rw [stopTargets]
    refine .attemptCall fun choice r trace' hexec => ?_
    cases choice <;> cases hexec
    refine .bindOk (ih _) ?_
    rintro failures trace'' ⟨events, rfl, hevents, hnone⟩
    refine ⟨_, rfl, .stopped target.containerId r.isOk :: events, ?_, ?_, ?_⟩
    · exact append_assoc ..
    · exact forall_mem_cons.mpr ⟨⟨_, _, rfl⟩, hevents⟩
    cases r with
    | ok _ => simpa [Except.isOk, Except.toBool] using hnone
    | error e =>
      simp only [Except.isOk, Except.toBool, cons_ne_nil, mem_cons, not_or, false_iff, not_forall]
      exact ⟨target.containerId, fun h => h.1 rfl⟩

/-- The events of a start phase: looking at the deadline, and starting. -/
def IsStartEvent : DaemonEvent → Prop
  | .deadline _ | .started _ _ => True
  | _ => False

/-- The deadline had not passed and a container was started. -/
def Begun (events : List DaemonEvent) : Prop :=
  ∃ id success rest, events = .deadline false :: .started id success :: rest

/-- No deadline that had not passed and no start. -/
def NotBegun (events : List DaemonEvent) : Prop :=
  DaemonEvent.deadline false ∉ events ∧ ∀ id success, DaemonEvent.started id success ∉ events

/-- The start phase begins with a start if the deadline has not passed. -/
theorem startTargets_spec (phase suffix : String) (targets : List ResolvedTargetContainer)
    (trace : List DaemonEvent) :
    (startTargets phase suffix targets).Ensures daemonHandler (fun _ trace' =>
      ∃ events, trace' = trace ++ events ∧ (∀ e ∈ events, IsStartEvent e) ∧
        (Begun events ∨ NotBegun events)) trace := by
  induction targets generalizing trace with
  | nil => exact ⟨[], by simp, by simp, .inr (by simp [NotBegun])⟩
  | cons target rest ih =>
    rw [startTargets]
    refine .bindCall fun choice r trace' hexec => ?_
    cases choice <;> cases hexec
    rename_i passed
    refine ⟨passed, rfl, ?_⟩
    cases passed with
    | true => exact ⟨[.deadline true], rfl, by simp [IsStartEvent], .inr (by simp [NotBegun])⟩
    | false =>
      rw [if_neg Bool.false_ne_true]
      refine .attemptCall fun choice r trace' hexec => ?_
      cases choice <;> cases hexec
      -- Whatever comes next, the phase has begun with a start.
      have hbegun : ∀ trace₃ events,
          trace₃ = trace ++ [.deadline false] ++ [.started target.containerId r.isOk] ++ events →
          (∀ e ∈ events, IsStartEvent e) → ∃ events', trace₃ = trace ++ events' ∧
            (∀ e ∈ events', IsStartEvent e) ∧ (Begun events' ∨ NotBegun events') := by
        rintro _ events rfl hevents
        refine ⟨.deadline false :: .started target.containerId r.isOk :: events, by simp, ?_,
          .inl ⟨_, _, _, rfl⟩⟩
        simpa [IsStartEvent] using hevents
      cases r with
      | error e => cases e <;> exact hbegun _ [] (append_nil _).symm (by simp)
      | ok _ =>
        refine .mono (ih _) ?_
        rintro r' trace₃ ⟨events, htrace₃, hevents, -⟩
        exact hbegun trace₃ events htrace₃ hevents

/-- The verification behind a start phase leaves its inspection. -/
theorem verifyRunning_spec (code : AdapterErrorCode) (title : String)
    (targets : List ResolvedTargetContainer) (trace : List DaemonEvent) :
    (verifyRunning code title targets).Ensures daemonHandler (fun _ trace' =>
      ∃ completions, trace' = trace ++ [.inspected .postStart completions]) trace := by
  refine .bindCall fun choice r trace' hexec => ?_
  cases choice <;> simp only [daemonHandler, DaemonCall.exec] at hexec <;> try cases hexec
  split_ifs at hexec
  cases hexec
  refine ⟨_, rfl, ?_⟩
  dsimp only
  split_ifs <;> exact ⟨_, rfl⟩

/-- Listing and resolving the containers. -/
theorem resolvedTargets_spec :
    (resolvedTargets host request admission).Ensures daemonHandler (fun r trace' =>
      match r with
      | .error _ => trace' = trace ∨ ∃ containers, trace' = trace ++ [.listed containers]
      | .ok targets => ∃ containers, trace' = trace ++ [.listed containers] ∧
          resolveTargets host request.applicationId request.deploymentId
            admission.services containers = .ok targets) trace := by
  refine .bind (S := fun r trace' => match r with
    | .error _ => trace' = trace
    | .ok containers => trace' = trace ++ [.listed containers]) ?_ ?_ ?_
  · refine .perform fun choice r trace' hexec => ?_
    cases choice <;> simp only [daemonHandler, DaemonCall.exec] at hexec <;> try cases hexec
    rename_i r₀
    cases r₀ <;> (simp only at hexec; cases hexec; rfl)
  · intro containers trace' htrace
    cases hresolve : resolveTargets host request.applicationId
        request.deploymentId admission.services containers with
    | error e => exact .inr ⟨containers, htrace⟩
    | ok targets => exact ⟨containers, htrace, hresolve⟩
  · intro e trace' htrace
    exact .inl htrace

/-- The inspection behind the stop phase. -/
theorem inspectPostStop_spec :
    (ask (.inspectAll .postStop (targets.map (·.containerId)))).Ensures daemonHandler (fun r trace' =>
      ∃ completions : Completions, r = .ok completions ∧
        (completions.map (·.1)).Perm (targets.map (·.containerId)) ∧
        trace' = trace ++ [.inspected .postStop completions]) trace := by
  refine .perform fun choice r trace' hexec => ?_
  cases choice <;> simp only [daemonHandler, DaemonCall.exec] at hexec <;> try cases hexec
  split_ifs at hexec with hperm
  cases hexec
  exact ⟨_, rfl, hperm, rfl⟩

/-! ## The handlers -/

/-- The events of a stop phase with its gate: the list, the stops and the inspection. -/
structure StopPhase (host : DaemonHost) (request : ApplicationRuntimeRequest)
    (admission : AdmissionResult) (targets : List ResolvedTargetContainer)
    (completions : Completions) (events : List DaemonEvent) : Prop where
  events : ∃ containers stops, events = .listed containers :: stops ++
      [.inspected .postStop completions] ∧
    resolveTargets host request.applicationId request.deploymentId
      admission.services containers = .ok targets ∧
    ∀ e ∈ stops, ∃ id success, e = .stopped id success
  inspected : (completions.map (·.1)).Perm (targets.map (·.containerId))

/-- The events of a restart: it does not come to its start phase, or the gate lets it pass. -/
inductive RestartEvents (host : DaemonHost) (request : ApplicationRuntimeRequest)
    (admission : AdmissionResult) (events : List DaemonEvent) : Prop
  | closed (h : ∀ e ∈ events, ¬ IsStartEvent e)
  | opened (targets : List ResolvedTargetContainer) (completions : Completions)
      (phase rest : List DaemonEvent) (heq : events = phase ++ rest)
      (hphase : StopPhase host request admission targets completions phase)
      (hstops : ∀ id, DaemonEvent.stopped id false ∉ phase)
      (hgate : ∀ t ∈ targets, ∀ state ∈ [ContainerExecutionState.running, .restarting],
        reportedState completions t.containerId ≠ some state)
      (hrest : ∀ e ∈ rest, IsStartEvent e ∨ ∃ c, e = .inspected .postStart c)
      (hstart : Begun rest ∨ NotBegun rest)

/-- The events of a stop: an error, with a reason in the trace if the gate was reached, or the gate
let it pass. -/
inductive StopEvents (host : DaemonHost) (request : ApplicationRuntimeRequest)
    (admission : AdmissionResult) (events : List DaemonEvent) :
    Except DaemonError ApplicationRuntimeResponse → Prop
  | failed (e : DaemonError) (h : ∀ completions, DaemonEvent.inspected .postStop completions ∈ events →
      (∃ id, DaemonEvent.stopped id false ∈ events) ∨
        ∃ c ∈ completions, reportedState completions c.1 = some .running) :
      StopEvents host request admission events (.error e)
  | passed (targets : List ResolvedTargetContainer) (completions : Completions)
      (hphase : StopPhase host request admission targets completions events)
      (hstops : ∀ id, DaemonEvent.stopped id false ∉ events)
      (hgate : ∀ t ∈ targets, reportedState completions t.containerId ≠ some .running) :
      StopEvents host request admission events (.ok (succeeded request))

/-- The targets that the map of inspections has in certain states. -/
theorem filter_reported_eq_nil (completions : Completions) (p : DockerInspection → Bool)
    (blocking : List ContainerExecutionState) (hp : ∀ insp, p insp = true ↔ insp.state ∈ blocking) :
    (targets.filter fun t => ((inspectionMap completions).get t.containerId).any p) = [] ↔
      ∀ t ∈ targets, ∀ state ∈ blocking, reportedState completions t.containerId ≠ some state := by
  rw [filter_eq_nil_iff]
  refine forall₂_congr fun t _ => ?_
  unfold reportedState
  cases (inspectionMap completions).get t.containerId with
  | none => simp
  | some insp =>
    simp only [Option.any_some, Option.map_some, ne_eq, Option.some.injEq, hp]
    constructor
    · rintro hnot state hstate rfl
      exact hnot hstate
    · intro hall hmem
      exact hall _ hmem rfl

/-- A restart leaves the events of a restart. -/
theorem handleRestart_spec :
    (handleRestart host request admission).Ensures daemonHandler (fun _ trace' =>
      ∃ events, trace' = trace ++ events ∧ RestartEvents host request admission events) trace := by
  refine .bind (resolvedTargets_spec trace) ?_ ?_
  · rintro targets trace₁ ⟨containers, htrace₁, hresolve⟩
    refine .bindOk (stopTargets_spec targets.reverse trace₁) ?_
    rintro failures trace₂ ⟨stops, htrace₂, hstops, hnone⟩
    refine .bindOk (inspectPostStop_spec targets trace₂) ?_
    rintro completions trace₃ ⟨hperm, htrace₃⟩
    have hphase : StopPhase host request admission targets completions
        (.listed containers :: stops ++ [.inspected .postStop completions]) :=
      ⟨⟨containers, stops, rfl, hresolve, hstops⟩, hperm⟩
    have htrace : trace₃ = trace ++
        (.listed containers :: stops ++ [.inspected .postStop completions]) := by
      rw [htrace₃, htrace₂, htrace₁]
      simp
    dsimp only
    split_ifs with hclosed
    · -- The gate is closed, and the restart ends with the inspection.
      refine ⟨_, htrace, .closed fun e he => ?_⟩
      simp only [cons_append, mem_cons, mem_append, not_mem_nil, or_false] at he
      rcases he with rfl | he | rfl
      · exact id
      · obtain ⟨id, success, rfl⟩ := hstops e he
        exact False.elim
      · exact id
    · simp only [gt_iff_lt, length_pos_iff, ne_eq, not_or, not_not] at hclosed
      have hgate := (filter_reported_eq_nil targets completions _ [.running, .restarting]
        (fun insp => by simp)).mp hclosed.2
      have hnofail : ∀ id, DaemonEvent.stopped id false ∉
          (.listed containers :: stops ++ [.inspected .postStop completions] :
            List DaemonEvent) := by
        intro id hmem
        simp only [cons_append, mem_cons, mem_append, not_mem_nil, or_false,
          reduceCtorEq, false_or] at hmem
        exact hnone.mp hclosed.1 id hmem
      -- What the start phase and the verification leave behind the gate.
      have hopened : ∀ trace₄ rest, trace₄ = trace₃ ++ rest →
          (∀ e ∈ rest, IsStartEvent e ∨ ∃ c, e = .inspected .postStart c) →
          Begun rest ∨ NotBegun rest →
          ∃ events, trace₄ = trace ++ events ∧ RestartEvents host request admission events := by
        intro trace₄ rest htrace₄ hrest hstart
        refine ⟨_, ?_, .opened targets completions _ rest rfl hphase hnofail hgate hrest hstart⟩
        rw [htrace₄, htrace, append_assoc]
      refine .bind (startTargets_spec _ _ targets trace₃) ?_ ?_
      · rintro - trace₄ ⟨rest, htrace₄, hrest, hstart⟩
        refine .bind (S := fun _ trace₅ =>
          ∃ events, trace₅ = trace ++ events ∧ RestartEvents host request admission events)
          (Task.Ensures.mono (verifyRunning_spec _ _ targets trace₄) ?_)
          (fun _ _ h => h) fun _ _ h => h
        rintro - trace₅ ⟨final, htrace₅⟩
        refine hopened trace₅ (rest ++ [.inspected .postStart final]) ?_ ?_ ?_
        · rw [htrace₅, htrace₄, append_assoc]
        · intro e he
          rcases mem_append.mp he with he | he
          · exact .inl (hrest e he)
          · exact .inr ⟨final, mem_singleton.mp he⟩
        · rcases hstart with ⟨id, success, rest', rfl⟩ | hstart
          · exact .inl ⟨id, success, _, rfl⟩
          · exact .inr (by simpa [NotBegun] using hstart)
      · rintro e trace₄ ⟨rest, htrace₄, hrest, hstart⟩
        exact hopened trace₄ rest htrace₄ (fun e he => .inl (hrest e he)) hstart
  · rintro e trace₁ (htrace₁ | ⟨containers, htrace₁⟩)
    · exact ⟨[], by simpa using htrace₁, .closed (by simp)⟩
    · exact ⟨_, htrace₁, .closed (by simp [IsStartEvent])⟩

/-- A stop leaves the events of a stop. -/
theorem handleStop_spec : (handleStop host request admission).Ensures daemonHandler (fun r trace' =>
      ∃ events, trace' = trace ++ events ∧ StopEvents host request admission events r) trace := by
  refine .bind (resolvedTargets_spec trace) ?_ ?_
  · rintro targets trace₁ ⟨containers, htrace₁, hresolve⟩
    refine .bindOk (stopTargets_spec targets.reverse trace₁) ?_
    rintro failures trace₂ ⟨stops, htrace₂, hstops, hnone⟩
    by_cases hfailures : failures.length > 0
    · -- Failed stops are reported before anything is inspected.
      rw [if_pos hfailures]
      refine ⟨.listed containers :: stops, ?_, .failed _ fun completions hmem => ?_⟩
      · rw [htrace₂, htrace₁, append_assoc, singleton_append]
      · rcases mem_cons.mp hmem with hmem | hmem
        · cases hmem
        · obtain ⟨id, success, heq⟩ := hstops _ hmem
          cases heq
    rw [if_neg hfailures]
    refine .bindOk (inspectPostStop_spec targets trace₂) ?_
    rintro completions trace₃ ⟨hperm, htrace₃⟩
    have htrace : trace₃ = trace ++
        (.listed containers :: stops ++ [.inspected .postStop completions]) := by
      rw [htrace₃, htrace₂, htrace₁]
      simp
    have hgate := filter_reported_eq_nil targets completions (·.state = .running) [.running]
      (fun insp => by simp)
    simp only [gt_iff_lt, length_pos_iff, ne_eq, not_not] at hfailures
    dsimp only
    -- the gate of a stop knows RUNNING only
    split_ifs with hrunning
    · rw [gt_iff_lt, length_pos_iff, ne_eq, hgate] at hrunning
      push Not at hrunning
      obtain ⟨t, ht, state, hstate, hreported⟩ := hrunning
      obtain rfl := mem_singleton.mp hstate
      refine ⟨_, htrace, .failed _ fun completions₁ hmem => .inr ?_⟩
      simp only [cons_append, mem_cons, mem_append, not_mem_nil, or_false,
        reduceCtorEq, false_or, DaemonEvent.inspected.injEq, true_and] at hmem
      rcases hmem with hmem | rfl
      · obtain ⟨id, success, heq⟩ := hstops _ hmem
        cases heq
      · obtain ⟨c, hc, hid⟩ := mem_map.mp
          (hperm.symm.subset (mem_map_of_mem (f := (·.containerId)) ht))
        exact ⟨c, hc, by rw [hid, hreported]⟩
    · rw [gt_iff_lt, length_pos_iff, ne_eq, not_not, hgate] at hrunning
      refine ⟨_, htrace, .passed targets completions
        ⟨⟨containers, stops, rfl, hresolve, hstops⟩, hperm⟩ ?_ ?_⟩
      · intro id hmem
        simp only [cons_append, mem_cons, mem_append, not_mem_nil, or_false,
          reduceCtorEq, false_or] at hmem
        exact hnone.mp hfailures id hmem
      · exact fun t ht => hrunning t ht .running (mem_singleton_self _)
  · rintro e trace₁ (htrace₁ | ⟨containers, htrace₁⟩)
    · exact ⟨[], by simpa using htrace₁, .failed e (by simp)⟩
    · exact ⟨_, htrace₁, .failed e (by simp)⟩

/-! ## Requests -/

/-- The response succeeded. -/
def Succeeds (r : Except DaemonError ApplicationRuntimeResponse) : Prop :=
  ∃ response, r = .ok response ∧ response.outcome = .known .succeeded

/-- An exception is not a success. -/
theorem not_succeeds_error {e : DaemonError} : ¬ Succeeds (.error e) := by
  rintro ⟨response, hresponse, -⟩
  cases hresponse

/-- No error code is a success. -/
theorem outcomeForErrorCode_ne_succeeded (code : AdapterErrorCode) :
    outcomeForErrorCode code ≠ .succeeded := by
  cases code <;> decide

/-- An error response is not a success, and building it leaves no event. -/
theorem buildErrorResponse_spec (error : DaemonError) (trace : List DaemonEvent) :
    (buildErrorResponse request error).Ensures daemonHandler
      (fun r trace' => ¬ Succeeds r ∧ trace' = trace) trace := by
  refine .bindCall fun choice r trace' hexec => ?_
  cases choice <;> cases hexec
  refine ⟨_, rfl, ?_, rfl⟩
  rintro ⟨response, hresponse, hsucceeded⟩
  cases hresponse
  exact outcomeForErrorCode_ne_succeeded _ (by simpa using hsucceeded)

/-- What the handler of an operation that takes the lock ensures, the request ensures, unless it
does not come to it. -/
theorem execute_spec (host : DaemonHost) (request : ApplicationRuntimeRequest)
    (hmutates : mutates request.operation = true)
    {S : AdmissionResult → Except DaemonError ApplicationRuntimeResponse → List DaemonEvent → Prop}
    (hhandle : ∀ admission, (handle host request admission).Ensures daemonHandler (S admission)
      [.admitted admission]) :
    (execute host request).Ensures daemonHandler (fun r trace =>
      (¬ Succeeds r ∧ ∀ e ∈ trace, ∃ admission, e = .admitted admission) ∨
        ∃ admission r₀, S admission r₀ trace ∧ (Succeeds r ↔ Succeeds r₀)) [] := by
  refine .attemptCall fun choice r trace₁ hexec => ?_
  cases choice <;> simp only [daemonHandler, DaemonCall.exec] at hexec <;> try cases hexec
  rename_i answer
  cases answer with
  | error e =>
    cases hexec
    refine .mono (buildErrorResponse_spec e []) fun r trace₂ h => .inl ⟨h.1, ?_⟩
    rw [h.2]
    simp
  | ok admission =>
    cases hexec
    dsimp only
    rw [if_pos hmutates]
    refine .attemptCall fun choice r trace₂ hexec => ?_
    cases choice <;> cases hexec
    cases r with
    | error e =>
      refine .mono (buildErrorResponse_spec e _) fun r trace₃ h => .inl ⟨h.1, ?_⟩
      rw [h.2]
      exact forall_mem_singleton.mpr ⟨admission, rfl⟩
    -- the lock is held around the handler and given back after it
    | ok _ =>
      refine .bind (S := fun r trace =>
        ∃ r₀, S admission r₀ trace ∧ (Succeeds r ↔ Succeeds r₀)) ?_ ?_ ?_
      · refine .bindAttempt (hhandle admission) fun r₀ trace₃ hS => ?_
        cases r₀ with
        | ok response => exact ⟨.ok response, hS, Iff.rfl⟩
        | error e =>
          refine .mono (buildErrorResponse_spec e trace₃) ?_
          rintro r trace₄ ⟨hr, rfl⟩
          exact ⟨.error e, hS, iff_of_false hr not_succeeds_error⟩
      · intro response trace₃ hS
        refine .bindCall fun choice r trace₄ hexec => ?_
        cases choice <;> simp only [daemonHandler, DaemonCall.exec] at hexec <;> try cases hexec
        rename_i r₀
        cases r₀ <;> (simp only at hexec; cases hexec)
        exact ⟨_, rfl, .inr ⟨admission, hS⟩⟩
      · intro e trace₃ hS
        exact .inr ⟨admission, hS⟩

/-! ## The gate -/

variable {targets : List ResolvedTargetContainer} {completions : Completions}
  {phase : List DaemonEvent}

section

variable (h : StopPhase host request admission targets completions phase)
include h

/-- All targets were inspected, so each of them is reported stopped if each inspection is. -/
theorem StopPhase.reported_iff :
    (∀ target ∈ targets, ReportedStopped completions target.containerId) ↔
      ∀ c ∈ completions, ∃ insp, c.2 = some insp ∧ isStopped insp.state = true := by
  constructor
  · intro hreported c hc
    obtain ⟨target, htarget, hid⟩ := mem_map.mp
      (h.inspected.subset (mem_map_of_mem (f := (·.1)) hc))
    exact (hreported target htarget).2 c hc hid.symm
  · intro hall target htarget
    exact ⟨h.inspected.symm.subset (mem_map_of_mem (f := (·.containerId)) htarget),
      fun c hc _ => hall c hc⟩

variable (rest : List DaemonEvent)
  (hrest : ∀ e ∈ rest, IsStartEvent e ∨ ∃ c, e = .inspected .postStart c)
include hrest

/-- The events of a request behind its stop phase: admission, list, stops, the inspection of the
gate, and what follows. -/
theorem StopPhase.mem {e : DaemonEvent}
    (hmem : e ∈ .admitted admission :: phase ++ rest) :
    e = .admitted admission ∨
    (∃ containers, e = .listed containers ∧ resolveTargets host request.applicationId
      request.deploymentId admission.services containers = .ok targets) ∨
    (∃ id success, e = .stopped id success) ∨ e = .inspected .postStop completions ∨
    IsStartEvent e ∨ ∃ c, e = .inspected .postStart c := by
  obtain ⟨containers, stops, rfl, hresolve, hstops⟩ := h.events
  simp only [cons_append, mem_cons, mem_append, not_mem_nil, or_false] at hmem
  rcases hmem with hmem | hmem | (hmem | hmem) | hmem
  · exact .inl hmem
  · exact .inr (.inl ⟨containers, hmem, hresolve⟩)
  · exact .inr (.inr (.inl (hstops e hmem)))
  · exact .inr (.inr (.inr (.inl hmem)))
  · exact .inr (.inr (.inr (.inr (hrest e hmem))))

/-- An inspection behind the stop phase is the one of the gate. -/
theorem StopPhase.inspected_eq {completions' : Completions}
    (hmem : DaemonEvent.inspected .postStop completions' ∈ .admitted admission :: phase ++ rest) :
    completions' = completions := by
  rcases h.mem rest hrest hmem with h | ⟨_, h, _⟩ | ⟨_, _, h⟩ | h | h | ⟨_, h⟩ <;> cases h
  rfl

/-- The gate holds behind a stop phase if the inspections report all containers stopped. -/
theorem StopPhase.gate_iff :
    StoppedGate host request (.admitted admission :: phase ++ rest) ↔
      ∀ c ∈ completions, ∃ insp, c.2 = some insp ∧ isStopped insp.state = true := by
  rw [← h.reported_iff]
  obtain ⟨containers, stops, hphase, hresolve, hstops⟩ := h.events
  constructor
  · rintro ⟨admission', containers', targets', completions', hadmitted, hlisted, hresolve',
      ⟨before, after, htrace, -⟩, hreported⟩
    obtain rfl : completions' = completions :=
      h.inspected_eq rest hrest (by rw [htrace]; simp)
    -- Only one admission and one list stand in the trace.
    obtain rfl : admission' = admission := by
      rcases h.mem rest hrest hadmitted with h | ⟨_, h, _⟩ | ⟨_, _, h⟩ | h | h | ⟨_, h⟩ <;> cases h
      rfl
    rcases h.mem rest hrest hlisted with h | ⟨_, h, hresolve⟩ | ⟨_, _, h⟩ | h | h | ⟨_, h⟩ <;> cases h
    cases hresolve.symm.trans hresolve'
    exact hreported
  · intro hreported
    refine ⟨admission, containers, targets, completions, by simp, by simp [hphase], hresolve,
      ⟨.admitted admission :: .listed containers :: stops, rest, by simp [hphase], ?_⟩, hreported⟩
    intro id success hmem
    rcases hrest _ hmem with hstart | ⟨c, hc⟩
    · exact hstart.elim
    · cases hc

/-- The inspections are conclusive if the gate that has let pass reports all containers stopped. -/
theorem StopPhase.conclusive_iff {blocking : List ContainerExecutionState}
    (hnofail : ∀ id, DaemonEvent.stopped id false ∉ phase)
    (hgate : ∀ t ∈ targets, ∀ state ∈ blocking,
      reportedState completions t.containerId ≠ some state) :
    InspectionsConclusive blocking (.admitted admission :: phase ++ rest) ↔
      ∀ c ∈ completions, ∃ insp, c.2 = some insp ∧ isStopped insp.state = true := by
  constructor
  · intro hconclusive
    obtain ⟨containers, stops, hphase, -, -⟩ := h.events
    refine hconclusive completions (by simp [hphase]) ?_ ?_
    · intro id hmem
      simp only [cons_append, mem_cons, reduceCtorEq, false_or, mem_append] at hmem
      rcases hmem with hmem | hmem
      · exact hnofail id hmem
      · rcases hrest _ hmem with hstart | ⟨c, hc⟩
        · exact hstart.elim
        · cases hc
    · intro c hc state hstate
      obtain ⟨target, htarget, hid⟩ := mem_map.mp
        (h.inspected.subset (mem_map_of_mem (f := (·.1)) hc))
      rw [← hid]
      exact hgate target htarget state hstate
  · intro hall completions' hmem _ _
    rw [h.inspected_eq rest hrest hmem]
    exact hall

end

/-- An event that does not stand in the first part of a trace stands behind it. -/
theorem exists_of_append_eq_append_cons {first second before after : List DaemonEvent}
    {e : DaemonEvent} (hnot : e ∉ first) (h : first ++ second = before ++ e :: after) :
    ∃ mid, before = first ++ mid ∧ second = mid ++ e :: after := by
  rcases append_eq_append_iff.mp h with ⟨mid, hbefore, hsecond⟩ | ⟨mid, hfirst, hafter⟩
  · exact ⟨mid, hbefore, hsecond⟩
  cases mid with
  | nil => exact ⟨[], by simpa using hfirst.symm, by simpa using hafter.symm⟩
  | cons e' mid =>
    cases hafter
    exact absurd (by simp [hfirst]) hnot

/-- The gate of a restart. -/
theorem RestartEvents.gated_iff {events : List DaemonEvent}
    (h : RestartEvents host request admission events) :
    StartsGated host request (.admitted admission :: events) ↔
      (DaemonEvent.deadline false ∈ .admitted admission :: events →
        InspectionsConclusive [.running, .restarting] (.admitted admission :: events)) := by
  cases h with
  | closed h =>
    refine iff_of_true ?_ ?_
    · intro before id success after htrace
      have hmem : DaemonEvent.started id success ∈ .admitted admission :: events := by
        rw [htrace]
        simp
      exact (h (.started id success) (by simpa using hmem) trivial).elim
    · intro hmem
      exact (h (.deadline false) (by simpa using hmem) trivial).elim
  | opened targets completions phase rest heq hphase hstops hgate hrest hstart =>
    subst heq
    obtain ⟨containers, stops, hevents, -, hstopped⟩ := hphase.events
    have hnot : ∀ e ∈ DaemonEvent.admitted admission :: phase, ¬ IsStartEvent e := by
      intro e he
      simp only [hevents, cons_append, mem_cons, mem_append, not_mem_nil, or_false] at he
      rcases he with rfl | rfl | he | rfl <;> try exact id
      obtain ⟨id, success, rfl⟩ := hstopped e he
      exact False.elim
    rw [← cons_append, hphase.conclusive_iff rest hrest hstops hgate]
    constructor
    · intro hgated hdeadline
      rcases hstart with ⟨id, success, rest', rfl⟩ | hstart
      · -- The gate stood open before the first start.
        have hopen := hgated (.admitted admission :: phase ++ [.deadline false]) id success rest'
          (by simp)
        exact (hphase.gate_iff _ (by simp [IsStartEvent])).mp hopen
      · rcases mem_append.mp hdeadline with hmem | hmem
        · exact (hnot _ hmem trivial).elim
        · exact absurd hmem hstart.1
    · intro hall before id success after htrace
      have hnotstart : DaemonEvent.started id success ∉ DaemonEvent.admitted admission :: phase :=
        fun hmem => hnot _ hmem trivial
      obtain ⟨mid, rfl, hmid⟩ := exists_of_append_eq_append_cons hnotstart htrace
      have hbegun : Begun rest := hstart.resolve_right fun h => h.2 id success (by simp [hmid])
      obtain ⟨_, _, _, hbegun⟩ := hbegun
      refine (hphase.gate_iff mid fun e he => hrest e (by simp [hmid, he])).mpr (hall ?_)
      simp [hbegun]

/-- The gate of a stop. -/
theorem StopEvents.gated_iff {events : List DaemonEvent}
    {r : Except DaemonError ApplicationRuntimeResponse}
    (h : StopEvents host request admission events r) :
    (Succeeds r → StoppedGate host request (.admitted admission :: events)) ↔
      InspectionsConclusive [.running] (.admitted admission :: events) := by
  cases h with
  | failed e h =>
    refine iff_of_true (fun hsucceeds => absurd hsucceeds not_succeeds_error) ?_
    intro completions hmem hnofail hnone
    rcases h completions (by simpa using hmem) with ⟨id, hfailed⟩ | ⟨c, hc, hrunning⟩
    · exact absurd (mem_cons_of_mem _ hfailed) (hnofail id)
    · exact absurd hrunning (hnone c hc .running (mem_singleton_self _))
  | passed targets completions hphase hstops hgate =>
    have hall : ∀ t ∈ targets, ∀ state ∈ [ContainerExecutionState.running],
        reportedState completions t.containerId ≠ some state := by
      intro t ht state hstate
      rw [mem_singleton.mp hstate]
      exact hgate t ht
    have hgate_iff := hphase.gate_iff [] (by simp)
    have hconclusive_iff := hphase.conclusive_iff [] (by simp) hstops hall
    rw [append_nil] at hgate_iff hconclusive_iff
    rw [hgate_iff, hconclusive_iff]
    exact forall_prop_of_true ⟨_, rfl, rfl⟩

/-- A restart starts containers only behind the gate exactly if the inspections behind the stop
phase are conclusive or the deadline has passed, and a stop that succeeds has passed it exactly if
they are conclusive. -/
theorem restart_gate_iff (host : DaemonHost) (request : ApplicationRuntimeRequest)
    (choices rest : List DaemonChoice) (r : Except DaemonError ApplicationRuntimeResponse)
    (trace : List DaemonEvent)
    (heval : (execute host request).eval daemonHandler [] choices = some (r, trace, rest)) :
    (request.operation = .restartApplication →
      (StartsGated host request trace ↔ (DaemonEvent.deadline false ∈ trace →
        InspectionsConclusive [.running, .restarting] trace))) ∧
    (request.operation = .stopApplication →
      ((Succeeds r → StoppedGate host request trace) ↔ InspectionsConclusive [.running] trace)) := by
  constructor
  · intro hoperation
    have hspec := (execute_spec host request (by rw [hoperation]; rfl) fun admission => by
        rw [handle, hoperation]
        exact handleRestart_spec [.admitted admission]).eval heval
    rcases hspec with ⟨-, hadmitted⟩ | ⟨admission, r₀, ⟨events, rfl, hevents⟩, -⟩
    · -- The request did not come to its handler.
      refine iff_of_true ?_ ?_
      · rintro before id success after rfl
        obtain ⟨_, h⟩ := hadmitted (.started id success) (by simp)
        cases h
      · intro hmem
        obtain ⟨_, h⟩ := hadmitted _ hmem
        cases h
    · exact hevents.gated_iff
  · intro hoperation
    have hspec := (execute_spec host request (by rw [hoperation]; rfl) fun admission => by
        rw [handle, hoperation]
        exact handleStop_spec [.admitted admission]).eval heval
    rcases hspec with ⟨hnot, hadmitted⟩ | ⟨admission, r₀, ⟨events, rfl, hevents⟩, hr⟩
    · refine iff_of_true (fun hsucceeds => absurd hsucceeds hnot) fun completions hmem => ?_
      obtain ⟨_, h⟩ := hadmitted _ hmem
      cases h
    · rw [hr]
      exact hevents.gated_iff

/-- A request for an application of one service. -/
def webRequest (operation : AdapterOperationType) : ApplicationRuntimeRequest where
  requestId := js "request"
  operation := operation
  actor := ⟨js "user", none⟩
  applicationId := js "application"
  deploymentId := js "deployment"
  expectedRevision := none
  timeoutMs := 30000

/-- The container of the service. -/
def webContainer : ApplicationContainerSummary where
  containerId := js "c1"
  serviceName := js "web"
  state := .running
  labels := [(js "zcc.application_id", js "application"), (js "zcc.deployment_id", js "deployment")]

/-- A host on which no container has a replica index. -/
def webHost : DaemonHost := ⟨fun _ => [], fun _ _ => .eq⟩

/-- The container is admitted, listed and stopped, and the inspection behind answers `inspection`.
-/
def webChoices (inspection : Option DockerInspection) : List DaemonChoice :=
  [.admission (.ok ⟨[⟨js "service", js "web"⟩]⟩), .outcome (.ok ()), .containers (.ok [webContainer]),
    .outcome (.ok ()), .inspections [(js "c1", inspection)]]

/-- The events that these answers leave. -/
def webTrace (inspection : Option DockerInspection) : List DaemonEvent :=
  [.admitted ⟨[⟨js "service", js "web"⟩]⟩, .listed [webContainer], .stopped (js "c1") true,
    .inspected .postStop [(js "c1", inspection)]]

/-- The answers to the start phase, the verification behind it and the release of the lock. -/
def webStart : List DaemonChoice :=
  [.flag false, .outcome (.ok ()), .inspections [(js "c1", some ⟨js "c1", .running⟩)],
    .outcome (.ok ())]

/-- The events of the start phase and the verification behind it. -/
def webStarted : List DaemonEvent :=
  [.deadline false, .started (js "c1") true,
    .inspected .postStart [(js "c1", some ⟨js "c1", .running⟩)]]

/-- A restart whose container is reported to have exited starts it behind the gate. -/
theorem restart_gate_iff_exited :
    (execute webHost (webRequest .restartApplication)).eval daemonHandler []
        (webChoices (some ⟨js "c1", .exited⟩) ++ webStart) =
      some (.ok (succeeded (webRequest .restartApplication)),
        webTrace (some ⟨js "c1", .exited⟩) ++ webStarted, []) ∧
    StartsGated webHost (webRequest .restartApplication)
      (webTrace (some ⟨js "c1", .exited⟩) ++ webStarted) := by
  have heval : (execute webHost (webRequest .restartApplication)).eval daemonHandler []
        (webChoices (some ⟨js "c1", .exited⟩) ++ webStart) =
      some (.ok (succeeded (webRequest .restartApplication)),
        webTrace (some ⟨js "c1", .exited⟩) ++ webStarted, []) := by
    decide +kernel
  refine ⟨heval, ((restart_gate_iff _ _ _ _ _ _ heval).1 rfl).mpr fun _ completions hmem _ _ => ?_⟩
  simp only [webTrace, webStarted, cons_append, nil_append, mem_cons,
    not_mem_nil, reduceCtorEq, DaemonEvent.inspected.injEq, false_and, true_and, or_false,
    false_or] at hmem
  subst hmem
  exact forall_mem_singleton.mpr ⟨_, rfl, rfl⟩

/-- A restart starts a container, and a stop succeeds, whose inspection behind the stop phase
failed. -/
theorem failed_inspection_opens_gate :
    (∃ r, (execute webHost (webRequest .restartApplication)).eval daemonHandler []
        (webChoices none ++ webStart) = some (r, webTrace none ++ webStarted, []) ∧
      ¬ StartsGated webHost (webRequest .restartApplication) (webTrace none ++ webStarted)) ∧
    ∃ r, (execute webHost (webRequest .stopApplication)).eval daemonHandler []
        (webChoices none ++ [.outcome (.ok ())]) = some (r, webTrace none, []) ∧
      Succeeds r ∧ ¬ StoppedGate webHost (webRequest .stopApplication) (webTrace none) := by
  have hresolve : resolveTargets webHost (js "application") (js "deployment")
      [⟨js "service", js "web"⟩] [webContainer] =
        .ok [target ⟨js "service", js "web"⟩ webContainer (.finite 1)] := by
    decide +kernel
  have hclosed : ∀ operation rest, (∀ e ∈ rest, IsStartEvent e) →
      ¬ StoppedGate webHost (webRequest operation) (webTrace none ++ rest) := by
    intro operation rest hrest hgate
    have hphase : StopPhase webHost (webRequest operation) ⟨[⟨js "service", js "web"⟩]⟩
        [target ⟨js "service", js "web"⟩ webContainer (.finite 1)]
        [(js "c1", none)] (webTrace none).tail :=
      ⟨⟨[webContainer], [.stopped (js "c1") true], rfl, hresolve,
        forall_mem_singleton.mpr ⟨_, _, rfl⟩⟩, .refl _⟩
    obtain ⟨insp, hinsp, -⟩ := (hphase.gate_iff rest fun e he => .inl (hrest e he)).mp hgate _
      (mem_singleton_self _)
    cases hinsp
  refine ⟨⟨.ok (succeeded (webRequest .restartApplication)), by decide +kernel, fun hgated => ?_⟩,
    .ok (succeeded (webRequest .stopApplication)), by decide +kernel, ⟨_, rfl, rfl⟩, ?_⟩
  · exact hclosed _ [.deadline false] (forall_mem_singleton.mpr trivial)
      (hgated (webTrace none ++ [.deadline false]) (js "c1") true _ rfl)
  · simpa using hclosed .stopApplication [] (forall_mem_nil _)

end ApplicationLifecycleController

end ZimaControl
