import ZimaControl.Mutation.Denial
import ZimaControl.Mutation.Exclusion

/-!
# A parent agrees with its step

An operation that `claimParentWithStep` creates has one step for ever, and every call that writes the
step writes the aggregate of the step over the operation. `PairChange` says once what a call does to
such a pair, as long as the call is not a `transitionWithAudit` of the operation itself: that one
writes the operation and leaves the step, and `MutationRecoveryService` makes it for every operation
it finds.

As long as no such call is made for it, the operation is the aggregate of its step, and its status
follows `transitionActionStatus` with two exceptions: recovery rejects a step that was executing but
never dispatched, and a step that is cancelled before it executes makes a failed parent.
-/

namespace ZimaControl

open JsMap

namespace RepositoryCall

/-- The operation that a `transitionWithAudit` moves. -/
def transitionTarget : RepositoryCall → Option JsString
  | transitionWithAudit input => some input.operationId
  | _ => none

end RepositoryCall

namespace InMemoryDurableMutationRepository

variable {r : Repository} {host : Host}

variable {operation : Operation} {step : OperationStep}

/-- How a call moves the step of an operation from one status to another. -/
inductive StepMove (operation : Operation) (step : OperationStep)
    (next : ActionStatus) : RepositoryCall → Prop
  /-- `transitionStepWithAudit`, along the automaton. -/
  | transition (input : DurableStepTransitionInput) (target : input.operationId = operation.id)
      (status : input.status = next) (allowed : next ∈ step.status.allowedTransitions) :
      StepMove operation step next (.transitionStepWithAudit input)
  /-- `finalizeStepAndParent`, along the automaton, by the owner of an operation that was taken. -/
  | finalize (input : DurableStepFinalizationInput) (taken : operation.fencingToken ≠ none)
      (allowed : next ∈ step.status.allowedTransitions) :
      StepMove operation step next (.finalizeStepAndParent input)
  /-- `rejectParentChildBeforeOwnership`. -/
  | reject (operationId childStepId : JsString) (now : Timestamp) (reasonCode : MutationErrorCode)
      (validated : step.status = .validated) (rejected : next = .rejected) :
      StepMove operation step next
        (.rejectParentChildBeforeOwnership operationId childStepId now reasonCode)
  /-- `recoverStepAndParent`, along its own table. -/
  | recover (lease : MutationLease) (now : Timestamp) (status : next = recoveryStatus step)
      (allowed : transitionAllowedForRecovery step.status next = true) :
      StepMove operation step next (.recoverStepAndParent operation.id step.id lease now)

/-- What a call does to an operation and its step. -/
inductive PairChange (operation : Operation) (step : OperationStep)
    (c : RepositoryCall) : Operation → OperationStep → Prop
  /-- The operation stays, and the step up to its tokens. -/
  | kept {step' : OperationStep} (status : step'.status = step.status)
      (aggregate : aggregateParentFromSteps [step'] = aggregateParentFromSteps [step]) :
      PairChange operation step c operation step'
  /-- The step moves, and the operation takes its aggregate. -/
  | moved {operation' : Operation} {step' : OperationStep}
      (move : StepMove operation step step'.status c)
      (aggregate : aggregateParentFromSteps [step'] = .ok operation'.aggregate) :
      PairChange operation step c operation' step'

/-- The pair after a call. -/
def Follows (r' : Repository) (operation : Operation)
    (step : OperationStep) (c : RepositoryCall) : Prop :=
  ∃ operation' step', operation'.id = operation.id ∧ step'.id = step.id ∧
    Pair r' operation' step' ∧ PairChange operation step c operation' step'

section

variable {operation : Operation} {step : OperationStep}
  {c : RepositoryCall} {r' : Repository}

section

variable (hpair : Pair r operation step)
include hpair

/-- A call that leaves both rows leaves the pair. -/
theorem Pair.follows_of_get (hop : r'.operations.get operation.id = r.operations.get operation.id)
    (hst : r'.steps.get step.id = r.steps.get step.id) : Follows r' operation step c :=
  ⟨operation, step, rfl, rfl,
    ⟨hop.trans hpair.operation_get, hst.trans hpair.step_get, hpair.parent⟩, .kept rfl rfl⟩

/-- A call that leaves the rows leaves the pair. -/
theorem Pair.follows_of_rows (hops : r'.operations = r.operations) (hsteps : r'.steps = r.steps) :
    Follows r' operation step c :=
  hpair.follows_of_get (by rw [hops]) (by rw [hsteps])

/-- A new operation is another one. -/
theorem Pair.follows_of_insert {new : Operation}
    (habsent : r.operations.get new.id = none) (hops : r'.operations = r.operations.set new.id new)
    (hsteps : r'.steps = r.steps) : Follows r' operation step c := by
  refine hpair.follows_of_get ?_ (by rw [hsteps])
  rw [hops, get_set_of_absent _ _ habsent hpair.operation_get, hpair.operation_get]

end

/-- A written step with its parent is the pair, or another pair. -/
theorem Pair.follows_of_write (hwf : r.rows.Wf) (hpair : Pair r operation step)
    {op updated : Operation} {st st' : OperationStep} (w : StepWritten r op st st' updated)
    (hops : r'.operations = r.operations.set updated.id updated)
    (hsteps : r'.steps = r.steps.set st'.id st') (hmove : StepMove op st st'.status c) :
    Follows r' operation step c := by
  by_cases hid : st.id = step.id
  · obtain rfl : st = step := by
      have hget := w.step_get
      rw [hid, hpair.step_get] at hget
      exact (Option.some.inj hget).symm
    obtain rfl : op = operation := by
      have hget := w.operation_get
      rw [← w.parent, hpair.parent, hpair.operation_get] at hget
      exact (Option.some.inj hget).symm
    refine ⟨updated, st', w.sameOperation.id, w.sameStep.id, ⟨?_, ?_, ?_⟩, .moved hmove w.aggregate⟩
    · rw [hops, get_set_self]
    · rw [hsteps, get_set_self]
    · rw [w.sameStep.parentOperationId, w.parent, w.sameOperation.id]
  · -- another step has another parent
    refine hpair.follows_of_get ?_ ?_
    · rw [hops, get_set_of_ne]
      rw [w.sameOperation.id]
      intro heq
      exact hid (hwf.step_unique w.step_get hpair.step_get (by rw [w.parent, hpair.parent, heq]))
    · rw [hsteps, get_set_of_ne]
      rw [w.sameStep.id]
      exact hid

end

/-- The authorisation of a dispatch writes nothing but the authorisation. -/
theorem dispatch_rows (host : Host) {c : RepositoryCall} (hwf : r.rows.Wf)
    (hc : c.dispatchTarget.isSome = true) :
    (c.next host r).operations = r.operations ∧ (c.next host r).locks = r.locks ∧
      ∀ id step, r.steps.get id = some step → ∃ step', (c.next host r).steps.get id = some step' ∧
        (step' = step ∨
          step.status = .executing ∧ ∃ token now, step' = dispatchedStep step token now) := by
  have hchange := next_callChange host c hwf
  change (c.next host r).rows.operations = _ ∧ (c.next host r).rows.locks = _ ∧ ∀ id step, _ →
    ∃ step', (c.next host r).rows.steps.get id = _ ∧ _
  generalize (c.next host r).rows = rows' at hchange ⊢
  cases hchange with
  | same => exact ⟨rfl, rfl, fun id step hget => ⟨step, hget, .inl rfl⟩⟩
  | @dispatched _ _ _ row _ checks =>
    obtain ⟨-, -, -, -, -, hexecuting, -⟩ := stepDispatchChecks_ok checks
    refine ⟨rfl, rfl, fun id step hget => ?_⟩
    by_cases hid : row.id = id
    · subst hid
      rw [(stepDispatchChecks_same hwf checks).1] at hget
      cases hget
      exact ⟨_, get_set_self _ _ _, .inr ⟨hexecuting, _, _, rfl⟩⟩
    · exact ⟨step, (get_set_of_ne _ _ hid).trans hget, .inl rfl⟩
  | _ => cases hc

/-- What every call does to a pair, a `transitionWithAudit` of its operation apart. -/
theorem Pair.next (host : Host) (hwf : r.rows.Wf) (hpair : Pair r operation step)
    (c : RepositoryCall) (hc : c.transitionTarget ≠ some operation.id) :
    Follows (c.next host r) operation step c := by
  obtain ⟨rows', hrows⟩ : ∃ rows', (c.next host r).rows = rows' := ⟨_, rfl⟩
  have hchange := next_callChange host c hwf
  have hops : (c.next host r).operations = rows'.operations := congrArg Rows.operations hrows
  have hsteps : (c.next host r).steps = rows'.steps := congrArg Rows.steps hrows
  rw [hrows] at hchange
  cases hchange with
  | same | granted | recoveryGranted | renewed | released => exact hpair.follows_of_rows hops hsteps
  | claimed _ _ absent => exact hpair.follows_of_insert absent hops hsteps
  | created _ _ _ absent absentStep =>
    refine hpair.follows_of_get ?_ ?_
    · rw [hops, hpair.operation_get]
      exact get_set_of_absent _ _ absent hpair.operation_get
    · rw [hsteps, hpair.step_get]
      exact get_set_of_absent _ _ absentStep hpair.step_get
  -- a write of the pair moves both rows together, and one of another pair moves neither
  | rejected _ _ _ _ checks written =>
    obtain ⟨-, -, -, -, hvalidated, -⟩ := rejectChecks_eq_ok.mp checks
    exact hpair.follows_of_write hwf written hops hsteps (.reject _ _ _ _ hvalidated rfl)
  | transitioned input checks written =>
    obtain ⟨hop, -, -, -, -, -, -, hnext, -⟩ := stepTransitionChecks_eq_ok.mp checks
    exact hpair.follows_of_write hwf written hops hsteps
      (.transition input (hwf.operation_id hop).symm rfl hnext)
  | finalized input checks written =>
    obtain ⟨-, -, -, -, -, -, htoken, -, hnext, -⟩ := finalizeChecks_eq_ok.mp checks
    rw [dropLock_operations] at hops
    rw [dropLock_steps] at hsteps
    exact hpair.follows_of_write hwf written hops hsteps (.finalize input (by simp [htoken]) hnext)
  | recovered _ _ lease now checks _ allowed written =>
    obtain ⟨hop, hst, -⟩ := recoverChecks_eq_ok.mp checks
    obtain rfl := hwf.operation_id hop
    obtain rfl := hwf.step_id hst
    rw [dropLock_operations] at hops
    rw [dropLock_steps] at hsteps
    exact hpair.follows_of_write hwf written hops hsteps (.recover lease now rfl allowed)
  | dispatched _ _ target _ =>
    obtain ⟨hops, -, hsteps⟩ := dispatch_rows host hwf (by rw [target]; rfl)
    obtain ⟨step', hget, rfl | ⟨-, token, now, rfl⟩⟩ := hsteps step.id step hpair.step_get
    · exact hpair.follows_of_get (by rw [hops]) (hget.trans hpair.step_get.symm)
    · refine ⟨operation, dispatchedStep step token now, rfl, rfl,
        ⟨by rw [hops, hpair.operation_get], hget, hpair.parent⟩, .kept rfl ?_⟩
      rw [aggregateParentFromSteps_eq, aggregateParentFromSteps_eq]
      rfl
  -- a transition of another operation
  | moved _ checks =>
    have hget := (transitionChecks_ok checks).1
    rw [dropLock_operations] at hops
    rw [dropLock_steps] at hsteps
    refine hpair.follows_of_get ?_ (by rw [hsteps]; rfl)
    rw [hops, get_set_of_ne]
    intro hid
    exact hc (congrArg some ((hwf.operation_id hget).symm.trans hid))

/-! ## Runs -/

/-- An operation and its step agree; a step that has not moved was never taken. -/
structure Synced (operation : Operation) (step : OperationStep) : Prop where
  aggregate : aggregateParentFromSteps [step] = .ok operation.aggregate
  untaken : step.status = .validated → operation.fencingToken = none
  validated : step.status ≠ .pending ∧ step.status ≠ .authorized

/-- The status of an operation that agrees with its step. -/
theorem Synced.status (h : Synced operation step) :
    operation.status = parentStatus step.status := by
  have hfields := h.aggregate
  rw [aggregateParentFromSteps_eq] at hfields
  rw [← aggregateOfStep_status, Except.ok.inj hfields]
  rfl

/-- The moves of a parent's status that are not moves of the automaton. -/
inductive ParentException (operation : Operation)
    (step : OperationStep) : RepositoryCall → ActionStatus → Prop
  /-- Recovery rejects what was executing but not dispatched. -/
  | recovered (lease : MutationLease) (now : Timestamp) (executing : operation.status = .executing)
      (undispatched : step.dispatchAuthorizedAt = none)
      (untouched : step.externalEffect = .notStarted) :
      ParentException operation step (.recoverStepAndParent operation.id step.id lease now) .rejected
  /-- A step that is cancelled before it executes makes a failed parent. -/
  | cancelled (input : DurableStepTransitionInput) (target : input.operationId = operation.id)
      (status : input.status = .cancelled) (validated : operation.status = .validated) :
      ParentException operation step (.transitionStepWithAudit input) .failed

section

variable {operation operation' : Operation}
  {step step' : OperationStep} {c : RepositoryCall}

/-- A step that moves leaves a live status and does not return to one before execution. -/
theorem StepMove.live {next : ActionStatus} (hmove : StepMove operation step next c)
    (hstart : step.status ≠ .pending ∧ step.status ≠ .authorized) :
    step.status.isTerminal = false ∧ next ≠ .validated ∧ next ≠ .pending ∧ next ≠ .authorized := by
  cases hmove with
  | transition input target status allowed =>
    revert allowed hstart
    cases step.status <;> cases next <;> decide
  | finalize input taken allowed =>
    revert allowed hstart
    cases step.status <;> cases next <;> decide
  | reject operationId childStepId now reasonCode validated rejected =>
    rw [validated, rejected]
    decide
  | recover lease now status allowed =>
    have hnext : next = .indeterminate ∨ next = .rejected := by
      rw [status, recoveryStatus]
      split_ifs <;> simp
    revert allowed
    rcases hnext with rfl | rfl <;> cases step.status <;> decide

/-- A call keeps agreement. -/
theorem Synced.next (h : Synced operation step)
    (hchange : PairChange operation step c operation' step') : Synced operation' step' := by
  cases hchange with
  | kept status aggregate =>
    refine ⟨aggregate.trans h.aggregate, fun hv => h.untaken (status ▸ hv), ?_⟩
    rw [status]
    exact h.validated
  | moved move aggregate =>
    obtain ⟨-, hv, hp, ha⟩ := move.live h.validated
    exact ⟨aggregate, fun hv' => absurd hv' hv, hp, ha⟩

/-- A terminal parent stays as it is. -/
theorem Synced.terminal (h : Synced operation step)
    (hchange : PairChange operation step c operation' step')
    (hterm : operation.status.isTerminal = true) : operation' = operation := by
  cases hchange with
  | kept status aggregate => rfl
  | moved move aggregate =>
    rw [h.status, isTerminal_parentStatus, (move.live h.validated).1] at hterm
    cases hterm

/-- The parent of a moved step moves along the automaton, or in one of the two other ways. -/
theorem StepMove.parent {next : ActionStatus} (hmove : StepMove operation step next c)
    (h : Synced operation step) :
    parentStatus next ∈ operation.status.allowedTransitions ∨
      ParentException operation step c (parentStatus next) := by
  have hstatus := h.status
  cases hmove with
  | transition input target status allowed =>
    -- this transition the parent's table lacks
    by_cases hcancel : next = .cancelled ∧ step.status = .validated
    · obtain ⟨rfl, hv⟩ := hcancel
      exact .inr (.cancelled input target status (by rw [hstatus, hv]; rfl))
    left
    rw [hstatus]
    have hstart := h.validated
    revert allowed hcancel hstart
    cases step.status <;> cases next <;> decide
  | finalize input taken allowed =>
    left
    rw [hstatus]
    have hv : step.status ≠ .validated := fun hv => taken (h.untaken hv)
    have hstart := h.validated
    revert allowed hv hstart
    cases step.status <;> cases next <;> decide
  | reject operationId childStepId now reasonCode validated rejected =>
    left
    rw [hstatus, validated, rejected]
    decide
  | recover lease now status allowed =>
    subst status
    by_cases huncertain : recoveryUncertain step = true
    · left
      rw [recoveryStatus, if_pos huncertain] at allowed ⊢
      rw [hstatus]
      revert allowed
      cases step.status <;> decide
    · have hrejected : recoveryStatus step = .rejected := by rw [recoveryStatus, if_neg huncertain]
      rw [hrejected] at allowed ⊢
      by_cases hexecuting : step.status = .executing
      · right
        simp only [recoveryUncertain, Bool.or_eq_true, decide_eq_true_eq, not_or, ne_eq, not_not,
          Bool.not_eq_true, Option.isSome_eq_false_iff, Option.isNone_iff_eq_none] at huncertain
        exact .recovered lease now (by rw [hstatus, hexecuting]; rfl) huncertain.1 huncertain.2
      · left
        rw [hstatus]
        revert allowed hexecuting
        cases step.status <;> decide

/-- The status of a parent stays, moves along the automaton, or moves in one of the two other
ways. -/
theorem Synced.move (h : Synced operation step)
    (hchange : PairChange operation step c operation' step') :
    operation'.status = operation.status ∨
      operation'.status ∈ operation.status.allowedTransitions ∨
      ParentException operation step c operation'.status := by
  have hnext := (h.next hchange).status
  cases hchange with
  | kept status aggregate => exact .inl rfl
  | moved move aggregate =>
    right
    rw [hnext]
    exact move.parent h

end

/-- A new operation and its step are stored and agree. -/
theorem pair_of_created {input : DurableParentChildClaimInput} {value : DurableParentChildOperation}
    {r' : Repository} (h : r.claimParentWithStep host input = (.ok ⟨.created, value⟩, r')) :
    ∃ operation step, operation.id = input.plan.operationId ∧ Pair r' operation step ∧
      Synced operation step := by
  obtain ⟨-, -, hrows⟩ := claimParentWithStep_written (congrArg Prod.fst h)
  rw [h] at hrows
  have hops : r'.operations = _ := congrArg Rows.operations hrows
  have hsteps : r'.steps = _ := congrArg Rows.steps hrows
  refine ⟨operationFromClaim input.toDurableMutationClaimInput none none, stepFromClaim input, rfl,
    ⟨?_, ?_, rfl⟩, ⟨rfl, fun _ => rfl, nofun, nofun⟩⟩
  · rw [hops]
    exact get_set_self _ _ _
  · rw [hsteps]
    exact get_set_self _ _ _

/-- The calls that take the operation of `sampleParentClaim` and move its step. -/
def takenStep (status : ActionStatus) : List RepositoryCall :=
  [ .acquireLease (js "application:app") (js "op") 1 120001,
    .transitionStepWithAudit
      { operationId := js "op", childStepId := js "step", expected := [.validated],
        status, now := 2, eventType := .stateChanged, ownership := sampleLease "op",
        adoptOwnership := true } ]

/-- An operation that `claimParentWithStep` created and for which no `transitionWithAudit` was
called is the aggregate of its steps; every call but a `transitionWithAudit` leaves its status,
moves it along the automaton, or is one of the two exceptions; and a terminal parent stays as it is.
-/
theorem parent_agrees_with_steps (host : Host) (auditFaults : List Bool)
    (input : DurableParentChildClaimInput) (value : DurableParentChildOperation)
    {r r' r'' : Repository} (hrun : ReachedBy host (fun _ _ => True) (initial auditFaults) r)
    (hcreated : r.claimParentWithStep host input = (.ok ⟨.created, value⟩, r'))
    (hrun' : ReachedBy host (fun _ c => c.transitionTarget ≠ some input.plan.operationId) r' r'') :
    ∃ operation step, r''.operations.get input.plan.operationId = some operation ∧
      r''.stepsFor input.plan.operationId = [step] ∧
      aggregateParentFromSteps (r''.stepsFor input.plan.operationId) = .ok operation.aggregate ∧
      ∀ c : RepositoryCall, c.transitionTarget ≠ some input.plan.operationId →
        ∃ operation', (c.next host r'').operations.get input.plan.operationId = some operation' ∧
          (operation'.status = operation.status ∨
            operation'.status ∈ operation.status.allowedTransitions ∨
            ParentException operation step c operation'.status) ∧
          (operation.status.isTerminal = true → operation' = operation) := by
  have hwf := hrun.wf (initial_wf auditFaults)
  have hwf' : r'.rows.Wf := by
    have hnext := next_wf host (.claimParentWithStep input) hwf
    change Rows.Wf (r.claimParentWithStep host input).2.rows at hnext
    rwa [hcreated] at hnext
  -- the pair is there and agrees, call after call
  obtain ⟨hwf'', operation, step, hid, hpair, hsynced⟩ := hrun'.induct
    (fun r => r.rows.Wf ∧ ∃ operation step, operation.id = input.plan.operationId ∧
      Pair r operation step ∧ Synced operation step) ⟨hwf', pair_of_created hcreated⟩ (by
    rintro s c hc ⟨hs, operation, step, hid, hpair, hsynced⟩
    rw [← hid] at hc ⊢
    obtain ⟨operation', step', hid', -, hpair', hchange⟩ := hpair.next host hs c hc
    exact ⟨next_wf host c hs, operation', step', hid', hpair', hsynced.next hchange⟩)
  rw [← hid]
  refine ⟨operation, step, hpair.operation_get, hpair.stepsFor hwf'', ?_, fun c hc => ?_⟩
  · rw [hpair.stepsFor hwf'']
    exact hsynced.aggregate
  · obtain ⟨operation', step', hid', -, hpair', hchange⟩ := hpair.next host hwf'' c hc
    refine ⟨operation', ?_, hsynced.move hchange, hsynced.terminal hchange⟩
    rw [← hid']
    exact hpair'.operation_get

/-- The conditions are met by an operation whose step executes: it is the aggregate of its step. -/
theorem parent_agrees_with_steps_executing :
    let r := run plainHost ((initial []).claimParentWithStep plainHost
      (sampleParentClaim "op" "step" "key-1" 1)).2 (takenStep .executing)
    ∃ operation, r.operations.get (js "op") = some operation ∧ operation.status = .executing ∧
      aggregateParentFromSteps (r.stepsFor (js "op")) = .ok operation.aggregate := by
  intro r
  have hkind : ((initial []).claimParentWithStep plainHost
      (sampleParentClaim "op" "step" "key-1" 1)).1.toOption.map (·.kind) = some .created := by
    decide +kernel
  have hstatus : r.statusOf (js "op") = some .executing := by decide +kernel
  have hcalls : ∀ c ∈ takenStep .executing, c.transitionTarget ≠ some (js "op") := by decide +kernel
  have hrun : ReachedBy plainHost (fun _ c => c.transitionTarget ≠ some (js "op")) _ r :=
    reachedBy_run_of _ _ hcalls
  rcases hclaim : (initial []).claimParentWithStep plainHost
    (sampleParentClaim "op" "step" "key-1" 1) with ⟨e | ⟨kind, value⟩, r'⟩
  · rw [hclaim] at hkind
    cases hkind
  rw [hclaim] at hkind hrun
  obtain rfl : kind = .created := Option.some.inj hkind
  obtain ⟨operation, -, hget, -, hagg, -⟩ :=
    parent_agrees_with_steps plainHost [] _ value .refl hclaim hrun
  refine ⟨operation, hget, ?_, hagg⟩
  have hget' : r.operations.get (js "op") = some operation := hget
  simpa [statusOf, hget'] using hstatus

/-! ## Recovery of an abandoned operation -/

/-- A performer that is abandoned when its step executes and nothing is dispatched, and a recovery
service that finds its operation. -/
def abandonedRun (recovery : Job) (steps : ℕ) : List ServiceLabel :=
  [.start (sampleJob "key-00001")] ++ claiming 0 "op" "step" 1 ++ starting 0 2 ++
    [.start recovery, .step 2 (.time 200000)] ++ List.replicate steps (.step 2 .fixed)

/-- What the run leaves of the operation: its status and the one that its steps give. -/
def abandonedStatuses (recovery : Job) (steps : ℕ) : Option (Option ActionStatus × Option ActionStatus) :=
  ((serviceMachine sampleConfig Job.isService).run (ServicePool.initial [])
    (abandonedRun recovery steps)).map fun p =>
      (p.world.repository.statusOf (js "op"),
        (aggregateParentFromSteps (p.world.repository.stepsFor (js "op"))).toOption.map (·.status))

/-- The operation of `sampleParentClaim` after the first calls that move its step to a status. -/
def takenStatus (status : ActionStatus) (calls : ℕ) : Option ActionStatus :=
  (run plainHost ((initial []).claimParentWithStep plainHost
    (sampleParentClaim "op" "step" "key-1" 1)).2 ((takenStep status).take calls)).statusOf (js "op")

/-- `MutationRecoveryService` makes the operation `INDETERMINATE` while its step is `EXECUTING`;
`MutationStepRecoveryService` moves both from `EXECUTING` to `REJECTED`, and a step cancelled before
it executes moves its operation from `VALIDATED` to `FAILED`: no moves of the automaton. -/
theorem recovery_leaves_automaton :
    abandonedStatuses .recover 3 = some (some .indeterminate, some .executing) ∧
      abandonedStatuses .recoverSteps 3 = some (some .executing, some .executing) ∧
      abandonedStatuses .recoverSteps 4 = some (some .rejected, some .rejected) ∧
      ActionStatus.rejected ∉ ActionStatus.allowedTransitions .executing ∧
      takenStatus .cancelled 1 = some .validated ∧ takenStatus .cancelled 2 = some .failed ∧
      ActionStatus.failed ∉ ActionStatus.allowedTransitions .validated := by
  decide +kernel

end InMemoryDurableMutationRepository

end ZimaControl
