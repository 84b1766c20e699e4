import ZimaControl.Mutation.EffectCalls
import ZimaControl.Mutation.Exclusion

/-!
# No effect is denied

Every service for operations with steps keeps the contract of `EffectContract`, so its invariant
holds along every run: while a Docker request is under way or may have had an effect, neither the
step nor its operation says that nothing was done. Steps that have ended stay as they are, so none
of them said so earlier in the run either.
-/

namespace ZimaControl

open Service World InMemoryDurableMutationRepository Contract

variable {config : ServiceConfig} {i : ℕ} {o stepId : JsString} {P : World → Prop}
  {E : Failure → Prop} {α : Type}

/-- The errors that performers pass on: a `MutationError` or a simulated crash. -/
def Failure.Known : Failure → Prop
  | .mutation .. | .crashSimulation => True
  | _ => False

variable {code : MutationErrorCode} {t : Service α}

section

variable (h : (effectContract config).Keeps i (fun _ => True) P t)
include h

/-- `safe` keeps what its body keeps and throws known errors. -/
theorem keeps_safe : (effectContract config).Keeps i Failure.Known P (safe t code) := by
  refine .tryCatch h fun e _ => ?_
  cases e <;> exact .throw trivial

/-- `safe` keeps what its body keeps. -/
theorem keeps_known : (effectContract config).Keeps i (fun _ => True) P (safe t code) :=
  (keeps_safe h).mono fun _ _ => trivial

end

/-- The request for a target snapshot keeps what the others keep. -/
theorem keeps_resolve (hP : (effectContract config).Stable i P) (applicationId : JsString)
    (action : ActionType) :
    (effectContract config).Keeps i (fun _ => True) P (resolve config applicationId action) := by
  refine (keeps_clock hP).bind fun now => Keeps.bind (E := fun _ => True)
    (Keeps.attempt ((keeps_query hP (.getApplicationSnapshot applicationId) rfl).bind
      fun snapshot => (keeps_query hP (.getAuthoritativeEvidence applicationId) rfl).bind
        fun evidence => Keeps.pure _)) fun r => ?_
  split
  · exact .throw trivial
  · exact .ret fun _ _ => trivial

/-! ## The ends of an operation -/

namespace ApplicationMutationOrchestrator

variable {lease : MutationLease}

section

variable (hP : (effectContract config).Stable i P)
include hP

/-- `finalize` keeps what the others keep; it denies the effect only of a quiet operation. -/
theorem keeps_finalize {status : ActionStatus} {verificationState : VerificationState}
    {recoveryState : RecoveryState} {effect : ExternalEffectState}
    (hquiet : deniesEffect (parentStatus status) effect = true →
      ∀ w, w.Honest → P w → w.Quiet i o) :
    (effectContract config).Keeps i Failure.Known P
      (finalize o stepId lease status verificationState recoveryState effect code) := by
  refine (keeps_clock hP).bind fun now => (keeps_safe (keeps_repository hP rfl ?_)).bind
    fun _ => Keeps.pure _
  rintro w o' hw hPw ⟨rfl, hdenies⟩ -
  exact hquiet hdenies w hw hPw

/-- An operation that ends as indeterminate denies nothing. -/
theorem keeps_finalize_indeterminate {verificationState : VerificationState}
    {recoveryState : RecoveryState} {effect : ExternalEffectState} :
    (effectContract config).Keeps i Failure.Known P
      (finalize o stepId lease .indeterminate verificationState recoveryState effect code) :=
  keeps_finalize hP fun h => by simp [deniesEffect, parentStatus] at h

/-- `dispatchAuthorized` keeps what the others keep, and a no means that the operation is not
dispatched. -/
theorem triple_dispatchAuthorized :
    (effectContract config).Triple i P (dispatchAuthorized o stepId)
      fun r w => (P w ∧ ∀ e, r = .error e → e.Known) ∧
        (r = .ok false → w.Honest ∧ ¬ w.rows.Dispatched o) := by
  have hfind : (effectContract config).Triple i P (repository (.findOperationWithSteps o))
      fun r w => P w ∧ ∀ value, r = .ok (some value) → w.Honest ∧ ∀ step ∈ value.steps,
        step.dispatchAuthorizedAt = none → ¬ w.rows.Dispatched o := by
    refine .neutral hP fun w choice r w' hw hinv hexec => ?_
    obtain ⟨h₁, h₂, h₃⟩ := neutral_repository (c := .findOperationWithSteps o) hinv rfl
      (fun _ h => h.elim) hexec
    refine ⟨h₁, h₂, h₃, fun _ value hr => ⟨h₁, fun step hstep hd => ?_⟩⟩
    obtain ⟨rfl, rfl⟩ := World.exec_repository_eq hexec
    exact findOperationWithSteps_dispatched h₁.wf
      (Except.ok.inj hr) hstep hd
  -- the errors are only renamed
  have hsafe : (effectContract config).Triple i P (safe (repository (.findOperationWithSteps o)))
      fun r w => (P w ∧ ∀ e, r = .error e → e.Known) ∧ ∀ value, r = .ok (some value) →
        w.Honest ∧ ∀ step ∈ value.steps, step.dispatchAuthorizedAt = none →
          ¬ w.rows.Dispatched o := by
    refine .tryCatch hfind (fun b w hw => ⟨⟨hw.1, by rintro e ⟨⟩⟩, hw.2⟩) fun e w hw => ?_
    cases e <;> exact ⟨⟨hw.1, by rintro e ⟨⟩; trivial⟩, by rintro e ⟨⟩⟩
  refine .bind hsafe (fun value w hw => ?_) fun e w hw =>
    ⟨⟨hw.1.1, by rintro e' ⟨⟩; exact hw.1.2 e rfl⟩, by rintro ⟨⟩⟩
  split
  next => exact ⟨⟨hw.1.1, by rintro e ⟨⟩; trivial⟩, by rintro ⟨⟩⟩
  next step hstep =>
    refine ⟨⟨hw.1.1, by rintro e ⟨⟩⟩, fun hno => ?_⟩
    obtain ⟨v, rfl, hv⟩ := Option.bind_eq_some_iff.mp hstep
    obtain ⟨hhonest, hnot⟩ := hw.2 v rfl
    exact ⟨hhonest, hnot step (List.mem_of_find?_eq_some hv) (by simpa using hno)⟩

/-- `dispatchAuthorized` keeps what the others keep. -/
theorem keeps_dispatchAuthorized :
    (effectContract config).Keeps i Failure.Known P (dispatchAuthorized o stepId) :=
  (triple_dispatchAuthorized hP).mono (fun _ hw => hw) fun _ _ hw => hw.1

end

/-- Once the executor has ended, a no of `dispatchAuthorized` means that the operation is quiet. -/
theorem triple_dispatchAuthorized_quiet :
    (effectContract config).Triple i (fun w => ∃ e r, w.EndedWith i o e r)
      (dispatchAuthorized o stepId)
      fun r w => w.Mine i o ∧ (r = .ok false → w.Quiet i o) := by
  refine (triple_dispatchAuthorized (Stable.exists fun e => Stable.exists
    fun r => stable_endedWith)).mono (fun _ hw => hw) ?_
  rintro r w ⟨⟨⟨e, r', hended⟩, -⟩, hno⟩
  exact ⟨hended.mine, fun h => hended.quiet (hno h).1 ((hno h).1.not_active (hno h).2)⟩

/-- The performer may take the operation to have had no effect, in any world the contract allows. -/
def Unaffected (i : ℕ) (o : JsString) (w : World) : Prop := w.Honest → w.Quiet i o

/-- What is unaffected stays so. -/
theorem stable_unaffected : (effectContract config).Stable i (Unaffected i o) :=
  fun w w' hstep hw _ => stable_quiet w w' hstep (hw hstep.1)

/-- What a performer knows after an execution that ran out of time. -/
def TimedOutWith (i : ℕ) (o : JsString)
    (acknowledgement : Option (Except Failure ActionExecutionResult)) (w : World) : Prop :=
  w.Mine i o ∧ (acknowledgedSafe acknowledgement = true → Unaffected i o w)

variable {acknowledgement : Option (Except Failure ActionExecutionResult)}

/-- Others do not break it. -/
theorem stable_timedOutWith : (effectContract config).Stable i (TimedOutWith i o acknowledgement) :=
  stable_mine.and (stable_unaffected.imp _)

/-- Ending an execution that ran out of time denies no effect. -/
theorem keeps_finalizeTimedOut :
    (effectContract config).Keeps i Failure.Known (TimedOutWith i o acknowledgement)
      (finalizeTimedOut o stepId lease acknowledgement) := by
  refine (keeps_dispatchAuthorized stable_timedOutWith).bind fun dispatched => ?_
  by_cases h : acknowledgedSafe acknowledgement ∧ dispatched = false
  · rw [if_pos h]
    exact keeps_finalize stable_timedOutWith fun _ w hw hP => hP.2 h.1 hw
  · rw [if_neg h]
    exact keeps_finalize_indeterminate stable_timedOutWith

variable (operation : Operation)

/-- The execution under the deadline. -/
theorem triple_executeWithDeadline (lease : MutationLease) (plan : ActionPlan) :
    (effectContract config).Triple i (Unexecuted i operation.id)
      (executeWithDeadline operation lease plan) fun
      | .ok (.timedOut acknowledgement), w => TimedOutWith i operation.id acknowledgement w
      | .ok (.completed value), w => ∃ e, w.EndedWith i operation.id e (.ok (.execution value))
      | .error _, w => ∃ e r, w.EndedWith i operation.id e r := by
  refine (keeps_clock (E := fun _ => False) stable_unexecuted).bindTriple (fun now => ?_)
    fun _ _ h => h.elim
  split_ifs with hdeadline
  · -- The executor is not started.
    exact fun w hw => ⟨hw.mine, fun _ => hw.quiet⟩
  refine .bind (triple_startExecution plan (executionContext operation lease) rfl)
    (fun work => ?_) (by rintro e w ⟨_, ⟨⟩, -⟩)
  rintro w ⟨e, ⟨⟩, hw⟩
  refine (Triple.bind (triple_raceExecution (e := work)) (fun answer => ?_) ?_) w hw
  · rintro w ⟨hw, _, ⟨⟩, hanswer⟩
    rcases answer with _ | reason | value
    · -- The deadline has passed; the acknowledgement window is a second race.
      refine (Triple.bind (triple_raceExecution (e := work)) (fun answer => ?_) ?_) w hw
      · rintro w ⟨hw, _, ⟨⟩, hanswer⟩
        refine ⟨hw.mine, fun hsafe hhonest => ?_⟩
        rcases answer with _ | reason | value
        · cases hsafe
        · cases hsafe
        · exact (hanswer _ rfl).quiet_of_safe hhonest hsafe
      · rintro e w ⟨-, _, ⟨⟩, -⟩
    · exact ⟨work, _, hanswer _ rfl⟩
    · exact ⟨work, hanswer _ rfl⟩
  · rintro e w ⟨-, _, ⟨⟩, -⟩

/-- Nor does ending an executor that threw. -/
theorem triple_finalizeThrown :
    (effectContract config).Triple i (fun w => ∃ e r, w.EndedWith i o e r)
      (finalizeThrown o stepId lease) fun r w => (∀ value, r ≠ .ok value) ∧ w.Working i := by
  have hthrow : ∀ {code message} {P : World → Prop}, (∀ w, P w → w.Working i) →
      (effectContract config).Triple i P
        (throw (.mutation code message) : Service ActionExecutionResult)
        fun r w => (∀ value, r ≠ .ok value) ∧ w.Working i :=
    fun hP w hw => ⟨by rintro value ⟨⟩, hP w hw⟩
  refine .bind triple_dispatchAuthorized_quiet (fun dispatched => ?_)
    fun e w hw => ⟨by rintro value ⟨⟩, hw.1.working⟩
  cases dispatched with
  | true =>
    exact fun w hw => (keeps_finalize_indeterminate stable_mine).bindTriple
      (fun _ => hthrow fun w hw => hw.working)
      (fun e w _ hw => ⟨by rintro value ⟨⟩, hw.working⟩) w hw.1
  | false =>
    exact fun w hw => (keeps_finalize stable_quiet fun _ w _ hw => hw).bindTriple
      (fun _ => hthrow fun w hw => hw.mine.working)
      (fun e w _ hw => ⟨by rintro value ⟨⟩, hw.mine.working⟩) w (hw.2 rfl)

/-- The execution of the child. -/
theorem triple_execute (lease : MutationLease) (plan : ActionPlan) :
    (effectContract config).Triple i (Unexecuted i operation.id)
      (execute operation stepId lease plan) fun
      | .ok value, w => ∃ e, w.EndedWith i operation.id e (.ok (.execution value))
      | .error _, w => w.Working i := by
  -- An error that is not known comes from an executor that has ended.
  refine .tryCatch (S := fun
      | .ok value, w => ∃ e, w.EndedWith i operation.id e (.ok (.execution value))
      | .error e, w => w.Working i ∧ (e.Known ∨ ∃ e r, w.EndedWith i operation.id e r))
    (Triple.bind (triple_executeWithDeadline operation lease plan) ?_ ?_)
    (fun _ _ hw => hw) ?_
  · rintro (value | acknowledgement)
    · exact fun w hw => hw
    · refine keeps_finalizeTimedOut.bindTriple (fun _ w hw => ?_) fun e w he hw => ?_
      · exact ⟨hw.1.working, .inl trivial⟩
      · exact ⟨hw.1.working, .inl he⟩
  · rintro e w ⟨e', r, hw⟩
    exact ⟨hw.mine.working, .inr ⟨e', r, hw⟩⟩
  · intro e
    cases e with
    | mutation code message => exact fun w hw => hw.1
    | crashSimulation => exact fun w hw => hw.1
    | _ =>
      refine triple_finalizeThrown.mono (fun w hw => hw.2.resolve_left id) ?_
      rintro (e | value) w hw
      · exact hw.2
      · exact absurd rfl (hw.1 value)

/-- The verification of the child keeps what the others keep: what goes wrong is recorded as
indeterminate. -/
theorem keeps_verify (hP : (effectContract config).Stable i P) (operation : Operation)
    (lease : MutationLease) (plan : ActionPlan) (execution : ActionExecutionResult)
    (effect : ExternalEffectState) :
    (effectContract config).Keeps i (fun _ => True) P
      (verify operation stepId lease plan execution effect) := by
  have hrace : ∀ work, (effectContract config).Keeps i (fun _ => True) P (raceVerification work) :=
    fun work => keeps_silent hP (.raceVerification work) rfl
  have hdeadline : (effectContract config).Keeps i (fun _ => True) P
      (verifyWithDeadline operation lease plan execution) := by
    refine (keeps_clock hP).bind fun now => ?_
    split_ifs
    · exact .pure _
    refine (keeps_startVerification hP _ _ _).bind fun work => (hrace work).bind fun answer => ?_
    rcases answer with _ | reason | value
    · exact (hrace work).bind fun _ => Keeps.pure _
    · exact .throw trivial
    · exact .pure _
  have hfinalize : ∀ code, (effectContract config).Keeps i (fun _ => True) P
      (finalize operation.id stepId lease .indeterminate .unknown .outcomeUnknown effect code) :=
    fun code => (keeps_finalize_indeterminate hP).mono fun _ _ => trivial
  refine .tryCatch (hdeadline.bind fun attempt => ?_) fun e _ => ?_
  · cases attempt with
    | timedOut => exact (hfinalize _).bind fun _ => Keeps.throw trivial
    | completed => exact .pure _
  · cases e with
    | mutation code message => exact .throw trivial
    | crashSimulation => exact .throw trivial
    | _ => exact (hfinalize _).bind fun _ => Keeps.throw trivial

/-! ## The performer -/

/-- `perform` once the executor has completed. -/
theorem triple_complete (lease : MutationLease) (plan : ActionPlan)
    (execution : ActionExecutionResult) :
    (effectContract config).Triple i (fun w => ∃ e r, w.EndedWith i operation.id e r)
      (complete operation stepId lease plan execution) fun _ w => w.Working i := by
  refine .bind triple_dispatchAuthorized_quiet (fun dispatched => ?_)
    fun e w hw => hw.1.working
  -- From here on the performer knows that nothing was done, if it was not dispatched.
  set P : World → Prop := fun w => w.Mine i operation.id ∧ (dispatched = false →
    w.Quiet i operation.id)
  have hP : (effectContract config).Stable i P := stable_mine.and (stable_quiet.imp _)
  have hfailed : ∀ w, w.Honest → P w → deniesEffect (parentStatus .failed)
      (if dispatched then .completed else .notStarted) = true → w.Quiet i operation.id := by
    intro w _ hw hdenies
    cases dispatched
    · exact hw.2 rfl
    · cases hdenies
  refine .mono (P := P) (Q := fun r w => P w ∧ ∀ e, r = .error e → True) ?_
    (fun w hw => ⟨hw.1, fun h => hw.2 (by rw [h])⟩) fun r w hw => hw.1.1.working
  refine Keeps.bind (keeps_clock hP) fun verifyingAt => ?_
  refine .bind (keeps_known (keeps_repository hP rfl ?_)) fun _ => ?_
  · rintro w o' - - ⟨-, hterminal⟩ -
    cases hterminal
  refine .bind (keeps_query hP (.hit .beforeVerification) rfl) fun _ => ?_
  refine .bind (keeps_verify hP operation lease plan execution _)
    fun verification => ?_
  refine .bind (keeps_query hP (.hit .afterVerification) rfl) fun _ => ?_
  -- What follows a verified execution.
  have hsucceeded : (effectContract config).Keeps i (fun _ => True) P (do
      hit .beforeFinalAudit
      let completedAt ← clock
      let completed ← safe (repository (.finalizeStepAndParent
        { operationId := operation.id, childStepId := stepId, expected := [.verifying]
          status := .succeeded, now := completedAt, ownership := lease
          verificationState := .verified, recoveryState := .none
          externalEffect := if dispatched then .completed else .notStarted }))
        .auditPersistenceFailed
      result (applicationOutcome completed false)) := by
    refine (keeps_query hP (.hit .beforeFinalAudit) rfl).bind fun _ => (keeps_clock hP).bind
      fun completedAt => (keeps_known (keeps_repository hP rfl ?_)).bind
        fun _ => Keeps.ret fun _ _ => trivial
    rintro w o' - - ⟨-, hdenies⟩ -
    cases hdenies
  dsimp only
  by_cases hverified : verification.verified = false
  · rw [if_pos hverified]
    split
    · exact ((keeps_finalize_indeterminate hP).mono fun _ _ => trivial).bind fun _ =>
        (Keeps.throw trivial).bind fun _ => hsucceeded
    · exact ((keeps_finalize hP fun hd w hw hPw => hfailed w hw hPw hd).mono
        fun _ _ => trivial).bind fun _ => (Keeps.throw trivial).bind fun _ => hsucceeded
  · rw [if_neg hverified]
    exact hsucceeded

/-- `perform` keeps the contract once the executor has returned. -/
theorem triple_executed (lease : MutationLease) (plan : ActionPlan)
    (execution : ActionExecutionResult) :
    (effectContract config).Triple i
      (fun w => ∃ e, w.EndedWith i operation.id e (.ok (.execution execution)))
      (executed operation stepId lease plan execution) fun _ w => w.Working i := by
  have hP : (effectContract config).Stable i fun w =>
      ∃ e, w.EndedWith i operation.id e (.ok (.execution execution)) :=
    Stable.exists fun e => stable_endedWith
  have hworking : ∀ w, (∃ e, EndedWith i operation.id e (.ok (.execution execution)) w) →
      w.Working i := fun w ⟨_, hw⟩ => hw.mine.working
  have hthrow : ∀ {code : MutationErrorCode} {message : String}
      {f : PUnit → Service ApplicationMutationOutcome}, (effectContract config).Triple i
      (fun w => ∃ e, w.EndedWith i operation.id e (.ok (.execution execution)))
      ((throw (.mutation code message) : Service PUnit) >>= f) fun _ w => w.Working i :=
    fun w hw => hworking w hw
  unfold executed
  by_cases hsafe : execution.accepted = false ∧ isSafePreEffectOutcome execution.outcome
  · -- The executor says that nothing was done, which the contract backs.
    rw [if_pos hsafe]
    exact (keeps_finalize hP fun _ w hw ⟨e, he⟩ => he.quiet_of_safe hw hsafe.2).bindTriple
      (fun _ => hthrow) fun _ w _ hw => hworking w hw
  · rw [if_neg hsafe]
    by_cases huncertain : execution.accepted = false ∨ execution.outcome ≠ .completed
    · rw [if_pos huncertain]
      exact (keeps_finalize_indeterminate hP).bindTriple (fun _ => hthrow)
        fun _ w _ hw => hworking w hw
    · rw [if_neg huncertain]
      exact (triple_complete operation lease plan execution).mono (fun w ⟨e, hw⟩ => ⟨e, _, hw⟩)
        fun _ _ hw => hw

/-- So does `perform` once the lease is held. -/
theorem triple_performOwned (step : OperationStep) (lease : MutationLease) (plan : ActionPlan) :
    (effectContract config).Triple i (Unexecuted i operation.id)
      (performOwned operation step lease plan) fun _ w => w.Working i := by
  have herror : ∀ (e : Failure) (w : World), True → w.Unexecuted i operation.id → w.Working i :=
    fun _ _ _ hw => hw.mine.working
  refine (keeps_clock stable_unexecuted).bindTriple (fun executingAt => ?_) herror
  refine (keeps_clock stable_unexecuted).bindTriple (fun startedAt => ?_) herror
  refine (keeps_known (keeps_repository stable_unexecuted rfl ?_)).bindTriple (fun _ => ?_) herror
  · rintro w o' - - ⟨-, hterminal⟩ -
    cases hterminal
  refine (keeps_query stable_unexecuted (.hit .immediatelyBeforeExecutor) rfl).bindTriple
    (fun _ => ?_) herror
  refine .bind (triple_execute operation lease (childActionPlan plan step))
    (fun execution => ?_) fun e w hw => hw
  exact (keeps_query (Stable.exists fun e => stable_endedWith)
    (.hit .afterExecutorBeforePersist) rfl).bindTriple
    (fun _ => triple_executed operation lease _ execution) fun _ w _ ⟨_, hw⟩ => hw.mine.working

/-- `perform` once the operation is created. -/
theorem triple_performClaimed (value : DurableParentChildOperation) (plan : ActionPlan)
    (now : Timestamp) :
    (effectContract config).Triple i (Unexecuted i value.operation.id)
      (performClaimed config value plan now) fun _ w => w.Working i := by
  have herror : ∀ (e : Failure) (w : World), True → w.Unexecuted i value.operation.id →
      w.Working i := fun _ _ _ hw => hw.mine.working
  refine (Keeps.ret fun _ _ => trivial).bindTriple (fun step => ?_) herror
  refine (keeps_query stable_unexecuted (.hit .beforeExecutorState) rfl).bindTriple
    (fun _ => ?_) herror
  refine (keeps_known (keeps_undenying stable_unexecuted _ rfl fun _ _ => id)).bindTriple
    (fun lease => ?_) herror
  cases lease with
  | some lease => exact triple_performOwned value.operation step lease plan
  | none =>
    -- Another operation owns the key; this one is rejected before anything is started.
    refine (keeps_clock stable_unexecuted).bindTriple (fun rejectedAt => ?_) herror
    refine (keeps_known (keeps_repository stable_unexecuted rfl ?_)).bindTriple
      (fun _ w hw => hw.mine.working) herror
    rintro w o' hw hP rfl -
    exact hP.quiet hw

/-- `perform` keeps the contract. -/
theorem triple_perform (actor : Option PlanActor) (request : ActionRequest) :
    (effectContract config).Triple i (Working i) (perform config actor request)
      fun _ w => w.Working i := by
  have herror : ∀ (e : Failure) (w : World), True → w.Working i → w.Working i :=
    fun _ _ _ hw => hw
  refine (Keeps.ret fun _ _ => trivial).bindTriple (fun authorized => ?_) herror
  refine (keeps_clock stable_working).bindTriple (fun replayTime => ?_) herror
  refine (keeps_known (keeps_undenying stable_working _ rfl fun _ _ => id)).bindTriple
    (fun existing => ?_) herror
  cases existing with
  | some value => exact fun w hw => hw
  | none =>
    refine (keeps_resolve stable_working _ _).bindTriple (fun snapshot => ?_) herror
    refine (keeps_clock stable_working).bindTriple (fun now => ?_) herror
    refine (keeps_silent stable_working .newId rfl).bindTriple (fun operationId => ?_) herror
    refine (keeps_silent stable_working .newId rfl).bindTriple (fun stepId => ?_) herror
    refine .bind (Triple.tryCatch (Q := fun r w => Working i w ∧
      ∀ value, r = .ok ⟨.created, value⟩ → Unexecuted i value.operation.id w)
      (triple_claimParentWithStep _) (fun _ _ hw => hw) fun e w hw => ?_) (fun claim w hw => ?_)
      fun _ _ hw => hw.1
    · cases e <;> exact ⟨hw.1, by rintro value ⟨⟩⟩
    · obtain ⟨kind, value⟩ := claim
      cases kind with
      | replay => exact hw.1
      | created => exact triple_performClaimed value _ now w (hw.2 value rfl)

end ApplicationMutationOrchestrator

/-! ## The executor and the verifier -/

/-- `expired` keeps what the others keep. -/
theorem keeps_expired (hP : (effectContract config).Stable i P) (context : MutationExecutionContext) :
    (effectContract config).Keeps i E P (expired context) := by
  refine (keeps_silent hP .aborted rfl).bind fun aborted => ?_
  cases aborted with
  | true => exact .pure _
  | false => exact (keeps_clock hP).bind fun now => Keeps.pure _

namespace DockerActionExecutor

/-- `resolveTarget` keeps what the others keep. -/
theorem keeps_resolveTarget (hP : (effectContract config).Stable i P) (plan : ActionPlan) :
    (effectContract config).Keeps i E P (resolveTarget config plan) := by
  unfold resolveTarget
  split
  · exact .pure _
  · split
    · exact .pure _
    · refine .bind (Keeps.attempt (keeps_query hP _ rfl)) fun r => ?_
      cases r <;> exact .pure _

/-- What an executor leaves: if it says that nothing was done, nothing is active. -/
def Truthful (i : ℕ) (o : JsString) (r : Except Failure ActionExecutionResult) (w : World) : Prop :=
  w.Working i ∧ ∀ result, r = .ok result → isSafePreEffectOutcome result.outcome = true →
    w.fate o ≠ .active

variable (plan : ActionPlan) (context : MutationExecutionContext)

/-- The request of a dispatch that is authorised. -/
theorem triple_dispatch (containerId : JsString) (ho : context.operationId = o) :
    (effectContract config).Triple i
      (fun w => (Executing i o w ∧ w.fate o ≠ .active) ∧ w.rows.Dispatched o)
      (dispatch plan context containerId) (Truthful i o) := by
  subst ho
  refine (keeps_expired (E := fun _ => False) (stable_executing_idle.and stable_dispatched)
    context).bindTriple (fun expired => ?_) fun _ _ h => h.elim
  cases expired with
  | true => exact fun w hw => ⟨hw.1.1.working, fun _ _ _ => hw.1.2⟩
  | false =>
    -- The request and its end, with its outcome as a value.
    have hrequest : (effectContract config).Triple i
        (fun w => (Executing i context.operationId w ∧ w.fate context.operationId ≠ .active) ∧
          w.rows.Dispatched context.operationId)
        (do invoke context.operationId plan.action containerId; settled context.operationId)
        fun r w => Executing i context.operationId w ∧
          (refusedWithoutEffect r = true → w.fate context.operationId ≠ .active) :=
      Triple.bind ((triple_invoke plan.action containerId).mono
        (fun w hw => ⟨hw.1.1, hw.2⟩) fun _ _ hw => hw)
        (fun _ => triple_settled.mono (fun w hw => hw.2) fun _ _ hw => hw) (by rintro e w ⟨⟨⟩, -⟩)
    refine .bindAttempt hrequest fun outcome w hw => ?_
    rcases outcome with e | u
    · refine ⟨hw.1.working, ?_⟩
      rintro result ⟨⟩ hsafe
      -- Only a failure with effect `NONE` is reported as not started.
      refine hw.2 ?_
      cases e with
      | dockerGateway code effect =>
        cases effect with
        | none => rfl
        | possiblyActive => cases hsafe
      | _ => cases hsafe
    · refine ⟨hw.1.working, ?_⟩
      rintro result ⟨⟩ hsafe
      cases hsafe

/-- Authorisation and request. -/
theorem triple_authorizeAndDispatch (ho : context.operationId = o) :
    (effectContract config).Triple i (fun w => Executing i o w ∧ w.fate o ≠ .active)
      (authorizeAndDispatch config plan context) (Truthful i o) := by
  have hidle : ∀ w, Executing i o w ∧ w.fate o ≠ .active → ∀ r, Truthful i o r w :=
    fun w hw r => ⟨hw.1.working, fun _ _ _ => hw.2⟩
  refine (keeps_resolveTarget (E := fun _ => False) stable_executing_idle plan).bindTriple
    (fun target => ?_) fun _ _ h => h.elim
  cases target with
  | error code => exact fun w hw => hidle w hw _
  | ok current =>
    refine (keeps_clock (E := fun _ => False) stable_executing_idle).bindTriple (fun now => ?_)
      fun _ _ h => h.elim
    refine (keeps_silent (E := fun _ => False) stable_executing_idle .aborted rfl).bindTriple
      (fun aborted => ?_) fun _ _ h => h.elim
    split
    · exact fun w hw => hidle w hw _
    · refine .bindAttempt (triple_authorizeDispatch _ ho) fun authorization w hw => ?_
      rcases authorization with e | operation
      · cases e <;> exact hidle w hw.1 _
      · exact triple_dispatch plan context current ho w ⟨hw.1, hw.2 operation rfl⟩

/-- An executor is truthful. -/
theorem triple_execute (ho : context.operationId = o) :
    (effectContract config).Triple i (fun w => Executing i o w ∧ w.fate o ≠ .active)
      (execute config plan context) (Truthful i o) := by
  have hidle : ∀ w, Executing i o w ∧ w.fate o ≠ .active → ∀ r, Truthful i o r w :=
    fun w hw r => ⟨hw.1.working, fun _ _ _ => hw.2⟩
  refine (keeps_expired (E := fun _ => False) stable_executing_idle context).bindTriple
    (fun expired => ?_) fun _ _ h => h.elim
  cases expired with
  | true => exact fun w hw => hidle w hw _
  | false =>
    refine (keeps_resolveTarget (E := fun _ => False) stable_executing_idle plan).bindTriple
      (fun target => ?_) fun _ _ h => h.elim
    cases target with
    | error code => exact fun w hw => hidle w hw _
    | ok initial =>
      refine (keeps_query stable_executing_idle (.inspect initial) rfl).bindAttempt
        fun inspection => ?_
      rcases inspection with e | inspection
      · exact fun w hw => hidle w hw _
      refine (keeps_expired (E := fun _ => False) stable_executing_idle context).bindTriple
        (fun expired => ?_) fun _ _ h => h.elim
      cases expired with
      | true => exact fun w hw => hidle w hw _
      | false =>
        rw [if_neg Bool.false_ne_true]
        split
        · exact fun w hw => hidle w hw _
        · split
          · exact fun w hw => hidle w hw _
          · exact fun w hw => hidle w hw _
          · exact triple_authorizeAndDispatch plan context ho

end DockerActionExecutor

namespace DockerActionVerifier

variable (hP : (effectContract config).Stable i P)
include hP

/-- `resolveContainerId` keeps what the others keep. -/
theorem keeps_resolveContainerId (plan : ActionPlan) :
    (effectContract config).Keeps i E P (resolveContainerId config plan) := by
  unfold resolveContainerId
  split
  · exact .pure _
  · split
    · exact .pure _
    · refine .bind (Keeps.attempt (keeps_query hP _ rfl)) fun r => ?_
      cases r <;> exact .pure _

/-- `verify` keeps what the others keep. -/
theorem keeps_verify (plan : ActionPlan) (context : MutationExecutionContext) :
    (effectContract config).Keeps i E P (verify config plan context) := by
  refine (keeps_expired hP context).bind fun expired => ?_
  cases expired with
  | true => exact .pure _
  | false =>
    refine (keeps_resolveContainerId hP plan).bind fun target => ?_
    cases target with
    | none => exact .pure _
    | some containerId =>
      refine .bind (Keeps.attempt
        (keeps_query hP (.inspect containerId) rfl)) fun inspection => ?_
      split
      · exact .pure _
      · split
        · exact .pure _
        · split <;> exact .pure _

end DockerActionVerifier

/-! ## Recovery -/

/-- `changedBy` keeps what its body keeps. -/
theorem keeps_changedBy (h : (effectContract config).Keeps i (fun _ => True) P t) :
    (effectContract config).Keeps i (fun _ => True) P (changedBy t) := by
  refine .bind (Keeps.attempt h) fun r => ?_
  rcases r with e | a
  · cases e with
    | mutation code message =>
      dsimp only
      split
      · exact .pure _
      · exact .throw trivial
    | _ => exact .throw trivial
  · exact .pure _

namespace MutationStepRecoveryService

variable (hP : (effectContract config).Stable i P)
include hP

/-- The loop of `recover` keeps what the others keep: it denies only what is not dispatched. -/
theorem keeps_recoverEach (now : Timestamp) (candidates : List Operation) (recovered : ℕ) :
    (effectContract config).Keeps i (fun _ => True) P
      (recoverEach config now candidates recovered) := by
  induction candidates generalizing recovered with
  | nil => exact .pure _
  | cons candidate candidates ih =>
    refine (keeps_undenying hP _ rfl fun _ _ => id).bind fun value => ?_
    split
    · split
      · exact ih recovered
      refine (keeps_undenying hP _ rfl fun _ _ => id).bind fun lease => ?_
      cases lease with
      | none => exact ih recovered
      | some lease =>
        refine (keeps_changedBy (keeps_repository hP rfl ?_)).bind fun changed => ih _
        rintro w o' - - ⟨-, hnot⟩ hdispatched
        exact absurd hdispatched hnot
    · exact ih recovered

/-- `recover` keeps what the others keep. -/
theorem keeps_recover : (effectContract config).Keeps i (fun _ => True) P (recover config) :=
  (keeps_clock hP).bind fun now => (keeps_undenying hP _ rfl fun _ _ => id).bind
    fun candidates => keeps_recoverEach hP now candidates 0

end MutationStepRecoveryService

/-! ## All together -/

/-- No job forgets a job that was started. -/
theorem started_of_guarantee (job : Job) (j : ℕ) (w w' : World)
    (h : (effectContract config).Guar j w w') (hjob : w.jobs[i]? = some job) :
    w'.jobs[i]? = some job :=
  World.Guarantee.jobs h i job hjob

variable {w : World} {job : Job}

/-- A job that is no executor and works to its end leaves what it should. -/
theorem wp_leaving (f : α → JobResult) (hjob : ∀ plan context, job ≠ .execute plan context)
    (h : (effectContract config).Triple i (Working i) t fun _ w => w.Working i)
    (hw : w.Starting i job) : (effectContract config).wp i (f <$> t) (Leaving i job) w := by
  refine wp_bind (wp_mono (wp_frame (started_of_guarantee job)
    (h w hw.results) hw.started) ?_)
  rintro (e | a) w' ⟨hworking, hstarted⟩ <;>
    exact ⟨hstarted, .inl hworking, fun plan context _ h => absurd h (hjob plan context)⟩

/-- An executor leaves what it should. -/
theorem wp_leaving_execute {plan : ActionPlan} {context : MutationExecutionContext}
    (hw : w.Starting i (.execute plan context)) :
    (effectContract config).wp i (Job.body config (.execute plan context))
      (Leaving i (.execute plan context)) w := by
  have hexecute : (effectContract config).wp i (DockerActionExecutor.execute config plan context)
      (DockerActionExecutor.Truthful i context.operationId) w :=
    DockerActionExecutor.triple_execute plan context rfl w
      ⟨⟨hw.results, plan, context, hw.started, rfl⟩, hw.fate plan context rfl⟩
  refine wp_bind (wp_mono (wp_frame
    (started_of_guarantee (.execute plan context)) hexecute hw.started) ?_)
  rintro (e | result) w' ⟨⟨hworking, htruthful⟩, hstarted⟩
  · exact ⟨hstarted, .inl hworking, by rintro _ _ _ - ⟨⟩⟩
  · refine ⟨hstarted, .inl hworking, ?_⟩
    rintro _ _ _ ⟨⟩ ⟨⟩ hsafe
    exact htruthful result rfl hsafe

variable {r : Except Failure JobResult}

/-- The end of a job keeps the invariant. -/
theorem World.Honest.endJob (hw : w.Honest) (hjob : w.jobs[i]? = some job)
    (hleaving : w.Leaving i job r) : (w.endJob i r).Honest where
  wf := hw.wf
  mirrored := hw.mirrored
  active := hw.active
  executor := hw.executor
  ended o e hd hn he := by
    by_cases heq : e = i
    · subst heq
      simp [World.endJob]
    · simpa [World.endJob, Function.update_of_ne heq] using hw.ended o e hd hn he
  unique := hw.unique
  claimed := hw.claimed
  step := hw.step
  parents := hw.parents
  safe o e result he hr hsafe := by
    by_cases heq : e = i
    · subst heq
      obtain ⟨plan, context, hjob', rfl⟩ := he
      change w.jobs[e]? = _ at hjob'
      rw [hjob] at hjob'
      cases hjob'
      simp only [World.endJob, Function.update_self, Option.some.injEq] at hr
      exact hleaving.safe plan context result rfl hr hsafe
    · exact hw.safe o e result he (by simpa [World.endJob, Function.update_of_ne heq] using hr) hsafe
  unstarted n hn := by
    have hlt : i < w.jobs.length := (List.getElem?_eq_some_iff.mp hjob).1
    have hne : n ≠ i := by
      rintro rfl
      exact absurd hn (Nat.not_le.mpr hlt)
    simpa [World.endJob, Function.update_of_ne hne] using hw.unstarted n hn

/-- The end of a job is within its guarantee. -/
theorem World.Leaving.guarantee (h : w.Leaving i job r) : Guarantee i w (w.endJob i r) := by
  refine { Guarantee.refl i w with results := fun j => ?_ }
  by_cases heq : j = i
  · subst heq
    rcases h.results with hnone | hsome
    · exact .inr ⟨hnone, rfl⟩
    · exact .inl (by simp [World.endJob, hsome])
  · exact .inl (by simp [World.endJob, Function.update_of_ne heq])

/-- Every service for operations with steps keeps the contract. -/
theorem effectContract_holds (config : ServiceConfig) : (effectContract config).Holds where
  body i job w _ hpre := by
    cases job with
    | perform actor request =>
      exact wp_leaving _ (by simp) (ApplicationMutationOrchestrator.triple_perform actor request) hpre
    | performPlain actor request => cases hpre.ofSteps
    | execute plan context => exact wp_leaving_execute hpre
    | verify plan context =>
      exact wp_leaving _ (by simp) (DockerActionVerifier.keeps_verify (E := fun _ => True)
        stable_working plan context).triple hpre
    | recover => cases hpre.ofSteps
    | recoverSteps =>
      exact wp_leaving _ (by simp) (MutationStepRecoveryService.keeps_recover stable_working).triple
        hpre
  post_stable _ _ _ := stable_leaving
  start job w hext hinv := by
    have hjob : ∀ plan context, job ≠ .execute plan context := by
      rintro plan context rfl
      cases hext
    have hsteps : job.ofSteps = true := by
      cases job <;> first | rfl | cases hext
    exact ⟨hinv.startJob fun plan context h => absurd h (hjob plan context), rfl,
      guarantee_startJob fun plan context h => absurd h (hjob plan context),
      hinv.starting hsteps fun plan context h => absurd h (hjob plan context)⟩
  finish i job r w hinv hjob hpost := by
    refine ⟨World.Honest.endJob hinv hjob hpost, rfl, hpost.guarantee, hjob, ?_, hpost.safe⟩
    exact .inr (Function.update_self ..)

/-- The invariant holds before anything has run. -/
theorem honest_initial (auditFaults : List Bool) : (World.initial auditFaults).Honest where
  wf := initial_wf auditFaults
  mirrored _ _ h := by cases h
  active _ h := by cases h
  executor _ h := by
    obtain ⟨_, _, hget, -⟩ := h
    cases hget
  ended _ _ h := by
    obtain ⟨_, _, hget, -⟩ := h
    cases hget
  unique _ _ _ h := by
    obtain ⟨_, _, hjob, -⟩ := h
    simp [World.initial] at hjob
  claimed _ _ h := by
    obtain ⟨_, _, hjob, -⟩ := h
    simp [World.initial] at hjob
  step _ h := absurd rfl h
  parents _ _ h := by cases h
  safe _ _ _ _ h := by cases h
  unstarted _ _ := rfl

variable {labels : List ServiceLabel}

/-- The contract is kept along every run. -/
theorem kept_run {auditFaults : List Bool} {p : ServicePool}
    (h : (stepMachine config).run (ServicePool.initial auditFaults) labels = some p) :
    (effectContract config).Kept p :=
  (effectContract_holds config).run (kept_empty (honest_initial auditFaults) rfl) labels h

/-- What happens next leaves a denied effect denied. -/
theorem denied_next {p p' : ServicePool} {l : ServiceLabel} (hp : (effectContract config).Kept p)
    (h : (stepMachine config).next p l = some p') (ho : p.world.rows.Denied o) :
    p'.world.rows.Denied o := by
  obtain ⟨job, -, rfl⟩ | ⟨n, c, next, choice, r, w', -, hexec, rfl⟩ | ⟨n, r, -, rfl⟩ :=
    Machine.next_cases h
  · exact ho
  · have hinv : p.world.Honest := hp.inv
    rcases World.exec_repository hexec with ⟨hrep, -⟩ | ⟨call, hrep, -⟩
    · simpa only [World.rows, hrep] using ho
    · simp only [World.rows, hrep]
      exact next_denied _ call hinv.wf hinv.mirrored ho
  · exact ho

/-- A run leaves a denied effect denied. -/
theorem denied_run {p p' : ServicePool} (hp : (effectContract config).Kept p)
    (h : (stepMachine config).run p labels = some p') (ho : p.world.rows.Denied o) :
    p'.world.rows.Denied o :=
  (Machine.run_induct h (fun q => (effectContract config).Kept q ∧ q.world.rows.Denied o) ⟨hp, ho⟩
    fun _ _ _ hl hq => ⟨hq.1.next (effectContract_holds config) hl, denied_next hq.1 hl hq.2⟩).2

/-- Where a Docker request was issued and has not failed with effect `NONE`, neither the step of its
operation nor the operation ever said, at any point of the run, that nothing was done. -/
theorem effect_never_denied (config : ServiceConfig) (auditFaults : List Bool)
    (labels : List ServiceLabel) (p : ServicePool)
    (hrun : (serviceMachine config Job.isStepService).run (ServicePool.initial auditFaults) labels =
      some p) (o : JsString) (hactive : p.world.fate o = .active) (n : ℕ) (q : ServicePool)
    (hbefore : (serviceMachine config Job.isStepService).run (ServicePool.initial auditFaults)
      (labels.take n) = some q) :
    (∀ id step, q.world.repository.steps.get id = some step → step.parentOperationId = o →
      deniesEffect step.status step.externalEffect = false) ∧
    ∀ operation, q.world.repository.operations.get o = some operation →
      deniesEffect operation.status operation.externalEffect = false := by
  have hkept : (effectContract config).Kept q := kept_run hbefore
  have hhonest : q.world.Honest := hkept.inv
  -- A denial at this point would last to the end, where the request is active.
  have hnot : ¬ q.world.rows.Denied o := by
    intro hdenied
    rw [← List.take_append_drop n labels, Machine.run_append, hbefore] at hrun
    have hend : p.world.Honest := ((effectContract_holds config).run hkept _ hrun).inv
    exact (hend.active o hactive).2 (denied_run hkept hrun hdenied)
  have hstep : ∀ id step, q.world.repository.steps.get id = some step →
      step.parentOperationId = o →
      deniesEffect (parentStatus step.status) step.externalEffect = false := by
    intro id step hget hparent
    by_contra hdenies
    exact hnot ⟨id, step, hget, hparent, by simpa using hdenies⟩
  refine ⟨fun id step hget hparent => ?_, fun operation hop => ?_⟩
  · by_contra hdenies
    have := deniesEffect_parentStatus (by simpa using hdenies)
    rw [hstep id step hget hparent] at this
    cases this
  · -- The operation follows its step.
    obtain ⟨id, step, hget, hparent, -⟩ := hhonest.parents o operation hop
    obtain ⟨operation', hop', hstatus, heffect⟩ := hhonest.mirrored id step hget
    rw [hparent] at hop'
    cases hop.symm.trans hop'
    rw [hstatus, heffect]
    exact hstep id step hget hparent

open InMemoryDurableMutationRepository in
/-- A performer gives up while its Docker request is under way. -/
def abandonedRun : List ServiceLabel :=
  [.start (sampleJob "key-00001")] ++ claiming 0 "operation" "step" 1 ++ starting 0 2 ++
  authorizing 1 3 ++ [.flag false, .time 4, .fixed].map (.step 1) ++
  [.timer, .timer, .fixed, .time 5, .fixed].map (.step 0)

open InMemoryDurableMutationRepository in
/-- The request is active there, and the operation ends as indeterminate. -/
theorem effect_never_denied_abandonedRun :
    ∃ p, (serviceMachine sampleConfig Job.isStepService).run (ServicePool.initial []) abandonedRun =
        some p ∧ p.world.fate (js "operation") = .active ∧
      p.world.repository.statusOf (js "operation") = some .indeterminate ∧
      ∀ operation, p.world.repository.operations.get (js "operation") = some operation →
        deniesEffect operation.status operation.externalEffect = false := by
  refine exists_some_of_map (b := (RequestFate.active, some .indeterminate))
    (f := fun p => (p.world.fate (js "operation"), p.world.repository.statusOf (js "operation")))
    (by decide +kernel) fun p hp heq => ?_
  obtain ⟨hfate, hstatus⟩ := Prod.mk.inj heq
  have hnever := effect_never_denied sampleConfig [] abandonedRun p hp (js "operation") hfate
    abandonedRun.length p (by rw [List.take_length]; exact hp)
  exact ⟨hfate, hstatus, hnever.2⟩

end ZimaControl
