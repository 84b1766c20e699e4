import ZimaControl.Lib.Solo
import ZimaControl.Mutation.Exclusion
import ZimaControl.Mutation.InFlight

/-!
# Whether `perform` settles its operation

One run of `ApplicationMutationOrchestrator.perform` from its start to its end, over a repository in
which no audit append fails and with no simulated crash. Executor and verifier answer as they please,
and an executor may authorise dispatches before each repository call of the run, also after its
deadline.

The operation that the run created is concluded at the end exactly when four things did not happen:
the lease was presented after its expiry, the executor or the verifier failed in time with an error
that `perform` passes on, or the executor answered in time that it may have caused an effect although
no dispatch was authorised. In the last case the end of the operation is refused by the rule for
effects, in the two before it `perform` does not try to end it.
-/

namespace ZimaControl

open InMemoryDurableMutationRepository ActionStatus

/-- The errors that `perform` passes on without ending the operation. -/
def Failure.passesOn : Failure → Bool
  | .mutation .. | .crashSimulation => true
  | _ => false

/-- The answers of an executor that leave open whether it caused an effect. -/
def ActionExecutionResult.isUncertain (value : ActionExecutionResult) : Bool :=
  ¬ (value.accepted = false ∧ isSafePreEffectOutcome value.outcome) ∧
    (value.accepted = false ∨ value.outcome ≠ .completed)

namespace RepositoryCall

/-- A call of a performer presents its lease at or after the expiry. -/
def isLate : RepositoryCall → Bool
  | transitionStepWithAudit input => input.ownership.leaseExpiresAt ≤ input.now
  | finalizeStepAndParent input => input.ownership.leaseExpiresAt ≤ input.now
  | _ => false

end RepositoryCall

/-- The world of one run of `perform`, with what is remembered of the run. -/
structure PerformWorld where
  repository : Repository
  /-- The operation that the run created, and its step. -/
  created : Option (JsString × JsString) := none
  /-- The lease was presented at or after its expiry. -/
  late : Bool := false
  /-- What came of the races of the executor with its timers: nothing when the timer won. -/
  executions : List (Option (Except Failure ActionExecutionResult)) := []
  /-- The same for the verifier. -/
  verifications : List (Option (Except Failure VerificationResult)) := []

/-- What the environment chooses at a call. -/
inductive PerformChoice
  /-- There is nothing to choose. -/
  | fixed
  /-- The dispatches that are authorised before a repository call. -/
  | after (dispatches : List RepositoryCall)
  | time (now : Timestamp)
  | id (value : JsString)
  | snapshot (answer : Except Failure (Option RegistryApplicationSnapshotReadRecord))
  | evidence (answer : Except Failure (Option AuthoritativeRuntimeTargetEvidence))
  | work (number : ℕ)
  | execution (answer : Option (Except Failure ActionExecutionResult))
  | verification (answer : Option (Except Failure VerificationResult))

namespace PerformWorld

/-- The operation and the step that a call created, if it did. -/
def createdBy : (c : RepositoryCall) → Except Failure c.Answer → Option (JsString × JsString)
  | .claimParentWithStep input, .ok ⟨.created, value⟩ => some (value.operation.id, input.stepId)
  | _, _ => none

/-- The world after a repository call of the run. -/
def afterCall (w : PerformWorld) (c : RepositoryCall) (outcome : RepositoryOutcome c.Answer) :
    PerformWorld :=
  { w with
    repository := outcome.2
    created := (createdBy c outcome.1).or w.created
    late := w.late || c.isLate }

/-- How the world answers a call. -/
def exec (host : Host) : Handler ServiceCall ServiceCall.Answer Failure PerformWorld PerformChoice
  | w, .repository c, .after dispatches =>
    if dispatches.all (·.dispatchTarget.isSome) then
      let outcome := c.exec host (w.repository.run host dispatches)
      some (outcome.1, w.afterCall c outcome)
    else none
  | w, .clock, .time now => some (.ok now, w)
  | w, .newId, .id value => some (.ok value, w)
  | w, .hit _, .fixed => some (.ok (), w)
  | w, .getApplicationSnapshot _, .snapshot answer => some (answer, w)
  | w, .getAuthoritativeEvidence _, .evidence answer => some (answer, w)
  | w, .startExecution _ _, .work number => some (.ok number, w)
  | w, .raceExecution _, .execution answer =>
    some (.ok answer, { w with executions := w.executions ++ [answer] })
  | w, .startVerification .., .work number => some (.ok number, w)
  | w, .raceVerification _, .verification answer =>
    some (.ok answer, { w with verifications := w.verifications ++ [answer] })
  | _, _, _ => none

/-- What the executor answered before its deadline. -/
def execution (w : PerformWorld) : Option (Except Failure ActionExecutionResult) :=
  w.executions.head?.join

/-- What the verifier answered before its deadline. -/
def verification (w : PerformWorld) : Option (Except Failure VerificationResult) :=
  w.verifications.head?.join

/-- The dispatch of the created operation was authorised. -/
def dispatched (w : PerformWorld) : Bool :=
  w.created.any fun (_, stepId) => w.repository.dispatched stepId

/-- The operation that the run created, if any, is concluded. -/
def Settled (w : PerformWorld) : Prop :=
  ∀ id stepId, w.created = some (id, stepId) → w.repository.Concluded id

/-- The executor answered in time, and left open whether it caused an effect. -/
def isUncertain (w : PerformWorld) : Bool :=
  match w.execution with
  | some (.ok value) => value.isUncertain
  | _ => false

/-- No error that is passed on came in time from the executor or the verifier. -/
structure Contained (w : PerformWorld) : Prop where
  execution : ∀ e, w.execution = some (.error e) → e.passesOn = false
  verification : ∀ e, w.verification = some (.error e) → e.passesOn = false

/-- The runs in which nothing keeps `perform` from settling its operation. -/
structure Orderly (w : PerformWorld) : Prop extends Contained w where
  /-- The lease had not expired when it was presented. -/
  inTime : w.late = false
  /-- An executor that answered in time with an uncertain outcome had its dispatch authorised. -/
  dispatched : w.isUncertain = true → w.dispatched = true

/-- What a run must show at its end. -/
def Ending (w : PerformWorld) : Prop := w.Settled ↔ w.Orderly

/-- Nothing has been created or asked yet. -/
structure Before (w : PerformWorld) : Prop where
  wf : w.repository.rows.Wf
  quiet : w.repository.auditFaults = []
  created : w.created = none
  late : w.late = false
  executions : w.executions = []
  verifications : w.verifications = []

variable {w : PerformWorld}

/-- The verifier has not answered yet, and the executor did not fail with an error that is passed
on. -/
theorem contained_of_execution (hverifications : w.verifications = [])
    (hexecution : ∀ e, w.execution = some (.error e) → e.passesOn = false) : w.Contained := by
  refine ⟨hexecution, fun e he => ?_⟩
  rw [verification, hverifications] at he
  cases he

/-- The executor has not answered in time. -/
theorem contained_of_none (hexecution : w.execution = none)
    (hverifications : w.verifications = []) : w.Contained ∧ w.isUncertain = false := by
  refine ⟨contained_of_execution hverifications fun e he => ?_, ?_⟩
  · rw [hexecution] at he
    cases he
  · rw [isUncertain, hexecution]

/-- The answer of the executor is the only one there is. -/
theorem execution_of_eq {answer : Option (Except Failure ActionExecutionResult)}
    {later : List (Option (Except Failure ActionExecutionResult))}
    (h : w.executions = answer :: later) : w.execution = answer := by
  rw [execution, h]
  rfl

/-- No one has answered yet. -/
theorem contained_of_nil (hexecutions : w.executions = []) (hverifications : w.verifications = []) :
    w.Contained ∧ w.isUncertain = false := by
  refine contained_of_none ?_ hverifications
  rw [execution, hexecutions]
  rfl

/-- A run that creates nothing has nothing to settle. -/
theorem Before.ending (h : w.Before) : w.Ending := by
  obtain ⟨hcontained, hcertain⟩ := contained_of_nil h.executions h.verifications
  constructor
  · intro _
    exact ⟨hcontained, h.late, fun huncertain => by rw [hcertain] at huncertain; cases huncertain⟩
  · intro _ id stepId hcreated
    rw [h.created] at hcreated
    cases hcreated

/-- A call that creates nothing and presents no lease. -/
theorem Before.afterCall (h : w.Before) {c : RepositoryCall} {outcome : RepositoryOutcome c.Answer}
    (hwf : outcome.2.rows.Wf) (hquiet : outcome.2.auditFaults = [])
    (hcreated : createdBy c outcome.1 = none) (hlate : c.isLate = false) :
    (w.afterCall c outcome).Before := by
  refine ⟨hwf, hquiet, ?_, ?_, h.executions, h.verifications⟩
  · change (createdBy c outcome.1).or w.created = none
    rw [hcreated, h.created]
    rfl
  · change (w.late || c.isLate) = false
    rw [h.late, hlate]
    rfl

variable {id stepId : JsString}

/-- The created operation is concluded after an orderly run. -/
theorem ending_of_concluded (hcreated : w.created = some (id, stepId))
    (hconcluded : w.repository.Concluded id) (horderly : w.Orderly) : w.Ending := by
  refine ⟨fun _ => horderly, fun _ id' stepId' hcreated' => ?_⟩
  rw [hcreated] at hcreated'
  cases hcreated'
  exact hconcluded

/-- The created operation is not concluded after a run that is not orderly. -/
theorem ending_of_open (hcreated : w.created = some (id, stepId))
    (hopen : ¬ w.repository.Concluded id) (hdisorderly : ¬ w.Orderly) : w.Ending :=
  ⟨fun hsettled => absurd (hsettled id stepId hcreated) hopen, fun h => absurd h hdisorderly⟩

/-- The operation of the run is in flight, and its lease was presented in time so far. -/
structure Stage (w : PerformWorld) (id stepId : JsString) (lease : MutationLease)
    (status : ActionStatus) (effect : ExternalEffectState) : Prop where
  flight : InFlight w.repository id stepId lease status effect
  created : w.created = some (id, stepId)
  inTime : w.late = false

/-- The dispatch of the run is the one of its step. -/
theorem dispatched_of_created (hcreated : w.created = some (id, stepId)) :
    w.dispatched = w.repository.dispatched stepId := by
  rw [PerformWorld.dispatched, hcreated]
  rfl

end PerformWorld

/-! ## Calls -/

namespace ApplicationMutationOrchestrator

open PerformWorld Service

variable {host : Host} {w : PerformWorld} {α : Type}

variable {Q : Except Failure α → PerformWorld → Prop}

/-- A clock reading changes nothing. -/
theorem clock_bind {f : Timestamp → Service α} (h : ∀ t, (f t).Ensures (exec host) Q w) :
    (clock >>= f).Ensures (exec host) Q w := by
  intro choice r w' hexec
  cases choice <;> cases hexec
  exact h _

/-- Neither does an id. -/
theorem newId_bind {f : JsString → Service α} (h : ∀ id, (f id).Ensures (exec host) Q w) :
    (newId >>= f).Ensures (exec host) Q w := by
  intro choice r w' hexec
  cases choice <;> cases hexec
  exact h _

/-- Nor an injected failure that does not happen. -/
theorem hit_bind {point : MutationFailurePoint} {f : Unit → Service α}
    (h : (f ()).Ensures (exec host) Q w) : (hit point >>= f).Ensures (exec host) Q w := by
  intro choice r w' hexec
  cases choice <;> cases hexec
  exact h

variable {c : RepositoryCall} {Q : Except Failure c.Answer → PerformWorld → Prop}

/-- A repository call is made after some dispatches were authorised. -/
theorem repository_ensures (h : ∀ dispatches, (∀ d ∈ dispatches, d.dispatchTarget.isSome = true) →
      let outcome := c.exec host (w.repository.run host dispatches)
      Q outcome.1 (w.afterCall c outcome)) : (repository c).Ensures (exec host) Q w := by
  refine .perform fun choice r w' hexec => ?_
  cases choice <;> try cases hexec
  rename_i dispatches
  simp only [exec] at hexec
  split_ifs at hexec with hall
  obtain ⟨rfl, rfl⟩ := Prod.mk.inj (Option.some.inj hexec)
  exact h dispatches (by simpa using hall)

variable {code : MutationErrorCode}

/-- What must hold within `safe`: an error becomes one that is passed on. -/
def Safe (Q : Except Failure α → PerformWorld → Prop) : Except Failure α → PerformWorld → Prop
  | .ok a, w => Q (.ok a) w
  | .error _, w => ∀ e, e.passesOn = true → Q (.error e) w

/-- A repository call under `safe`. -/
theorem safe_repository_ensures
    (h : ∀ dispatches, (∀ d ∈ dispatches, d.dispatchTarget.isSome = true) →
      let outcome := c.exec host (w.repository.run host dispatches)
      Safe Q outcome.1 (w.afterCall c outcome)) :
    (safe (repository c) code).Ensures (exec host) Q w := by
  refine .tryCatch (repository_ensures h) (fun _ _ hok => hok) fun e w' herror => ?_
  cases e <;> exact herror _ rfl

/-- A repository call under `safe` that only returns. -/
theorem safe_repository_ok {S : c.Answer → PerformWorld → Prop}
    (h : ∀ dispatches, (∀ d ∈ dispatches, d.dispatchTarget.isSome = true) →
      let outcome := c.exec host (w.repository.run host dispatches)
      ∃ answer, outcome.1 = .ok answer ∧ S answer (w.afterCall c outcome)) :
    (safe (repository c) code).Ensures (exec host) (fun r w' => ∃ a, r = .ok a ∧ S a w') w := by
  refine safe_repository_ensures fun dispatches hdispatches => ?_
  obtain ⟨answer, hok, hS⟩ := h dispatches hdispatches
  dsimp only
  rw [hok]
  exact ⟨answer, rfl, hS⟩

/-! ## Ends -/

variable {id stepId : JsString} {lease : MutationLease} {status : ActionStatus}
  {effect : ExternalEffectState}

/-- How an end may be recorded: an uncertain answer records another effect; otherwise the effect
stays or the dispatch is known to be authorised. -/
def Recordable (w : PerformWorld) (stepId : JsString) (effect recorded : ExternalEffectState) :
    Prop :=
  w.isUncertain = true ∧ recorded ≠ effect ∨
    w.isUncertain = false ∧ (recorded = effect ∨ w.repository.dispatched stepId = true)

/-- What an attempt to end the operation leaves: the run could stop there, and an error that comes out
is passed on. -/
def Attempted (r : Except Failure α) (w : PerformWorld) : Prop :=
  w.Ending ∧ ∀ e, r = .error e → e.passesOn = true

/-- A call of `finalizeStepAndParent` for an operation in flight. -/
theorem finalizeCall_ensures (h : w.Stage id stepId lease status effect) (hcontained : w.Contained)
    {input : DurableStepFinalizationInput} (hmay : MayEnd id stepId lease status effect input)
    (hrecordable : Recordable w stepId effect input.externalEffect) :
    (safe (repository (.finalizeStepAndParent input)) code).Ensures (exec host) Attempted w := by
  refine safe_repository_ensures fun dispatches hdispatches => ?_
  obtain ⟨hflight, hmono⟩ := h.flight.run_dispatch host hdispatches
  have hlive := isTerminal_eq_false_of_mem hmay.allowed
  intro outcome
  have hlate : (w.afterCall (.finalizeStepAndParent input) outcome).late =
      decide (lease.leaseExpiresAt ≤ input.now) := by
    change (w.late || decide (input.ownership.leaseExpiresAt ≤ input.now)) = _
    rw [h.inTime, hmay.ownership, Bool.false_or]
  have hcreated : (w.afterCall (.finalizeStepAndParent input) outcome).created = some (id, stepId) :=
    h.created
  have hdispatched := dispatched_of_created hcreated
  have hend := hflight.finalize hmay (rfl : outcome = _)
  clear_value outcome
  split_ifs at hend with hcond
  · obtain ⟨⟨answer, hok⟩, hconcluded, hsame⟩ := hend
    rw [hok]
    refine ⟨ending_of_concluded hcreated hconcluded ⟨⟨hcontained.1, hcontained.2⟩, ?_, ?_⟩, nofun⟩
    · rw [hlate]
      exact decide_eq_false (not_le.mpr hcond.1)
    -- an uncertain answer was recorded, so the dispatch was authorised
    intro huncertain
    rw [hdispatched]
    refine hsame.trans (hcond.2.resolve_left ?_)
    rcases hrecordable with ⟨-, hne⟩ | ⟨hcertain, -⟩
    · exact hne
    · exact absurd (hcertain.symm.trans huncertain) (by simp)
  · obtain ⟨e, rfl⟩ := hend
    refine fun e' hpasses =>
      ⟨ending_of_open hcreated (hflight.not_concluded hlive) fun horderly => hcond ⟨?_, ?_⟩, ?_⟩
    · have hinTime := hlate.symm.trans horderly.inTime
      simpa using hinTime
    · rcases hrecordable with ⟨huncertain, -⟩ | ⟨-, hsame | hbefore⟩
      · right
        have hauthorised := horderly.dispatched huncertain
        rwa [hdispatched] at hauthorised
      · exact .inl hsame
      · exact .inr (hmono hbefore)
    · intro e'' he''
      cases he''
      exact hpasses

variable {verificationState : VerificationState} {reasonCode : MutationErrorCode}
  {recoveryState : RecoveryState} {next : ActionStatus}

/-- `finalize` for an operation in flight. -/
theorem finalize_ensures (h : w.Stage id stepId lease status effect) (hcontained : w.Contained)
    (hstatus : status = .executing ∨ status = .verifying)
    (hnext : next = .failed ∨ next = .timedOut ∨ next = .indeterminate)
    {recorded : ExternalEffectState}
    (hassert : recorded ≠ .effectPossiblyActive ∨ next = .indeterminate)
    (heffect : recorded = effect ∨ effect = .notStarted)
    (hrecordable : Recordable w stepId effect recorded) :
    (finalize id stepId lease next verificationState recoveryState recorded reasonCode).Ensures
      (exec host) Attempted w := by
  have hlive : status ≠ .validated := by rcases hstatus with rfl | rfl <;> decide
  have hexpected : status ∈ if next = .succeeded then [.verifying] else
      [executing, .verifying] := by
    rcases hnext with rfl | rfl | rfl <;> rcases hstatus with rfl | rfl <;> decide
  have hallowed : next ∈ status.allowedTransitions := by
    rcases hnext with rfl | rfl | rfl <;> rcases hstatus with rfl | rfl <;> decide
  have hterminal : next.isTerminal = true := by rcases hnext with rfl | rfl | rfl <;> rfl
  have hparent : parentStatus next = next := by rcases hnext with rfl | rfl | rfl <;> rfl
  refine clock_bind fun now => ?_
  refine .bind (finalizeCall_ensures h hcontained ⟨rfl, rfl, rfl, hlive, hexpected, hallowed,
    hterminal, hparent, hassert, heffect⟩ hrecordable) ?_ ?_
  · exact fun _ w' hw' => ⟨hw'.1, nofun⟩
  · exact fun e w' hw' => ⟨hw'.1, fun e' he' => by cases he'; exact hw'.2 e rfl⟩

/-- An error that is passed on comes out, and the run could stop there. -/
def Thrown (r : Except Failure α) (w : PerformWorld) : Prop :=
  w.Ending ∧ ∃ e, r = .error e ∧ e.passesOn = true

variable {e : Failure}

/-- An attempt to end the operation, after which an error is thrown. -/
theorem attempted_throw {t : Service Unit} (he : e.passesOn = true)
    (h : t.Ensures (exec host) Attempted w) :
    (t >>= fun _ => (throw e : Service α)).Ensures (exec host) Thrown w := by
  refine .bind h (fun _ w' hw' => ⟨hw'.1, e, rfl, he⟩) ?_
  exact fun e' w' hw' => ⟨hw'.1, e', rfl, hw'.2 e' rfl⟩

/-- What no repository call of the run changes. -/
structure SameAnswers (w w' : PerformWorld) : Prop where
  executions : w'.executions = w.executions
  verifications : w'.verifications = w.verifications

/-- A repository call keeps what was answered. -/
theorem sameAnswers_afterCall (w : PerformWorld) (c : RepositoryCall)
    (outcome : RepositoryOutcome c.Answer) : SameAnswers w (w.afterCall c outcome) := ⟨rfl, rfl⟩

variable {w' : PerformWorld}

theorem SameAnswers.contained (h : SameAnswers w w') (hcontained : w.Contained) : w'.Contained := by
  refine ⟨fun e he => hcontained.execution e ?_, fun e he => hcontained.verification e ?_⟩
  · rwa [PerformWorld.execution, h.executions] at he
  · rwa [PerformWorld.verification, h.verifications] at he

theorem SameAnswers.isUncertain (h : SameAnswers w w') : w'.isUncertain = w.isUncertain := by
  simp [PerformWorld.isUncertain, PerformWorld.execution, h.executions]

/-- `dispatchAuthorized` tells whether the step in flight is dispatched. -/
theorem dispatchAuthorized_ensures (h : w.Stage id stepId lease status effect) :
    (dispatchAuthorized id stepId).Ensures (exec host) (fun r w' => ∃ dispatched, r = .ok dispatched ∧
      w'.Stage id stepId lease status effect ∧ SameAnswers w w' ∧
        dispatched = w'.repository.dispatched stepId) w := by
  refine .bindOk (S := fun value w' => w'.Stage id stepId lease status effect ∧
    SameAnswers w w' ∧ ∃ operation step, Pair w'.repository operation step ∧ step.id = stepId ∧
      value = some ⟨operation, [step]⟩) (safe_repository_ok fun dispatches hdispatches => ?_) ?_
  · obtain ⟨hflight, -⟩ := h.flight.run_dispatch host hdispatches
    obtain ⟨operation, step, hpair, hid, hstepId, -⟩ := hflight.rows
    have hfind : (w.repository.run host dispatches).findOperationWithSteps id =
        some ⟨operation, [step]⟩ := by
      rw [findOperationWithSteps, ← hid, hpair.operation_get, hpair.stepsFor hflight.wf]
      rfl
    refine ⟨some ⟨operation, [step]⟩, congrArg Except.ok hfind, ⟨hflight, h.created, ?_⟩, ⟨rfl, rfl⟩,
      operation, step, hpair, hstepId, rfl⟩
    exact (Bool.or_false _).trans h.inTime
  · rintro value w' ⟨hstage, hsame, operation, step, hpair, hstepId, rfl⟩
    have hfound : (some (⟨operation, [step]⟩ : DurableParentChildOperation)).bind
        (fun value => value.steps.find? (·.id = stepId)) = some step := by
      simp [hstepId]
    simp only [hfound]
    refine ⟨_, rfl, hstage, hsame, ?_⟩
    rw [← hstepId, dispatched_of_get hpair.step_get]

section

variable (h : w.Stage id stepId lease .executing .notStarted)
include h

/-- An execution that ran out of time is ended, whatever it acknowledges. -/
theorem finalizeTimedOut_ensures (hcontained : w.Contained) (hcertain : w.isUncertain = false)
    (acknowledgement : Option (Except Failure ActionExecutionResult)) :
    (finalizeTimedOut id stepId lease acknowledgement).Ensures (exec host) Attempted w := by
  refine .bindOk (dispatchAuthorized_ensures h) ?_
  rintro dispatched w' ⟨hstage, hsame, hdispatched⟩
  have hcontained' := hsame.contained hcontained
  have hcertain' := hsame.isUncertain.trans hcertain
  split_ifs with hsafe hd
  · exact finalize_ensures hstage hcontained' (.inl rfl) (.inr (.inl rfl)) (.inl (by decide))
      (.inl rfl) (.inr ⟨hcertain', .inl rfl⟩)
  · exact finalize_ensures hstage hcontained' (.inl rfl) (.inr (.inr rfl)) (.inr rfl) (.inr rfl)
      (.inr ⟨hcertain', .inr (hdispatched.symm.trans hd)⟩)
  · exact finalize_ensures hstage hcontained' (.inl rfl) (.inr (.inr rfl)) (.inr rfl) (.inl rfl)
      (.inr ⟨hcertain', .inl rfl⟩)

/-- An executor that threw is ended, and its error replaced. -/
theorem finalizeThrown_ensures (hcontained : w.Contained) (hcertain : w.isUncertain = false) :
    (finalizeThrown id stepId lease).Ensures (exec host) Thrown w := by
  refine .bindOk (dispatchAuthorized_ensures h) ?_
  rintro dispatched w' ⟨hstage, hsame, hdispatched⟩
  have hcontained' := hsame.contained hcontained
  have hcertain' := hsame.isUncertain.trans hcertain
  split_ifs with hd
  · exact attempted_throw rfl (finalize_ensures hstage hcontained' (.inl rfl) (.inr (.inr rfl))
      (.inr rfl) (.inr rfl) (.inr ⟨hcertain', .inr (hdispatched.symm.trans hd)⟩))
  · exact attempted_throw rfl (finalize_ensures hstage hcontained' (.inl rfl) (.inl rfl)
      (.inl (by decide)) (.inl rfl) (.inr ⟨hcertain', .inl rfl⟩))

end

/-! ## Races -/

/-- What `withDeadline` gives back and leaves: nothing was started, the timer won, or the work won.
-/
inductive DeadlineOutcome {T : Type}
    (record : PerformWorld → Option (Except Failure T) → PerformWorld) (w : PerformWorld) :
    Except Failure (DeadlineAttempt T) → PerformWorld → Prop
  | notStarted (acknowledgement : Option (Except Failure T)) :
      DeadlineOutcome record w (.ok (.timedOut acknowledgement)) w
  | timedOut (acknowledgement : Option (Except Failure T)) :
      DeadlineOutcome record w (.ok (.timedOut acknowledgement))
        (record (record w none) acknowledgement)
  | completed (value : T) :
      DeadlineOutcome record w (.ok (.completed value)) (record w (some (.ok value)))
  | failed (e : Failure) : DeadlineOutcome record w (.error e) (record w (some (.error e)))

variable {operation : Operation}

/-- `withDeadline`, for work whose races are recorded. -/
theorem withDeadline_ensures {T : Type} {start : Service ℕ}
    {race : ℕ → Service (Option (Except Failure T))} {notStarted : Option T}
    {record : PerformWorld → Option (Except Failure T) → PerformWorld}
    (hstart : start.Ensures (exec host) (fun r w' => ∃ work, r = .ok work ∧ w' = w) w)
    (hrace : ∀ work w₁, (race work).Ensures (exec host)
      (fun r w' => ∃ answer, r = .ok answer ∧ w' = record w₁ answer) w₁) :
    (withDeadline operation start race notStarted).Ensures (exec host) (DeadlineOutcome record w) w := by
  refine clock_bind fun now => ?_
  split_ifs with hdeadline
  · exact .notStarted _
  refine .bindOk hstart ?_
  rintro work w₁ rfl
  refine .bindOk (hrace work w₁) ?_
  rintro answer w₂ rfl
  rcases answer with _ | e | value
  · refine .bindOk (hrace work (record w₁ none)) ?_
    rintro acknowledgement w₃ rfl
    exact .timedOut acknowledgement
  · exact .failed e
  · exact .completed value

/-- A `try` around work with a deadline: a value comes only from work that won its race, and an
error only where the run could stop. -/
theorem tryDeadline_ensures {T : Type} {attempt : Service (DeadlineAttempt T)}
    {body : DeadlineAttempt T → Service T} {handler : Failure → Service T}
    {record : PerformWorld → Option (Except Failure T) → PerformWorld}
    {S : T → PerformWorld → Prop}
    (hattempt : attempt.Ensures (exec host) (DeadlineOutcome record w) w)
    (hcompleted : ∀ value, body (.completed value) = pure value)
    (hhandler : ∀ e, e.passesOn = true → handler e = throw e)
    (hvalue : ∀ value, S value (record w (some (.ok value))))
    (htimedOut : ∀ acknowledgement w', w' = w ∨ w' = record (record w none) acknowledgement →
      (body (.timedOut acknowledgement)).Ensures (exec host) Thrown w')
    (hpassed : ∀ e, e.passesOn = true → (record w (some (.error e))).Ending)
    (hthrown : ∀ e, e.passesOn = false →
      (handler e).Ensures (exec host) Thrown (record w (some (.error e)))) :
    (tryCatch (attempt >>= body) handler).Ensures (exec host)
      (fun r w' => (∀ value, r = .ok value → S value w') ∧ ∀ e, r = .error e → w'.Ending) w := by
  refine .tryCatch (S := fun r w' => (∀ value, r = .ok value → S value w') ∧
    ∀ e, r = .error e → e.passesOn = true ∧ w'.Ending ∨ w' = record w (some (.error e)))
    (Task.Ensures.bind hattempt ?_ ?_) (fun value w' hw' => ⟨hw'.1, nofun⟩) ?_
  · -- an attempt to end the operation throws what is passed on
    have hthrew : ∀ r w', Thrown r w' → (∀ value, r = .ok value → S value w') ∧ ∀ e, r = .error e →
        e.passesOn = true ∧ w'.Ending ∨ w' = record w (some (.error e)) := by
      rintro r w' ⟨hending, e, rfl, hpasses⟩
      refine ⟨nofun, fun e' he' => .inl ?_⟩
      cases he'
      exact ⟨hpasses, hending⟩
    intro attempt w' houtcome
    cases houtcome with
    | notStarted acknowledgement => exact (htimedOut acknowledgement _ (.inl rfl)).mono hthrew
    | timedOut acknowledgement => exact (htimedOut acknowledgement _ (.inr rfl)).mono hthrew
    | completed value =>
      rw [hcompleted]
      refine ⟨fun value' hvalue' => ?_, nofun⟩
      cases hvalue'
      exact hvalue value
  · intro e w' houtcome
    cases houtcome with
    | failed e => exact ⟨nofun, fun e' he' => by cases he'; exact .inr rfl⟩
  · -- the `catch`: an error that is passed on leaves the operation as it is
    intro e w' hw'
    cases hpasses : e.passesOn with
    | true =>
      rw [hhandler e hpasses]
      refine ⟨nofun, fun _ _ => ?_⟩
      rcases hw'.2 e rfl with ⟨-, hending⟩ | rfl
      · exact hending
      · exact hpassed e hpasses
    | false =>
      rcases hw'.2 e rfl with ⟨habsurd, -⟩ | rfl
      · cases hpasses.symm.trans habsurd
      · refine (hthrown e hpasses).mono ?_
        rintro r w' ⟨hending, e', rfl, -⟩
        exact ⟨nofun, fun _ _ => hending⟩

/-- The world after a race of the executor. -/
def recordExecution (w : PerformWorld) (answer : Option (Except Failure ActionExecutionResult)) :
    PerformWorld :=
  { w with executions := w.executions ++ [answer] }

/-- The world after a race of the verifier. -/
def recordVerification (w : PerformWorld) (answer : Option (Except Failure VerificationResult)) :
    PerformWorld :=
  { w with verifications := w.verifications ++ [answer] }

/-- The execution of a plan under its deadline. -/
theorem executeWithDeadline_ensures (operation : Operation) (lease : MutationLease)
    (plan : ActionPlan) :
    (executeWithDeadline operation lease plan).Ensures (exec host)
      (DeadlineOutcome recordExecution w) w := by
  refine withDeadline_ensures ?_ fun work w₁ => ?_ <;>
  · refine .perform fun choice r w' hexec => ?_
    cases choice <;> cases hexec
    exact ⟨_, rfl, rfl⟩

/-- The verification of an execution under its deadline. -/
theorem verifyWithDeadline_ensures (operation : Operation) (lease : MutationLease)
    (plan : ActionPlan) (execution : ActionExecutionResult) :
    (verifyWithDeadline operation lease plan execution).Ensures (exec host)
      (DeadlineOutcome recordVerification w) w := by
  refine withDeadline_ensures ?_ fun work w₁ => ?_ <;>
  · refine .perform fun choice r w' hexec => ?_
    cases choice <;> cases hexec
    exact ⟨_, rfl, rfl⟩

/-! ## The pieces of `perform` -/

/-- What is known when the executor has returned. -/
structure Executed (w : PerformWorld) (id stepId : JsString) (lease : MutationLease)
    (value : ActionExecutionResult) : Prop where
  stage : w.Stage id stepId lease .executing .notStarted
  executions : w.executions = [some (.ok value)]
  verifications : w.verifications = []

/-- An executor that threw an error that is passed on leaves the operation in flight. -/
theorem ending_of_passedOn (h : w.Stage id stepId lease status effect)
    (hlive : status.isTerminal = false) (hpasses : e.passesOn = true)
    (hanswer : w.execution = some (.error e) ∨ w.verification = some (.error e)) : w.Ending := by
  refine ending_of_open h.created (h.flight.not_concluded hlive) fun horderly => ?_
  have hcontained : e.passesOn = false := by
    rcases hanswer with hanswer | hanswer
    · exact horderly.execution e hanswer
    · exact horderly.verification e hanswer
  rw [hpasses] at hcontained
  cases hcontained

section

variable (h : w.Stage id stepId lease .executing .notStarted)
include h

/-- An execution that ran out of time is ended. -/
theorem timedOut_ensures (hexecution : w.execution = none) (hverifications : w.verifications = [])
    (acknowledgement : Option (Except Failure ActionExecutionResult)) :
    (finalizeTimedOut id stepId lease acknowledgement >>= fun _ =>
      (throw timedOutError : Service ActionExecutionResult)).Ensures (exec host) Thrown w := by
  obtain ⟨hcontained, hcertain⟩ := contained_of_none hexecution hverifications
  exact attempted_throw rfl (finalizeTimedOut_ensures h hcontained hcertain acknowledgement)

/-- An executor that threw an error of its own is ended. -/
theorem thrown_ensures (hexecution : w.execution = some (.error e))
    (hverifications : w.verifications = []) (hkept : e.passesOn = false) :
    (finalizeThrown id stepId lease).Ensures (exec host) Thrown w := by
  have hcontained : w.Contained := contained_of_execution hverifications fun e' he' => by
    rw [hexecution] at he'
    cases he'
    exact hkept
  have hcertain : w.isUncertain = false := by rw [PerformWorld.isUncertain, hexecution]
  exact finalizeThrown_ensures h hcontained hcertain

/-- `execute` returns the value of an executor that returned in time; otherwise the run could stop. -/
theorem execute_ensures (hexecutions : w.executions = []) (hverifications : w.verifications = [])
    (hid : operation.id = id) (plan : ActionPlan) :
    (execute operation stepId lease plan).Ensures (exec host)
      (fun r w' => (∀ value, r = .ok value → Executed w' id stepId lease value) ∧
        ∀ e, r = .error e → w'.Ending) w := by
  subst hid
  have hanswer : ∀ answer, (recordExecution w answer).executions = [answer] := by
    intro answer
    rw [recordExecution, hexecutions]
    rfl
  refine tryDeadline_ensures (executeWithDeadline_ensures operation lease plan) (fun _ => rfl) ?_ ?_ ?_
    ?_ ?_
  · intro e he
    cases e <;> first | rfl | cases he
  · exact fun value => ⟨⟨h.flight, h.created, h.inTime⟩, hanswer _, hverifications⟩
  · -- the deadline had passed before the start, or the timer won the race
    rintro acknowledgement w' (rfl | rfl)
    · refine timedOut_ensures h ?_ hverifications acknowledgement
      rw [PerformWorld.execution, hexecutions]
      rfl
    · have hexecution : (recordExecution (recordExecution w none) acknowledgement).execution = none :=
        execution_of_eq (congrArg (· ++ [acknowledgement]) (hanswer none))
      exact timedOut_ensures (w := recordExecution (recordExecution w none) acknowledgement)
        ⟨h.flight, h.created, h.inTime⟩ hexecution hverifications acknowledgement
  · exact fun e hpasses => ending_of_passedOn (w := recordExecution w _)
      ⟨h.flight, h.created, h.inTime⟩ rfl hpasses (.inl (execution_of_eq (hanswer _)))
  · intro e hkept
    have hstage : (recordExecution w (some (.error e))).Stage operation.id stepId lease .executing
        .notStarted := ⟨h.flight, h.created, h.inTime⟩
    cases e <;> first
      | exact thrown_ensures hstage (execution_of_eq (hanswer _)) hverifications hkept
      | cases hkept

end

/-- What is known of an operation in verification: nothing speaks against its end. -/
structure Verifying (w : PerformWorld) (id stepId : JsString) (lease : MutationLease)
    (effect : ExternalEffectState) : Prop where
  stage : w.Stage id stepId lease .verifying effect
  contained : w.Contained
  certain : w.isUncertain = false

section

variable (h : Verifying w id stepId lease effect)
include h

/-- An operation in verification is ended with the effect it has. -/
theorem Verifying.finalize (heffect : effect ≠ .effectPossiblyActive)
    (hnext : next = .failed ∨ next = .indeterminate) :
    (finalize id stepId lease next verificationState recoveryState effect reasonCode).Ensures
      (exec host) Attempted w :=
  finalize_ensures h.stage h.contained (.inr rfl) (hnext.imp_right .inr) (.inl heffect) (.inl rfl)
    (.inr ⟨h.certain, .inl rfl⟩)

/-- A race of the verifier leaves an operation in verification, unless it fails with an error that is
passed on. -/
theorem Verifying.record {answer : Option (Except Failure VerificationResult)}
    (hkept : ∀ e, (recordVerification w answer).verification = some (.error e) →
      e.passesOn = false) : Verifying (recordVerification w answer) id stepId lease effect :=
  ⟨⟨h.stage.flight, h.stage.created, h.stage.inTime⟩, ⟨h.contained.execution, hkept⟩, h.certain⟩

/-- `verify` returns the value of a verifier that returned in time; otherwise the run could stop. -/
theorem verify_ensures (hverifications : w.verifications = [])
    (heffect : effect ≠ .effectPossiblyActive) (hid : operation.id = id) (plan : ActionPlan)
    (execution : ActionExecutionResult) :
    (verify operation stepId lease plan execution effect).Ensures (exec host)
      (fun r w' => (∀ value, r = .ok value → Verifying w' id stepId lease effect) ∧
        ∀ e, r = .error e → w'.Ending) w := by
  subst hid
  have hanswer : ∀ answer, (recordVerification w answer).verification = answer := by
    intro answer
    rw [PerformWorld.verification, recordVerification, hverifications]
    rfl
  have hsilent : (recordVerification w none).verifications = [none] := by
    rw [recordVerification, hverifications]
    rfl
  refine tryDeadline_ensures (verifyWithDeadline_ensures operation lease plan execution)
    (fun _ => rfl) ?_ ?_ ?_ ?_ ?_
  · intro e he
    cases e <;> first | rfl | cases he
  · refine fun value => h.record fun e he => ?_
    cases (hanswer _).symm.trans he
  · intro acknowledgement w' hw'
    refine attempted_throw rfl (Verifying.finalize ?_ heffect (.inr rfl))
    rcases hw' with rfl | rfl
    · exact h
    · refine (h.record fun e he => ?_).record fun e he => ?_
      · cases (hanswer _).symm.trans he
      · rw [PerformWorld.verification, recordVerification, hsilent] at he
        cases he
  · exact fun e hpasses => ending_of_passedOn (w := recordVerification w _)
      ⟨h.stage.flight, h.stage.created, h.stage.inTime⟩ rfl hpasses (.inr (hanswer _))
  · intro e hkept
    have hverifying : Verifying (recordVerification w (some (.error e))) operation.id stepId lease
        effect := h.record fun e' he' => by
      cases (hanswer _).symm.trans he'
      exact hkept
    cases e <;> first
      | exact attempted_throw rfl (hverifying.finalize heffect (.inr rfl))
      | cases hkept

end

/-- A transition of the step in flight: it moves on, or the lease has expired and the run could
stop. -/
theorem transition_ensures (h : w.Stage id stepId lease status effect)
    {input : DurableStepTransitionInput} (hmay : MayMove id stepId lease status input)
    (heffect : input.externalEffect.getD effect = effect ∨
      effect = .notStarted ∧ w.repository.dispatched stepId = true) :
    (safe (repository (.transitionStepWithAudit input)) code).Ensures (exec host) (fun r w' =>
      SameAnswers w w' ∧
        (∀ answer, r = .ok answer →
          w'.Stage id stepId lease input.status (input.externalEffect.getD effect)) ∧
        ∀ e, r = .error e → w'.Ending) w := by
  refine safe_repository_ensures fun dispatches hdispatches => ?_
  obtain ⟨hflight, hmono⟩ := h.flight.run_dispatch host hdispatches
  have hlive := isTerminal_eq_false_of_mem hmay.allowed
  intro outcome
  have hlate : (w.afterCall (.transitionStepWithAudit input) outcome).late =
      decide (lease.leaseExpiresAt ≤ input.now) := by
    change (w.late || decide (input.ownership.leaseExpiresAt ≤ input.now)) = _
    rw [h.inTime, hmay.ownership, Bool.false_or]
  have hmove := hflight.transition hmay (heffect.imp_right fun hd => ⟨hd.1, hmono hd.2⟩)
    (rfl : outcome = _)
  clear_value outcome
  -- the call goes through exactly while the lease lasts
  split_ifs at hmove with hnow
  · obtain ⟨⟨answer, hok⟩, hflight', -⟩ := hmove
    rw [hok]
    refine ⟨sameAnswers_afterCall .., fun _ _ => ⟨hflight', h.created, ?_⟩, nofun⟩
    rw [hlate]
    exact decide_eq_false (not_le.mpr hnow)
  · obtain ⟨e, rfl⟩ := hmove
    refine fun e' _ => ⟨sameAnswers_afterCall .., fun _ hok => (by cases hok), fun _ _ => ?_⟩
    refine ending_of_open h.created (hflight.not_concluded hlive) fun horderly => ?_
    have hinTime := hlate.symm.trans horderly.inTime
    exact hnow (by simpa using hinTime)

variable {value : ActionExecutionResult}

/-- `perform` after an executor that completed. -/
theorem complete_ensures (h : Executed w id stepId lease value)
    (hcertain : value.isUncertain = false) (hid : operation.id = id) (plan : ActionPlan) :
    (complete operation stepId lease plan value).Ensures (exec host) (fun _ w' => w'.Ending) w := by
  subst hid
  refine .bindOk (dispatchAuthorized_ensures h.stage) ?_
  rintro dispatched w₁ ⟨hstage, hsame, hdispatched⟩
  refine clock_bind fun verifyingAt => ?_
  generalize heffect : (if dispatched = true then ExternalEffectState.completed else .notStarted) =
    completedEffect
  have hpossible : completedEffect ≠ .effectPossiblyActive := by
    rw [← heffect]
    cases dispatched <;> decide
  -- the effect is recorded as completed only after an authorised dispatch
  refine .bind (transition_ensures hstage ⟨rfl, rfl, rfl, ?_, ?_, rfl, .inr (by decide)⟩ ?_) ?_ ?_
  · exact List.mem_singleton_self _
  · change verifying ∈ _
    decide
  · rw [← heffect]
    cases dispatched with
    | false => exact .inl rfl
    | true => exact .inr ⟨rfl, hdispatched.symm⟩
  · rintro answer w₂ ⟨hsame', hmoved, -⟩
    have hexecutions : w₂.executions = [some (.ok value)] :=
      hsame'.executions.trans (hsame.executions.trans h.executions)
    have hverifications : w₂.verifications = [] :=
      hsame'.verifications.trans (hsame.verifications.trans h.verifications)
    have hexecution := execution_of_eq hexecutions
    have hverifying : Verifying w₂ operation.id stepId lease completedEffect := by
      refine ⟨hmoved answer rfl, contained_of_execution hverifications fun e he => ?_, ?_⟩
      · cases hexecution.symm.trans he
      · rw [PerformWorld.isUncertain, hexecution]
        exact hcertain
    refine hit_bind ?_
    refine .bind (verify_ensures hverifying hverifications hpossible rfl plan value) ?_
      fun e w₃ hw₃ => hw₃.2 e rfl
    intro verification w₃ hw₃
    have hverified := hw₃.1 verification rfl
    refine hit_bind ?_
    -- an unknown and a failed verification end the operation, too
    split_ifs with hfailed hunknown
    · exact .bind (hverified.finalize hpossible (.inr rfl)) (fun _ w' hw' => hw'.1)
        fun e w' hw' => hw'.1
    · exact .bind (hverified.finalize hpossible (.inl rfl)) (fun _ w' hw' => hw'.1)
        fun e w' hw' => hw'.1
    refine hit_bind ?_
    refine clock_bind fun completedAt => ?_
    have hallowed : succeeded ∈ verifying.allowedTransitions := by decide
    refine .bind (finalizeCall_ensures hverified.stage hverified.contained ⟨rfl, rfl, rfl,
      by decide, List.mem_singleton_self _, hallowed, rfl, rfl, .inl hpossible, .inl rfl⟩
      (.inr ⟨hverified.certain, .inl rfl⟩)) ?_ fun e w' hw' => hw'.1
    exact fun completed w' hw' => hw'.1
  · exact fun e w₂ hw₂ => hw₂.2.2 e rfl

/-- `perform` after an executor that returned. -/
theorem executed_ensures (h : Executed w id stepId lease value) (hid : operation.id = id)
    (plan : ActionPlan) :
    (executed operation stepId lease plan value).Ensures (exec host) (fun _ w' => w'.Ending) w := by
  have hexecution := execution_of_eq h.executions
  have hcontained : w.Contained := contained_of_execution h.verifications fun e he => by
    cases hexecution.symm.trans he
  have huncertain : w.isUncertain = value.isUncertain := by rw [PerformWorld.isUncertain, hexecution]
  unfold executed
  subst hid
  by_cases hrejected : value.accepted = false ∧ isSafePreEffectOutcome value.outcome
  · rw [if_pos hrejected]
    have hcertain : value.isUncertain = false := by
      simp [ActionExecutionResult.isUncertain, hrejected]
    exact .bind (finalize_ensures h.stage hcontained (.inl rfl) (.inl rfl)
      (.inl (by decide)) (.inl rfl) (.inr ⟨huncertain.trans hcertain, .inl rfl⟩))
      (fun _ w' hw' => hw'.1) fun e w' hw' => hw'.1
  · rw [if_neg hrejected]
    -- an answer that leaves the effect open is recorded as possibly active
    by_cases hopen : value.accepted = false ∨ value.outcome ≠ .completed
    · rw [if_pos hopen]
      have hopen' : value.isUncertain = true := by
        simp only [ActionExecutionResult.isUncertain, decide_eq_true_eq]
        exact ⟨hrejected, hopen⟩
      exact .bind (finalize_ensures h.stage hcontained (.inl rfl) (.inr (.inr rfl))
        (.inr rfl) (.inr rfl) (.inl ⟨huncertain.trans hopen', by decide⟩)) (fun _ w' hw' => hw'.1)
        fun e w' hw' => hw'.1
    · rw [if_neg hopen]
      have hcertain : value.isUncertain = false := by
        simp only [ActionExecutionResult.isUncertain, decide_eq_false_iff_not]
        exact fun habsurd => hopen habsurd.2
      exact complete_ensures h hcertain rfl plan

variable {step : OperationStep}

/-- `perform` from its lease on settles the operation of an orderly run. -/
theorem performOwned_ensures (h : w.Stage id stepId lease .validated .notStarted)
    (hexecutions : w.executions = []) (hverifications : w.verifications = [])
    (hid : operation.id = id) (hstepId : step.id = stepId) (plan : ActionPlan) :
    (performOwned operation step lease plan).Ensures (exec host) (fun _ w' => w'.Ending) w := by
  subst hid hstepId
  refine clock_bind fun executingAt => ?_
  refine clock_bind fun startedAt => ?_
  have hallowed : executing ∈ validated.allowedTransitions := by decide
  refine .bind (transition_ensures h ⟨rfl, rfl, rfl, List.mem_singleton_self _, hallowed, rfl,
    .inl rfl⟩ (.inl rfl)) ?_ fun e w₁ hw₁ => hw₁.2.2 e rfl
  rintro answer w₁ ⟨hsame, hmoved, -⟩
  refine hit_bind ?_
  refine .bind (execute_ensures (hmoved answer rfl) (hsame.executions.trans hexecutions)
    (hsame.verifications.trans hverifications) rfl _) ?_ fun e w₂ hw₂ => hw₂.2 e rfl
  intro value w₂ hw₂
  refine hit_bind ?_
  exact executed_ensures (hw₂.1 value rfl) rfl _

/-- An operation that has just been created. -/
structure Created (w : PerformWorld) (operation : Operation) (stepId : JsString) : Prop where
  fresh : Untaken w.repository operation stepId
  created : w.created = some (operation.id, stepId)
  inTime : w.late = false
  executions : w.executions = []
  verifications : w.verifications = []

/-- `perform` from its claim on: the lease is refused and the operation rejected, or it goes on. -/
theorem performClaimed_ensures {config : ServiceConfig} {value : DurableParentChildOperation}
    (hsteps : value.steps = [step]) (h : Created w value.operation step.id) (plan : ActionPlan)
    (now : Timestamp) :
    (performClaimed config value plan now).Ensures (exec host) (fun _ w' => w'.Ending) w := by
  have hlater : now < now + config.options.lockLeaseMs := by
    have hshorter := config.options.shorter
    have hpos := config.options.operationTimeoutMs_pos
    have hpos' := config.options.cancellationAcknowledgementMs_pos
    change (0 : ℤ) < _ at hpos hpos'
    change (_ : ℤ) < _ at hshorter
    change (_ : ℤ) < _
    omega
  have honly : onlyStep value = .ok step := by rw [onlyStep, hsteps]
  unfold performClaimed
  rw [honly]
  refine hit_bind ?_
  refine .bindOk (S := fun granted w' => w'.executions = [] ∧ w'.verifications = [] ∧
    (granted = none ∧ Created w' value.operation step.id ∨ ∃ lease, granted = some lease ∧
      w'.Stage value.operation.id step.id lease .validated .notStarted))
    (safe_repository_ok fun dispatches hdispatches => ?_) ?_
  · have hfresh := h.fresh.run_dispatch host hdispatches
    intro outcome
    have hlease : outcome = (.ok none, w.repository.run host dispatches) ∨
        ∃ lease, outcome.1 = .ok (some lease) ∧
          InFlight outcome.2 value.operation.id step.id lease .validated .notStarted :=
      hfresh.acquireLease hlater
    have hlate := (Bool.or_false _).trans h.inTime
    clear_value outcome
    rcases hlease with rfl | ⟨lease, hok, hflight⟩
    · exact ⟨none, rfl, h.executions, h.verifications, .inl ⟨rfl, hfresh, h.created, hlate,
        h.executions, h.verifications⟩⟩
    · exact ⟨some lease, hok, h.executions, h.verifications, .inr ⟨lease, rfl, hflight, h.created,
        hlate⟩⟩
  · rintro granted w₁ ⟨hexecutions, hverifications, ⟨rfl, hcreated⟩ | ⟨lease, rfl, hstage⟩⟩
    · -- another operation holds the key
      refine clock_bind fun rejectedAt => ?_
      refine .bindOk (S := fun _ w' => w'.Ending)
        (safe_repository_ok fun dispatches hdispatches => ?_) (fun _ w' hw' => hw')
      have hfresh := hcreated.fresh.run_dispatch host hdispatches
      obtain ⟨⟨answer, hok⟩, hconcluded⟩ := hfresh.reject rejectedAt .operationInProgress
      intro outcome
      have hconcluded' : outcome.2.Concluded value.operation.id := hconcluded
      have hlate := (Bool.or_false _).trans hcreated.inTime
      obtain ⟨hcontained, hcertain⟩ := contained_of_nil hexecutions hverifications
      refine ⟨answer, hok, ending_of_concluded hcreated.created hconcluded'
        ⟨⟨hcontained.1, hcontained.2⟩, hlate, fun huncertain => ?_⟩⟩
      exact absurd (hcertain.symm.trans huncertain) (by simp)
    · exact performOwned_ensures hstage hexecutions hverifications rfl rfl plan

/-- The calls of executors keep a world in which nothing has been created. -/
theorem before_run (host : Host) (h : w.Before) {dispatches : List RepositoryCall}
    (hdispatches : ∀ d ∈ dispatches, d.dispatchTarget.isSome = true) :
    (w.repository.run host dispatches).rows.Wf ∧
      (w.repository.run host dispatches).auditFaults = [] :=
  (reachedBy_run_of w.repository dispatches hdispatches).induct
    (fun r => r.rows.Wf ∧ r.auditFaults = []) ⟨h.wf, h.quiet⟩
    fun _ c hc hr => ⟨next_wf host c hr.1, quiet_dispatch host hc hr.2⟩

/-- The resolution of the target changes nothing. -/
theorem resolve_ensures (config : ServiceConfig) (applicationId : JsString) (action : ActionType) :
    (resolve config applicationId action).Ensures (exec host) (fun _ w' => w' = w) w := by
  refine clock_bind fun now => ?_
  refine .bindAttempt (S := fun _ w' => w' = w) ?_ ?_
  · refine .bind (S := fun _ w' => w' = w) ?_ ?_ fun _ _ hw => hw
    · refine .perform fun choice r w' hexec => ?_
      cases choice <;> cases hexec
      rfl
    rintro snapshot w₁ rfl
    refine .bind (S := fun _ w' => w' = w₁) ?_ (fun _ _ hw => hw) fun _ _ hw => hw
    refine .perform fun choice r w' hexec => ?_
    cases choice <;> cases hexec
    rfl
  · rintro (e | ⟨snapshot, evidence⟩) w₁ rfl
    · rfl
    · rfl

/-- What a claim leaves: the operation and its step are new, or nothing has been created. -/
def ClaimEnded : Except Failure DurableParentChildClaim → PerformWorld → Prop
  | .ok ⟨.created, value⟩, w => ∃ step, value.steps = [step] ∧ Created w value.operation step.id
  | _, w => w.Before

/-- The claim of `perform`. -/
theorem claim_ensures (h : w.Before) (input : DurableParentChildClaimInput) :
    (safe (repository (.claimParentWithStep input)) code).Ensures (exec host) ClaimEnded w := by
  refine safe_repository_ensures fun dispatches hdispatches => ?_
  obtain ⟨hwf, hquiet⟩ := before_run host h hdispatches
  have hwf' := next_wf host (.claimParentWithStep input) hwf
  have hquiet' := claimParentWithStep_faults host input hquiet
  intro outcome
  have hcreated : ∀ value, outcome.1 = .ok ⟨.created, value⟩ → value.steps = [stepFromClaim input] ∧
      Untaken outcome.2 value.operation input.stepId :=
    fun value hok => untaken_of_created hwf hquiet' hok
  change outcome.2.rows.Wf at hwf'
  change outcome.2.auditFaults = [] at hquiet'
  rcases outcome with ⟨e | ⟨_ | _, value⟩, r'⟩
  · exact fun _ _ => h.afterCall hwf' hquiet' rfl rfl
  · obtain ⟨hsteps, hfresh⟩ := hcreated value rfl
    exact ⟨stepFromClaim input, hsteps, hfresh, rfl, (Bool.or_false _).trans h.late, h.executions,
      h.verifications⟩
  · exact h.afterCall hwf' hquiet' rfl rfl

/-- `perform`: the operation it created is concluded exactly when the run was orderly. -/
theorem perform_ensures (h : w.Before) (config : ServiceConfig) (actor : Option PlanActor)
    (request : ActionRequest) :
    (perform config actor request).Ensures (exec host) (fun _ w' => w'.Ending) w := by
  unfold perform
  rcases hauthorized : ActionPlanner.authorizeApplicationRequest actor request with e | authorized
  · exact h.ending
  refine clock_bind fun replayTime => ?_
  refine .bind (S := fun _ w' => w'.Before)
    (safe_repository_ensures fun dispatches hdispatches => ?_) ?_ fun e w' hw' => hw'.ending
  · obtain ⟨hwf, hquiet⟩ := before_run host h hdispatches
    intro outcome
    have hbefore : (w.afterCall (.replayParentClaim _) outcome).Before :=
      h.afterCall (next_wf host (.replayParentClaim _) hwf)
        ((extends_next host _ (.replayParentClaim _) rfl).faults hquiet) rfl rfl
    rcases outcome with ⟨_ | _, r'⟩
    · exact fun _ _ => hbefore
    · exact hbefore
  intro existing w₁ hbefore
  -- a replay creates nothing
  cases existing with
  | some value => exact hbefore.ending
  | none =>
    refine .bind (resolve_ensures config _ _) ?_
      (by rintro e w' rfl; exact hbefore.ending)
    rintro snapshot w₂ rfl
    refine clock_bind fun now => ?_
    refine newId_bind fun operationId => ?_
    refine newId_bind fun stepId => ?_
    refine .bind (claim_ensures hbefore _) ?_ fun e w' hw' => Before.ending hw'
    rintro ⟨_ | _, value⟩ w₃ hclaim
    · obtain ⟨step, hsteps, hcreated⟩ := hclaim
      exact performClaimed_ensures hsteps hcreated _ now
    · exact Before.ending hclaim

/-! ## Runs -/

/-- A run of `perform` up to and including the start of its executor, with no one else around. -/
def startedRun : List PerformChoice :=
  [ .time 1, .after [], .time 1, .snapshot (.ok (some sampleSnapshot)),
    .evidence (.ok (some sampleEvidence)), .time 1, .id (js "op"), .id (js "step"), .after [], .fixed,
    .after [], .time 2, .time 2, .after [], .fixed, .time 2, .work 0 ]

/-- An operator asks to start application `app`. -/
def sampleActor : Option PlanActor := some ⟨js "actor", .operator⟩

@[inherit_doc sampleActor]
def sampleStart : ActionRequest := ⟨.start, ⟨js "app", none, none⟩, js "key-00001"⟩

/-- The run of `perform` under some choices. -/
def sampleRun (choices : List PerformChoice) :
    Option (Except Failure ApplicationMutationOutcome × PerformWorld × List PerformChoice) :=
  (perform sampleConfig sampleActor sampleStart).eval (exec sampleConfig.host)
    { repository := initial [] } choices

/-- What a run leaves: the operation, its status, and whether it holds the lock of its key. -/
def leaves (w : PerformWorld) : Option (JsString × JsString) × Option ActionStatus × Bool :=
  (w.created, w.repository.statusOf (js "op"),
    (w.repository.locks.get (js "application:app")).any (·.ownerOperationId = js "op"))

/-- The executor throws an error of the class `MutationError` before its deadline. -/
def refusedRun : List PerformChoice :=
  startedRun ++ [.execution (some (.error (.mutation .executionFailed "refused")))]

/-- The executor answers before its deadline that its effect may be active, with no dispatch. -/
def undispatchedRun : List PerformChoice :=
  startedRun ++
    [.execution (some (.ok ⟨false, .effectPossiblyActive, none⟩)), .fixed, .time 3, .after []]

/-- The executor completes and the verifier agrees. -/
def completedRun : List PerformChoice :=
  startedRun ++
    [ .execution (some (.ok ⟨true, .completed, none⟩)), .fixed, .after [], .time 3, .after [], .fixed,
      .time 3, .work 1, .verification (some (.ok ⟨true, none, none⟩)), .fixed, .fixed, .time 4,
      .after [] ]

/-- An operation in a status that is not terminal is not settled. -/
theorem not_settled_of_status {stepId : JsString} (hcreated : w.created = some (id, stepId))
    (hstatus : w.repository.statusOf id = some status) (hlive : status.isTerminal = false) :
    ¬ w.Settled := by
  intro hsettled
  obtain ⟨operation, hget, hterminal, -⟩ := hsettled id stepId hcreated
  rw [statusOf, hget, Option.map_some, Option.some.injEq] at hstatus
  rw [hstatus, hlive] at hterminal
  cases hterminal

/-- In a run of `perform` from a reachable repository in which no audit append fails, the operation
it created ends in a terminal status, without the lock of its key unless it is `INDETERMINATE`,
exactly when the run was orderly. -/
theorem perform_settles_iff {config : ServiceConfig} {repository : Repository}
    (hreachable : Reachable config.host repository) (hquiet : repository.auditFaults = [])
    {actor : Option PlanActor} {request : ActionRequest} {choices rest : List PerformChoice}
    {outcome : Except Failure ApplicationMutationOutcome}
    (heval : (perform config actor request).eval (exec config.host) { repository := repository }
      choices = some (outcome, w, rest)) : w.Settled ↔ w.Orderly := by
  obtain ⟨auditFaults, hrun⟩ := hreachable
  have hbefore : Before { repository := repository } :=
    ⟨hrun.wf (initial_wf auditFaults), hquiet, rfl, rfl, rfl, rfl⟩
  exact (perform_ensures hbefore config actor request).eval heval

/-- The conditions are met by a run that succeeds. -/
theorem perform_settles_iff_completed :
    ∃ outcome w rest, sampleRun completedRun = some (outcome, w, rest) ∧
      leaves w = (some (js "op", js "step"), some .succeeded, false) ∧ w.Settled ∧ w.Orderly := by
  have hfacts : (sampleRun completedRun).map (fun x => (leaves x.2.1, [x.2.1.late,
      x.2.1.execution.all Except.isOk, x.2.1.verification.all Except.isOk, x.2.1.isUncertain])) =
      some ((some (js "op", js "step"), some .succeeded, false), [false, true, true, false]) := by
    decide +kernel
  obtain ⟨⟨outcome, w, rest⟩, heval, heq⟩ := Option.map_eq_some_iff.mp hfacts
  simp only [Prod.mk.injEq, List.cons.injEq, and_true] at heq
  obtain ⟨hleaves, hlate, hexecution, hverification, hcertain⟩ := heq
  have horderly : w.Orderly := by
    refine ⟨⟨fun e he => ?_, fun e he => ?_⟩, hlate, fun huncertain => ?_⟩
    · rw [he] at hexecution
      cases hexecution
    · rw [he] at hverification
      cases hverification
    · rw [hcertain] at huncertain
      cases huncertain
  exact ⟨outcome, w, rest, heval, hleaves,
    (perform_settles_iff ⟨[], .refl⟩ rfl heval).mpr horderly, horderly⟩

/-- A run in which the lease is presented in time ends with the operation `EXECUTING` under the lock
of its key. -/
def LeftExecuting (choices : List PerformChoice) : Prop :=
  ∃ outcome w rest, sampleRun choices = some (outcome, w, rest) ∧ w.late = false ∧
    leaves w = (some (js "op", js "step"), some .executing, true) ∧ ¬ w.Settled

/-- What is computed of such a run. -/
theorem leftExecuting_of_leaves {choices : List PerformChoice}
    (h : (sampleRun choices).map (fun x => (x.2.1.late, leaves x.2.1)) =
      some (false, some (js "op", js "step"), some .executing, true)) : LeftExecuting choices := by
  obtain ⟨⟨outcome, w, rest⟩, heval, heq⟩ := Option.map_eq_some_iff.mp h
  simp only [Prod.mk.injEq] at heq
  obtain ⟨hlate, hleaves⟩ := heq
  refine ⟨outcome, w, rest, heval, hlate, hleaves, ?_⟩
  simp only [leaves, Prod.mk.injEq] at hleaves
  exact not_settled_of_status hleaves.1 hleaves.2.1 rfl

/-- An executor that throws a `MutationError`, and one that answers that its effect may be active
although it did not dispatch, each leave the operation `EXECUTING` under the lock of its key. -/
theorem perform_leaves_executing : LeftExecuting refusedRun ∧ LeftExecuting undispatchedRun :=
  ⟨leftExecuting_of_leaves (by decide +kernel), leftExecuting_of_leaves (by decide +kernel)⟩

end ApplicationMutationOrchestrator

end ZimaControl
