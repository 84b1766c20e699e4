import ZimaControl.Lib.Solo
import ZimaControl.Mutation.Exclusion
import ZimaControl.Mutation.ParentAgreement
import ZimaControl.Mutation.System

/-!
# Whether recovery settles what it finds

One pass of `MutationStepRecoveryService.recover` over a reachable repository. The pass lists the
operations that are not terminal and whose key has no unexpired lease, and takes them in turn. At its
turn an operation with one live step and a free key gets the recovery lease, and its step is then
rejected, or becomes `INDETERMINATE` if anything may have been dispatched.

The table of recovery refuses one of the steps that performers leave behind: an executor that had
nothing to do completes without a dispatch, and `perform` moves its step to `VERIFYING` with the effect
`NOT_STARTED`. Recovery wants to reject such a step, which the table allows only before verification.
-/

namespace ZimaControl

open InMemoryDurableMutationRepository List

variable {step : OperationStep} {operation : Operation}
  {id : JsString}

namespace InMemoryDurableMutationRepository

variable {r r' : Repository} {host : Host}

/-! ## What steps keep -/

/-- A step that has not started to execute has neither a dispatch nor an effect. -/
structure Early (step : OperationStep) : Prop where
  created : step.status ≠ .pending ∧ step.status ≠ .authorized
  certain : step.status = .validated → recoveryUncertain step = false

/-- Every step that is stored. -/
def StepsEarly (r : Repository) : Prop := ∀ id step, r.steps.get id = some step → Early step

/-- A new version of a step. -/
theorem StepsEarly.set (h : StepsEarly r) (hstep : Early step)
    (hsteps : r'.steps = r.steps.set step.id step) : StepsEarly r' := by
  intro id s hget
  rw [hsteps, JsMap.get_set] at hget
  split_ifs at hget
  · cases hget
    exact hstep
  · exact h id s hget

/-- No step changed. -/
theorem StepsEarly.of_eq (h : StepsEarly r) (hsteps : r'.steps = r.steps) : StepsEarly r' := by
  intro id s hget
  rw [hsteps] at hget
  exact h id s hget

/-- A step moves on from where it is early to where nothing is asked of it. -/
theorem Early.moved {step step' : OperationStep} (h : Early step)
    (hallowed : step'.status ∈ step.status.allowedTransitions) : Early step' := by
  have hnot : step'.status ≠ .pending ∧ step'.status ≠ .authorized ∧ step'.status ≠ .validated := by
    have hcreated := h.created
    revert hcreated hallowed
    cases step.status <;> cases step'.status <;> decide
  exact ⟨⟨hnot.1, hnot.2.1⟩, fun hvalidated => absurd hvalidated hnot.2.2⟩

/-- A step that has ended. -/
theorem Early.of_terminal (hterminal : step.status.isTerminal = true) : Early step := by
  refine ⟨⟨?_, ?_⟩, ?_⟩ <;>
  · intro heq
    rw [heq] at hterminal
    cases hterminal

/-- A step that is dispatched executes. -/
theorem Early.dispatched (hstatus : step.status = .executing) (token : ℕ) (now : Timestamp) :
    Early (dispatchedStep step token now) := by
  have hexecuting : (dispatchedStep step token now).status = .executing := hstatus
  refine ⟨⟨?_, ?_⟩, ?_⟩ <;>
  · intro heq
    rw [hexecuting] at heq
    cases heq

/-- The status that recovery gives is terminal. -/
theorem recoveryStatus_isTerminal (step : OperationStep) :
    (recoveryStatus step).isTerminal = true := by
  rw [recoveryStatus]
  split_ifs <;> rfl

/-- Every call keeps the steps early. -/
theorem next_stepsEarly (host : Host) (c : RepositoryCall) (hwf : r.rows.Wf) (h : StepsEarly r) :
    StepsEarly (c.next host r) := by
  obtain ⟨rows', hrows⟩ : ∃ rows', (c.next host r).rows = rows' := ⟨_, rfl⟩
  have hchange := next_callChange host c hwf
  have hsteps : (c.next host r).steps = rows'.steps := congrArg Rows.steps hrows
  rw [hrows] at hchange
  cases hchange with
  | same | claimed | granted | recoveryGranted | renewed | released => exact h.of_eq hsteps
  | moved => exact h.of_eq (hsteps.trans (dropLock_steps _ _ _))
  | created input _ hstep =>
    have hnew : Early (stepFromClaim input) := ⟨⟨nofun, nofun⟩, fun _ => rfl⟩
    subst hstep
    exact h.set hnew hsteps
  | rejected => exact h.set (Early.of_terminal rfl) hsteps
  | transitioned _ checks =>
    obtain ⟨-, hst, -, -, -, -, -, hallowed, -⟩ := stepTransitionChecks_eq_ok.mp checks
    exact h.set ((h _ _ hst).moved hallowed) hsteps
  | finalized _ checks =>
    obtain ⟨hterminal, -⟩ := finalizeChecks_eq_ok.mp checks
    exact h.set (Early.of_terminal hterminal) (hsteps.trans (dropLock_steps _ _ _))
  | recovered =>
    exact h.set (Early.of_terminal (recoveryStatus_isTerminal _))
      (hsteps.trans (dropLock_steps _ _ _))
  | dispatched _ _ _ checks =>
    obtain ⟨-, -, -, -, -, hexecuting, -⟩ := stepDispatchChecks_ok checks
    exact h.set (Early.dispatched hexecuting _ _) hsteps

/-- The steps of a reachable repository are early. -/
theorem Reachable.stepsEarly (h : Reachable host r) : r.rows.Wf ∧ StepsEarly r := by
  obtain ⟨auditFaults, hrun⟩ := h
  have hinitial : StepsEarly (initial auditFaults) := by
    intro id step hget
    cases hget
  refine hrun.induct (fun r => r.rows.Wf ∧ StepsEarly r) ⟨initial_wf auditFaults, hinitial⟩ ?_
  exact fun r c _ hr => ⟨next_wf host c hr.1, next_stepsEarly host c hr.1 hr.2⟩

/-! ## What recovery can move -/

/-- A step in verification without dispatch or effect: the one that recovery does not move. -/
def Undispatched (step : OperationStep) : Prop :=
  step.status = .verifying ∧ step.dispatchAuthorizedAt = none ∧ step.externalEffect = .notStarted

/-- Recovery moves every other live step. -/
theorem transitionAllowedForRecovery_iff (hearly : Early step)
    (hlive : step.status.isTerminal = false) :
    transitionAllowedForRecovery step.status (recoveryStatus step) = true ↔ ¬ Undispatched step := by
  have huncertain : recoveryUncertain step = false ↔
      step.dispatchAuthorizedAt = none ∧ step.externalEffect = .notStarted := by
    simp [recoveryUncertain]
  have hcertain := hearly.certain
  have hcreated := hearly.created
  unfold Undispatched recoveryStatus
  rw [← huncertain]
  revert hlive hcertain hcreated
  cases step.status <;> cases recoveryUncertain step <;> decide

/-- The key of an operation is free for recovery: no lock, or one that has expired and whose owner is
not `INDETERMINATE`. -/
def KeyFree (r : Repository) (key : JsString) (now : Timestamp) : Prop :=
  ∀ lock, r.locks.get key = some lock → lock.leaseExpiresAt ≤ now ∧
    r.statusOf lock.ownerOperationId ≠ some .indeterminate

variable {now leaseExpiresAt : Timestamp}

/-- `acquireRecoveryLease` for a stored operation under its key. -/
theorem acquireRecoveryLease_outcome (hget : r.operations.get id = some operation)
    (hlater : now < leaseExpiresAt) :
    let outcome := r.acquireRecoveryLease operation.operationKey id now leaseExpiresAt
    outcome = (.ok none, r) ∧
        (KeyFree r operation.operationKey now → operation.status.isTerminal = true) ∨
      outcome = r.grantLease operation.operationKey id now leaseExpiresAt ∧
        operation.status.isTerminal = false := by
  intro outcome
  simp only [outcome, acquireRecoveryLease, if_neg (not_le.mpr hlater), hget, ne_eq, not_true,
    false_or]
  split_ifs with hterminal
  · exact .inl ⟨rfl, fun _ => hterminal⟩
  have hlive : operation.status.isTerminal = false := by simpa using hterminal
  split
  case h_1 => exact .inr ⟨rfl, hlive⟩
  case h_2 current hlock =>
    split_ifs with hunknown hheld
    · exact .inl ⟨rfl, fun hfree => absurd hunknown (hfree current hlock).2⟩
    · exact .inl ⟨rfl, fun hfree => absurd (hfree current hlock).1 (not_le.mpr hheld)⟩
    · exact .inr ⟨rfl, hlive⟩

/-- An operation is in a terminal status. -/
def Ended (r : Repository) (id : JsString) : Prop :=
  ∃ operation, r.operations.get id = some operation ∧ operation.status.isTerminal = true

/-- An operation is live and recovery does not move its step. -/
def Stays (r : Repository) (id : JsString) : Prop :=
  ∃ operation step, Pair r operation step ∧ operation.id = id ∧
    operation.status.isTerminal = false ∧ Undispatched step

theorem Stays.not_ended (h : Stays r id) : ¬ Ended r id := by
  obtain ⟨operation, step, hpair, rfl, hlive, -⟩ := h
  rintro ⟨operation', hget, hterminal⟩
  rw [hpair.operation_get] at hget
  cases hget
  rw [hlive] at hterminal
  cases hterminal

/-- `recoverStepAndParent` keeps what has ended and what it does not move. -/
theorem recoverStepAndParent_keeps (hwf : r.rows.Wf) (hearly : StepsEarly r)
    (operationId childStepId : JsString) (lease : MutationLease) (now : Timestamp) (id : JsString) :
    let r' := (r.recoverStepAndParent operationId childStepId lease now).2
    (Ended r id → Ended r' id) ∧ (Stays r id → Stays r' id) := by
  intro r'
  rcases recoverStepAndParent_cases hwf operationId childStepId lease now with
    heq | ⟨op, st, -, hlive, hallowed, ⟨-, -, hback⟩ | ⟨w, -, heq, -⟩⟩
  · rw [show r' = r from heq]
    exact ⟨fun h => h, fun h => h⟩
  · have hops : r'.operations = r.operations := congrArg Rows.operations hback.rows
    have hsteps : r'.steps = r.steps := congrArg Rows.steps hback.rows
    refine ⟨?_, ?_⟩
    · rintro ⟨operation, hget, hterminal⟩
      exact ⟨operation, by rw [hops, hget], hterminal⟩
    · rintro ⟨operation, step, hpair, hid, hstays⟩
      exact ⟨operation, step, ⟨by rw [hops, hpair.operation_get], by rw [hsteps, hpair.step_get],
        hpair.parent⟩, hid, hstays⟩
  · set updated := recoveredOperation op st lease now
    have hops : r'.operations = r.operations.set updated.id updated :=
      (congrArg Rows.operations heq).trans (dropLock_operations _ _ _)
    have hsteps : r'.steps = r.steps.set st.id (recoveredStep st lease now) :=
      (congrArg Rows.steps heq).trans (dropLock_steps _ _ _)
    have hended : updated.status.isTerminal = true := by
      rw [w.status, isTerminal_parentStatus]
      exact recoveryStatus_isTerminal st
    refine ⟨?_, ?_⟩
    · rintro ⟨operation, hget, hterminal⟩
      by_cases hid : updated.id = id
      · exact ⟨updated, by rw [hops, ← hid, JsMap.get_set_self], hended⟩
      · exact ⟨operation, by rw [hops, JsMap.get_set_of_ne _ _ hid, hget], hterminal⟩
    · rintro ⟨operation, step, hpair, rfl, hlive', hundispatched⟩
      -- the step that was moved is another one, and so is its operation
      have hother : st.id ≠ step.id := by
        intro hid
        have hget := w.step_get
        rw [hid, hpair.step_get] at hget
        cases hget
        exact (transitionAllowedForRecovery_iff (hearly _ _ w.step_get) hlive).mp hallowed hundispatched
      have hother' : updated.id ≠ operation.id := by
        rw [w.sameOperation.id]
        intro hid
        exact hother (hwf.step_unique w.step_get hpair.step_get
          (by rw [w.parent, hpair.parent, hid]))
      refine ⟨operation, step, ⟨?_, ?_, hpair.parent⟩, rfl, hlive', hundispatched⟩
      · rw [hops, JsMap.get_set_of_ne _ _ hother', hpair.operation_get]
      · rw [hsteps, JsMap.get_set_of_ne _ _ hother, hpair.step_get]

/-- A later repository of a pass: what has ended stays so, and so does what recovery does not move. -/
structure Later (r r' : Repository) : Prop where
  wf : r'.rows.Wf
  early : StepsEarly r'
  ended : ∀ id, Ended r id → Ended r' id
  stays : ∀ id, Stays r id → Stays r' id
  operation : ∀ id operation, r.operations.get id = some operation →
    ∃ operation', r'.operations.get id = some operation' ∧
      operation'.operationKey = operation.operationKey

theorem Later.refl (hwf : r.rows.Wf) (hearly : StepsEarly r) : Later r r :=
  ⟨hwf, hearly, fun _ h => h, fun _ h => h, fun _ operation h => ⟨operation, h, rfl⟩⟩

theorem Later.trans {r'' : Repository} (h : Later r r') (h' : Later r' r'') : Later r r'' := by
  refine ⟨h'.wf, h'.early, fun id hid => h'.ended id (h.ended id hid),
    fun id hid => h'.stays id (h.stays id hid), fun id operation hget => ?_⟩
  obtain ⟨operation', hget', hkey⟩ := h.operation id operation hget
  obtain ⟨operation'', hget'', hkey'⟩ := h'.operation id operation' hget'
  exact ⟨operation'', hget'', hkey'.trans hkey⟩

variable (hwf : r.rows.Wf)
include hwf

/-- The grant of a lease. -/
theorem later_grantLease (hearly : StepsEarly r) {operationKey operationId : JsString}
    (now leaseExpiresAt : Timestamp) (howner : ∃ op, r.operations.get operationId = some op ∧
      op.operationKey = operationKey) :
    Later r (r.grantLease operationKey operationId now leaseExpiresAt).2 := by
  have hwf' := hwf.setLock ⟨operationKey, operationId, (r.fences.get operationKey).getD 0 + 1, now,
    leaseExpiresAt⟩ howner
  refine ⟨hwf'.setFences _, hearly.of_eq rfl, fun _ h => h, ?_,
    fun _ operation h => ⟨operation, h, rfl⟩⟩
  rintro id ⟨operation, step, hpair, hstays⟩
  exact ⟨operation, step, ⟨hpair.operation_get, hpair.step_get, hpair.parent⟩, hstays⟩

/-- The recovery of a step. -/
theorem later_recoverStepAndParent (hearly : StepsEarly r) (operationId childStepId : JsString)
    (lease : MutationLease) (now : Timestamp) :
    Later r (r.recoverStepAndParent operationId childStepId lease now).2 := by
  let c : RepositoryCall := .recoverStepAndParent operationId childStepId lease now
  refine ⟨next_wf plainHost c hwf, next_stepsEarly plainHost c hwf hearly, fun id => ?_, fun id => ?_,
    fun id operation hget => ?_⟩
  · exact (recoverStepAndParent_keeps hwf hearly operationId childStepId lease now id).1
  · exact (recoverStepAndParent_keeps hwf hearly operationId childStepId lease now id).2
  · obtain ⟨operation', hget', hsame⟩ := (next_rowChange plainHost c hwf).operation hget
    exact ⟨operation', hget', hsame.operationKey⟩

/-- An operation and its only step. -/
theorem pair_of_stepsFor (hget : r.operations.get id = some operation)
    (hsteps : r.stepsFor id = [step]) : Pair r operation step := by
  have hmem : step ∈ r.stepsFor id := by
    rw [hsteps]
    exact mem_singleton_self _
  obtain ⟨hvalue, hparent⟩ : step ∈ r.steps.values ∧ step.parentOperationId = id := by
    simpa [stepsFor] using hmem
  obtain ⟨stepId, hstep⟩ := (r.steps.mem_values_iff step).mp hvalue
  exact pair_of_get hwf hget hstep hparent

/-- The turn of a live operation whose key is free: its lease is granted, and its step moves, an
append fails, or recovery does not move the step. -/
theorem recover_turn (hearly : StepsEarly r) (hpair : Pair r operation step)
    (hstep : step.status.isTerminal = false) (hlive : operation.status.isTerminal = false)
    (hlater : now < leaseExpiresAt) {lease : MutationLease} {r' : Repository}
    (hgrant : r.grantLease operation.operationKey operation.id now leaseExpiresAt =
      (.ok (some lease), r')) :
    let outcome := r'.recoverStepAndParent operation.id step.id lease now
    (¬ Undispatched step ∧ outcome.1 = .error auditFault) ∨
      (¬ Undispatched step ∧ (∃ answer, outcome.1 = .ok answer) ∧ Ended outcome.2 operation.id) ∨
      (Undispatched step ∧ outcome.1 =
        .error (.mutation .illegalStateTransition "The child cannot be recovered") ∧
        Stays outcome.2 operation.id) := by
  intro outcome
  have hwf' : r'.rows.Wf := by
    have hgranted := later_grantLease hwf hearly now leaseExpiresAt ⟨operation, hpair.operation_get, rfl⟩
    rw [hgrant] at hgranted
    exact hgranted.wf
  obtain ⟨hops, hsteps, hlock, howner, hkey, hexpires⟩ : r'.operations = r.operations ∧
      r'.steps = r.steps ∧ r'.locks.get operation.operationKey = some lease ∧
      lease.ownerOperationId = operation.id ∧ operation.operationKey = lease.operationKey ∧
      now < lease.leaseExpiresAt := by
    cases hgrant
    exact ⟨rfl, rfl, JsMap.get_set_self _ _ _, rfl, rfl, hlater⟩
  have hpair' : Pair r' operation step :=
    ⟨by rw [hops, hpair.operation_get], by rw [hsteps, hpair.step_get], hpair.parent⟩
  have hchecks := recoverChecks_eq_ok.mpr ⟨hpair'.operation_get, hpair'.step_get, hpair'.parent, hkey,
    ⟨lease, hlock, howner, rfl, hexpires⟩⟩
  have hmoves := transitionAllowedForRecovery_iff (hearly _ _ hpair.step_get) hstep
  have hout := recoverStepAndParent_settles hwf' hchecks
  simp only [hstep, Bool.false_eq_true, if_false] at hout
  -- the table of recovery refuses just the steps in VERIFYING that were not dispatched
  split_ifs at hout with hallowed
  · have hdispatched : ¬ Undispatched step := hmoves.mp hallowed
    rcases hout with ⟨herror, -⟩ | ⟨-, hok, hrows, -⟩
    · exact .inl ⟨hdispatched, herror⟩
    have hwritten : outcome.2.operations = _ :=
      (congrArg Rows.operations hrows).trans (dropLock_operations _ _ _)
    refine .inr (.inl ⟨hdispatched, hok, recoveredOperation operation step lease now, ?_, ?_⟩)
    · rw [hwritten]
      exact JsMap.get_set_self _ _ _
    · change (aggregateOfStep _).status.isTerminal = true
      rw [aggregateOfStep_status, isTerminal_parentStatus]
      exact recoveryStatus_isTerminal step
  · have hundispatched : Undispatched step := by
      by_contra habsurd
      exact hallowed (hmoves.mpr habsurd)
    refine .inr (.inr ⟨hundispatched, congrArg Prod.fst hout, operation, step, ?_, rfl, hlive,
      hundispatched⟩)
    have hsame : outcome.2 = _ := congrArg Prod.snd hout
    rw [hsame]
    exact hpair'

end InMemoryDurableMutationRepository

/-! ## A pass -/

/-- The world of one pass, with what is remembered of it. -/
structure RecoveryWorld where
  repository : Repository
  /-- The operations whose turn came, each with the repository it met. -/
  turns : List (JsString × Repository) := []

/-- What the environment chooses at a call. -/
inductive RecoveryChoice
  /-- There is nothing to choose. -/
  | fixed
  | time (now : Timestamp)
  deriving DecidableEq

variable {candidate : Operation} {now : Timestamp}

namespace RecoveryWorld

/-- The world after a repository call; a turn begins with the look-up of its operation. -/
def afterCall (w : RecoveryWorld) : RepositoryCall → Repository → RecoveryWorld
  | .findOperationWithSteps id, r => ⟨r, w.turns ++ [(id, w.repository)]⟩
  | _, r => ⟨r, w.turns⟩

/-- How the world answers a call. -/
def exec (host : Host) : Handler ServiceCall ServiceCall.Answer Failure RecoveryWorld RecoveryChoice
  | w, .repository c, .fixed =>
    let outcome := c.exec host w.repository
    some (outcome.1, w.afterCall c outcome.2)
  | w, .clock, .time now => some (.ok now, w)
  | _, _, _ => none

/-- An operation has one live step and a free key when its turn comes. -/
structure Due (now : Timestamp) (turn : JsString × Repository) (operation : Operation)
    (step : OperationStep) : Prop where
  operation_get : turn.2.operations.get turn.1 = some operation
  steps : turn.2.stepsFor turn.1 = [step]
  live : step.status.isTerminal = false
  free : KeyFree turn.2 operation.operationKey now

/-- What became of an operation whose turn came: if it was due, it has ended when it had before or
recovery moves its step, and is live otherwise. -/
def Judged (now : Timestamp) (r : Repository) (turn : JsString × Repository) : Prop :=
  ∀ operation step, Due now turn operation step →
    (operation.status.isTerminal = true ∨ ¬ Undispatched step → Ended r turn.1) ∧
      (operation.status.isTerminal = false → Undispatched step → Stays r turn.1)

theorem Judged.later {r r' : Repository} {turn : JsString × Repository} (h : Judged now r turn)
    (hlater : Later r r') : Judged now r' turn := by
  intro operation step hdue
  obtain ⟨hended, hstays⟩ := h operation step hdue
  exact ⟨fun hcond => hlater.ended _ (hended hcond),
    fun hop hundispatched => hlater.stays _ (hstays hop hundispatched)⟩

/-- A pass between two turns. -/
structure Pass (now : Timestamp) (candidates : List Operation) (w : RecoveryWorld) : Prop where
  wf : w.repository.rows.Wf
  early : StepsEarly w.repository
  judged : ∀ turn ∈ w.turns, Judged now w.repository turn
  /-- The candidates that are left are stored under the keys with which they were listed. -/
  known : ∀ candidate ∈ candidates, ∃ operation,
    w.repository.operations.get candidate.id = some operation ∧
      operation.operationKey = candidate.operationKey

/-- A turn passes. -/
theorem Pass.turn {candidates : List Operation} {w : RecoveryWorld}
    (h : Pass now (candidate :: candidates) w) {r' : Repository} (hlater : Later w.repository r')
    (hjudged : Judged now r' (candidate.id, w.repository)) :
    Pass now candidates ⟨r', w.turns ++ [(candidate.id, w.repository)]⟩ := by
  refine ⟨hlater.wf, hlater.early, fun turn hturn => ?_, fun c hc => ?_⟩
  · rcases mem_append.mp hturn with hbefore | hnew
    · exact (h.judged turn hbefore).later hlater
    · rw [mem_singleton.mp hnew]
      exact hjudged
  · obtain ⟨operation, hget, hkey⟩ := h.known c (mem_cons_of_mem _ hc)
    obtain ⟨operation', hget', hkey'⟩ := hlater.operation c.id operation hget
    exact ⟨operation', hget', hkey'.trans hkey⟩

end RecoveryWorld

namespace MutationStepRecoveryService

open RecoveryWorld Service

variable {host : Host} {w : RecoveryWorld}

/-- A repository call whose outcome is known. -/
theorem repository_call {α : Type} {c : RepositoryCall} {next : Except Failure c.Answer → Service α}
    {Q : Except Failure α → RecoveryWorld → Prop} {answer : Except Failure c.Answer} {r' : Repository}
    (hout : c.exec host w.repository = (answer, r'))
    (h : (next answer).Ensures (exec host) Q (w.afterCall c r')) :
    Task.Ensures (exec host) Q (.call (.repository c) next) w := by
  intro choice r w' hexec
  cases choice <;> cases hexec
  rw [hout]
  exact h

/-- What a pass over the candidates ensures when it returns. -/
def Passed (now : Timestamp) (candidates : List Operation) (w : RecoveryWorld)
    (r : Except Failure ℕ) (w' : RecoveryWorld) : Prop :=
  ∀ n, r = .ok n → Pass now [] w' ∧ w.turns ⊆ w'.turns ∧
    ∀ candidate ∈ candidates, ∃ atTurn, (candidate.id, atTurn) ∈ w'.turns

/-- What the rest of a pass ensures, the whole ensures. -/
theorem Passed.cons {candidates : List Operation} {r' atTurn : Repository}
    {r : Except Failure ℕ} {w' : RecoveryWorld}
    (h : Passed now candidates ⟨r', w.turns ++ [(candidate.id, atTurn)]⟩ r w') :
    Passed now (candidate :: candidates) w r w' := by
  intro n hn
  obtain ⟨hpass, hsubset, hcovered⟩ := h n hn
  refine ⟨hpass, fun turn hturn => hsubset (mem_append_left _ hturn), fun c hc => ?_⟩
  rcases mem_cons.mp hc with rfl | hc
  · exact ⟨atTurn, hsubset (mem_append_right _ (mem_singleton_self _))⟩
  · exact hcovered c hc

/-- The turn of a candidate with one live step; `hrest` is the rest of the pass. -/
theorem turn_ensures (config : ServiceConfig) (hwf : w.repository.rows.Wf)
    (hearly : StepsEarly w.repository)
    (hget : w.repository.operations.get candidate.id = some operation)
    (hkey : operation.operationKey = candidate.operationKey)
    (hsteps : w.repository.stepsFor candidate.id = [step]) (hlive : step.status.isTerminal = false)
    {turns : List (JsString × Repository)} {candidates all : List Operation}
    {recovered : ℕ} (hrest : ∀ {r' : Repository} (recovered : ℕ), Later w.repository r' →
      Judged now r' (candidate.id, w.repository) →
      (recoverEach config now candidates recovered).Ensures (exec host) (Passed now all w)
        ⟨r', turns⟩) {f : Option MutationLease → Service ℕ}
    (hnone : f none = recoverEach config now candidates recovered)
    (hsome : ∀ lease, f (some lease) =
      changedBy (repository (.recoverStepAndParent candidate.id step.id lease now)) >>= fun changed =>
        recoverEach config now candidates (if changed then recovered + 1 else recovered)) :
    (repository (.acquireRecoveryLease candidate.operationKey candidate.id now
      (now + config.recoveryLeaseMs)) >>= f).Ensures (exec host) (Passed now all w)
        ⟨w.repository, turns⟩ := by
  have hlater : now < now + config.recoveryLeaseMs := by
    have hpos := config.recoveryLeaseMs_pos
    change (0 : ℤ) < _ at hpos
    change (_ : ℤ) < _
    omega
  have hpair := pair_of_stepsFor hwf hget hsteps
  have hid : operation.id = candidate.id := hwf.operation_id hget
  rw [← hkey]
  rcases acquireRecoveryLease_outcome hget hlater with ⟨heq, hended⟩ | ⟨heq, hop⟩
  · -- the key is not free, or the operation has ended
    refine repository_call heq ?_
    change (f none).Ensures (exec host) _ ⟨w.repository, turns⟩
    rw [hnone]
    refine hrest recovered (.refl hwf hearly) fun operation' step' hdue => ?_
    cases hget.symm.trans hdue.operation_get
    have hterminal := hended hdue.free
    refine ⟨fun _ => ⟨operation, hget, hterminal⟩, fun hlive' => ?_⟩
    rw [hterminal] at hlive'
    cases hlive'
  · obtain ⟨lease, r₁, hgrant⟩ : ∃ lease r₁, w.repository.grantLease operation.operationKey candidate.id
        now (now + config.recoveryLeaseMs) = (.ok (some lease), r₁) := ⟨_, _, rfl⟩
    have hgranted : Later w.repository r₁ := by
      have hlater' := later_grantLease hwf hearly now (now + config.recoveryLeaseMs)
        ⟨operation, hget, rfl⟩
      rwa [hgrant] at hlater'
    have hturn := recover_turn hwf hearly hpair hlive hop hlater (by rw [hid]; exact hgrant)
    have hafter := hgranted.trans (later_recoverStepAndParent hgranted.wf hgranted.early candidate.id
      step.id lease now)
    rw [hid] at hturn
    have hjudged : ∀ {r' : Repository}, (¬ Undispatched step → Ended r' candidate.id) →
        (Undispatched step → Stays r' candidate.id) →
        Judged now r' (candidate.id, w.repository) := by
      intro r' hended hstays operation' step' hdue
      cases hget.symm.trans hdue.operation_get
      cases hsteps.symm.trans hdue.steps
      refine ⟨fun hcond => hended (hcond.resolve_left ?_), fun _ => hstays⟩
      rw [hop]
      exact Bool.false_ne_true
    refine repository_call (heq.trans hgrant) ?_
    change (f (some lease)).Ensures (exec host) _ ⟨r₁, turns⟩
    rw [hsome]
    generalize hout : r₁.recoverStepAndParent candidate.id step.id lease now = outcome at hturn hafter
    obtain ⟨answer, r₂⟩ := outcome
    refine repository_call hout ?_
    rcases hturn with ⟨-, rfl⟩ | ⟨hmoves, ⟨answer, rfl⟩, hended⟩ | ⟨hstuck, rfl, hstays⟩
    · -- a failed append is no lost race
      exact nofun
    · exact hrest _ hafter (hjudged (fun _ => hended) fun hnot => absurd hnot hmoves)
    · exact hrest _ hafter (hjudged (fun hnot => absurd hstuck hnot) fun _ => hstays)

/-- The loop of a pass. -/
theorem recoverEach_ensures (config : ServiceConfig) (now : Timestamp)
    (candidates : List Operation) (recovered : ℕ) (h : Pass now candidates w) :
    (recoverEach config now candidates recovered).Ensures (exec host) (Passed now candidates w) w := by
  induction candidates generalizing recovered w with
  | nil => exact fun n _ => ⟨h, List.Subset.refl _, fun _ hc => absurd hc not_mem_nil⟩
  | cons candidate candidates ih =>
    -- the rest of the pass, once the turn of the candidate is over
    have hrest : ∀ {r' : Repository} (recovered : ℕ), Later w.repository r' →
        Judged now r' (candidate.id, w.repository) →
        (recoverEach config now candidates recovered).Ensures (exec host)
          (Passed now (candidate :: candidates) w)
          ⟨r', w.turns ++ [(candidate.id, w.repository)]⟩ :=
      fun recovered hlater hjudged =>
        (ih recovered (h.turn hlater hjudged)).mono fun _ _ hpassed => hpassed.cons
    have hrefl : Later w.repository w.repository := .refl h.wf h.early
    obtain ⟨operation, hget, hkey⟩ := h.known candidate mem_cons_self
    have hfind : w.repository.findOperationWithSteps candidate.id =
        some ⟨operation, w.repository.stepsFor candidate.id⟩ := by
      simp [findOperationWithSteps, hget]
    refine repository_call (congrArg (Except.ok ·, w.repository) hfind) ?_
    dsimp only [Task.bind, Option.map_some]
    split
    next step hstep =>
      have hsteps : w.repository.stepsFor candidate.id = [step] := Option.some.inj hstep
      split_ifs with hterminal
      · refine hrest recovered hrefl fun operation' step' hdue => ?_
        have hlive := hdue.live
        cases hsteps.symm.trans hdue.steps
        rw [hterminal] at hlive
        cases hlive
      · have hlive : step.status.isTerminal = false := by simpa using hterminal
        exact turn_ensures config h.wf h.early hget hkey hsteps hlive hrest rfl fun _ => rfl
    next hnot =>
      refine hrest recovered hrefl fun operation' step' hdue => ?_
      exact absurd (congrArg some hdue.steps) (hnot step')

/-- The operations that are live and whose key has no unexpired lease are listed. -/
theorem mem_listRecoverable {r : Repository} :
    operation ∈ r.listRecoverable host now ↔ operation ∈ r.operations.values ∧
      operation.status.isTerminal = false ∧
      ∀ lock, r.locks.get operation.operationKey = some lock → lock.leaseExpiresAt ≤ now := by
  have hlive : operation.status ∈ [.pending, .authorized, .validated, .executing, .verifying] ↔
      operation.status.isTerminal = false := by
    cases operation.status <;> decide
  have hfree : ((r.locks.get operation.operationKey).all fun lease =>
      decide (lease.leaseExpiresAt ≤ now)) = true ↔
      ∀ lock, r.locks.get operation.operationKey = some lock → lock.leaseExpiresAt ≤ now := by
    cases r.locks.get operation.operationKey <;> simp
  simp only [listRecoverable, mem_insertionSort, mem_filter, decide_eq_true_eq, hlive, hfree]

/-- A whole pass. -/
theorem recover_ensures (host : Host) (config : ServiceConfig) (w : RecoveryWorld)
    (hwf : w.repository.rows.Wf) (hearly : StepsEarly w.repository) (hturns : w.turns = [])
    (now : Timestamp) :
    (repository (.listRecoverable now) >>= fun candidates => recoverEach config now candidates 0).Ensures
      (exec host) (fun r w' => ∀ n, r = .ok n → Pass now [] w' ∧
        ∀ candidate ∈ w.repository.listRecoverable host now, ∃ atTurn,
          (candidate.id, atTurn) ∈ w'.turns) w := by
  refine repository_call rfl ?_
  refine (recoverEach_ensures config now _ 0 ⟨hwf, hearly, ?_, fun candidate hcandidate => ?_⟩).mono
    fun _ _ hpassed n hn => ⟨(hpassed n hn).1, (hpassed n hn).2.2⟩
  · intro turn hturn
    rw [hturns] at hturn
    exact absurd hturn not_mem_nil
  · obtain ⟨hvalue, -⟩ := mem_listRecoverable.mp hcandidate
    obtain ⟨id, hget⟩ := (w.repository.operations.mem_values_iff candidate).mp hvalue
    have hid : candidate.id = id := hwf.operation_id hget
    exact ⟨candidate, by rw [hid]; exact hget, rfl⟩

/-! ## The result -/

-- what is computed of a pass is compared in one go
set_option synthInstance.maxSize 400

instance (r : Repository) (key : JsString) (now : Timestamp) : Decidable (KeyFree r key now) :=
  decidable_of_iff ((r.locks.get key).all fun lock => decide (lock.leaseExpiresAt ≤ now ∧
    r.statusOf lock.ownerOperationId ≠ some .indeterminate)) (by
      unfold KeyFree
      cases r.locks.get key <;> simp)

/-- The executor of job 1 finds the container running: there is nothing to do. -/
def idleExecutor (now : Timestamp) : List ServiceLabel :=
  [ .flag false, .time now, .snapshot (.ok (some sampleSnapshot)),
    .inspection (.ok ⟨List.replicate 64 (unit 'a'), .running⟩), .flag false, .time now ].map (.step 1) ++
  [.finish 1]

/-- A performer whose executor had nothing to do crashes in verification. -/
def crashedRun : List ServiceLabel :=
  [.start (sampleJob "key-00001")] ++ claiming 0 "operation" "step" 1 ++ starting 0 2 ++
  idleExecutor 3 ++ [.work, .outcome (.ok ()), .fixed, .time 4, .fixed].map (.step 0)

/-- The repository it leaves. -/
def crashedRepository : Repository :=
  (((serviceMachine sampleConfig Job.isService).run (ServicePool.initial []) crashedRun).map
    (·.world.repository)).getD (initial [])

/-- What is computed of the first turn of a pass: its operation, the statuses of the steps, and whether
the key was free. -/
def firstTurn (now : Timestamp) (w : RecoveryWorld) : Option (JsString × List ActionStatus × Bool) :=
  w.turns.head?.map fun turn =>
    (turn.1, (turn.2.stepsFor turn.1).map (·.status), (turn.2.operations.get turn.1).any fun operation =>
      decide (KeyFree turn.2 operation.operationKey now))

/-- An operation that is computed to be due. -/
theorem due_of_firstTurn {status : ActionStatus} (h : firstTurn now w = some (id, [status], true))
    (hlive : status.isTerminal = false) :
    ∃ atTurn operation step, (id, atTurn) ∈ w.turns ∧ Due now (id, atTurn) operation step ∧
      step.status = status := by
  obtain ⟨⟨id', atTurn⟩, hhead, heq⟩ := Option.map_eq_some_iff.mp h
  simp only [Prod.mk.injEq] at heq
  obtain ⟨rfl, hstatuses, hany⟩ := heq
  obtain ⟨step, hsteps, hstatus⟩ := map_eq_singleton_iff.mp hstatuses
  obtain ⟨operation, hget, hfree⟩ := (Option.any_eq_true _ _).mp hany
  refine ⟨atTurn, operation, step, mem_of_mem_head? hhead, ⟨hget, hsteps, ?_, ?_⟩, hstatus⟩
  · rw [hstatus, hlive]
  · simpa using hfree

/-- In a pass of recovery over a reachable repository that returns, every operation that is live and
whose key has no unexpired lease has its turn; and one that has one live step and a free key at its
turn is terminal after the pass exactly when it was before or its step is not one in verification
without dispatch and effect. -/
theorem recovery_settles_iff {config : ServiceConfig} {repository : Repository}
    (hreachable : Reachable config.host repository) {now : Timestamp} {choices rest : List RecoveryChoice}
    {count : ℕ} (heval : (recover config).eval (exec config.host) { repository := repository }
      (.time now :: choices) = some (.ok count, w, rest)) :
    (∀ id operation, repository.operations.get id = some operation →
      operation.status.isTerminal = false →
      (∀ lock, repository.locks.get operation.operationKey = some lock →
        lock.leaseExpiresAt ≤ now) → ∃ atTurn, (id, atTurn) ∈ w.turns) ∧
    ∀ id atTurn operation step, (id, atTurn) ∈ w.turns → Due now (id, atTurn) operation step →
      (Ended w.repository id ↔ operation.status.isTerminal = true ∨ ¬ Undispatched step) := by
  obtain ⟨hwf, hearly⟩ := hreachable.stepsEarly
  have heval' := heval
  have hpass := (recover_ensures config.host config { repository := repository } hwf hearly rfl
    now).eval heval' count rfl
  refine ⟨fun id operation hget hlive hexpired => ?_, ?_⟩
  · have hid : operation.id = id := hwf.operation_id hget
    have hvalue : operation ∈ repository.operations.values :=
      (repository.operations.mem_values_iff operation).mpr ⟨id, hget⟩
    obtain ⟨atTurn, hturn⟩ := hpass.2 operation (mem_listRecoverable.mpr ⟨hvalue, hlive, hexpired⟩)
    rw [hid] at hturn
    exact ⟨atTurn, hturn⟩
  · intro id atTurn operation step hturn hdue
    obtain ⟨hended, hstays⟩ := hpass.1.judged _ hturn operation step hdue
    refine ⟨fun h => ?_, hended⟩
    by_contra hcond
    rw [not_or, not_not, Bool.not_eq_true] at hcond
    exact (hstays hcond.1 hcond.2).not_ended h

/-- Services over the plain host. -/
def plainConfig : ServiceConfig := { sampleConfig with host := plainHost }

/-- A repository in which a performer stopped before its executor did anything. -/
def stalledRepository : Repository :=
  (initial []).run plainHost
    (.claimParentWithStep (sampleParentClaim "op" "step" "key-1" 1) :: takenStep .executing)

/-- The conditions are met by a pass that rejects an operation whose performer stopped early. -/
theorem recovery_settles_iff_stalled :
    ∃ w, (recover plainConfig).eval (exec plainConfig.host) { repository := stalledRepository }
        [.time 200000, .fixed, .fixed, .fixed, .fixed] = some (.ok 1, w, []) ∧
      (∃ atTurn operation step, (js "op", atTurn) ∈ w.turns ∧
        Due 200000 (js "op", atTurn) operation step) ∧ Ended w.repository (js "op") := by
  have hfacts : ((recover plainConfig).eval (exec plainConfig.host)
      { repository := stalledRepository } [.time 200000, .fixed, .fixed, .fixed, .fixed]).map
        (fun x => (x.1, firstTurn 200000 x.2.1, x.2.2)) =
      some (.ok 1, some (js "op", [.executing], true), []) := by
    decide +kernel
  obtain ⟨⟨count, w, rest⟩, heval, heq⟩ := Option.map_eq_some_iff.mp hfacts
  simp only [Prod.mk.injEq] at heq
  obtain ⟨rfl, hturn, rfl⟩ := heq
  obtain ⟨atTurn, operation, step, hmem, hdue, hstatus⟩ := due_of_firstTurn hturn rfl
  have hreachable : Reachable plainConfig.host stalledRepository :=
    ⟨[], reachedBy_run plainHost (initial []) _⟩
  refine ⟨w, heval, ⟨atTurn, operation, step, hmem, hdue⟩, ?_⟩
  refine ((recovery_settles_iff hreachable heval).2 _ _ _ _ hmem hdue).mpr (.inr ?_)
  rintro ⟨hverifying, -⟩
  rw [hstatus] at hverifying
  cases hverifying

/-- A performer whose executor found the container running crashes in verification. A pass after its
lease has expired finds the operation due, changes nothing about it and gives it a new lease. -/
theorem recovery_leaves_verifying :
    (∃ p, (serviceMachine sampleConfig Job.isService).run (ServicePool.initial []) crashedRun = some p ∧
      p.world.repository = crashedRepository) ∧
    ∃ w, (recover sampleConfig).eval (exec sampleConfig.host) { repository := crashedRepository }
        [.time 200000, .fixed, .fixed, .fixed, .fixed] = some (.ok 0, w, []) ∧
      (∃ atTurn operation step, (js "operation", atTurn) ∈ w.turns ∧
        Due 200000 (js "operation", atTurn) operation step) ∧
      ¬ Ended w.repository (js "operation") ∧
      (w.repository.locks.get (js "application:app")).map (·.ownerOperationId) =
        some (js "operation") := by
  refine ⟨?_, ?_⟩
  · have hsome : ((serviceMachine sampleConfig Job.isService).run (ServicePool.initial [])
        crashedRun).isSome = true := by decide +kernel
    obtain ⟨p, hp⟩ := Option.isSome_iff_exists.mp hsome
    exact ⟨p, hp, by rw [crashedRepository, hp]; rfl⟩
  · have hfacts : ((recover sampleConfig).eval (exec sampleConfig.host)
        { repository := crashedRepository } [.time 200000, .fixed, .fixed, .fixed, .fixed]).map
          (fun x => (x.1, firstTurn 200000 x.2.1, x.2.2,
            x.2.1.repository.statusOf (js "operation"),
            (x.2.1.repository.locks.get (js "application:app")).map (·.ownerOperationId))) =
        some (.ok 0, some (js "operation", [.verifying], true), [], some .verifying,
          some (js "operation")) := by
      decide +kernel
    obtain ⟨⟨count, w, rest⟩, heval, heq⟩ := Option.map_eq_some_iff.mp hfacts
    simp only [Prod.mk.injEq] at heq
    obtain ⟨rfl, hturn, rfl, hstatus, hlock⟩ := heq
    obtain ⟨atTurn, operation, step, hmem, hdue, -⟩ := due_of_firstTurn hturn rfl
    refine ⟨w, heval, ⟨atTurn, operation, step, hmem, hdue⟩, ?_, hlock⟩
    rintro ⟨operation', hget, hterminal⟩
    rw [statusOf, hget, Option.map_some, Option.some.injEq] at hstatus
    rw [hstatus] at hterminal
    cases hterminal

end MutationStepRecoveryService

end ZimaControl
