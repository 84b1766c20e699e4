import ZimaControl.Mutation.Denial
import ZimaControl.Mutation.System

/-!
# What performers, executors and recovery promise each other

The contract of the services for operations with steps. An operation has one performer, the job that
created it, and at most one executor, which the performer starts. Only the executor has the dispatch
authorised and issues the Docker request. The performer records that nothing was done only when no
executor can act any more and the request is not active; recovery records it only of an operation
that was not dispatched, which keeps it from being dispatched.
-/

namespace ZimaControl

/-- The jobs on operations with steps. -/
def Job.ofSteps : Job → Bool
  | performPlain .. | recover => false
  | _ => true

namespace World

/-- Job `e` executes an operation. -/
def ExecutorOf (w : World) (operationId : JsString) (e : ℕ) : Prop :=
  ∃ plan context, w.jobs[e]? = some (.execute plan context) ∧ context.operationId = operationId

/-- The rows of the repository. -/
abbrev rows (w : World) : Rows := w.repository.rows

/-- What holds between any two calls. -/
structure Honest (w : World) : Prop where
  wf : w.rows.Wf
  mirrored : w.rows.Mirrored
  /-- A request that may have had an effect was authorised, and its effect is not denied. -/
  active : ∀ o, w.fate o = .active → w.rows.Dispatched o ∧ ¬ w.rows.Denied o
  /-- What is dispatched has an executor. -/
  executor : ∀ o, w.rows.Dispatched o → ∃ e, w.ExecutorOf o e
  /-- The effect of a dispatched operation is denied only once its executor has ended. -/
  ended : ∀ o e, w.rows.Dispatched o → w.rows.Denied o → w.ExecutorOf o e → w.results e ≠ none
  /-- An operation has one executor. -/
  unique : ∀ o e e', w.ExecutorOf o e → w.ExecutorOf o e' → e = e'
  /-- An operation with an executor was created by a performer. -/
  claimed : ∀ o e, w.ExecutorOf o e → w.claimant o ≠ none
  /-- An operation that a performer created has a step. -/
  step : ∀ o, w.claimant o ≠ none → w.rows.HasStep o
  /-- So has every other. -/
  parents : ∀ o operation, w.rows.operations.get o = some operation → w.rows.HasStep o
  /-- An executor that says that nothing was done is right. -/
  safe : ∀ o e result, w.ExecutorOf o e → w.results e = some (.ok (.execution result)) →
    isSafePreEffectOutcome result.outcome = true → w.fate o ≠ .active
  /-- Jobs that were not started have not ended. -/
  unstarted : ∀ i, w.jobs.length ≤ i → w.results i = none

/-- What job `i` may change. -/
structure Guarantee (i : ℕ) (w w' : World) : Prop where
  jobs : ∀ (n : ℕ) job, w.jobs[n]? = some job → w'.jobs[n]? = some job
  /-- It starts executors only for operations it created. -/
  executor : ∀ o e, w'.ExecutorOf o e → w.ExecutorOf o e ∨ w.claimant o = some i
  claimant : ∀ o, w'.claimant o = w.claimant o ∨ w.claimant o = none ∧ w'.claimant o = some i
  results : ∀ j, w'.results j = w.results j ∨ w.results j = none ∧ j = i
  dispatched : ∀ o, w.rows.Dispatched o → w'.rows.Dispatched o
  /-- It dispatches only what it executes, before it ends. -/
  dispatches : ∀ o, w'.rows.Dispatched o →
    w.rows.Dispatched o ∨ w.ExecutorOf o i ∧ w.results i = none
  /-- It issues only requests of what it executes, before it ends. -/
  fate : ∀ o, w'.fate o = w.fate o ∨ w.ExecutorOf o i ∧ w.results i = none

/-- Changing nothing is within every guarantee. -/
theorem Guarantee.refl (i : ℕ) (w : World) : Guarantee i w w where
  jobs _ _ h := h
  executor _ _ h := .inl h
  claimant _ := .inl rfl
  results _ := .inl rfl
  dispatched _ h := h
  dispatches _ h := .inl h
  fate _ := .inl rfl

/-- What a job finds when it starts. -/
structure Starting (i : ℕ) (job : Job) (w : World) : Prop where
  ofSteps : job.ofSteps = true
  started : w.jobs[i]? = some job
  results : w.results i = none
  fate : ∀ plan context, job = .execute plan context → w.fate context.operationId ≠ .active

/-- What a job leaves: an executor that says that nothing was done is right. -/
structure Leaving (i : ℕ) (job : Job) (r : Except Failure JobResult) (w : World) : Prop where
  started : w.jobs[i]? = some job
  results : w.results i = none ∨ w.results i = some r
  safe : ∀ plan context result, job = .execute plan context → r = .ok (.execution result) →
    isSafePreEffectOutcome result.outcome = true → w.fate context.operationId ≠ .active

end World

/-- The machine of performers and recovery of operations with steps. -/
abbrev stepMachine (config : ServiceConfig) := serviceMachine config Job.isStepService

/-- The contract of the services for operations with steps. -/
def effectContract (config : ServiceConfig) : Contract (stepMachine config) where
  Inv := World.Honest
  Guar := World.Guarantee
  Pre := World.Starting
  Post := World.Leaving

/-! ## What a performer knows -/

namespace World

/-- Job `i` has not ended. -/
def Working (i : ℕ) (w : World) : Prop := w.results i = none

/-- Job `i` has not ended and created the operation. -/
structure Mine (i : ℕ) (o : JsString) (w : World) : Prop where
  working : w.Working i
  claimant : w.claimant o = some i

/-- Nothing can happen outside any more, and nothing that did is left active. -/
structure Quiet (i : ℕ) (o : JsString) (w : World) : Prop where
  mine : w.Mine i o
  fate : w.fate o ≠ .active
  ended : ∀ e, w.ExecutorOf o e → w.results e ≠ none

/-- The operation has no executor yet. -/
structure Unexecuted (i : ℕ) (o : JsString) (w : World) : Prop where
  mine : w.Mine i o
  none : ∀ e, ¬ w.ExecutorOf o e

/-- The operation has an executor. -/
structure Executed (i : ℕ) (o : JsString) (e : ℕ) (w : World) : Prop where
  mine : w.Mine i o
  executor : w.ExecutorOf o e

/-- The executor of the operation has ended. -/
structure EndedWith (i : ℕ) (o : JsString) (e : ℕ) (r : Except Failure JobResult) (w : World) :
    Prop where
  mine : w.Mine i o
  executor : w.ExecutorOf o e
  results : w.results e = some r

/-- Job `i` has not ended and executes the operation. -/
structure Executing (i : ℕ) (o : JsString) (w : World) : Prop where
  working : w.Working i
  executor : w.ExecutorOf o i

/-- An operation that is not dispatched has no active request. -/
theorem Honest.not_active {w : World} (h : w.Honest) {o : JsString} (ho : ¬ w.rows.Dispatched o) :
    w.fate o ≠ .active :=
  fun hactive => ho (h.active o hactive).1

/-- Without an executor, nothing happens outside. -/
theorem Unexecuted.quiet {i : ℕ} {o : JsString} {w : World} (h : w.Unexecuted i o) (hw : w.Honest) :
    w.Quiet i o where
  mine := h.mine
  fate := hw.not_active fun hd => (hw.executor o hd).elim fun e he => h.none e he
  ended e he := absurd he (h.none e)

namespace EndedWith

variable {i e : ℕ} {o : JsString} {r : Except Failure JobResult} {w : World}

/-- Once the executor has ended, nothing happens outside if nothing is active. -/
theorem quiet (h : w.EndedWith i o e r) (hw : w.Honest) (hfate : w.fate o ≠ .active) :
    w.Quiet i o where
  mine := h.mine
  fate := hfate
  ended e' he' := by
    rw [← hw.unique o e e' h.executor he', h.results]
    simp

/-- An executor that says that nothing was done can be believed. -/
theorem quiet_of_safe {result : ActionExecutionResult}
    (h : w.EndedWith i o e (.ok (.execution result))) (hw : w.Honest)
    (hsafe : isSafePreEffectOutcome result.outcome = true) : w.Quiet i o :=
  h.quiet hw (hw.safe o e result h.executor h.results hsafe)

end EndedWith

end World

/-! ## Others do not break it -/

section Stable

variable {config : ServiceConfig} {i : ℕ} {o : JsString}

open World

variable {w w' : World}

/-- A guarantee keeps executors. -/
theorem World.Guarantee.executorOf {j e : ℕ} (h : Guarantee j w w') (he : w.ExecutorOf o e) :
    w'.ExecutorOf o e := by
  obtain ⟨plan, context, hjob, ho⟩ := he
  exact ⟨plan, context, h.jobs e _ hjob, ho⟩

variable {r : Except Failure JobResult}

/-- A guarantee keeps outcomes. -/
theorem World.Guarantee.results_eq {j e : ℕ} (h : Guarantee j w w') (he : w.results e = some r) :
    w'.results e = some r := by
  rcases h.results e with heq | ⟨hnone, -⟩
  · rw [heq, he]
  · rw [hnone] at he
    cases he

/-- Only a job itself ends. -/
theorem stable_working : (effectContract config).Stable i (Working i) := by
  rintro w w' ⟨-, -, j, hj, hguar⟩ hw
  rcases hguar.results i with heq | ⟨-, heq⟩
  · exact heq.trans hw
  · exact absurd heq.symm hj

/-- Who created an operation stays so. -/
theorem stable_mine : (effectContract config).Stable i (Mine i o) := by
  intro w w' hstep hw
  refine ⟨stable_working w w' hstep hw.working, ?_⟩
  obtain ⟨-, -, j, hj, hguar⟩ := hstep
  rcases hguar.claimant o with heq | ⟨heq, -⟩
  · exact heq.trans hw.claimant
  · rw [hw.claimant] at heq
    cases heq

/-- Others start no executor for it. -/
theorem executorOf_of_mine (hstep : (effectContract config).RelyStep i w w') (hw : w.Mine i o)
    {e : ℕ} (he : w'.ExecutorOf o e) : w.ExecutorOf o e := by
  obtain ⟨-, -, j, hj, hguar⟩ := hstep
  rcases hguar.executor o e he with he | hclaim
  · exact he
  · rw [hw.claimant] at hclaim
    cases hclaim
    exact absurd rfl hj

/-- Others start no executor. -/
theorem stable_unexecuted : (effectContract config).Stable i (Unexecuted i o) :=
  fun w w' hstep hw => ⟨stable_mine w w' hstep hw.mine,
    fun e he => hw.none e (executorOf_of_mine hstep hw.mine he)⟩

/-- Executors stay. -/
theorem stable_executed {e : ℕ} : (effectContract config).Stable i (Executed i o e) := by
  intro w w' hstep hw
  refine ⟨stable_mine w w' hstep hw.mine, ?_⟩
  obtain ⟨-, -, j, -, hguar⟩ := hstep
  exact hguar.executorOf hw.executor

/-- Outcomes stay. -/
theorem stable_endedWith {e : ℕ} : (effectContract config).Stable i (EndedWith i o e r) := by
  intro w w' hstep hw
  refine ⟨stable_mine w w' hstep hw.mine, ?_, ?_⟩
  all_goals obtain ⟨-, -, j, -, hguar⟩ := hstep
  · exact hguar.executorOf hw.executor
  · exact hguar.results_eq hw.results

/-- Only an executor that has not ended changes what is active. -/
theorem stable_quiet : (effectContract config).Stable i (Quiet i o) := by
  intro w w' hstep hw
  refine ⟨stable_mine w w' hstep hw.mine, ?_, ?_⟩
  · obtain ⟨-, -, j, -, hguar⟩ := hstep
    rcases hguar.fate o with heq | ⟨hexecutor, hnone⟩
    · rw [heq]
      exact hw.fate
    · exact absurd hnone (hw.ended j hexecutor)
  · intro e he
    have he' := executorOf_of_mine hstep hw.mine he
    obtain ⟨-, -, j, -, hguar⟩ := hstep
    obtain ⟨r, hr⟩ := Option.ne_none_iff_exists'.mp (hw.ended e he')
    rw [hguar.results_eq hr]
    simp

/-- Others leave the request of an executor. -/
theorem fate_of_executor (hstep : (effectContract config).RelyStep i w w') (he : w.ExecutorOf o i) :
    w'.fate o = w.fate o := by
  obtain ⟨hw, -, j, hj, hguar⟩ := hstep
  rcases hguar.fate o with heq | ⟨hexecutor, -⟩
  · exact heq
  · exact absurd (hw.unique o j i hexecutor he) hj

/-- An executor stays one. -/
theorem stable_executing : (effectContract config).Stable i (Executing i o) := by
  intro w w' hstep hw
  refine ⟨stable_working w w' hstep hw.working, ?_⟩
  obtain ⟨-, -, j, -, hguar⟩ := hstep
  exact hguar.executorOf hw.executor

/-- Others issue no request for it. -/
theorem stable_executing_idle :
    (effectContract config).Stable i fun w => Executing i o w ∧ w.fate o ≠ .active := by
  intro w w' hstep hw
  refine ⟨stable_executing w w' hstep hw.1, ?_⟩
  rw [fate_of_executor hstep hw.1.executor]
  exact hw.2

/-- What is dispatched stays so. -/
theorem stable_dispatched : (effectContract config).Stable i fun w => w.rows.Dispatched o :=
  fun _ _ ⟨_, _, _, _, hguar⟩ hw => hguar.dispatched o hw

/-- What a job leaves stays until it is recorded. -/
theorem stable_leaving {job : Job} : (effectContract config).Stable i (Leaving i job r) := by
  intro w w' hstep hw
  have hguar := hstep
  obtain ⟨-, -, j, hj, hguar⟩ := hguar
  refine ⟨hguar.jobs i job hw.started, ?_, ?_⟩
  · rcases hguar.results i with heq | ⟨-, heq⟩
    · rw [heq]
      exact hw.results
    · exact absurd heq.symm hj
  · rintro plan context result rfl hr hsafe
    rw [fate_of_executor hstep ⟨plan, context, hw.started, rfl⟩]
    exact hw.safe plan context result rfl hr hsafe

end Stable

end ZimaControl
