import ZimaControl.Mutation.EffectContract

/-!
# The calls of the services under the contract

What each kind of call keeps. Most calls change nothing that a guarantee speaks of, so they keep
whatever the other jobs keep; only the creation of an operation, the start of an executor, the
authorisation of a dispatch and the Docker request itself need a rule of their own.
-/

namespace ZimaControl

open Service World Contract InMemoryDurableMutationRepository

variable {config : ServiceConfig} {i : ℕ} {P : World → Prop} {E : Failure → Prop}

/-! ## Repository calls -/

variable {o : JsString} {c : RepositoryCall}

/-- What dispatches an operation denies no effect. -/
theorem RepositoryCall.not_denies (h : c.dispatchTarget = some o) (r : Repository) (o' : JsString) :
    ¬ c.Denies r o' := by
  cases c <;> first | exact id | cases h

variable {choice : Choice}

namespace World

variable {w : World} {c : RepositoryCall}

/-- A repository call is answered by the repository. -/
theorem exec_repository_eq {w' : World} {r : Except Failure c.Answer}
    (h : w.exec config i (.repository c) choice = some (r, w')) :
    r = (c.exec config.host w.repository).1 ∧ w' = w.afterCall i c
      (c.exec config.host w.repository).1 (c.exec config.host w.repository).2 := by
  cases choice <;> cases h
  exact ⟨rfl, rfl⟩

/-- The creator of an operation after a call. -/
theorem afterCall_claimant (r : Except Failure c.Answer) (repository : Repository) (o : JsString) :
    (w.afterCall i c r repository).claimant o =
      if createdOperation c r = some o then some i else w.claimant o := by
  rw [World.afterCall]
  cases hcreated : createdOperation c r with
  | none => simp
  | some id => simp [Function.update_apply, eq_comm]

/-- A repository call keeps the invariant if what it denies is quiet, its caller executes what it
dispatches, and what it creates has a step. -/
theorem Honest.afterCall (hw : w.Honest) (hc : c.ofSteps = true)
    (hdenies : ∀ o, c.Denies w.repository o → w.rows.Dispatched o →
      w.fate o ≠ .active ∧ ∀ e, w.ExecutorOf o e → w.results e ≠ none)
    (hdispatches : ∀ o, c.dispatchTarget = some o → w.ExecutorOf o i)
    (hcreates : ∀ o, createdOperation c (c.exec config.host w.repository).1 = some o →
      (c.next config.host w.repository).rows.HasStep o) :
    (w.afterCall i c (c.exec config.host w.repository).1
      (c.exec config.host w.repository).2).Honest := by
  have hchange := next_stepChange config.host c hw.wf hw.mirrored hc
  -- what was dispatched or denied before stays so; what is new comes from this call
  refine ⟨hchange.wf, hchange.mirrored, ?_, ?_, ?_, hw.unique, ?_, ?_, ?_, hw.safe, hw.unstarted⟩
  · intro o hactive
    obtain ⟨hdispatched, hdenied⟩ := hw.active o hactive
    refine ⟨hchange.dispatched o hdispatched, fun hdenied' => ?_⟩
    rcases hchange.denies o hdenied' with h | h
    · exact hdenied h
    · exact (hdenies o h hdispatched).1 hactive
  · intro o hdispatched
    rcases hchange.dispatches o hdispatched with h | ⟨h, -⟩
    · exact hw.executor o h
    · exact ⟨i, hdispatches o h⟩
  · intro o e hdispatched hdenied he
    rcases hchange.dispatches o hdispatched with hd | ⟨htarget, hnot⟩
    · rcases hchange.denies o hdenied with hdn | hdn
      · exact hw.ended o e hd hdn he
      · exact (hdenies o hdn hd).2 e he
    · rcases hchange.denies o hdenied with hdn | hdn
      · exact absurd hdn hnot
      · exact absurd hdn (RepositoryCall.not_denies htarget _ o)
  · intro o e he
    rw [afterCall_claimant]
    split_ifs
    · simp
    · exact hw.claimed o e he
  · intro o ho
    rw [afterCall_claimant] at ho
    split_ifs at ho with hcreated
    · exact hcreates o hcreated
    · exact hchange.hasStep o (hw.step o ho)
  · intro o operation ho
    rcases hchange.parents o operation ho with ⟨operation', ho'⟩ | hstep
    · exact hchange.hasStep o (hw.parents o operation' ho')
    · exact hstep

/-- Its changes are within the guarantee of its caller. -/
theorem Honest.guarantee (hw : w.Honest) (hc : c.ofSteps = true) {j : ℕ}
    (hdispatches : ∀ o, c.dispatchTarget = some o → w.ExecutorOf o j ∧ w.results j = none)
    (hcreates : ∀ o, createdOperation c (c.exec config.host w.repository).1 = some o →
      w.claimant o = none ∧ i = j) :
    Guarantee j w (w.afterCall i c (c.exec config.host w.repository).1
      (c.exec config.host w.repository).2) := by
  have hchange := next_stepChange config.host c hw.wf hw.mirrored hc
  refine ⟨fun _ _ h => h, fun _ _ h => .inl h, ?_, fun _ => .inl rfl, hchange.dispatched, ?_,
    fun _ => .inl rfl⟩
  · intro o
    rw [afterCall_claimant]
    split_ifs with hcreated
    · obtain ⟨hnone, rfl⟩ := hcreates o hcreated
      exact .inr ⟨hnone, rfl⟩
    · exact .inl rfl
  · intro o ho
    rcases hchange.dispatches o ho with h | ⟨h, -⟩
    · exact .inl h
    · exact .inr (hdispatches o h)

end World

/-- The calls that create and dispatch nothing. -/
def RepositoryCall.isNeutral : RepositoryCall → Bool
  | claim _ | claimParentWithStep _ | transitionWithAudit _ | authorizeDispatch _
  | authorizeStepDispatch _ => false
  | _ => true

variable {w w' : World}

/-- A call that creates and dispatches nothing is neutral, if what it denies is quiet. -/
theorem neutral_repository {r : Except Failure c.Answer} (hw : w.Honest) (hc : c.isNeutral = true)
    (hdenies : ∀ o, c.Denies w.repository o → w.rows.Dispatched o → w.Quiet i o)
    (hexec : w.exec config i (.repository c) choice = some (r, w')) :
    (effectContract config).Inv w' ∧ (∀ j, (effectContract config).Guar j w w') ∧
      (effectContract config).Starts w w' := by
  have hnot : c.ofSteps = true := by
    cases c <;> first | rfl | cases hc
  have htarget : c.dispatchTarget = none := by
    cases c <;> first | rfl | cases hc
  have hcreated : createdOperation c (c.exec config.host w.repository).1 = none := by
    cases c <;> first | rfl | cases hc
  obtain ⟨rfl, rfl⟩ := World.exec_repository_eq hexec
  refine ⟨hw.afterCall hnot (fun o ho hd => ?_) ?_ ?_, fun j => hw.guarantee hnot ?_ ?_,
    starts_of_eq rfl⟩
  · have hquiet := hdenies o ho hd
    exact ⟨hquiet.fate, hquiet.ended⟩
  all_goals
    simp only [htarget, hcreated]
    rintro o ⟨⟩

/-- Such a call keeps what the others keep. -/
theorem keeps_repository (hP : (effectContract config).Stable i P) (hc : c.isNeutral = true)
    (hdenies : ∀ w o, w.Honest → P w → c.Denies w.repository o →
      w.rows.Dispatched o → w.Quiet i o) :
    (effectContract config).Keeps i (fun _ => True) P (repository c) := by
  refine .neutral hP fun w choice r w' hw hinv hexec => ?_
  obtain ⟨h₁, h₂, h₃⟩ := neutral_repository hinv hc (fun o => hdenies w o hinv hw) hexec
  exact ⟨h₁, h₂, h₃, fun _ _ => trivial⟩

/-- A neutral call that denies nothing keeps what the others keep. -/
theorem keeps_undenying (hP : (effectContract config).Stable i P) (c : RepositoryCall)
    (hc : c.isNeutral = true) (hdenies : ∀ r o, ¬ c.Denies r o) :
    (effectContract config).Keeps i (fun _ => True) P (repository c) :=
  keeps_repository hP hc fun w o _ _ h => absurd h (hdenies w.repository o)

/-- The creation of an operation: its creator is the caller, and it has no executor. -/
theorem triple_claimParentWithStep (input : DurableParentChildClaimInput) :
    (effectContract config).Triple i (Working i) (repository (.claimParentWithStep input))
      fun r w => Working i w ∧ ∀ value, r = .ok ⟨.created, value⟩ →
        Unexecuted i value.operation.id w := by
  refine fun w hw => wp_perform stable_working hw fun w₁ choice r w₂ hw₁ hinv hexec => ?_
  obtain ⟨rfl, rfl⟩ := World.exec_repository_eq hexec
  have hinv₁ : w₁.Honest := hinv
  set r := w₁.repository.claimParentWithStep config.host input with hr
  -- A created operation is new, so nobody has created or executed it before.
  have hnew : ∀ o, createdOperation (.claimParentWithStep input) r.1 = some o →
      ∃ value, r.1 = .ok ⟨.created, value⟩ ∧ value.operation.id = o ∧
        w₁.claimant o = none ∧ r.2.rows.HasStep o := by
    intro o ho
    rcases hx : r.1 with e | ⟨kind, value⟩ <;> rw [hx] at ho
    · cases ho
    cases kind with
    | replay => cases ho
    | created =>
      cases ho
      obtain ⟨habsent, hstep⟩ := claimParentWithStep_created hx
      refine ⟨value, rfl, rfl, ?_, hstep⟩
      by_contra hclaimed
      obtain ⟨id, step, hget, hparent, -⟩ := hinv₁.step _ hclaimed
      obtain ⟨op, hop⟩ := hinv₁.wf.step_parent hget
      rw [hparent] at hop
      exact absurd (habsent.symm.trans hop) (by simp)
  refine ⟨⟨World.Honest.afterCall hinv₁ rfl (fun _ h => h.elim) (by rintro o ⟨⟩) ?_,
    World.Honest.guarantee hinv₁ rfl (by rintro o ⟨⟩) ?_, starts_of_eq rfl⟩, hw₁, ?_⟩
  · intro o ho
    obtain ⟨value, -, -, -, hstep⟩ := hnew o ho
    exact hstep
  · intro o ho
    obtain ⟨value, -, -, hnone, -⟩ := hnew o ho
    exact ⟨hnone, rfl⟩
  intro value hvalue
  have hcreated : createdOperation (.claimParentWithStep input) r.1 = some value.operation.id := by
    rw [show r.1 = _ from hvalue]
    rfl
  refine ⟨⟨hw₁, ?_⟩, fun e he => ?_⟩
  · rw [World.afterCall_claimant]
    exact if_pos hcreated
  · obtain ⟨-, -, -, hnone, -⟩ := hnew _ hcreated
    exact hinv₁.claimed _ e he hnone

/-- The authorisation of a dispatch by the executor of the operation. -/
theorem triple_authorizeDispatch (input : MutationDispatchAuthorizationInput)
    (ho : input.operationId = o) :
    (effectContract config).Triple i (fun w => Executing i o w ∧ w.fate o ≠ .active)
      (repository (.authorizeDispatch input))
      fun r w => (Executing i o w ∧ w.fate o ≠ .active) ∧
        ∀ operation, r = .ok operation → w.rows.Dispatched o := by
  refine fun w hw => wp_perform stable_executing_idle hw
    fun w₁ choice r w₂ hw₁ hinv hexec => ?_
  obtain ⟨rfl, rfl⟩ := World.exec_repository_eq hexec
  have hinv₁ : w₁.Honest := hinv
  obtain ⟨⟨hworking, hexecutor⟩, hfate⟩ := hw₁
  refine ⟨⟨World.Honest.afterCall hinv₁ rfl (fun _ h => h.elim) ?_ (by rintro o ⟨⟩),
    World.Honest.guarantee hinv₁ rfl ?_ (by rintro o ⟨⟩), starts_of_eq rfl⟩,
    ⟨⟨hworking, hexecutor⟩, hfate⟩, fun operation hok => ?_⟩
  · rintro o' ⟨⟩
    rw [ho]
    exact hexecutor
  · rintro o' ⟨⟩
    rw [ho]
    exact ⟨hexecutor, hworking⟩
  · have hstep := hinv₁.step o (hinv₁.claimed o i hexecutor)
    subst ho
    exact authorizeDispatch_dispatched hinv₁.wf hstep hok

/-! ## Calls that change nothing -/

/-- The calls that only read. -/
def ServiceCall.isQuery : ServiceCall → Bool
  | clock | newId | hit _ | getApplicationSnapshot _ | getAuthoritativeEvidence _ | raceExecution _
  | raceVerification _ | aborted | inspect _ => true
  | _ => false

/-- The calls that only read and do not throw. -/
def ServiceCall.isSilent : ServiceCall → Bool
  | clock | newId | raceExecution _ | raceVerification _ | aborted => true
  | _ => false

/-- A race is won by the timer, or by an execution that has ended. -/
theorem World.exec_raceExecution {work : ℕ}
    {r : Except Failure (Option (Except Failure ActionExecutionResult))}
    (h : w.exec config i (.raceExecution work) choice = some (r, w')) :
    w' = w ∧ (r = .ok none ∨ ∃ x, w.execution work = some x ∧ r = .ok (some x)) := by
  cases choice
  case work =>
    obtain ⟨x, hx, heq⟩ := Option.map_eq_some_iff.mp h
    cases heq
    exact ⟨rfl, .inr ⟨x, hx, rfl⟩⟩
  case timer =>
    cases h
    exact ⟨rfl, .inl rfl⟩
  all_goals cases h

/-- A race is won by the timer, or by a verification that has ended. -/
theorem World.exec_raceVerification {work : ℕ}
    {r : Except Failure (Option (Except Failure VerificationResult))}
    (h : w.exec config i (.raceVerification work) choice = some (r, w')) :
    w' = w ∧ ∃ answer, r = .ok answer := by
  cases choice
  case work =>
    obtain ⟨x, hx, heq⟩ := Option.map_eq_some_iff.mp h
    cases heq
    exact ⟨rfl, _, rfl⟩
  case timer =>
    cases h
    exact ⟨rfl, _, rfl⟩
  all_goals cases h

/-- A call that only reads leaves the world, and some of them do not throw. -/
theorem World.exec_query {c : ServiceCall} {r : Except Failure c.Answer} (hc : c.isQuery = true)
    (h : w.exec config i c choice = some (r, w')) :
    w' = w ∧ (c.isSilent = true → ∀ e, r ≠ .error e) := by
  cases c
  case raceExecution work =>
    obtain ⟨rfl, rfl | ⟨x, -, rfl⟩⟩ := World.exec_raceExecution h <;>
      exact ⟨rfl, fun _ _ he => by cases he⟩
  case raceVerification work =>
    obtain ⟨rfl, answer, rfl⟩ := World.exec_raceVerification h
    exact ⟨rfl, fun _ _ he => by cases he⟩
  case clock | newId | aborted =>
    cases choice <;> cases h
    exact ⟨rfl, fun _ _ he => by cases he⟩
  case hit | getApplicationSnapshot | getAuthoritativeEvidence | inspect =>
    cases choice <;> cases h
    exact ⟨rfl, by rintro ⟨⟩⟩
  all_goals cases hc

/-- A call that leaves the world is neutral. -/
theorem neutral_refl (config : ServiceConfig) {w : World} (hw : w.Honest) :
    (effectContract config).Inv w ∧ (∀ j, (effectContract config).Guar j w w) ∧
      (effectContract config).Starts w w :=
  ⟨hw, fun j => Guarantee.refl j w, starts_of_eq rfl⟩

section

variable (hP : (effectContract config).Stable i P)
include hP

/-- A call that only reads keeps what the others keep. -/
theorem keeps_query (c : ServiceCall) (hc : c.isQuery = true) :
    (effectContract config).Keeps i (fun _ => True) P (Task.perform c) := by
  refine .neutral hP fun w choice r w' hw hinv hexec => ?_
  obtain ⟨rfl, -⟩ := World.exec_query hc hexec
  obtain ⟨h₁, h₂, h₃⟩ := neutral_refl config hinv
  exact ⟨h₁, h₂, h₃, fun _ _ => trivial⟩

/-- A silent call keeps what the others keep, and throws nothing. -/
theorem keeps_silent (c : ServiceCall) (hc : c.isSilent = true) :
    (effectContract config).Keeps i E P (Task.perform c) := by
  refine .neutral hP fun w choice r w' hw hinv hexec => ?_
  have hquery : c.isQuery = true := by
    cases c <;> first | rfl | cases hc
  obtain ⟨rfl, hsilent⟩ := World.exec_query hquery hexec
  obtain ⟨h₁, h₂, h₃⟩ := neutral_refl config hinv
  exact ⟨h₁, h₂, h₃, fun e he => absurd he (hsilent hc e)⟩

/-- The clock. -/
theorem keeps_clock : (effectContract config).Keeps i E P clock :=
  keeps_silent hP .clock rfl

end

/-- The race of a performer for its executor: if the executor wins, its outcome is known. -/
theorem triple_raceExecution {e : ℕ} :
    (effectContract config).Triple i (Executed i o e) (raceExecution e)
      fun r w => Executed i o e w ∧ ∃ answer, r = .ok answer ∧
        ∀ x, answer = some x → EndedWith i o e (x.map .execution) w := by
  refine .neutral stable_executed fun w choice r w' hw hinv hexec => ?_
  obtain ⟨rfl, hr⟩ := World.exec_raceExecution hexec
  obtain ⟨h₁, h₂, h₃⟩ := neutral_refl config hinv
  refine ⟨h₁, h₂, h₃, fun _ => ?_⟩
  rcases hr with rfl | ⟨x, hx, rfl⟩
  · exact ⟨none, rfl, fun x hx => by cases hx⟩
  · refine ⟨some x, rfl, fun y hy => ⟨hw.mine, hw.executor, ?_⟩⟩
    cases hy
    unfold World.execution at hx
    split at hx <;> cases hx <;> assumption

/-! ## Jobs -/

namespace World

variable {w : World} {job : Job}

/-- The jobs after one more was started. -/
theorem startJob_getElem? {n : ℕ} {job' : Job} : (w.startJob job).jobs[n]? = some job' ↔
      w.jobs[n]? = some job' ∨ n = w.jobs.length ∧ job' = job := by
  rw [startJob, List.getElem?_append]
  split_ifs with hn
  · simp [Nat.ne_of_lt hn]
  rw [List.getElem?_eq_none (Nat.le_of_not_lt hn)]
  rcases Nat.lt_or_ge w.jobs.length n with hlt | hge
  · simp [List.getElem?_eq_none (show [job].length ≤ n - w.jobs.length by simp; omega),
      Nat.ne_of_gt hlt]
  · have heq : n = w.jobs.length := by omega
    simp [heq, eq_comm]

/-- A job finds itself started and not ended. -/
theorem Honest.starting (hw : w.Honest) (hjob : job.ofSteps = true)
    (hfate : ∀ plan context, job = .execute plan context → w.fate context.operationId ≠ .active) :
    (w.startJob job).Starting w.jobs.length job :=
  ⟨hjob, startJob_getElem?.mpr (.inr ⟨rfl, rfl⟩), hw.unstarted _ (Nat.le_refl _), hfate⟩

/-- The executors after one more job was started. -/
theorem startJob_executorOf {e : ℕ} :
    (w.startJob job).ExecutorOf o e ↔ w.ExecutorOf o e ∨ e = w.jobs.length ∧
      ∃ plan context, job = .execute plan context ∧ context.operationId = o := by
  simp only [ExecutorOf, startJob_getElem?]
  constructor
  · rintro ⟨plan, context, h | ⟨he, h⟩, ho⟩
    · exact .inl ⟨plan, context, h, ho⟩
    · exact .inr ⟨he, plan, context, h.symm, ho⟩
  · rintro (⟨plan, context, h, ho⟩ | ⟨he, plan, context, h, ho⟩)
    · exact ⟨plan, context, .inl h, ho⟩
    · exact ⟨plan, context, .inr ⟨he, h.symm⟩, ho⟩

/-- The start of a job keeps the invariant, if an executor is the first one of a created operation.
-/
theorem Honest.startJob (hw : w.Honest) (hnew : ∀ plan context, job = .execute plan context →
      w.claimant context.operationId ≠ none ∧ ∀ e, ¬ w.ExecutorOf context.operationId e) :
    (w.startJob job).Honest := by
  refine ⟨hw.wf, hw.mirrored, hw.active, fun o ho => ?_, fun o e hd hn he => ?_,
    fun o e e' he he' => ?_, fun o e he => ?_, hw.step, hw.parents, fun o e result he hr => ?_,
    fun n hn => hw.unstarted n (by simp [World.startJob] at hn; omega)⟩
  · exact (hw.executor o ho).imp fun e he => startJob_executorOf.mpr (.inl he)
  · rcases startJob_executorOf.mp he with he | ⟨-, plan, context, hjob, rfl⟩
    · exact hw.ended o e hd hn he
    · obtain ⟨e', he'⟩ := hw.executor _ hd
      exact absurd he' ((hnew plan context hjob).2 e')
  · rcases startJob_executorOf.mp he with he | ⟨rfl, plan, context, hjob, rfl⟩ <;>
      rcases startJob_executorOf.mp he' with he' | ⟨rfl, plan', context', hjob', ho⟩
    · exact hw.unique o e e' he he'
    · rw [← ho] at he
      exact absurd he ((hnew plan' context' hjob').2 e)
    · exact absurd he' ((hnew plan context hjob).2 e')
    · rfl
  · rcases startJob_executorOf.mp he with he | ⟨-, plan, context, hjob, rfl⟩
    · exact hw.claimed o e he
    · exact (hnew plan context hjob).1
  · rcases startJob_executorOf.mp he with he | ⟨rfl, -⟩
    · exact hw.safe o e result he hr
    · exact absurd hr (by simp [World.startJob, hw.unstarted _ (Nat.le_refl _)])

/-- The start of a job is within a guarantee, if that of an executor is of the job that created its
operation. -/
theorem guarantee_startJob {j : ℕ} (hnew : ∀ plan context, job = .execute plan context →
      w.claimant context.operationId = some j) : Guarantee j w (w.startJob job) where
  jobs _ _ h := startJob_getElem?.mpr (.inl h)
  executor _ _ he := by
    rcases startJob_executorOf.mp he with he | ⟨-, plan, context, hjob, rfl⟩
    · exact .inl he
    · exact .inr (hnew plan context hjob)
  claimant _ := .inl rfl
  results _ := .inl rfl
  dispatched _ h := h
  dispatches _ h := .inl h
  fate _ := .inl rfl

end World

/-- The start of a verification keeps what the others keep. -/
theorem keeps_startVerification (hP : (effectContract config).Stable i P) (plan : ActionPlan)
    (execution : ActionExecutionResult) (context : MutationExecutionContext) :
    (effectContract config).Keeps i E P (startVerification plan execution context) := by
  refine .neutral hP fun w choice r w' hw hinv hexec => ?_
  cases choice <;> cases hexec
  have hinv₁ : w.Honest := hinv
  exact ⟨hinv₁.startJob (by simp), fun _ => guarantee_startJob (by simp),
    starts_one rfl (hinv₁.starting rfl (by rintro _ _ ⟨⟩)), by rintro e ⟨⟩⟩

/-- The start of the executor of an operation by its creator. -/
theorem triple_startExecution (plan : ActionPlan) (context : MutationExecutionContext)
    (ho : context.operationId = o) :
    (effectContract config).Triple i (Unexecuted i o) (startExecution plan context)
      fun r w => ∃ e, r = .ok e ∧ Executed i o e w := by
  subst ho
  refine fun w hw => wp_perform stable_unexecuted hw
    fun w₁ choice r w₂ hw₁ hinv hexec => ?_
  cases choice <;> cases hexec
  have hinv₁ : w₁.Honest := hinv
  have hquiet := hw₁.quiet hinv₁
  have hfirst : ∀ plan' context', Job.execute plan context = .execute plan' context' →
      w₁.claimant context'.operationId = some i ∧ ∀ e, ¬ w₁.ExecutorOf context'.operationId e := by
    rintro plan' context' ⟨⟩
    exact ⟨hw₁.mine.claimant, hw₁.none⟩
  refine ⟨⟨hinv₁.startJob fun plan' context' hjob => ?_,
    guarantee_startJob fun plan' context' hjob => (hfirst plan' context' hjob).1,
    starts_one rfl (hinv₁.starting rfl ?_)⟩, _, rfl,
    ⟨hw₁.mine.working, hw₁.mine.claimant⟩,
    startJob_executorOf.mpr (.inr ⟨rfl, plan, context, rfl, rfl⟩)⟩
  · obtain ⟨hclaimant, hnone⟩ := hfirst plan' context' hjob
    exact ⟨by rw [hclaimant]; simp, hnone⟩
  · rintro plan' context' ⟨⟩
    exact hquiet.fate

/-! ## The Docker request -/

/-- The request of an authorised dispatch. -/
theorem triple_invoke (action : ActionType) (containerId : JsString) :
    (effectContract config).Triple i (fun w => Executing i o w ∧ w.rows.Dispatched o)
      (invoke o action containerId) fun r w => r = .ok () ∧ Executing i o w := by
  refine fun w hw => wp_perform (stable_executing.and stable_dispatched) hw
    fun w₁ choice r w₂ hw₁ hinv hexec => ?_
  cases choice <;> cases hexec
  have hinv₁ : w₁.Honest := hinv
  obtain ⟨⟨hworking, hexecutor⟩, hdispatched⟩ := hw₁
  refine ⟨⟨{ hinv₁ with active := ?_, safe := ?_ }, ?_, starts_of_eq rfl⟩, rfl, hworking,
    hexecutor⟩
  · intro o' ho'
    by_cases heq : o' = o
    · -- The executor has not ended, so the effect is not denied.
      subst heq
      exact ⟨hdispatched, fun hdenied => hinv₁.ended o' i hdispatched hdenied hexecutor hworking⟩
    · exact hinv₁.active o' (by simpa [setFate, Function.update_of_ne heq] using ho')
  · intro o' e result he hr hsafe
    by_cases heq : o' = o
    · subst heq
      rw [hinv₁.unique o' e i he hexecutor] at hr
      exact absurd hr (by simp [setFate, show w₁.results i = none from hworking])
    · simpa [setFate, Function.update_of_ne heq] using hinv₁.safe o' e result he hr hsafe
  · refine { Guarantee.refl i w₁ with fate := fun o' => ?_ }
    by_cases heq : o' = o
    · subst heq
      exact .inr ⟨hexecutor, hworking⟩
    · exact .inl (by simp [setFate, Function.update_of_ne heq])

/-- The end of the request: one that failed with effect `NONE` is not active. -/
theorem triple_settled : (effectContract config).Triple i (Executing i o) (settled o)
      fun r w => Executing i o w ∧ (refusedWithoutEffect r = true → w.fate o ≠ .active) := by
  refine fun w hw => wp_perform stable_executing hw fun w₁ choice r w₂ hw₁ hinv hexec => ?_
  cases choice <;> cases hexec
  have hinv₁ : w₁.Honest := hinv
  obtain ⟨hworking, hexecutor⟩ := hw₁
  split_ifs with hrefused
  · have hfate : ∀ o', (w₁.setFate o .refused).fate o' = .active → w₁.fate o' = .active := by
      intro o' ho'
      by_cases heq : o' = o
      · subst heq
        simp [setFate] at ho'
      · simpa [setFate, Function.update_of_ne heq] using ho'
    refine ⟨⟨{ hinv₁ with
        active := fun o' ho' => hinv₁.active o' (hfate o' ho')
        safe := fun o' e result he hr hsafe ho' =>
          hinv₁.safe o' e result he hr hsafe (hfate o' ho') }, ?_, starts_of_eq rfl⟩,
      ⟨hworking, hexecutor⟩, fun _ => by simp [setFate]⟩
    refine { Guarantee.refl i w₁ with fate := fun o' => ?_ }
    by_cases heq : o' = o
    · subst heq
      exact .inr ⟨hexecutor, hworking⟩
    · exact .inl (by simp [setFate, Function.update_of_ne heq])
  · exact ⟨⟨hinv₁, Guarantee.refl i w₁, starts_of_eq rfl⟩, ⟨hworking, hexecutor⟩,
      fun h => absurd h hrefused⟩

end ZimaControl
