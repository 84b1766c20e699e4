import ZimaControl.Mutation.WellFormed

/-!
# What calls leave alone

A call other than the two that claim leaves the claims. While no audit fault is injected, a call only
adds audit events.
-/

namespace ZimaControl

namespace InMemoryDurableMutationRepository

variable {r r' r'' : Repository}

/-- Calls in sequence extend the audits if each does. -/
theorem extends_andThen {α β : Type} {x : RepositoryOutcome α} (hx : Extends r x.2)
    {k : α → Repository → RepositoryOutcome β} (hk : ∀ a r', Extends r' (k a r').2) :
    Extends r (x.andThen k).2 := by
  rcases x with ⟨e | a, r'⟩
  · exact hx
  · exact hx.trans (hk a r')

/-- Checks change nothing. -/
theorem extends_checking {α β : Type} {r₁ : Repository} (checks : Except Failure α)
    {k : α → RepositoryOutcome β} (hr : Extends r r₁) (hk : ∀ a, Extends r (k a).2) :
    Extends r (Outcome.checking r₁ checks k).2 := by
  cases checks with
  | error e => exact hr
  | ok a => exact hk a

/-- A written step whose appends pass without faults extends the audits. -/
theorem extends_writeStep {operation : Operation} {step' : OperationStep}
    {finish : ParentMutationAggregate → Operation}
    {appends : Operation → Repository → RepositoryOutcome Unit}
    {done : Operation → Repository → Repository} {undo : Repository → Repository}
    (happends : ∀ updated r', Appends r' updated.id (appends updated r'))
    (hdone : ∀ updated r', Extends r' (done updated r'))
    (hundo : ∀ r', (undo r').claims = r'.claims) :
    Extends r (r.writeStep operation step' finish fun updated r' =>
      settleStep (appends updated r') updated (done updated) undo).2 := by
  refine extends_checking _ (extends_of_eq rfl rfl rfl) fun aggregate => ?_
  generalize hr₁ : ({ r with
    steps := r.steps.set step'.id step'
    operations := r.operations.set (finish aggregate).id (finish aggregate) } : Repository) = r₁
  have hr : Extends r r₁ := by
    rw [← hr₁]
    exact extends_of_eq rfl rfl rfl
  have happend := happends (finish aggregate) r₁
  change Extends r (settleStep (appends (finish aggregate) _) (finish aggregate)
    (done (finish aggregate)) undo).2
  rw [hr₁]
  rcases hx : appends (finish aggregate) r₁ with ⟨e | u, r₂⟩
  · -- An append that throws met a fault.
    rw [hx] at happend
    have hfault : r.auditFaults ≠ [] := fun hf => by
      have := happend.passes (hr.faults hf)
      cases this
    exact ⟨(hundo r₂).trans (happend.extension.claims.trans hr.claims), fun hf => absurd hf hfault,
      fun hf => absurd hf hfault⟩
  · rw [hx] at happend
    exact (hr.trans happend.extension).trans (hdone _ _)

/-- Dropping a lock leaves claims and audits. -/
theorem extends_dropLock (drop : Bool) (key : JsString) : Extends r (dropLock drop key r) := by
  cases drop <;> exact extends_of_eq rfl rfl rfl

/-- Marking a step as dispatched extends the audits. -/
theorem extends_authorizeStepDispatch (input : MutationStepDispatchAuthorizationInput) :
    Extends r (r.authorizeStepDispatch input).2 := by
  refine extends_checking _ (.refl r) ?_
  rintro ⟨operation, step⟩
  simp only
  set r₁ : Repository := { r with
    steps := r.steps.set step.id (dispatchedStep step input.fencingToken input.now) }
  have hr : Extends r r₁ := extends_of_eq rfl rfl rfl
  have hext := extends_append (r := r₁) operation .dispatchAuthorized input.now none
    (some (dispatchedStep step input.fencingToken input.now))
  split
  next u r₂ hx =>
    rw [hx] at hext
    exact hr.trans hext
  next e r₂ hx =>
    rw [hx] at hext
    exact (hr.trans hext).trans (extends_of_eq rfl rfl rfl)

/-- The transition of an operation extends the audits. -/
theorem extends_transitionWithAudit (input : DurableTransitionInput) :
    Extends r (r.transitionWithAudit input).2 := by
  refine extends_checking _ (.refl r) fun previous => ?_
  simp only
  set current := applyTransition previous input
  set r₁ : Repository := { r with operations := r.operations.set current.id current }
  have hr : Extends r r₁ := extends_of_eq rfl rfl rfl
  have hext := extends_append (r := r₁) current input.eventType input.now input.reasonCode none
  split
  next e r₂ hx =>
    rw [hx] at hext
    exact (hr.trans hext).trans (extends_of_eq rfl rfl rfl)
  next u r₂ hx =>
    rw [hx] at hext
    refine (hr.trans hext).trans ?_
    unfold finishTransition
    split
    · exact .refl _
    simp only
    split_ifs
    · exact extends_dropLock true _
    · exact extends_of_eq rfl rfl rfl
    · exact .refl _

end InMemoryDurableMutationRepository

namespace RepositoryCall

/-- The actor and idempotency key under which a call claims. -/
def claimPair : RepositoryCall → Option (JsString × JsString)
  | claim input => some (input.plan.actor.id, input.plan.idempotencyKey)
  | claimParentWithStep input => some (input.plan.actor.id, input.plan.idempotencyKey)
  | _ => none

end RepositoryCall

namespace InMemoryDurableMutationRepository

/-- A call that does not claim extends the repository. -/
theorem extends_next (host : Host) (r : Repository) (c : RepositoryCall)
    (hc : c.claimPair = none) : Extends r (c.next host r) := by
  cases c with
  | claim input => cases hc
  | claimParentWithStep input => cases hc
  | replayParentClaim input =>
    change Extends r (r.replayParentClaim input).2
    unfold replayParentClaim
    split
    · exact .refl r
    · exact extends_checking _ (.refl r) fun _ =>
        extends_andThen (extends_append ..) fun _ r' => .refl r'
  | rejectParentChildBeforeOwnership operationId childStepId now reasonCode =>
    exact extends_checking _ (.refl r) fun _ => extends_writeStep
      (fun _ _ => appendEnded_appends ..) (fun _ r' => .refl r')
      fun _ => rfl
  | transitionStepWithAudit input =>
    exact extends_checking _ (.refl r) fun _ => extends_writeStep
      (fun _ _ => append_appends ..) (fun _ r' => .refl r') fun _ => rfl
  | finalizeStepAndParent input =>
    exact extends_checking _ (.refl r) fun _ => extends_writeStep
      (fun _ _ => appendEnded_appends ..)
      (fun _ _ => extends_dropLock ..) fun _ => rfl
  | recoverStepAndParent operationId childStepId lease now =>
    refine extends_checking _ (.refl r) fun _ => ?_
    simp only
    split_ifs
    · exact .refl r
    · exact .refl r
    · exact extends_writeStep (fun _ _ => appendEnded_appends ..)
        (fun _ _ => extends_dropLock ..) fun _ => rfl
  | authorizeStepDispatch input => exact extends_authorizeStepDispatch input
  | authorizeDispatch input =>
    refine extends_checking _ (.refl r) fun operation => ?_
    split
    · exact extends_checking _ (.refl r) fun _ =>
        extends_andThen (extends_append ..) fun _ r' => .refl r'
    · exact extends_andThen (extends_authorizeStepDispatch _) fun _ r' => .refl r'
    · exact .refl r
  | transitionWithAudit input => exact extends_transitionWithAudit input
  -- The lease calls touch rows only.
  | acquireLease | acquireRecoveryLease | renewLease | releaseLease =>
    simp only [RepositoryCall.next, RepositoryCall.exec, acquireLease, acquireRecoveryLease,
      renewLease, releaseLease]
    repeat' split
    all_goals exact extends_of_eq rfl rfl rfl
  | findOperation | findOperationWithSteps | findParentClaim | listRecoverable
  | listAuditEvents => exact .refl r

variable {r : Repository}

/-- Without faults there are none after `claimParentWithStep` either. -/
theorem claimParentWithStep_faults (host : Host) (input : DurableParentChildClaimInput)
    (hf : r.auditFaults = []) : (r.claimParentWithStep host input).2.auditFaults = [] := by
  unfold claimParentWithStep
  rcases Outcome.checking_cases r (assertParentChildClaimInput host input) _ with
    ⟨e, he⟩ | ⟨u, -, hu⟩
  · rw [he]
    exact hf
  rw [hu]
  simp only
  split
  next existing hlive =>
    split_ifs
    · exact hf
    · exact (extends_checking _ (.refl r) fun _ =>
        extends_andThen (extends_append ..) fun _ r' => .refl r').faults hf
  next hlive =>
    split_ifs
    · exact hf
    generalize hkey : claimKey input.plan.actor.id input.plan.idempotencyKey = key
    have happend := (appendCreated_appends (r := (r.dropClaim key).insertParentWithStep key input)
      (operationFromClaim input.toDurableMutationClaimInput none none) (stepFromClaim input)
      input.now).extension.faults hf
    simp only [createParentWithStep]
    rcases hx : ((r.dropClaim key).insertParentWithStep key input).appendCreated
      (operationFromClaim input.toDurableMutationClaimInput none none) (stepFromClaim input)
      input.now with ⟨e | u, r'⟩ <;> rw [hx] at happend <;> exact happend

end InMemoryDurableMutationRepository

end ZimaControl
