import ZimaControl.Api.MutationService
import ZimaControl.Mutation.Indeterminate

/-!
# What the production service records of an unknown outcome

Once the request frame has been handed to the daemon's socket and no telling response to it came
back, the action may be carried out at any later time. The service has no way to say so: every
failure of the gateway is recorded as `FAILED` or `TIMED_OUT`, and `SUCCEEDED` in answer to a second
copy of the frame says nothing of the first, all by transitions that release the lease. So an
execution records an unknown outcome honestly exactly when it has none.

The functions of the service get one specification each; others may call the repository between any
two calls of the execution.
-/

namespace ZimaControl

open InMemoryDurableMutationRepository

namespace GatewayWorld

/-- An unknown outcome is recorded as such: the operation ended `INDETERMINATE` and holds the lock
of its key. -/
def HonestOutcome (service : GatewayApplicationMutationService) (w : GatewayWorld) : Prop :=
  w.outcomeUnknown service = true → ∃ id operation lease, w.created = some id ∧
    w.repository.operations.get id = some operation ∧ operation.status = .indeterminate ∧
    w.repository.locks.get operation.operationKey = some lease ∧ lease.ownerOperationId = id

/-- The operation ended `SUCCEEDED`, `FAILED` or `TIMED_OUT`, and no one holds the lock of its key.
-/
def Released (w : GatewayWorld) : Prop :=
  ∃ id operation, w.created = some id ∧ w.repository.operations.get id = some operation ∧
    operation.status ∈ [.succeeded, .failed, .timedOut] ∧
    w.repository.locks.get operation.operationKey = none

variable {service : GatewayApplicationMutationService} {w : GatewayWorld}

/-- A released operation is not one that ended `INDETERMINATE`. -/
theorem Released.not_honest (h : w.Released) (hunknown : w.outcomeUnknown service = true) :
    ¬ w.HonestOutcome service := by
  intro hhonest
  obtain ⟨id, operation, hcreated, hget, hstatus, -⟩ := h
  obtain ⟨id', operation', -, hcreated', hget', hstatus', -⟩ := hhonest hunknown
  rw [hcreated] at hcreated'
  cases hcreated'
  rw [hget] at hget'
  cases hget'
  rw [hstatus'] at hstatus
  exact absurd hstatus (by decide)

/-- Nothing has been asked of the daemon yet. -/
structure Before (w : GatewayWorld) : Prop where
  wf : w.repository.rows.Wf
  exchanges : w.exchanges = []

/-- An execution asked nothing of the daemon, or has released its operation. -/
def Ending (w : GatewayWorld) : Prop := w.threw = false → w.exchanges = [] ∨ w.Released

/-- An execution may end before it asked anything of the daemon. -/
theorem Before.ending (h : w.Before) : w.Ending := fun _ => .inl h.exchanges

/-- An execution with an unknown outcome has released its operation. -/
theorem Ending.released (h : w.Ending) (hthrew : w.threw = false)
    (hunknown : w.outcomeUnknown service = true) : w.Released := by
  rcases h hthrew with hnone | hreleased
  · rw [outcomeUnknown, hnone] at hunknown
    cases hunknown
  · exact hreleased

end GatewayWorld

namespace InMemoryDurableMutationRepository

/-- A transition to a known outcome that releases the lease leaves the key without a lock. -/
theorem transitionWithAudit_released {r : Repository} (h : r.rows.Wf)
    {input : DurableTransitionInput} {answer : Operation}
    (hstatus : input.status ∈ [.succeeded, .failed, .timedOut])
    (hrelease : input.releaseLease = true) (hok : (r.transitionWithAudit input).1 = .ok answer) :
    ∃ operation, (r.transitionWithAudit input).2.operations.get input.operationId = some operation ∧
      operation.status = input.status ∧
      (r.transitionWithAudit input).2.locks.get operation.operationKey = none := by
  rcases transitionWithAudit_rows h input with ⟨⟨e, herror⟩, -⟩ | ⟨current, hchecks, -, hrows⟩
  · rw [hok] at herror
    cases herror
  obtain ⟨hget, -, -⟩ := transitionChecks_ok hchecks
  have hid : current.id = input.operationId := h.operation_id hget
  have hdrops : transitionDrops input = true := by
    have hterminal : input.status.isTerminal = true := by
      revert hstatus
      cases input.status <;> decide
    rw [transitionDrops, hterminal, hrelease]
    rfl
  rw [hdrops] at hrows
  have hops := congrArg Rows.operations hrows
  have hlocks := congrArg Rows.locks hrows
  change (r.transitionWithAudit input).2.operations = _ at hops
  change (r.transitionWithAudit input).2.locks = _ at hlocks
  refine ⟨applyTransition current input, ?_, rfl, ?_⟩
  · rw [hops, ← hid]
    exact JsMap.get_set_self _ _ _
  · rw [hlocks]
    exact JsMap.get_delete_self _ _

end InMemoryDurableMutationRepository

namespace GatewayApplicationMutationService

open GatewayWorld

variable {service : GatewayApplicationMutationService} {w : GatewayWorld}

/-- A clock reading changes nothing. -/
theorem now_bind {α : Type} {f : Timestamp → GatewayServiceTask α}
    {Q : Except MutationServiceFailure α → GatewayWorld → Prop}
    (h : ∀ t, (f t).Ensures (exec service) Q w) : (now >>= f).Ensures (exec service) Q w := by
  intro choice r w' hexec
  cases choice <;> cases hexec
  exact h _

/-- A repository call is made after the calls of others. -/
theorem repository_spec (c : RepositoryCall) :
    (repository c).Ensures (exec service) (fun r w' => ∃ others,
      let outcome := c.exec service.host (w.repository.run service.host others)
      r = outcome.1.mapError .dependency ∧ w' = w.afterCall c outcome) w := by
  refine .perform fun choice r w' hexec => ?_
  cases choice <;> cases hexec
  exact ⟨_, rfl, rfl⟩

/-- The calls of others keep the rows well formed. -/
theorem run_wf (h : w.repository.rows.Wf) (others : List RepositoryCall) :
    (w.repository.run service.host others).rows.Wf :=
  (reachedBy_run service.host w.repository others).wf h

/-- A call that claims nothing leaves the record of the created operation. -/
theorem afterCall_created {c : RepositoryCall} {outcome : RepositoryOutcome c.Answer}
    (hc : ∀ input, c ≠ .claim input) : (w.afterCall c outcome).created = w.created := by
  cases c <;> first | rfl | exact absurd rfl (hc _)

/-- Such a call keeps the rows well formed, asks nothing of the daemon, and goes on record if it
throws. -/
theorem repository_keeps (hwf : w.repository.rows.Wf) (c : RepositoryCall)
    (hc : ∀ input, c ≠ .claim input) : (repository c).Ensures (exec service) (fun r w' =>
      w'.repository.rows.Wf ∧ w'.created = w.created ∧ w'.exchanges = w.exchanges ∧
        ∀ e, r = .error e → w'.threw = true) w := by
  refine (repository_spec c).mono ?_
  rintro r w' ⟨others, hr, rfl⟩
  refine ⟨next_wf service.host c (run_wf hwf others), afterCall_created hc, rfl, ?_⟩
  rintro e rfl
  cases hanswer : (c.exec service.host (w.repository.run service.host others)).1 with
  | error e' => simp [afterCall, hanswer, Except.isOk, Except.toBool]
  | ok answer =>
    rw [hanswer] at hr
    cases hr

/-- The resolution of the deployment changes nothing. -/
theorem resolveDeployment_spec (actor : PlanActor) (applicationId : JsString)
    (request : ApplicationMutationRequest) :
    (service.resolveDeployment actor applicationId request).Ensures (exec service)
      (fun _ w' => w' = w) w := by
  have hsnapshot : (findSnapshot applicationId).Ensures (exec service) (fun _ w' => w' = w) w := by
    refine .bindAttempt (S := fun _ w' => w' = w) ?_ ?_
    · refine .perform fun choice r w' hexec => ?_
      cases choice <;> cases hexec
      rfl
    · rintro (e | snapshot) w' rfl <;> rfl
  have hadmit : ∀ snapshot, (service.admitSnapshot snapshot).Ensures (exec service)
      (fun _ w' => w' = w) w := by
    rintro (_ | snapshot)
    · rfl
    unfold admitSnapshot
    dsimp only
    split_ifs
    · rfl
    · cases snapshot.deployment <;> rfl
  unfold resolveDeployment
  split_ifs
  · rfl
  · rfl
  · refine .bind hsnapshot ?_ fun _ _ h => h
    rintro snapshot w' rfl
    exact hadmit snapshot

/-- A claim that was created is on record. -/
theorem claim_spec (h : w.Before) (input : DurableMutationClaimInput) :
    (repository (.claim input)).Ensures (exec service) (fun r w' => w'.Before ∧
      ∀ operation, r = .ok ⟨.created, operation⟩ → w'.created = some operation.id) w := by
  refine (repository_spec _).mono ?_
  rintro r w' ⟨others, hr, rfl⟩
  refine ⟨⟨next_wf service.host _ (run_wf h.wf others), h.exchanges⟩, fun operation heq => ?_⟩
  rw [heq] at hr
  -- The answer is what the repository returned, unchanged by the mapping of errors.
  have hanswer : (RepositoryCall.exec service.host (w.repository.run service.host others)
      (.claim input)).1 = .ok ⟨.created, operation⟩ := by
    revert hr
    cases (RepositoryCall.exec service.host (w.repository.run service.host others)
      (.claim input)).1 with
    | error e => exact fun h => by cases h
    | ok claim => exact fun h => by cases h; rfl
  simp [afterCall, hanswer]

/-- A created claim is on record, and nothing has been asked of the daemon. -/
theorem claimOperation_spec (h : w.Before) (actor : PlanActor) (applicationId : JsString)
    (request : ApplicationMutationRequest) (claimedAt : Timestamp) :
    (service.claimOperation actor applicationId request claimedAt).Ensures (exec service)
      (fun r w' => w'.Before ∧ ∀ operation, r = .ok ⟨.created, operation⟩ →
        w'.created = some operation.id) w := by
  refine .bind (S := fun _ w' => w' = w) ?_ ?_ ?_
  · refine .perform fun choice r w' hexec => ?_
    cases choice <;> cases hexec
    rfl
  · rintro operationId w' rfl
    refine .bindAttempt (claim_spec h _) ?_
    rintro (e | claim) w' ⟨hbefore, hcreated⟩
    · exact ⟨hbefore, fun _ heq => by cases heq⟩
    · exact ⟨hbefore, fun operation heq => hcreated operation heq⟩
  · rintro e w' rfl
    exact ⟨h, fun _ heq => by cases heq⟩

/-- The lease and the transition to `EXECUTING` ask nothing of the daemon. -/
theorem beginExecution_spec (h : w.Before) (operation : Operation) (claimedAt : Timestamp) :
    (beginExecution operation claimedAt).Ensures (exec service)
      (fun _ w' => w'.Before ∧ w'.created = w.created) w := by
  -- The same holds of each repository call, and of a transition after two clock readings.
  have hcall : ∀ {w₁ : GatewayWorld} (c : RepositoryCall), (∀ input, c ≠ .claim input) →
      w₁.Before ∧ w₁.created = w.created → (repository c).Ensures (exec service)
        (fun _ w' => w'.Before ∧ w'.created = w.created) w₁ := by
    rintro w₁ c hc ⟨hw₁, hcreated⟩
    refine (repository_keeps hw₁.wf c hc).mono ?_
    rintro r w' ⟨hwf, hcreated', hexchanges, -⟩
    exact ⟨⟨hwf, hexchanges.trans hw₁.exchanges⟩, hcreated'.trans hcreated⟩
  have htransition : ∀ {w₁ : GatewayWorld} {α : Type}
      (input : Timestamp → Timestamp → DurableTransitionInput) (result : Except _ α),
      w₁.Before ∧ w₁.created = w.created → (do
        let t ← now
        let t' ← now
        let _ ← repository (.transitionWithAudit (input t t'))
        Task.ret result : GatewayServiceTask α).Ensures (exec service)
        (fun _ w' => w'.Before ∧ w'.created = w.created) w₁ := by
    intro w₁ α input result hw₁
    refine now_bind fun t => now_bind fun t' => ?_
    exact .bind (hcall _ (by simp) hw₁) (fun _ _ h => h) fun _ _ h => h
  refine .bind (hcall _ (by simp) ⟨h, rfl⟩) ?_ fun _ _ h => h
  rintro (_ | lease) w₁ hw₁
  · exact htransition _ (.error _) hw₁
  · exact htransition _ (.ok lease) hw₁

variable {operation : Operation}

/-- A transition to a known outcome releases the lease, unless the repository throws. -/
theorem releasing_spec (hwf : w.repository.rows.Wf) {input : DurableTransitionInput}
    (hcreated : w.created = some input.operationId)
    (hstatus : input.status ∈ [.succeeded, .failed, .timedOut])
    (hrelease : input.releaseLease = true) :
    (repository (.transitionWithAudit input)).Ensures (exec service)
      (fun _ w' => w'.threw = false → w'.Released) w := by
  refine (repository_spec _).mono ?_
  rintro r w' ⟨others, -, rfl⟩ hthrew
  set r₀ := w.repository.run service.host others
  -- The call returned, since none of the execution's repository calls threw.
  have hok : (!(r₀.transitionWithAudit input).1.isOk) = false :=
    (Bool.or_eq_false_iff.mp hthrew).2
  cases hanswer : (r₀.transitionWithAudit input).1 with
  | error e =>
    rw [hanswer] at hok
    cases hok
  | ok answer =>
    obtain ⟨row, hget, hrow, hlock⟩ := transitionWithAudit_released (run_wf hwf others) hstatus
      hrelease hanswer
    exact ⟨input.operationId, row, (afterCall_created (by simp)).trans hcreated, hget,
      hrow ▸ hstatus, hlock⟩

section

variable (hwf : w.repository.rows.Wf) (hcreated : w.created = some operation.id)
  (lease : MutationLease)
include hwf hcreated

/-- A failed gateway call is recorded by one releasing transition. -/
theorem recordFailure_spec {α : Type} {mapped : MappedFailure}
    (hstatus : mapped.status = .failed ∨ mapped.status = .timedOut) :
    (recordFailure operation lease mapped : GatewayServiceTask α).Ensures (exec service)
      (fun _ w' => w'.threw = false → w'.Released) w := by
  refine now_bind fun failedAt => now_bind fun completedAt => ?_
  refine .bind (releasing_spec hwf hcreated ?_ rfl) (fun _ _ h => h) fun _ _ h => h
  rcases hstatus with hs | hs <;> simp [hs]

/-- A success is recorded by two transitions, the second of which releases. -/
theorem recordSuccess_spec (applicationId : JsString) (action : ActionType) :
    (recordSuccess operation lease applicationId action).Ensures (exec service)
      (fun _ w' => w'.threw = false → w'.Released) w := by
  refine now_bind fun verifyingAt => .bind (repository_keeps hwf _ (by simp)) ?_ ?_
  · rintro _ w₁ ⟨hwf', hsame, -, -⟩
    refine now_bind fun succeededAt => now_bind fun completedAt => ?_
    exact .bind (releasing_spec hwf' (hsame.trans hcreated) (by simp) rfl) (fun _ _ h => h)
      fun _ _ h => h
  · rintro e w₁ ⟨-, -, -, hthrew⟩ hnot
    rw [hthrew e rfl] at hnot
    cases hnot

end

/-- A gateway call is a conversation and leaves the repository. -/
theorem exec_gateway {operation : AdapterOperationType} {params : ApplicationRuntimeMutationParams}
    {choice : GatewayChoice} {r : Except MutationServiceFailure ApplicationRuntimeResponse}
    {w' : GatewayWorld} (hexec : exec service w (.gateway operation params) choice = some (r, w')) :
    w'.repository = w.repository ∧ w'.created = w.created := by
  cases choice with
  | exchange exchange =>
    rw [exec] at hexec
    split at hexec
    next result hresult =>
      cases hexec
      exact ⟨rfl, rfl⟩
    next => cases hexec
  | _ => cases hexec

/-- Whatever the gateway answers, the operation is released. -/
theorem invoke_spec (h : w.Before) (hcreated : w.created = some operation.id) (actor : PlanActor)
    (applicationId deploymentId : JsString) (action : ActionType) (lease : MutationLease) :
    (service.invoke actor applicationId deploymentId action operation lease).Ensures (exec service)
      (fun _ w' => w'.Ending) w := by
  suffices hreleased : (service.invoke actor applicationId deploymentId action operation
      lease).Ensures (exec service) (fun _ w' => w'.threw = false → w'.Released) w from
    hreleased.mono fun _ _ hw' hthrew => .inr (hw' hthrew)
  refine .bindAttempt (S := fun _ w₁ => w₁.repository = w.repository ∧ w₁.created = w.created)
    (.perform fun _ _ _ hexec => exec_gateway hexec) ?_
  rintro (e | response) w₁ ⟨hrepository, hsame⟩
  · exact recordFailure_spec (hrepository ▸ h.wf) (hsame.trans hcreated) lease
      (mapGatewayError_status e)
  dsimp only
  split_ifs with hsucceeded
  · exact recordSuccess_spec (hrepository ▸ h.wf) (hsame.trans hcreated) lease applicationId action
  · exact recordFailure_spec (hrepository ▸ h.wf) (hsame.trans hcreated) lease
      (mapAdapterOutcome_status response)

/-- However an execution ends, it asked nothing of the daemon or has released its operation. -/
theorem perform_spec (h : w.Before) (actor : PlanActor) (applicationId : JsString)
    (request : ApplicationMutationRequest) :
    (service.perform actor applicationId request).Ensures (exec service)
      (fun _ w' => w'.Ending) w := by
  refine .bind (resolveDeployment_spec actor applicationId request) ?_
    (by rintro e w' rfl; exact h.ending)
  rintro deploymentId w₁ rfl
  refine now_bind fun claimedAt => ?_
  refine .bind (claimOperation_spec h actor applicationId request claimedAt) ?_
    fun e w' hw' => hw'.1.ending
  rintro ⟨kind, operation⟩ w₂ ⟨hbefore, hcreated⟩
  cases kind with
  | replay => exact hbefore.ending
  | created =>
    refine .bind (beginExecution_spec hbefore operation claimedAt) ?_
      fun e w' hw' => hw'.1.ending
    rintro lease w₃ ⟨hbefore', hsame⟩
    exact invoke_spec hbefore' (hsame.trans (hcreated operation rfl)) actor applicationId
      deploymentId request.action lease

/-! ## A lost answer -/

/-- A service for concrete runs, whose client can decode no response. -/
def sampleService : GatewayApplicationMutationService where
  host := plainHost
  gateway := {}
  parse := fun _ => none

/-- An application and its deployment. -/
def sampleApplicationId : JsString := js "11111111-1111-4111-8111-111111111111"

@[inherit_doc sampleApplicationId]
def sampleDeploymentId : JsString := js "22222222-2222-4222-8222-222222222222"

/-- A request to start the application. -/
def sampleRequest : ApplicationMutationRequest := ⟨.start, js "start-key-1"⟩

/-- The registry's record of the application. -/
def sampleRegistration : RegistryApplicationSnapshotReadRecord where
  application := ⟨sampleApplicationId, some (js "docker"), some .zimaos, some (js "app"), some false, none⟩
  deployment := some ⟨sampleDeploymentId, 0⟩
  services := []
  runtimeContainers := []

/-- The daemon accepts connection and frame, and does not answer in time. -/
def silentDaemon : RuntimeExchange where
  requestId := js "33333333-3333-4333-8333-333333333333"
  startTime := 2
  attempts := [⟨2, [.connect, .timer], 30002⟩]
  inProgress := true

/-- The environment of the run: no one else calls the repository. -/
def lostAnswer : List GatewayChoice :=
  [ .snapshot (.ok (some sampleRegistration)), .time 1, .id (js "op"), .after [], .after [],
    .time 2, .time 2, .after [], .exchange silentDaemon, .time 30003, .time 30003, .after [] ]

/-- The claim of another mutation of the application, made after the run. -/
def nextClaim : RepositoryCall :=
  .claim
    { plan :=
        { operationId := js "next", actor := ⟨js "actor", .operator⟩, action := .stop,
          target := ⟨sampleApplicationId, none, none⟩, executionDomain := SupportedDomain.docker,
          operationKey := applicationKey sampleApplicationId, idempotencyKey := js "stop-key-1" }
      fingerprint := js "fingerprint"
      now := 30004
      idempotencyExpiresAt := 90000000
      deadlineAt := 60004 }

/-- Whether another mutation of the application gets its lease at once. -/
def nextStarts (r : Repository) : Bool :=
  match ((r.run plainHost [nextClaim]).acquireLease (applicationKey sampleApplicationId) (js "next")
    30004 150004).1 with
  | .ok (some _) => true
  | _ => false

/-- What the run leaves. -/
theorem lostAnswer_leaves :
    ((sampleService.perform ⟨js "actor", .operator⟩ sampleApplicationId sampleRequest).eval
      (exec sampleService) { repository := initial [] } lostAnswer).map
        (fun (_, w, _) => (w.threw, w.outcomeUnknown sampleService, nextStarts w.repository)) =
      some (false, true, true) := by
  decide +kernel

/-! ## The result -/

/-- An execution of `perform` in which no repository call threw records an unknown outcome as
`INDETERMINATE` under a held lease exactly when the outcome is not unknown. When it is unknown, the
operation ended `SUCCEEDED`, `FAILED` or `TIMED_OUT` and its key has no lock. -/
theorem honest_outcome_iff {repository : Repository} (hreachable : Reachable service.host repository)
    {actor : PlanActor} {applicationId : JsString} {request : ApplicationMutationRequest}
    {choices rest : List GatewayChoice}
    {result : Except MutationServiceFailure ApplicationMutationOperationResponse}
    (heval : (service.perform actor applicationId request).eval (exec service)
      { repository := repository } choices = some (result, w, rest)) (hthrew : w.threw = false) :
    (w.HonestOutcome service ↔ w.outcomeUnknown service = false) ∧
      (w.outcomeUnknown service = true → w.Released) := by
  obtain ⟨auditFaults, hrun⟩ := hreachable
  have hbefore : Before { repository := repository } := ⟨hrun.wf (initial_wf auditFaults), rfl⟩
  have hending : w.Ending := (perform_spec hbefore actor applicationId request).eval heval
  have hreleased : w.outcomeUnknown service = true → w.Released := hending.released hthrew
  refine ⟨⟨fun hhonest => ?_, fun hknown hunknown => ?_⟩, hreleased⟩
  · by_contra hunknown
    rw [Bool.not_eq_false] at hunknown
    exact (hreleased hunknown).not_honest hunknown hhonest
  · rw [hknown] at hunknown
    cases hunknown

/-- The outcome of the run with the silent daemon is unknown. -/
theorem honest_outcome_iff_lostAnswer :
    ∃ w : GatewayWorld, w.threw = false ∧ w.outcomeUnknown sampleService = true ∧ w.Released := by
  obtain ⟨⟨result, w, rest⟩, heval, hfacts⟩ := Option.map_eq_some_iff.mp lostAnswer_leaves
  simp only [Prod.mk.injEq] at hfacts
  obtain ⟨hthrew, hunknown, -⟩ := hfacts
  have hreachable : Reachable sampleService.host (initial []) := ⟨[], .refl⟩
  exact ⟨w, hthrew, hunknown, (honest_outcome_iff hreachable heval hthrew).2 hunknown⟩

/-- A start request whose frame was not answered before the deadline: no repository call threw and
the outcome is unknown, yet the operation ended `FAILED` or `TIMED_OUT` without a lock, and another
mutation of the application gets its lease at once. -/
theorem unanswered_request_releases_lease :
    ∃ result w rest, (sampleService.perform ⟨js "actor", .operator⟩ sampleApplicationId
        sampleRequest).eval (exec sampleService) { repository := initial [] } lostAnswer =
          some (result, w, rest) ∧
      w.threw = false ∧ w.outcomeUnknown sampleService = true ∧ ¬ w.HonestOutcome sampleService ∧
      w.Released ∧ nextStarts w.repository = true := by
  obtain ⟨⟨result, w, rest⟩, heval, hfacts⟩ := Option.map_eq_some_iff.mp lostAnswer_leaves
  simp only [Prod.mk.injEq] at hfacts
  obtain ⟨hthrew, hunknown, hnext⟩ := hfacts
  have hbefore : Before { repository := initial [] } := ⟨initial_wf [], rfl⟩
  have hending : w.Ending :=
    (perform_spec hbefore _ sampleApplicationId sampleRequest).eval heval
  have hreleased := hending.released hthrew hunknown
  exact ⟨result, w, rest, heval, hthrew, hunknown, hreleased.not_honest hunknown, hreleased, hnext⟩

end GatewayApplicationMutationService

end ZimaControl
