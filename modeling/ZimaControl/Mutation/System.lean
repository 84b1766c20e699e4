import ZimaControl.Mutation.Services

/-!
# Performers, executors and recovery side by side

The services as jobs of a pool over one repository. Any number of performers and recovery passes may
be started at any time; a performer starts an execution and a verification. The environment decides
who makes the next call, what the clock, the id factories, the registry and Docker answer, and who
wins a race between work and timer. A job that is never scheduled again has crashed.

Besides the repository, the world remembers the repository calls in order, which job created an
operation, how jobs ended, and what became of each operation's Docker request.
-/

namespace ZimaControl

open InMemoryDurableMutationRepository

/-- What may run. -/
inductive Job
  /-- `ApplicationMutationOrchestrator.perform`. -/
  | perform (actor : Option PlanActor) (request : ActionRequest)
  /-- `MutationOperationService.perform`. -/
  | performPlain (actor : Option PlanActor) (request : ActionRequest)
  /-- `DockerActionExecutor.execute`. -/
  | execute (plan : ActionPlan) (context : MutationExecutionContext)
  /-- `DockerActionVerifier.verify`. -/
  | verify (plan : ActionPlan) (context : MutationExecutionContext)
  /-- `MutationRecoveryService.recover`. -/
  | recover
  /-- `MutationStepRecoveryService.recover`. -/
  | recoverSteps

/-- What a job returns. -/
inductive JobResult
  | application (outcome : ApplicationMutationOutcome)
  | plain (result : ActionResult) (replayed : Bool)
  | execution (result : ActionExecutionResult)
  | verification (result : VerificationResult)
  | recovered (count : ℕ)

/-- What became of the Docker request of an operation. -/
inductive RequestFate
  /-- It was not issued. -/
  | notIssued
  /-- It was issued and did not fail with effect `NONE`. -/
  | active
  /-- It failed with effect `NONE`. -/
  | refused
  deriving DecidableEq

/-- The shared state of all jobs, with what is remembered of the run. -/
structure World where
  repository : Repository
  /-- The repository calls so far. -/
  calls : List RepositoryCall
  /-- The jobs started so far. -/
  jobs : List Job
  /-- How a job ended, if it has. -/
  results : ℕ → Option (Except Failure JobResult)
  /-- The job that created an operation. -/
  claimant : JsString → Option ℕ
  /-- What became of the Docker request of an operation. -/
  fate : JsString → RequestFate

namespace World

/-- The world before anything has run. -/
def initial (auditFaults : List Bool) : World where
  repository := .initial auditFaults
  calls := []
  jobs := []
  results _ := none
  claimant _ := none
  fate _ := .notIssued

end World

/-- The choices of the environment. -/
inductive Choice
  /-- There is nothing to choose. -/
  | fixed
  | time (now : Timestamp)
  | id (value : JsString)
  | flag (value : Bool)
  | outcome (r : Except Failure Unit)
  | snapshot (r : Except Failure (Option RegistryApplicationSnapshotReadRecord))
  | evidence (r : Except Failure (Option AuthoritativeRuntimeTargetEvidence))
  | inspection (r : Except Failure DockerContainerInspection)
  /-- The work wins its race. -/
  | work
  /-- The timer wins its race. -/
  | timer

/-- The operation that a repository call created, if it did. -/
def createdOperation : (c : RepositoryCall) → Except Failure c.Answer → Option JsString
  | .claim _, .ok ⟨.created, operation⟩ => some operation.id
  | .claimParentWithStep _, .ok ⟨.created, value⟩ => some value.operation.id
  | _, _ => none

/-- Whether a Docker request failed with effect `NONE`. -/
def refusedWithoutEffect : Except Failure Unit → Bool
  | .error (.dockerGateway _ .none) => true
  | _ => false

namespace World

/-- The world after a repository call. -/
def afterCall (self : ℕ) (w : World) (c : RepositoryCall) (r : Except Failure c.Answer)
    (repository : Repository) : World :=
  { w with
    repository := repository
    calls := w.calls ++ [c]
    claimant := match createdOperation c r with
      | some id => Function.update w.claimant id (some self)
      | none => w.claimant }

/-- The world after a job is started. -/
def startJob (job : Job) (w : World) : World := { w with jobs := w.jobs ++ [job] }

/-- The world after a job has ended. -/
def endJob (i : ℕ) (r : Except Failure JobResult) (w : World) : World :=
  { w with results := Function.update w.results i (some r) }

/-- The world after a Docker request took a turn. -/
def setFate (operationId : JsString) (fate : RequestFate) (w : World) : World :=
  { w with fate := Function.update w.fate operationId fate }

/-- The outcome of an execution, if that is what the job was and it has ended. -/
def execution (w : World) (work : ℕ) : Option (Except Failure ActionExecutionResult) :=
  match w.results work with
  | some (.ok (.execution result)) => some (.ok result)
  | some (.error e) => some (.error e)
  | _ => none

/-- The outcome of a verification, if that is what the job was and it has ended. -/
def verification (w : World) (work : ℕ) : Option (Except Failure VerificationResult) :=
  match w.results work with
  | some (.ok (.verification result)) => some (.ok result)
  | some (.error e) => some (.error e)
  | _ => none

/-- How the world answers a call of a job under a choice of the environment. -/
def exec (config : ServiceConfig) (self : ℕ) (w : World) :
    (c : ServiceCall) → Choice → Option (Except Failure c.Answer × World)
  | .repository c, .fixed =>
    let outcome := c.exec config.host w.repository
    some (outcome.1, w.afterCall self c outcome.1 outcome.2)
  | .clock, .time now => some (.ok now, w)
  | .newId, .id value => some (.ok value, w)
  | .hit _, .outcome r => some (r, w)
  | .getApplicationSnapshot _, .snapshot r => some (r, w)
  | .getAuthoritativeEvidence _, .evidence r => some (r, w)
  | .startExecution plan context, .fixed =>
    some (.ok w.jobs.length, w.startJob (.execute plan context))
  | .raceExecution work, .work => (w.execution work).map fun r => (.ok (some r), w)
  | .raceExecution _, .timer => some (.ok none, w)
  | .startVerification plan _ context, .fixed =>
    some (.ok w.jobs.length, w.startJob (.verify plan context))
  | .raceVerification work, .work => (w.verification work).map fun r => (.ok (some r), w)
  | .raceVerification _, .timer => some (.ok none, w)
  | .aborted, .flag value => some (.ok value, w)
  | .inspect _, .inspection r => some (r, w)
  | .invoke operationId _ _, .fixed => some (.ok (), w.setFate operationId .active)
  | .settled operationId, .outcome r =>
    some (r, if refusedWithoutEffect r then w.setFate operationId .refused else w)
  | _, _ => none

end World

namespace Job

/-- The program of a job. -/
def body (config : ServiceConfig) : Job → Service JobResult
  | perform actor request =>
    .application <$> ApplicationMutationOrchestrator.perform config actor request
  | performPlain actor request => (fun (result, replayed) => .plain result replayed) <$>
    MutationOperationService.perform config actor request
  | execute plan context => .execution <$> DockerActionExecutor.execute config plan context
  | verify plan context => .verification <$> DockerActionVerifier.verify config plan context
  | recover => .recovered <$> MutationRecoveryService.recover config
  | recoverSteps => .recovered <$> MutationStepRecoveryService.recover config

/-- A performer or a recovery pass: what starts by itself. -/
def isService : Job → Bool
  | perform .. | performPlain .. | recover | recoverSteps => true
  | execute .. | verify .. => false

/-- A performer or a recovery pass of operations with steps. -/
def isStepService : Job → Bool
  | perform .. | recoverSteps => true
  | _ => false

end Job

/-- The machine of the services; `external` says which of them are in use. -/
def serviceMachine (config : ServiceConfig) (external : Job → Bool) :
    Machine ServiceCall ServiceCall.Answer Failure JobResult World Job Choice where
  body := Job.body config
  external := external
  jobs := World.jobs
  start := World.startJob
  exec := World.exec config
  finish := World.endJob

/-- A pool of services. -/
abbrev ServicePool := Pool ServiceCall ServiceCall.Answer Failure JobResult World

/-- What happens next in a pool of services. -/
abbrev ServiceLabel := PoolLabel Job Choice

/-- A pool in which nothing has run. -/
def ServicePool.initial (auditFaults : List Bool) : ServicePool := ⟨World.initial auditFaults, []⟩

namespace World

variable {config : ServiceConfig}

/-- An answered call changes the repository by the repository call it makes, or not at all. -/
theorem exec_repository {self : ℕ} {w w' : World} {c : ServiceCall} {choice : Choice}
    {r : Except Failure c.Answer} (h : w.exec config self c choice = some (r, w')) :
    w'.repository = w.repository ∧ w'.calls = w.calls ∨
      ∃ call : RepositoryCall, w'.repository = call.next config.host w.repository ∧
        w'.calls = w.calls ++ [call] := by
  unfold exec at h
  split at h
  case h_1 call => cases h; exact .inr ⟨call, rfl, rfl⟩
  case h_16 =>
    cases h
    left
    split_ifs <;> exact ⟨rfl, rfl⟩
  all_goals first
    | cases h
    | (simp only [Option.map_eq_some_iff] at h; obtain ⟨_, _, h⟩ := h; cases h)
  all_goals exact .inl ⟨rfl, rfl⟩

end World

/-- What happens next changes the repository by one call, or not at all. -/
theorem serviceMachine_next {config : ServiceConfig} {external : Job → Bool} {p p' : ServicePool}
    {l : ServiceLabel} (h : (serviceMachine config external).next p l = some p') :
    p'.world.repository = p.world.repository ∧ p'.world.calls = p.world.calls ∨
      ∃ call : RepositoryCall, p'.world.repository = call.next config.host p.world.repository ∧
        p'.world.calls = p.world.calls ++ [call] := by
  obtain ⟨_, -, rfl⟩ | ⟨_, _, _, _, _, _, -, hexec, rfl⟩ | ⟨_, _, -, rfl⟩ := Machine.next_cases h
  · exact .inl ⟨rfl, rfl⟩
  · exact World.exec_repository hexec
  · exact .inl ⟨rfl, rfl⟩

/-- Every run of the services makes a run of the repository. -/
theorem run_repository {config : ServiceConfig} {external : Job → Bool} {auditFaults : List Bool}
    {labels : List ServiceLabel} {p : ServicePool}
    (h : (serviceMachine config external).run (ServicePool.initial auditFaults) labels = some p) :
    p.world.repository =
      (initial auditFaults).run config.host p.world.calls := by
  refine Machine.run_induct h (fun p => p.world.repository =
    (initial auditFaults).run config.host p.world.calls) rfl
    fun _ _ _ hl hp => ?_
  obtain ⟨hrep, hcalls⟩ | ⟨call, hrep, hcalls⟩ := serviceMachine_next hl
  · rw [hrep, hcalls, hp]
  · simp [hrep, hcalls, hp, run]

end ZimaControl
