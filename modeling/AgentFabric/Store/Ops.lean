import AgentFabric.Store.Goals
import AgentFabric.Store.Recovery

/-!
# The store as a state machine

All transactions of the store as the operations of one machine, with the tables that each of them writes.
-/

namespace AgentFabric.Store

open AgentFabric.Lib

/-- Every operation that writes a modelled table, with its arguments and clock readings. -/
inductive StoreOp where
  | createTask (task : NewTask)
  | addTaskDependency (taskId dependsOnTaskId : String)
  | transitionTask (taskId : String) (target : TaskState) (expectedVersion : Option Nat) (lease : LeaseArgs)
      (clock : Clock)
  | recordDispatchDeferred (taskId reasonCode detail : String) (waitTimeout now : Nat)
  | addAcceptanceCriterion (criterion : NewCriterion) (now : Nat)
  | bindTaskVerificationScope (binding : ScopeBinding)
  | recordVerification (verification : NewVerification)
  | applyTaskVerification (call : VerificationCall)
  | upsertWorker (workerId : String) (worker : WorkerRow)
  | setWorkerState (workerId : String) (state : WorkerState) (resourceState : Option ResourceState)
      (modelId : Option String) (fence : WorkerFence) (clock : Clock)
  | claimWorkers (workerIds : List String)
  | claimTaskDispatch (args : DispatchArgs)
  | heartbeatTaskExecutionLease (taskId ownerId : String) (generation ttl now : Nat)
  | releaseTaskExecutionLease (taskId ownerId : String) (generation : Nat)
  | activateWorkerRun (runId : String) (lease : LeaseArgs) (clock : Clock)
  | cancelTaskExecution (taskId : String) (now : Nat)
  | createWorkerRun (taskId workerId : String) (attempt : Nat) (timeoutAt : Option Nat) (uuid : String) (now : Nat)
  | transitionWorkerRun (runId : String) (target : RunState) (detail : RunDetail) (lease : LeaseArgs) (clock : Clock)
  | prepareProviderJob (runId adapterType adapterInstanceId : String) (capabilities : JobCapabilities)
      (lease : HeldLease) (uuid : String) (clock : Clock)
  | markProviderJobLaunching (runId : String) (lease : HeldLease) (clock : Clock)
  | bindProviderJobHandle (runId adapterType adapterInstanceId : String) (handle : JobHandle) (lease : HeldLease)
      (clock : Clock)
  | recordProviderJobObservation (runId : String) (state : ReconciliationState) (lease : HeldLease) (clock : Clock)
  | markProviderJobResultCollected (runId : String) (terminalState : RunState) (lease : HeldLease) (clock : Clock)
  | saveWorkerResult (runId : String) (values : ResultValues) (lease : LeaseArgs) (clock : Nat)
  | finalizeProviderJobResult (runId : String) (target : RunState) (detail : RunDetail) (release : WorkerRelease)
      (lease : HeldLease) (clock : Clock)
  | claimTaskReconciliation (taskId ownerId : String) (ttl : Nat) (allowCancelled : Bool) (now : Nat)
  | interruptMissingProviderJob (runId : String) (lease : HeldLease) (clock : Clock)
  | requestExecutionEscalation (runId : String) (code : EscalationCode) (lease : HeldLease) (uuid : String)
      (clock : Clock)
  | resolveExecutionEscalations (runId : String) (codes : Option (List EscalationCode)) (lease : HeldLease)
      (clock : Nat)
  | recordAdapterEvent (runId : String) (pid : Option Nat) (lease : LeaseArgs) (clock : Nat)
  | recoverInterrupted (taskIds : Option (List String)) (now : Nat)
  | goal (op : GoalOp)

/-- What an operation returns. -/
abbrev StoreOp.Reply : StoreOp → Type
  | .createTask .. | .addTaskDependency .. | .transitionTask .. | .upsertWorker .. | .setWorkerState ..
  | .transitionWorkerRun .. | .saveWorkerResult .. | .finalizeProviderJobResult ..
  | .interruptMissingProviderJob .. | .recordAdapterEvent .. => Unit
  | .recordDispatchDeferred .. | .claimWorkers .. | .heartbeatTaskExecutionLease ..
  | .releaseTaskExecutionLease .. | .activateWorkerRun .. | .cancelTaskExecution .. => Bool
  | .addAcceptanceCriterion .. | .bindTaskVerificationScope .. | .recordVerification .. | .createWorkerRun ..
  | .requestExecutionEscalation .. => String
  | .applyTaskVerification .. => TaskState
  | .claimTaskDispatch .. => Option DispatchClaim
  | .prepareProviderJob .. | .markProviderJobLaunching .. | .bindProviderJobHandle ..
  | .recordProviderJobObservation .. | .markProviderJobResultCollected .. => JobRow
  | .claimTaskReconciliation .. => Option Nat
  | .resolveExecutionEscalations .. => Nat
  | .recoverInterrupted .. => Nat × Nat
  | .goal op => op.Reply

variable (dg : Digests)

/-- One transaction. -/
def exec : (op : StoreOp) → Db → Except StoreError (op.Reply × Db)
  | .createTask task, db => createTask db task
  | .addTaskDependency taskId dependsOn, db => addTaskDependency db taskId dependsOn
  | .transitionTask taskId target version lease clock, db => transitionTask db taskId target version lease clock
  | .recordDispatchDeferred taskId reason detail timeout now, db =>
    recordDispatchDeferred db taskId reason detail timeout now
  | .addAcceptanceCriterion criterion now, db => addAcceptanceCriterion db criterion now
  | .bindTaskVerificationScope binding, db => bindTaskVerificationScope dg db binding
  | .recordVerification verification, db => recordVerification db verification
  | .applyTaskVerification call, db => applyTaskVerification dg db call
  | .upsertWorker workerId worker, db => upsertWorker db workerId worker
  | .setWorkerState workerId state resource model fence clock, db =>
    setWorkerState db workerId state resource model fence clock
  | .claimWorkers workerIds, db => claimWorkers db workerIds
  | .claimTaskDispatch args, db => claimTaskDispatch dg db args
  | .heartbeatTaskExecutionLease taskId owner generation ttl now, db =>
    heartbeatTaskExecutionLease db taskId owner generation ttl now
  | .releaseTaskExecutionLease taskId owner generation, db => releaseTaskExecutionLease db taskId owner generation
  | .activateWorkerRun runId lease clock, db => activateWorkerRun db runId lease clock
  | .cancelTaskExecution taskId now, db => cancelTaskExecution db taskId now
  | .createWorkerRun taskId workerId attempt timeoutAt uuid now, db =>
    createWorkerRun dg db taskId workerId attempt timeoutAt uuid now
  | .transitionWorkerRun runId target detail lease clock, db => transitionWorkerRun db runId target detail lease clock
  | .prepareProviderJob runId adapterType instanceId capabilities lease uuid clock, db =>
    prepareProviderJob db runId adapterType instanceId capabilities lease uuid clock
  | .markProviderJobLaunching runId lease clock, db => markProviderJobLaunching db runId lease clock
  | .bindProviderJobHandle runId adapterType instanceId handle lease clock, db =>
    bindProviderJobHandle db runId adapterType instanceId handle lease clock
  | .recordProviderJobObservation runId state lease clock, db => recordProviderJobObservation db runId state lease clock
  | .markProviderJobResultCollected runId state lease clock, db =>
    markProviderJobResultCollected db runId state lease clock
  | .saveWorkerResult runId values lease clock, db => saveWorkerResult db runId values lease clock
  | .finalizeProviderJobResult runId target detail release lease clock, db =>
    finalizeProviderJobResult db runId target detail release lease clock
  | .claimTaskReconciliation taskId owner ttl allowCancelled now, db =>
    claimTaskReconciliation db taskId owner ttl allowCancelled now
  | .interruptMissingProviderJob runId lease clock, db => interruptMissingProviderJob db runId lease clock
  | .requestExecutionEscalation runId code lease uuid clock, db =>
    requestExecutionEscalation db runId code lease uuid clock
  | .resolveExecutionEscalations runId codes lease clock, db => resolveExecutionEscalations db runId codes lease clock
  | .recordAdapterEvent runId pid lease clock, db => recordAdapterEvent db runId pid lease clock
  | .recoverInterrupted taskIds now, db => recoverInterrupted db taskIds now
  | .goal op, db => execGoal op db

/-- The database after an operation; a raised one leaves it as it was. -/
def apply (db : Db) (op : StoreOp) : Db :=
  match exec dg op db with
  | .ok (_, db') => db'
  | .error _ => db

/-- The database after a sequence of operations. -/
def runOps (db : Db) (ops : List StoreOp) : Db := ops.foldl (apply dg) db

/-! ## The tables that an operation writes -/

def StoreOp.writesLeases : StoreOp → Bool
  | .claimTaskDispatch .. | .heartbeatTaskExecutionLease .. | .releaseTaskExecutionLease ..
  | .cancelTaskExecution .. | .claimTaskReconciliation .. | .recoverInterrupted .. => true
  | _ => false

def StoreOp.writesTasks : StoreOp → Bool
  | .createTask .. | .addTaskDependency .. | .transitionTask .. | .recordDispatchDeferred ..
  | .bindTaskVerificationScope .. | .applyTaskVerification .. | .claimTaskDispatch .. | .cancelTaskExecution ..
  | .createWorkerRun .. | .interruptMissingProviderJob .. | .recoverInterrupted .. => true
  | _ => false

def StoreOp.writesRuns : StoreOp → Bool
  | .claimTaskDispatch .. | .activateWorkerRun .. | .cancelTaskExecution .. | .createWorkerRun ..
  | .transitionWorkerRun .. | .finalizeProviderJobResult .. | .interruptMissingProviderJob ..
  | .recordAdapterEvent .. | .recoverInterrupted .. => true
  | _ => false

def StoreOp.writesWorkers : StoreOp → Bool
  | .upsertWorker .. | .setWorkerState .. | .claimWorkers .. | .claimTaskDispatch .. | .activateWorkerRun ..
  | .cancelTaskExecution .. | .finalizeProviderJobResult .. | .interruptMissingProviderJob ..
  | .recoverInterrupted .. => true
  | _ => false

def StoreOp.writesJobs : StoreOp → Bool
  | .cancelTaskExecution .. | .prepareProviderJob .. | .markProviderJobLaunching .. | .bindProviderJobHandle ..
  | .recordProviderJobObservation .. | .markProviderJobResultCollected .. | .finalizeProviderJobResult ..
  | .interruptMissingProviderJob .. => true
  | _ => false

def StoreOp.writesScopes : StoreOp → Bool
  | .bindTaskVerificationScope .. => true
  | _ => false

def StoreOp.writesResults : StoreOp → Bool
  | .saveWorkerResult .. => true
  | _ => false

def StoreOp.writesDependencies : StoreOp → Bool
  | .addTaskDependency .. => true
  | _ => false

def StoreOp.writesGoals : StoreOp → Bool
  | .goal .. => true
  | _ => false

def StoreOp.writesEscalations : StoreOp → Bool
  | .requestExecutionEscalation .. | .resolveExecutionEscalations .. => true
  | _ => false

/-- The tables outside of the write sets are unchanged. -/
structure Frame (op : StoreOp) (db db' : Db) : Prop where
  leases : op.writesLeases = false → db'.leases = db.leases
  tasks : op.writesTasks = false → db'.tasks = db.tasks
  runs : op.writesRuns = false → db'.runs = db.runs
  workers : op.writesWorkers = false → db'.workers = db.workers
  jobs : op.writesJobs = false → db'.jobs = db.jobs
  scopes : op.writesScopes = false → db'.scopes = db.scopes
  scopeItems : op.writesScopes = false → db'.scopeItems = db.scopeItems
  results : op.writesResults = false → db'.results = db.results
  dependencies : op.writesDependencies = false → db'.dependencies = db.dependencies
  goals : op.writesGoals = false → db'.goals = db.goals
  iterations : op.writesGoals = false → db'.iterations = db.iterations
  actions : op.writesGoals = false → db'.actions = db.actions
  escalations : op.writesEscalations = false → db'.escalations = db.escalations

theorem Frame.refl (op : StoreOp) (db : Db) : Frame op db db := by
  constructor <;> intros <;> rfl

variable {dg}

/-- Every operation stays inside of its write set. -/
theorem exec_frame {op : StoreOp} {db db' : Db} {r : op.Reply} (h : exec dg op db = .ok (r, db')) :
    Frame op db db' := by
  cases op with
  | createTask =>
    obtain ⟨_, _, rfl⟩ := createTask_ok h
    constructor <;> simp [StoreOp.writesTasks]
  | addTaskDependency =>
    rcases addTaskDependency_ok h with rfl | ⟨_, _, _, _, _, _, rfl⟩
    · exact Frame.refl _ _
    · constructor <;> simp [StoreOp.writesTasks, StoreOp.writesDependencies]
  | transitionTask =>
    obtain ⟨_, _, _, _, rfl⟩ := transitionTask_ok h
    constructor <;> simp [StoreOp.writesTasks]
  | recordDispatchDeferred =>
    rcases recordDispatchDeferred_ok h with ⟨_, rfl⟩ | ⟨_, _, _, rfl⟩ <;>
    constructor <;> simp [StoreOp.writesTasks]
  | addAcceptanceCriterion =>
    obtain ⟨_, rfl⟩ := addAcceptanceCriterion_ok h
    constructor <;> simp
  | bindTaskVerificationScope =>
    obtain ⟨_, _, _, _, _, _, _, _, _, _, _, _, _, rfl⟩ := bindScope_ok dg h
    constructor <;> simp [StoreOp.writesTasks, StoreOp.writesScopes]
  | recordVerification =>
    obtain ⟨_, _, rfl⟩ := recordVerification_ok h
    constructor <;> simp
  | applyTaskVerification =>
    obtain ⟨_, _, _, _, _, _, _, _, _, rfl⟩ := applyTaskVerification_ok dg h
    constructor <;> simp [StoreOp.writesTasks]
  | upsertWorker =>
    cases h
    constructor <;> simp [StoreOp.writesWorkers]
  | setWorkerState =>
    obtain ⟨_, rfl⟩ := setWorkerState_ok h
    constructor <;> simp [StoreOp.writesWorkers]
  | claimWorkers =>
    rcases claimWorkers_ok h with ⟨_, rfl⟩ | ⟨_, _, rfl⟩
    · exact Frame.refl _ _
    · constructor <;> simp [StoreOp.writesWorkers]
  | claimTaskDispatch =>
    rcases claimTaskDispatch_ok h with ⟨_, rfl⟩ | ⟨_, _, _, _, _, _, _, _, _, _, _, rfl⟩
    · exact Frame.refl _ _
    · constructor <;>
      simp [StoreOp.writesLeases, StoreOp.writesTasks, StoreOp.writesRuns, StoreOp.writesWorkers]
  | heartbeatTaskExecutionLease =>
    rcases heartbeat_ok h with ⟨_, rfl⟩ | ⟨_, _, rfl⟩
    · exact Frame.refl _ _
    · constructor <;> simp [StoreOp.writesLeases]
  | releaseTaskExecutionLease =>
    rcases release_ok h with ⟨_, rfl⟩ | ⟨_, _, rfl⟩
    · exact Frame.refl _ _
    · constructor <;> simp [StoreOp.writesLeases]
  | activateWorkerRun =>
    obtain ⟨_, _, _, _, _, ⟨_, rfl⟩ | ⟨_, _, _, _, rfl⟩⟩ := activateWorkerRun_ok h
    · exact Frame.refl _ _
    · constructor <;> simp [StoreOp.writesRuns, StoreOp.writesWorkers]
  | cancelTaskExecution =>
    obtain ⟨_, _, ⟨_, _, rfl⟩ | ⟨_, _, rfl⟩⟩ := cancelTaskExecution_ok h
    · exact Frame.refl _ _
    · constructor <;>
      simp [StoreOp.writesLeases, StoreOp.writesTasks, StoreOp.writesRuns, StoreOp.writesWorkers, StoreOp.writesJobs]
  | createWorkerRun =>
    obtain ⟨_, _, _, _, _, _, rfl⟩ := createWorkerRun_ok h
    constructor <;> simp [StoreOp.writesTasks, StoreOp.writesRuns]
  | transitionWorkerRun =>
    obtain ⟨_, _, _, _, rfl⟩ := transitionWorkerRun_ok h
    constructor <;> simp [StoreOp.writesRuns]
  | prepareProviderJob =>
    obtain ⟨_, _, _, ⟨_, _, _, rfl⟩ | ⟨_, _, _, _, rfl⟩⟩ := prepareProviderJob_ok h
    · exact Frame.refl _ _
    · constructor <;> simp [StoreOp.writesJobs]
  | markProviderJobLaunching =>
    obtain ⟨_, _, _, ⟨_, _, rfl⟩ | ⟨_, _, rfl⟩⟩ := markProviderJobLaunching_ok h
    · exact Frame.refl _ _
    · constructor <;> simp [StoreOp.writesJobs, writeJob]
  | bindProviderJobHandle =>
    obtain ⟨_, _, _, ⟨_, _, rfl⟩ | ⟨_, _, _, rfl⟩⟩ := bindProviderJobHandle_ok h
    · exact Frame.refl _ _
    · constructor <;> simp [StoreOp.writesJobs, writeJob]
  | recordProviderJobObservation =>
    obtain ⟨_, _, _, ⟨_, _, rfl⟩ | ⟨_, _, rfl⟩⟩ := recordProviderJobObservation_ok h
    · exact Frame.refl _ _
    · constructor <;> simp [StoreOp.writesJobs, writeJob]
  | markProviderJobResultCollected =>
    obtain ⟨_, _, _, _, ⟨_, _, rfl⟩ | ⟨_, _, rfl⟩⟩ := markProviderJobResultCollected_ok h
    · exact Frame.refl _ _
    · constructor <;> simp [StoreOp.writesJobs, writeJob]
  | saveWorkerResult =>
    obtain ⟨_, _, _, ⟨_, rfl⟩ | ⟨_, _, rfl⟩⟩ := saveWorkerResult_ok h
    · exact Frame.refl _ _
    · constructor <;> simp [StoreOp.writesResults]
  | finalizeProviderJobResult =>
    obtain ⟨_, _, _, _, _, _, _, _, _, _, _, rfl⟩ := finalizeProviderJobResult_ok h
    constructor <;> simp [StoreOp.writesRuns, StoreOp.writesWorkers, StoreOp.writesJobs]
  | claimTaskReconciliation =>
    rcases claimTaskReconciliation_ok h with ⟨_, rfl⟩ | ⟨_, _, _, _, _, rfl⟩
    · exact Frame.refl _ _
    · constructor <;> simp [StoreOp.writesLeases]
  | interruptMissingProviderJob =>
    obtain ⟨_, _, _, _, _, _, _, ⟨_, rfl⟩ | ⟨_, rfl⟩⟩ := interruptMissingProviderJob_ok h
    · exact Frame.refl _ _
    · constructor <;>
      simp [StoreOp.writesTasks, StoreOp.writesRuns, StoreOp.writesWorkers, StoreOp.writesJobs]
  | requestExecutionEscalation =>
    obtain ⟨_, _, _, _, rfl⟩ := requestExecutionEscalation_ok h
    constructor <;> simp [StoreOp.writesEscalations]
  | resolveExecutionEscalations =>
    obtain ⟨_, _, _, _, rfl⟩ := resolveExecutionEscalations_ok h
    constructor <;> simp [StoreOp.writesEscalations]
  | recordAdapterEvent =>
    obtain ⟨_, _, _, rfl⟩ := recordAdapterEvent_ok h
    constructor <;> simp [StoreOp.writesRuns]
  | recoverInterrupted =>
    cases h
    constructor <;>
    simp [StoreOp.writesLeases, StoreOp.writesTasks, StoreOp.writesRuns, StoreOp.writesWorkers]
  | goal =>
    obtain ⟨_, _, _, _, rfl⟩ := (execGoal_change h).frame
    constructor <;> simp [StoreOp.writesGoals]

/-! ## Sequences of operations -/

theorem apply_cases (dg : Digests) (db : Db) (op : StoreOp) :
    apply dg db op = db ∨ ∃ r, exec dg op db = .ok (r, apply dg db op) := by
  unfold apply
  cases h : exec dg op db with
  | error => exact Or.inl rfl
  | ok p => exact Or.inr ⟨p.1, rfl⟩

@[simp] theorem runOps_nil (db : Db) : runOps dg db [] = db := rfl

@[simp] theorem runOps_cons (db : Db) (op : StoreOp) (ops : List StoreOp) :
    runOps dg db (op :: ops) = runOps dg (apply dg db op) ops := rfl

theorem runOps_append (db : Db) (ops ops' : List StoreOp) :
    runOps dg db (ops ++ ops') = runOps dg (runOps dg db ops) ops' := List.foldl_append ..

/-- **What every operation keeps, every sequence keeps.** -/
theorem runOps_invariant {P : Db → Prop}
    (step : ∀ {db db' : Db} {op : StoreOp} {r : op.Reply}, exec dg op db = .ok (r, db') → P db → P db')
    {db : Db} (hp : P db) : ∀ ops, P (runOps dg db ops)
  | [] => hp
  | op :: ops => by
    rw [runOps_cons]
    refine runOps_invariant step ?_ ops
    rcases apply_cases dg db op with h | ⟨r, h⟩
    · rw [h]; exact hp
    · exact step h hp

/-- **A preorder that every operation respects, every sequence respects.** -/
theorem runOps_relation {R : Db → Db → Prop} (refl : ∀ db, R db db) (trans : ∀ {a b c}, R a b → R b c → R a c)
    (step : ∀ {db db' : Db} {op : StoreOp} {r : op.Reply}, exec dg op db = .ok (r, db') → R db db')
    (db : Db) (ops : List StoreOp) : R db (runOps dg db ops) :=
  runOps_invariant (P := R db) (fun h hr => trans hr (step h)) (refl db) ops

end AgentFabric.Store
