import AgentFabric.Lib.Threads
import AgentFabric.Store.Ops

/-!
# The supervisor runtime: its calls

`SupervisorRuntime` of `runtime.py` runs as coroutines over one database.  Each call below is one transaction, one
query or one request to an adapter; between two calls every other coroutine of every runtime may run, and a process
may crash.  Time only moves forward.
-/

namespace AgentFabric.Runtime

open AgentFabric.Lib AgentFabric.Store

/-! ## The adapter boundary -/

/-- The observations that leave a job open. -/
def uncertainState : ReconciliationState → Bool
  | .knownRunning | .providerUnreachable | .unknown => true
  | _ => false

/-- What an adapter raises. -/
inductive AdapterError where
  | launchRejected (statusCode : Nat)
  | outcomeUncertain (state : ReconciliationState) (uncertain : uncertainState state = true)
  | unsafeRequest
  | unavailable
  | other (message : String)
deriving DecidableEq, Repr

structure WorkerJobCapabilities where
  supportsReconcile : Bool := false
  supportsResume : Bool := false
  supportsCancel : Bool := false
  supportsProviderIdempotency : Bool := false
  supportsStreamReconnect : Bool := false
  supportsRepeatableCollect : Bool := false
  supportsIdempotentLaunchLookup : Bool := false
  supportsDurableLaunchRegistry : Bool := false
deriving DecidableEq, Repr

/-- What an adapter says about itself at one moment. -/
structure Contract where
  adapterType : String
  adapterInstanceId : String
  protocolVersion : Nat
  capabilities : WorkerJobCapabilities
deriving DecidableEq, Repr

structure WorkerJobHandle where
  runId : String
  adapterType : String
  adapterInstanceId : String
  providerJobId : String
  providerSessionId : Option String
  runtimePid : Option Nat
  runtimeHost : Option String
  processIdentity : Option String
  schemaVersion : Nat
  metadata : String
  named : blank providerJobId = false
  versioned : 1 ≤ schemaVersion

instance : DecidableEq WorkerJobHandle := fun a b =>
  decidable_of_iff (a.runId = b.runId ∧ a.adapterType = b.adapterType ∧ a.adapterInstanceId = b.adapterInstanceId ∧
      a.providerJobId = b.providerJobId ∧ a.providerSessionId = b.providerSessionId ∧ a.runtimePid = b.runtimePid ∧
      a.runtimeHost = b.runtimeHost ∧ a.processIdentity = b.processIdentity ∧ a.schemaVersion = b.schemaVersion ∧
      a.metadata = b.metadata)
    (by cases a; cases b; simp only [WorkerJobHandle.mk.injEq])

def WorkerJobHandle.columns (handle : WorkerJobHandle) : JobHandle where
  handleVersion := handle.schemaVersion
  providerJobId := some handle.providerJobId
  providerSessionId := handle.providerSessionId
  runtimePid := handle.runtimePid
  runtimeHost := handle.runtimeHost
  runtimeIdentity := handle.processIdentity
  adapterMetadata := handle.metadata

structure WorkerResult where
  state : RunState
  pid : Option Nat
  exitCode : Option Int
  finalText : String
  error : Option String
deriving DecidableEq, Repr

/-! ## Processes and coroutines -/

/-- An adapter of the registry either has the durable job contract or is a plain one. -/
inductive AdapterKind where
  | legacy | durable
deriving DecidableEq, Repr

/-- The settings of one process. -/
structure Supervisor where
  runtimeId : String
  adapters : String → Option AdapterKind
  maxAttempts : Nat
  workerTimeout : Nat
  leaseTtl : Nat
  waitTimeout : Nat

/-- One run of a claimed attempt. -/
structure Assignment where
  taskId : String
  workerId : String
  runId : String
  attempt : Nat
  generation : Nat
deriving DecidableEq, Repr

/-- A job that recovery found, with the columns of its run and task. -/
structure RecoveredJob where
  runId : String
  job : JobRow
  attempt : Nat
  taskState : TaskState
deriving DecidableEq, Repr

/-- A coroutine of a process, with its arguments. -/
inductive Coroutine where
  /-- `_execute_task` -/
  | executeTask (supervisor : Supervisor) (taskId : String) (attempt generation : Nat) (assignments : List Assignment)
  /-- `_execute_worker` -/
  | executeWorker (supervisor : Supervisor) (assignment : Assignment)
  /-- `_reattach_provider_task`; `finalize` tells whether the attempt may be finished -/
  | reattach (supervisor : Supervisor) (taskId : String) (generation : Nat) (jobs : List RecoveredJob) (finalize : Bool)
  /-- `resume_one` -/
  | resumeOne (supervisor : Supervisor) (taskId : String) (generation : Nat) (job : RecoveredJob)

/-- Where a coroutine is: created, started, or ended, with or without an exception. -/
inductive Progress where
  | created (coroutine : Coroutine)
  | started
  | ended (raised : Bool)

/-! ## Usage audits -/

/-- What tells two usage observations apart; the measured amounts are carried along unread. -/
structure ResourceObservation where
  source : String
  quotaPoolId : String
  metadata : String
deriving DecidableEq, Repr

/-- An observer of the resource usage, and what it answers at one moment. -/
structure UsageObserver where
  name : String
  requiresInference : Bool
  answer : Except String (List ResourceObservation)

/-- A row of `post_task_usage_audits` with the snapshots that it adds to the ledger. -/
structure AuditRow where
  taskId : String
  terminalState : TaskState
  observations : List ResourceObservation
  errors : List String
deriving DecidableEq, Repr

/-- The observations of the invocations, each once. -/
def localObservations (telemetry : List ResourceObservation) : List ResourceObservation :=
  telemetry.foldl (fun collected o => if o ∈ collected then collected else collected ++ [o]) []

/-- An observer that needs inference is not asked, and one that fails is noted. -/
def UsageObserver.error (o : UsageObserver) : Option String :=
  if o.requiresInference then some (o.name ++ ":skippedInferenceRequired")
  else match o.answer with
    | .ok _ => none
    | .error kind => some (o.name ++ ":" ++ kind)

def UsageObserver.observed (o : UsageObserver) : List ResourceObservation :=
  if o.requiresInference then [] else o.answer.toOption.getD []

/-- `_unknown_observation`, for an audit of a whole task. -/
def unknownObservation (taskId : String) : ResourceObservation := ⟨"postTaskAudit", "unknown:unknown:" ++ taskId, ""⟩

/-- What an audit of a task records; an audit without observations says so. -/
def collectObservations (taskId : String) (telemetry : List ResourceObservation) (observers : List UsageObserver) :
    List ResourceObservation :=
  let collected := localObservations telemetry ++ observers.flatMap UsageObserver.observed
  if collected.isEmpty then [unknownObservation taskId] else collected

/-! ## Calls -/

/-- Why a launch is made: the run was just activated, or a recovery replays it.  A replay records what the persisted
job and the current adapter say about provider idempotency. -/
inductive LaunchBasis where
  | activation
  | replay (persisted current : Bool)
deriving DecidableEq, Repr

/-- Who resumes a job: the execution that launched it, or a recovery. -/
inductive ResumeSite where
  | launch | reattachment
deriving DecidableEq, Repr

inductive Call where
  | store (op : StoreOp)
  | read
  | leaseIsCurrent (taskId ownerId : String) (generation : Nat)
  | reconcilableJobs
  | isActive (taskId : String)
  | schedule (taskId : String)
  | contract (workerId : String)
  | negotiate (workerId : String)
  | startJob (workerId runId idempotencyKey : String) (basis : LaunchBasis)
  | execute (workerId runId : String)
  | resumeJob (workerId : String) (handle : JobHandle) (runId : String) (site : ResumeSite)
  | reconcileJob (workerId : String) (handle : JobHandle) (runId : String)
  | collectJob (workerId : String) (handle : JobHandle) (runId : String)
  | cancelJob (workerId : String) (handle : JobHandle) (runId : String)
  | cancel (workerId runId : String)
  | account (runId : String)
  | auditByKey (key : String)
  | observeUsage (taskId : String)
  | recordAudit (key : String) (audit : AuditRow)
  | create (coroutines : List Coroutine)
  | begin (index : Nat)
  | finish (index : Nat) (raised : Bool)
  | gathered (indices : List Nat)

/-- The answer of the scheduler; without a selection, capacity may be missing for the moment only. -/
structure Decision where
  selectedWorkerIds : List String
  transientCapacity : Bool
deriving DecidableEq, Repr

/-- The identifiers that bookkeeping returns: evidence, sessions, models and telemetry are not read back. -/
structure Ledger where
  modelId : Option String
  sessionId : Option String
  evidencePath : String
deriving DecidableEq, Repr

abbrev Call.Reply : Call → Type
  | .store op => Except StoreError op.Reply
  | .read => Db
  | .leaseIsCurrent .. | .isActive _ => Bool
  | .reconcilableJobs => List RecoveredJob
  | .schedule _ => Decision
  | .contract _ => Contract
  | .negotiate _ => Except AdapterError Unit
  | .startJob .. => Except AdapterError WorkerJobHandle
  | .execute .. | .resumeJob .. | .collectJob .. => Except AdapterError WorkerResult
  | .reconcileJob .. => Except AdapterError ReconciliationState
  | .cancelJob .. | .cancel .. => Except AdapterError Bool
  | .account _ => Except AdapterError Ledger
  | .auditByKey _ => Option AuditRow
  | .observeUsage _ => List ResourceObservation × List String
  | .recordAudit .. => Except StoreError Unit
  | .create _ => List Nat
  | .begin _ => Option Coroutine
  | .finish .. => Unit
  | .gathered _ => Option (List Bool)

/-- What the outside answers at one call. -/
structure Environment where
  wait : Nat
  lag : Nat
  uuid : String → String
  active : Bool
  decision : Decision
  contract : Contract
  negotiated : Except AdapterError Unit
  handle : Except AdapterError WorkerJobHandle
  result : Except AdapterError WorkerResult
  observation : Except AdapterError ReconciliationState
  cancelled : Except AdapterError Bool
  ledger : Except AdapterError Ledger
  telemetry : List ResourceObservation := []
  observers : List UsageObserver := []

/-- No time passes, worker `w` is selected, and the plain adapters raise. -/
def Environment.failing : Environment where
  wait := 0
  lag := 0
  uuid := id
  active := false
  decision := ⟨["w"], false⟩
  contract := ⟨"plain", "plain-1", 1, {}⟩
  negotiated := .ok ()
  handle := .error .unavailable
  result := .error .unavailable
  observation := .ok .unknown
  cancelled := .ok false
  ledger := .ok ⟨none, none, "evidence"⟩

/-- The run of worker `w` completes. -/
def Environment.completing : Environment :=
  { Environment.failing with result := .ok ⟨.completed, none, some 0, "done", none⟩ }

structure World where
  db : Db
  clock : Nat
  coroutines : List Progress
  audits : Table String AuditRow

/-- The operation with the clock readings and the identifiers of the moment it runs; the timeout of a claim counts from
there. -/
def stamp (clock : Clock) (uuid : String → String) : StoreOp → StoreOp
  | .transitionTask taskId target version lease _ => .transitionTask taskId target version lease clock
  | .recordDispatchDeferred taskId reason detail timeout _ =>
    .recordDispatchDeferred taskId reason detail timeout clock.now
  | .addAcceptanceCriterion criterion _ => .addAcceptanceCriterion criterion clock.now
  | .setWorkerState workerId state resource model fence _ => .setWorkerState workerId state resource model fence clock
  | .claimTaskDispatch args =>
    .claimTaskDispatch
      { args with timeoutAt := args.timeoutAt.map (clock.now + ·), uuid := uuid, now := clock.now }
  | .heartbeatTaskExecutionLease taskId owner generation ttl _ =>
    .heartbeatTaskExecutionLease taskId owner generation ttl clock.now
  | .activateWorkerRun runId lease _ => .activateWorkerRun runId lease clock
  | .cancelTaskExecution taskId _ => .cancelTaskExecution taskId clock.now
  | .createWorkerRun taskId workerId attempt timeoutAt _ _ =>
    .createWorkerRun taskId workerId attempt timeoutAt (uuid workerId) clock.now
  | .transitionWorkerRun runId target detail lease _ => .transitionWorkerRun runId target detail lease clock
  | .prepareProviderJob runId adapterType instanceId capabilities lease _ _ =>
    .prepareProviderJob runId adapterType instanceId capabilities lease (uuid runId) clock
  | .markProviderJobLaunching runId lease _ => .markProviderJobLaunching runId lease clock
  | .bindProviderJobHandle runId adapterType instanceId handle lease _ =>
    .bindProviderJobHandle runId adapterType instanceId handle lease clock
  | .recordProviderJobObservation runId state lease _ => .recordProviderJobObservation runId state lease clock
  | .markProviderJobResultCollected runId state lease _ => .markProviderJobResultCollected runId state lease clock
  | .saveWorkerResult runId values lease _ => .saveWorkerResult runId values lease clock.lease
  | .finalizeProviderJobResult runId target detail release lease _ =>
    .finalizeProviderJobResult runId target detail release lease clock
  | .claimTaskReconciliation taskId owner ttl allowCancelled _ =>
    .claimTaskReconciliation taskId owner ttl allowCancelled clock.now
  | .interruptMissingProviderJob runId lease _ => .interruptMissingProviderJob runId lease clock
  | .requestExecutionEscalation runId code lease _ _ =>
    .requestExecutionEscalation runId code lease (uuid runId) clock
  | .resolveExecutionEscalations runId codes lease _ => .resolveExecutionEscalations runId codes lease clock.lease
  | .recordAdapterEvent runId pid lease _ => .recordAdapterEvent runId pid lease clock.lease
  | .recoverInterrupted taskIds _ => .recoverInterrupted taskIds clock.now
  | op => op

theorem reply_stamp (clock : Clock) (uuid : String → String) (op : StoreOp) :
    (stamp clock uuid op).Reply = op.Reply := by
  cases op <;> rfl

/-- `list_provider_jobs(reconcilable_only=True)`: the launched jobs of unowned work, and of cancelled work whose result
is still open. -/
def reconcilable (db : Db) (now : Nat) (runId : String) (job : JobRow) : Option RecoveredJob :=
  match db.runs.get? runId, db.tasks.get? job.taskId, db.workers.get? job.workerId with
  | some run, some task, some _ =>
    if ((run.state.active = true ∧ (task.state = .running ∨ task.state = .waiting)) ∨
        (run.state = .cancelled ∧ task.state = .cancelled ∧
          (job.resultCollectionState = .pending ∨ job.resultCollectionState = .uncertain))) ∧
        leaseLive db job.taskId now = false ∧ job.launchState ≠ .prepared then
      some ⟨runId, job, run.attempt, task.state⟩
    else none
  | _, _, _ => none

/-- `ORDER BY job.created_at,job.id`. -/
def reconcilableJobs (db : Db) (now : Nat) : List RecoveredJob :=
  (db.jobs.rows.filterMap fun e => reconcilable db now e.1 e.2).mergeSort fun a b =>
    decide (a.job.createdAt < b.job.createdAt) ||
      (decide (a.job.createdAt = b.job.createdAt) && decide (a.job.id ≤ b.job.id))

/-- Whether the coroutines have ended, and which of them raised. -/
def gathered (coroutines : List Progress) : List Nat → Option (List Bool)
  | [] => some []
  | k :: ks =>
    match coroutines[k]?, gathered coroutines ks with
    | some (.ended raised), some rest => some (raised :: rest)
    | _, _ => none

/-- The transaction of `record_audit`: a key is recorded once, for a task that exists. -/
def recordAudit (w : World) (key : String) (audit : AuditRow) : Except StoreError (Table String AuditRow) :=
  match w.audits.insert? key audit with
  | none => .ok w.audits
  | some audits => if (w.db.tasks.get? audit.taskId).isSome then .ok audits else .error (.keyError audit.taskId)

section

variable (dg : Digests)

/-- One transaction at its moment. -/
def transaction (db : Db) (clock : Clock) (uuid : String → String) (op : StoreOp) :
    Except StoreError op.Reply × Db :=
  match exec dg (stamp clock uuid op) db with
  | .ok (r, db') => (.ok (reply_stamp clock uuid op ▸ r), db')
  | .error e => (.error e, db)

def act (w : World) (env : Environment) : (c : Call) → c.Reply × World
  | .store op =>
    let (r, db) := transaction dg w.db ⟨w.clock + env.wait, w.clock + env.wait + env.lag⟩ env.uuid op
    (r, { w with db := db, clock := w.clock + env.wait + env.lag })
  | .read => (w.db, w)
  | .leaseIsCurrent taskId ownerId generation =>
    (leaseCurrent w.db taskId ownerId generation (timestamp (w.clock + env.wait)),
      { w with clock := w.clock + env.wait })
  | .reconcilableJobs =>
    (reconcilableJobs w.db (timestamp (w.clock + env.wait)), { w with clock := w.clock + env.wait })
  | .isActive _ => (env.active, w)
  | .schedule _ => (env.decision, w)
  | .contract _ => (env.contract, w)
  | .negotiate _ => (env.negotiated, w)
  | .startJob .. => (env.handle, w)
  | .execute .. => (env.result, w)
  | .resumeJob .. => (env.result, w)
  | .reconcileJob .. => (env.observation, w)
  | .collectJob .. => (env.result, w)
  | .cancelJob .. => (env.cancelled, w)
  | .cancel .. => (env.cancelled, w)
  | .account _ => (env.ledger, w)
  | .auditByKey key => (w.audits.get? key, w)
  | .observeUsage taskId =>
    ((collectObservations taskId env.telemetry env.observers, env.observers.filterMap UsageObserver.error), w)
  | .recordAudit key audit =>
    let recorded := recordAudit w key audit
    (recorded.map fun _ => (), { w with audits := recorded.toOption.getD w.audits })
  | .create coroutines =>
    (List.range' w.coroutines.length coroutines.length,
      { w with coroutines := w.coroutines ++ coroutines.map .created })
  | .begin index =>
    match w.coroutines[index]? with
    | some (.created coroutine) => (some coroutine, { w with coroutines := w.coroutines.set index .started })
    | _ => (none, w)
  | .finish index raised => ((), { w with coroutines := w.coroutines.set index (.ended raised) })
  | .gathered indices => (gathered w.coroutines indices, w)

def machine : Machine Nat World Call Call.Reply Environment where
  act _ w env c := act dg w env c

end

/-! ## Programs -/

inductive Raised where
  | store (error : StoreError)
  | adapter (error : AdapterError)
  | keyError (key : String)
  | runtimeError (message : String)
  | crashed
deriving DecidableEq, Repr

abbrev Program := Prog.Raising Raised Call Call.Reply

def ask (c : Call) : Program c.Reply := Prog.ask c

def store (op : StoreOp) : Program op.Reply := do
  Prog.result ((← ask (.store op)).mapError .store)

def answered {α : Type} (x : Except AdapterError α) : Program α := Prog.result (x.mapError .adapter)

/-- A row that the caller relies on. -/
def present {α : Type} (x : Option α) (key : String) : Program α := Prog.result (match x with
  | some a => .ok a
  | none => .error (.keyError key))

def getTask (taskId : String) : Program TaskRow := do
  present ((← ask .read).tasks.get? taskId) taskId

def getProviderJob (runId : String) : Program JobRow := do
  present ((← ask .read).jobs.get? runId) runId

/-- `list_worker_runs(task_id)`. -/
def listWorkerRuns (taskId : String) : Program (List (String × RunRow)) := do
  return (← ask .read).runs.rows.filter fun e => decide (e.2.taskId = taskId)

def account (runId : String) : Program Ledger := do
  answered (← ask (.account runId))

/-- `try: p finally: q`. -/
def ensuring {α : Type} (p : Program α) (q : Program Unit) : Program α := do
  let r ← Prog.attempt p
  q
  Prog.result r

/-- `asyncio.gather`: create the coroutines and wait until all of them have ended.  A process that runs out of polls has
crashed here. -/
def awaitAll (indices : List Nat) : Nat → Program (List Bool)
  | 0 => throw .crashed
  | polls + 1 => do
    match ← ask (.gathered indices) with
    | some raised => return raised
    | none => awaitAll indices polls

def gather (coroutines : List Coroutine) (polls : Nat) : Program (List Bool) := do
  awaitAll (← ask (.create coroutines)) polls

end AgentFabric.Runtime
