import AgentFabric.Store.Verification

/-!
# Workers, dispatch claims and worker runs

The transactions of `store.py` that reserve workers, create runs and cancel a task.
-/

namespace AgentFabric.Store

open AgentFabric.Lib

/-- `dict.fromkeys`: the first occurrences, in order. -/
def fromKeys : List String → List String
  | [] => []
  | x :: xs => x :: (fromKeys xs).filter fun y => decide (y ≠ x)

/-! ## Workers -/

def upsertWorker (db : Db) (workerId : String) (worker : WorkerRow) : Except StoreError (Unit × Db) :=
  .ok ((), { db with workers := db.workers.upsert workerId worker })

/-- The worker row with its state set; absent resource and model arguments keep the stored ones. -/
def WorkerRow.set (worker : WorkerRow) (state : WorkerState) (resourceState : Option ResourceState)
    (modelId : Option String) : WorkerRow where
  state := state
  resourceState := resourceState.getD worker.resourceState
  modelId := modelId <|> worker.modelId

def WorkerRow.withState (state : WorkerState) (worker : WorkerRow) : WorkerRow := { worker with state := state }

/-- Task, lease owner and generation that `set_worker_state` is fenced by; all of them or none. -/
structure WorkerFence where
  taskId : Option String
  lease : LeaseArgs
deriving DecidableEq, Repr

def requireWorkerFence (db : Db) (fence : WorkerFence) (clock : Nat) : Except StoreError Unit :=
  match fence.taskId, fence.lease.owner, fence.lease.generation with
  | some taskId, some owner, some generation => requireTaskExecutionLease db taskId owner generation clock
  | none, none, none => .ok ()
  | _, _, _ => .error (.valueError "task, lease owner, and generation must be supplied together")

def setWorkerState (db : Db) (workerId : String) (state : WorkerState) (resourceState : Option ResourceState)
    (modelId : Option String) (fence : WorkerFence) (clock : Clock) : Except StoreError (Unit × Db) := do
  let _ ← orRaise (db.workers.get? workerId) (.keyError workerId)
  requireWorkerFence db fence clock.lease
  return ((), { db with workers := db.workers.modify workerId fun w => w.set state resourceState modelId })

def allIdle (db : Db) (workerIds : List String) : Bool :=
  workerIds.all fun w => (db.workers.get? w).any fun row => decide (row.state = .idle)

/-- `UPDATE workers SET state='starting' WHERE id IN (…) AND state='idle'`. -/
def reserveWorkers (workers : Table String WorkerRow) (workerIds : List String) : Table String WorkerRow :=
  workers.updateWhere (fun w row => decide (w ∈ workerIds) && decide (row.state = .idle))
    (WorkerRow.withState .starting)

def claimWorkers (db : Db) (workerIds : List String) : Except StoreError (Bool × Db) :=
  let identities := fromKeys workerIds
  if identities = [] then .ok (false, db)
  else if allIdle db identities = false then .ok (false, db)
  else .ok (true, { db with workers := reserveWorkers db.workers identities })

/-! ## Claiming a task -/

structure DispatchArgs where
  taskId : String
  workerIds : List String
  expectedVersion : Nat
  timeoutAt : Option Nat
  leaseOwnerId : Option String
  leaseTtl : Nat
  maxAttempts : Option Nat
  uuid : String → String
  now : Nat

structure DispatchClaim where
  attempt : Nat
  runIds : List (String × String)
  leaseGeneration : Option Nat
  verificationScopeId : Option String
  taskDefinitionRevision : Nat
deriving DecidableEq, Repr

/-- Some prerequisite of the task has not succeeded. -/
def unsatisfiedDependency (db : Db) (taskId : String) : Bool :=
  db.dependencies.any fun e =>
    decide (e.1 = taskId) && (db.tasks.get? e.2).any fun row => decide (row.state ≠ .succeeded)

def startingRun (taskId workerId : String) (attempt : Nat) (timeoutAt : Option Nat) (scopeId : Option String)
    (revision now : Nat) : RunRow where
  taskId := taskId
  workerId := workerId
  state := .starting
  attempt := attempt
  timeoutAt := timeoutAt.map timestamp
  verificationScopeId := scopeId
  taskDefinitionRevision := some revision
  createdAt := now
  startedAt := none
  endedAt := none
  detail := .empty

/-- `UNIQUE(task_id, worker_id, attempt)` has a row for these values. -/
def attemptTaken (db : Db) (taskId workerId : String) (attempt : Nat) : Bool :=
  db.runs.any fun _ run =>
    decide (run.taskId = taskId) && decide (run.workerId = workerId) && decide (run.attempt = attempt)

/-- The new run of each claimed worker. -/
def claimedRuns (args : DispatchArgs) (attempt : Nat) (scopeId : Option String) (revision : Nat) :
    List (String × RunRow) :=
  (fromKeys args.workerIds).map fun w =>
    ("run-" ++ args.uuid w, startingRun args.taskId w attempt args.timeoutAt scopeId revision (timestamp args.now))

/-- The lease table after the claim; a claim without an owner grants no lease. -/
def claimLease (db : Db) (args : DispatchArgs) : Table String LeaseRow :=
  match args.leaseOwnerId with
  | some owner => grantLease db args.taskId owner args.leaseTtl args.now
  | none => db.leases

def TaskRow.claim (task : TaskRow) (now : Nat) : TaskRow :=
  { task with
    state := .running
    attemptCount := task.attemptCount + 1
    startedAt := task.startedAt <|> some now
    version := task.version + 1 }

/-- The row still is READY at the expected version. -/
def claimable (db : Db) (args : DispatchArgs) : Bool :=
  (db.tasks.get? args.taskId).any fun row =>
    decide (row.state = .ready) && decide (row.version = args.expectedVersion)

/-- Claim a READY task, its workers and its STARTING runs in one transaction. -/
def claimTaskDispatch (dg : Digests) (db : Db) (args : DispatchArgs) :
    Except StoreError (Option DispatchClaim × Db) := do
  let identities := fromKeys args.workerIds
  ensure (identities ≠ []) (.valueError "a dispatch claim requires at least one worker")
  ensure (args.leaseOwnerId.all (fun owner => !blank owner) = true) (.valueError "lease_owner_id cannot be empty")
  ensure (args.leaseOwnerId = none ∨ 1000000 ≤ args.leaseTtl)
    (.valueError "lease_ttl_seconds must be at least one second")
  ensure (args.maxAttempts.all (fun m => decide (1 ≤ m)) = true) (.valueError "max_attempts must be positive")
  let task ← orRaise (db.tasks.get? args.taskId) (.keyError args.taskId)
  if task.state ≠ .ready ∨ task.version ≠ args.expectedVersion then return (none, db)
  else if args.maxAttempts.any (fun m => decide (m ≤ task.attemptCount)) = true then return (none, db)
  else do
    let (scopeId, revision) ← dispatchSnapshot dg db args.taskId task
    if unsatisfiedDependency db args.taskId = true then return (none, db)
    else if allIdle db identities = false then return (none, db)
    else
      let attempt := task.attemptCount + 1
      let leased := { db with leases := claimLease db args }
      -- the conditional UPDATE of the task; a miss returns with the lease row already written
      if claimable leased args = false then return (none, leased)
      else do
        ensure (allIdle leased identities = true) (.runtimeError "worker reservation concurrent update")
        ensure (identities.all (fun w => !attemptTaken db args.taskId w attempt) = true)
          (.integrityError "UNIQUE constraint failed: worker_runs.task_id, worker_runs.worker_id, worker_runs.attempt")
        let runs ← orRaise (db.runs.insertAll? (claimedRuns args attempt scopeId revision))
          (.integrityError "UNIQUE constraint failed: worker_runs.id")
        return (some
          { attempt := attempt
            runIds := identities.map fun w => (w, "run-" ++ args.uuid w)
            leaseGeneration := args.leaseOwnerId.map fun _ => nextGeneration db args.taskId
            verificationScopeId := scopeId
            taskDefinitionRevision := revision },
          { leased with
            tasks := db.tasks.modify args.taskId fun row => row.claim (timestamp args.now)
            workers := reserveWorkers db.workers identities
            runs := runs })

/-! ## Runs -/

def RunRow.activate (run : RunRow) (now : Nat) : RunRow :=
  { run with state := .running, startedAt := run.startedAt <|> some now }

def activateWorkerRun (db : Db) (runId : String) (lease : LeaseArgs) (clock : Clock) :
    Except StoreError (Bool × Db) := do
  let run ← orRaise (db.runs.get? runId) (.keyError runId)
  let task ← orRaise (db.tasks.get? run.taskId) (.keyError runId)
  requireLeaseArgs db run.taskId lease clock.lease
  if run.state ≠ .starting ∨ task.state ≠ .running then return (false, db)
  else if (db.workers.get? run.workerId).any (fun w => decide (w.state = .starting)) = false then return (false, db)
  else return (true, { db with
    runs := db.runs.modify runId fun r => r.activate (timestamp clock.now)
    workers := db.workers.modify run.workerId (WorkerRow.withState .running) })

def createWorkerRun (dg : Digests) (db : Db) (taskId workerId : String) (attempt : Nat) (timeoutAt : Option Nat)
    (uuid : String) (now : Nat) : Except StoreError (String × Db) := do
  let task ← orRaise (db.tasks.get? taskId) (.keyError taskId)
  let _ ← orRaise (db.workers.get? workerId) (.keyError workerId)
  let (scopeId, revision) ← dispatchSnapshot dg db taskId task
  ensure (0 < attempt) (.integrityError "CHECK constraint failed: attempt > 0")
  ensure (attemptTaken db taskId workerId attempt = false)
    (.integrityError "UNIQUE constraint failed: worker_runs.task_id, worker_runs.worker_id, worker_runs.attempt")
  let runs ← orRaise
    (db.runs.insert? ("run-" ++ uuid) (startingRun taskId workerId attempt timeoutAt scopeId revision (timestamp now)))
    (.integrityError "UNIQUE constraint failed: worker_runs.id")
  return ("run-" ++ uuid, { db with
    runs := runs
    tasks := db.tasks.modify taskId fun row =>
      { row with attemptCount := max row.attemptCount attempt, version := row.version + 1 } })

/-- The run row that `transition_worker_run` writes. -/
def RunRow.transition (run : RunRow) (target : RunState) (detail : RunDetail) (now : Nat) : RunRow :=
  { run with
    state := target
    startedAt := if target = .running ∧ run.startedAt = none then some now else run.startedAt
    endedAt := if target.active = false then some now else run.endedAt
    detail := detail.coalesce run.detail }

def transitionWorkerRun (db : Db) (runId : String) (target : RunState) (detail : RunDetail) (lease : LeaseArgs)
    (clock : Clock) : Except StoreError (Unit × Db) := do
  let run ← orRaise (db.runs.get? runId) (.keyError runId)
  requireLeaseArgs db run.taskId lease clock.lease
  runTransitions.require run.state target
  return ((), { db with runs := db.runs.modify runId fun _ => run.transition target detail (timestamp clock.now) })

/-! ## Cancelling a task -/

def isActiveRunOf (db : Db) (taskId runId : String) : Bool :=
  (db.runs.get? runId).any fun run => decide (run.taskId = taskId) && run.state.active

def RunRow.cancel (run : RunRow) (now : Nat) : RunRow := { run with state := .cancelled, endedAt := some now }

/-- The job row of a cancelled run: nothing was launched from `prepared`, anything may run otherwise. -/
def JobRow.cancel (job : JobRow) : JobRow :=
  { job with
    launchState := if job.launchState = .prepared then .terminal else .uncertain
    resultCollectionState := if job.launchState = .prepared then .notAvailable else .uncertain }

def cancelRuns (db : Db) (taskId : String) (now : Nat) : Table String RunRow :=
  db.runs.updateWhere (fun _ run => decide (run.taskId = taskId) && run.state.active) fun run => run.cancel now

def cancelJobs (db : Db) (taskId : String) : Table String JobRow :=
  db.jobs.updateWhere
    (fun runId job => isActiveRunOf db taskId runId && decide (job.resultCollectionState ≠ .collected)) JobRow.cancel

def cancelWorkers (db : Db) (taskId : String) (now : Nat) : Table String WorkerRow :=
  db.workers.updateWhere
    (fun w row =>
      db.runs.any (fun _ run => decide (run.taskId = taskId) && run.state.active && decide (run.workerId = w)) &&
        !workerHasActiveRun (cancelRuns db taskId now) w none && row.state.releasable)
    (WorkerRow.withState .idle)

def TaskRow.cancel (task : TaskRow) (now : Nat) : TaskRow :=
  { task with state := .cancelled, finishedAt := some now, version := task.version + 1 }

def cancelTaskExecution (db : Db) (taskId : String) (clock : Nat) : Except StoreError (Bool × Db) := do
  let task ← orRaise (db.tasks.get? taskId) (.keyError taskId)
  if task.state.terminal = true then return (false, db)
  else do
    taskTransitions.require task.state .cancelled
    let now := timestamp clock
    return (true, { db with
      tasks := db.tasks.modify taskId fun row => row.cancel now
      runs := cancelRuns db taskId now
      jobs := cancelJobs db taskId
      workers := cancelWorkers db taskId now
      leases := db.leases.modify taskId LeaseRow.release })

/-! ## What the operations commit -/

variable {db db' : Db} {workerId runId taskId : String}

theorem setWorkerState_ok {state : WorkerState} {resourceState : Option ResourceState} {modelId : Option String}
    {fence : WorkerFence} {clock : Clock} {u : Unit}
    (h : setWorkerState db workerId state resourceState modelId fence clock = .ok (u, db')) :
    requireWorkerFence db fence clock.lease = .ok () ∧
      db' = { db with workers := db.workers.modify workerId fun w => w.set state resourceState modelId } := by
  simp only [setWorkerState, bind_eq_ok, orRaise_eq_ok, pure_eq_ok, Prod.mk.injEq] at h
  obtain ⟨-, -, ⟨⟩, hf, -, rfl⟩ := h
  exact ⟨hf, rfl⟩

theorem claimWorkers_ok {workerIds : List String} {b : Bool} (h : claimWorkers db workerIds = .ok (b, db')) :
    (b = false ∧ db' = db) ∨
    (b = true ∧ allIdle db (fromKeys workerIds) = true ∧
      db' = { db with workers := reserveWorkers db.workers (fromKeys workerIds) }) := by
  simp only [claimWorkers] at h
  split at h
  · cases h
    exact Or.inl ⟨rfl, rfl⟩
  · split at h
    · cases h
      exact Or.inl ⟨rfl, rfl⟩
    · rename_i hi
      cases h
      exact Or.inr ⟨rfl, by simpa using hi, rfl⟩

theorem claimable_of_ready {args : DispatchArgs} {task : TaskRow} (ht : db.tasks.get? args.taskId = some task)
    (hs : ¬ (task.state ≠ .ready ∨ task.version ≠ args.expectedVersion)) :
    claimable { db with leases := claimLease db args } args = true := by
  push Not at hs
  simp [claimable, ht, hs]

/-- A claim either changes nothing and returns nothing, or commits everything at once. -/
theorem claimTaskDispatch_ok {dg : Digests} {args : DispatchArgs} {claim : Option DispatchClaim}
    (h : claimTaskDispatch dg db args = .ok (claim, db')) :
    (claim = none ∧ db' = db) ∨
    (∃ task runs, db.tasks.get? args.taskId = some task ∧ task.state = .ready ∧
      task.version = args.expectedVersion ∧ (∀ m, args.maxAttempts = some m → task.attemptCount < m) ∧
      unsatisfiedDependency db args.taskId = false ∧ allIdle db (fromKeys args.workerIds) = true ∧
      fromKeys args.workerIds ≠ [] ∧
      db.runs.insertAll? (claimedRuns args (task.attemptCount + 1) task.currentVerificationScopeId
        task.definitionRevision) = some runs ∧
      claim = some
        { attempt := task.attemptCount + 1
          runIds := (fromKeys args.workerIds).map fun w => (w, "run-" ++ args.uuid w)
          leaseGeneration := args.leaseOwnerId.map fun _ => nextGeneration db args.taskId
          verificationScopeId := task.currentVerificationScopeId
          taskDefinitionRevision := task.definitionRevision } ∧
      db' = { db with
        leases := claimLease db args
        tasks := db.tasks.modify args.taskId fun row => row.claim (timestamp args.now)
        workers := reserveWorkers db.workers (fromKeys args.workerIds)
        runs := runs }) := by
  simp only [claimTaskDispatch, bind_eq_ok, ensure_eq_ok, orRaise_eq_ok] at h
  obtain ⟨-, hne, -, -, -, -, -, -, task, ht, h⟩ := h
  split at h
  · cases h
    exact Or.inl ⟨rfl, rfl⟩
  rename_i hs
  split at h
  · cases h
    exact Or.inl ⟨rfl, rfl⟩
  rename_i hm
  simp only [bind_eq_ok] at h
  obtain ⟨⟨scopeId, revision⟩, hd, h⟩ := h
  obtain ⟨rfl, rfl⟩ := dispatchSnapshot_ok dg hd
  split at h
  · cases h
    exact Or.inl ⟨rfl, rfl⟩
  rename_i hu
  split at h
  · cases h
    exact Or.inl ⟨rfl, rfl⟩
  rename_i hi
  rw [if_neg (by simp [claimable_of_ready ht hs])] at h
  simp only [bind_eq_ok, ensure_eq_ok, orRaise_eq_ok, pure_eq_ok, Prod.mk.injEq] at h
  obtain ⟨-, -, -, -, runs, hr, rfl, rfl⟩ := h
  push Not at hs
  refine Or.inr ⟨task, runs, ht, hs.1, hs.2, ?_, by simpa using hu, by simpa using hi, hne, hr, rfl, rfl⟩
  intro m hmax
  rw [hmax] at hm
  simpa using hm

theorem activateWorkerRun_ok {lease : LeaseArgs} {clock : Clock} {b : Bool}
    (h : activateWorkerRun db runId lease clock = .ok (b, db')) :
    ∃ run task, db.runs.get? runId = some run ∧ db.tasks.get? run.taskId = some task ∧
      requireLeaseArgs db run.taskId lease clock.lease = .ok () ∧
      ((b = false ∧ db' = db) ∨
       (b = true ∧ run.state = .starting ∧ task.state = .running ∧
        (∃ w, db.workers.get? run.workerId = some w ∧ w.state = .starting) ∧
        db' = { db with
          runs := db.runs.modify runId fun r => r.activate (timestamp clock.now)
          workers := db.workers.modify run.workerId (WorkerRow.withState .running) })) := by
  simp only [activateWorkerRun, bind_eq_ok, orRaise_eq_ok] at h
  obtain ⟨run, hr, task, ht, ⟨⟩, hl, h⟩ := h
  refine ⟨run, task, hr, ht, hl, ?_⟩
  split at h
  · cases h
    exact Or.inl ⟨rfl, rfl⟩
  · rename_i hs
    push Not at hs
    split at h
    · cases h
      exact Or.inl ⟨rfl, rfl⟩
    · rename_i hw
      cases h
      refine Or.inr ⟨rfl, hs.1, hs.2, ?_, rfl⟩
      simpa [Option.any_eq_true] using hw

theorem createWorkerRun_ok {dg : Digests} {uuid : String} {attempt now : Nat} {timeoutAt : Option Nat} {id : String}
    (h : createWorkerRun dg db taskId workerId attempt timeoutAt uuid now = .ok (id, db')) :
    ∃ task runs, db.tasks.get? taskId = some task ∧ 0 < attempt ∧ id = "run-" ++ uuid ∧
      db.runs.insert? id (startingRun taskId workerId attempt timeoutAt task.currentVerificationScopeId
        task.definitionRevision (timestamp now)) = some runs ∧
      db' = { db with
        runs := runs
        tasks := db.tasks.modify taskId fun row =>
          { row with attemptCount := max row.attemptCount attempt, version := row.version + 1 } } := by
  simp only [createWorkerRun, bind_eq_ok, ensure_eq_ok, orRaise_eq_ok, pure_eq_ok, Prod.mk.injEq] at h
  obtain ⟨task, ht, -, -, ⟨scopeId, revision⟩, hd, -, ha, -, -, runs, hr, rfl, rfl⟩ := h
  obtain ⟨rfl, rfl⟩ := dispatchSnapshot_ok dg hd
  exact ⟨task, runs, ht, ha, rfl, hr, rfl⟩

theorem transitionWorkerRun_ok {target : RunState} {detail : RunDetail} {lease : LeaseArgs} {clock : Clock} {u : Unit}
    (h : transitionWorkerRun db runId target detail lease clock = .ok (u, db')) :
    ∃ run, db.runs.get? runId = some run ∧ requireLeaseArgs db run.taskId lease clock.lease = .ok () ∧
      runTransitions.allows run.state target = true ∧
      db' = { db with runs := db.runs.modify runId fun _ => run.transition target detail (timestamp clock.now) } := by
  simp only [transitionWorkerRun, bind_eq_ok, orRaise_eq_ok, require_eq_ok, pure_eq_ok, Prod.mk.injEq] at h
  obtain ⟨run, hr, ⟨⟩, hl, -, ha, -, rfl⟩ := h
  exact ⟨run, hr, hl, ha, rfl⟩

theorem cancelTaskExecution_ok {clock : Nat} {b : Bool} (h : cancelTaskExecution db taskId clock = .ok (b, db')) :
    ∃ task, db.tasks.get? taskId = some task ∧
      ((b = false ∧ task.state.terminal = true ∧ db' = db) ∨
       (b = true ∧ task.state.terminal = false ∧
        db' = { db with
          tasks := db.tasks.modify taskId fun row => row.cancel (timestamp clock)
          runs := cancelRuns db taskId (timestamp clock)
          jobs := cancelJobs db taskId
          workers := cancelWorkers db taskId (timestamp clock)
          leases := db.leases.modify taskId LeaseRow.release })) := by
  simp only [cancelTaskExecution, bind_eq_ok, orRaise_eq_ok] at h
  obtain ⟨task, ht, h⟩ := h
  refine ⟨task, ht, ?_⟩
  split at h
  · rename_i hs
    cases h
    exact Or.inl ⟨rfl, hs, rfl⟩
  · rename_i hs
    simp only [bind_eq_ok, pure_eq_ok, Prod.mk.injEq] at h
    obtain ⟨-, -, rfl, rfl⟩ := h
    exact Or.inr ⟨rfl, by simpa using hs, rfl⟩

end AgentFabric.Store
