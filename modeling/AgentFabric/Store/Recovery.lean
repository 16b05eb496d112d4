import AgentFabric.Store.ProviderJobs

/-!
# Interruption of unowned work

`recoverInterrupted` interrupts the active runs and the RUNNING tasks that no live lease and no launched provider job
protects, and frees the workers of the interrupted runs.
-/

namespace AgentFabric.Store

open AgentFabric.Lib

/-- The run has a provider job beyond `prepared`. -/
def hasLaunchedJob (db : Db) (runId : String) : Bool :=
  (db.jobs.get? runId).any fun job => decide (job.launchState ≠ .prepared)

/-- The task filter of a recovery call; none means every task. -/
def inScope (taskIds : Option (List String)) (taskId : String) : Bool :=
  taskIds.all fun ids => decide (taskId ∈ ids)

/-- The runs that a recovery interrupts. -/
def interruptibleRun (db : Db) (taskIds : Option (List String)) (now : Nat) (runId : String) (run : RunRow) : Bool :=
  run.state.active && !leaseLive db run.taskId now && !hasLaunchedJob db runId && inScope taskIds run.taskId

/-- Some active run of the task has a launched job. -/
def hasProtectedRun (db : Db) (taskId : String) : Bool :=
  db.runs.any fun runId run => decide (run.taskId = taskId) && run.state.active && hasLaunchedJob db runId

def interruptibleTask (db : Db) (taskIds : Option (List String)) (now : Nat) (taskId : String)
    (task : TaskRow) : Bool :=
  decide (task.state = .running) && !leaseLive db taskId now && !hasProtectedRun db taskId && inScope taskIds taskId

def recoveredRuns (db : Db) (taskIds : Option (List String)) (now : Nat) : Table String RunRow :=
  db.runs.updateWhere (interruptibleRun db taskIds now) fun run => run.interrupt now

def recoveredWorkers (db : Db) (taskIds : Option (List String)) (now : Nat) : Table String WorkerRow :=
  db.workers.updateWhere
    (fun w _ =>
      db.runs.any (fun id run => interruptibleRun db taskIds now id run && decide (run.workerId = w)) &&
        !workerHasActiveRun (recoveredRuns db taskIds now) w none)
    (WorkerRow.withState .idle)

/-- The tasks whose lease a recovery releases. -/
def recoveredTask (db : Db) (taskIds : Option (List String)) (now : Nat) (taskId : String) : Bool :=
  db.runs.any (fun id run => interruptibleRun db taskIds now id run && decide (run.taskId = taskId)) ||
    (db.tasks.get? taskId).any fun task => interruptibleTask db taskIds now taskId task

def recoverInterrupted (db : Db) (taskIds : Option (List String)) (clock : Nat) :
    Except StoreError ((Nat × Nat) × Db) :=
  let now := timestamp clock
  .ok (((db.runs.keysWhere (interruptibleRun db taskIds now)).length,
      (db.tasks.keysWhere (interruptibleTask db taskIds now)).length),
    { db with
      runs := recoveredRuns db taskIds now
      workers := recoveredWorkers db taskIds now
      tasks := db.tasks.updateWhere (interruptibleTask db taskIds now) fun task => task.withState .interrupted
      leases := db.leases.updateWhere
        (fun taskId lease => recoveredTask db taskIds now taskId && decide (lease.state = .active)) LeaseRow.release })

end AgentFabric.Store
