import AgentFabric.Runtime.Recovery

/-!
# Dispatching, and who runs

`dispatch_ready` of `runtime.py`, and the programs of all processes together.
-/

namespace AgentFabric.Runtime

open AgentFabric.Lib AgentFabric.Store

section

variable (s : Supervisor)

def adapterJobContract (workerId : String) (kind : AdapterKind) (contract : Contract) :
    String × String × JobCapabilities :=
  match kind with
  | .durable =>
    (contract.adapterType, contract.adapterInstanceId,
      { protocolVersion := contract.protocolVersion
        supportsReconcile := contract.capabilities.supportsReconcile
        supportsResume := contract.capabilities.supportsResume
        supportsCancel := contract.capabilities.supportsCancel
        supportsDurableCancel := contract.capabilities.supportsCancel
        supportsProviderIdempotency := contract.capabilities.supportsProviderIdempotency
        supportsStreamReconnect := contract.capabilities.supportsStreamReconnect
        supportsRepeatableCollect := contract.capabilities.supportsRepeatableCollect
        supportsIdempotentLaunchLookup := contract.capabilities.supportsIdempotentLaunchLookup
        supportsDurableLaunchRegistry := contract.capabilities.supportsDurableLaunchRegistry })
  | .legacy => (contract.adapterType, "worker:" ++ workerId ++ ":" ++ contract.adapterType, {})

/-- Whether the contract of every selected worker could be observed; a proven rejection counts as observed. -/
def negotiateContracts : List String → Program Bool
  | [] => return true
  | workerId :: rest => do
    let _ ← present (s.adapters workerId) workerId
    match ← ask (.negotiate workerId) with
    | .ok _ | .error (.launchRejected _) => negotiateContracts rest
    | .error _ => return false

/-- The launch intent of every claimed run. -/
def prepareRuns (generation : Nat) : List (String × String) → Program Unit
  | [] => return
  | (workerId, runId) :: rest => do
    let kind ← present (s.adapters workerId) workerId
    let contract ← ask (.contract workerId)
    let (adapterType, instanceId, capabilities) := adapterJobContract workerId kind contract
    let _ ← store (.prepareProviderJob runId adapterType instanceId capabilities (held s generation) "" unstamped)
    prepareRuns generation rest

def deferDispatch (taskId reasonCode detail : String) : Program Unit := do
  let _ ← store (.recordDispatchDeferred taskId reasonCode detail s.waitTimeout 0)

/-- The runs of a claim, one for each selected worker. -/
def assignments (taskId : String) (workerIds : List String) (claim : DispatchClaim) (generation : Nat) :
    List Assignment :=
  workerIds.filterMap fun w => (claim.runIds.lookup w).map fun runId => ⟨taskId, w, runId, claim.attempt, generation⟩

def claimAndStart (taskId : String) (task : TaskRow) (workerIds : List String) : Program Unit := do
  match ← store (.claimTaskDispatch
    ⟨taskId, workerIds, task.version, some s.workerTimeout, some s.runtimeId, s.leaseTtl,
      some s.maxAttempts, id, 0⟩) with
  | none =>
    if (← getTask taskId).state = .ready then
      deferDispatch s taskId "DISPATCH_CLAIM_RACE" "Task or Worker reservation changed before atomic dispatch"
  | some claim =>
    let generation ← present claim.leaseGeneration taskId
    prepareRuns s generation claim.runIds
    let _ ← ask (.create
      [.executeTask s taskId claim.attempt generation (assignments taskId workerIds claim generation)])

/-- A task that has used up its attempts fails, unless it is no longer READY. -/
def exhaustAttempts (taskId : String) (task : TaskRow) : Program Unit := do
  match ← Prog.attempt (store (.transitionTask taskId .failed (some task.version) .absent unstamped)) with
  | .ok _ => auditTask taskId
  | .error error =>
    if (← getTask taskId).state = .ready then throw error

def blockTask (taskId : String) : Program Unit := store (.transitionTask taskId .blocked none .absent unstamped)

def dependencyStates (db : Db) (taskId : String) : List TaskState :=
  (db.dependencies.filter fun e => decide (e.1 = taskId)).filterMap fun e => (db.tasks.get? e.2).map (·.state)

/-- One task of `dispatch_ready`. -/
def dispatchTask (taskIds : Option (List String)) (task : String × TaskRow) : Program Unit := do
  let (taskId, row) := task
  if !inScope taskIds taskId then return
  if row.state ≠ .ready then return
  if ← ask (.isActive taskId) then return
  if s.maxAttempts ≤ row.attemptCount then exhaustAttempts taskId row
  else
    let dependencies := dependencyStates (← ask .read) taskId
    if dependencies.any fun d => decide (d = .failed) || decide (d = .cancelled) then blockTask taskId
    else if dependencies.any fun d => decide (d ≠ .succeeded) then return
    else
      let decision ← ask (.schedule taskId)
      if decision.selectedWorkerIds.isEmpty then
        if decision.transientCapacity then
          deferDispatch s taskId "WORKER_CAPACITY_BUSY" "Otherwise eligible Worker capacity is temporarily busy"
        else blockTask taskId
      else if ← negotiateContracts s decision.selectedWorkerIds then
        claimAndStart s taskId row decision.selectedWorkerIds
      else
        deferDispatch s taskId "WORKER_CONTRACT_UNAVAILABLE"
          "Selected Worker contract could not be observed before dispatch"

/-- `dispatch_ready`; `prior` is the order by priority and age. -/
def dispatchReady (taskIds : Option (List String)) (prior : String → String → Bool) : Program Unit := do
  let tasks := (← ask .read).tasks.rows.mergeSort fun a b => prior a.1 b.1
  tasks.forM (dispatchTask s taskIds)

end

/-! ## Who runs -/

/-- A coroutine, with as many polls as its process lives. -/
def coroutineProgram (polls : Nat) : Coroutine → Program Unit
  | .executeTask s taskId attempt generation assignments => executeTask s taskId attempt generation assignments polls
  | .executeWorker s assignment => executeWorker s assignment
  | .reattach s taskId generation jobs finalize => reattachProviderTask s taskId generation jobs finalize polls
  | .resumeOne s _ generation job => resumeOne s generation job

/-- A created coroutine begins once, runs and ends. -/
def runCoroutine (index polls : Nat) : Program Unit := do
  match ← ask (.begin index) with
  | none => return
  | some coroutine =>
    match ← Prog.attempt (coroutineProgram polls coroutine) with
    | .ok _ => ask (.finish index false)
    | .error _ => ask (.finish index true)

inductive Request where
  | dispatch (supervisor : Supervisor) (taskIds : Option (List String)) (prior : String → String → Bool)
  | recover (supervisor : Supervisor) (taskIds : Option (List String))
  | cancel (supervisor : Supervisor) (taskId : String)
  | coroutine (index polls : Nat)
  | audit (taskId : String)
  | auditPending (taskIds : Option (List String))
  | client (op : StoreOp)

/-- The program of a request; a client may use the admitted store operations. -/
def handle (admitted : StoreOp → Bool) : Request → Program Unit
  | .dispatch s taskIds prior => dispatchReady s taskIds prior
  | .recover s taskIds => recover s taskIds
  | .cancel s taskId => do let _ ← cancelTask s taskId
  | .coroutine index polls => runCoroutine index polls
  | .audit taskId => auditTask taskId
  | .auditPending taskIds => auditPendingTerminalTasks taskIds
  | .client op => if admitted op then do let _ ← store op else return

def serve (admitted : StoreOp → Bool) (_ : Nat) (request : Request) : Prog Call Call.Reply Unit :=
  (handle admitted request).run.bind fun _ => .ret ()

/-- No coroutine, no row. -/
def World.initial : World := ⟨Db.initial, 0, [], .empty⟩

end AgentFabric.Runtime
