import AgentFabric.Lib.Replies
import AgentFabric.Resource.Dispatch

/-!
# Submission, approval and dispatch of tasks

`submit_task` and `dispatch_ready` of `runtime.py` over the approvals table of `store.py`, with the requirements of
every task and the scheduler that reads them.
-/

namespace AgentFabric.Intake

open AgentFabric.Lib AgentFabric.Store AgentFabric.Resource
open AgentFabric.Submission (PermissionClass ApprovalState)

/-! ## Approvals -/

inductive Resolution where
  | pending | approved | rejected
deriving DecidableEq, Repr

/-- The arguments of `request_approval`; nothing reads the payload. -/
structure ApprovalRequest where
  projectId : String
  taskId : Option String
  permissionClass : String
  actionType : String
  requestedBy : String
  reason : Option String
deriving DecidableEq, Repr

structure ApprovalRow where
  request : ApprovalRequest
  state : Resolution
  resolvedBy : Option String
  reason : Option String
deriving DecidableEq, Repr

/-- The transaction of `request_approval`. -/
def requestApproval (db : Db) (approvals : Table String ApprovalRow) (approvalId : String) (request : ApprovalRequest) :
    Except StoreError (Table String ApprovalRow) := do
  ensure (request.taskId.all (fun taskId => (db.tasks.get? taskId).isSome) = true)
    (.integrityError "FOREIGN KEY constraint failed")
  orRaise (approvals.insert? approvalId ⟨request, .pending, none, request.reason⟩)
    (.integrityError "UNIQUE constraint failed: approvals.id")

/-- The arguments of `resolve_approval`. -/
structure Verdict where
  approvalId : String
  approved : Bool
  resolvedBy : String
  reason : Option String
deriving DecidableEq, Repr

def ApprovalRow.resolve (row : ApprovalRow) (verdict : Verdict) : ApprovalRow :=
  { row with
    state := if verdict.approved then .approved else .rejected
    resolvedBy := some verdict.resolvedBy
    reason := verdict.reason <|> row.reason }

/-- The transaction of `resolve_approval`: it writes the approval and nothing else. -/
def resolveApproval (approvals : Table String ApprovalRow) (verdict : Verdict) :
    Except StoreError (Table String ApprovalRow) := do
  let row ← orRaise (approvals.get? verdict.approvalId) (.keyError verdict.approvalId)
  ensure (row.state = .pending) (.valueError "approval has already been resolved")
  return approvals.modify verdict.approvalId (·.resolve verdict)

/-! ## Calls -/

/-- `requirements` holds the columns of the task rows that only the scheduler reads. -/
structure World where
  runtime : Runtime.World
  requirements : Table String TaskRequirements
  approvals : Table String ApprovalRow

def World.db (w : World) : Db := w.runtime.db

def World.initial : World := ⟨Runtime.World.initial, .empty, .empty⟩

/-- A row of `list_tasks`. -/
structure TaskSnapshot where
  id : String
  row : TaskRow
  requirements : TaskRequirements

/-- The rows with their requirements. -/
def World.snapshots (w : World) : List TaskSnapshot :=
  w.db.tasks.rows.filterMap fun e => (w.requirements.get? e.1).map fun requirements => ⟨e.1, e.2, requirements⟩

/-- `len(list_tasks(project_id))`. -/
def World.taskCount (w : World) (projectId : String) : Nat :=
  (w.db.tasks.rows.filter fun e => decide (e.2.projectId = projectId)).length

inductive Call where
  | runtime (c : Runtime.Call)
  | taskCount (projectId : String)
  | createTask (task : NewTask) (requirements : TaskRequirements)
  | requestApproval (request : ApprovalRequest)
  | resolveApproval (verdict : Verdict)
  | listTasks
  | workerSnapshots
  /-- the ledger that the quota guard reads, and its clock -/
  | resources

abbrev Call.Reply : Call → Type
  | .runtime c => c.Reply
  | .taskCount _ => Nat
  | .createTask .. => Except StoreError Unit
  | .requestApproval _ => Except StoreError Unit
  | .resolveApproval _ => Except StoreError Unit
  | .listTasks => List TaskSnapshot
  | .workerSnapshots => List WorkerSnapshot
  | .resources => Ledger × Nat

/-- What the outside answers at one call. -/
structure Environment where
  runtime : Runtime.Environment
  approvalUuid : String
  workers : List WorkerSnapshot
  ledger : Ledger
  now : Nat

section

variable (dg : Digests)

def act (w : World) (env : Environment) : (c : Call) → c.Reply × World
  | .runtime c =>
    let (r, world) := Runtime.act dg w.runtime env.runtime c
    (r, { w with runtime := world })
  | .taskCount projectId => (w.taskCount projectId, w)
  | .createTask task requirements =>
    match Runtime.act dg w.runtime env.runtime (.store (.createTask task)) with
    | (.ok _, world) =>
      (.ok (), { w with
        runtime := world
        requirements := (w.requirements.insert? task.id requirements).getD w.requirements })
    | (.error e, world) => (.error e, { w with runtime := world })
  | .requestApproval request =>
    let recorded := requestApproval w.db w.approvals ("approval-" ++ env.approvalUuid) request
    (recorded.map fun _ => (), { w with approvals := recorded.toOption.getD w.approvals })
  | .resolveApproval verdict =>
    let recorded := resolveApproval w.approvals verdict
    (recorded.map fun _ => (), { w with approvals := recorded.toOption.getD w.approvals })
  | .listTasks => (w.snapshots, w)
  | .workerSnapshots => (env.workers, w)
  | .resources => ((env.ledger, env.now), w)

def machine : Machine Nat World Call Call.Reply Environment where
  act _ w env c := act dg w env c

end

/-! ## Programs -/

abbrev Program := Prog.Raising Runtime.Raised Call Call.Reply

def ask (c : Call) : Program c.Reply := Prog.ask c

/-- The reply of a transaction, or what it raised. -/
def answered {α : Type} (x : Except StoreError α) : Program α := Prog.result (x.mapError .store)

def ofRuntime {α : Type} (p : Runtime.Program α) : Program α :=
  ExceptT.mk (p.run.interp fun c => Prog.perform (.runtime c))

/-! ### Submission -/

/-- `f"#{n:04d}"`. -/
def taskReference (n : Nat) : String :=
  "#" ++ String.ofList (List.replicate (4 - (Nat.toDigits 10 n).length) '0' ++ Nat.toDigits 10 n)

/-- The arguments of `submit_task`; an identifier that is not given was drawn. -/
structure TaskSubmission where
  taskId : String
  projectId : String
  reference : Option String
  topology : ExecutionTopology
  requirements : TaskRequirements

/-- A RED task waits for the approval of a human. -/
def TaskSubmission.awaitsApproval (sub : TaskSubmission) : Bool :=
  decide (sub.requirements.permissionClass = .red) && decide (sub.requirements.approvalState ≠ .approved)

def TaskSubmission.newTask (sub : TaskSubmission) (reference : String) : NewTask :=
  ⟨sub.taskId, sub.projectId, reference, .draft, sub.topology, 0⟩

def TaskSubmission.approvalRequest (sub : TaskSubmission) : ApprovalRequest where
  projectId := sub.projectId
  taskId := some sub.taskId
  permissionClass := "red"
  actionType := "executeTask"
  requestedBy := "runtime"
  reason := some "RED permission class requires explicit human approval"

/-- The reference that was given, or the number of the tasks of the project. -/
def chooseReference (sub : TaskSubmission) : Program String :=
  match sub.reference with
  | some reference => return reference
  | none => do return taskReference ((← ask (.taskCount sub.projectId)) + 1)

def moveTask (taskId : String) (target : TaskState) : Program Unit :=
  ofRuntime (Runtime.store (.transitionTask taskId target none .absent Runtime.unstamped))

def submitTask (sub : TaskSubmission) : Program Unit := do
  let reference ← chooseReference sub
  answered (← ask (.createTask (sub.newTask reference) sub.requirements))
  moveTask sub.taskId .queued
  if sub.awaitsApproval then
    answered (← ask (.requestApproval sub.approvalRequest))
    moveTask sub.taskId .blocked
  else moveTask sub.taskId .ready

/-! ### Dispatch -/

section

variable (score : Score) (s : Runtime.Supervisor)

def busy (w : WorkerSnapshot) : Bool := decide (w.state ∈ [WorkerState.starting, .running, .waiting])

/-- `_transient_capacity_possible`: the workers would do if those at work were idle. -/
def transientCapacityPossible (r : TaskRequirements) (topology : ExecutionTopology)
    (evidence : WorkerSnapshot → Option QuotaGuardEvidence) (candidates : List WorkerSnapshot) : Bool :=
  candidates.any busy &&
    !(schedule score r topology evidence
      (candidates.map fun w => if busy w then { w with state := .idle } else w)).selectedWorkerIds.isEmpty

/-- The quota guard, then the scheduler: the workers that are selected, and whether capacity is missing for the moment
only. -/
def chooseWorkers (ledger : Ledger) (now : Nat) (r : TaskRequirements) (topology : ExecutionTopology)
    (candidates : List WorkerSnapshot) : Except StoreError (RoutingDecision × Bool) := do
  let (kept, rejections, guard) ← applyQuotaGuard ledger r candidates now
  let evidence w := (guard.evidenceByWorker.find? fun e => decide (e.1 = w.id)).map Prod.snd
  let routed := schedule score r topology evidence kept
  return ({ routed with rejected := routed.rejected ++ rejections },
    transientCapacityPossible score r topology evidence kept)

def failedRun (state : RunState) : Bool := decide (state ∈ [RunState.failed, .timedOut, .authRequired, .rateLimited])

/-- The workers with an adapter; a fallback leaves out those that have failed the task. -/
def candidateWorkers (taskId : String) (topology : ExecutionTopology) : Program (List WorkerSnapshot) := do
  let candidates := (← ask .workerSnapshots).filter fun w => (s.adapters w.id).isSome
  if topology = .fallback ∨ topology = .cheapFirstEscalation then
    let priorRuns ← ofRuntime (Runtime.listWorkerRuns taskId)
    return candidates.filter fun w => !priorRuns.any fun e => decide (e.2.workerId = w.id) && failedRun e.2.state
  else return candidates

/-- One task of `dispatch_ready`; nothing reads the routing decision that it persists. -/
def dispatchTask (taskIds : Option (List String)) (task : TaskSnapshot) : Program Unit := do
  if !inScope taskIds task.id then return
  if task.row.state ≠ .ready then return
  if ← ask (.runtime (.isActive task.id)) then return
  if s.maxAttempts ≤ task.row.attemptCount then ofRuntime (Runtime.exhaustAttempts task.id task.row)
  else
    let dependencies := Runtime.dependencyStates (← ask (.runtime .read)) task.id
    if dependencies.any fun d => decide (d = .failed) || decide (d = .cancelled) then
      ofRuntime (Runtime.blockTask task.id)
    else if dependencies.any fun d => decide (d ≠ .succeeded) then return
    else
      let candidates ← candidateWorkers s task.id task.row.topology
      let (ledger, now) ← ask .resources
      let (decision, transient) ← answered
        (chooseWorkers score ledger now task.requirements task.row.topology candidates)
      if decision.selectedWorkerIds.isEmpty then
        if transient then
          ofRuntime (Runtime.deferDispatch s task.id "WORKER_CAPACITY_BUSY"
            "Otherwise eligible Worker capacity is temporarily busy")
        else ofRuntime (Runtime.blockTask task.id)
      else if ← ofRuntime (Runtime.negotiateContracts s decision.selectedWorkerIds) then
        ofRuntime (Runtime.claimAndStart s task.id task.row decision.selectedWorkerIds)
      else
        ofRuntime (Runtime.deferDispatch s task.id "WORKER_CONTRACT_UNAVAILABLE"
          "Selected Worker contract could not be observed before dispatch")

/-- `dispatch_ready`; `prior` is the order by priority and age. -/
def dispatchReady (taskIds : Option (List String)) (prior : String → String → Bool) : Program Unit := do
  let tasks := (← ask .listTasks).mergeSort fun a b => prior a.id b.id
  tasks.forM (dispatchTask score s taskIds)

end

/-! ## Who runs -/

/-- The operations of other clients: tasks are created by submissions and claimed by dispatchers. -/
def clientOp : StoreOp → Bool
  | .createTask _ | .claimTaskDispatch _ => false
  | _ => true

inductive Request where
  | submit (sub : TaskSubmission)
  | requestApproval (request : ApprovalRequest)
  | resolveApproval (verdict : Verdict)
  | dispatch (supervisor : Runtime.Supervisor) (taskIds : Option (List String)) (prior : String → String → Bool)
  | client (op : StoreOp)

section

variable (score : Score)

def handle : Request → Program Unit
  | .submit sub => submitTask sub
  | .requestApproval request => do answered (← ask (.requestApproval request))
  | .resolveApproval verdict => do answered (← ask (.resolveApproval verdict))
  | .dispatch s taskIds prior => dispatchReady score s taskIds prior
  | .client op => if clientOp op then do let _ ← ofRuntime (Runtime.store op) else return

def serve (_ : Nat) (request : Request) : Prog Call Call.Reply Unit := (handle score request).run.bind fun _ => .ret ()

abbrev History := Traced Nat World Call Call.Reply

/-- The programs and the database after a schedule from an empty database. -/
def desks (dg : Digests) (moves : List (Move Nat Request Environment)) : Pool Nat History Call Call.Reply :=
  (Pool.quiet ⟨World.initial, []⟩).run (machine dg).traced (serve score) moves

/-- The database after a schedule. -/
def intake (dg : Digests) (moves : List (Move Nat Request Environment)) : World := (desks score dg moves).shared.state

end

end AgentFabric.Intake
