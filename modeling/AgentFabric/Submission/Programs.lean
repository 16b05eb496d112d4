import AgentFabric.Submission.Model
import AgentFabric.Autonomy.LiveWork

/-!
# Submitting a task

`submit_task`, the dispatcher of the goal engine and its decision driver.
-/

namespace AgentFabric.Submission

open AgentFabric.Lib AgentFabric.Store

/-- The arguments of `submit_task`. -/
structure TaskSubmission where
  taskId : String
  projectId : String
  reference : String
  topology : ExecutionTopology
  permissionClass : PermissionClass
  approvalState : ApprovalState
deriving DecidableEq, Repr

/-- A RED task waits for the approval of a human. -/
def TaskSubmission.awaitsApproval (sub : TaskSubmission) : Bool :=
  decide (sub.permissionClass = .red) && decide (sub.approvalState ≠ .approved)

def TaskSubmission.newTask (sub : TaskSubmission) : NewTask :=
  ⟨sub.taskId, sub.projectId, sub.reference, .draft, sub.topology, 0⟩

def submit (op : StoreOp) : Program op.Reply := do
  Prog.result ((← ask (.submit op)).mapError .store)

def moveTask (taskId : String) (target : TaskState) : Program Unit :=
  submit (.transitionTask taskId target none .absent Runtime.unstamped)

/-- One transaction creates the task, each further one moves it on. -/
def submitTask (sub : TaskSubmission) : Program Unit := do
  submit (.createTask sub.newTask)
  moveTask sub.taskId .queued
  if sub.awaitsApproval then
    ask (.requestApproval sub.taskId)
    moveTask sub.taskId .blocked
  else moveTask sub.taskId .ready

/-- The process of a goal engine: its runtime, the name-based identities, and what a payload asks for. -/
structure EngineHost where
  supervisor : Runtime.Supervisor
  prior : String → String → Bool
  polls : Nat
  uuid5 : String → String
  decisionUuid5 : String → String
  requirements : String → Option (PermissionClass × ExecutionTopology)

section

variable (host : EngineHost)

def recoverAndDispatch (taskIds : List String) : Program Unit := do
  ofRuntime (Runtime.recover host.supervisor (some taskIds))
  ofRuntime (Runtime.dispatchReady host.supervisor (some taskIds) host.prior)

/-! ## The dispatcher -/

/-- A planner can ask for RED work, but never for its approval. -/
def dispatchSubmission (projectId actionId : String) (action : PlannedAction) : Except Runtime.Raised TaskSubmission :=
  match host.requirements action.payload with
  | none => .error (.store (.valueError "requirements"))
  | some (permissionClass, topology) =>
    .ok ⟨Autonomy.taskIdOf host.uuid5 actionId, projectId, Autonomy.autoReference actionId, topology, permissionClass,
      if permissionClass = .red then .pending else .notRequired⟩

def dispatch (projectId actionId : String) (action : PlannedAction) : Program DispatchHandle := do
  let taskId := Autonomy.taskIdOf host.uuid5 actionId
  match (← read).tasks.get? taskId with
  | some _ => pure ()
  | none => submitTask (← Prog.result (dispatchSubmission host projectId actionId action))
  ofRuntime (Runtime.dispatchReady host.supervisor (some [taskId]) host.prior)
  return Autonomy.taskHandle host.uuid5 actionId

/-- `SupervisorRuntimeDispatcher.recover`. -/
def recoverDispatch (handle : DispatchHandle) : Program DispatchHandle := do
  recoverAndDispatch host handle.taskId.toList
  return handle

/-! ## The decision driver -/

structure Checkpoint where
  goalId : String
  projectId : String
  iterationId : String
  iterationSequence : Nat
  steerVersion : Nat
  phase : Phase
deriving DecidableEq, Repr

def Checkpoint.binding (checkpoint : Checkpoint) : DecisionRow :=
  ⟨checkpoint.goalId, checkpoint.iterationId, checkpoint.iterationSequence, checkpoint.phase, checkpoint.steerVersion⟩

/-- `_checkpoint`: a decision is bound to the latest iteration of the goal. -/
def checkpointOf (db : Db) (goalId : String) (phase : Phase) : Option Checkpoint :=
  match db.goals.get? goalId, db.iterations.rows.filter fun e => decide (e.2.goalId = goalId) with
  | some goal, e :: es =>
    let iteration := es.foldl Autonomy.laterIteration e
    some ⟨goalId, goal.projectId, iteration.1, iteration.2.sequence, goal.steerVersion, phase⟩
  | _, _ => none

/-- `_task_id`. -/
def decisionTaskId (checkpoint : Checkpoint) : String :=
  "tsk-" ++ host.decisionUuid5 ("autonomy-decision/v1:" ++ checkpoint.goalId ++ ":" ++ checkpoint.phase.value ++ ":" ++
    toString checkpoint.iterationSequence ++ ":" ++ toString checkpoint.steerVersion)

def decisionSubmission (checkpoint : Checkpoint) : TaskSubmission :=
  let taskId := decisionTaskId host checkpoint
  ⟨taskId, checkpoint.projectId,
    "DECISION-" ++ String.ofList (taskId.toList.drop (taskId.length - 12)) ++ "-" ++
      toString checkpoint.iterationSequence ++ "-" ++ checkpoint.phase.value.toUpper ++ "-" ++
      toString checkpoint.steerVersion,
    .single, .green, .notRequired⟩

def ensureTask (checkpoint : Checkpoint) : Program Unit := do
  let taskId := decisionTaskId host checkpoint
  match (← read).tasks.get? taskId with
  | some task =>
    if task.projectId ≠ checkpoint.projectId then
      throw (.runtimeError "deterministic decision Task identity collision")
  | none => submitTask (decisionSubmission host checkpoint)
  Prog.result ((← ask (.bindDecision taskId checkpoint.binding)).mapError .runtimeError)

def polled : TaskState → Bool
  | .ready | .running | .waiting | .interrupted => true
  | _ => false

/-- The polling loop of `_execute_task`; waiting for workers changes nothing. -/
def pollTask (taskId : String) : Nat → Program TaskRow
  | 0 => throw .crashed
  | polls + 1 => do
    recoverAndDispatch host [taskId]
    let task ← getTask taskId
    if polled task.state then pollTask taskId polls else return task

/-- The first part of `_execute_task`: the task runs until it is settled. -/
def awaitTask (taskId : String) : Program TaskRow := do
  let task ← getTask taskId
  if polled task.state || decide (task.state = .draft) || decide (task.state = .queued) then
    ofRuntime (Runtime.recover host.supervisor (some [taskId]))
    let _ ← pollTask host taskId host.polls
    getTask taskId
  else return task

/-- `_execute_task`: the latest result of the task is the decision. -/
def executeDecision (taskId : String) : Program Unit := do
  let task ← awaitTask host taskId
  if task.state ≠ .reviewing ∧ task.state ≠ .succeeded then
    throw (.runtimeError ("decision Task ended in " ++ task.state.value))
  let db ← read
  if !db.runs.any fun runId run => decide (run.taskId = taskId) && (db.results.get? runId).isSome then
    throw (.runtimeError "decision Task has no Worker result")

def finishTask (taskId : String) (accepted : Bool) : Program Unit := do
  if (← getTask taskId).state = .reviewing then
    ofRuntime (Runtime.store
      (.transitionTask taskId (if accepted then .succeeded else .failed) none .absent Runtime.unstamped))
    ofRuntime (Runtime.auditTask taskId)

/-- `_decide`, and what the driver makes of the decision; a rejection needs a binding. -/
def decideWith (goalId : String) (phase : Phase) : Program Unit := do
  match checkpointOf (← read) goalId phase with
  | none => throw (.runtimeError "decision requires an active persisted Goal iteration")
  | some checkpoint =>
    let taskId := decisionTaskId host checkpoint
    let executed ← Prog.attempt (do
      ensureTask host checkpoint
      executeDecision host taskId)
    match executed, ← ask (.judged taskId) with
    | .ok _, some accepted => finishTask taskId accepted
    | .error _, some false => if ← ask (.decisionBound taskId) then finishTask taskId false
    | _, _ => return

/-! ## The engine -/

/-- `str(error)`. -/
def raisedText : Runtime.Raised → String
  | .store error => Autonomy.StoreError.text error
  | .keyError key => "'" ++ key ++ "'"
  | .runtimeError message | .adapter (.other message) => message
  | .adapter _ | .crashed => ""

/-- The answer of a collaborator of the engine. -/
def caught {α : Type} (p : Program α) : Prog Call Call.Reply (Except String α) :=
  p.run.bind fun r => .ret (r.mapError raisedText)

/-- The decision of a phase is made before the engine is answered. -/
def decided (goalId : String) (phase : Phase) (c : Autonomy.Call) : Prog Call Call.Reply c.Reply :=
  (decideWith host goalId phase).run.bind fun _ => Prog.perform (Call.engine c)

/-- A call of the goal engine.  An action that is collected is recovered and dispatched by further requests. -/
def engineCall (g : String) : (c : Autonomy.Call) → Prog Call Call.Reply c.Reply
  | .dispatch action actionId => caught do
    match ← ask (.engine (.getGoal g)) with
    | .error error => throw (.store error)
    | .ok goal => dispatch host goal.projectId actionId action
  | .recover _ handle => caught (recoverDispatch host handle)
  | .evaluate goalId => decided host g .evaluation (.evaluate goalId)
  | .plan goalId evaluation => decided host g .planning (.plan goalId evaluation)
  | .verify goalId results => decided host g .verification (.verify goalId results)
  | c => Prog.perform (Call.engine c)

end

/-! ## Who runs -/

inductive Request where
  | goal (slot : Autonomy.Slot) (request : Autonomy.Request)
  | runtime (request : Runtime.Request)

/-- The engine of one goal and its controls, any number of runtimes, and clients of both. -/
def serve (host : EngineHost) (g : String) (admitted : StoreOp → Bool) (i : Nat) :
    Request → Prog Call Call.Reply Unit
  | .goal slot request => (Autonomy.serveGoal host.uuid5 g slot request).interp (engineCall host g)
  | .runtime request => (Runtime.serve admitted i request).interp runtimeCall

abbrev History := Traced Nat Fabric Call Call.Reply

end AgentFabric.Submission
