import AgentFabric.Lib.Handlers
import AgentFabric.Runtime.Dispatch
import AgentFabric.Autonomy.Controls

/-!
# Goal engines and runtimes over one database

The goal engine hands its actions to a dispatcher and its decisions to a driver; both submit tasks, any runtime may run
them, and every runtime accounts for the runs that it has seen to end.
-/

namespace AgentFabric.Submission

open AgentFabric.Lib AgentFabric.Store

inductive PermissionClass where
  | green | yellow | red
deriving DecidableEq, Repr

inductive ApprovalState where
  | notRequired | pending | approved | rejected | expired
deriving DecidableEq, Repr

inductive Phase where
  | evaluation | planning | verification
deriving DecidableEq, Repr

def Phase.value : Phase → String
  | .evaluation => "evaluation" | .planning => "planning" | .verification => "verification"

/-- A row of `autonomy_decision_tasks`. -/
structure DecisionRow where
  goalId : String
  iterationId : String
  iterationSequence : Nat
  phase : Phase
  steerVersion : Nat
deriving DecidableEq, Repr

/-- A row of `invocation_telemetry`. -/
structure InvocationRow where
  taskId : String
  goalId : Option String
deriving DecidableEq, Repr

/-- The database of the runtimes with the decision bindings and the invocation telemetry. -/
structure Fabric where
  runtime : Runtime.World
  decisions : Table String DecisionRow
  telemetry : Table String InvocationRow

def Fabric.db (w : Fabric) : Db := w.runtime.db

def Fabric.withDb (w : Fabric) (db : Db) : Fabric := { w with runtime := { w.runtime with db := db } }

@[simp] theorem Fabric.db_withDb (w : Fabric) (db : Db) : (w.withDb db).db = db := rfl

def Fabric.initial : Fabric := ⟨Runtime.World.initial, .empty, .empty⟩

/-- The transaction of `_ensure_task`: a binding is written once, and must match its checkpoint afterwards. -/
def bindDecision (decisions : Table String DecisionRow) (taskId : String) (binding : DecisionRow) :
    Except String (Table String DecisionRow) :=
  match decisions.get? taskId with
  | some existing =>
    if existing = binding then .ok decisions else .error "decision Task binding does not match its checkpoint"
  | none =>
    if decisions.any fun _ row => decide (row.goalId = binding.goalId) &&
        decide (row.iterationSequence = binding.iterationSequence) && decide (row.phase = binding.phase) &&
        decide (row.steerVersion = binding.steerVersion) then
      .error "UNIQUE constraint failed"
    else .ok (decisions.upsert taskId binding)

/-- `goal_context_for_task`: the latest action that is linked to the task, or else the decision that is bound to it. -/
def goalContextForTask (w : Fabric) (taskId : String) : Option String :=
  match (w.db.actions.rows.filter fun e => decide (e.2.taskId = some taskId)).getLast? with
  | some e => some e.2.goalId
  | none => (w.decisions.get? taskId).map DecisionRow.goalId

/-! ## Calls -/

inductive Call where
  | runtime (c : Runtime.Call)
  | engine (c : Autonomy.Call)
  /-- one transaction of `submit_task` -/
  | submit (op : StoreOp)
  | requestApproval (taskId : String)
  | bindDecision (taskId : String) (binding : DecisionRow)
  | decisionBound (taskId : String)
  /-- whether the output of a decision task was accepted or rejected; an exception may also pass both by -/
  | judged (taskId : String)
  /-- whether the bookkeeping of a run includes its telemetry at this point -/
  | invocationEnded (runId : String)
  | containsRun (runId : String)
  | goalContext (taskId : String)
  | record (runId : String) (row : InvocationRow)

abbrev Call.Reply : Call → Type
  | .runtime c => c.Reply
  | .engine c => c.Reply
  | .submit op => Except StoreError op.Reply
  | .requestApproval _ => Unit
  | .bindDecision .. => Except String Unit
  | .judged _ => Option Bool
  | .decisionBound _ | .invocationEnded _ | .containsRun _ => Bool
  | .goalContext _ => Option String
  | .record .. => Except StoreError Unit

/-- What the outside answers at one call. -/
structure Environment where
  runtime : Runtime.Environment
  engine : Autonomy.Environment
  judged : Option Bool
  ended : Bool

section

variable (dg : Digests)

def act (w : Fabric) (env : Environment) : (c : Call) → c.Reply × Fabric
  | .runtime c =>
    let (r, world) := Runtime.act dg w.runtime env.runtime c
    (r, { w with runtime := world })
  | .engine c =>
    let (r, db) := Autonomy.act dg w.db env.engine c
    (r, w.withDb db)
  | .submit op =>
    let (r, world) := Runtime.act dg w.runtime env.runtime (.store op)
    (r, { w with runtime := world })
  | .requestApproval _ => ((), w)
  | .bindDecision taskId binding =>
    let bound := bindDecision w.decisions taskId binding
    (bound.map fun _ => (), { w with decisions := bound.toOption.getD w.decisions })
  | .decisionBound taskId => ((w.decisions.get? taskId).isSome, w)
  | .judged _ => (env.judged, w)
  | .invocationEnded _ => (env.ended, w)
  | .containsRun runId => ((w.telemetry.get? runId).isSome, w)
  | .goalContext taskId => (goalContextForTask w taskId, w)
  | .record runId row =>
    match w.telemetry.insert? runId row with
    | none => (.error (.integrityError "UNIQUE constraint failed: invocation_telemetry.run_id"), w)
    | some telemetry => (.ok (), { w with telemetry := telemetry })

def machine : Machine Nat Fabric Call Call.Reply Environment where
  act _ w env c := act dg w env c

end

/-! ## Programs -/

abbrev Program := Prog.Raising Runtime.Raised Call Call.Reply

def ask (c : Call) : Program c.Reply := Prog.ask c

def read : Program Db := ask (.runtime .read)

def getTask (taskId : String) : Program TaskRow := do
  Prog.result (match (← read).tasks.get? taskId with
  | some task => .ok task
  | none => .error (.keyError taskId))

def recordInvocationTelemetry (taskId runId : String) : Program Unit := do
  if ← ask (.containsRun runId) then return
  let goalId ← ask (.goalContext taskId)
  Prog.result ((← ask (.record runId ⟨taskId, goalId⟩)).mapError .store)

/-- The telemetry that belongs to the bookkeeping of a run, if it is due. -/
def accountInvocation (runId : String) : Program Unit := do
  if ← ask (.invocationEnded runId) then
    match (← read).runs.get? runId with
    | some run => recordInvocationTelemetry run.taskId runId
    | none => return

/-- A call of a runtime.  Bookkeeping records the telemetry of the run where it is due and fails with it; the runtime
makes no transaction of a goal. -/
def runtimeCall : (c : Runtime.Call) → Prog Call Call.Reply c.Reply
  | .account runId => do
    match ← (accountInvocation runId).run with
    | .ok _ => Prog.perform (Call.runtime (.account runId))
    | .error _ => return .error (.other "invocation telemetry was not recorded")
  | .store (.goal _) => .ret (.error (.typeError "not a transaction of the runtime"))
  | c => Prog.perform (Call.runtime c)

def ofRuntime {α : Type} (p : Runtime.Program α) : Program α := ExceptT.mk (p.run.interp runtimeCall)

end AgentFabric.Submission
