import AgentFabric.Lib.Threads
import AgentFabric.Store.Ops

/-!
# The autonomous iteration engine

`AutonomousIterationEngine` of `autonomy.py` as a program over the supervisor database. Each call is one transaction,
one query or one question to a collaborator; between two calls the human controls and every other client of the store
may run, and the engine may crash.
-/

namespace AgentFabric.Autonomy

open AgentFabric.Lib AgentFabric.Store

structure BudgetObservation where
  totalTokens : Option Nat
  costUsd : Option Rat
deriving DecidableEq

inductive Call where
  | transact (op : GoalOp)
  | store (op : StoreOp)
  | getGoal (goalId : String)
  | activeIteration (goalId : String)
  | getIteration (iterationId : String)
  | listActions (iterationId : String)
  | assertOwnership
  | liveWork (goalId : String)
  | now
  | uuid
  | observeBudget (goalId : String)
  | evaluate (goalId : String)
  | plan (goalId : String) (evaluation : GoalEvaluation)
  | verify (goalId : String) (results : List ActionResult)
  | dispatch (action : PlannedAction) (actionId : String)
  | recover (action : PlannedAction) (handle : DispatchHandle)
  | collected (actionIds : List String)
  | cancel (handle : DispatchHandle)

abbrev Call.Reply : Call → Type
  | .transact op => Except StoreError op.Reply
  | .store op => Except StoreError op.Reply
  | .getGoal _ => Except StoreError GoalRow
  | .activeIteration _ => Option String
  | .getIteration _ => Except StoreError IterationRow
  | .listActions _ => List (String × ActionRow)
  | .assertOwnership => Except String Unit
  | .liveWork _ | .cancel _ => Bool
  | .now => Nat
  | .uuid => String
  | .observeBudget _ => BudgetObservation
  | .evaluate _ => Option GoalEvaluation
  | .plan _ _ => Option GoalPlan
  | .verify _ _ => Option GoalVerification
  | .dispatch _ _ | .recover _ _ => Except String DispatchHandle
  | .collected _ => List (String × Except String ActionResult)

/-- What the collaborators answer at one call; `none` and `.error` are raised exceptions. -/
structure Environment where
  owned : Except String Unit
  liveWork : Bool
  now : Nat
  uuid : String
  budget : BudgetObservation
  evaluation : Option GoalEvaluation
  plan : Option GoalPlan
  verification : Option GoalVerification
  handle : Except String DispatchHandle
  finished : List (String × Except String ActionResult)
  cancelled : Bool

/-- The host owns the goal, and nobody answers. -/
def Environment.silent : Environment where
  owned := .ok ()
  liveWork := false
  now := 0
  uuid := "1"
  budget := ⟨none, none⟩
  evaluation := none
  plan := none
  verification := none
  handle := .error ""
  finished := []
  cancelled := false

def laterIteration (a b : String × IterationRow) : String × IterationRow :=
  if a.2.sequence < b.2.sequence then b else a

/-- `ORDER BY sequence DESC LIMIT 1` over the iterations of a goal that are not finished. -/
def activeIteration (db : Db) (goalId : String) : Option String :=
  match db.iterations.rows.filter fun e => decide (e.2.goalId = goalId) && e.2.state.active with
  | [] => none
  | e :: es => some (es.foldl laterIteration e).1

/-- `ORDER BY ordinal`. -/
def listActions (db : Db) (iterationId : String) : List (String × ActionRow) :=
  (db.actions.rows.filter fun e => decide (e.2.iterationId = iterationId)).mergeSort fun a b =>
    decide (a.2.ordinal ≤ b.2.ordinal)

/-- A transaction that raises commits nothing. -/
def commit {α : Type} (db : Db) (op : Except StoreError (α × Db)) : Except StoreError α × Db :=
  match op with
  | .ok (a, db') => (.ok a, db')
  | .error e => (.error e, db)

section

variable (dg : Digests)

def act (db : Db) (env : Environment) : (c : Call) → c.Reply × Db
  | .transact op => commit db (execGoal op db)
  | .store op => commit db (exec dg op db)
  | .getGoal goalId => (getGoal db goalId, db)
  | .activeIteration goalId => (activeIteration db goalId, db)
  | .getIteration iterationId => (getIteration db iterationId, db)
  | .listActions iterationId => (listActions db iterationId, db)
  | .assertOwnership => (env.owned, db)
  | .liveWork _ => (env.liveWork, db)
  | .now => (env.now, db)
  | .uuid => (env.uuid, db)
  | .observeBudget _ => (env.budget, db)
  | .evaluate _ => (env.evaluation, db)
  | .plan _ _ => (env.plan, db)
  | .verify _ _ => (env.verification, db)
  | .dispatch _ _ => (env.handle, db)
  | .recover _ _ => (env.handle, db)
  | .collected _ => (env.finished, db)
  | .cancel _ => (env.cancelled, db)

end

/-! ## The engine -/

inductive Raised where
  | store (error : StoreError)
  | ownershipLost (message : String)
  | collaborator
deriving DecidableEq, Repr

abbrev Engine := Prog.Raising Raised Call Call.Reply

def ask (c : Call) : Engine c.Reply := Prog.ask c

def answered {α : Type} (x : Except StoreError α) : Engine α := Prog.result (x.mapError .store)

/-- The answer of a collaborator that may raise. -/
def obtained {α : Type} (x : Option α) : Engine α := Prog.result (match x with
  | some a => .ok a
  | none => .error .collaborator)

def transact (op : GoalOp) : Engine op.Reply := do
  answered (← ask (.transact op))

def fetchGoal (goalId : String) : Engine GoalRow := do
  answered (← ask (.getGoal goalId))

def assertOwnership : Engine Unit := do
  match ← ask .assertOwnership with
  | .ok _ => return
  | .error message => throw (.ownershipLost message)

/-- `_control_gate`: the goal is not running. -/
def controlGate (goalId : String) : Engine Bool := do
  return (← fetchGoal goalId).state ≠ .running

/-- The goal has run at least as long as its budget allows. -/
def elapsed (goal : GoalRow) (now : Nat) : Bool :=
  match goal.budgets.maxElapsedMicros, goal.startedAt with
  | some limit, some started => decide (limit ≤ now - started * 1000000)
  | _, _ => false

/-- What an observation says about the consumption limits; unknown consumption counts only between iterations. -/
def consumptionLimit (budget : GoalBudget) (observed : BudgetObservation) : Option (TerminationReason × String) :=
  let tokens : Option (TerminationReason × String) := match budget.maxTotalTokens, observed.totalTokens with
    | some _, none => some (.budgetLimit, "token budget cannot be safely observed")
    | some limit, some n => if limit ≤ n then some (.budgetLimit, "maximum observed tokens reached") else none
    | none, _ => none
  let cost : Option (TerminationReason × String) := match budget.maxCostUsd, observed.costUsd with
    | some _, none => some (.budgetLimit, "cost budget cannot be safely observed")
    | some limit, some c => if limit ≤ c then some (.budgetLimit, "maximum observed cost reached") else none
    | none, _ => none
  tokens.or cost

def inflightLimit (budget : GoalBudget) (observed : BudgetObservation) : Option (TerminationReason × String) :=
  let tokens : Option (TerminationReason × String) := match budget.maxTotalTokens, observed.totalTokens with
    | some limit, some n =>
      if limit ≤ n then some (.budgetLimit, "maximum observed tokens reached during work") else none
    | _, _ => none
  let cost : Option (TerminationReason × String) := match budget.maxCostUsd, observed.costUsd with
    | some limit, some c => if limit ≤ c then some (.budgetLimit, "maximum observed cost reached during work") else none
    | _, _ => none
  tokens.or cost

def budgetGuard (goalId : String) (goal : GoalRow) : Engine (Option (TerminationReason × String)) := do
  if goal.budgets.maxIterations ≤ goal.iterationCount then
    return some (.iterationLimit, "maximum autonomous iterations reached")
  if goal.budgets.maxTasks ≤ goal.taskCount then
    return some (.budgetLimit, "maximum generated tasks reached")
  if goal.budgets.maxFailures ≤ goal.failureCount then
    return some (.repeatedFailure, "maximum failed actions reached")
  if elapsed goal (← ask .now) then
    return some (.budgetLimit, "maximum elapsed time reached")
  if goal.budgets.maxTotalTokens.isNone && goal.budgets.maxCostUsd.isNone then return none
  return consumptionLimit goal.budgets (← ask (.observeBudget goalId))

def inflightBudgetGuard (goalId : String) (goal : GoalRow) : Engine (Option (TerminationReason × String)) := do
  if elapsed goal (← ask .now) then
    return some (.budgetLimit, "maximum elapsed time reached during work")
  if goal.budgets.maxTotalTokens.isNone && goal.budgets.maxCostUsd.isNone then return none
  return inflightLimit goal.budgets (← ask (.observeBudget goalId))

/-- The limits hold the work of a running goal only. -/
def workGuard (goalId : String) (goal : GoalRow) : Engine (Option (TerminationReason × String)) :=
  if goal.state = .running then inflightBudgetGuard goalId goal else return none

/-- The steer version that a persisted decision was made under; an old checkpoint without one cannot match a goal that
was steered. -/
def checkpointVersion (stored : Option Nat) (goal : GoalRow) : Int :=
  match stored with
  | some version => version
  | none => if 0 < goal.steerVersion then -1 else 0

/-- Load or record the verifier's decision for an iteration. -/
def verificationCheckpoint (goalId iterationId : String) (results : List ActionResult) (expected : Int) :
    Engine (Option (GoalVerification × Int)) := do
  let iteration ← answered (← ask (.getIteration iterationId))
  match iteration.verification with
  | some persisted =>
    let goal ← fetchGoal goalId
    if persisted.steerVersion = none ∧ 0 < goal.steerVersion then
      let _ ← transact (.phaseIsCurrent goalId iterationId (-1))
      return none
    return some (persisted.decision, (persisted.steerVersion.getD 0 : Nat))
  | none =>
    if ← controlGate goalId then return none
    if !(← transact (.phaseIsCurrent goalId iterationId expected)) then return none
    transact (.setIterationState iterationId .verifying)
    let goal ← fetchGoal goalId
    let verification ← obtained (← ask (.verify goalId results))
    assertOwnership
    if !(← transact (.recordVerification iterationId verification goal.steerVersion)) then return none
    return some (verification, goal.steerVersion)

/-- Apply a persisted verifier decision; a live canonical side effect holds a success back. -/
def applyVerificationOutcome (goalId iterationId : String) (verification : GoalVerification) (failures : Nat)
    (expected : Int) : Engine Unit := do
  if verification.satisfied then
    let _ ← fetchGoal goalId
    if ← ask (.liveWork goalId) then return
    let _ ← transact (.terminatePhaseIfCurrent goalId iterationId .success verification.summary expected)
    return
  match verification.terminationReason with
  | some reason =>
    let _ ← transact (.terminatePhaseIfCurrent goalId iterationId reason verification.summary expected)
  | none =>
    if !(← transact (.phaseIsCurrent goalId iterationId expected)) then return
    let iteration ← answered (← ask (.getIteration iterationId))
    if iteration.state ≠ .replanning then
      transact (.completeReplan goalId iterationId verification failures)
    transact (.setIterationState iterationId .completed)

/-- Verify an iteration and apply the outcome. -/
def verifyPhase (goalId iterationId : String) (results : List ActionResult) (failures : Nat) (expected : Int) :
    Engine Unit := do
  match ← verificationCheckpoint goalId iterationId results expected with
  | none => return
  | some (verification, version) => applyVerificationOutcome goalId iterationId verification failures version

/-- `str(error)`; the key of a `KeyError` is quoted. -/
def StoreError.text : StoreError → String
  | .keyError key => "'" ++ key ++ "'"
  | .valueError message | .typeError message | .runtimeError message | .verificationPolicy message
  | .invalidTransition message | .executionLeaseLost message | .integrityError message => message

/-- The action runs under its handle; an error of the store fails it. -/
def recordRunning (actionId : String) (handle : DispatchHandle) : Engine Bool := do
  match ← ask (.transact (.setAction actionId .running (some handle) none none)) with
  | .ok _ => return true
  | .error error =>
    transact (.setAction actionId .failed none none (some (StoreError.text error)))
    return false

/-- What becomes of an action once the dispatcher answered; whatever the attempt raises fails the action. -/
def recordDispatch (actionId : String) : Except String DispatchHandle → Engine Bool
  | .error error => do
    transact (.setAction actionId .failed none none (some error))
    return false
  | .ok handle => do
    match ← ask .assertOwnership with
    | .ok _ => recordRunning actionId handle
    | .error message =>
      transact (.setAction actionId .failed none none (some message))
      return false

/-- One action is handed to the dispatcher, or recovered under its handle. -/
def dispatchAction (actionId : String) (row : ActionRow) : Engine Bool := do
  transact (.setAction actionId .dispatching none none none)
  match row.dispatchRef with
  | none => recordDispatch actionId (← ask (.dispatch row.action actionId))
  | some handle => recordDispatch actionId (← ask (.recover row.action handle))

/-- The planned actions are dispatched in order until a control stops the goal. -/
def dispatchActions (goalId : String) : List (String × ActionRow) → Engine (List String)
  | [] => return []
  | (actionId, row) :: rest => do
    if row.state ≠ .planned ∧ row.state ≠ .dispatching then return ← dispatchActions goalId rest
    if ← controlGate goalId then return []
    assertOwnership
    let started ← dispatchAction actionId row
    let others ← dispatchActions goalId rest
    return if started then actionId :: others else others

/-- The running actions whose collection starts now. -/
def attachActions (startedNow : List String) : List (String × ActionRow) → Engine (List (String × DispatchHandle))
  | [] => return []
  | (actionId, row) :: rest => do
    match row.dispatchRef with
    | none =>
      transact (.setAction actionId .failed none none (some "missing dispatch handle"))
      attachActions startedNow rest
    | some handle =>
      if startedNow.contains actionId then
        return (actionId, handle) :: (← attachActions startedNow rest)
      match ← ask (.recover row.action handle) with
      | .error error =>
        transact (.setAction actionId .failed none none (some error))
        attachActions startedNow rest
      | .ok handle =>
        if ← recordRunning actionId handle then
          return (actionId, handle) :: (← attachActions startedNow rest)
        attachActions startedNow rest

def ActionResult.target (result : ActionResult) : ActionState :=
  if result.cancelled then .cancelled else if result.succeeded then .completed else .failed

/-- A collected result, or the error that its collection raised. -/
def recordOutcome (outcome : String × Except String ActionResult) : Engine Unit :=
  match outcome.2 with
  | .ok result => transact (.setAction outcome.1 (ActionResult.target result) none (some result) none)
  | .error error => transact (.setAction outcome.1 .failed none none (some error))

def requestCancellations (pending : List (String × DispatchHandle)) : Engine Unit :=
  pending.forM fun p => do let _ ← ask (.cancel p.2)

/-- The `finally` block of the collection: whatever ends it early requests the cancellation of what is pending. -/
def orAbandon {α : Type} (pending : List (String × DispatchHandle)) (p : Engine α) : Engine α := do
  match ← Prog.attempt p with
  | .ok a => return a
  | .error e =>
    requestCancellations pending
    throw e

/-- The collection of the pending actions ends because a control ended the work. -/
def cancelPending : List (String × DispatchHandle) → Engine Unit
  | [] => return
  | p :: rest => do
    orAbandon rest
      (transact (.setAction p.1 .cancelled none none (some "collection stopped after terminal control")))
    cancelPending rest

/-- The outcomes of the actions that finished; the others stay pending. -/
def settle : List (String × Except String ActionResult) → List (String × DispatchHandle) →
    Engine (List (String × DispatchHandle))
  | [], pending => return pending
  | outcome :: rest, pending =>
    if (pending.map Prod.fst).contains outcome.1 then do
      let pending := pending.filter fun p => p.1 ≠ outcome.1
      orAbandon pending (recordOutcome outcome)
      settle rest pending
    else settle rest pending

/-- The work has to end: a limit is hit, which terminates the goal, or a control ended it. -/
def workEnds (goalId : String) : Engine Bool := do
  let goal ← fetchGoal goalId
  assertOwnership
  match ← workGuard goalId goal with
  | some (reason, detail) =>
    transact (.terminate goalId reason detail)
    return true
  | none => return goal.state = .hardPaused ∨ goal.state.final = true

/-- The collection loop, for as many polls as the engine lives; an engine that runs out of them is cancelled here. -/
def collect (goalId : String) : Nat → List (String × DispatchHandle) → Engine Unit
  | _, [] => return
  | 0, pending => orAbandon pending (throw .collaborator)
  | polls + 1, pending => do
    let finished ← ask (.collected (pending.map Prod.fst))
    if ← orAbandon pending (workEnds goalId) then
      requestCancellations pending
      cancelPending pending
    else collect goalId polls (← settle finished pending)

def dispatchAndCollect (goalId iterationId : String) (polls : Nat) : Engine Unit := do
  transact (.setIterationState iterationId .dispatching)
  let _ ← fetchGoal goalId
  let startedNow ← dispatchActions goalId (← ask (.listActions iterationId))
  let running := (← ask (.listActions iterationId)).filter fun e => decide (e.2.state = .running)
  if running.isEmpty then return
  transact (.setIterationState iterationId .collecting)
  let pending ← attachActions startedNow running
  collect goalId polls pending

/-- An empty error text counts as none. -/
def errorText (action : ActionRow) : String :=
  match action.error with
  | some text => if text = "" then "action ended in " ++ action.state.value else text
  | none => "action ended in " ++ action.state.value

def resultFromAction (action : ActionRow) : ActionResult :=
  action.result.getD ⟨false, errorText action, "", decide (action.state = .cancelled)⟩

def ActionState.unfinished : ActionState → Bool
  | .planned | .dispatching | .running => true
  | _ => false

/-- The evaluation of the iteration and the steer version it was made under. -/
def evaluationPhase (goalId iterationId : String) : Engine (Option (GoalEvaluation × Int)) := do
  let iteration ← answered (← ask (.getIteration iterationId))
  let goal ← fetchGoal goalId
  match iteration.evaluation with
  | some persisted => return some (persisted.decision, checkpointVersion persisted.steerVersion goal)
  | none =>
    let evaluation ← obtained (← ask (.evaluate goalId))
    assertOwnership
    if !(← transact (.recordEvaluation iterationId evaluation goal.steerVersion)) then return none
    return some (evaluation, goal.steerVersion)

section

-- the name-based identity of an action
variable (uuid5 : String → String)

/-- The plan of the iteration is on record; otherwise the phase ended here. -/
def planPhase (goalId iterationId : String) (evaluation : GoalEvaluation) : Engine Bool := do
  let iteration ← answered (← ask (.getIteration iterationId))
  if iteration.plan.isSome then return true
  if ← controlGate goalId then return false
  let planning ← fetchGoal goalId
  let plan ← obtained (← ask (.plan goalId evaluation))
  assertOwnership
  if (← fetchGoal goalId).steerVersion ≠ planning.steerVersion then
    transact (.interruptForSteer goalId iterationId)
    return false
  if plan.actions.isEmpty then
    let _ ← transact (.terminatePhaseIfCurrent goalId iterationId .noProgress
      "planner produced no next actions for an incomplete goal" planning.steerVersion)
    return false
  let goal ← fetchGoal goalId
  if goal.budgets.maxTasks < goal.taskCount + plan.actions.length then
    let _ ← transact (.terminatePhaseIfCurrent goalId iterationId .budgetLimit
      "planned actions would exceed max_tasks" planning.steerVersion)
    return false
  transact (.recordPlan iterationId goalId plan planning.steerVersion fun key =>
    "act-" ++ uuid5 (iterationId ++ ":" ++ key))

/-- Dispatch, collect and verify the actions of a planned iteration. -/
def workPhase (goalId iterationId : String) (polls : Nat) : Engine Unit := do
  if ← controlGate goalId then return
  dispatchAndCollect goalId iterationId polls
  assertOwnership
  let goal ← fetchGoal goalId
  if goal.state.paused then return
  if goal.state.final then
    transact (.setIterationState iterationId .interrupted)
    return
  let actions ← ask (.listActions iterationId)
  if actions.any fun e => ActionState.unfinished e.2.state then return
  let results := actions.map fun e => resultFromAction e.2
  let goal ← fetchGoal goalId
  verifyPhase goalId iterationId results (results.countP fun r => !r.succeeded) goal.steerVersion

def advanceIteration (goalId iterationId : String) (polls : Nat) : Engine Unit := do
  match ← evaluationPhase goalId iterationId with
  | none => return
  | some (evaluation, version) =>
    if !(← transact (.phaseIsCurrent goalId iterationId version)) then return
    match evaluation.disposition, evaluation.terminationReason with
    | .satisfied, _ => verifyPhase goalId iterationId [] 0 version
    | .terminate, some reason =>
      let _ ← transact (.terminatePhaseIfCurrent goalId iterationId reason evaluation.summary version)
    | .terminate, none => throw .collaborator
    | .incomplete, _ =>
      let goal ← fetchGoal goalId
      if goal.budgets.noProgressLimit ≤ goal.noProgressCount then
        let _ ← transact (.terminatePhaseIfCurrent goalId iterationId .noProgress
          "evaluation progress fingerprint repeated beyond configured limit" version)
      else if ← planPhase uuid5 goalId iterationId evaluation then workPhase goalId iterationId polls

def ensureStarted (goalId : String) : Engine GoalRow := do
  let goal ← fetchGoal goalId
  if goal.state = .created then
    transact (.start goalId (← ask .now))
    fetchGoal goalId
  else return goal

def runOnce (goalId : String) (polls : Nat) : Engine Unit := do
  assertOwnership
  let goal ← ensureStarted goalId
  if goal.state ≠ .running then return
  match ← ask (.activeIteration goalId) with
  | some iterationId => advanceIteration uuid5 goalId iterationId polls
  | none =>
    match ← budgetGuard goalId goal with
    | some (reason, detail) => transact (.terminate goalId reason detail)
    | none =>
      let iterationId ← transact (.beginIteration goalId (← ask .uuid))
      advanceIteration uuid5 goalId iterationId polls

/-- The loop of the engine, for as many rounds as it lives. -/
def run (goalId : String) (polls : Nat) : Nat → Engine Unit
  | 0 => return
  | rounds + 1 => do
    let goal ← fetchGoal goalId
    if goal.state.paused || goal.state.final then return
    runOnce uuid5 goalId polls
    run goalId polls rounds

/-! ## Who runs -/

/-- One engine for each goal, any number of other clients. -/
inductive Slot where
  | engine (goalId : String)
  | client (n : Nat)
deriving DecidableEq

/-- What a client asks for: a control of a goal, or any store operation that is not about goals. -/
inductive Request where
  | createGoal (goalId projectId intent : String) (budgets : GoalBudget)
  | pause (goalId : String) (mode : PauseMode)
  | resume (goalId : String) (now : Nat)
  | steer (goalId instruction : String) (priority : Option Int)
  | stop (goalId reason : String)
  | store (op : StoreOp) (other : op.writesGoals = false)
  | engine (rounds polls : Nat)

def control : Request → Engine Unit
  | .createGoal goalId projectId intent budgets => transact (.createGoal goalId projectId intent budgets)
  | .pause goalId mode => transact (.pause goalId mode)
  | .resume goalId now => transact (.resume goalId now)
  | .steer goalId instruction priority => transact (.steer goalId instruction priority)
  | .stop goalId reason => transact (.stop goalId reason)
  | .store op _ => do let _ ← ask (.store op)
  | .engine _ _ => return

/-- An engine slot runs the engine of its goal; the other slots serve requests. -/
def serve : Slot → Request → Prog Call Call.Reply Unit
  | .engine goalId, .engine rounds polls => (run uuid5 goalId polls rounds).run.bind fun _ => .ret ()
  | _, request => (control request).run.bind fun _ => .ret ()

end

def machine (dg : Digests) : Machine Slot Db Call Call.Reply Environment where
  act _ db env c := act dg db env c

end AgentFabric.Autonomy
