import AgentFabric.Store.Schema

/-!
# Autonomous goals

The transactions of `GoalService` and of `AutonomousIterationEngine` in `autonomy.py`: the human controls of a goal
and the persisted phases of its iterations.
-/

namespace AgentFabric.Store

open AgentFabric.Lib

def GoalState.final : GoalState → Bool
  | .stopped | .terminated => true
  | _ => false

def GoalState.paused : GoalState → Bool
  | .softPaused | .hardPaused => true
  | _ => false

/-- `_get_row`. -/
def getGoal (db : Db) (goalId : String) : Except StoreError GoalRow := orRaise (db.goals.get? goalId) (.keyError goalId)

/-- Terminal goals cannot be controlled. -/
def requireMutable (db : Db) (goalId : String) : Except StoreError GoalRow := do
  let goal ← getGoal db goalId
  ensure (goal.state.final = false) (.valueError "terminal goals cannot be controlled")
  return goal

def setGoal (db : Db) (goalId : String) (f : GoalRow → GoalRow) : Db := { db with goals := db.goals.modify goalId f }

def setIteration (db : Db) (iterationId : String) (f : IterationRow → IterationRow) : Db :=
  { db with iterations := db.iterations.modify iterationId f }

/-! ## The human controls -/

def createGoal (db : Db) (goalId projectId intent : String) (budgets : GoalBudget) : Except StoreError (Unit × Db) := do
  ensure (blank intent = false) (.valueError "goal intent is required")
  let goals ← orRaise (db.goals.insert? goalId
    { projectId := projectId
      state := .created
      terminationReason := none
      terminationDetail := none
      budgets := budgets
      iterationCount := 0
      noProgressCount := 0
      taskCount := 0
      failureCount := 0
      steerVersion := 0
      progressFingerprint := none
      startedAt := none }) (.integrityError "UNIQUE constraint failed: autonomous_goals.id")
  return ((), { db with goals := goals })

def PauseMode.target : PauseMode → GoalState
  | .soft => .softPaused
  | .hard => .hardPaused

def GoalRow.withState (state : GoalState) (goal : GoalRow) : GoalRow := { goal with state := state }

def pauseGoal (db : Db) (goalId : String) (mode : PauseMode) : Except StoreError (Unit × Db) := do
  let goal ← requireMutable db goalId
  if goal.state = mode.target then return ((), db)
  return ((), setGoal db goalId (·.withState mode.target))

def GoalRow.resume (now : Nat) (goal : GoalRow) : GoalRow :=
  { goal with state := .running, startedAt := some (goal.startedAt.getD (timestamp now)) }

def resumeGoal (db : Db) (goalId : String) (now : Nat) : Except StoreError (Unit × Db) := do
  let goal ← getGoal db goalId
  ensure (goal.state.paused = true) (.valueError "only a paused goal can be resumed")
  return ((), setGoal db goalId (·.resume now))

def GoalRow.steer (goal : GoalRow) : GoalRow := { goal with steerVersion := goal.steerVersion + 1 }

def steerGoal (db : Db) (goalId instruction : String) (priority : Option Int) : Except StoreError (Unit × Db) := do
  ensure (blank instruction = false) (.valueError "steer instruction is required")
  ensure (∀ p ∈ priority, 0 ≤ p ∧ p ≤ 100) (.valueError "priority must be between 0 and 100")
  let goal ← requireMutable db goalId
  let db := setGoal db goalId (·.steer)
  return ((), { db with events := db.events ++ [.goalSteered goalId (some (goal.steerVersion + 1))] })

def GoalRow.finish (state : GoalState) (reason : TerminationReason) (detail : String) (goal : GoalRow) : GoalRow :=
  { goal with state := state, terminationReason := some reason, terminationDetail := some detail }

def stopGoal (db : Db) (goalId reason : String) : Except StoreError (Unit × Db) := do
  ensure (blank reason = false) (.valueError "stop reason is required")
  let _ ← requireMutable db goalId
  return ((), setGoal db goalId (·.finish .stopped .userStopped reason))

/-! ## The phases of an iteration -/

def GoalRow.start (now : Nat) (goal : GoalRow) : GoalRow :=
  { goal with state := .running, startedAt := some (timestamp now) }

def startGoal (db : Db) (goalId : String) (now : Nat) : Except StoreError (Unit × Db) := do
  let goal ← getGoal db goalId
  if goal.state ≠ .created then return ((), db)
  return ((), setGoal db goalId (·.start now))

def GoalRow.iterate (sequence : Nat) (goal : GoalRow) : GoalRow := { goal with iterationCount := sequence }

def sequenceTaken (db : Db) (goalId : String) (sequence : Nat) : Bool :=
  db.iterations.any fun _ i => decide (i.goalId = goalId ∧ i.sequence = sequence)

def beginIteration (db : Db) (goalId uuid : String) : Except StoreError (String × Db) := do
  let goal ← getGoal db goalId
  let sequence := goal.iterationCount + 1
  let iterationId := "iter-" ++ uuid
  ensure (sequenceTaken db goalId sequence = false)
    (.integrityError "UNIQUE constraint failed: autonomous_iterations.goal_id, autonomous_iterations.sequence")
  let iterations ← orRaise (db.iterations.insert? iterationId
    ⟨goalId, sequence, .evaluating, none, none, none⟩)
    (.integrityError "UNIQUE constraint failed: autonomous_iterations.id")
  let db := setGoal { db with iterations := iterations } goalId (·.iterate sequence)
  return (iterationId, { db with events := db.events ++ [.goalIterationStarted iterationId] })

def IterationRow.withState (state : IterationState) (iteration : IterationRow) : IterationRow :=
  { iteration with state := state }

/-- `_interrupt_stale_phase`: a decision made under another steer version interrupts its iteration. -/
def stalePhase (db : Db) (goal : GoalRow) (iterationId : String) (expected : Int) : Option Db :=
  if (goal.steerVersion : Int) = expected then none
  else some (setIteration db iterationId (·.withState .interrupted))

def getIteration (db : Db) (iterationId : String) : Except StoreError IterationRow :=
  orRaise (db.iterations.get? iterationId) (.keyError iterationId)

def GoalRow.evaluated (fingerprint : String) (goal : GoalRow) : GoalRow :=
  { goal with
    progressFingerprint := some fingerprint
    noProgressCount := if goal.progressFingerprint = some fingerprint then goal.noProgressCount + 1 else 0 }

def IterationRow.evaluate (checkpoint : Checkpoint GoalEvaluation) (iteration : IterationRow) : IterationRow :=
  { iteration with evaluation := some checkpoint }

def recordEvaluation (db : Db) (iterationId : String) (evaluation : GoalEvaluation) (expected : Int) :
    Except StoreError (Bool × Db) := do
  let iteration ← getIteration db iterationId
  let goal ← getGoal db iteration.goalId
  match stalePhase db goal iterationId expected with
  | some db => return (false, db)
  | none =>
    let db := setIteration db iterationId (·.evaluate ⟨evaluation, some expected.toNat⟩)
    return (true, setGoal db iteration.goalId (·.evaluated evaluation.progressFingerprint))

def IterationRow.planWith (plan : GoalPlan) (iteration : IterationRow) : IterationRow :=
  { iteration with state := .planned, plan := some plan }

def GoalRow.addTasks (count : Nat) (goal : GoalRow) : GoalRow := { goal with taskCount := goal.taskCount + count }

/-- The rows of a plan, in order; each action has an identity derived from its key. -/
def plannedRows (goalId iterationId : String) (actionId : String → String) (actions : List PlannedAction) :
    List (String × ActionRow) :=
  actions.zipIdx.map fun a =>
    (actionId a.1.key, ⟨goalId, iterationId, a.2, a.1, .planned, none, none, none, none⟩)

def recordPlan (db : Db) (iterationId goalId : String) (plan : GoalPlan) (expected : Int)
    (actionId : String → String) : Except StoreError (Bool × Db) := do
  ensure ((plan.actions.map (·.key)).Nodup) (.valueError "planned action keys must be unique")
  let goal ← getGoal db goalId
  match stalePhase db goal iterationId expected with
  | some db => return (false, db)
  | none =>
    let actions ← orRaise (db.actions.insertAll? (plannedRows goalId iterationId actionId plan.actions))
      (.integrityError "UNIQUE constraint failed: autonomous_actions.id")
    let db := setIteration { db with actions := actions } iterationId (·.planWith plan)
    return (true, setGoal db goalId (·.addTasks plan.actions.length))

def IterationRow.verify (checkpoint : Checkpoint GoalVerification) (iteration : IterationRow) : IterationRow :=
  { iteration with verification := some checkpoint }

def recordGoalVerification (db : Db) (iterationId : String) (verification : GoalVerification) (expected : Int) :
    Except StoreError (Bool × Db) := do
  let iteration ← getIteration db iterationId
  let goal ← getGoal db iteration.goalId
  match stalePhase db goal iterationId expected with
  | some db => return (false, db)
  | none => return (true, setIteration db iterationId (·.verify ⟨verification, some expected.toNat⟩))

def phaseIsCurrent (db : Db) (goalId iterationId : String) (expected : Int) : Except StoreError (Bool × Db) := do
  let goal ← getGoal db goalId
  match stalePhase db goal iterationId expected with
  | some db => return (false, db)
  | none => return (true, db)

def GoalRow.replan (fingerprint : String) (failures : Nat) (goal : GoalRow) : GoalRow :=
  { goal with
    progressFingerprint := some fingerprint
    noProgressCount := if goal.progressFingerprint = some fingerprint then goal.noProgressCount else 0
    failureCount := goal.failureCount + failures }

def completeReplan (db : Db) (goalId iterationId : String) (verification : GoalVerification) (failures : Nat) :
    Except StoreError (Unit × Db) := do
  let _ ← getGoal db goalId
  let db := setGoal db goalId (·.replan verification.progressFingerprint failures)
  return ((), setIteration db iterationId (·.withState .replanning))

def terminateGoal (db : Db) (goalId : String) (reason : TerminationReason) (detail : String) :
    Except StoreError (Unit × Db) := do
  let goal ← getGoal db goalId
  if goal.state.final then return ((), db)
  return ((), setGoal db goalId (·.finish .terminated reason detail))

/-- A termination decided by a phase, fenced against a concurrent steer. -/
def terminatePhaseIfCurrent (db : Db) (goalId iterationId : String) (reason : TerminationReason) (detail : String)
    (expected : Int) : Except StoreError (Bool × Db) := do
  let goal ← getGoal db goalId
  match stalePhase db goal iterationId expected with
  | some db => return (false, db)
  | none =>
    if goal.state.final then return (true, db)
    let db := setGoal db goalId (·.finish .terminated reason detail)
    return (true, setIteration db iterationId (·.withState .completed))

def interruptForSteer (db : Db) (goalId iterationId : String) : Except StoreError (Unit × Db) := do
  let _ ← getGoal db goalId
  return ((), setIteration db iterationId (·.withState .interrupted))

/-- `_set_iteration_state` and `_finish_iteration`. -/
def setIterationState (db : Db) (iterationId : String) (state : IterationState) : Except StoreError (Unit × Db) :=
  .ok ((), setIteration db iterationId (·.withState state))

def ActionRow.set (state : ActionState) (handle : Option DispatchHandle) (result : Option ActionResult)
    (error : Option String) (action : ActionRow) : ActionRow :=
  { action with
    state := state
    taskId := (handle.bind (·.taskId)).or action.taskId
    dispatchRef := handle.or action.dispatchRef
    result := result.or action.result
    error := error.or action.error }

def setAction (db : Db) (actionId : String) (state : ActionState) (handle : Option DispatchHandle)
    (result : Option ActionResult) (error : Option String) : Except StoreError (Unit × Db) := do
  let action ← orRaise (db.actions.get? actionId) (.keyError actionId)
  let _ ← getGoal db action.goalId
  return ((), { db with actions := db.actions.modify actionId (·.set state handle result error) })

/-! ## The transactions as one type -/

inductive GoalOp where
  | createGoal (goalId projectId intent : String) (budgets : GoalBudget)
  | pause (goalId : String) (mode : PauseMode)
  | resume (goalId : String) (now : Nat)
  | steer (goalId instruction : String) (priority : Option Int)
  | stop (goalId reason : String)
  | start (goalId : String) (now : Nat)
  | beginIteration (goalId uuid : String)
  | recordEvaluation (iterationId : String) (evaluation : GoalEvaluation) (expected : Int)
  | recordPlan (iterationId goalId : String) (plan : GoalPlan) (expected : Int) (actionId : String → String)
  | recordVerification (iterationId : String) (verification : GoalVerification) (expected : Int)
  | phaseIsCurrent (goalId iterationId : String) (expected : Int)
  | completeReplan (goalId iterationId : String) (verification : GoalVerification) (failures : Nat)
  | terminate (goalId : String) (reason : TerminationReason) (detail : String)
  | terminatePhaseIfCurrent (goalId iterationId : String) (reason : TerminationReason) (detail : String)
      (expected : Int)
  | interruptForSteer (goalId iterationId : String)
  | setIterationState (iterationId : String) (state : IterationState)
  | setAction (actionId : String) (state : ActionState) (handle : Option DispatchHandle)
      (result : Option ActionResult) (error : Option String)

abbrev GoalOp.Reply : GoalOp → Type
  | .beginIteration .. => String
  | .recordEvaluation .. | .recordPlan .. | .recordVerification .. | .phaseIsCurrent ..
  | .terminatePhaseIfCurrent .. => Bool
  | _ => Unit

def execGoal : (op : GoalOp) → Db → Except StoreError (op.Reply × Db)
  | .createGoal goalId projectId intent budgets, db => createGoal db goalId projectId intent budgets
  | .pause goalId mode, db => pauseGoal db goalId mode
  | .resume goalId now, db => resumeGoal db goalId now
  | .steer goalId instruction priority, db => steerGoal db goalId instruction priority
  | .stop goalId reason, db => stopGoal db goalId reason
  | .start goalId now, db => startGoal db goalId now
  | .beginIteration goalId uuid, db => beginIteration db goalId uuid
  | .recordEvaluation iterationId evaluation expected, db => recordEvaluation db iterationId evaluation expected
  | .recordPlan iterationId goalId plan expected actionId, db => recordPlan db iterationId goalId plan expected actionId
  | .recordVerification iterationId verification expected, db =>
    recordGoalVerification db iterationId verification expected
  | .phaseIsCurrent goalId iterationId expected, db => phaseIsCurrent db goalId iterationId expected
  | .completeReplan goalId iterationId verification failures, db =>
    completeReplan db goalId iterationId verification failures
  | .terminate goalId reason detail, db => terminateGoal db goalId reason detail
  | .terminatePhaseIfCurrent goalId iterationId reason detail expected, db =>
    terminatePhaseIfCurrent db goalId iterationId reason detail expected
  | .interruptForSteer goalId iterationId, db => interruptForSteer db goalId iterationId
  | .setIterationState iterationId state, db => setIterationState db iterationId state
  | .setAction actionId state handle result error, db => setAction db actionId state handle result error

/-! ## What a transaction leaves -/

section

variable {db db' : Db} {goalId iterationId : String} {expected : Int}

variable {goal : GoalRow}

@[simp] theorem getGoal_eq_ok : getGoal db goalId = .ok goal ↔ db.goals.get? goalId = some goal := by
  simp [getGoal]

theorem requireMutable_ok (h : requireMutable db goalId = .ok goal) :
    db.goals.get? goalId = some goal ∧ goal.state.final = false := by
  simp only [requireMutable, bind_eq_ok, getGoal_eq_ok, ensure_eq_ok, pure_eq_ok] at h
  obtain ⟨_, hg, _, hs, rfl⟩ := h
  exact ⟨hg, hs⟩

variable {projectId intent detail : String} {u : Unit}

theorem createGoal_row {budgets : GoalBudget} (h : createGoal db goalId projectId intent budgets = .ok (u, db')) :
    ∃ goal goals, goal.state = .created ∧
      (goal.iterationCount = 0 ∧ goal.taskCount = 0 ∧ goal.failureCount = 0) ∧
      db.goals.insert? goalId goal = some goals ∧ db' = { db with goals := goals } := by
  simp only [createGoal, bind_eq_ok, orRaise_eq_ok, pure_eq_ok, Prod.mk.injEq] at h
  obtain ⟨_, _, goals, hi, _, rfl⟩ := h
  exact ⟨_, goals, rfl, ⟨rfl, rfl, rfl⟩, hi, rfl⟩

theorem createGoal_ok {budgets : GoalBudget} (h : createGoal db goalId projectId intent budgets = .ok (u, db')) :
    ∃ goal goals, goal.state = .created ∧
      goal.iterationCount = 0 ∧ db.goals.insert? goalId goal = some goals ∧ db' = { db with goals := goals } := by
  obtain ⟨goal, goals, hs, hcounters, hi, hdb⟩ := createGoal_row h
  exact ⟨goal, goals, hs, hcounters.1, hi, hdb⟩

theorem pauseGoal_ok {mode : PauseMode} (h : pauseGoal db goalId mode = .ok (u, db')) :
    db' = db ∨ ∃ goal, db.goals.get? goalId = some goal ∧ goal.state.final = false ∧
      db' = setGoal db goalId (·.withState mode.target) := by
  simp only [pauseGoal, bind_eq_ok] at h
  obtain ⟨goal, hg, h⟩ := h
  obtain ⟨hrow, hs⟩ := requireMutable_ok hg
  split at h
  · cases h; exact Or.inl rfl
  · cases h; exact Or.inr ⟨goal, hrow, hs, rfl⟩

theorem resumeGoal_ok {now : Nat} (h : resumeGoal db goalId now = .ok (u, db')) :
    ∃ goal, db.goals.get? goalId = some goal ∧ goal.state.paused = true ∧ db' = setGoal db goalId (·.resume now) := by
  simp only [resumeGoal, bind_eq_ok, getGoal_eq_ok, ensure_eq_ok, pure_eq_ok, Prod.mk.injEq] at h
  obtain ⟨goal, hg, _, hs, _, rfl⟩ := h
  exact ⟨goal, hg, hs, rfl⟩

theorem steerGoal_ok {instruction : String} {priority : Option Int}
    (h : steerGoal db goalId instruction priority = .ok (u, db')) :
    ∃ goal events, db.goals.get? goalId = some goal ∧ goal.state.final = false ∧
      db' = { setGoal db goalId (·.steer) with events := events } := by
  simp only [steerGoal, bind_eq_ok, pure_eq_ok, Prod.mk.injEq] at h
  obtain ⟨_, _, _, _, goal, hg, _, rfl⟩ := h
  obtain ⟨hrow, hs⟩ := requireMutable_ok hg
  exact ⟨goal, _, hrow, hs, rfl⟩

theorem stopGoal_ok {reason : String} (h : stopGoal db goalId reason = .ok (u, db')) :
    ∃ goal, db.goals.get? goalId = some goal ∧ goal.state.final = false ∧
      db' = setGoal db goalId (·.finish .stopped .userStopped reason) := by
  simp only [stopGoal, bind_eq_ok, pure_eq_ok, Prod.mk.injEq] at h
  obtain ⟨_, _, goal, hg, _, rfl⟩ := h
  obtain ⟨hrow, hs⟩ := requireMutable_ok hg
  exact ⟨goal, hrow, hs, rfl⟩

theorem startGoal_ok {now : Nat} (h : startGoal db goalId now = .ok (u, db')) :
    db' = db ∨ ∃ goal, db.goals.get? goalId = some goal ∧ goal.state = .created ∧
      db' = setGoal db goalId (·.start now) := by
  simp only [startGoal, bind_eq_ok, getGoal_eq_ok] at h
  obtain ⟨goal, hg, h⟩ := h
  split at h
  · cases h; exact Or.inl rfl
  · rename_i hs
    cases h
    exact Or.inr ⟨goal, hg, by simpa using hs, rfl⟩

theorem beginIteration_ok {uuid id : String} (h : beginIteration db goalId uuid = .ok (id, db')) :
    ∃ goal iterations events, db.goals.get? goalId = some goal ∧
      db.iterations.insert? id ⟨goalId, goal.iterationCount + 1, .evaluating, none, none, none⟩ = some iterations ∧
      db' = { setGoal { db with iterations := iterations } goalId (·.iterate (goal.iterationCount + 1)) with
        events := events } := by
  simp only [beginIteration, bind_eq_ok, getGoal_eq_ok, ensure_eq_ok, orRaise_eq_ok, pure_eq_ok, Prod.mk.injEq] at h
  obtain ⟨goal, hg, _, _, iterations, hi, rfl, rfl⟩ := h
  exact ⟨goal, iterations, _, hg, hi, rfl⟩

theorem stalePhase_none (h : stalePhase db goal iterationId expected = none) :
    (goal.steerVersion : Int) = expected := by
  unfold stalePhase at h
  split at h
  · assumption
  · cases h

theorem stalePhase_some (h : stalePhase db goal iterationId expected = some db') :
    db' = setIteration db iterationId (·.withState .interrupted) := by
  unfold stalePhase at h
  split at h
  · cases h
  · exact (Option.some.inj h).symm

variable {b : Bool}

theorem recordEvaluation_ok {evaluation : GoalEvaluation}
    (h : recordEvaluation db iterationId evaluation expected = .ok (b, db')) : ∃ iteration,
      db.iterations.get? iterationId = some iteration ∧
      ((b = false ∧ db' = setIteration db iterationId (·.withState .interrupted)) ∨
        (b = true ∧ db' = setGoal (setIteration db iterationId (·.evaluate ⟨evaluation, some expected.toNat⟩))
          iteration.goalId (·.evaluated evaluation.progressFingerprint))) := by
  simp only [recordEvaluation, bind_eq_ok, getIteration, orRaise_eq_ok] at h
  obtain ⟨iteration, hit, goal, _, h⟩ := h
  refine ⟨iteration, hit, ?_⟩
  split at h
  · rename_i hst
    cases h
    exact Or.inl ⟨rfl, stalePhase_some hst⟩
  · cases h
    exact Or.inr ⟨rfl, rfl⟩

theorem recordPlan_rows {plan : GoalPlan} {actionId : String → String}
    (h : recordPlan db iterationId goalId plan expected actionId = .ok (b, db')) :
    (b = false ∧ db' = setIteration db iterationId (·.withState .interrupted)) ∨
      (b = true ∧ ∃ actions,
        db.actions.insertAll? (plannedRows goalId iterationId actionId plan.actions) = some actions ∧
        db' = setGoal (setIteration { db with actions := actions } iterationId (·.planWith plan))
          goalId (·.addTasks plan.actions.length)) := by
  simp only [recordPlan, bind_eq_ok] at h
  obtain ⟨_, _, goal, _, h⟩ := h
  split at h
  · rename_i hst
    cases h
    exact Or.inl ⟨rfl, stalePhase_some hst⟩
  · simp only [bind_eq_ok, orRaise_eq_ok, pure_eq_ok, Prod.mk.injEq] at h
    obtain ⟨actions, hins, rfl, rfl⟩ := h
    exact Or.inr ⟨rfl, actions, hins, rfl⟩

theorem recordPlan_ok {plan : GoalPlan} {actionId : String → String}
    (h : recordPlan db iterationId goalId plan expected actionId = .ok (b, db')) :
    (b = false ∧ db' = setIteration db iterationId (·.withState .interrupted)) ∨
      (b = true ∧ ∃ actions, db' = setGoal (setIteration { db with actions := actions } iterationId (·.planWith plan))
        goalId (·.addTasks plan.actions.length)) := by
  rcases recordPlan_rows h with hstale | ⟨hb, actions, _, hdb⟩
  · exact Or.inl hstale
  · exact Or.inr ⟨hb, actions, hdb⟩

theorem recordGoalVerification_ok {verification : GoalVerification}
    (h : recordGoalVerification db iterationId verification expected = .ok (b, db')) :
    (b = false ∧ db' = setIteration db iterationId (·.withState .interrupted)) ∨
      (b = true ∧ db' = setIteration db iterationId (·.verify ⟨verification, some expected.toNat⟩)) := by
  simp only [recordGoalVerification, bind_eq_ok] at h
  obtain ⟨iteration, _, goal, _, h⟩ := h
  split at h
  · rename_i hst
    cases h
    exact Or.inl ⟨rfl, stalePhase_some hst⟩
  · cases h
    exact Or.inr ⟨rfl, rfl⟩

theorem phaseIsCurrent_ok (h : phaseIsCurrent db goalId iterationId expected = .ok (b, db')) :
    (b = false ∧ db' = setIteration db iterationId (·.withState .interrupted)) ∨ (b = true ∧ db' = db) := by
  simp only [phaseIsCurrent, bind_eq_ok] at h
  obtain ⟨goal, _, h⟩ := h
  split at h
  · rename_i hst
    cases h
    exact Or.inl ⟨rfl, stalePhase_some hst⟩
  · cases h
    exact Or.inr ⟨rfl, rfl⟩

theorem completeReplan_ok {verification : GoalVerification} {failures : Nat}
    (h : completeReplan db goalId iterationId verification failures = .ok (u, db')) :
    db' = setIteration (setGoal db goalId (·.replan verification.progressFingerprint failures)) iterationId
      (·.withState .replanning) := by
  simp only [completeReplan, bind_eq_ok, pure_eq_ok, Prod.mk.injEq] at h
  obtain ⟨_, _, _, rfl⟩ := h
  rfl

theorem terminateGoal_ok {reason : TerminationReason} (h : terminateGoal db goalId reason detail = .ok (u, db')) :
    db' = db ∨
      ∃ goal, db.goals.get? goalId = some goal ∧ goal.state.final = false ∧
        db' = setGoal db goalId (·.finish .terminated reason detail) := by
  simp only [terminateGoal, bind_eq_ok, getGoal_eq_ok] at h
  obtain ⟨goal, hg, h⟩ := h
  split at h
  · cases h; exact Or.inl rfl
  · rename_i hs
    cases h
    exact Or.inr ⟨goal, hg, by simpa using hs, rfl⟩

theorem terminatePhaseIfCurrent_ok {reason : TerminationReason}
    (h : terminatePhaseIfCurrent db goalId iterationId reason detail expected = .ok (b, db')) :
    db' = setIteration db iterationId (·.withState .interrupted) ∨ db' = db ∨
      ∃ goal, db.goals.get? goalId = some goal ∧ goal.state.final = false ∧ (goal.steerVersion : Int) = expected ∧
        db' = setIteration (setGoal db goalId (·.finish .terminated reason detail)) iterationId
          (·.withState .completed) := by
  simp only [terminatePhaseIfCurrent, bind_eq_ok, getGoal_eq_ok] at h
  obtain ⟨goal, hg, h⟩ := h
  split at h
  · rename_i hst
    cases h
    exact Or.inl (stalePhase_some hst)
  · rename_i hst
    split at h
    · cases h; exact Or.inr (Or.inl rfl)
    · rename_i hs
      cases h
      exact Or.inr (Or.inr ⟨goal, hg, by simpa using hs, stalePhase_none hst, rfl⟩)

theorem interruptForSteer_ok (h : interruptForSteer db goalId iterationId = .ok (u, db')) :
    db' = setIteration db iterationId (·.withState .interrupted) := by
  simp only [interruptForSteer, bind_eq_ok, pure_eq_ok, Prod.mk.injEq] at h
  obtain ⟨_, _, _, rfl⟩ := h
  rfl

theorem setAction_ok {actionId : String} {state : ActionState} {handle : Option DispatchHandle}
    {result : Option ActionResult} {error : Option String}
    (h : setAction db actionId state handle result error = .ok (u, db')) :
    db' = { db with actions := db.actions.modify actionId (·.set state handle result error) } := by
  simp only [setAction, bind_eq_ok, pure_eq_ok, Prod.mk.injEq] at h
  obtain ⟨_, _, _, _, _, rfl⟩ := h
  rfl

end

/-- What a transaction makes of the actions: one of them is set, a plan adds rows, or all stay. -/
inductive ActionsStep (db db' : Db) : GoalOp → Prop
  | same (op : GoalOp) (h : db'.actions = db.actions) : ActionsStep db db' op
  | set (id : String) (state : ActionState) (handle : Option DispatchHandle) (result : Option ActionResult)
      (error : Option String) (h : db'.actions = db.actions.modify id (·.set state handle result error)) :
      ActionsStep db db' (.setAction id state handle result error)
  | plan (iterationId goalId : String) (plan : GoalPlan) (expected : Int) (actionId : String → String)
      (h : db.actions.insertAll? (plannedRows goalId iterationId actionId plan.actions) = some db'.actions) :
      ActionsStep db db' (.recordPlan iterationId goalId plan expected actionId)

/-- What a transaction makes of the journal: a steer and a new iteration are recorded. -/
inductive EventsStep (db db' : Db) : Prop
  | same (h : db'.events = db.events)
  | steered (goalId : String) (version : Option Nat) (h : db'.events = db.events ++ [.goalSteered goalId version])
  | started (iterationId : String) (h : db'.events = db.events ++ [.goalIterationStarted iterationId])

/-- Every transaction of a goal writes goals, iterations, actions and the journal only. -/
structure GoalChange (db db' : Db) (op : GoalOp) : Prop where
  frame : ∃ goals iterations actions events,
    db' = { db with goals := goals, iterations := iterations, actions := actions, events := events }
  actions : ActionsStep db db' op
  events : EventsStep db db'

theorem GoalChange.quiet {db : Db} (op : GoalOp) (goals : Table String GoalRow)
    (iterations : Table String IterationRow) :
    GoalChange db { db with goals := goals, iterations := iterations } op :=
  ⟨⟨_, _, _, _, rfl⟩, .same _ rfl, .same rfl⟩

theorem execGoal_change {op : GoalOp} {db db' : Db} {r : op.Reply} (h : execGoal op db = .ok (r, db')) :
    GoalChange db db' op := by
  cases op with
  | createGoal =>
    obtain ⟨_, goals, _, _, _, rfl⟩ := createGoal_ok h
    exact .quiet _ goals _
  | pause => rcases pauseGoal_ok h with rfl | ⟨_, _, _, rfl⟩ <;> exact .quiet _ _ _
  | resume =>
    obtain ⟨_, _, _, rfl⟩ := resumeGoal_ok h
    exact .quiet _ _ _
  | steer =>
    simp only [execGoal, steerGoal, bind_eq_ok, pure_eq_ok, Prod.mk.injEq] at h
    obtain ⟨_, _, _, _, _, _, _, rfl⟩ := h
    exact ⟨⟨_, _, _, _, rfl⟩, .same _ rfl, .steered _ _ rfl⟩
  | stop =>
    obtain ⟨_, _, _, rfl⟩ := stopGoal_ok h
    exact .quiet _ _ _
  | start => rcases startGoal_ok h with rfl | ⟨_, _, _, rfl⟩ <;> exact .quiet _ _ _
  | beginIteration =>
    simp only [execGoal, beginIteration, bind_eq_ok, pure_eq_ok, Prod.mk.injEq] at h
    obtain ⟨_, _, _, _, _, _, _, rfl⟩ := h
    exact ⟨⟨_, _, _, _, rfl⟩, .same _ rfl, .started _ rfl⟩
  | recordEvaluation =>
    obtain ⟨_, _, ⟨_, rfl⟩ | ⟨_, rfl⟩⟩ := recordEvaluation_ok h <;> exact .quiet _ _ _
  | recordPlan iterationId goalId plan expected actionId =>
    rcases recordPlan_rows h with ⟨_, rfl⟩ | ⟨_, _, hins, rfl⟩
    · exact .quiet _ _ _
    · exact ⟨⟨_, _, _, _, rfl⟩, .plan iterationId goalId plan expected actionId hins, .same rfl⟩
  | recordVerification =>
    rcases recordGoalVerification_ok h with ⟨_, rfl⟩ | ⟨_, rfl⟩ <;> exact .quiet _ _ _
  | phaseIsCurrent => rcases phaseIsCurrent_ok h with ⟨_, rfl⟩ | ⟨_, rfl⟩ <;> exact .quiet _ _ _
  | completeReplan =>
    obtain rfl := completeReplan_ok h
    exact .quiet _ _ _
  | terminate => rcases terminateGoal_ok h with rfl | ⟨_, _, _, rfl⟩ <;> exact .quiet _ _ _
  | terminatePhaseIfCurrent =>
    rcases terminatePhaseIfCurrent_ok h with rfl | rfl | ⟨_, _, _, _, rfl⟩ <;> exact .quiet _ _ _
  | interruptForSteer =>
    obtain rfl := interruptForSteer_ok h
    exact .quiet _ _ _
  | setIterationState =>
    cases h
    exact .quiet _ _ _
  | setAction actionId state handle result error =>
    obtain rfl := setAction_ok h
    exact ⟨⟨_, _, _, _, rfl⟩, .set actionId state handle result error rfl, .same rfl⟩

end AgentFabric.Store
