import AgentFabric.Store.Lease

/-!
# Tasks, their dependencies and their state transitions

The transactions of `store.py` on tasks, and the journal of deferred dispatches.
-/

namespace AgentFabric.Store

open AgentFabric.Lib

/-- A task as submitted. -/
structure NewTask where
  id : String
  projectId : String
  reference : String
  state : TaskState
  topology : ExecutionTopology
  attemptCount : Nat
deriving DecidableEq, Repr

def NewTask.row (task : NewTask) : TaskRow where
  projectId := task.projectId
  reference := task.reference
  state := task.state
  topology := task.topology
  attemptCount := task.attemptCount
  version := 1
  definitionRevision := 1
  currentVerificationScopeId := none
  startedAt := none
  finishedAt := none

def createTask (db : Db) (task : NewTask) : Except StoreError (Unit × Db) := do
  ensure (db.tasks.any (fun _ row =>
      decide (row.projectId = task.projectId) && decide (row.reference = task.reference)) = false)
    (.integrityError "UNIQUE constraint failed: tasks.project_id, tasks.reference")
  let tasks ← orRaise (db.tasks.insert? task.id task.row) (.integrityError "UNIQUE constraint failed: tasks.id")
  return ((), { db with tasks := tasks })

/-- One round of the recursive query: the prerequisites of what was reached so far. -/
def prerequisitesOf (edges : List (String × String)) (reached : List String) : List String :=
  (edges.filter fun e => decide (e.1 ∈ reached)).map Prod.snd

/-- `WITH RECURSIVE ancestors`: the tasks reached in at most `rounds` rounds. -/
def ancestors (edges : List (String × String)) : Nat → List String → List String
  | 0, reached => reached
  | rounds + 1, reached => ancestors edges rounds (reached ++ prerequisitesOf edges reached)

/-- The scope that a task row points to is sealed and belongs to this task at this revision. -/
def sealedScopeMatches (db : Db) (taskId : String) (row : TaskRow) : Bool :=
  match row.currentVerificationScopeId with
  | none => true
  | some scopeId =>
    match db.scopes.get? scopeId with
    | none => false
    | some scope =>
      decide (scope.taskId = taskId) && decide (scope.projectId = row.projectId) &&
        decide (scope.taskDefinitionRevision = row.definitionRevision) && scope.sealedAt.isSome

def addTaskDependency (db : Db) (taskId dependsOnTaskId : String) : Except StoreError (Unit × Db) := do
  ensure (taskId ≠ dependsOnTaskId) (.valueError "a task cannot depend on itself")
  let task ← orRaise (db.tasks.get? taskId) (.keyError taskId)
  let prerequisite ← orRaise (db.tasks.get? dependsOnTaskId) (.keyError dependsOnTaskId)
  ensure (task.projectId = prerequisite.projectId)
    (.valueError "task dependencies cannot cross project boundaries")
  if (taskId, dependsOnTaskId) ∈ db.dependencies then return ((), db)
  else do
    ensure (task.state = .draft ∨ task.state = .queued ∨ task.state = .ready)
      (.valueError "dependencies cannot be added after task execution begins")
    ensure (taskId ∉ ancestors db.dependencies db.dependencies.length [dependsOnTaskId])
      (.valueError "task dependency would create a cycle")
    let row := { task with definitionRevision := task.definitionRevision + 1, version := task.version + 1 }
    ensure (sealedScopeMatches db taskId row = true)
      (.integrityError "task verification scope must be sealed and match its Task revision")
    return ((), { db with
      dependencies := db.dependencies ++ [(taskId, dependsOnTaskId)]
      tasks := db.tasks.modify taskId fun _ => row })

/-- The row that `transition_task` writes. -/
def TaskRow.transition (row : TaskRow) (target : TaskState) (now : Nat) : TaskRow :=
  { row with
    state := target
    startedAt := if target = .running ∧ row.startedAt = none then some now else row.startedAt
    finishedAt := if target.terminal = true then some now else row.finishedAt
    version := row.version + 1 }

def transitionTask (db : Db) (taskId : String) (target : TaskState) (expectedVersion : Option Nat)
    (lease : LeaseArgs) (clock : Clock) : Except StoreError (Unit × Db) := do
  let row ← orRaise (db.tasks.get? taskId) (.keyError taskId)
  requireLeaseArgs db taskId lease clock.lease
  taskTransitions.require row.state target
  ensure (expectedVersion.all (fun v => decide (row.version = v)) = true)
    (.runtimeError ("task " ++ taskId ++ " version conflict: expected " ++
      toString (expectedVersion.getD 0) ++ ", got " ++ toString row.version))
  return ((), { db with tasks := db.tasks.modify taskId fun _ => row.transition target (timestamp clock.now) })

/-- A task update that moves only the state. -/
def TaskRow.withState (row : TaskRow) (state : TaskState) : TaskRow :=
  { row with state := state, version := row.version + 1 }

/-- The latest deferral journalled for a task. -/
def lastDeferral (taskId : String) : List Event → Option (String × String × Nat)
  | [] => none
  | e :: es =>
    match lastDeferral taskId es, e with
    | some found, _ => some found
    | none, .dispatchDeferred t reasonCode detail createdAt =>
      if t = taskId then some (reasonCode, detail, createdAt) else none
    | none, _ => none

def recordDispatchDeferred (db : Db) (taskId reasonCode detail : String) (waitTimeout now : Nat) :
    Except StoreError (Bool × Db) :=
  let journalled := { db with
    events := db.events ++ [.dispatchDeferred taskId reasonCode detail (timestamp now)] }
  match lastDeferral taskId db.events with
  | none => .ok (false, journalled)
  | some (reason, text, observed) =>
    if reason ≠ reasonCode ∨ text ≠ detail then .ok (false, journalled)
    else if ((timestamp now : Int) - observed) * 1000000 < waitTimeout then .ok (false, db)
    else
      match db.tasks.get? taskId with
      | none => .ok (false, db)
      | some current =>
        if current.state ≠ .ready then .ok (false, db)
        else .ok (true, { db with tasks := db.tasks.modify taskId fun row => row.withState .blocked })

/-! ## What the operations commit -/

variable {db db' : Db}

theorem createTask_ok {task : NewTask} {u : Unit} (h : createTask db task = .ok (u, db')) :
    ∃ tasks, db.tasks.insert? task.id task.row = some tasks ∧ db' = { db with tasks := tasks } := by
  simp only [createTask, bind_eq_ok, ensure_eq_ok, orRaise_eq_ok, pure_eq_ok, Prod.mk.injEq] at h
  obtain ⟨-, -, tasks, ht, -, rfl⟩ := h
  exact ⟨tasks, ht, rfl⟩

theorem addTaskDependency_ok {taskId dependsOnTaskId : String} {u : Unit}
    (h : addTaskDependency db taskId dependsOnTaskId = .ok (u, db')) :
    db' = db ∨ ∃ task prerequisite, db.tasks.get? taskId = some task ∧
      db.tasks.get? dependsOnTaskId = some prerequisite ∧
      (task.state = .draft ∨ task.state = .queued ∨ task.state = .ready) ∧
      let row := { task with definitionRevision := task.definitionRevision + 1, version := task.version + 1 }
      sealedScopeMatches db taskId row = true ∧
      db' = { db with
        dependencies := db.dependencies ++ [(taskId, dependsOnTaskId)]
        tasks := db.tasks.modify taskId fun _ => row } := by
  simp only [addTaskDependency, bind_eq_ok, ensure_eq_ok, orRaise_eq_ok] at h
  obtain ⟨-, -, task, ht, prerequisite, hp, -, -, h⟩ := h
  split at h
  · cases h
    exact Or.inl rfl
  · simp only [bind_eq_ok, ensure_eq_ok, pure_eq_ok, Prod.mk.injEq] at h
    obtain ⟨-, hs, -, -, -, hm, -, rfl⟩ := h
    exact Or.inr ⟨task, prerequisite, ht, hp, hs, hm, rfl⟩

theorem transitionTask_ok {taskId : String} {target : TaskState} {expectedVersion : Option Nat} {lease : LeaseArgs}
    {clock : Clock} {u : Unit} (h : transitionTask db taskId target expectedVersion lease clock = .ok (u, db')) :
    ∃ row, db.tasks.get? taskId = some row ∧ requireLeaseArgs db taskId lease clock.lease = .ok () ∧
      taskTransitions.allows row.state target = true ∧
      db' = { db with tasks := db.tasks.modify taskId fun _ => row.transition target (timestamp clock.now) } := by
  simp only [transitionTask, bind_eq_ok, ensure_eq_ok, orRaise_eq_ok, require_eq_ok, pure_eq_ok,
    Prod.mk.injEq] at h
  obtain ⟨row, hr, ⟨⟩, hl, -, ha, -, -, -, rfl⟩ := h
  exact ⟨row, hr, hl, ha, rfl⟩

theorem recordDispatchDeferred_ok {taskId reasonCode detail : String} {waitTimeout now : Nat} {b : Bool}
    (h : recordDispatchDeferred db taskId reasonCode detail waitTimeout now = .ok (b, db')) :
    (∃ events, db' = { db with events := events }) ∨
    (∃ row, db.tasks.get? taskId = some row ∧ row.state = .ready ∧
      db' = { db with tasks := db.tasks.modify taskId fun row => row.withState .blocked }) := by
  simp only [recordDispatchDeferred] at h
  split at h
  · cases h
    exact Or.inl ⟨_, rfl⟩
  · split at h
    · cases h
      exact Or.inl ⟨_, rfl⟩
    · split at h
      · cases h
        exact Or.inl ⟨db.events, rfl⟩
      · split at h
        · cases h
          exact Or.inl ⟨db.events, rfl⟩
        · rename_i row hr
          split at h
          · cases h
            exact Or.inl ⟨db.events, rfl⟩
          · rename_i hs
            cases h
            exact Or.inr ⟨row, hr, not_not.mp hs, rfl⟩

end AgentFabric.Store
