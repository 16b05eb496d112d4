import Mathlib.Data.List.Sort
import AgentFabric.Store.Tasks

/-!
# Task verification scopes

Scopes are sealed, bound to a version of a task, and compared with it later.
-/

namespace AgentFabric.Store

open AgentFabric.Lib

/-- `ORDER BY ordinal,id`. -/
def itemOrder (a b : String × ScopeItemRow) : Prop :=
  a.2.ordinal < b.2.ordinal ∨ (a.2.ordinal = b.2.ordinal ∧ a.1 ≤ b.1)

instance : DecidableRel itemOrder := fun _ _ => inferInstanceAs (Decidable (_ ∨ _))

/-- The items of a scope in their stored order. -/
def scopeItemsOf (db : Db) (scopeId : String) : List (String × ScopeItemRow) :=
  (db.scopeItems.rows.filter fun e => decide (e.2.scopeId = scopeId)).insertionSort itemOrder

def ScopeRow.snapshot (scope : ScopeRow) (items : List (ItemSnapshot × String)) : ScopeSnapshot where
  schemaVersion := scope.schemaVersion
  taskId := scope.taskId
  criteriaVersion := scope.criteriaVersion
  taskDefinitionRevision := scope.taskDefinitionRevision
  goalId := scope.goalId
  iterationId := scope.iterationId
  planVersion := scope.planVersion
  steerVersion := scope.steerVersion
  items := items

variable (dg : Digests)

/-- A sealed scope still matches its stored hashes. -/
def assertScopeIntegrity (db : Db) (scopeId : String) (scope : ScopeRow) :
    Except StoreError (List (String × ScopeItemRow)) := do
  let items := scopeItemsOf db scopeId
  ensure (scope.sealedAt.isSome = true ∧ items ≠ [])
    (.verificationPolicy "task verification scope is not durably sealed")
  ensure (items.map (fun e => e.2.ordinal) = List.range items.length)
    (.verificationPolicy "task verification scope criteria ordinals are not canonical")
  ensure (∀ e ∈ items, e.2.definitionSha256 = dg.item e.2.snapshot)
    (.verificationPolicy "task verification scope criterion definition hash mismatch")
  ensure (scope.definitionSha256 = dg.scope (scope.snapshot (items.map fun e => (e.2.snapshot, dg.item e.2.snapshot))))
    (.verificationPolicy "task verification scope definition hash mismatch")
  return items

/-- `_task_verification_dispatch_snapshot`. -/
def dispatchSnapshot (db : Db) (taskId : String) (task : TaskRow) : Except StoreError (Option String × Nat) :=
  match task.currentVerificationScopeId with
  | none => .ok (none, task.definitionRevision)
  | some scopeId => do
    let mismatch := StoreError.runtimeError "task verification scope does not match its current definition"
    let scope ← orRaise (db.scopes.get? scopeId) mismatch
    ensure (scope.taskId = taskId ∧ scope.taskDefinitionRevision = task.definitionRevision) mismatch
    let _ ← assertScopeIntegrity dg db scopeId scope
    return (some scopeId, task.definitionRevision)

/-! ## Binding a scope -/

/-- The journal before the iteration started, if it has a start entry. -/
def journalBeforeStart (iterationId : String) : List Event → Option (List Event)
  | [] => none
  | e :: es =>
    if e = .goalIterationStarted iterationId then some []
    else (journalBeforeStart iterationId es).map (e :: ·)

def lastSteer (goalId : String) : List Event → Option (Option Nat)
  | [] => none
  | e :: es =>
    match lastSteer goalId es, e with
    | some found, _ => some found
    | none, .goalSteered g version => if g = goalId then some version else none
    | none, _ => none

/-- The steer version that an iteration was started under. -/
def iterationSteerVersion (db : Db) (iterationId goalId : String) (iteration : IterationRow) :
    Except StoreError (Option Nat) :=
  let invalid := StoreError.verificationPolicy "autonomous iteration has invalid steering provenance"
  match journalBeforeStart iterationId db.events with
  | some before =>
    match lastSteer goalId before with
    | none => .ok (some 0)
    | some version => (orRaise version invalid).map some
  | none =>
    match iteration.evaluation with
    | none => .ok none
    | some checkpoint => (orRaise checkpoint.steerVersion invalid).map some

/-- Goal, plan version and steer version that the iteration argument resolves to. -/
def resolveIteration (db : Db) (task : TaskRow) (goalId : Option String) (planVersion : Option Nat) :
    Option String → Except StoreError (Option String × Option Nat × Option Nat)
  | none => .ok (goalId, planVersion, none)
  | some iterationId => do
    let iteration ← orRaise (db.iterations.get? iterationId) (.keyError iterationId)
    let goal ← orRaise (db.goals.get? iteration.goalId) (.keyError iterationId)
    ensure (goal.projectId = task.projectId)
      (.valueError "verification scope iteration belongs to another project")
    ensure (goalId.all (fun g => decide (g = iteration.goalId)) = true)
      (.valueError "verification scope goal and iteration do not match")
    ensure (planVersion.all (fun v => decide (v = iteration.sequence)) = true)
      (.valueError "verification scope plan_version does not match its iteration sequence")
    ensure (iteration.state ≠ .completed ∧ iteration.state ≠ .interrupted)
      (.valueError "historical autonomous iterations cannot receive new criteria")
    let steered ← iterationSteerVersion db iterationId iteration.goalId iteration
    return (some iteration.goalId, some iteration.sequence, steered)

/-- The steer version of the scope, checked against the goal and the iteration. -/
def resolveSteerVersion (db : Db) (task : TaskRow) (goalId : Option String) (planVersion : Option Nat)
    (iterationId : Option String) (iterationSteer steerVersion : Option Nat) : Except StoreError (Option Nat) :=
  match goalId with
  | none => do
    ensure (planVersion = none ∧ steerVersion = none)
      (.valueError "plan/steer versions require a Goal-bound verification scope")
    return none
  | some id => do
    let goal ← orRaise (db.goals.get? id) (.keyError id)
    ensure (goal.projectId = task.projectId) (.valueError "verification scope goal belongs to another project")
    ensure (steerVersion.all (fun v => decide (v = goal.steerVersion)) = true)
      (.valueError "verification scope steer_version does not match the current Goal")
    if iterationId.isSome = true then do
      ensure (iterationSteer.isSome = true ∨ goal.steerVersion = 0)
        (.verificationPolicy "autonomous iteration cannot prove its steering provenance")
      ensure (iterationSteer.getD 0 = goal.steerVersion)
        (.valueError "verification scope iteration predates the current Goal steering")
      return some goal.steerVersion
    else return some goal.steerVersion

/-- `ORDER BY created_at,id`. -/
def criterionOrder (a b : String × CriterionRow) : Prop :=
  a.2.createdAt < b.2.createdAt ∨ (a.2.createdAt = b.2.createdAt ∧ a.1 ≤ b.1)

instance : DecidableRel criterionOrder := fun _ _ => inferInstanceAs (Decidable (_ ∨ _))

/-- The acceptance criteria of a project in their stored order. -/
def projectCriteria (db : Db) (projectId : String) : List (String × CriterionRow) :=
  (db.criteria.rows.filter fun e => decide (e.2.projectId = projectId)).insertionSort criterionOrder

/-- The criteria that a binding selects, in the given order. -/
def selectCriteria (db : Db) (projectId : String) : Option (List String) →
    Except StoreError (List (String × CriterionRow))
  | none => .ok (projectCriteria db projectId)
  | some ids =>
    let known := projectCriteria db projectId
    let missing := ids.filter fun id => decide (id ∉ known.map Prod.fst)
    if missing ≠ [] then
      .error (.valueError ("unknown project acceptance criteria: " ++
        ", ".intercalate (missing.insertionSort (· ≤ ·))))
    else .ok (ids.filterMap fun id => known.find? fun e => decide (e.1 = id))

/-- `COALESCE(MAX(criteria_version),0)`. -/
def latestCriteriaVersion (db : Db) (taskId : String) : Nat :=
  ((db.scopes.rows.filter fun e => decide (e.2.taskId = taskId)).map fun e => e.2.criteriaVersion).max?.getD 0

def CriterionRow.snapshot (id : String) (criterion : CriterionRow) : ItemSnapshot where
  criterionId := id
  kind := criterion.kind
  description := criterion.description
  commandJson := criterion.commandJson
  expectedJson := criterion.expectedJson
  required := true

/-- The item rows of a new scope, one per criterion, numbered from `ordinal`. -/
def itemRows (scopeId : String) (fresh : String → String) : Nat → List (String × CriterionRow) →
    List (String × ScopeItemRow)
  | _, [] => []
  | ordinal, (id, criterion) :: rest =>
    ("verification-scope-item-" ++ fresh id,
      { scopeId := scopeId, snapshot := criterion.snapshot id, sourceCriterionId := id, ordinal := ordinal,
        definitionSha256 := dg.item (criterion.snapshot id) }) :: itemRows scopeId fresh (ordinal + 1) rest

/-- The arguments of one binding, with the identifiers it draws. -/
structure ScopeBinding where
  taskId : String
  criterionIds : Option (List String)
  goalId : Option String
  iterationId : Option String
  planVersion : Option Int
  steerVersion : Option Int
  uuid : String
  itemUuid : String → String
  now : Nat

def newScope (db : Db) (task : TaskRow) (binding : ScopeBinding) (goalId : Option String)
    (planVersion steerVersion : Option Nat) (criteria : List (String × CriterionRow)) : ScopeRow :=
  let scope : ScopeRow :=
    { projectId := task.projectId
      taskId := binding.taskId
      criteriaVersion := latestCriteriaVersion db binding.taskId + 1
      taskDefinitionRevision :=
        if task.currentVerificationScopeId.isSome = true then task.definitionRevision + 1
        else task.definitionRevision
      goalId := goalId
      iterationId := binding.iterationId
      planVersion := planVersion
      steerVersion := steerVersion
      schemaVersion := "task-verification-scope/v1"
      definitionSha256 := ""
      sealedAt := none }
  { scope with definitionSha256 := dg.scope (scope.snapshot
      (criteria.map fun e => (e.2.snapshot e.1, dg.item (e.2.snapshot e.1)))) }

def ScopeRow.seal (scope : ScopeRow) (now : Nat) : ScopeRow := { scope with sealedAt := some now }

def ScopeBinding.scopeId (binding : ScopeBinding) : String := "verification-scope-" ++ binding.uuid

/-- Append the next criteria version and point the task at it. -/
def bindTaskVerificationScope (db : Db) (binding : ScopeBinding) : Except StoreError (String × Db) := do
  let taskId := binding.taskId
  ensure ((binding.criterionIds.getD []).Nodup) (.valueError "criterion_ids must be unique")
  ensure (binding.planVersion.all (fun v => decide (1 ≤ v)) = true) (.valueError "plan_version must be positive")
  ensure (binding.steerVersion.all (fun v => decide (0 ≤ v)) = true)
    (.valueError "steer_version must not be negative")
  let task ← orRaise (db.tasks.get? taskId) (.keyError taskId)
  ensure (task.state.terminal = false) (.valueError "terminal task verification criteria cannot be rebound")
  let (goalId, planVersion, iterationSteer) ←
    resolveIteration db task binding.goalId (binding.planVersion.map Int.toNat) binding.iterationId
  let steerVersion ← resolveSteerVersion db task goalId planVersion binding.iterationId iterationSteer
    (binding.steerVersion.map Int.toNat)
  let criteria ← selectCriteria db task.projectId binding.criterionIds
  ensure (criteria ≠ [])
    (.verificationPolicy "task verification scope requires at least one acceptance criterion")
  let scope := newScope dg db task binding goalId planVersion steerVersion criteria
  let scopes ← orRaise (db.scopes.insert? binding.scopeId scope)
    (.integrityError "UNIQUE constraint failed: task_verification_scopes.id")
  let items ← orRaise (db.scopeItems.insertAll? (itemRows dg binding.scopeId binding.itemUuid 0 criteria))
    (.integrityError "UNIQUE constraint failed: task_verification_scope_items.id")
  let sealedDb := { db with
    scopes := scopes.modify binding.scopeId fun s => s.seal (timestamp binding.now), scopeItems := items }
  let _ ← assertScopeIntegrity dg sealedDb binding.scopeId (scope.seal (timestamp binding.now))
  let row := { task with
    currentVerificationScopeId := some binding.scopeId
    definitionRevision := scope.taskDefinitionRevision
    version := task.version + 1 }
  ensure (sealedScopeMatches sealedDb taskId row = true)
    (.integrityError "task verification scope must be sealed and match its Task revision")
  return (binding.scopeId, { sealedDb with tasks := db.tasks.modify taskId fun _ => row })

/-! ## What the operations commit and return -/

theorem dispatchSnapshot_ok {db : Db} {taskId : String} {task : TaskRow} {scopeId : Option String} {revision : Nat}
    (h : dispatchSnapshot dg db taskId task = .ok (scopeId, revision)) :
    scopeId = task.currentVerificationScopeId ∧ revision = task.definitionRevision := by
  unfold dispatchSnapshot at h
  split at h
  · rename_i hs
    cases h
    exact ⟨hs.symm, rfl⟩
  · rename_i id hs
    simp only [bind_eq_ok, pure_eq_ok, Prod.mk.injEq] at h
    obtain ⟨-, -, -, -, -, -, rfl, rfl⟩ := h
    exact ⟨hs.symm, rfl⟩

def TaskRow.bindScope (task : TaskRow) (scopeId : String) (revision : Nat) : TaskRow :=
  { task with
    currentVerificationScopeId := some scopeId
    definitionRevision := revision
    version := task.version + 1 }

theorem itemRows_scopeId {scopeId : String} {fresh : String → String} {ordinal : Nat}
    {criteria : List (String × CriterionRow)} {e : String × ScopeItemRow}
    (h : e ∈ itemRows dg scopeId fresh ordinal criteria) : e.2.scopeId = scopeId := by
  induction criteria generalizing ordinal with
  | nil => cases h
  | cons c cs ih =>
    rcases List.mem_cons.mp h with rfl | h
    · rfl
    · exact ih h

theorem bindScope_ok {db db' : Db} {binding : ScopeBinding} {scopeId : String}
    (h : bindTaskVerificationScope dg db binding = .ok (scopeId, db')) :
    ∃ task scope scopes items newItems, db.tasks.get? binding.taskId = some task ∧ task.state.terminal = false ∧
      scopeId = binding.scopeId ∧
      db.scopes.insert? scopeId scope = some scopes ∧ db.scopeItems.insertAll? newItems = some items ∧
      (∀ e ∈ newItems, e.2.scopeId = scopeId) ∧
      scope.taskId = binding.taskId ∧ scope.criteriaVersion = latestCriteriaVersion db binding.taskId + 1 ∧
      db' = { db with
        scopes := scopes.modify scopeId fun s => s.seal (timestamp binding.now)
        scopeItems := items
        tasks := db.tasks.modify binding.taskId fun _ =>
          task.bindScope scopeId scope.taskDefinitionRevision } := by
  simp only [bindTaskVerificationScope, bind_eq_ok, ensure_eq_ok, orRaise_eq_ok, pure_eq_ok, Prod.mk.injEq] at h
  obtain ⟨-, -, -, -, -, -, task, ht, -, hs, r, -, steer, -, criteria, -, -, -, scopes, hi, items, hit, -, -, -, -,
    rfl, rfl⟩ := h
  exact ⟨task, _, scopes, items, _, ht, hs, rfl, hi, hit, fun e he => itemRows_scopeId dg he, rfl, rfl, rfl⟩

end AgentFabric.Store
