import AgentFabric.Store.Scopes

/-!
# Acceptance criteria and task verification

The transactions of `store.py` that add criteria and record and apply verifications.
-/

namespace AgentFabric.Store

open AgentFabric.Lib

structure NewCriterion where
  id : String
  projectId : String
  kind : String
  description : String
  commandJson : Option String
  expectedJson : Option String
deriving DecidableEq, Repr

def addAcceptanceCriterion (db : Db) (criterion : NewCriterion) (now : Nat) : Except StoreError (String × Db) := do
  let criteria ← orRaise
    (db.criteria.insert? criterion.id
      { projectId := criterion.projectId, kind := criterion.kind, description := criterion.description,
        commandJson := criterion.commandJson, expectedJson := criterion.expectedJson, state := .pending,
        createdAt := timestamp now })
    (.integrityError "UNIQUE constraint failed: acceptance_criteria.id")
  return (criterion.id, { db with criteria := criteria })

def CriterionRow.decide (passed : Bool) (criterion : CriterionRow) : CriterionRow :=
  { criterion with state := if passed = true then .passed else .failed }

/-- One verification reported for a task outside of a scope. -/
structure NewVerification where
  taskId : String
  kind : String
  passed : Bool
  criterionId : Option String
  commandJson : Option String
  exitCode : Option Int
  uuid : String
deriving DecidableEq, Repr

def NewVerification.row (verification : NewVerification) : VerificationRow where
  taskId := verification.taskId
  criterionId := verification.criterionId
  kind := verification.kind
  commandJson := verification.commandJson
  exitCode := verification.exitCode
  passed := verification.passed
  verificationScopeId := none
  scopeItemId := none
  sourceAttempt := none

def recordVerification (db : Db) (verification : NewVerification) : Except StoreError (String × Db) := do
  let task ← orRaise (db.tasks.get? verification.taskId) (.keyError verification.taskId)
  ensure (verification.criterionId.isNone = true ∨ task.currentVerificationScopeId = none)
    (.verificationPolicy "criterion-bearing verification for a scoped Task requires provenance")
  ensure (verification.criterionId.all (fun id =>
      (db.criteria.get? id).any fun c => decide (c.projectId = task.projectId)) = true)
    (.valueError ("acceptance criterion " ++ verification.criterionId.getD "" ++
      " does not belong to Task project"))
  let id := "verify-" ++ verification.uuid
  let verifications ← orRaise (db.verifications.insert? id verification.row)
    (.integrityError "UNIQUE constraint failed: verifications.id")
  return (id, { db with
    verifications := verifications
    criteria := db.criteria.updateWhere
      (fun id c => decide (some id = verification.criterionId) && decide (c.projectId = task.projectId))
      (CriterionRow.decide verification.passed) })

/-! ## Applying a verification -/

structure VerificationResult where
  criterionId : String
  passed : Bool
  exitCode : Option Int
deriving DecidableEq, Repr

structure DefinitionOfDoneResult where
  complete : Bool
  results : List VerificationResult
  requiredFailures : List String
deriving DecidableEq, Repr

/-- A criterion that a verification is judged against: of the scope, or of the project. -/
structure JudgedCriterion where
  criterionId : String
  kind : String
  commandJson : Option String
  sourceCriterionId : String
  scopeItemId : Option String
deriving DecidableEq, Repr

def JudgedCriterion.ofItem (e : String × ScopeItemRow) : JudgedCriterion where
  criterionId := e.2.snapshot.criterionId
  kind := e.2.snapshot.kind
  commandJson := e.2.snapshot.commandJson
  sourceCriterionId := e.2.sourceCriterionId
  scopeItemId := some e.1

def JudgedCriterion.ofCriterion (e : String × CriterionRow) : JudgedCriterion where
  criterionId := e.1
  kind := e.2.kind
  commandJson := e.2.commandJson
  sourceCriterionId := e.1
  scopeItemId := none

/-- The arguments of `apply_task_verification`. -/
structure VerificationCall where
  taskId : String
  result : DefinitionOfDoneResult
  maxAttempts : Option Int
  expectedVerificationScopeId : Option String
  expectedTaskDefinitionRevision : Option Int
  expectedSourceAttempt : Option Int
  uuid : String → String
  now : Nat

variable (dg : Digests)

def runsCarryScope (db : Db) (taskId scopeId : String) (revision attempt : Nat) : Bool :=
  let latest := db.runs.rows.filter fun e => decide (e.2.taskId = taskId) && decide (e.2.attempt = attempt)
  !latest.isEmpty && latest.all fun e =>
    decide (e.2.verificationScopeId = some scopeId) && decide (e.2.taskDefinitionRevision = some revision)

/-- The criteria of a scoped task, once the evaluated provenance is exactly the current one. -/
def scopedCriteria (db : Db) (call : VerificationCall) (task : TaskRow) (scopeId : String) :
    Except StoreError (List JudgedCriterion × Option Nat) := do
  ensure (call.expectedVerificationScopeId.isSome = true ∧ call.expectedTaskDefinitionRevision.isSome = true ∧
      call.expectedSourceAttempt.isSome = true)
    (.verificationPolicy "scoped verification requires its scope, Task revision, and source attempt")
  ensure (call.expectedVerificationScopeId = some scopeId ∧
      call.expectedTaskDefinitionRevision = some (task.definitionRevision : Int))
    (.verificationPolicy "stale verification provenance: Task criteria or definition changed")
  let mismatch := StoreError.verificationPolicy
    "current task verification scope does not match its definition revision"
  let scope ← orRaise (db.scopes.get? scopeId) mismatch
  ensure (scope.taskId = call.taskId ∧ scope.taskDefinitionRevision = task.definitionRevision) mismatch
  let items ← assertScopeIntegrity dg db scopeId scope
  let attempt ← orRaise (latestAttempt db call.taskId)
    (.verificationPolicy "scoped verification requires a scope-bound worker execution")
  ensure (call.expectedSourceAttempt = some (attempt : Int))
    (.verificationPolicy "stale verification provenance: a newer Task execution attempt exists")
  ensure (runsCarryScope db call.taskId scopeId task.definitionRevision attempt = true)
    (.verificationPolicy
      "stale verification scope: latest execution does not match current task criteria/revision")
  return (items.map JudgedCriterion.ofItem, some attempt)

/-- The criteria that the call is judged against and the attempt that it is recorded for. -/
def judgedCriteria (db : Db) (call : VerificationCall) (task : TaskRow) :
    Except StoreError (List JudgedCriterion × Option Nat) :=
  match task.currentVerificationScopeId with
  | some scopeId => scopedCriteria dg db call task scopeId
  | none => .ok ((projectCriteria db task.projectId).map JudgedCriterion.ofCriterion, none)

/-- The reported result of a criterion; one that was not evaluated counts as failed. -/
def canonicalResult (result : DefinitionOfDoneResult) (criterion : JudgedCriterion) : VerificationResult :=
  (result.results.find? fun r => decide (r.criterionId = criterion.criterionId)).getD
    { criterionId := criterion.criterionId, passed := false, exitCode := none }

/-- The criteria without a passing result. -/
def canonicalFailures (result : DefinitionOfDoneResult) (criteria : List JudgedCriterion) : List String :=
  ((criteria.map (canonicalResult result)).filter fun r =>
    !r.passed || decide (r.criterionId ∈ result.requiredFailures)).map fun r => r.criterionId

/-- Every criterion passed and the caller reported completion. -/
def verificationComplete (result : DefinitionOfDoneResult) (criteria : List JudgedCriterion) : Bool :=
  !criteria.isEmpty && result.complete && (canonicalFailures result criteria).isEmpty

def verificationTarget (call : VerificationCall) (task : TaskRow) (criteria : List JudgedCriterion) : TaskState :=
  if verificationComplete call.result criteria = true then .succeeded
  else if call.maxAttempts.any (fun m => decide (m ≤ (task.attemptCount : Int))) = true then .failed
  else .ready

def verificationRows (call : VerificationCall) (scopeId : Option String) (attempt : Option Nat)
    (criteria : List JudgedCriterion) : List (String × VerificationRow) :=
  criteria.map fun criterion =>
    let r := canonicalResult call.result criterion
    ("verify-" ++ call.uuid criterion.criterionId,
      { taskId := call.taskId, criterionId := some criterion.sourceCriterionId, kind := criterion.kind,
        commandJson := criterion.commandJson, exitCode := r.exitCode, passed := r.passed,
        verificationScopeId := scopeId, scopeItemId := criterion.scopeItemId, sourceAttempt := attempt })

/-- The task row after the decision. -/
def TaskRow.verified (task : TaskRow) (target : TaskState) (now : Nat) : TaskRow :=
  { task with
    state := target
    finishedAt := if target = .succeeded ∨ target = .failed then some now else none
    version := task.version + 1 }

/-- Record every criterion result and decide the reviewed task. -/
def applyTaskVerification (db : Db) (call : VerificationCall) : Except StoreError (TaskState × Db) := do
  let task ← orRaise (db.tasks.get? call.taskId) (.keyError call.taskId)
  ensure (task.state = .reviewing) (.runtimeError ("task " ++ call.taskId ++ " is not awaiting verification"))
  ensure (call.maxAttempts.all (fun m => decide (1 ≤ m)) = true) (.valueError "max_attempts must be positive")
  let (criteria, attempt) ← judgedCriteria dg db call task
  let known := criteria.map fun c => c.criterionId
  let reported := call.result.results.map fun r => r.criterionId
  ensure (reported.Nodup) (.verificationPolicy "verification results contain duplicate criterion IDs")
  let unknown := (reported ++ call.result.requiredFailures).dedup.filter fun id => decide (id ∉ known)
  ensure (unknown = [])
    (.verificationPolicy ("verification referenced unknown criteria: " ++
      ", ".intercalate (unknown.insertionSort (· ≤ ·))))
  let verifications ← orRaise
    (db.verifications.insertAll? (verificationRows call task.currentVerificationScopeId attempt criteria))
    (.integrityError "UNIQUE constraint failed: verifications.id")
  let target := verificationTarget call task criteria
  return (target, { db with
    verifications := verifications
    criteria :=
      if task.currentVerificationScopeId.isSome = true then db.criteria
      else criteria.foldl (fun t c => t.modify c.criterionId
        (CriterionRow.decide (canonicalResult call.result c).passed)) db.criteria
    tasks := db.tasks.modify call.taskId fun _ => task.verified target (timestamp call.now) })

/-! ## What the operations commit -/

theorem addAcceptanceCriterion_ok {db db' : Db} {criterion : NewCriterion} {now : Nat} {id : String}
    (h : addAcceptanceCriterion db criterion now = .ok (id, db')) :
    ∃ criteria, db' = { db with criteria := criteria } := by
  simp only [addAcceptanceCriterion, bind_eq_ok, orRaise_eq_ok, pure_eq_ok, Prod.mk.injEq] at h
  obtain ⟨criteria, -, -, rfl⟩ := h
  exact ⟨criteria, rfl⟩

theorem recordVerification_ok {db db' : Db} {verification : NewVerification} {id : String}
    (h : recordVerification db verification = .ok (id, db')) :
    ∃ verifications criteria, db' = { db with verifications := verifications, criteria := criteria } := by
  simp only [recordVerification, bind_eq_ok, ensure_eq_ok, orRaise_eq_ok, pure_eq_ok, Prod.mk.injEq] at h
  obtain ⟨task, -, -, -, -, -, verifications, -, -, rfl⟩ := h
  exact ⟨verifications, _, rfl⟩

theorem applyTaskVerification_ok {db db' : Db} {call : VerificationCall} {target : TaskState}
    (h : applyTaskVerification dg db call = .ok (target, db')) :
    ∃ task criteria attempt verifications projectCriteria,
      db.tasks.get? call.taskId = some task ∧ task.state = .reviewing ∧
      judgedCriteria dg db call task = .ok (criteria, attempt) ∧
      target = verificationTarget call task criteria ∧
      db' = { db with
        verifications := verifications
        criteria := projectCriteria
        tasks := db.tasks.modify call.taskId fun _ => task.verified target (timestamp call.now) } := by
  simp only [applyTaskVerification, bind_eq_ok, ensure_eq_ok, orRaise_eq_ok, pure_eq_ok, Prod.mk.injEq] at h
  obtain ⟨task, ht, -, hr, -, -, ⟨criteria, attempt⟩, hj, -, -, -, -, verifications, -, rfl, rfl⟩ := h
  exact ⟨task, criteria, attempt, verifications, _, ht, hr, hj, rfl, rfl⟩

theorem verificationTarget_cases (call : VerificationCall) (task : TaskRow) (criteria : List JudgedCriterion) :
    verificationTarget call task criteria = .succeeded ∨ verificationTarget call task criteria = .failed ∨
      verificationTarget call task criteria = .ready := by
  unfold verificationTarget
  split
  · exact Or.inl rfl
  · split
    · exact Or.inr (Or.inl rfl)
    · exact Or.inr (Or.inr rfl)

end AgentFabric.Store
