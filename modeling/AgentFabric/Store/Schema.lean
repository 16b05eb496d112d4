import AgentFabric.Domain
import AgentFabric.Lib.Table

/-!
# The supervisor database

One structure per table of `migrations/`, with the columns that some modelled operation reads, and `Db`, the state
that one store transaction reads and writes.  Instants are microseconds; a stored `timestamp` is whole seconds.
-/

namespace AgentFabric.Store

open AgentFabric.Lib

/-- Stored timestamps drop the microseconds. -/
def timestamp (instant : Nat) : Nat := instant / 1000000

/-- The two readings of one operation: the one of the lease check and the one that is written. -/
structure Clock where
  lease : Nat
  now : Nat
deriving DecidableEq, Repr

/-! ## Execution tables -/

structure TaskRow where
  projectId : String
  reference : String
  state : TaskState
  topology : ExecutionTopology
  attemptCount : Nat
  version : Nat
  definitionRevision : Nat
  currentVerificationScopeId : Option String
  startedAt : Option Nat
  finishedAt : Option Nat
deriving DecidableEq, Repr

structure WorkerRow where
  state : WorkerState
  resourceState : ResourceState
  modelId : Option String
deriving DecidableEq, Repr

/-- The columns of a run that are written with `COALESCE(?,column)`. -/
structure RunDetail where
  processId : Option Nat
  exitCode : Option Int
  sessionId : Option String
  rawOutputReference : Option String
  failureClass : Option FailureClass
deriving DecidableEq, Repr

def RunDetail.empty : RunDetail := ⟨none, none, none, none, none⟩

/-- A supplied value replaces the stored one, an absent one keeps it. -/
def RunDetail.coalesce (new old : RunDetail) : RunDetail where
  processId := new.processId <|> old.processId
  exitCode := new.exitCode <|> old.exitCode
  sessionId := new.sessionId <|> old.sessionId
  rawOutputReference := new.rawOutputReference <|> old.rawOutputReference
  failureClass := new.failureClass <|> old.failureClass

structure RunRow where
  taskId : String
  workerId : String
  state : RunState
  attempt : Nat
  timeoutAt : Option Nat
  verificationScopeId : Option String
  taskDefinitionRevision : Option Nat
  createdAt : Nat
  startedAt : Option Nat
  endedAt : Option Nat
  detail : RunDetail
deriving DecidableEq, Repr

structure LeaseRow where
  ownerId : String
  generation : Nat
  state : LeaseState
  expiresAt : Nat
deriving DecidableEq, Repr

/-- The adapter contract persisted with a provider job. -/
structure JobCapabilities where
  protocolVersion : Nat := 1
  supportsReconcile : Bool := false
  supportsResume : Bool := false
  supportsCancel : Bool := false
  supportsDurableCancel : Bool := false
  supportsProviderIdempotency : Bool := false
  supportsStreamReconnect : Bool := false
  supportsRepeatableCollect : Bool := false
  supportsIdempotentLaunchLookup : Bool := false
  supportsDurableLaunchRegistry : Bool := false
deriving DecidableEq, Repr

/-- The provider or runtime identity bound to a job. -/
structure JobHandle where
  handleVersion : Nat
  providerJobId : Option String
  providerSessionId : Option String
  runtimePid : Option Nat
  runtimeHost : Option String
  runtimeIdentity : Option String
  adapterMetadata : String
deriving DecidableEq, Repr

/-- The column defaults before a handle is bound. -/
def JobHandle.unbound : JobHandle := ⟨1, none, none, none, none, none, ""⟩

/-- A provider job; its row is keyed by the run, which is unique. -/
structure JobRow where
  id : String
  taskId : String
  workerId : String
  adapterType : String
  adapterInstanceId : String
  launchGeneration : Nat
  idempotencyKey : String
  capabilities : JobCapabilities
  handle : JobHandle
  launchState : LaunchState
  reconciliationState : ReconciliationState
  resultCollectionState : CollectionState
  createdAt : Nat
  launchedAt : Option Nat
  lastReconciledAt : Option Nat
  resultCollectedAt : Option Nat
deriving DecidableEq, Repr

/-- The stored columns of a worker result; lists are stored as their JSON text. -/
structure ResultValues where
  summary : String
  changedFilesJson : String
  commandsRunJson : String
  testsJson : String
  artifactsJson : String
  commitHash : Option String
  blockersJson : String
  confidence : Option Rat
  recommendedNextActionsJson : String
deriving DecidableEq, Repr

structure EscalationRow where
  taskId : String
  runId : String
  providerJobId : String
  code : EscalationCode
  state : EscalationState
  createdAt : Nat
deriving DecidableEq, Repr

/-! ## Verification tables -/

inductive CriterionState where
  | pending | passed | failed
deriving DecidableEq, Repr

structure CriterionRow where
  projectId : String
  kind : String
  description : String
  commandJson : Option String
  expectedJson : Option String
  state : CriterionState
  createdAt : Nat
deriving DecidableEq, Repr

/-- `_verification_scope_item_snapshot`: what the hash of an item covers. -/
structure ItemSnapshot where
  criterionId : String
  kind : String
  description : String
  commandJson : Option String
  expectedJson : Option String
  required : Bool
deriving DecidableEq, Repr

structure ScopeItemRow where
  scopeId : String
  snapshot : ItemSnapshot
  sourceCriterionId : String
  ordinal : Nat
  definitionSha256 : String
deriving DecidableEq, Repr

/-- What the hash of a scope covers; the items come with their own hashes. -/
structure ScopeSnapshot where
  schemaVersion : String
  taskId : String
  criteriaVersion : Nat
  taskDefinitionRevision : Nat
  goalId : Option String
  iterationId : Option String
  planVersion : Option Nat
  steerVersion : Option Nat
  items : List (ItemSnapshot × String)
deriving DecidableEq, Repr

structure ScopeRow where
  projectId : String
  taskId : String
  criteriaVersion : Nat
  taskDefinitionRevision : Nat
  goalId : Option String
  iterationId : Option String
  planVersion : Option Nat
  steerVersion : Option Nat
  schemaVersion : String
  definitionSha256 : String
  sealedAt : Option Nat
deriving DecidableEq, Repr

/-- `sha256(compact_json(...))` of the two snapshots. -/
structure Digests where
  item : ItemSnapshot → String
  scope : ScopeSnapshot → String

/-- Digests for concrete runs. -/
def Digests.trivial : Digests := ⟨fun _ => "", fun _ => ""⟩

structure VerificationRow where
  taskId : String
  criterionId : Option String
  kind : String
  commandJson : Option String
  exitCode : Option Int
  passed : Bool
  verificationScopeId : Option String
  scopeItemId : Option String
  sourceAttempt : Option Nat
deriving DecidableEq, Repr

/-! ## Autonomy tables -/

inductive GoalState where
  | created | running | softPaused | hardPaused | stopped | terminated
deriving DecidableEq, Repr

inductive TerminationReason where
  | success | blocked | noProgress | iterationLimit | budgetLimit | repeatedFailure | safetyBoundary
  | permissionRequired | humanEscalation | userStopped
deriving DecidableEq, Repr

inductive PauseMode where
  | soft | hard
deriving DecidableEq, Repr

theorem defaultBudget_positive : 0 < 12 ∧ 0 < 48 ∧ 0 < 6 ∧ 0 < 3 ∧
    (none : Option Nat) ≠ some 0 ∧ (none : Option Nat) ≠ some 0 ∧ ∀ c ∈ (none : Option Rat), 0 < c := by decide

structure GoalBudget where
  maxIterations : Nat := 12
  maxTasks : Nat := 48
  maxFailures : Nat := 6
  noProgressLimit : Nat := 3
  maxElapsedMicros : Option Nat := none
  maxTotalTokens : Option Nat := none
  maxCostUsd : Option Rat := none
  positive : 0 < maxIterations ∧ 0 < maxTasks ∧ 0 < maxFailures ∧ 0 < noProgressLimit ∧
    maxElapsedMicros ≠ some 0 ∧ maxTotalTokens ≠ some 0 ∧ ∀ c ∈ maxCostUsd, 0 < c := by
    first | exact AgentFabric.Store.defaultBudget_positive | decide
deriving DecidableEq

structure GoalRow where
  projectId : String
  state : GoalState
  terminationReason : Option TerminationReason
  terminationDetail : Option String
  budgets : GoalBudget
  iterationCount : Nat
  noProgressCount : Nat
  taskCount : Nat
  failureCount : Nat
  steerVersion : Nat
  progressFingerprint : Option String
  startedAt : Option Nat
deriving DecidableEq

inductive IterationState where
  | evaluating | planned | dispatching | collecting | verifying | replanning | completed | interrupted
deriving DecidableEq, Repr

/-- `state NOT IN ('completed','interrupted')`. -/
def IterationState.active : IterationState → Bool
  | .completed | .interrupted => false
  | _ => true

inductive EvaluationDisposition where
  | incomplete | satisfied | terminate
deriving DecidableEq, Repr

structure GoalEvaluation where
  disposition : EvaluationDisposition
  summary : String
  progressFingerprint : String
  terminationReason : Option TerminationReason
  present : blank summary = false ∧ blank progressFingerprint = false
  reasoned : if disposition = .terminate then terminationReason ≠ none ∧ terminationReason ≠ some .success
    else terminationReason = none
deriving DecidableEq

structure GoalVerification where
  satisfied : Bool
  summary : String
  progressFingerprint : String
  terminationReason : Option TerminationReason
  present : blank summary = false ∧ blank progressFingerprint = false
  reasoned : if satisfied = true then terminationReason = none ∨ terminationReason = some .success
    else terminationReason ≠ some .success
deriving DecidableEq

structure PlannedAction where
  key : String
  title : String
  description : String
  role : String
  payload : String
  present : blank key = false ∧ blank title = false ∧ blank description = false
deriving DecidableEq

structure GoalPlan where
  summary : String
  actions : List PlannedAction
  rationale : String
deriving DecidableEq

/-- A phase decision with the steer version stored beside it; older rows have none. -/
structure Checkpoint (α : Type) where
  decision : α
  steerVersion : Option Nat
deriving DecidableEq

structure IterationRow where
  goalId : String
  sequence : Nat
  state : IterationState
  evaluation : Option (Checkpoint GoalEvaluation)
  plan : Option GoalPlan
  verification : Option (Checkpoint GoalVerification)
deriving DecidableEq

inductive ActionState where
  | planned | dispatching | running | completed | failed | cancelled
deriving DecidableEq, Repr

def ActionState.value : ActionState → String
  | .planned => "planned" | .dispatching => "dispatching" | .running => "running" | .completed => "completed"
  | .failed => "failed" | .cancelled => "cancelled"

structure DispatchHandle where
  reference : String
  taskId : Option String
  metadata : String
deriving DecidableEq, Repr

structure ActionResult where
  succeeded : Bool
  summary : String
  payload : String
  cancelled : Bool
deriving DecidableEq, Repr

structure ActionRow where
  goalId : String
  iterationId : String
  ordinal : Nat
  action : PlannedAction
  state : ActionState
  taskId : Option String
  dispatchRef : Option DispatchHandle
  result : Option ActionResult
  error : Option String
deriving DecidableEq

/-- The journal entries that some operation reads back. -/
inductive Event where
  | goalIterationStarted (iterationId : String)
  | goalSteered (goalId : String) (steerVersion : Option Nat)
  | dispatchDeferred (taskId reasonCode detail : String) (createdAt : Nat)
deriving DecidableEq, Repr

/-! ## The database -/

structure Db where
  tasks : Table String TaskRow
  dependencies : List (String × String)
  workers : Table String WorkerRow
  runs : Table String RunRow
  leases : Table String LeaseRow
  jobs : Table String JobRow
  results : Table String ResultValues
  escalations : Table String EscalationRow
  criteria : Table String CriterionRow
  scopes : Table String ScopeRow
  scopeItems : Table String ScopeItemRow
  verifications : Table String VerificationRow
  goals : Table String GoalRow
  iterations : Table String IterationRow
  actions : Table String ActionRow
  events : List Event

/-- The database after the migrations. -/
def Db.initial : Db where
  tasks := .empty
  dependencies := []
  workers := .empty
  runs := .empty
  leases := .empty
  jobs := .empty
  results := .empty
  escalations := .empty
  criteria := .empty
  scopes := .empty
  scopeItems := .empty
  verifications := .empty
  goals := .empty
  iterations := .empty
  actions := .empty
  events := []

/-- The lease is active and expires after the given timestamp. -/
def LeaseRow.live (lease : LeaseRow) (now : Nat) : Bool :=
  decide (lease.state = .active) && decide (now < lease.expiresAt)

def leaseLive (db : Db) (taskId : String) (now : Nat) : Bool :=
  match db.leases.get? taskId with
  | some lease => lease.live now
  | none => false

/-- Some run of the worker other than `except` is starting, running or waiting. -/
def workerHasActiveRun (runs : Table String RunRow) (workerId : String) (except : Option String) : Bool :=
  runs.any fun id run => decide (run.workerId = workerId) && decide (some id ≠ except) && run.state.active

/-- `SELECT MAX(attempt) FROM worker_runs WHERE task_id=?`. -/
def latestAttempt (db : Db) (taskId : String) : Option Nat :=
  ((db.runs.rows.filter fun e => decide (e.2.taskId = taskId)).map fun e => e.2.attempt).max?

end AgentFabric.Store
