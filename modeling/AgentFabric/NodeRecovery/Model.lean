import AgentFabric.Store.Schema
import AgentFabric.Lib.Threads

/-!
# Node runtime recovery: its data and its transactions

`node_recovery.py` over the tables of `0008_node_runtime_recovery.sql` and `0009_node_recovery_host.sql`.  Instants and
durations are microseconds; what `timestamp` writes are whole seconds.
-/

namespace AgentFabric.NodeRecovery

open AgentFabric.Lib

/-! ## Values -/

inductive RecoveryOperation where
  | startRuntime
deriving DecidableEq, Repr

inductive RecoveryAttemptState where
  | observedHealthy | degraded | permissionRequired | recovering | verifying | ready | failed
deriving DecidableEq, Repr

/-- The states with a `finished_at`. -/
def RecoveryAttemptState.terminal : RecoveryAttemptState → Bool
  | .observedHealthy | .ready | .failed | .permissionRequired => true
  | _ => false

/-- The states with a `failure_code`. -/
def RecoveryAttemptState.failing : RecoveryAttemptState → Bool
  | .failed | .permissionRequired => true
  | _ => false

/-- `state IN ('observedHealthy','ready')`. -/
def RecoveryAttemptState.healthy : RecoveryAttemptState → Bool
  | .observedHealthy | .ready => true
  | _ => false

inductive NodeState where
  | online | degraded | offline | unprovisioned
deriving DecidableEq, Repr

def seconds (n : Nat) : Nat := n * 1000000

/-- The written form of an instant drops the microseconds. -/
def timestamp (instant : Nat) : Nat := seconds (Store.timestamp instant)

def attribution (text : String) : Bool :=
  match text.toList with
  | [] => false
  | c :: cs => c.isAlpha && decide (cs.length ≤ 159) &&
      cs.all fun c => c.isAlphanum || ['.', '_', ':', '@', '/', '-'].contains c

/-- `_AUTHORIZATION_REF` and `_OPERATION_REF`: a kind and an opaque identifier. -/
def reference (kinds : List String) (text : String) : Bool :=
  kinds.any fun kind =>
    let rest := text.toList.drop (kind.length + 1)
    (kind ++ "-").toList.isPrefixOf text.toList && decide (1 ≤ rest.length) && decide (rest.length ≤ 140) &&
      rest.all fun c => c.isAlphanum || ['.', '_', ':', '-'].contains c

def authorizationRef : String → Bool := reference ["grant", "approval", "capability"]

def operationRef : String → Bool := reference ["operation", "request", "runtime"]

/-- The columns of a policy that recovery reads. -/
structure PolicyRow where
  nodeId : String
  runtimeId : String
  backendEndpoint : String
  requiredCapability : String
  expectedModels : List String
  workerIds : List String
  enabled : Bool
  maxAttempts : Nat
  leaseTtl : Nat
  named : blank nodeId = false ∧ blank runtimeId = false ∧ blank requiredCapability = false
  attempts : 1 ≤ maxAttempts ∧ maxAttempts ≤ 3
  ttl : seconds 15 ≤ leaseTtl ∧ leaseTtl ≤ seconds 300
  models : (∀ m ∈ expectedModels, blank m = false) ∧ expectedModels.Nodup
  workers : (∀ w ∈ workerIds, blank w = false) ∧ workerIds.Nodup

instance : DecidableEq PolicyRow := fun a b =>
  decidable_of_iff (a.nodeId = b.nodeId ∧ a.runtimeId = b.runtimeId ∧ a.backendEndpoint = b.backendEndpoint ∧
      a.requiredCapability = b.requiredCapability ∧ a.expectedModels = b.expectedModels ∧ a.workerIds = b.workerIds ∧
      a.enabled = b.enabled ∧ a.maxAttempts = b.maxAttempts ∧ a.leaseTtl = b.leaseTtl)
    (by cases a; cases b; simp only [PolicyRow.mk.injEq])

structure RuntimeRecoveryPolicy extends PolicyRow where
  id : String
deriving DecidableEq

structure RuntimeHealthObservation where
  reachable : Bool
  runtimeReady : Bool
  models : Option (List String)
  unique : ∀ ms ∈ models, (∀ m ∈ ms, blank m = false) ∧ ms.Nodup
deriving DecidableEq

def RuntimeHealthObservation.readyFor (o : RuntimeHealthObservation) (policy : RuntimeRecoveryPolicy) : Bool :=
  if !(o.reachable && o.runtimeReady) then false
  else if policy.expectedModels.isEmpty then true
  else
    match o.models with
    | none => false
    | some models => policy.expectedModels.all fun m => models.contains m

/-- What `_observe` makes of a probe that raised. -/
def RuntimeHealthObservation.probeError : RuntimeHealthObservation := ⟨false, false, none, by simp⟩

structure RecoveryAuthorizationContext where
  recoveryId : String
  nodeId : String
  runtimeId : String
  capability : String
  operation : RecoveryOperation
  requestedBy : String
  attempt : Nat
deriving DecidableEq, Repr

structure RecoveryAuthorizationDecision where
  authorized : Bool
  authorizationRef : Option String
  reason : String
  reasoned : blank reason = false
  coherent : authorized = authorizationRef.any fun r => !blank r
  opaqueRef : ∀ r ∈ authorizationRef, NodeRecovery.authorizationRef r = true
deriving DecidableEq

/-- `DenyAllRecoveryAuthorizer`. -/
def denyAll : RecoveryAuthorizationDecision where
  authorized := false
  authorizationRef := none
  reason := "no capability authorizer configured"
  reasoned := by decide
  coherent := rfl
  opaqueRef := by simp

structure NodeRuntimeAdapterDescriptor where
  nodeId : String
  maxOperation : Nat
  allowedOperations : List RecoveryOperation
  allowsArbitraryCommands : Bool := false
  enforcesFencing : Bool := true
  enforcesDeadline : Bool := true
  enforcesIdempotency : Bool := true
  bounded : 0 < maxOperation ∧ maxOperation ≤ seconds 120
deriving DecidableEq

structure RecoveryLeaseClaim where
  policyId : String
  ownerId : String
  generation : Nat
  recoveryId : String
  expiresAt : Nat
  staleOwnerRecovered : Bool
  positive : 1 ≤ generation
deriving DecidableEq

structure RuntimeRecoveryRequest where
  recoveryId : String
  policyId : String
  nodeId : String
  runtimeId : String
  operation : RecoveryOperation
  backendEndpoint : String
  authorizationRef : String
  leaseOwnerId : String
  leaseGeneration : Nat
  idempotencyKey : String
  requestedAt : Nat
  deadlineAt : Nat
  follows : requestedAt < deadlineAt
  positive : 1 ≤ leaseGeneration
  keyed : idempotencyKey = recoveryId
deriving DecidableEq

structure RuntimeRecoveryResult where
  accepted : Bool
  operationReference : Option String
  observedFencingGeneration : Option Nat
  acknowledged : accepted = true → operationReference.any operationRef = true ∧
    observedFencingGeneration.any (fun g => decide (1 ≤ g)) = true
deriving DecidableEq

/-- What a probe, an authorizer or an adapter raises: an `Exception`, or an interrupt that is none. -/
inductive Fault where
  | exception (detail : String)
  | interrupt
deriving DecidableEq, Repr

inductive Raised where
  | keyError (key : String)
  | valueError (message : String)
  | integrityError (message : String)
  | leaseUnavailable (message : String)
  | leaseLost (message : String)
  | fault (fault : Fault)
deriving DecidableEq, Repr

/-! ## Tables -/

inductive RecoveryLeaseState where
  | owned | released | lost
deriving DecidableEq, Repr

structure LeaseRow where
  ownerId : String
  generation : Nat
  state : RecoveryLeaseState
  expiresAt : Nat
deriving DecidableEq, Repr

/-- A recovery attempt, with the `CHECK` constraints of its table. -/
structure AttemptRow where
  policyId : String
  state : RecoveryAttemptState
  attemptCount : Nat
  authorizationRef : Option String
  before : RuntimeHealthObservation
  after : Option RuntimeHealthObservation
  failureCode : Option String
  startedAt : Nat
  finishedAt : Option Nat
  leaseOwnerId : String
  leaseGeneration : Nat
  counted : attemptCount ≤ 3
  finished : finishedAt.isSome = state.terminal
  failed : failureCode.isSome = state.failing
deriving DecidableEq

structure WorkerRow where
  nodeId : String
  state : WorkerState
  resourceState : ResourceState
deriving DecidableEq, Repr

structure Db where
  policies : Table String PolicyRow
  leases : Table String LeaseRow
  attempts : Table String AttemptRow
  nodes : Table String NodeState
  workers : Table String WorkerRow
deriving DecidableEq

/-! ## The lease repository -/

/-- `SELECT 1 … WHERE policy_id=? AND owner_id=? AND generation=? AND state='owned' AND expires_at>?`. -/
def owned (db : Db) (claim : RecoveryLeaseClaim) (now : Nat) : Bool :=
  match db.leases.get? claim.policyId with
  | none => false
  | some lease =>
    decide (lease.ownerId = claim.ownerId) && decide (lease.generation = claim.generation) &&
      decide (lease.state = .owned) && decide (now < lease.expiresAt)

/-- `assert_owned_in`. -/
def assertOwned (db : Db) (claim : RecoveryLeaseClaim) (now : Nat) : Except Raised Unit :=
  ensure (owned db claim now = true)
    (.leaseLost ("owner " ++ claim.ownerId ++ " no longer holds generation " ++ toString claim.generation ++
      " for recovery policy " ++ claim.policyId))

/-- The lease is owned and not expired. -/
def LeaseRow.live (lease : LeaseRow) (now : Nat) : Bool :=
  decide (lease.state = .owned) && decide (now < lease.expiresAt)

/-- The reconciliation of an attempt that a new owner finds unfinished. -/
def AttemptRow.reconciled (attempt : AttemptRow) (code : String) (now : Nat) : AttemptRow :=
  { attempt with
    state := .failed
    failureCode := some code
    finishedAt := some now
    finished := rfl
    failed := rfl }

/-- `SELECT … WHERE policy_id=? AND finished_at IS NULL`. -/
def unfinished (policyId : String) (attempt : AttemptRow) : Bool :=
  decide (attempt.policyId = policyId) && attempt.finishedAt.isNone

def tryAcquire (db : Db) (policyId ownerId recoveryId : String) (leaseTtl now : Nat) :
    Except Raised (Option RecoveryLeaseClaim × Db) := do
  ensure (attribution ownerId = true) (.valueError "recovery lease owner must be a bounded machine identity")
  ensure (seconds 15 ≤ leaseTtl ∧ leaseTtl ≤ seconds 300)
    (.valueError "recovery lease TTL must be between 15 and 300 seconds")
  let _ ← orRaise (db.policies.get? policyId) (.keyError policyId)
  let lease := db.leases.get? policyId
  if lease.any (fun l => l.live now) then return (none, db)
  else
    let stale := lease.any fun l => decide (l.state = .owned)
    let generation := (lease.map LeaseRow.generation).getD 0 + 1
    let code := if stale then "staleLeaseRecovered" else "orphanedAttemptRecovered"
    return (some ⟨policyId, ownerId, generation, recoveryId, now + leaseTtl, stale, Nat.le_add_left 1 _⟩,
      { db with
        leases := db.leases.upsert policyId ⟨ownerId, generation, .owned, now + leaseTtl⟩
        attempts := db.attempts.updateWhere (fun _ a => unfinished policyId a) fun a => a.reconciled code now })

def LeaseRow.heldBy (lease : LeaseRow) (claim : RecoveryLeaseClaim) : Bool :=
  decide (lease.ownerId = claim.ownerId) && decide (lease.generation = claim.generation) &&
    decide (lease.state = .owned)

def heartbeat (db : Db) (claim : RecoveryLeaseClaim) (leaseTtl now : Nat) : Bool × Db :=
  if owned db claim now = true then
    (true, { db with leases := db.leases.modify claim.policyId fun l => { l with expiresAt := now + leaseTtl } })
  else (false, db)

def release (db : Db) (claim : RecoveryLeaseClaim) (lost : Bool) (now : Nat) : Bool × Db :=
  if (db.leases.get? claim.policyId).any (fun l => l.heldBy claim) then
    (true, { db with leases := db.leases.modify claim.policyId fun l =>
      { l with state := if lost then .lost else .released, expiresAt := now } })
  else (false, db)

/-! ## The transactions of the service -/

def getPolicy (db : Db) (policyId : String) : Except Raised RuntimeRecoveryPolicy :=
  orRaise ((db.policies.get? policyId).map fun row => { row with id := policyId }) (.keyError policyId)

def upsertPolicy (db : Db) (policy : RuntimeRecoveryPolicy) (configuredBy : String) (now : Nat) :
    Except Raised (Unit × Db) := do
  ensure (attribution configuredBy = true) (.valueError "configured_by must be a bounded operator identity")
  let _ ← orRaise (db.nodes.get? policy.nodeId) (.keyError policy.nodeId)
  ensure ((db.leases.get? policy.id).any (fun l => l.live now) = false)
    (.leaseUnavailable ("cannot reconfigure recovery policy " ++ policy.id ++ " while its lease is live"))
  ensure ((policy.workerIds.all fun w => (db.workers.get? w).any fun row => decide (row.nodeId = policy.nodeId)) = true)
    (.valueError "every recovery Worker must exist on the policy node")
  ensure (db.policies.any (fun id row => decide (id ≠ policy.id) && decide (row.nodeId = policy.nodeId) &&
      decide (row.runtimeId = policy.runtimeId)) = false)
    (.integrityError "UNIQUE constraint failed: node_runtime_recovery_policies")
  return ((), { db with policies := db.policies.upsert policy.id policy.toPolicyRow })

/-- The readings of one transaction: the one that is written and the one of the ownership check. -/
structure Clock where
  now : Nat
  check : Nat
deriving DecidableEq, Repr

def createAttempt (db : Db) (policy : RuntimeRecoveryPolicy) (claim : RecoveryLeaseClaim)
    (state : RecoveryAttemptState) (before : RuntimeHealthObservation) (finished : Bool) (clock : Clock) :
    Except Raised (Unit × Db) := do
  let now := timestamp clock.now
  assertOwned db claim clock.check
  if h : finished = state.terminal ∧ state.failing = false then
    let row : AttemptRow :=
      { policyId := policy.id
        state := state
        attemptCount := 0
        authorizationRef := none
        before := before
        after := none
        failureCode := none
        startedAt := now
        finishedAt := if finished then some now else none
        leaseOwnerId := claim.ownerId
        leaseGeneration := claim.generation
        counted := Nat.zero_le 3
        finished := by rw [← h.1]; cases finished <;> rfl
        failed := h.2.symm }
    let attempts ← orRaise (db.attempts.insert? claim.recoveryId row)
      (.integrityError "UNIQUE constraint failed: node_runtime_recovery_attempts.id")
    return ((), { db with attempts := attempts })
  else throw (.integrityError "CHECK constraint failed: node_runtime_recovery_attempts")

/-- The columns that `_update_attempt` writes. -/
structure AttemptUpdate where
  state : RecoveryAttemptState
  attemptCount : Nat
  authorizationRef : Option String := none
  after : Option RuntimeHealthObservation := none
  failureCode : Option String := none
  finished : Bool := false
deriving DecidableEq

/-- The row after the update; none when a constraint refuses it. -/
def AttemptRow.updated (attempt : AttemptRow) (update : AttemptUpdate) (now : Nat) : Option AttemptRow :=
  if h : update.attemptCount ≤ 3 ∧ update.finished = update.state.terminal ∧
      update.failureCode.isSome = update.state.failing then
    some { attempt with
      state := update.state
      attemptCount := update.attemptCount
      authorizationRef := update.authorizationRef <|> attempt.authorizationRef
      after := update.after <|> attempt.after
      failureCode := update.failureCode
      finishedAt := if update.finished then some now else none
      counted := h.1
      finished := by rw [← h.2.1]; cases update.finished <;> rfl
      failed := h.2.2 }
  else none

def updateAttempt (db : Db) (claim : RecoveryLeaseClaim) (update : AttemptUpdate) (clock : Clock) :
    Except Raised (Unit × Db) := do
  assertOwned db claim clock.check
  match db.attempts.get? claim.recoveryId with
  | none => return ((), db)
  | some attempt =>
    let row ← orRaise (attempt.updated update (timestamp clock.now))
      (.integrityError "CHECK constraint failed: node_runtime_recovery_attempts")
    return ((), { db with attempts := db.attempts.modify claim.recoveryId fun _ => row })

/-- `state IN ('idle','offline','failed')`. -/
def degradable : WorkerState → Bool
  | .idle | .offline | .failed => true
  | _ => false

/-- `state IN ('offline','failed')`. -/
def restorable : WorkerState → Bool
  | .offline | .failed => true
  | _ => false

def markDegraded (db : Db) (policy : RuntimeRecoveryPolicy) (claim : RecoveryLeaseClaim) (clock : Clock) :
    Except Raised (Unit × Db) := do
  assertOwned db claim clock.check
  return ((), { db with
    nodes := db.nodes.modify policy.nodeId fun _ => .degraded
    workers := db.workers.updateWhere (fun id w => policy.workerIds.contains id && degradable w.state) fun w =>
      { w with state := .offline, resourceState := .unknown } })

/-- The attempts of a policy, in the order of their creation. -/
def attemptsOf (db : Db) (policyId : String) : List (String × AttemptRow) :=
  db.attempts.rows.filter fun e => decide (e.2.policyId = policyId)

/-- `ORDER BY started_at DESC,id DESC LIMIT 1`. -/
def greatest : List (String × AttemptRow) → Option (String × AttemptRow)
  | [] => none
  | e :: es =>
    match greatest es with
    | none => some e
    | some f =>
      if f.2.startedAt < e.2.startedAt ∨ (f.2.startedAt = e.2.startedAt ∧ f.1 < e.1) then some e else some f

/-- An enabled policy whose greatest attempt is not healthy. -/
def unhealthy (db : Db) (policyId : String) (row : PolicyRow) : Bool :=
  row.enabled && !(greatest (attemptsOf db policyId)).any fun e => e.2.state.healthy

/-- `unhealthy_policy`: another enabled policy of the node is not healthy. -/
def unhealthyPolicy (db : Db) (policy : RuntimeRecoveryPolicy) : Bool :=
  db.policies.any fun id row => decide (row.nodeId = policy.nodeId) && decide (id ≠ policy.id) && unhealthy db id row

def markReady (db : Db) (policy : RuntimeRecoveryPolicy) (claim : RecoveryLeaseClaim) (clock : Clock) :
    Except Raised (Unit × Db) := do
  assertOwned db claim clock.check
  return ((), { db with
    nodes := if unhealthyPolicy db policy then db.nodes else db.nodes.modify policy.nodeId fun _ => .online
    workers := db.workers.updateWhere (fun id w => policy.workerIds.contains id && restorable w.state) fun w =>
      { w with state := .idle, resourceState := .available } })

end AgentFabric.NodeRecovery
