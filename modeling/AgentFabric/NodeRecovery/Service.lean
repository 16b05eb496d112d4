import AgentFabric.NodeRecovery.Model

/-!
# Node runtime recovery: the service

`recover_if_needed` and `upsert_policy` as programs of any number of callers over one database.  A call is one
transaction, one clock reading, or one request to a probe, an authorizer or an adapter; between two calls every other
caller may run, and a caller may stop for good.
-/

namespace AgentFabric.NodeRecovery

open AgentFabric.Lib

/-! ## Calls -/

inductive Call where
  | now
  | uuid4
  | getPolicy (policyId : String)
  | tryAcquire (policy : RuntimeRecoveryPolicy) (ownerId recoveryId : String) (now : Nat)
  | assertOwned (claim : RecoveryLeaseClaim)
  | heartbeat (claim : RecoveryLeaseClaim) (leaseTtl now : Nat)
  | release (claim : RecoveryLeaseClaim) (lost : Bool)
  | observe (policy : RuntimeRecoveryPolicy)
  | authorize (context : RecoveryAuthorizationContext)
  | recover (adapter : NodeRuntimeAdapterDescriptor) (request : RuntimeRecoveryRequest)
  | createAttempt (policy : RuntimeRecoveryPolicy) (claim : RecoveryLeaseClaim) (state : RecoveryAttemptState)
      (before : RuntimeHealthObservation) (finished : Bool)
  | updateAttempt (claim : RecoveryLeaseClaim) (update : AttemptUpdate)
  | markDegraded (policy : RuntimeRecoveryPolicy) (claim : RecoveryLeaseClaim)
  | markReady (policy : RuntimeRecoveryPolicy) (claim : RecoveryLeaseClaim)
  | event (claim : RecoveryLeaseClaim) (kind : String)
  | upsertPolicy (policy : RuntimeRecoveryPolicy) (configuredBy : String)

abbrev Call.Reply : Call → Type
  | .now => Nat
  | .uuid4 => String
  | .getPolicy _ => Except Raised RuntimeRecoveryPolicy
  | .tryAcquire .. => Except Raised (Option RecoveryLeaseClaim)
  | .heartbeat .. | .release .. => Bool
  | .observe _ => Except Fault RuntimeHealthObservation
  | .authorize _ => Except Fault RecoveryAuthorizationDecision
  | .recover .. => Except Fault RuntimeRecoveryResult
  | .assertOwned _ | .createAttempt .. | .updateAttempt .. | .markDegraded .. | .markReady .. | .event ..
  | .upsertPolicy .. => Except Raised Unit

/-- What the clock and the outside answer at one call. -/
structure Environment where
  clock : Clock
  uuid : String
  observation : Except Fault RuntimeHealthObservation
  decision : Except Fault RecoveryAuthorizationDecision
  execution : Except Fault RuntimeRecoveryResult

/-- A transaction that raised has changed nothing. -/
def commit {α : Type} (db : Db) : Except Raised (α × Db) → Except Raised α × Db
  | .ok (a, db') => (.ok a, db')
  | .error e => (.error e, db)

def act (db : Db) (env : Environment) : (c : Call) → c.Reply × Db
  | .now => (env.clock.now, db)
  | .uuid4 => (env.uuid, db)
  | .getPolicy policyId => (NodeRecovery.getPolicy db policyId, db)
  | .tryAcquire policy ownerId recoveryId now =>
    commit db (NodeRecovery.tryAcquire db policy.id ownerId recoveryId policy.leaseTtl now)
  | .assertOwned claim => (NodeRecovery.assertOwned db claim env.clock.check, db)
  | .heartbeat claim leaseTtl now => NodeRecovery.heartbeat db claim leaseTtl now
  | .release claim lost => NodeRecovery.release db claim lost env.clock.now
  | .observe _ => (env.observation, db)
  | .authorize _ => (env.decision, db)
  | .recover .. => (env.execution, db)
  | .createAttempt policy claim state before finished =>
    commit db (NodeRecovery.createAttempt db policy claim state before finished env.clock)
  | .updateAttempt claim update => commit db (NodeRecovery.updateAttempt db claim update env.clock)
  | .markDegraded policy claim => commit db (NodeRecovery.markDegraded db policy claim env.clock)
  | .markReady policy claim => commit db (NodeRecovery.markReady db policy claim env.clock)
  -- the journal itself is not read back
  | .event claim _ => (NodeRecovery.assertOwned db claim env.clock.check, db)
  | .upsertPolicy policy configuredBy =>
    commit db (NodeRecovery.upsertPolicy db policy configuredBy env.clock.now)

def machine : Machine Nat Db Call Call.Reply Environment where
  act _ db env c := act db env c

/-! ## Programs -/

abbrev Service := Prog.Raising Raised Call Call.Reply

def ask (c : Call) : Service c.Reply := Prog.ask c

/-- The reply of a call that may raise. -/
def raising {α : Type} (x : Except Raised α) : Service α := Prog.result x

def assertHeld (claim : RecoveryLeaseClaim) : Service Unit := do
  raising (← ask (.assertOwned claim))

def event (claim : RecoveryLeaseClaim) (kind : String) : Service Unit := do
  raising (← ask (.event claim kind))

def record (claim : RecoveryLeaseClaim) (update : AttemptUpdate) : Service Unit := do
  raising (← ask (.updateAttempt claim update))

def create (policy : RuntimeRecoveryPolicy) (claim : RecoveryLeaseClaim) (state : RecoveryAttemptState)
    (before : RuntimeHealthObservation) (finished : Bool) : Service Unit := do
  raising (← ask (.createAttempt policy claim state before finished))

def degrade (policy : RuntimeRecoveryPolicy) (claim : RecoveryLeaseClaim) : Service Unit := do
  raising (← ask (.markDegraded policy claim))

def restore (policy : RuntimeRecoveryPolicy) (claim : RecoveryLeaseClaim) : Service Unit := do
  raising (← ask (.markReady policy claim))

/-- `_observe`: an exception of the probe is an observation as well. -/
def observe (policy : RuntimeRecoveryPolicy) : Service RuntimeHealthObservation := do
  match ← ask (.observe policy) with
  | .ok observation => return observation
  | .error (.exception _) => return .probeError
  | .error .interrupt => throw (.fault .interrupt)

structure RecoveryOutcome where
  state : RecoveryAttemptState
  attemptCount : Nat
  authorizationRef : Option String
  before : RuntimeHealthObservation
  after : Option RuntimeHealthObservation
  failureCode : Option String
deriving DecidableEq

def fail (claim : RecoveryLeaseClaim) (before : RuntimeHealthObservation) (state : RecoveryAttemptState)
    (code eventKind : String) (attemptCount : Nat := 0) (authorizationRef : Option String := none)
    (after : Option RuntimeHealthObservation := none) : Service RecoveryOutcome := do
  record claim ⟨state, attemptCount, authorizationRef, after, some code, true⟩
  event claim eventKind
  return ⟨state, attemptCount, authorizationRef, before, after, some code⟩

/-- The arguments of one `recover_if_needed`. -/
structure RecoveryCall where
  policyId : String
  sideEffectFree : Bool
  adapter : NodeRuntimeAdapterDescriptor
  authorizer : Bool
  requestedBy : String
  triggerReason : String
  leaseOwnerId : Option String

/-- The authorizer of the call, or the one that denies everything. -/
def authorize (call : RecoveryCall) (context : RecoveryAuthorizationContext) : Service RecoveryAuthorizationDecision :=
  if call.authorizer then do
    match ← ask (.authorize context) with
    | .ok decision => return decision
    | .error fault => throw (.fault fault)
  else return denyAll

/-- The lease is extended from a clock reading taken before the transaction. -/
def extend (policy : RuntimeRecoveryPolicy) (claim : RecoveryLeaseClaim) (message : String) : Service Unit := do
  let now ← ask .now
  if ← ask (.heartbeat claim policy.leaseTtl now) then return ()
  else throw (.leaseLost message)

/-- `RuntimeRecoveryRequest(…)`. -/
def request (call : RecoveryCall) (policy : RuntimeRecoveryPolicy) (claim : RecoveryLeaseClaim)
    (authorizationRef : String) (requestedAt : Nat) : RuntimeRecoveryRequest where
  recoveryId := claim.recoveryId
  policyId := policy.id
  nodeId := policy.nodeId
  runtimeId := policy.runtimeId
  operation := .startRuntime
  backendEndpoint := policy.backendEndpoint
  authorizationRef := authorizationRef
  leaseOwnerId := claim.ownerId
  leaseGeneration := claim.generation
  idempotencyKey := claim.recoveryId
  requestedAt := requestedAt
  deadlineAt := requestedAt + call.adapter.maxOperation
  follows := Nat.lt_add_of_pos_right call.adapter.bounded.1
  positive := claim.positive
  keyed := rfl

/-- The attempts that remain, from the given one on; `after` is the last observation of the runtime. -/
def recoveryAttempts (call : RecoveryCall) (policy : RuntimeRecoveryPolicy) (claim : RecoveryLeaseClaim)
    (before : RuntimeHealthObservation) :
    (remaining attempt : Nat) → Option String → Option RuntimeHealthObservation → Service RecoveryOutcome
  | 0, _, authorization, after =>
    fail claim before .failed "verificationFailed" "runtimeRecoveryFailed" policy.maxAttempts authorization after
  | remaining + 1, attempt, _, after => do
    let decision ← authorize call
      ⟨claim.recoveryId, policy.nodeId, policy.runtimeId, policy.requiredCapability, .startRuntime, call.requestedBy,
        attempt⟩
    if decision.authorized = false then
      fail claim before .permissionRequired "authorizationDenied" "runtimeRecoveryDenied" (attempt - 1)
    else do
      let authorization := decision.authorizationRef
      record claim { state := .recovering, attemptCount := attempt, authorizationRef := authorization }
      event claim "runtimeRecoveryAuthorized"
      event claim "runtimeRecoveryStarted"
      extend policy claim ("runtime recovery lease generation " ++ toString claim.generation ++
        " expired before dispatch")
      let requestedAt ← ask .now
      match ← ask (.recover call.adapter (request call policy claim (authorization.getD "") requestedAt)) with
      | .error .interrupt => throw (.fault .interrupt)
      | .error (.exception _) =>
        if remaining = 0 then
          fail claim before .failed "recoveryAdapterFailed" "runtimeRecoveryFailed" attempt authorization
        else recoveryAttempts call policy claim before remaining (attempt + 1) authorization after
      | .ok execution => do
        extend policy claim ("runtime recovery lease generation " ++ toString claim.generation ++
          " expired during dispatch")
        if execution.accepted = true ∧ execution.observedFencingGeneration ≠ some claim.generation then
          fail claim before .failed "adapterFencingMismatch" "runtimeRecoveryFailed" attempt authorization
        else if execution.accepted = false then
          if remaining = 0 then
            fail claim before .failed "runtimeStartRejected" "runtimeRecoveryFailed" attempt authorization
          else recoveryAttempts call policy claim before remaining (attempt + 1) authorization after
        else do
          record claim { state := .verifying, attemptCount := attempt, authorizationRef := authorization }
          let observed ← observe policy
          assertHeld claim
          if observed.readyFor policy then do
            record claim ⟨.ready, attempt, authorization, some observed, none, true⟩
            restore policy claim
            event claim "runtimeRecoveryReady"
            return ⟨.ready, attempt, authorization, before, some observed, none⟩
          else recoveryAttempts call policy claim before remaining (attempt + 1) authorization (some observed)

def recoverClaimed (call : RecoveryCall) (policy : RuntimeRecoveryPolicy) (claim : RecoveryLeaseClaim) :
    Service RecoveryOutcome := do
  let before ← observe policy
  assertHeld claim
  if before.readyFor policy then do
    create policy claim .observedHealthy before true
    event claim "runtimeHealthObserved"
    return ⟨.observedHealthy, 0, none, before, none, none⟩
  else do
    create policy claim .degraded before false
    degrade policy claim
    if policy.enabled = false then
      fail claim before .permissionRequired "policyDisabled" "runtimeRecoveryDenied"
    else recoveryAttempts call policy claim before policy.maxAttempts 1 none none

/-- The checks of `recover_if_needed` on its arguments. -/
def admissible (call : RecoveryCall) (policy : RuntimeRecoveryPolicy) : Except Raised Unit := do
  ensure (call.sideEffectFree = true)
    (.valueError "runtime probe must explicitly declare side_effect_free=True")
  ensure (call.adapter.allowsArbitraryCommands = false ∧ call.adapter.allowedOperations = [.startRuntime] ∧
      call.adapter.enforcesFencing = true ∧ call.adapter.enforcesDeadline = true ∧
      call.adapter.enforcesIdempotency = true)
    (.valueError "recovery adapter must enforce a fenced, deadline-bounded, idempotent runtime.start")
  ensure (call.adapter.nodeId = policy.nodeId)
    (.valueError "recovery adapter node identity does not match the policy node")
  ensure (call.adapter.maxOperation + seconds 10 ≤ policy.leaseTtl)
    (.valueError "adapter operation bound must leave at least ten seconds of lease margin")
  ensure (attribution call.requestedBy = true ∧ blank call.triggerReason = false)
    (.valueError "bounded recovery attribution and trigger reason are required")

/-- `isinstance(error, RecoveryLeaseLost)`. -/
def leaseWasLost {α : Type} : Except Raised α → Bool
  | .error (.leaseLost _) => true
  | _ => false

/-- `lease_owner_id`, or a name of its own. -/
def leaseOwner (call : RecoveryCall) : Service String :=
  match call.leaseOwnerId.filter fun o => decide (o ≠ "") with
  | some o => return o
  | none => do return "recovery-owner-" ++ (← ask .uuid4)

def recoverIfNeeded (call : RecoveryCall) : Service RecoveryOutcome := do
  let policy ← raising (← ask (.getPolicy call.policyId))
  raising (admissible call policy)
  let recoveryId := "runtime-recovery-" ++ (← ask .uuid4)
  let ownerId ← leaseOwner call
  let now ← ask .now
  match ← raising (← ask (.tryAcquire policy ownerId recoveryId now)) with
  | none => throw (.leaseUnavailable ("runtime recovery policy " ++ policy.id ++ " has a live owner"))
  | some claim => do
    let outcome ← Prog.attempt (recoverClaimed call policy claim)
    let _ ← ask (.release claim (leaseWasLost outcome))
    raising outcome

/-- What a caller asks for. -/
inductive Request where
  | recover (call : RecoveryCall)
  | configure (policy : RuntimeRecoveryPolicy) (configuredBy : String)

/-- One request of a caller; its result goes back to the caller only. -/
def serve (_ : Nat) : Request → Prog Call Call.Reply Unit
  | .recover call => (recoverIfNeeded call).run.bind fun _ => .ret ()
  | .configure policy configuredBy => (ask (.upsertPolicy policy configuredBy)).run.bind fun _ => .ret ()

abbrev RecoveryEvent := Event Nat Call Call.Reply

abbrev World := Traced Nat Db Call Call.Reply

/-- A schedule of callers, from the given database. -/
def recoveryRun (db : Db) (moves : List (Move Nat Request Environment)) : Pool Nat World Call Call.Reply :=
  (Pool.quiet ⟨db, []⟩).run machine.traced serve moves

end AgentFabric.NodeRecovery
