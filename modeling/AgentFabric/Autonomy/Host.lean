import AgentFabric.Lib.Avoidance
import AgentFabric.Autonomy.Calls

/-!
# Hosts and goal leases

`AutonomousHostRepository` and `AutonomousHost` of `autonomous_host.py`: several hosts share one store, and a host runs
the engine of a goal while it holds the goal's lease.
-/

namespace AgentFabric.Autonomy

open AgentFabric.Lib AgentFabric.Store

inductive GoalLeaseState where
  | owned | released | lost
deriving DecidableEq, Repr

structure GoalLease where
  hostId : String
  generation : Nat
  state : GoalLeaseState
  expiresAt : Nat
deriving DecidableEq, Repr

inductive RecoveryState where
  | staleOwnerRecovered | resuming | fresh
deriving DecidableEq, Repr

structure GoalLeaseClaim where
  goalId : String
  hostId : String
  generation : Nat
  recoveryState : RecoveryState
  staleOwnerRecovered : Bool
deriving DecidableEq, Repr

inductive AutonomousHostState where
  | starting | running | stopping | stopped | failed
deriving DecidableEq, Repr

def AutonomousHostState.live : AutonomousHostState → Bool
  | .starting | .running | .stopping => true
  | .stopped | .failed => false

structure HostRow where
  processId : Nat
  state : AutonomousHostState
  heartbeatAt : Nat
deriving DecidableEq, Repr

/-- The store with its hosts and the leases of its goals. -/
structure HostDb where
  db : Db
  hosts : Table String HostRow
  leases : Table String GoalLease

def HostDb.initial : HostDb := ⟨Db.initial, .empty, .empty⟩

/-- The lease generation of a goal; no lease counts as generation 0. -/
def HostDb.generation (w : HostDb) (goalId : String) : Nat := ((w.leases.get? goalId).map GoalLease.generation).getD 0

/-- The identity of a host with a live heartbeat is not taken. -/
def registerHost (w : HostDb) (hostId : String) (processId staleAfter now : Nat) :
    Except StoreError (Unit × HostDb) := do
  ensure (blank hostId = false) (.valueError "host_id is required")
  ensure (0 < processId) (.valueError "process_id must be positive")
  ensure (0 < staleAfter) (.valueError "stale_after_seconds must be positive")
  ensure (((w.hosts.get? hostId).any fun h => h.state.live && decide (now < h.heartbeatAt + staleAfter)) = false)
    (.runtimeError ("autonomous host identity " ++ hostId ++ " has a live heartbeat"))
  return ((), { w with hosts := w.hosts.upsert hostId ⟨processId, .starting, now⟩ })

/-- `heartbeat_host` and `stop_host`; an unknown host is left out. -/
def setHost (w : HostDb) (hostId : String) (state : AutonomousHostState) (now : Nat) : HostDb :=
  { w with hosts := w.hosts.modify hostId fun h => { h with state := state, heartbeatAt := now } }

def GoalLease.heldAt (lease : GoalLease) (now : Nat) : Bool := decide (lease.state = .owned ∧ now < lease.expiresAt)

/-- An expired or released lease is granted again under the next generation. -/
def tryAcquireGoal (w : HostDb) (goalId hostId : String) (ttl now : Nat) :
    Except StoreError (Option GoalLeaseClaim × HostDb) := do
  let goal ← orRaise (w.db.goals.get? goalId) (.keyError goalId)
  if goal.state ≠ .created ∧ goal.state ≠ .running then return (none, w)
  ensure ((w.hosts.get? hostId).isSome = true) (.keyError hostId)
  let lease := w.leases.get? goalId
  if lease.any (·.heldAt now) then return (none, w)
  let stale := lease.any fun l => decide (l.state = .owned)
  let recoveryState : RecoveryState :=
    if stale then .staleOwnerRecovered
    else if (activeIteration w.db goalId).isSome ∨ goal.state = .running then .resuming
    else .fresh
  let generation := w.generation goalId + 1
  return (some ⟨goalId, hostId, generation, recoveryState, stale⟩,
    { w with leases := w.leases.upsert goalId ⟨hostId, generation, .owned, now + ttl⟩ })

/-- `WHERE goal_id=? AND host_id=? AND generation=? AND state='owned'`. -/
def GoalLeaseClaim.holds (claim : GoalLeaseClaim) (lease : GoalLease) : Bool :=
  decide (lease.hostId = claim.hostId ∧ lease.generation = claim.generation ∧ lease.state = .owned)

def HostDb.claimed (w : HostDb) (claim : GoalLeaseClaim) : Bool := (w.leases.get? claim.goalId).any claim.holds

def GoalLease.renew (expiresAt : Nat) (lease : GoalLease) : GoalLease := { lease with expiresAt := expiresAt }

/-- A heartbeat renews the lease that the claim stands for, expired or not. -/
def heartbeatGoal (w : HostDb) (claim : GoalLeaseClaim) (ttl now : Nat) : Bool × HostDb :=
  if w.claimed claim then (true, { w with leases := w.leases.modify claim.goalId (·.renew (now + ttl)) })
  else (false, w)

def leaseLost (claim : GoalLeaseClaim) : String :=
  "host " ++ claim.hostId ++ " no longer owns generation " ++ toString claim.generation ++ " for goal " ++ claim.goalId

def assertGoalLease (w : HostDb) (claim : GoalLeaseClaim) (now : Nat) : Except String Unit :=
  if (w.leases.get? claim.goalId).any fun l => claim.holds l && decide (now < l.expiresAt) then .ok ()
  else .error (leaseLost claim)

def GoalLease.close (state : GoalLeaseState) (now : Nat) (lease : GoalLease) : GoalLease :=
  { lease with state := state, expiresAt := now }

def releaseGoal (w : HostDb) (claim : GoalLeaseClaim) (lost : Bool) (now : Nat) : Bool × HostDb :=
  if w.claimed claim then
    (true, { w with leases := w.leases.modify claim.goalId (·.close (if lost then .lost else .released) now) })
  else (false, w)

/-! ## Calls -/

inductive HostCall where
  | register (hostId : String) (processId staleAfter : Nat)
  | setHost (hostId : String) (state : AutonomousHostState)
  | tryAcquire (goalId hostId : String) (ttl : Nat)
  | heartbeat (claim : GoalLeaseClaim) (ttl : Nat)
  | release (claim : GoalLeaseClaim) (lost : Bool)
  | engine (claim : GoalLeaseClaim) (c : Call)
  | client (c : Call)

abbrev HostCall.Reply : HostCall → Type
  | .register .. => Except StoreError Unit
  | .setHost .. => Unit
  | .tryAcquire .. => Except StoreError (Option GoalLeaseClaim)
  | .heartbeat .. | .release .. => Bool
  | .engine _ c | .client c => c.Reply

section

variable (dg : Digests)

def HostDb.withDb {α : Type} (w : HostDb) (r : α × Db) : α × HostDb := (r.1, { w with db := r.2 })

/-- `SupervisorRuntimeDispatcher.cancel`: the canonical cancellation of the task is persisted first. -/
def cancelHandle (db : Db) (handle : DispatchHandle) (now : Nat) : Db :=
  match handle.taskId with
  | none => db
  | some taskId => (commit db (exec dg (.cancelTaskExecution taskId now) db)).2

def engineAct (w : HostDb) (env : Environment) (claim : GoalLeaseClaim) : (c : Call) → c.Reply × HostDb
  | .assertOwnership => (assertGoalLease w claim env.now, w)
  | .cancel handle => (env.cancelled, { w with db := cancelHandle dg w.db handle env.now })
  | c => w.withDb (act dg w.db env c)

/-- A transaction of the host repository that raises commits nothing. -/
def hostCommit {α : Type} (w : HostDb) (op : Except StoreError (α × HostDb)) : Except StoreError α × HostDb :=
  match op with
  | .ok (a, w') => (.ok a, w')
  | .error e => (.error e, w)

def hostAct (w : HostDb) (env : Environment) : (c : HostCall) → c.Reply × HostDb
  | .register hostId processId staleAfter => hostCommit w (registerHost w hostId processId staleAfter env.now)
  | .setHost hostId state => ((), setHost w hostId state env.now)
  | .tryAcquire goalId hostId ttl => hostCommit w (tryAcquireGoal w goalId hostId ttl env.now)
  | .heartbeat claim ttl => heartbeatGoal w claim ttl env.now
  | .release claim lost => releaseGoal w claim lost env.now
  | .engine claim c => engineAct dg w env claim c
  | .client c => w.withDb (act dg w.db env c)

def hostMachine : Machine Nat HostDb HostCall HostCall.Reply Environment where
  act _ w env c := hostAct dg w env c

end

/-! ## Programs -/

abbrev HostProg := Prog HostCall HostCall.Reply

/-- The engine's calls are made under the claim of its host. -/
def underClaim {α : Type} (claim : GoalLeaseClaim) : Prog Call Call.Reply α → HostProg α
  | .ret a => .ret a
  | .call c next => .call (.engine claim c) fun r => underClaim claim (next r)

def asClient {α : Type} : Prog Call Call.Reply α → HostProg α
  | .ret a => .ret a
  | .call c next => .call (.client c) fun r => asClient (next r)

section

variable (uuid5 : String → String)

/-- `_run_claimed`: the engine runs, and the lease is given back however it ended. -/
def runClaimed (claim : GoalLeaseClaim) (ttl rounds polls : Nat) : HostProg Unit :=
  (underClaim claim (run uuid5 claim.goalId polls rounds).run).bind fun
    | .ok _ => .call (.heartbeat claim ttl) fun alive => .call (.release claim !alive) fun _ => .ret ()
    | .error _ => .call (.release claim false) fun _ => .ret ()

/-- A goal of the polling loop: it is advanced if its lease is granted. -/
def claimGoal (goalId hostId : String) (ttl rounds polls : Nat) : HostProg Unit :=
  .call (.tryAcquire goalId hostId ttl) fun
    | .ok (some claim) => runClaimed uuid5 claim ttl rounds polls
    | _ => .ret ()

/-- `run_goal`: a host registers, advances one goal and stops. -/
def runGoal (goalId hostId : String) (processId ttl rounds polls : Nat) : HostProg Unit :=
  .call (.register hostId processId ttl) fun
    | .error _ => .ret ()
    | .ok _ => (claimGoal uuid5 goalId hostId ttl rounds polls).bind fun _ =>
      .call (.setHost hostId .stopped) fun _ => .ret ()

/-- The heartbeat loop beside an engine, until it fails. -/
def heartbeats (claim : GoalLeaseClaim) (ttl : Nat) : Nat → HostProg Unit
  | 0 => .ret ()
  | beats + 1 => .call (.heartbeat claim ttl) fun alive =>
    if alive then heartbeats claim ttl beats else .call (.release claim true) fun _ => .ret ()

inductive HostRequest where
  | register (hostId : String) (processId staleAfter : Nat)
  | setHost (hostId : String) (state : AutonomousHostState)
  | claimGoal (goalId hostId : String) (ttl rounds polls : Nat)
  | runGoal (goalId hostId : String) (processId ttl rounds polls : Nat)
  | heartbeats (claim : GoalLeaseClaim) (ttl beats : Nat)
  | control (request : Request)

/-- What a thread of some process does on request. -/
def serveHost : Nat → HostRequest → HostProg Unit
  | _, .register hostId processId staleAfter => .call (.register hostId processId staleAfter) fun _ => .ret ()
  | _, .setHost hostId state => .call (.setHost hostId state) fun _ => .ret ()
  | _, .claimGoal goalId hostId ttl rounds polls => claimGoal uuid5 goalId hostId ttl rounds polls
  | _, .runGoal goalId hostId processId ttl rounds polls => runGoal uuid5 goalId hostId processId ttl rounds polls
  | _, .heartbeats claim ttl beats => heartbeats claim ttl beats
  | _, .control request => asClient ((control request).run.bind fun _ => .ret ())

end

/-- A schedule of hosts, heartbeats, controls, store operations, crashes and restarts over one store. -/
def hostRun (dg : Digests) (uuid5 : String → String) (moves : List (Move Nat HostRequest Environment)) :
    Pool Nat HostDb HostCall HostCall.Reply :=
  (Pool.quiet HostDb.initial).run (hostMachine dg) (serveHost uuid5) moves

end AgentFabric.Autonomy
