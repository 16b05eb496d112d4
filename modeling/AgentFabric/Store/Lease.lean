import AgentFabric.Store.Schema

/-!
# Task execution leases

Claims, heartbeats and releases of the execution lease of a task, fenced by its generation.
-/

namespace AgentFabric.Store

open AgentFabric.Lib

/-- The stored lease is active, unexpired and held by exactly this owner and generation. -/
def leaseCurrent (db : Db) (taskId ownerId : String) (generation now : Nat) : Bool :=
  match db.leases.get? taskId with
  | none => false
  | some lease =>
    decide (lease.ownerId = ownerId) && decide (lease.generation = generation) && lease.live now

/-- The guard of every fenced write. -/
def requireTaskExecutionLease (db : Db) (taskId ownerId : String) (generation clock : Nat) :
    Except StoreError Unit :=
  ensure (leaseCurrent db taskId ownerId generation (timestamp clock) = true)
    (.executionLeaseLost ("task " ++ taskId ++ " execution lease " ++ ownerId ++ "/" ++ toString generation ++
      " is no longer current"))

/-- The optional lease arguments of the operations that may also be called without a lease. -/
structure LeaseArgs where
  owner : Option String
  generation : Option Nat
deriving DecidableEq, Repr

def LeaseArgs.absent : LeaseArgs := ⟨none, none⟩

def LeaseArgs.held (owner : String) (generation : Nat) : LeaseArgs := ⟨some owner, some generation⟩

def requireLeaseArgs (db : Db) (taskId : String) (lease : LeaseArgs) (clock : Nat) : Except StoreError Unit :=
  match lease.owner, lease.generation with
  | some owner, some generation => requireTaskExecutionLease db taskId owner generation clock
  | none, none => .ok ()
  | _, _ => .error (.valueError "lease owner and generation must be supplied together")

def nextGeneration (db : Db) (taskId : String) : Nat :=
  match db.leases.get? taskId with
  | some lease => lease.generation + 1
  | none => 1

/-- `INSERT … ON CONFLICT(task_id) DO UPDATE`: the row of a new grant. -/
def grantLease (db : Db) (taskId ownerId : String) (ttl nowValue : Nat) : Table String LeaseRow :=
  db.leases.upsert taskId
    { ownerId := ownerId, generation := nextGeneration db taskId, state := .active,
      expiresAt := timestamp (nowValue + ttl) }

def LeaseRow.release (lease : LeaseRow) : LeaseRow := { lease with state := .released }

def heartbeatTaskExecutionLease (db : Db) (taskId ownerId : String) (generation ttl nowValue : Nat) :
    Except StoreError (Bool × Db) :=
  if ttl < 1000000 then .error (.valueError "ttl_seconds must be at least one second")
  else if leaseCurrent db taskId ownerId generation (timestamp nowValue) = true then
    .ok (true, { db with leases := db.leases.modify taskId fun lease =>
      { lease with expiresAt := timestamp (nowValue + ttl) } })
  else .ok (false, db)

def releaseTaskExecutionLease (db : Db) (taskId ownerId : String) (generation : Nat) :
    Except StoreError (Bool × Db) :=
  match db.leases.get? taskId with
  | none => .ok (false, db)
  | some lease =>
    if lease.ownerId ≠ ownerId ∨ lease.generation ≠ generation ∨ lease.state ≠ .active then .ok (false, db)
    else .ok (true, { db with leases := db.leases.modify taskId LeaseRow.release })

def claimTaskReconciliation (db : Db) (taskId ownerId : String) (ttl : Nat) (allowCancelled : Bool)
    (nowValue : Nat) : Except StoreError (Option Nat × Db) := do
  ensure (blank ownerId = false) (.valueError "reconciliation owner_id must not be empty")
  ensure (1000000 ≤ ttl) (.valueError "lease_ttl_seconds must be at least one second")
  let task ← orRaise (db.tasks.get? taskId) (.keyError taskId)
  if ¬ (task.state = .running ∨ task.state = .waiting ∨ (allowCancelled = true ∧ task.state = .cancelled)) then
    return (none, db)
  else if leaseLive db taskId (timestamp nowValue) = true then return (none, db)
  else return (some (nextGeneration db taskId), { db with leases := grantLease db taskId ownerId ttl nowValue })

/-! ## What the guard says -/

variable {db db' : Db} {taskId ownerId : String} {generation clock ttl nowValue : Nat}

theorem leaseCurrent_iff {now : Nat} :
    leaseCurrent db taskId ownerId generation now = true ↔
      ∃ lease, db.leases.get? taskId = some lease ∧ lease.ownerId = ownerId ∧ lease.generation = generation ∧
        lease.state = .active ∧ now < lease.expiresAt := by
  unfold leaseCurrent
  cases h : db.leases.get? taskId with
  | none => simp
  | some => simp [LeaseRow.live, and_assoc]

@[simp] theorem requireTaskExecutionLease_eq_ok {u : Unit} :
    requireTaskExecutionLease db taskId ownerId generation clock = .ok u ↔
      leaseCurrent db taskId ownerId generation (timestamp clock) = true := by
  simp [requireTaskExecutionLease]

theorem requireLeaseArgs_eq_ok {lease : LeaseArgs} {u : Unit} :
    requireLeaseArgs db taskId lease clock = .ok u ↔
      (lease = .absent ∨ ∃ owner generation, lease = .held owner generation ∧
        leaseCurrent db taskId owner generation (timestamp clock) = true) := by
  obtain ⟨owner, generation⟩ := lease
  cases owner <;> cases generation <;> simp [requireLeaseArgs, LeaseArgs.absent, LeaseArgs.held]

/-! ## What the operations commit -/

theorem heartbeat_ok {b : Bool}
    (h : heartbeatTaskExecutionLease db taskId ownerId generation ttl nowValue = .ok (b, db')) :
    (b = false ∧ db' = db) ∨
    (b = true ∧ leaseCurrent db taskId ownerId generation (timestamp nowValue) = true ∧
      db' = { db with leases := db.leases.modify taskId fun lease =>
        { lease with expiresAt := timestamp (nowValue + ttl) } }) := by
  unfold heartbeatTaskExecutionLease at h
  split at h
  · cases h
  · split at h
    · rename_i hc
      cases h
      exact Or.inr ⟨rfl, hc, rfl⟩
    · cases h
      exact Or.inl ⟨rfl, rfl⟩

theorem release_ok {b : Bool} (h : releaseTaskExecutionLease db taskId ownerId generation = .ok (b, db')) :
    (b = false ∧ db' = db) ∨
    (b = true ∧ (∃ lease, db.leases.get? taskId = some lease ∧ lease.ownerId = ownerId ∧
        lease.generation = generation ∧ lease.state = .active) ∧
      db' = { db with leases := db.leases.modify taskId LeaseRow.release }) := by
  unfold releaseTaskExecutionLease at h
  split at h
  · cases h
    exact Or.inl ⟨rfl, rfl⟩
  · rename_i lease hl
    split at h
    · cases h
      exact Or.inl ⟨rfl, rfl⟩
    · rename_i hc
      push Not at hc
      cases h
      exact Or.inr ⟨rfl, ⟨lease, hl, hc.1, hc.2.1, hc.2.2⟩, rfl⟩

theorem claimTaskReconciliation_ok {allowCancelled : Bool} {g : Option Nat}
    (h : claimTaskReconciliation db taskId ownerId ttl allowCancelled nowValue = .ok (g, db')) :
    (g = none ∧ db' = db) ∨
    (∃ task, db.tasks.get? taskId = some task ∧
      (task.state = .running ∨ task.state = .waiting ∨ (allowCancelled = true ∧ task.state = .cancelled)) ∧
      leaseLive db taskId (timestamp nowValue) = false ∧ g = some (nextGeneration db taskId) ∧
      db' = { db with leases := grantLease db taskId ownerId ttl nowValue }) := by
  simp only [claimTaskReconciliation, bind_eq_ok, ensure_eq_ok, orRaise_eq_ok] at h
  obtain ⟨-, -, -, -, task, ht, h⟩ := h
  split at h
  · cases h
    exact Or.inl ⟨rfl, rfl⟩
  · rename_i hs
    split at h
    · cases h
      exact Or.inl ⟨rfl, rfl⟩
    · rename_i hl
      cases h
      exact Or.inr ⟨task, ht, not_not.mp hs, by simpa using hl, rfl, rfl⟩

end AgentFabric.Store
