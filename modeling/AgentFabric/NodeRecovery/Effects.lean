import AgentFabric.NodeRecovery.Service

/-!
# What a call of node recovery can do

The tables after each transaction of the repository, and the rows that a call leaves alone.
-/

namespace AgentFabric.NodeRecovery

open AgentFabric.Lib

/-- The generation in force; zero before the first grant. -/
def generation (db : Db) (policyId : String) : Nat := ((db.leases.get? policyId).map LeaseRow.generation).getD 0

/-- No later grant has superseded the claim. -/
def InForce (claim : RecoveryLeaseClaim) (db : Db) : Prop := generation db claim.policyId = claim.generation

instance (claim : RecoveryLeaseClaim) (db : Db) : Decidable (InForce claim db) :=
  inferInstanceAs (Decidable (_ = _))

/-- The grant under which an attempt was made. -/
def AttemptRow.key (a : AttemptRow) : String × Nat := (a.policyId, a.leaseGeneration)

def RecoveryLeaseClaim.key (claim : RecoveryLeaseClaim) : String × Nat := (claim.policyId, claim.generation)

section

variable {db db' : Db} {claim : RecoveryLeaseClaim} {policy : RuntimeRecoveryPolicy} {now : Nat} {u : Unit}
  {clock : Clock}

/-! ## Transactions -/

theorem owned_inForce (h : owned db claim now = true) : InForce claim db := by
  unfold owned at h
  split at h
  · cases h
  · rename_i lease hlease
    simp only [Bool.and_eq_true, decide_eq_true_eq] at h
    simp [InForce, generation, hlease, h.1.1.2]

theorem assertOwned_ok (h : assertOwned db claim now = .ok u) : InForce claim db := by
  simp only [assertOwned, ensure_eq_ok] at h
  exact owned_inForce h

theorem getPolicy_ok {policyId : String} (h : getPolicy db policyId = .ok policy) :
    policy.id = policyId ∧ db.policies.get? policyId = some policy.toPolicyRow := by
  simp only [getPolicy, orRaise_eq_ok] at h
  obtain ⟨row, hrow, rfl⟩ := Option.map_eq_some_iff.mp h
  exact ⟨rfl, hrow⟩

theorem tryAcquire_ok {policyId ownerId recoveryId : String} {leaseTtl : Nat} {reply : Option RecoveryLeaseClaim}
    (h : tryAcquire db policyId ownerId recoveryId leaseTtl now = .ok (reply, db')) :
    (reply = none ∧ db' = db) ∨
    ∃ claim code, reply = some claim ∧ claim.policyId = policyId ∧ claim.generation = generation db policyId + 1 ∧
      db' = { db with
        leases := db.leases.upsert policyId ⟨ownerId, claim.generation, .owned, now + leaseTtl⟩
        attempts := db.attempts.updateWhere (fun _ a => unfinished policyId a) fun a => a.reconciled code now } := by
  simp only [tryAcquire, bind_eq_ok, ensure_eq_ok, orRaise_eq_ok] at h
  obtain ⟨-, -, -, -, row, -, h⟩ := h
  split at h
  · cases h
    exact Or.inl ⟨rfl, rfl⟩
  · cases h
    exact Or.inr ⟨_, _, rfl, rfl, rfl, rfl⟩

theorem createAttempt_ok {state : RecoveryAttemptState} {before : RuntimeHealthObservation} {finished : Bool}
    (h : createAttempt db policy claim state before finished clock = .ok (u, db')) :
    InForce claim db ∧ ∃ row attempts, db.attempts.insert? claim.recoveryId row = some attempts ∧
      row.policyId = policy.id ∧ row.leaseGeneration = claim.generation ∧ row.state = state ∧
      row.startedAt = timestamp clock.now ∧ db' = { db with attempts := attempts } := by
  simp only [createAttempt, bind_eq_ok] at h
  obtain ⟨_, howned, h⟩ := h
  refine ⟨assertOwned_ok howned, ?_⟩
  split at h
  · simp only [bind_eq_ok, orRaise_eq_ok, pure_eq_ok, Prod.mk.injEq] at h
    obtain ⟨attempts, hinsert, -, rfl⟩ := h
    exact ⟨_, attempts, hinsert, rfl, rfl, rfl, rfl, rfl⟩
  · cases h

theorem updated_spec {attempt row : AttemptRow} {update : AttemptUpdate} (h : attempt.updated update now = some row) :
    row.key = attempt.key ∧ row.state = update.state ∧ row.startedAt = attempt.startedAt := by
  unfold AttemptRow.updated at h
  split at h
  · cases h
    exact ⟨rfl, rfl, rfl⟩
  · cases h

theorem updateAttempt_ok {update : AttemptUpdate} (h : updateAttempt db claim update clock = .ok (u, db')) :
    InForce claim db ∧ ((db.attempts.get? claim.recoveryId = none ∧ db' = db) ∨
      ∃ attempt row, db.attempts.get? claim.recoveryId = some attempt ∧ row.key = attempt.key ∧
        row.state = update.state ∧ row.startedAt = attempt.startedAt ∧
        db' = { db with attempts := db.attempts.modify claim.recoveryId fun _ => row }) := by
  simp only [updateAttempt, bind_eq_ok] at h
  obtain ⟨_, howned, h⟩ := h
  refine ⟨assertOwned_ok howned, ?_⟩
  split at h
  · rename_i hnone
    cases h
    exact Or.inl ⟨hnone, rfl⟩
  · rename_i attempt hattempt
    simp only [bind_eq_ok, orRaise_eq_ok, pure_eq_ok, Prod.mk.injEq] at h
    obtain ⟨row, hrow, -, rfl⟩ := h
    obtain ⟨hkey, hstate, hstarted⟩ := updated_spec hrow
    exact Or.inr ⟨attempt, row, hattempt, hkey, hstate, hstarted, rfl⟩

theorem markDegraded_ok (h : markDegraded db policy claim clock = .ok (u, db')) : InForce claim db ∧ db' = { db with
    nodes := db.nodes.modify policy.nodeId fun _ => .degraded
    workers := db.workers.updateWhere (fun id w => policy.workerIds.contains id && degradable w.state) fun w =>
      { w with state := .offline, resourceState := .unknown } } := by
  simp only [markDegraded, bind_eq_ok, pure_eq_ok, Prod.mk.injEq] at h
  obtain ⟨_, howned, -, rfl⟩ := h
  exact ⟨assertOwned_ok howned, rfl⟩

theorem markReady_ok (h : markReady db policy claim clock = .ok (u, db')) : InForce claim db ∧ db' = { db with
    nodes := if unhealthyPolicy db policy then db.nodes else db.nodes.modify policy.nodeId fun _ => .online
    workers := db.workers.updateWhere (fun id w => policy.workerIds.contains id && restorable w.state) fun w =>
      { w with state := .idle, resourceState := .available } } := by
  simp only [markReady, bind_eq_ok, pure_eq_ok, Prod.mk.injEq] at h
  obtain ⟨_, howned, -, rfl⟩ := h
  exact ⟨assertOwned_ok howned, rfl⟩

theorem generation_modify {f : LeaseRow → LeaseRow} (hf : ∀ l, (f l).generation = l.generation) (k p : String) :
    generation { db with leases := db.leases.modify k f } p = generation db p := by
  simp only [generation, Table.get?_modify]
  split
  · rw [Option.map_map, show LeaseRow.generation ∘ f = LeaseRow.generation from funext hf]
  · rfl

theorem heartbeat_cases (db : Db) (claim : RecoveryLeaseClaim) (leaseTtl now : Nat) :
    heartbeat db claim leaseTtl now = (false, db) ∨ (InForce claim db ∧ heartbeat db claim leaseTtl now =
      (true, { db with leases :=
        db.leases.modify claim.policyId fun l => { l with expiresAt := now + leaseTtl } })) := by
  unfold heartbeat
  split
  · rename_i howned
    exact Or.inr ⟨owned_inForce howned, rfl⟩
  · exact Or.inl rfl

theorem release_cases (db : Db) (claim : RecoveryLeaseClaim) (lost : Bool) (now : Nat) :
    release db claim lost now = (false, db) ∨ release db claim lost now =
      (true, { db with leases := db.leases.modify claim.policyId fun l =>
        { l with state := if lost then .lost else .released, expiresAt := now } }) := by
  unfold release
  split
  · exact Or.inr rfl
  · exact Or.inl rfl

theorem upsertPolicy_ok {configuredBy : String} (h : upsertPolicy db policy configuredBy now = .ok (u, db')) :
    db' = { db with policies := db.policies.upsert policy.id policy.toPolicyRow } := by
  simp only [upsertPolicy, bind_eq_ok, pure_eq_ok, Prod.mk.injEq] at h
  obtain ⟨-, -, -, -, -, -, -, -, -, -, -, rfl⟩ := h
  rfl

/-! ## Effects -/

/-- A call that has changed nothing. -/
def Call.idle : (c : Call) → c.Reply → Prop
  | .tryAcquire .., r => ∀ claim, r ≠ .ok (some claim)
  | .heartbeat .., r | .release .., r => r = false
  | .createAttempt .., r | .updateAttempt .., r | .markDegraded .., r | .markReady .., r | .upsertPolicy .., r =>
    r ≠ .ok ()
  | _, _ => True

/-- What a call can do, and what it has found. -/
inductive Effect (db : Db) : (c : Call) → c.Reply → Db → Prop
  | quiet {c : Call} {r : c.Reply} (idle : c.idle r) : Effect db c r db
  | granted {policy : RuntimeRecoveryPolicy} {ownerId recoveryId : String} {now : Nat} (claim : RecoveryLeaseClaim)
      (code : String) (named : claim.policyId = policy.id) (next : claim.generation = generation db policy.id + 1) :
      Effect db (.tryAcquire policy ownerId recoveryId now) (.ok (some claim)) { db with
        leases := db.leases.upsert policy.id ⟨ownerId, claim.generation, .owned, now + policy.leaseTtl⟩
        attempts := db.attempts.updateWhere (fun _ a => unfinished policy.id a) fun a => a.reconciled code now }
  | extended {claim : RecoveryLeaseClaim} {leaseTtl now : Nat} (inForce : InForce claim db) :
      Effect db (.heartbeat claim leaseTtl now) true
        { db with leases := db.leases.modify claim.policyId fun l => { l with expiresAt := now + leaseTtl } }
  | released {claim : RecoveryLeaseClaim} {lost : Bool} (now : Nat) :
      Effect db (.release claim lost) true { db with leases := db.leases.modify claim.policyId fun l =>
        { l with state := if lost then .lost else .released, expiresAt := now } }
  | configured {policy : RuntimeRecoveryPolicy} {configuredBy : String} :
      Effect db (.upsertPolicy policy configuredBy) (.ok ())
        { db with policies := db.policies.upsert policy.id policy.toPolicyRow }
  | created {policy : RuntimeRecoveryPolicy} {claim : RecoveryLeaseClaim} {state : RecoveryAttemptState}
      {before : RuntimeHealthObservation} {finished : Bool} (row : AttemptRow) (attempts : Table String AttemptRow)
      (inForce : InForce claim db) (inserted : db.attempts.insert? claim.recoveryId row = some attempts)
      (owner : row.policyId = policy.id) (fenced : row.leaseGeneration = claim.generation)
      (started : row.state = state) :
      Effect db (.createAttempt policy claim state before finished) (.ok ()) { db with attempts := attempts }
  | unmatched {claim : RecoveryLeaseClaim} {update : AttemptUpdate} (inForce : InForce claim db)
      (missing : db.attempts.get? claim.recoveryId = none) : Effect db (.updateAttempt claim update) (.ok ()) db
  | updated {claim : RecoveryLeaseClaim} {update : AttemptUpdate} (attempt row : AttemptRow)
      (inForce : InForce claim db) (found : db.attempts.get? claim.recoveryId = some attempt)
      (key : row.key = attempt.key) (state : row.state = update.state) (started : row.startedAt = attempt.startedAt) :
      Effect db (.updateAttempt claim update) (.ok ())
        { db with attempts := db.attempts.modify claim.recoveryId fun _ => row }
  | degraded {policy : RuntimeRecoveryPolicy} {claim : RecoveryLeaseClaim} (inForce : InForce claim db) :
      Effect db (.markDegraded policy claim) (.ok ()) { db with
        nodes := db.nodes.modify policy.nodeId fun _ => .degraded
        workers := db.workers.updateWhere (fun id w => policy.workerIds.contains id && degradable w.state) fun w =>
          { w with state := .offline, resourceState := .unknown } }
  | readied {policy : RuntimeRecoveryPolicy} {claim : RecoveryLeaseClaim} (inForce : InForce claim db) :
      Effect db (.markReady policy claim) (.ok ()) { db with
        nodes := if unhealthyPolicy db policy then db.nodes else db.nodes.modify policy.nodeId fun _ => .online
        workers := db.workers.updateWhere (fun id w => policy.workerIds.contains id && restorable w.state) fun w =>
          { w with state := .idle, resourceState := .available } }

/-- Every call has one of the effects. -/
theorem act_effect (db : Db) (env : Environment) (c : Call) : Effect db c (act db env c).1 (act db env c).2 := by
  cases c with
  | tryAcquire policy ownerId recoveryId now =>
    simp only [act]
    cases h : NodeRecovery.tryAcquire db policy.id ownerId recoveryId policy.leaseTtl now with
    | error => exact .quiet nofun
    | ok =>
      rcases tryAcquire_ok h with ⟨hnone, hsame⟩ | ⟨claim, code, hsome, hnamed, hnext, hdb⟩
      · simp only [commit, hnone, hsame]
        exact .quiet nofun
      · simp only [commit, hsome, hdb]
        exact .granted claim code hnamed hnext
  | heartbeat claim leaseTtl now =>
    simp only [act]
    rcases heartbeat_cases db claim leaseTtl now with h | ⟨hforce, h⟩
    · rw [h]
      exact .quiet rfl
    · rw [h]
      exact .extended hforce
  | release claim lost =>
    simp only [act]
    rcases release_cases db claim lost env.clock.now with h | h
    · rw [h]
      exact .quiet rfl
    · rw [h]
      exact .released env.clock.now
  | createAttempt policy claim state before finished =>
    simp only [act]
    cases h : NodeRecovery.createAttempt db policy claim state before finished env.clock with
    | error => exact .quiet fun h => nomatch h
    | ok =>
      obtain ⟨hforce, row, attempts, hinsert, howner, hfenced, hstate, -, hdb⟩ := createAttempt_ok h
      simp only [commit, hdb]
      exact .created row attempts hforce hinsert howner hfenced hstate
  | updateAttempt claim update =>
    simp only [act]
    cases h : NodeRecovery.updateAttempt db claim update env.clock with
    | error => exact .quiet fun h => nomatch h
    | ok =>
      obtain ⟨hforce, ⟨hmissing, hsame⟩ | ⟨attempt, row, hfound, hkey, hstate, hstarted, hdb⟩⟩ := updateAttempt_ok h
      · simp only [commit, hsame]
        exact .unmatched hforce hmissing
      · simp only [commit, hdb]
        exact .updated attempt row hforce hfound hkey hstate hstarted
  | markDegraded policy claim =>
    simp only [act]
    cases h : NodeRecovery.markDegraded db policy claim env.clock with
    | error => exact .quiet fun h => nomatch h
    | ok =>
      obtain ⟨hforce, hdb⟩ := markDegraded_ok h
      simp only [commit, hdb]
      exact .degraded hforce
  | markReady policy claim =>
    simp only [act]
    cases h : NodeRecovery.markReady db policy claim env.clock with
    | error => exact .quiet fun h => nomatch h
    | ok =>
      obtain ⟨hforce, hdb⟩ := markReady_ok h
      simp only [commit, hdb]
      exact .readied hforce
  | upsertPolicy policy configuredBy =>
    simp only [act]
    cases h : NodeRecovery.upsertPolicy db policy configuredBy env.clock.now with
    | error => exact .quiet fun h => nomatch h
    | ok =>
      simp only [commit, upsertPolicy_ok h]
      exact .configured
  | _ => exact .quiet trivial

/-! ## What the effects leave alone -/

def Call.writesPolicies : Call → Bool
  | .upsertPolicy .. => true
  | _ => false

variable {c : Call} {r : c.Reply}

theorem Effect.policies (h : Effect db c r db') (hc : c.writesPolicies = false) : db'.policies = db.policies := by
  cases h with
  | configured => cases hc
  | _ => rfl

def Call.grant : (c : Call) → c.Reply → Option (RuntimeRecoveryPolicy × RecoveryLeaseClaim)
  | .tryAcquire policy _ _ _, .ok (some claim) => some (policy, claim)
  | _, _ => none

theorem Effect.ungranted (h : Effect db c r db') (hc : c.grant r = none) (p : String) :
    generation db' p = generation db p := by
  cases h with
  | granted => cases hc
  | extended =>
    apply generation_modify
    intro l
    rfl
  | released =>
    apply generation_modify
    intro l
    rfl
  | _ => rfl

theorem Effect.grant (h : Effect db c r db') (hc : c.grant r = some (policy, claim)) :
    claim.policyId = policy.id ∧ claim.generation = generation db policy.id + 1 ∧
      ∀ p, generation db' p = if p = policy.id then claim.generation else generation db p := by
  cases h with
  | granted claim' code named next =>
    cases hc
    refine ⟨named, next, fun p => ?_⟩
    unfold generation
    rw [Table.get?_upsert]
    split
    · rfl
    · rfl
  | quiet idle =>
    cases c with
    | tryAcquire =>
      unfold Call.grant at hc
      split at hc
      · rename_i heq _
        cases heq
        exact absurd rfl (idle _)
      · cases hc
    | _ => cases hc
  | _ => cases hc

end

end AgentFabric.NodeRecovery
