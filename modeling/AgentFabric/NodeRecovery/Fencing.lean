import AgentFabric.NodeRecovery.Callers

/-!
# Recovery leases fence their owners

A process writes under a lease only while its generation is the current one.
-/

namespace AgentFabric.NodeRecovery

open AgentFabric.Lib

/-- The database before the first recovery. -/
def Db.initial (policies : Table String PolicyRow) (nodes : Table String NodeState) (workers : Table String WorkerRow) :
    Db := ⟨policies, .empty, .empty, nodes, workers⟩

/-! ## Fenced runs -/

def RowsKept (db db' : Db) : Prop := db'.attempts = db.attempts ∧ db'.nodes = db.nodes ∧ db'.workers = db.workers

/-- An invocation was authorized since the last one, and runs under a lease that was extended. -/
def sanctioned (pre : List RecoveryEvent) : RecoveryEvent → Prop
  | ⟨i, .recover _ request, _⟩ => Since (authorizes i request.recoveryId request.authorizationRef) (invokedBy i) pre ∧
      (latest (extensionOf (request.policyId, request.leaseGeneration)) pre).isSome
  | _ => True

/-- Generations rise, a superseded owner writes no row, one attempt at most is unfinished, and every invocation of an
adapter is authorized and within the budget of the policy that its call runs. -/
structure LeaseFenced (db : Db) (moves : List (Move Nat Request Environment)) : Prop where
  increasing : (grants (recoveryRun db moves).shared.trace).Pairwise fun a b =>
    a.claim.policyId = b.claim.policyId → a.claim.generation < b.claim.generation
  superseded : ∀ before i env after, moves = before ++ .step i env :: after →
    (∀ g, held i (recoveryRun db (before ++ [.step i env])).shared.trace = some g →
      ¬ InForce g.claim (recoveryRun db (before ++ [.step i env])).shared.state) →
    RowsKept (recoveryRun db before).shared.state (recoveryRun db (before ++ [.step i env])).shared.state
  unfinished : ∀ id a, (recoveryRun db moves).shared.state.attempts.get? id = some a → a.finishedAt = none →
    a.leaseGeneration = generation (recoveryRun db moves).shared.state a.policyId ∧
    ∀ id' a', (recoveryRun db moves).shared.state.attempts.get? id' = some a' → a'.finishedAt = none →
      a'.policyId = a.policyId → id' = id
  budget : ∀ g ∈ grants (recoveryRun db moves).shared.trace,
    invocations g.claim.key (recoveryRun db moves).shared.trace ≤ g.policy.maxAttempts
  sanctioned : Always sanctioned (recoveryRun db moves).shared.trace
  expiry : ∀ p lease, (recoveryRun db moves).shared.state.leases.get? p = some lease → lease.state = .owned →
    ∃ x, latest (extensionOf (p, lease.generation)) (recoveryRun db moves).shared.trace = some x ∧
      lease.expiresAt = x.taken + x.ttl

/-! ## Deadlines and budgets -/

/-- The deadline of an invocation is before the expiry of the lease that it runs under. -/
def inTime (pre : List RecoveryEvent) : RecoveryEvent → Bool
  | ⟨_, .recover _ request, _⟩ =>
    (latest (extensionOf (request.policyId, request.leaseGeneration)) pre).all fun x =>
      decide (request.deadlineAt < x.taken + x.ttl)
  | _ => true

/-- Between the clock reading that the lease was extended from and the one of the request, less time has passed than the
lease leaves to the operation of the adapter. -/
def prompt (pre : List RecoveryEvent) : RecoveryEvent → Bool
  | ⟨_, .recover adapter request, _⟩ =>
    (latest (extensionOf (request.policyId, request.leaseGeneration)) pre).all fun x =>
      decide (request.requestedAt < x.taken + (x.ttl - adapter.maxOperation))
  | _ => true

def DeadlinesKept (trace : List RecoveryEvent) : Prop := Always (fun pre e => inTime pre e = true) trace

def Timely (trace : List RecoveryEvent) : Prop := Always (fun pre e => prompt pre e = true) trace

instance (trace : List RecoveryEvent) : Decidable (DeadlinesKept trace) := inferInstanceAs (Decidable (Always _ trace))

instance (trace : List RecoveryEvent) : Decidable (Timely trace) := inferInstanceAs (Decidable (Always _ trace))

/-- No policy is rewritten between the reading of a call and its grant. -/
def GrantsCurrent (db : Db) (moves : List (Move Nat Request Environment)) : Prop :=
  ∀ before m after g, moves = before ++ m :: after →
    grants (recoveryRun db (before ++ [m])).shared.trace = grants (recoveryRun db before).shared.trace ++ [g] →
    (recoveryRun db before).shared.state.policies.get? g.policy.id = some g.policy.toPolicyRow

/-- A grant invokes the adapter as often as the policy in force at the grant allows, at most. -/
def BudgetKept (db : Db) (moves : List (Move Nat Request Environment)) : Prop :=
  ∀ before m after g row, moves = before ++ m :: after →
    grants (recoveryRun db (before ++ [m])).shared.trace = grants (recoveryRun db before).shared.trace ++ [g] →
    (recoveryRun db before).shared.state.policies.get? g.policy.id = some row →
    invocations g.claim.key (recoveryRun db moves).shared.trace ≤ row.maxAttempts

section

variable {w w' : World} {i : Nat} (policies : Table String PolicyRow) (nodes : Table String NodeState)
  (workers : Table String WorkerRow) (moves : List (Move Nat Request Environment))

theorem initial_fenced : Fenced ⟨.initial policies nodes workers, []⟩ where
  increasing := List.Pairwise.nil
  bounded := fun _ h => nomatch h
  named := fun _ h => nomatch h
  ordered := List.Pairwise.nil
  attempted := fun _ _ h => nomatch h
  current := fun _ _ h => nomatch h
  expiry := fun _ _ h => nomatch h
  budget := fun _ h => nomatch h
  backed := fun _ h => nomatch h
  lawful := .nil

/-- Every reachable database is fenced. -/
theorem fenced_run : Fenced (recoveryRun (.initial policies nodes workers) moves).shared :=
  Pool.run_invariant serve_permitted (initial_fenced policies nodes workers) moves

theorem effect_rows {c : Call} {r : c.Reply} {db' : Db} (hP : Permits i w c) (hE : Effect w.state c r db')
    (hsuperseded : ∀ g, held i (w.trace ++ [⟨i, c, r⟩]) = some g → ¬ InForce g.claim db') : RowsKept w.state db' := by
  have hkept : ∀ g : Grant, c.grant r = none → held i w.trace = some g → ¬ InForce g.claim w.state := by
    intro g hgrant hheld hforce
    refine hsuperseded g ?_ ?_
    · rw [held_snoc_none (by simp [grantOf, hgrant])]
      exact hheld
    · show generation db' g.claim.policyId = g.claim.generation
      rw [hE.ungranted hgrant]
      exact hforce
  have hE' := hE
  cases hE with
  | @granted policy ownerId recoveryId now claim code named next =>
    obtain ⟨_, _, hgen⟩ := hE'.grant rfl
    refine absurd ?_ (hsuperseded ⟨i, policy, claim⟩ (@held_snoc_grant w.trace ⟨i, _, _⟩ _ rfl))
    show generation _ claim.policyId = claim.generation
    rw [hgen, if_pos named]
  | created row attempts inForce => exact absurd inForce (hkept _ rfl hP.1)
  | updated attempt row inForce =>
    obtain ⟨⟨policy, hheld⟩, _⟩ := hP
    exact absurd inForce (hkept _ rfl hheld)
  | degraded inForce => exact absurd inForce (hkept _ rfl hP.1)
  | readied inForce => exact absurd inForce (hkept _ rfl hP.1)
  | _ => exact ⟨rfl, rfl, rfl⟩

theorem recoveryRun_snoc (db : Db) (m : Move Nat Request Environment) :
    recoveryRun db (moves ++ [m]) = (recoveryRun db moves).move machine.traced serve m := Pool.run_append _ _ moves [m]

/-- Every schedule obeys the rules. -/
theorem sound_run : (recoveryRun (.initial policies nodes workers) moves).Sound machine.traced Fenced Rules :=
  Pool.run_sound serve_permitted (Pool.quiet_sound (initial_fenced policies nodes workers)) moves

theorem grants_run (later : List (Move Nat Request Environment)) :
    grants (recoveryRun (.initial policies nodes workers) moves).shared.trace ⊆
      grants (recoveryRun (.initial policies nodes workers) (moves ++ later)).shared.trace := by
  unfold recoveryRun
  rw [Pool.run_append]
  refine Pool.run_guarantee (P := fun w w' : World => grants w.trace ⊆ grants w'.trace) serve_permitted
    (fun _ => List.Subset.refl _) List.Subset.trans (fun hrules => ?_) (sound_run policies nodes workers moves) later
  obtain ⟨c, env, _, rfl⟩ := hrules
  intro g hg
  show g ∈ grants (_ ++ [_])
  rw [grants_snoc]
  exact List.mem_append_left _ hg

theorem lease_fenced : LeaseFenced (.initial policies nodes workers) moves := by
  have hF := fenced_run policies nodes workers moves
  refine ⟨hF.increasing, ?_, ?_, hF.budget, hF.lawful.mono ?_, hF.expiry⟩
  · rintro before i env after rfl hsuperseded
    have hsound := sound_run policies nodes workers before
    rcases Pool.step_guarantee hsound i env with hsame | ⟨c, env', hP, hmove⟩
    · rw [recoveryRun_snoc, hsame]
      exact ⟨rfl, rfl, rfl⟩
    · rw [recoveryRun_snoc, hmove] at hsuperseded ⊢
      exact effect_rows hP (act_effect _ env' c) hsuperseded
  · intro id a ha hopen
    refine ⟨hF.current id a ha hopen, fun id' a' ha' hopen' hpolicy => ?_⟩
    have hgen : a'.leaseGeneration = a.leaseGeneration := by
      rw [hF.current id a ha hopen, hF.current id' a' ha' hopen', hpolicy]
    have hsame := eq_of_pairwise hF.ordered (Table.mem_rows.mpr ha') (Table.mem_rows.mpr ha)
      (fun h => (Nat.lt_irrefl _ (hgen ▸ h hpolicy)).elim) fun h => (Nat.lt_irrefl _ (hgen ▸ h hpolicy.symm)).elim
    exact (Prod.mk.inj hsame).1
  · rintro pre ⟨i, c, r⟩ h
    cases c with
    | recover adapter request =>
      obtain ⟨policy, claim, _, hdue⟩ := h
      obtain ⟨taken, hextended⟩ := hdue.extended
      refine ⟨hdue.authorized, ?_⟩
      rw [hdue.key, hextended]
      rfl
    | _ => trivial

theorem inTime_iff_prompt {pre : List RecoveryEvent} {e : RecoveryEvent} (h : lawful pre e) :
    inTime pre e = true ↔ prompt pre e = true := by
  obtain ⟨i, c, r⟩ := e
  cases c with
  | recover adapter request =>
    obtain ⟨policy, claim, _, hdue⟩ := h
    obtain ⟨taken, hextended⟩ := hdue.extended
    have hmargin := hdue.margin
    simp only [inTime, prompt, hdue.key, hextended, Option.all_some, decide_eq_true_eq, hdue.deadline]
    omega
  | _ => rfl

/-- **Recovery leases fence their owners.** In every run of any callers, crashes, expired leases and reconfigurations,
generations rise with each grant, a superseded owner writes no attempt, node or worker, one attempt of a policy at most
is unfinished and belongs to the generation in force, and an adapter is invoked under a grant at most as often as the
policy of the call allows, each time authorized; the deadlines are before the expiry of the lease exactly when the
requests are prompt, and the budget is the one of the policy in force when no policy is rewritten before the grant. -/
theorem recovery_fenced : LeaseFenced (.initial policies nodes workers) moves ∧
    (DeadlinesKept (recoveryRun (.initial policies nodes workers) moves).shared.trace ↔
      Timely (recoveryRun (.initial policies nodes workers) moves).shared.trace) ∧
    (GrantsCurrent (.initial policies nodes workers) moves → BudgetKept (.initial policies nodes workers) moves) := by
  have hF := fenced_run policies nodes workers moves
  refine ⟨lease_fenced policies nodes workers moves, hF.lawful.congr fun pre e => inTime_iff_prompt, ?_⟩
  rintro hcurrent before m after g row rfl hgrant hrow
  have hread := hcurrent before m after g rfl hgrant
  rw [hrow] at hread
  obtain rfl := Option.some.inj hread
  refine hF.budget g ?_
  have hlater := grants_run policies nodes workers (before ++ [m]) after
  rw [List.append_assoc] at hlater
  refine hlater ?_
  rw [hgrant]
  exact List.mem_append_right _ List.mem_cons_self

end

section

/-- A policy with the shortest lease time. -/
def startPolicy : RuntimeRecoveryPolicy where
  id := "policy-a"
  nodeId := "node-1"
  runtimeId := "runtime-a"
  backendEndpoint := "http://127.0.0.1:11434"
  requiredCapability := "runtime.start"
  expectedModels := []
  workerIds := ["worker-1"]
  enabled := true
  maxAttempts := 1
  leaseTtl := seconds 15
  named := by decide
  attempts := by decide
  ttl := by decide
  models := by decide
  workers := by decide

def startAdapter : NodeRuntimeAdapterDescriptor where
  nodeId := "node-1"
  maxOperation := seconds 5
  allowedOperations := [.startRuntime]
  bounded := by decide

def startGrant : RecoveryAuthorizationDecision where
  authorized := true
  authorizationRef := some "grant-1"
  reason := "allowed"
  reasoned := by decide
  coherent := by decide
  opaqueRef := by decide

/-- The runtime is down, the recovery is allowed, and the clock shows so many seconds. -/
def downAt (n : Nat) : Environment :=
  ⟨⟨seconds n, seconds n⟩, "1", .ok .probeError, .ok startGrant, .error (.exception "no answer")⟩

def oneNode : Table String NodeState := Table.empty.upsert "node-1" .online

def oneWorker : Table String WorkerRow := Table.empty.upsert "worker-1" ⟨"node-1", .idle, .available⟩

def startRecovery (i : Nat) (policyId : String) (authorizer : Bool) : Move Nat Request Environment :=
  .start i (.recover ⟨policyId, true, startAdapter, authorizer, "operator", "monitor", some "owner-1"⟩)

/-- From the first observation up to the reading of the clock for the heartbeat takes no time, and the heartbeat waits
ten seconds for the database. -/
private def heldUp : List (Move Nat Request Environment) :=
  [startRecovery 0 "policy-a" true] ++ List.replicate 13 (.step 0 (downAt 0)) ++ List.replicate 3 (.step 0 (downAt 10))

/-- The deadline of the invocation is the expiry of the lease. -/
theorem deadline_at_expiry : ¬ ∀ (policies : Table String PolicyRow) (nodes : Table String NodeState)
    (workers : Table String WorkerRow) (moves : List (Move Nat Request Environment)),
    DeadlinesKept (recoveryRun (.initial policies nodes workers) moves).shared.trace := fun h => by
  have hlate : ¬ DeadlinesKept (recoveryRun (.initial (Table.empty.upsert "policy-a" startPolicy.toPolicyRow) oneNode
      oneWorker) heldUp).shared.trace := by
    decide +kernel
  exact hlate (h _ _ _ _)

end

end AgentFabric.NodeRecovery
