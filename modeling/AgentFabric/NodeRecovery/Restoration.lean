import AgentFabric.NodeRecovery.Fencing

/-!
# Restoration and the other policies

When a restoration spares the node and the workers that another unhealthy policy still covers.
-/

namespace AgentFabric.NodeRecovery

open AgentFabric.Lib

/-! ## Latest attempts -/

def latestAttempt (db : Db) (policyId : String) : Option (String × AttemptRow) := (attemptsOf db policyId).getLast?

/-- The latest attempt ended `observedHealthy` or `ready`. -/
def Recovered (db : Db) (policyId : String) : Prop :=
  (latestAttempt db policyId).any (fun e => e.2.state.healthy) = true

instance (db : Db) (policyId : String) : Decidable (Recovered db policyId) := inferInstanceAs (Decidable (_ = true))

/-- Another enabled policy of the same node. -/
structure Beside (db : Db) (policy : RuntimeRecoveryPolicy) (id : String) (row : PolicyRow) : Prop where
  stored : db.policies.get? id = some row
  enabled : row.enabled = true
  node : row.nodeId = policy.nodeId
  other : id ≠ policy.id

/-- An enabled policy that lists the worker. -/
structure Lists (db : Db) (worker : String) (id : String) (row : PolicyRow) : Prop where
  stored : db.policies.get? id = some row
  enabled : row.enabled = true
  listed : worker ∈ row.workerIds

section

variable {w : World} {db db' : Db} {claim : RecoveryLeaseClaim} {policy : RuntimeRecoveryPolicy} {id q : String}
  {a : AttemptRow} {i : Nat}

theorem mem_attemptsOf : (id, a) ∈ attemptsOf db q ↔ db.attempts.get? id = some a ∧ a.policyId = q := by
  unfold attemptsOf
  rw [List.mem_filter, Table.mem_rows, decide_eq_true_eq]

theorem Fenced.latest (hF : Fenced w) (hforce : InForce claim w.state) (ha : w.state.attempts.get? id = some a)
    (hkey : a.key = claim.key) : latestAttempt w.state claim.policyId = some (id, a) := by
  obtain ⟨hp, hg⟩ := Prod.mk.inj hkey
  refine getLast?_of_pairwise (hF.ordered.sublist List.filter_sublist) (mem_attemptsOf.mpr ⟨ha, hp⟩) ?_
  rintro ⟨id', b⟩ hb hlt
  obtain ⟨hb, hbp⟩ := mem_attemptsOf.mp hb
  have hle := hF.attempted id' b hb
  have hlt : a.leaseGeneration < b.leaseGeneration := hlt (hp.trans hbp.symm)
  rw [hbp, hforce] at hle
  omega

theorem restoring_recovered (hF : Fenced w) (hP : Permits i w (.markReady policy claim))
    (hforce : InForce claim w.state) :
    Recovered w.state policy.id := by
  obtain ⟨hheld, hready⟩ := hP
  obtain ⟨a, ha, hkey, hstate⟩ := hready hforce
  have hnamed : claim.policyId = policy.id := hF.named _ (held_mem hheld).1
  unfold Recovered
  rw [← hnamed, hF.latest hforce ha hkey, Option.any_some, hstate]
  rfl

/-! ## Safe restorations -/

/-- A node that comes online, or a listed worker that becomes idle, has only recovered policies. -/
structure RestoresSafely (db db' : Db) (policy : RuntimeRecoveryPolicy) : Prop where
  node : db.nodes.get? policy.nodeId ≠ some .online → db'.nodes.get? policy.nodeId = some .online →
    ∀ id row, Beside db policy id row → Recovered db id
  workers : ∀ worker row row', worker ∈ policy.workerIds → db.workers.get? worker = some row → row.state ≠ .idle →
    db'.workers.get? worker = some row' → row'.state = .idle → ∀ id row, Lists db worker id row → Recovered db id

/-- What the restoration looks at shows the other policies as they are: a policy in trouble beside it has an attempt in
trouble with the greatest start second and id, and the workers it brings back have no other policy in trouble. -/
structure Unhidden (db : Db) (policy : RuntimeRecoveryPolicy) : Prop where
  node : ∀ state, db.nodes.get? policy.nodeId = some state → state ≠ .online →
    (∃ id row, Beside db policy id row ∧ ¬ Recovered db id) →
    ∃ id row, Beside db policy id row ∧ (greatest (attemptsOf db id)).any (fun e => e.2.state.healthy) = false
  workers : ∀ worker row, worker ∈ policy.workerIds → db.workers.get? worker = some row → restorable row.state = true →
    ∀ id row, Lists db worker id row → id ≠ policy.id → Recovered db id

theorem unhealthyPolicy_eq_true : unhealthyPolicy db policy = true ↔
    ∃ id row, Beside db policy id row ∧ (greatest (attemptsOf db id)).any (fun e => e.2.state.healthy) = false := by
  simp only [unhealthyPolicy, unhealthy, Table.any_eq_true, Bool.and_eq_true, decide_eq_true_eq, Bool.not_eq_true']
  constructor
  · rintro ⟨id, row, hrow, ⟨hnode, hother⟩, henabled, hpick⟩
    exact ⟨id, row, ⟨hrow, henabled, hnode, hother⟩, hpick⟩
  · rintro ⟨id, row, ⟨hrow, henabled, hnode, hother⟩, hpick⟩
    exact ⟨id, row, hrow, ⟨hnode, hother⟩, henabled, hpick⟩

theorem restored_node (hdb : db'.nodes = if unhealthyPolicy db policy then db.nodes
    else db.nodes.modify policy.nodeId fun _ => .online) (hnode : db.nodes.get? policy.nodeId ≠ some .online) :
    db'.nodes.get? policy.nodeId = some .online ↔
      (db.nodes.get? policy.nodeId).isSome = true ∧ unhealthyPolicy db policy = false := by
  rw [hdb]
  cases unhealthyPolicy db policy with
  | true => simpa using hnode
  | false => simp [Table.get?_modify, Option.isSome_iff_exists]

theorem restored_worker {worker : String} {row row' : WorkerRow}
    (hdb : db'.workers = db.workers.updateWhere
      (fun id w => policy.workerIds.contains id && restorable w.state) fun w =>
      { w with state := .idle, resourceState := .available })
    (hlisted : worker ∈ policy.workerIds) (hrow : db.workers.get? worker = some row) (hidle : row.state ≠ .idle)
    (hrow' : db'.workers.get? worker = some row') : row'.state = .idle ↔ restorable row.state = true := by
  rw [hdb, Table.get?_updateWhere, hrow, Option.map_some, Option.some.injEq] at hrow'
  have hcontains : policy.workerIds.contains worker = true := by simpa using hlisted
  simp only [hcontains, Bool.true_and] at hrow'
  subst hrow'
  cases restorable row.state with
  | true => simp
  | false => simpa using hidle

/-- A restoration is safe exactly when nothing is hidden from it. -/
theorem restoresSafely_iff (hown : Recovered db policy.id)
    (hnodes : db'.nodes = if unhealthyPolicy db policy then db.nodes
      else db.nodes.modify policy.nodeId fun _ => .online)
    (hworkers : db'.workers = db.workers.updateWhere (fun id w => policy.workerIds.contains id && restorable w.state)
      fun w => { w with state := .idle, resourceState := .available }) :
    RestoresSafely db db' policy ↔ Unhidden db policy := by
  constructor
  · rintro ⟨hnode, hworker⟩
    refine ⟨fun state hstate hoffline ⟨id, row, hbeside, htrouble⟩ => ?_, fun worker row hlisted hrow hrestorable => ?_⟩
    · rw [← unhealthyPolicy_eq_true]
      by_contra hseen
      have hne : db.nodes.get? policy.nodeId ≠ some .online := by
        rw [hstate]
        exact fun h => hoffline (Option.some.inj h)
      have honline := (restored_node hnodes hne).mpr ⟨by simp [hstate], by simpa using hseen⟩
      exact htrouble (hnode hne honline id row hbeside)
    · intro id prow hlists _
      have hidle : row.state ≠ .idle := by
        intro h
        rw [h] at hrestorable
        cases hrestorable
      obtain ⟨row', hrow'⟩ : ∃ row', db'.workers.get? worker = some row' := by
        rw [hworkers, Table.get?_updateWhere, hrow]
        exact ⟨_, rfl⟩
      exact hworker worker row row' hlisted hrow hidle hrow'
        ((restored_worker hworkers hlisted hrow hidle hrow').mpr hrestorable) id prow hlists
  · rintro ⟨hnode, hworker⟩
    refine ⟨fun hne honline id row hbeside => ?_, fun worker row row' hlisted hrow hidle hrow' hback => ?_⟩
    · obtain ⟨hsome, hseen⟩ := (restored_node hnodes hne).mp honline
      obtain ⟨state, hstate⟩ := Option.isSome_iff_exists.mp hsome
      by_contra htrouble
      have hpick := unhealthyPolicy_eq_true.mpr
        (hnode state hstate (fun h => hne (by rw [hstate, h])) ⟨id, row, hbeside, htrouble⟩)
      rw [hseen] at hpick
      cases hpick
    · intro id prow hlists
      by_cases hid : id = policy.id
      · rw [hid]
        exact hown
      · exact hworker worker row hlisted hrow
          ((restored_worker hworkers hlisted hrow hidle hrow').mp hback) id prow hlists
          hid

end

/-! ## Runs -/

/-- The policy whose node and workers an event has restored. -/
def restoredPolicy : RecoveryEvent → Option RuntimeRecoveryPolicy
  | ⟨_, .markReady policy _, .ok ()⟩ => some policy
  | _ => none

theorem Effect.restored {db db' : Db} {c : Call} {r : c.Reply} {i : Nat} {policy : RuntimeRecoveryPolicy}
    (h : Effect db c r db') (hr : restoredPolicy ⟨i, c, r⟩ = some policy) :
    ∃ claim, c = .markReady policy claim ∧ InForce claim db ∧
      (db'.nodes = if unhealthyPolicy db policy then db.nodes else db.nodes.modify policy.nodeId fun _ => .online) ∧
      db'.workers = db.workers.updateWhere (fun id w => policy.workerIds.contains id && restorable w.state) fun w =>
        { w with state := .idle, resourceState := .available } := by
  cases h with
  | @readied policy' claim inForce =>
    obtain rfl := Option.some.inj hr
    exact ⟨claim, rfl, inForce, rfl, rfl⟩
  | quiet idle =>
    cases c with
    | markReady =>
      cases r with
      | ok => exact absurd rfl idle
      | error => cases hr
    | _ => cases hr
  | _ => cases hr

/-- The policies that the next move of a run is about, by its event. -/
def newly (f : RecoveryEvent → Option RuntimeRecoveryPolicy) (db : Db) (before : List (Move Nat Request Environment))
    (m : Move Nat Request Environment) : List RuntimeRecoveryPolicy :=
  ((recoveryRun db (before ++ [m])).shared.trace.drop (recoveryRun db before).shared.trace.length).filterMap f

/-- Every restoration of the run is safe. -/
def RestorationsSafe (db : Db) (moves : List (Move Nat Request Environment)) : Prop :=
  ∀ before m after, moves = before ++ m :: after → ∀ policy ∈ newly restoredPolicy db before m,
    RestoresSafely (recoveryRun db before).shared.state (recoveryRun db (before ++ [m])).shared.state policy

/-- Before every restoration of the run, nothing is hidden from it. -/
def RestorationsUnhidden (db : Db) (moves : List (Move Nat Request Environment)) : Prop :=
  ∀ before m after, moves = before ++ m :: after → ∀ policy ∈ newly restoredPolicy db before m,
    Unhidden (recoveryRun db before).shared.state policy

section

variable (policies : Table String PolicyRow) (nodes : Table String NodeState) (workers : Table String WorkerRow)

theorem recoveryRun_move (before : List (Move Nat Request Environment)) (m : Move Nat Request Environment) :
    (recoveryRun (.initial policies nodes workers) (before ++ [m])).shared =
        (recoveryRun (.initial policies nodes workers) before).shared ∨
      ∃ i c env, Permits i (recoveryRun (.initial policies nodes workers) before).shared c ∧
        (recoveryRun (.initial policies nodes workers) (before ++ [m])).shared =
          (machine.traced.act i (recoveryRun (.initial policies nodes workers) before).shared env c).2 := by
  rw [recoveryRun_snoc]
  rcases (Pool.move_sound serve_permitted (sound_run policies nodes workers before) m).2 with h | ⟨i, c, env, hP, h⟩
  · exact Or.inl h
  · exact Or.inr ⟨i, c, env, hP, h⟩

theorem newly_move {before : List (Move Nat Request Environment)} {m : Move Nat Request Environment}
    {f : RecoveryEvent → Option RuntimeRecoveryPolicy} {i : Nat} {c : Call} {env : Environment}
    (h : (recoveryRun (.initial policies nodes workers) (before ++ [m])).shared =
      (machine.traced.act i (recoveryRun (.initial policies nodes workers) before).shared env c).2)
    (policy : RuntimeRecoveryPolicy) : policy ∈ newly f (.initial policies nodes workers) before m ↔
      f ⟨i, c, (act (recoveryRun (.initial policies nodes workers) before).shared.state env c).1⟩ = some policy := by
  have htrace : (machine.traced.act i (recoveryRun (.initial policies nodes workers) before).shared env c).2.trace =
      (recoveryRun (.initial policies nodes workers) before).shared.trace ++
        [⟨i, c, (act (recoveryRun (.initial policies nodes workers) before).shared.state env c).1⟩] := rfl
  unfold newly
  rw [h, htrace, List.drop_left, List.mem_filterMap]
  simp only [List.mem_singleton, exists_eq_left]

/-- **Restoration needs every policy healthy.** In every run of any callers, the restorations of nodes and workers are
safe exactly when, before each of them, no policy in trouble is hidden by its start second and id or by a shared worker.
-/
theorem restoration_safe_iff (moves : List (Move Nat Request Environment)) :
    RestorationsSafe (.initial policies nodes workers) moves ↔
      RestorationsUnhidden (.initial policies nodes workers) moves := by
  have hstep : ∀ before m, ∀ policy ∈ newly restoredPolicy (.initial policies nodes workers) before m,
      (RestoresSafely (recoveryRun (.initial policies nodes workers) before).shared.state
          (recoveryRun (.initial policies nodes workers) (before ++ [m])).shared.state policy ↔
        Unhidden (recoveryRun (.initial policies nodes workers) before).shared.state policy) := by
    intro before m policy hpolicy
    have hF := fenced_run policies nodes workers before
    rcases recoveryRun_move policies nodes workers before m with hsame | ⟨i, c, env, hP, hmove⟩
    · unfold newly at hpolicy
      rw [hsame, List.drop_length] at hpolicy
      cases hpolicy
    · have hrestored := (newly_move policies nodes workers hmove policy).mp hpolicy
      rw [hmove]
      have hE := act_effect (recoveryRun (.initial policies nodes workers) before).shared.state env c
      obtain ⟨claim, rfl, hforce, hnodes, hworkers⟩ := hE.restored hrestored
      exact restoresSafely_iff (restoring_recovered hF hP hforce) hnodes hworkers
  exact ⟨fun h before m after hm policy hpolicy =>
    (hstep before m policy hpolicy).mp (h before m after hm policy hpolicy),
    fun h before m after hm policy hpolicy => (hstep before m policy hpolicy).mpr (h before m after hm policy hpolicy)⟩

end

section

/-- A second runtime of the same node, for the same worker. -/
def secondPolicy : RuntimeRecoveryPolicy :=
  { startPolicy with id := "policy-b", runtimeId := "runtime-b", named := by decide }

def bothPolicies : Table String PolicyRow :=
  (Table.empty.upsert "policy-a" startPolicy.toPolicyRow).upsert "policy-b" secondPolicy.toPolicyRow

/-- The adapter starts the runtime, and the next observation finds it ready. -/
def startedAt (n : Nat) : Environment :=
  { downAt n with
    uuid := "2"
    observation := .ok ⟨true, true, none, RuntimeHealthObservation.probeError.unique⟩
    execution := .ok ⟨true, some "operation-1", some 1, fun _ => by decide⟩ }

/-- Nobody may start the first runtime; the second one is down and is started. -/
private def sharedWorker : List (Move Nat Request Environment) :=
  [startRecovery 0 "policy-a" false] ++ List.replicate 11 (.step 0 (downAt 0)) ++ [startRecovery 1 "policy-b" true] ++
    List.replicate 10 (.step 1 { downAt 1 with uuid := "2" }) ++ List.replicate 12 (.step 1 (startedAt 1))

/-- The worker comes back while its first runtime is down. -/
theorem shared_worker_restored : ¬ ∀ (policies : Table String PolicyRow) (nodes : Table String NodeState)
    (workers : Table String WorkerRow) (moves : List (Move Nat Request Environment)),
    RestorationsSafe (.initial policies nodes workers) moves := fun h => by
  have hsafe := h bothPolicies oneNode oneWorker (sharedWorker ++ [.step 1 (startedAt 1)]) sharedWorker
    (.step 1 (startedAt 1)) [] rfl secondPolicy (by decide)
  have hlists : Lists (recoveryRun (.initial bothPolicies oneNode oneWorker) sharedWorker).shared.state "worker-1"
      "policy-a" startPolicy.toPolicyRow := ⟨by decide, rfl, by decide⟩
  have hrecovered := hsafe.workers "worker-1" ⟨"node-1", .offline, .unknown⟩ ⟨"node-1", .idle, .available⟩ (by decide)
    (by decide) (by decide) (by decide +kernel) rfl "policy-a" _ hlists
  exact absurd hrecovered (by decide)

end

end AgentFabric.NodeRecovery
