import AgentFabric.Autonomy.Host

/-!
# A superseded run is fenced

The ownership guard of an engine is a read of its own; a transaction that follows it does not check the lease again. A
takeover that lands between the two is overtaken by the write.
-/

namespace AgentFabric.Autonomy

open AgentFabric.Lib AgentFabric.Store

/-- The calls by which an engine changes the goal or cancels its work. -/
def Call.mutates : Call → Prop
  | .transact _ | .store _ | .cancel _ => True
  | _ => False

/-- A write by a run of the goal of generation `n` or older. -/
def OldWrite (g : String) (n : Nat) : HostCall → Prop
  | .engine claim c => claim.goalId = g ∧ claim.generation ≤ n ∧ c.mutates
  | _ => False

/-- The reply of a store in which generation `n` of the goal's lease is superseded: older claims are lost, and new ones
are later. -/
def Superseded (g : String) (n : Nat) : (c : HostCall) → c.Reply → Prop
  | .engine claim .assertOwnership, r => claim.goalId = g → claim.generation ≤ n → ∃ message, r = .error message
  | .tryAcquire _ _ _, r => ∀ claim, r = .ok (some claim) → claim.goalId = g → n < claim.generation
  | _, _ => True

/-- The program can still write under a claim of generation `n` or older, although that claim is superseded. -/
def Overdue (g : String) (n : Nat) {α : Type} (p : HostProg α) : Prop := p.Reaches (Superseded g n) (OldWrite g n)

/-- Each grant of the goal's lease finds every run of an older generation before an ownership check. -/
def GrantsFindNoneOverdue (dg : Digests) (uuid5 : String → String) (g : String)
    (moves : List (Move Nat HostRequest Environment)) : Prop :=
  ∀ before m after, moves = before ++ m :: after → ∀ n, (hostRun dg uuid5 before).shared.generation g ≤ n →
    n < (hostRun dg uuid5 (before ++ [m])).shared.generation g →
      ∀ i p, (hostRun dg uuid5 before).thread i = some p → ¬ Overdue g n p

/-- A step leaves the goal, its iterations and its actions as they are, and cancels no task of an action. -/
structure Fenced (g : String) (db db' : Db) : Prop where
  goal : db'.goals.get? g = db.goals.get? g
  iterations : ∀ id it, it.goalId = g → (db'.iterations.get? id = some it ↔ db.iterations.get? id = some it)
  actions : ∀ id action, action.goalId = g → (db'.actions.get? id = some action ↔ db.actions.get? id = some action)
  tasks : ∀ id action taskId task, db.actions.get? id = some action → action.goalId = g → action.taskId = some taskId →
    db'.tasks.get? taskId = some task → task.state = .cancelled →
      ∃ task', db.tasks.get? taskId = some task' ∧ task'.state = .cancelled

theorem Fenced.refl (g : String) (db : Db) : Fenced g db db :=
  ⟨rfl, fun _ _ _ => Iff.rfl, fun _ _ _ => Iff.rfl, fun _ _ _ task _ _ _ h hs => ⟨task, h, hs⟩⟩

section

variable {g : String} {n : Nat} {w : HostDb} {dg : Digests}

/-! ## Generations -/

theorem generation_of_leases {w' : HostDb} (h : w'.leases = w.leases) : w'.generation g = w.generation g := by
  unfold HostDb.generation
  rw [h]

theorem generation_modify {w' : HostDb} {k : String} {f : GoalLease → GoalLease}
    (hf : ∀ l, (f l).generation = l.generation) (h : w'.leases = w.leases.modify k f) :
    w'.generation g = w.generation g := by
  unfold HostDb.generation
  rw [h, Table.get?_modify]
  split
  · rw [Option.map_map]
    congr 2
    exact funext hf
  · rfl

theorem tryAcquireGoal_ok {goalId hostId : String} {ttl now : Nat} {r : Option GoalLeaseClaim} {w' : HostDb}
    (h : tryAcquireGoal w goalId hostId ttl now = .ok (r, w')) : (r = none ∧ w' = w) ∨ ∃ claim, r = some claim ∧
      claim.goalId = goalId ∧ claim.generation = w.generation goalId + 1 ∧ w'.db = w.db ∧
      w'.generation goalId = w.generation goalId + 1 ∧ ∀ k, k ≠ goalId → w'.generation k = w.generation k := by
  simp only [tryAcquireGoal, bind_eq_ok, orRaise_eq_ok] at h
  obtain ⟨goal, _, h⟩ := h
  split at h
  · cases h
    exact Or.inl ⟨rfl, rfl⟩
  simp only [bind_eq_ok, ensure_eq_ok] at h
  obtain ⟨_, _, h⟩ := h
  split at h
  · cases h
    exact Or.inl ⟨rfl, rfl⟩
  · cases h
    refine Or.inr ⟨_, rfl, rfl, rfl, rfl, ?_, fun k hk => ?_⟩
    · simp [HostDb.generation, Table.get?_upsert]
    · simp [HostDb.generation, Table.get?_upsert, hk]

theorem engineAct_leases (env : Environment) (claim : GoalLeaseClaim) (c : Call) :
    (engineAct dg w env claim c).2.leases = w.leases := by
  cases c <;> rfl

/-- Generations never fall. -/
theorem generation_mono (env : Environment) (c : HostCall) :
    w.generation g ≤ (hostAct dg w env c).2.generation g := by
  cases c with
  | register hostId processId staleAfter =>
    simp only [hostAct, hostCommit]
    cases hop : registerHost w hostId processId staleAfter env.now with
    | error => exact le_rfl
    | ok =>
      simp only [registerHost, bind_eq_ok, pure_eq_ok] at hop
      obtain ⟨_, _, _, _, _, _, _, _, rfl⟩ := hop
      exact le_rfl
  | setHost => exact le_rfl
  | tryAcquire goalId hostId ttl =>
    simp only [hostAct, hostCommit]
    cases hop : tryAcquireGoal w goalId hostId ttl env.now with
    | error => exact le_rfl
    | ok =>
      rcases tryAcquireGoal_ok hop with ⟨_, hw⟩ | ⟨_, _, _, _, _, hgen, hother⟩
      · exact le_of_eq (by rw [← hw])
      · by_cases hg : g = goalId
        · rw [hg]; exact (Nat.le_succ _).trans (le_of_eq hgen.symm)
        · exact le_of_eq (hother g hg).symm
  | heartbeat claim ttl =>
    simp only [hostAct, heartbeatGoal]
    split
    · exact le_of_eq (generation_modify (f := (·.renew (env.now + ttl))) (fun _ => rfl) rfl).symm
    · exact le_rfl
  | release =>
    simp only [hostAct, releaseGoal]
    split
    · exact le_of_eq (generation_modify (f := (·.close _ env.now)) (fun _ => rfl) rfl).symm
    · exact le_rfl
  | engine claim c => exact le_of_eq (generation_of_leases (engineAct_leases env claim c)).symm
  | client => exact le_rfl

variable {claim : GoalLeaseClaim}

theorem assertGoalLease_lost (hgoal : claim.goalId = g) (hold : claim.generation ≤ n) (h : n < w.generation g)
    (now : Nat) : assertGoalLease w claim now = .error (leaseLost claim) := by
  unfold assertGoalLease
  rw [if_neg]
  intro hany
  obtain ⟨lease, hlease, hholds⟩ := (Option.any_eq_true _ _).mp hany
  rw [hgoal] at hlease
  have hgen : lease.generation = claim.generation := by
    simp only [GoalLeaseClaim.holds, Bool.and_eq_true, decide_eq_true_eq] at hholds
    exact hholds.1.2.1
  have hw : w.generation g = lease.generation := by simp [HostDb.generation, hlease]
  omega

theorem superseded_reply (env : Environment) (c : HostCall) (h : n < (hostAct dg w env c).2.generation g) :
    Superseded g n c (hostAct dg w env c).1 := by
  cases c with
  | engine claim c =>
    cases c with
    | assertOwnership => exact fun hgoal hold => ⟨_, assertGoalLease_lost hgoal hold h env.now⟩
    | _ => trivial
  | tryAcquire goalId hostId ttl =>
    rintro claim hclaim hgoal
    simp only [hostAct, hostCommit] at h hclaim
    cases hop : tryAcquireGoal w goalId hostId ttl env.now with
    | error => rw [hop] at hclaim; cases hclaim
    | ok =>
      rw [hop] at h hclaim
      rcases tryAcquireGoal_ok hop with ⟨hnone, _⟩ | ⟨claim', hsome, hgoal', hgen, _, hgen', _⟩
      · exact nomatch hnone.symm.trans (Except.ok.inj hclaim)
      · obtain rfl : claim' = claim := Option.some.inj (hsome.symm.trans (Except.ok.inj hclaim))
        rw [hgen, ← hgen', ← hgoal', hgoal]
        exact h
  | _ => trivial

/-! ## Programs -/

theorem underClaim_later {α : Type} (h : claim.goalId = g → n < claim.generation) (p : Prog Call Call.Reply α) :
    (underClaim claim p).All fun c => ¬ OldWrite g n c := by
  induction p with
  | ret => trivial
  | call c next ih => exact ⟨fun hw => absurd (h hw.1) (Nat.not_lt.mpr hw.2.1), ih⟩

theorem runClaimed_later (uuid5 : String → String) (h : claim.goalId = g → n < claim.generation)
    (ttl rounds polls : Nat) :
    (runClaimed uuid5 claim ttl rounds polls).All fun c => ¬ OldWrite g n c := by
  refine .bind (underClaim_later h _) fun r => ?_
  cases r with
  | ok _ => exact ⟨fun h => h, fun _ => ⟨fun h => h, fun _ => trivial⟩⟩
  | error _ => exact ⟨fun h => h, fun _ => trivial⟩

theorem claimGoal_spares (uuid5 : String → String) (goalId hostId : String) (ttl rounds polls : Nat) :
    (claimGoal uuid5 goalId hostId ttl rounds polls).Avoids (Superseded g n) (OldWrite g n) fun _ => True := by
  refine ⟨fun h => h, fun r hr => ?_⟩
  dsimp only
  split
  · exact .of_all (runClaimed_later uuid5 (hr _ rfl) ttl rounds polls)
  · trivial

theorem heartbeats_spares (claim : GoalLeaseClaim) (ttl : Nat) : ∀ beats : Nat,
    (heartbeats claim ttl beats).All fun c => ¬ OldWrite g n c
  | 0 => trivial
  | beats + 1 => by
    refine ⟨fun h => h, fun alive => ?_⟩
    dsimp only
    split
    · exact heartbeats_spares claim ttl beats
    · exact ⟨fun h => h, fun _ => trivial⟩

theorem asClient_spares {α : Type} (p : Prog Call Call.Reply α) : (asClient p).All fun c => ¬ OldWrite g n c := by
  induction p with
  | ret => trivial
  | call c next ih => exact ⟨fun h => h, ih⟩

theorem serveHost_spares (uuid5 : String → String) (i : Nat) (request : HostRequest) :
    ¬ Overdue g n (serveHost uuid5 i request) := by
  have hcall : ∀ (c : HostCall) (hc : ¬ OldWrite g n c),
      ¬ Overdue g n (.call c fun _ => .ret () : HostProg Unit) :=
    fun c hc => Prog.Avoids.unreached (Prog.Avoids.of_all ⟨hc, fun _ => trivial⟩)
  cases request with
  | register => exact hcall _ fun h => h
  | setHost => exact hcall _ fun h => h
  | claimGoal => exact (claimGoal_spares uuid5 ..).unreached
  | runGoal =>
    refine Prog.Avoids.unreached (Q := fun _ => True) ⟨fun h => h, fun r _ => ?_⟩
    cases r with
    | error => trivial
    | ok _ => exact .bind (claimGoal_spares uuid5 ..) fun _ _ => ⟨fun h => h, fun _ _ => trivial⟩
  | heartbeats claim ttl beats => exact Prog.Avoids.unreached (.of_all (heartbeats_spares claim ttl beats))
  | control => exact Prog.Avoids.unreached (.of_all (asClient_spares _))

/-! ## Where a run is fenced -/

/-- The reply, if it is that of the ownership guard, says that the lease is lost. -/
def Lost : (c : Call) → c.Reply → Prop
  | .assertOwnership, r => ∃ message, r = .error message
  | _, _ => True

/-- The program writes nothing once its lease is lost. -/
abbrev Checked {α : Type} (Q : α → Prop) (p : Engine α) : Prop := Prog.Spares Lost Call.mutates Q p

theorem assertOwnership_checked : Checked (fun _ => False) assertOwnership := by
  refine .bind (.ask fun h => h) fun r hr => ?_
  obtain ⟨message, rfl⟩ := hr
  exact .throw _

/-- A run is not overdue between its rounds. -/
theorem run_checked (uuid5 : String → String) (goalId : String) (polls rounds : Nat) :
    Checked (fun _ => True) (run uuid5 goalId polls rounds) := by
  cases rounds with
  | zero => exact .pure trivial
  | succ =>
    unfold run
    refine .bind (.of_obeys (fetchGoal_obeys fun h => h)) fun goal _ => ?_
    split
    · exact .pure trivial
    · exact .bind (Q := fun _ => False) (.bind assertOwnership_checked fun _ h => h.elim) fun _ h => h.elim

theorem underClaim_checked {α : Type} {Q : α → Prop} (hgoal : claim.goalId = g) (hold : claim.generation ≤ n)
    {p : Prog Call Call.Reply α} (hp : p.Avoids Lost Call.mutates Q) :
    (underClaim claim p).Avoids (Superseded g n) (OldWrite g n) Q := by
  induction p with
  | ret => exact hp
  | call c next ih =>
    refine ⟨fun hw => hp.1 hw.2.2, fun r hr => ih r (hp.2 r ?_)⟩
    cases c with
    | assertOwnership => exact hr hgoal hold
    | _ => trivial

theorem runClaimed_checked (uuid5 : String → String) (hgoal : claim.goalId = g) (hold : claim.generation ≤ n)
    (ttl rounds polls : Nat) :
    ¬ Overdue g n (runClaimed uuid5 claim ttl rounds polls) := by
  refine Prog.Avoids.unreached (Q := fun _ => True)
    (.bind (underClaim_checked hgoal hold (run_checked uuid5 claim.goalId polls rounds)) fun r _ => ?_)
  cases r with
  | ok _ => exact ⟨fun h => h, fun _ _ => ⟨fun h => h, fun _ _ => trivial⟩⟩
  | error _ => exact ⟨fun h => h, fun _ _ => trivial⟩

/-! ## Runs -/

variable {uuid5 : String → String}

theorem hostRun_checked {moves : List (Move Nat HostRequest Environment)}
    (hmoves : GrantsFindNoneOverdue dg uuid5 g moves) (h : n < (hostRun dg uuid5 moves).shared.generation g) {i : Nat}
    {p : HostProg Unit} (hp : (hostRun dg uuid5 moves).thread i = some p) : ¬ Overdue g n p := by
  refine Pool.unreached_while (H := fun w => n < w.generation g)
    (fun w env c hw => superseded_reply env c (hw.trans_le (generation_mono env c))) (serveHost_spares uuid5 i) moves
    (fun before m after e hbefore hafter q hq => ?_) h hp
  have hold := hmoves before m after e n (Nat.not_lt.mp hbefore) hafter i
  rw [Pool.run_snoc] at hq hafter
  rcases Pool.move_thread hq with hq | ⟨request, _, rfl⟩ | ⟨env, c, next, hnext, rfl, hs⟩
  · exact hold q hq
  · exact serveHost_spares uuid5 i request
  · rw [hs] at hafter
    exact fun hr => hold _ hnext (Or.inr ⟨_, superseded_reply env c hafter, hr⟩)

end

/-- **A superseded run is fenced.** Along every schedule of hosts, heartbeats, expiries, takeovers, releases, controls
and crashes in which each grant finds no run of an older generation past its ownership check: the calls of a run whose
generation is superseded leave the goal, its iterations and its actions as they are, and cancel no task of them. -/
theorem superseded_run_fenced (dg : Digests) (uuid5 : String → String) (moves : List (Move Nat HostRequest Environment))
    (i : Nat) (env : Environment) (claim : GoalLeaseClaim) (c : Call) (next : c.Reply → HostProg Unit)
    (hmoves : GrantsFindNoneOverdue dg uuid5 claim.goalId moves)
    (hcall : (hostRun dg uuid5 moves).thread i = some (.call (.engine claim c) next))
    (hold : claim.generation < (hostRun dg uuid5 moves).shared.generation claim.goalId) :
    Fenced claim.goalId (hostRun dg uuid5 moves).shared.db
      (hostRun dg uuid5 (moves ++ [.step i env])).shared.db := by
  have hidle : ¬ c.mutates := fun hc => hostRun_checked hmoves hold hcall (Or.inl ⟨rfl, le_rfl, hc⟩)
  have hsame : (hostRun dg uuid5 (moves ++ [.step i env])).shared.db = (hostRun dg uuid5 moves).shared.db := by
    rw [show hostRun dg uuid5 (moves ++ [.step i env]) = (hostRun dg uuid5 moves).move _ _ (.step i env) from
      Pool.run_snoc ..]
    simp only [Pool.move, hcall]
    show (engineAct dg (hostRun dg uuid5 moves).shared env claim c).2.db = _
    cases c <;> first | rfl | exact absurd trivial hidle
  rw [hsame]
  exact Fenced.refl _ _

section

private def answersAt (now : Nat) : Environment := { Environment.silent with now := now }

private def firstClaim : GoalLeaseClaim := ⟨"g", "A", 1, .fresh, false⟩

-- host A is granted generation 1 until time 1, and its engine performs some calls
private def ownedByA (steps : Nat) : List (Move Nat HostRequest Environment) :=
  [.start 0 (.control (.createGoal "g" "p" "intent" {})), .step 0 (answersAt 0), .start 1 (.register "A" 1 10),
    .step 1 (answersAt 0), .start 2 (.register "B" 2 10), .step 2 (answersAt 0),
    .start 3 (.claimGoal "g" "A" 1 1 0)] ++ List.replicate steps (.step 3 (answersAt 0))

-- host B is granted generation 2 after the lease of A expired
private def takenOver : List (Move Nat HostRequest Environment) :=
  [.start 4 (.claimGoal "g" "B" 1 1 0), .step 4 (answersAt 9)]

-- A has passed the ownership check of its round when B takes over, and starts the goal all the same
theorem goal_started_by_superseded_run :
    (∃ next, (hostRun Digests.trivial id (ownedByA 5 ++ takenOver)).thread 3 =
      some (.call (.engine firstClaim (.transact (.start "g" 0))) next)) ∧
    (hostRun Digests.trivial id (ownedByA 5 ++ takenOver)).shared.generation "g" = 2 ∧
    ¬ Fenced "g" (hostRun Digests.trivial id (ownedByA 5 ++ takenOver)).shared.db
      (hostRun Digests.trivial id (ownedByA 5 ++ takenOver ++ [.step 3 (answersAt 9)])).shared.db := by
  refine ⟨⟨_, rfl⟩, by decide, fun h => ?_⟩
  have hgoal := h.goal
  revert hgoal
  decide

private theorem takeover_checked : GrantsFindNoneOverdue Digests.trivial id "g" (ownedByA 1 ++ takenOver) := by
  intro before m after e n hbefore hafter i p hp
  have hstarted : i < 5 := by
    obtain ⟨request, hstart⟩ := Pool.started_of_thread hp
    have hmem : .start i request ∈ ownedByA 1 ++ takenOver := e ▸ List.mem_append_left _ hstart
    simp [ownedByA, takenOver] at hmem
    omega
  have hother : ∀ k < 10, k ≠ 7 → k ≠ 9 →
      (hostRun Digests.trivial id ((ownedByA 1 ++ takenOver).take (k + 1))).shared.generation "g" ≤
        (hostRun Digests.trivial id ((ownedByA 1 ++ takenOver).take k)).shared.generation "g" := by decide
  have htake : before = (ownedByA 1 ++ takenOver).take before.length := by simp [e]
  have hnext : before ++ [m] = (ownedByA 1 ++ takenOver).take (before.length + 1) := by
    rw [e, List.take_length_add_append]; rfl
  have hlength : before.length < 10 := by
    have hsum : 10 = (before ++ m :: after).length := congrArg List.length e
    simp only [List.length_append, List.length_cons] at hsum
    omega
  have hgrant : before.length = 7 ∨ before.length = 9 := by
    by_contra hne
    have hle := hother before.length hlength (fun h => hne (Or.inl h)) fun h => hne (Or.inr h)
    rw [← htake, ← hnext] at hle
    omega
  rw [htake] at hp hbefore
  rw [hnext] at hafter
  rcases hgrant with hk | hk <;> rw [hk] at hp hbefore hafter
  · match i, hstarted with
    | 0, _ | 1, _ | 2, _ =>
      obtain rfl : .ret () = p := Option.some.inj hp
      exact fun h => h
    | 3, _ =>
      obtain rfl : serveHost id 3 (.claimGoal "g" "A" 1 1 0) = p := Option.some.inj hp
      exact serveHost_spares id 3 _
    | 4, _ => exact nomatch (show none = some p from hp)
  · have hfirst : firstClaim.generation ≤ n :=
      le_trans (show 1 ≤ HostDb.generation _ _ from by decide) hbefore
    match i, hstarted with
    | 0, _ | 1, _ | 2, _ =>
      obtain rfl : .ret () = p := Option.some.inj hp
      exact fun h => h
    | 3, _ =>
      obtain rfl : runClaimed id firstClaim 1 1 0 = p := Option.some.inj hp
      exact runClaimed_checked id rfl hfirst 1 1 0
    | 4, _ =>
      obtain rfl : serveHost id 4 (.claimGoal "g" "B" 1 1 0) = p := Option.some.inj hp
      exact serveHost_spares id 4 _

theorem superseded_run_fenced_at_check :
    firstClaim.generation < (hostRun Digests.trivial id (ownedByA 1 ++ takenOver)).shared.generation "g" ∧
      Fenced "g" (hostRun Digests.trivial id (ownedByA 1 ++ takenOver)).shared.db
        (hostRun Digests.trivial id (ownedByA 1 ++ takenOver ++ [.step 3 (answersAt 9)])).shared.db := by
  have hold : firstClaim.generation < (hostRun Digests.trivial id (ownedByA 1 ++ takenOver)).shared.generation "g" := by
    decide
  exact ⟨hold, superseded_run_fenced Digests.trivial id (ownedByA 1 ++ takenOver) 3 (answersAt 9) firstClaim _ _
    takeover_checked rfl hold⟩

end

end AgentFabric.Autonomy
