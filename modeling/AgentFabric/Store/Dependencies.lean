import AgentFabric.Lib.Reachability
import AgentFabric.Store.ScopeSoundness

/-!
# The dependency graph of the tasks

An edge is accepted only if the tasks stay free of cycles, by the recursive query of the store.
-/

namespace AgentFabric.Store

open AgentFabric.Lib Relation

/-! ## The recursive query -/

theorem ancestors_eq_reach (edges : List (String × String)) (rounds : Nat) (reached : List String) :
    ancestors edges rounds reached = reach edges rounds reached := by
  induction rounds generalizing reached with
  | zero => rfl
  | succ rounds ih => exact ih _

/-- The recursive query computes the closure of the stored edges. -/
theorem mem_ancestors {edges : List (String × String)} {root t : String} :
    t ∈ ancestors edges edges.length [root] ↔ ReflTransGen (Edge edges) root t := by
  rw [ancestors_eq_reach, mem_reach]
  simp

/-! ## When an edge is accepted -/

/-- The row of a task with one more dependency. -/
def TaskRow.revised (task : TaskRow) : TaskRow :=
  { task with definitionRevision := task.definitionRevision + 1, version := task.version + 1 }

def TaskState.unstarted : TaskState → Bool
  | .draft | .queued | .ready => true
  | _ => false

/-- An unstarted task and a distinct task of its project that does not depend on it. -/
structure Addable (db : Db) (t d : String) (task prerequisite : TaskRow) : Prop where
  distinct : t ≠ d
  dependent : db.tasks.get? t = some task
  required : db.tasks.get? d = some prerequisite
  project : task.projectId = prerequisite.projectId
  unstarted : TaskState.unstarted task.state = true
  acyclic : ¬ ReflTransGen (Edge db.dependencies) d t

theorem unstarted_iff {s : TaskState} : TaskState.unstarted s = true ↔ s = .draft ∨ s = .queued ∨ s = .ready := by
  cases s <;> simp [TaskState.unstarted]

/-- What the database becomes with a new edge. -/
def withDependency (db : Db) (t d : String) (task : TaskRow) : Db :=
  { db with dependencies := db.dependencies ++ [(t, d)], tasks := db.tasks.modify t fun _ => task.revised }

theorem addTaskDependency_accepts {db db' : Db} {t d : String} (hnew : (t, d) ∉ db.dependencies) :
    addTaskDependency db t d = .ok ((), db') ↔ ∃ task prerequisite, Addable db t d task prerequisite ∧
      sealedScopeMatches db t task.revised = true ∧ db' = withDependency db t d task := by
  simp only [addTaskDependency, bind_eq_ok, ensure_eq_ok, orRaise_eq_ok, if_neg hnew, pure_eq_ok, Prod.mk.injEq]
  constructor
  · rintro ⟨_, hne, task, ht, prerequisite, hp, _, hproject, _, hs, _, hcycle, _, hm, ⟨⟩, rfl⟩
    exact ⟨task, prerequisite,
      ⟨hne, ht, hp, hproject, unstarted_iff.mpr hs, fun h => hcycle (mem_ancestors.mpr h)⟩, hm, rfl⟩
  · rintro ⟨task, prerequisite, h, hm, rfl⟩
    exact ⟨(), h.distinct, task, h.dependent, prerequisite, h.required, (), h.project, (), unstarted_iff.mp h.unstarted,
      (), fun hmem => h.acyclic (mem_ancestors.mp hmem), (), hm, trivial, rfl⟩

/-! ## The graph -/

/-- The edges join tasks of one project and close no cycle. -/
structure Graph (db : Db) : Prop where
  acyclic : Acyclic db.dependencies
  joined : ∀ t d, (t, d) ∈ db.dependencies → ∃ task prerequisite, db.tasks.get? t = some task ∧
    db.tasks.get? d = some prerequisite ∧ task.projectId = prerequisite.projectId

section

variable {dg : Digests} {db db' : Db}

theorem TaskUpdate.projectId {t : String} {a b : TaskRow} {op : StoreOp} (h : TaskUpdate dg db t a op b) :
    b.projectId = a.projectId := by
  cases h <;> rfl

/-- The only new edge is one that could be added. -/
theorem exec_edges {op : StoreOp} {r : op.Reply} (h : exec dg op db = .ok (r, db')) :
    db'.dependencies = db.dependencies ∨ ∃ t d task prerequisite, op = .addTaskDependency t d ∧
      Addable db t d task prerequisite ∧ db'.dependencies = db.dependencies ++ [(t, d)] := by
  cases op with
  | addTaskDependency t d =>
    by_cases hnew : (t, d) ∈ db.dependencies
    · rcases addTaskDependency_ok h with rfl | ⟨_, _, _, _, _, _, rfl⟩
      · exact Or.inl rfl
      · simp only [exec, addTaskDependency, bind_eq_ok, ensure_eq_ok, orRaise_eq_ok, if_pos hnew] at h
        obtain ⟨_, _, _, _, _, _, _, _, h⟩ := h
        exact Or.inl (congrArg (fun p => p.2.dependencies) (Except.ok.inj h)).symm
    · obtain ⟨task, prerequisite, hadd, _, rfl⟩ := (addTaskDependency_accepts hnew).mp h
      exact Or.inr ⟨t, d, task, prerequisite, rfl, hadd, rfl⟩
  | _ => exact Or.inl ((exec_frame h).dependencies rfl)

/-- Every operation keeps the graph acyclic. -/
theorem exec_graph {op : StoreOp} {r : op.Reply} (h : exec dg op db = .ok (r, db')) (hG : Graph db) : Graph db' := by
  have hjoin : ∀ t d, (∃ task prerequisite, db.tasks.get? t = some task ∧ db.tasks.get? d = some prerequisite ∧
      task.projectId = prerequisite.projectId) → ∃ task prerequisite, db'.tasks.get? t = some task ∧
        db'.tasks.get? d = some prerequisite ∧ task.projectId = prerequisite.projectId := by
    rintro t d ⟨task, prerequisite, ht, hd, hproject⟩
    obtain ⟨task', ht', hut⟩ := exec_tasks_some h ht
    obtain ⟨prerequisite', hd', hud⟩ := exec_tasks_some h hd
    exact ⟨task', prerequisite', ht', hd', by rw [hut.projectId, hud.projectId, hproject]⟩
  rcases exec_edges h with hsame | ⟨t, d, task, prerequisite, _, hadd, hnew⟩
  · exact ⟨by rw [hsame]; exact hG.acyclic, fun t d hmem => hjoin t d (hG.joined t d (by rw [← hsame]; exact hmem))⟩
  · refine ⟨by rw [hnew]; exact hG.acyclic.concat hadd.acyclic, fun t' d' hmem => hjoin t' d' ?_⟩
    rw [hnew, List.mem_append] at hmem
    rcases hmem with hold | hedge
    · exact hG.joined t' d' hold
    · obtain ⟨rfl, rfl⟩ := Prod.mk.inj (List.mem_singleton.mp hedge)
      exact ⟨task, prerequisite, hadd.dependent, hadd.required, hadd.project⟩

theorem Graph.readd (hG : Graph db) {t d : String} (hmem : (t, d) ∈ db.dependencies) :
    addTaskDependency db t d = .ok ((), db) := by
  obtain ⟨task, prerequisite, ht, hd, hproject⟩ := hG.joined t d hmem
  have hne : t ≠ d := by
    rintro rfl
    exact hG.acyclic t (.single hmem)
  simp [addTaskDependency, ensure, orRaise, hne, ht, hd, hproject, hmem, pure, Except.pure, bind, Except.bind]

theorem claim_prerequisites (hG : Graph db) {args : DispatchArgs} {claim : DispatchClaim}
    (h : claimTaskDispatch dg db args = .ok (some claim, db')) {d : String}
    (hmem : (args.taskId, d) ∈ db.dependencies) :
    ∃ row, db.tasks.get? d = some row ∧ row.state = .succeeded := by
  rcases claimTaskDispatch_ok h with ⟨hnone, _⟩ | ⟨_, _, _, _, _, _, hsat, _⟩
  · cases hnone
  obtain ⟨_, row, _, hd, _⟩ := hG.joined _ _ hmem
  refine ⟨row, hd, ?_⟩
  simp only [unsatisfiedDependency, List.any_eq_false, Bool.and_eq_true, decide_eq_true_eq, not_and] at hsat
  have hrow := hsat (args.taskId, d) hmem rfl
  simpa [hd] using hrow

end

/-- **The dependency graph.**  Any number of processes add edges, create tasks, claim them and use the rest of the
store.  The stored relation is acyclic and inside of one project; adding an edge again changes nothing; a new edge
raises the definition revision of the dependent by one and leaves the other rows; what raises changes nothing; and a
claim finds every direct prerequisite SUCCEEDED. -/
theorem dependency_graph (dg : Digests) (ops : List StoreOp) :
    Acyclic (runOps dg Db.initial ops).dependencies ∧
    (∀ t d, (t, d) ∈ (runOps dg Db.initial ops).dependencies → ∃ task prerequisite,
      (runOps dg Db.initial ops).tasks.get? t = some task ∧
      (runOps dg Db.initial ops).tasks.get? d = some prerequisite ∧ task.projectId = prerequisite.projectId) ∧
    (∀ t d, (t, d) ∈ (runOps dg Db.initial ops).dependencies →
      addTaskDependency (runOps dg Db.initial ops) t d = .ok ((), runOps dg Db.initial ops)) ∧
    (∀ t d db', (t, d) ∉ (runOps dg Db.initial ops).dependencies →
      addTaskDependency (runOps dg Db.initial ops) t d = .ok ((), db') →
      ∃ task, (runOps dg Db.initial ops).tasks.get? t = some task ∧
        db' = { runOps dg Db.initial ops with
          dependencies := (runOps dg Db.initial ops).dependencies ++ [(t, d)]
          tasks := (runOps dg Db.initial ops).tasks.modify t fun _ =>
            { task with definitionRevision := task.definitionRevision + 1, version := task.version + 1 } }) ∧
    (∀ op e, exec dg op (runOps dg Db.initial ops) = .error e →
      apply dg (runOps dg Db.initial ops) op = runOps dg Db.initial ops) ∧
    (∀ args claim db', claimTaskDispatch dg (runOps dg Db.initial ops) args = .ok (some claim, db') →
      ∀ d, (args.taskId, d) ∈ (runOps dg Db.initial ops).dependencies →
        ∃ row, (runOps dg Db.initial ops).tasks.get? d = some row ∧ row.state = .succeeded) := by
  have hG : Graph (runOps dg Db.initial ops) :=
    runOps_invariant exec_graph ⟨acyclic_nil, fun _ _ hmem => absurd hmem List.not_mem_nil⟩ ops
  refine ⟨hG.acyclic, hG.joined, fun t d => hG.readd, fun t d db' hnew h => ?_, fun op e he => ?_,
    fun args claim db' h d => claim_prerequisites hG h⟩
  · obtain ⟨task, _, hadd, _, rfl⟩ := (addTaskDependency_accepts hnew).mp h
    exact ⟨task, hadd.dependent, rfl⟩
  · simp [apply, he]

/-! ## Bound scopes -/

/-- A bound scope has the revision of its task. -/
def BoundScopes (db : Db) : Prop :=
  ∀ t task scopeId, db.tasks.get? t = some task → task.currentVerificationScopeId = some scopeId →
    ∃ scope, db.scopes.get? scopeId = some scope ∧ scope.taskDefinitionRevision = task.definitionRevision

section

variable {dg : Digests} {db db' : Db}

theorem sealedScopeMatches_revision {t scopeId : String} {task : TaskRow} (h : sealedScopeMatches db t task = true)
    (hs : task.currentVerificationScopeId = some scopeId) :
    ∃ scope, db.scopes.get? scopeId = some scope ∧ scope.taskDefinitionRevision = task.definitionRevision := by
  simp only [sealedScopeMatches, hs] at h
  split at h
  · cases h
  · rename_i scope hscope
    simp only [Bool.and_eq_true, decide_eq_true_eq] at h
    exact ⟨scope, hscope, h.1.2⟩

theorem BoundScopes.refuses (hB : BoundScopes db) {t : String} {task : TaskRow} (ht : db.tasks.get? t = some task) :
    sealedScopeMatches db t task.revised = true ↔ task.currentVerificationScopeId = none := by
  cases hs : task.currentVerificationScopeId with
  | none => simp [sealedScopeMatches, TaskRow.revised, hs]
  | some scopeId =>
    refine ⟨fun h => ?_, fun h => nomatch h⟩
    obtain ⟨scope, hscope, hrev⟩ := hB t task scopeId ht hs
    obtain ⟨scope', hscope', hrev'⟩ := sealedScopeMatches_revision h hs
    rw [hscope] at hscope'
    obtain rfl := Option.some.inj hscope'
    have hnext : task.revised.definitionRevision = task.definitionRevision + 1 := rfl
    omega

/-- What an operation makes of the scope and the revision of a task: both stay, the new revision passed the trigger, or
a new scope was bound with it. -/
theorem TaskUpdate.scope {t : String} {a b : TaskRow} {op : StoreOp} (h : TaskUpdate dg db t a op b) :
    (b.currentVerificationScopeId = a.currentVerificationScopeId ∧ b.definitionRevision = a.definitionRevision) ∨
      sealedScopeMatches db t b = true ∨ ∃ binding, op = .bindTaskVerificationScope binding ∧ binding.taskId = t := by
  cases h with
  | dependency dependsOn hs hm => exact Or.inr (Or.inl hm)
  | rescoped binding revision ht => exact Or.inr (Or.inr ⟨binding, rfl, ht⟩)
  | _ => exact Or.inl ⟨rfl, rfl⟩

theorem exec_boundScopes {op : StoreOp} {r : op.Reply} (h : exec dg op db = .ok (r, db')) (hB : BoundScopes db) :
    BoundScopes db' := by
  have hkept := (exec_scopesKept h).scopes
  intro t b scopeId hb hs
  cases ha : db.tasks.get? t with
  | none =>
    rcases exec_tasks_none h ha with hnone | ⟨task, rfl, rfl, hrow⟩
    · rw [hnone] at hb
      cases hb
    · rw [hrow] at hb
      obtain rfl := Option.some.inj hb
      cases hs
  | some a =>
    obtain ⟨b', hb', hu⟩ := exec_tasks_some h ha
    rw [hb'] at hb
    obtain rfl := Option.some.inj hb
    rcases hu.scope with ⟨hscope, hrev⟩ | hm | ⟨binding, rfl, rfl⟩
    · obtain ⟨scope, hold, hmatch⟩ := hB t a scopeId ha (hscope ▸ hs)
      exact ⟨scope, hkept _ _ hold, hmatch.trans hrev.symm⟩
    · obtain ⟨scope, hold, hmatch⟩ := sealedScopeMatches_revision hm hs
      exact ⟨scope, hkept _ _ hold, hmatch⟩
    · obtain ⟨task, scope, scopes, items, _, _, _, rfl, hi, _, _, _, _, rfl⟩ := bindScope_ok dg h
      rw [Table.get?_modify_self, ha] at hb'
      obtain rfl := Option.some.inj hb'
      obtain rfl := Option.some.inj hs
      exact ⟨scope.seal (timestamp binding.now), by simp [Table.get?_insert hi], rfl⟩

end

/-- **Dependencies of unstarted tasks.**  After every sequence of operations, for every edge that is not stored yet:
what raises changes nothing, and the edge is accepted exactly if it is addable, if and only if it is not addable or its
dependent has no bound verification scope. -/
theorem dependency_accepted_iff (dg : Digests) (ops : List StoreOp) (t d : String)
    (hnew : (t, d) ∉ (runOps dg Db.initial ops).dependencies) :
    (∀ e, addTaskDependency (runOps dg Db.initial ops) t d = .error e →
      apply dg (runOps dg Db.initial ops) (.addTaskDependency t d) = runOps dg Db.initial ops) ∧
    (((∃ db', addTaskDependency (runOps dg Db.initial ops) t d = .ok ((), db')) ↔
        ∃ task prerequisite, Addable (runOps dg Db.initial ops) t d task prerequisite) ↔
      ∀ task prerequisite, Addable (runOps dg Db.initial ops) t d task prerequisite →
        task.currentVerificationScopeId = none) := by
  have hinitial : BoundScopes Db.initial := by
    intro t task scopeId ht
    cases ht
  have hB : BoundScopes (runOps dg Db.initial ops) := runOps_invariant exec_boundScopes hinitial ops
  refine ⟨fun e he => by simp [apply, exec, he], fun hiff task prerequisite hadd => ?_, fun hfree => ?_⟩
  · obtain ⟨db', hok⟩ := hiff.mpr ⟨task, prerequisite, hadd⟩
    obtain ⟨task', _, hadd', hm, _⟩ := (addTaskDependency_accepts hnew).mp hok
    obtain rfl : task = task' := Option.some.inj (hadd.dependent.symm.trans hadd'.dependent)
    exact (hB.refuses hadd.dependent).mp hm
  · constructor
    · rintro ⟨db', hok⟩
      obtain ⟨task, prerequisite, hadd, _⟩ := (addTaskDependency_accepts hnew).mp hok
      exact ⟨task, prerequisite, hadd⟩
    · rintro ⟨task, prerequisite, hadd⟩
      have hm := (hB.refuses hadd.dependent).mpr (hfree task prerequisite hadd)
      exact ⟨_, (addTaskDependency_accepts hnew).mpr ⟨task, prerequisite, hadd, hm, rfl⟩⟩

/-- Two READY tasks of one project, the first with a bound scope. -/
def scopedPair : List StoreOp :=
  [.createTask ⟨"t", "p", "#0001", .ready, .single, 0⟩, .createTask ⟨"d", "p", "#0002", .ready, .single, 0⟩,
   .addAcceptanceCriterion ⟨"c", "p", "command", "tests pass", none, none⟩ 0,
   .bindTaskVerificationScope ⟨"t", none, none, none, none, none, "1", fun _ => "1", 0⟩]

/-- The scoped task is READY and no edge is stored, but the store refuses its first dependency. -/
theorem scoped_task_refuses_dependency :
    (runOps .trivial Db.initial scopedPair).dependencies = [] ∧
      ((runOps .trivial Db.initial scopedPair).tasks.get? "t").map TaskRow.state = some .ready ∧
      ((runOps .trivial Db.initial scopedPair).tasks.get? "d").map TaskRow.projectId = some "p" ∧
      (addTaskDependency (runOps .trivial Db.initial scopedPair) "t" "d").map (fun _ => ()) =
        .error (.integrityError "task verification scope must be sealed and match its Task revision") :=
  ⟨by decide, by decide +kernel, by decide +kernel, by decide +kernel⟩

/-- The other task has no scope and is accepted as a dependent. -/
theorem dependency_accepted_iff_unscoped :
    ∃ db', addTaskDependency (runOps .trivial Db.initial scopedPair) "d" "t" = .ok ((), db') := by
  have hedges : (runOps .trivial Db.initial scopedPair).dependencies = [] := by decide
  have hnew : ("d", "t") ∉ (runOps .trivial Db.initial scopedPair).dependencies := by
    rw [hedges]
    exact List.not_mem_nil
  have hadd : Addable (runOps .trivial Db.initial scopedPair) "d" "t"
    ⟨"p", "#0002", .ready, .single, 0, 1, 1, none, none, none⟩
      ⟨"p", "#0001", .ready, .single, 0, 2, 1, some "verification-scope-1", none, none⟩ := by
    refine ⟨by decide, by decide, by decide +kernel, rfl, rfl, fun h => ?_⟩
    have hmem := mem_ancestors.mpr h
    rw [hedges] at hmem
    exact absurd hmem (by decide)
  refine ((dependency_accepted_iff .trivial scopedPair "d" "t" hnew).2.mpr fun task prerequisite h =>
    ?_).mpr ⟨_, _, hadd⟩
  rw [← Option.some.inj (hadd.dependent.symm.trans h.dependent)]

end AgentFabric.Store
