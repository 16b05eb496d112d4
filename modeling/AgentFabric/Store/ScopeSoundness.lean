import Mathlib.Data.List.Range
import AgentFabric.Store.Changes

/-!
# Verification scope soundness

A verification that succeeds over a scope was evaluated against the criteria of that scope.
-/

namespace AgentFabric.Store

open AgentFabric.Lib

variable {dg : Digests}

/-! ## A successful scoped verification -/

/-- The result was evaluated against the task's scope, revision and latest attempt, and passed every criterion. -/
structure ScopedSuccess (db : Db) (call : VerificationCall) (task : TaskRow) (scopeId : String) (attempt : Nat) :
    Prop where
  evaluatedScope : call.expectedVerificationScopeId = some scopeId
  evaluatedRevision : call.expectedTaskDefinitionRevision = some (task.definitionRevision : Int)
  evaluatedAttempt : call.expectedSourceAttempt = some (attempt : Int)
  scopeCurrent : ∃ scope, db.scopes.get? scopeId = some scope ∧ scope.taskId = call.taskId ∧
    scope.taskDefinitionRevision = task.definitionRevision
  latest : (∃ id run, db.runs.get? id = some run ∧ run.taskId = call.taskId ∧ run.attempt = attempt) ∧
    ∀ id run, db.runs.get? id = some run → run.taskId = call.taskId → run.attempt ≤ attempt
  runsCarry : ∀ id run, db.runs.get? id = some run → run.taskId = call.taskId → run.attempt = attempt →
    run.verificationScopeId = some scopeId ∧ run.taskDefinitionRevision = some task.definitionRevision
  criteriaPass : ∀ id item, db.scopeItems.get? id = some item → item.scopeId = scopeId →
    ∃ result ∈ call.result.results, result.criterionId = item.snapshot.criterionId ∧ result.passed = true ∧
      result.criterionId ∉ call.result.requiredFailures

variable {db db' : Db} {scopeId taskId id t : String}

theorem mem_scopeItemsOf {e : String × ScopeItemRow} :
    e ∈ scopeItemsOf db scopeId ↔ db.scopeItems.get? e.1 = some e.2 ∧ e.2.scopeId = scopeId := by
  simp only [scopeItemsOf, List.mem_insertionSort, List.mem_filter, decide_eq_true_eq]
  rw [show e = (e.1, e.2) from rfl, Table.mem_rows]

theorem assertScopeIntegrity_ok {scope : ScopeRow} {items : List (String × ScopeItemRow)}
    (h : assertScopeIntegrity dg db scopeId scope = .ok items) : items = scopeItemsOf db scopeId := by
  simp only [assertScopeIntegrity, bind_eq_ok, ensure_eq_ok, pure_eq_ok] at h
  obtain ⟨-, -, -, -, -, -, -, -, rfl⟩ := h
  rfl

theorem latestAttempt_spec {attempt : Nat} (h : latestAttempt db taskId = some attempt) :
    (∃ id run, db.runs.get? id = some run ∧ run.taskId = taskId ∧ run.attempt = attempt) ∧
      ∀ id run, db.runs.get? id = some run → run.taskId = taskId → run.attempt ≤ attempt := by
  rw [latestAttempt, List.max?_eq_some_iff] at h
  obtain ⟨hmem, hmax⟩ := h
  constructor
  · obtain ⟨⟨id, run⟩, hm, ha⟩ := List.mem_map.mp hmem
    rw [List.mem_filter, decide_eq_true_eq] at hm
    exact ⟨id, run, Table.mem_rows.mp hm.1, hm.2, ha⟩
  · intro id run hr ht
    refine hmax _ (List.mem_map.mpr ⟨(id, run), List.mem_filter.mpr ⟨Table.mem_rows.mpr hr, ?_⟩, rfl⟩)
    exact decide_eq_true ht

theorem runsCarryScope_spec {revision attempt : Nat} (h : runsCarryScope db taskId scopeId revision attempt = true)
    {run : RunRow} (hr : db.runs.get? id = some run) (ht : run.taskId = taskId) (ha : run.attempt = attempt) :
    run.verificationScopeId = some scopeId ∧ run.taskDefinitionRevision = some revision := by
  simp only [runsCarryScope, Bool.and_eq_true, List.all_eq_true, decide_eq_true_eq] at h
  refine h.2 (id, run) (List.mem_filter.mpr ⟨Table.mem_rows.mpr hr, ?_⟩)
  simp [ht, ha]

theorem complete_passes {result : DefinitionOfDoneResult} {criteria : List JudgedCriterion}
    (h : verificationComplete result criteria = true) {c : JudgedCriterion} (hc : c ∈ criteria) :
    ∃ r ∈ result.results, r.criterionId = c.criterionId ∧ r.passed = true ∧
      r.criterionId ∉ result.requiredFailures := by
  simp only [verificationComplete, canonicalFailures, Bool.and_eq_true, List.isEmpty_iff, List.map_eq_nil_iff,
    List.filter_eq_nil_iff, List.mem_map] at h
  have hpass := h.2 (canonicalResult result c) ⟨c, hc, rfl⟩
  simp only [Bool.or_eq_true, Bool.not_eq_true', decide_eq_true_eq, not_or, Bool.not_eq_false] at hpass
  unfold canonicalResult at hpass
  -- a criterion that was not reported has the failed default
  cases hf : result.results.find? fun r => decide (r.criterionId = c.criterionId) with
  | none => simp [hf] at hpass
  | some r =>
    rw [hf, Option.getD_some] at hpass
    refine ⟨r, List.mem_of_find?_eq_some hf, ?_, hpass.1, hpass.2⟩
    simpa using List.find?_some hf

theorem scopedSuccess_of_judged {call : VerificationCall} {task : TaskRow} {criteria : List JudgedCriterion}
    {attempt : Option Nat} (h : scopedCriteria dg db call task scopeId = .ok (criteria, attempt))
    (hc : verificationComplete call.result criteria = true) :
    ∃ n, attempt = some n ∧ ScopedSuccess db call task scopeId n := by
  simp only [scopedCriteria, bind_eq_ok, ensure_eq_ok, orRaise_eq_ok, pure_eq_ok, Prod.mk.injEq] at h
  obtain ⟨-, -, -, ⟨hs, hr⟩, scope, hscope, -, ⟨ht, hrev⟩, items, hi, n, hlatest, -, hattempt, -, hcarry, rfl, rfl⟩ := h
  refine ⟨n, rfl, hs, hr, hattempt, ⟨scope, hscope, ht, hrev⟩, latestAttempt_spec hlatest, ?_, ?_⟩
  · intro id run hrun htask hat
    exact runsCarryScope_spec hcarry hrun htask hat
  · intro id item hitem hid
    rw [assertScopeIntegrity_ok hi] at hc
    exact complete_passes hc (List.mem_map.mpr ⟨(id, item), mem_scopeItemsOf.mpr ⟨hitem, hid⟩, rfl⟩)

theorem scoped_success {call : VerificationCall} {task task' : TaskRow} (ht : db.tasks.get? t = some task)
    (hscope : task.currentVerificationScopeId = some scopeId) (hbefore : task.state ≠ .succeeded)
    (ht' : (apply dg db (.applyTaskVerification call)).tasks.get? t = some task') (hafter : task'.state = .succeeded)
    :
    call.taskId = t ∧ ∃ attempt, ScopedSuccess db call task scopeId attempt := by
  rcases apply_cases dg db (.applyTaskVerification call) with h | ⟨r, h⟩
  · rw [h, ht] at ht'
    cases ht'
    exact absurd hafter hbefore
  · obtain ⟨b, hb, hu⟩ := exec_tasks_some h ht
    rw [hb] at ht'
    cases ht'
    cases hu with
    | same => exact absurd hafter hbefore
    | verified _ criteria attempt htask hs hj =>
      refine ⟨htask, ?_⟩
      have hcomplete : verificationComplete call.result criteria = true := by
        simp only [TaskRow.verified, verificationTarget] at hafter
        split at hafter
        · assumption
        · split at hafter <;> cases hafter
      simp only [judgedCriteria, hscope] at hj
      obtain ⟨n, -, hn⟩ := scopedSuccess_of_judged hj hcomplete
      exact ⟨n, hn⟩

/-! ## Versions -/

/-- The criteria versions bound for a task, in the order they were bound. -/
def scopeVersions (scopes : Table String ScopeRow) (t : String) : List Nat :=
  (scopes.rows.filter fun e => decide (e.2.taskId = t)).map fun e => e.2.criteriaVersion

theorem latestCriteriaVersion_eq {n : Nat} (h : scopeVersions db.scopes t = List.range' 1 n) :
    latestCriteriaVersion db t = n := by
  show (scopeVersions db.scopes t).max?.getD 0 = n
  rw [h]
  cases n with
  | zero => rfl
  | succ n =>
    have hmax : (List.range' 1 (n + 1)).max? = some (n + 1) := by
      rw [List.max?_eq_some_iff]
      constructor
      · rw [List.mem_range'_1]
        omega
      · intro b hb
        rw [List.mem_range'_1] at hb
        omega
    rw [hmax]
    rfl

theorem scopeVersions_seal (scopes : Table String ScopeRow) (id t : String) (now : Nat) :
    scopeVersions (scopes.modify id fun s => s.seal now) t = scopeVersions scopes t := by
  have hrow : ∀ e : String × ScopeRow,
      (Table.rewrite (fun k' _ => decide (k' = id)) (fun s => s.seal now) e).2.taskId = e.2.taskId ∧
      (Table.rewrite (fun k' _ => decide (k' = id)) (fun s => s.seal now) e).2.criteriaVersion =
        e.2.criteriaVersion := by
    intro e
    unfold Table.rewrite
    dsimp only
    split <;> exact ⟨rfl, rfl⟩
  show ((scopes.rows.map _).filter _).map _ = _
  rw [List.filter_map, List.map_map, scopeVersions]
  congr 1
  · funext e
    exact (hrow e).2
  · congr 1
    funext e
    simp only [Function.comp, (hrow e).1]

theorem scopeVersions_insert {scopes scopes' : Table String ScopeRow} {scope : ScopeRow}
    (h : scopes.insert? id scope = some scopes') (t : String) :
    scopeVersions scopes' t = scopeVersions scopes t ++ if scope.taskId = t then [scope.criteriaVersion] else [] := by
  simp only [scopeVersions, Table.insert?_rows h, List.filter_append, List.map_append]
  by_cases ht : scope.taskId = t <;> simp [ht]

/-- Every operation keeps the versions of scopes consecutive. -/
theorem exec_scopeVersions {op : StoreOp} {r : op.Reply} (h : exec dg op db = .ok (r, db'))
    (hv : ∀ t, ∃ n, scopeVersions db.scopes t = List.range' 1 n) :
    ∀ t, ∃ n, scopeVersions db'.scopes t = List.range' 1 n := by
  cases op with
  | bindTaskVerificationScope =>
    obtain ⟨_, scope, scopes, _, _, _, _, rfl, hi, _, _, htask, hversion, rfl⟩ := bindScope_ok dg h
    intro t
    obtain ⟨n, hn⟩ := hv t
    simp only [scopeVersions_seal, scopeVersions_insert hi]
    by_cases ht : scope.taskId = t
    · refine ⟨n + 1, ?_⟩
      rw [if_pos ht, hversion, ← htask, ht, latestCriteriaVersion_eq hn, hn, List.range'_concat]
      congr 2
      omega
    · exact ⟨n, by rw [if_neg ht, List.append_nil]; exact hn⟩
  | _ =>
    rw [(exec_frame h).scopes rfl]
    exact hv

/-! ## Earlier versions -/

/-- Scopes and items stay as they are, and a scope that exists gains no item. -/
structure ScopesKept (db db' : Db) : Prop where
  scopes : ∀ id scope, db.scopes.get? id = some scope → db'.scopes.get? id = some scope
  items : ∀ id item, db.scopeItems.get? id = some item → db'.scopeItems.get? id = some item
  closed : ∀ id item, db'.scopeItems.get? id = some item → (∃ scope, db.scopes.get? item.scopeId = some scope) →
    db.scopeItems.get? id = some item

theorem ScopesKept.refl (db : Db) : ScopesKept db db := ⟨fun _ _ h => h, fun _ _ h => h, fun _ _ h _ => h⟩

theorem ScopesKept.trans {a b c : Db} (hab : ScopesKept a b) (hbc : ScopesKept b c) : ScopesKept a c where
  scopes id scope h := hbc.scopes id scope (hab.scopes id scope h)
  items id item h := hbc.items id item (hab.items id item h)
  closed id item h := by
    rintro ⟨scope, hs⟩
    exact hab.closed id item (hbc.closed id item h ⟨scope, hab.scopes _ scope hs⟩) ⟨scope, hs⟩

/-- Every operation keeps the scopes and their items. -/
theorem exec_scopesKept {op : StoreOp} {r : op.Reply} (h : exec dg op db = .ok (r, db')) :
    ScopesKept db db' := by
  cases op with
  | bindTaskVerificationScope binding =>
    obtain ⟨_, scope, scopes, items, newItems, _, _, rfl, hi, hit, hnew, _, _, rfl⟩ := bindScope_ok dg h
    refine ⟨?_, ?_, ?_⟩
    · intro id row hrow
      have hne : id ≠ binding.scopeId := by
        rintro rfl
        rw [Table.insert?_fresh hi] at hrow
        cases hrow
      simp [hne, Table.get?_insert hi, hrow]
    · intro id item hitem
      exact (Table.get?_insertAll hit).mpr (Or.inl hitem)
    · rintro id item hitem ⟨row, hrow⟩
      rcases (Table.get?_insertAll hit).mp hitem with hold | hmem
      · exact hold
      · -- the new items belong to the new scope, which did not exist
        rw [hnew _ hmem, Table.insert?_fresh hi] at hrow
        cases hrow
  | _ =>
    have hs := (exec_frame h).scopes rfl
    have hit := (exec_frame h).scopeItems rfl
    exact ⟨fun id row hr => by rw [hs]; exact hr, fun id item hr => by rw [hit]; exact hr,
      fun id item hr _ => by rw [hit] at hr; exact hr⟩

/-- **Verification scope soundness.** In every state reached by store operations: a verification turns a scoped task
into SUCCEEDED only with the provenance of `ScopedSuccess`; the scope versions of a task are `1..n`; scopes and items
bound earlier are still there, unchanged and complete; and a rejected operation leaves the database as it was. -/
theorem verification_scope_soundness (dg : Digests) (ops : List StoreOp) :
    (∀ call t scopeId task task', (runOps dg Db.initial ops).tasks.get? t = some task →
      task.currentVerificationScopeId = some scopeId → task.state ≠ .succeeded →
      (apply dg (runOps dg Db.initial ops) (.applyTaskVerification call)).tasks.get? t = some task' →
      task'.state = .succeeded →
      call.taskId = t ∧ ∃ attempt, ScopedSuccess (runOps dg Db.initial ops) call task scopeId attempt) ∧
    (∀ t, ∃ n, scopeVersions (runOps dg Db.initial ops).scopes t = List.range' 1 n) ∧
    (∀ pre, pre <+: ops → ScopesKept (runOps dg Db.initial pre) (runOps dg Db.initial ops)) ∧
    (∀ op e, exec dg op (runOps dg Db.initial ops) = .error e →
      apply dg (runOps dg Db.initial ops) op = runOps dg Db.initial ops) := by
  refine ⟨?_, ?_, ?_, ?_⟩
  · intro call t scopeId task task' ht hscope hbefore ht' hafter
    exact scoped_success ht hscope hbefore ht' hafter
  · exact runOps_invariant (P := fun db => ∀ t, ∃ n, scopeVersions db.scopes t = List.range' 1 n) exec_scopeVersions
      (fun t => ⟨0, rfl⟩) ops
  · rintro pre ⟨post, rfl⟩
    rw [runOps_append]
    exact runOps_relation ScopesKept.refl ScopesKept.trans exec_scopesKept _ post
  · intro op e he
    simp [apply, he]

/-- A scoped task whose first attempt is under review. -/
def scopedReview : List StoreOp :=
  [.createTask ⟨"t", "p", "#0001", .ready, .single, 0⟩,
   .addAcceptanceCriterion ⟨"c", "p", "command", "tests pass", none, none⟩ 0,
   .bindTaskVerificationScope ⟨"t", none, none, none, none, none, "1", fun _ => "1", 0⟩,
   .upsertWorker "w" ⟨.idle, .available, none⟩,
   .claimTaskDispatch ⟨"t", ["w"], 2, none, some "A", 30000000, none, fun _ => "1", 0⟩,
   .transitionTask "t" .reviewing none (.held "A" 1) ⟨0, 0⟩]

/-- The call that passes its only criterion. -/
def scopedReviewCall : VerificationCall :=
  ⟨"t", ⟨true, [⟨"c", true, none⟩], []⟩, none, some "verification-scope-1", some 1, some 1, fun _ => "1", 0⟩

/-- That call succeeds, with full provenance. -/
theorem verification_scope_soundness_review :
    ∃ attempt, ScopedSuccess (runOps .trivial Db.initial scopedReview) scopedReviewCall
      ⟨"p", "#0001", .reviewing, .single, 1, 4, 1, some "verification-scope-1", some 0, none⟩
      "verification-scope-1" attempt :=
  ((verification_scope_soundness .trivial scopedReview).1 scopedReviewCall "t" _
    ⟨"p", "#0001", .reviewing, .single, 1, 4, 1, some "verification-scope-1", some 0, none⟩
    ⟨"p", "#0001", .succeeded, .single, 1, 5, 1, some "verification-scope-1", some 0, some 0⟩
    (by decide) rfl (by decide) (by decide +kernel) rfl).2

end AgentFabric.Store
