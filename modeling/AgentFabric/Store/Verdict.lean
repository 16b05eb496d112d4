import Mathlib.Data.List.Dedup
import AgentFabric.Store.ScopeSoundness

/-!
# The verdict of a verification

The outcome of a verification as a table over the results, the criteria and the state of the task.
-/

namespace AgentFabric.Store

open AgentFabric.Lib

variable {dg : Digests}

/-- The criteria that a task is judged by: those of its scope, or those of its project. -/
def taskCriteria (db : Db) (task : TaskRow) : List JudgedCriterion :=
  match task.currentVerificationScopeId with
  | some scopeId => (scopeItemsOf db scopeId).map JudgedCriterion.ofItem
  | none => (projectCriteria db task.projectId).map JudgedCriterion.ofCriterion

/-- The scope of a scoped task matches its definition and the stored hashes. -/
def ScopeIntact (dg : Digests) (db : Db) (taskId : String) (task : TaskRow) : Prop :=
  ∀ scopeId, task.currentVerificationScopeId = some scopeId →
    ∃ scope items, db.scopes.get? scopeId = some scope ∧ scope.taskId = taskId ∧
      scope.taskDefinitionRevision = task.definitionRevision ∧ assertScopeIntegrity dg db scopeId scope = .ok items

/-- The identifiers drawn for the verification rows are new and pairwise different. -/
structure FreshVerifications (db : Db) (call : VerificationCall) (criteria : List JudgedCriterion) : Prop where
  distinct : (criteria.map fun c => "verify-" ++ call.uuid c.criterionId).Nodup
  unused : ∀ c ∈ criteria, db.verifications.get? ("verify-" ++ call.uuid c.criterionId) = none

/-- The provenance given is the current scope, revision and latest attempt, and every run of that attempt carries the
scope and the revision. -/
def CurrentProvenance (db : Db) (call : VerificationCall) (task : TaskRow) (scopeId : String) : Prop :=
  ∃ attempt, latestAttempt db call.taskId = some attempt ∧
    call.expectedVerificationScopeId = some scopeId ∧
    call.expectedTaskDefinitionRevision = some (task.definitionRevision : Int) ∧
    call.expectedSourceAttempt = some (attempt : Int) ∧
    ∀ id run, db.runs.get? id = some run → run.taskId = call.taskId → run.attempt = attempt →
      run.verificationScopeId = some scopeId ∧ run.taskDefinitionRevision = some task.definitionRevision

/-- The reasons for which a verification is not applied. -/
inductive VerificationRefused (db : Db) (call : VerificationCall) : Prop
  | unknownTask (h : db.tasks.get? call.taskId = none)
  | notReviewing (task : TaskRow) (ht : db.tasks.get? call.taskId = some task) (h : task.state ≠ .reviewing)
  | noAttempts (maximum : Int) (hm : call.maxAttempts = some maximum) (h : maximum < 1)
  | repeated (h : ¬ (call.result.results.map fun r => r.criterionId).Nodup)
  | unknownCriterion (task : TaskRow) (ht : db.tasks.get? call.taskId = some task) (id : String)
      (hid : (∃ r ∈ call.result.results, r.criterionId = id) ∨ id ∈ call.result.requiredFailures)
      (h : ∀ c ∈ taskCriteria db task, c.criterionId ≠ id)
  | staleProvenance (task : TaskRow) (ht : db.tasks.get? call.taskId = some task) (scopeId : String)
      (hs : task.currentVerificationScopeId = some scopeId) (h : ¬ CurrentProvenance db call task scopeId)

/-- There is a criterion, completion is reported, and each criterion is reported as passed and not required to fail. -/
def EveryCriterionPassed (result : DefinitionOfDoneResult) (criteria : List JudgedCriterion) : Prop :=
  criteria ≠ [] ∧ result.complete = true ∧
    ∀ c ∈ criteria, (∃ r ∈ result.results, r.criterionId = c.criterionId ∧ r.passed = true) ∧
      c.criterionId ∉ result.requiredFailures

/-- The row that a criterion gets: its kind, and whether it was reported as passed. -/
structure RecordsCriterion (call : VerificationCall) (task : TaskRow) (c : JudgedCriterion) (row : VerificationRow) :
    Prop where
  reviewed : row.taskId = call.taskId
  criterion : row.criterionId = some c.sourceCriterionId
  kind : row.kind = c.kind
  item : row.scopeItemId = c.scopeItemId
  scope : row.verificationScopeId = task.currentVerificationScopeId
  passed : row.passed = true ↔ ∃ r ∈ call.result.results, r.criterionId = c.criterionId ∧ r.passed = true

/-! ## The results -/

theorem canonicalResult_criterionId (result : DefinitionOfDoneResult) (c : JudgedCriterion) :
    (canonicalResult result c).criterionId = c.criterionId := by
  unfold canonicalResult
  cases hf : result.results.find? fun r => decide (r.criterionId = c.criterionId) with
  | none => rfl
  | some => simpa using List.find?_some hf

theorem canonicalResult_passed {result : DefinitionOfDoneResult}
    (hn : (result.results.map fun r => r.criterionId).Nodup) (c : JudgedCriterion) :
    (canonicalResult result c).passed = true ↔
      ∃ r ∈ result.results, r.criterionId = c.criterionId ∧ r.passed = true := by
  unfold canonicalResult
  cases hf : result.results.find? fun r => decide (r.criterionId = c.criterionId) with
  | none =>
    rw [List.find?_eq_none] at hf
    refine iff_of_false (by simp) ?_
    rintro ⟨r, hr, hid, -⟩
    exact hf r hr (decide_eq_true hid)
  | some r =>
    have hr := List.mem_of_find?_eq_some hf
    have hid : r.criterionId = c.criterionId := by simpa using List.find?_some hf
    rw [Option.getD_some]
    constructor
    · intro hp
      exact ⟨r, hr, hid, hp⟩
    · rintro ⟨r', hr', hid', hp⟩
      have heq : r' = r := List.inj_on_of_nodup_map hn hr' hr (hid'.trans hid.symm)
      rwa [heq] at hp

variable {criteria : List JudgedCriterion}

theorem verificationComplete_iff {result : DefinitionOfDoneResult}
    (hn : (result.results.map fun r => r.criterionId).Nodup) :
    verificationComplete result criteria = true ↔ EveryCriterionPassed result criteria := by
  simp only [verificationComplete, canonicalFailures, EveryCriterionPassed, Bool.and_eq_true, Bool.not_eq_true',
    List.isEmpty_eq_false_iff, List.isEmpty_iff, List.map_eq_nil_iff, List.filter_eq_nil_iff, List.mem_map,
    forall_exists_index, and_imp, forall_apply_eq_imp_iff₂, and_assoc]
  refine and_congr_right fun _ => and_congr_right fun _ => forall₂_congr fun c _ => ?_
  rw [canonicalResult_criterionId, ← canonicalResult_passed hn]
  simp

/-! ## The judged criteria -/

theorem runsCarryScope_iff {db : Db} {taskId scopeId : String} {revision attempt : Nat}
    (hlatest : latestAttempt db taskId = some attempt) :
    runsCarryScope db taskId scopeId revision attempt = true ↔
      ∀ id run, db.runs.get? id = some run → run.taskId = taskId → run.attempt = attempt →
        run.verificationScopeId = some scopeId ∧ run.taskDefinitionRevision = some revision := by
  constructor
  · intro h id run hr ht ha
    exact runsCarryScope_spec h hr ht ha
  · intro h
    obtain ⟨⟨id, run, hr, ht, ha⟩, -⟩ := latestAttempt_spec hlatest
    simp only [runsCarryScope, Bool.and_eq_true, Bool.not_eq_true', List.isEmpty_eq_false_iff_exists_mem,
      List.all_eq_true, decide_eq_true_eq]
    constructor
    · exact ⟨(id, run), List.mem_filter.mpr ⟨Table.mem_rows.mpr hr, by simp [ht, ha]⟩⟩
    · rintro ⟨id', run'⟩ hmem
      rw [List.mem_filter, Bool.and_eq_true, decide_eq_true_eq, decide_eq_true_eq] at hmem
      exact h id' run' (Table.mem_rows.mp hmem.1) hmem.2.1 hmem.2.2

variable {call : VerificationCall}

theorem judgedCriteria_criteria {db : Db} {task : TaskRow}
    {attempt : Option Nat} (h : judgedCriteria dg db call task = .ok (criteria, attempt)) :
    criteria = taskCriteria db task := by
  unfold judgedCriteria at h
  unfold taskCriteria
  cases hs : task.currentVerificationScopeId with
  | none =>
    rw [hs] at h
    cases h
    rfl
  | some =>
    rw [hs] at h
    simp only [scopedCriteria, bind_eq_ok, ensure_eq_ok, orRaise_eq_ok, pure_eq_ok, Prod.mk.injEq] at h
    obtain ⟨-, -, -, -, scope, -, -, -, items, hi, n, -, -, -, -, -, rfl, -⟩ := h
    rw [assertScopeIntegrity_ok hi]

theorem judgedCriteria_iff {db : Db} {task : TaskRow}
    (hintact : ScopeIntact dg db call.taskId task) :
    (∃ attempt, judgedCriteria dg db call task = .ok (taskCriteria db task, attempt)) ↔
      ∀ scopeId, task.currentVerificationScopeId = some scopeId → CurrentProvenance db call task scopeId := by
  unfold judgedCriteria taskCriteria
  cases hs : task.currentVerificationScopeId with
  | none => simp
  | some scopeId =>
    obtain ⟨scope, items, hscope, ht, hrev, hi⟩ := hintact scopeId hs
    have hitems := assertScopeIntegrity_ok hi
    simp only [Option.some.injEq, forall_eq', scopedCriteria, bind_eq_ok, ensure_eq_ok, orRaise_eq_ok, pure_eq_ok,
      Prod.mk.injEq]
    constructor
    · rintro ⟨-, -, -, -, ⟨hid, hr⟩, -, -, -, -, -, -, n, hlatest, -, hattempt, -, hcarry, -, -⟩
      exact ⟨n, hlatest, hid, hr, hattempt, (runsCarryScope_iff hlatest).mp hcarry⟩
    · rintro ⟨n, hlatest, hid, hr, hattempt, hruns⟩
      refine ⟨some n, (), ⟨?_, ?_, ?_⟩, (), ⟨hid, hr⟩, scope, hscope, (), ⟨ht, hrev⟩, items, hi, n,
        hlatest, (), hattempt,
        (), (runsCarryScope_iff hlatest).mpr hruns, ?_, rfl⟩
      · rw [hid, Option.isSome_some]
      · rw [hr, Option.isSome_some]
      · rw [hattempt, Option.isSome_some]
      · rw [hitems]

/-! ## The call -/

/-- Everything that a call checks, and what it commits. -/
theorem applyTaskVerification_eq_ok {db db' : Db} {target : TaskState} :
    applyTaskVerification dg db call = .ok (target, db') ↔
      ∃ task criteria attempt verifications, db.tasks.get? call.taskId = some task ∧ task.state = .reviewing ∧
        (∀ m, call.maxAttempts = some m → 1 ≤ m) ∧ judgedCriteria dg db call task = .ok (criteria, attempt) ∧
        (call.result.results.map fun r => r.criterionId).Nodup ∧
        (∀ id, (∃ r ∈ call.result.results, r.criterionId = id) ∨ id ∈ call.result.requiredFailures →
          ∃ c ∈ criteria, c.criterionId = id) ∧
        db.verifications.insertAll? (verificationRows call task.currentVerificationScopeId attempt criteria) =
          some verifications ∧
        target = verificationTarget call task criteria ∧
        db' = { db with
          verifications := verifications
          criteria :=
            if task.currentVerificationScopeId.isSome = true then db.criteria
            else criteria.foldl (fun t c => t.modify c.criterionId
              (CriterionRow.decide (canonicalResult call.result c).passed)) db.criteria
          tasks := db.tasks.modify call.taskId fun _ => task.verified target (timestamp call.now) } := by
  simp only [applyTaskVerification, bind_eq_ok, ensure_eq_ok, orRaise_eq_ok, pure_eq_ok, Prod.mk.injEq,
    List.filter_eq_nil_iff, List.mem_dedup, List.mem_append, List.mem_map, decide_eq_true_eq, not_not,
    Option.all_eq_true]
  constructor
  · rintro ⟨task, ht, -, hs, -, hm, ⟨criteria, attempt⟩, hj, -, hn, -, hk, verifications, hv, rfl, rfl⟩
    exact ⟨task, criteria, attempt, verifications, ht, hs, hm, hj, hn, hk, hv, rfl, rfl⟩
  · rintro ⟨task, criteria, attempt, verifications, ht, hs, hm, hj, hn, hk, hv, rfl, rfl⟩
    exact ⟨task, ht, (), hs, (), hm, (criteria, attempt), hj, (), hn, (), hk, verifications, hv, rfl, rfl⟩

/-- A call that is not refused goes through. -/
theorem applyTaskVerification_accepts {db : Db}
    (hintact : ∀ task, db.tasks.get? call.taskId = some task → ScopeIntact dg db call.taskId task)
    (hfresh : ∀ task, db.tasks.get? call.taskId = some task → FreshVerifications db call (taskCriteria db task))
    (h : ¬ VerificationRefused db call) : ∃ target db', applyTaskVerification dg db call = .ok (target, db') := by
  cases ht : db.tasks.get? call.taskId with
  | none => exact absurd (.unknownTask ht) h
  | some task =>
    have hs : task.state = .reviewing := by_contra fun hs => h (.notReviewing task ht hs)
    have hm : ∀ m, call.maxAttempts = some m → 1 ≤ m := by
      intro m hm
      by_contra hlt
      exact h (.noAttempts m hm (by omega))
    have hn : (call.result.results.map fun r => r.criterionId).Nodup := by_contra fun hn => h (.repeated hn)
    have hk : ∀ id, (∃ r ∈ call.result.results, r.criterionId = id) ∨ id ∈ call.result.requiredFailures →
        ∃ c ∈ taskCriteria db task, c.criterionId = id := by
      intro id hid
      by_contra hnone
      push Not at hnone
      exact h (.unknownCriterion task ht id hid hnone)
    obtain ⟨attempt, hj⟩ := (judgedCriteria_iff (hintact task ht)).mpr fun scopeId hscope =>
      by_contra fun hp => h (.staleProvenance task ht scopeId hscope hp)
    have hfresh := hfresh task ht
    obtain ⟨verifications, hv⟩ : ∃ verifications, db.verifications.insertAll?
        (verificationRows call task.currentVerificationScopeId attempt (taskCriteria db task)) = some verifications :=
      Table.insertAll?_of_fresh
      (by simpa only [verificationRows, List.map_map, Function.comp_def] using hfresh.distinct)
      (by simpa only [verificationRows, List.forall_mem_map] using hfresh.unused)
    exact ⟨_, _, applyTaskVerification_eq_ok.mpr
      ⟨task, taskCriteria db task, attempt, verifications, ht, hs, hm, hj, hn, hk, hv, rfl, rfl⟩⟩

theorem not_refused {db db' : Db} {target : TaskState}
    (hintact : ∀ task, db.tasks.get? call.taskId = some task → ScopeIntact dg db call.taskId task)
    (h : applyTaskVerification dg db call = .ok (target, db')) : ¬ VerificationRefused db call := by
  obtain ⟨task, criteria, attempt, -, ht, hs, hm, hj, hn, hk, -, -, -⟩ := applyTaskVerification_eq_ok.mp h
  have hcriteria := judgedCriteria_criteria hj
  subst hcriteria
  intro hrefused
  cases hrefused with
  | unknownTask ht' => exact absurd (ht'.symm.trans ht) (by simp)
  | notReviewing task' ht' hs' =>
    obtain rfl := Option.some.inj (ht'.symm.trans ht)
    exact hs' hs
  | noAttempts m hm' => exact absurd (hm m hm') (by omega)
  | repeated hn' => exact hn' hn
  | unknownCriterion task' ht' id hid hnone =>
    obtain rfl := Option.some.inj (ht'.symm.trans ht)
    obtain ⟨c, hc, hcid⟩ := hk id hid
    exact hnone c hc hcid
  | staleProvenance task' ht' scopeId hscope hp =>
    obtain rfl := Option.some.inj (ht'.symm.trans ht)
    exact hp ((judgedCriteria_iff (hintact _ ht)).mp ⟨attempt, hj⟩ scopeId hscope)

theorem verificationTarget_eq {task : TaskRow}
    (hn : (call.result.results.map fun r => r.criterionId).Nodup) :
    (verificationTarget call task criteria = .succeeded ↔ EveryCriterionPassed call.result criteria) ∧
    (¬ EveryCriterionPassed call.result criteria →
      (verificationTarget call task criteria = .failed ↔
        ∃ m, call.maxAttempts = some m ∧ m ≤ (task.attemptCount : Int)) ∧
      (verificationTarget call task criteria = .ready ↔
        ¬ ∃ m, call.maxAttempts = some m ∧ m ≤ (task.attemptCount : Int))) := by
  rw [← verificationComplete_iff hn]
  have hany : call.maxAttempts.any (fun m => decide (m ≤ (task.attemptCount : Int))) = true ↔
      ∃ m, call.maxAttempts = some m ∧ m ≤ (task.attemptCount : Int) := by
    simp [Option.any_eq_true]
  rw [← hany]
  unfold verificationTarget
  by_cases hc : verificationComplete call.result criteria = true
  · simp [hc]
  · rw [if_neg hc]
    split
    · rename_i ha
      simp [hc, ha]
    · rename_i ha
      simp [hc, ha]

theorem verificationRows_record (task : TaskRow) (attempt : Option Nat)
    (hn : (call.result.results.map fun r => r.criterionId).Nodup) (criteria : List JudgedCriterion) :
    List.Forall₂ (fun c e => RecordsCriterion call task c e.2) criteria
      (verificationRows call task.currentVerificationScopeId attempt criteria) := by
  unfold verificationRows
  rw [List.forall₂_map_right_iff]
  refine List.forall₂_same.mpr fun c _ => ?_
  exact ⟨rfl, rfl, rfl, rfl, rfl, canonicalResult_passed hn c⟩

/-- **Verdict of a verification.** While the scope of the task is intact and the drawn identifiers are new: the call
raises, and leaves every row as it was, exactly for the reasons of `VerificationRefused`; otherwise the task becomes
SUCCEEDED when every criterion passed, else FAILED when the attempts are used up, else READY, and one verification row
per criterion is added. -/
theorem applyTaskVerification_verdict (dg : Digests) {db : Db} {call : VerificationCall}
    (hintact : ∀ task, db.tasks.get? call.taskId = some task → ScopeIntact dg db call.taskId task)
    (hfresh : ∀ task, db.tasks.get? call.taskId = some task → FreshVerifications db call (taskCriteria db task)) :
    (VerificationRefused db call ↔ (∃ e, applyTaskVerification dg db call = .error e) ∧
      apply dg db (.applyTaskVerification call) = db) ∧
    (¬ VerificationRefused db call → ∃ task target db' rows, db.tasks.get? call.taskId = some task ∧
      applyTaskVerification dg db call = .ok (target, db') ∧
      db'.tasks.get? call.taskId = some (task.verified target (timestamp call.now)) ∧
      (target = .succeeded ↔ EveryCriterionPassed call.result (taskCriteria db task)) ∧
      (¬ EveryCriterionPassed call.result (taskCriteria db task) →
        (target = .failed ↔ ∃ m, call.maxAttempts = some m ∧ m ≤ (task.attemptCount : Int)) ∧
        (target = .ready ↔ ¬ ∃ m, call.maxAttempts = some m ∧ m ≤ (task.attemptCount : Int))) ∧
      db'.verifications.rows = db.verifications.rows ++ rows ∧
      List.Forall₂ (fun c e => RecordsCriterion call task c e.2) (taskCriteria db task) rows) := by
  constructor
  · constructor
    · intro hrefused
      cases hcall : applyTaskVerification dg db call with
      | error e => exact ⟨⟨e, rfl⟩, by simp [apply, exec, hcall]⟩
      | ok r => exact absurd hrefused (not_refused hintact hcall)
    · rintro ⟨⟨e, he⟩, -⟩
      by_contra hrefused
      obtain ⟨target, db', hok⟩ := applyTaskVerification_accepts hintact hfresh hrefused
      rw [he] at hok
      cases hok
  · intro hrefused
    obtain ⟨target, db', hok⟩ := applyTaskVerification_accepts hintact hfresh hrefused
    obtain ⟨task, criteria, attempt, verifications, ht, -, -, hj, hn, -, hv, rfl, rfl⟩ :=
      applyTaskVerification_eq_ok.mp hok
    obtain rfl := judgedCriteria_criteria hj
    have htarget := @verificationTarget_eq (taskCriteria db task) call task hn
    refine ⟨task, _, _, _, ht, hok, ?_, htarget.1, htarget.2, Table.insertAll?_rows hv,
      verificationRows_record task attempt hn _⟩
    rw [Table.get?_modify_self, ht, Option.map_some]

def reviewedScope : ScopeRow := ⟨"p", "t", 1, 1, none, none, none, none, "task-verification-scope/v1", "", some 0⟩

/-- Its only item. -/
def reviewedItem : ScopeItemRow :=
  ⟨"verification-scope-1", ⟨"c", "command", "tests pass", none, none, true⟩, "c", 0, ""⟩

/-- The task under review passes its only criterion. -/
theorem applyTaskVerification_verdict_review :
    VerificationRefused (runOps .trivial Db.initial scopedReview) scopedReviewCall ↔
      (∃ e, applyTaskVerification .trivial (runOps .trivial Db.initial scopedReview) scopedReviewCall = .error e) ∧
        apply .trivial (runOps .trivial Db.initial scopedReview) (.applyTaskVerification scopedReviewCall) =
          runOps .trivial Db.initial scopedReview := by
  have hreview : (runOps .trivial Db.initial scopedReview).tasks.get? "t" =
      some ⟨"p", "#0001", .reviewing, .single, 1, 4, 1, some "verification-scope-1", some 0, none⟩ := by
    decide
  have hitems : scopeItemsOf (runOps .trivial Db.initial scopedReview) "verification-scope-1" =
      [("verification-scope-item-1", reviewedItem)] := by decide
  refine (@applyTaskVerification_verdict .trivial _ scopedReviewCall ?_ ?_).1
  · intro task ht
    obtain rfl := Option.some.inj (hreview.symm.trans ht)
    intro scopeId hs
    obtain rfl := Option.some.inj hs
    exact ⟨reviewedScope, [("verification-scope-item-1", reviewedItem)], by decide, rfl, rfl, by decide +kernel⟩
  · intro task ht
    obtain rfl := Option.some.inj (hreview.symm.trans ht)
    have hempty : (runOps .trivial Db.initial scopedReview).verifications = Table.empty := by decide
    have hcriteria : taskCriteria (runOps .trivial Db.initial scopedReview)
        ⟨"p", "#0001", .reviewing, .single, 1, 4, 1, some "verification-scope-1", some 0, none⟩ =
          [JudgedCriterion.ofItem ("verification-scope-item-1", reviewedItem)] := by
      simp only [taskCriteria, hitems, List.map_cons, List.map_nil]
    rw [hcriteria]
    exact ⟨List.nodup_singleton _, fun c _ => by rw [hempty]; rfl⟩

end AgentFabric.Store
