import Mathlib.Data.List.Range
import AgentFabric.Store.Changes

/-!
# Attempt accounting

The attempt count of a task against its runs, for tasks that only dispatchers start.
-/

namespace AgentFabric.Store

open AgentFabric.Lib

variable {dg : Digests}

/-- A successful claim, with the database that it was made on. -/
structure ClaimRecord where
  before : Db
  args : DispatchArgs
  claim : DispatchClaim

/-- The successful claim of an operation, if it is one. -/
def claimOf (dg : Digests) (db : Db) : StoreOp → List ClaimRecord
  | .claimTaskDispatch args =>
    match claimTaskDispatch dg db args with
    | .ok (some claim, _) => [⟨db, args, claim⟩]
    | _ => []
  | _ => []

/-- The successful claims of a sequence of operations, in order. -/
def claims (dg : Digests) (db : Db) : List StoreOp → List ClaimRecord
  | [] => []
  | op :: ops => claimOf dg db op ++ claims dg (apply dg db op) ops

def claimsFor (history : List ClaimRecord) (t : String) : List ClaimRecord :=
  history.filter fun c => decide (c.args.taskId = t)

/-- The operations of the dispatch system: tasks are submitted without attempts, and runs come from claims. -/
def StoreOp.dispatches : StoreOp → Bool
  | .createTask task => decide (task.attemptCount = 0)
  | .createWorkerRun .. => false
  | _ => true

/-- The run was created by this claim, with the scope and revision that the task had then. -/
def ClaimRecord.Created (c : ClaimRecord) (id : String) (run : RunRow) : Prop :=
  c.args.taskId = run.taskId ∧ c.claim.attempt = run.attempt ∧ (run.workerId, id) ∈ c.claim.runIds ∧
    ∃ task, c.before.tasks.get? c.args.taskId = some task ∧
      run.verificationScopeId = task.currentVerificationScopeId ∧
      run.taskDefinitionRevision = some task.definitionRevision

/-- Every prerequisite of the claimed task had succeeded. -/
def ClaimRecord.PrerequisitesSucceeded (c : ClaimRecord) : Prop :=
  ∀ p, (c.args.taskId, p) ∈ c.before.dependencies →
    ∃ row, c.before.tasks.get? p = some row ∧ row.state = .succeeded

/-- The claims of a task are numbered `1..attempt_count` and every run belongs to one of them (`AttemptInv.step`,
`AttemptInv.run`). -/
structure AttemptInv (db : Db) (history : List ClaimRecord) : Prop where
  /-- The attempts of a task are numbered from one to its attempt count. -/
  numbered : ∀ t task, db.tasks.get? t = some task →
    (claimsFor history t).map (fun c => c.claim.attempt) = List.range' 1 task.attemptCount
  /-- Only existing tasks were claimed. -/
  existing : ∀ c ∈ history, ∃ task, db.tasks.get? c.args.taskId = some task
  created : ∀ id run, db.runs.get? id = some run → ∃ c ∈ history, c.Created id run
  prerequisites : ∀ e ∈ db.dependencies, ∃ row, db.tasks.get? e.2 = some row
  satisfied : ∀ c ∈ history, c.PrerequisitesSucceeded
  bounded : ∀ c ∈ history, ∀ m, c.args.maxAttempts = some m → c.claim.attempt ≤ m

theorem AttemptInv.initial : AttemptInv Db.initial [] where
  numbered _ _ h := by simp [Db.initial] at h
  existing _ h := by cases h
  created _ _ h := by simp [Db.initial] at h
  prerequisites _ h := by cases h
  satisfied _ h := by cases h
  bounded _ h := by cases h

/-! ## One operation -/

theorem TaskUpdate.attemptCount {db : Db} {t : String} {a b : TaskRow} {op : StoreOp}
    (h : TaskUpdate dg db t a op b) (hd : op.dispatches = true) (hq : ∀ args, op ≠ .claimTaskDispatch args) :
    b.attemptCount = a.attemptCount := by
  cases h with
  | claimed args => exact absurd rfl (hq args)
  | counted => cases hd
  | _ => rfl

variable {op : StoreOp} {db db' : Db}

variable {r : op.Reply}

theorem exec_dependencies (h : exec dg op db = .ok (r, db')) {e : String × String} (he : e ∈ db'.dependencies) :
    e ∈ db.dependencies ∨ ∃ row, db.tasks.get? e.2 = some row := by
  cases op with
  | addTaskDependency =>
    rcases addTaskDependency_ok h with rfl | ⟨_, prerequisite, _, hp, _, _, rfl⟩
    · exact Or.inl he
    · rcases List.mem_append.mp he with he | he
      · exact Or.inl he
      · rw [List.mem_singleton] at he
        exact Or.inr ⟨prerequisite, by rw [he]; exact hp⟩
  | _ => exact Or.inl (by rw [← (exec_frame h).dependencies rfl]; exact he)

theorem prerequisites_exist (h : exec dg op db = .ok (r, db'))
    (hp : ∀ e ∈ db.dependencies, ∃ row, db.tasks.get? e.2 = some row) :
    ∀ e ∈ db'.dependencies, ∃ row, db'.tasks.get? e.2 = some row := by
  intro e he
  have hrow : ∃ row, db.tasks.get? e.2 = some row := by
    rcases exec_dependencies h he with hold | hnew
    · exact hp e hold
    · exact hnew
  obtain ⟨row, hr⟩ := hrow
  obtain ⟨row', hr', -⟩ := exec_tasks_some h hr
  exact ⟨row', hr'⟩

variable {history : List ClaimRecord}

theorem created_kept (h : exec dg op db = .ok (r, db'))
    (hc : ∀ id run, db.runs.get? id = some run → ∃ c ∈ history, c.Created id run) {id : String} {a run : RunRow}
    (ha : db.runs.get? id = some a) (hr : db'.runs.get? id = some run) :
    ∃ c ∈ history, c.Created id run := by
  obtain ⟨b, hb, hu⟩ := exec_runs_some h ha
  rw [hb] at hr
  cases hr
  obtain ⟨htask, hworker, hattempt, hscope, hrev⟩ := hu.ident
  obtain ⟨c, hm, ht, hat, hmem, task, htk, hs, hv⟩ := hc id a ha
  exact ⟨c, hm, ht.trans htask.symm, hat.trans hattempt.symm, by rw [hworker]; exact hmem, task, htk,
    hscope.trans hs, hrev.trans hv⟩

/-- Everything but a claim keeps the accounting. -/
theorem AttemptInv.quiet (inv : AttemptInv db history) (h : exec dg op db = .ok (r, db')) (hd : op.dispatches = true)
    (hq : ∀ args, op ≠ .claimTaskDispatch args) : AttemptInv db' history where
  numbered t b hb := by
    cases ha : db.tasks.get? t with
    | some a =>
      obtain ⟨b', hb', hu⟩ := exec_tasks_some h ha
      rw [hb'] at hb
      cases hb
      rw [hu.attemptCount hd hq]
      exact inv.numbered t a ha
    | none =>
      rcases exec_tasks_none h ha with hn | ⟨task, rfl, rfl, hn⟩
      · rw [hn] at hb
        cases hb
      · -- a new task has no attempts and no claims
        rw [hn] at hb
        cases hb
        have hzero : task.attemptCount = 0 := by simpa [StoreOp.dispatches] using hd
        have hempty : claimsFor history task.id = [] := by
          rw [claimsFor, List.filter_eq_nil_iff]
          intro c hc heq
          obtain ⟨row, hrow⟩ := inv.existing c hc
          rw [of_decide_eq_true heq, ha] at hrow
          cases hrow
        simp [hempty, NewTask.row, hzero]
  existing c hc := by
    obtain ⟨task, ht⟩ := inv.existing c hc
    obtain ⟨b, hb, -⟩ := exec_tasks_some h ht
    exact ⟨b, hb⟩
  created id run hr := by
    cases ha : db.runs.get? id with
    | some => exact created_kept h inv.created ha hr
    | none =>
      rcases exec_runs_none h ha hr with ⟨args, -, rfl, -⟩ | ⟨_, _, _, _, _, _, _, rfl, -⟩
      · exact absurd rfl (hq args)
      · cases hd
  prerequisites := prerequisites_exist h inv.prerequisites
  satisfied := inv.satisfied
  bounded := inv.bounded

theorem claimsFor_append (history : List ClaimRecord) (c : ClaimRecord) (t : String) :
    claimsFor (history ++ [c]) t = claimsFor history t ++ if c.args.taskId = t then [c] else [] := by
  by_cases h : c.args.taskId = t <;> simp [claimsFor, h]

theorem succeeded_of_satisfied {t : String} (hu : unsatisfiedDependency db t = false)
    (hp : ∀ e ∈ db.dependencies, ∃ row, db.tasks.get? e.2 = some row) :
    ∀ p, (t, p) ∈ db.dependencies → ∃ row, db.tasks.get? p = some row ∧ row.state = .succeeded := by
  intro p he
  obtain ⟨row, hrow⟩ := hp (t, p) he
  simp only [unsatisfiedDependency, List.any_eq_false] at hu
  have := hu (t, p) he
  simp only [hrow] at this
  exact ⟨row, hrow, by simpa using this⟩

/-- A claim opens the next attempt of its task. -/
theorem AttemptInv.claimed {args : DispatchArgs} {claim : DispatchClaim} (inv : AttemptInv db history)
    (h : exec dg (.claimTaskDispatch args) db = .ok (some claim, db')) :
    AttemptInv db' (history ++ [⟨db, args, claim⟩]) := by
  rcases claimTaskDispatch_ok h with ⟨hnone, -⟩ | ⟨task, runs, ht, hs, -, hm, hu, hi, -, hruns, hclaim, hdb⟩
  · cases hnone
  cases hclaim
  refine ⟨?_, ?_, ?_, prerequisites_exist h inv.prerequisites, ?_, ?_⟩
  · intro t b hb
    rw [hdb] at hb
    simp only [Table.get?_modify] at hb
    rw [claimsFor_append]
    by_cases heq : t = args.taskId
    · subst heq
      rw [if_pos rfl, ht] at hb
      cases hb
      rw [if_pos rfl, List.map_append, inv.numbered _ task ht]
      simp only [TaskRow.claim, List.map_cons, List.map_nil]
      rw [List.range'_concat]
      congr 2
      omega
    · rw [if_neg heq] at hb
      rw [if_neg (fun e => heq e.symm), List.append_nil]
      exact inv.numbered t b hb
  · intro c hc
    have hold : ∃ row, db.tasks.get? c.args.taskId = some row := by
      rcases List.mem_append.mp hc with hc | hc
      · exact inv.existing c hc
      · rw [List.mem_singleton.mp hc]
        exact ⟨task, ht⟩
    obtain ⟨row, hrow⟩ := hold
    obtain ⟨b, hb, -⟩ := exec_tasks_some h hrow
    exact ⟨b, hb⟩
  · intro id run hrun
    rw [hdb] at hrun
    rcases (Table.get?_insertAll hruns).mp hrun with hold | hnew
    · obtain ⟨c, hc, hcr⟩ := inv.created id run hold
      exact ⟨c, List.mem_append_left _ hc, hcr⟩
    · obtain ⟨w, hw, heq⟩ := List.mem_map.mp hnew
      cases heq
      refine ⟨_, List.mem_append_right _ (List.mem_singleton_self _), rfl, rfl, ?_, task, ht, rfl, rfl⟩
      exact List.mem_map.mpr ⟨w, hw, rfl⟩
  · intro c hc
    rcases List.mem_append.mp hc with hc | hc
    · exact inv.satisfied c hc
    · rw [List.mem_singleton.mp hc]
      exact succeeded_of_satisfied hu inv.prerequisites
  · intro c hc m hmax
    rcases List.mem_append.mp hc with hc | hc
    · exact inv.bounded c hc m hmax
    · rw [List.mem_singleton.mp hc] at hmax ⊢
      exact hm m hmax

/-- Every operation of the dispatch system keeps the accounting. -/
theorem AttemptInv.step (inv : AttemptInv db history) (hd : op.dispatches = true) :
    AttemptInv (apply dg db op) (history ++ claimOf dg db op) := by
  by_cases hq : ∀ args, op ≠ .claimTaskDispatch args
  · have hnil : claimOf dg db op = [] := by
      cases op with
      | claimTaskDispatch args => exact absurd rfl (hq args)
      | _ => rfl
    rw [hnil, List.append_nil]
    rcases apply_cases dg db op with h | ⟨r, h⟩
    · rw [h]; exact inv
    · exact inv.quiet h hd hq
  · push Not at hq
    obtain ⟨args, rfl⟩ := hq
    cases h : exec dg (.claimTaskDispatch args) db with
    | error e =>
      have hc : claimTaskDispatch dg db args = .error e := h
      simpa [apply, h, claimOf, hc] using inv
    | ok p =>
      obtain ⟨claim, db'⟩ := p
      have hc : claimTaskDispatch dg db args = .ok (claim, db') := h
      cases claim with
      | some => simpa [apply, h, claimOf, hc] using inv.claimed h
      | none =>
        rcases claimTaskDispatch_ok hc with ⟨-, rfl⟩ | ⟨_, _, _, _, _, _, _, _, _, _, hsome, _⟩
        · simpa [apply, h, claimOf, hc] using inv
        · cases hsome

/-- Operations of dispatchers keep the invariant. -/
theorem AttemptInv.run {db : Db} {history : List ClaimRecord} (inv : AttemptInv db history) :
    ∀ ops : List StoreOp, (∀ op ∈ ops, op.dispatches = true) →
      AttemptInv (runOps dg db ops) (history ++ claims dg db ops)
  | [], _ => by simpa [claims] using inv
  | op :: ops, hd => by
    rw [runOps_cons, claims, ← List.append_assoc]
    exact (inv.step (hd op List.mem_cons_self)).run ops fun o ho => hd o (List.mem_cons_of_mem _ ho)

/-! ## The accounting -/

theorem AttemptInv.claim_unique (inv : AttemptInv db history) {c c' : ClaimRecord} (hc : c ∈ history)
    (hc' : c' ∈ history) (ht : c.args.taskId = c'.args.taskId) (ha : c.claim.attempt = c'.claim.attempt) :
    c = c' := by
  obtain ⟨task, htask⟩ := inv.existing c' hc'
  have hnodup : ((claimsFor history c'.args.taskId).map fun c => c.claim.attempt).Nodup := by
    rw [inv.numbered _ task htask]
    exact List.nodup_range'
  have hmem : ∀ x ∈ history, x.args.taskId = c'.args.taskId → x ∈ claimsFor history c'.args.taskId :=
    fun x hx hxt => List.mem_filter.mpr ⟨hx, decide_eq_true hxt⟩
  exact List.inj_on_of_nodup_map hnodup (hmem c hc ht) (hmem c' hc' rfl) ha

theorem AttemptInv.attemptCount_le (inv : AttemptInv db history) {t : String} {task : TaskRow}
    (ht : db.tasks.get? t = some task) {limit : Nat} (hl : ∀ c ∈ history, c.claim.attempt ≤ limit) :
    task.attemptCount ≤ limit := by
  cases hn : task.attemptCount with
  | zero => exact Nat.zero_le _
  | succ n =>
    have hmem : n + 1 ∈ (claimsFor history t).map fun c => c.claim.attempt := by
      rw [inv.numbered t task ht, hn, List.mem_range'_1]
      omega
    obtain ⟨c, hc, he⟩ := List.mem_map.mp hmem
    rw [← he]
    exact hl c (List.mem_filter.mp hc).1

theorem claims_mem {ops : List StoreOp} {c : ClaimRecord} (h : c ∈ claims dg db ops) :
    StoreOp.claimTaskDispatch c.args ∈ ops := by
  induction ops generalizing db with
  | nil => cases h
  | cons op ops ih =>
    rcases List.mem_append.mp h with h | h
    · cases op with
      | claimTaskDispatch =>
        simp only [claimOf] at h
        split at h
        · rw [List.mem_singleton.mp h]
          exact List.mem_cons_self
        · cases h
      | _ => cases h
    · exact List.mem_cons_of_mem _ (ih h)

/-- **Attempt accounting.** Over every sequence of operations in which tasks are submitted without attempts and runs
come from dispatch claims: the attempts of a task are numbered `1..attempt_count`; each run belongs to exactly one
claim and carries the scope and revision that its task had at that claim; no claim goes beyond its `max_attempts`, so
no attempt count goes beyond a limit that all claims respect; a claim found every prerequisite succeeded; and a claim
that raised or returned nothing changed nothing. -/
theorem attempt_accounting (dg : Digests) (ops : List StoreOp) (hd : ∀ op ∈ ops, op.dispatches = true) :
    (∀ t task, (runOps dg Db.initial ops).tasks.get? t = some task →
      (claimsFor (claims dg Db.initial ops) t).map (fun c => c.claim.attempt) = List.range' 1 task.attemptCount) ∧
    (∀ id run, (runOps dg Db.initial ops).runs.get? id = some run →
      ∃ c ∈ claims dg Db.initial ops, c.Created id run ∧
        ∀ c' ∈ claims dg Db.initial ops, c'.args.taskId = run.taskId → c'.claim.attempt = run.attempt → c' = c) ∧
    (∀ c ∈ claims dg Db.initial ops, ∀ m, c.args.maxAttempts = some m → c.claim.attempt ≤ m) ∧
    (∀ limit, (∀ args, .claimTaskDispatch args ∈ ops → ∃ m, args.maxAttempts = some m ∧ m ≤ limit) →
      ∀ t task, (runOps dg Db.initial ops).tasks.get? t = some task → task.attemptCount ≤ limit) ∧
    (∀ c ∈ claims dg Db.initial ops, c.PrerequisitesSucceeded) ∧
    (∀ args, claimOf dg (runOps dg Db.initial ops) (.claimTaskDispatch args) = [] →
      apply dg (runOps dg Db.initial ops) (.claimTaskDispatch args) = runOps dg Db.initial ops) := by
  have inv : AttemptInv (runOps dg Db.initial ops) (claims dg Db.initial ops) := by
    simpa using AttemptInv.initial.run ops hd
  refine ⟨inv.numbered, ?_, inv.bounded, ?_, inv.satisfied, ?_⟩
  · intro id run hr
    obtain ⟨c, hc, hcr⟩ := inv.created id run hr
    refine ⟨c, hc, hcr, fun c' hc' ht ha => ?_⟩
    exact inv.claim_unique hc' hc (ht.trans hcr.1.symm) (ha.trans hcr.2.1.symm)
  · intro limit hlimit t task ht
    refine inv.attemptCount_le ht fun c hc => ?_
    obtain ⟨m, hm, hle⟩ := hlimit c.args (claims_mem hc)
    exact (inv.bounded c hc m hm).trans hle
  · intro args hnil
    rcases apply_cases dg (runOps dg Db.initial ops) (.claimTaskDispatch args) with h | ⟨r, h⟩
    · exact h
    · rcases claimTaskDispatch_ok h with ⟨-, hsame⟩ | ⟨_, _, _, _, _, _, _, _, _, _, rfl, _⟩
      · exact hsame
      · have hc : claimTaskDispatch dg (runOps dg Db.initial ops) args = _ := h
        simp [claimOf, hc] at hnil

/-- A task that is claimed, sent back to the ready queue and claimed again. -/
def retried : List StoreOp :=
  [.createTask ⟨"t", "p", "#0001", .ready, .single, 0⟩,
   .upsertWorker "w" ⟨.idle, .available, none⟩,
   .claimTaskDispatch ⟨"t", ["w"], 1, none, some "A", 30000000, some 2, fun _ => "1", 0⟩,
   .transitionTask "t" .waiting none (.held "A" 1) ⟨1000000, 1000000⟩,
   .transitionTask "t" .ready none (.held "A" 1) ⟨1000000, 1000000⟩,
   .setWorkerState "w" .idle none none ⟨none, .absent⟩ ⟨0, 0⟩,
   .claimTaskDispatch ⟨"t", ["w"], 4, none, some "A", 30000000, some 2, fun _ => "2", 2000000⟩]

/-- Its two attempts are numbered one and two. -/
theorem attempt_accounting_retried :
    (claimsFor (claims .trivial Db.initial retried) "t").map (fun c => c.claim.attempt) = [1, 2] :=
  (attempt_accounting .trivial retried (by decide)).1 "t"
    ⟨"p", "#0001", .running, .single, 2, 5, 1, none, some 0, none⟩ (by decide +kernel)

end AgentFabric.Store
