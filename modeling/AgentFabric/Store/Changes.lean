import AgentFabric.Store.Ops

/-!
# What one operation can do to one row

One inductive relation per table lists every way in which a committed operation changes a row, with the guards under
which it does so; the invariants of the other modules are case analyses of these relations.
-/

namespace AgentFabric.Store

open AgentFabric.Lib

variable {dg : Digests}

/-! ## Tasks -/

/-- The ways in which an operation rewrites the task row `a` of task `t`. -/
inductive TaskUpdate (dg : Digests) (db : Db) (t : String) (a : TaskRow) : StoreOp → TaskRow → Prop where
  | same (op : StoreOp) : TaskUpdate dg db t a op a
  | dependency (dependsOn : String) (hs : a.state = .draft ∨ a.state = .queued ∨ a.state = .ready)
      (hm : sealedScopeMatches db t
        { a with definitionRevision := a.definitionRevision + 1, version := a.version + 1 } = true) :
      TaskUpdate dg db t a (.addTaskDependency t dependsOn)
        { a with definitionRevision := a.definitionRevision + 1, version := a.version + 1 }
  | transition (target : TaskState) (version : Option Nat) (lease : LeaseArgs) (clock : Clock)
      (hl : requireLeaseArgs db t lease clock.lease = .ok ())
      (ha : taskTransitions.allows a.state target = true) :
      TaskUpdate dg db t a (.transitionTask t target version lease clock) (a.transition target (timestamp clock.now))
  | deferred (reason detail : String) (timeout now : Nat) (hs : a.state = .ready) :
      TaskUpdate dg db t a (.recordDispatchDeferred t reason detail timeout now) (a.withState .blocked)
  | rescoped (binding : ScopeBinding) (revision : Nat) (ht : binding.taskId = t) (hs : a.state.terminal = false) :
      TaskUpdate dg db t a (.bindTaskVerificationScope binding) (a.bindScope binding.scopeId revision)
  | verified (call : VerificationCall) (criteria : List JudgedCriterion) (attempt : Option Nat)
      (ht : call.taskId = t) (hs : a.state = .reviewing)
      (hj : judgedCriteria dg db call a = .ok (criteria, attempt)) :
      TaskUpdate dg db t a (.applyTaskVerification call)
        (a.verified (verificationTarget call a criteria) (timestamp call.now))
  | claimed (args : DispatchArgs) (ht : args.taskId = t) (hs : a.state = .ready)
      (hm : ∀ m, args.maxAttempts = some m → a.attemptCount < m) :
      TaskUpdate dg db t a (.claimTaskDispatch args) (a.claim (timestamp args.now))
  | cancelled (now : Nat) (hs : a.state.terminal = false) :
      TaskUpdate dg db t a (.cancelTaskExecution t now) (a.cancel (timestamp now))
  | counted (workerId : String) (attempt : Nat) (timeoutAt : Option Nat) (uuid : String) (now : Nat) :
      TaskUpdate dg db t a (.createWorkerRun t workerId attempt timeoutAt uuid now)
        { a with attemptCount := max a.attemptCount attempt, version := a.version + 1 }
  | missing (runId : String) (lease : HeldLease) (clock : Clock) (job : JobRow) (run : RunRow)
      (hj : db.jobs.get? runId = some job) (ht : job.taskId = t) (hr : db.runs.get? runId = some run)
      (ha : run.state.active = true)
      (hl : leaseCurrent db t lease.owner lease.generation (timestamp clock.lease) = true) :
      TaskUpdate dg db t a (.interruptMissingProviderJob runId lease clock)
        (a.withState (if a.state = .running then .interrupted else .ready))
  | recovered (taskIds : Option (List String)) (now : Nat)
      (hi : interruptibleTask db taskIds (timestamp now) t a = true) :
      TaskUpdate dg db t a (.recoverInterrupted taskIds now) (a.withState .interrupted)

variable {k t id w : String}

/-- The row of another key is untouched by `modify`. -/
theorem modify_cases {α : Type} {table : Table String α} {a : α} {f : α → α} {P : α → Prop}
    (h : table.get? t = some a) (hk : t = k → P (f a)) (hne : P a) :
    ∃ b, (table.modify k f).get? t = some b ∧ P b := by
  by_cases ht : t = k
  · subst ht
    exact ⟨f a, by simp [h], hk rfl⟩
  · exact ⟨a, by simp [ht, h], hne⟩

/-- The same, where the operation has read the row `b` that it modifies. -/
theorem modify_found {α : Type} {table : Table String α} {a b : α} {f : α → α} {P : α → Prop}
    (h : table.get? t = some a) (hb : table.get? k = some b) (hk : t = k → b = a → P (f a)) (hne : P a) :
    ∃ c, (table.modify k f).get? t = some c ∧ P c := by
  refine modify_cases h (fun ht => hk ht ?_) hne
  subst ht
  exact Option.some.inj (hb.symm.trans h)

variable {op : StoreOp} {db db' : Db}

variable {r : op.Reply}

/-- A task row stays, and changes only as `TaskUpdate` allows. -/
theorem exec_tasks_some (h : exec dg op db = .ok (r, db')) {a : TaskRow} (ha : db.tasks.get? t = some a) :
    ∃ b, db'.tasks.get? t = some b ∧ TaskUpdate dg db t a op b := by
  cases op with
  | createTask task =>
    obtain ⟨tasks, hi, rfl⟩ := createTask_ok h
    refine ⟨a, ?_, .same _⟩
    have hne : t ≠ task.id := by
      rintro rfl
      rw [Table.insert?_fresh hi] at ha
      cases ha
    simp [Table.get?_insert hi, hne, ha]
  | addTaskDependency taskId dependsOn =>
    rcases addTaskDependency_ok h with rfl | ⟨task, _, ht, _, hs, hm, rfl⟩
    · exact ⟨a, ha, .same _⟩
    · refine modify_found ha ht ?_ (.same _)
      rintro rfl rfl
      exact .dependency dependsOn hs hm
  | transitionTask taskId target version lease clock =>
    obtain ⟨row, ht, hl, hallow, rfl⟩ := transitionTask_ok h
    refine modify_found ha ht ?_ (.same _)
    rintro rfl rfl
    exact .transition target version lease clock hl hallow
  | recordDispatchDeferred taskId reason detail timeout now =>
    rcases recordDispatchDeferred_ok h with ⟨_, rfl⟩ | ⟨row, ht, hs, rfl⟩
    · exact ⟨a, ha, .same _⟩
    · refine modify_found ha ht ?_ (.same _)
      rintro rfl rfl
      exact .deferred reason detail timeout now hs
  | bindTaskVerificationScope binding =>
    obtain ⟨task, scope, _, _, _, ht, hs, rfl, _, _, _, _, _, rfl⟩ := bindScope_ok dg h
    refine modify_found ha ht ?_ (.same _)
    rintro hb rfl
    exact .rescoped binding _ hb.symm hs
  | applyTaskVerification call =>
    obtain ⟨task, criteria, attempt, _, _, ht, hs, hj, rfl, rfl⟩ := applyTaskVerification_ok dg h
    refine modify_found ha ht ?_ (.same _)
    rintro hb rfl
    exact .verified call criteria attempt hb.symm hs hj
  | claimTaskDispatch args =>
    rcases claimTaskDispatch_ok h with ⟨_, rfl⟩ | ⟨task, _, ht, hs, _, hm, _, _, _, _, _, rfl⟩
    · exact ⟨a, ha, .same _⟩
    · refine modify_found ha ht ?_ (.same _)
      rintro hb rfl
      exact .claimed args hb.symm hs hm
  | cancelTaskExecution taskId now =>
    obtain ⟨task, ht, ⟨_, _, rfl⟩ | ⟨_, hs, rfl⟩⟩ := cancelTaskExecution_ok h
    · exact ⟨a, ha, .same _⟩
    · refine modify_found ha ht ?_ (.same _)
      rintro rfl rfl
      exact .cancelled now hs
  | createWorkerRun taskId workerId attempt timeoutAt uuid now =>
    obtain ⟨task, _, ht, _, _, _, rfl⟩ := createWorkerRun_ok h
    refine modify_cases ha ?_ (.same _)
    rintro rfl
    exact .counted workerId attempt timeoutAt uuid now
  | interruptMissingProviderJob runId lease clock =>
    obtain ⟨job, run, task, hj, hl, hr, ht, ⟨_, rfl⟩ | ⟨hact, rfl⟩⟩ := interruptMissingProviderJob_ok h
    · exact ⟨a, ha, .same _⟩
    · refine modify_found ha ht ?_ (.same _)
      rintro hb rfl
      exact .missing runId lease clock job run hj hb.symm hr hact (by rw [hb]; exact hl)
  | recoverInterrupted taskIds now =>
    cases h
    simp only [Table.get?_updateWhere, ha, Option.map_some]
    split
    · rename_i hi
      exact ⟨_, rfl, .recovered taskIds now hi⟩
    · exact ⟨a, rfl, .same _⟩
  | _ => exact ⟨a, by rw [(exec_frame h).tasks rfl]; exact ha, .same _⟩

/-- New task rows come from `createTask` only. -/
theorem exec_tasks_none (h : exec dg op db = .ok (r, db')) (ha : db.tasks.get? t = none) :
    db'.tasks.get? t = none ∨ ∃ task : NewTask, op = .createTask task ∧ task.id = t ∧
      db'.tasks.get? t = some task.row := by
  cases op with
  | createTask task =>
    obtain ⟨tasks, hi, rfl⟩ := createTask_ok h
    by_cases ht : t = task.id
    · exact Or.inr ⟨task, rfl, ht.symm, by simp [Table.get?_insert hi, ht]⟩
    · exact Or.inl (by simp [Table.get?_insert hi, ht, ha])
  | addTaskDependency taskId dependsOn =>
    rcases addTaskDependency_ok h with rfl | ⟨_, _, _, _, _, _, rfl⟩
    · exact Or.inl ha
    · exact Or.inl (by simp [ha])
  | transitionTask taskId target version lease clock =>
    obtain ⟨_, _, _, _, rfl⟩ := transitionTask_ok h
    exact Or.inl (by simp [ha])
  | recordDispatchDeferred taskId reason detail timeout now =>
    rcases recordDispatchDeferred_ok h with ⟨_, rfl⟩ | ⟨_, _, _, rfl⟩
    · exact Or.inl ha
    · exact Or.inl (by simp [ha])
  | bindTaskVerificationScope binding =>
    obtain ⟨_, _, _, _, _, _, _, _, _, _, _, _, _, rfl⟩ := bindScope_ok dg h
    exact Or.inl (by simp [ha])
  | applyTaskVerification call =>
    obtain ⟨_, _, _, _, _, _, _, _, _, rfl⟩ := applyTaskVerification_ok dg h
    exact Or.inl (by simp [ha])
  | claimTaskDispatch args =>
    rcases claimTaskDispatch_ok h with ⟨_, rfl⟩ | ⟨_, _, _, _, _, _, _, _, _, _, _, rfl⟩
    · exact Or.inl ha
    · exact Or.inl (by simp [ha])
  | cancelTaskExecution taskId now =>
    obtain ⟨_, _, ⟨_, _, rfl⟩ | ⟨_, _, rfl⟩⟩ := cancelTaskExecution_ok h
    · exact Or.inl ha
    · exact Or.inl (by simp [ha])
  | createWorkerRun taskId workerId attempt timeoutAt uuid now =>
    obtain ⟨_, _, _, _, _, _, rfl⟩ := createWorkerRun_ok h
    exact Or.inl (by simp [ha])
  | interruptMissingProviderJob runId lease clock =>
    obtain ⟨_, _, _, _, _, _, _, ⟨_, rfl⟩ | ⟨_, rfl⟩⟩ := interruptMissingProviderJob_ok h
    · exact Or.inl ha
    · exact Or.inl (by simp [ha])
  | recoverInterrupted taskIds now =>
    cases h
    exact Or.inl (by simp [Table.get?_updateWhere, ha])
  | _ => exact Or.inl (by rw [(exec_frame h).tasks rfl]; exact ha)

/-! ## Runs -/

/-- The ways in which an operation rewrites the row `a` of run `id`. -/
inductive RunUpdate (db : Db) (id : String) (a : RunRow) : StoreOp → RunRow → Prop where
  | same (op : StoreOp) : RunUpdate db id a op a
  | activated (lease : LeaseArgs) (clock : Clock) (task : TaskRow) (hs : a.state = .starting)
      (ht : db.tasks.get? a.taskId = some task) (hr : task.state = .running)
      (hl : requireLeaseArgs db a.taskId lease clock.lease = .ok ()) :
      RunUpdate db id a (.activateWorkerRun id lease clock) (a.activate (timestamp clock.now))
  | cancelled (task : TaskRow) (now : Nat) (ha : a.state.active = true)
      (ht : db.tasks.get? a.taskId = some task) (hs : task.state.terminal = false) :
      RunUpdate db id a (.cancelTaskExecution a.taskId now) (a.cancel (timestamp now))
  | transitioned (target : RunState) (detail : RunDetail) (lease : LeaseArgs) (clock : Clock)
      (hl : requireLeaseArgs db a.taskId lease clock.lease = .ok ())
      (ha : runTransitions.allows a.state target = true) :
      RunUpdate db id a (.transitionWorkerRun id target detail lease clock)
        (a.transition target detail (timestamp clock.now))
  | finalized (target : RunState) (detail : RunDetail) (release : WorkerRelease) (lease : HeldLease) (clock : Clock)
      (job : JobRow) (hj : db.jobs.get? id = some job)
      (hl : leaseCurrent db job.taskId lease.owner lease.generation (timestamp clock.lease) = true)
      (hact : a.state.active = true) (ha : runTransitions.allows a.state target = true)
      (ho : (collectedObservation target).isSome = true) :
      RunUpdate db id a (.finalizeProviderJobResult id target detail release lease clock)
        (a.finalize target detail (timestamp clock.now))
  | missing (lease : HeldLease) (clock : Clock) (job : JobRow) (hj : db.jobs.get? id = some job)
      (hl : leaseCurrent db job.taskId lease.owner lease.generation (timestamp clock.lease) = true)
      (hact : a.state.active = true) :
      RunUpdate db id a (.interruptMissingProviderJob id lease clock) (a.interrupt (timestamp clock.now))
  | event (pid : Option Nat) (lease : LeaseArgs) (clock : Nat) (detail : RunDetail) :
      RunUpdate db id a (.recordAdapterEvent id pid lease clock) { a with detail := detail }
  | recovered (taskIds : Option (List String)) (now : Nat)
      (hi : interruptibleRun db taskIds (timestamp now) id a = true) :
      RunUpdate db id a (.recoverInterrupted taskIds now) (a.interrupt (timestamp now))

variable {a b : RunRow}

/-- A run row stays, and changes only as `RunUpdate` allows. -/
theorem exec_runs_some (h : exec dg op db = .ok (r, db')) (ha : db.runs.get? id = some a) :
    ∃ b, db'.runs.get? id = some b ∧ RunUpdate db id a op b := by
  cases op with
  | claimTaskDispatch args =>
    rcases claimTaskDispatch_ok h with ⟨_, rfl⟩ | ⟨_, runs, _, _, _, _, _, _, _, hi, _, rfl⟩
    · exact ⟨a, ha, .same _⟩
    · exact ⟨a, (Table.get?_insertAll hi).mpr (Or.inl ha), .same _⟩
  | activateWorkerRun runId lease clock =>
    obtain ⟨run, task, hr, ht, hl, ⟨_, rfl⟩ | ⟨_, hs, hrun, _, rfl⟩⟩ := activateWorkerRun_ok h
    · exact ⟨a, ha, .same _⟩
    · refine modify_found ha hr ?_ (.same _)
      rintro rfl rfl
      exact .activated lease clock task hs ht hrun hl
  | cancelTaskExecution taskId now =>
    obtain ⟨task, ht, ⟨_, _, rfl⟩ | ⟨_, hs, rfl⟩⟩ := cancelTaskExecution_ok h
    · exact ⟨a, ha, .same _⟩
    · simp only [cancelRuns, Table.get?_updateWhere, ha, Option.map_some]
      split
      · rename_i hsel
        simp only [Bool.and_eq_true, decide_eq_true_eq] at hsel
        obtain ⟨rfl, hact⟩ := hsel
        exact ⟨_, rfl, .cancelled task now hact ht hs⟩
      · exact ⟨a, rfl, .same _⟩
  | createWorkerRun taskId workerId attempt timeoutAt uuid now =>
    obtain ⟨_, runs, _, _, _, hi, rfl⟩ := createWorkerRun_ok h
    have hne : id ≠ r := by
      rintro rfl
      rw [Table.insert?_fresh hi] at ha
      cases ha
    exact ⟨a, by simp [Table.get?_insert hi, hne, ha], .same _⟩
  | transitionWorkerRun runId target detail lease clock =>
    obtain ⟨run, hr, hl, hallow, rfl⟩ := transitionWorkerRun_ok h
    refine modify_found ha hr ?_ (.same _)
    rintro rfl rfl
    exact .transitioned target detail lease clock hl hallow
  | finalizeProviderJobResult runId target detail release lease clock =>
    obtain ⟨observation, job, run, task, ho, hj, hl, hr, _, _, hg, rfl⟩ := finalizeProviderJobResult_ok h
    simp only [finalizedRuns]
    split
    · rename_i hw
      refine modify_found ha hr ?_ (.same _)
      rintro rfl rfl
      rcases hg with ⟨hact, hallow⟩ | he | hwin
      · exact .finalized target detail release lease clock job hj hl hact hallow (by simp [ho])
      · exact absurd he hw.1
      · rw [hw.2] at hwin
        cases hwin
    · exact ⟨a, ha, .same _⟩
  | interruptMissingProviderJob runId lease clock =>
    obtain ⟨job, run, task, hj, hl, hr, ht, ⟨_, rfl⟩ | ⟨hact, rfl⟩⟩ := interruptMissingProviderJob_ok h
    · exact ⟨a, ha, .same _⟩
    · refine modify_found ha hr ?_ (.same _)
      rintro rfl rfl
      exact .missing lease clock job hj hl hact
  | recordAdapterEvent runId pid lease clock =>
    obtain ⟨_, _, _, rfl⟩ := recordAdapterEvent_ok h
    refine modify_cases ha ?_ (.same _)
    rintro rfl
    exact .event pid lease clock _
  | recoverInterrupted taskIds now =>
    cases h
    simp only [recoveredRuns, Table.get?_updateWhere, ha, Option.map_some]
    split
    · rename_i hi
      exact ⟨_, rfl, .recovered taskIds now hi⟩
    · exact ⟨a, rfl, .same _⟩
  | _ => exact ⟨a, by rw [(exec_frame h).runs rfl]; exact ha, .same _⟩

/-- New run rows come from a successful dispatch claim, or from `createWorkerRun`. -/
theorem exec_runs_none (h : exec dg op db = .ok (r, db')) (ha : db.runs.get? id = none)
    (hb : db'.runs.get? id = some b) :
    (∃ args task, op = .claimTaskDispatch args ∧ db.tasks.get? args.taskId = some task ∧ task.state = .ready ∧
      (id, b) ∈ claimedRuns args (task.attemptCount + 1) task.currentVerificationScopeId task.definitionRevision) ∨
    (∃ taskId workerId attempt timeoutAt uuid now task,
      op = .createWorkerRun taskId workerId attempt timeoutAt uuid now ∧
      db.tasks.get? taskId = some task ∧ id = "run-" ++ uuid ∧
      b = startingRun taskId workerId attempt timeoutAt task.currentVerificationScopeId task.definitionRevision
        (timestamp now)) := by
  have keep : ∀ {table : Table String RunRow} {P : Prop}, table.get? id = none → table.get? id = some b → P := by
    intro table P h₁ h₂
    rw [h₁] at h₂
    cases h₂
  cases op with
  | claimTaskDispatch args =>
    rcases claimTaskDispatch_ok h with ⟨_, rfl⟩ | ⟨task, runs, ht, hs, _, _, _, _, _, hi, _, rfl⟩
    · exact keep ha hb
    · rcases (Table.get?_insertAll hi).mp hb with hold | hnew
      · exact keep ha hold
      · exact Or.inl ⟨args, task, rfl, ht, hs, hnew⟩
  | createWorkerRun taskId workerId attempt timeoutAt uuid now =>
    obtain ⟨task, runs, ht, _, hid, hi, rfl⟩ := createWorkerRun_ok h
    have hget := hb
    rw [Table.get?_insert hi] at hget
    split at hget
    · rename_i he
      cases hget
      exact Or.inr ⟨taskId, workerId, attempt, timeoutAt, uuid, now, task, rfl, ht, he.trans hid, rfl⟩
    · exact keep ha hget
  | activateWorkerRun runId lease clock =>
    obtain ⟨_, _, _, _, _, ⟨_, rfl⟩ | ⟨_, _, _, _, rfl⟩⟩ := activateWorkerRun_ok h
    · exact keep ha hb
    · exact keep (by simp [ha]) hb
  | cancelTaskExecution taskId now =>
    obtain ⟨_, _, ⟨_, _, rfl⟩ | ⟨_, _, rfl⟩⟩ := cancelTaskExecution_ok h
    · exact keep ha hb
    · exact keep (by simp [cancelRuns, Table.get?_updateWhere, ha]) hb
  | transitionWorkerRun runId target detail lease clock =>
    obtain ⟨_, _, _, _, rfl⟩ := transitionWorkerRun_ok h
    exact keep (by simp [ha]) hb
  | finalizeProviderJobResult runId target detail release lease clock =>
    obtain ⟨_, _, _, _, _, _, _, _, _, _, _, rfl⟩ := finalizeProviderJobResult_ok h
    refine keep ?_ hb
    simp only [finalizedRuns]
    split <;> simp [ha]
  | interruptMissingProviderJob runId lease clock =>
    obtain ⟨_, _, _, _, _, _, _, ⟨_, rfl⟩ | ⟨_, rfl⟩⟩ := interruptMissingProviderJob_ok h
    · exact keep ha hb
    · exact keep (by simp [ha]) hb
  | recordAdapterEvent runId pid lease clock =>
    obtain ⟨_, _, _, rfl⟩ := recordAdapterEvent_ok h
    exact keep (by simp [ha]) hb
  | recoverInterrupted taskIds now =>
    cases h
    exact keep (by simp [recoveredRuns, Table.get?_updateWhere, ha]) hb
  | _ =>
    rw [(exec_frame h).runs rfl] at hb
    exact keep ha hb

theorem RunUpdate.ident (h : RunUpdate db id a op b) :
    b.taskId = a.taskId ∧ b.workerId = a.workerId ∧ b.attempt = a.attempt ∧
      b.verificationScopeId = a.verificationScopeId ∧ b.taskDefinitionRevision = a.taskDefinitionRevision := by
  cases h <;> exact ⟨rfl, rfl, rfl, rfl, rfl⟩

/-- The task of a run exists. -/
def RunsHaveTasks (db : Db) : Prop :=
  ∀ id run, db.runs.get? id = some run → ∃ task, db.tasks.get? run.taskId = some task

/-- Every operation keeps that runs have tasks. -/
theorem exec_runsHaveTasks (h : exec dg op db = .ok (r, db')) (hold : RunsHaveTasks db) : RunsHaveTasks db' := by
  intro id run hr
  obtain ⟨task, ht⟩ : ∃ task, db.tasks.get? run.taskId = some task := by
    cases ha : db.runs.get? id with
    | some a =>
      obtain ⟨b, hb, hu⟩ := exec_runs_some h ha
      rw [hr] at hb
      obtain rfl := Option.some.inj hb
      rw [hu.ident.1]
      exact hold id a ha
    | none =>
      rcases exec_runs_none h ha hr with ⟨args, task, rfl, ht, _, hmem⟩ | ⟨_, _, _, _, _, _, task, rfl, ht, _, rfl⟩
      · obtain ⟨w, _, he⟩ := List.mem_map.mp hmem
        obtain ⟨_, rfl⟩ := Prod.mk.inj he
        exact ⟨task, ht⟩
      · exact ⟨task, ht⟩
  obtain ⟨b, hb, _⟩ := exec_tasks_some h ht
  exact ⟨b, hb⟩

theorem runOps_runsHaveTasks (ops : List StoreOp) : RunsHaveTasks (runOps dg Db.initial ops) :=
  runOps_invariant exec_runsHaveTasks (fun id run h => by simp [Db.initial] at h) ops

theorem RunUpdate.ended (h : RunUpdate db id a op b) (ha : a.state.active = false) : b.state = a.state := by
  cases h with
  | same => rfl
  | activated lease clock task hs =>
    rw [hs] at ha
    cases ha
  | cancelled task now hact =>
    rw [hact] at ha
    cases ha
  | transitioned target detail lease clock hl hallow => exact runTransitions_terminal ha hallow
  | finalized target detail release lease clock job hj hl hact =>
    rw [hact] at ha
    cases ha
  | missing lease clock job hj hl hact =>
    rw [hact] at ha
    cases ha
  | event => rfl
  | recovered taskIds now hi =>
    simp only [interruptibleRun, Bool.and_eq_true] at hi
    rw [hi.1.1.1] at ha
    cases ha

/-! ## Provider jobs -/

/-- The ways in which an operation rewrites the job row `a` of run `id`. -/
inductive JobUpdate (db : Db) (id : String) (a : JobRow) : StoreOp → JobRow → Prop where
  | same (op : StoreOp) : JobUpdate db id a op a
  | launching (lease : HeldLease) (clock : Clock) (hs : a.launchState = .prepared)
      (hl : leaseCurrent db a.taskId lease.owner lease.generation (timestamp clock.lease) = true) :
      JobUpdate db id a (.markProviderJobLaunching id lease clock)
        { a with launchState := .launching, launchedAt := some (timestamp clock.now) }
  | bound (adapterType adapterInstanceId : String) (handle : JobHandle) (lease : HeldLease) (clock : Clock)
      (hb : a.bindable = true)
      (hl : leaseCurrent db a.taskId lease.owner lease.generation (timestamp clock.lease) = true) :
      JobUpdate db id a (.bindProviderJobHandle id adapterType adapterInstanceId handle lease clock)
        (a.bind handle (timestamp clock.now))
  | observed (state : ReconciliationState) (lease : HeldLease) (clock : Clock)
      (hs : a.resultCollectionState ≠ .collected)
      (hl : leaseCurrent db a.taskId lease.owner lease.generation (timestamp clock.lease) = true) :
      JobUpdate db id a (.recordProviderJobObservation id state lease clock) (a.observe state (timestamp clock.now))
  | collected (terminalState : RunState) (observation : ReconciliationState) (lease : HeldLease) (clock : Clock)
      (hs : a.resultCollectionState ≠ .collected)
      (hl : leaseCurrent db a.taskId lease.owner lease.generation (timestamp clock.lease) = true) :
      JobUpdate db id a (.markProviderJobResultCollected id terminalState lease clock)
        (a.collect observation (timestamp clock.now))
  | finalized (target : RunState) (observation : ReconciliationState) (detail : RunDetail) (release : WorkerRelease)
      (lease : HeldLease) (clock : Clock) (hs : a.resultCollectionState ≠ .collected)
      (hl : leaseCurrent db a.taskId lease.owner lease.generation (timestamp clock.lease) = true) :
      JobUpdate db id a (.finalizeProviderJobResult id target detail release lease clock)
        (a.collect observation (timestamp clock.now))
  | cancelled (taskId : String) (now : Nat) (hs : isActiveRunOf db taskId id = true) :
      JobUpdate db id a (.cancelTaskExecution taskId now) a.cancel
  | missing (lease : HeldLease) (clock : Clock) (run : RunRow) (hr : db.runs.get? id = some run)
      (hact : run.state.active = true)
      (hl : leaseCurrent db a.taskId lease.owner lease.generation (timestamp clock.lease) = true) :
      JobUpdate db id a (.interruptMissingProviderJob id lease clock) (a.missing (timestamp clock.now))

theorem writeJob_found {a b x : JobRow} {P : JobRow → Prop} (h : db.jobs.get? id = some a)
    (hx : db.jobs.get? k = some x) (hk : id = k → x = a → P b) (hne : P a) :
    ∃ c, (writeJob db k b).jobs.get? id = some c ∧ P c :=
  modify_found (f := fun _ => b) h hx hk hne

/-- A job row stays, and changes only as `JobUpdate` allows. -/
theorem exec_jobs_some (h : exec dg op db = .ok (r, db')) {a : JobRow} (ha : db.jobs.get? id = some a) :
    ∃ b, db'.jobs.get? id = some b ∧ JobUpdate db id a op b := by
  cases op with
  | prepareProviderJob runId adapterType instanceId capabilities lease uuid clock =>
    obtain ⟨_, _, _, ⟨_, _, _, rfl⟩ | ⟨jobs, hi, _, _, rfl⟩⟩ := prepareProviderJob_ok h
    · exact ⟨a, ha, .same _⟩
    · refine ⟨a, ?_, .same _⟩
      have hne : id ≠ runId := by
        rintro rfl
        rw [Table.insert?_fresh hi] at ha
        cases ha
      simp [Table.get?_insert hi, hne, ha]
  | markProviderJobLaunching runId lease clock =>
    obtain ⟨old, ho, hl, ⟨_, _, rfl⟩ | ⟨hs, rfl, rfl⟩⟩ := markProviderJobLaunching_ok h
    · exact ⟨a, ha, .same _⟩
    · refine writeJob_found ha ho ?_ (.same _)
      rintro rfl rfl
      exact .launching lease clock hs hl
  | bindProviderJobHandle runId adapterType instanceId handle lease clock =>
    obtain ⟨old, ho, hl, ⟨_, _, rfl⟩ | ⟨_, hb, rfl, rfl⟩⟩ := bindProviderJobHandle_ok h
    · exact ⟨a, ha, .same _⟩
    · refine writeJob_found ha ho ?_ (.same _)
      rintro rfl rfl
      exact .bound adapterType instanceId handle lease clock hb hl
  | recordProviderJobObservation runId state lease clock =>
    obtain ⟨old, ho, hl, ⟨_, _, rfl⟩ | ⟨hs, rfl, rfl⟩⟩ := recordProviderJobObservation_ok h
    · exact ⟨a, ha, .same _⟩
    · refine writeJob_found ha ho ?_ (.same _)
      rintro rfl rfl
      exact .observed state lease clock hs hl
  | markProviderJobResultCollected runId state lease clock =>
    obtain ⟨old, observation, ho, hl, ⟨_, _, rfl⟩ | ⟨hs, rfl, rfl⟩⟩ := markProviderJobResultCollected_ok h
    · exact ⟨a, ha, .same _⟩
    · refine writeJob_found ha ho ?_ (.same _)
      rintro rfl rfl
      exact .collected state observation lease clock hs hl
  | finalizeProviderJobResult runId target detail release lease clock =>
    obtain ⟨observation, job, _, _, _, hj, hl, _, _, _, _, rfl⟩ := finalizeProviderJobResult_ok h
    by_cases hs : job.resultCollectionState ≠ .collected
    · simp only [if_pos hs]
      refine modify_found ha hj ?_ (.same _)
      rintro rfl rfl
      exact .finalized target observation detail release lease clock hs hl
    · simp only [if_neg hs]
      exact ⟨a, ha, .same _⟩
  | cancelTaskExecution taskId now =>
    obtain ⟨_, _, ⟨_, _, rfl⟩ | ⟨_, _, rfl⟩⟩ := cancelTaskExecution_ok h
    · exact ⟨a, ha, .same _⟩
    · simp only [cancelJobs, Table.get?_updateWhere, ha, Option.map_some]
      split
      · rename_i hsel
        simp only [Bool.and_eq_true] at hsel
        exact ⟨_, rfl, .cancelled taskId now hsel.1⟩
      · exact ⟨a, rfl, .same _⟩
  | interruptMissingProviderJob runId lease clock =>
    obtain ⟨job, run, _, hj, hl, hr, _, ⟨_, rfl⟩ | ⟨hact, rfl⟩⟩ := interruptMissingProviderJob_ok h
    · exact ⟨a, ha, .same _⟩
    · refine modify_found ha hj ?_ (.same _)
      rintro rfl rfl
      exact .missing lease clock run hr hact hl
  | _ => exact ⟨a, by rw [(exec_frame h).jobs rfl]; exact ha, .same _⟩

/-- New job rows are prepared ones. -/
theorem exec_jobs_none (h : exec dg op db = .ok (r, db')) {b : JobRow} (ha : db.jobs.get? id = none)
    (hb : db'.jobs.get? id = some b) :
    ∃ adapterType instanceId capabilities lease uuid clock run,
      op = .prepareProviderJob id adapterType instanceId capabilities lease uuid clock ∧
      db.runs.get? id = some run ∧
      leaseCurrent db run.taskId lease.owner lease.generation (timestamp clock.lease) = true ∧
      b = preparedJob ("provider-job-" ++ uuid) id run adapterType instanceId capabilities lease.generation
        (timestamp clock.now) := by
  have keep : ∀ {table : Table String JobRow} {P : Prop}, table.get? id = none → table.get? id = some b → P := by
    intro table P h₁ h₂
    rw [h₁] at h₂
    cases h₂
  cases op with
  | prepareProviderJob runId adapterType instanceId capabilities lease uuid clock =>
    obtain ⟨run, hr, hl, ⟨_, _, _, rfl⟩ | ⟨jobs, hi, hjob, _, rfl⟩⟩ := prepareProviderJob_ok h
    · exact keep ha hb
    · have hget := hb
      rw [Table.get?_insert hi] at hget
      split at hget
      · rename_i he
        cases hget
        subst he
        exact ⟨adapterType, instanceId, capabilities, lease, uuid, clock, run, rfl, hr, hl, hjob⟩
      · exact keep ha hget
  | markProviderJobLaunching runId lease clock =>
    obtain ⟨_, _, _, ⟨_, _, rfl⟩ | ⟨_, _, rfl⟩⟩ := markProviderJobLaunching_ok h
    · exact keep ha hb
    · exact keep (by simp [writeJob, ha]) hb
  | bindProviderJobHandle runId adapterType instanceId handle lease clock =>
    obtain ⟨_, _, _, ⟨_, _, rfl⟩ | ⟨_, _, _, rfl⟩⟩ := bindProviderJobHandle_ok h
    · exact keep ha hb
    · exact keep (by simp [writeJob, ha]) hb
  | recordProviderJobObservation runId state lease clock =>
    obtain ⟨_, _, _, ⟨_, _, rfl⟩ | ⟨_, _, rfl⟩⟩ := recordProviderJobObservation_ok h
    · exact keep ha hb
    · exact keep (by simp [writeJob, ha]) hb
  | markProviderJobResultCollected runId state lease clock =>
    obtain ⟨_, _, _, _, ⟨_, _, rfl⟩ | ⟨_, _, rfl⟩⟩ := markProviderJobResultCollected_ok h
    · exact keep ha hb
    · exact keep (by simp [writeJob, ha]) hb
  | finalizeProviderJobResult runId target detail release lease clock =>
    obtain ⟨_, _, _, _, _, _, _, _, _, _, _, rfl⟩ := finalizeProviderJobResult_ok h
    refine keep ?_ hb
    split <;> simp [ha]
  | cancelTaskExecution taskId now =>
    obtain ⟨_, _, ⟨_, _, rfl⟩ | ⟨_, _, rfl⟩⟩ := cancelTaskExecution_ok h
    · exact keep ha hb
    · exact keep (by simp [cancelJobs, Table.get?_updateWhere, ha]) hb
  | interruptMissingProviderJob runId lease clock =>
    obtain ⟨_, _, _, _, _, _, _, ⟨_, rfl⟩ | ⟨_, rfl⟩⟩ := interruptMissingProviderJob_ok h
    · exact keep ha hb
    · exact keep (by simp [ha]) hb
  | _ =>
    rw [(exec_frame h).jobs rfl] at hb
    exact keep ha hb

theorem JobUpdate.intent {a b : JobRow} (h : JobUpdate db id a op b) :
    b.taskId = a.taskId ∧ b.workerId = a.workerId ∧ b.adapterType = a.adapterType ∧
      b.adapterInstanceId = a.adapterInstanceId ∧ b.launchGeneration = a.launchGeneration ∧
      b.idempotencyKey = a.idempotencyKey ∧ b.capabilities = a.capabilities := by
  cases h <;> exact ⟨rfl, rfl, rfl, rfl, rfl, rfl, rfl⟩

/-! ## Workers -/

/-- Some run of the worker is starting, running or waiting. -/
def Occupied (runs : Table String RunRow) (w : String) : Prop :=
  ∃ id run, runs.get? id = some run ∧ run.workerId = w ∧ run.state.active = true

theorem workerHasActiveRun_eq_false {runs : Table String RunRow} {except : Option String} :
    workerHasActiveRun runs w except = false ↔
      ∀ id run, runs.get? id = some run → run.workerId = w → some id ≠ except → run.state.active = false := by
  rw [workerHasActiveRun, Table.any_eq_false]
  constructor
  · intro h id run hr hw hne
    simpa [hw, hne] using h id run hr
  · intro h id run hr
    by_cases hw : run.workerId = w
    · by_cases hne : some id = except
      · simp [hne]
      · simp [h id run hr hw hne]
    · simp [hw]

theorem not_occupied {runs : Table String RunRow} {except : Option String}
    (h : workerHasActiveRun runs w except = false)
    (hx : ∀ id run, some id = except → runs.get? id = some run → run.state.active = false) : ¬ Occupied runs w := by
  rintro ⟨id, run, hr, hw, ha⟩
  have hinactive : run.state.active = false := by
    by_cases hid : some id = except
    · exact hx id run hid hr
    · exact workerHasActiveRun_eq_false.mp h id run hr hw hid
  rw [ha] at hinactive
  cases hinactive

/-- The ways in which an operation from `db` to `db'` rewrites the row `a` of worker `w`. -/
inductive WorkerUpdate (db db' : Db) (w : String) (a : WorkerRow) : StoreOp → WorkerRow → Prop where
  | same (op : StoreOp) : WorkerUpdate db db' w a op a
  | registered (row : WorkerRow) : WorkerUpdate db db' w a (.upsertWorker w row) row
  | set (state : WorkerState) (resource : Option ResourceState) (model : Option String) (fence : WorkerFence)
      (clock : Clock) :
      WorkerUpdate db db' w a (.setWorkerState w state resource model fence clock) (a.set state resource model)
  | claimed (workerIds : List String) : WorkerUpdate db db' w a (.claimWorkers workerIds) (a.withState .starting)
  | reserved (args : DispatchArgs) : WorkerUpdate db db' w a (.claimTaskDispatch args) (a.withState .starting)
  | activated (runId : String) (lease : LeaseArgs) (clock : Clock) :
      WorkerUpdate db db' w a (.activateWorkerRun runId lease clock) (a.withState .running)
  | released (op : StoreOp) (hbusy : Occupied db.runs w) (hfree : ¬ Occupied db'.runs w) :
      WorkerUpdate db db' w a op (a.withState .idle)
  | finalized (runId : String) (target : RunState) (detail : RunDetail) (release : WorkerRelease) (lease : HeldLease)
      (clock : Clock) (run : RunRow) (job : JobRow) (task : TaskRow) (hr : db.runs.get? runId = some run)
      (hw : run.workerId = w) (ht : db.tasks.get? run.taskId = some task) (hwin : cancellationWins run task = false)
      (hj : db.jobs.get? runId = some job) (hc : job.resultCollectionState ≠ .collected)
      (ho : (collectedObservation target).isSome = true) (hs : run.state.active = true ∨ run.state = target)
      (hfree : ¬ Occupied db'.runs w) :
      WorkerUpdate db db' w a (.finalizeProviderJobResult runId target detail release lease clock)
        (a.set release.state release.resourceState release.modelId)

theorem collectedObservation_inactive {s : RunState} (h : (collectedObservation s).isSome = true) :
    s.active = false := by
  cases s <;> first | rfl | cases h

theorem finalizedRuns_inactive {runId : String} {run : RunRow} {task : TaskRow} {target : RunState}
    {detail : RunDetail} {now : Nat} (hr : db.runs.get? runId = some run) (hwin : cancellationWins run task = false)
    (ht : target.active = false) (hb : (finalizedRuns db runId run task target detail now).get? runId = some b) :
    b.state.active = false := by
  unfold finalizedRuns at hb
  split at hb
  · rw [Table.get?_modify_self, hr] at hb
    obtain rfl := Option.some.inj hb
    exact ht
  · rename_i hkeep
    have hstate : run.state = target := by
      by_contra hne
      exact hkeep ⟨hne, hwin⟩
    rw [hr] at hb
    obtain rfl := Option.some.inj hb
    rw [hstate]
    exact ht

/-- A worker row stays, and changes only as `WorkerUpdate` allows. -/
theorem exec_workers_some (h : exec dg op db = .ok (r, db')) {a : WorkerRow} (ha : db.workers.get? w = some a) :
    ∃ b, db'.workers.get? w = some b ∧ WorkerUpdate db db' w a op b := by
  cases op with
  | upsertWorker workerId worker =>
    cases h
    by_cases hw : w = workerId
    · subst hw
      exact ⟨worker, by simp [Table.get?_upsert], .registered worker⟩
    · exact ⟨a, by simp [Table.get?_upsert, hw, ha], .same _⟩
  | setWorkerState workerId state resource model fence clock =>
    obtain ⟨_, rfl⟩ := setWorkerState_ok h
    refine modify_cases ha ?_ (.same _)
    rintro rfl
    exact .set state resource model fence clock
  | claimWorkers workerIds =>
    rcases claimWorkers_ok h with ⟨_, rfl⟩ | ⟨_, _, rfl⟩
    · exact ⟨a, ha, .same _⟩
    · simp only [reserveWorkers, Table.get?_updateWhere, ha, Option.map_some]
      split
      · exact ⟨_, rfl, .claimed workerIds⟩
      · exact ⟨a, rfl, .same _⟩
  | claimTaskDispatch args =>
    rcases claimTaskDispatch_ok h with ⟨_, rfl⟩ | ⟨_, _, _, _, _, _, _, _, _, _, _, rfl⟩
    · exact ⟨a, ha, .same _⟩
    · simp only [reserveWorkers, Table.get?_updateWhere, ha, Option.map_some]
      split
      · exact ⟨_, rfl, .reserved args⟩
      · exact ⟨a, rfl, .same _⟩
  | activateWorkerRun runId lease clock =>
    obtain ⟨_, _, _, _, _, ⟨_, rfl⟩ | ⟨_, _, _, _, rfl⟩⟩ := activateWorkerRun_ok h
    · exact ⟨a, ha, .same _⟩
    · refine modify_cases ha (fun _ => .activated runId lease clock) (.same _)
  | cancelTaskExecution taskId now =>
    obtain ⟨_, _, ⟨_, _, rfl⟩ | ⟨_, _, rfl⟩⟩ := cancelTaskExecution_ok h
    · exact ⟨a, ha, .same _⟩
    · simp only [cancelWorkers, Table.get?_updateWhere, ha, Option.map_some]
      split
      · rename_i hsel
        simp only [Bool.and_eq_true, Bool.not_eq_true'] at hsel
        obtain ⟨⟨hany, hfree⟩, _⟩ := hsel
        obtain ⟨id, run, hr, hrun⟩ := Table.any_eq_true.mp hany
        simp only [Bool.and_eq_true, decide_eq_true_eq] at hrun
        exact ⟨_, rfl, .released _ ⟨id, run, hr, hrun.2, hrun.1.2⟩ (not_occupied hfree fun _ _ h => (by cases h))⟩
      · exact ⟨a, rfl, .same _⟩
  | finalizeProviderJobResult runId target detail release lease clock =>
    obtain ⟨observation, job, run, task, ho, hj, _, hr, _, ht, hg, rfl⟩ := finalizeProviderJobResult_ok h
    simp only [finalizedWorkers]
    split
    · rename_i hrel
      obtain ⟨hwin, hc, hfree⟩ := hrel
      refine modify_cases ha ?_ (.same _)
      intro hw
      refine .finalized runId target detail release lease clock run job task hr hw.symm ht hwin hj hc
        (by simp [ho]) ?_ ?_
      · rcases hg with ⟨hact, _⟩ | heq | hwins
        · exact Or.inl hact
        · exact Or.inr heq
        · rw [hwin] at hwins
          cases hwins
      · rw [hw]
        refine not_occupied hfree fun id b hid hb => ?_
        obtain rfl := Option.some.inj hid
        exact finalizedRuns_inactive hr hwin (collectedObservation_inactive (by simp [ho])) hb
    · exact ⟨a, ha, .same _⟩
  | interruptMissingProviderJob runId lease clock =>
    obtain ⟨_, run, _, _, _, hr, _, ⟨_, rfl⟩ | ⟨hact, rfl⟩⟩ := interruptMissingProviderJob_ok h
    · exact ⟨a, ha, .same _⟩
    · simp only [interruptedWorkers]
      split
      · rename_i hfree
        refine modify_cases ha ?_ (.same _)
        intro hw
        refine .released _ ⟨runId, run, hr, hw.symm, hact⟩ ?_
        rw [hw]
        refine not_occupied hfree fun id b hid hb => ?_
        obtain rfl := Option.some.inj hid
        rw [Table.get?_modify_self, hr] at hb
        obtain rfl := Option.some.inj hb
        rfl
      · exact ⟨a, ha, .same _⟩
  | recoverInterrupted taskIds now =>
    cases h
    simp only [recoveredWorkers, Table.get?_updateWhere, ha, Option.map_some]
    split
    · rename_i hsel
      simp only [Bool.and_eq_true, Bool.not_eq_true'] at hsel
      obtain ⟨hany, hfree⟩ := hsel
      obtain ⟨id, run, hr, hrun⟩ := Table.any_eq_true.mp hany
      simp only [interruptibleRun, Bool.and_eq_true, decide_eq_true_eq] at hrun
      exact ⟨_, rfl, .released _ ⟨id, run, hr, hrun.2, hrun.1.1.1.1⟩ (not_occupied hfree fun _ _ h => (by cases h))⟩
    · exact ⟨a, rfl, .same _⟩
  | _ => exact ⟨a, by rw [(exec_frame h).workers rfl]; exact ha, .same _⟩

/-- New worker rows are registrations. -/
theorem exec_workers_none (h : exec dg op db = .ok (r, db')) {b : WorkerRow} (ha : db.workers.get? w = none)
    (hb : db'.workers.get? w = some b) :
    op = .upsertWorker w b := by
  have keep : ∀ {table : Table String WorkerRow} {P : Prop}, table.get? w = none → table.get? w = some b → P := by
    intro table P h₁ h₂
    rw [h₁] at h₂
    cases h₂
  cases op with
  | upsertWorker workerId worker =>
    cases h
    rw [Table.get?_upsert] at hb
    split at hb
    · rename_i hw
      obtain rfl := Option.some.inj hb
      rw [hw]
    · exact keep ha hb
  | setWorkerState workerId state resource model fence clock =>
    obtain ⟨_, rfl⟩ := setWorkerState_ok h
    exact keep (by simp [ha]) hb
  | claimWorkers workerIds =>
    rcases claimWorkers_ok h with ⟨_, rfl⟩ | ⟨_, _, rfl⟩
    · exact keep ha hb
    · exact keep (by simp [reserveWorkers, Table.get?_updateWhere, ha]) hb
  | claimTaskDispatch args =>
    rcases claimTaskDispatch_ok h with ⟨_, rfl⟩ | ⟨_, _, _, _, _, _, _, _, _, _, _, rfl⟩
    · exact keep ha hb
    · exact keep (by simp [reserveWorkers, Table.get?_updateWhere, ha]) hb
  | activateWorkerRun runId lease clock =>
    obtain ⟨_, _, _, _, _, ⟨_, rfl⟩ | ⟨_, _, _, _, rfl⟩⟩ := activateWorkerRun_ok h
    · exact keep ha hb
    · exact keep (by simp [ha]) hb
  | cancelTaskExecution taskId now =>
    obtain ⟨_, _, ⟨_, _, rfl⟩ | ⟨_, _, rfl⟩⟩ := cancelTaskExecution_ok h
    · exact keep ha hb
    · exact keep (by simp [cancelWorkers, Table.get?_updateWhere, ha]) hb
  | finalizeProviderJobResult runId target detail release lease clock =>
    obtain ⟨_, _, _, _, _, _, _, _, _, _, _, rfl⟩ := finalizeProviderJobResult_ok h
    refine keep ?_ hb
    simp only [finalizedWorkers]
    split <;> simp [ha]
  | interruptMissingProviderJob runId lease clock =>
    obtain ⟨_, _, _, _, _, _, _, ⟨_, rfl⟩ | ⟨_, rfl⟩⟩ := interruptMissingProviderJob_ok h
    · exact keep ha hb
    · refine keep ?_ hb
      simp only [interruptedWorkers]
      split <;> simp [ha]
  | recoverInterrupted taskIds now =>
    cases h
    exact keep (by simp [recoveredWorkers, Table.get?_updateWhere, ha]) hb
  | _ =>
    rw [(exec_frame h).workers rfl] at hb
    exact keep ha hb

end AgentFabric.Store
