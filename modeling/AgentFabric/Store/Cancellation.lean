import AgentFabric.Store.Changes
import AgentFabric.Store.LeaseFencing

/-!
# Cancellation

What a cancellation fences, and when the cancelled runs of a task stay cancelled.
-/

namespace AgentFabric.Store

open AgentFabric.Lib

variable {dg : Digests}

/-! ## Fenced generations -/

/-- The lease row of the task has reached the generation, and is active only beyond it. -/
def Fenced (db : Db) (t : String) (g : Nat) : Prop :=
  ∃ l, db.leases.get? t = some l ∧ g ≤ l.generation ∧ (l.state = .active → g < l.generation)

variable {op : StoreOp} {db db' before : Db} {t owner id : String}

variable {r : op.Reply}

/-- A fenced generation stays fenced. -/
theorem exec_fenced {g : Nat} (h : exec dg op db = .ok (r, db')) (hf : Fenced db t g) :
    Fenced db' t g := by
  obtain ⟨l, hl, hle, hact⟩ := hf
  rcases exec_leases h t with ⟨owner, expiresAt, -, hn⟩ | ⟨-, hk⟩
  · refine ⟨_, hn, ?_, fun _ => ?_⟩ <;> simp only [nextGeneration_of_some hl] <;> omega
  · cases hn : db'.leases.get? t with
    | none =>
      have hid := hk.ident
      rw [hn, hl] at hid
      cases hid
    | some l' =>
      have hid := hk.ident
      rw [hn, hl] at hid
      simp only [Option.map_some, Option.some.injEq, Prod.mk.injEq] at hid
      refine ⟨l', hn, by omega, fun ha => ?_⟩
      obtain ⟨l₀, hl₀, ha₀⟩ := hk.active l' hn ha
      rw [hl] at hl₀
      cases hl₀
      have := hact ha₀
      omega

theorem Fenced.not_current {g now : Nat} (hf : Fenced db t g) :
    leaseCurrent db t owner g now = false := by
  obtain ⟨l, hl, -, hact⟩ := hf
  rw [← Bool.not_eq_true]
  intro hc
  obtain ⟨l', hl', -, hg, ha, -⟩ := leaseCurrent_iff.mp hc
  rw [hl] at hl'
  cases hl'
  have := hact ha
  omega

theorem Fenced.refused {g : Nat} (hf : Fenced db t g) (hg : guardOf db op = some ⟨t, owner, g⟩) :
    ∃ e, exec dg op db = .error e := by
  cases h : exec dg op db with
  | error e => exact ⟨e, rfl⟩
  | ok p =>
    obtain ⟨r, db'⟩ := p
    obtain ⟨now, hc⟩ := guard_holds h hg
    rw [hf.not_current] at hc
    cases hc

/-! ## Cancelled tasks and runs -/

def TaskCancelled (db : Db) (t : String) : Prop := ∃ task, db.tasks.get? t = some task ∧ task.state = .cancelled

def RunCancelled (db : Db) (t id : String) : Prop :=
  ∃ run, db.runs.get? id = some run ∧ run.taskId = t ∧ run.state = .cancelled

/-- The operation interrupts an active run of the task under a current lease. -/
def Requeues (db : Db) (t : String) : StoreOp → Prop
  | .interruptMissingProviderJob runId lease clock =>
    ∃ job run, db.jobs.get? runId = some job ∧ job.taskId = t ∧ db.runs.get? runId = some run ∧
      run.state.active = true ∧ leaseCurrent db t lease.owner lease.generation (timestamp clock.lease) = true
  | _ => False

/-- A cancelled task stays cancelled until it is requeued. -/
theorem exec_cancelled (h : exec dg op db = .ok (r, db')) (hc : TaskCancelled db t) (hq : ¬ Requeues db t op) :
    TaskCancelled db' t := by
  obtain ⟨a, ha, hs⟩ := hc
  obtain ⟨b, hb, hu⟩ := exec_tasks_some h ha
  refine ⟨b, hb, ?_⟩
  have hterm : a.state.terminal = true := by rw [hs]; rfl
  cases hu with
  | same => exact hs
  | dependency dependsOn hst => rcases hst with h | h | h <;> rw [hs] at h <;> cases h
  | transition target version lease clock hl hallow =>
    exact (taskTransitions_terminal hterm hallow).trans hs
  | deferred reason detail timeout now hst => rw [hs] at hst; cases hst
  | rescoped binding revision ht hst => rw [hterm] at hst; cases hst
  | verified call criteria attempt ht hst => rw [hs] at hst; cases hst
  | claimed args ht hst => rw [hs] at hst; cases hst
  | cancelled now hst => rw [hterm] at hst; cases hst
  | counted => exact hs
  | missing runId lease clock job run hj ht hr hact hl => exact absurd ⟨job, run, hj, ht, hr, hact, hl⟩ hq
  | recovered taskIds now hi => simp [interruptibleTask, hs] at hi

theorem requeues_ready (dg : Digests) {task : TaskRow} (ht : db.tasks.get? t = some task) (hs : task.state ≠ .running)
    (hq : Requeues db t op) :
    (apply dg db op).tasks.get? t = some (task.withState .ready) := by
  cases op with
  | interruptMissingProviderJob runId lease clock =>
    obtain ⟨job, run, hj, rfl, hr, hact, hl⟩ := hq
    have hf : fencedJob db runId lease clock.lease = .ok job := fencedJob_ok.mpr ⟨hj, hl⟩
    have hok : ∃ u db', interruptMissingProviderJob db runId lease clock = .ok (u, db') ∧
        db'.tasks.get? job.taskId = some (task.withState .ready) := by
      unfold interruptMissingProviderJob
      simp [hf, hr, ht, hact, hs, orRaise, Bind.bind, Except.bind, pure, Except.pure]
    obtain ⟨u, db', hex, htask⟩ := hok
    have happly : apply dg db (.interruptMissingProviderJob runId lease clock) = db' := by
      have : exec dg (.interruptMissingProviderJob runId lease clock) db = .ok (u, db') := hex
      simp [apply, this]
    rw [happly]
    exact htask
  | _ => cases hq

theorem exec_runCancelled (h : exec dg op db = .ok (r, db')) (hc : RunCancelled db t id) :
    RunCancelled db' t id := by
  obtain ⟨a, ha, ht, hs⟩ := hc
  obtain ⟨b, hb, hu⟩ := exec_runs_some h ha
  refine ⟨b, hb, hu.ident.1.trans ht, ?_⟩
  have hdead : a.state.active = false := by rw [hs]; rfl
  cases hu with
  | same => exact hs
  | activated lease clock task hst => rw [hs] at hst; cases hst
  | cancelled => rfl
  | transitioned target detail lease clock hl hallow => exact (runTransitions_terminal hdead hallow).trans hs
  | finalized target detail release lease clock job hj hl hact => rw [hdead] at hact; cases hact
  | missing lease clock job hj hl hact => rw [hdead] at hact; cases hact
  | event => exact hs
  | recovered taskIds now hi => simp [interruptibleRun, hdead] at hi

theorem finalize_cancelled {target : RunState} {detail : RunDetail} {release : WorkerRelease} {lease : HeldLease}
    {clock : Clock} {u : Unit} (ht : TaskCancelled db t) (hr : RunCancelled db t id)
    (h : finalizeProviderJobResult db id target detail release lease clock = .ok (u, db')) :
    ∃ job observation, db.jobs.get? id = some job ∧ collectedObservation target = some observation ∧
      db' = { db with
        jobs := if job.resultCollectionState ≠ .collected then
            db.jobs.modify id fun j => j.collect observation (timestamp clock.now)
          else db.jobs } := by
  obtain ⟨observation, job, run, task, ho, hj, -, hrun, -, htask, -, rfl⟩ := finalizeProviderJobResult_ok h
  obtain ⟨run', hrun', hid, hrs⟩ := hr
  rw [hrun] at hrun'
  cases hrun'
  obtain ⟨task', htask', hts⟩ := ht
  rw [hid, htask'] at htask
  cases htask
  have hwins : cancellationWins run task = true := by simp [cancellationWins, hrs, hts]
  refine ⟨job, observation, hj, ho, ?_⟩
  simp [finalizedRuns, finalizedWorkers, hwins]

/-! ## The promise of a cancellation -/

/-- The run was active on the task when it was cancelled. -/
def CancelledBy (before : Db) (t id : String) : Prop :=
  ∃ run, before.runs.get? id = some run ∧ run.taskId = t ∧ run.state.active = true

/-- A state after the cancellation of task `t`, made on `before` when the leases `issued` had been granted. -/
structure CancellationWins (dg : Digests) (before : Db) (issued : List Grant) (t : String) (db : Db) : Prop where
  task : TaskCancelled db t
  runs : ∀ id, CancelledBy before t id → RunCancelled db t id
  activation : ∀ g ∈ issued, g.taskId = t → ∀ owner id run clock, db.runs.get? id = some run → run.taskId = t →
    ∃ e, exec dg (.activateWorkerRun id (.held owner g.generation) clock) db = .error e
  launch : ∀ g ∈ issued, g.taskId = t → ∀ owner id job clock, db.jobs.get? id = some job → job.taskId = t →
    ∃ e, exec dg (.markProviderJobLaunching id ⟨owner, g.generation⟩ clock) db = .error e
  finalize : ∀ id, CancelledBy before t id → ∀ target detail release lease clock u db',
    exec dg (.finalizeProviderJobResult id target detail release lease clock) db = .ok (u, db') →
    ∃ job observation, db.jobs.get? id = some job ∧ collectedObservation target = some observation ∧
      db' = { db with
        jobs := if job.resultCollectionState ≠ .collected then
            db.jobs.modify id fun j => j.collect observation (timestamp clock.now)
          else db.jobs }

/-- What a cancellation leaves behind, and the operations after it keep. -/
structure CancelInv (before : Db) (issued : List Grant) (t : String) (db : Db) : Prop where
  task : TaskCancelled db t
  runs : ∀ id, CancelledBy before t id → RunCancelled db t id
  fenced : ∀ g ∈ issued, g.taskId = t → Fenced db t g.generation

variable {issued : List Grant}

/-- An operation that does not requeue the task keeps the invariant. -/
theorem CancelInv.step (inv : CancelInv before issued t db) (h : exec dg op db = .ok (r, db'))
    (hq : ¬ Requeues db t op) :
    CancelInv before issued t db' where
  task := exec_cancelled h inv.task hq
  runs id hid := exec_runCancelled h (inv.runs id hid)
  fenced g hg ht := exec_fenced h (inv.fenced g hg ht)

/-- So does a sequence of them. -/
theorem CancelInv.run {before : Db} {issued : List Grant} {t : String} {db : Db}
    (inv : CancelInv before issued t db) : ∀ later : List StoreOp,
      (∀ pre op post, later = pre ++ op :: post → ¬ Requeues (runOps dg db pre) t op) →
      CancelInv before issued t (runOps dg db later)
  | [], _ => inv
  | op :: later, hq => by
    rw [runOps_cons]
    have hfirst : CancelInv before issued t (apply dg db op) := by
      rcases apply_cases dg db op with h | ⟨r, h⟩
      · rw [h]; exact inv
      · exact inv.step h (hq [] op later rfl)
    refine hfirst.run later fun pre op' post he => ?_
    exact hq (op :: pre) op' post (by rw [he]; rfl)

theorem CancelInv.of_cancel {ops : List StoreOp} {now : Nat}
    (h : exec dg (.cancelTaskExecution t now) (runOps dg Db.initial ops) = .ok (true, db)) :
    CancelInv (runOps dg Db.initial ops) (grants dg Db.initial ops) t db := by
  obtain ⟨task, ht, ⟨hfalse, -, -⟩ | ⟨-, -, rfl⟩⟩ := cancelTaskExecution_ok h
  · cases hfalse
  refine ⟨⟨_, by simp [ht]; rfl, rfl⟩, ?_, ?_⟩
  · rintro id ⟨run, hr, hrt, hact⟩
    refine ⟨run.cancel (timestamp now), ?_, hrt, rfl⟩
    simp [cancelRuns, Table.get?_updateWhere, hr, hrt, hact]
  · rintro g hg rfl
    obtain ⟨⟨l, hl, hle⟩, -⟩ := grants_bounds hg
    exact ⟨l.release, by simp [hl], hle, fun ha => by cases ha⟩

theorem CancelInv.wins (inv : CancelInv before issued t db) : CancellationWins dg before issued t db where
  task := inv.task
  runs := inv.runs
  activation g hg ht owner id run clock hr hrt := by
    have hguard : guardOf db (.activateWorkerRun id (.held owner g.generation) clock) =
        some ⟨t, owner, g.generation⟩ := by
      simp [guardOf, hr, hrt, LeaseArgs.guard, LeaseArgs.held]
    exact (inv.fenced g hg ht).refused hguard
  launch g hg ht owner id job clock hj hjt := by
    have hguard : guardOf db (.markProviderJobLaunching id ⟨owner, g.generation⟩ clock) =
        some ⟨t, owner, g.generation⟩ := by
      simp [guardOf, hj, hjt]
    exact (inv.fenced g hg ht).refused hguard
  finalize id hid _ _ _ _ _ _ _ h := finalize_cancelled inv.task (inv.runs id hid) h

/-- **Cancellation wins, exactly until a requeue.** After a committed cancellation, the promise holds in every state
of a later sequence of operations if and only if no operation of it interrupts an active run of the cancelled task
under a current lease. -/
theorem cancellation_wins_iff (dg : Digests) (ops : List StoreOp) (t : String) (now : Nat) (db : Db)
    (h : exec dg (.cancelTaskExecution t now) (runOps dg Db.initial ops) = .ok (true, db)) (later : List StoreOp) :
    (∀ pre, pre <+: later →
      CancellationWins dg (runOps dg Db.initial ops) (grants dg Db.initial ops) t (runOps dg db pre)) ↔
    ∀ pre op post, later = pre ++ op :: post → ¬ Requeues (runOps dg db pre) t op := by
  constructor
  · intro hw pre op post he hq
    -- the requeued task is READY one operation later, where the promise still has it cancelled
    obtain ⟨task, ht, hs⟩ := (hw pre ⟨op :: post, he.symm⟩).task
    obtain ⟨task', ht', hs'⟩ := (hw (pre ++ [op]) ⟨post, by rw [he]; simp⟩).task
    have hready := requeues_ready dg ht (by rw [hs]; exact fun h => nomatch h) hq
    rw [runOps_append, runOps_cons, runOps_nil, hready] at ht'
    cases ht'
    cases hs'
  · rintro hq pre ⟨rest, rfl⟩
    refine ((CancelInv.of_cancel h).run pre fun pre' op post he => ?_).wins
    exact hq pre' op (post ++ rest) (by rw [he]; simp)

/-- A ready task and an idle worker. -/
def readyTask : List StoreOp :=
  [.createTask ⟨"t", "p", "#0001", .ready, .single, 0⟩, .upsertWorker "w" ⟨.idle, .available, none⟩]

/-- After the cancellation: a run is created, its job prepared under a reconciliation lease, and reported missing. -/
def requeued : List StoreOp :=
  [.createWorkerRun "t" "w" 1 none "1" 0,
   .claimTaskReconciliation "t" "A" 30000000 true 0,
   .prepareProviderJob "run-1" "mock" "mock-1" {} ⟨"A", 1⟩ "1" ⟨0, 0⟩,
   .interruptMissingProviderJob "run-1" ⟨"A", 1⟩ ⟨0, 0⟩]

theorem CancellationWins.not_ready {task : TaskRow} (hw : CancellationWins dg before issued t db)
    (ht : db.tasks.get? t = some task) : task.state ≠ .ready := by
  obtain ⟨task', ht', hs⟩ := hw.task
  rw [ht] at ht'
  cases ht'
  rw [hs]
  exact TaskState.noConfusion

/-- The cancellation of that task commits, and the task is READY again afterwards. -/
theorem cancellation_requeued :
    ∃ db task, exec .trivial (.cancelTaskExecution "t" 0) (runOps .trivial Db.initial readyTask) = .ok (true, db) ∧
      (runOps .trivial db requeued).tasks.get? "t" = some task ∧ task.state = .ready ∧
      ¬ CancellationWins .trivial (runOps .trivial Db.initial readyTask) (grants .trivial Db.initial readyTask) "t"
        (runOps .trivial db requeued) := by
  obtain ⟨db, hdb, task, ht, hs⟩ : ∃ db,
      exec .trivial (.cancelTaskExecution "t" 0) (runOps .trivial Db.initial readyTask) = .ok (true, db) ∧
      ∃ task, (runOps .trivial db requeued).tasks.get? "t" = some task ∧ task.state = .ready :=
    ⟨_, rfl, ⟨"p", "#0001", .ready, .single, 1, 4, 1, none, none, some 0⟩, by decide, rfl⟩
  exact ⟨db, task, hdb, ht, hs, fun hw => hw.not_ready ht hs⟩

/-- A task that is claimed and cancelled, and whose provider job is then looked after by another owner. -/
def cancelledRun : List StoreOp :=
  readyTask ++
    [.claimTaskDispatch ⟨"t", ["w"], 1, none, some "A", 30000000, none, fun _ => "1", 0⟩,
     .prepareProviderJob "run-1" "mock" "mock-1" {} ⟨"A", 1⟩ "1" ⟨0, 0⟩]

/-- Without a requeue the promise holds: here after a reconciliation claim on the cancelled task. -/
theorem cancellation_wins_reconciled :
    ∃ db, exec .trivial (.cancelTaskExecution "t" 0) (runOps .trivial Db.initial cancelledRun) = .ok (true, db) ∧
      CancellationWins .trivial (runOps .trivial Db.initial cancelledRun) (grants .trivial Db.initial cancelledRun) "t"
        (runOps .trivial db [.claimTaskReconciliation "t" "B" 30000000 true 0]) := by
  obtain ⟨db, hdb⟩ : ∃ db,
      exec .trivial (.cancelTaskExecution "t" 0) (runOps .trivial Db.initial cancelledRun) = .ok (true, db) := ⟨_, rfl⟩
  refine ⟨db, hdb, (cancellation_wins_iff .trivial cancelledRun "t" 0 db hdb _).mpr ?_ _ (List.prefix_refl _)⟩
  intro pre op post he hq
  have hmem : op ∈ [StoreOp.claimTaskReconciliation "t" "B" 30000000 true 0] := by rw [he]; simp
  rw [List.mem_singleton.mp hmem] at hq
  exact hq

end AgentFabric.Store
