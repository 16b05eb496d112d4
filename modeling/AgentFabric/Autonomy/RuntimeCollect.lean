import Mathlib.Logic.Function.Basic
import Mathlib.Logic.Relation
import AgentFabric.Store.Ops

/-!
# Collecting a dispatched task

`SupervisorRuntimeDispatcher.collect` of `autonomy.py` judges a reviewed task from rows that it reads in separate
transactions, and then marks it SUCCEEDED without a version.
-/

namespace AgentFabric.Autonomy

open AgentFabric.Lib AgentFabric.Store

/-! ## The collector -/

/-- `ORDER BY attempt ASC, created_at ASC, id ASC`. -/
def runOrder (a b : String × RunRow) : Prop :=
  a.2.attempt < b.2.attempt ∨ (a.2.attempt = b.2.attempt ∧
    (a.2.createdAt < b.2.createdAt ∨ (a.2.createdAt = b.2.createdAt ∧ a.1 ≤ b.1)))

instance : DecidableRel runOrder := fun _ _ => inferInstanceAs (Decidable (_ ∨ _))

/-- `list_worker_runs`. -/
def workerRunsOf (db : Db) (taskId : String) : List (String × RunRow) :=
  (db.runs.rows.filter fun e => decide (e.2.taskId = taskId)).insertionSort runOrder

/-- `max((run["attempt"] for run in runs), default=0)`. -/
def verifiedAttempt (runs : List (String × RunRow)) : Nat := ((runs.map fun e => e.2.attempt).max?).getD 0

def cleanRun (run : RunRow) : Bool := decide (run.state = .completed) && decide (run.detail.exitCode = some 0)

def exitPolicyPassed (runs : List (String × RunRow)) : Bool :=
  let attemptRuns := runs.filter fun e => decide (e.2.attempt = verifiedAttempt runs)
  !attemptRuns.isEmpty && attemptRuns.all fun e => cleanRun e.2

/-- The states that `collect` waits out. -/
def unsettled : TaskState → Bool
  | .ready | .running | .waiting | .interrupted => true
  | _ => false

/-- The `ActionResult` of a collection, with its payload. -/
structure CollectResult where
  succeeded : Bool
  summary : String
  taskId : String
  taskState : TaskState
  scope : Option (String × Nat)
  cancelled : Bool
deriving DecidableEq, Repr

/-- Where a collector is. -/
inductive Collector where
  | idle
  /-- in the loop; the next transaction is `get_task` -/
  | polling (taskId : String)
  /-- the loop ended with this row; the next transaction is `list_worker_runs` -/
  | settled (taskId : String) (task : TaskRow)
  /-- the results of the pending runs are read one by one; then comes `record_verification` -/
  | listed (taskId : String) (task : TaskRow) (runs pending : List (String × RunRow)) (summaries : List String)
  /-- the next transaction is `transition_task` -/
  | approved (taskId : String) (summaries : List String)
  /-- `transition_task` reads the row that it returns -/
  | marked (taskId : String) (summaries : List String)
  | returned (result : CollectResult)
  | raised (error : StoreError)
deriving DecidableEq, Repr

/-- `"\n".join(summaries) or f"task ended in {state}"`. -/
def collectSummary (summaries : List String) (state : TaskState) : String :=
  let text := "\n".intercalate summaries
  if text = "" then "task ended in " ++ state.value else text

def collectResult (taskId : String) (summaries : List String) (succeeded : Bool) (state : TaskState) :
    CollectResult where
  succeeded := succeeded
  summary := collectSummary summaries state
  taskId := taskId
  taskState := state
  scope := none
  cancelled := decide (state = .cancelled)

/-- A call of `collect` with the task of the handle. -/
def Collector.begin : Option String → Collector
  | none => .raised (.valueError "runtime dispatch handle has no task id")
  | some taskId => .polling taskId

/-- What follows the recorded exit policy of a reviewed task. -/
def Collector.afterPolicy (taskId : String) (task : TaskRow) (runs : List (String × RunRow)) (summaries : List String) :
    Collector :=
  if exitPolicyPassed runs = false then
    .returned
      { succeeded := false
        summary := "Worker exit policy did not verify execution success"
        taskId := taskId
        taskState := task.state
        scope := none
        cancelled := false }
  else
    match task.currentVerificationScopeId with
    | some scopeId =>
      .returned
        { succeeded := false
          summary := "Worker exit policy passed; Task remains REVIEWING until its current " ++
            "version-scoped acceptance criteria are verified"
          taskId := taskId
          taskState := task.state
          scope := some (scopeId, task.definitionRevision)
          cancelled := false }
    | none => .approved taskId summaries

/-- The next transaction of a collector. -/
def Collector.advance (db : Db) (clock : Clock) (uuid : String) : Collector → Collector × Db
  | .polling taskId =>
    match db.tasks.get? taskId with
    | none => (.raised (.keyError taskId), db)
    | some task => (if unsettled task.state = true then .polling taskId else .settled taskId task, db)
  | .settled taskId task =>
    let runs := workerRunsOf db taskId
    (.listed taskId task runs runs [], db)
  | .listed taskId task runs (run :: pending) summaries =>
    (.listed taskId task runs pending (summaries ++ ((db.results.get? run.1).map ResultValues.summary).toList), db)
  | .listed taskId task runs [] summaries =>
    if task.state = .reviewing then
      match recordVerification db ⟨taskId, "workerExitPolicy", exitPolicyPassed runs, none, none, none, uuid⟩ with
      | .error e => (.raised e, db)
      | .ok (_, db') => (.afterPolicy taskId task runs summaries, db')
    else (.returned (collectResult taskId summaries (decide (task.state = .succeeded)) task.state), db)
  | .approved taskId summaries =>
    match transitionTask db taskId .succeeded none .absent clock with
    | .error e => (.raised e, db)
    | .ok (_, db') => (.marked taskId summaries, db')
  | .marked taskId summaries =>
    match db.tasks.get? taskId with
    | none => (.raised (.keyError taskId), db)
    | some task => (.returned (collectResult taskId summaries true task.state), db)
  | other => (other, db)

/-! ## Any number of collectors -/

structure Fleet (ι : Type) where
  db : Db
  collector : ι → Collector

/-- A collection starts, a collector makes its next transaction, or another client writes. What `collect` asks of the
runtime while it waits is done by the runtime's own clients. -/
inductive FleetStep (ι : Type) where
  | start (c : ι) (taskId : Option String)
  | advance (c : ι) (clock : Clock) (uuid : String)
  | write (op : StoreOp)

variable {ι : Type} [DecidableEq ι]

/-- Any number of collectors beside any other client of the store. -/
def Fleet.step (dg : Digests) (fleet : Fleet ι) : FleetStep ι → Fleet ι
  | .start c taskId => { fleet with collector := Function.update fleet.collector c (.begin taskId) }
  | .advance c clock uuid =>
    let (collector, db) := (fleet.collector c).advance fleet.db clock uuid
    { db := db, collector := Function.update fleet.collector c collector }
  | .write op => { fleet with db := apply dg fleet.db op }

def Fleet.run (dg : Digests) (fleet : Fleet ι) (steps : List (FleetStep ι)) : Fleet ι :=
  steps.foldl (Fleet.step dg) fleet

/-- The step is a collector's, and it writes the task as SUCCEEDED. -/
def Fleet.Marks (dg : Digests) (fleet : Fleet ι) (step : FleetStep ι) (taskId : String) : Prop :=
  (∃ c clock uuid, step = .advance c clock uuid) ∧
  ∃ row, (fleet.step dg step).db.tasks.get? taskId = some row ∧ row.state = .succeeded ∧
    fleet.db.tasks.get? taskId ≠ some row

def currentScope (db : Db) (taskId : String) : Option String :=
  (db.tasks.get? taskId).bind TaskRow.currentVerificationScopeId

/-- Every run of the task's latest attempt completed with exit code 0, and there is one. -/
def LatestCompleted (db : Db) (taskId : String) : Prop :=
  ∃ attempt, latestAttempt db taskId = some attempt ∧ ∀ id run, db.runs.get? id = some run → run.taskId = taskId →
    run.attempt = attempt → run.state = .completed ∧ run.detail.exitCode = some 0

/-! ## Calm steps -/

/-- A row on which a collector goes on to mark the task. -/
def unscopedReview (task : TaskRow) : Bool :=
  decide (task.state = .reviewing) && decide (task.currentVerificationScopeId = none)

/-- The task that a collector is going to mark, and whether it has read the runs. -/
def Collector.intent : Collector → Option (String × Bool)
  | .settled taskId task => if unscopedReview task = true then some (taskId, false) else none
  | .listed taskId task runs _ _ =>
    if (unscopedReview task && exitPolicyPassed runs) = true then some (taskId, true) else none
  | .approved taskId _ => some (taskId, true)
  | _ => none

/-- No client writes the scope or the runs of a task after a collector that is going to mark it has read them. -/
def Calm (dg : Digests) (fleet : Fleet ι) : FleetStep ι → Prop
  | .write op => ∀ c taskId listed, (fleet.collector c).intent = some (taskId, listed) →
      currentScope (apply dg fleet.db op) taskId = currentScope fleet.db taskId ∧
      (listed = true → workerRunsOf (apply dg fleet.db op) taskId = workerRunsOf fleet.db taskId)
  | _ => True

/-- Every step of the run is calm where it happens. -/
def CalmRun (dg : Digests) : Fleet ι → List (FleetStep ι) → Prop
  | _, [] => True
  | fleet, step :: steps => Calm dg fleet step ∧ CalmRun dg (fleet.step dg step) steps

/-! ## What a collector writes -/

variable {db db' : Db}

theorem currentScope_congr (h : db'.tasks = db.tasks) (taskId : String) :
    currentScope db' taskId = currentScope db taskId := by
  rw [currentScope, h, currentScope]

theorem workerRunsOf_congr (h : db'.runs = db.runs) (taskId : String) :
    workerRunsOf db' taskId = workerRunsOf db taskId := by
  rw [workerRunsOf, h, workerRunsOf]

variable {dg : Digests}

omit [DecidableEq ι] in
theorem recordVerification_keeps {verification : NewVerification} {id : String}
    (h : recordVerification db verification = .ok (id, db')) : db'.tasks = db.tasks ∧ db'.runs = db.runs := by
  obtain ⟨_, _, rfl⟩ := recordVerification_ok h
  exact ⟨rfl, rfl⟩

variable {taskId t : String}

theorem transitionTask_keeps {target : TaskState} {version : Option Nat} {lease : LeaseArgs} {clock : Clock}
    {u : Unit} (h : transitionTask db taskId target version lease clock = .ok (u, db')) (t : String) :
    currentScope db' t = currentScope db t ∧ db'.runs = db.runs ∧
      (t ≠ taskId → db'.tasks.get? t = db.tasks.get? t) := by
  obtain ⟨row, hrow, -, -, rfl⟩ := transitionTask_ok h
  refine ⟨?_, rfl, fun hne => Table.get?_modify_ne _ _ hne⟩
  simp only [currentScope, Table.get?_modify]
  split
  · rename_i heq
    rw [heq, hrow]
    rfl
  · rfl

/-- No transaction of a collector changes a scope or a run. -/
theorem advance_keeps (k : Collector) (db : Db) (clock : Clock) (uuid t : String) :
    currentScope (k.advance db clock uuid).2 t = currentScope db t ∧
      workerRunsOf (k.advance db clock uuid).2 t = workerRunsOf db t := by
  cases k with
  | polling =>
    simp only [Collector.advance]
    split <;> exact ⟨rfl, rfl⟩
  | listed taskId task runs pending =>
    cases pending with
    | cons => exact ⟨rfl, rfl⟩
    | nil =>
      simp only [Collector.advance]
      split
      · split
        · exact ⟨rfl, rfl⟩
        · rename_i h
          obtain ⟨htasks, hruns⟩ := recordVerification_keeps h
          exact ⟨currentScope_congr htasks t, workerRunsOf_congr hruns t⟩
      · exact ⟨rfl, rfl⟩
  | approved =>
    simp only [Collector.advance]
    split
    · exact ⟨rfl, rfl⟩
    · rename_i h
      obtain ⟨hscope, hruns, -⟩ := transitionTask_keeps h t
      exact ⟨hscope, workerRunsOf_congr hruns t⟩
  | marked =>
    simp only [Collector.advance]
    split <;> exact ⟨rfl, rfl⟩
  | _ => exact ⟨rfl, rfl⟩

variable {k : Collector}

/-- Only the transition of an approved collector writes a task row. -/
theorem advance_writes {clock : Clock} {uuid : String}
    (h : (k.advance db clock uuid).2.tasks.get? t ≠ db.tasks.get? t) : ∃ summaries, k = .approved t summaries := by
  cases k with
  | polling =>
    simp only [Collector.advance] at h
    split at h <;> exact absurd rfl h
  | listed taskId task runs pending =>
    cases pending with
    | cons => exact absurd rfl h
    | nil =>
      simp only [Collector.advance] at h
      split at h
      · split at h
        · exact absurd rfl h
        · rename_i hv
          exact absurd (by rw [(recordVerification_keeps hv).1]) h
      · exact absurd rfl h
  | approved taskId summaries =>
    by_cases hne : t = taskId
    · exact ⟨summaries, by rw [hne]⟩
    · simp only [Collector.advance] at h
      split at h
      · exact absurd rfl h
      · rename_i ht
        exact absurd ((transitionTask_keeps ht t).2.2 hne) h
  | marked =>
    simp only [Collector.advance] at h
    split at h <;> exact absurd rfl h
  | _ => exact absurd rfl h

/-! ## The invariant -/

/-- What a collector that is going to mark a task has read still holds. -/
def Collector.Current (db : Db) (k : Collector) : Prop :=
  ∀ taskId listed, k.intent = some (taskId, listed) → currentScope db taskId = none ∧
    (listed = true → exitPolicyPassed (workerRunsOf db taskId) = true)

theorem Collector.Current.of_intent (h : k.intent = none) : k.Current db := by
  intro taskId listed hi
  rw [h] at hi
  cases hi

theorem unscopedReview_iff {task : TaskRow} :
    unscopedReview task = true ↔ task.state = .reviewing ∧ task.currentVerificationScopeId = none := by
  simp [unscopedReview]

theorem intent_settled {task : TaskRow} {listed : Bool} :
    Collector.intent (.settled taskId task) = some (t, listed) ↔
      unscopedReview task = true ∧ t = taskId ∧ listed = false := by
  by_cases hreview : unscopedReview task = true
  · simp only [Collector.intent, hreview, if_true, Option.some.injEq, Prod.mk.injEq, true_and]
    constructor <;> (rintro ⟨rfl, rfl⟩; exact ⟨rfl, rfl⟩)
  · simp [Collector.intent, hreview]

theorem intent_listed {task : TaskRow} {runs pending : List (String × RunRow)} {summaries : List String}
    {listed : Bool} :
    Collector.intent (.listed taskId task runs pending summaries) = some (t, listed) ↔
      (unscopedReview task = true ∧ exitPolicyPassed runs = true) ∧ t = taskId ∧ listed = true := by
  by_cases hread : unscopedReview task = true ∧ exitPolicyPassed runs = true
  · simp only [Collector.intent, hread, Bool.and_self, if_true, Option.some.injEq, Prod.mk.injEq, true_and, and_self]
    constructor <;> (rintro ⟨rfl, rfl⟩; exact ⟨rfl, rfl⟩)
  · simp [Collector.intent, hread]

theorem Collector.Current.keep (h : k.Current db)
    (hkeep : ∀ taskId listed, k.intent = some (taskId, listed) → currentScope db' taskId = currentScope db taskId ∧
      (listed = true → workerRunsOf db' taskId = workerRunsOf db taskId)) : k.Current db' := by
  intro taskId listed hi
  obtain ⟨hscope, hruns⟩ := hkeep taskId listed hi
  obtain ⟨hnone, hpassed⟩ := h taskId listed hi
  refine ⟨hscope.trans hnone, fun hl => ?_⟩
  rw [hruns hl]
  exact hpassed hl

theorem Collector.Current.advance (h : k.Current db) (clock : Clock) (uuid : String) :
    (k.advance db clock uuid).1.Current (k.advance db clock uuid).2 := by
  cases k with
  | polling =>
    simp only [Collector.advance]
    split
    · exact .of_intent rfl
    · rename_i task ht
      split
      · exact .of_intent rfl
      · intro t listed hi
        obtain ⟨hreview, rfl, rfl⟩ := intent_settled.mp hi
        refine ⟨?_, fun hl => (by cases hl)⟩
        rw [currentScope, ht]
        exact (unscopedReview_iff.mp hreview).2
  | settled =>
    intro t listed hi
    obtain ⟨⟨hreview, hpassed⟩, rfl, rfl⟩ := intent_listed.mp hi
    exact ⟨(h t false (intent_settled.mpr ⟨hreview, rfl, rfl⟩)).1, fun _ => hpassed⟩
  | listed taskId task runs pending summaries =>
    cases pending with
    | cons => exact h
    | nil =>
      simp only [Collector.advance]
      split
      · rename_i hreview
        split
        · exact .of_intent rfl
        · rename_i hv
          obtain ⟨htasks, hruns⟩ := recordVerification_keeps hv
          unfold Collector.afterPolicy
          split
          · exact .of_intent rfl
          · rename_i hpassed
            rw [Bool.not_eq_false] at hpassed
            split
            · exact .of_intent rfl
            · rename_i hscope
              have hread : Collector.intent (.listed taskId task runs [] summaries) = some (taskId, true) :=
                intent_listed.mpr ⟨⟨unscopedReview_iff.mpr ⟨hreview, hscope⟩, hpassed⟩, rfl, rfl⟩
              intro t listed hi
              cases hi
              obtain ⟨hnone, hclean⟩ := h taskId true hread
              rw [currentScope_congr htasks, workerRunsOf_congr hruns]
              exact ⟨hnone, hclean⟩
      · exact .of_intent rfl
  | approved =>
    simp only [Collector.advance]
    split
    · exact .of_intent rfl
    · exact .of_intent rfl
  | marked =>
    simp only [Collector.advance]
    split <;> exact .of_intent rfl
  | _ => exact .of_intent rfl

def Fleet.Current (fleet : Fleet ι) : Prop := ∀ c, (fleet.collector c).Current fleet.db

/-- A calm step keeps the collectors current. -/
theorem Fleet.Current.step {fleet : Fleet ι} (h : fleet.Current) {step : FleetStep ι} (hcalm : Calm dg fleet step) :
    (fleet.step dg step).Current := by
  intro c
  cases step with
  | start c' taskId =>
    by_cases hc : c = c'
    · subst hc
      simp only [Fleet.step, Function.update_self]
      cases taskId <;> exact .of_intent rfl
    · simp only [Fleet.step, Function.update_of_ne hc]
      exact h c
  | advance c' clock uuid =>
    by_cases hc : c = c'
    · subst hc
      simp only [Fleet.step, Function.update_self]
      exact (h c).advance clock uuid
    · simp only [Fleet.step, Function.update_of_ne hc]
      refine (h c).keep fun t _ _ => ?_
      obtain ⟨hscope, hruns⟩ := advance_keeps (fleet.collector c') fleet.db clock uuid t
      exact ⟨hscope, fun _ => hruns⟩
  | write => exact (h c).keep (hcalm c)

/-- So does a calm run. -/
theorem Fleet.Current.run {fleet : Fleet ι} (h : fleet.Current) {steps : List (FleetStep ι)}
    (hcalm : CalmRun dg fleet steps) : (fleet.run dg steps).Current := by
  induction steps generalizing fleet with
  | nil => exact h
  | cons step steps ih => exact ih (h.step hcalm.1) hcalm.2

/-! ## Marking -/

theorem mem_workerRunsOf {e : String × RunRow} :
    e ∈ workerRunsOf db taskId ↔ db.runs.get? e.1 = some e.2 ∧ e.2.taskId = taskId := by
  simp only [workerRunsOf, List.mem_insertionSort, List.mem_filter, decide_eq_true_eq]
  rw [show e = (e.1, e.2) from rfl, Table.mem_rows]

theorem latestAttempt_of_passed (h : exitPolicyPassed (workerRunsOf db taskId) = true) :
    latestAttempt db taskId = some (verifiedAttempt (workerRunsOf db taskId)) := by
  have hperm : (workerRunsOf db taskId).Perm (db.runs.rows.filter fun e => decide (e.2.taskId = taskId)) :=
    List.perm_insertionSort ..
  cases hmax : ((workerRunsOf db taskId).map fun e => e.2.attempt).max? with
  | none =>
    -- without runs the policy fails
    rw [List.max?_eq_none_iff, List.map_eq_nil_iff] at hmax
    rw [hmax] at h
    cases h
  | some attempt =>
    rw [verifiedAttempt, hmax, latestAttempt]
    rw [List.max?_eq_some_iff] at hmax ⊢
    have hmem := fun n => (hperm.map fun e => e.2.attempt).mem_iff (a := n)
    exact ⟨(hmem attempt).mp hmax.1, fun b hb => hmax.2 b ((hmem b).mpr hb)⟩

theorem latestCompleted_of_passed (h : exitPolicyPassed (workerRunsOf db taskId) = true) :
    LatestCompleted db taskId := by
  refine ⟨_, latestAttempt_of_passed h, ?_⟩
  intro id run hrun htask hattempt
  simp only [exitPolicyPassed, Bool.and_eq_true, List.all_eq_true] at h
  have hmem : (id, run) ∈ workerRunsOf db taskId := mem_workerRunsOf.mpr ⟨hrun, htask⟩
  have hclean := h.2 (id, run) (List.mem_filter.mpr ⟨hmem, decide_eq_true hattempt⟩)
  simpa [cleanRun] using hclean

/-- **Collection respects the scope while nobody writes in between.** In every run of collectors and other clients
whose steps are calm, a collector marks a task SUCCEEDED only when the task has no current scope and every run of its
latest attempt completed with exit code 0. -/
theorem calm_collection (dg : Digests) (fleet : Fleet ι) (hidle : ∀ c, fleet.collector c = .idle)
    (steps : List (FleetStep ι)) (hcalm : CalmRun dg fleet steps) (step : FleetStep ι) (taskId : String)
    (hmarks : (fleet.run dg steps).Marks dg step taskId) :
    currentScope (fleet.run dg steps).db taskId = none ∧ LatestCompleted (fleet.run dg steps).db taskId := by
  have hcurrent : fleet.Current := fun c => .of_intent (by rw [hidle c]; rfl)
  obtain ⟨⟨c, clock, uuid, rfl⟩, row, hrow, -, hbefore⟩ := hmarks
  have hwrites : ((((fleet.run dg steps).collector c).advance (fleet.run dg steps).db clock uuid).2.tasks.get? taskId) ≠
      (fleet.run dg steps).db.tasks.get? taskId := by
    intro heq
    exact hbefore (heq ▸ hrow)
  obtain ⟨summaries, hk⟩ := advance_writes hwrites
  obtain ⟨hscope, hpassed⟩ := hcurrent.run hcalm c taskId true (by rw [hk]; rfl)
  exact ⟨hscope, latestCompleted_of_passed (hpassed rfl)⟩

/-! ## What a write in between leads to -/

/-- An unscoped task under review, whose only run completed with exit code 0. -/
def reviewedTask : List StoreOp :=
  [.createTask ⟨"t", "p", "#0001", .ready, .single, 0⟩,
   .addAcceptanceCriterion ⟨"c", "p", "command", "tests pass", none, none⟩ 0,
   .upsertWorker "w" ⟨.idle, .available, none⟩,
   .claimTaskDispatch ⟨"t", ["w"], 1, none, some "A", 30000000, none, fun _ => "1", 0⟩,
   .activateWorkerRun "run-1" (.held "A" 1) ⟨0, 0⟩,
   .transitionWorkerRun "run-1" .completed { RunDetail.empty with exitCode := some 0 } (.held "A" 1) ⟨0, 0⟩,
   .transitionTask "t" .reviewing none (.held "A" 1) ⟨0, 0⟩,
   .releaseTaskExecutionLease "t" "A" 1,
   .upsertWorker "w" ⟨.idle, .available, none⟩]

/-- One collector beside that task. -/
def reviewedFleet : Fleet Unit := ⟨runOps .trivial Db.initial reviewedTask, fun _ => .idle⟩

/-- The collector has read the task and its runs, and recorded that the exit policy passed. -/
def judgedSteps : List (FleetStep Unit) :=
  [.start () (some "t"), .advance () ⟨0, 0⟩ "", .advance () ⟨0, 0⟩ "", .advance () ⟨0, 0⟩ "", .advance () ⟨0, 0⟩ "1"]

/-- Without a write in between, the collector marks the task. -/
theorem calm_collection_reviewed :
    currentScope (reviewedFleet.run .trivial judgedSteps).db "t" = none ∧
      LatestCompleted (reviewedFleet.run .trivial judgedSteps).db "t" :=
  calm_collection .trivial reviewedFleet (fun _ => rfl) judgedSteps
    ⟨trivial, trivial, trivial, trivial, trivial, trivial⟩ (.advance () ⟨0, 0⟩ "") "t"
    ⟨⟨(), ⟨0, 0⟩, "", rfl⟩, ⟨"p", "#0001", .succeeded, .single, 1, 4, 1, none, some 0, some 0⟩, by decide, rfl,
      by decide⟩

/-- A scope is bound before the collector marks the task. -/
def reboundSteps : List (FleetStep Unit) :=
  judgedSteps ++ [.write (.bindTaskVerificationScope ⟨"t", none, none, none, none, none, "1", fun _ => "1", 0⟩)]

/-- The task is sent back and dispatched again before the collector marks it. -/
def retriedSteps : List (FleetStep Unit) :=
  judgedSteps ++
    [.write (.applyTaskVerification ⟨"t", ⟨false, [], []⟩, none, none, none, none, fun _ => "2", 0⟩),
     .write (.claimTaskDispatch ⟨"t", ["w"], 4, none, some "A", 30000000, none, fun _ => "2", 0⟩)]

/-- The collector marks a task that has a scope by now, and one whose latest attempt has only just started. -/
theorem collection_bypasses :
    (∃ step, (reviewedFleet.run .trivial reboundSteps).Marks .trivial step "t" ∧
      currentScope (reviewedFleet.run .trivial reboundSteps).db "t" = some "verification-scope-1") ∧
    (∃ step, (reviewedFleet.run .trivial retriedSteps).Marks .trivial step "t" ∧
      ¬ LatestCompleted (reviewedFleet.run .trivial retriedSteps).db "t") := by
  refine ⟨⟨.advance () ⟨0, 0⟩ "", ⟨⟨(), ⟨0, 0⟩, "", rfl⟩, ?_⟩, by decide⟩,
    ⟨.advance () ⟨0, 0⟩ "", ⟨⟨(), ⟨0, 0⟩, "", rfl⟩, ?_⟩, ?_⟩⟩
  · exact ⟨⟨"p", "#0001", .succeeded, .single, 1, 5, 1, some "verification-scope-1", some 0, some 0⟩,
      by decide, rfl, by decide +kernel⟩
  · exact ⟨⟨"p", "#0001", .succeeded, .single, 2, 6, 1, none, some 0, some 0⟩, by decide, rfl,
      by decide⟩
  · rintro ⟨attempt, hlatest, hall⟩
    have hsecond : latestAttempt (reviewedFleet.run .trivial retriedSteps).db "t" = some 2 := by decide
    rw [hsecond] at hlatest
    cases hlatest
    have hrun : (reviewedFleet.run .trivial retriedSteps).db.runs.get? "run-2" =
        some ⟨"t", "w", .starting, 2, none, none, some 1, 0, none, none, .empty⟩ := by decide
    cases (hall _ _ hrun rfl rfl).1

end AgentFabric.Autonomy
