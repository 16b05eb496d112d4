import AgentFabric.Submission.Programs
import AgentFabric.Runtime.Histories

/-!
# The goal of an invocation

A task can run as soon as it is submitted, but the row that links it to the goal is written later; the telemetry of a
run keeps the goal that was found when it was recorded.
-/

namespace AgentFabric.Submission

open AgentFabric.Lib AgentFabric.Store

def submittedBy : Event Nat Call Call.Reply → Option String
  | ⟨_, .submit (.createTask task), .ok _⟩ => some task.id
  | _ => none

/-- The tasks that were submitted for an action or a decision of the goal. -/
def submitted (trace : List (Event Nat Call Call.Reply)) : List String := trace.filterMap submittedBy

/-- An action or a decision is linked to the task. -/
def Linked (w : Fabric) (taskId : String) : Bool :=
  w.db.actions.any (fun _ action => decide (action.taskId = some taskId)) || (w.decisions.get? taskId).isSome

/-- Every record of a run of a task of the goal names the goal. -/
def Attributed (g : String) (h : History) : Prop :=
  ∀ runId row, h.state.telemetry.get? runId = some row → row.taskId ∈ submitted h.trace → row.goalId = some g

section

variable (dg : Digests) (host : EngineHost) (g : String) (admitted : StoreOp → Bool)

/-- A schedule of the engine of one goal, of runtimes and of their clients, from an empty database. -/
def fabricRun (moves : List (Move Nat Request Environment)) : Pool Nat History Call Call.Reply :=
  (Pool.quiet ⟨Fabric.initial, []⟩).run (machine dg).traced (serve host g admitted) moves

/-- Whenever the goal of a task of the goal is looked up, the task is linked already. -/
def LookupsLinked (moves : List (Move Nat Request Environment)) : Prop :=
  ∀ before m after i taskId reply, moves = before ++ m :: after →
    (fabricRun dg host g admitted (before ++ [m])).shared.trace =
      (fabricRun dg host g admitted before).shared.trace ++ [⟨i, .goalContext taskId, reply⟩] →
    taskId ∈ submitted (fabricRun dg host g admitted moves).shared.trace →
    Linked (fabricRun dg host g admitted before).shared.state taskId = true

end

variable {dg : Digests} {host : EngineHost} {g : String} {admitted : StoreOp → Bool} {h : History} {i : Nat}
  {env : Environment}

/-! ## What a lookup finds -/

/-- Every action and every decision belongs to the goal. -/
structure OfGoal (g : String) (w : Fabric) : Prop where
  actions : ∀ id action, w.db.actions.get? id = some action → action.goalId = g
  decisions : ∀ taskId row, w.decisions.get? taskId = some row → row.goalId = g

variable {taskId runId : String}

theorem goalContext_iff {w : Fabric} (hw : OfGoal g w) :
    goalContextForTask w taskId = some g ↔ Linked w taskId = true := by
  unfold goalContextForTask
  split
  · rename_i e he
    obtain ⟨hmem, hlink⟩ := List.mem_filter.mp (List.mem_of_getLast? he)
    have hrow := Table.mem_rows.mp hmem
    have hlinked : Linked w taskId = true :=
      Bool.or_eq_true_iff.mpr (Or.inl (Table.any_eq_true.mpr ⟨_, _, hrow, hlink⟩))
    simp [hw.actions e.1 e.2 hrow, hlinked]
  · rename_i hnone
    have hempty : w.db.actions.any (fun _ action => decide (action.taskId = some taskId)) = false := by
      refine Table.any_eq_false.mpr fun id action hrow => ?_
      have hnil := List.getLast?_eq_none_iff.mp hnone
      have hnot := List.filter_eq_nil_iff.mp hnil _ (Table.mem_rows.mpr hrow)
      simpa using hnot
    rw [Linked, hempty, Bool.false_or]
    cases hrow : w.decisions.get? taskId with
    | none => simp
    | some row => simp [hw.decisions taskId row hrow]

/-! ## What the calls keep -/

/-- The links and the records of a history. -/
structure Attributable (g : String) (h : History) : Prop extends OfGoal g h.state where
  looked : ∀ runId row, h.state.telemetry.get? runId = some row →
    ∃ j, (⟨j, .goalContext row.taskId, row.goalId⟩ : Event Nat Call Call.Reply) ∈ h.trace

/-- The calls that record no telemetry and link nothing to another goal. -/
def Call.plain (g : String) : Call → Prop
  | .runtime c => ∀ op, c ≠ .store (.goal op)
  | .engine c => c.ofEngine g ∨ c.ofClient
  | .submit op => op.writesGoals = false
  | .bindDecision _ binding => binding.goalId = g
  | .record .. => False
  | _ => True

theorem stamp_writesGoals (clock : Clock) (uuid : String → String) (op : StoreOp) :
    (Runtime.stamp clock uuid op).writesGoals = op.writesGoals := by
  cases op <;> rfl

theorem runtime_actions (dg : Digests) (w : Runtime.World) (env : Runtime.Environment) {c : Runtime.Call}
    (hc : ∀ op, c ≠ .store (.goal op)) : (Runtime.act dg w env c).2.db.actions = w.db.actions := by
  rcases Runtime.act_db dg w env c with hdb | ⟨op, clock, uuid, r, rfl, hexec⟩
  · rw [hdb]
  · refine (exec_frame hexec).actions ?_
    rw [stamp_writesGoals]
    cases op with
    | goal op => exact absurd rfl (hc op)
    | _ => rfl

/-- The engine of the goal and the clients leave every action with the goal. -/
theorem engine_actions {db : Db} {env : Autonomy.Environment} {c : Autonomy.Call} (hc : c.ofEngine g ∨ c.ofClient)
    (h : ∀ id action, db.actions.get? id = some action → action.goalId = g) (id : String) (action : ActionRow)
    (hrow : (Autonomy.act dg db env c).2.actions.get? id = some action) : action.goalId = g := by
  cases c with
  | transact op =>
    simp only [Autonomy.act, Autonomy.commit] at hrow
    cases hop : execGoal op db with
    | error => rw [hop] at hrow; exact h id action hrow
    | ok result =>
      rw [hop] at hrow
      cases (execGoal_change hop).actions with
      | same _ hsame => exact h id action (by rwa [← hsame])
      | set id' state handle result error hset =>
        rw [hset, Table.get?_modify] at hrow
        split at hrow
        · obtain ⟨old, hold, rfl⟩ := Option.map_eq_some_iff.mp hrow
          exact h _ old hold
        · exact h id action hrow
      | plan iterationId goalId plan expected actionId hins =>
        have hgoal : goalId = g := hc.resolve_right fun hclient => hclient
        rcases (Table.get?_insertAll hins).mp hrow with hold | hnew
        · exact h id action hold
        · exact (Autonomy.plannedRows_fresh hnew).1.trans hgoal
  | store op =>
    have hother : op.writesGoals = false := hc.resolve_left fun hengine => hengine
    simp only [Autonomy.act, Autonomy.commit] at hrow
    cases hop : exec dg op db with
    | error => rw [hop] at hrow; exact h id action hrow
    | ok =>
      rw [hop] at hrow
      exact h id action ((exec_frame hop).actions hother ▸ hrow)
  | _ => exact h id action hrow

theorem bindDecision_goal {decisions decisions' : Table String DecisionRow} {binding : DecisionRow}
    (hbind : bindDecision decisions taskId binding = .ok decisions') (hgoal : binding.goalId = g)
    (h : ∀ taskId row, decisions.get? taskId = some row → row.goalId = g) (t : String) (row : DecisionRow)
    (hrow : decisions'.get? t = some row) : row.goalId = g := by
  unfold bindDecision at hbind
  split at hbind
  · split at hbind
    · cases hbind
      exact h t row hrow
    · cases hbind
  · split at hbind
    · cases hbind
    · cases hbind
      rw [Table.get?_upsert] at hrow
      split at hrow
      · obtain rfl := Option.some.inj hrow
        exact hgoal
      · exact h t row hrow

theorem Attributable.quiet {w : Fabric} {e : Event Nat Call Call.Reply} (hh : Attributable g h) (hw : OfGoal g w)
    (ht : w.telemetry = h.state.telemetry) : Attributable g ⟨w, h.trace ++ [e]⟩ := by
  refine ⟨hw, fun runId row hrow => ?_⟩
  obtain ⟨j, hj⟩ := hh.looked runId row (ht ▸ hrow)
  exact ⟨j, List.mem_append_left _ hj⟩

/-- A plain call keeps the attribution. -/
theorem plain_step {c : Call} (hc : c.plain g) (hh : Attributable g h) :
    Attributable g ((machine dg).traced.act i h env c).2 := by
  have hold : OfGoal g h.state := hh.toOfGoal
  cases c with
  | runtime =>
    exact hh.quiet ⟨fun id action hrow => hold.actions id action
      (runtime_actions dg h.state.runtime env.runtime hc ▸ hrow), hold.decisions⟩ rfl
  | engine => exact hh.quiet ⟨fun id action hrow => engine_actions hc hold.actions id action hrow, hold.decisions⟩ rfl
  | submit op =>
    refine hh.quiet ⟨fun id action hrow => hold.actions id action ?_, hold.decisions⟩ rfl
    have hop : ∀ op', (Runtime.Call.store op) ≠ .store (.goal op') := by
      rintro op' heq
      obtain rfl := Runtime.Call.store.inj heq
      cases hc
    exact runtime_actions dg h.state.runtime env.runtime hop ▸ hrow
  | bindDecision taskId binding =>
    refine hh.quiet ⟨hold.actions, fun t row hrow => ?_⟩ rfl
    cases hbind : bindDecision h.state.decisions taskId binding with
    | error =>
      simp only [hbind, Except.toOption, Option.getD_none] at hrow
      exact hold.decisions t row hrow
    | ok =>
      simp only [hbind, Except.toOption, Option.getD_some] at hrow
      exact bindDecision_goal hbind hc hold.decisions t row hrow
  | record => exact absurd hc id
  | _ => exact hh.quiet hold rfl

/-- So does a record with the goal that was looked up. -/
theorem record_step {goalId : Option String} {j : Nat}
    (hlook : (⟨j, .goalContext taskId, goalId⟩ : Event Nat Call Call.Reply) ∈ h.trace) (hh : Attributable g h) :
    Attributable g ((machine dg).traced.act i h env (.record runId ⟨taskId, goalId⟩)).2 := by
  show Attributable g ⟨(act dg h.state env (.record runId ⟨taskId, goalId⟩)).2, _⟩
  generalize hw : (act dg h.state env (.record runId ⟨taskId, goalId⟩)).2 = w
  cases hins : h.state.telemetry.insert? runId ⟨taskId, goalId⟩ with
  | none =>
    obtain rfl : w = h.state := by rw [← hw]; simp only [act, hins]
    exact hh.quiet hh.toOfGoal rfl
  | some telemetry =>
    obtain rfl : w = { h.state with telemetry := telemetry } := by rw [← hw]; simp only [act, hins]
    refine ⟨⟨hh.actions, hh.decisions⟩, fun run row hrow => ?_⟩
    rw [Table.get?_insert hins] at hrow
    split at hrow
    · obtain rfl := Option.some.inj hrow
      exact ⟨j, List.mem_append_left _ hlook⟩
    · obtain ⟨k, hk⟩ := hh.looked run row hrow
      exact ⟨k, List.mem_append_left _ hk⟩

/-! ## What the programs keep -/

/-- No call is forgotten. -/
def Remembers (_ : Nat) (h h' : History) : Prop := ∀ e ∈ h.trace, e ∈ h'.trace

/-- Whatever the program returns or raises, it records only what was looked up. -/
abbrev Records (dg : Digests) (g : String) (i : Nat) {α : Type} (p : Program α) : Prop :=
  Keeps (machine dg).traced (Attributable g) Remembers i (fun _ => True) p

section

variable {α : Type}

theorem records_ask {c : Call} (hc : c.plain g) : Records dg g i (ask c) :=
  .ask .true fun _ _ hh _ => ⟨plain_step hc hh, fun _ he => List.mem_append_left _ he, trivial⟩

theorem perform_records {c : Call} (hc : c.plain g) :
    Outline (machine dg).traced (Attributable g) Remembers i (fun _ => True) (.perform c) fun _ _ => True :=
  .perform (fun _ => .true) fun _ _ hh _ => ⟨plain_step hc hh, fun _ he => List.mem_append_left _ he, trivial⟩

theorem read_plain : (Call.runtime .read).plain g := by rintro op ⟨⟩

theorem recordInvocationTelemetry_records (taskId runId : String) :
    Records dg g i (recordInvocationTelemetry taskId runId) := by
  refine .bind (records_ask trivial) fun known => ?_
  split
  · exact .result _
  refine Keeps.of_outline (Q := fun _ _ => True) (Outline.ask_bind
    (Q := fun goalId h => (⟨i, .goalContext taskId, goalId⟩ : Event Nat Call Call.Reply) ∈ h.trace)
    (fun _ _ _ _ _ _ _ hremembers hmem => hremembers _ hmem)
    (fun h env hh _ => ⟨plain_step (c := .goalContext taskId) trivial hh, fun _ he => List.mem_append_left _ he,
      List.mem_append_right _ List.mem_cons_self⟩) fun goalId => ?_)
  refine Outline.ask_bind (Q := fun _ _ => True) (fun _ => .true) (fun h env hh hlook =>
    ⟨record_step hlook hh, fun _ he => List.mem_append_left _ he, trivial⟩) fun recorded => ?_
  exact fun _ _ _ => trivial

theorem runtimeCall_records (c : Runtime.Call) :
    Outline (machine dg).traced (Attributable g) Remembers i (fun _ => True) (runtimeCall c) fun _ _ => True := by
  unfold runtimeCall
  split
  · rename_i runId
    have haccount : Records dg g i (accountInvocation runId) := by
      refine .bind (records_ask trivial) fun ended => ?_
      split
      · refine .bind (records_ask read_plain) fun db => ?_
        split
        · exact recordInvocationTelemetry_records _ _
        · exact .result _
      · exact .result _
    refine Outline.bind haccount fun r => ?_
    cases r with
    | ok => exact perform_records (by rintro op ⟨⟩)
    | error => exact fun _ _ _ => trivial
  · exact fun _ _ _ => trivial
  · rename_i hgoal
    exact perform_records fun op hop => hgoal op hop

theorem ofRuntime_records (p : Runtime.Program α) : Records dg g i (ofRuntime p) :=
  Outline.interp (P := fun _ => True) (Prog.all_true p.run) fun c _ => runtimeCall_records c

theorem read_records : Records dg g i read := records_ask read_plain

theorem getTask_records (taskId : String) : Records dg g i (getTask taskId) := .bind read_records fun _ => .result _

theorem submit_records {op : StoreOp} (hop : op.writesGoals = false) : Records dg g i (submit op) :=
  .bind (records_ask hop) fun _ => .result _

theorem submitTask_records (sub : TaskSubmission) : Records dg g i (submitTask sub) := by
  refine .bind (submit_records rfl) fun _ => .bind (submit_records rfl) fun _ => ?_
  split
  · exact .bind (records_ask trivial) fun _ => submit_records rfl
  · exact submit_records rfl

theorem recoverAndDispatch_records (taskIds : List String) : Records dg g i (recoverAndDispatch host taskIds) :=
  .bind (ofRuntime_records _) fun _ => ofRuntime_records _

theorem dispatch_records (projectId actionId : String) (action : PlannedAction) :
    Records dg g i (dispatch host projectId actionId action) := by
  refine .bind read_records fun db => ?_
  have hrest : Records dg g i (do
      ofRuntime (Runtime.dispatchReady host.supervisor (some [Autonomy.taskIdOf host.uuid5 actionId]) host.prior)
      return Autonomy.taskHandle host.uuid5 actionId) := .bind (ofRuntime_records _) fun _ => .result _
  split
  · exact hrest
  · exact .bind (.result _) fun sub => .bind (submitTask_records sub) fun _ => hrest

theorem ensureTask_records {checkpoint : Checkpoint} (hgoal : checkpoint.goalId = g) :
    Records dg g i (ensureTask host checkpoint) := by
  refine .bind read_records fun db => ?_
  have hbind : Records dg g i (do
      Prog.result ((← ask (.bindDecision (decisionTaskId host checkpoint) checkpoint.binding)).mapError
        .runtimeError)) :=
    .bind (records_ask hgoal) fun _ => .result _
  split
  · split
    · exact .bind (.result (.error _)) fun _ => hbind
    · exact hbind
  · exact .bind (submitTask_records _) fun _ => hbind

theorem pollTask_records (taskId : String) : ∀ polls, Records dg g i (pollTask host taskId polls)
  | 0 => .result (.error _)
  | polls + 1 => by
    refine .bind (recoverAndDispatch_records _) fun _ => .bind (getTask_records _) fun task => ?_
    split
    · exact pollTask_records taskId polls
    · exact .result (.ok task)

theorem awaitTask_records (taskId : String) : Records dg g i (awaitTask host taskId) := by
  refine .bind (getTask_records _) fun task => ?_
  split
  · exact .bind (ofRuntime_records _) fun _ => .bind (pollTask_records _ _) fun _ => getTask_records _
  · exact .result (.ok task)

theorem executeDecision_records (taskId : String) : Records dg g i (executeDecision host taskId) := by
  refine .bind (awaitTask_records _) fun task => ?_
  have hlast : Records dg g i (do
      let db ← read
      if !db.runs.any fun runId run => decide (run.taskId = taskId) && (db.results.get? runId).isSome then
        throw (.runtimeError "decision Task has no Worker result")) := by
    refine .bind read_records fun db => ?_
    split
    · exact .result (.error _)
    · exact .result (.ok ())
  dsimp only
  split
  · exact .bind (.result (.error _)) fun _ => hlast
  · exact hlast

theorem finishTask_records (taskId : String) (accepted : Bool) : Records dg g i (finishTask taskId accepted) := by
  refine .bind (getTask_records _) fun task => ?_
  split
  · exact .bind (ofRuntime_records _) fun _ => ofRuntime_records _
  · exact .result (.ok ())

theorem checkpointOf_goal {db : Db} {goalId : String} {phase : Phase} {checkpoint : Checkpoint}
    (h : checkpointOf db goalId phase = some checkpoint) : checkpoint.goalId = goalId := by
  unfold checkpointOf at h
  split at h
  · obtain rfl := Option.some.inj h
    rfl
  · cases h

theorem decideWith_records (phase : Phase) : Records dg g i (decideWith host g phase) := by
  refine .bind read_records fun db => ?_
  split
  · exact .result (.error _)
  · rename_i checkpoint hcheckpoint
    refine .bind (.attempt (.bind (ensureTask_records (checkpointOf_goal hcheckpoint)) fun _ =>
      executeDecision_records _)) fun executed => .bind (records_ask trivial) fun judged => ?_
    split
    · exact finishTask_records _ _
    · refine .bind (records_ask trivial) fun bound => ?_
      split
      · exact finishTask_records _ _
      · exact .result (.ok ())
    · exact .result (.ok ())

theorem caught_records {p : Program α} (hp : Records dg g i p) :
    Outline (machine dg).traced (Attributable g) Remembers i (fun _ => True) (caught p) fun _ _ => True :=
  Outline.bind hp fun _ _ _ _ => trivial

theorem engineCall_records {c : Autonomy.Call} (hc : c.ofEngine g ∨ c.ofClient) :
    Outline (machine dg).traced (Attributable g) Remembers i (fun _ => True) (engineCall host g c) fun _ _ => True := by
  have hdecided : ∀ phase c, c.ofEngine g ∨ c.ofClient → Outline (machine dg).traced (Attributable g) Remembers i
      (fun _ => True) (decided host g phase c) fun _ _ => True :=
    fun phase c hc => Outline.bind (decideWith_records phase) fun _ => perform_records hc
  unfold engineCall
  split
  · refine caught_records (.bind (records_ask (Or.inl trivial)) fun goal => ?_)
    split
    · exact .result (.error _)
    · exact dispatch_records _ _ _
  · exact caught_records (.bind (recoverAndDispatch_records _) fun _ => .result (.ok _))
  · exact hdecided _ _ hc
  · exact hdecided _ _ hc
  · exact hdecided _ _ hc
  · exact perform_records hc

theorem serve_records (request : Request) :
    Outline (machine dg).traced (Attributable g) Remembers i (fun _ => True) (serve host g admitted i request)
      fun _ _ => True := by
  cases request with
  | goal slot request => exact Outline.interp (Autonomy.serve_legal slot request) fun c hc => engineCall_records hc
  | runtime =>
    exact Outline.interp (P := fun _ => True) (Prog.all_true _) fun c _ => runtimeCall_records c

end

theorem initial_attributable : Attributable g ⟨Fabric.initial, []⟩ where
  actions := by rintro id action ⟨⟩
  decisions := by rintro taskId row ⟨⟩
  looked := by rintro runId row ⟨⟩

theorem fabricRun_attributable (dg : Digests) (host : EngineHost) (g : String) (admitted : StoreOp → Bool)
    (moves : List (Move Nat Request Environment)) : Attributable g (fabricRun dg host g admitted moves).shared :=
  Pool.run_invariant (fun _ request => serve_records request) initial_attributable moves

/-! ## The goal of every record -/

/-- A record was looked up by a move, and names the goal exactly when the task was linked before that move. -/
def NamedAtLookup (dg : Digests) (host : EngineHost) (g : String) (admitted : StoreOp → Bool)
    (moves : List (Move Nat Request Environment)) (row : InvocationRow) : Prop :=
  ∃ before m after i, moves = before ++ m :: after ∧
    (fabricRun dg host g admitted (before ++ [m])).shared.trace =
      (fabricRun dg host g admitted before).shared.trace ++ [⟨i, .goalContext row.taskId, row.goalId⟩] ∧
    (row.goalId = some g ↔ Linked (fabricRun dg host g admitted before).shared.state row.taskId = true)

theorem named_at_lookup (moves : List (Move Nat Request Environment)) {row : InvocationRow}
    (hrow : (fabricRun dg host g admitted moves).shared.state.telemetry.get? runId = some row) :
    NamedAtLookup dg host g admitted moves row := by
  obtain ⟨j, hlook⟩ := (fabricRun_attributable dg host g admitted moves).looked runId row hrow
  obtain ⟨before, m, after, env, hmoves, hstep, hreply⟩ := Pool.event_at moves hlook fun h => nomatch h
  have hgoal : row.goalId = goalContextForTask (fabricRun dg host g admitted before).shared.state row.taskId := hreply
  refine ⟨before, m, after, j, hmoves, (congrArg Traced.trace hstep).trans (by rw [hgoal]; rfl), ?_⟩
  rw [hgoal]
  exact goalContext_iff (fabricRun_attributable dg host g admitted before).toOfGoal

/-- **Attribution.**  A record names the goal exactly when its task was linked at the lookup; so if every lookup of a
task of the goal finds the task linked, every record of a run of such a task names the goal, in whatever order the
engine, the runtimes and their clients run and crash. -/
theorem usage_attributed (dg : Digests) (host : EngineHost) (g : String) (admitted : StoreOp → Bool)
    (moves : List (Move Nat Request Environment)) :
    (∀ runId row, (fabricRun dg host g admitted moves).shared.state.telemetry.get? runId = some row →
      NamedAtLookup dg host g admitted moves row) ∧
    (LookupsLinked dg host g admitted moves → Attributed g (fabricRun dg host g admitted moves).shared) := by
  refine ⟨fun runId row hrow => named_at_lookup moves hrow, fun hlinked runId row hrow hsubmitted => ?_⟩
  obtain ⟨before, m, after, i, hmoves, htrace, hnamed⟩ := named_at_lookup moves hrow
  exact hnamed.mpr (hlinked before m after i row.taskId row.goalId hmoves htrace hsubmitted)

section

private def plainRuntime (runtimeId : String) : Runtime.Supervisor :=
  ⟨runtimeId, fun _ => some .legacy, 3, 1000000, 30000000, 1000000⟩

private def lone : EngineHost :=
  ⟨plainRuntime "A", fun a b => decide (a ≤ b), 3, id, id, fun _ => some (.green, .single)⟩

private def working : Environment where
  runtime := .completing
  engine := .silent
  judged := none
  ended := true

private def stepped (n i : Nat) : List (Move Nat Request Environment) := List.replicate n (.step i working)

-- the engine of a goal submits its first decision and makes `n` calls in all; then another runtime executes the task
private def decidedBy (n : Nat) : List (Move Nat Request Environment) :=
  [.start 0 (.goal (.client 0) (.createGoal "g" "p" "intent" {})), .step 0 working,
    .start 1 (.goal (.client 1) (.store (.upsertWorker "w" ⟨.idle, .available, none⟩) rfl)), .step 1 working,
    .start 2 (.goal (.engine "g") (.engine 1 1))] ++ stepped n 2 ++
  [.start 3 (.runtime (.dispatch (plainRuntime "B") none lone.prior))] ++ stepped 9 3 ++
  [.start 4 (.runtime (.coroutine 0 1))] ++ stepped 2 4 ++ [.start 5 (.runtime (.coroutine 1 1))] ++ stepped 12 5

private def fabric (moves : List (Move Nat Request Environment)) : History :=
  (fabricRun .trivial lone "g" (fun _ => false) moves).shared

private def decisionTask : String := "tsk-autonomy-decision/v1:g:evaluation:1:0"

-- the binding is written after the run has been accounted for
/-- A decision task that runs before it is bound. -/
theorem decision_run_unattributed :
    (fabric (decidedBy 17 ++ stepped 1 2)).state.telemetry.get? "run-w" = some ⟨decisionTask, none⟩ ∧
      decisionTask ∈ submitted (fabric (decidedBy 17 ++ stepped 1 2)).trace ∧
      ((fabric (decidedBy 17 ++ stepped 1 2)).state.decisions.get? decisionTask).map DecisionRow.goalId = some "g" := by
  decide +kernel

private def lookedUp : Event Nat Call Call.Reply → Option String
  | ⟨_, .goalContext taskId, _⟩ => some taskId
  | _ => none

private theorem decidedBy_linked : LookupsLinked .trivial lone "g" (fun _ => false) (decidedBy 18) := by
  intro before m after i taskId reply e htrace _
  have hlookups : ∀ n < (decidedBy 18).length,
      ((fabric ((decidedBy 18).take (n + 1))).trace.drop (fabric ((decidedBy 18).take n)).trace.length).all (fun e =>
        (lookedUp e).all fun taskId => Linked (fabric ((decidedBy 18).take n)).state taskId) = true := by
    decide +kernel
  have hlength : before.length < (decidedBy 18).length := by rw [e]; simp
  have hnext := hlookups _ hlength
  have hbefore : (decidedBy 18).take before.length = before := by rw [e]; simp
  have hafter : (decidedBy 18).take (before.length + 1) = before ++ [m] := by
    rw [e, List.take_length_add_append]
    rfl
  rw [hbefore, hafter, show (fabric (before ++ [m])).trace = _ from htrace] at hnext
  simpa [lookedUp, fabric] using hnext

theorem usage_attributed_decision :
    (fabric (decidedBy 18)).state.telemetry.get? "run-w" = some ⟨decisionTask, some "g"⟩ ∧
      Attributed "g" (fabric (decidedBy 18)) :=
  ⟨by decide +kernel, (usage_attributed .trivial lone "g" (fun _ => false) (decidedBy 18)).2 decidedBy_linked⟩

end

end AgentFabric.Submission
