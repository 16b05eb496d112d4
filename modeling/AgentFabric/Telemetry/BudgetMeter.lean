import AgentFabric.Submission.Attribution
import AgentFabric.Telemetry.Aggregate

/-!
# The budget meter of a goal

`InvocationTelemetryBudgetMeter` of `autonomy.py`: what a goal has consumed, read from the telemetry of its invocations,
and whether a token budget may trust it.
-/

namespace AgentFabric.Telemetry

open AgentFabric.Lib AgentFabric.Store AgentFabric.Submission
open AgentFabric.Autonomy (BudgetObservation consumptionLimit)

/-- The telemetry of a fabric, given what each run has reported. -/
def invocations (report : String → Invocation) (w : Fabric) : List InvocationTelemetry :=
  w.telemetry.rows.map fun e => ⟨report e.1, e.1, e.2.taskId, e.2.goalId⟩

def invocationsOf (report : String → Invocation) (w : Fabric) (g : String) : List InvocationTelemetry :=
  (invocations report w).filter (inScope (some g) none)

/-- `_observe`.  The source adds the two token sums as floating-point numbers. -/
def observe (report : String → Invocation) (w : Fabric) (g : String) : Except StoreError BudgetObservation := do
  let goal ← getGoal w.db g
  let a ← aggregate (invocations report w) (some g) none
  if a.callCount = 0 ∧ goal.taskCount = 0 then return ⟨some 0, some 0⟩
  -- a generated action without an invocation is not metered, and missing telemetry is not zero
  if a.callCount < goal.taskCount then return ⟨none, none⟩
  let inputComplete := decide (a.inputTokens.knownCount = a.callCount)
  let outputComplete := decide (a.outputTokens.knownCount = a.callCount)
  return {
    totalTokens :=
      if inputComplete && outputComplete then
        some ((a.inputTokens.observedSum.map (·.value)).getD 0 + (a.outputTokens.observedSum.map (·.value)).getD 0)
      else none
    costUsd := if a.cost.knownCount = a.callCount then some ((a.cost.observedSum.map (·.value)).getD 0) else none }

/-! ## The generated actions -/

/-- The actions that were planned for a goal. -/
def generated (db : Db) (g : String) : Nat := db.actions.rows.countP fun e => decide (e.2.goalId = g)

def counted (db : Db) (g : String) : Nat := ((db.goals.get? g).map (·.taskCount)).getD 0

/-- Every goal has counted its actions. -/
def Tallied (db : Db) : Prop := ∀ g, counted db g = generated db g

section

variable {db db' : Db} {g : String}

theorem counted_modify {k : String} {f : GoalRow → GoalRow} (hf : ∀ goal, (f goal).taskCount = goal.taskCount)
    (h : db'.goals = db.goals.modify k f) : counted db' g = counted db g := by
  simp only [counted, h, Table.get?_modify]
  split
  · rename_i hk
    subst hk
    cases db.goals.get? g with
    | none => rfl
    | some goal => exact hf goal
  · rfl

theorem Tallied.same (ht : Tallied db) (hg : db'.goals = db.goals) (ha : db'.actions = db.actions) : Tallied db' := by
  intro g
  simp only [counted, generated, hg, ha]
  exact ht g

theorem Tallied.goal (ht : Tallied db) (hpos : 0 < generated db g) : ∃ goal, db.goals.get? g = some goal := by
  rw [← ht g] at hpos
  cases hrow : db.goals.get? g with
  | none => simp [counted, hrow] at hpos
  | some goal => exact ⟨goal, rfl⟩

theorem Tallied.modify {k : String} {f : GoalRow → GoalRow} (ht : Tallied db) (hg : db'.goals = db.goals.modify k f)
    (ha : db'.actions = db.actions) (hf : ∀ goal, (f goal).taskCount = goal.taskCount) : Tallied db' := by
  intro g
  rw [counted_modify hf hg, ht g]
  simp only [generated, ha]

theorem Tallied.insert {k : String} {goal : GoalRow} {goals : Table String GoalRow} (ht : Tallied db)
    (hzero : goal.taskCount = 0) (hi : db.goals.insert? k goal = some goals) :
    Tallied { db with goals := goals } := by
  intro g
  have hcounted : counted { db with goals := goals } g = counted db g := by
    simp only [counted, Table.get?_insert hi]
    split
    · rename_i hk
      subst hk
      rw [Table.insert?_fresh hi]
      exact hzero
    · rfl
  rw [hcounted, ht g]
  rfl

theorem generated_planned {iterationId goalId : String} {actionId : String → String} {actions : List PlannedAction}
    {table : Table String ActionRow}
    (hins : db.actions.insertAll? (plannedRows goalId iterationId actionId actions) = some table)
    (ha : db'.actions = table) :
    generated db' g = generated db g + if g = goalId then actions.length else 0 := by
  have hnew : (plannedRows goalId iterationId actionId actions).countP (fun e => decide (e.2.goalId = g)) =
      if g = goalId then actions.length else 0 := by
    unfold plannedRows
    rw [List.countP_map]
    split
    · rename_i hg
      subst hg
      exact (List.countP_eq_length.mpr fun _ _ => decide_eq_true rfl).trans List.length_zipIdx
    · rename_i hg
      exact List.countP_eq_zero.mpr fun _ _ => by simpa using Ne.symm hg
  unfold generated
  rw [ha, Table.insertAll?_rows hins, List.countP_append, hnew]

theorem recordPlan_tallied {iterationId goalId : String} {plan : GoalPlan} {expected : Int}
    {actionId : String → String} {b : Bool} (h : recordPlan db iterationId goalId plan expected actionId = .ok (b, db'))
    (ht : Tallied db) : Tallied db' := by
  obtain ⟨goal, hgoal⟩ : ∃ goal, db.goals.get? goalId = some goal := by
    simp only [recordPlan, bind_eq_ok, getGoal_eq_ok] at h
    obtain ⟨_, _, goal, hgoal, _⟩ := h
    exact ⟨goal, hgoal⟩
  rcases recordPlan_rows h with ⟨_, rfl⟩ | ⟨_, actions, hins, rfl⟩
  · exact ht.same rfl rfl
  · intro g
    rw [generated_planned hins rfl, ← ht g]
    simp only [counted, setGoal, setIteration, Table.get?_modify]
    split
    · rename_i hg
      subst hg
      rw [hgoal]
      rfl
    · rfl

/-- **One transaction.**  Every transaction of a goal keeps the count of its actions. -/
theorem execGoal_tallied {op : GoalOp} {r : op.Reply} (h : execGoal op db = .ok (r, db')) (ht : Tallied db) :
    Tallied db' := by
  cases op with
  | createGoal =>
    obtain ⟨goal, goals, _, ⟨_, hzero, _⟩, hi, rfl⟩ := createGoal_row h
    exact ht.insert hzero hi
  | pause =>
    rcases pauseGoal_ok h with rfl | ⟨_, _, _, rfl⟩
    · exact ht
    · exact ht.modify rfl rfl fun _ => rfl
  | resume =>
    obtain ⟨_, _, _, rfl⟩ := resumeGoal_ok h
    exact ht.modify rfl rfl fun _ => rfl
  | steer =>
    obtain ⟨_, _, _, _, rfl⟩ := steerGoal_ok h
    exact ht.modify rfl rfl fun _ => rfl
  | stop =>
    obtain ⟨_, _, _, rfl⟩ := stopGoal_ok h
    exact ht.modify rfl rfl fun _ => rfl
  | start =>
    rcases startGoal_ok h with rfl | ⟨_, _, _, rfl⟩
    · exact ht
    · exact ht.modify rfl rfl fun _ => rfl
  | beginIteration =>
    obtain ⟨_, _, _, _, _, rfl⟩ := beginIteration_ok h
    exact ht.modify rfl rfl fun _ => rfl
  | recordEvaluation =>
    obtain ⟨_, _, ⟨_, rfl⟩ | ⟨_, rfl⟩⟩ := recordEvaluation_ok h
    · exact ht.same rfl rfl
    · exact ht.modify rfl rfl fun _ => rfl
  | recordPlan => exact recordPlan_tallied h ht
  | recordVerification =>
    rcases recordGoalVerification_ok h with ⟨_, rfl⟩ | ⟨_, rfl⟩ <;> exact ht.same rfl rfl
  | phaseIsCurrent =>
    rcases phaseIsCurrent_ok h with ⟨_, rfl⟩ | ⟨_, rfl⟩
    · exact ht.same rfl rfl
    · exact ht
  | completeReplan =>
    obtain rfl := completeReplan_ok h
    exact ht.modify rfl rfl fun _ => rfl
  | terminate =>
    rcases terminateGoal_ok h with rfl | ⟨_, _, _, rfl⟩
    · exact ht
    · exact ht.modify rfl rfl fun _ => rfl
  | terminatePhaseIfCurrent =>
    rcases terminatePhaseIfCurrent_ok h with rfl | rfl | ⟨_, _, _, _, rfl⟩
    · exact ht.same rfl rfl
    · exact ht
    · exact ht.modify rfl rfl fun _ => rfl
  | interruptForSteer =>
    obtain rfl := interruptForSteer_ok h
    exact ht.same rfl rfl
  | setIterationState =>
    cases h
    exact ht.same rfl rfl
  | setAction actionId state handle result error =>
    obtain rfl := setAction_ok h
    intro g
    have hsame : (db.actions.modify actionId (·.set state handle result error)).rows.countP
        (fun e => decide (e.2.goalId = g)) = generated db g := by
      refine Table.countP_modify (p := fun action : ActionRow => decide (action.goalId = g)) ?_
      intro action
      rfl
    exact (ht g).trans hsame.symm

/-- Every store operation keeps the counts. -/
theorem exec_tallied {dg : Digests} {op : StoreOp} {r : op.Reply} (h : exec dg op db = .ok (r, db'))
    (ht : Tallied db) : Tallied db' := by
  cases hwrites : op.writesGoals with
  | false => exact ht.same ((exec_frame h).goals hwrites) ((exec_frame h).actions hwrites)
  | true =>
    cases op with
    | goal => exact execGoal_tallied h ht
    | _ => exact nomatch hwrites

end

/-- One call of any program. -/
theorem act_tallied (dg : Digests) {w : Fabric} (env : Environment) (c : Call) (ht : Tallied w.db) :
    Tallied (act dg w env c).2.db := by
  have hruntime : ∀ c, Tallied (Runtime.act dg w.runtime env.runtime c).2.db := by
    intro c
    rcases Runtime.act_db dg w.runtime env.runtime c with hdb | ⟨_, _, _, _, _, hexec⟩
    · rw [hdb]
      exact ht
    · exact exec_tallied hexec ht
  cases c with
  | runtime c => exact hruntime c
  | submit op => exact hruntime (.store op)
  | engine c =>
    cases c with
    | transact op =>
      show Tallied (Autonomy.commit w.db (execGoal op w.db)).2
      cases hop : execGoal op w.db with
      | error => exact ht
      | ok => exact execGoal_tallied hop ht
    | store op =>
      show Tallied (Autonomy.commit w.db (exec dg op w.db)).2
      cases hop : exec dg op w.db with
      | error => exact ht
      | ok => exact exec_tallied hop ht
    | _ => exact ht
  | record runId row =>
    show Tallied (act dg w env (.record runId row)).2.db
    simp only [act]
    split <;> exact ht
  | _ => exact ht

/-- The fabric after some transactions and queries, whichever programs make them. -/
def after (dg : Digests) (calls : List (Environment × Call)) : Fabric :=
  calls.foldl (fun w c => (act dg w c.1 c.2).2) Fabric.initial

/-- **Every history.**  Whatever engines, runtimes and clients do, each goal has counted the actions planned for it. -/
theorem after_tallied (dg : Digests) (calls : List (Environment × Call)) : Tallied (after dg calls).db := by
  induction calls using List.reverseRecOn with
  | nil =>
    intro g
    rfl
  | append_singleton calls c ih =>
    unfold after at ih ⊢
    rw [List.foldl_append]
    exact act_tallied dg c.1 c.2 ih

/-! ## What the meter knows -/

section

variable {report : String → Invocation} {w : Fabric} {g : String}

/-- A worker has run the task of the action. -/
def HasRun (db : Db) (action : ActionRow) : Prop :=
  ∃ runId run, db.runs.get? runId = some run ∧ action.taskId = some run.taskId

/-- Every generated action that has run has an invocation. -/
def Covered (report : String → Invocation) (w : Fabric) (g : String) : Prop :=
  ∀ id action, w.db.actions.get? id = some action → action.goalId = g → HasRun w.db action →
    ∃ r ∈ invocationsOf report w g, action.taskId = some r.taskId

/-- Every invocation of the goal reports both token counts. -/
def Complete (report : String → Invocation) (w : Fabric) (g : String) : Prop :=
  ∀ r ∈ invocationsOf report w g, r.inputTokens ≠ none ∧ r.outputTokens ≠ none

/-- The meter fails closed: where an action or a count is missing, the total is unknown, and a token budget that is
enforced ends the work instead of counting the missing usage as zero. -/
def FailsClosed (report : String → Invocation) (w : Fabric) (g : String) : Prop :=
  ∀ observed, observe report w g = .ok observed → ¬ (Covered report w g ∧ Complete report w g) →
    observed.totalTokens = none ∧ ∀ budgets : GoalBudget, budgets.maxTotalTokens ≠ none →
      consumptionLimit budgets observed = some (.budgetLimit, "token budget cannot be safely observed")

theorem consumptionLimit_unknown {budgets : GoalBudget} {observed : BudgetObservation}
    (hlimit : budgets.maxTotalTokens ≠ none) (hunknown : observed.totalTokens = none) :
    consumptionLimit budgets observed = some (.budgetLimit, "token budget cannot be safely observed") := by
  obtain ⟨limit, hlimit⟩ := Option.ne_none_iff_exists'.mp hlimit
  simp only [consumptionLimit, hlimit, hunknown, Option.some_or]

theorem observe_isOk {goal : GoalRow} {a : TelemetryAggregate} (hgoal : w.db.goals.get? g = some goal)
    (ha : aggregate (invocations report w) (some g) none = .ok a) : ∃ observed, observe report w g = .ok observed := by
  unfold observe
  rw [getGoal_eq_ok.mpr hgoal, ha]
  dsimp only [bind, Except.bind]
  split
  · exact ⟨_, rfl⟩
  · split <;> exact ⟨_, rfl⟩

theorem known_all {records : List InvocationTelemetry} {tokens : InvocationTelemetry → TokenCount}
    {sum : MetricAggregate Nat} (h : Summed (records.map fun r => observedTokens (tokens r)) sum) :
    sum.knownCount = records.length ↔ ∀ r ∈ records, tokens r ≠ none := by
  rw [h.known, List.length_filterMap_eq_countP, List.countP_map, List.countP_eq_length]
  refine forall₂_congr fun r _ => ?_
  simp [observedTokens, Option.isSome_iff_ne_none]

/-- **When a total is known**: nothing was generated or invoked, or the goal has no fewer invocations than actions and
every invocation reports both counts. -/
theorem observe_tokens {observed : BudgetObservation} (h : observe report w g = .ok observed) (ht : Tallied w.db) :
    observed.totalTokens ≠ none ↔
      generated w.db g ≤ (invocationsOf report w g).length ∧ Complete report w g := by
  simp only [observe, bind_eq_ok, getGoal_eq_ok] at h
  obtain ⟨goal, hgoal, a, ha, h⟩ := h
  have hcount : generated w.db g = goal.taskCount := by
    rw [← ht g]
    simp only [counted, hgoal, Option.map_some, Option.getD_some]
  have hagg := aggregate_ok ha
  have hcalls : a.callCount = (invocationsOf report w g).length := hagg.calls
  rw [hcount, ← hcalls]
  split at h
  · rename_i hzero
    obtain rfl := Except.ok.inj h
    have hnone : invocationsOf report w g = [] := List.length_eq_zero_iff.mp (hcalls.symm.trans hzero.1)
    simp [Complete, hnone, hzero.1, hzero.2]
  split at h
  · rename_i hfewer
    obtain rfl := Except.ok.inj h
    simp only [ne_eq, not_true_eq_false, false_iff, not_and]
    intro hle
    omega
  · rename_i hle
    obtain rfl := Except.ok.inj h
    have hcomplete : (a.inputTokens.knownCount = a.callCount ∧ a.outputTokens.knownCount = a.callCount) ↔
        Complete report w g := by
      rw [hagg.calls, known_all hagg.input, known_all hagg.output]
      exact ⟨fun h r hr => ⟨h.1 r hr, h.2 r hr⟩, fun h => ⟨fun r hr => (h r hr).1, fun r hr => (h r hr).2⟩⟩
    rw [← hcomplete]
    have hge : goal.taskCount ≤ a.callCount := Nat.le_of_not_lt hle
    by_cases hboth : a.inputTokens.knownCount = a.callCount ∧ a.outputTokens.knownCount = a.callCount
    · simp [hboth.1, hboth.2, hge]
    · simp only [Bool.and_eq_true, decide_eq_true_eq, hboth, if_false, ne_eq, not_true_eq_false, and_false]

end

/-- **The budget meter.**  After every history of actions, decision tasks, attempts and invocations the meter of a goal
fails closed exactly if every generated action that has run has an invocation, or the invocations are fewer than the
generated actions, or one of them lacks a token count, or they cannot be aggregated. -/
theorem meter_failsClosed_iff (dg : Digests) (calls : List (Environment × Call)) (report : String → Invocation)
    (g : String) :
    FailsClosed report (after dg calls) g ↔
      Covered report (after dg calls) g ∨
        (invocationsOf report (after dg calls) g).length < generated (after dg calls).db g ∨
        (∃ r ∈ invocationsOf report (after dg calls) g, r.inputTokens = none ∨ r.outputTokens = none) ∨
        10000 < (invocationsOf report (after dg calls) g).length ∨
        ¬ OneCostUnit (invocationsOf report (after dg calls) g) := by
  generalize hw : after dg calls = w
  have ht : Tallied w.db := hw ▸ after_tallied dg calls
  constructor
  · intro hcloses
    by_contra hnot
    push Not at hnot
    obtain ⟨huncovered, hmany, hcomplete, hlimit, hunit⟩ := hnot
    -- an action without an invocation was generated, so the goal has counted it
    obtain ⟨goal, hgoal⟩ : ∃ goal, w.db.goals.get? g = some goal := by
      rw [Covered] at huncovered
      push Not at huncovered
      obtain ⟨id, action, haction, hgoal, _⟩ := huncovered
      exact ht.goal (List.countP_pos_iff.mpr ⟨(id, action), Table.mem_rows.mpr haction, decide_eq_true hgoal⟩)
    obtain ⟨a, ha⟩ := aggregate_isOk.mpr ⟨hlimit, hunit⟩
    obtain ⟨observed, hobserved⟩ := observe_isOk hgoal ha
    have hknown := (observe_tokens hobserved ht).mpr ⟨hmany, hcomplete⟩
    exact hknown (hcloses observed hobserved fun h => huncovered h.1).1
  · intro hcondition observed hobserved hmissing
    have hunknown : observed.totalTokens = none := by
      by_contra hknown
      obtain ⟨hmany, hcomplete⟩ := (observe_tokens hobserved ht).mp hknown
      obtain ⟨a, ha⟩ : ∃ a, aggregate (invocations report w) (some g) none = .ok a := by
        simp only [observe, bind_eq_ok] at hobserved
        obtain ⟨_, _, a, ha, _⟩ := hobserved
        exact ⟨a, ha⟩
      obtain ⟨hlimit, hunit⟩ := aggregate_isOk.mp ⟨a, ha⟩
      rcases hcondition with hcovered | hfewer | ⟨r, hr, hlacks⟩ | hexceeds | hmixed
      · exact hmissing ⟨hcovered, hcomplete⟩
      · exact absurd hmany (Nat.not_le.mpr hfewer)
      · rcases hlacks with hin | hout
        · exact (hcomplete r hr).1 hin
        · exact (hcomplete r hr).2 hout
      · exact absurd hlimit (Nat.not_le.mpr hexceeds)
      · exact hmixed hunit
    exact ⟨hunknown, fun budgets hlimit => consumptionLimit_unknown hlimit hunknown⟩

/-! ## A decision in place of an action -/

section

private def oneAction : GoalPlan := ⟨"plan", [⟨"k", "title", "description", "primary", "{}", by decide⟩], "why"⟩

/-- A world in which nothing goes wrong; `suffix` tells the runs apart. -/
private def agreeable (suffix : String) : Environment where
  runtime := { Runtime.Environment.completing with uuid := fun s => s ++ suffix }
  engine := { Autonomy.Environment.silent with plan := some oneAction }
  judged := some true
  ended := true

private def startedBy (taskId : String) : Call := .runtime (.store (.createWorkerRun taskId "w" 1 none "" 0))

/-- A decision of the goal is made and recorded; then the goal's action runs, and a crash interrupts it before anything
is recorded. -/
private def unmetered : List (Environment × Call) :=
  [(agreeable "", .engine (.transact (.createGoal "g" "p" "intent" {}))),
    (agreeable "", .engine (.transact (.beginIteration "g" "1"))),
    (agreeable "", .runtime (.store (.upsertWorker "w" ⟨.idle, .available, none⟩))),
    (agreeable "", .submit (.createTask ⟨"decision", "p", "DECISION-1", .draft, .single, 0⟩)),
    (agreeable "", .bindDecision "decision" ⟨"g", "iter-1", 1, .planning, 0⟩),
    (agreeable "-1", startedBy "decision"),
    (agreeable "", .record "run-w-1" ⟨"decision", some "g"⟩),
    (agreeable "", .engine (.transact (.recordPlan "iter-1" "g" oneAction 0 id))),
    (agreeable "", .submit (.createTask ⟨"action", "p", "AUTO-1", .draft, .single, 0⟩)),
    (agreeable "", .engine (.transact (.setAction "k" .running (some ⟨"action", some "action", ""⟩) none none))),
    (agreeable "-2", startedBy "action"),
    (agreeable "", .runtime (.store (.recoverInterrupted none 0)))]

private def metered : Fabric := after .trivial unmetered

private theorem metered_state :
    metered.telemetry.rows = [("run-w-1", ⟨"decision", some "g"⟩)] ∧ generated metered.db "g" = 1 ∧
      (metered.db.actions.get? "k").map (fun action => (action.goalId, action.taskId)) = some ("g", some "action") ∧
      (metered.db.runs.get? "run-w-2").map (fun run => (run.taskId, run.state)) = some ("action", .interrupted) := by
  decide

/-- Every run reports one token in and one out, and no costs. -/
def oneToken (runId : String) : Invocation where
  id := runId
  workerId := "w"
  provider := "local"
  model := .error .notReported
  nodeId := "n"
  taskRole := .primary
  outcome := .success
  duration := 0
  inputTokens := some (1, .providerReported)
  outputTokens := some (1, .providerReported)
  cacheReadTokens := none
  cacheWriteTokens := none
  cost := none
  remainingQuota := none
  qualityScore := none
  retryCount := 0
  fallback := false
  executorKind := .unknown
  recordedAt := 0

-- one invocation of a decision is enough for the one generated action
theorem decision_hides_action : ¬ FailsClosed oneToken (after .trivial unmetered) "g" := by
  change ¬ FailsClosed oneToken metered "g"
  intro hcloses
  obtain ⟨htelemetry, hgenerated, haction, hrun⟩ := metered_state
  have ht : Tallied metered.db := after_tallied .trivial unmetered
  have hrecords : invocationsOf oneToken metered "g" = [⟨oneToken "run-w-1", "run-w-1", "decision", some "g"⟩] := by
    rw [invocationsOf, invocations, htelemetry]
    rfl
  obtain ⟨goal, hgoal⟩ := ht.goal (g := "g") (by omega)
  obtain ⟨a, ha⟩ : ∃ a, aggregate (invocations oneToken metered) (some "g") none = .ok a := by
    refine aggregate_isOk.mpr ⟨?_, ?_⟩
    · show (invocationsOf oneToken metered "g").length ≤ 10000
      rw [hrecords]
      decide
    · show OneCostUnit (invocationsOf oneToken metered "g")
      rw [hrecords]
      intro x y hx
      exact nomatch List.mem_singleton.mp hx
  obtain ⟨observed, hobserved⟩ := observe_isOk hgoal ha
  have hknown : observed.totalTokens ≠ none := by
    refine (observe_tokens hobserved ht).mpr ⟨?_, ?_⟩
    · rw [hgenerated, hrecords]
      exact Nat.le_refl 1
    · intro r hr
      rw [hrecords, List.mem_singleton] at hr
      subst hr
      exact ⟨nofun, nofun⟩
  refine hknown (hcloses observed hobserved fun hboth => ?_).1
  -- the task of the action has run, but the only invocation is that of the decision
  obtain ⟨action, hget, hlink⟩ := Option.map_eq_some_iff.mp haction
  obtain ⟨run, hrow, htask⟩ := Option.map_eq_some_iff.mp hrun
  obtain ⟨hof, htaskId⟩ := Prod.mk.inj hlink
  have hran : HasRun metered.db action := by
    refine ⟨"run-w-2", run, hrow, ?_⟩
    rw [htaskId, (Prod.mk.inj htask).1]
  obtain ⟨r, hr, hsame⟩ := hboth.1 "k" action hget hof hran
  rw [hrecords, List.mem_singleton] at hr
  subst hr
  rw [htaskId] at hsame
  exact absurd (Option.some.inj hsame) (by decide)

end

end AgentFabric.Telemetry
