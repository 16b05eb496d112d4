import AgentFabric.Resource.Aggregate
import AgentFabric.Telemetry.BudgetMeter

/-!
# Resource economics

The report of `resource_economics.py`, which counts in SQL what `telemetry.py` folds over typed records.
-/

namespace AgentFabric.Telemetry

open AgentFabric.Lib AgentFabric.Store AgentFabric.Submission
open AgentFabric.Resource (UsageMetric)

/-! ## The report -/

structure Classification where
  total : Nat
  codex : Nat
  offloaded : Nat
  unknown : Nat
  scored : Nat
  totalQuality : ℚ
  offloadedQuality : ℚ

/-- `SUM` of a column, which is null where no value is. -/
def sqlSum (values : List (Option ℚ)) : Option ℚ :=
  match values.filterMap id with
  | [] => none
  | known => some known.sum

/-- `FROM invocation_telemetry i JOIN tasks t ON t.id=i.task_id`, with the conditions of the scope. -/
def joined (report : String → Invocation) (w : Fabric) (projectId goalId : Option String) :
    List InvocationTelemetry :=
  (invocations report w).filter fun r =>
    match w.db.tasks.get? r.taskId with
    | none => false
    | some task =>
      (projectId.all fun p => decide (task.projectId = p)) && goalId.all fun g => decide (r.goalId = some g)

/-- `_classification`; the sum of a condition counts the rows that satisfy it. -/
def classification (rows : List InvocationTelemetry) : Classification where
  total := rows.length
  codex := rows.countP fun r => decide (r.executorKind = .codex)
  offloaded := rows.countP fun r => decide (r.executorKind = .offloaded)
  unknown := rows.countP fun r => decide (r.executorKind = .unknown)
  scored := rows.countP fun r => decide (r.executorKind ≠ .unknown) && r.qualityScore.isSome
  totalQuality := (sqlSum (rows.map fun r =>
    if r.executorKind ≠ .unknown then r.qualityScore.map (·.1) else some 0)).getD 0
  offloadedQuality := (sqlSum (rows.map fun r =>
    if r.executorKind = .offloaded then r.qualityScore.map (·.1) else some 0)).getD 0

def successfulGoalIds (w : Fabric) (projectId goalId : Option String) : List String :=
  w.db.goals.keysWhere fun id goal =>
    decide (goal.state = .terminated) && decide (goal.terminationReason = some .success) &&
      (projectId.all fun p => decide (goal.projectId = p)) && goalId.all fun g => decide (id = g)

/-- `_accepted_task_ids`; a task belongs to a goal through an action or through a decision. -/
def acceptedTaskIds (w : Fabric) (projectId goalId : Option String) : List String :=
  w.db.tasks.keysWhere fun id task =>
    decide (task.state = .succeeded) && (projectId.all fun p => decide (task.projectId = p)) &&
      goalId.all fun g =>
        (w.db.actions.any fun _ action => decide (action.taskId = some id) && decide (action.goalId = g)) ||
          w.decisions.any fun taskId decision => decide (taskId = id) && decide (decision.goalId = g)

def rowTokens (r : InvocationTelemetry) : Option Nat :=
  match r.inputTokens, r.outputTokens with
  | some input, some output => some (input.1 + output.1)
  | _, _ => none

def entityComplete (rows : List InvocationTelemetry) (key : InvocationTelemetry → Option String) (id : String) :
    Bool :=
  let matching := rows.filter fun r => decide (key r = some id)
  !matching.isEmpty && matching.all fun r => (rowTokens r).isSome

def tokensPerEntity (rows : List InvocationTelemetry) (key : InvocationTelemetry → Option String)
    (ids : List String) : UsageMetric ℚ :=
  if ids.isEmpty || !ids.all (entityComplete rows key) then .unavailable
  else
    let relevant := rows.filter fun r => ids.any fun id => decide (key r = some id)
    .known (((relevant.map fun r => (rowTokens r).getD 0).sum : Nat) / (ids.length : ℚ)) "tokens"

def economicsMetric : Option ℚ → UsageMetric ℚ
  | none => .unavailable
  | some value => .known value "ratio"

structure TokenCoverage where
  invocationCount : Nat
  completeInvocationCount : Nat
  unknownInvocationCount : Nat
  successfulGoalsWithCompleteTelemetry : Nat
  acceptedTasksWithCompleteTelemetry : Nat
  codexCallCount : Nat
  offloadedCallCount : Nat
  unknownExecutorCallCount : Nat
  scoredCallCount : Nat
  unscoredCallCount : Nat

structure ResourceEconomicsAggregate where
  projectId : Option String
  goalId : Option String
  codexOffloadRatio : UsageMetric ℚ
  qualityAdjustedOffload : UsageMetric ℚ
  tokensPerSuccessfulGoal : UsageMetric ℚ
  tokensPerAcceptedTask : UsageMetric ℚ
  successfulGoalCount : Nat
  acceptedTaskCount : Nat
  coverage : TokenCoverage

/-- The project that a report is about: that of its goal, or the one that is asked for. -/
def projectOf (w : Fabric) (projectId goalId : Option String) : Except StoreError (Option String) :=
  match goalId with
  | none => return projectId
  | some g => do
    let goal ← orRaise (w.db.goals.get? g) (.keyError g)
    ensure (∀ p ∈ projectId, p = goal.projectId) (.valueError "goal does not belong to requested project")
    return some goal.projectId

/-- What `aggregate` makes of the rows of its scope. -/
def reportOf (w : Fabric) (projectId goalId : Option String) (rows : List InvocationTelemetry) :
    ResourceEconomicsAggregate :=
  let c := classification rows
  let goalIds := successfulGoalIds w projectId goalId
  let taskIds := acceptedTaskIds w projectId goalId
  let complete := rows.filter fun r => (rowTokens r).isSome
  { projectId := projectId
    goalId := goalId
    codexOffloadRatio := economicsMetric
      (if c.codex + c.offloaded = 0 then none else some (c.offloaded / (c.codex + c.offloaded : Nat)))
    qualityAdjustedOffload := economicsMetric
      (if 0 < c.totalQuality then some (c.offloadedQuality / c.totalQuality) else none)
    tokensPerSuccessfulGoal := tokensPerEntity rows (·.goalId) goalIds
    tokensPerAcceptedTask := tokensPerEntity rows (fun r => some r.taskId) taskIds
    successfulGoalCount := goalIds.length
    acceptedTaskCount := taskIds.length
    coverage :=
      { invocationCount := rows.length
        completeInvocationCount := complete.length
        unknownInvocationCount := rows.length - complete.length
        successfulGoalsWithCompleteTelemetry := (goalIds.filter (entityComplete rows (·.goalId))).length
        acceptedTasksWithCompleteTelemetry := (taskIds.filter (entityComplete rows fun r => some r.taskId)).length
        codexCallCount := c.codex
        offloadedCallCount := c.offloaded
        unknownExecutorCallCount := c.unknown
        scoredCallCount := c.scored
        unscoredCallCount := c.total - c.scored } }

/-- `aggregate` of `ResourceEconomicsRepository`. -/
def economics (report : String → Invocation) (w : Fabric) (projectId goalId : Option String) :
    Except StoreError ResourceEconomicsAggregate := do
  let project ← projectOf w projectId goalId
  return reportOf w project goalId (joined report w project goalId)

/-! ## The sums of the query -/

section

variable {records : List InvocationTelemetry}

theorem kinds_partition (records : List InvocationTelemetry) :
    records.length = (records.countP fun r => decide (r.executorKind = .codex)) +
      (records.countP fun r => decide (r.executorKind = .offloaded)) +
      records.countP fun r => decide (r.executorKind = .unknown) := by
  induction records with
  | nil => rfl
  | cons r records ih =>
    simp only [List.length_cons, List.countP_cons, ih]
    cases r.executorKind <;> simp <;> omega

theorem ofKind_length (kind : ExecutorKind) (records : List InvocationTelemetry) :
    (ofKind kind records).length = records.countP fun r => decide (r.executorKind = kind) :=
  List.countP_eq_length_filter.symm

theorem filterMap_id_sum (values : List (Option ℚ)) :
    (values.filterMap id).sum = (values.map fun v => v.getD 0).sum := by
  induction values with
  | nil => rfl
  | cons v values ih =>
    cases v with
    | none => simpa using ih
    | some => simpa using ih

theorem sqlSum_getD (values : List (Option ℚ)) : (sqlSum values).getD 0 = (values.map fun v => v.getD 0).sum := by
  rw [← filterMap_id_sum]
  unfold sqlSum
  cases values.filterMap id <;> rfl

theorem totalQuality_eq (records : List InvocationTelemetry) :
    (classification records).totalQuality = ((scoredRecords records).map (·.score)).sum := by
  simp only [classification, sqlSum_getD, List.map_map]
  induction records with
  | nil => rfl
  | cons r records ih =>
    simp only [List.map_cons, List.sum_cons, ih, scoredRecords, List.filter_cons, InvocationTelemetry.score]
    cases hkind : r.executorKind <;> cases hscore : r.qualityScore <;> simp [hkind, hscore]

theorem offloadedQuality_eq (records : List InvocationTelemetry) :
    (classification records).offloadedQuality = ((ofKind .offloaded (scoredRecords records)).map (·.score)).sum := by
  simp only [classification, sqlSum_getD, List.map_map]
  induction records with
  | nil => rfl
  | cons r records ih =>
    simp only [List.map_cons, List.sum_cons, ih, ofKind, scoredRecords, List.filter_cons, InvocationTelemetry.score]
    cases hkind : r.executorKind <;> cases hscore : r.qualityScore <;> simp [hkind, hscore]

theorem scored_partition (records : List InvocationTelemetry) :
    (classification records).scored =
      (ofKind .codex (scoredRecords records)).length + (ofKind .offloaded (scoredRecords records)).length := by
  simp only [classification, ofKind, scoredRecords]
  induction records with
  | nil => rfl
  | cons r records ih =>
    simp only [List.countP_cons, List.filter_cons, ih]
    cases hkind : r.executorKind <;> cases r.qualityScore <;> simp [hkind] <;> omega

theorem scored_length (records : List InvocationTelemetry) :
    (classification records).scored = (scoredRecords records).length :=
  List.countP_eq_length_filter

end

/-! ## The join -/

/-- Every record is of an existing task, which is in the project of the goal that the record names. -/
def Placed (report : String → Invocation) (w : Fabric) : Prop :=
  ∀ r ∈ invocations report w, ∃ task, w.db.tasks.get? r.taskId = some task ∧
    ∀ g ∈ r.goalId, ∀ goal, w.db.goals.get? g = some goal → task.projectId = goal.projectId

section

variable {report : String → Invocation} {w : Fabric}

theorem joined_all (hplaced : Placed report w) :
    joined report w none none = (invocations report w).filter (inScope none none) := by
  refine List.filter_congr fun r hr => ?_
  obtain ⟨task, htask, _⟩ := hplaced r hr
  simp only [htask, inScope, Option.all_none]

theorem joined_goal {g : String} {goal : GoalRow} (hplaced : Placed report w)
    (hgoal : w.db.goals.get? g = some goal) :
    joined report w (some goal.projectId) (some g) = invocationsOf report w g := by
  refine List.filter_congr fun r hr => ?_
  obtain ⟨task, htask, hproject⟩ := hplaced r hr
  simp only [htask, inScope, Option.all_some, Option.all_none, Bool.and_true]
  by_cases hrow : r.goalId = some g
  · simp [hrow, hproject g hrow goal hgoal]
  · simp [hrow]

theorem economics_ok {scope : Option String} (hplaced : Placed report w)
    (hscope : ∀ g ∈ scope, ∃ goal, w.db.goals.get? g = some goal) :
    ∃ project, projectOf w none scope = .ok project ∧ economics report w none scope =
      .ok (reportOf w project scope ((invocations report w).filter (inScope scope none))) := by
  cases scope with
  | none =>
    refine ⟨none, rfl, ?_⟩
    rw [← joined_all hplaced]
    rfl
  | some g =>
    obtain ⟨goal, hgoal⟩ := hscope g rfl
    have hproject : projectOf w none (some g) = .ok (some goal.projectId) := by
      simp only [projectOf, hgoal]
      rfl
    refine ⟨some goal.projectId, hproject, ?_⟩
    have hrows : (invocations report w).filter (inScope (some g) none) = invocationsOf report w g := rfl
    rw [hrows, ← joined_goal hplaced hgoal]
    unfold economics
    rw [hproject]
    rfl

end

/-! ## The agreement -/

/-- The counts and ratios of a report are those of an aggregate. -/
structure Agrees (e : ResourceEconomicsAggregate) (offload : OffloadAggregate)
    (quality : QualityAdjustedOffloadAggregate) : Prop where
  codex : e.coverage.codexCallCount = offload.codexCalls
  offloaded : e.coverage.offloadedCallCount = offload.offloadedCalls
  unknown : e.coverage.unknownExecutorCallCount = offload.unknownCalls
  ratio : e.codexOffloadRatio = economicsMetric offload.ratio
  scored : e.coverage.scoredCallCount = quality.scoredCodexCalls + quality.scoredOffloadedCalls
  unscored : e.coverage.unscoredCallCount = quality.unscoredCalls
  qualityRatio : e.qualityAdjustedOffload = economicsMetric quality.ratio

theorem reportOf_agrees (w : Fabric) (project scope : Option String) (rows : List InvocationTelemetry) :
    Agrees (reportOf w project scope rows) (offload rows) (qualityAdjustedOffload rows) where
  codex := (ofKind_length _ _).symm
  offloaded := (ofKind_length _ _).symm
  unknown := by
    have h := kinds_partition rows
    simp only [reportOf, classification, offload, ofKind_length]
    omega
  ratio := by
    simp only [reportOf, classification, offload, ofKind_length]
    rfl
  scored := scored_partition rows
  unscored := by
    simp only [reportOf, scored_length]
    rfl
  qualityRatio := by
    simp only [reportOf, totalQuality_eq, offloadedQuality_eq, qualityAdjustedOffload]

/-! ## The rates -/

/-- The tokens of a record. -/
def InvocationTelemetry.tokens (r : InvocationTelemetry) : Nat :=
  (r.inputTokens.map (·.1)).getD 0 + (r.outputTokens.map (·.1)).getD 0

/-- A rate over some goals or tasks is known where there are some, and each has records, all with both counts; it is
then the tokens of these records over the number of goals or tasks. -/
structure Rate (rows : List InvocationTelemetry) (key : InvocationTelemetry → Option String) (ids : List String)
    (rate : UsageMetric ℚ) : Prop where
  known : rate ≠ .unavailable ↔ ids ≠ [] ∧ ∀ id ∈ ids, (∃ r ∈ rows, key r = some id) ∧
    ∀ r ∈ rows, key r = some id → r.inputTokens ≠ none ∧ r.outputTokens ≠ none
  value : ∀ v unit, rate = .known v unit → unit = "tokens" ∧
    v = ((rows.filter fun r => decide (∃ id ∈ ids, key r = some id)).map (·.tokens)).sum / (ids.length : ℚ)

section

variable {rows : List InvocationTelemetry} {key : InvocationTelemetry → Option String} {ids : List String}

theorem rowTokens_isSome {r : InvocationTelemetry} :
    (rowTokens r).isSome = true ↔ r.inputTokens ≠ none ∧ r.outputTokens ≠ none := by
  unfold rowTokens
  cases r.inputTokens <;> cases r.outputTokens <;> simp

theorem rowTokens_getD {r : InvocationTelemetry} (h : r.inputTokens ≠ none ∧ r.outputTokens ≠ none) :
    (rowTokens r).getD 0 = r.tokens := by
  obtain ⟨input, hin⟩ := Option.ne_none_iff_exists'.mp h.1
  obtain ⟨output, hout⟩ := Option.ne_none_iff_exists'.mp h.2
  simp only [rowTokens, InvocationTelemetry.tokens, hin, hout, Option.map_some, Option.getD_some]

theorem entityComplete_iff {id : String} : entityComplete rows key id = true ↔
    (∃ r ∈ rows, key r = some id) ∧
      ∀ r ∈ rows, key r = some id → r.inputTokens ≠ none ∧ r.outputTokens ≠ none := by
  simp only [entityComplete, Bool.and_eq_true, Bool.not_eq_true', List.isEmpty_eq_false_iff_exists_mem,
    List.mem_filter, decide_eq_true_eq, List.all_eq_true, rowTokens_isSome, and_imp]

/-- What `_tokens_per_entity` computes is such a rate. -/
theorem tokensPerEntity_rate : Rate rows key ids (tokensPerEntity rows key ids) := by
  have hguard : (ids.isEmpty || !ids.all (entityComplete rows key)) = true ↔
      ¬ (ids ≠ [] ∧ ∀ id ∈ ids, (∃ r ∈ rows, key r = some id) ∧
        ∀ r ∈ rows, key r = some id → r.inputTokens ≠ none ∧ r.outputTokens ≠ none) := by
    simp only [← entityComplete_iff, Bool.or_eq_true, List.isEmpty_iff, Bool.not_eq_true', List.all_eq_false,
      not_and_or, not_not, not_forall, exists_prop]
  unfold tokensPerEntity
  by_cases hknown : ids ≠ [] ∧ ∀ id ∈ ids, (∃ r ∈ rows, key r = some id) ∧
      ∀ r ∈ rows, key r = some id → r.inputTokens ≠ none ∧ r.outputTokens ≠ none
  · rw [if_neg (fun h => hguard.mp h hknown)]
    refine ⟨⟨fun _ => hknown, fun _ => (by rintro ⟨⟩)⟩, ?_⟩
    intro v unit h
    obtain ⟨rfl, rfl⟩ := UsageMetric.known.inj h
    refine ⟨rfl, ?_⟩
    have hrelevant : rows.filter (fun r => ids.any fun id => decide (key r = some id)) =
        rows.filter fun r => decide (∃ id ∈ ids, key r = some id) := by
      refine List.filter_congr fun r _ => ?_
      rw [Bool.eq_iff_iff]
      simp only [List.any_eq_true, decide_eq_true_eq]
    rw [hrelevant]
    congr 3
    refine List.map_congr_left fun r hr => ?_
    obtain ⟨hr, hid⟩ := List.mem_filter.mp hr
    obtain ⟨id, hid, hkey⟩ := of_decide_eq_true hid
    exact rowTokens_getD ((hknown.2 id hid).2 r hr hkey)
  · rw [if_pos (hguard.mpr hknown)]
    refine ⟨⟨fun h => absurd rfl h, fun h => absurd h hknown⟩, (by rintro _ _ ⟨⟩)⟩

end

/-- **Telemetry and economics agree.**  For the whole store or one goal, over at most 10,000 records that belong to
tasks of their goals' projects, the report counts and divides as the aggregate of the same records does, and its two
rates are known exactly if every successful goal, or accepted task, has records and only complete ones. -/
theorem economics_agrees (report : String → Invocation) (w : Fabric) (scope : Option String)
    (hscope : ∀ g ∈ scope, ∃ goal, w.db.goals.get? g = some goal) (hplaced : Placed report w)
    (hlimit : (invocations report w).length ≤ 10000) :
    ∃ e project, economics report w none scope = .ok e ∧ projectOf w none scope = .ok project ∧
      Agrees e (offload ((invocations report w).filter (inScope scope none)))
        (qualityAdjustedOffload ((invocations report w).filter (inScope scope none))) ∧
      ((∃ a, aggregate (invocations report w) scope none = .ok a) ↔
        OneCostUnit ((invocations report w).filter (inScope scope none))) ∧
      (∀ a, aggregate (invocations report w) scope none = .ok a →
        Agrees e a.codexOffload a.qualityAdjustedOffload) ∧
      Rate ((invocations report w).filter (inScope scope none)) (·.goalId) (successfulGoalIds w project scope)
        e.tokensPerSuccessfulGoal ∧
      Rate ((invocations report w).filter (inScope scope none)) (fun r => some r.taskId)
        (acceptedTaskIds w project scope) e.tokensPerAcceptedTask := by
  obtain ⟨project, hproject, heconomics⟩ := economics_ok hplaced hscope
  refine ⟨_, project, heconomics, hproject, reportOf_agrees _ _ _ _, ?_, ?_, tokensPerEntity_rate,
    tokensPerEntity_rate⟩
  · rw [aggregate_isOk]
    have hlength : ((invocations report w).filter (inScope scope none)).length ≤ 10000 :=
      (List.length_filter_le _ _).trans hlimit
    simp only [hlength, true_and]
  · intro a ha
    have hagg := aggregate_ok ha
    rw [hagg.offload, hagg.quality]
    exact reportOf_agrees _ _ _ _

/-- A goal that has succeeded, its accepted task, and two invocations of it. -/
def oneSuccess : Fabric where
  runtime := { Runtime.World.initial with
    db := { Db.initial with
      goals := ⟨[("g", {
        projectId := "p"
        state := .terminated
        terminationReason := some .success
        terminationDetail := none
        budgets := {}
        iterationCount := 1
        noProgressCount := 0
        taskCount := 1
        failureCount := 0
        steerVersion := 0
        progressFingerprint := none
        startedAt := some 0 })], by decide⟩
      tasks := ⟨[("t", {
        projectId := "p"
        reference := "AUTO-1"
        state := .succeeded
        topology := .single
        attemptCount := 1
        version := 1
        definitionRevision := 1
        currentVerificationScopeId := none
        startedAt := some 0
        finishedAt := some 0 })], by decide⟩ } }
  decisions := ⟨[("t", ⟨"g", "iter-1", 1, .planning, 0⟩)], by decide⟩
  telemetry := ⟨[("run", ⟨"t", some "g"⟩), ("run-2", ⟨"t", some "g"⟩)], by decide⟩

/-- Codex made the first run, and the second one was offloaded. -/
def splitTokens (runId : String) : Invocation :=
  { oneToken runId with executorKind := if runId = "run" then .codex else .offloaded }

theorem oneSuccess_rates : ∃ e, economics splitTokens oneSuccess none (some "g") = .ok e ∧
    e.coverage.codexCallCount = 1 ∧ e.coverage.offloadedCallCount = 1 ∧
    e.tokensPerSuccessfulGoal ≠ .unavailable ∧ e.tokensPerAcceptedTask ≠ .unavailable := by
  have hrows : (invocations splitTokens oneSuccess).filter (inScope (some "g") none) =
      [⟨splitTokens "run", "run", "t", some "g"⟩, ⟨splitTokens "run-2", "run-2", "t", some "g"⟩] := rfl
  have hplaced : Placed splitTokens oneSuccess := by
    refine List.forall_mem_cons.mpr ⟨⟨_, rfl, ?_⟩, List.forall_mem_singleton.mpr ⟨_, rfl, ?_⟩⟩
    all_goals
      intro g hg goal hgoal
      obtain rfl := Option.some.inj hg
      obtain rfl := Option.some.inj hgoal
      rfl
  have hscope : ∀ g ∈ some "g", ∃ goal, oneSuccess.db.goals.get? g = some goal := by
    intro g hg
    obtain rfl := Option.some.inj hg
    exact ⟨_, rfl⟩
  obtain ⟨e, project, he, hproject, hagrees, -, -, hgoals, htasks⟩ :=
    economics_agrees splitTokens oneSuccess (some "g") hscope hplaced (by decide)
  obtain rfl := Except.ok.inj hproject
  have hids : successfulGoalIds oneSuccess (some "p") (some "g") = ["g"] := by decide
  have haccepted : acceptedTaskIds oneSuccess (some "p") (some "g") = ["t"] := by decide
  rw [hids, hrows] at hgoals
  rw [haccepted, hrows] at htasks
  rw [hrows] at hagrees
  refine ⟨e, he, hagrees.codex, hagrees.offloaded, hgoals.known.mpr ⟨(by rintro ⟨⟩), ?_⟩,
    htasks.known.mpr ⟨(by rintro ⟨⟩), ?_⟩⟩
  all_goals
    refine List.forall_mem_singleton.mpr ⟨⟨_, List.mem_cons_self, rfl⟩, ?_⟩
    exact List.forall_mem_cons.mpr ⟨fun _ => ⟨(by rintro ⟨⟩), (by rintro ⟨⟩)⟩,
      List.forall_mem_singleton.mpr fun _ => ⟨(by rintro ⟨⟩), (by rintro ⟨⟩)⟩⟩

end AgentFabric.Telemetry
