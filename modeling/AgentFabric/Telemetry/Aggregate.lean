import AgentFabric.Resource.Ledger
import Mathlib

/-!
# Invocation telemetry

The records of `telemetry.py` and their aggregate.  The columns of a record carry the checks of its table: token counts
have the unit `tokens`, durations are exact seconds, and quality scores are ratios between zero and one.  Amounts that
the source keeps as floating-point numbers are rational here.
-/

namespace AgentFabric.Telemetry

open AgentFabric.Lib AgentFabric.Store
open AgentFabric.Resource (EvidenceConfidence)

inductive UnavailableReason where
  | notReported | notSupported | permissionDenied | stale | offline | unknown
deriving DecidableEq, Repr

def UnavailableReason.value : UnavailableReason → String
  | .notReported => "notReported" | .notSupported => "notSupported" | .permissionDenied => "permissionDenied"
  | .stale => "stale" | .offline => "offline" | .unknown => "unknown"

inductive TaskRole where
  | primary | reviewer | panelist | router | verifier | planner | evaluator | fallback | other | unknown
deriving DecidableEq, Repr

def TaskRole.value : TaskRole → String
  | .primary => "primary" | .reviewer => "reviewer" | .panelist => "panelist" | .router => "router"
  | .verifier => "verifier" | .planner => "planner" | .evaluator => "evaluator" | .fallback => "fallback"
  | .other => "other" | .unknown => "unknown"

inductive InvocationOutcome where
  | success | failure | cancelled | timedOut | interrupted | authRequired | rateLimited
deriving DecidableEq, Repr

def InvocationOutcome.value : InvocationOutcome → String
  | .success => "success" | .failure => "failure" | .cancelled => "cancelled" | .timedOut => "timedOut"
  | .interrupted => "interrupted" | .authRequired => "authRequired" | .rateLimited => "rateLimited"

inductive ExecutorKind where
  | codex | offloaded | unknown
deriving DecidableEq, Repr

/-- A known amount; an amount that is not known is none. -/
structure ObservedMetric (V : Type) where
  value : V
  unit : String
  confidence : EvidenceConfidence

/-- A token count; its unit is that of its column. -/
abbrev TokenCount := Option (Nat × EvidenceConfidence)

def observedTokens (count : TokenCount) : Option (ObservedMetric Nat) := count.map fun c => ⟨c.1, "tokens", c.2⟩

/-- What is observed of one invocation. -/
structure Invocation where
  id : String
  workerId : String
  provider : String
  model : Except UnavailableReason String
  nodeId : String
  taskRole : TaskRole
  outcome : InvocationOutcome
  duration : ℚ
  inputTokens : TokenCount
  outputTokens : TokenCount
  cacheReadTokens : TokenCount
  cacheWriteTokens : TokenCount
  cost : Option (ObservedMetric ℚ)
  remainingQuota : Option (ObservedMetric ℚ)
  qualityScore : Option { score : ℚ // 0 ≤ score ∧ score ≤ 1 }
  retryCount : Nat
  fallback : Bool
  executorKind : ExecutorKind
  recordedAt : Nat

/-- A record of `invocation_telemetry`. -/
structure InvocationTelemetry extends Invocation where
  runId : String
  taskId : String
  goalId : Option String

/-! ## The aggregate -/

structure MetricAggregate (V : Type) where
  observedSum : Option (ObservedMetric V)
  knownCount : Nat
  unavailableCount : Nat

structure LatestMetricAggregate where
  latest : Option (ObservedMetric ℚ)
  knownCount : Nat
  unavailableCount : Nat
  observedAt : Option Nat

structure OffloadAggregate where
  ratio : Option ℚ
  codexCalls : Nat
  offloadedCalls : Nat
  unknownCalls : Nat

structure QualityAdjustedOffloadAggregate where
  ratio : Option ℚ
  scoredCodexCalls : Nat
  scoredOffloadedCalls : Nat
  unscoredCalls : Nat

structure TelemetryAggregate where
  goalId : Option String
  taskId : Option String
  callCount : Nat
  callsByWorker : String → Nat
  callsByProvider : String → Nat
  callsByModel : String → Nat
  callsByNode : String → Nat
  callsByOutcome : String → Nat
  callsByTaskRole : String → Nat
  retryCallCount : Nat
  retryAttemptCount : Nat
  fallbackCount : Nat
  duration : MetricAggregate ℚ
  inputTokens : MetricAggregate Nat
  outputTokens : MetricAggregate Nat
  cacheReadTokens : MetricAggregate Nat
  cacheWriteTokens : MetricAggregate Nat
  cost : MetricAggregate ℚ
  remainingQuota : LatestMetricAggregate
  codexOffload : OffloadAggregate
  qualityAdjustedOffload : QualityAdjustedOffloadAggregate

/-- The rank of `_weakest_confidence`; a known amount is never of unknown confidence. -/
def confidenceRank : EvidenceConfidence → Nat
  | .exact => 0 | .verified => 1 | .providerReported => 2 | .inferred => 3 | .unknown => 4

/-- `_weakest_confidence`, of the confidence of the first amount and those of the others. -/
def weakestConfidence (first : EvidenceConfidence) (others : List EvidenceConfidence) : EvidenceConfidence :=
  others.foldl (fun weakest c => if confidenceRank weakest < confidenceRank c then c else weakest) first

/-- `_sum_metric`: the amounts that are known are added if they have one unit. -/
def sumMetric {V : Type} [AddCommMonoid V] (name : String) (metrics : List (Option (ObservedMetric V))) :
    Except StoreError (MetricAggregate V) :=
  match metrics.filterMap id with
  | [] => .ok ⟨none, 0, metrics.length⟩
  | first :: others =>
    if ∀ m ∈ others, m.unit = first.unit then
      .ok ⟨some ⟨first.value + (others.map (·.value)).sum, first.unit,
        weakestConfidence first.confidence (others.map (·.confidence))⟩,
        others.length + 1, metrics.length - (others.length + 1)⟩
    else .error (.valueError ("cannot aggregate mixed units for " ++ name))

/-- `_latest_quota`: the newest record with a known quota. -/
def latestQuota (records : List InvocationTelemetry) : LatestMetricAggregate :=
  let known := records.filter fun r => r.remainingQuota.isSome
  match known.argmax fun r => toLex (r.recordedAt, r.id) with
  | none => ⟨none, 0, records.length, none⟩
  | some latest => ⟨latest.remainingQuota, known.length, records.length - known.length, some latest.recordedAt⟩

def ofKind (kind : ExecutorKind) (records : List InvocationTelemetry) : List InvocationTelemetry :=
  records.filter fun r => decide (r.executorKind = kind)

def offload (records : List InvocationTelemetry) : OffloadAggregate :=
  let codex := (ofKind .codex records).length
  let offloaded := (ofKind .offloaded records).length
  { ratio := if codex + offloaded = 0 then none else some (offloaded / (codex + offloaded : Nat))
    codexCalls := codex
    offloadedCalls := offloaded
    unknownCalls := records.length - codex - offloaded }

/-- The score of a record that has one. -/
def InvocationTelemetry.score (r : InvocationTelemetry) : ℚ := (r.qualityScore.map (·.1)).getD 0

/-- The records with a known executor and a score. -/
def scoredRecords (records : List InvocationTelemetry) : List InvocationTelemetry :=
  records.filter fun r => decide (r.executorKind ≠ .unknown) && r.qualityScore.isSome

def qualityAdjustedOffload (records : List InvocationTelemetry) : QualityAdjustedOffloadAggregate :=
  let scored := scoredRecords records
  let codex := ofKind .codex scored
  let offloaded := ofKind .offloaded scored
  let denominator := (scored.map (·.score)).sum
  let numerator := (offloaded.map (·.score)).sum
  { ratio := if 0 < denominator then some (numerator / denominator) else none
    scoredCodexCalls := codex.length
    scoredOffloadedCalls := offloaded.length
    unscoredCalls := records.length - scored.length }

def counter (records : List InvocationTelemetry) (key : InvocationTelemetry → String) (k : String) : Nat :=
  records.countP fun r => decide (key r = k)

def aggregationKey : Except UnavailableReason String → String
  | .ok value => value
  | .error reason => "unavailable:" ++ reason.value

def aggregateInvocations (records : List InvocationTelemetry) (goalId taskId : Option String) :
    Except StoreError TelemetryAggregate := do
  let duration ← sumMetric "duration"
    (records.map fun r => some (⟨r.duration, "seconds", .exact⟩ : ObservedMetric ℚ))
  let inputTokens ← sumMetric "input_tokens" (records.map fun r => observedTokens r.inputTokens)
  let outputTokens ← sumMetric "output_tokens" (records.map fun r => observedTokens r.outputTokens)
  let cacheReadTokens ← sumMetric "cache_read_tokens" (records.map fun r => observedTokens r.cacheReadTokens)
  let cacheWriteTokens ← sumMetric "cache_write_tokens" (records.map fun r => observedTokens r.cacheWriteTokens)
  let cost ← sumMetric "cost" (records.map (·.cost))
  return {
    goalId := goalId
    taskId := taskId
    callCount := records.length
    callsByWorker := counter records (·.workerId)
    callsByProvider := counter records (·.provider)
    callsByModel := counter records fun r => aggregationKey r.model
    callsByNode := counter records (·.nodeId)
    callsByOutcome := counter records fun r => r.outcome.value
    callsByTaskRole := counter records fun r => r.taskRole.value
    retryCallCount := records.countP fun r => decide (0 < r.retryCount)
    retryAttemptCount := (records.map (·.retryCount)).sum
    fallbackCount := records.countP (·.fallback)
    duration := duration
    inputTokens := inputTokens
    outputTokens := outputTokens
    cacheReadTokens := cacheReadTokens
    cacheWriteTokens := cacheWriteTokens
    cost := cost
    remainingQuota := latestQuota records
    codexOffload := offload records
    qualityAdjustedOffload := qualityAdjustedOffload records }

/-- The records of a goal and of a task, as far as they are given. -/
def inScope (goalId taskId : Option String) (r : InvocationTelemetry) : Bool :=
  (goalId.all fun g => decide (r.goalId = some g)) && taskId.all fun t => decide (r.taskId = t)

/-- `aggregate` of the repository, over the rows in the order of `recorded_at,id`. -/
def aggregate (rows : List InvocationTelemetry) (goalId taskId : Option String) :
    Except StoreError TelemetryAggregate := do
  let records := rows.filter (inScope goalId taskId)
  ensure (records.length ≤ 10000)
    (.valueError "telemetry aggregate exceeds the 10000-record in-memory safety limit")
  aggregateInvocations records goalId taskId

/-! ## When the aggregate is formed -/

section

variable {V : Type} [AddCommMonoid V] {name : String} {metrics : List (Option (ObservedMetric V))}

/-- The known amounts have one unit. -/
def OneUnit (metrics : List (Option (ObservedMetric V))) : Prop :=
  ∀ a b : ObservedMetric V, some a ∈ metrics → some b ∈ metrics → a.unit = b.unit

/-- What a sum is made of. -/
structure Summed (metrics : List (Option (ObservedMetric V))) (sum : MetricAggregate V) : Prop where
  known : sum.knownCount = (metrics.filterMap id).length
  unavailable : sum.unavailableCount = metrics.length - (metrics.filterMap id).length
  value : (sum.observedSum.map (·.value)).getD 0 = ((metrics.filterMap id).map (·.value)).sum

theorem sumMetric_ok {sum : MetricAggregate V} (h : sumMetric name metrics = .ok sum) : Summed metrics sum := by
  unfold sumMetric at h
  cases hknown : metrics.filterMap id with
  | nil =>
    rw [hknown] at h
    obtain rfl := Except.ok.inj h
    constructor <;> rw [hknown] <;> simp
  | cons =>
    simp only [hknown] at h
    split at h
    · obtain rfl := Except.ok.inj h
      constructor <;> rw [hknown] <;> simp
    · exact nomatch h

/-- Amounts are added exactly if they have one unit. -/
theorem sumMetric_isOk : (∃ sum, sumMetric name metrics = .ok sum) ↔ OneUnit metrics := by
  have hmem : ∀ a, some a ∈ metrics ↔ a ∈ metrics.filterMap id := by
    intro a
    simp [List.mem_filterMap]
  unfold sumMetric OneUnit
  simp only [hmem]
  cases metrics.filterMap id with
  | nil => simp
  | cons first others =>
    dsimp only
    constructor
    · rintro ⟨sum, h⟩ a b ha hb
      split at h
      · rename_i hunit
        have hfirst : ∀ m ∈ first :: others, m.unit = first.unit := by
          intro m hm
          rcases List.mem_cons.mp hm with rfl | hm
          · rfl
          · exact hunit m hm
        rw [hfirst a ha, hfirst b hb]
      · exact nomatch h
    · intro hunits
      rw [if_pos]
      · exact ⟨_, rfl⟩
      · intro m hm
        exact hunits m first (List.mem_cons_of_mem _ hm) List.mem_cons_self

end

theorem oneUnit_tokens (records : List InvocationTelemetry) (tokens : InvocationTelemetry → TokenCount) :
    OneUnit (records.map fun r => observedTokens (tokens r)) := by
  have hunit : ∀ a : ObservedMetric Nat, some a ∈ records.map (fun r => observedTokens (tokens r)) →
      a.unit = "tokens" := by
    intro a ha
    obtain ⟨r, _, hr⟩ := List.mem_map.mp ha
    obtain ⟨c, _, rfl⟩ := Option.map_eq_some_iff.mp hr
    rfl
  intro a b ha hb
  rw [hunit a ha, hunit b hb]

theorem oneUnit_duration (records : List InvocationTelemetry) :
    OneUnit (records.map fun r => some (⟨r.duration, "seconds", .exact⟩ : ObservedMetric ℚ)) := by
  intro a b ha hb
  obtain ⟨_, _, hr⟩ := List.mem_map.mp ha
  obtain ⟨_, _, hs⟩ := List.mem_map.mp hb
  rw [← Option.some.inj hr, ← Option.some.inj hs]

def OneCostUnit (records : List InvocationTelemetry) : Prop := OneUnit (records.map (·.cost))

/-- What the parts of an aggregate are made of. -/
structure Aggregated (records : List InvocationTelemetry) (a : TelemetryAggregate) : Prop where
  calls : a.callCount = records.length
  input : Summed (records.map fun r => observedTokens r.inputTokens) a.inputTokens
  output : Summed (records.map fun r => observedTokens r.outputTokens) a.outputTokens
  cost : Summed (records.map (·.cost)) a.cost
  offload : a.codexOffload = offload records
  quality : a.qualityAdjustedOffload = qualityAdjustedOffload records

variable {records rows : List InvocationTelemetry} {goalId taskId : Option String}

theorem aggregateInvocations_ok {a : TelemetryAggregate} (h : aggregateInvocations records goalId taskId = .ok a) :
    Aggregated records a := by
  simp only [aggregateInvocations, bind_eq_ok, pure_eq_ok] at h
  obtain ⟨_, _, input, hinput, output, houtput, _, _, _, _, cost, hcost, rfl⟩ := h
  exact ⟨rfl, sumMetric_ok hinput, sumMetric_ok houtput, sumMetric_ok hcost, rfl, rfl⟩

theorem aggregateInvocations_isOk :
    (∃ a, aggregateInvocations records goalId taskId = .ok a) ↔ OneCostUnit records := by
  constructor
  · rintro ⟨a, h⟩
    simp only [aggregateInvocations, bind_eq_ok, pure_eq_ok] at h
    obtain ⟨_, _, _, _, _, _, _, _, _, _, cost, hcost, _⟩ := h
    exact sumMetric_isOk.mp ⟨cost, hcost⟩
  · intro hcost
    obtain ⟨_, hduration⟩ := (@sumMetric_isOk _ _ "duration" _).mpr (oneUnit_duration records)
    obtain ⟨_, hinput⟩ := (@sumMetric_isOk _ _ "input_tokens" _).mpr (oneUnit_tokens records (·.inputTokens))
    obtain ⟨_, houtput⟩ := (@sumMetric_isOk _ _ "output_tokens" _).mpr (oneUnit_tokens records (·.outputTokens))
    obtain ⟨_, hread⟩ := (@sumMetric_isOk _ _ "cache_read_tokens" _).mpr
      (oneUnit_tokens records (·.cacheReadTokens))
    obtain ⟨_, hwrite⟩ := (@sumMetric_isOk _ _ "cache_write_tokens" _).mpr
      (oneUnit_tokens records (·.cacheWriteTokens))
    obtain ⟨_, hsum⟩ := (@sumMetric_isOk _ _ "cost" _).mpr hcost
    simp only [aggregateInvocations, bind_eq_ok, pure_eq_ok]
    exact ⟨_, _, hduration, _, hinput, _, houtput, _, hread, _, hwrite, _, hsum, rfl⟩

/-- **Aggregates.**  The repository aggregates the records of its scope exactly if they are at most 10,000, with costs
in one unit. -/
theorem aggregate_isOk :
    (∃ a, aggregate rows goalId taskId = .ok a) ↔
      (rows.filter (inScope goalId taskId)).length ≤ 10000 ∧ OneCostUnit (rows.filter (inScope goalId taskId)) := by
  rw [← @aggregateInvocations_isOk _ goalId taskId]
  simp only [aggregate, bind_eq_ok, ensure_eq_ok]
  constructor
  · rintro ⟨a, _, hlength, h⟩
    exact ⟨hlength, a, h⟩
  · rintro ⟨hlength, a, h⟩
    exact ⟨a, (), hlength, h⟩

theorem aggregate_ok {a : TelemetryAggregate} (h : aggregate rows goalId taskId = .ok a) :
    Aggregated (rows.filter (inScope goalId taskId)) a := by
  obtain ⟨_, _, h⟩ := bind_eq_ok.mp h
  exact aggregateInvocations_ok h

end AgentFabric.Telemetry
