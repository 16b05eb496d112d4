import AgentFabric.Lib.Sorting
import AgentFabric.Resource.Ledger
import Mathlib

/-!
# Usage aggregates

The aggregates over `resource_usage_snapshots` of `resource_usage.py`: a page of rows, and what is counted on it.
Amounts are of any type with a zero and an addition, the floating-point one included, so totals are folds in the order
of the page.
-/

namespace AgentFabric.Resource

open AgentFabric.Lib AgentFabric.Store

/-- An amount with its unit, or none. -/
inductive UsageMetric (V : Type) where
  | known (value : V) (unit : String)
  | unavailable

/-- A row of `resource_usage_snapshots`; its identifier is its key. -/
structure ResourceSnapshot (V : Type) where
  auditId : String
  goalId : Option String
  taskId : String
  model : Option String
  accountScope : Option String
  taskCalls : UsageMetric V
  inputTokens : UsageMetric V
  outputTokens : UsageMetric V
  cachedTokens : UsageMetric V
  cost : UsageMetric V
  observation : ResourceObservation

abbrev SnapshotRow (V : Type) := String × ResourceSnapshot V

/-- The filters of `aggregate` and of `list_snapshots`. -/
structure UsageFilter where
  goalId : Option String
  taskId : Option String
  provider : Option String
  model : Option String
  workerId : Option String
  accountScope : Option String
  quotaPoolId : Option String
  observedAfter : Option Nat
  observedBefore : Option Nat

def UsageFilter.none : UsageFilter := ⟨.none, .none, .none, .none, .none, .none, .none, .none, .none⟩

section

variable {V : Type}

/-- The conditions of the query; a column that is null is equal to nothing. -/
def UsageFilter.admits (f : UsageFilter) (s : ResourceSnapshot V) : Bool :=
  (f.goalId.all fun id => decide (s.goalId = some id)) &&
    (f.taskId.all fun id => decide (s.taskId = id)) &&
    (f.provider.all fun p => decide (s.observation.provider = p)) &&
    (f.model.all fun m => decide (s.model = some m)) &&
    (f.workerId.all fun id => decide (s.observation.workerId = some id)) &&
    (f.accountScope.all fun a => decide (s.accountScope = some a)) &&
    (f.quotaPoolId.all fun p => decide (s.observation.quotaPoolId = p)) &&
    (f.observedAfter.all fun t => decide (formatTime t ≤ s.observation.observedAt)) &&
    (f.observedBefore.all fun t => decide (s.observation.observedAt ≤ formatTime t))

/-- `(observed_at, id)`. -/
def rowAge (row : SnapshotRow V) : Nat ×ₗ String := age (row.1, row.2.observation)

/-- `ORDER BY observed_at,id`. -/
def inOrder (rows : List (SnapshotRow V)) : List (SnapshotRow V) :=
  rows.mergeSort fun a b => decide (rowAge a ≤ rowAge b)

/-- The rows that the filter admits. -/
def matching (snapshots : Table String (ResourceSnapshot V)) (f : UsageFilter) : List (SnapshotRow V) :=
  snapshots.rows.filter fun row => f.admits row.2

def listSnapshots (snapshots : Table String (ResourceSnapshot V)) (f : UsageFilter) (limit : Int) :
    Except StoreError (List (SnapshotRow V)) := do
  ensure (1 ≤ limit ∧ limit ≤ 10000) (.valueError "limit must be between 1 and 10000")
  return (inOrder (matching snapshots f)).take limit.toNat

def ofPool (pool : String) (row : SnapshotRow V) : Bool := decide (row.2.observation.quotaPoolId = pool)

def latestByPool (snapshots : Table String (ResourceSnapshot V)) (pool : String) : Option (SnapshotRow V) :=
  (snapshots.rows.filter (ofPool pool)).argmax rowAge

structure MetricAggregate (V : Type) where
  valuesByUnit : String → Option V
  knownCount : Nat
  unknownCount : Nat

/-- One row of the loop of `_aggregate_metric`. -/
def metricStep [Zero V] [Add V] (m : MetricAggregate V) : UsageMetric V → MetricAggregate V
  | .unavailable => { m with unknownCount := m.unknownCount + 1 }
  | .known value unit =>
    { m with
      knownCount := m.knownCount + 1
      valuesByUnit := fun u => if u = unit then some ((m.valuesByUnit unit).getD 0 + value) else m.valuesByUnit u }

def aggregateMetric [Zero V] [Add V] (rows : List (SnapshotRow V)) (metric : ResourceSnapshot V → UsageMetric V) :
    MetricAggregate V :=
  (rows.map fun row => metric row.2).foldl metricStep ⟨fun _ => none, 0, 0⟩

/-- `value or "unavailable"`. -/
def orUnavailable (value : Option String) : String :=
  match value with
  | none => "unavailable"
  | some v => if v = "" then "unavailable" else v

/-- A `Counter` of the rows by one of their columns. -/
def countBy (rows : List (SnapshotRow V)) (column : ResourceSnapshot V → String) (key : String) : Nat :=
  rows.countP fun row => decide (column row.2 = key)

/-- One row of the loop that fills `latest`. -/
def latestStep (latest : String → Option (SnapshotRow V)) (row : SnapshotRow V) :
    String → Option (SnapshotRow V) := fun pool =>
  if row.2.observation.quotaPoolId = pool then
    match latest pool with
    | none => some row
    | some current => if rowAge current < rowAge row then some row else some current
  else latest pool

structure ResourceUsageAggregate (V : Type) where
  scope : UsageFilter
  auditCount : Nat
  snapshotCount : Nat
  snapshotsByProvider : String → Nat
  snapshotsByModel : String → Nat
  snapshotsByWorker : String → Nat
  snapshotsByAccountScope : String → Nat
  snapshotsByQuotaPool : String → Nat
  taskCalls : MetricAggregate V
  inputTokens : MetricAggregate V
  outputTokens : MetricAggregate V
  cachedTokens : MetricAggregate V
  cost : MetricAggregate V
  latestByQuotaPool : String → Option (SnapshotRow V)

/-- What `aggregate` makes of the rows it has read. -/
def summarize [Zero V] [Add V] (f : UsageFilter) (rows : List (SnapshotRow V)) : ResourceUsageAggregate V where
  scope :=
    { f with
      observedAfter := f.observedAfter.map formatTime
      observedBefore := f.observedBefore.map formatTime }
  auditCount := (rows.map fun row => row.2.auditId).dedup.length
  snapshotCount := rows.length
  snapshotsByProvider := countBy rows (·.observation.provider)
  snapshotsByModel := countBy rows fun s => orUnavailable s.model
  snapshotsByWorker := countBy rows fun s => orUnavailable s.observation.workerId
  snapshotsByAccountScope := countBy rows fun s => orUnavailable s.accountScope
  snapshotsByQuotaPool := countBy rows (·.observation.quotaPoolId)
  taskCalls := aggregateMetric rows (·.taskCalls)
  inputTokens := aggregateMetric rows (·.inputTokens)
  outputTokens := aggregateMetric rows (·.outputTokens)
  cachedTokens := aggregateMetric rows (·.cachedTokens)
  cost := aggregateMetric rows (·.cost)
  latestByQuotaPool := rows.foldl latestStep fun _ => none

/-- The default `limit` of `list_snapshots`. -/
def pageLimit : Int := 10000

/-- `aggregate`, which takes no limit of its own. -/
def aggregate [Zero V] [Add V] (snapshots : Table String (ResourceSnapshot V)) (f : UsageFilter) :
    Except StoreError (ResourceUsageAggregate V) := do
  let rows ← listSnapshots snapshots f pageLimit
  return summarize f rows

/-! ## The newest row of a pool -/

def IsNewest (rows : List (SnapshotRow V)) (pool : String) (row : SnapshotRow V) : Prop :=
  row ∈ rows ∧ ofPool pool row = true ∧ ∀ other ∈ rows, ofPool pool other = true → rowAge other ≤ rowAge row

variable {rows : List (SnapshotRow V)}

theorem rowAge_injOn (hnodup : (rows.map Prod.fst).Nodup) {a b : SnapshotRow V} (ha : a ∈ rows) (hb : b ∈ rows)
    (h : rowAge a = rowAge b) : a = b := by
  simp only [rowAge, age, EmbeddingLike.apply_eq_iff_eq, Prod.mk.injEq] at h
  exact List.inj_on_of_nodup_map hnodup ha hb h.2

variable {row : SnapshotRow V}

theorem argmax_rowAge (hnodup : (rows.map Prod.fst).Nodup) {pool : String} :
    (rows.filter (ofPool pool)).argmax rowAge = some row ↔ IsNewest rows pool row := by
  constructor
  · intro h
    obtain ⟨hmem, hpool⟩ := List.mem_filter.mp (List.argmax_mem h)
    refine ⟨hmem, hpool, ?_⟩
    intro other hother hp
    exact List.le_of_mem_argmax (List.mem_filter.mpr ⟨hother, hp⟩) h
  · rintro ⟨hmem, hpool, hnewest⟩
    have hrow : row ∈ rows.filter (ofPool pool) := List.mem_filter.mpr ⟨hmem, hpool⟩
    cases hmax : (rows.filter (ofPool pool)).argmax rowAge with
    | none =>
      rw [List.argmax_eq_none.mp hmax] at hrow
      exact absurd hrow List.not_mem_nil
    | some other =>
      obtain ⟨hother, hp⟩ := List.mem_filter.mp (List.argmax_mem hmax)
      have hle := hnewest other hother hp
      have hge : rowAge row ≤ rowAge other := List.le_of_mem_argmax hrow hmax
      rw [rowAge_injOn hnodup hother hmem (le_antisymm hle hge)]

/-- The loop that fills `latest` looks for the maximum of each pool. -/
theorem latest_foldl (rows : List (SnapshotRow V)) (latest : String → Option (SnapshotRow V)) (pool : String) :
    rows.foldl latestStep latest pool =
      (rows.filter (ofPool pool)).foldl (List.argAux fun b c => rowAge c < rowAge b) (latest pool) := by
  induction rows generalizing latest with
  | nil => rfl
  | cons row rows ih =>
    rw [List.foldl_cons, ih]
    by_cases hpool : row.2.observation.quotaPoolId = pool
    · rw [List.filter_cons_of_pos (by simpa [ofPool] using hpool), List.foldl_cons]
      congr 1
      simp only [latestStep, if_pos hpool, List.argAux]
      cases latest pool <;> rfl
    · rw [List.filter_cons_of_neg (by simpa [ofPool] using hpool)]
      congr 1
      exact if_neg hpool

/-- **The latest rows.**  The loop ends with the newest row of each pool. -/
theorem latest_iff (hnodup : (rows.map Prod.fst).Nodup) {pool : String} :
    rows.foldl latestStep (fun _ => none) pool = some row ↔ IsNewest rows pool row := by
  rw [latest_foldl]
  exact argmax_rowAge hnodup

/-! ## Pages -/

theorem inOrder_perm (rows : List (SnapshotRow V)) : (inOrder rows).Perm rows := List.mergeSort_perm _ _

variable {snapshots : Table String (ResourceSnapshot V)}

theorem listSnapshots_whole {f : UsageFilter} (h : ((matching snapshots f).length : Int) ≤ pageLimit) :
    listSnapshots snapshots f pageLimit = .ok (inOrder (matching snapshots f)) := by
  have hlength : (inOrder (matching snapshots f)).length ≤ pageLimit.toNat := by
    rw [(inOrder_perm _).length_eq]
    omega
  unfold listSnapshots
  rw [List.take_of_length_le hlength]
  rfl

theorem listSnapshots_length {f : UsageFilter} (h : listSnapshots snapshots f pageLimit = .ok rows) :
    rows.length ≤ 10000 := by
  unfold listSnapshots at h
  obtain ⟨_, _, h⟩ := bind_eq_ok.mp h
  obtain rfl := pure_eq_ok.mp h
  exact List.length_take_le _ _

theorem matching_nodup (snapshots : Table String (ResourceSnapshot V)) (f : UsageFilter) :
    ((matching snapshots f).map Prod.fst).Nodup :=
  snapshots.nodup.sublist (List.filter_sublist.map _)

theorem matching_none (snapshots : Table String (ResourceSnapshot V)) : matching snapshots .none = snapshots.rows :=
  List.filter_eq_self.mpr fun _ _ => rfl

theorem IsNewest.perm {rows' : List (SnapshotRow V)} (h : rows'.Perm rows) {pool : String} :
    IsNewest rows' pool row ↔ IsNewest rows pool row := by
  simp only [IsNewest, h.mem_iff]

section

variable [Zero V] [Add V]

/-- The aggregate is that of every row that the filter admits. -/
structure Covers (snapshots : Table String (ResourceSnapshot V)) (f : UsageFilter) (a : ResourceUsageAggregate V) :
    Prop where
  audits : a.auditCount = ((matching snapshots f).map fun row => row.2.auditId).toFinset.card
  count : a.snapshotCount = (matching snapshots f).length
  providers : ∀ key, a.snapshotsByProvider key =
    (matching snapshots f).countP fun row => decide (row.2.observation.provider = key)
  models : ∀ key, a.snapshotsByModel key =
    (matching snapshots f).countP fun row => decide (orUnavailable row.2.model = key)
  workers : ∀ key, a.snapshotsByWorker key =
    (matching snapshots f).countP fun row => decide (orUnavailable row.2.observation.workerId = key)
  accounts : ∀ key, a.snapshotsByAccountScope key =
    (matching snapshots f).countP fun row => decide (orUnavailable row.2.accountScope = key)
  pools : ∀ key, a.snapshotsByQuotaPool key =
    (matching snapshots f).countP fun row => decide (row.2.observation.quotaPoolId = key)
  taskCalls : a.taskCalls = aggregateMetric (inOrder (matching snapshots f)) (·.taskCalls)
  inputTokens : a.inputTokens = aggregateMetric (inOrder (matching snapshots f)) (·.inputTokens)
  outputTokens : a.outputTokens = aggregateMetric (inOrder (matching snapshots f)) (·.outputTokens)
  cachedTokens : a.cachedTokens = aggregateMetric (inOrder (matching snapshots f)) (·.cachedTokens)
  cost : a.cost = aggregateMetric (inOrder (matching snapshots f)) (·.cost)
  latest : ∀ pool row, a.latestByQuotaPool pool = some row ↔ IsNewest (matching snapshots f) pool row
  unfiltered : f = .none → ∀ pool, a.latestByQuotaPool pool = latestByPool snapshots pool

theorem summarize_covers (snapshots : Table String (ResourceSnapshot V)) (f : UsageFilter) :
    Covers snapshots f (summarize f (inOrder (matching snapshots f))) := by
  have hperm := inOrder_perm (matching snapshots f)
  have hnodup := matching_nodup snapshots f
  have hlatest : ∀ pool row, (inOrder (matching snapshots f)).foldl latestStep (fun _ => none) pool = some row ↔
      IsNewest (matching snapshots f) pool row := by
    intro pool row
    rw [latest_iff ((hperm.map _).nodup_iff.mpr hnodup), IsNewest.perm hperm]
  have hcount : ∀ (column : ResourceSnapshot V → String) key, countBy (inOrder (matching snapshots f)) column key =
      (matching snapshots f).countP fun row => decide (column row.2 = key) := by
    intro column key
    exact hperm.countP_eq _
  refine ⟨?_, hperm.length_eq, hcount (·.observation.provider), hcount fun s => orUnavailable s.model,
    hcount fun s => orUnavailable s.observation.workerId, hcount fun s => orUnavailable s.accountScope,
    hcount (·.observation.quotaPoolId), rfl, rfl, rfl, rfl, rfl, hlatest, ?_⟩
  · rw [← List.toFinset_eq_of_perm _ _ (hperm.map fun row => row.2.auditId)]
    exact (List.card_toFinset _).symm
  · rintro rfl pool
    refine Option.ext fun row => (hlatest pool row).trans ?_
    rw [matching_none]
    exact (argmax_rowAge snapshots.nodup).symm

/-- **Aggregates and the whole ledger.**  The aggregate is that of all rows that its filter admits exactly if these are
at most 10,000. -/
theorem aggregate_covers_iff (snapshots : Table String (ResourceSnapshot V)) (f : UsageFilter) :
    (∃ a, aggregate snapshots f = .ok a ∧ Covers snapshots f a) ↔ (matching snapshots f).length ≤ 10000 := by
  constructor
  · rintro ⟨a, h, hcovers⟩
    obtain ⟨rows, hrows, h⟩ := bind_eq_ok.mp h
    obtain rfl := pure_eq_ok.mp h
    rw [← hcovers.count]
    exact listSnapshots_length hrows
  · intro h
    refine ⟨_, ?_, summarize_covers snapshots f⟩
    unfold aggregate
    rw [listSnapshots_whole (by unfold pageLimit; omega)]
    rfl

end

end

/-! ## A ledger of 10,001 rows -/

/-- A row that nothing is known of. -/
def plainSnapshot : ResourceSnapshot Nat where
  auditId := "audit"
  goalId := none
  taskId := "task"
  model := none
  accountScope := none
  taskCalls := .unavailable
  inputTokens := .unavailable
  outputTokens := .unavailable
  cachedTokens := .unavailable
  cost := .unavailable
  observation :=
    { provider := "openai"
      quotaPoolId := "p"
      workerId := none
      remaining := none
      quotaState := .unknown
      quotaStateProvenance := .unknown
      source := "header"
      confidence := .exact
      observedAt := 0
      freshUntil := none
      metadata := []
      named := by decide
      worker := nofun
      lasting := nofun
      drained := unknown_undrained
      provenanced := unknown_provenanced }

/-- `n` such rows. -/
def plainLedger (n : Nat) : Table String (ResourceSnapshot Nat) where
  rows := (List.range n).map fun i => (String.ofList (List.replicate i 'a'), plainSnapshot)
  nodup := by
    rw [List.map_map]
    refine List.Nodup.map ?_ List.nodup_range
    intro i j h
    simpa using congrArg List.length (String.ofList_injective h)

/-- With one row more than a page holds, the aggregate of everything leaves a row out. -/
theorem aggregate_truncated :
    ¬ ∃ a, aggregate (plainLedger 10001) .none = .ok a ∧ Covers (plainLedger 10001) .none a := by
  rintro ⟨a, h, hcovers⟩
  obtain ⟨rows, hrows, h⟩ := bind_eq_ok.mp h
  obtain rfl := pure_eq_ok.mp h
  have hlength : rows.length = 10001 := by
    refine hcovers.count.trans ?_
    rw [matching_none]
    simp only [plainLedger, List.length_map, List.length_range]
  have hpage := listSnapshots_length hrows
  omega

end AgentFabric.Resource
