import AgentFabric.Store.Schema
import Mathlib.Algebra.Order.Ring.Rat
import Mathlib.Data.List.MinMax
import Mathlib.Data.Prod.Lex
import Mathlib.Data.String.Basic

/-!
# The resource ledger

The observations of `resource_usage.py` and the ledger that keeps them.
Instants are microseconds; the ledger stores whole seconds.
-/

namespace AgentFabric.Resource

open AgentFabric.Lib AgentFabric.Store

inductive UsageProvenance where
  | providerReported | locallyMeasured | inferred | unknown
deriving DecidableEq, Repr

inductive QuotaState where
  | available | warning | critical | exhausted | unknown
deriving DecidableEq, Repr

def QuotaState.value : QuotaState → String
  | .available => "available" | .warning => "warning" | .critical => "critical" | .exhausted => "exhausted"
  | .unknown => "unknown"

inductive Freshness where
  | fresh | stale | unknown
deriving DecidableEq, Repr

inductive EvidenceConfidence where
  | exact | verified | providerReported | inferred | unknown
deriving DecidableEq, Repr

/-- The stored text of an instant drops the microseconds. -/
def formatTime (instant : Nat) : Nat := timestamp instant * 1000000

theorem formatTime_mono {s t : Nat} (h : s ≤ t) : formatTime s ≤ formatTime t :=
  Nat.mul_le_mul_right _ (Nat.div_le_div_right h)

/-- One observation that is supplied to an audit; the measured amounts other than `remaining` are not read. -/
structure ResourceObservation where
  provider : String
  quotaPoolId : String
  workerId : Option String
  remaining : Option ℚ
  quotaState : QuotaState
  quotaStateProvenance : UsageProvenance
  source : String
  confidence : EvidenceConfidence
  observedAt : Nat
  freshUntil : Option Nat
  metadata : List (String × String)
  named : blank provider = false ∧ blank quotaPoolId = false ∧ blank source = false
  worker : ∀ id ∈ workerId, blank id = false
  lasting : ∀ t ∈ freshUntil, observedAt ≤ t
  drained : quotaState = .exhausted → remaining = some 0
  provenanced : quotaState = .unknown ↔ quotaStateProvenance = .unknown

/-- The observation as a row keeps it. -/
def ResourceObservation.stored (o : ResourceObservation) : ResourceObservation :=
  { o with
    observedAt := formatTime o.observedAt
    freshUntil := o.freshUntil.map formatTime
    lasting := by
      intro t ht
      obtain ⟨s, hs, rfl⟩ := Option.mem_map.mp ht
      exact formatTime_mono (o.lasting s hs) }

def ResourceObservation.freshness (o : ResourceObservation) (asOf : Nat) : Freshness :=
  match o.freshUntil with
  | none => .unknown
  | some t => if asOf ≤ t then .fresh else .stale

/-! ## The ledger -/

/-- A row of `post_task_usage_audits`. -/
structure AuditRecord where
  taskId : String
  runId : Option String
  terminalState : String
  errors : List String

/-- The two tables of the ledger: audits under their keys, snapshots under their identifiers. -/
structure Ledger where
  audits : Table String AuditRecord
  snapshots : Table String ResourceObservation

/-- The order of `observed_at,id`. -/
def age (row : String × ResourceObservation) : Nat ×ₗ String := toLex (row.2.observedAt, row.1)

/-- `ORDER BY observed_at DESC,id DESC LIMIT 1`. -/
def newest (rows : List (String × ResourceObservation)) : Option ResourceObservation :=
  (rows.argmax age).map Prod.snd

def Ledger.latestByPool (ledger : Ledger) (quotaPoolId : String) : Option ResourceObservation :=
  newest (ledger.snapshots.rows.filter fun row => decide (row.2.quotaPoolId = quotaPoolId))

def Ledger.latestByWorker (ledger : Ledger) (workerId : String) : Option ResourceObservation :=
  newest (ledger.snapshots.rows.filter fun row => decide (row.2.workerId = some workerId))

theorem newest_eq {rows : List (String × ResourceObservation)} {id : String} {o : ResourceObservation}
    (hmem : (id, o) ∈ rows) (hnewer : ∀ row ∈ rows, row ≠ (id, o) → age row < age (id, o)) :
    newest rows = some o := by
  have hne : rows ≠ [] := List.ne_nil_of_mem hmem
  cases hmax : rows.argmax age with
  | none => exact absurd (List.argmax_eq_none.mp hmax) hne
  | some row =>
    have hle : age (id, o) ≤ age row := List.le_of_mem_argmax hmem hmax
    by_cases hrow : row = (id, o)
    · simp only [newest, hmax, hrow, Option.map_some]
    · exact absurd hle (not_le.mpr (hnewer row (List.argmax_mem hmax) hrow))

/-! ## Post-task audits -/

/-- A row of `invocation_telemetry`. -/
structure InvocationTelemetry where
  runId : String
  workerId : String
  provider : String
  outcome : String
  named : blank provider = false ∧ blank workerId = false

theorem blank_append {a b : String} (h : blank a = false) : blank (a ++ b) = false := by
  simp only [blank, String.toList_append, List.all_append, Bool.and_eq_false_iff] at h ⊢
  exact Or.inl h

/-- `f"local:{provider}:worker:{worker_id}"`. -/
def localPool (provider workerId : String) : String := "local:" ++ (provider ++ ":worker:" ++ workerId)

theorem localPool_named (provider workerId : String) : blank (localPool provider workerId) = false :=
  blank_append (by decide)

theorem unknown_undrained : QuotaState.unknown = .exhausted → (none : Option ℚ) = some 0 := nofun

theorem unknown_provenanced : QuotaState.unknown = .unknown ↔ UsageProvenance.unknown = .unknown := by decide

theorem exhausted_drained : QuotaState.exhausted = .exhausted → (some 0 : Option ℚ) = some 0 := fun _ => rfl

theorem exhausted_provenanced : QuotaState.exhausted = .unknown ↔
    UsageProvenance.providerReported = .unknown := by decide

/-- `_observation_from_invocation`: the local bookkeeping of one run, which says nothing about a quota. -/
def observationFromInvocation (row : InvocationTelemetry) (observedAt : Nat) : ResourceObservation where
  provider := row.provider
  quotaPoolId := localPool row.provider row.workerId
  workerId := some row.workerId
  remaining := none
  quotaState := .unknown
  quotaStateProvenance := .unknown
  source := "invocationTelemetry"
  confidence := .exact
  observedAt := observedAt
  freshUntil := none
  metadata := [("runID", row.runId), ("runOutcome", row.outcome)]
  named := ⟨row.named.1, localPool_named _ _, by decide⟩
  worker := by
    rintro id ⟨⟩
    exact row.named.2
  lasting := nofun
  drained := nofun
  provenanced := by simp

end AgentFabric.Resource
