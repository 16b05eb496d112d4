import AgentFabric.Resource.Ledger

/-!
# The quota guard before a dispatch

`PreDispatchQuotaGuard` of `resource_usage.py`: what the ledger says about the pool of a candidate, and which
candidates are kept back for it.
-/

namespace AgentFabric.Resource

open AgentFabric.Store

structure QuotaGuardCandidate where
  workerId : String
  quotaPoolId : String
  capable : Bool
  premium : Bool
  provider : Option String
  named : blank workerId = false ∧ blank quotaPoolId = false

structure QuotaGuardEvidence where
  workerId : String
  quotaPoolId : String
  provider : String
  quotaState : QuotaState
  freshness : Freshness
  provenance : UsageProvenance
  source : String
  confidence : EvidenceConfidence
  observedAt : Option Nat
  reason : Option String
deriving DecidableEq, Repr

/-- The health of a quota state and the trust in its provenance, both in hundredths. -/
def QuotaState.health : QuotaState → Nat
  | .available => 100 | .warning => 55 | .critical => 15 | .exhausted => 0 | .unknown => 25

def UsageProvenance.trust : UsageProvenance → Nat
  | .providerReported => 100 | .locallyMeasured => 95 | .inferred => 80 | .unknown => 0

/-- `health_score`, in ten-thousandths. -/
def QuotaGuardEvidence.healthScore (e : QuotaGuardEvidence) : Nat :=
  if e.quotaState = .unknown then e.quotaState.health * 100 else e.quotaState.health * e.provenance.trust

def QuotaState.rank : QuotaState → Nat
  | .available => 0 | .warning => 1 | .unknown => 2 | .critical => 3 | .exhausted => 4

/-- The state that counts for a candidate, and why it is not the one of the row. -/
def effectiveState (provider : Option String) (row : ResourceObservation) (asOf : Nat) :
    QuotaState × Option String :=
  if ∃ p ∈ provider, p ≠ row.provider then (.unknown, some "providerMismatch")
  else match row.freshness asOf with
    | .stale => (.unknown, some "staleSnapshot")
    | .unknown => (.unknown, some "freshnessUnknown")
    | .fresh =>
      if row.quotaState = .unknown then (.unknown, some "quotaStateUnknown")
      else if row.quotaStateProvenance = .unknown then (.unknown, some "provenanceUnknown")
      else if row.confidence = .unknown then (.unknown, some "confidenceUnknown")
      else (row.quotaState, none)

/-- A row counts only if it is fresh, of the candidate's provider and of known confidence. -/
def effectiveEvidence (candidate : QuotaGuardCandidate) (snapshot : Option ResourceObservation) (asOf : Nat) :
    QuotaGuardEvidence :=
  match snapshot with
  | none =>
    { workerId := candidate.workerId
      quotaPoolId := candidate.quotaPoolId
      provider := candidate.provider.getD "unknown"
      quotaState := .unknown
      freshness := .unknown
      provenance := .unknown
      source := "resourceLedger"
      confidence := .unknown
      observedAt := none
      reason := some "noSnapshot" }
  | some row =>
    { workerId := candidate.workerId
      quotaPoolId := candidate.quotaPoolId
      provider := row.provider
      quotaState := (effectiveState candidate.provider row asOf).1
      freshness := row.freshness asOf
      provenance := row.quotaStateProvenance
      source := row.source
      confidence := row.confidence
      observedAt := some row.observedAt
      reason := (effectiveState candidate.provider row asOf).2 }

/-- The evidence recorded for a candidate that is not capable. -/
def constrainedEvidence (candidate : QuotaGuardCandidate) : QuotaGuardEvidence where
  workerId := candidate.workerId
  quotaPoolId := candidate.quotaPoolId
  provider := candidate.provider.getD "unknown"
  quotaState := .unknown
  freshness := .unknown
  provenance := .unknown
  source := "hardConstraints"
  confidence := .unknown
  observedAt := none
  reason := some "capabilityRequirementsNotMet"

/-- The newest row of the candidate's pool can be used, and has the given known state. -/
def Reads (candidate : QuotaGuardCandidate) (snapshot : Option ResourceObservation) (asOf : Nat) (state : QuotaState) :
    Prop :=
  ∃ row, snapshot = some row ∧ (∀ p ∈ candidate.provider, p = row.provider) ∧ row.freshness asOf = .fresh ∧
    row.confidence ≠ .unknown ∧ row.quotaState = state

/-- A known effective state is that of a usable row. -/
theorem effectiveEvidence_state {candidate : QuotaGuardCandidate} {snapshot : Option ResourceObservation} {asOf : Nat}
    {state : QuotaState} (known : state ≠ .unknown) :
    (effectiveEvidence candidate snapshot asOf).quotaState = state ↔ Reads candidate snapshot asOf state := by
  unfold Reads
  cases snapshot with
  | none =>
    constructor
    · intro h
      exact absurd h.symm known
    · rintro ⟨row, ⟨⟩, _⟩
  | some row =>
    simp only [effectiveEvidence, effectiveState, Option.some.injEq, exists_eq_left']
    have hprovenance := row.provenanced
    by_cases hprovider : ∃ p ∈ candidate.provider, p ≠ row.provider
    · rw [if_pos hprovider]
      constructor
      · intro h
        exact absurd h.symm known
      · rintro ⟨hmatch, _⟩
        obtain ⟨p, hp, hne⟩ := hprovider
        exact absurd (hmatch p hp) hne
    · rw [if_neg hprovider]
      have hmatch : ∀ p ∈ candidate.provider, p = row.provider := by
        intro p hp
        by_contra hne
        exact hprovider ⟨p, hp, hne⟩
      cases hfresh : row.freshness asOf with
      | stale => simp [known.symm]
      | unknown => simp [known.symm]
      | fresh =>
        by_cases hstate : row.quotaState = .unknown
        · simp [hstate, known.symm]
        · have hprov : row.quotaStateProvenance ≠ .unknown := fun h => hstate (hprovenance.mpr h)
          by_cases hconf : row.confidence = .unknown
          · simp [hstate, hprov, hconf, known.symm]
          · simpa [hstate, hprov, hconf] using fun _ p hp => hmatch p hp

/-! ## The decision -/

structure QuotaGuardDecision where
  orderedWorkerIds : List String
  avoided : List (String × String)
  poolStates : List (String × String)
  evidenceByWorker : List (String × QuotaGuardEvidence)
  explanation : String

section

variable (latest : String → Option ResourceObservation) (asOf : Nat) (capable : List QuotaGuardCandidate)

def evidenceOf (candidate : QuotaGuardCandidate) : QuotaGuardEvidence :=
  effectiveEvidence candidate (latest candidate.quotaPoolId) asOf

def stateOf (candidate : QuotaGuardCandidate) : QuotaState := (evidenceOf latest asOf candidate).quotaState

/-- Why a capable candidate is kept back; the branches in the order of the loop. -/
def avoidance (candidate : QuotaGuardCandidate) : Option String :=
  let state := stateOf latest asOf candidate
  let nonExhaustedExists := capable.any fun other => decide (stateOf latest asOf other ≠ .exhausted)
  let availableExists := capable.any fun other => decide (stateOf latest asOf other = .available)
  if state = .exhausted ∧ nonExhaustedExists = true then some "quotaExhaustedAlternativeExists"
  else if state = .critical ∧ candidate.premium = true ∧ (capable.any fun other =>
      decide (other.workerId ≠ candidate.workerId) && decide (stateOf latest asOf other ≠ .critical) &&
        decide (stateOf latest asOf other ≠ .exhausted)) = true then
    some "premiumQuotaCriticalAlternativeExists"
  else if state = .warning ∧ candidate.premium = true ∧ availableExists = true then
    some "premiumQuotaWarningAlternativeExists"
  else if state = .exhausted ∧ nonExhaustedExists = false then some "allCapableQuotaPoolsExhausted"
  else none

/-- `(RANK[state], -health_score, worker_id)`. -/
def guardOrder (a b : QuotaGuardCandidate) : Bool :=
  let rank c := (stateOf latest asOf c).rank
  let health c := (evidenceOf latest asOf c).healthScore
  decide (rank a < rank b ∨ rank a = rank b ∧
    (health b < health a ∨ health a = health b ∧ a.workerId ≤ b.workerId))

end

def evaluate (latest : String → Option ResourceObservation) (candidates : List QuotaGuardCandidate) (asOf : Nat) :
    QuotaGuardDecision :=
  let capable := candidates.filter (·.capable)
  let allowed := (capable.filter fun c => (avoidance latest asOf capable c).isNone).mergeSort (guardOrder latest asOf)
  let avoided := ((candidates.filter fun c => !c.capable).map fun c => (c.workerId, "capabilityRequirementsNotMet")) ++
    capable.filterMap fun c => (avoidance latest asOf capable c).map fun reason => (c.workerId, reason)
  { orderedWorkerIds := allowed.map (·.workerId)
    avoided := avoided
    poolStates := candidates.map fun c =>
      (c.workerId, (if c.capable then stateOf latest asOf c else .unknown).value)
    evidenceByWorker := candidates.map fun c =>
      (c.workerId, if c.capable then evidenceOf latest asOf c else constrainedEvidence c)
    explanation :=
      if allowed.isEmpty then "No capable Worker has a non-exhausted quota pool"
      else if !avoided.isEmpty then "Known scarce/exhausted pools were avoided deterministically"
      else if capable.any fun c => decide (stateOf latest asOf c = .unknown) then
        "Unknown quota remained explicit and was ranked after known capacity"
      else "No quota evidence required avoiding a capable Worker" }

variable {latest : String → Option ResourceObservation}

theorem mem_orderedWorkerIds {candidates : List QuotaGuardCandidate} {asOf : Nat} {id : String} :
    id ∈ (evaluate latest candidates asOf).orderedWorkerIds ↔
      ∃ c ∈ candidates, c.capable = true ∧ avoidance latest asOf (candidates.filter (·.capable)) c = none ∧
        c.workerId = id := by
  simp only [evaluate, List.mem_map, List.mem_mergeSort, List.mem_filter, Option.isNone_iff_eq_none, and_assoc]

/-- **What keeps a capable candidate back**, by the states that are read: an exhausted pool always does, a scarce pool
only in a premium candidate with an alternative. -/
theorem avoidance_isSome {asOf : Nat} {capable : List QuotaGuardCandidate} {candidate : QuotaGuardCandidate} :
    avoidance latest asOf capable candidate ≠ none ↔
      stateOf latest asOf candidate = .exhausted ∨
      candidate.premium = true ∧
        (stateOf latest asOf candidate = .critical ∧ (∃ other ∈ capable, other.workerId ≠ candidate.workerId ∧
            stateOf latest asOf other ≠ .critical ∧ stateOf latest asOf other ≠ .exhausted) ∨
          stateOf latest asOf candidate = .warning ∧ ∃ other ∈ capable, stateOf latest asOf other = .available) := by
  unfold avoidance
  cases stateOf latest asOf candidate with
  | available => simp
  | unknown => simp
  | exhausted =>
    cases capable.any fun other => decide (stateOf latest asOf other ≠ .exhausted) <;> simp
  | critical =>
    simp only [reduceCtorEq, false_and, if_false, true_and, List.any_eq_true, Bool.and_eq_true, decide_eq_true_eq,
      and_assoc, or_false, false_or]
    split <;> rename_i h <;> simp [h]
  | warning =>
    simp only [reduceCtorEq, false_and, if_false, true_and, List.any_eq_true, decide_eq_true_eq, false_or]
    split <;> rename_i h <;> simp [h]

end AgentFabric.Resource
