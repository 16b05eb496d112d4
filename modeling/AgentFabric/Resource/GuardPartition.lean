import AgentFabric.Lib.Sorting
import AgentFabric.Resource.QuotaGuard

/-!
# The decision of the quota guard

What `PreDispatchQuotaGuard.evaluate` makes of a list of candidates with distinct workers, whatever the ledger holds.
-/

namespace AgentFabric.Resource

open AgentFabric.Lib

/-- Nothing fresh, of the candidate's provider and from a known source is known of its pool. -/
inductive Unattributed (candidate : QuotaGuardCandidate) (asOf : Nat) : Option ResourceObservation → Prop where
  | missing : Unattributed candidate asOf none
  | mismatch {row : ResourceObservation} {p : String} (hp : p ∈ candidate.provider) (hne : p ≠ row.provider) :
      Unattributed candidate asOf (some row)
  | notFresh {row : ResourceObservation} (h : row.freshness asOf ≠ .fresh) : Unattributed candidate asOf (some row)
  | provenance {row : ResourceObservation} (h : row.quotaStateProvenance = .unknown) :
      Unattributed candidate asOf (some row)
  | confidence {row : ResourceObservation} (h : row.confidence = .unknown) : Unattributed candidate asOf (some row)

/-- What a reason for keeping a worker back says of the state of another one. -/
def Promised (reason : String) (state : QuotaState) : Prop :=
  reason = "quotaExhaustedAlternativeExists" ∧ state ≠ .exhausted ∨
  reason = "premiumQuotaCriticalAlternativeExists" ∧ state ≠ .critical ∧ state ≠ .exhausted ∨
  reason = "premiumQuotaWarningAlternativeExists" ∧ state = .available

section

variable {latest : String → Option ResourceObservation} {asOf : Nat}
  {capable capable' candidates : List QuotaGuardCandidate} {candidate : QuotaGuardCandidate}

/-- The effective state is unknown exactly where the evidence is not attributed. -/
theorem effectiveEvidence_unknown {snapshot : Option ResourceObservation} :
    (effectiveEvidence candidate snapshot asOf).quotaState = .unknown ↔ Unattributed candidate asOf snapshot := by
  constructor
  · intro h
    cases snapshot with
    | none => exact .missing
    | some row =>
      by_contra hknown
      have hreads : Reads candidate (some row) asOf row.quotaState := by
        refine ⟨row, rfl, ?_, ?_, ?_, rfl⟩
        · intro p hp
          by_contra hne
          exact hknown (.mismatch hp hne)
        · by_contra hfresh
          exact hknown (.notFresh hfresh)
        · intro hconfidence
          exact hknown (.confidence hconfidence)
      have hstate : row.quotaState ≠ .unknown := fun hs => hknown (.provenance (row.provenanced.mp hs))
      rw [(effectiveEvidence_state hstate).mpr hreads] at h
      exact hstate h
  · intro h
    by_contra hstate
    obtain ⟨row, hrow, hmatch, hfresh, hconfidence, hsame⟩ := (effectiveEvidence_state hstate).mp rfl
    have hprovenance : row.quotaStateProvenance ≠ .unknown := fun hp => hstate (hsame ▸ row.provenanced.mpr hp)
    subst hrow
    cases h with
    | mismatch hp hne => exact hne (hmatch _ hp)
    | notFresh h => exact h hfresh
    | provenance h => exact hprovenance h
    | confidence h => exact hconfidence h

theorem avoidance_eq_none :
    avoidance latest asOf capable candidate = none ↔
      stateOf latest asOf candidate ≠ .exhausted ∧ (candidate.premium = true →
        (stateOf latest asOf candidate = .critical → ∀ other ∈ capable, other.workerId ≠ candidate.workerId →
          stateOf latest asOf other ≠ .critical → stateOf latest asOf other = .exhausted) ∧
        (stateOf latest asOf candidate = .warning → ∀ other ∈ capable, stateOf latest asOf other ≠ .available)) := by
  rw [← not_ne_iff, avoidance_isSome]
  push Not
  exact Iff.rfl

theorem avoidance_of_usable
    (h : stateOf latest asOf candidate = .available ∨ stateOf latest asOf candidate = .unknown) :
    avoidance latest asOf capable candidate = none := by
  refine avoidance_eq_none.mpr ?_
  rcases h with h | h <;> simp [h]

/-- **A candidate remains.**  For every capable candidate that is not exhausted there is one that is not kept back, with
a state that is as good wherever the guard asks for it. -/
theorem exists_free (hmem : candidate ∈ capable) (hstate : stateOf latest asOf candidate ≠ .exhausted) :
    ∃ other ∈ capable, avoidance latest asOf capable other = none ∧ stateOf latest asOf other ≠ .exhausted ∧
      (stateOf latest asOf candidate ≠ .critical → stateOf latest asOf other ≠ .critical) ∧
      (stateOf latest asOf candidate = .available → stateOf latest asOf other = .available) := by
  by_cases havailable : ∃ other ∈ capable, stateOf latest asOf other = .available
  · obtain ⟨other, hother, h⟩ := havailable
    exact ⟨other, hother, avoidance_of_usable (.inl h), by simp [h], by simp [h], fun _ => h⟩
  push Not at havailable
  -- without an available pool, a candidate whose pool is neither critical nor exhausted is kept
  have hfree : ∀ other ∈ capable, stateOf latest asOf other ≠ .critical → stateOf latest asOf other ≠ .exhausted →
      avoidance latest asOf capable other = none := by
    intro other _ hcritical hexhausted
    refine avoidance_eq_none.mpr ⟨hexhausted, fun _ => ⟨fun h => absurd h hcritical, fun _ => havailable⟩⟩
  have hnot : stateOf latest asOf candidate ≠ .available := havailable candidate hmem
  by_cases hbetter : ∃ other ∈ capable, stateOf latest asOf other ≠ .critical ∧ stateOf latest asOf other ≠ .exhausted
  · obtain ⟨other, hother, hcritical, hexhausted⟩ := hbetter
    exact ⟨other, hother, hfree other hother hcritical hexhausted, hexhausted, fun _ => hcritical,
      fun h => absurd h hnot⟩
  · push Not at hbetter
    refine ⟨candidate, hmem, avoidance_eq_none.mpr ⟨hstate, fun _ => ⟨?_, fun _ => havailable⟩⟩, hstate, id, id⟩
    intro _ other hother _ hcritical
    exact hbetter other hother hcritical

/-- A capable candidate is kept back for an alternative that remains, or because every pool is exhausted. -/
theorem avoidance_promise {reason : String} (h : avoidance latest asOf capable candidate = some reason) :
    (reason = "allCapableQuotaPoolsExhausted" ∧ ∀ other ∈ capable, stateOf latest asOf other = .exhausted) ∨
      ∃ other ∈ capable, avoidance latest asOf capable other = none ∧ Promised reason (stateOf latest asOf other) := by
  unfold avoidance at h
  simp only [List.any_eq_true, List.any_eq_false, Bool.and_eq_true, decide_eq_true_eq] at h
  split at h
  · rename_i hexhausted
    obtain ⟨other, hother, hstate⟩ := hexhausted.2
    obtain ⟨free, hfree, hnone, hbetter, _⟩ := exists_free hother hstate
    exact .inr ⟨free, hfree, hnone, .inl ⟨(Option.some.inj h).symm, hbetter⟩⟩
  split at h
  · rename_i hcritical
    obtain ⟨other, hother, ⟨_, hstate⟩, hstate'⟩ := hcritical.2.2
    obtain ⟨free, hfree, hnone, hbetter, hscarce, _⟩ := exists_free hother hstate'
    exact .inr ⟨free, hfree, hnone, .inr (.inl ⟨(Option.some.inj h).symm, hscarce hstate, hbetter⟩)⟩
  split at h
  · rename_i hwarning
    obtain ⟨other, hother, hstate⟩ := hwarning.2.2
    exact .inr ⟨other, hother, avoidance_of_usable (.inl hstate), .inr (.inr ⟨(Option.some.inj h).symm, hstate⟩)⟩
  split at h
  · rename_i hall
    refine .inl ⟨(Option.some.inj h).symm, ?_⟩
    intro other hother
    simpa using hall.2 other hother
  · exact nomatch h

/-! ## The order of the candidates -/

def guardKey (latest : String → Option ResourceObservation) (asOf : Nat) (c : QuotaGuardCandidate) :
    Nat ×ₗ Natᵒᵈ ×ₗ String :=
  toLex ((stateOf latest asOf c).rank, toLex (OrderDual.toDual (evidenceOf latest asOf c).healthScore, c.workerId))

theorem guardOrder_eq (a b : QuotaGuardCandidate) :
    guardOrder latest asOf a b = decide (guardKey latest asOf a ≤ guardKey latest asOf b) := by
  simp only [guardOrder, guardKey, Prod.Lex.toLex_le_toLex, OrderDual.toDual_lt_toDual, OrderDual.toDual_inj]

theorem mergeSort_guardOrder (hdistinct : (capable.map (·.workerId)).Nodup) (h : capable'.Perm capable) :
    capable'.mergeSort (guardOrder latest asOf) = capable.mergeSort (guardOrder latest asOf) := by
  refine mergeSort_eq_of_perm ?_ ?_ ?_ h
  · intro a b c hab hbc
    simp only [guardOrder_eq, decide_eq_true_eq] at *
    exact hab.trans hbc
  · intro a b
    simp only [guardOrder_eq, Bool.or_eq_true, decide_eq_true_eq]
    exact le_total _ _
  · intro a ha b hb hab hba
    simp only [guardOrder_eq, decide_eq_true_eq] at hab hba
    have hkey := le_antisymm hab hba
    simp only [guardKey, EmbeddingLike.apply_eq_iff_eq, Prod.mk.injEq] at hkey
    exact List.inj_on_of_nodup_map hdistinct ha hb hkey.2.2

theorem avoidance_perm (h : capable'.Perm capable) :
    avoidance latest asOf capable' candidate = avoidance latest asOf capable candidate := by
  unfold avoidance
  simp only [h.any_eq]

/-- The order in which the candidates are given changes neither the order of the workers that remain nor which are kept
back. -/
theorem evaluate_perm {candidates' : List QuotaGuardCandidate} (hdistinct : (candidates.map (·.workerId)).Nodup)
    (h : candidates'.Perm candidates) :
    (evaluate latest candidates' asOf).orderedWorkerIds = (evaluate latest candidates asOf).orderedWorkerIds ∧
      (evaluate latest candidates' asOf).avoided.Perm (evaluate latest candidates asOf).avoided := by
  have hcapable : (candidates'.filter (·.capable)).Perm (candidates.filter (·.capable)) := h.filter _
  have hsame : ∀ c, avoidance latest asOf (candidates'.filter (·.capable)) c =
      avoidance latest asOf (candidates.filter (·.capable)) c := fun c => avoidance_perm hcapable
  constructor
  · have hfree : ((candidates.filter (·.capable)).filter fun c =>
        (avoidance latest asOf (candidates.filter (·.capable)) c).isNone).Sublist candidates :=
      List.filter_sublist.trans List.filter_sublist
    simp only [evaluate, hsame]
    rw [mergeSort_guardOrder (hdistinct.sublist (hfree.map _)) (hcapable.filter _)]
  · simp only [evaluate, hsame]
    exact ((h.filter _).map _).append (hcapable.filterMap _)

/-! ## The decision -/

/-- The workers that remain and those that are kept back are the workers of the candidates. -/
theorem evaluate_covers :
    ((evaluate latest candidates asOf).orderedWorkerIds ++ (evaluate latest candidates asOf).avoided.map Prod.fst).Perm
      (candidates.map (·.workerId)) := by
  let capable := candidates.filter (·.capable)
  let kept := capable.filter fun c => (avoidance latest asOf capable c).isNone
  let back := capable.filter fun c => !(avoidance latest asOf capable c).isNone
  let unfit := candidates.filter fun c => !c.capable
  have hback : (capable.filterMap fun c => (avoidance latest asOf capable c).map fun reason => (c.workerId, reason)).map
      Prod.fst = back.map (·.workerId) := by
    simp only [List.map_filterMap, Option.map_map, back, ← List.filterMap_eq_map, List.filterMap_filter]
    refine List.filterMap_congr ?_
    intro c _
    cases avoidance latest asOf capable c <;> rfl
  have hkept : ((kept.mergeSort (guardOrder latest asOf)).map (·.workerId)).Perm (kept.map (·.workerId)) :=
    (List.mergeSort_perm _ _).map _
  have hcapable : (kept ++ back).Perm capable := List.filter_append_perm _ _
  have hall : (capable ++ unfit).Perm candidates := List.filter_append_perm _ _
  simp only [evaluate, List.map_append, List.map_map]
  rw [hback]
  calc (kept.mergeSort (guardOrder latest asOf)).map (·.workerId) ++
        (unfit.map (·.workerId) ++ back.map (·.workerId))
      _ |>.Perm ((kept ++ back ++ unfit).map (·.workerId)) := by
        simp only [List.map_append, List.append_assoc]
        exact hkept.append List.perm_append_comm
      _ |>.Perm (candidates.map (·.workerId)) := ((hcapable.append_right unfit).trans hall).map _

theorem orderedWorkerIds_ne_nil :
    (evaluate latest candidates asOf).orderedWorkerIds ≠ [] ↔
      ∃ c ∈ candidates, c.capable = true ∧ stateOf latest asOf c ≠ .exhausted := by
  constructor
  · intro hne
    obtain ⟨id, hid⟩ := List.exists_mem_of_ne_nil _ hne
    obtain ⟨c, hc, hcapable, hnone, _⟩ := mem_orderedWorkerIds.mp hid
    exact ⟨c, hc, hcapable, (avoidance_eq_none.mp hnone).1⟩
  · rintro ⟨c, hc, hcapable, hstate⟩
    obtain ⟨free, hmem, hnone, _⟩ := exists_free (List.mem_filter.mpr ⟨hc, hcapable⟩) hstate
    obtain ⟨hfree, hcap⟩ := List.mem_filter.mp hmem
    exact List.ne_nil_of_mem (mem_orderedWorkerIds.mpr ⟨free, hfree, hcap, hnone, rfl⟩)

/-- A worker is kept back because it cannot do the task, because all that can are exhausted, or for a worker that
remains. -/
theorem avoided_cases {id reason : String} (h : (id, reason) ∈ (evaluate latest candidates asOf).avoided) :
    (reason = "capabilityRequirementsNotMet" ∧ ∃ c ∈ candidates, c.capable = false ∧ c.workerId = id) ∨
      (reason = "allCapableQuotaPoolsExhausted" ∧ (evaluate latest candidates asOf).orderedWorkerIds = []) ∨
      ∃ other ∈ candidates, other.workerId ∈ (evaluate latest candidates asOf).orderedWorkerIds ∧
        Promised reason (stateOf latest asOf other) := by
  simp only [evaluate, List.mem_append, List.mem_map, List.mem_filterMap, Option.map_eq_some_iff, Prod.mk.injEq] at h
  rcases h with ⟨c, hc, rfl, rfl⟩ | ⟨c, hc, reason', havoid, rfl, rfl⟩
  · obtain ⟨hmem, hcapable⟩ := List.mem_filter.mp hc
    exact .inl ⟨rfl, c, hmem, by simpa using hcapable, rfl⟩
  right
  rcases avoidance_promise havoid with ⟨hreason, hall⟩ | ⟨other, hother, hnone, hpromised⟩
  · left
    refine ⟨hreason, ?_⟩
    by_contra hne
    obtain ⟨free, hfree, hcapable, hstate⟩ := orderedWorkerIds_ne_nil.mp hne
    exact hstate (hall free (List.mem_filter.mpr ⟨hfree, hcapable⟩))
  · obtain ⟨hmem, hcapable⟩ := List.mem_filter.mp hother
    exact .inr ⟨other, hmem, mem_orderedWorkerIds.mpr ⟨other, hmem, hcapable, hnone, rfl⟩, hpromised⟩

theorem evaluate_evidence (hmem : candidate ∈ candidates) :
    ∃ evidence, (candidate.workerId, evidence) ∈ (evaluate latest candidates asOf).evidenceByWorker ∧
      (candidate.workerId, evidence.quotaState.value) ∈ (evaluate latest candidates asOf).poolStates ∧
      (evidence.quotaState = .unknown ↔
        candidate.capable = false ∨ Unattributed candidate asOf (latest candidate.quotaPoolId)) := by
  refine ⟨_, List.mem_map.mpr ⟨candidate, hmem, rfl⟩, List.mem_map.mpr ⟨candidate, hmem, ?_⟩, ?_⟩
  · cases candidate.capable <;> rfl
  · cases hcapable : candidate.capable with
    | false => simp [constrainedEvidence]
    | true => simpa [evidenceOf] using effectiveEvidence_unknown

end

/-- **The decision of the quota guard.**  Whatever the ledger holds and whenever the guard is asked, candidates with
distinct workers are split into those that remain and those that are kept back; some remain exactly if a capable one is
not exhausted; whoever is kept back for an alternative has one that remains; evidence that is missing, stale, of another
provider or of unknown source reads as unknown; and the order of the candidates does not matter. -/
theorem quota_guard_decision (ledger : Ledger) (asOf : Nat) (candidates : List QuotaGuardCandidate)
    (hdistinct : (candidates.map (·.workerId)).Nodup) :
    let decision := evaluate ledger.latestByPool candidates asOf
    (decision.orderedWorkerIds ++ decision.avoided.map Prod.fst).Perm (candidates.map (·.workerId)) ∧
      (decision.orderedWorkerIds ≠ [] ↔
        ∃ c ∈ candidates, c.capable = true ∧ stateOf ledger.latestByPool asOf c ≠ .exhausted) ∧
      (∀ id reason, (id, reason) ∈ decision.avoided →
        (reason = "capabilityRequirementsNotMet" ∧ ∃ c ∈ candidates, c.capable = false ∧ c.workerId = id) ∨
        (reason = "allCapableQuotaPoolsExhausted" ∧ decision.orderedWorkerIds = []) ∨
        ∃ other ∈ candidates, other.workerId ∈ decision.orderedWorkerIds ∧
          Promised reason (stateOf ledger.latestByPool asOf other)) ∧
      (∀ c ∈ candidates, ∃ evidence, (c.workerId, evidence) ∈ decision.evidenceByWorker ∧
        (c.workerId, evidence.quotaState.value) ∈ decision.poolStates ∧
        (evidence.quotaState = .unknown ↔
          c.capable = false ∨ Unattributed c asOf (ledger.latestByPool c.quotaPoolId))) ∧
      ∀ candidates', candidates'.Perm candidates →
        (evaluate ledger.latestByPool candidates' asOf).orderedWorkerIds = decision.orderedWorkerIds ∧
          (evaluate ledger.latestByPool candidates' asOf).avoided.Perm decision.avoided := by
  refine ⟨evaluate_covers, orderedWorkerIds_ne_nil, ?_, ?_, ?_⟩
  · intro id reason h
    exact avoided_cases h
  · intro c hc
    exact evaluate_evidence hc
  · intro candidates' h
    exact evaluate_perm hdistinct h

private theorem sampleNamed : blank "openai" = false ∧ blank "p" = false ∧ blank "header" = false := by decide

private theorem sampleWorker : ∀ id ∈ (none : Option String), blank id = false := by rintro _ ⟨⟩

/-- A pool that is exhausted until the instant 9. -/
def sampleExhausted : ResourceObservation where
  provider := "openai"
  quotaPoolId := "p"
  workerId := none
  remaining := some 0
  quotaState := .exhausted
  quotaStateProvenance := .providerReported
  source := "header"
  confidence := .exact
  observedAt := 0
  freshUntil := some 9
  metadata := []
  named := sampleNamed
  worker := sampleWorker
  lasting := by
    rintro t ⟨⟩
    exact Nat.zero_le 9
  drained := fun _ => rfl
  provenanced := by decide

def sampleLedger : Ledger := ⟨Table.empty, ⟨[("r", sampleExhausted)], by decide⟩⟩

/-- A worker on the exhausted pool, and one on a pool of which nothing is known. -/
def sampleCandidates : List QuotaGuardCandidate :=
  [⟨"w1", "p", true, false, none, by decide⟩, ⟨"w2", "q", true, true, some "openai", by decide⟩]

theorem quota_guard_decision_sample :
    ("w1" : String) ≠ "w2" ∧ (evaluate sampleLedger.latestByPool sampleCandidates 5).orderedWorkerIds ≠ [] :=
  ⟨by decide, (quota_guard_decision sampleLedger 5 sampleCandidates (by decide)).2.1.mpr
    ⟨⟨"w2", "q", true, true, some "openai", by decide⟩, by simp [sampleCandidates], rfl, by decide⟩⟩

end AgentFabric.Resource
