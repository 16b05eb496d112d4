import AgentFabric.Resource.Dispatch

/-!
# Known exhaustion at dispatch

Whether a dispatch keeps its hands off a worker whose quota pool is known to be exhausted.
-/

namespace AgentFabric.Resource

open AgentFabric.Lib AgentFabric.Store

/-- The provider said so, or it was inferred from what the provider said. -/
def ResourceObservation.reported (o : ResourceObservation) : Prop :=
  o.quotaStateProvenance = .providerReported ∨ o.quotaStateProvenance = .inferred

/-- The worker draws from its local pool and from every pool that a row of it names. -/
def Draws (ledger : Ledger) (w : WorkerSnapshot) (pool : String) : Prop :=
  pool = localPool w.provider.value w.id ∨
    ∃ row ∈ ledger.snapshots.rows, row.2.workerId = some w.id ∧ row.2.quotaPoolId = pool

/-- The latest reported observation of the pool is fresh and says that it is exhausted, and nothing known is later. -/
def KnownExhausted (ledger : Ledger) (now : Nat) (pool : String) : Prop :=
  ∃ row ∈ ledger.snapshots.rows, row.2.quotaPoolId = pool ∧ row.2.reported ∧ row.2.quotaState = .exhausted ∧
    row.2.freshness now = .fresh ∧
    ∀ other ∈ ledger.snapshots.rows, other.2.quotaPoolId = pool → other.2.quotaState ≠ .unknown → age other ≤ age row

/-- No topology and no panel selects a worker that draws from a pool known to be exhausted. -/
def Honours (score : Score) (ledger : Ledger) (now : Nat) (r : TaskRequirements) (roster : Roster) : Prop :=
  ∀ w ∈ roster.workers, ∀ pool, Draws ledger w pool → KnownExhausted ledger now pool →
    ∀ (topology : ExecutionTopology) (n : Nat) (hn : 0 < n) (d : RoutingDecision),
      route score ledger (r.withPanel n hn) topology roster.workers now = .ok d → w.id ∉ d.selectedWorkerIds

variable {score : Score} {ledger : Ledger} {now : Nat}
  {r : TaskRequirements} {roster : Roster}

variable {w : WorkerSnapshot}

theorem KeptBack.withPanel {n : Nat} {hn : 0 < n} {workers : List WorkerSnapshot}
    (h : KeptBack ledger now r workers w) : KeptBack ledger now (r.withPanel n hn) workers w := by
  cases h with
  | exhausted h => exact .exhausted h
  | critical hp hr other hm hc hd h1 h2 => exact .critical hp hr other hm hc hd h1 h2
  | warning hp hr other hm hc ha => exact .warning hp hr other hm hc ha

/-- **Known exhaustion is honoured** exactly when the guard refuses the dispatch for an empty worker identifier, or
every capable worker that draws from a pool known to be exhausted is kept back on the pool of its newest row. -/
theorem exhaustion_honoured_iff (score : Score) (ledger : Ledger) (now : Nat) (r : TaskRequirements) (roster : Roster) :
    Honours score ledger now r roster ↔
      (∃ w ∈ roster.workers, blank w.id = true) ∨
        ∀ w ∈ roster.workers, eligible r w = true → ∀ pool, Draws ledger w pool → KnownExhausted ledger now pool →
          KeptBack ledger now r roster.workers w := by
  constructor
  · intro h
    by_cases hnamed : ∀ w ∈ roster.workers, blank w.id = false
    · right
      intro w hw he pool hdraws hexhausted
      by_contra hkept
      obtain ⟨n, hn, d, hroute, hselected⟩ : ∃ n, ∃ hn : 0 < n, ∃ d,
          route score ledger (r.withPanel n hn) .parallelPanel roster.workers now = .ok d ∧
            w.id ∈ d.selectedWorkerIds := route_selects hnamed hw he hkept
      exact h w hw pool hdraws hexhausted .parallelPanel n hn d hroute hselected
    · left
      push Not at hnamed
      obtain ⟨w, hw, hblank⟩ := hnamed
      exact ⟨w, hw, by simpa using hblank⟩
  · rintro (⟨v, hv, hblank⟩ | hkept) w hw pool hdraws hexhausted topology n hn d hroute hselected
    · obtain ⟨guarded, hguard, _⟩ := bind_eq_ok.mp hroute
      have hnamed := applyQuotaGuard_named.mp ⟨guarded, hguard⟩ v hv
      rw [hblank] at hnamed
      exact Bool.noConfusion hnamed
    · obtain ⟨he, hfree⟩ := route_sound hroute hw hselected
      exact hfree (hkept w hw he pool hdraws hexhausted).withPanel

/-! ## The bookkeeping of a finished run -/

theorem ReadsQuota.row {state : QuotaState} (h : ReadsQuota ledger now w state)
    {row : ResourceObservation} (hrow : ledger.latestByPool (ledger.poolOf w) = some row) : row.quotaState = state := by
  obtain ⟨row', hrow', _, _, _, hstate⟩ := h
  rw [hrow] at hrow'
  obtain rfl := Option.some.inj hrow'
  exact hstate

theorem not_keptBack_of_unknown {row : ResourceObservation}
    (hrow : ledger.latestByPool (ledger.poolOf w) = some row) (hunknown : row.quotaState = .unknown) :
    ¬ KeptBack ledger now r roster.workers w := by
  intro h
  cases h with
  | exhausted h => cases hunknown.symm.trans (h.row hrow)
  | critical _ h => cases hunknown.symm.trans (h.row hrow)
  | warning _ h => cases hunknown.symm.trans (h.row hrow)

/-- The row that an audit adds for one run of the worker. -/
def bookkeeping (id : String) (run : InvocationTelemetry) (observedAt : Nat) : String × ResourceObservation :=
  (id, (observationFromInvocation run observedAt).stored)

theorem KnownExhausted.append {pool id : String} {run : InvocationTelemetry} {observedAt : Nat} {ledger' : Ledger}
    (h : KnownExhausted ledger now pool)
    (hrows : ledger'.snapshots.rows = ledger.snapshots.rows ++ [bookkeeping id run observedAt]) :
    KnownExhausted ledger' now pool := by
  obtain ⟨row, hrow, hpool, hreported, hstate, hfresh, hlast⟩ := h
  refine ⟨row, hrows ▸ List.mem_append_left _ hrow, hpool, hreported, hstate, hfresh, ?_⟩
  intro other hother hopool hknown
  rw [hrows] at hother
  rcases List.mem_append.mp hother with hold | hnew
  · exact hlast other hold hopool hknown
  · obtain rfl := List.mem_singleton.mp hnew
    exact absurd rfl hknown

theorem newest_filter_append {rows : List (String × ResourceObservation)} {row : String × ResourceObservation}
    (hnewer : ∀ old ∈ rows, age old < age row) {p : String × ResourceObservation → Bool} (hp : p row = true) :
    newest ((rows ++ [row]).filter p) = some row.2 := by
  have hmem : (row.1, row.2) ∈ (rows ++ [row]).filter p :=
    List.mem_filter.mpr ⟨List.mem_append_right _ List.mem_cons_self, hp⟩
  apply newest_eq hmem
  intro other hother hne
  rcases List.mem_append.mp (List.mem_filter.mp hother).1 with hold | hnew
  · exact hnewer other hold
  · exact absurd (List.mem_singleton.mp hnew) hne

/-- **One audit forgets an exhausted pool.** A capable worker draws from a pool known to be exhausted; once the local
bookkeeping of one of its runs is the newest row of the ledger, a dispatch can select the worker. -/
theorem audit_forgets {pool id : String} {run : InvocationTelemetry} {observedAt : Nat}
    {ledger' : Ledger} (named : ∀ v ∈ roster.workers, blank v.id = false) (hw : w ∈ roster.workers)
    (he : eligible r w = true) (hdraws : Draws ledger w pool) (hexhausted : KnownExhausted ledger now pool)
    (hworker : run.workerId = w.id)
    (hrows : ledger'.snapshots.rows = ledger.snapshots.rows ++ [bookkeeping id run observedAt])
    (hnewer : ∀ old ∈ ledger.snapshots.rows, age old < age (bookkeeping id run observedAt)) :
    ¬ Honours score ledger' now r roster := by
  have hlatest : ledger'.latestByWorker w.id = some (bookkeeping id run observedAt).2 := by
    rw [Ledger.latestByWorker, hrows]
    exact newest_filter_append hnewer
      (by simp [bookkeeping, observationFromInvocation, ResourceObservation.stored, hworker])
  have hpool : ledger'.poolOf w = localPool run.provider run.workerId := by
    rw [Ledger.poolOf, hlatest]
    rfl
  have hrow : ledger'.latestByPool (ledger'.poolOf w) = some (bookkeeping id run observedAt).2 := by
    rw [hpool, Ledger.latestByPool, hrows]
    exact newest_filter_append hnewer (by simp [bookkeeping, observationFromInvocation, ResourceObservation.stored])
  have hdraws' : Draws ledger' w pool := by
    rcases hdraws with hlocal | ⟨row, hmem, hname⟩
    · exact Or.inl hlocal
    · exact Or.inr ⟨row, hrows ▸ List.mem_append_left _ hmem, hname⟩
  rw [exhaustion_honoured_iff]
  rintro (⟨v, hv, hblank⟩ | hkept)
  · rw [named v hv] at hblank
    exact Bool.noConfusion hblank
  · exact not_keptBack_of_unknown hrow rfl (hkept w hw he pool hdraws' (hexhausted.append hrows))

/-! ## A worker that is selected in spite of its provider -/

/-- An idle worker of a paid provider. -/
def paidWorker : WorkerSnapshot where
  id := "paid"
  provider := .openai
  contextWindowTokens := none
  state := .idle
  nodeState := .online
  resourceState := .available
  capabilities := []
  codeWriteAllowed := false
  privacyAllowed := false
  qualityScore := 1
  reliabilityScore := 1
  expectedLatencySeconds := 0
  monetaryCostScore := 1

def plainRequirements : TaskRequirements := { panelled := Nat.two_pos }

/-- The provider reports that nothing remains for the next hour. -/
def exhaustedReport : ResourceObservation where
  provider := "openai"
  quotaPoolId := "plan"
  workerId := some "paid"
  remaining := some 0
  quotaState := .exhausted
  quotaStateProvenance := .providerReported
  source := "providerStatus"
  confidence := .providerReported
  observedAt := 0
  freshUntil := some 3600000000
  metadata := []
  named := by decide
  worker := by
    rintro id ⟨⟩
    decide
  lasting := by
    rintro t ⟨⟩
    exact Nat.zero_le _
  drained := exhausted_drained
  provenanced := exhausted_provenanced

def finishedRun : InvocationTelemetry where
  runId := "run"
  workerId := "paid"
  provider := "openai"
  outcome := "completed"
  named := by decide

/-- The ledger that knows the exhausted plan, and the ledger after one finished run. -/
def reportedLedger : Ledger := ⟨.empty, ⟨[("snapshot-1", exhaustedReport)], by decide⟩⟩

def auditedLedger : Ledger :=
  ⟨.empty, ⟨[("snapshot-1", exhaustedReport), bookkeeping "snapshot-2" finishedRun 60000000], by decide⟩⟩

/-- One minute after the report and one audit later, the worker of the exhausted plan is selected. -/
theorem exhausted_plan_selected :
    ¬ Honours (fun _ _ _ => 0) auditedLedger 120000000 plainRequirements ⟨[paidWorker], by decide⟩ := by
  have hnewer : ∀ old ∈ reportedLedger.snapshots.rows,
    age old < age (bookkeeping "snapshot-2" finishedRun 60000000) := by
    intro old hold
    obtain rfl := List.mem_singleton.mp hold
    exact Prod.Lex.left _ _ (by decide)
  have hexhausted : KnownExhausted reportedLedger 120000000 "plan" := by
    refine ⟨("snapshot-1", exhaustedReport), List.mem_cons_self, rfl, Or.inl rfl, rfl, by decide, ?_⟩
    intro other hother _ _
    rw [List.mem_singleton.mp hother]
  refine audit_forgets ?_ List.mem_cons_self (by decide) ?_ hexhausted rfl rfl hnewer
  · intro v hv
    rw [List.mem_singleton.mp hv]
    decide
  · exact Or.inr ⟨("snapshot-1", exhaustedReport), List.mem_cons_self, rfl, rfl⟩

end AgentFabric.Resource
