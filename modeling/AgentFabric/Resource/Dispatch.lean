import AgentFabric.Resource.Scheduler

/-!
# Routing a task under the quota guard

The part of `dispatch_ready` that chooses workers: `_apply_quota_guard` of `runtime.py`, then the scheduler.
-/

namespace AgentFabric.Resource

open AgentFabric.Store

/-- The candidates of a dispatch: registered workers, each once. -/
structure Roster where
  workers : List WorkerSnapshot
  distinct : (workers.map (·.id)).Nodup

/-- The pool of the newest row of the worker, or the local pool of a worker without rows. -/
def Ledger.poolOf (ledger : Ledger) (w : WorkerSnapshot) : String :=
  match ledger.latestByWorker w.id with
  | some row => row.quotaPoolId
  | none => localPool w.provider.value w.id

theorem Ledger.poolOf_named (ledger : Ledger) (w : WorkerSnapshot) : blank (ledger.poolOf w) = false := by
  unfold Ledger.poolOf
  split
  · rename_i row _
    exact row.named.2.1
  · exact localPool_named _ _

def premium (w : WorkerSnapshot) : Bool := decide (w.monetaryCostScore < 1 / 2)

/-- `QuotaGuardCandidate(...)`, which refuses an empty worker identifier. -/
def quotaGuardCandidate (ledger : Ledger) (r : TaskRequirements) (w : WorkerSnapshot) :
    Except StoreError QuotaGuardCandidate :=
  if h : blank w.id = false then
    .ok
      { workerId := w.id
        quotaPoolId := ledger.poolOf w
        capable := eligible r w
        premium := premium w
        provider := some w.provider.value
        named := ⟨h, ledger.poolOf_named w⟩ }
  else .error (.valueError "worker_id and quota_pool_id must not be empty")

/-- `_apply_quota_guard`; both of its queries see one ledger. -/
def applyQuotaGuard (ledger : Ledger) (r : TaskRequirements) (workers : List WorkerSnapshot) (now : Nat) :
    Except StoreError (List WorkerSnapshot × List Rejection × QuotaGuardDecision) := do
  let candidates ← workers.mapM (quotaGuardCandidate ledger r)
  let decision := evaluate ledger.latestByPool candidates now
  let capable id := workers.any fun w => decide (w.id = id) && eligible r w
  let rejections := ((decision.avoided.mergeSort fun a b => decide (a.1 ≤ b.1)).filter fun a =>
    !decision.orderedWorkerIds.contains a.1 && capable a.1).map fun a => ⟨a.1, "QUOTA_GUARD", a.2⟩
  return (workers.filter fun w => !eligible r w || decision.orderedWorkerIds.contains w.id, rejections, decision)

section

variable (score : Score)

/-- The guard, then the scheduler. -/
def route (ledger : Ledger) (r : TaskRequirements) (topology : ExecutionTopology) (workers : List WorkerSnapshot)
    (now : Nat) : Except StoreError RoutingDecision := do
  let (candidates, rejections, decision) ← applyQuotaGuard ledger r workers now
  let evidence w := (decision.evidenceByWorker.find? fun e => decide (e.1 = w.id)).map Prod.snd
  let routed := schedule score r topology evidence candidates
  return { routed with rejected := routed.rejected ++ rejections }

end

/-! ## What keeps a worker back -/

/-- The newest row of the worker's pool is usable evidence of the state. -/
def ReadsQuota (ledger : Ledger) (now : Nat) (w : WorkerSnapshot) (state : QuotaState) : Prop :=
  ∃ row, ledger.latestByPool (ledger.poolOf w) = some row ∧ row.provider = w.provider.value ∧
    row.freshness now = .fresh ∧ row.confidence ≠ .unknown ∧ row.quotaState = state

/-- The evidence that keeps a capable worker back. -/
inductive KeptBack (ledger : Ledger) (now : Nat) (r : TaskRequirements) (workers : List WorkerSnapshot)
    (w : WorkerSnapshot) : Prop
  | exhausted (reads : ReadsQuota ledger now w .exhausted)
  | critical (scarce : premium w = true) (reads : ReadsQuota ledger now w .critical) (other : WorkerSnapshot)
      (mem : other ∈ workers) (capable : eligible r other = true) (distinct : other.id ≠ w.id)
      (notCritical : ¬ ReadsQuota ledger now other .critical) (notExhausted : ¬ ReadsQuota ledger now other .exhausted)
  | warning (scarce : premium w = true) (reads : ReadsQuota ledger now w .warning) (other : WorkerSnapshot)
      (mem : other ∈ workers) (capable : eligible r other = true) (available : ReadsQuota ledger now other .available)

theorem mem_mapM {α β ε : Type} {f : α → Except ε β} {l : List α} {l' : List β} (h : l.mapM f = .ok l') {b : β} :
    b ∈ l' ↔ ∃ a ∈ l, f a = .ok b := by
  induction l generalizing l' with
  | nil =>
    obtain rfl := pure_eq_ok.mp h
    simp
  | cons a l ih =>
    rw [List.mapM_cons] at h
    obtain ⟨x, hx, h⟩ := bind_eq_ok.mp h
    obtain ⟨xs, hxs, h⟩ := bind_eq_ok.mp h
    obtain rfl := pure_eq_ok.mp h
    have hhead : b = x ↔ f a = .ok b := by
      rw [hx, Except.ok.injEq, eq_comm]
    simp only [List.mem_cons, ih hxs, hhead, exists_eq_or_imp]

theorem mapM_ok {α β ε : Type} {f : α → Except ε β} {l : List α} :
    (∃ l', l.mapM f = .ok l') ↔ ∀ a ∈ l, ∃ b, f a = .ok b := by
  induction l with
  | nil => simp
  | cons a l ih =>
    rw [List.mapM_cons, List.forall_mem_cons, ← ih]
    constructor
    · rintro ⟨l', h⟩
      obtain ⟨x, hx, h⟩ := bind_eq_ok.mp h
      obtain ⟨xs, hxs, _⟩ := bind_eq_ok.mp h
      exact ⟨⟨x, hx⟩, xs, hxs⟩
    · rintro ⟨⟨x, hx⟩, xs, hxs⟩
      exact ⟨x :: xs, bind_eq_ok.mpr ⟨x, hx, bind_eq_ok.mpr ⟨xs, hxs, rfl⟩⟩⟩

section

variable {ledger : Ledger} {r : TaskRequirements} {now : Nat} {w : WorkerSnapshot} {c : QuotaGuardCandidate}

theorem quotaGuardCandidate_ok (h : quotaGuardCandidate ledger r w = .ok c) :
    c.workerId = w.id ∧ c.quotaPoolId = ledger.poolOf w ∧ c.capable = eligible r w ∧ c.premium = premium w ∧
      c.provider = some w.provider.value := by
  unfold quotaGuardCandidate at h
  split at h
  · obtain rfl := Except.ok.inj h
    exact ⟨rfl, rfl, rfl, rfl, rfl⟩
  · exact nomatch h

theorem quotaGuardCandidate_named : (∃ c, quotaGuardCandidate ledger r w = .ok c) ↔ blank w.id = false := by
  unfold quotaGuardCandidate
  by_cases h : blank w.id = false
  · rw [dif_pos h]
    exact ⟨fun _ => h, fun _ => ⟨_, rfl⟩⟩
  · rw [dif_neg h]
    exact ⟨fun ⟨_, hc⟩ => (nomatch hc), fun hn => absurd hn h⟩

theorem stateOf_reads (h : quotaGuardCandidate ledger r w = .ok c) {state : QuotaState} (known : state ≠ .unknown) :
    stateOf ledger.latestByPool now c = state ↔ ReadsQuota ledger now w state := by
  obtain ⟨_, hpool, _, _, hprovider⟩ := quotaGuardCandidate_ok h
  rw [stateOf, evidenceOf, effectiveEvidence_state known, Reads, ReadsQuota, hpool, hprovider]
  simp only [Option.mem_some_iff, forall_eq, eq_comm]

/-- The guard keeps a capable worker back exactly on the evidence of the ledger. -/
theorem avoidance_keptBack {workers : List WorkerSnapshot} {candidates : List QuotaGuardCandidate}
    (hcs : workers.mapM (quotaGuardCandidate ledger r) = .ok candidates)
    (hc : quotaGuardCandidate ledger r w = .ok c) :
    avoidance ledger.latestByPool now (candidates.filter (·.capable)) c ≠ none ↔
      KeptBack ledger now r workers w := by
  obtain ⟨hid, _, _, hpremium, _⟩ := quotaGuardCandidate_ok hc
  rw [avoidance_isSome, hpremium, stateOf_reads hc (by decide), stateOf_reads hc (by decide),
    stateOf_reads hc (by decide)]
  constructor
  · rintro (hex | ⟨hpre, ⟨hcrit, other, hother, hne, hn1, hn2⟩ | ⟨hwarn, other, hother, hav⟩⟩)
    · exact .exhausted hex
    · obtain ⟨hmem, hcap⟩ := List.mem_filter.mp hother
      obtain ⟨v, hv, hov⟩ := (mem_mapM hcs).mp hmem
      obtain ⟨hvid, _, hvcap, _, _⟩ := quotaGuardCandidate_ok hov
      rw [Ne, stateOf_reads hov (by decide)] at hn1 hn2
      rw [hvid, hid] at hne
      exact .critical hpre hcrit v hv (hvcap ▸ hcap) hne hn1 hn2
    · obtain ⟨hmem, hcap⟩ := List.mem_filter.mp hother
      obtain ⟨v, hv, hov⟩ := (mem_mapM hcs).mp hmem
      obtain ⟨_, _, hvcap, _, _⟩ := quotaGuardCandidate_ok hov
      exact .warning hpre hwarn v hv (hvcap ▸ hcap) ((stateOf_reads hov (by decide)).mp hav)
  · -- every worker of the list has its candidate
    have hcandidate : ∀ v ∈ workers, eligible r v = true → ∃ d ∈ candidates.filter (·.capable),
        quotaGuardCandidate ledger r v = .ok d := by
      intro v hv hcap
      obtain ⟨d, hd⟩ := mapM_ok.mp ⟨candidates, hcs⟩ v hv
      obtain ⟨_, _, hdcap, _, _⟩ := quotaGuardCandidate_ok hd
      exact ⟨d, List.mem_filter.mpr ⟨(mem_mapM hcs).mpr ⟨v, hv, hd⟩, hdcap ▸ hcap⟩, hd⟩
    intro h
    cases h with
    | exhausted hex => exact Or.inl hex
    | critical hpre hcrit other hmem hcap hne =>
      obtain ⟨d, hd, hdc⟩ := hcandidate other hmem hcap
      refine Or.inr ⟨hpre, Or.inl ⟨hcrit, d, hd, ?_, ?_, ?_⟩⟩
      · rw [(quotaGuardCandidate_ok hdc).1, hid]
        exact hne
      · rwa [Ne, stateOf_reads hdc (by decide)]
      · rwa [Ne, stateOf_reads hdc (by decide)]
    | warning hpre hwarn other hmem hcap hav =>
      obtain ⟨d, hd, hdc⟩ := hcandidate other hmem hcap
      exact Or.inr ⟨hpre, Or.inr ⟨hwarn, d, hd, (stateOf_reads hdc (by decide)).mpr hav⟩⟩

/-- **What the guard leaves**: it fails on an empty identifier; else a worker remains if it is not capable, which the
scheduler rejects again, or if nothing keeps it back. -/
theorem applyQuotaGuard_ok {roster : Roster} {kept : List WorkerSnapshot} {rejections : List Rejection}
    {decision : QuotaGuardDecision}
    (h : applyQuotaGuard ledger r roster.workers now = .ok (kept, rejections, decision)) (hw : w ∈ roster.workers)
    (he : eligible r w = true) : w ∈ kept ↔ ¬ KeptBack ledger now r roster.workers w := by
  unfold applyQuotaGuard at h
  obtain ⟨candidates, hcs, h⟩ := bind_eq_ok.mp h
  obtain ⟨rfl, _, rfl⟩ := Prod.mk.inj (pure_eq_ok.mp h) |>.imp id Prod.mk.inj
  obtain ⟨c, hc⟩ := mapM_ok.mp ⟨candidates, hcs⟩ w hw
  obtain ⟨hid, _, hcap, _, _⟩ := quotaGuardCandidate_ok hc
  rw [← avoidance_keptBack hcs hc, not_not, List.mem_filter, he, Bool.not_true, Bool.false_or, List.contains_iff_mem,
    mem_orderedWorkerIds]
  constructor
  · rintro ⟨_, d, hd, hdcap, hnone, hdid⟩
    -- identifiers are unique, so the candidate is that of the worker
    obtain ⟨v, hv, hvd⟩ := (mem_mapM hcs).mp hd
    have hvw : v = w := by
      apply List.inj_on_of_nodup_map roster.distinct hv hw
      rw [← (quotaGuardCandidate_ok hvd).1, hdid]
    rw [hvw, hc] at hvd
    obtain rfl := Except.ok.inj hvd
    exact hnone
  · intro hnone
    exact ⟨hw, c, (mem_mapM hcs).mpr ⟨w, hw, hc⟩, hcap.trans he, hnone, hid⟩

end

theorem applyQuotaGuard_named {ledger : Ledger} {r : TaskRequirements} {now : Nat} {workers : List WorkerSnapshot} :
    (∃ result, applyQuotaGuard ledger r workers now = .ok result) ↔ ∀ w ∈ workers, blank w.id = false := by
  simp only [applyQuotaGuard, bind_eq_ok, pure_eq_ok]
  rw [exists_comm]
  simp only [exists_and_left, exists_eq', and_true]
  rw [mapM_ok]
  simp only [quotaGuardCandidate_named]

theorem applyQuotaGuard_withPanel {ledger : Ledger} {r : TaskRequirements} {n : Nat} (h : 0 < n)
    {workers : List WorkerSnapshot} {now : Nat} :
    applyQuotaGuard ledger (r.withPanel n h) workers now = applyQuotaGuard ledger r workers now := rfl

section

variable {score : Score} {ledger : Ledger}
  {r : TaskRequirements} {now : Nat} {roster : Roster} {w : WorkerSnapshot}

/-- **A selected worker is capable and not kept back.** -/
theorem route_sound {topology : ExecutionTopology} {d : RoutingDecision}
    (h : route score ledger r topology roster.workers now = .ok d) (hw : w ∈ roster.workers)
    (hid : w.id ∈ d.selectedWorkerIds) : eligible r w = true ∧ ¬ KeptBack ledger now r roster.workers w := by
  unfold route at h
  obtain ⟨⟨kept, rejections, decision⟩, hguard, h⟩ := bind_eq_ok.mp h
  obtain rfl := pure_eq_ok.mp h
  obtain ⟨v, hv, hve, hvid⟩ := schedule_eligible hid
  have hmem : v ∈ roster.workers := by
    unfold applyQuotaGuard at hguard
    obtain ⟨candidates, _, hguard⟩ := bind_eq_ok.mp hguard
    obtain ⟨rfl, _⟩ := Prod.mk.inj (pure_eq_ok.mp hguard)
    exact (List.mem_filter.mp hv).1
  obtain rfl : v = w := List.inj_on_of_nodup_map roster.distinct hmem hw hvid
  exact ⟨hve, (applyQuotaGuard_ok hguard hw hve).mp hv⟩

/-- **A capable worker that is not kept back can be selected**, by a panel of all that remain. -/
theorem route_selects (named : ∀ v ∈ roster.workers, blank v.id = false) (hw : w ∈ roster.workers)
    (he : eligible r w = true) (hkept : ¬ KeptBack ledger now r roster.workers w) :
    ∃ n, ∃ hn : 0 < n, ∃ d, route score ledger (r.withPanel n hn) .parallelPanel roster.workers now = .ok d ∧
      w.id ∈ d.selectedWorkerIds := by
  obtain ⟨⟨kept, rejections, decision⟩, hguard⟩ := applyQuotaGuard_named.mpr named
  have hmem : w ∈ kept := (applyQuotaGuard_ok hguard hw he).mpr hkept
  let remaining := kept.filter (eligible r)
  have hpos : 0 < remaining.length := List.length_pos_of_mem (List.mem_filter.mpr ⟨hmem, he⟩)
  have hselected : ∀ evidence, w.id ∈
      (schedule score (r.withPanel remaining.length hpos) .parallelPanel evidence kept).selectedWorkerIds := by
    intro evidence
    have hcapable : eligible (r.withPanel remaining.length hpos) w = true := (eligible_withPanel r _ hpos w).trans he
    have hperm := (List.mergeSort_perm kept fun a b => decide (a.id ≤ b.id)).filter (eligible r)
    apply schedule_panel hmem hcapable
    simp only [rank, List.length_mergeSort]
    exact hperm.length_eq.symm
  rw [← applyQuotaGuard_withPanel hpos] at hguard
  exact ⟨remaining.length, hpos, _, bind_eq_ok.mpr ⟨(kept, rejections, decision), hguard, rfl⟩, hselected _⟩

end

end AgentFabric.Resource
