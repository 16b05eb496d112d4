import AgentFabric.Lib.Sorting
import AgentFabric.Resource.Scheduler

/-!
# The routing decision

The decision of `DeterministicScheduler.schedule` with its candidates and its explanation.  The score is the one of the
source in exact arithmetic.
-/

namespace AgentFabric.Resource

open AgentFabric.Lib AgentFabric.Store

/-! ## Scores -/

structure SchedulerWeights where
  capabilityFit : ℚ := 3
  expectedQuality : ℚ := 2
  availability : ℚ := 2
  quotaHealth : ℚ := 3 / 2
  monetaryCost : ℚ := 1
  latency : ℚ := 1
  historicalReliability : ℚ := 3 / 2
  nodeLoad : ℚ := 1
  privacy : ℚ := 2
  contextFit : ℚ := 3 / 2
deriving DecidableEq

structure SchedulerConfig where
  policyVersion : String := "v0.4-resource-aware"
  weights : SchedulerWeights := {}

/-- `ResourceRoutingEvidence`. -/
structure RoutingEvidence where
  workerId : String
  quotaPoolId : String
  provider : String
  quotaState : QuotaState
  freshness : Freshness
  provenance : UsageProvenance
  source : String
  confidence : String
  healthScore : ℚ
  observedAt : Option Nat
  reason : Option String
  named : ∀ text ∈ [workerId, quotaPoolId, provider, source, confidence], blank text = false
  health : 0 ≤ healthScore ∧ healthScore ≤ 1
  explained : quotaState = .unknown → reason.getD "" ≠ ""

structure ScoreComponents where
  capabilityFit : ℚ
  expectedQuality : ℚ
  availability : ℚ
  quotaHealth : ℚ
  monetaryCost : ℚ
  latency : ℚ
  historicalReliability : ℚ
  nodeLoad : ℚ
  privacy : ℚ
  contextFit : ℚ
deriving DecidableEq

structure CandidateScore where
  workerId : String
  score : ℚ
  components : ScoreComponents
deriving DecidableEq

def clamp (value : ℚ) : ℚ := min 1 (max 0 value)

/-- `round(value, 9)`: half to even. -/
def roundNine (value : ℚ) : ℚ :=
  let scaled := value * 10 ^ 9
  let below : ℤ := Rat.floor scaled
  let rest := scaled - (below : ℚ)
  (if rest < 1 / 2 ∨ (rest = 1 / 2 ∧ below % 2 = 0) then below else below + 1 : ℤ) / 10 ^ 9

/-- The share of the required capabilities, which form a set, that the worker has. -/
def capabilityFit (r : TaskRequirements) (w : WorkerSnapshot) : ℚ :=
  let required := r.requiredCapabilities.dedup
  if required.isEmpty then 1 else (required.filter w.capabilities.contains).length / required.length

def contextFit (r : TaskRequirements) (w : WorkerSnapshot) : ℚ :=
  let minimum := r.minimumContextTokens.getD 0
  if minimum = 0 then 1 else min 1 (w.contextWindowTokens.getD 0 / minimum)

def quotaHealth (w : WorkerSnapshot) : Option RoutingEvidence → ℚ
  | some evidence => evidence.healthScore
  | none =>
    match w.resourceState with
    | .available => 1
    | .warning => 1 / 2
    | .unknown => 1 / 4
    | _ => 0

def scoreComponents (r : TaskRequirements) (w : WorkerSnapshot) (evidence : Option RoutingEvidence) :
    ScoreComponents where
  capabilityFit := capabilityFit r w
  expectedQuality := clamp w.qualityScore
  availability := if w.state = .idle then 1 else 0
  quotaHealth := quotaHealth w evidence
  monetaryCost := clamp w.monetaryCostScore
  latency := 1 / (1 + max w.expectedLatencySeconds 0 / 60)
  historicalReliability := clamp w.reliabilityScore
  nodeLoad := 1 - clamp w.nodeLoad
  privacy := if !r.privacySensitive || w.privacyAllowed then 1 else 0
  contextFit := contextFit r w

def SchedulerWeights.total (k : SchedulerWeights) : ℚ :=
  k.capabilityFit + k.expectedQuality + k.availability + k.quotaHealth + k.monetaryCost + k.latency +
    k.historicalReliability + k.nodeLoad + k.privacy + k.contextFit

def SchedulerWeights.weigh (k : SchedulerWeights) (c : ScoreComponents) : ℚ :=
  c.capabilityFit * k.capabilityFit + c.expectedQuality * k.expectedQuality + c.availability * k.availability +
    c.quotaHealth * k.quotaHealth + c.monetaryCost * k.monetaryCost + c.latency * k.latency +
    c.historicalReliability * k.historicalReliability + c.nodeLoad * k.nodeLoad + c.privacy * k.privacy +
    c.contextFit * k.contextFit

/-- `_score`; weights that add up to zero are refused by the caller. -/
def candidateScore (k : SchedulerWeights) (r : TaskRequirements) (w : WorkerSnapshot)
    (evidence : Option RoutingEvidence) : CandidateScore :=
  let components := scoreComponents r w evidence
  ⟨w.id, roundNine (k.weigh components / k.total), components⟩

/-! ## The decision -/

inductive ScheduleError where
  | valueError (message : String)
  | zeroDivision
deriving DecidableEq, Repr

structure Explanation where
  taskId : String
  topology : ExecutionTopology
  policyVersion : String
  weights : SchedulerWeights
  selected : List String
  rejected : List Rejection
  resourceEvidence : List RoutingEvidence
  tieBreak : String

/-- The decision as it is returned and persisted. -/
structure ScheduleDecision where
  topology : ExecutionTopology
  selectedWorkerIds : List String
  candidates : List CandidateScore
  rejected : List Rejection
  policyVersion : String
  explanation : Explanation

/-- `_resource_evidence`, then `evidence_by_worker.get`. -/
def evidenceFor (evidence : List RoutingEvidence) (workerId : String) : Option RoutingEvidence :=
  evidence.find? fun e => decide (e.workerId = workerId)

/-- The workers without a rejection, in the order of their identifiers. -/
def eligibleWorkers (r : TaskRequirements) (workers : List WorkerSnapshot) : List WorkerSnapshot :=
  (workers.mergeSort fun a b => decide (a.id ≤ b.id)).filter (eligible r)

/-- `(-score, worker_id)`. -/
def candidateLe (a b : CandidateScore) : Bool :=
  decide (-a.score < -b.score) || (decide (-a.score = -b.score) && decide (a.workerId ≤ b.workerId))

/-- The score as `schedule` looks it up. -/
def scoreBy (k : SchedulerWeights) (evidence : List RoutingEvidence) (r : TaskRequirements) (w : WorkerSnapshot)
    (_ : Option QuotaGuardEvidence) : ℚ :=
  (candidateScore k r w (evidenceFor evidence w.id)).score

structure DeterministicScheduler where
  config : SchedulerConfig := {}

def DeterministicScheduler.schedule (s : DeterministicScheduler) (taskId : String) (r : TaskRequirements)
    (topology : ExecutionTopology) (workers : List WorkerSnapshot) (evidence : List RoutingEvidence) :
    Except ScheduleError ScheduleDecision :=
  let k := s.config.weights
  if ¬ (evidence.map (·.workerId)).Nodup then
    .error (.valueError "resource routing evidence must be unique by Worker")
  else if eligibleWorkers r workers ≠ [] ∧ k.total = 0 then .error .zeroDivision
  else
    let scores := (eligibleWorkers r workers).map fun w => candidateScore k r w (evidenceFor evidence w.id)
    let routed := Resource.schedule (scoreBy k evidence) r topology (fun _ => none) workers
    .ok {
      topology := topology
      selectedWorkerIds := routed.selectedWorkerIds
      candidates := scores.mergeSort candidateLe
      rejected := routed.rejected
      policyVersion := s.config.policyVersion
      explanation := {
        taskId := taskId
        topology := topology
        policyVersion := s.config.policyVersion
        weights := k
        selected := routed.selectedWorkerIds
        rejected := routed.rejected
        resourceEvidence := evidence.mergeSort fun a b => decide (a.workerId ≤ b.workerId)
        tieBreak := "workerID ascending after score" } }

/-! ## The order of the inputs -/

section

variable {k : SchedulerWeights} {r : TaskRequirements} {workers workers' : List WorkerSnapshot}
  {evidence evidence' : List RoutingEvidence}

theorem eq_of_id (hids : (workers.map (·.id)).Nodup) {a b : WorkerSnapshot} (ha : a ∈ workers) (hb : b ∈ workers)
    (h : a.id = b.id) : a = b :=
  List.inj_on_of_nodup_map hids ha hb h

theorem evidenceFor_eq_some (hunique : (evidence.map (·.workerId)).Nodup) {id : String} {e : RoutingEvidence} :
    evidenceFor evidence id = some e ↔ e ∈ evidence ∧ e.workerId = id := by
  constructor
  · intro h
    exact ⟨List.mem_of_find?_eq_some h, by simpa using List.find?_some h⟩
  · rintro ⟨hmem, rfl⟩
    cases h : evidenceFor evidence e.workerId with
    | none => exact absurd (List.find?_eq_none.mp h e hmem) (by simp)
    | some e' =>
      have hid : e'.workerId = e.workerId := by simpa using List.find?_some h
      rw [List.inj_on_of_nodup_map hunique (List.mem_of_find?_eq_some h) hmem hid]

theorem evidenceFor_perm (hunique : (evidence.map (·.workerId)).Nodup) (h : evidence'.Perm evidence) :
    evidenceFor evidence' = evidenceFor evidence := by
  have hunique' : (evidence'.map (·.workerId)).Nodup := (h.map _).nodup_iff.mpr hunique
  funext id
  refine Option.ext fun e => ?_
  rw [evidenceFor_eq_some hunique', evidenceFor_eq_some hunique, h.mem_iff]

theorem string_le_trans (a b c : String) (h : decide (a ≤ b) = true) (h' : decide (b ≤ c) = true) :
    decide (a ≤ c) = true := by
  rw [decide_eq_true_eq] at *
  exact le_trans h h'

theorem string_le_total (a b : String) : (decide (a ≤ b) || decide (b ≤ a)) = true := by
  rw [Bool.or_eq_true, decide_eq_true_eq, decide_eq_true_eq]
  exact le_total a b

theorem sortById_perm (hids : (workers.map (·.id)).Nodup) (h : workers'.Perm workers) :
    (workers'.mergeSort fun a b => decide (a.id ≤ b.id)) = workers.mergeSort fun a b => decide (a.id ≤ b.id) := by
  refine mergeSort_eq_of_perm (fun a b c => string_le_trans a.id b.id c.id) (fun a b => string_le_total a.id b.id) ?_ h
  intro a ha b hb hab hba
  exact eq_of_id hids ha hb (le_antisymm (of_decide_eq_true hab) (of_decide_eq_true hba))

theorem eligibleWorkers_eq (hids : (workers.map (·.id)).Nodup) (hids' : (workers'.map (·.id)).Nodup)
    (h : ∀ w, eligible r w = true → (w ∈ workers' ↔ w ∈ workers)) :
    eligibleWorkers r workers' = eligibleWorkers r workers := by
  refine filter_mergeSort_eq (fun a b c => string_le_trans a.id b.id c.id) (fun a b => string_le_total a.id b.id) ?_ ?_
  · intro a ha b hb hab hba
    exact eq_of_id hids ha hb (le_antisymm (of_decide_eq_true hab) (of_decide_eq_true hba))
  · refine (List.perm_ext_iff_of_nodup (hids'.of_map.filter _) (hids.of_map.filter _)).mpr fun w => ?_
    rw [List.mem_filter, List.mem_filter]
    exact and_congr_left (h w)

theorem mem_eligibleWorkers {w : WorkerSnapshot} :
    w ∈ eligibleWorkers r workers ↔ w ∈ workers ∧ eligible r w = true := by
  rw [eligibleWorkers, List.mem_filter, List.mem_mergeSort]

theorem rank_eq (score : Score) :
    rank score r (fun _ => none) workers =
      (eligibleWorkers r workers).mergeSort (before [fun w => -score r w none]) := rfl

end

/-! ## What is selected and rejected -/

section

variable {score : Score} {r : TaskRequirements}
  {topology : ExecutionTopology} {workers workers' : List WorkerSnapshot}

variable {evidence : WorkerSnapshot → Option QuotaGuardEvidence}

/-- No worker is selected twice. -/
theorem select_nodup {ranked : List WorkerSnapshot} (hids : (ranked.map (·.id)).Nodup) :
    (select score topology r evidence ranked).Nodup := by
  cases ranked with
  | nil => exact List.nodup_nil
  | cons primary rest =>
    have hone : ∀ order, ((((primary :: rest).mergeSort order).take 1).map (·.id)).Nodup := by
      intro order
      rw [List.map_take]
      exact (((List.mergeSort_perm _ order).map _).nodup_iff.mpr hids).sublist (List.take_sublist _ _)
    cases topology with
    | single => exact List.nodup_singleton _
    | fallback => exact hone _
    | cheapFirstEscalation => exact hone _
    | parallelPanel =>
      simp only [select]
      rw [List.map_take]
      exact hids.sublist (List.take_sublist _ _)
    | primaryReviewer =>
      simp only [select]
      split
      · rename_i reviewer hreviewer
        have hne := List.find?_some hreviewer
        simp only [Bool.and_eq_true, decide_eq_true_eq] at hne
        simpa using fun h => hne.1 h.symm
      · exact List.nodup_singleton _

theorem rank_nodup (hids : (workers.map (·.id)).Nodup) :
    ((rank score r evidence workers).map (·.id)).Nodup := by
  have hsorted : ((workers.mergeSort fun a b => decide (a.id ≤ b.id)).map (·.id)).Nodup :=
    ((List.mergeSort_perm workers _).map _).nodup_iff.mpr hids
  refine ((List.mergeSort_perm _ _).map _).nodup_iff.mpr ?_
  exact hsorted.sublist (List.filter_sublist.map _)

theorem schedule_selected (score : Score)
    (r : TaskRequirements) (topology : ExecutionTopology) (workers : List WorkerSnapshot)
    (evidence : WorkerSnapshot → Option QuotaGuardEvidence) :
    (schedule score r topology evidence workers).selectedWorkerIds = [] ∨
      (schedule score r topology evidence workers).selectedWorkerIds =
        select score topology r evidence (rank score r evidence workers) := by
  unfold schedule
  dsimp only
  split
  · exact Or.inl rfl
  · split
    · exact Or.inl rfl
    · exact Or.inr rfl

theorem schedule_selected_congr (h : rank score r evidence workers' = rank score r evidence workers) :
    (schedule score r topology evidence workers').selectedWorkerIds =
      (schedule score r topology evidence workers).selectedWorkerIds := by
  simp only [schedule, h]
  split
  · rfl
  · split <;> rfl

/-- The reasons why a topology is not satisfied; they are no reasons of a worker. -/
def topologyReasons : List String := ["REVIEWER_UNAVAILABLE", "PANEL_SIZE_UNAVAILABLE"]

theorem mem_constraint {violated : Bool} {workerId code detail : String} {x : Rejection}
    (hcode : code ∉ topologyReasons) (h : x ∈ constraint violated workerId code detail) :
    x.workerId = workerId ∧ x.reasonCode ∉ topologyReasons := by
  unfold constraint at h
  split at h
  · rw [List.mem_singleton.mp h]
    exact ⟨rfl, hcode⟩
  · cases h

theorem mem_hardConstraints {w : WorkerSnapshot} {x : Rejection} (h : x ∈ hardConstraints r w) :
    x.workerId = w.id ∧ x.reasonCode ∉ topologyReasons := by
  have hcontext : ∀ y ∈ contextConstraint r w, y.workerId = w.id ∧ y.reasonCode ∉ topologyReasons := by
    intro y hy
    unfold contextConstraint at hy
    split at hy
    · cases hy
    · rw [List.mem_singleton.mp hy]
      exact ⟨rfl, show "CONTEXT_UNKNOWN" ∉ topologyReasons by decide⟩
    · exact mem_constraint (by decide) hy
  simp only [hardConstraints, List.mem_append] at h
  rcases h with ((((((h | h) | h) | h) | h) | h) | h) | h
  · exact mem_constraint (by decide) h
  · exact mem_constraint (by decide) h
  · exact mem_constraint (by decide) h
  · exact mem_constraint (by decide) h
  · exact mem_constraint (by decide) h
  · exact mem_constraint (by decide) h
  · exact hcontext x h
  · exact mem_constraint (by decide) h

theorem mem_schedule_rejected {x : Rejection} (hx : x.reasonCode ∉ topologyReasons) :
    x ∈ (schedule score r topology evidence workers).rejected ↔ ∃ w ∈ workers, x ∈ hardConstraints r w := by
  have hhard : x ∈ (workers.mergeSort fun a b => decide (a.id ≤ b.id)).flatMap (hardConstraints r) ↔
      ∃ w ∈ workers, x ∈ hardConstraints r w := by
    simp only [List.mem_flatMap, List.mem_mergeSort]
  have hother : ∀ {code detail}, code ∈ topologyReasons → x ≠ ⟨"__topology__", code, detail⟩ := by
    rintro code detail hcode rfl
    exact hx hcode
  unfold schedule
  dsimp only
  split
  · rw [List.mem_append, hhard, List.mem_singleton]
    exact or_iff_left (hother (by decide))
  · split
    · rw [List.mem_append, hhard, List.mem_singleton]
      exact or_iff_left (hother (by decide))
    · exact hhard

end

/-! ## The rule -/

/-- The worker is among the candidates. -/
def ScheduleDecision.Scores (decision : ScheduleDecision) (id : String) : Prop :=
  ∃ c ∈ decision.candidates, c.workerId = id

/-- The worker is rejected, for a reason of its own. -/
def ScheduleDecision.Rejects (decision : ScheduleDecision) (id : String) : Prop :=
  ∃ x ∈ decision.rejected, x.workerId = id ∧ x.reasonCode ∉ topologyReasons

section

variable {s : DeterministicScheduler} {taskId : String} {r : TaskRequirements} {topology : ExecutionTopology}
  {workers workers' : List WorkerSnapshot} {evidence evidence' : List RoutingEvidence} {decision : ScheduleDecision}

theorem schedule_ok (h : s.schedule taskId r topology workers evidence = .ok decision) :
    decision.selectedWorkerIds =
        (schedule (scoreBy s.config.weights evidence) r topology (fun _ => none) workers).selectedWorkerIds ∧
      decision.rejected =
        (schedule (scoreBy s.config.weights evidence) r topology (fun _ => none) workers).rejected ∧
      decision.candidates = ((eligibleWorkers r workers).map fun w =>
        candidateScore s.config.weights r w (evidenceFor evidence w.id)).mergeSort candidateLe := by
  unfold DeterministicScheduler.schedule at h
  dsimp only at h
  split at h
  · cases h
  · split at h
    · cases h
    · cases h
      exact ⟨rfl, rfl, rfl⟩

theorem schedule_succeeds (hunique : (evidence.map (·.workerId)).Nodup) (htotal : s.config.weights.total ≠ 0) :
    ∃ decision, s.schedule taskId r topology workers evidence = .ok decision := by
  unfold DeterministicScheduler.schedule
  dsimp only
  rw [if_neg (not_not.mpr hunique), if_neg fun h => htotal h.2]
  exact ⟨_, rfl⟩

theorem schedule_selects (hids : (workers.map (·.id)).Nodup)
    (h : s.schedule taskId r topology workers evidence = .ok decision) :
    decision.selectedWorkerIds.Nodup ∧ ∀ id ∈ decision.selectedWorkerIds, ∃ w ∈ workers, w.id = id ∧
      hardConstraints r w = [] := by
  obtain ⟨hselected, -, -⟩ := schedule_ok h
  rw [hselected]
  constructor
  · rcases schedule_selected (scoreBy s.config.weights evidence) r topology workers fun _ => none with hnone | hsome
    · rw [hnone]
      exact List.nodup_nil
    · rw [hsome]
      exact select_nodup (rank_nodup hids)
  · intro id hid
    obtain ⟨w, hw, heligible, rfl⟩ := schedule_eligible hid
    exact ⟨w, hw, rfl, List.isEmpty_iff.mp heligible⟩

/-- Every worker is scored, unless it is rejected. -/
theorem schedule_scores (hids : (workers.map (·.id)).Nodup)
    (h : s.schedule taskId r topology workers evidence = .ok decision) {w : WorkerSnapshot} (hw : w ∈ workers) :
    decision.Scores w.id ↔ ¬ decision.Rejects w.id := by
  obtain ⟨-, hrejected, hcandidates⟩ := schedule_ok h
  have hscored : decision.Scores w.id ↔ eligible r w = true := by
    simp only [ScheduleDecision.Scores, hcandidates, List.mem_mergeSort, List.mem_map]
    constructor
    · rintro ⟨c, ⟨w', hw', rfl⟩, hid⟩
      obtain ⟨hmem, heligible⟩ := mem_eligibleWorkers.mp hw'
      exact eq_of_id hids hmem hw hid ▸ heligible
    · intro heligible
      exact ⟨_, ⟨w, mem_eligibleWorkers.mpr ⟨hw, heligible⟩, rfl⟩, rfl⟩
  have hrejects : decision.Rejects w.id ↔ hardConstraints r w ≠ [] := by
    simp only [ScheduleDecision.Rejects, hrejected]
    constructor
    · rintro ⟨x, hx, hid, hreason⟩ hnone
      obtain ⟨w', hw', hmem⟩ := (mem_schedule_rejected hreason).mp hx
      obtain rfl := eq_of_id hids hw' hw ((mem_hardConstraints hmem).1.symm.trans hid)
      rw [hnone] at hmem
      cases hmem
    · intro hne
      obtain ⟨x, hx⟩ := List.exists_mem_of_ne_nil _ hne
      obtain ⟨hid, hreason⟩ := mem_hardConstraints hx
      exact ⟨x, (mem_schedule_rejected hreason).mpr ⟨w, hw, hx⟩, hid, hreason⟩
  rw [hscored, hrejects, not_not, eligible, List.isEmpty_iff]

theorem schedule_perm (hids : (workers.map (·.id)).Nodup) (hunique : (evidence.map (·.workerId)).Nodup)
    (hworkers : workers'.Perm workers) (hevidence : evidence'.Perm evidence) :
    s.schedule taskId r topology workers' evidence' = s.schedule taskId r topology workers evidence := by
  have hunique' : (evidence'.map (·.workerId)).Nodup := (hevidence.map _).nodup_iff.mpr hunique
  have hsorted : (evidence'.mergeSort fun a b => decide (a.workerId ≤ b.workerId)) =
      evidence.mergeSort fun a b => decide (a.workerId ≤ b.workerId) := by
    refine mergeSort_eq_of_perm (fun a b c => string_le_trans a.workerId b.workerId c.workerId)
      (fun a b => string_le_total a.workerId b.workerId) ?_ hevidence
    intro a ha b hb hab hba
    exact List.inj_on_of_nodup_map hunique ha hb (le_antisymm (of_decide_eq_true hab) (of_decide_eq_true hba))
  have hscore : scoreBy s.config.weights evidence' = scoreBy s.config.weights evidence := by
    funext r w _
    rw [scoreBy, scoreBy, evidenceFor_perm hunique hevidence]
  have heligible : eligibleWorkers r workers' = eligibleWorkers r workers := by
    rw [eligibleWorkers, eligibleWorkers, sortById_perm hids hworkers]
  have hrouted : ∀ score, schedule score r topology (fun _ => none) workers' =
      schedule score r topology (fun _ => none) workers := by
    intro score
    unfold schedule rank
    rw [sortById_perm hids hworkers]
  unfold DeterministicScheduler.schedule
  dsimp only
  rw [if_neg (not_not.mpr hunique'), if_neg (not_not.mpr hunique), heligible, hscore, hrouted, hsorted,
    evidenceFor_perm hunique hevidence]

theorem schedule_ineligible (hids : (workers.map (·.id)).Nodup) (hids' : (workers'.map (·.id)).Nodup)
    (h : ∀ w, eligible r w = true → (w ∈ workers' ↔ w ∈ workers)) :
    (s.schedule taskId r topology workers' evidence).map (fun d => (d.selectedWorkerIds, d.candidates)) =
      (s.schedule taskId r topology workers evidence).map fun d => (d.selectedWorkerIds, d.candidates) := by
  have heligible := eligibleWorkers_eq hids hids' h
  have hselected : (schedule (scoreBy s.config.weights evidence) r topology
    (fun _ => none) workers').selectedWorkerIds =
      (schedule (scoreBy s.config.weights evidence) r topology (fun _ => none) workers).selectedWorkerIds := by
    refine schedule_selected_congr ?_
    rw [rank_eq, rank_eq, heligible]
  unfold DeterministicScheduler.schedule
  dsimp only
  rw [heligible]
  split
  · rfl
  · split
    · rfl
    · simp only [Except.map, hselected]

/-- **The scheduler is sound and reads sets.** For workers with distinct identifiers and evidence that is unique by
worker: distinct workers without a rejection are selected; every worker is either scored or rejected; the decision is
the same in every order of workers and evidence; and workers that violate a hard constraint change neither the selection
nor a score. -/
theorem schedule_sound_and_ordered (s : DeterministicScheduler) (taskId : String) (r : TaskRequirements)
    (topology : ExecutionTopology) {workers : List WorkerSnapshot} (hids : (workers.map (·.id)).Nodup)
    {evidence : List RoutingEvidence} (hunique : (evidence.map (·.workerId)).Nodup) :
    (s.config.weights.total ≠ 0 → ∃ decision, s.schedule taskId r topology workers evidence = .ok decision) ∧
    (∀ decision, s.schedule taskId r topology workers evidence = .ok decision →
      (decision.selectedWorkerIds.Nodup ∧ ∀ id ∈ decision.selectedWorkerIds, ∃ w ∈ workers, w.id = id ∧
        hardConstraints r w = []) ∧
      ∀ w ∈ workers, decision.Scores w.id ↔ ¬ decision.Rejects w.id) ∧
    (∀ workers' evidence', workers'.Perm workers → evidence'.Perm evidence →
      s.schedule taskId r topology workers' evidence' = s.schedule taskId r topology workers evidence) ∧
    ∀ workers' : List WorkerSnapshot, (workers'.map (·.id)).Nodup →
      (∀ w, eligible r w = true → (w ∈ workers' ↔ w ∈ workers)) →
      (s.schedule taskId r topology workers' evidence).map (fun d => (d.selectedWorkerIds, d.candidates)) =
        (s.schedule taskId r topology workers evidence).map fun d => (d.selectedWorkerIds, d.candidates) :=
  ⟨fun htotal => schedule_succeeds hunique htotal,
    fun _ h => ⟨schedule_selects hids h, fun _ hw => schedule_scores hids h hw⟩,
    fun _ _ hworkers hevidence => schedule_perm hids hunique hworkers hevidence,
    fun _ hids' h => schedule_ineligible hids hids' h⟩

end

/-! ## Primary and reviewer -/

/-- The eligible worker that is ranked before all others. -/
def Leads (score : WorkerSnapshot → ℚ) (r : TaskRequirements) (workers : List WorkerSnapshot)
    (p : WorkerSnapshot) : Prop :=
  p ∈ workers ∧ eligible r p = true ∧
    ∀ w ∈ workers, eligible r w = true → before [fun w => -score w] p w = true

section

variable {keys : List (WorkerSnapshot → ℚ)} {a b c : WorkerSnapshot}

theorem before_cons {key : WorkerSnapshot → ℚ} :
    before (key :: keys) a b = true ↔ key a < key b ∨ (key a = key b ∧ before keys a b = true) := by
  simp [before]

theorem before_antisymm (h : before keys a b = true) (h' : before keys b a = true) : a.id = b.id := by
  induction keys with
  | nil => exact le_antisymm (of_decide_eq_true h) (of_decide_eq_true h')
  | cons key keys ih =>
    rw [before_cons] at *
    rcases h with h | ⟨h, hab⟩
    · rcases h' with h' | ⟨h', -⟩
      · exact absurd h' h.asymm
      · exact absurd h'.symm h.ne
    · rcases h' with h' | ⟨-, hba⟩
      · exact absurd h h'.ne'
      · exact ih hab hba

end

section

variable {k : SchedulerWeights} {r : TaskRequirements} {workers : List WorkerSnapshot} {evidence : List RoutingEvidence}

theorem Leads.unique {score : WorkerSnapshot → ℚ} {p q : WorkerSnapshot} (hids : (workers.map (·.id)).Nodup)
    (hp : Leads score r workers p) (hq : Leads score r workers q) : p = q :=
  eq_of_id hids hp.1 hq.1 (before_antisymm (hp.2.2 q hq.1 hq.2.1) (hq.2.2 p hp.1 hp.2.1))

end

/-- An idle worker. -/
def routableWorker (id : String) (capabilities : List String) (qualityScore : ℚ) : WorkerSnapshot where
  id := id
  provider := .local
  contextWindowTokens := none
  state := .idle
  nodeState := .online
  resourceState := .available
  capabilities := capabilities
  codeWriteAllowed := false
  privacyAllowed := false
  qualityScore := qualityScore

/-- The reviewer `a` and the worker `b`. -/
def reviewerAndWorker (reviewer worker : ℚ) : List WorkerSnapshot :=
  [routableWorker "a" ["review"] reviewer, routableWorker "b" [] worker]

def plainTask : TaskRequirements := { panelled := Nat.two_pos }

theorem reviewerAndWorker_nodup (reviewer worker : ℚ) : ((reviewerAndWorker reviewer worker).map (·.id)).Nodup := by
  simp [reviewerAndWorker, routableWorker]

theorem schedule_sound_and_ordered_pair : ∃ decision,
    DeterministicScheduler.schedule {} "t" plainTask .primaryReviewer (reviewerAndWorker 0 1) [] = .ok decision ∧
      decision.selectedWorkerIds.Nodup :=
  have hunique : (([] : List RoutingEvidence).map (·.workerId)).Nodup := List.nodup_nil
  have h := schedule_sound_and_ordered {} "t" plainTask .primaryReviewer (reviewerAndWorker_nodup 0 1) hunique
  have ⟨decision, hok⟩ := h.1 (by decide +kernel)
  ⟨decision, hok, (h.2.1 decision hok).1.1⟩

end AgentFabric.Resource
