import AgentFabric.NodeRecovery.Model
import AgentFabric.Resource.QuotaGuard
import AgentFabric.Submission.Model

/-!
# The deterministic scheduler

`DeterministicScheduler` of `scheduler.py`: hard constraints first, then a score, then the identifier.  The score is
computed in floating point; here it is any function of what the source's score reads.
-/

namespace AgentFabric.Resource

open AgentFabric.NodeRecovery (NodeState)
open AgentFabric.Submission (PermissionClass ApprovalState)

inductive Provider where
  | openai | anthropic | xai | google | «local» | mock
deriving DecidableEq, Repr

def Provider.value : Provider → String
  | .openai => "openai" | .anthropic => "anthropic" | .xai => "xai" | .google => "google" | .local => "local"
  | .mock => "mock"

def nodeStateValue : NodeState → String
  | .online => "online" | .degraded => "degraded" | .offline => "offline" | .unprovisioned => "unprovisioned"

def workerStateValue : WorkerState → String
  | .idle => "idle" | .starting => "starting" | .running => "running" | .waiting => "waiting"
  | .rateLimited => "rateLimited" | .stopping => "stopping" | .offline => "offline" | .failed => "failed"

def resourceStateValue : ResourceState → String
  | .available => "available" | .warning => "warning" | .rateLimited => "rateLimited"
  | .budgetExhausted => "budgetExhausted" | .cooldown => "cooldown" | .unknown => "unknown"

structure TaskRequirements where
  requiredCapabilities : List String := []
  permissionClass : PermissionClass := .green
  approvalState : ApprovalState := .notRequired
  minimumContextTokens : Option Nat := none
  privacySensitive : Bool := false
  codeWriteRequired : Bool := false
  panelSize : Nat := 2
  preferredWorkers : List String := []
  panelled : 0 < panelSize

/-- The requirements with another panel size. -/
def TaskRequirements.withPanel (r : TaskRequirements) (n : Nat) (h : 0 < n) : TaskRequirements :=
  { r with panelSize := n, panelled := h }

structure WorkerSnapshot where
  id : String
  provider : Provider
  contextWindowTokens : Option Nat
  state : WorkerState
  nodeState : NodeState
  resourceState : ResourceState
  capabilities : List String
  codeWriteAllowed : Bool
  privacyAllowed : Bool
  qualityScore : ℚ := 1 / 2
  reliabilityScore : ℚ := 1 / 2
  expectedLatencySeconds : ℚ := 30
  monetaryCostScore : ℚ := 1 / 2
  nodeLoad : ℚ := 0

structure Rejection where
  workerId : String
  reasonCode : String
  detail : String
deriving DecidableEq, Repr

def constraint (violated : Bool) (workerId code detail : String) : List Rejection :=
  if violated then [⟨workerId, code, detail⟩] else []

def contextConstraint (r : TaskRequirements) (w : WorkerSnapshot) : List Rejection :=
  match r.minimumContextTokens, w.contextWindowTokens with
  | none, _ => []
  | some _, none => [⟨w.id, "CONTEXT_UNKNOWN", "task requires a verified context window"⟩]
  | some minimum, some context =>
    constraint (decide (context < minimum)) w.id "CONTEXT_INSUFFICIENT"
      ("requires " ++ toString minimum ++ ", worker reports " ++ toString context)

/-- Every reason why a worker cannot take a task. -/
def hardConstraints (r : TaskRequirements) (w : WorkerSnapshot) : List Rejection :=
  let missing := r.requiredCapabilities.filter fun c => !w.capabilities.contains c
  constraint (decide (w.nodeState ≠ .online)) w.id "NODE_UNAVAILABLE"
      ("node state is " ++ nodeStateValue w.nodeState) ++
    constraint (decide (w.state ≠ .idle)) w.id "WORKER_UNAVAILABLE" ("worker state is " ++ workerStateValue w.state) ++
    constraint (decide (w.resourceState ∈ [ResourceState.rateLimited, .budgetExhausted, .cooldown])) w.id
      "RESOURCE_UNAVAILABLE" ("resource state is " ++ resourceStateValue w.resourceState) ++
    constraint (!missing.isEmpty) w.id "CAPABILITY_MISMATCH"
      ("missing capabilities: " ++ ",".intercalate (missing.mergeSort fun a b => decide (a ≤ b))) ++
    constraint (r.codeWriteRequired && !w.codeWriteAllowed) w.id "CODE_WRITE_FORBIDDEN"
      "worker policy forbids production code mutation" ++
    constraint (r.privacySensitive && !w.privacyAllowed) w.id "PRIVACY_MISMATCH"
      "worker is not authorized for privacy-sensitive tasks" ++
    contextConstraint r w ++
    constraint (decide (r.permissionClass = .red) && decide (r.approvalState ≠ .approved)) w.id
      "HUMAN_APPROVAL_REQUIRED" "RED task lacks a durable approved record"

def eligible (r : TaskRequirements) (w : WorkerSnapshot) : Bool := (hardConstraints r w).isEmpty

@[simp] theorem eligible_withPanel (r : TaskRequirements) (n : Nat) (h : 0 < n) (w : WorkerSnapshot) :
    eligible (r.withPanel n h) w = eligible r w := rfl

/-! ## Selection -/

/-- The order by one key after another. -/
def before (keys : List (WorkerSnapshot → ℚ)) (a b : WorkerSnapshot) : Bool :=
  match keys with
  | [] => decide (a.id ≤ b.id)
  | key :: keys => decide (key a < key b) || (decide (key a = key b) && before keys a b)

/-- The position in the preferred workers; a worker that is not named comes after all of them. -/
def preferredRank (preferred : List String) (id : String) : Nat :=
  (preferred.zipIdx.foldl (fun found e => if e.1 = id then some e.2 else found) none).getD preferred.dedup.length

/-- What the weights make of a task, a worker and the evidence on its quota. -/
abbrev Score := TaskRequirements → WorkerSnapshot → Option QuotaGuardEvidence → ℚ

section

variable (score : Score)

/-- `(-score, id)` over the eligible workers. -/
def rank (r : TaskRequirements) (evidence : WorkerSnapshot → Option QuotaGuardEvidence)
    (workers : List WorkerSnapshot) : List WorkerSnapshot :=
  (((workers.mergeSort fun a b => decide (a.id ≤ b.id)).filter (eligible r)).mergeSort
    (before [fun w => -score r w (evidence w)]))

def select (topology : ExecutionTopology) (r : TaskRequirements) (evidence : WorkerSnapshot → Option QuotaGuardEvidence)
    (ranked : List WorkerSnapshot) : List String :=
  match ranked with
  | [] => []
  | primary :: rest =>
    let cost w := -score r w (evidence w)
    match topology with
    | .single => [primary.id]
    | .fallback =>
      ((ranked.mergeSort (before [fun w => preferredRank r.preferredWorkers w.id, cost])).take 1).map (·.id)
    | .cheapFirstEscalation => ((ranked.mergeSort (before [fun w => -w.monetaryCostScore, cost])).take 1).map (·.id)
    | .primaryReviewer =>
      match ranked.find? fun w => decide (w.id ≠ primary.id) && w.capabilities.contains "review" with
      | some reviewer => [primary.id, reviewer.id]
      | none => [primary.id]
    | .parallelPanel => ((primary :: rest).take r.panelSize).map (·.id)

structure RoutingDecision where
  topology : ExecutionTopology
  selectedWorkerIds : List String
  rejected : List Rejection

/-- `schedule`: a pair without a reviewer and a panel that is too small are not selected. -/
def schedule (r : TaskRequirements) (topology : ExecutionTopology)
    (evidence : WorkerSnapshot → Option QuotaGuardEvidence) (workers : List WorkerSnapshot) : RoutingDecision :=
  let rejected := (workers.mergeSort fun a b => decide (a.id ≤ b.id)).flatMap (hardConstraints r)
  let selected := select score topology r evidence (rank score r evidence workers)
  if topology = .primaryReviewer ∧ selected.length < 2 then
    ⟨topology, [], rejected ++ [⟨"__topology__", "REVIEWER_UNAVAILABLE",
      "PRIMARY_REVIEWER requires two distinct eligible workers and a review capability"⟩]⟩
  else if topology = .parallelPanel ∧ selected.length < r.panelSize then
    ⟨topology, [], rejected ++ [⟨"__topology__", "PANEL_SIZE_UNAVAILABLE",
      "requested panel size " ++ toString r.panelSize ++ ", eligible workers " ++ toString selected.length⟩]⟩
  else ⟨topology, selected, rejected⟩

variable {score}

variable {r : TaskRequirements} {evidence : WorkerSnapshot → Option QuotaGuardEvidence}
  {workers ranked : List WorkerSnapshot}

theorem mem_rank {w : WorkerSnapshot} :
    w ∈ rank score r evidence workers ↔ w ∈ workers ∧ eligible r w = true := by
  simp only [rank, List.mem_mergeSort, List.mem_filter]

/-- Every topology selects among the ranked workers. -/
theorem select_subset {topology : ExecutionTopology} {id : String} (h : id ∈ select score topology r evidence ranked) :
    ∃ w ∈ ranked, w.id = id := by
  cases ranked with
  | nil => exact absurd h List.not_mem_nil
  | cons primary rest =>
    have hsorted : ∀ order n, id ∈ (((primary :: rest).mergeSort order).take n).map (·.id) →
        ∃ w ∈ primary :: rest, w.id = id := by
      intro order n hid
      obtain ⟨w, hw, rfl⟩ := List.mem_map.mp hid
      exact ⟨w, List.mem_mergeSort.mp (List.mem_of_mem_take hw), rfl⟩
    have hprimary : ∃ w ∈ primary :: rest, w.id = primary.id := ⟨primary, List.mem_cons_self, rfl⟩
    cases topology with
    | single =>
      obtain rfl := List.mem_singleton.mp h
      exact hprimary
    | fallback => exact hsorted _ _ h
    | cheapFirstEscalation => exact hsorted _ _ h
    | parallelPanel =>
      obtain ⟨w, hw, rfl⟩ := List.mem_map.mp h
      exact ⟨w, List.mem_of_mem_take hw, rfl⟩
    | primaryReviewer =>
      simp only [select] at h
      split at h
      · rename_i reviewer hreviewer
        rcases List.mem_cons.mp h with rfl | h
        · exact hprimary
        · obtain rfl := List.mem_singleton.mp h
          exact ⟨reviewer, List.mem_of_find?_eq_some hreviewer, rfl⟩
      · obtain rfl := List.mem_singleton.mp h
        exact hprimary

theorem select_panel (h : r.panelSize = ranked.length) :
    select score .parallelPanel r evidence ranked = ranked.map (·.id) := by
  cases ranked with
  | nil => rfl
  | cons =>
    simp only [select]
    rw [h, List.take_length]

/-- **Only eligible workers are selected.** -/
theorem schedule_eligible {topology : ExecutionTopology} {id : String}
    (h : id ∈ (schedule score r topology evidence workers).selectedWorkerIds) :
    ∃ w ∈ workers, eligible r w = true ∧ w.id = id := by
  have hselected : id ∈ select score topology r evidence (rank score r evidence workers) := by
    unfold schedule at h
    dsimp only at h
    split at h
    · exact absurd h List.not_mem_nil
    · split at h
      · exact absurd h List.not_mem_nil
      · exact h
  obtain ⟨w, hw, hid⟩ := select_subset hselected
  obtain ⟨hmem, heligible⟩ := mem_rank.mp hw
  exact ⟨w, hmem, heligible, hid⟩

/-- **Every eligible worker can be selected**: by a panel that takes them all. -/
theorem schedule_panel {w : WorkerSnapshot} (hw : w ∈ workers) (he : eligible r w = true)
    (size : r.panelSize = (rank score r evidence workers).length) :
    w.id ∈ (schedule score r .parallelPanel evidence workers).selectedWorkerIds := by
  have hselected : select score .parallelPanel r evidence (rank score r evidence workers) =
      (rank score r evidence workers).map (·.id) := select_panel size
  unfold schedule
  dsimp only
  rw [hselected, if_neg (by simp), if_neg (by simp [size])]
  exact List.mem_map_of_mem (mem_rank.mpr ⟨hw, he⟩)

end

end AgentFabric.Resource
