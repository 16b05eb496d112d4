import AgentFabric.Store.Cancellation

/-!
# The states of a run

Every change of the state of a run follows the transition table, but for two operations that interrupt.
-/

namespace AgentFabric.Store

open AgentFabric.Lib

variable {dg : Digests}

/-- The operations that write INTERRUPTED over every active state. -/
def StoreOp.interrupts : StoreOp → Bool
  | .interruptMissingProviderJob .. | .recoverInterrupted .. => true
  | _ => false

/-- A change of the state of a run that the table allows, or the interruption of a run that has not come to RUNNING, or
has left it. -/
def StateChange (op : StoreOp) (s s' : RunState) : Prop :=
  runTransitions.allows s s' = true ∨
    op.interrupts = true ∧ (s = .starting ∨ s = .waiting) ∧ s' = .interrupted

theorem StateChange.refl (op : StoreOp) (s : RunState) : StateChange op s s :=
  Or.inl (by simp [TransitionTable.allows])

theorem StateChange.interrupted {op : StoreOp} {s : RunState} (hop : op.interrupts = true) (hs : s.active = true) :
    StateChange op s .interrupted := by
  cases s with
  | starting => exact Or.inr ⟨hop, Or.inl rfl, rfl⟩
  | running => exact Or.inl rfl
  | waiting => exact Or.inr ⟨hop, Or.inr rfl, rfl⟩
  | _ => cases hs

theorem runTransitions_cancelled {s : RunState} (hs : s.active = true) : runTransitions.allows s .cancelled = true := by
  cases s with
  | starting | running | waiting => rfl
  | _ => cases hs

/-- Every other change of a run state is in the table. -/
theorem RunUpdate.allowed {db : Db} {id : String} {a b : RunRow} {op : StoreOp} (h : RunUpdate db id a op b) :
    StateChange op a.state b.state := by
  cases h with
  | same | event => exact .refl _ _
  | activated lease clock task hs =>
    rw [hs]
    exact Or.inl rfl
  | cancelled task now ha => exact Or.inl (runTransitions_cancelled ha)
  | transitioned target detail lease clock hl ha => exact Or.inl ha
  | finalized target detail release lease clock job hj hl hact ha => exact Or.inl ha
  | missing lease clock job hj hl hact => exact .interrupted rfl hact
  | recovered taskIds now hi =>
    simp only [interruptibleRun, Bool.and_eq_true] at hi
    exact .interrupted rfl hi.1.1.1

section

variable {db : Db} {id : String} {a : RunRow}

/-- What an operation makes of a run. -/
theorem apply_run (op : StoreOp) (ha : db.runs.get? id = some a) :
    ∃ b, (apply dg db op).runs.get? id = some b ∧ RunUpdate db id a op b := by
  rcases apply_cases dg db op with h | ⟨r, h⟩
  · rw [h]
    exact ⟨a, ha, .same op⟩
  · exact exec_runs_some h ha

/-- A run that has ended keeps its state. -/
theorem runOps_ended (hended : a.state.active = false) (later : List StoreOp) (ha : db.runs.get? id = some a) :
    ∃ b, (runOps dg db later).runs.get? id = some b ∧ b.state = a.state := by
  induction later generalizing db a with
  | nil => exact ⟨a, ha, rfl⟩
  | cons op later ih =>
    obtain ⟨b, hb, hu⟩ := apply_run op ha
    have hsame : b.state = a.state := hu.ended hended
    obtain ⟨c, hc, hstate⟩ := ih (by rw [hsame]; exact hended) hb
    exact ⟨c, hc, hstate.trans hsame⟩

end

/-- **Run states.**  In every state reached by store operations, every further operation changes the state of a run as
`RUN_TRANSITIONS` allows, or is a recovery that interrupts a run in STARTING or WAITING; and a run in a terminal state
keeps it along every later sequence of operations. -/
theorem run_states (dg : Digests) (ops : List StoreOp) (id : String) (a : RunRow)
    (ha : (runOps dg Db.initial ops).runs.get? id = some a) :
    (∀ op, ∃ b, (apply dg (runOps dg Db.initial ops) op).runs.get? id = some b ∧ StateChange op a.state b.state) ∧
    (a.state.active = false → ∀ later,
      ∃ b, (runOps dg (runOps dg Db.initial ops) later).runs.get? id = some b ∧ b.state = a.state) := by
  refine ⟨fun op => ?_, fun hended later => runOps_ended hended later ha⟩
  obtain ⟨b, hb, hu⟩ := apply_run op ha
  exact ⟨b, hb, hu.allowed⟩

/-- A run that was claimed by a process that is gone. -/
def claimedRun : List StoreOp :=
  readyTask ++ [.claimTaskDispatch ⟨"t", ["w"], 1, none, some "A", 30000000, none, fun _ => "1", 0⟩]

private def starting : RunRow := ⟨"t", "w", .starting, 1, none, none, some 1, 0, none, none, .empty⟩

/-- The run is interrupted before it has started. -/
theorem starting_run_interrupted :
    (runOps .trivial Db.initial claimedRun).runs.get? "run-1" = some starting ∧
    ∃ b, (apply .trivial (runOps .trivial Db.initial claimedRun) (.recoverInterrupted none 60000000)).runs.get?
      "run-1" =
      some b ∧ runTransitions.allows starting.state b.state = false := by
  exact ⟨by decide, starting.interrupt 60, by decide +kernel, rfl⟩

theorem run_states_claimed :
    ∃ b, (apply .trivial (runOps .trivial Db.initial claimedRun)
      (.activateWorkerRun "run-1" (.held "A" 1) ⟨0, 0⟩)).runs.get?
      "run-1" = some b ∧ StateChange (.activateWorkerRun "run-1" (.held "A" 1) ⟨0, 0⟩) starting.state b.state :=
  (run_states .trivial claimedRun "run-1" starting (by decide)).1 _

end AgentFabric.Store
