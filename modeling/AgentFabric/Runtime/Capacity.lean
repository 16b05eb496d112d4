import AgentFabric.Runtime.Histories
import AgentFabric.Runtime.Requests
import AgentFabric.Store.Capacity

/-!
# Capacity that is not leaked

A plain adapter that raises has its run moved to FAILED by one transaction and its worker given back by another; a crash
between the two leaves the worker busy for good.
-/

namespace AgentFabric.Runtime

open AgentFabric.Lib AgentFabric.Store

/-! ## What the trace shows -/

/-- The run that a call moved to its end, and nothing else. -/
def endedAlone : RuntimeEvent → Option String
  | ⟨_, .store (.transitionWorkerRun runId target _ _ _), .ok _⟩ => if target.active then none else some runId
  | _ => none

def setWorker : RuntimeEvent → Option String
  | ⟨_, .store (.setWorkerState workerId _ _ _ _ _), .ok _⟩ => some workerId
  | ⟨_, .store (.upsertWorker workerId _), .ok _⟩ => some workerId
  | _ => none

/-- The worker that a call set to a busy state. -/
def parkedWorker : RuntimeEvent → Option String
  | ⟨_, .store (.setWorkerState workerId state _ _ _ _), .ok _⟩ => if state.busy then some workerId else none
  | _ => none

/-- The workers that were set to a busy state. -/
def parkings (trace : List RuntimeEvent) : List String := trace.filterMap parkedWorker

def setsWorker (w : Option String) (e : RuntimeEvent) : Bool := (setWorker e).any fun v => decide (w = some v)

/-- The runs that were moved to their end on their own and whose worker was not set since. -/
def unsettled (workerOf : String → Option String) : List RuntimeEvent → List String
  | [] => []
  | e :: later =>
    ((endedAlone e).toList.filter fun runId => !later.any (setsWorker (workerOf runId))) ++ unsettled workerOf later

def workerOf (db : Db) (runId : String) : Option String := (db.runs.get? runId).map RunRow.workerId

section

variable {τ τ' : String → Option String} {l : List RuntimeEvent} {e : RuntimeEvent} {runId : String}

theorem mem_unsettled_concat : runId ∈ unsettled τ (l ++ [e]) ↔
    runId ∈ unsettled τ l ∧ setsWorker (τ runId) e = false ∨ endedAlone e = some runId := by
  induction l with
  | nil => simp [unsettled]
  | cons x l ih =>
    simp only [List.cons_append, unsettled, List.mem_append, ih, List.mem_filter, Option.mem_toList,
      List.any_append, List.any_cons, List.any_nil, Bool.or_false, Bool.not_or, Bool.and_eq_true, Bool.not_eq_true']
    tauto

theorem unsettled_congr (h : τ runId = τ' runId) : runId ∈ unsettled τ l ↔ runId ∈ unsettled τ' l := by
  induction l with
  | nil => rfl
  | cons x l ih => simp only [unsettled, List.mem_append, List.mem_filter, ih, h]

end

/-- The worker is owed by an unsettled run. -/
def Owing (h : History) (w : String) : Prop :=
  ∃ runId ∈ unsettled (workerOf h.state.db) h.trace, workerOf h.state.db runId = some w

/-! ## One call -/

def Call.crewed : Call → Bool
  | .store op => op.crewed
  | _ => true

section

variable {dg : Digests} {h : History} {i : Nat} {env : Environment} {c : Call} {w : String}

theorem crewed_stamp (clock : Clock) (uuid : String → String) (op : StoreOp) :
    (stamp clock uuid op).crewed = op.crewed := by
  cases op <;> rfl

theorem givesBack_stamp (clock : Clock) (uuid : String → String) (op : StoreOp) :
    (stamp clock uuid op).givesBack w = op.givesBack w := by
  cases op <;> rfl

theorem workerOf_kept {w w' : World} (h : Kept w w') {runId workerId : String}
    (hw : workerOf w.db runId = some workerId) : workerOf w'.db runId = some workerId := by
  obtain ⟨run, hr, rfl⟩ := Option.map_eq_some_iff.mp hw
  obtain ⟨run', hr', _, hsame, _⟩ := h.runs runId run hr
  simp [workerOf, hr', hsame]

theorem owing_extended (ho : Owing h w) (he : setsWorker (some w) (eventOf dg h i env c) = false) :
    Owing (extended dg h i env c) w := by
  obtain ⟨runId, hmem, hw⟩ := ho
  have hkept := workerOf_kept (act_kept dg h.state env c) hw
  refine ⟨runId, ?_, hkept⟩
  rw [extended_trace, extended_state, mem_unsettled_concat]
  refine Or.inl ⟨(unsettled_congr (hw.trans hkept.symm)).mp hmem, ?_⟩
  rw [hkept]
  exact he

theorem owing_ended {runId : String} {run : RunRow} (he : endedAlone (eventOf dg h i env c) = some runId)
    (hr : h.state.db.runs.get? runId = some run) : Owing (extended dg h i env c) run.workerId := by
  refine ⟨runId, ?_, workerOf_kept (act_kept dg h.state env c) (by simp [workerOf, hr])⟩
  rw [extended_trace, mem_unsettled_concat]
  exact Or.inr he

theorem refused_sets_nothing {op : StoreOp} {e : StoreError} (he : (act dg h.state env (.store op)).1 = .error e) :
    setsWorker (some w) (eventOf dg h i env (.store op)) = false := by
  have hset : setWorker (eventOf dg h i env (.store op)) = none := by
    rw [eventOf, he]
    cases op <;> rfl
  rw [setsWorker, hset]
  rfl

/-- One call leaves every busy worker with an active run or an unsettled one. -/
theorem crewed_step (hC : Crewed h.state.db (Owing h)) (hc : c.crewed = true)
    (hpark : ∀ w, parkedWorker (eventOf dg h i env c) = some w → Occupied h.state.db.runs w) :
    Crewed (extended dg h i env c).state.db (Owing (extended dg h i env c)) := by
  have same : (act dg h.state env c).2.db = h.state.db → (∀ w, setsWorker (some w) (eventOf dg h i env c) = false) →
      Crewed (extended dg h i env c).state.db (Owing (extended dg h i env c)) := by
    intro hdb hset
    rw [extended_state, hdb]
    exact ⟨fun w row hrow hbusy => (hC.busy w row hrow hbusy).imp id fun ho => owing_extended ho (hset w), hC.collected⟩
  cases c with
  | store op =>
    rcases act_store dg h.state env op with ⟨clock, uuid, r, hexec, hreply⟩ | ⟨⟨e, he⟩, hdb⟩
    · refine hC.step hexec (by rw [crewed_stamp]; exact hc) (fun w state resource model fence k hop hbusy => ?_)
        (fun id target detail lease k run hop htarget hr => ?_) fun w ho hkeep => owing_extended ho ?_
      · cases op with
        | setWorkerState workerId state' _ _ _ _ =>
          obtain ⟨rfl, rfl, _⟩ := StoreOp.setWorkerState.inj hop
          refine hpark workerId ?_
          rw [eventOf, hreply]
          exact if_pos hbusy
        | _ => cases hop
      · cases op with
        | transitionWorkerRun runId target' _ _ _ =>
          obtain ⟨rfl, rfl, _⟩ := StoreOp.transitionWorkerRun.inj hop
          refine owing_ended ?_ hr
          rw [eventOf, hreply]
          exact if_neg (by rw [htarget]; exact Bool.false_ne_true)
        | _ => cases hop
      · rw [givesBack_stamp] at hkeep
        rw [eventOf, hreply]
        cases op with
        | setWorkerState workerId _ _ _ _ _ =>
          simpa [setsWorker, setWorker, StoreOp.givesBack, eq_comm] using hkeep
        | upsertWorker workerId _ => simpa [setsWorker, setWorker, StoreOp.givesBack, eq_comm] using hkeep
        | _ => rfl
    · exact same hdb fun w => refused_sets_nothing he
  | begin index =>
    refine same ?_ fun _ => rfl
    simp only [act]
    split <;> rfl
  | _ => exact same rfl fun _ => rfl

end

/-! ## Schedules -/

/-- The clients take no worker for nothing. -/
abbrev crewRun (dg : Digests) (moves : List (Move Nat Request Environment)) : History :=
  (served dg StoreOp.crewed moves).shared

/-- Every call that parks a worker finds it with an active run. -/
def ParksManned (dg : Digests) (moves : List (Move Nat Request Environment)) : Prop :=
  ∀ before m after, moves = before ++ m :: after → ∀ w,
    parkings (crewRun dg (before ++ [m])).trace = parkings (crewRun dg before).trace ++ [w] →
    Occupied (crewRun dg before).state.db.runs w

section

variable {dg : Digests}

theorem parkings_concat {trace : List RuntimeEvent} {e : RuntimeEvent} {w : String} (h : parkedWorker e = some w) :
    parkings (trace ++ [e]) = parkings trace ++ [w] := by
  simp [parkings, h]

theorem serve_crewed (i : Nat) (request : Request) : (serve StoreOp.crewed i request).All fun c => c.crewed = true := by
  refine .bind (handle_obeys (fun c hc => ?_) (fun c hc => ?_) (fun _ _ => rfl) (fun _ _ _ => rfl)
    (fun _ hop => hop) request)
    fun _ => trivial
  · cases c with
    | store op => cases op <;> first | rfl | cases hc
    | _ => rfl
  · cases c with
    | store op => cases op <;> first | rfl | exact hc | cases hc
    | _ => rfl

theorem served_crewed (moves : List (Move Nat Request Environment)) (hparks : ParksManned dg moves) :
    Crewed (crewRun dg moves).state.db (Owing (crewRun dg moves)) := by
  induction moves using List.reverseRecOn with
  | nil => exact ⟨fun _ _ h => (nomatch h), fun _ _ h => (nomatch h)⟩
  | append_singleton moves m ih =>
    have hC := ih fun before m' after e => hparks before m' (after ++ [m]) (by simp [e])
    have hpark := hparks moves m [] rfl
    rcases served_snoc dg StoreOp.crewed moves m with hs | ⟨i, env, c, next, hthread, hs⟩
    · rw [crewRun, hs]
      exact hC
    · rw [crewRun, hs] at hpark ⊢
      exact crewed_step hC (Pool.thread_all serve_crewed moves hthread).1 fun w hw => hpark w (parkings_concat hw)

end

/-- **No leaked capacity.**  Any number of processes dispatch, execute, fail, cancel and recover, clients use the store,
and processes crash between any two transactions.  If every call that parks a worker finds it with an active run, and
the worker of every run that was moved to its end on its own was set afterwards, then every worker that is STARTING,
RUNNING or WAITING has an active run. -/
theorem no_leaked_capacity (dg : Digests) (moves : List (Move Nat Request Environment)) (hparks : ParksManned dg moves)
    (hsettled : unsettled (workerOf (crewRun dg moves).state.db) (crewRun dg moves).trace = []) (w : String)
    (row : WorkerRow) (hrow : (crewRun dg moves).state.db.workers.get? w = some row) (hbusy : row.state.busy = true) :
    Occupied (crewRun dg moves).state.db.runs w := by
  rcases (served_crewed moves hparks).busy w row hrow hbusy with hocc | ⟨runId, hmem, _⟩
  · exact hocc
  · rw [hsettled] at hmem
    cases hmem

section

private def plainProcess (runtimeId : String) : Supervisor :=
  ⟨runtimeId, fun _ => some .legacy, 3, 1000000, 30000000, 1000000⟩

/-- Plain adapters that raise; the run of attempt `n` is `run-n`. -/
private def raisingAdapter (uuid : String) : Environment := { Environment.failing with uuid := fun _ => uuid }

private def repeated (n i : Nat) (env : Environment) : List (Move Nat Request Environment) :=
  List.replicate n (.step i env)

-- the adapter of the only run raises; its coroutine makes `n` calls, then the process crashes; the lease runs out and
-- another process recovers to the end
private def raisedAndRecovered (n : Nat) : List (Move Nat Request Environment) :=
  [.start 0 (.client (.createTask ⟨"t", "p", "#0001", .ready, .single, 0⟩)), .step 0 (raisingAdapter "1"),
    .start 1 (.client (.upsertWorker "w" ⟨.idle, .available, none⟩)), .step 1 (raisingAdapter "1"),
    .start 2 (.dispatch (plainProcess "A") none fun a b => decide (a ≤ b))] ++ repeated 9 2 (raisingAdapter "1") ++
  [.start 3 (.coroutine 0 1)] ++ repeated 2 3 (raisingAdapter "1") ++
  [.start 4 (.coroutine 1 1)] ++ repeated n 4 (raisingAdapter "1") ++
  [.drop 3, .drop 4, .start 5 (.recover (plainProcess "B") none)] ++
    repeated 10 5 { raisingAdapter "1" with wait := 31000000 }

theorem failed_run_leaks_worker :
    ((served .trivial StoreOp.crewed (raisedAndRecovered 6)).thread 5).any
        (fun p => decide (¬ p.Poised fun _ => True)) = true ∧
      (∀ e ∈ (crewRun .trivial (raisedAndRecovered 6)).state.db.leases.rows, e.2.state ≠ .active) ∧
      (reconcilableJobs (crewRun .trivial (raisedAndRecovered 6)).state.db
        (crewRun .trivial (raisedAndRecovered 6)).state.clock).length = 0 ∧
      ((crewRun .trivial (raisedAndRecovered 6)).state.db.workers.get? "w").map WorkerRow.state = some .running ∧
      ¬ Occupied (crewRun .trivial (raisedAndRecovered 6)).state.db.runs "w" := by
  refine ⟨by decide +kernel, by decide +kernel, by decide +kernel, by decide +kernel, ?_⟩
  have hfree : workerHasActiveRun (crewRun .trivial (raisedAndRecovered 6)).state.db.runs "w" none = false := by
    decide +kernel
  exact not_occupied hfree fun _ _ h => nomatch h

-- the coroutine gives the worker back before the crash, and the worker is claimed again after the recovery
private def raisedAndClaimed : List (Move Nat Request Environment) :=
  raisedAndRecovered 8 ++ [.start 6 (.dispatch (plainProcess "B") none fun a b => decide (a ≤ b))] ++
    repeated 6 6 (raisingAdapter "2")

private theorem raisedAndClaimed_manned : ParksManned .trivial raisedAndClaimed := by
  intro before m after e w hpark
  have hnone : ∀ n ≤ raisedAndClaimed.length, parkings (crewRun .trivial (raisedAndClaimed.take n)).trace = [] := by
    decide +kernel
  have hlength : before.length + 1 ≤ raisedAndClaimed.length := by rw [e]; simp
  have hend := hnone _ hlength
  have htake : raisedAndClaimed.take (before.length + 1) = before ++ [m] := by
    rw [e, List.take_length_add_append]; rfl
  rw [htake, hpark] at hend
  simp at hend

theorem no_leaked_capacity_claimed :
    unsettled (workerOf (crewRun .trivial raisedAndClaimed).state.db) (crewRun .trivial raisedAndClaimed).trace = [] ∧
      Occupied (crewRun .trivial raisedAndClaimed).state.db.runs "w" :=
  ⟨by decide +kernel, no_leaked_capacity .trivial raisedAndClaimed raisedAndClaimed_manned (by decide +kernel) "w"
    ⟨.starting, .available, none⟩ (by decide +kernel) rfl⟩

end

end AgentFabric.Runtime
