import AgentFabric.Runtime.Recovery
import AgentFabric.Store.Changes

/-!
# Which collected results are ingested

`_validate_collected_result` and the transition table of runs are written apart from each other.
-/

namespace AgentFabric.Runtime

open AgentFabric.Lib AgentFabric.Store

/-- An accepted result of an active run whose job is bound, saved and under a live lease. -/
structure Recoverable (db : Db) (runId : String) (run : RunRow) (observed : ReconciliationState) (result : WorkerResult)
    (lease : HeldLease) (clock : Clock) : Prop where
  found : db.runs.get? runId = some run
  active : run.state.active = true
  job : ∃ job, db.jobs.get? runId = some job ∧
    (truthy job.handle.providerJobId = true ∨ job.handle.runtimePid.isSome = true) ∧
    leaseCurrent db job.taskId lease.owner lease.generation (timestamp clock.lease) = true
  saved : (db.results.get? runId).isSome = true
  accepted : result.state ∈ expectedResults observed

/-- The finalization of the result commits. -/
def Ingests (db : Db) (runId : String) (target : RunState) (detail : RunDetail) (release : WorkerRelease)
    (lease : HeldLease) (clock : Clock) : Prop :=
  ∃ db', finalizeProviderJobResult db runId target detail release lease clock = .ok ((), db')

variable {observed : ReconciliationState} {target s : RunState}

theorem expectedResults_collected (h : target ∈ expectedResults observed) :
    ∃ o, collectedObservation target = some o := by
  cases observed <;> simp only [expectedResults, List.mem_cons, List.not_mem_nil, or_false] at h
  · exact ⟨.knownCompleted, by rw [h]; rfl⟩
  · rcases h with rfl | rfl | rfl | rfl <;> exact ⟨.knownFailed, rfl⟩
  · exact ⟨.knownCancelled, by rw [h]; rfl⟩

theorem active_collectedObservation (h : s.active = true) : collectedObservation s = none := by
  cases s <;> first | rfl | cases h

/-- The finalization of an active run commits exactly when the table admits the target. -/
theorem finalizeProviderJobResult_commits {db : Db} {runId : String} {run : RunRow} {result : WorkerResult}
    {lease : HeldLease} {clock : Clock} {task : TaskRow} (h : Recoverable db runId run observed result lease clock)
    (ht : db.tasks.get? run.taskId = some task) (detail : RunDetail) (release : WorkerRelease) :
    Ingests db runId result.state detail release lease clock ↔ runTransitions.allows run.state result.state = true := by
  obtain ⟨job, hjob, _, hlease⟩ := h.job
  obtain ⟨o, ho⟩ := expectedResults_collected h.accepted
  have hopen : collectedObservation run.state = none := active_collectedObservation h.active
  constructor
  · rintro ⟨db', hf⟩
    obtain ⟨o', _, run', _, ho', _, _, hr, _, _, hallow, _⟩ := finalizeProviderJobResult_ok hf
    rw [h.found] at hr
    obtain rfl := Option.some.inj hr
    rcases hallow with ⟨_, hallow⟩ | hsame | hwins
    · exact hallow
    · -- an active run is in no result state
      rw [hsame, ho] at hopen
      cases hopen
    · rw [cancellationWins, Bool.and_eq_true, decide_eq_true_eq] at hwins
      rw [hwins.1] at hopen
      cases hopen
  · intro hallow
    have hnew : (collectedObservation run.state).isNone = true := by rw [hopen]; rfl
    simp only [Ingests, finalizeProviderJobResult, bind_eq_ok, ensure_eq_ok, orRaise_eq_ok, fencedJob_ok, pure_eq_ok,
      Prod.mk.injEq]
    exact ⟨_, o, ho, job, ⟨hjob, hlease⟩, run, h.found, (), h.saved, task, ht, (), Or.inl hnew, (),
      Or.inr hallow, trivial,
      rfl⟩

theorem allows_accepted_iff (hs : s.active = true) (ht : target ∈ expectedResults observed) :
    runTransitions.allows s target = true ↔
      ¬ (s = .waiting ∧ target ∈ [RunState.timedOut, .authRequired, .rateLimited]) ∧
      ¬ (s = .starting ∧ target ∈ [RunState.completed, .timedOut]) := by
  obtain ⟨o, ho⟩ := expectedResults_collected ht
  cases s with
  | starting => cases target <;> first | decide | cases ho
  | running => cases target <;> first | decide | cases ho
  | waiting => cases target <;> first | decide | cases ho
  | _ => cases hs

/-- **Which results ingest.**  In every state reached by store operations, an accepted result of an active run with a
bound job, saved and under a live lease, is finalized, except that a WAITING run refuses TIMED_OUT, AUTH_REQUIRED and
RATE_LIMITED, and a STARTING run refuses COMPLETED and TIMED_OUT. -/
theorem recoverable_ingests_iff (dg : Digests) (ops : List StoreOp) (runId : String) (run : RunRow)
    (observed : ReconciliationState) (result : WorkerResult) (detail : RunDetail) (release : WorkerRelease)
    (lease : HeldLease) (clock : Clock)
    (h : Recoverable (runOps dg Db.initial ops) runId run observed result lease clock) :
    Ingests (runOps dg Db.initial ops) runId result.state detail release lease clock ↔
      ¬ (run.state = .waiting ∧ result.state ∈ [RunState.timedOut, .authRequired, .rateLimited]) ∧
      ¬ (run.state = .starting ∧ result.state ∈ [RunState.completed, .timedOut]) := by
  obtain ⟨task, ht⟩ := runOps_runsHaveTasks ops runId run h.found
  rw [finalizeProviderJobResult_commits h ht detail release]
  exact allows_accepted_iff h.active h.accepted

/-- An attempt that was launched and held, and is now reconciled under a second lease with its result saved. -/
def heldAttempt : List StoreOp :=
  [.createTask ⟨"t", "p", "#0001", .ready, .single, 0⟩,
   .upsertWorker "w" ⟨.idle, .available, none⟩,
   .claimTaskDispatch ⟨"t", ["w"], 1, none, some "A", 30000000, none, fun _ => "1", 0⟩,
   .prepareProviderJob "run-1" "http" "http-1" { supportsReconcile := true, supportsRepeatableCollect := true }
     ⟨"A", 1⟩ "1" ⟨0, 0⟩,
   .activateWorkerRun "run-1" (.held "A" 1) ⟨0, 0⟩,
   .markProviderJobLaunching "run-1" ⟨"A", 1⟩ ⟨0, 0⟩,
   .bindProviderJobHandle "run-1" "http" "http-1" ⟨1, some "job-1", none, none, none, none, "{}"⟩ ⟨"A", 1⟩ ⟨0, 0⟩,
   .recordProviderJobObservation "run-1" .providerUnreachable ⟨"A", 1⟩ ⟨0, 0⟩,
   .transitionWorkerRun "run-1" .waiting ⟨none, none, none, none, some .infrastructure⟩ (.held "A" 1) ⟨0, 0⟩,
   .transitionTask "t" .waiting none (.held "A" 1) ⟨0, 0⟩,
   .releaseTaskExecutionLease "t" "A" 1,
   .claimTaskReconciliation "t" "B" 30000000 false 0,
   .recordProviderJobObservation "run-1" .knownFailed ⟨"B", 2⟩ ⟨0, 0⟩,
   .saveWorkerResult "run-1" (resultValues "stopped") (.held "B" 2) 0]

/-- The run of that attempt. -/
def heldRun : RunRow :=
  ⟨"t", "w", .waiting, 1, none, none, some 1, 0, some 0, none, ⟨none, none, none, none, some .infrastructure⟩⟩

/-- The provider says that the job failed, and hands out a result in this state. -/
def failedResult (state : RunState) : WorkerResult := ⟨state, none, none, "stopped", none⟩

theorem heldAttempt_recoverable (state : RunState) (hs : state ∈ expectedResults .knownFailed) :
    Recoverable (runOps .trivial Db.initial heldAttempt) "run-1" heldRun .knownFailed (failedResult state) ⟨"B", 2⟩
      ⟨0, 0⟩ where
  found := by decide
  active := rfl
  job := ⟨_, rfl, Or.inl (by decide), by decide +kernel⟩
  saved := by decide
  accepted := hs

/-- A result that timed out is accepted by the collector and refused by the store. -/
theorem timedOut_result_refused :
    Recoverable (runOps .trivial Db.initial heldAttempt) "run-1" heldRun .knownFailed (failedResult .timedOut) ⟨"B", 2⟩
      ⟨0, 0⟩ ∧
    ¬ Ingests (runOps .trivial Db.initial heldAttempt) "run-1" .timedOut
      ⟨none, none, none, some "evidence", resultFailureClass .timedOut⟩ (workerRelease .timedOut none) ⟨"B", 2⟩
      ⟨0, 0⟩ := by
  have hrec := heldAttempt_recoverable .timedOut (by decide)
  obtain ⟨task, ht⟩ := runOps_runsHaveTasks heldAttempt "run-1" heldRun hrec.found
  refine ⟨hrec, fun hf => ?_⟩
  have hallow : runTransitions.allows .waiting .timedOut = true :=
    (finalizeProviderJobResult_commits hrec ht _ _).mp hf
  cases hallow

/-- A result that failed is ingested. -/
theorem failed_result_ingested :
    Ingests (runOps .trivial Db.initial heldAttempt) "run-1" .failed
      ⟨none, none, none, some "evidence", resultFailureClass .failed⟩ (workerRelease .failed none) ⟨"B", 2⟩ ⟨0, 0⟩ :=
  (recoverable_ingests_iff .trivial heldAttempt "run-1" heldRun .knownFailed (failedResult .failed) _ _ _ _
    (heldAttempt_recoverable .failed (by decide))).mpr (by decide)

end AgentFabric.Runtime
