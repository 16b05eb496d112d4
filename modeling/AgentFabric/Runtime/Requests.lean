import AgentFabric.Runtime.Footprint

/-!
# Every call of the runtime

The programs that `Footprint` leaves to their callers, for a discipline under which the runtime may make each of its
calls.
-/

namespace AgentFabric.Runtime

open AgentFabric.Lib AgentFabric.Store

/-- The calls that the runtime makes besides the ordinary ones, apart from audits and the interruption of a missing
job. -/
def Call.made : Call → Bool
  | .store (.transitionTask _ target _ _ _) => decide (target ≠ .cancelled)
  | .store (.finalizeProviderJobResult _ _ _ release _ _) => !release.state.busy
  | .store (.setWorkerState ..) | .store (.transitionWorkerRun ..) | .store (.bindProviderJobHandle ..)
  | .startJob .. | .execute .. | .create _ => true
  | _ => false

namespace Discipline

variable {K : {α : Type} → Program α → Prop} (hK : Discipline K) (hall : ∀ c : Call, c.made = true → K (ask c))
  (s : Supervisor)
include hK hall

omit hK in
theorem moves (taskId : String) (generation : Nat) : MayMove K s taskId generation :=
  fun _ _ h => hall _ (decide_eq_true h)

omit hK in
theorem finalizes (runId : String) (generation : Nat) : MayFinalize K s runId generation :=
  fun _ _ _ hfree => hall _ (by simp [Call.made, hfree])

theorem launch (a : Assignment) (kind : AdapterKind) (job : JobRow) : K (launch s a kind job) := by
  refine hK.bind (hK.store _ rfl) fun _ => ?_
  cases kind with
  | legacy => exact hK.bind (hall (.execute _ _) rfl) fun _ => hK.answered _
  | durable =>
    refine hK.bind (hall (.startJob _ _ _ _) rfl) fun _ => hK.bind (hK.answered _) fun handle => ?_
    have hrest : K (do
        let _ ← bindHandle s a.runId handle a.generation
        Runtime.answered (← ask (.resumeJob a.workerId handle.columns a.runId .launch))) :=
      hK.bind (hK.transact (hall _ rfl)) fun _ => hK.bind (hK.call (.resumeJob _ _ _ _) rfl) fun _ => hK.answered _
    split
    · exact hK.bind (hK.throw _) fun _ => hrest
    · exact hrest

theorem launchFailed (a : Assignment) (kind : AdapterKind) (error : Raised) : K (launchFailed s a kind error) := by
  unfold Runtime.launchFailed
  split
  · exact hK.bind (hK.transact (hall _ rfl)) fun _ => hK.bind (hK.account _) fun _ =>
      hK.bind (hK.transact (hall _ rfl)) fun _ => hK.bind (hK.account _) fun _ => hK.throw _
  · split
    · exact hK.persistWorkerResult s (finalizes hall s _ _) _
    · exact hK.holdAmbiguousProviderJob s a error (hK.bind (hK.transact (hall _ rfl)) fun _ =>
        hK.bind (hK.transact (hall _ rfl)) fun _ => hK.bind (hK.account _) fun _ => hK.pure _)

theorem executeWorker (a : Assignment) : K (executeWorker s a) := by
  refine hK.bind (hK.store _ rfl) fun activated => ?_
  split
  · refine hK.bind (hK.present _ _) fun kind => hK.bind (hK.getProviderJob _) fun job =>
      hK.bind (hK.attempt (hK.launch hall s a kind job)) fun r => ?_
    cases r with
    | ok => exact hK.persistWorkerResult s (finalizes hall s _ _) _
    | error error => exact hK.launchFailed hall s a kind error
  · exact hK.pure _

theorem cancelWorkerRun (runId : String) (run : RunRow) (generation : Option Nat) :
    K (cancelWorkerRun s runId run generation) :=
  hK.bind (hK.call .read rfl) fun _ => hK.cancelRead s (fun _ _ _ _ _ => finalizes hall s _ _) run

theorem claimAndStart (taskId : String) (task : TaskRow) (workerIds : List String) :
    K (claimAndStart s taskId task workerIds) := by
  refine hK.bind (hK.store _ rfl) fun claim => ?_
  split
  · refine hK.bind (hK.getTask _) fun current => ?_
    split
    · exact hK.deferDispatch s _ _ _
    · exact hK.pure _
  · exact hK.bind (hK.present _ _) fun _ => hK.bind (hK.prepareRuns s _ _) fun _ =>
      hK.bind (hall (.create _) rfl) fun _ => hK.pure _

theorem dispatchReady (taskIds : Option (List String)) (prior : String → String → Bool) :
    K (dispatchReady s taskIds prior) :=
  hK.bind (hK.call .read rfl) fun _ => hK.forM fun _ _ =>
    hK.dispatchTask s taskIds (fun _ _ h => hall _ (decide_eq_true h)) fun _ => hK.claimAndStart hall s _ _ _

theorem replayLaunch (j : RecoveredJob) (contract : Contract) (generation : Nat) :
    K (replayLaunch s j contract generation) := by
  unfold Runtime.replayLaunch
  split
  · exact hK.pure _
  refine hK.bind (hK.attempt (hK.bind (hall (.startJob _ _ _ _) rfl) fun _ => hK.bind (hK.answered _) fun handle => ?_))
    fun r => ?_
  · split
    · exact hK.bind (hK.throw _) fun _ => hK.transact (hall _ rfl)
    · exact hK.transact (hall _ rfl)
  · split <;> exact hK.pure _

theorem coroutineProgram (polls : Nat) (c : Coroutine) : K (coroutineProgram polls c) := by
  cases c with
  | executeTask s =>
    exact hK.executeTask s (moves hall s _ _) _ _ _ (hall (.create _) rfl)
  | executeWorker s assignment => exact hK.executeWorker hall s assignment
  | reattach s =>
    exact hK.reattachProviderTask s (moves hall s _ _) _ _ (hall (.create _) rfl)
  | resumeOne s => exact hK.resumeOne s (finalizes hall s _ _)

theorem runCoroutine (index polls : Nat) : K (runCoroutine index polls) := by
  refine hK.bind (hK.call (.begin _) rfl) fun coroutine => ?_
  cases coroutine with
  | none => exact hK.pure _
  | some coroutine =>
    refine hK.bind (hK.attempt (hK.coroutineProgram hall polls coroutine)) fun r => ?_
    split <;> exact hK.call (.finish _ _) rfl

/-! ### With every interruption of a missing job -/

variable (hi : ∀ runId lease clock, K (ask (.store (.interruptMissingProviderJob runId lease clock))))
include hi

theorem reconcileJob (alone : Bool) (generation : Nat) (j : RecoveredJob) (r : Reconciliation) :
    K (reconcileJob s alone generation j r) := by
  have hobserve : ∀ j' : RecoveredJob, ∀ contract, K (Runtime.observeJob s j' contract alone generation r) :=
    fun j' contract => hK.observeJob s (finalizes hall s _ _) (hi _ _ _) contract alone r
  unfold Runtime.reconcileJob
  split
  · exact hK.holdJob s _ _ _ _
  refine hK.bind (hK.call (.negotiate _) rfl) fun negotiated => ?_
  split
  · exact hK.holdJob s _ _ _ _
  refine hK.bind (hK.call (.contract _) rfl) fun contract => ?_
  split
  · exact hK.holdJob s _ _ _ _
  split
  · exact hobserve j contract
  refine hK.bind (hK.replayLaunch hall s j contract generation) fun replayed => ?_
  split
  · exact hobserve _ contract
  · exact hK.holdJob s _ _ _ _

theorem reconcileJobs (alone : Bool) (generation : Nat) : ∀ (js : List RecoveredJob) (r : Reconciliation),
    K (reconcileJobs s alone generation js r)
  | [], _ => hK.pure _
  | j :: js, r => hK.bind (hK.reconcileJob hall s hi alone generation j r) fun r => reconcileJobs alone generation js r

theorem reconcileClaimedProviderJobs (taskId : String) (jobs : List RecoveredJob) (generation : Nat) :
    K (reconcileClaimedProviderJobs s taskId jobs generation) := by
  have ht : MayMove K s taskId generation := moves hall s _ _
  refine hK.bind (hK.getTask _) fun _ => hK.bind (hK.reconcileJobs hall s hi _ _ jobs _) fun r => ?_
  split
  · exact hK.bind (hK.resumeTask s ht) fun _ => hK.bind (hall (.create _) rfl) fun _ => hK.pure _
  split
  · exact hK.bind (hK.resumeTask s ht) fun _ => hK.bind (hK.finishTaskAttempt s ht _) fun _ => hK.pure _
  split
  · exact hK.bind (hK.markTaskWaitingForReconciliation s _ _ _) fun _ => hK.pure _
  · exact hK.pure _

theorem recoverProviderJobs (taskId : String) (jobs : List RecoveredJob) : K (recoverProviderJobs s taskId jobs) := by
  refine hK.bind (hK.call (.isActive _) rfl) fun active => ?_
  split
  · exact hK.pure _
  refine hK.bind (hK.store _ rfl) fun claimed => ?_
  split
  · exact hK.pure _
  refine hK.bind (hK.attempt ?_) fun r => ?_
  · unfold reconcileUnowned
    split
    · exact hK.bind (hK.recoverCancelledProviderJobs s (fun _ _ => hK.cancelWorkerRun hall s _ _ _) _) fun _ =>
        hK.pure _
    · exact hK.reconcileClaimedProviderJobs hall s hi taskId jobs _
  · split
    · exact hK.pure _
    · exact hK.releaseLease s _ _
    · exact hK.bind (hK.releaseLease s _ _) fun _ => hK.throw _

theorem recover (taskIds : Option (List String)) : K (recover s taskIds) := by
  refine hK.bind (hK.call .read rfl) fun _ => hK.bind (hK.forM fun _ _ => hK.repairFinalizedProviderAttempt s taskIds
    fun _ => moves hall s _ _) fun _ => hK.bind (hK.bind (hK.call .reconcilableJobs rfl) fun _ => hK.forM fun _ _ =>
    hK.recoverProviderJobs hall s hi _ _) fun _ => ?_
  exact hK.bind (hK.store _ rfl) fun _ => hK.bind (hK.call .read rfl) fun _ =>
    hK.bind (hK.forM fun _ _ => hK.bind (hK.account _) fun _ => hK.pure _) fun _ => hK.bind (hK.call .read rfl) fun _ =>
    hK.bind (hK.forM fun _ _ => hK.requeueInterrupted s taskIds fun _ h => hall _ (decide_eq_true h)) fun _ =>
    hK.auditPendingTerminalTasks taskIds

omit s in
theorem handle {admitted : StoreOp → Bool} (hclient : ∀ op, admitted op = true → K (ask (.store op)))
    (request : Request) : K (handle admitted request) := by
  cases request with
  | dispatch s taskIds prior => exact hK.dispatchReady hall s taskIds prior
  | recover s taskIds => exact hK.recover hall s hi taskIds
  | cancel s taskId =>
    exact hK.bind (hK.cancelTask s (fun _ _ _ => hK.cancelWorkerRun hall s _ _ _) taskId) fun _ => hK.pure _
  | coroutine index polls => exact hK.runCoroutine hall index polls
  | audit taskId => exact hK.auditTask taskId
  | auditPending taskIds => exact hK.auditPendingTerminalTasks taskIds
  | client op =>
    show K (if admitted op then _ else _)
    split
    · rename_i hop
      exact hK.bind (hK.transact (hclient op hop)) fun _ => hK.pure _
    · exact hK.pure _

end Discipline

/-! ## The calls of a program -/

section

variable {P : Call → Prop} (hord : ∀ c : Call, c.ordinary = true → P c) (hmade : ∀ c : Call, c.made = true → P c)
  (haudit : ∀ key audit, P (.recordAudit key audit)) (s : Supervisor)

theorem obeying (hord : ∀ c : Call, c.ordinary = true → P c) (haudit : ∀ key audit, P (.recordAudit key audit)) :
    Discipline fun p => Prog.Obeys P p :=
  .of_calls (fun x => .result x) .bind .attempt (fun c h => .ask (hord c h)) fun _ _ => .ask (haudit _ _)

include hord hmade haudit

variable {generation : Nat}

theorem reconcileJob_obeys {j : RecoveredJob}
    (hi : P (.store (.interruptMissingProviderJob j.runId (held s generation) unstamped))) (alone : Bool)
    (r : Reconciliation) : Prog.Obeys P (reconcileJob s alone generation j r) := by
  have hK := obeying hord haudit
  have hobserve : ∀ j' : RecoveredJob, j'.runId = j.runId → ∀ contract,
      Prog.Obeys P (observeJob s j' contract alone generation r) := by
    intro j' hrun contract
    refine hK.observeJob s (Discipline.finalizes (fun c hc => .ask (hmade c hc)) s _ _) (.ask ?_) contract alone r
    rw [hrun]
    exact hi
  unfold reconcileJob
  split
  · exact hK.holdJob s _ _ _ _
  refine .bind (.ask (hord _ rfl)) fun negotiated => ?_
  split
  · exact hK.holdJob s _ _ _ _
  refine .bind (.ask (hord _ rfl)) fun contract => ?_
  split
  · exact hK.holdJob s _ _ _ _
  split
  · exact hobserve j rfl contract
  refine .bind_yields (hK.replayLaunch (fun c hc => .ask (hmade c hc)) s j contract generation)
    (replayLaunch_runId s j contract generation) fun replayed hrun => ?_
  split
  · exact hobserve _ (hrun _ rfl) contract
  · exact hK.holdJob s _ _ _ _

theorem reconcileJobs_obeys {generation : Nat} (alone : Bool) : ∀ (js : List RecoveredJob) (r : Reconciliation),
    (∀ j ∈ js, P (.store (.interruptMissingProviderJob j.runId (held s generation) unstamped))) →
      Prog.Obeys P (reconcileJobs s alone generation js r)
  | [], _, _ => .pure _
  | j :: js, r, hi => .bind (reconcileJob_obeys hord hmade haudit s (hi j List.mem_cons_self) alone r) fun r =>
      reconcileJobs_obeys alone js r fun k hk => hi k (List.mem_cons_of_mem j hk)

variable {jobs : List RecoveredJob}

theorem reconcileClaimedProviderJobs_obeys (taskId : String)
    (hi : ∀ j ∈ jobs, P (.store (.interruptMissingProviderJob j.runId (held s generation) unstamped))) :
    Prog.Obeys P (reconcileClaimedProviderJobs s taskId jobs generation) := by
  have hK := obeying hord haudit
  have ht : MayMove (fun p => Prog.Obeys P p) s taskId generation := fun _ _ h => .ask (hmade _ (decide_eq_true h))
  refine .bind (hK.getTask _) fun _ => .bind (reconcileJobs_obeys hord hmade haudit s _ jobs _ hi) fun r => ?_
  split
  · exact .bind (hK.resumeTask s ht) fun _ => .bind (.ask (hmade _ rfl)) fun _ => .pure _
  split
  · exact .bind (hK.resumeTask s ht) fun _ => .bind (hK.finishTaskAttempt s ht _) fun _ => .pure _
  split
  · exact .bind (hK.markTaskWaitingForReconciliation s _ _ _) fun _ => .pure _
  · exact .pure _

theorem reconcileUnowned_obeys (taskId : String)
    (hi : ∀ j ∈ jobs, P (.store (.interruptMissingProviderJob j.runId (held s generation) unstamped)))
    (cancelled : Bool) : Prog.Obeys P (reconcileUnowned s taskId jobs generation cancelled) := by
  have hK := obeying hord haudit
  unfold reconcileUnowned
  split
  · exact .bind (hK.recoverCancelledProviderJobs s (fun _ _ =>
      hK.cancelWorkerRun (fun c hc => .ask (hmade c hc)) s _ _ _) _) fun _ => .pure _
  · exact reconcileClaimedProviderJobs_obeys hord hmade haudit s taskId hi

theorem recoverClaimed_obeys (taskId : String)
    (hi : ∀ j ∈ jobs, P (.store (.interruptMissingProviderJob j.runId (held s generation) unstamped)))
    (cancelled : Bool) : Prog.Obeys P (do
      match ← Prog.attempt (reconcileUnowned s taskId jobs generation cancelled) with
      | .ok true => return
      | .ok false => releaseLease s taskId generation
      | .error error =>
        releaseLease s taskId generation
        throw error) := by
  have hK := obeying hord haudit
  refine .bind (.attempt (reconcileUnowned_obeys hord hmade haudit s taskId hi cancelled)) fun r => ?_
  split
  · exact .pure _
  · exact hK.releaseLease s _ _
  · exact .bind (hK.releaseLease s _ _) fun _ => .throw _

theorem recoverRest_obeys (taskIds : Option (List String)) : Prog.Obeys P (do
    let _ ← store (.recoverInterrupted taskIds 0)
    let interrupted := (← ask .read).runs.rows.filter fun e =>
      decide (e.2.state = .interrupted) && inScope taskIds e.2.taskId
    interrupted.forM fun e => do let _ ← account e.1
    (← ask .read).tasks.rows.forM (requeueInterrupted s taskIds)
    auditPendingTerminalTasks taskIds) := by
  have hK := obeying hord haudit
  exact .bind (hK.store _ rfl) fun _ => .bind (.ask (hord _ rfl)) fun _ =>
    .bind (.forM fun _ _ => .bind (hK.account _) fun _ => .pure _) fun _ => .bind (.ask (hord _ rfl)) fun _ =>
    .bind (.forM fun _ _ => hK.requeueInterrupted s taskIds fun _ h => .ask (hmade _ (decide_eq_true h))) fun _ =>
    hK.auditPendingTerminalTasks taskIds

theorem repairs_obey (taskIds : Option (List String)) (tasks : List (String × TaskRow)) :
    Prog.Obeys P (tasks.forM (repairFinalizedProviderAttempt s taskIds)) :=
  .forM fun _ _ => (obeying hord haudit).repairFinalizedProviderAttempt s taskIds fun _ _ _ h =>
    .ask (hmade _ (decide_eq_true h))

/-- Every call of every request is an ordinary one, one that the runtime makes, the interruption of a missing job, or an
admitted operation of a client. -/
theorem handle_obeys (hi : ∀ runId lease clock, P (.store (.interruptMissingProviderJob runId lease clock)))
    {admitted : StoreOp → Bool} (hclient : ∀ op, admitted op = true → P (.store op)) (request : Request) :
    Prog.Obeys P (handle admitted request) :=
  (obeying hord haudit).handle (fun c hc => .ask (hmade c hc)) (fun _ _ _ => .ask (hi _ _ _))
    (fun op hop => .ask (hclient op hop)) request

end

end AgentFabric.Runtime
