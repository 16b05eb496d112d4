import AgentFabric.Runtime.Dispatch

/-!
# What the programs of the runtime are made of

A property of programs that sequencing keeps and every ordinary call has is a property of every program, as soon as the
few calls of the program that are not ordinary have it.
-/

namespace AgentFabric.Runtime

open AgentFabric.Lib AgentFabric.Store

/-- The other operations end or park work on the word of the caller. -/
def ordinaryOp : StoreOp → Bool
  | .transitionTask _ target _ _ _ => decide (target = .waiting)
  | .setWorkerState _ state _ _ _ _ => decide (state = .waiting)
  | .transitionWorkerRun _ target _ _ _ => decide (target = .waiting)
  | .claimTaskDispatch args => args.leaseOwnerId.isSome
  | .upsertWorker .. | .claimWorkers .. | .createWorkerRun .. | .bindProviderJobHandle ..
  | .markProviderJobResultCollected .. | .finalizeProviderJobResult .. | .interruptMissingProviderJob .. => false
  | _ => true

/-- The calls that need no argument of their own: queries, bookkeeping, and the transactions that check in the store
whatever they rely on. -/
def Call.ordinary : Call → Bool
  | .store op => ordinaryOp op
  | .startJob .. | .execute .. | .create _ | .recordAudit .. => false
  | _ => true

/-- A property of programs that sequencing keeps and every ordinary call has.  Whoever has read a row may audit it. -/
structure Discipline (K : {α : Type} → Program α → Prop) : Prop where
  result : ∀ {α : Type} (x : Except Raised α), K (Prog.result x : Program α)
  bind : ∀ {α β : Type} {p : Program α} {f : α → Program β}, K p → (∀ a, K (f a)) → K (p >>= f)
  attempt : ∀ {α : Type} {p : Program α}, K p → K (Prog.attempt p)
  ordinary : ∀ c : Call, c.ordinary = true → K (ask c)
  audited : ∀ {α : Type} {f : Db → Program α}, (∀ db : Db, (∀ taskId row, db.tasks.get? taskId = some row →
    K (auditTaskTerminal taskId row)) → K (f db)) → K (ask .read >>= f)

def MayMove (K : {α : Type} → Program α → Prop) (s : Supervisor) (taskId : String) (generation : Nat) : Prop :=
  ∀ target version, target ≠ .cancelled →
    K (ask (.store (.transitionTask taskId target version (leaseArgs s generation) unstamped)))

/-- The run may be finalized under the lease, and its worker given back. -/
def MayFinalize (K : {α : Type} → Program α → Prop) (s : Supervisor) (runId : String) (generation : Nat) : Prop :=
  ∀ target detail release, release.state.busy = false →
    K (ask (.store (.finalizeProviderJobResult runId target detail release (held s generation) unstamped)))

theorem workerRelease_free (state : RunState) (modelId : Option String) :
    (workerRelease state modelId).state.busy = false := by
  unfold workerRelease
  dsimp only
  split <;> rfl

namespace Discipline

/-- A discipline under which every audit is allowed. -/
theorem of_calls {K : {α : Type} → Program α → Prop}
    (result : ∀ {α : Type} (x : Except Raised α), K (Prog.result x : Program α))
    (bind : ∀ {α β : Type} {p : Program α} {f : α → Program β}, K p → (∀ a, K (f a)) → K (p >>= f))
    (attempt : ∀ {α : Type} {p : Program α}, K p → K (Prog.attempt p))
    (ordinary : ∀ c : Call, c.ordinary = true → K (ask c))
    (record : ∀ key audit, K (ask (.recordAudit key audit))) : Discipline K where
  result := result
  bind := bind
  attempt := attempt
  ordinary := ordinary
  audited hf := bind (ordinary .read rfl) fun db => hf db fun taskId row _ => by
    unfold auditTaskTerminal
    split
    · exact result _
    refine bind (ordinary (.auditByKey _) rfl) fun found => ?_
    split
    · exact result _
    · exact bind (ordinary (.observeUsage _) rfl) fun _ => bind (record _ _) fun _ => result _

variable {K : {α : Type} → Program α → Prop} (hK : Discipline K) {α : Type}
include hK

theorem pure (a : α) : K (Pure.pure a : Program α) := hK.result (.ok a)

theorem throw (e : Raised) : K (MonadExcept.throw e : Program α) := hK.result (.error e)

theorem call (c : Call) (h : c.ordinary = true) : K (ask c) := hK.ordinary c h

/-- A transaction that is allowed, with what it raises. -/
theorem transact {op : StoreOp} (h : K (ask (.store op))) : K (store op) := hK.bind h fun _ => hK.result _

theorem store (op : StoreOp) (h : ordinaryOp op = true) : K (store op) := hK.transact (hK.ordinary _ h)

theorem present (x : Option α) (key : String) : K (present x key) := hK.result _

theorem answered (x : Except AdapterError α) : K (answered x) := hK.result _

theorem getTask (taskId : String) : K (getTask taskId) := hK.bind (hK.call .read rfl) fun _ => hK.result _

theorem getProviderJob (runId : String) : K (getProviderJob runId) := hK.bind (hK.call .read rfl) fun _ => hK.result _

theorem listWorkerRuns (taskId : String) : K (listWorkerRuns taskId) := hK.bind (hK.call .read rfl) fun _ => hK.pure _

theorem account (runId : String) : K (account runId) := hK.bind (hK.call (.account runId) rfl) fun _ => hK.result _

/-- Whoever has read a task may audit it. -/
theorem auditedTask {f : TaskRow → Program α} (taskId : String)
    (hf : ∀ row, K (auditTaskTerminal taskId row) → K (f row)) : K (Runtime.getTask taskId >>= f) := by
  refine hK.audited (f := fun db => Runtime.present (db.tasks.get? taskId) taskId >>= f) fun db hdb => ?_
  cases ht : db.tasks.get? taskId with
  | none => exact hK.result (.error (.keyError taskId))
  | some row => exact hf row (hdb taskId row ht)

theorem auditTask (taskId : String) : K (auditTask taskId) := hK.auditedTask taskId fun _ h => h

theorem ensuring {p : Program α} {q : Program Unit} (hp : K p) (hq : K q) : K (ensuring p q) :=
  hK.bind (hK.attempt hp) fun _ => hK.bind hq fun _ => hK.result _

/-- What is allowed for each element is allowed for the list. -/
theorem forM {f : α → Program PUnit} : ∀ {l : List α}, (∀ a ∈ l, K (f a)) → K (l.forM f)
  | [], _ => hK.pure _
  | a :: _, hf => hK.bind (hf a List.mem_cons_self) fun _ => forM fun b hb => hf b (List.mem_cons_of_mem a hb)

theorem auditPendingTerminalTasks (taskIds : Option (List String)) : K (auditPendingTerminalTasks taskIds) := by
  refine hK.audited fun db hdb => hK.forM fun task hmem => ?_
  split
  · exact hdb task.1 task.2 (Table.mem_rows.mp hmem)
  · exact hK.pure _

theorem optionM {f : α → Program PUnit} (o : Option α) (hf : ∀ a ∈ o, K (f a)) : K (o.forM f) := by
  cases o with
  | none => exact hK.pure _
  | some a => exact hf a rfl

/-- Coroutines may be polled until they are done. -/
theorem awaitAll (indices : List Nat) : ∀ polls, K (awaitAll indices polls)
  | 0 => hK.throw _
  | polls + 1 => by
    refine hK.bind (hK.call (.gathered indices) rfl) fun raised => ?_
    split
    · exact hK.pure _
    · exact awaitAll indices polls

theorem gather (coroutines : List Coroutine) (polls : Nat) (hc : K (ask (.create coroutines))) :
    K (gather coroutines polls) := hK.bind hc fun _ => hK.awaitAll _ _

variable (s : Supervisor)

/-! ## Execution -/

theorem releaseLease (taskId : String) (generation : Nat) : K (releaseLease s taskId generation) :=
  hK.bind (hK.store _ rfl) fun _ => hK.pure _

variable {taskId runId : String} {generation : Nat}

theorem transitionTask (ht : MayMove K s taskId generation) {target : TaskState} (h : target ≠ .cancelled) :
    K (transitionTask s taskId target generation) := hK.transact (ht target none h)

/-- A result may be persisted if the run may be finalized. -/
theorem persistWorkerResult (hf : MayFinalize K s runId generation) (result : WorkerResult) :
    K (persistWorkerResult s runId generation result) :=
  hK.bind (hK.account _) fun _ => hK.bind (hK.store _ rfl) fun _ => hK.bind (hK.account _) fun _ =>
    hK.transact (hf _ _ _ (workerRelease_free _ _))

/-- A job may be held, if the run of a cancelled task may be ended. -/
theorem holdAmbiguousProviderJob (a : Assignment) (error : Raised)
    (hc : K (do
      Runtime.store (.transitionWorkerRun a.runId .cancelled ⟨none, none, none, none, some .cancelled⟩
        (leaseArgs s a.generation) unstamped)
      Runtime.store (.setWorkerState a.workerId .idle none none ⟨some a.taskId, leaseArgs s a.generation⟩ unstamped)
      let _ ← Runtime.account a.runId)) : K (holdAmbiguousProviderJob s a error) := by
  refine hK.bind (hK.getProviderJob _) fun job => hK.bind (hK.store _ rfl) fun _ => hK.bind (hK.store _ rfl) fun _ =>
    hK.bind (hK.getTask _) fun task => ?_
  split
  · exact hc
  · refine hK.bind (hK.store _ rfl) fun _ => hK.bind (hK.store _ rfl) fun _ => hK.bind (hK.getTask _) fun task => ?_
    split
    · exact hK.store _ rfl
    · exact hK.pure _

/-- An attempt may be finished if its task may be moved. -/
theorem finishTaskAttempt (ht : MayMove K s taskId generation) (attempt : Nat) :
    K (finishTaskAttempt s taskId attempt generation) := by
  refine hK.bind (hK.call (.leaseIsCurrent _ _ _) rfl) fun current => ?_
  split
  · exact hK.pure _
  refine hK.bind (hK.getTask _) fun task => ?_
  split
  · exact hK.pure _
  refine hK.bind (hK.listWorkerRuns _) fun runs => ?_
  dsimp only
  split
  · exact hK.transitionTask s ht (fun h => nomatch h)
  refine hK.bind (hK.transitionTask s ht fun h => nomatch h) fun _ => hK.bind (hK.getTask _) fun waiting => ?_
  split
  · exact hK.transitionTask s ht (fun h => nomatch h)
  · exact hK.bind (hK.transact (ht _ _ fun h => nomatch h)) fun _ => hK.auditTask _

/-- An attempt may be executed if its task may be moved and its coroutines created. -/
theorem executeTask (ht : MayMove K s taskId generation) (attempt : Nat) (assignments : List Assignment) (polls : Nat)
    (hc : K (ask (.create (assignments.map (Coroutine.executeWorker s))))) :
    K (executeTask s taskId attempt generation assignments polls) :=
  hK.ensuring (hK.bind (hK.gather _ _ hc) fun _ => hK.finishTaskAttempt s ht attempt) (hK.releaseLease s _ _)

/-! ## Cancellation -/

theorem escalate (runId : String) (code : EscalationCode) (generation : Nat) : K (escalate s runId code generation) :=
  hK.bind (hK.store _ rfl) fun _ => hK.pure _

theorem resolveEscalations (runId : String) (codes : Option (List EscalationCode)) (generation : Nat) :
    K (resolveEscalations s runId codes generation) := hK.bind (hK.store _ rfl) fun _ => hK.pure _

theorem observe (workerId runId : String) (handle : JobHandle) : K (observe workerId runId handle) := by
  refine hK.bind (hK.call (.reconcileJob _ _ _) rfl) fun r => ?_
  split <;> exact hK.pure _

/-- A result may be collected if the run may be finalized. -/
theorem collectResult (hf : MayFinalize K s runId generation) (workerId : String) (handle : JobHandle)
    (observed : ReconciliationState) :
    K (collectResult s workerId runId handle observed generation) := by
  refine hK.bind (hK.call (.collectJob _ _ _) rfl) fun r => hK.bind (hK.answered _) fun result =>
    hK.bind ?_ fun _ => hK.persistWorkerResult s hf _
  unfold validateCollectedResult
  split
  · exact hK.pure _
  · exact hK.throw _

/-- So may a cancelled run be reconciled. -/
theorem reconcileCancelledProviderRun {job : JobRow}
    (hf : job.capabilities.supportsReconcile = true → MayFinalize K s runId generation) (workerId : String) :
    K (reconcileCancelledProviderRun s runId workerId job generation) := by
  unfold Runtime.reconcileCancelledProviderRun
  split
  · exact hK.escalate s _ _ _
  rename_i hr
  refine hK.bind (hK.observe _ _ _) fun state => hK.bind (hK.store _ rfl) fun _ => ?_
  split
  · split
    · exact hK.escalate s _ _ _
    · exact hK.collectResult s (hf (by simpa using hr)) _ _ _
  split
  · exact hK.pure _
  split <;> exact hK.escalate s _ _ _

theorem cancelDurableJob {job : JobRow} {generation : Option Nat}
    (hf : ∀ g ∈ generation, job.capabilities.supportsReconcile = true → MayFinalize K s runId g) (workerId : String) :
    K (cancelDurableJob s runId workerId job generation) := by
  refine hK.bind (hK.call (.contract _) rfl) fun contract => ?_
  split
  · exact hK.throw _
  split
  · exact hK.bind (hK.optionM _ fun _ _ => hK.escalate s _ _ _) fun _ => hK.pure _
  · refine hK.bind ?_ fun accepted =>
      hK.bind (hK.optionM _ fun g hg => hK.reconcileCancelledProviderRun s (hf g hg) _) fun _ => hK.pure _
    unfold cancelJobIfSupported
    split
    · exact hK.bind (hK.call (.cancelJob _ _ _) rfl) fun _ => hK.answered _
    · exact hK.pure _

theorem requestCancellation {job : Option JobRow} {generation : Option Nat}
    (hf : ∀ j ∈ job, ∀ g ∈ generation, j.capabilities.supportsReconcile = true → MayFinalize K s runId g)
    (workerId : String) (kind : AdapterKind) : K (requestCancellation s runId workerId job kind generation) := by
  unfold Runtime.requestCancellation
  split
  · exact hK.bind (hK.call (.negotiate _) rfl) fun _ => hK.bind (hK.answered _) fun _ =>
      hK.cancelDurableJob s (hf _ rfl) _
  · exact hK.bind (hK.call (.negotiate _) rfl) fun _ => hK.bind (hK.answered _) fun _ =>
      hK.bind (hK.call (.cancel _ _) rfl) fun _ => hK.answered _
  · exact hK.bind (hK.call (.cancel _ _) rfl) fun _ => hK.answered _

theorem cancellationUnconfirmed (runId : String) (job : Option JobRow) (generation : Option Nat) :
    K (cancellationUnconfirmed s runId job generation) := by
  refine hK.bind (hK.account _) fun _ => ?_
  split
  · exact hK.bind (hK.optionM _ fun _ _ => hK.escalate s _ _ _) fun _ => hK.pure _
  · exact hK.pure _

theorem cancelRead {job : Option JobRow} {generation : Option Nat}
    (hf : ∀ j ∈ job, ∀ g ∈ generation, j.capabilities.supportsReconcile = true → MayFinalize K s runId g)
    (run : RunRow) : K (match s.adapters run.workerId with
      | none => Runtime.cancellationUnconfirmed s runId job generation
      | some kind => do
        match ← Prog.attempt (Runtime.requestCancellation s runId run.workerId job kind generation) with
        | .ok accepted => return accepted
        | .error _ => Runtime.cancellationUnconfirmed s runId job generation) := by
  split
  · exact hK.cancellationUnconfirmed s _ _ _
  · refine hK.bind (hK.attempt (hK.requestCancellation s hf _ _)) fun r => ?_
    split
    · exact hK.pure _
    · exact hK.cancellationUnconfirmed s _ _ _

/-- Runs may be cancelled if each of them may. -/
theorem cancelWorkerRuns {generation : Option Nat} (hr : ∀ runId run, K (cancelWorkerRun s runId run generation)) :
    ∀ runs : List (String × RunRow), K (cancelWorkerRuns s generation runs)
  | [] => hK.pure _
  | (_, _) :: rest => hK.bind (hr _ _) fun _ => hK.bind (cancelWorkerRuns hr rest) fun _ => hK.pure _

theorem cancelActiveRuns (hr : ∀ runId run generation, K (cancelWorkerRun s runId run generation)) (taskId : String)
    (runs : List (String × RunRow)) : K (cancelActiveRuns s taskId runs) := by
  unfold Runtime.cancelActiveRuns
  split
  · exact hK.pure _
  · exact hK.bind (hK.store _ rfl) fun generation => hK.ensuring (hK.cancelWorkerRuns s (fun _ _ => hr _ _ _) _)
      (hK.optionM _ fun _ _ => hK.releaseLease s _ _)

/-- A task may be cancelled if its runs may. -/
theorem cancelTask (hr : ∀ runId run generation, K (cancelWorkerRun s runId run generation)) (taskId : String) :
    K (cancelTask s taskId) := by
  refine hK.bind (hK.listWorkerRuns _) fun runs => hK.bind (hK.store _ rfl) fun requested =>
    hK.bind (hK.cancelActiveRuns s hr taskId _) fun reached => hK.auditedTask taskId fun task ha =>
    hK.bind (hK.forM fun _ _ => hK.bind (hK.account _) fun _ => hK.pure _) fun _ => ?_
  dsimp only
  split
  · exact hK.bind ha fun _ => hK.pure _
  · exact hK.pure _

theorem recoverCancelledProviderJobs (hr : ∀ runId run, K (cancelWorkerRun s runId run (some generation))) :
    ∀ jobs : List RecoveredJob, K (recoverCancelledProviderJobs s generation jobs)
  | [] => hK.pure _
  | _ :: js => hK.bind (hK.call .read rfl) fun _ => hK.bind (hK.present _ _) fun _ => hK.bind (hr _ _) fun _ =>
      recoverCancelledProviderJobs hr js

/-! ## Repair -/

theorem readJobs : ∀ runIds : List String, K (readJobs runIds)
  | [] => hK.pure _
  | _ :: rest => by
    refine hK.bind (hK.call .read rfl) fun db => ?_
    split
    · exact hK.pure _
    · exact hK.bind (readJobs rest) fun _ => hK.pure _

theorem finalizedAttempt (taskId : String) : K (finalizedAttempt taskId) := by
  refine hK.bind (hK.listWorkerRuns _) fun runs => ?_
  dsimp only
  split
  · exact hK.pure _
  split
  · exact hK.pure _
  refine hK.bind (hK.readJobs _) fun jobs => ?_
  split
  · exact hK.pure _
  split
  · exact hK.pure _
  refine hK.bind (hK.call .read rfl) fun db => ?_
  split <;> exact hK.pure _

theorem resumeTask (ht : MayMove K s taskId generation) :
    K (resumeTask s taskId generation) := by
  refine hK.bind (hK.getTask _) fun task => ?_
  split
  · exact hK.transitionTask s ht (fun h => nomatch h)
  · exact hK.pure _

variable {task : String × TaskRow}

/-- An attempt may be repaired if its task may be moved. -/
theorem repairFinalizedProviderAttempt (taskIds : Option (List String))
    (ht : ∀ generation, MayMove K s task.1 generation) : K (repairFinalizedProviderAttempt s taskIds task) := by
  unfold Runtime.repairFinalizedProviderAttempt
  split
  · exact hK.pure _
  refine hK.bind (hK.call (.isActive _) rfl) fun active => ?_
  split
  · exact hK.pure _
  refine hK.bind (hK.finalizedAttempt _) fun found => ?_
  split
  · exact hK.pure _
  refine hK.bind (hK.store _ rfl) fun claimed => ?_
  split
  · exact hK.pure _
  · exact hK.ensuring (hK.bind (hK.resumeTask s (ht _)) fun _ =>
      hK.bind (hK.forM fun runId _ => hK.resolveEscalations s runId none _) fun _ => hK.finishTaskAttempt s (ht _) _)
      (hK.releaseLease s _ _)

/-! ## Reconciliation -/

theorem holdJob (runId : String) (code : EscalationCode) (generation : Nat) (r : Reconciliation) :
    K (holdJob s runId code generation r) := hK.bind (hK.escalate s _ _ _) fun _ => hK.pure _

theorem attachJob (j : RecoveredJob) (contract : Contract) (generation : Nat) (r : Reconciliation) :
    K (attachJob s j contract generation r) := by
  refine hK.bind (hK.resolveEscalations s _ _ _) fun _ => ?_
  split
  · exact hK.holdJob s _ _ _ _
  · exact hK.bind (hK.resolveEscalations s _ _ _) fun _ => hK.pure _

variable {j : RecoveredJob}

theorem collectJob (hf : MayFinalize K s j.runId generation) (observed : ReconciliationState) (r : Reconciliation) :
    K (collectJob s j observed generation r) := by
  unfold Runtime.collectJob
  split
  · exact hK.holdJob s _ _ _ _
  refine hK.bind (hK.attempt (hK.collectResult s hf _ _ _)) fun collected => ?_
  split
  · exact hK.bind (hK.resolveEscalations s _ _ _) fun _ => hK.pure _
  · exact hK.holdJob s _ _ _ _

theorem missingJob (hi : K (ask (.store (.interruptMissingProviderJob j.runId (held s generation) unstamped))))
    (alone : Bool) (r : Reconciliation) : K (missingJob s j alone generation r) := by
  unfold Runtime.missingJob
  split
  · exact hK.holdJob s _ _ _ _
  · exact hK.bind (hK.resolveEscalations s _ _ _) fun _ => hK.bind (hK.transact hi) fun _ => hK.pure _

/-- A job may be settled if its run may be finalized and interrupted. -/
theorem settleJob (hf : MayFinalize K s j.runId generation)
    (hi : K (ask (.store (.interruptMissingProviderJob j.runId (held s generation) unstamped)))) (contract : Contract)
    (observed : ReconciliationState) (alone : Bool) (r : Reconciliation) :
    K (settleJob s j contract observed alone generation r) := by
  cases observed with
  | knownRunning => exact hK.attachJob s j contract generation r
  | knownCompleted => exact hK.collectJob s hf _ r
  | knownFailed => exact hK.collectJob s hf _ r
  | knownCancelled => exact hK.collectJob s hf _ r
  | providerNotFound => exact hK.missingJob s hi alone r
  | providerUnreachable => exact hK.holdJob s _ _ _ _
  | unknown => exact hK.holdJob s _ _ _ _

theorem observeJob (hf : MayFinalize K s j.runId generation)
    (hi : K (ask (.store (.interruptMissingProviderJob j.runId (held s generation) unstamped)))) (contract : Contract)
    (alone : Bool) (r : Reconciliation) : K (observeJob s j contract alone generation r) :=
  hK.bind (hK.observe _ _ _) fun _ => hK.bind (hK.store _ rfl) fun _ => hK.settleJob s hf hi _ _ _ _

theorem parkWorkers (taskId : String) (generation : Nat) (runs : List (String × RunRow)) :
    ∀ jobs : List RecoveredJob, K (parkWorkers s taskId generation runs jobs)
  | [] => hK.pure _
  | _ :: js => by
    unfold Runtime.parkWorkers
    split
    · exact hK.bind (hK.store _ rfl) fun _ => parkWorkers taskId generation runs js
    · exact parkWorkers taskId generation runs js

theorem markTaskWaitingForReconciliation (taskId : String) (generation : Nat) (jobs : List RecoveredJob) :
    K (markTaskWaitingForReconciliation s taskId generation jobs) := by
  refine hK.bind (hK.listWorkerRuns _) fun runs => hK.bind (hK.parkWorkers s _ _ _ _) fun _ =>
    hK.bind (hK.getTask _) fun task => ?_
  split
  · exact hK.store _ rfl
  · exact hK.pure _

theorem resumeOne (hf : MayFinalize K s j.runId generation) :
    K (resumeOne s generation j) := by
  refine hK.bind (hK.call (.resumeJob _ _ _ _) rfl) fun r => ?_
  split
  · exact hK.persistWorkerResult s hf _
  · exact hK.bind (hK.store _ rfl) fun _ => hK.bind (hK.escalate s _ _ _) fun _ => hK.throw _

theorem reattachProviderTask (ht : MayMove K s taskId generation) {jobs : List RecoveredJob} (finalize : Bool)
    (polls : Nat) (hc : K (ask (.create (jobs.map (Coroutine.resumeOne s taskId generation))))) :
    K (reattachProviderTask s taskId generation jobs finalize polls) := by
  refine hK.ensuring (hK.bind (hK.gather _ _ hc) fun raised => ?_) (hK.releaseLease s _ _)
  split
  · exact hK.finishTaskAttempt s ht _
  · exact hK.markTaskWaitingForReconciliation s _ _ _

theorem requeueInterrupted (taskIds : Option (List String))
    (ht : ∀ target, target ≠ .cancelled → K (ask (.store (.transitionTask task.1 target none .absent unstamped)))) :
    K (requeueInterrupted s taskIds task) := by
  unfold Runtime.requeueInterrupted
  split
  · split
    · exact hK.bind (hK.transact (ht _ fun h => nomatch h)) fun _ => hK.auditTask _
    · exact hK.transact (ht _ fun h => nomatch h)
  · exact hK.pure _

/-! ## Dispatch -/

theorem negotiateContracts : ∀ workerIds : List String, K (negotiateContracts s workerIds)
  | [] => hK.pure _
  | _ :: rest => by
    refine hK.bind (hK.present _ _) fun _ => hK.bind (hK.call (.negotiate _) rfl) fun r => ?_
    split
    · exact negotiateContracts rest
    · exact negotiateContracts rest
    · exact hK.pure _

theorem prepareRuns (generation : Nat) : ∀ runIds : List (String × String), K (prepareRuns s generation runIds)
  | [] => hK.pure _
  | (_, _) :: rest => hK.bind (hK.present _ _) fun _ => hK.bind (hK.call (.contract _) rfl) fun _ =>
      hK.bind (hK.store _ rfl) fun _ => prepareRuns generation rest

theorem deferDispatch (taskId reason detail : String) : K (deferDispatch s taskId reason detail) :=
  hK.bind (hK.store _ rfl) fun _ => hK.pure _

theorem dispatchTask (taskIds : Option (List String)) (ht : ∀ target version, target ≠ .cancelled →
      K (ask (.store (.transitionTask task.1 target version .absent unstamped))))
    (hc : ∀ workerIds, K (claimAndStart s task.1 task.2 workerIds)) : K (dispatchTask s taskIds task) := by
  unfold Runtime.dispatchTask
  dsimp only
  split
  · exact hK.pure _
  split
  · exact hK.pure _
  refine hK.bind (hK.call (.isActive _) rfl) fun active => ?_
  split
  · exact hK.pure _
  split
  · refine hK.bind (hK.attempt (hK.transact (ht _ _ fun h => nomatch h))) fun r => ?_
    split
    · exact hK.auditTask _
    · refine hK.bind (hK.getTask _) fun current => ?_
      split
      · exact hK.throw _
      · exact hK.pure _
  refine hK.bind (hK.call .read rfl) fun db => ?_
  split
  · exact hK.transact (ht _ _ fun h => nomatch h)
  split
  · exact hK.pure _
  refine hK.bind (hK.call (.schedule _) rfl) fun decision => ?_
  split
  · split
    · exact hK.deferDispatch s _ _ _
    · exact hK.transact (ht _ _ fun h => nomatch h)
  refine hK.bind (hK.negotiateContracts s _) fun negotiated => ?_
  split
  · exact hc _
  · exact hK.deferDispatch s _ _ _

end Discipline

theorem replayLaunch_runId (s : Supervisor) (j : RecoveredJob) (contract : Contract) (generation : Nat) :
    (replayLaunch s j contract generation).run.Yields fun x => ∀ o, x = .ok o → ∀ j' ∈ o, j'.runId = j.runId := by
  unfold replayLaunch
  split
  · intro o ho j' hj'
    obtain rfl := Except.ok.inj ho
    cases hj'
  · refine Prog.Yields.raising_bind fun replayed => ?_
    split
    · intro o ho j' hj'
      obtain rfl := Except.ok.inj ho
      obtain rfl := Option.some.inj hj'
      rfl
    · intro o ho j' hj'
      obtain rfl := Except.ok.inj ho
      cases hj'

end AgentFabric.Runtime
