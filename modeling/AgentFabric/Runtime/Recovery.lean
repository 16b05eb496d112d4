import AgentFabric.Runtime.Execution

/-!
# Cancelling and recovering

Cancellation reaches the provider after the store; a recovery repairs, reconciles and requeues.
-/

namespace AgentFabric.Runtime

open AgentFabric.Lib AgentFabric.Store

section

variable (s : Supervisor)

def escalate (runId : String) (code : EscalationCode) (generation : Nat) : Program Unit := do
  let _ ← store (.requestExecutionEscalation runId code (held s generation) "" unstamped)

def resolveEscalations (runId : String) (codes : Option (List EscalationCode)) (generation : Nat) : Program Unit := do
  let _ ← store (.resolveExecutionEscalations runId codes (held s generation) 0)

/-- The run states that an observation admits for the collected result. -/
def expectedResults : ReconciliationState → List RunState
  | .knownCompleted => [.completed]
  | .knownFailed => [.failed, .timedOut, .authRequired, .rateLimited]
  | .knownCancelled => [.cancelled]
  | _ => []

def validateCollectedResult (observed : ReconciliationState) (result : WorkerResult) : Program Unit :=
  if result.state ∈ expectedResults observed then return
  else throw (.runtimeError ("collected result " ++ result.state.value ++ " conflicts with provider observation"))

/-- The provider reports that the job has ended. -/
def terminalObservation : ReconciliationState → Bool
  | .knownCompleted | .knownFailed | .knownCancelled => true
  | _ => false

/-- Collect a result that can be collected again, and persist it. -/
def collectResult (workerId runId : String) (handle : JobHandle) (observed : ReconciliationState) (generation : Nat) :
    Program Unit := do
  let result ← answered (← ask (.collectJob workerId handle runId))
  validateCollectedResult observed result
  persistWorkerResult s runId generation result

/-- An adapter that raises cannot be reached. -/
def observe (workerId runId : String) (handle : JobHandle) : Program ReconciliationState := do
  match ← ask (.reconcileJob workerId handle runId) with
  | .ok state => return state
  | .error _ => return .providerUnreachable

/-! ## Cancellation -/

def reconcileCancelledProviderRun (runId workerId : String) (job : JobRow) (generation : Nat) : Program Unit := do
  if !job.capabilities.supportsReconcile then escalate s runId .providerStateAmbiguous generation
  else
    let state ← observe workerId runId job.handle
    let _ ← store (.recordProviderJobObservation runId state (held s generation) unstamped)
    if terminalObservation state then
      if !job.capabilities.supportsRepeatableCollect then escalate s runId .resultCollectionUncertain generation
      else collectResult s workerId runId job.handle state generation
    else if state = .providerNotFound then return
    else if state = .providerUnreachable then escalate s runId .externalJobUnreachable generation
    else escalate s runId .providerStateAmbiguous generation

/-- Cancellation is best effort: the provider is asked when both sides support it. -/
def cancelJobIfSupported (runId workerId : String) (job : JobRow) (contract : Contract) : Program Bool := do
  if job.capabilities.supportsCancel && contract.capabilities.supportsCancel then
    answered (← ask (.cancelJob workerId job.handle runId))
  else return false

/-- The request to a durable provider, and what is learned about its job; without a lease nothing is recorded. -/
def cancelDurableJob (runId workerId : String) (job : JobRow) (generation : Option Nat) : Program Bool := do
  let contract ← ask (.contract workerId)
  if contract.adapterType ≠ job.adapterType ∨ contract.adapterInstanceId ≠ job.adapterInstanceId then
    throw (.runtimeError "cancellation adapter identity does not match the durable launch")
  else if !truthy job.handle.providerJobId then
    generation.forM (escalate s runId .idempotencyUncertain)
    return false
  else
    let accepted ← cancelJobIfSupported runId workerId job contract
    generation.forM (reconcileCancelledProviderRun s runId workerId job)
    return accepted

def requestCancellation (runId workerId : String) (job : Option JobRow) (kind : AdapterKind)
    (generation : Option Nat) : Program Bool := do
  match kind, job with
  | .durable, some job =>
    answered (← ask (.negotiate workerId))
    cancelDurableJob s runId workerId job generation
  | .durable, none =>
    answered (← ask (.negotiate workerId))
    answered (← ask (.cancel workerId runId))
  | .legacy, _ => answered (← ask (.cancel workerId runId))

/-- A request that cannot be confirmed is recorded, and escalated when the job is known. -/
def cancellationUnconfirmed (runId : String) (job : Option JobRow) (generation : Option Nat) : Program Bool := do
  let _ ← account runId
  if job.isSome then generation.forM (escalate s runId .providerStateAmbiguous)
  return false

def cancelWorkerRun (runId : String) (run : RunRow) (generation : Option Nat) : Program Bool := do
  let job := (← ask .read).jobs.get? runId
  match s.adapters run.workerId with
  | none => cancellationUnconfirmed s runId job generation
  | some kind =>
    match ← Prog.attempt (requestCancellation s runId run.workerId job kind generation) with
    | .ok accepted => return accepted
    | .error _ => cancellationUnconfirmed s runId job generation

def cancelWorkerRuns (generation : Option Nat) : List (String × RunRow) → Program Bool
  | [] => return false
  | (runId, run) :: rest => do
    let requested ← cancelWorkerRun s runId run generation
    return (← cancelWorkerRuns generation rest) || requested

/-- The providers of the runs are asked under a lease of their own. -/
def cancelActiveRuns (taskId : String) (runs : List (String × RunRow)) : Program Bool := do
  if runs.isEmpty then return false
  let generation ← store (.claimTaskReconciliation taskId s.runtimeId s.leaseTtl true 0)
  ensuring (cancelWorkerRuns s generation runs) (generation.forM (releaseLease s taskId))

/-- `cancel_task`: the store first, then the providers of the runs that were active before. -/
def cancelTask (taskId : String) : Program Bool := do
  let runs := (← listWorkerRuns taskId).filter fun e => e.2.state.active
  let requested ← store (.cancelTaskExecution taskId 0)
  let reached ← cancelActiveRuns s taskId runs
  let task ← getTask taskId
  runs.forM fun e => do let _ ← account e.1
  if task.state = .cancelled then auditTaskTerminal taskId task
  return reached || requested

/-! ## Repairing a finalized attempt -/

/-- The jobs of the runs, or nothing if one of them has none. -/
def readJobs : List String → Program (Option (List JobRow))
  | [] => return some []
  | runId :: rest => do
    match (← ask .read).jobs.get? runId with
    | none => return none
    | some job => return (← readJobs rest).map (job :: ·)

def latestRuns (runs : List (String × RunRow)) : List (String × RunRow) :=
  runs.filter fun e => some e.2.attempt = (runs.map fun e => e.2.attempt).max?

/-- The attempt of a task whose runs have all ended and whose results were all collected. -/
def finalizedAttempt (taskId : String) : Program (Option (Nat × List String)) := do
  let runs := latestRuns (← listWorkerRuns taskId)
  match runs.head? with
  | none => return none
  | some (_, run) =>
    if runs.any fun e => (collectedObservation e.2.state).isNone then return none
    let runIds := runs.map Prod.fst
    match ← readJobs runIds with
    | none => return none
    | some jobs =>
      if jobs.any fun job => decide (job.resultCollectionState ≠ .collected) then return none
      let db ← ask .read
      if runIds.all fun runId => (db.results.get? runId).isSome then return some (run.attempt, runIds)
      else return none

/-- A waiting task runs again before its attempt is finished or its jobs are attached. -/
def resumeTask (taskId : String) (generation : Nat) : Program Unit := do
  if (← getTask taskId).state = .waiting then transitionTask s taskId .running generation

/-- `_repair_finalized_provider_attempts`, for one task. -/
def repairFinalizedProviderAttempt (taskIds : Option (List String)) (task : String × TaskRow) : Program Unit := do
  if !inScope taskIds task.1 then return
  if (← ask (.isActive task.1)) || !(decide (task.2.state = .running) || decide (task.2.state = .waiting)) then return
  match ← finalizedAttempt task.1 with
  | none => return
  | some (attempt, runIds) =>
    match ← store (.claimTaskReconciliation task.1 s.runtimeId s.leaseTtl false 0) with
    | none => return
    | some generation =>
      ensuring (do
        resumeTask s task.1 generation
        runIds.forM fun runId => resolveEscalations s runId none generation
        finishTaskAttempt s task.1 attempt generation) (releaseLease s task.1 generation)

/-! ## Reconciling jobs -/

/-- What the reconciliation of a task has found so far. -/
structure Reconciliation where
  running : List RecoveredJob
  collected : Bool
  held : Bool

def Reconciliation.hold (r : Reconciliation) : Reconciliation := { r with held := true }

/-- A job without a handle is launched again only if the persisted job and the current adapter both promise native
deduplication for its key; whatever the replay raises leaves it ambiguous. -/
def replayLaunch (j : RecoveredJob) (contract : Contract) (generation : Nat) : Program (Option RecoveredJob) := do
  if !(j.job.capabilities.supportsProviderIdempotency && contract.capabilities.supportsProviderIdempotency) then
    return none
  match ← Prog.attempt (do
    let handle ← answered (← ask (.startJob j.job.workerId j.runId j.job.idempotencyKey
      (.replay j.job.capabilities.supportsProviderIdempotency contract.capabilities.supportsProviderIdempotency)))
    if handle.runId ≠ j.runId then
      throw (.runtimeError "provider idempotency replay returned a handle for another run")
    bindHandle s j.runId handle generation) with
  | .ok job => return some { j with job := job }
  | .error _ => return none

/-- The job stays as it is until somebody can resolve it. -/
def holdJob (runId : String) (code : EscalationCode) (generation : Nat) (r : Reconciliation) :
    Program Reconciliation := do
  escalate s runId code generation
  return r.hold

/-- A job that still runs is attached again, if both sides can resume it. -/
def attachJob (j : RecoveredJob) (contract : Contract) (generation : Nat) (r : Reconciliation) :
    Program Reconciliation := do
  resolveEscalations s j.runId (some [.externalJobUnreachable, .providerStateAmbiguous, .idempotencyUncertain])
    generation
  if !(j.job.capabilities.supportsResume && contract.capabilities.supportsResume) then
    holdJob s j.runId .resumeUnsupported generation r
  else
    resolveEscalations s j.runId (some [.resumeUnsupported]) generation
    return { r with running := r.running ++ [j] }

/-- A job that has ended is collected, if that can be repeated. -/
def collectJob (j : RecoveredJob) (observed : ReconciliationState) (generation : Nat) (r : Reconciliation) :
    Program Reconciliation := do
  if !j.job.capabilities.supportsRepeatableCollect then holdJob s j.runId .resultCollectionUncertain generation r
  else
    match ← Prog.attempt (collectResult s j.job.workerId j.runId j.job.handle observed generation) with
    | .ok _ =>
      resolveEscalations s j.runId none generation
      return { r with collected := true }
    | .error _ => holdJob s j.runId .resultCollectionUncertain generation { r with collected := true }

/-- A job that the provider does not know interrupts its run, unless the attempt has other jobs. -/
def missingJob (j : RecoveredJob) (alone : Bool) (generation : Nat) (r : Reconciliation) :
    Program Reconciliation := do
  if !alone then holdJob s j.runId .providerStateAmbiguous generation r
  else
    resolveEscalations s j.runId none generation
    store (.interruptMissingProviderJob j.runId (Runtime.held s generation) unstamped)
    return r

/-- What follows from an observation; `alone` tells that the task has no other job. -/
def settleJob (j : RecoveredJob) (contract : Contract) (observed : ReconciliationState) (alone : Bool)
    (generation : Nat)
    (r : Reconciliation) : Program Reconciliation :=
  match observed with
  | .knownRunning => attachJob s j contract generation r
  | .knownCompleted | .knownFailed | .knownCancelled => collectJob s j observed generation r
  | .providerNotFound => missingJob s j alone generation r
  | .providerUnreachable => holdJob s j.runId .externalJobUnreachable generation r
  | .unknown => holdJob s j.runId .providerStateAmbiguous generation r

/-- A job that may be observed is observed once, and the observation recorded. -/
def observeJob (j : RecoveredJob) (contract : Contract) (alone : Bool) (generation : Nat) (r : Reconciliation) :
    Program Reconciliation := do
  let observed ← observe j.job.workerId j.runId j.job.handle
  let _ ← store (.recordProviderJobObservation j.runId observed (Runtime.held s generation) unstamped)
  settleJob s j contract observed alone generation r

/-- One job of `_reconcile_claimed_provider_jobs`. -/
def reconcileJob (alone : Bool) (generation : Nat) (j : RecoveredJob) (r : Reconciliation) :
    Program Reconciliation := do
  match s.adapters j.job.workerId with
  | none => holdJob s j.runId .providerStateAmbiguous generation r
  | some kind =>
    match ← ask (.negotiate j.job.workerId) with
    | .error _ => holdJob s j.runId .externalJobUnreachable generation r
    | .ok _ =>
      let contract ← ask (.contract j.job.workerId)
      if kind = .legacy ∨ j.job.capabilities.supportsReconcile = false ∨
          contract.capabilities.supportsReconcile = false ∨
          contract.adapterType ≠ j.job.adapterType ∨ contract.adapterInstanceId ≠ j.job.adapterInstanceId then
        holdJob s j.runId .providerStateAmbiguous generation r
      else if truthy j.job.handle.providerJobId then observeJob s j contract alone generation r
      else
        match ← replayLaunch s j contract generation with
        | some j => observeJob s j contract alone generation r
        | none => holdJob s j.runId .idempotencyUncertain generation r

def reconcileJobs (alone : Bool) (generation : Nat) : List RecoveredJob → Reconciliation → Program Reconciliation
  | [], r => return r
  | j :: js, r => do
    let r ← reconcileJob s alone generation j r
    reconcileJobs alone generation js r

/-- The workers of the jobs that still have an active run wait with it. -/
def parkWorkers (taskId : String) (generation : Nat) (runs : List (String × RunRow)) : List RecoveredJob → Program Unit
  | [] => return
  | j :: js => do
    if runs.any fun e => decide (e.1 = j.runId) && e.2.state.active then
      store (.setWorkerState j.job.workerId .waiting none none ⟨some taskId, leaseArgs s generation⟩ unstamped)
    parkWorkers taskId generation runs js

def markTaskWaitingForReconciliation (taskId : String) (generation : Nat) (jobs : List RecoveredJob) :
    Program Unit := do
  parkWorkers s taskId generation (← listWorkerRuns taskId) jobs
  if (← getTask taskId).state = .running then transitionTask s taskId .waiting generation

def jobsAttempt (jobs : List RecoveredJob) : Nat := (jobs.map fun j => j.attempt).foldr max 0

/-- `_reconcile_claimed_provider_jobs`; the answer tells whether an attachment now owns the lease. -/
def reconcileClaimedProviderJobs (taskId : String) (jobs : List RecoveredJob) (generation : Nat) : Program Bool := do
  let _ ← getTask taskId
  let r ← reconcileJobs s (decide (jobs.length = 1)) generation jobs ⟨[], false, false⟩
  if !r.running.isEmpty then
    resumeTask s taskId generation
    let _ ← ask (.create [.reattach s taskId generation r.running (!r.held)])
    return true
  else if r.collected && !r.held then
    resumeTask s taskId generation
    finishTaskAttempt s taskId (jobsAttempt jobs) generation
    return false
  else if r.held then
    markTaskWaitingForReconciliation s taskId generation jobs
    return false
  else return false

/-- `resume_one`: a failed attachment is no evidence that the job stopped. -/
def resumeOne (generation : Nat) (j : RecoveredJob) : Program Unit := do
  match ← ask (.resumeJob j.job.workerId j.job.handle j.runId .reattachment) with
  | .ok result => persistWorkerResult s j.runId generation result
  | .error error =>
    let _ ← store (.recordProviderJobObservation j.runId .providerUnreachable (held s generation) unstamped)
    escalate s j.runId .externalJobUnreachable generation
    throw (.adapter error)

def reattachProviderTask (taskId : String) (generation : Nat) (jobs : List RecoveredJob)
    (finalize : Bool) (polls : Nat) :
    Program Unit :=
  ensuring (do
    let raised ← gather (jobs.map (.resumeOne s taskId generation)) polls
    if finalize && !raised.any id then finishTaskAttempt s taskId (jobsAttempt jobs) generation
    else markTaskWaitingForReconciliation s taskId generation jobs) (releaseLease s taskId generation)

/-! ## Recovery -/

def recoverCancelledProviderJobs (generation : Nat) : List RecoveredJob → Program Unit
  | [] => return
  | j :: js => do
    let run ← present ((← ask .read).runs.get? j.runId) j.runId
    let _ ← cancelWorkerRun s j.runId run (some generation)
    recoverCancelledProviderJobs generation js

/-- The jobs of each task, in the order in which the tasks appear. -/
def jobsByTask (jobs : List RecoveredJob) : List (String × List RecoveredJob) :=
  (fromKeys (jobs.map fun j => j.job.taskId)).map fun t => (t, jobs.filter fun j => decide (j.job.taskId = t))

/-- Cancelled work is only cancelled further, other work is reconciled. -/
def reconcileUnowned (taskId : String) (jobs : List RecoveredJob) (generation : Nat) (cancelled : Bool) :
    Program Bool := do
  if cancelled then
    recoverCancelledProviderJobs s generation jobs
    return false
  else reconcileClaimedProviderJobs s taskId jobs generation

/-- The jobs of one task under a new lease; the lease is released unless an attachment owns it. -/
def recoverProviderJobs (taskId : String) (jobs : List RecoveredJob) : Program Unit := do
  if ← ask (.isActive taskId) then return
  let cancelled := jobs.all fun j => decide (j.taskState = .cancelled)
  match ← store (.claimTaskReconciliation taskId s.runtimeId s.leaseTtl cancelled 0) with
  | none => return
  | some generation =>
    match ← Prog.attempt (reconcileUnowned s taskId jobs generation cancelled) with
    | .ok true => return
    | .ok false => releaseLease s taskId generation
    | .error error =>
      releaseLease s taskId generation
      throw error

def recoverDurableProviderJobs (taskIds : Option (List String)) : Program Unit := do
  let jobs := (← ask .reconcilableJobs).filter fun j => inScope taskIds j.job.taskId
  (jobsByTask jobs).forM fun e => recoverProviderJobs s e.1 e.2

/-- An interrupted task is retried while attempts are left. -/
def requeueInterrupted (taskIds : Option (List String)) (task : String × TaskRow) : Program Unit := do
  if task.2.state = .interrupted ∧ inScope taskIds task.1 = true then
    if s.maxAttempts ≤ task.2.attemptCount then
      store (.transitionTask task.1 .failed none .absent unstamped)
      auditTask task.1
    else store (.transitionTask task.1 .ready none .absent unstamped)

def recover (taskIds : Option (List String)) : Program Unit := do
  (← ask .read).tasks.rows.forM (repairFinalizedProviderAttempt s taskIds)
  recoverDurableProviderJobs s taskIds
  let _ ← store (.recoverInterrupted taskIds 0)
  let interrupted := (← ask .read).runs.rows.filter fun e =>
    decide (e.2.state = .interrupted) && inScope taskIds e.2.taskId
  interrupted.forM fun e => do let _ ← account e.1
  (← ask .read).tasks.rows.forM (requeueInterrupted s taskIds)
  auditPendingTerminalTasks taskIds

end

end AgentFabric.Runtime
