import AgentFabric.Runtime.Model

/-!
# Executing an attempt

`_execute_worker` of `runtime.py` and what it calls: a run is activated, launched once, and ended or parked.
-/

namespace AgentFabric.Runtime

open AgentFabric.Lib AgentFabric.Store

section

variable (s : Supervisor)

def held (generation : Nat) : HeldLease := ⟨s.runtimeId, generation⟩

def leaseArgs (generation : Nat) : LeaseArgs := .held s.runtimeId generation

/-- The moment is filled in when the transaction runs. -/
def unstamped : Clock := ⟨0, 0⟩

def transitionTask (taskId : String) (target : TaskState) (generation : Nat) : Program Unit :=
  store (.transitionTask taskId target none (leaseArgs s generation) unstamped)

/-! ## How a run ends -/

/-- `result.final_text or result.error or result.state.value`. -/
def resultSummary (result : WorkerResult) : String :=
  if result.finalText ≠ "" then result.finalText
  else match result.error with
    | some error => if error ≠ "" then error else result.state.value
    | none => result.state.value

def resultValues (summary : String) : ResultValues := ⟨summary, "[]", "[]", "[]", "[]", none, "[]", none, "[]"⟩

def resultFailureClass : RunState → Option FailureClass
  | .authRequired => some .auth
  | .rateLimited => some .rateLimit
  | .timedOut => some .timeout
  | .cancelled => some .cancelled
  | .failed => some .transient
  | _ => none

def resultResourceState : RunState → Option ResourceState
  | .rateLimited => some .rateLimited
  | .authRequired => some .unknown
  | _ => none

/-- The worker columns of a finalization: an unauthorised worker goes offline. -/
def workerRelease (state : RunState) (modelId : Option String) : WorkerRelease where
  state := if state = .authRequired then .offline else .idle
  resourceState := resultResourceState state
  modelId := modelId

def persistWorkerResult (runId : String) (generation : Nat) (result : WorkerResult) : Program Unit := do
  let ledger ← account runId
  store (.saveWorkerResult runId (resultValues (resultSummary result)) (leaseArgs s generation) 0)
  let evidence ← account runId
  store (.finalizeProviderJobResult runId result.state
    ⟨result.pid, result.exitCode, ledger.sessionId, some evidence.evidencePath, resultFailureClass result.state⟩
    (workerRelease result.state ledger.modelId) (held s generation) unstamped)

/-- The run states of an adapter-proven rejection; any other error is ambiguous. -/
def rejectedState (statusCode : Nat) : RunState :=
  if statusCode = 401 ∨ statusCode = 403 then .authRequired
  else if statusCode = 429 then .rateLimited
  else .failed

def definiteLaunchRejection : Raised → Option WorkerResult
  | .adapter (.launchRejected statusCode) =>
    some ⟨rejectedState statusCode, none, none, "",
      some ("provider rejected launch request with HTTP " ++ toString statusCode)⟩
  | _ => none

def ambiguousObservation (error : Raised) (hasHandle : Bool) : ReconciliationState × EscalationCode :=
  match error with
  | .adapter (.outcomeUncertain state _) =>
    (state, if state = .providerUnreachable then .externalJobUnreachable else .providerStateAmbiguous)
  | _ => if hasHandle then (.providerUnreachable, .externalJobUnreachable) else (.unknown, .idempotencyUncertain)

/-- `_hold_ambiguous_provider_job`: fail closed. -/
def holdAmbiguousProviderJob (a : Assignment) (error : Raised) : Program Unit := do
  let job ← getProviderJob a.runId
  let (state, code) := ambiguousObservation error (truthy job.handle.providerJobId)
  let _ ← store (.recordProviderJobObservation a.runId state (held s a.generation) unstamped)
  let _ ← store (.requestExecutionEscalation a.runId code (held s a.generation) "" unstamped)
  if (← getTask a.taskId).state = .cancelled then
    store (.transitionWorkerRun a.runId .cancelled ⟨none, none, none, none, some .cancelled⟩
      (leaseArgs s a.generation) unstamped)
    store (.setWorkerState a.workerId .idle none none ⟨some a.taskId, leaseArgs s a.generation⟩ unstamped)
    let _ ← account a.runId
  else
    store (.transitionWorkerRun a.runId .waiting ⟨none, none, none, none, some .infrastructure⟩
      (leaseArgs s a.generation) unstamped)
    store (.setWorkerState a.workerId .waiting none none ⟨some a.taskId, leaseArgs s a.generation⟩ unstamped)
    if (← getTask a.taskId).state = .running then transitionTask s a.taskId .waiting a.generation

/-! ## One run -/

def exceptionClassification : Raised → FailureClass
  | .adapter .unsafeRequest => .unsafeToContinue
  | .adapter .unavailable => .infrastructure
  | _ => .implementationBug

def bindHandle (runId : String) (handle : WorkerJobHandle) (generation : Nat) : Program JobRow :=
  store (.bindProviderJobHandle runId handle.adapterType handle.adapterInstanceId handle.columns (held s generation)
    unstamped)

/-- The launch of an activated run, up to its result. -/
def launch (a : Assignment) (kind : AdapterKind) (job : JobRow) : Program WorkerResult := do
  let _ ← store (.markProviderJobLaunching a.runId (held s a.generation) unstamped)
  match kind with
  | .durable =>
    let handle ← answered (← ask (.startJob a.workerId a.runId job.idempotencyKey .activation))
    if handle.runId ≠ a.runId then throw (.runtimeError "provider job handle belongs to a different Worker run")
    let _ ← bindHandle s a.runId handle a.generation
    answered (← ask (.resumeJob a.workerId handle.columns a.runId .launch))
  | .legacy => answered (← ask (.execute a.workerId a.runId))

/-- The run of a plain adapter that raised is failed and its worker released. -/
def failLegacyRun (a : Assignment) (error : Raised) : Program Unit := do
  store (.transitionWorkerRun a.runId .failed ⟨none, none, none, none, some (exceptionClassification error)⟩
    (leaseArgs s a.generation) unstamped)
  let _ ← account a.runId
  store (.setWorkerState a.workerId .idle none none ⟨some a.taskId, leaseArgs s a.generation⟩ unstamped)
  let _ ← account a.runId
  throw error

/-- What becomes of a run whose launch raised; launch, binding and resumption share this handler. -/
def launchFailed (a : Assignment) (kind : AdapterKind) (error : Raised) : Program Unit :=
  match kind with
  | .legacy => failLegacyRun s a error
  | .durable =>
    match definiteLaunchRejection error with
    | some result => persistWorkerResult s a.runId a.generation result
    | none => holdAmbiguousProviderJob s a error

def executeWorker (a : Assignment) : Program Unit := do
  if ← store (.activateWorkerRun a.runId (leaseArgs s a.generation) unstamped) then
    let kind ← present (s.adapters a.workerId) a.workerId
    let job ← getProviderJob a.runId
    match ← Prog.attempt (launch s a kind job) with
    | .ok result => persistWorkerResult s a.runId a.generation result
    | .error error => launchFailed s a kind error

/-! ## The attempt -/

/-- Every run of the attempt completed with exit code zero. -/
def attemptSucceeded (runs : List (String × RunRow)) : Bool :=
  !runs.isEmpty && runs.all fun e => decide (e.2.state = .completed) && decide (e.2.detail.exitCode = some 0)

def auditKey (taskId : String) (version : Nat) (state : TaskState) : String :=
  "task:" ++ taskId ++ ":version:" ++ toString version ++ ":state:" ++ state.value

/-- `audit_task_terminal`, for a row of the task. -/
def auditTaskTerminal (taskId : String) (task : TaskRow) : Program Unit := do
  if !task.state.terminal then return
  let key := auditKey taskId task.version task.state
  match ← ask (.auditByKey key) with
  | some _ => return
  | none =>
    let (observations, errors) ← ask (.observeUsage taskId)
    Prog.result ((← ask (.recordAudit key ⟨taskId, task.state, observations, errors⟩)).mapError .store)

/-- The audit of a task as it is read now; a transition returns the row that it reads afterwards. -/
def auditTask (taskId : String) : Program Unit := do
  auditTaskTerminal taskId (← getTask taskId)

def auditPendingTerminalTasks (taskIds : Option (List String)) : Program Unit := do
  (← ask .read).tasks.rows.forM fun task => if inScope taskIds task.1 then auditTaskTerminal task.1 task.2 else return

def finishTaskAttempt (taskId : String) (attempt generation : Nat) : Program Unit := do
  if !(← ask (.leaseIsCurrent taskId s.runtimeId generation)) then return
  if (← getTask taskId).state ≠ .running then return
  let runs := (← listWorkerRuns taskId).filter fun e => decide (e.2.attempt = attempt)
  if attemptSucceeded runs then transitionTask s taskId .reviewing generation
  else
    transitionTask s taskId .waiting generation
    let waiting ← getTask taskId
    if attempt < s.maxAttempts then transitionTask s taskId .ready generation
    else
      store (.transitionTask taskId .failed (some waiting.version) (leaseArgs s generation) unstamped)
      auditTask taskId

def releaseLease (taskId : String) (generation : Nat) : Program Unit := do
  let _ ← store (.releaseTaskExecutionLease taskId s.runtimeId generation)

/-- `_execute_task`: the heartbeat is a client of its own, and a process that loses its lease drops the execution. -/
def executeTask (taskId : String) (attempt generation : Nat) (assignments : List Assignment) (polls : Nat) :
    Program Unit :=
  ensuring (do
    let _ ← gather (assignments.map (.executeWorker s)) polls
    finishTaskAttempt s taskId attempt generation) (releaseLease s taskId generation)

end

end AgentFabric.Runtime
