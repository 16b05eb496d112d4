import AgentFabric.Store.Dispatch

/-!
# Provider jobs

The durable identity of a run's external side effect, from its preparation to the collection of its result.
-/

namespace AgentFabric.Store

open AgentFabric.Lib

/-- The lease that a fenced call presents. -/
structure HeldLease where
  owner : String
  generation : Nat
deriving DecidableEq, Repr

def truthy (text : Option String) : Bool := text.any fun t => decide (t ≠ "")

def idempotencyKey (runId : String) : String := "supervisor-execution:" ++ runId

def JobCapabilities.valid (capabilities : JobCapabilities) : Bool := decide (1 ≤ capabilities.protocolVersion)

def preparedJob (id runId : String) (run : RunRow) (adapterType adapterInstanceId : String)
    (capabilities : JobCapabilities) (generation now : Nat) : JobRow where
  id := id
  taskId := run.taskId
  workerId := run.workerId
  adapterType := adapterType
  adapterInstanceId := adapterInstanceId
  launchGeneration := generation
  idempotencyKey := idempotencyKey runId
  capabilities := capabilities
  handle := .unbound
  launchState := .prepared
  reconciliationState := .unknown
  resultCollectionState := .pending
  createdAt := now
  launchedAt := none
  lastReconciledAt := none
  resultCollectedAt := none

def prepareProviderJob (db : Db) (runId adapterType adapterInstanceId : String) (capabilities : JobCapabilities)
    (lease : HeldLease) (uuid : String) (clock : Clock) : Except StoreError (JobRow × Db) := do
  ensure (blank adapterType = false) (.valueError "adapter_type must not be empty")
  ensure (blank adapterInstanceId = false) (.valueError "adapter_instance_id must not be empty")
  ensure (capabilities.valid = true) (.valueError "provider job protocol_version must be positive")
  let run ← orRaise (db.runs.get? runId) (.keyError runId)
  let _ ← orRaise (db.tasks.get? run.taskId) (.keyError runId)
  let _ ← orRaise (db.workers.get? run.workerId) (.keyError runId)
  requireTaskExecutionLease db run.taskId lease.owner lease.generation clock.lease
  match db.jobs.get? runId with
  | some existing => do
    ensure (existing.adapterType = adapterType ∧ existing.adapterInstanceId = adapterInstanceId ∧
        existing.launchGeneration = lease.generation ∧ existing.capabilities = capabilities)
      (.runtimeError ("provider job intent for " ++ runId ++ " is immutable"))
    return (existing, db)
  | none => do
    let job := preparedJob ("provider-job-" ++ uuid) runId run adapterType adapterInstanceId capabilities
      lease.generation (timestamp clock.now)
    ensure (db.jobs.any (fun _ other => decide (other.id = job.id)) = false)
      (.integrityError "UNIQUE constraint failed: provider_jobs.id")
    let jobs ← orRaise (db.jobs.insert? runId job) (.integrityError "UNIQUE constraint failed: provider_jobs.run_id")
    return (job, { db with jobs := jobs })

/-- `_provider_job_for_update` and the lease check that follows it everywhere. -/
def fencedJob (db : Db) (runId : String) (lease : HeldLease) (clock : Nat) : Except StoreError JobRow := do
  let job ← orRaise (db.jobs.get? runId) (.keyError runId)
  requireTaskExecutionLease db job.taskId lease.owner lease.generation clock
  return job

def writeJob (db : Db) (runId : String) (job : JobRow) : Db :=
  { db with jobs := db.jobs.modify runId fun _ => job }

def markProviderJobLaunching (db : Db) (runId : String) (lease : HeldLease) (clock : Clock) :
    Except StoreError (JobRow × Db) := do
  let job ← fencedJob db runId lease clock.lease
  if job.launchState ≠ .prepared then return (job, db)
  else
    let launching := { job with launchState := .launching, launchedAt := some (timestamp clock.now) }
    return (launching, writeJob db runId launching)

/-- The launch states that accept a handle. -/
def JobRow.bindable (job : JobRow) : Bool :=
  decide (job.launchState = .prepared) || decide (job.launchState = .launching) ||
    (decide (job.launchState = .uncertain) && !truthy job.handle.providerJobId &&
      job.capabilities.supportsProviderIdempotency)

def JobRow.bind (job : JobRow) (handle : JobHandle) (now : Nat) : JobRow :=
  { job with handle := handle, launchState := .bound, launchedAt := job.launchedAt <|> some now }

def bindProviderJobHandle (db : Db) (runId adapterType adapterInstanceId : String) (handle : JobHandle)
    (lease : HeldLease) (clock : Clock) : Except StoreError (JobRow × Db) := do
  ensure (1 ≤ handle.handleVersion) (.valueError "provider job handle_version must be positive")
  ensure (truthy handle.providerJobId = true ∨ handle.runtimePid.isSome = true)
    (.valueError "provider job handle requires provider or runtime identity")
  ensure (handle.runtimePid = none ∨ (truthy handle.runtimeHost = true ∧ truthy handle.runtimeIdentity = true))
    (.valueError "runtime PID requires host and non-PID process identity")
  let job ← fencedJob db runId lease clock.lease
  ensure (job.adapterType = adapterType ∧ job.adapterInstanceId = adapterInstanceId)
    (.runtimeError "provider job handle came from a different adapter instance")
  if job.launchState = .bound then do
    ensure (job.handle = handle) (.runtimeError ("provider job handle for " ++ runId ++ " is immutable"))
    return (job, db)
  else do
    ensure (job.bindable = true) (.runtimeError ("provider job " ++ job.id ++ " cannot bind a handle"))
    ensure (handle.runtimePid.all (fun pid => decide (0 < pid)) = true)
      (.integrityError "CHECK constraint failed: runtime_pid IS NULL OR runtime_pid > 0")
    let bound := job.bind handle (timestamp clock.now)
    return (bound, writeJob db runId bound)

def JobRow.observedLaunchState (job : JobRow) : ReconciliationState → LaunchState
  | .knownCompleted | .knownFailed | .knownCancelled => .terminal
  | .unknown | .providerUnreachable => .uncertain
  | .knownRunning => if truthy job.handle.providerJobId = true then .bound else job.launchState
  | .providerNotFound => job.launchState

def JobRow.observe (job : JobRow) (state : ReconciliationState) (now : Nat) : JobRow :=
  { job with
    reconciliationState := state
    launchState := job.observedLaunchState state
    lastReconciledAt := some now }

def recordProviderJobObservation (db : Db) (runId : String) (state : ReconciliationState) (lease : HeldLease)
    (clock : Clock) : Except StoreError (JobRow × Db) := do
  let job ← fencedJob db runId lease clock.lease
  if job.resultCollectionState = .collected then return (job, db)
  else
    let observed := job.observe state (timestamp clock.now)
    return (observed, writeJob db runId observed)

/-! ## Collecting a result -/

def JobRow.collect (job : JobRow) (state : ReconciliationState) (now : Nat) : JobRow :=
  { job with
    launchState := .terminal
    reconciliationState := state
    resultCollectionState := .collected
    resultCollectedAt := some now
    lastReconciledAt := job.lastReconciledAt <|> some now }

/-- The run states that a provider result maps to, with the observation recorded for each. -/
def collectedObservation : RunState → Option ReconciliationState
  | .completed => some .knownCompleted
  | .cancelled => some .knownCancelled
  | .failed | .timedOut | .authRequired | .rateLimited => some .knownFailed
  | .starting | .running | .waiting | .interrupted => none

def markProviderJobResultCollected (db : Db) (runId : String) (terminalState : RunState) (lease : HeldLease)
    (clock : Clock) : Except StoreError (JobRow × Db) := do
  let observation ← orRaise (collectedObservation terminalState)
    (.valueError "provider result collection requires a terminal Worker run state")
  let job ← fencedJob db runId lease clock.lease
  if job.resultCollectionState = .collected then return (job, db)
  else
    let collected := job.collect observation (timestamp clock.now)
    return (collected, writeJob db runId collected)

def saveWorkerResult (db : Db) (runId : String) (values : ResultValues) (lease : LeaseArgs) (clock : Nat) :
    Except StoreError (Unit × Db) := do
  let run ← orRaise (db.runs.get? runId) (.keyError runId)
  requireLeaseArgs db run.taskId lease clock
  match db.results.get? runId with
  | some existing => do
    ensure (existing = values) (.runtimeError ("worker result for " ++ runId ++ " is immutable"))
    return ((), db)
  | none => do
    ensure (values.confidence.all (fun c => decide (0 ≤ c) && decide (c ≤ 1)) = true)
      (.integrityError "CHECK constraint failed: confidence IS NULL OR confidence BETWEEN 0 AND 1")
    let results ← orRaise (db.results.insert? runId values)
      (.integrityError "UNIQUE constraint failed: worker_results.run_id")
    return ((), { db with results := results })

/-- The worker columns that a finalization writes. -/
structure WorkerRelease where
  state : WorkerState := .idle
  resourceState : Option ResourceState := none
  modelId : Option String := none
deriving DecidableEq, Repr

def RunRow.finalize (run : RunRow) (target : RunState) (detail : RunDetail) (now : Nat) : RunRow :=
  { run with state := target, endedAt := some now, detail := detail.coalesce run.detail }

def cancellationWins (run : RunRow) (task : TaskRow) : Bool :=
  decide (run.state = .cancelled) && decide (task.state = .cancelled)

/-- The runs after a finalization: a run that is already there, or was cancelled with its task, is left alone. -/
def finalizedRuns (db : Db) (runId : String) (run : RunRow) (task : TaskRow) (target : RunState)
    (detail : RunDetail) (now : Nat) : Table String RunRow :=
  if run.state ≠ target ∧ cancellationWins run task = false then
    db.runs.modify runId fun r => r.finalize target detail now
  else db.runs

/-- The workers after a finalization: a cancelled or already collected run no longer owns its worker. -/
def finalizedWorkers (db : Db) (runs : Table String RunRow) (runId : String) (run : RunRow) (task : TaskRow)
    (job : JobRow) (release : WorkerRelease) : Table String WorkerRow :=
  if cancellationWins run task = false ∧ job.resultCollectionState ≠ .collected ∧
      workerHasActiveRun runs run.workerId (some runId) = false then
    db.workers.modify run.workerId fun w => w.set release.state release.resourceState release.modelId
  else db.workers

def finalizeProviderJobResult (db : Db) (runId : String) (target : RunState) (detail : RunDetail)
    (release : WorkerRelease) (lease : HeldLease) (clock : Clock) : Except StoreError (Unit × Db) := do
  let observation ← orRaise (collectedObservation target)
    (.valueError "provider result must map to a terminal Worker run state")
  let job ← fencedJob db runId lease clock.lease
  let run ← orRaise (db.runs.get? runId) (.keyError runId)
  ensure ((db.results.get? runId).isSome = true)
    (.runtimeError "canonical Worker result must be saved before finalization")
  let task ← orRaise (db.tasks.get? run.taskId) (.typeError "'NoneType' object is not subscriptable")
  ensure ((collectedObservation run.state).isNone = true ∨ run.state = target ∨ cancellationWins run task = true)
    (.runtimeError ("provider result conflicts with terminal run " ++ runId ++ ": " ++ run.state.value ++ " != " ++
      target.value))
  ensure ((collectedObservation run.state).isSome = true ∨ runTransitions.allows run.state target = true)
    (.invalidTransition ("illegal transition: " ++ run.state.value ++ " -> " ++ target.value))
  let runs := finalizedRuns db runId run task target detail (timestamp clock.now)
  return ((), { db with
    runs := runs
    workers := finalizedWorkers db runs runId run task job release
    jobs := if job.resultCollectionState ≠ .collected then
        db.jobs.modify runId fun j => j.collect observation (timestamp clock.now)
      else db.jobs })

/-! ## Missing jobs, escalations and adapter events -/

def RunRow.interrupt (run : RunRow) (now : Nat) : RunRow :=
  { run with
    state := .interrupted
    endedAt := some now
    detail := { run.detail with failureClass := some .infrastructure } }

/-- The job row once the provider reported it absent. -/
def JobRow.missing (job : JobRow) (now : Nat) : JobRow :=
  { job with
    launchState := .terminal
    reconciliationState := .providerNotFound
    resultCollectionState := .notAvailable
    lastReconciledAt := some now }

/-- The workers after an interruption; a peer run keeps its worker. -/
def interruptedWorkers (db : Db) (runs : Table String RunRow) (runId : String) (run : RunRow) :
    Table String WorkerRow :=
  if workerHasActiveRun runs run.workerId (some runId) = false then
    db.workers.modify run.workerId (WorkerRow.withState .idle)
  else db.workers

def interruptMissingProviderJob (db : Db) (runId : String) (lease : HeldLease) (clock : Clock) :
    Except StoreError (Unit × Db) := do
  let job ← fencedJob db runId lease clock.lease
  let absent := StoreError.typeError "'NoneType' object is not subscriptable"
  let run ← orRaise (db.runs.get? runId) absent
  let task ← orRaise (db.tasks.get? job.taskId) absent
  if run.state.active = false then return ((), db)
  else
    let runs := db.runs.modify runId fun r => r.interrupt (timestamp clock.now)
    return ((), { db with
      runs := runs
      workers := interruptedWorkers db runs runId run
      -- the task state is read but not checked: everything but RUNNING goes to READY
      tasks := db.tasks.modify job.taskId fun row =>
        row.withState (if task.state = .running then .interrupted else .ready)
      jobs := db.jobs.modify runId fun j => j.missing (timestamp clock.now) })

def requestExecutionEscalation (db : Db) (runId : String) (code : EscalationCode) (lease : HeldLease)
    (uuid : String) (clock : Clock) : Except StoreError (String × Db) := do
  let job ← fencedJob db runId lease clock.lease
  match db.escalations.rows.find? fun e =>
      decide (e.2.providerJobId = job.id) && decide (e.2.code = code) && decide (e.2.state = .opened) with
  | some existing => return (existing.1, db)
  | none => do
    let id := "escalation-" ++ uuid
    let escalations ← orRaise
      (db.escalations.insert? id
        { taskId := job.taskId, runId := runId, providerJobId := job.id, code := code, state := .opened,
          createdAt := timestamp clock.now })
      (.integrityError "UNIQUE constraint failed: execution_escalations.id")
    return (id, { db with escalations := escalations })

/-- The open escalations of a job among the selected codes; no selection means every code. -/
def selectedEscalation (job : JobRow) (codes : Option (List EscalationCode)) (e : EscalationRow) : Bool :=
  decide (e.providerJobId = job.id) && decide (e.state = .opened) && codes.all fun selected =>
    decide (e.code ∈ selected)

def EscalationRow.resolve (e : EscalationRow) : EscalationRow := { e with state := .resolved }

def resolveExecutionEscalations (db : Db) (runId : String) (codes : Option (List EscalationCode))
    (lease : HeldLease) (clock : Nat) : Except StoreError (Nat × Db) := do
  let job ← fencedJob db runId lease clock
  return ((db.escalations.keysWhere fun _ e => selectedEscalation job codes e).length,
    { db with
      escalations := db.escalations.updateWhere (fun _ e => selectedEscalation job codes e) EscalationRow.resolve })

def recordAdapterEvent (db : Db) (runId : String) (pid : Option Nat) (lease : LeaseArgs) (clock : Nat) :
    Except StoreError (Unit × Db) := do
  let run ← orRaise (db.runs.get? runId) (.keyError runId)
  requireLeaseArgs db run.taskId lease clock
  return ((), { db with runs := db.runs.modify runId fun r =>
    { r with detail := { r.detail with processId := pid <|> r.detail.processId } } })

/-! ## What the operations commit -/

variable {db db' : Db} {runId adapterType adapterInstanceId uuid : String} {lease : HeldLease} {job : JobRow}

theorem fencedJob_ok {clock : Nat} :
    fencedJob db runId lease clock = .ok job ↔ db.jobs.get? runId = some job ∧
      leaseCurrent db job.taskId lease.owner lease.generation (timestamp clock) = true := by
  simp only [fencedJob, bind_eq_ok, orRaise_eq_ok, requireTaskExecutionLease_eq_ok, pure_eq_ok]
  constructor
  · rintro ⟨j, hj, -, hl, rfl⟩
    exact ⟨hj, hl⟩
  · rintro ⟨hj, hl⟩
    exact ⟨job, hj, (), hl, rfl⟩

variable {clock : Clock}

theorem prepareProviderJob_ok {capabilities : JobCapabilities}
    (h : prepareProviderJob db runId adapterType adapterInstanceId capabilities lease uuid clock = .ok (job, db')) :
    ∃ run, db.runs.get? runId = some run ∧
      leaseCurrent db run.taskId lease.owner lease.generation (timestamp clock.lease) = true ∧
      ((db.jobs.get? runId = some job ∧ job.launchGeneration = lease.generation ∧ job.capabilities = capabilities ∧
          db' = db) ∨
       (∃ jobs, db.jobs.insert? runId job = some jobs ∧
        job = preparedJob ("provider-job-" ++ uuid) runId run adapterType adapterInstanceId capabilities
          lease.generation (timestamp clock.now) ∧
        (∀ r other, db.jobs.get? r = some other → other.id ≠ job.id) ∧
        db' = { db with jobs := jobs })) := by
  simp only [prepareProviderJob, bind_eq_ok, ensure_eq_ok, orRaise_eq_ok, requireTaskExecutionLease_eq_ok] at h
  obtain ⟨-, -, -, -, -, -, run, hr, -, -, -, -, -, hl, h⟩ := h
  refine ⟨run, hr, hl, ?_⟩
  split at h
  · rename_i existing he
    simp only [bind_eq_ok, ensure_eq_ok, pure_eq_ok, Prod.mk.injEq] at h
    obtain ⟨-, ⟨-, -, hg, hc⟩, rfl, rfl⟩ := h
    exact Or.inl ⟨he, hg, hc, rfl⟩
  · simp only [bind_eq_ok, ensure_eq_ok, orRaise_eq_ok, pure_eq_ok, Prod.mk.injEq] at h
    obtain ⟨-, hu, jobs, hj, rfl, rfl⟩ := h
    refine Or.inr ⟨jobs, hj, rfl, ?_, rfl⟩
    intro r other ho
    simpa using Table.any_eq_false.mp hu r other ho

theorem markProviderJobLaunching_ok (h : markProviderJobLaunching db runId lease clock = .ok (job, db')) :
    ∃ old, db.jobs.get? runId = some old ∧
      leaseCurrent db old.taskId lease.owner lease.generation (timestamp clock.lease) = true ∧
      ((old.launchState ≠ .prepared ∧ job = old ∧ db' = db) ∨
       (old.launchState = .prepared ∧
        job = { old with launchState := .launching, launchedAt := some (timestamp clock.now) } ∧
        db' = writeJob db runId job)) := by
  simp only [markProviderJobLaunching, bind_eq_ok, fencedJob_ok] at h
  obtain ⟨old, ⟨ho, hl⟩, h⟩ := h
  refine ⟨old, ho, hl, ?_⟩
  split at h
  · rename_i hp
    cases h
    exact Or.inl ⟨hp, rfl, rfl⟩
  · rename_i hp
    cases h
    exact Or.inr ⟨not_not.mp hp, rfl, rfl⟩

theorem bindProviderJobHandle_ok {handle : JobHandle}
    (h : bindProviderJobHandle db runId adapterType adapterInstanceId handle lease clock = .ok (job, db')) :
    ∃ old, db.jobs.get? runId = some old ∧
      leaseCurrent db old.taskId lease.owner lease.generation (timestamp clock.lease) = true ∧
      ((old.launchState = .bound ∧ job = old ∧ db' = db) ∨
       (old.launchState ≠ .bound ∧ old.bindable = true ∧ job = old.bind handle (timestamp clock.now) ∧
        db' = writeJob db runId job)) := by
  simp only [bindProviderJobHandle, bind_eq_ok, ensure_eq_ok, fencedJob_ok] at h
  obtain ⟨-, -, -, -, -, -, old, ⟨ho, hl⟩, -, -, h⟩ := h
  refine ⟨old, ho, hl, ?_⟩
  split at h
  · rename_i hb
    simp only [bind_eq_ok, ensure_eq_ok, pure_eq_ok, Prod.mk.injEq] at h
    obtain ⟨-, -, rfl, rfl⟩ := h
    exact Or.inl ⟨hb, rfl, rfl⟩
  · rename_i hb
    simp only [bind_eq_ok, ensure_eq_ok, pure_eq_ok, Prod.mk.injEq] at h
    obtain ⟨-, hbind, -, -, rfl, rfl⟩ := h
    exact Or.inr ⟨hb, hbind, rfl, rfl⟩

theorem recordProviderJobObservation_ok {state : ReconciliationState}
    (h : recordProviderJobObservation db runId state lease clock = .ok (job, db')) :
    ∃ old, db.jobs.get? runId = some old ∧
      leaseCurrent db old.taskId lease.owner lease.generation (timestamp clock.lease) = true ∧
      ((old.resultCollectionState = .collected ∧ job = old ∧ db' = db) ∨
       (old.resultCollectionState ≠ .collected ∧ job = old.observe state (timestamp clock.now) ∧
        db' = writeJob db runId job)) := by
  simp only [recordProviderJobObservation, bind_eq_ok, fencedJob_ok] at h
  obtain ⟨old, ⟨ho, hl⟩, h⟩ := h
  refine ⟨old, ho, hl, ?_⟩
  split at h
  · rename_i hc
    cases h
    exact Or.inl ⟨hc, rfl, rfl⟩
  · rename_i hc
    cases h
    exact Or.inr ⟨hc, rfl, rfl⟩

theorem markProviderJobResultCollected_ok {terminalState : RunState}
    (h : markProviderJobResultCollected db runId terminalState lease clock = .ok (job, db')) :
    ∃ old observation, db.jobs.get? runId = some old ∧
      leaseCurrent db old.taskId lease.owner lease.generation (timestamp clock.lease) = true ∧
      ((old.resultCollectionState = .collected ∧ job = old ∧ db' = db) ∨
       (old.resultCollectionState ≠ .collected ∧ job = old.collect observation (timestamp clock.now) ∧
        db' = writeJob db runId job)) := by
  simp only [markProviderJobResultCollected, bind_eq_ok, orRaise_eq_ok, fencedJob_ok] at h
  obtain ⟨observation, -, old, ⟨ho, hl⟩, h⟩ := h
  refine ⟨old, observation, ho, hl, ?_⟩
  split at h
  · rename_i hc
    cases h
    exact Or.inl ⟨hc, rfl, rfl⟩
  · rename_i hc
    cases h
    exact Or.inr ⟨hc, rfl, rfl⟩

theorem saveWorkerResult_ok {values : ResultValues} {lease : LeaseArgs} {clock : Nat} {u : Unit}
    (h : saveWorkerResult db runId values lease clock = .ok (u, db')) :
    ∃ run, db.runs.get? runId = some run ∧ requireLeaseArgs db run.taskId lease clock = .ok () ∧
      ((db.results.get? runId = some values ∧ db' = db) ∨
       (∃ results, db.results.insert? runId values = some results ∧ db' = { db with results := results })) := by
  simp only [saveWorkerResult, bind_eq_ok, orRaise_eq_ok] at h
  obtain ⟨run, hr, ⟨⟩, hl, h⟩ := h
  refine ⟨run, hr, hl, ?_⟩
  split at h
  · rename_i existing he
    simp only [bind_eq_ok, ensure_eq_ok, pure_eq_ok, Prod.mk.injEq] at h
    obtain ⟨-, rfl, -, rfl⟩ := h
    exact Or.inl ⟨he, rfl⟩
  · simp only [bind_eq_ok, ensure_eq_ok, orRaise_eq_ok, pure_eq_ok, Prod.mk.injEq] at h
    obtain ⟨-, -, results, hres, -, rfl⟩ := h
    exact Or.inr ⟨results, hres, rfl⟩

theorem finalizeProviderJobResult_ok {target : RunState} {detail : RunDetail} {release : WorkerRelease} {u : Unit}
    (h : finalizeProviderJobResult db runId target detail release lease clock = .ok (u, db')) :
    ∃ observation job run task, collectedObservation target = some observation ∧
      db.jobs.get? runId = some job ∧
      leaseCurrent db job.taskId lease.owner lease.generation (timestamp clock.lease) = true ∧
      db.runs.get? runId = some run ∧ (∃ values, db.results.get? runId = some values) ∧
      db.tasks.get? run.taskId = some task ∧
      (run.state.active = true ∧ runTransitions.allows run.state target = true ∨ run.state = target ∨
        cancellationWins run task = true) ∧
      db' = { db with
        runs := finalizedRuns db runId run task target detail (timestamp clock.now)
        workers := finalizedWorkers db (finalizedRuns db runId run task target detail (timestamp clock.now)) runId
          run task job release
        jobs := if job.resultCollectionState ≠ .collected then
            db.jobs.modify runId fun j => j.collect observation (timestamp clock.now)
          else db.jobs } := by
  simp only [finalizeProviderJobResult, bind_eq_ok, ensure_eq_ok, orRaise_eq_ok, fencedJob_ok, pure_eq_ok,
    Prod.mk.injEq] at h
  obtain ⟨observation, ho, job, ⟨hj, hl⟩, run, hr, -, hres, task, ht, -, hc, -, ha, -, rfl⟩ := h
  refine ⟨observation, job, run, task, ho, hj, hl, hr, Option.isSome_iff_exists.mp hres, ht, ?_, rfl⟩
  rcases hc with hn | he | hw
  · left
    have hallow : runTransitions.allows run.state target = true := by
      rcases ha with hs | ha
      · rw [Option.isNone_iff_eq_none] at hn
        simp [hn] at hs
      · exact ha
    refine ⟨?_, hallow⟩
    cases hact : run.state.active with
    | true => rfl
    | false =>
      have := runTransitions_terminal hact hallow
      rw [← this, ho] at hn
      cases hn
  · exact Or.inr (Or.inl he)
  · exact Or.inr (Or.inr hw)

theorem interruptMissingProviderJob_ok {u : Unit}
    (h : interruptMissingProviderJob db runId lease clock = .ok (u, db')) :
    ∃ job run task, db.jobs.get? runId = some job ∧
      leaseCurrent db job.taskId lease.owner lease.generation (timestamp clock.lease) = true ∧
      db.runs.get? runId = some run ∧ db.tasks.get? job.taskId = some task ∧
      ((run.state.active = false ∧ db' = db) ∨
       (run.state.active = true ∧
        db' = { db with
          runs := db.runs.modify runId fun r => r.interrupt (timestamp clock.now)
          workers := interruptedWorkers db (db.runs.modify runId fun r => r.interrupt (timestamp clock.now)) runId run
          tasks := db.tasks.modify job.taskId fun row =>
            row.withState (if task.state = .running then .interrupted else .ready)
          jobs := db.jobs.modify runId fun j => j.missing (timestamp clock.now) })) := by
  simp only [interruptMissingProviderJob, bind_eq_ok, orRaise_eq_ok, fencedJob_ok] at h
  obtain ⟨job, ⟨hj, hl⟩, run, hr, task, ht, h⟩ := h
  refine ⟨job, run, task, hj, hl, hr, ht, ?_⟩
  split at h
  · rename_i ha
    cases h
    exact Or.inl ⟨ha, rfl⟩
  · rename_i ha
    cases h
    exact Or.inr ⟨by simpa using ha, rfl⟩

theorem requestExecutionEscalation_ok {code : EscalationCode} {id : String}
    (h : requestExecutionEscalation db runId code lease uuid clock = .ok (id, db')) :
    ∃ job escalations, db.jobs.get? runId = some job ∧
      leaseCurrent db job.taskId lease.owner lease.generation (timestamp clock.lease) = true ∧
      db' = { db with escalations := escalations } := by
  simp only [requestExecutionEscalation, bind_eq_ok, fencedJob_ok] at h
  obtain ⟨job, ⟨hj, hl⟩, h⟩ := h
  split at h
  · cases h
    exact ⟨job, db.escalations, hj, hl, rfl⟩
  · simp only [bind_eq_ok, orRaise_eq_ok, pure_eq_ok, Prod.mk.injEq] at h
    obtain ⟨escalations, -, -, rfl⟩ := h
    exact ⟨job, escalations, hj, hl, rfl⟩

theorem resolveExecutionEscalations_ok {codes : Option (List EscalationCode)} {clock n : Nat}
    (h : resolveExecutionEscalations db runId codes lease clock = .ok (n, db')) :
    ∃ job escalations, db.jobs.get? runId = some job ∧
      leaseCurrent db job.taskId lease.owner lease.generation (timestamp clock) = true ∧
      db' = { db with escalations := escalations } := by
  simp only [resolveExecutionEscalations, bind_eq_ok, fencedJob_ok, pure_eq_ok, Prod.mk.injEq] at h
  obtain ⟨job, ⟨hj, hl⟩, -, rfl⟩ := h
  exact ⟨job, _, hj, hl, rfl⟩

theorem recordAdapterEvent_ok {pid : Option Nat} {lease : LeaseArgs} {clock : Nat} {u : Unit}
    (h : recordAdapterEvent db runId pid lease clock = .ok (u, db')) :
    ∃ run, db.runs.get? runId = some run ∧ requireLeaseArgs db run.taskId lease clock = .ok () ∧
      db' = { db with runs := db.runs.modify runId fun r =>
        { r with detail := { r.detail with processId := pid <|> r.detail.processId } } } := by
  simp only [recordAdapterEvent, bind_eq_ok, orRaise_eq_ok, pure_eq_ok, Prod.mk.injEq] at h
  obtain ⟨run, hr, ⟨⟩, hl, -, rfl⟩ := h
  exact ⟨run, hr, hl, rfl⟩

end AgentFabric.Store
