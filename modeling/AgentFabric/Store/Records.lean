import AgentFabric.Lib.JsonAscii
import AgentFabric.Store.Collection
import AgentFabric.Store.Dependencies
import AgentFabric.Store.Redaction
import AgentFabric.Telemetry.Aggregate

/-!
# Records that are written once

Five operations write a row once and are called again after a crash: the preparation of a provider job, the binding of
its handle, a worker's result, a failure and an amount of usage.  Each redacts and encodes its arguments and compares
the outcome with the stored columns.
-/

namespace AgentFabric.Store.Records

open AgentFabric.Lib AgentFabric.Store.Redaction
open AgentFabric.Resource (EvidenceConfidence)
open AgentFabric.Telemetry (UnavailableReason)

variable (u : UnicodeTables) (F : JsonFloats)

/-! ## Columns -/

/-- The string of a text without surrogates. -/
def stringOf (text : Text) : String := String.ofList (text.map fun c => Char.ofNat c.val)

def redactString (text : String) : String := stringOf (redactText u (lit text))

def compactJson (v : Value F.Val) : Except StoreError String := do
  let text ← orRaise (canonicalText F v) (.typeError "Object is not JSON serializable")
  return stringOf text

/-- The column of a list of texts that may be missing. -/
def redactedTexts (items : Option (List String)) : Except StoreError String :=
  compactJson F (redactSensitive u (.list ((items.getD []).map fun item => .str (lit item))))

/-- What `bind_provider_job_handle` is told of a handle. -/
structure HandleArgs (φ : Type) where
  handleVersion : Nat
  providerJobId : Option String
  providerSessionId : Option String
  runtimePid : Option Nat
  runtimeHost : Option String
  runtimeIdentity : Option String
  adapterMetadata : List (Text × Value φ)

def HandleArgs.check {φ : Type} (args : HandleArgs φ) : Except StoreError Unit := do
  ensure (1 ≤ args.handleVersion) (.valueError "provider job handle_version must be positive")
  ensure (truthy args.providerJobId = true ∨ args.runtimePid.isSome = true)
    (.valueError "provider job handle requires provider or runtime identity")
  ensure (args.runtimePid = none ∨ (truthy args.runtimeHost = true ∧ truthy args.runtimeIdentity = true))
    (.valueError "runtime PID requires host and non-PID process identity")

def HandleArgs.handle (args : HandleArgs F.Val) : Except StoreError JobHandle := do
  args.check
  let safeMetadata ← compactJson F (redactSensitive u (.dict args.adapterMetadata))
  return ⟨args.handleVersion, args.providerJobId, args.providerSessionId, args.runtimePid, args.runtimeHost,
    args.runtimeIdentity, safeMetadata⟩

/-- What `save_worker_result` is told. -/
structure ResultArgs (φ : Type) where
  summary : String
  changedFiles : Option (List String)
  commandsRun : Option (List String)
  tests : Option (List (Value φ))
  artifacts : Option (List String)
  commitHash : Option String
  blockers : Option (List String)
  confidence : Option Rat
  recommendedNextActions : Option (List String)

def ResultArgs.values (args : ResultArgs F.Val) : Except StoreError ResultValues := do
  let changedFilesJson ← redactedTexts u F args.changedFiles
  let commandsRunJson ← redactedTexts u F args.commandsRun
  let testsJson ← compactJson F (redactSensitive u (.list (args.tests.getD [])))
  let artifactsJson ← redactedTexts u F args.artifacts
  let blockersJson ← redactedTexts u F args.blockers
  let recommendedNextActionsJson ← redactedTexts u F args.recommendedNextActions
  return ⟨redactString u args.summary, changedFilesJson, commandsRunJson, testsJson, artifactsJson,
    args.commitHash.map (redactString u), blockersJson, args.confidence, recommendedNextActionsJson⟩

/-- What `record_failure` is told. -/
structure FailureArgs where
  classification : FailureClass
  summary : String
  retryable : Bool
  recordId : Option String
  projectId : Option String
  taskId : Option String
  runId : Option String
  detail : Option String
deriving DecidableEq, Repr

structure FailureRow where
  projectId : Option String
  taskId : Option String
  runId : Option String
  classification : FailureClass
  summary : String
  detail : Option String
  retryable : Bool
deriving DecidableEq, Repr

/-- A task stands for its project. -/
def failureProject (db : Db) (args : FailureArgs) : Except StoreError (Option String) :=
  match args.projectId, args.taskId with
  | none, some taskId => (orRaise (db.tasks.get? taskId) (.keyError taskId)).map fun task => some task.projectId
  | projectId, _ => .ok projectId

def failureRow (db : Db) (args : FailureArgs) : Except StoreError FailureRow := do
  let projectId ← failureProject db args
  return ⟨projectId, args.taskId, args.runId, args.classification, redactString u args.summary,
    if truthy args.detail = true then args.detail.map (redactString u) else none, args.retryable⟩

/-- An amount, or the reason why there is none. -/
structure TelemetryValue where
  value : Option Rat
  confidence : EvidenceConfidence
  reason : Option UnavailableReason
  known : value.isSome = reason.isNone

/-- What `record_usage` is told. -/
structure UsageArgs where
  metric : String
  telemetry : TelemetryValue
  unit : String
  recordId : Option String
  taskId : Option String
  runId : Option String
  workerId : Option String
  modelId : Option String

structure UsageRow where
  taskId : Option String
  runId : Option String
  workerId : Option String
  modelId : Option String
  metric : String
  value : Option Rat
  unit : String
  confidence : EvidenceConfidence
  unavailableReason : Option UnavailableReason
deriving DecidableEq, Repr

def UsageArgs.row (args : UsageArgs) : UsageRow :=
  ⟨args.taskId, args.runId, args.workerId, args.modelId, args.metric, args.telemetry.value, args.unit,
    args.telemetry.confidence, args.telemetry.reason⟩

/-! ## Operations -/

/-- The store with the tables of failures and usage; of projects and models only what exists. -/
structure RecordStore where
  db : Db
  projects : List String
  models : List String
  failures : Table String FailureRow
  usage : Table String UsageRow

def RecordStore.initial : RecordStore := ⟨Db.initial, [], [], .empty, .empty⟩

def bindHandle (db : Db) (runId adapterType adapterInstanceId : String) (args : HandleArgs F.Val) (lease : HeldLease)
    (clock : Clock) : Except StoreError (JobRow × Db) := do
  let handle ← args.handle u F
  bindProviderJobHandle db runId adapterType adapterInstanceId handle lease clock

def saveResult (db : Db) (runId : String) (args : ResultArgs F.Val) (lease : LeaseArgs) (clock : Nat) :
    Except StoreError (Unit × Db) := do
  let values ← args.values u F
  saveWorkerResult db runId values lease clock

/-- `record_id or …`: an empty identifier counts as none. -/
def recordIdOr (recordId : Option String) (fresh : String) : String :=
  if truthy recordId = true then recordId.getD fresh else fresh

/-- A foreign key that is absent or refers to a row. -/
def refers {α : Type} (table : Table String α) (key : Option String) : Bool := key.all fun k => (table.get? k).isSome

def recordFailure (s : RecordStore) (args : FailureArgs) (uuid : String) :
    Except StoreError (String × RecordStore) := do
  let failureId := recordIdOr args.recordId ("failure-" ++ uuid)
  ensure (blank failureId = false) (.valueError "failure record_id must not be empty")
  let expected ← failureRow u s.db args
  match s.failures.get? failureId with
  | some existing => do
    ensure (existing = expected)
      (.runtimeError ("failure record " ++ failureId ++ " conflicts with immutable replay"))
    return (failureId, s)
  | none => do
    ensure (expected.projectId.all (fun p => decide (p ∈ s.projects)) = true ∧
      refers s.db.tasks expected.taskId = true ∧ refers s.db.runs expected.runId = true)
      (.integrityError "FOREIGN KEY constraint failed")
    let failures ← orRaise (s.failures.insert? failureId expected)
      (.integrityError "UNIQUE constraint failed: failures.id")
    return (failureId, { s with failures := failures })

def recordUsage (s : RecordStore) (args : UsageArgs) (uuid : String) : Except StoreError (String × RecordStore) := do
  let usageId := recordIdOr args.recordId ("usg-" ++ uuid)
  ensure (blank usageId = false) (.valueError "usage record_id must not be empty")
  match s.usage.get? usageId with
  | some existing => do
    ensure (existing = args.row) (.runtimeError ("usage record " ++ usageId ++ " conflicts with immutable replay"))
    return (usageId, s)
  | none => do
    ensure (refers s.db.tasks args.taskId = true ∧ refers s.db.runs args.runId = true ∧
      refers s.db.workers args.workerId = true ∧ args.modelId.all (fun m => decide (m ∈ s.models)) = true)
      (.integrityError "FOREIGN KEY constraint failed")
    let usage ← orRaise (s.usage.insert? usageId args.row)
      (.integrityError "UNIQUE constraint failed: usage_records.id")
    return (usageId, { s with usage := usage })

inductive RecordOp (φ : Type) where
  | store (op : StoreOp)
  | createProject (projectId : String)
  | upsertModel (modelId : String)
  | bindHandle (runId adapterType adapterInstanceId : String) (args : HandleArgs φ) (lease : HeldLease) (clock : Clock)
  | saveResult (runId : String) (args : ResultArgs φ) (lease : LeaseArgs) (clock : Nat)
  | recordFailure (args : FailureArgs) (uuid : String)
  | recordUsage (args : UsageArgs) (uuid : String)

variable (dg : Digests)

/-- One transaction. -/
def exec (s : RecordStore) : RecordOp F.Val → Except StoreError RecordStore
  | .store op => (Store.exec dg op s.db).map fun r => { s with db := r.2 }
  | .createProject projectId => do
    ensure (projectId ∉ s.projects) (.integrityError "UNIQUE constraint failed: projects.id")
    return { s with projects := s.projects ++ [projectId] }
  | .upsertModel modelId => .ok { s with models := if modelId ∈ s.models then s.models else s.models ++ [modelId] }
  | .bindHandle runId adapterType adapterInstanceId args lease clock =>
    (bindHandle u F s.db runId adapterType adapterInstanceId args lease clock).map fun r => { s with db := r.2 }
  | .saveResult runId args lease clock => (saveResult u F s.db runId args lease clock).map fun r => { s with db := r.2 }
  | .recordFailure args uuid => (recordFailure u s args uuid).map Prod.snd
  | .recordUsage args uuid => (recordUsage s args uuid).map Prod.snd

/-- The store after an operation; a raised one leaves it as it was. -/
def apply (s : RecordStore) (op : RecordOp F.Val) : RecordStore := (exec u F dg s op).toOption.getD s

def run (s : RecordStore) (ops : List (RecordOp F.Val)) : RecordStore := ops.foldl (apply u F dg) s

/-! ## What stays -/

variable {u F dg}
variable {s s' : RecordStore} {op call call' : RecordOp F.Val} {db db' : Db}

/-- What the rows of a later database have in common with the ones before. -/
structure Grown (db db' : Db) : Prop where
  task : ∀ id task, db.tasks.get? id = some task →
    ∃ task', db'.tasks.get? id = some task' ∧ task'.projectId = task.projectId
  run : ∀ id run, db.runs.get? id = some run →
    ∃ run', db'.runs.get? id = some run' ∧ run'.taskId = run.taskId ∧ run'.workerId = run.workerId
  worker : ∀ id worker, db.workers.get? id = some worker → ∃ worker', db'.workers.get? id = some worker'
  job : ∀ id job, db.jobs.get? id = some job → ∃ job', db'.jobs.get? id = some job' ∧
    job'.adapterType = job.adapterType ∧ job'.adapterInstanceId = job.adapterInstanceId ∧
    job'.launchGeneration = job.launchGeneration ∧ job'.capabilities = job.capabilities ∧
    (job.launchState = .bound → job'.handle = job.handle)
  result : ∀ id values, db.results.get? id = some values → db'.results.get? id = some values

theorem Grown.refl (db : Db) : Grown db db where
  task _ task h := ⟨task, h, rfl⟩
  run _ run h := ⟨run, h, rfl, rfl⟩
  worker _ worker h := ⟨worker, h⟩
  job _ job h := ⟨job, h, rfl, rfl, rfl, rfl, fun _ => rfl⟩
  result _ _ h := h

theorem jobUpdate_handle {id : String} {a b : JobRow} {op : StoreOp} (h : JobUpdate db id a op b)
    (hb : a.launchState = .bound) : b.handle = a.handle := by
  cases h with
  | bound adapterType adapterInstanceId handle lease clock hbindable => simp [JobRow.bindable, hb] at hbindable
  | _ => rfl

theorem exec_grown {op : StoreOp} {r : op.Reply} (h : Store.exec dg op db = .ok (r, db')) : Grown db db' where
  task id task ht := by
    obtain ⟨task', ht', hu⟩ := exec_tasks_some h ht
    exact ⟨task', ht', hu.projectId⟩
  run id run hr := by
    obtain ⟨run', hr', hu⟩ := exec_runs_some h hr
    exact ⟨run', hr', hu.ident.1, hu.ident.2.1⟩
  worker id worker hw := by
    obtain ⟨worker', hw', -⟩ := exec_workers_some h hw
    exact ⟨worker', hw'⟩
  job id job hj := by
    obtain ⟨job', hj', hu⟩ := exec_jobs_some h hj
    obtain ⟨-, -, htype, hinstance, hgeneration, -, hcapabilities⟩ := hu.intent
    exact ⟨job', hj', htype, hinstance, hgeneration, hcapabilities, jobUpdate_handle hu⟩
  result id values hv := exec_results h hv

/-- The rows of the three kinds of records stay. -/
structure Extended (s s' : RecordStore) : Prop where
  db : Grown s.db s'.db
  failures : ∀ id row, s.failures.get? id = some row → s'.failures.get? id = some row
  usage : ∀ id row, s.usage.get? id = some row → s'.usage.get? id = some row

theorem Extended.of_db (h : Grown s.db db') : Extended s { s with db := db' } := ⟨h, fun _ _ h => h, fun _ _ h => h⟩

theorem Extended.refl (s : RecordStore) : Extended s s := .of_db (.refl s.db)

theorem map_eq_ok {ε α β : Type} {x : Except ε α} {f : α → β} {b : β} :
    x.map f = .ok b ↔ ∃ a, x = .ok a ∧ f a = b := by
  cases x <;> simp [Except.map]

theorem insert_keeps {α : Type} {table table' : Table String α} {k id : String} {row new : α}
    (hins : table.insert? k new = some table') (h : table.get? id = some row) : table'.get? id = some row := by
  have hne : id ≠ k := by
    rintro rfl
    rw [Table.insert?_fresh hins] at h
    exact nomatch h
  rw [Table.get?_insert hins, if_neg hne, h]

theorem recordFailure_ok {args : FailureArgs} {uuid id : String} (h : recordFailure u s args uuid = .ok (id, s')) :
    id = recordIdOr args.recordId ("failure-" ++ uuid) ∧ blank id = false ∧
      ∃ row, failureRow u s.db args = .ok row ∧ ((s.failures.get? id = some row ∧ s' = s) ∨
        ∃ failures, s.failures.insert? id row = some failures ∧ s' = { s with failures := failures }) := by
  simp only [recordFailure, bind_eq_ok, ensure_eq_ok] at h
  obtain ⟨-, hblank, row, hrow, h⟩ := h
  split at h
  · next existing hex =>
    simp only [bind_eq_ok, ensure_eq_ok, pure_eq_ok, Prod.mk.injEq] at h
    obtain ⟨-, rfl, rfl, rfl⟩ := h
    exact ⟨rfl, hblank, existing, hrow, Or.inl ⟨hex, rfl⟩⟩
  · simp only [bind_eq_ok, ensure_eq_ok, orRaise_eq_ok, pure_eq_ok, Prod.mk.injEq] at h
    obtain ⟨-, -, failures, hins, rfl, rfl⟩ := h
    exact ⟨rfl, hblank, row, hrow, Or.inr ⟨failures, hins, rfl⟩⟩

theorem recordUsage_ok {args : UsageArgs} {uuid id : String} (h : recordUsage s args uuid = .ok (id, s')) :
    id = recordIdOr args.recordId ("usg-" ++ uuid) ∧ blank id = false ∧
      ((s.usage.get? id = some args.row ∧ s' = s) ∨
        ∃ usage, s.usage.insert? id args.row = some usage ∧ s' = { s with usage := usage }) := by
  simp only [recordUsage, bind_eq_ok, ensure_eq_ok] at h
  obtain ⟨-, hblank, h⟩ := h
  split at h
  · next existing hex =>
    simp only [bind_eq_ok, ensure_eq_ok, pure_eq_ok, Prod.mk.injEq] at h
    obtain ⟨-, rfl, rfl, rfl⟩ := h
    exact ⟨rfl, hblank, Or.inl ⟨hex, rfl⟩⟩
  · simp only [bind_eq_ok, ensure_eq_ok, orRaise_eq_ok, pure_eq_ok, Prod.mk.injEq] at h
    obtain ⟨-, -, usage, hins, rfl, rfl⟩ := h
    exact ⟨rfl, hblank, Or.inr ⟨usage, hins, rfl⟩⟩

/-- Every operation keeps the rows of the records. -/
theorem exec_extended (h : exec u F dg s op = .ok s') : Extended s s' := by
  cases op with
  | store =>
    obtain ⟨⟨r, db'⟩, hexec, rfl⟩ := map_eq_ok.mp h
    exact .of_db (exec_grown hexec)
  | createProject =>
    simp only [exec, bind_eq_ok, pure_eq_ok] at h
    obtain ⟨-, -, rfl⟩ := h
    exact ⟨.refl s.db, fun _ _ h => h, fun _ _ h => h⟩
  | upsertModel =>
    obtain rfl := Except.ok.inj h
    exact ⟨.refl s.db, fun _ _ h => h, fun _ _ h => h⟩
  | bindHandle runId adapterType adapterInstanceId args lease clock =>
    obtain ⟨⟨job, db'⟩, hbind, rfl⟩ := map_eq_ok.mp h
    obtain ⟨handle, -, hbind⟩ := bind_eq_ok.mp hbind
    have hgrown : Store.exec dg (.bindProviderJobHandle runId adapterType adapterInstanceId handle lease clock) s.db =
        .ok (job, db') := hbind
    exact .of_db (exec_grown hgrown)
  | saveResult runId args lease clock =>
    obtain ⟨⟨⟨⟩, db'⟩, hsave, rfl⟩ := map_eq_ok.mp h
    obtain ⟨values, -, hsave⟩ := bind_eq_ok.mp hsave
    have hgrown : Store.exec dg (.saveWorkerResult runId values lease clock) s.db = .ok ((), db') := hsave
    exact .of_db (exec_grown hgrown)
  | recordFailure =>
    obtain ⟨⟨id, _⟩, hrecord, rfl⟩ := map_eq_ok.mp h
    obtain ⟨-, -, row, -, ⟨-, rfl⟩ | ⟨failures, hins, rfl⟩⟩ := recordFailure_ok hrecord
    · exact .refl _
    · exact ⟨.refl _, fun _ _ h => insert_keeps hins h, fun _ _ h => h⟩
  | recordUsage =>
    obtain ⟨⟨id, _⟩, hrecord, rfl⟩ := map_eq_ok.mp h
    obtain ⟨-, -, ⟨-, rfl⟩ | ⟨usage, hins, rfl⟩⟩ := recordUsage_ok hrecord
    · exact .refl _
    · exact ⟨.refl _, fun _ _ h => h, fun _ _ h => insert_keeps hins h⟩

theorem apply_extended (s : RecordStore) (op : RecordOp F.Val) : Extended s (apply u F dg s op) := by
  unfold apply
  cases h : exec u F dg s op with
  | error => exact .refl s
  | ok => exact exec_extended h

theorem failureRow_grown {args : FailureArgs} {row : FailureRow} (hg : Grown db db')
    (h : failureRow u db args = .ok row) : failureRow u db' args = .ok row := by
  simp only [failureRow, bind_eq_ok, pure_eq_ok] at h ⊢
  obtain ⟨projectId, hproject, rfl⟩ := h
  refine ⟨projectId, ?_, rfl⟩
  unfold failureProject at hproject ⊢
  split at hproject
  · next taskId _ _ =>
    obtain ⟨task, htask, rfl⟩ := map_eq_ok.mp hproject
    obtain ⟨task', htask', hsame⟩ := hg.task taskId task (orRaise_eq_ok.mp htask)
    rw [htask', ← hsame]
    rfl
  · exact hproject

/-! ## The row of a call -/

/-- The row that a call writes is there, with the columns that its arguments stand for. -/
def Stored (u : UnicodeTables) (F : JsonFloats) (s : RecordStore) : RecordOp F.Val → Prop
  | .store (.prepareProviderJob runId adapterType adapterInstanceId capabilities lease _ _) =>
    blank adapterType = false ∧ blank adapterInstanceId = false ∧ capabilities.valid = true ∧
    ∃ run task worker job, s.db.runs.get? runId = some run ∧ s.db.tasks.get? run.taskId = some task ∧
      s.db.workers.get? run.workerId = some worker ∧ s.db.jobs.get? runId = some job ∧
      (job.adapterType, job.adapterInstanceId, job.launchGeneration, job.capabilities) =
        (adapterType, adapterInstanceId, lease.generation, capabilities)
  | .bindHandle runId adapterType adapterInstanceId args _ _ =>
    ∃ job, s.db.jobs.get? runId = some job ∧ job.launchState = .bound ∧ job.adapterType = adapterType ∧
      job.adapterInstanceId = adapterInstanceId ∧ args.handle u F = .ok job.handle
  | .saveResult runId args _ _ =>
    ∃ run values, s.db.runs.get? runId = some run ∧ args.values u F = .ok values ∧
      s.db.results.get? runId = some values
  | .recordFailure args _ =>
    ∀ id, args.recordId = some id → id ≠ "" → blank id = false ∧ ∃ row, failureRow u s.db args = .ok row ∧
      s.failures.get? id = some row
  | .recordUsage args _ => ∀ id, args.recordId = some id → id ≠ "" → blank id = false ∧ s.usage.get? id = some args.row
  | _ => True

/-- The job of a binding is bound. -/
def Bound (s : RecordStore) : RecordOp F.Val → Prop
  | .bindHandle runId _ _ _ _ _ => ∃ job, s.db.jobs.get? runId = some job ∧ job.launchState = .bound
  | _ => True

theorem recordIdOr_some {id fresh : String} (hid : id ≠ "") : recordIdOr (some id) fresh = id := by
  simp [recordIdOr, truthy, hid]

/-- Afterwards the row is there. -/
theorem stored_of_exec (h : exec u F dg s call = .ok s') : Stored u F s' call := by
  cases call with
  | store op =>
    cases op with
    | prepareProviderJob =>
      obtain ⟨⟨job, db'⟩, hexec, rfl⟩ := map_eq_ok.mp h
      simp only [Store.exec, prepareProviderJob, bind_eq_ok, ensure_eq_ok, orRaise_eq_ok] at hexec
      obtain ⟨-, htype, -, hinstance, -, hvalid, run, hrun, task, htask, worker, hworker, -, -, hexec⟩ := hexec
      refine ⟨htype, hinstance, hvalid, run, task, worker, ?_⟩
      split at hexec
      · next existing hex =>
        simp only [bind_eq_ok, ensure_eq_ok, pure_eq_ok, Prod.mk.injEq] at hexec
        obtain ⟨-, ⟨rfl, rfl, hgeneration, rfl⟩, rfl, rfl⟩ := hexec
        exact ⟨existing, hrun, htask, hworker, hex, by rw [hgeneration]⟩
      · simp only [bind_eq_ok, ensure_eq_ok, orRaise_eq_ok, pure_eq_ok, Prod.mk.injEq] at hexec
        obtain ⟨-, -, jobs, hins, rfl, rfl⟩ := hexec
        exact ⟨_, hrun, htask, hworker, by rw [Table.get?_insert hins, if_pos rfl], rfl⟩
    | _ => trivial
  | bindHandle runId adapterType adapterInstanceId args lease clock =>
    obtain ⟨⟨job, db'⟩, hexec, rfl⟩ := map_eq_ok.mp h
    obtain ⟨handle, hhandle, hexec⟩ := bind_eq_ok.mp hexec
    simp only [bindProviderJobHandle, bind_eq_ok, ensure_eq_ok, fencedJob_ok] at hexec
    obtain ⟨-, -, -, -, -, -, old, ⟨hold, -⟩, -, ⟨htype, hinstance⟩, hexec⟩ := hexec
    split at hexec
    · next hbound =>
      simp only [bind_eq_ok, ensure_eq_ok, pure_eq_ok, Prod.mk.injEq] at hexec
      obtain ⟨-, rfl, rfl, rfl⟩ := hexec
      exact ⟨old, hold, hbound, htype, hinstance, hhandle⟩
    · simp only [bind_eq_ok, ensure_eq_ok, pure_eq_ok, Prod.mk.injEq] at hexec
      obtain ⟨-, -, -, -, rfl, rfl⟩ := hexec
      exact ⟨old.bind handle (timestamp clock.now), by simp [writeJob, hold], rfl, htype, hinstance, hhandle⟩
  | saveResult =>
    obtain ⟨⟨⟨⟩, db'⟩, hexec, rfl⟩ := map_eq_ok.mp h
    obtain ⟨values, hvalues, hexec⟩ := bind_eq_ok.mp hexec
    obtain ⟨run, hrun, -, ⟨hresult, rfl⟩ | ⟨results, hins, rfl⟩⟩ := saveWorkerResult_ok hexec
    · exact ⟨run, values, hrun, hvalues, hresult⟩
    · exact ⟨run, values, hrun, hvalues, by rw [Table.get?_insert hins, if_pos rfl]⟩
  | recordFailure =>
    intro id hid hne
    obtain ⟨⟨id', _⟩, hexec, rfl⟩ := map_eq_ok.mp h
    obtain ⟨rfl, hblank, row, hrow, hstored⟩ := recordFailure_ok hexec
    rw [hid, recordIdOr_some hne] at hblank hstored
    rcases hstored with ⟨hstored, rfl⟩ | ⟨failures, hins, rfl⟩
    · exact ⟨hblank, row, hrow, hstored⟩
    · exact ⟨hblank, row, hrow, by rw [Table.get?_insert hins, if_pos rfl]⟩
  | recordUsage =>
    intro id hid hne
    obtain ⟨⟨id', _⟩, hexec, rfl⟩ := map_eq_ok.mp h
    obtain ⟨rfl, hblank, hstored⟩ := recordUsage_ok hexec
    rw [hid, recordIdOr_some hne] at hblank hstored
    rcases hstored with ⟨hstored, rfl⟩ | ⟨usage, hins, rfl⟩
    · exact ⟨hblank, hstored⟩
    · exact ⟨hblank, by rw [Table.get?_insert hins, if_pos rfl]⟩
  | createProject => trivial
  | upsertModel => trivial

/-- It stays; a handle as long as the job is bound. -/
theorem Stored.extended (h : Stored u F s call) (hs : Extended s s') (hbound : Bound s' call) : Stored u F s' call := by
  cases call with
  | store op =>
    cases op with
    | prepareProviderJob =>
      obtain ⟨htype, hinstance, hvalid, run, task, worker, job, hrun, htask, hworker, hjob, hcolumns⟩ := h
      obtain ⟨run', hrun', htaskId, hworkerId⟩ := hs.db.run _ _ hrun
      obtain ⟨task', htask', -⟩ := hs.db.task _ _ htask
      obtain ⟨worker', hworker'⟩ := hs.db.worker _ _ hworker
      obtain ⟨job', hjob', hsame₁, hsame₂, hsame₃, hsame₄, -⟩ := hs.db.job _ _ hjob
      refine ⟨htype, hinstance, hvalid, run', task', worker', job', hrun', ?_, ?_, hjob', ?_⟩
      · rw [htaskId, htask']
      · rw [hworkerId, hworker']
      · rw [hsame₁, hsame₂, hsame₃, hsame₄, hcolumns]
    | _ => trivial
  | bindHandle =>
    obtain ⟨job, hjob, hbefore, htype, hinstance, hhandle⟩ := h
    obtain ⟨job', hjob', hsame₁, hsame₂, -, -, hkept⟩ := hs.db.job _ _ hjob
    obtain ⟨_, hjob'', hafter⟩ := hbound
    obtain rfl := Option.some.inj (hjob'.symm.trans hjob'')
    exact ⟨job', hjob', hafter, by rw [hsame₁, htype], by rw [hsame₂, hinstance], by rw [hkept hbefore, hhandle]⟩
  | saveResult =>
    obtain ⟨run, values, hrun, hvalues, hresult⟩ := h
    obtain ⟨run', hrun', -⟩ := hs.db.run _ _ hrun
    exact ⟨run', values, hrun', hvalues, hs.db.result _ _ hresult⟩
  | recordFailure =>
    intro id hid hne
    obtain ⟨hblank, row, hrow, hstored⟩ := h id hid hne
    exact ⟨hblank, row, failureRow_grown hs.db hrow, hs.failures _ _ hstored⟩
  | recordUsage =>
    intro id hid hne
    obtain ⟨hblank, hstored⟩ := h id hid hne
    exact ⟨hblank, hs.usage _ _ hstored⟩
  | createProject => trivial
  | upsertModel => trivial

/-! ## Replays and conflicts -/

/-- The same call again, at another time. -/
inductive Again : RecordOp F.Val → RecordOp F.Val → Prop
  | prepare (runId adapterType adapterInstanceId : String) (capabilities : JobCapabilities) (lease : HeldLease)
      (uuid uuid' : String) (clock clock' : Clock) :
      Again (.store (.prepareProviderJob runId adapterType adapterInstanceId capabilities lease uuid clock))
        (.store (.prepareProviderJob runId adapterType adapterInstanceId capabilities lease uuid' clock'))
  | bind (runId adapterType adapterInstanceId : String) (args : HandleArgs F.Val) (lease : HeldLease)
      (clock clock' : Clock) :
      Again (.bindHandle runId adapterType adapterInstanceId args lease clock)
        (.bindHandle runId adapterType adapterInstanceId args lease clock')
  | result (runId : String) (args : ResultArgs F.Val) (lease : LeaseArgs) (clock clock' : Nat) :
      Again (.saveResult runId args lease clock) (.saveResult runId args lease clock')
  | failure (id : String) (args : FailureArgs) (hid : args.recordId = some id) (hne : id ≠ "") (uuid uuid' : String) :
      Again (.recordFailure args uuid) (.recordFailure args uuid')
  | usage (id : String) (args : UsageArgs) (hid : args.recordId = some id) (hne : id ≠ "") (uuid uuid' : String) :
      Again (.recordUsage args uuid) (.recordUsage args uuid')

/-- A call with the identity of another one, whose arguments stand for other columns. -/
inductive Conflicts (u : UnicodeTables) (F : JsonFloats) (s : RecordStore) : RecordOp F.Val → RecordOp F.Val → Prop
  | prepare (runId adapterType adapterType' adapterInstanceId adapterInstanceId' : String)
      (capabilities capabilities' : JobCapabilities) (lease lease' : HeldLease) (uuid uuid' : String)
      (clock clock' : Clock) (h : (adapterType, adapterInstanceId, lease.generation, capabilities) ≠
        (adapterType', adapterInstanceId', lease'.generation, capabilities')) :
      Conflicts u F s (.store (.prepareProviderJob runId adapterType adapterInstanceId capabilities lease uuid clock))
        (.store (.prepareProviderJob runId adapterType' adapterInstanceId' capabilities' lease' uuid' clock'))
  | bind (runId adapterType adapterType' adapterInstanceId adapterInstanceId' : String)
      (args args' : HandleArgs F.Val) (lease lease' : HeldLease) (clock clock' : Clock)
      (h : (adapterType, adapterInstanceId, args.handle u F) ≠ (adapterType', adapterInstanceId', args'.handle u F)) :
      Conflicts u F s (.bindHandle runId adapterType adapterInstanceId args lease clock)
        (.bindHandle runId adapterType' adapterInstanceId' args' lease' clock')
  | result (runId : String) (args args' : ResultArgs F.Val) (lease lease' : LeaseArgs) (clock clock' : Nat)
      (h : args.values u F ≠ args'.values u F) :
      Conflicts u F s (.saveResult runId args lease clock) (.saveResult runId args' lease' clock')
  | failure (id : String) (args args' : FailureArgs) (hid : args.recordId = some id) (hid' : args'.recordId = some id)
      (hne : id ≠ "") (uuid uuid' : String) (h : failureRow u s.db args ≠ failureRow u s.db args') :
      Conflicts u F s (.recordFailure args uuid) (.recordFailure args' uuid')
  | usage (id : String) (args args' : UsageArgs) (hid : args.recordId = some id) (hid' : args'.recordId = some id)
      (hne : id ≠ "") (uuid uuid' : String) (h : args.row ≠ args'.row) :
      Conflicts u F s (.recordUsage args uuid) (.recordUsage args' uuid')

/-- The lease of a call is live at its clock reading. -/
def Live (s : RecordStore) : RecordOp F.Val → Prop
  | .store (.prepareProviderJob runId _ _ _ lease _ clock) => ∀ run, s.db.runs.get? runId = some run →
    requireTaskExecutionLease s.db run.taskId lease.owner lease.generation clock.lease = .ok ()
  | .bindHandle runId _ _ _ lease clock => ∀ job, s.db.jobs.get? runId = some job →
    requireTaskExecutionLease s.db job.taskId lease.owner lease.generation clock.lease = .ok ()
  | .saveResult runId _ lease clock => ∀ run, s.db.runs.get? runId = some run →
    requireLeaseArgs s.db run.taskId lease clock = .ok ()
  | _ => True

/-- The same call under a live lease changes nothing. -/
theorem Stored.replay (h : Stored u F s call) (hagain : Again call call') (hlive : Live s call') :
    exec u F dg s call' = .ok s := by
  cases hagain with
  | prepare runId adapterType adapterInstanceId capabilities lease uuid uuid' clock clock' =>
    obtain ⟨htype, hinstance, hvalid, run, task, worker, job, hrun, htask, hworker, hjob, hcolumns⟩ := h
    simp only [Prod.mk.injEq] at hcolumns
    have hlease := hlive run hrun
    have hprepare : prepareProviderJob s.db runId adapterType adapterInstanceId capabilities lease uuid' clock' =
        .ok (job, s.db) := by
      simp only [prepareProviderJob, bind_eq_ok, ensure_eq_ok, orRaise_eq_ok, hjob, pure_eq_ok]
      exact ⟨(), htype, (), hinstance, (), hvalid, run, hrun, task, htask, worker, hworker, (), hlease, (), hcolumns,
        trivial⟩
    exact map_eq_ok.mpr ⟨(job, s.db), hprepare, rfl⟩
  | bind runId adapterType adapterInstanceId args lease clock clock' =>
    obtain ⟨job, hjob, hbefore, htype, hinstance, hhandle⟩ := h
    have hbind : bindProviderJobHandle s.db runId adapterType adapterInstanceId job.handle lease clock' =
        .ok (job, s.db) := by
      obtain ⟨⟨⟩, hcheck, metadata, -, hcolumns⟩ : ∃ u, args.check = .ok u ∧ ∃ metadata, _ ∧ _ := by
        simpa only [HandleArgs.handle, bind_eq_ok, pure_eq_ok] using hhandle
      simp only [HandleArgs.check, bind_eq_ok, ensure_eq_ok] at hcheck
      obtain ⟨-, hversion, -, hidentity, hpid⟩ := hcheck
      simp only [bindProviderJobHandle, bind_eq_ok, ensure_eq_ok, fencedJob_ok, ← hcolumns]
      refine ⟨(), hversion, (), hidentity, (), hpid, job, ⟨hjob, ?_⟩, (), ⟨htype, hinstance⟩, ?_⟩
      · exact requireTaskExecutionLease_eq_ok.mp (hlive job hjob)
      · simp only [if_pos hbefore, bind_eq_ok, ensure_eq_ok, pure_eq_ok]
        exact ⟨(), hcolumns.symm, trivial⟩
    exact map_eq_ok.mpr ⟨(job, s.db), bind_eq_ok.mpr ⟨job.handle, hhandle, hbind⟩, rfl⟩
  | result runId args lease clock clock' =>
    obtain ⟨run, values, hrun, hvalues, hresult⟩ := h
    have hsave : saveWorkerResult s.db runId values lease clock' = .ok ((), s.db) := by
      simp only [saveWorkerResult, bind_eq_ok, ensure_eq_ok, orRaise_eq_ok, hresult, pure_eq_ok]
      exact ⟨run, hrun, (), hlive run hrun, (), trivial, trivial⟩
    exact map_eq_ok.mpr ⟨((), s.db), bind_eq_ok.mpr ⟨values, hvalues, hsave⟩, rfl⟩
  | failure id args hid hne uuid uuid' =>
    obtain ⟨hblank, row, hrow, hstored⟩ := h id hid hne
    have hrecord : recordFailure u s args uuid' = .ok (id, s) := by
      simp only [recordFailure, hid, recordIdOr_some hne, bind_eq_ok, ensure_eq_ok, hrow]
      refine ⟨(), hblank, row, rfl, ?_⟩
      simp only [hstored, bind_eq_ok, ensure_eq_ok, pure_eq_ok]
      exact ⟨(), trivial, trivial⟩
    exact map_eq_ok.mpr ⟨(id, s), hrecord, rfl⟩
  | usage id args hid hne uuid uuid' =>
    obtain ⟨hblank, hstored⟩ := h id hid hne
    have hrecord : recordUsage s args uuid' = .ok (id, s) := by
      simp only [recordUsage, hid, recordIdOr_some hne, bind_eq_ok, ensure_eq_ok, hstored, pure_eq_ok]
      exact ⟨(), hblank, (), trivial, trivial⟩
    exact map_eq_ok.mpr ⟨(id, s), hrecord, rfl⟩

/-- Another call with the same identity is refused: the row would have to have the columns of both. -/
theorem Stored.conflict (h : Stored u F s call) (hconflict : Conflicts u F s call call') :
    ∃ e, exec u F dg s call' = .error e := by
  cases hexec : exec u F dg s call' with
  | error e => exact ⟨e, rfl⟩
  | ok =>
    exfalso
    have hs := exec_extended hexec
    have hnew := stored_of_exec hexec
    cases hconflict with
    | prepare runId _ _ _ _ _ _ _ _ _ _ _ _ hne =>
      obtain ⟨-, -, -, -, -, -, job, -, -, -, hjob, hcolumns⟩ := h.extended hs trivial
      obtain ⟨-, -, -, -, -, -, job', -, -, -, hjob', hcolumns'⟩ := hnew
      obtain rfl := Option.some.inj (hjob.symm.trans hjob')
      exact hne (hcolumns.symm.trans hcolumns')
    | bind runId _ _ _ _ _ _ _ _ _ _ hne =>
      obtain ⟨job', hjob', hbound', htype', hinstance', hhandle'⟩ := hnew
      obtain ⟨job, hjob, -, htype, hinstance, hhandle⟩ := h.extended hs ⟨job', hjob', hbound'⟩
      obtain rfl := Option.some.inj (hjob.symm.trans hjob')
      exact hne (by rw [hhandle, hhandle', ← htype, ← htype', ← hinstance, ← hinstance'])
    | result runId _ _ _ _ _ _ hne =>
      obtain ⟨-, values, -, hvalues, hresult⟩ := h.extended hs trivial
      obtain ⟨-, values', -, hvalues', hresult'⟩ := hnew
      obtain rfl := Option.some.inj (hresult.symm.trans hresult')
      exact hne (hvalues.trans hvalues'.symm)
    | failure id args args' hid hid' hid0 _ uuid' hne =>
      obtain ⟨-, row, hrow, hstored⟩ := h id hid hid0
      obtain ⟨⟨_, _⟩, hrecord, rfl⟩ := map_eq_ok.mp hexec
      obtain ⟨rfl, -, row', hrow', hcases⟩ := recordFailure_ok hrecord
      rw [hid', recordIdOr_some hid0] at hcases
      rcases hcases with ⟨hstored', -⟩ | ⟨failures, hins, -⟩
      · obtain rfl := Option.some.inj (hstored.symm.trans hstored')
        exact hne (hrow.trans hrow'.symm)
      · rw [Table.insert?_fresh hins] at hstored
        exact nomatch hstored
    | usage id args args' hid hid' hid0 _ uuid' hne =>
      obtain ⟨-, hstored⟩ := h.extended hs trivial id hid hid0
      obtain ⟨-, hstored'⟩ := hnew id hid' hid0
      exact hne (Option.some.inj (hstored.symm.trans hstored'))

/-- The job of a binding stays bound from call to call. -/
def StillBound (u : UnicodeTables) (F : JsonFloats) (dg : Digests) (s : RecordStore) (call : RecordOp F.Val)
    (later : List (RecordOp F.Val)) : Prop := ∀ mid, mid <+: later → Bound (run u F dg s mid) call

theorem Stored.run (h : Stored u F s call) {later : List (RecordOp F.Val)}
    (hbound : StillBound u F dg s call later) : Stored u F (run u F dg s later) call := by
  induction later using List.reverseRecOn with
  | nil => exact h
  | append_singleton later op ih =>
    have hbefore := ih fun mid hmid => hbound mid (hmid.trans (List.prefix_append _ _))
    have hafter := hbound (later ++ [op]) (List.prefix_refl _)
    rw [Records.run, List.foldl_append] at hafter ⊢
    exact hbefore.extended (apply_extended _ op) hafter

/-- A call that was committed, and again or in conflict after any later operations. -/
def ReplaySafe (u : UnicodeTables) (F : JsonFloats) (dg : Digests) (earlier : List (RecordOp F.Val))
    (call : RecordOp F.Val) (later : List (RecordOp F.Val)) : Prop :=
  ∀ committed, exec u F dg (run u F dg .initial earlier) call = .ok committed →
    StillBound u F dg committed call later → ∀ call',
    (Again call call' → Live (run u F dg committed later) call' →
      exec u F dg (run u F dg committed later) call' = .ok (run u F dg committed later)) ∧
    (Conflicts u F (run u F dg committed later) call call' →
      ∃ e, exec u F dg (run u F dg committed later) call' = .error e)

/-- **Replays are no-ops and conflicts are rejected.** After any later operations the same call under a live lease
leaves every row as it is and does not raise; a call with the same identity that would store another value in a
compared column raises. -/
theorem replays_safe (u : UnicodeTables) (F : JsonFloats) (dg : Digests) (earlier : List (RecordOp F.Val))
    (call : RecordOp F.Val) (later : List (RecordOp F.Val)) : ReplaySafe u F dg earlier call later := by
  intro committed hexec hbound call'
  have hstored := (stored_of_exec hexec).run hbound
  exact ⟨fun hagain hlive => hstored.replay hagain hlive, fun hconflict => hstored.conflict hconflict⟩

/-- An amount of tokens under a record id. -/
def usageOf (tokens : Rat) : UsageArgs where
  metric := "tokens"
  telemetry := ⟨some tokens, .exact, none, rfl⟩
  unit := "token"
  recordId := some "usage"
  taskId := none
  runId := none
  workerId := none
  modelId := some "model"

theorem replays_safe_usage :
    let earlier := run asciiTables sampleFloats .trivial .initial [.upsertModel "model", .recordUsage (usageOf 3) "1"]
    let later := run asciiTables sampleFloats .trivial earlier [.createProject "p"]
    exec asciiTables sampleFloats .trivial later (.recordUsage (usageOf 3) "2") = .ok later ∧
      ∃ e, exec asciiTables sampleFloats .trivial later (.recordUsage (usageOf 4) "2") = .error e := by
  have h := replays_safe asciiTables sampleFloats .trivial [.upsertModel "model"] (.recordUsage (usageOf 3) "1")
    [.createProject "p"] _ rfl fun _ _ => trivial
  exact ⟨(h _).1 (.usage "usage" _ rfl (by decide) _ _) trivial,
    (h _).2 (.usage "usage" _ _ rfl rfl (by decide) _ _ (by simp [UsageArgs.row, usageOf]))⟩

end AgentFabric.Store.Records
