import AgentFabric.LocalWorker.Model
import Mathlib.Data.List.Pairwise

/-!
# The launch registry

`LaunchRegistry` of `local_worker_v2/registry.py`: one table of launch records whose identity columns are unique.
-/

namespace AgentFabric.LocalWorker

inductive RegistryError where
  | unavailable
  | idempotencyConflict (existing : LaunchRecord)
  | keyError (key : String)
  | runtimeError (message : String)
  | valueError (message : String)
deriving DecidableEq, Repr

/-- Two records differ in every unique column: the primary key, the launch key, the job, the receipt, the nonce. -/
def LaunchRecord.distinct (r r' : LaunchRecord) : Prop :=
  r.launchRecordId ≠ r'.launchRecordId ∧
    ¬ (r.authorityScope = r'.authorityScope ∧ r.idempotencyKey = r'.idempotencyKey) ∧
    (r.jobId = none ∨ r.jobId ≠ r'.jobId) ∧ r.receiptId ≠ r'.receiptId ∧
    (r.launchNonce = none ∨ r.launchNonce ≠ r'.launchNonce)

instance : DecidableRel LaunchRecord.distinct := fun r r' => by
  unfold LaunchRecord.distinct
  infer_instance

/-- The table `launch_records`, in insertion order. -/
structure Registry where
  rows : List LaunchRecord
  unique : rows.Pairwise LaunchRecord.distinct

namespace Registry

def empty : Registry := ⟨[], List.Pairwise.nil⟩

/-- The rows after a statement; an integrity error makes the registry unavailable. -/
def write (rows : List LaunchRecord) : Except RegistryError Registry :=
  if h : rows.Pairwise LaunchRecord.distinct then .ok ⟨rows, h⟩ else .error .unavailable

def byKey (reg : Registry) (scope key : String) : Option LaunchRecord :=
  reg.rows.find? fun r => r.authorityScope = scope ∧ r.idempotencyKey = key

def insert (reg : Registry) (r : LaunchRecord) : Except RegistryError Registry := write (reg.rows ++ [r])

/-- `UPDATE … WHERE launch_record_id = ?`. -/
def update (reg : Registry) (id : String) (f : LaunchRecord → LaunchRecord) : Except RegistryError Registry :=
  write (reg.rows.map fun r => if r.launchRecordId = id then f r else r)

end Registry

def validateIdempotencyKey (key : String) : Except RegistryError Unit :=
  ensure (validIdempotencyKey key)
    (.valueError "idempotency_key must be 1-256 characters using letters, digits, '.', '_', ':', or '-'")

def validateDigest (digest : String) : Except RegistryError Unit :=
  ensure (isDigest digest) (.valueError "request_digest must be a sha256 digest")

/-- The identities that a transaction draws, and its clock. -/
structure Draw where
  recordId : String
  jobId : String
  receiptId : String
  nonce : String
  now : String
deriving DecidableEq, Repr

/-- The record under the key, or the record that `fresh` inserts: the common part of the two ways to bind a key. -/
def bindKey (reg : Registry) (scope key digest : String) (fresh : LaunchRecord) :
    Except RegistryError ((LaunchRecord × Bool) × Registry) := do
  match reg.byKey scope key with
  | some existing =>
    if existing.requestDigest ≠ digest then throw (.idempotencyConflict existing)
    return ((existing, false), reg)
  | none =>
    let reg ← reg.insert fresh
    return ((fresh, true), reg)

def reserve (reg : Registry) (scope key digest : String) (driver : DriverBinding) (draw : Draw) :
    Except RegistryError ((LaunchRecord × Bool) × Registry) := do
  validateIdempotencyKey key
  validateDigest digest
  (validateDriverBinding driver).mapError .valueError
  bindKey reg scope key digest
    { launchRecordId := "launch-" ++ draw.recordId
      authorityScope := scope
      idempotencyKey := key
      requestDigest := digest
      driver := some driver
      launchRuntimeInstanceId := none
      launchState := .reserved
      jobId := some ("local-job-" ++ draw.jobId)
      receiptId := "receipt-" ++ draw.receiptId
      launchNonce := none
      processPid := none
      processBirthIdentity := none
      processHostIdentity := none
      createdAt := draw.now
      launchError := none
      resultJson := none
      exitCode := none }

/-- The driver arguments of a rejection; a known driver is known completely. -/
structure DriverArgs where
  driverId : Option String
  driverType : Option String
  profileRevision : Option Int
  profileFingerprint : Option String
deriving DecidableEq, Repr

def DriverArgs.complete : DriverArgs → Except RegistryError (Option DriverBinding)
  | ⟨none, none, none, none⟩ => .ok none
  | ⟨some driverId, some driverType, some revision, some fingerprint⟩ => do
    let driver := ⟨driverId, driverType, revision, fingerprint⟩
    (validateDriverBinding driver).mapError .valueError
    return some driver
  | _ => .error (.valueError "pre-launch driver identity must be complete when known")

def rejectPreLaunch (reg : Registry) (scope key digest reason : String) (driver : DriverArgs) (draw : Draw) :
    Except RegistryError ((LaunchRecord × Bool) × Registry) := do
  validateIdempotencyKey key
  validateDigest digest
  let driver ← driver.complete
  bindKey reg scope key digest
    { launchRecordId := "launch-" ++ draw.recordId
      authorityScope := scope
      idempotencyKey := key
      requestDigest := digest
      driver := driver
      launchRuntimeInstanceId := none
      launchState := .rejectedPreLaunch
      jobId := none
      receiptId := "receipt-" ++ draw.receiptId
      launchNonce := none
      processPid := none
      processBirthIdentity := none
      processHostIdentity := none
      createdAt := draw.now
      launchError := some (String.ofList (reason.toList.take 1000))
      resultJson := none
      exitCode := none }

def requireKey (reg : Registry) (scope key : String) : Except RegistryError LaunchRecord :=
  orRaise (reg.byKey scope key) (.keyError key)

def LaunchRecord.launch (nonce runtimeInstanceId : String) (r : LaunchRecord) : LaunchRecord :=
  { r with launchState := .launching, launchNonce := some nonce, launchRuntimeInstanceId := some runtimeInstanceId }

/-- The `RESERVED` compare-and-set: the reply says whether the caller owns the spawn. -/
def claimSpawn (reg : Registry) (scope key runtimeInstanceId : String) (draw : Draw) :
    Except RegistryError ((LaunchRecord × Bool) × Registry) := do
  validateIdempotencyKey key
  ensure (blank runtimeInstanceId = false ∧ runtimeInstanceId.length ≤ 200)
    (.valueError "runtime_instance_id must be a bounded non-empty identity")
  let record ← requireKey reg scope key
  if record.launchState ≠ .reserved then return ((record, false), reg)
  let nonce := "nonce-" ++ draw.nonce
  let reg ← reg.update record.launchRecordId (·.launch nonce runtimeInstanceId)
  return ((record.launch nonce runtimeInstanceId, true), reg)

/-- The launch identity that a receipt has to name. -/
structure Receipt where
  jobId : String
  nonce : String
  digest : String
deriving DecidableEq, Repr

def LaunchRecord.names (r : LaunchRecord) (receipt : Receipt) : Bool :=
  r.jobId = some receipt.jobId && r.launchNonce = some receipt.nonce && r.requestDigest = receipt.digest

def LaunchRecord.start (pid : Int) (birth host : String) (r : LaunchRecord) : LaunchRecord :=
  { r with launchState := .running, processPid := some pid, processBirthIdentity := some birth,
           processHostIdentity := some host, launchError := none }

def recordStarted (reg : Registry) (scope key : String) (receipt : Receipt) (pid : Int) (birth host : String) :
    Except RegistryError (LaunchRecord × Registry) := do
  validateIdempotencyKey key
  ensure (0 < pid) (.valueError "process pid must be positive")
  let record ← requireKey reg scope key
  ensure (record.names receipt) (.runtimeError "started receipt does not match the durable launch identity")
  match record.launchState with
  | .running =>
    ensure (record.processPid = some pid ∧ record.processBirthIdentity = some birth ∧
        record.processHostIdentity = some host)
      (.runtimeError "running process identity is immutable")
    return (record, reg)
  | .launching =>
    let reg ← reg.update record.launchRecordId (·.start pid birth host)
    return (record.start pid birth host, reg)
  | state => throw (.runtimeError ("cannot attach process to " ++ state.value))

def LaunchRecord.withError (detail : String) (r : LaunchRecord) : LaunchRecord :=
  { r with launchError := some (String.ofList (detail.toList.take 1000)) }

def recordLaunchError (reg : Registry) (scope key detail : String) :
    Except RegistryError (LaunchRecord × Registry) := do
  validateIdempotencyKey key
  let record ← requireKey reg scope key
  let reg ← reg.update record.launchRecordId (·.withError detail)
  return (record.withError detail, reg)

def LaunchRecord.finish (state : LaunchState) (result : String) (exitCode : Option Int) (r : LaunchRecord) :
    LaunchRecord :=
  { r with launchState := state, resultJson := some result, exitCode := exitCode, launchError := none }

def recordTerminal (reg : Registry) (scope key : String) (receipt : Receipt) (state : LaunchState) (result : String)
    (exitCode : Option Int) : Except RegistryError (LaunchRecord × Registry) := do
  ensure state.ended (.valueError "terminal process receipt has a non-terminal state")
  validateIdempotencyKey key
  let record ← requireKey reg scope key
  ensure (record.names receipt) (.runtimeError "terminal receipt does not match the durable launch identity")
  if record.launchState.ended then
    ensure (record.launchState = state ∧ record.resultJson = some result ∧ record.exitCode = exitCode)
      (.runtimeError "terminal launch result is immutable")
    return (record, reg)
  let reg ← reg.update record.launchRecordId (·.finish state result exitCode)
  return (record.finish state result exitCode, reg)

def getLaunch (reg : Registry) (scope key : String) : Except RegistryError (Option LaunchRecord) := do
  validateIdempotencyKey key
  return reg.byKey scope key

def getJob (reg : Registry) (scope jobId : String) : Except RegistryError (Option LaunchRecord) := do
  ensure (blank jobId = false ∧ jobId.length ≤ 256) (.valueError "job_id must be a bounded non-empty string")
  return reg.rows.find? fun r => r.authorityScope = scope ∧ r.jobId = some jobId

/-- `ORDER BY created_at, launch_record_id`. -/
def listLaunches (reg : Registry) (scope : String) : List LaunchRecord :=
  (reg.rows.filter (·.authorityScope = scope)).mergeSort fun r r' =>
    decide (r.createdAt < r'.createdAt ∨ (r.createdAt = r'.createdAt ∧ r.launchRecordId ≤ r'.launchRecordId))

/-! ## Reading under unique columns -/

variable {r r' : LaunchRecord}

theorem LaunchRecord.distinct_symm (h : r.distinct r') : r'.distinct r := by
  obtain ⟨hid, hkey, hjob, hreceipt, hnonce⟩ := h
  refine ⟨hid.symm, fun e => hkey ⟨e.1.symm, e.2.symm⟩, ?_, hreceipt.symm, ?_⟩
  · by_cases hn : r'.jobId = none
    · exact Or.inl hn
    · exact Or.inr fun e => hjob.elim (fun h => hn (e.trans h)) (fun h => h e.symm)
  · by_cases hn : r'.launchNonce = none
    · exact Or.inl hn
    · exact Or.inr fun e => hnonce.elim (fun h => hn (e.trans h)) (fun h => h e.symm)

instance : Std.Symm LaunchRecord.distinct := ⟨fun _ _ => LaunchRecord.distinct_symm⟩

namespace Registry

variable {reg reg' : Registry} {r r' : LaunchRecord}

theorem distinct_of_ne (h : r ∈ reg.rows) (h' : r' ∈ reg.rows) (hne : r ≠ r') : r.distinct r' :=
  reg.unique.forall h h' hne

theorem eq_of_id (h : r ∈ reg.rows) (h' : r' ∈ reg.rows) (hid : r.launchRecordId = r'.launchRecordId) : r = r' := by
  by_contra hne
  exact (distinct_of_ne h h' hne).1 hid

theorem eq_of_key (h : r ∈ reg.rows) (h' : r' ∈ reg.rows) (hscope : r.authorityScope = r'.authorityScope)
    (hkey : r.idempotencyKey = r'.idempotencyKey) : r = r' := by
  by_contra hne
  exact (distinct_of_ne h h' hne).2.1 ⟨hscope, hkey⟩

theorem byKey_eq_some {scope key : String} :
    reg.byKey scope key = some r ↔ r ∈ reg.rows ∧ r.authorityScope = scope ∧ r.idempotencyKey = key := by
  constructor
  · intro h
    have hp := List.find?_some h
    exact ⟨List.mem_of_find?_eq_some h, by simpa using hp⟩
  · rintro ⟨hmem, hscope, hkey⟩
    cases h : reg.byKey scope key with
    | none => exact absurd (List.find?_eq_none.mp h r hmem) (by simp [hscope, hkey])
    | some x =>
      have hp : x.authorityScope = scope ∧ x.idempotencyKey = key := by simpa using List.find?_some h
      have hx := eq_of_key (List.mem_of_find?_eq_some h) hmem (hp.1.trans hscope.symm) (hp.2.trans hkey.symm)
      rw [hx]

theorem byKey_eq_none {scope key : String} :
    reg.byKey scope key = none ↔ ∀ r ∈ reg.rows, ¬ (r.authorityScope = scope ∧ r.idempotencyKey = key) := by
  simp [byKey]

theorem write_ok {rows : List LaunchRecord} (h : write rows = .ok reg) : reg.rows = rows := by
  unfold write at h
  split at h
  · cases h; rfl
  · cases h

theorem mem_update {f : LaunchRecord → LaunchRecord} (h : reg.update r.launchRecordId f = .ok reg')
    (hr : r ∈ reg.rows) {x : LaunchRecord} : x ∈ reg'.rows ↔ x = f r ∨ (x ∈ reg.rows ∧ x ≠ r) := by
  rw [write_ok h, List.mem_map]
  constructor
  · rintro ⟨y, hy, rfl⟩
    by_cases hid : y.launchRecordId = r.launchRecordId
    · rw [if_pos hid, eq_of_id hy hr hid]; exact Or.inl rfl
    · rw [if_neg hid]; exact Or.inr ⟨hy, fun e => hid (congrArg _ e)⟩
  · rintro (rfl | ⟨hx, hne⟩)
    · exact ⟨r, hr, if_pos rfl⟩
    · exact ⟨x, hx, if_neg fun hid => hne (eq_of_id hx hr hid)⟩

end Registry

/-! ## What an operation can do -/

/-- Everything an operation can do to a record. -/
inductive RecordStep (r : LaunchRecord) : LaunchRecord → Prop
  | launch (nonce runtimeInstanceId : String) (h : r.launchState = .reserved) :
      RecordStep r (r.launch nonce runtimeInstanceId)
  | start (receipt : Receipt) (pid : Int) (birth host : String) (h : r.launchState = .launching)
      (names : r.names receipt = true) : RecordStep r (r.start pid birth host)
  | withError (detail : String) : RecordStep r (r.withError detail)
  | finish (receipt : Receipt) (state : LaunchState) (result : String) (exitCode : Option Int)
      (ended : state.ended = true) (h : r.launchState.ended = false) (names : r.names receipt = true) :
      RecordStep r (r.finish state result exitCode)

/-- Nothing changed, or one record moved. -/
def Rewrites (reg reg' : Registry) : Prop :=
  reg' = reg ∨ ∃ r r', r ∈ reg.rows ∧ RecordStep r r' ∧ ∀ x, x ∈ reg'.rows ↔ x = r' ∨ (x ∈ reg.rows ∧ x ≠ r)

/-- Everything an operation can do to the table. -/
inductive RegistryStep (reg reg' : Registry) : Prop
  | rewrite (h : Rewrites reg reg')
  | insert (fresh : LaunchRecord) (unused : reg.byKey fresh.authorityScope fresh.idempotencyKey = none)
      (state : fresh.launchState = .reserved ∨ fresh.launchState = .rejectedPreLaunch)
      (nonce : fresh.launchNonce = none) (rows : reg'.rows = reg.rows ++ [fresh])

section

variable {reg reg' : Registry} {scope key digest : String} {draw : Draw} {rec : LaunchRecord} {b : Bool}

theorem requireKey_ok (h : requireKey reg scope key = .ok rec) : reg.byKey scope key = some rec := by
  simpa [requireKey] using h

theorem bindKey_ok {fresh : LaunchRecord} (h : bindKey reg scope key digest fresh = .ok ((rec, b), reg')) :
    (b = false ∧ reg' = reg ∧ reg.byKey scope key = some rec ∧ rec.requestDigest = digest) ∨
      (b = true ∧ rec = fresh ∧ reg.byKey scope key = none ∧ reg'.rows = reg.rows ++ [fresh]) := by
  unfold bindKey at h
  split at h
  · rename_i existing hkey
    split at h
    · cases h
    · rename_i hd
      cases h
      exact Or.inl ⟨rfl, rfl, hkey, by simpa using hd⟩
  · rename_i hkey
    simp only [bind_eq_ok, pure_eq_ok, Prod.mk.injEq] at h
    obtain ⟨reg₁, hins, ⟨rfl, rfl⟩, rfl⟩ := h
    exact Or.inr ⟨rfl, rfl, hkey, Registry.write_ok hins⟩

/-- What a caller that bound a key knows: the digest is its own, and it is on record. -/
structure Bound (reg reg' : Registry) (scope key digest : String) (rec : LaunchRecord) (created : Bool) : Prop where
  here : reg'.byKey scope key = some rec
  digest : rec.requestDigest = digest
  step : RegistryStep reg reg'
  old : created = false → reg' = reg
  new : created = true → reg.byKey scope key = none ∧ reg'.rows = reg.rows ++ [rec]

theorem bindKey_bound {fresh : LaunchRecord} (h : bindKey reg scope key digest fresh = .ok ((rec, b), reg'))
    (hscope : fresh.authorityScope = scope) (hkey : fresh.idempotencyKey = key)
    (hdigest : fresh.requestDigest = digest) (hnonce : fresh.launchNonce = none)
    (hstate : fresh.launchState = .reserved ∨ fresh.launchState = .rejectedPreLaunch) :
    Bound reg reg' scope key digest rec b := by
  rcases bindKey_ok h with ⟨rfl, rfl, hrec, hd⟩ | ⟨rfl, rfl, hnone, hrows⟩
  · exact ⟨hrec, hd, .rewrite (Or.inl rfl), fun _ => rfl, fun h => (by cases h)⟩
  · subst hscope hkey
    have hmem : rec ∈ reg'.rows := by rw [hrows]; simp
    exact ⟨Registry.byKey_eq_some.mpr ⟨hmem, rfl, rfl⟩, hdigest, .insert rec hnone hstate hnonce hrows,
      (fun h => (by cases h)), fun _ => ⟨hnone, hrows⟩⟩

theorem reserve_ok {driver : DriverBinding} (h : reserve reg scope key digest driver draw = .ok ((rec, b), reg')) :
    Bound reg reg' scope key digest rec b := by
  simp only [reserve, bind_eq_ok] at h
  obtain ⟨_, _, _, _, _, _, h⟩ := h
  exact bindKey_bound h rfl rfl rfl rfl (Or.inl rfl)

theorem rejectPreLaunch_ok {reason : String} {driver : DriverArgs}
    (h : rejectPreLaunch reg scope key digest reason driver draw = .ok ((rec, b), reg')) :
    Bound reg reg' scope key digest rec b := by
  simp only [rejectPreLaunch, bind_eq_ok] at h
  obtain ⟨_, _, _, _, _, _, h⟩ := h
  exact bindKey_bound h rfl rfl rfl rfl (Or.inr rfl)

/-- The spawn belongs to the caller exactly when it moved the record out of `RESERVED`. -/
theorem claimSpawn_ok {runtimeInstanceId : String}
    (h : claimSpawn reg scope key runtimeInstanceId draw = .ok ((rec, b), reg')) :
    ∃ r, reg.byKey scope key = some r ∧
      ((b = false ∧ rec = r ∧ r.launchState ≠ .reserved ∧ reg' = reg) ∨
        (b = true ∧ r.launchState = .reserved ∧ (∃ nonce, rec = r.launch nonce runtimeInstanceId) ∧
          ∀ x, x ∈ reg'.rows ↔ x = rec ∨ (x ∈ reg.rows ∧ x ≠ r))) := by
  simp only [claimSpawn, bind_eq_ok] at h
  obtain ⟨_, _, _, _, r, hr, h⟩ := h
  have hkey := requireKey_ok hr
  refine ⟨r, hkey, ?_⟩
  split at h
  · rename_i hs
    cases h
    exact Or.inl ⟨rfl, rfl, hs, rfl⟩
  · rename_i hs
    simp only [bind_eq_ok, pure_eq_ok, Prod.mk.injEq] at h
    obtain ⟨reg₁, hup, ⟨rfl, rfl⟩, rfl⟩ := h
    exact Or.inr ⟨rfl, by simpa using hs, ⟨_, rfl⟩, fun x =>
      Registry.mem_update hup (Registry.byKey_eq_some.mp hkey).1⟩

/-- The record of the key is answered as it stands, or rewritten by `f`. -/
def Records (reg reg' : Registry) (scope key : String) (rec : LaunchRecord) (f : LaunchRecord → LaunchRecord) : Prop :=
  ∃ r, reg.byKey scope key = some r ∧
    (rec = r ∧ reg' = reg ∨ rec = f r ∧ RecordStep r (f r) ∧ reg.update r.launchRecordId f = .ok reg')

theorem recordStarted_ok {receipt : Receipt} {pid : Int} {birth host : String}
    (h : recordStarted reg scope key receipt pid birth host = .ok (rec, reg')) :
    Records reg reg' scope key rec (·.start pid birth host) := by
  simp only [recordStarted, bind_eq_ok, ensure_eq_ok] at h
  obtain ⟨_, _, _, _, r, hr, _, hnames, h⟩ := h
  refine ⟨r, requireKey_ok hr, ?_⟩
  split at h
  · simp only [bind_eq_ok, ensure_eq_ok, pure_eq_ok, Prod.mk.injEq] at h
    obtain ⟨_, _, rfl, rfl⟩ := h
    exact Or.inl ⟨rfl, rfl⟩
  · rename_i hs
    simp only [bind_eq_ok, pure_eq_ok, Prod.mk.injEq] at h
    obtain ⟨reg₁, hup, rfl, rfl⟩ := h
    exact Or.inr ⟨rfl, .start receipt pid birth host hs hnames, hup⟩
  · cases h

theorem recordLaunchError_ok {detail : String} (h : recordLaunchError reg scope key detail = .ok (rec, reg')) :
    Records reg reg' scope key rec (·.withError detail) := by
  simp only [recordLaunchError, bind_eq_ok, pure_eq_ok, Prod.mk.injEq] at h
  obtain ⟨_, _, r, hr, reg₁, hup, rfl, rfl⟩ := h
  exact ⟨r, requireKey_ok hr, Or.inr ⟨rfl, .withError detail, hup⟩⟩

theorem recordTerminal_ok {receipt : Receipt} {state : LaunchState} {result : String} {exitCode : Option Int}
    (h : recordTerminal reg scope key receipt state result exitCode = .ok (rec, reg')) :
    Records reg reg' scope key rec (·.finish state result exitCode) := by
  simp only [recordTerminal, bind_eq_ok, ensure_eq_ok] at h
  obtain ⟨_, hended, _, _, r, hr, _, hnames, h⟩ := h
  refine ⟨r, requireKey_ok hr, ?_⟩
  split at h
  · simp only [bind_eq_ok, ensure_eq_ok, pure_eq_ok, Prod.mk.injEq] at h
    obtain ⟨_, _, rfl, rfl⟩ := h
    exact Or.inl ⟨rfl, rfl⟩
  · rename_i hs
    simp only [bind_eq_ok, pure_eq_ok, Prod.mk.injEq] at h
    obtain ⟨reg₁, hup, rfl, rfl⟩ := h
    exact Or.inr ⟨rfl, .finish receipt state result exitCode hended (by simpa using hs) hnames, hup⟩

variable {f : LaunchRecord → LaunchRecord}

theorem Records.rewrites (h : Records reg reg' scope key rec f) : Rewrites reg reg' := by
  obtain ⟨r, hr, ⟨-, rfl⟩ | ⟨-, hstep, hup⟩⟩ := h
  · exact Or.inl rfl
  · have hmem := (Registry.byKey_eq_some.mp hr).1
    exact Or.inr ⟨r, _, hmem, hstep, fun x => Registry.mem_update hup hmem⟩

theorem Records.written (h : Records reg reg' scope key rec f) {x : LaunchRecord} (hx : x ∈ reg'.rows) :
    x ∈ reg.rows ∨ ∃ old, reg.byKey scope key = some old ∧ x = f old := by
  obtain ⟨r, hr, ⟨-, rfl⟩ | ⟨-, -, hup⟩⟩ := h
  · exact Or.inl hx
  · rcases (Registry.mem_update hup (Registry.byKey_eq_some.mp hr).1).mp hx with rfl | ⟨hold, -⟩
    · exact Or.inr ⟨r, hr, rfl⟩
    · exact Or.inl hold

end

/-! ## What stays of a record -/

/-- A nonce is issued exactly when a record leaves `RESERVED` for a launch. -/
def LaunchRecord.Issued (r : LaunchRecord) : Prop :=
  r.launchNonce = none ↔ r.launchState = .reserved ∨ r.launchState = .rejectedPreLaunch

/-- A later version of a record: same identity, no step back, nothing of a terminal result changed. -/
structure RecordLe (r r' : LaunchRecord) : Prop where
  recordId : r'.launchRecordId = r.launchRecordId
  scope : r'.authorityScope = r.authorityScope
  key : r'.idempotencyKey = r.idempotencyKey
  digest : r'.requestDigest = r.requestDigest
  driver : r'.driver = r.driver
  job : r'.jobId = r.jobId
  receipt : r'.receiptId = r.receiptId
  nonce : r.launchNonce ≠ none → r'.launchNonce = r.launchNonce
  rank : r.launchState.rank ≤ r'.launchState.rank
  terminal : r.launchState.terminal = true →
    r'.launchState = r.launchState ∧ r'.resultJson = r.resultJson ∧ r'.exitCode = r.exitCode
  rejected : r'.launchState = .rejectedPreLaunch → r.launchState = .rejectedPreLaunch

theorem RecordLe.refl (r : LaunchRecord) : RecordLe r r :=
  ⟨rfl, rfl, rfl, rfl, rfl, rfl, rfl, fun _ => rfl, Nat.le_refl _, fun _ => ⟨rfl, rfl, rfl⟩, id⟩

theorem RecordLe.trans {a b c : LaunchRecord} (h : RecordLe a b) (h' : RecordLe b c) : RecordLe a c where
  recordId := h'.recordId.trans h.recordId
  scope := h'.scope.trans h.scope
  key := h'.key.trans h.key
  digest := h'.digest.trans h.digest
  driver := h'.driver.trans h.driver
  job := h'.job.trans h.job
  receipt := h'.receipt.trans h.receipt
  nonce hn := by
    have hb := h.nonce hn
    exact (h'.nonce (by rwa [hb])).trans hb
  rank := Nat.le_trans h.rank h'.rank
  terminal ht := by
    obtain ⟨hs, hr, he⟩ := h.terminal ht
    obtain ⟨hs', hr', he'⟩ := h'.terminal (by rwa [hs])
    exact ⟨hs'.trans hs, hr'.trans hr, he'.trans he⟩
  rejected hr := h.rejected (h'.rejected hr)

theorem LaunchState.rank_le_of_ended {state : LaunchState} (h : state.ended = true) (s : LaunchState) :
    s.rank ≤ state.rank := by
  cases state <;> cases h <;> cases s <;> decide

theorem names_nonce {receipt : Receipt} (h : r.names receipt = true) : r.launchNonce ≠ none := by
  simp only [LaunchRecord.names, Bool.and_eq_true, decide_eq_true_eq] at h
  rw [h.1.2]
  exact Option.some_ne_none _

theorem LaunchRecord.Issued.not_terminal (hi : r.Issued) (hn : r.launchNonce ≠ none)
    (he : r.launchState.ended = false) : r.launchState.terminal = false := by
  have hs : ¬ (r.launchState = .reserved ∨ r.launchState = .rejectedPreLaunch) := fun h => hn (hi.mpr h)
  cases h : r.launchState <;> simp_all [LaunchState.terminal]

theorem RecordStep.le (h : RecordStep r r') (hi : r.Issued) : RecordLe r r' := by
  cases h with
  | launch nonce rid hs =>
    have hn : r.launchNonce = none := hi.mpr (Or.inl hs)
    exact ⟨rfl, rfl, rfl, rfl, rfl, rfl, rfl, fun h => absurd hn h, by rw [hs]; exact Nat.zero_le _,
      (fun h => by rw [hs] at h; cases h), fun h => (by cases h)⟩
  | start receipt pid birth host hs =>
    exact ⟨rfl, rfl, rfl, rfl, rfl, rfl, rfl, fun _ => rfl, by rw [hs]; exact Nat.le_succ 1,
      (fun h => by rw [hs] at h; cases h), fun h => (by cases h)⟩
  | withError =>
    exact ⟨rfl, rfl, rfl, rfl, rfl, rfl, rfl, fun _ => rfl, Nat.le_refl _, fun _ => ⟨rfl, rfl, rfl⟩, id⟩
  | finish receipt state result exitCode ended hs names =>
    have ht := hi.not_terminal (names_nonce names) hs
    refine ⟨rfl, rfl, rfl, rfl, rfl, rfl, rfl, fun _ => rfl, LaunchState.rank_le_of_ended ended _,
      (fun h => by rw [ht] at h; cases h), fun h => ?_⟩
    obtain rfl : state = .rejectedPreLaunch := h
    cases ended

theorem RecordStep.issued (h : RecordStep r r') (hi : r.Issued) : r'.Issued := by
  cases h with
  | launch => simp [LaunchRecord.Issued, LaunchRecord.launch]
  | start receipt pid birth host hs names =>
    have hn := names_nonce names
    simp [LaunchRecord.Issued, LaunchRecord.start, hn]
  | withError => exact hi
  | finish receipt state result exitCode ended hs names =>
    have hn := names_nonce names
    cases state <;> cases ended <;> simp [LaunchRecord.Issued, LaunchRecord.finish, hn]

def Registry.Issued (reg : Registry) : Prop := ∀ r ∈ reg.rows, r.Issued

/-- Every record is still there, in a later version. -/
def RegistryLe (reg reg' : Registry) : Prop := ∀ r ∈ reg.rows, ∃ r' ∈ reg'.rows, RecordLe r r'

theorem RegistryLe.refl (reg : Registry) : RegistryLe reg reg := fun r hr => ⟨r, hr, RecordLe.refl r⟩

theorem RegistryLe.trans {a b c : Registry} (h : RegistryLe a b) (h' : RegistryLe b c) : RegistryLe a c := by
  intro r hr
  obtain ⟨r', hr', hle⟩ := h r hr
  obtain ⟨r'', hr'', hle'⟩ := h' r' hr'
  exact ⟨r'', hr'', hle.trans hle'⟩

variable {reg reg' : Registry}

theorem Rewrites.issued (h : Rewrites reg reg') (hi : reg.Issued) : reg'.Issued := by
  rcases h with rfl | ⟨r, r', hmem, hstep, hrows⟩
  · exact hi
  · intro x hx
    rcases (hrows x).mp hx with rfl | ⟨hx, _⟩
    · exact hstep.issued (hi r hmem)
    · exact hi x hx

theorem Rewrites.le (h : Rewrites reg reg') (hi : reg.Issued) : RegistryLe reg reg' := by
  rcases h with rfl | ⟨r, r', hmem, hstep, hrows⟩
  · exact RegistryLe.refl _
  · intro x hx
    by_cases hxr : x = r
    · subst hxr
      exact ⟨r', (hrows r').mpr (Or.inl rfl), hstep.le (hi x hmem)⟩
    · exact ⟨x, (hrows x).mpr (Or.inr ⟨hx, hxr⟩), RecordLe.refl x⟩

theorem Rewrites.unused (h : Rewrites reg reg') {scope key : String}
    (hnone : reg.byKey scope key = none) : reg'.byKey scope key = none := by
  rcases h with rfl | ⟨r, r', hmem, hstep, hrows⟩
  · exact hnone
  · have hall := Registry.byKey_eq_none.mp hnone
    refine Registry.byKey_eq_none.mpr fun x hx => ?_
    rcases (hrows x).mp hx with rfl | ⟨hx, _⟩
    · have hr := hall r hmem
      cases hstep <;> exact hr
    · exact hall x hx

theorem RegistryStep.issued (h : RegistryStep reg reg') (hi : reg.Issued) : reg'.Issued := by
  cases h with
  | rewrite h => exact h.issued hi
  | insert fresh unused state nonce rows =>
    intro r hr
    rw [rows, List.mem_append, List.mem_singleton] at hr
    rcases hr with hr | rfl
    · exact hi r hr
    · exact iff_of_true nonce state

theorem RegistryStep.le (h : RegistryStep reg reg') (hi : reg.Issued) : RegistryLe reg reg' := by
  cases h with
  | rewrite h => exact h.le hi
  | insert fresh unused state nonce rows =>
    intro r hr
    exact ⟨r, by rw [rows]; exact List.mem_append_left _ hr, RecordLe.refl r⟩

theorem RegistryLe.byKey (h : RegistryLe reg reg') {scope key : String} {r : LaunchRecord}
    (hr : reg.byKey scope key = some r) : ∃ r', reg'.byKey scope key = some r' ∧ RecordLe r r' := by
  obtain ⟨hmem, hscope, hkey⟩ := Registry.byKey_eq_some.mp hr
  obtain ⟨r', hmem', hle⟩ := h r hmem
  exact ⟨r', Registry.byKey_eq_some.mpr ⟨hmem', hle.scope.trans hscope, hle.key.trans hkey⟩, hle⟩

end AgentFabric.LocalWorker
