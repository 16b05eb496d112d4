import AgentFabric.Lib.Threads
import AgentFabric.LocalWorker.Registry

/-!
# The local worker daemon

The request handlers of `local_worker_v2/server.py` as programs over the registry, the spool and the host. Each
registry call is one transaction; between two calls of a handler any other handler may run, and a daemon may stop
at any call.
-/

namespace AgentFabric.LocalWorker

open AgentFabric.Lib

/-- A request that passed its checks. -/
structure LaunchRequestSpec where
  runId : String
  taskId : Option String
  job : String
  profile : DriverProfile
deriving DecidableEq, Repr

inductive SpoolFile where
  | started | terminal
deriving DecidableEq, Repr

inductive Call where
  | reserve (scope key digest : String) (driver : DriverBinding)
  | rejectPreLaunch (scope key digest reason : String) (driver : DriverArgs)
  | claimSpawn (scope key runtimeInstanceId : String)
  | recordStarted (scope key : String) (receipt : Receipt) (pid : Int) (birth host : String)
  | recordLaunchError (scope key detail : String)
  | recordTerminal (scope key : String) (receipt : Receipt) (state : LaunchState) (result : String)
      (exitCode : Option Int)
  | getLaunch (scope key : String)
  | getJob (scope jobId : String)
  | listLaunches (scope : String)
  | checkAvailable
  | isCurrent (profile : DriverProfile)
  | writeLaunch (record : LaunchRecord)
  | spawn (record : LaunchRecord) (request : LaunchRequestSpec)
  | readReceipt (jobId : String) (file : SpoolFile)
  | processIdentityMatches (pid : Int) (birth : String)
  | jobLockIsHeld (jobId nonce : String)
  | kill (pid : Int)

/-- How an attempt to create the process ended. -/
inductive SpawnOutcome where
  | created
  | raised (error : String)
  | escaped
deriving DecidableEq, Repr

abbrev Call.Reply : Call → Type
  | .reserve .. | .rejectPreLaunch .. | .claimSpawn .. => Except RegistryError (LaunchRecord × Bool)
  | .recordStarted .. | .recordLaunchError .. | .recordTerminal .. => Except RegistryError LaunchRecord
  | .getLaunch .. | .getJob .. => Except RegistryError (Option LaunchRecord)
  | .listLaunches .. => Except RegistryError (List LaunchRecord)
  | .checkAvailable => Except RegistryError Unit
  | .isCurrent .. | .writeLaunch .. | .processIdentityMatches .. | .jobLockIsHeld .. | .kill .. => Bool
  | .spawn .. => SpawnOutcome
  | .readReceipt .. => Option Document

/-- What the host decides at one call. -/
structure Environment where
  registryAvailable : Bool
  draw : Draw
  isCurrent : DriverProfile → Bool
  writable : Bool
  spawned : SpawnOutcome
  receipt : String → SpoolFile → Option Document
  birthMatches : Bool
  lockHeld : Bool
  signalled : Bool

/-- A transaction on the registry; an unavailable registry answers nothing and commits nothing. -/
def transact {α : Type} (env : Environment) (reg : Registry) (op : Except RegistryError (α × Registry)) :
    Except RegistryError α × Registry :=
  if env.registryAvailable then
    match op with
    | .ok (a, reg') => (.ok a, reg')
    | .error e => (.error e, reg)
  else (.error .unavailable, reg)

def query {α : Type} (env : Environment) (reg : Registry) (op : Except RegistryError α) :
    Except RegistryError α × Registry :=
  (if env.registryAvailable then op else .error .unavailable, reg)

def act (reg : Registry) (env : Environment) : (c : Call) → c.Reply × Registry
  | .reserve scope key digest driver => transact env reg (reserve reg scope key digest driver env.draw)
  | .rejectPreLaunch scope key digest reason driver =>
    transact env reg (rejectPreLaunch reg scope key digest reason driver env.draw)
  | .claimSpawn scope key runtimeInstanceId => transact env reg (claimSpawn reg scope key runtimeInstanceId env.draw)
  | .recordStarted scope key receipt pid birth host =>
    transact env reg (recordStarted reg scope key receipt pid birth host)
  | .recordLaunchError scope key detail => transact env reg (recordLaunchError reg scope key detail)
  | .recordTerminal scope key receipt state result exitCode =>
    transact env reg (recordTerminal reg scope key receipt state result exitCode)
  | .getLaunch scope key => query env reg (getLaunch reg scope key)
  | .getJob scope jobId => query env reg (getJob reg scope jobId)
  | .listLaunches scope => query env reg (.ok (listLaunches reg scope))
  | .checkAvailable => query env reg (.ok ())
  | .isCurrent profile => (env.isCurrent profile, reg)
  | .writeLaunch _ => (env.writable, reg)
  | .spawn _ _ => (env.spawned, reg)
  | .readReceipt jobId file => (env.receipt jobId file, reg)
  | .processIdentityMatches _ _ => (env.birthMatches, reg)
  | .jobLockIsHeld _ _ => (env.lockHeld, reg)
  | .kill _ => (env.signalled, reg)

/-! ## The service -/

/-- The configuration of one daemon process over the registry. -/
structure Daemon where
  authorityScope : String
  authorityId : String
  registryId : String
  processHostIdentity : String
  runtimeInstanceId : String
  profiles : List DriverProfile
  default : DriverProfile
  registered : profiles.find? (fun profile => profile.driverId = default.driverId) = some default

def Daemon.find (d : Daemon) (driverId : String) : Option DriverProfile :=
  d.profiles.find? fun profile => profile.driverId = driverId

/-- What ends a handler early. -/
inductive Raised where
  | registry (error : RegistryError)
  | escaped
deriving DecidableEq, Repr

abbrev Handler := Prog.Raising Raised Call Call.Reply

def ask (c : Call) : Handler c.Reply := Prog.ask c

/-- The reply of a registry call, or what it raised. -/
def answered {α : Type} (x : Except RegistryError α) : Handler α := Prog.result (x.mapError .registry)

def profileForRecord (d : Daemon) (record : LaunchRecord) : Option DriverProfile := do
  let driver ← record.driver
  let profile ← d.find driver.driverId
  if profile.binding = driver then some profile else none

def validateRecordProfile (d : Daemon) (record : LaunchRecord) : Handler (LaunchRecord × Option DriverProfile) := do
  match profileForRecord d record with
  | some profile => return (record, some profile)
  | none =>
    let reason :=
      if record.driver.isNone then "DRIVER_PROFILE_IDENTITY_MISSING" else "DRIVER_PROFILE_MISMATCH"
    let changed ← answered (← ask (.recordLaunchError d.authorityScope record.idempotencyKey reason))
    return (changed, none)

def protocolVersion : Int := 2

def receiptMatches (d : Daemon) (record : LaunchRecord) (profile : DriverProfile) (receipt : Document) : Bool :=
  (receipt "protocol_version").isInt protocolVersion &&
  receipt "job_id" = .ofOption record.jobId &&
  receipt "idempotency_key" = .text record.idempotencyKey &&
  receipt "launch_nonce" = .ofOption record.launchNonce &&
  receipt "request_digest" = .text record.requestDigest &&
  receipt "process_host_identity" = .text d.processHostIdentity &&
  (record.processHostIdentity = none || record.processHostIdentity = some d.processHostIdentity) &&
  (profile.driverType = .test ||
    (receipt "driver_id" = .ofOption (record.driver.map (·.driverId)) &&
    receipt "driver_type" = .ofOption (record.driver.map (·.driverType)) &&
    (match record.driver with
    | some b => (receipt "driver_profile_revision").isInt b.profileRevision
    | none => receipt "driver_profile_revision" = .null) &&
    receipt "driver_profile_fingerprint" = .ofOption (record.driver.map (·.profileFingerprint)) &&
    receipt "launch_runtime_instance_id" = .ofOption record.launchRuntimeInstanceId &&
    receipt "driver_executable_sha256" = .ofOption profile.executableSha256))

def recordError (d : Daemon) (record : LaunchRecord) (detail : String) : Handler LaunchRecord := do
  answered (← ask (.recordLaunchError d.authorityScope record.idempotencyKey detail))

/-- A terminal receipt that matches the record. -/
def reconcileTerminal (d : Daemon) (record : LaunchRecord) (jobId nonce : String) (terminal : Document) :
    Handler LaunchRecord := do
  -- a raw state that is not a text cannot spell one of the states
  let state := match terminal "launch_state" with
    | .text value => LaunchState.ofValue value
    | _ => none
  match state with
  | none => recordError d record "INVALID_TERMINAL_RECEIPT_STATE"
  | some state =>
    match terminal "result" with
    | .object result =>
      let exitCode := match terminal "exit_code" with
        | .int code => some code
        | _ => none
      answered (← ask (.recordTerminal d.authorityScope record.idempotencyKey
        ⟨jobId, nonce, record.requestDigest⟩ state result exitCode))
    | _ => recordError d record "INVALID_TERMINAL_RECEIPT_RESULT"

/-- A started receipt that matches the record. -/
def reconcileStarted (d : Daemon) (record : LaunchRecord) (jobId nonce : String) (started : Document) :
    Handler LaunchRecord := do
  match started "pid", started "process_birth_identity" with
  | .int pid, .text birth =>
    if pid ≤ 0 ∨ birth = "" ∨ started "process_host_identity" ≠ .text d.processHostIdentity then
      recordError d record "INVALID_PROCESS_IDENTITY_RECEIPT"
    else
      let birthMatches ← ask (.processIdentityMatches pid birth)
      let lockHeld ← ask (.jobLockIsHeld jobId nonce)
      let attached ← answered (← ask (.recordStarted d.authorityScope record.idempotencyKey
        ⟨jobId, nonce, record.requestDigest⟩ pid birth d.processHostIdentity))
      if birthMatches && lockHeld then return attached
      recordError d record "PROCESS_IDENTITY_OR_NONCE_LOCK_MISMATCH"
  | _, _ => recordError d record "INVALID_PROCESS_IDENTITY_RECEIPT"

def reconcile (d : Daemon) (record : LaunchRecord) : Handler LaunchRecord := do
  let (record, profile) ← validateRecordProfile d record
  match profile, record.jobId, record.launchNonce with
  | some profile, some jobId, some nonce =>
    let terminal ← ask (.readReceipt jobId .terminal)
    match terminal.filter (receiptMatches d record profile) with
    | some terminal => reconcileTerminal d record jobId nonce terminal
    | none =>
      let started ← ask (.readReceipt jobId .started)
      match started.filter (receiptMatches d record profile) with
      | some started => reconcileStarted d record jobId nonce started
      | none => return record
  | _, _, _ => return record

/-- The polls for the started receipt that fit before the deadline. -/
def awaitStarted (d : Daemon) (claimed : LaunchRecord) (profile : DriverProfile) (jobId : String) :
    Nat → Handler LaunchRecord
  | 0 => recordError d claimed "PROCESS_START_RECEIPT_UNAVAILABLE"
  | polls + 1 => do
    let started ← ask (.readReceipt jobId .started)
    match started.filter (receiptMatches d claimed profile) with
    | some _ => reconcile d claimed
    | none => awaitStarted d claimed profile jobId polls

/-- Crossing the process boundary, after the spawn was claimed. -/
def spawnClaimed (d : Daemon) (claimed : LaunchRecord) (profile : DriverProfile) (request : LaunchRequestSpec)
    (polls : Nat) : Handler LaunchRecord := do
  match claimed.jobId, claimed.launchNonce with
  | some jobId, some _ =>
    if !(← ask (.writeLaunch claimed)) then throw .escaped
    match ← ask (.spawn claimed request) with
    | .escaped => throw .escaped
    | .raised error => recordError d claimed ("PROCESS_SPAWN_" ++ error)
    | .created => awaitStarted d claimed profile jobId polls
  | _, _ => throw .escaped

def launch (d : Daemon) (record : LaunchRecord) (request : LaunchRequestSpec) (polls : Nat) :
    Handler LaunchRecord := do
  if record.launchState ≠ .reserved then return ← reconcile d record
  let (record, profile) ← validateRecordProfile d record
  match profile with
  | none => return record
  | some profile =>
    if !(← ask (.isCurrent profile)) then return ← recordError d record "DRIVER_EXECUTABLE_CHANGED"
    if request.profile.profileFingerprint ≠ profile.profileFingerprint then
      return ← recordError d record "DRIVER_PROFILE_MISMATCH"
    let (claimed, ownsSpawn) ← answered (← ask (.claimSpawn d.authorityScope record.idempotencyKey
      d.runtimeInstanceId))
    if !ownsSpawn then return ← reconcile d claimed
    spawnClaimed d claimed profile request polls

/-- Observe crash-era jobs; nothing is launched because a daemon restarted. -/
def recover (d : Daemon) : Handler Unit := do
  let records ← answered (← ask (.listLaunches d.authorityScope))
  records.forM fun record => do
    if record.launchState = .launching ∨ record.launchState = .running then
      discard (reconcile d record)

def job (d : Daemon) (jobId : String) : Handler (Option LaunchRecord) := do
  match ← answered (← ask (.getJob d.authorityScope jobId)) with
  | some record => return some (← reconcile d record)
  | none => return none

/-- `supports_execution`, and with it `supports_cancel` on a POSIX host. -/
def supportsExecution (profile : DriverProfile) : Handler Bool := do
  if profile.available then ask (.isCurrent profile) else return false

def cancel (d : Daemon) (record : LaunchRecord) : Handler (LaunchRecord × Bool) := do
  let record ← reconcile d record
  match profileForRecord d record with
  | none => return (record, false)
  | some profile =>
    if record.launchState.terminal then return (record, false)
    if !(← supportsExecution profile) then return (record, false)
    match record.processPid, record.processBirthIdentity, record.launchNonce, record.jobId with
    | some pid, some birth, some nonce, some jobId =>
      if record.launchState ≠ .running ∨ record.processHostIdentity ≠ some d.processHostIdentity then
        return (record, false)
      let birthMatches ← ask (.processIdentityMatches pid birth)
      let lockHeld ← ask (.jobLockIsHeld jobId nonce)
      if !birthMatches || !lockHeld then return (← reconcile d record, false)
      if !(← ask (.kill pid)) then return (← reconcile d record, false)
      return (record, true)
    | _, _, _, _ => return (record, false)

/-! ## The HTTP handlers -/

/-- A JSON object with its fields. -/
structure Object where
  fields : List String
  get : Document
  canonical : String

/-- The body of a launch; `execution` and `job` when they are objects. -/
structure LaunchBody where
  top : Object
  execution : Option Object
  job : Option Object

/-- A response: an error with its code, or data; both may show a record. -/
structure Response where
  status : Nat
  code : Option String
  record : Option LaunchRecord
  replayed : Bool

def Response.error (status : Nat) (code : String) : Response := ⟨status, some code, none, false⟩

def sameFields (fields expected : List String) : Bool :=
  fields.all expected.contains && expected.all fields.contains

def topFields : List String :=
  ["protocol_version", "authority_id", "registry_id", "idempotency_key", "request_digest", "execution", "job"]

def executionFields : List String := ["run_id", "task_id"]

def jobFields (job : Object) (base : List String) : List String :=
  if job.get "job_type" = .text "inference.structured" then base ++ ["schema"] else base

def allowedJobTypes : List String := ["inference.chat", "inference.structured"]

def allowedRoles : List String := ["FAST_ROUTER", "GENERAL_REASONING", "RAG", "UNCENSORED_REVIEWER"]

/-- `value in names`; an array and an object have no hash. -/
def Json.isMember (value : Json) (names : List String) : Handler Bool :=
  match value with
  | .array | .object _ => throw .escaped
  | value => return names.any fun name => value = .text name

def maxPromptBytes : Nat := 128 * 1024

/-- A text that is not blank and at most 256 characters long. -/
def boundedText : Json → Option String
  | .text value => if blank value || value.length > 256 then none else some value
  | _ => none

/-- The prompt, a fitting text. -/
def promptReason (job : Object) : Option String :=
  match job.get "prompt" with
  | .text prompt =>
    if prompt = "" then some "INVALID_PROMPT"
    else if prompt.utf8ByteSize > maxPromptBytes then some "PROMPT_TOO_LARGE"
    else none
  | _ => some "INVALID_PROMPT"

def schemaReason (job : Object) : Option String :=
  if job.get "job_type" = .text "inference.structured" then
    match job.get "schema" with
    | .object _ => none
    | _ => some "INVALID_RESPONSE_SCHEMA"
  else none

/-- Why a well-shaped request is rejected before its launch. -/
def rejectionReason (body : LaunchBody) (execution job : Object) (digest : String) (profile : Option DriverProfile) :
    Handler (Option String) := do
  if !sameFields body.top.fields topFields then return some "UNSUPPORTED_REQUEST_FIELDS"
  if !sameFields execution.fields executionFields then return some "UNSUPPORTED_EXECUTION_FIELDS"
  if !sameFields job.fields (jobFields job ["driver_id", "job_type", "role", "prompt"]) then
    return some "UNSUPPORTED_JOB_FIELDS"
  if body.top.get "request_digest" ≠ .text digest then return some "REQUEST_DIGEST_MISMATCH"
  match profile with
  | none => return some "DRIVER_NOT_REGISTERED"
  | some profile =>
    if !(← supportsExecution profile) then return some "DRIVER_UNAVAILABLE"
    if !(← (job.get "job_type").isMember allowedJobTypes) then return some "UNSUPPORTED_JOB_TYPE"
    if !(← (job.get "role").isMember allowedRoles) then return some "UNSUPPORTED_WORKER_ROLE"
    return (promptReason job).or (schemaReason job)

def durableRejection (d : Daemon) (key digest reason : String) (profile : Option DriverProfile) : Handler Response := do
  let driver : DriverArgs := match profile with
    | some p => ⟨some p.driverId, some p.driverType.value, some p.profileRevision, some p.profileFingerprint⟩
    | none => ⟨none, none, none, none⟩
  match ← ask (.rejectPreLaunch d.authorityScope key digest reason driver) with
  | .ok (rejected, created) => return ⟨422, some "PRE_LAUNCH_REJECTED", some rejected, !created⟩
  | .error (.idempotencyConflict _) => return .error 409 "IDEMPOTENCY_CONFLICT"
  | .error .unavailable => return .error 503 "REGISTRY_UNAVAILABLE"
  | .error e => throw (.registry e)

/-- The SHA-256 digest of the canonical document of a run, its task and its job. -/
abbrev RequestDigest := String → Option String → String → String

section

variable (requestDigest : RequestDigest)

/-- The key, the digest and the request, or the response that refuses them. -/
def parseLaunch (d : Daemon) (body : LaunchBody) : Handler (Response ⊕ String × String × LaunchRequestSpec) := do
  match body.top.get "idempotency_key" with
  | .text key =>
    if !validIdempotencyKey key then return .inl (.error 400 "INVALID_IDEMPOTENCY_KEY")
    if !(body.top.get "protocol_version").isInt protocolVersion then return .inl (.error 400 "UNSUPPORTED_PROTOCOL")
    match ← ask .checkAvailable with
    | .error _ => return .inl (.error 503 "REGISTRY_UNAVAILABLE")
    | .ok _ =>
      if body.top.get "authority_id" ≠ .text d.authorityId ∨ body.top.get "registry_id" ≠ .text d.registryId then
        return .inl (.error 409 "LAUNCH_AUTHORITY_MISMATCH")
      match body.execution, body.job with
      | some execution, some job =>
        match boundedText (execution.get "run_id") with
        | none => return .inl (.error 400 "INVALID_LAUNCH_REQUEST")
        | some runId =>
          let taskId := boundedText (execution.get "task_id")
          if execution.get "task_id" ≠ .null ∧ taskId = none then
            return .inl (.error 400 "INVALID_LAUNCH_REQUEST")
          let digest := requestDigest runId taskId job.canonical
          let profile := match job.get "driver_id" with
            | .text driverId => if validDriverId driverId then d.find driverId else none
            | _ => none
          match ← rejectionReason body execution job digest profile, profile with
          | none, some profile => return .inr (key, digest, ⟨runId, taskId, job.canonical, profile⟩)
          | none, none => throw .escaped
          | some reason, _ => return .inl (← durableRejection d key digest reason profile)
      | _, _ => return .inl (.error 400 "INVALID_LAUNCH_REQUEST")
  | _ => return .inl (.error 400 "INVALID_IDEMPOTENCY_KEY")

def reserveKey (d : Daemon) (key digest : String) (driver : DriverBinding) : Handler (LaunchRecord × Bool) := do
  answered (← ask (.reserve d.authorityScope key digest driver))

def submit (d : Daemon) (key digest : String) (request : LaunchRequestSpec) (polls : Nat) : Handler Response := do
  let (record, created) ← reserveKey d key digest request.profile.binding
  if record.launchState = .rejectedPreLaunch then return ⟨422, some "PRE_LAUNCH_REJECTED", some record, true⟩
  let record ← launch d record request polls
  return ⟨if created then 202 else 200, none, some record, !created⟩

def submitFailure : Raised → Handler Response
  | .registry (.idempotencyConflict _) => return .error 409 "IDEMPOTENCY_CONFLICT"
  | .registry .unavailable => return .error 503 "REGISTRY_UNAVAILABLE"
  | e => throw e

def createLaunch (d : Daemon) (body : LaunchBody) (polls : Nat) : Handler Response := do
  match ← parseLaunch requestDigest d body with
  | .inl response => return response
  | .inr (key, digest, request) => tryCatch (submit d key digest request polls) submitFailure

/-- The compatibility launch: every request draws its own key. -/
def createJobV1 (d : Daemon) (identity : String) (body : Object) (polls : Nat) : Handler Response := do
  let rejected := Response.error 422 "PRE_LAUNCH_REJECTED"
  if !sameFields body.fields (jobFields body ["job_type", "role", "prompt"]) then return rejected
  if !(← (body.get "job_type").isMember allowedJobTypes) then return rejected
  if !(← (body.get "role").isMember allowedRoles) then return rejected
  if (promptReason body).isSome then return rejected
  if !(← supportsExecution d.default) then return rejected
  let runId := "v1-run-" ++ identity
  let digest := requestDigest runId none body.canonical
  let request : LaunchRequestSpec := ⟨runId, none, body.canonical, d.default⟩
  let launched : Handler Response := do
    let (record, _) ← reserveKey d ("local-worker-v1:" ++ identity) digest d.default.binding
    let record ← launch d record request polls
    return ⟨201, none, some record, false⟩
  tryCatch launched fun
    | .registry .unavailable => return .error 503 "REGISTRY_UNAVAILABLE"
    | e => throw e

/-- An absent or empty selection is the default driver. -/
def selectedDriver (d : Daemon) : Option String → String
  | some value => if value = "" then d.default.driverId else value
  | none => d.default.driverId

def lookupLaunch (d : Daemon) (key : String) (driverId : Option String) : Handler Response := do
  let selected := selectedDriver d driverId
  if !validDriverId selected then return .error 400 "INVALID_LAUNCH_LOOKUP"
  match d.find selected with
  | none => return .error 409 "DRIVER_NOT_REGISTERED"
  | some _ =>
    let found : Handler Response := do
      match ← answered (← ask (.getLaunch d.authorityScope key)) with
      | none => return .error 404 "LAUNCH_NOT_SEEN"
      | some record =>
        if record.driver.map (·.driverId) ≠ some selected then return .error 409 "DRIVER_ID_MISMATCH"
        return ⟨200, none, some (← reconcile d record), true⟩
    tryCatch found fun
      | .registry (.valueError _) => return .error 400 "INVALID_LAUNCH_LOOKUP"
      | .registry .unavailable => return .error 503 "REGISTRY_UNAVAILABLE"
      | e => throw e

def getJobRecord (d : Daemon) (jobId : String) : Handler (Response ⊕ LaunchRecord) := do
  let found : Handler (Response ⊕ LaunchRecord) := do
    match ← job d jobId with
    | some record => return .inr record
    | none => return .inl (.error 404 "JOB_NOT_FOUND")
  tryCatch found fun
    | .registry .unavailable => return .inl (.error 503 "REGISTRY_UNAVAILABLE")
    | .registry (.valueError _) => return .inl (.error 400 "INVALID_JOB_ID")
    | e => throw e

def getJobV2 (d : Daemon) (jobId : String) : Handler Response := do
  match ← getJobRecord d jobId with
  | .inl response => return response
  | .inr record => return ⟨200, none, some record, true⟩

def cancelJobV2 (d : Daemon) (jobId : String) : Handler Response := do
  match ← getJobRecord d jobId with
  | .inl response => return response
  | .inr record =>
    let (record, accepted) ← cancel d record
    return ⟨if accepted then 202 else 200, none, some record, true⟩

/-- The ways a handler starts: a daemon starts up, or a request arrives. -/
inductive Request where
  | startUp (d : Daemon)
  | createLaunch (d : Daemon) (body : LaunchBody) (polls : Nat)
  | createJobV1 (d : Daemon) (identity : String) (body : Object) (polls : Nat)
  | lookupLaunch (d : Daemon) (key : String) (driverId : Option String)
  | getJob (d : Daemon) (jobId : String)
  | cancelJob (d : Daemon) (jobId : String)

def Request.daemon : Request → Daemon
  | .startUp d | .createLaunch d .. | .createJobV1 d .. | .lookupLaunch d .. | .getJob d .. | .cancelJob d .. => d

def serve : Request → Prog Call Call.Reply Unit
  | .startUp d => (recover d).run.bind fun _ => .ret ()
  | .createLaunch d body polls => (createLaunch requestDigest d body polls).run.bind fun _ => .ret ()
  | .createJobV1 d identity body polls => (createJobV1 requestDigest d identity body polls).run.bind fun _ => .ret ()
  | .lookupLaunch d key driverId => (lookupLaunch d key driverId).run.bind fun _ => .ret ()
  | .getJob d jobId => (getJobV2 d jobId).run.bind fun _ => .ret ()
  | .cancelJob d jobId => (cancelJobV2 d jobId).run.bind fun _ => .ret ()

end

/-- The registry as the state that all handlers of all daemons share. -/
def machine : Machine Nat Registry Call Call.Reply Environment where
  act _ := act

end AgentFabric.LocalWorker
