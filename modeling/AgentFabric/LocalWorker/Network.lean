import AgentFabric.Lib.Replies
import AgentFabric.LocalWorker.Adapter
import AgentFabric.LocalWorker.SpawnOnce

/-!
# Adapter, daemons and what is under way between them

The operations of `LocalWorkerAdapter` as programs over the fields that all runs share, and the daemons that answer
their requests, each over its registry. A program runs undisturbed between two awaits only; a request may be lost,
answered late, answered again or by another daemon.
-/

namespace AgentFabric.LocalWorker

open AgentFabric.Lib

/-- The identities of a registry. -/
structure RegistryKey where
  authorityId : String
  registryId : String
deriving DecidableEq, Repr

def Daemon.key (d : Daemon) : RegistryKey := ⟨d.authorityId, d.registryId⟩

/-- A launch request carries the identity under which it is sent. -/
inductive HttpRequest where
  | lookup (key : String) (driverId : Option String)
  | launchV2 (runId : String) (under : LaunchIdentity) (body : LaunchBody)
  | launchV1 (runId : String) (under : LaunchIdentity) (body : Object)
  | status (version : AdapterType) (jobId : String)
  | cancel (version : AdapterType) (jobId : String)

/-- A request, and what the registries held when it was sent. -/
structure Exchange where
  request : HttpRequest
  registries : RegistryKey → Registry

/-- A response on its way; none for the source of an answer that no daemon gave. -/
structure Answer where
  conn : Nat
  source : Option Daemon
  response : WireResponse

/-- The operation that negotiates; a failed negotiation resets the contract in the first two. -/
inductive Negotiation where
  | contract | start | lookup
deriving DecidableEq, Repr

inductive NetCall where
  -- the fields of the adapter
  | clearPending
  | negotiate (operation : Negotiation)
  | observed
  | pending
  | contract
  | remember (handle : Handle)
  | forget (handle : Handle)
  | handleOf (runId : String)
  | isCancelled (runId : String)
  | cancelAccepted (runId : String)
  | expired
  -- the launch identity of a run
  | prepare (runId : String)
  | recheck (runId : String)
  | openLaunch (runId : String)
  -- messages
  | send (request : HttpRequest)
  | receive (conn : Nat)
  | take (conn : Nat)
  | respond (conn : Nat) (d : Daemon) (response : WireResponse)
  | intrude (conn : Nat) (response : WireResponse)
  -- a call of a daemon's handler
  | daemon (d : Daemon) (c : Call)
  -- what the adapter concludes
  | rejected (runId key : String) (conn : Nat) (response : WireResponse)
  | notFound (handle : Handle) (conn : Nat)
  | timedOut (handle : Handle) (conn : Nat)

abbrev NetCall.Reply : NetCall → Type
  | .negotiate _ => Except AdapterError Unit
  | .pending => Option AdapterError × Bool
  | .contract | .openLaunch _ => Contract
  | .handleOf _ => Option Handle
  | .prepare _ | .recheck _ | .isCancelled _ | .expired => Bool
  | .send _ => Nat
  | .receive _ => Except TransportFailure WireResponse
  | .take _ => Option Exchange
  | .daemon _ c => c.Reply
  | _ => Unit

/-- The fields of a `LocalWorkerAdapter`. -/
structure Adapter where
  contract : Contract
  contractObserved : Bool
  pendingContractError : Option AdapterError
  jobHandles : String → Option Handle
  cancelledRuns : String → Bool

structure Network where
  adapter : Adapter
  prepared : String → Option LaunchIdentity
  worlds : RegistryKey → World
  exchanges : List Exchange
  answers : List Answer

structure NetEnvironment where
  health : Except TransportFailure Health
  delivered : Option Nat
  failure : TransportFailure
  expired : Bool
  host : Environment

section

-- `"sha256:" + sha256(text)`, and what the adapter is constructed with
variable (digest : String → String) (cfg : AdapterConfig)

/-! ## Calls -/

def Adapter.initial : Adapter := ⟨v1Contract digest cfg, false, none, fun _ => none, fun _ => false⟩

def Network.initial : Network :=
  ⟨Adapter.initial digest cfg, fun _ => none, fun _ => ⟨Registry.empty, []⟩, [], []⟩

/-- The health exchange and what it leaves in the fields; the contract lock is held in between. -/
def Adapter.negotiate (a : Adapter) (operation : Negotiation) (health : Except TransportFailure Health) :
    Except AdapterError Unit × Adapter :=
  match negotiated digest cfg health, operation with
  | .ok c, .start => (.ok (), { a with contract := c, contractObserved := true })
  | .ok c, _ =>
    -- a contract without v2 is a reset
    (.ok (), { a with contract := c, contractObserved := a.contractObserved && decide (c.protocolVersion = 2) })
  | .error e, .contract =>
    (.error e, { a with contract := v1Contract digest cfg, contractObserved := false, pendingContractError := some e })
  | .error e, .start => (.error e, { a with contract := v1Contract digest cfg, contractObserved := false })
  | .error e, .lookup => (.error e, a)

def Network.withAdapter {α : Type} (s : Network) (r : α × Adapter) : α × Network := (r.1, { s with adapter := r.2 })

/-- A response that has been given to the exchange, or a failure. -/
def Network.deliver (s : Network) (env : NetEnvironment) (conn : Nat) : Except TransportFailure WireResponse :=
  match env.delivered.bind fun n => (s.answers.filter (·.conn = conn))[n]? with
  | some a => .ok a.response
  | none => .error env.failure

def netAct (i : Nat) (s : Network) (env : NetEnvironment) : (c : NetCall) → c.Reply × Network
  | .clearPending => s.withAdapter ((), { s.adapter with pendingContractError := none })
  | .negotiate operation => s.withAdapter (s.adapter.negotiate digest cfg operation env.health)
  | .observed => s.withAdapter ((), { s.adapter with contractObserved := true })
  | .pending => ((s.adapter.pendingContractError, s.adapter.contractObserved), s)
  | .contract | .openLaunch _ => (s.adapter.contract, s)
  | .remember handle =>
    s.withAdapter ((), { s.adapter with jobHandles := Function.update s.adapter.jobHandles handle.runId (some handle) })
  | .forget handle =>
    s.withAdapter ((), { s.adapter with
      jobHandles := if s.adapter.jobHandles handle.runId = some handle
        then Function.update s.adapter.jobHandles handle.runId none else s.adapter.jobHandles
      cancelledRuns := Function.update s.adapter.cancelledRuns handle.runId false })
  | .handleOf runId => (s.adapter.jobHandles runId, s)
  | .isCancelled runId => (s.adapter.cancelledRuns runId, s)
  | .cancelAccepted runId =>
    s.withAdapter ((), { s.adapter with cancelledRuns := Function.update s.adapter.cancelledRuns runId true })
  | .expired => (env.expired, s)
  | .prepare runId =>
    match s.prepared runId with
    | some _ => (false, s)
    | none => (true, { s with prepared := Function.update s.prepared runId (some s.adapter.contract.launchIdentity) })
  | .recheck runId => (decide (s.prepared runId = some s.adapter.contract.launchIdentity), s)
  | .send request =>
    (s.exchanges.length, { s with exchanges := s.exchanges ++ [⟨request, fun k => (s.worlds k).state⟩] })
  | .receive conn => (s.deliver env conn, s)
  | .take conn => (s.exchanges[conn]?, s)
  | .respond conn d response => ((), { s with answers := s.answers ++ [⟨conn, some d, response⟩] })
  | .intrude conn response => ((), { s with answers := s.answers ++ [⟨conn, none, response⟩] })
  | .daemon d c =>
    let (r, w) := machine.traced.act i (s.worlds d.key) env.host c
    (r, { s with worlds := Function.update s.worlds d.key w })
  | .rejected .. | .notFound .. | .timedOut .. => ((), s)

def netMachine : Machine Nat Network NetCall NetCall.Reply NetEnvironment where
  act := netAct digest cfg

/-! ## The adapter -/

abbrev AdapterProg := Prog.Raising AdapterError NetCall NetCall.Reply

def askNet (c : NetCall) : AdapterProg c.Reply := Prog.ask c

def raising {α : Type} (x : Except AdapterError α) : AdapterProg α := Prog.result x

def exchange (request : HttpRequest) : AdapterProg (Nat × WireResponse) := do
  let conn ← askNet (.send request)
  let response ← raising ((← askNet (.receive conn)).mapError TransportFailure.error)
  return (conn, response)

def negotiateJobContract : AdapterProg Unit := do
  askNet .clearPending
  raising (← askNet (.negotiate .contract))
  askNet .observed

-- the SHA-256 digest of a canonical request document
variable (requestDigest : RequestDigest)

/-- What stays the same in a v2 launch. -/
structure LaunchContext where
  request : WorkerRequest
  key : String
  expected : AuthoritySnapshot
  digest : String

def lookupLaunchV2 (ctx : LaunchContext) (driverId : Option String) : AdapterProg LaunchObservation :=
  tryCatch
    (do
      let (conn, response) ← exchange (.lookup ctx.key driverId)
      let c ← askNet .contract
      raising (launchObservation conn response ctx.request ctx.key ctx.digest ctx.expected c.driver true))
    fun
      | .idempotencyConflict message => throw (.idempotencyConflict message)
      | .http | .httpStatus .. | .protocol _ => return unknownLaunchObservation
      | e => throw e

def launchBody (ctx : LaunchContext) (job : Object) : LaunchBody where
  top := ⟨topFields, fun
    | "protocol_version" => .int 2
    | "authority_id" => .text ctx.expected.authorityId
    | "registry_id" => .text ctx.expected.registryId
    | "idempotency_key" => .text ctx.key
    | "request_digest" => .text ctx.digest
    | _ => .null, ""⟩
  execution := some ⟨executionFields, fun
    | "run_id" => .text ctx.request.runId
    | "task_id" => .ofOption ctx.request.taskId
    | _ => .null, ""⟩
  job := some job

/-- A launch, or a lookup in place of its response. -/
def launchOrLookup (ctx : LaunchContext) (job : Object) : AdapterProg LaunchObservation :=
  tryCatch
    (do
      let (conn, response) ← exchange (.launchV2 ctx.request.runId ⟨.httpV2, ctx.expected.adapterInstanceId⟩
        (launchBody ctx job))
      let c ← askNet .contract
      raising (launchObservation conn response ctx.request ctx.key ctx.digest ctx.expected c.driver false))
    fun
      | .idempotencyConflict message => throw (.idempotencyConflict message)
      | .http | .httpStatus .. | .protocol _ => do
        let c ← askNet .contract
        lookupLaunchV2 ctx (c.driverId cfg)
      | e => throw e

/-- The handle that an observation gives, or the rejection that it is. -/
def concludeLaunch (ctx : LaunchContext) (o : LaunchObservation) : AdapterProg (Option Handle) := do
  match o.state, o.source with
  | .rejectedPreLaunch, some (conn, response) =>
    askNet (.rejected ctx.request.runId ctx.key conn response)
    throw (.launchRejected response.status)
  | _, _ => return handleLaunchObservation o

/-- The launch and its one replay. -/
def postLaunch (ctx : LaunchContext) (job : Object) : Nat → AdapterProg Handle
  | 0 => throw (.outcomeUncertain .unknown)
  | replays + 1 => do
    let o ← launchOrLookup cfg ctx job
    match ← concludeLaunch ctx o with
    | some handle => return handle
    | none => if launchIsSafeToPost o then postLaunch ctx job replays else throw (.outcomeUncertain .unknown)

def startJobV2 (request : WorkerRequest) (key : String) (c : Contract) (job : Object) : AdapterProg Handle := do
  let expected ← raising (v2ContractIdentity c)
  let ctx : LaunchContext := ⟨request, key, expected, requestDigest request.runId request.taskId job.canonical⟩
  let o ← lookupLaunchV2 ctx (c.driverId cfg)
  match ← concludeLaunch ctx o with
  | some handle => return handle
  | none => if launchIsSafeToPost o then postLaunch cfg ctx job 2 else throw (.outcomeUncertain .unknown)

def startJobV1 (request : WorkerRequest) (c : Contract) (job : Object) : AdapterProg Handle := do
  let (conn, response) ← exchange (.launchV1 request.runId c.launchIdentity job)
  if !isSuccess response.status then throw (.httpStatus response.status conn)
  let data ← raising (orRaise response.data (.protocol "Local Worker job creation response must be an object"))
  match data.jobId.filter (blank · = false) with
  | none => throw (.protocol "Local Worker did not return a job id")
  | some jobId =>
    -- the handle is made of the fields as they are now
    let now ← askNet .contract
    return ⟨request.runId, now.adapterType, now.adapterInstanceId, jobId⟩

/-- `^[A-Za-z0-9][A-Za-z0-9._:-]{0,199}$`. -/
def validAdapterKey (key : String) : Bool := boundedIdentifier 199 key

def startJob (request : WorkerRequest) (key : String) : AdapterProg Handle := do
  let payload ← raising (orRaise request.payload .unsafeRequest)
  raising (ensure (blank key = false) (.valueError "Worker job idempotency_key must not be empty"))
  let (pending, observed) ← askNet .pending
  raising (match pending with
    | some e => .error e
    | none => .ok ())
  if !observed then raising (← askNet (.negotiate .start))
  -- the event of the connection is published before the contract is read again
  let c ← askNet (.openLaunch request.runId)
  let handle ←
    if c.protocolVersion = 2 then do
      raising (ensure (validAdapterKey key = true)
        (.valueError "Local Worker v2 idempotency key must be 1-200 safe ASCII characters"))
      startJobV2 cfg requestDigest request key c (payload (c.driverId cfg))
    else startJobV1 request c (payload none)
  askNet (.remember handle)
  return handle

def lookupLaunchOperation (request : WorkerRequest) (key : String) : AdapterProg LaunchObservation := do
  let payload ← raising (orRaise request.payload .unsafeRequest)
  raising (ensure (validAdapterKey key = true)
    (.valueError "Local Worker v2 idempotency key must be 1-200 safe ASCII characters"))
  match ← askNet (.negotiate .lookup) with
  | .error _ => return unknownLaunchObservation
  | .ok _ =>
    let c ← askNet .contract
    if c.protocolVersion ≠ 2 then return unknownLaunchObservation
    let expected ← raising (v2ContractIdentity c)
    lookupLaunchV2 ⟨request, key, expected,
      requestDigest request.runId request.taskId (payload (c.driverId cfg)).canonical⟩ (c.driverId cfg)

def jobStatus (handle : Handle) : AdapterProg WireData := do
  let (conn, response) ← exchange (.status handle.adapterType handle.jobId)
  if !isSuccess response.status then throw (.httpStatus response.status conn)
  let data ← raising (orRaise response.data (.protocol "Local Worker job status response must be an object"))
  let c ← askNet .contract
  if handle.adapterType = .httpV2 ∧ c.driver ≠ none then
    let expected ← raising (v2ContractIdentity c)
    raising (validateV2Authority expected data
      "Local Worker job status authority does not match the negotiated registry")
    raising (validateV2DriverReceipt c.driver data)
  return data

def unreachableOrUnknown (status : Nat) : JobState :=
  if 500 ≤ status ∧ status ≤ 599 then .providerUnreachable else .unknown

def reconcileJob (handle : Handle) : AdapterProg JobState := do
  let contract ←
    if handle.adapterType = .httpV2 then Prog.attempt negotiateJobContract else pure (.ok ())
  match contract with
  | .error _ => return .providerUnreachable
  | .ok _ =>
    let c ← askNet .contract
    if (handleMismatch digest cfg c handle).isSome then return .unknown
    match ← Prog.attempt (jobStatus handle) with
    | .ok data => return data.state
    | .error (.httpStatus status conn) =>
      if status = 404 then
        askNet (.notFound handle conn)
        return .providerNotFound
      return unreachableOrUnknown status
    | .error .http => return .providerUnreachable
    | .error (.protocol _) => return .unknown
    | .error e => throw e

/-- A run whose time is up: its job is cancelled, and asked for once more. -/
def settleTimeout (handle : Handle) : AdapterProg RunOutcome := do
  match ← Prog.attempt (exchange (.cancel handle.adapterType handle.jobId)) with
  | .error .http => throw (.outcomeUncertain .providerUnreachable)
  | .error e => throw e
  | .ok (conn, response) =>
    if response.status = 404 then
      askNet (.timedOut handle conn)
      return .timedOut
    if 400 ≤ response.status then throw (.outcomeUncertain .unknown)
    match ← Prog.attempt (jobStatus handle) with
    | .error (.httpStatus status conn) =>
      if status = 404 then
        askNet (.timedOut handle conn)
        return .timedOut
      throw (.outcomeUncertain (unreachableOrUnknown status))
    | .error .http => throw (.outcomeUncertain .providerUnreachable)
    | .error (.protocol _) => throw (.outcomeUncertain .unknown)
    | .error e => throw e
    | .ok data =>
      if data.state = .knownRunning ∨ data.state = .unknown then throw (.outcomeUncertain data.state)
      raising (terminalRunState data)

/-- The polls of a job; none when they are used up. -/
def pollJob (handle : Handle) : Nat → AdapterProg (Option RunOutcome)
  | 0 => return none
  | polls + 1 => do
    let cancelled ← if handle.adapterType = .httpV2 then pure false else askNet (.isCancelled handle.runId)
    if cancelled then return some .cancelled
    if ← askNet .expired then return some (← settleTimeout handle)
    let data ← jobStatus handle
    if data.state = .knownRunning then pollJob handle polls
    else return some (← raising (terminalRunState data))

def requireHandle (runId : String) (handle : Handle) : AdapterProg Unit := do
  let c ← askNet .contract
  match handleMismatch digest cfg c handle with
  | some message => throw (.protocol message)
  | none =>
    raising (ensure (runId = handle.runId) (.protocol "Worker job handle belongs to a different run"))

def resumeJob (runId : String) (handle : Handle) (polls : Nat) : AdapterProg (Option RunOutcome) := do
  if handle.adapterType = .httpV2 then negotiateJobContract
  requireHandle digest cfg runId handle
  askNet (.remember handle)
  let outcome ← Prog.attempt (pollJob handle polls)
  askNet (.forget handle)
  raising outcome

def collectJob (runId : String) (handle : Handle) : AdapterProg RunOutcome := do
  if handle.adapterType = .httpV2 then negotiateJobContract
  requireHandle digest cfg runId handle
  let data ← jobStatus handle
  let outcome ← raising (terminalRunState data)
  askNet (.forget handle)
  return outcome

def cancelJob (handle : Handle) : AdapterProg Bool := do
  if handle.adapterType = .httpV2 then negotiateJobContract
  let c ← askNet .contract
  let expected ← raising (if handle.adapterType = .httpV2 then (v2ContractIdentity c).map some else .ok none)
  raising (match handleMismatch digest cfg c handle with
    | some message => .error (.protocol message)
    | none => .ok ())
  let (_, response) ← exchange (.cancel handle.adapterType handle.jobId)
  if 400 ≤ response.status then return false
  let data ← raising (orRaise response.data (.protocol "Local Worker job cancellation response must be an object"))
  match expected with
  | some expected =>
    raising (ensure (data.protocolVersion = some 2)
      (.protocol "Local Worker cancellation receipt is not protocol v2"))
    raising (validateV2Authority expected data
      "Local Worker cancellation receipt authority does not match the negotiated registry")
    let now ← askNet .contract
    raising (validateV2DriverReceipt now.driver data)
    raising (orRaise data.cancelAccepted (.protocol "Local Worker v2 cancellation receipt is malformed"))
  | none =>
    -- a v1 daemon may acknowledge by its status alone
    let accepted := data.accepted.getD true
    if accepted then askNet (.cancelAccepted handle.runId)
    return accepted

/-- `cancel`, by the run. -/
def cancelRun (runId : String) : AdapterProg Bool := do
  match ← askNet (.handleOf runId) with
  | none => return false
  | some handle => cancelJob digest cfg handle

/-! ## The runtime around a launch -/

/-- A claimed run: its contract is negotiated and written down, then it is launched. -/
def dispatch (request : WorkerRequest) (key : String) : AdapterProg Unit := do
  negotiateJobContract
  if ← askNet (.prepare request.runId) then discard (startJob cfg requestDigest request key)

/-- A launch without a handle is replayed under the identity that was written down. -/
def recoverLaunch (request : WorkerRequest) (key : String) : AdapterProg Unit := do
  negotiateJobContract
  if ← askNet (.recheck request.runId) then discard (startJob cfg requestDigest request key)

inductive AdapterRequest where
  | negotiate
  | dispatch (request : WorkerRequest) (key : String)
  | recoverLaunch (request : WorkerRequest) (key : String)
  | lookupLaunch (request : WorkerRequest) (key : String)
  | reconcile (handle : Handle)
  | resume (runId : String) (handle : Handle) (polls : Nat)
  | collect (runId : String) (handle : Handle)
  | cancelJob (handle : Handle)
  | cancelRun (runId : String)

def operate : AdapterRequest → AdapterProg Unit
  | .negotiate => negotiateJobContract
  | .dispatch request key => dispatch cfg requestDigest request key
  | .recoverLaunch request key => recoverLaunch cfg requestDigest request key
  | .lookupLaunch request key => discard (lookupLaunchOperation cfg requestDigest request key)
  | .reconcile handle => discard (reconcileJob digest cfg handle)
  | .resume runId handle polls => discard (resumeJob digest cfg runId handle polls)
  | .collect runId handle => discard (collectJob digest cfg runId handle)
  | .cancelJob handle => discard (cancelJob digest cfg handle)
  | .cancelRun runId => discard (cancelRun digest cfg runId)

/-! ## The daemons' answers -/

def LaunchState.wire : LaunchState → WireLaunchState
  | .reserved => .reserved | .rejectedPreLaunch => .rejectedPreLaunch | .launching => .launching
  | .running => .running | .completed => .completed | .failed => .failed | .cancelled => .cancelled

def unknownLaunchErrors : List String :=
  ["PROCESS_IDENTITY_OR_NONCE_LOCK_MISMATCH", "DRIVER_PROFILE_IDENTITY_MISSING", "DRIVER_PROFILE_MISMATCH",
    "DRIVER_EXECUTABLE_CHANGED"]

def LaunchRecord.unknownOutcome (r : LaunchRecord) : Bool := r.launchError.any (· ∈ unknownLaunchErrors)

def LaunchRecord.disposition (r : LaunchRecord) : LaunchDisposition :=
  match r.launchState with
  | .reserved | .rejectedPreLaunch => .definitelyNotLaunched
  | .launching =>
    if r.processPid.isSome && r.processBirthIdentity.isSome then .launchInProgress else .launchOutcomeUnknown
  | _ => .definitelyLaunched

def launchData (d : Daemon) (r : LaunchRecord) : WireData where
  protocolVersion := some 2
  authorityId := some d.authorityId
  registryId := some d.registryId
  driverId := r.driver.map (·.driverId)
  driverType := r.driver.map (·.driverType)
  driverProfileRevision := r.driver.map (·.profileRevision)
  driverProfileFingerprint := r.driver.map (·.profileFingerprint)
  launchRuntimeInstanceId := r.launchRuntimeInstanceId
  idempotencyKey := some r.idempotencyKey
  launchState := if r.unknownOutcome then .unknown else r.launchState.wire
  disposition := some (if r.unknownOutcome then .launchOutcomeUnknown else r.disposition)
  accepted := some (decide (r.launchState ≠ .rejectedPreLaunch))
  requestDigest := some r.requestDigest
  launchRecordId := some r.launchRecordId
  jobId := r.jobId
  receiptId := some r.receiptId

/-- The data of an answer about no record. -/
def refusalData (d : Daemon) (profile : Option DriverProfile) (key : Option String) : Option String → WireData
  | some "LAUNCH_NOT_SEEN" =>
    { protocolVersion := some 2, authorityId := some d.authorityId, registryId := some d.registryId,
      driverId := profile.map (·.driverId), driverType := profile.map (·.driverType.value),
      driverProfileRevision := profile.map (·.profileRevision),
      driverProfileFingerprint := profile.map (·.profileFingerprint), idempotencyKey := key, launchState := .notSeen,
      disposition := some .definitelyNotLaunched, accepted := some false }
  | some "REGISTRY_UNAVAILABLE" | some "DRIVER_NOT_REGISTERED" | some "DRIVER_ID_MISMATCH"
  | some "LAUNCH_AUTHORITY_MISMATCH" =>
    { protocolVersion := some 2, authorityId := some d.authorityId, registryId := some d.registryId,
      driverId := profile.map (·.driverId), driverType := profile.map (·.driverType.value),
      driverProfileRevision := profile.map (·.profileRevision),
      driverProfileFingerprint := profile.map (·.profileFingerprint), idempotencyKey := key,
      disposition := some .launchOutcomeUnknown }
  | _ => { protocolVersion := some 2 }

/-- The answer to a launch or a lookup. -/
def launchWire (d : Daemon) (profile : Option DriverProfile) (key : Option String) (r : Response) : WireResponse :=
  ⟨r.status, r.code, some (match r.record with
    | some record => launchData d record
    | none => refusalData d profile key r.code)⟩

def LaunchState.jobState : LaunchState → JobState
  | .reserved | .launching | .running => .knownRunning
  | .completed => .knownCompleted
  | .failed => .knownFailed
  | .cancelled => .knownCancelled
  | .rejectedPreLaunch => .unknown

/-- `_job_data` with the identities that the protocol adds. -/
def jobData (d : Daemon) (version : AdapterType) (r : LaunchRecord) (cancelAccepted : Option Bool) : WireData where
  protocolVersion := some (if version = .httpV2 then 2 else 1)
  authorityId := if version = .httpV2 then some d.authorityId else none
  registryId := if version = .httpV2 then some d.registryId else none
  driverId := r.driver.map (·.driverId)
  driverType := r.driver.map (·.driverType)
  driverProfileRevision := r.driver.map (·.profileRevision)
  driverProfileFingerprint := r.driver.map (·.profileFingerprint)
  launchRuntimeInstanceId := r.launchRuntimeInstanceId
  launchRecordId := some r.launchRecordId
  jobId := r.jobId
  receiptId := some r.receiptId
  state := if r.unknownOutcome then .unknown else r.launchState.jobState
  accepted := if version = .httpV2 then none else cancelAccepted
  cancelAccepted := if version = .httpV2 then cancelAccepted else none

/-- The answer about a job. -/
def jobWire (d : Daemon) (version : AdapterType) (cancelled : Bool) (r : Response) : WireResponse :=
  ⟨r.status, r.code, some (match r.record with
    | some record => jobData d version record (if cancelled then some (decide (r.status = 202)) else none)
    | none => { protocolVersion := some 2 })⟩

/-- The answer to a v1 launch. -/
def creationWire (r : Response) : WireResponse :=
  ⟨r.status, r.code, some (match r.record with
    | some record => { protocolVersion := some 1, jobId := record.jobId, state := record.launchState.jobState }
    | none => { protocolVersion := some 2 })⟩

/-- The handler of a request; a v1 launch draws its identity. -/
def respondTo (d : Daemon) (identity : String) (polls : Nat) : HttpRequest → Handler WireResponse
  | .lookup key driverId => do
    return launchWire d (d.find (selectedDriver d driverId)) (some key) (← lookupLaunch d key driverId)
  | .launchV2 _ _ body => do return launchWire d none none (← createLaunch requestDigest d body polls)
  | .launchV1 _ _ body => do return creationWire (← createJobV1 requestDigest d identity body polls)
  | .status version jobId => do return jobWire d version false (← getJobV2 d jobId)
  | .cancel version jobId => do return jobWire d version true (← cancelJobV2 d jobId)

abbrev NetProg := Prog NetCall NetCall.Reply

/-- A handler of a daemon, over its registry. -/
def onDaemon (d : Daemon) {α : Type} (p : Prog Call Call.Reply α) : NetProg α :=
  p.interp fun c => (Prog.perform (.daemon d c)).bind fun r => .ret r

/-- A daemon takes a request and answers it; what escapes a handler is an internal error. -/
def answer (d : Daemon) (conn : Nat) (identity : String) (polls : Nat) : NetProg Unit :=
  .call (.take conn) fun
    | none => .ret ()
    | some e => (onDaemon d (respondTo requestDigest d identity polls e.request).run).bind fun
      | .ok response => .call (.respond conn d response) .ret
      | .error _ => .call (.respond conn d ⟨500, none, none⟩) .ret

inductive NetRequest where
  | adapter (request : AdapterRequest)
  | answer (d : Daemon) (conn : Nat) (identity : String) (polls : Nat)
  | client (request : Request)
  | stranger (conn : Nat) (response : WireResponse)

def serveNet : NetRequest → NetProg Unit
  | .adapter request => (operate digest cfg requestDigest request).run.bind fun _ => .ret ()
  | .answer d conn identity polls => answer requestDigest d conn identity polls
  | .client request => onDaemon request.daemon (serve requestDigest request)
  | .stranger conn response => .call (.intrude conn response) .ret

abbrev NetWorld := Traced Nat Network NetCall NetCall.Reply

/-- A schedule of adapter operations, daemons, other clients, crashes and strangers, from empty registries on. -/
def netRun (moves : List (Move Nat NetRequest NetEnvironment)) : NetWorld :=
  ((Pool.quiet ⟨Network.initial digest cfg, []⟩).run (netMachine digest cfg).traced
    (fun _ => serveNet digest cfg requestDigest) moves).shared

end

end AgentFabric.LocalWorker
