import AgentFabric.LocalWorker.Server

/-!
# The adapter of the local worker

The pure part of `LocalWorkerAdapter` in `adapters/local_worker.py`: what it makes of the daemon's answers. A document
is given by the fields that the adapter finds in it, under any of their spellings.
-/

namespace AgentFabric.LocalWorker

/-- `ADAPTER_TYPE`, `ADAPTER_TYPE_V2`. -/
inductive AdapterType where
  | httpV1 | httpV2
deriving DecidableEq, Repr

inductive JobState where
  | knownRunning | knownCompleted | knownFailed | knownCancelled | providerNotFound | providerUnreachable | unknown
deriving DecidableEq, Repr

/-- What a client reports instead of a response. -/
inductive TransportFailure where
  | http | tooLarge
deriving DecidableEq, Repr

/-- An HTTP status other than a success keeps the number of the exchange that it answers. -/
inductive AdapterError where
  | launchRejected (status : Nat)
  | httpStatus (status conn : Nat)
  | http
  | protocol (message : String)
  | idempotencyConflict (message : String)
  | outcomeUncertain (state : JobState)
  | unsafeRequest
  | valueError (message : String)
deriving DecidableEq, Repr

def TransportFailure.error : TransportFailure → AdapterError
  | .http => .http
  | .tooLarge => .protocol "Local Worker HTTP response exceeded the capture limit"

def isSuccess (status : Nat) : Bool := decide (200 ≤ status ∧ status < 300)

/-! ## The launch contract -/

inductive JobCapability where
  | reconcile | resume | cancel | providerIdempotency | streamReconnect | repeatableCollect | idempotentLaunchLookup
  | durableLaunchRegistry | serverDriverProfiles
deriving DecidableEq, Repr

/-- An entry of the driver catalog; an absent field has another type. -/
structure CatalogEntry where
  driverId : Option String
  driverType : Option String
  profileFingerprint : Option String
  profileRevision : Option Int
  available : Option Bool
  supportsExecution : Option Bool
  supportsCancel : Option Bool

/-- The fields of a health document. -/
structure HealthData where
  versions : List Nat
  capabilities : List JobCapability
  authorityId : Option String
  registryId : Option String
  nodeId : Option String
  runtimeInstanceId : Option String
  drivers : Option (List (Option CatalogEntry))
  defaultDriverId : Option String

def HealthData.supports (h : HealthData) (c : JobCapability) : Bool := c ∈ h.capabilities

/-- A health answer; none for a body that is not a JSON object. -/
structure Health where
  status : Nat
  data : Option HealthData

structure DriverChoice where
  driverId : String
  driverType : String
  profileRevision : Int
  profileFingerprint : String
  available : Bool
  supportsExecution : Bool
  supportsCancel : Bool
deriving DecidableEq, Repr

structure JobCapabilities where
  supportsReconcile : Bool := true
  supportsResume : Bool := true
  supportsCancel : Bool := true
  supportsProviderIdempotency : Bool := true
  supportsStreamReconnect : Bool := false
  supportsRepeatableCollect : Bool := true
  supportsIdempotentLaunchLookup : Bool := true
  supportsDurableLaunchRegistry : Bool := true
deriving DecidableEq, Repr

/-- `JOB_CAPABILITIES`. -/
def jobCapabilitiesV1 : JobCapabilities where
  supportsProviderIdempotency := false
  supportsIdempotentLaunchLookup := false
  supportsDurableLaunchRegistry := false

/-- The fields that a negotiation sets. -/
structure Contract where
  protocolVersion : Nat
  authorityId : Option String
  registryId : Option String
  nodeId : Option String
  runtimeInstanceId : Option String
  driver : Option DriverChoice
  capabilities : JobCapabilities
  adapterInstanceId : String
deriving DecidableEq, Repr

def Contract.adapterType (c : Contract) : AdapterType := if c.protocolVersion = 2 then .httpV2 else .httpV1

/-- What a launch is sent under, and what a job is prepared under. -/
structure LaunchIdentity where
  adapterType : AdapterType
  adapterInstanceId : String
deriving DecidableEq, Repr

def Contract.launchIdentity (c : Contract) : LaunchIdentity := ⟨c.adapterType, c.adapterInstanceId⟩

/-- What the adapter is constructed with. -/
structure AdapterConfig where
  baseUrl : String
  requestedDriverId : Option String

/-- 1 to 200 characters. -/
def boundedIdentity (value : String) : Bool := decide (1 ≤ value.length ∧ value.length ≤ 200)

/-- `^sha256:[0-9a-f]{64}$`. -/
def isFingerprint (value : String) : Bool :=
  isDigest value && (value.toList.drop 7).all fun c => c.isDigit || (decide ('a' ≤ c) && decide (c ≤ 'f'))

/-- A well-formed entry of the catalog. -/
def CatalogEntry.choice (entry : CatalogEntry) : Option DriverChoice := do
  let choice : DriverChoice := ⟨← entry.driverId, ← entry.driverType, ← entry.profileRevision,
    ← entry.profileFingerprint, ← entry.available, ← entry.supportsExecution, ← entry.supportsCancel⟩
  guard (validDriverId choice.driverId ∧ 1 ≤ choice.driverType.length ∧ choice.driverType.length ≤ 64 ∧
    isFingerprint choice.profileFingerprint ∧ 1 ≤ choice.profileRevision)
  return choice

/-- The catalog by driver; every entry has to be well formed and new. -/
def readCatalog (profiles : List DriverChoice) : List (Option CatalogEntry) → Except AdapterError (List DriverChoice)
  | [] => .ok profiles
  | entry :: entries =>
    match entry.bind CatalogEntry.choice with
    | none => .error (.protocol "Local Worker driver catalog entry is malformed")
    | some choice =>
      if profiles.any (·.driverId = choice.driverId) then
        .error (.protocol "Local Worker driver catalog contains duplicate ids")
      else readCatalog (profiles ++ [choice]) entries

def selectDriverProfile (cfg : AdapterConfig) (h : HealthData) : Except AdapterError (Option DriverChoice) := do
  if !h.supports .serverDriverProfiles then
    ensure (cfg.requestedDriverId = none) (.protocol "Local Worker does not advertise registered server-side drivers")
    return none
  let entries ← orRaise h.drivers (.protocol "Local Worker driver catalog is malformed")
  -- an empty selection is no selection
  let selectedId ← orRaise ((cfg.requestedDriverId.filter (· ≠ "") <|> h.defaultDriverId).filter validDriverId)
    (.protocol "Local Worker did not advertise a valid default driver")
  let profiles ← readCatalog [] entries
  let selected ← orRaise (profiles.find? (·.driverId = selectedId))
    (.protocol "configured Local Worker driver is not registered")
  ensure (selected.available ∧ selected.supportsExecution) (.protocol "configured Local Worker driver is unavailable")
  return some selected

section

-- `"sha256:" + sha256(text)`
variable (digest : String → String)

/-- `_reset_v1_contract`. -/
def v1Contract (cfg : AdapterConfig) : Contract where
  protocolVersion := 1
  authorityId := none
  registryId := none
  nodeId := none
  runtimeInstanceId := none
  driver := none
  capabilities := jobCapabilitiesV1
  adapterInstanceId := digest cfg.baseUrl

/-- The instance identity of a registry that serves a driver on a node. -/
def v2InstanceId (cfg : AdapterConfig) (authorityId registryId : String) (driver : Option (String × DriverChoice)) :
    String :=
  digest (String.intercalate "\x00" ([cfg.baseUrl, authorityId, registryId] ++
    match driver with
    | none => []
    | some (nodeId, driver) =>
      [nodeId, driver.driverId, driver.driverType, toString driver.profileRevision, driver.profileFingerprint]))

/-- The complete registry contract is advertised. -/
def HealthData.supportsV2 (h : HealthData) : Bool :=
  h.versions.contains 2 && h.supports .reconcile && h.supports .resume && h.supports .repeatableCollect &&
    h.supports .providerIdempotency && h.supports .idempotentLaunchLookup && h.supports .durableLaunchRegistry

def v2Contract (cfg : AdapterConfig) (h : HealthData) : Except AdapterError Contract := do
  let authorityId ← orRaise (h.authorityId.filter boundedIdentity)
    (.protocol "Local Worker v2 did not advertise a bounded durable authority identity")
  let registryId ← orRaise (h.registryId.filter boundedIdentity)
    (.protocol "Local Worker v2 did not advertise a bounded durable registry identity")
  ensure (h.nodeId.all boundedIdentity = true) (.protocol "Local Worker v2 node identity is not bounded")
  ensure (h.runtimeInstanceId.all boundedIdentity = true)
    (.protocol "Local Worker v2 runtime instance identity is not bounded")
  let driver ← selectDriverProfile cfg h
  ensure (driver = none ∨ (h.nodeId.isSome ∧ h.runtimeInstanceId.isSome))
    (.protocol "registered Local Worker drivers require node and runtime identities")
  return {
    protocolVersion := 2
    authorityId := some authorityId
    registryId := some registryId
    nodeId := h.nodeId
    runtimeInstanceId := h.runtimeInstanceId
    driver := driver
    capabilities :=
      { supportsCancel := h.supports .cancel && (driver.map (·.supportsCancel)).getD true
        supportsStreamReconnect := h.supports .streamReconnect }
    adapterInstanceId := v2InstanceId digest cfg authorityId registryId (driver.map (h.nodeId.getD "", ·)) }

def negotiated (cfg : AdapterConfig) (answer : Except TransportFailure Health) : Except AdapterError Contract := do
  let health ← answer.mapError TransportFailure.error
  ensure (isSuccess health.status = true) (.launchRejected health.status)
  let h ← orRaise health.data (.protocol "Local Worker health response must be an object")
  if h.supportsV2 then v2Contract digest cfg h
  else
    ensure (cfg.requestedDriverId = none) (.protocol
      "configured Local Worker driver requires the complete protocol-v2 registered-driver contract")
    ensure (h.versions.contains 1 = true) (.protocol "Local Worker does not advertise protocol v1 or v2")
    return v1Contract digest cfg

end

def Contract.driverId (cfg : AdapterConfig) (c : Contract) : Option String :=
  (c.driver.map (·.driverId)) <|> cfg.requestedDriverId

/-- The authority and the registry of a v2 contract, with the instance identity. -/
structure AuthoritySnapshot where
  authorityId : String
  registryId : String
  adapterInstanceId : String
deriving DecidableEq, Repr

def v2ContractIdentity (c : Contract) : Except AdapterError AuthoritySnapshot :=
  match decide (c.protocolVersion = 2), c.authorityId, c.registryId with
  | true, some authorityId, some registryId => .ok ⟨authorityId, registryId, c.adapterInstanceId⟩
  | _, _, _ => .error (.protocol "Local Worker v2 authority identity is unavailable")

/-! ## Launch receipts -/

inductive WireLaunchState where
  | notSeen | rejectedPreLaunch | reserved | launching | running | completed | failed | cancelled | unknown
deriving DecidableEq, Repr

inductive LaunchDisposition where
  | definitelyNotLaunched | definitelyLaunched | launchInProgress | launchOutcomeUnknown
deriving DecidableEq, Repr

/-- The fields that the adapter looks for in the data of a response. -/
structure WireData where
  protocolVersion : Option Nat := none
  authorityId : Option String := none
  registryId : Option String := none
  driverId : Option String := none
  driverType : Option String := none
  driverProfileRevision : Option Int := none
  driverProfileFingerprint : Option String := none
  launchRuntimeInstanceId : Option String := none
  idempotencyKey : Option String := none
  launchState : WireLaunchState := .unknown
  disposition : Option LaunchDisposition := none
  accepted : Option Bool := none
  cancelAccepted : Option Bool := none
  requestDigest : Option String := none
  launchRecordId : Option String := none
  jobId : Option String := none
  receiptId : Option String := none
  state : JobState := .unknown
  error : Option String := none
deriving DecidableEq, Repr

/-- A response; none for a body that is not a JSON object. -/
structure WireResponse where
  status : Nat
  code : Option String
  data : Option WireData
deriving DecidableEq, Repr

structure Handle where
  runId : String
  adapterType : AdapterType
  adapterInstanceId : String
  jobId : String
deriving DecidableEq, Repr

/-- A request of the runtime; none for a payload that the adapter refuses to build. -/
structure WorkerRequest where
  runId : String
  taskId : Option String
  payload : Option (Option String → Object)

/-- What a lookup or a launch says of the launch, and the response that said so. -/
structure LaunchObservation where
  state : WireLaunchState
  disposition : LaunchDisposition
  handle : Option Handle := none
  receiptId : Option String := none
  source : Option (Nat × WireResponse) := none
deriving DecidableEq, Repr

def unknownLaunchObservation : LaunchObservation := ⟨.unknown, .launchOutcomeUnknown, none, none, none⟩

/-- A text that is present and not empty. -/
def present (value : Option String) : Bool := value.any (· ≠ "")

def validateV2DriverReceipt (expected : Option DriverChoice) (data : WireData) : Except AdapterError Unit := do
  match expected with
  | none => return ()
  | some expected =>
    ensure (data.driverId = some expected.driverId ∧ data.driverType = some expected.driverType ∧
        data.driverProfileRevision = some expected.profileRevision ∧
        data.driverProfileFingerprint = some expected.profileFingerprint)
      (.protocol "Local Worker launch receipt driver does not match the negotiated profile")
    ensure (data.launchRuntimeInstanceId.all boundedIdentity = true)
      (.protocol "Local Worker launch runtime identity is not bounded")

/-- The receipt comes from the registry that was negotiated. -/
def validateV2Authority (expected : AuthoritySnapshot) (data : WireData) (message : String) :
    Except AdapterError Unit :=
  ensure (data.authorityId = some expected.authorityId ∧ data.registryId = some expected.registryId) (.protocol message)

/-- `_v2_launch_observation`, for the response to the exchange `conn`. -/
def launchObservation (conn : Nat) (w : WireResponse) (request : WorkerRequest) (key digest : String)
    (expected : AuthoritySnapshot) (driver : Option DriverChoice) (allowNotSeen : Bool) :
    Except AdapterError LaunchObservation := do
  let data ← orRaise w.data (.protocol "Local Worker v2 launch response must be an object")
  ensure (¬ (w.status = 409 ∧ w.code = some "IDEMPOTENCY_CONFLICT"))
    (.idempotencyConflict "Local Worker launch key was reused with a different request digest")
  ensure (data.protocolVersion = some 2) (.protocol "Local Worker launch receipt is not protocol v2")
  validateV2Authority expected data
    "Local Worker launch receipt authority does not match the negotiated registry"
  validateV2DriverReceipt driver data
  ensure (data.idempotencyKey = some key) (.protocol "Local Worker launch receipt did not echo the requested key")
  let unknownState := AdapterError.protocol "Local Worker returned an unknown v2 launch state"
  let failure := if 400 ≤ w.status then .httpStatus w.status conn else unknownState
  ensure (data.launchState ≠ .unknown) failure
  let disposition ← orRaise data.disposition failure
  if data.launchState = .notSeen then
    ensure (allowNotSeen ∧ w.status = 404) (.protocol "NOT_SEEN is valid only for authoritative launch lookup")
    ensure (disposition = .definitelyNotLaunched) (.protocol "Local Worker NOT_SEEN receipt is not authoritative")
  else
    ensure (¬ (400 ≤ w.status ∧ data.launchState ≠ .rejectedPreLaunch)) (.httpStatus w.status conn)
    ensure (data.requestDigest ≠ none) (.protocol "Local Worker launch receipt omitted request digest")
    ensure (data.requestDigest = some digest)
      (.idempotencyConflict "Local Worker launch receipt belongs to a different request digest")
    if data.launchState = .rejectedPreLaunch then
      ensure (data.accepted = some false ∧ present data.receiptId)
        (.protocol "Local Worker pre-launch rejection omitted its authoritative receipt")
      ensure (disposition = .definitelyNotLaunched)
        (.protocol "Local Worker rejection does not prove no job was launched")
    else
      ensure (data.accepted = some true) (.protocol "Local Worker accepted launch receipt is malformed")
      ensure (present data.launchRecordId ∧ present data.jobId ∧ present data.receiptId)
        (.protocol "Local Worker accepted launch omitted durable identities")
  return {
    state := data.launchState
    disposition := disposition
    handle := (data.jobId.filter (· ≠ "")).map (⟨request.runId, .httpV2, expected.adapterInstanceId, ·⟩)
    receiptId := data.receiptId
    source := some (conn, w) }

/-- `_handle_launch_observation` on a launch that was not rejected. -/
def handleLaunchObservation (o : LaunchObservation) : Option Handle :=
  if o.disposition = .definitelyLaunched then o.handle
  else if o.state = .launching ∧ o.disposition = .launchInProgress ∧ present o.receiptId then o.handle
  else none

def launchIsSafeToPost (o : LaunchObservation) : Bool :=
  decide (o.state = .notSeen ∨
    (o.state = .reserved ∧ o.disposition = .definitelyNotLaunched ∧ present o.receiptId = true))

/-! ## Handles -/

section

variable (digest : String → String)

def handleMismatch (cfg : AdapterConfig) (c : Contract) (handle : Handle) : Option String :=
  match handle.adapterType with
  | .httpV1 =>
    if handle.adapterInstanceId = digest cfg.baseUrl then none
    else some "Worker job handle adapter instance does not match Local Worker"
  | .httpV2 =>
    if c.protocolVersion ≠ 2 then some "Worker job handle adapter type does not match Local Worker"
    else if handle.adapterInstanceId = c.adapterInstanceId then none
    else some "Worker job handle adapter instance does not match Local Worker"

end

/-- What a run ends in. -/
inductive RunOutcome where
  | completed | failed | cancelled | timedOut | authRequired | rateLimited
deriving DecidableEq, Repr

/-- A failed job by the code of its provider. -/
def failedRunState : Option String → RunOutcome
  | some "PROVIDER_AUTH_REQUIRED" => .authRequired
  | some "PROVIDER_RATE_LIMITED" => .rateLimited
  | some "PROVIDER_TIMEOUT" => .timedOut
  | _ => .failed

def terminalRunState (data : WireData) : Except AdapterError RunOutcome :=
  match data.state with
  | .knownCompleted => .ok .completed
  | .knownFailed => .ok (failedRunState data.error)
  | .knownCancelled => .ok .cancelled
  | _ => .error (.protocol "Local Worker job is not collectable")

end AgentFabric.LocalWorker
