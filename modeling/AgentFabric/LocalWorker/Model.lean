import AgentFabric.Domain

/-!
# Launch identities of the local worker

The launch states and records of `local_worker_v2/model.py` and the driver profiles of
`local_worker_v2/drivers.py`.
-/

namespace AgentFabric.LocalWorker

inductive LaunchState where
  | reserved | rejectedPreLaunch | launching | running | completed | failed | cancelled
deriving DecidableEq, Repr

def LaunchState.value : LaunchState → String
  | .reserved => "RESERVED" | .rejectedPreLaunch => "REJECTED_PRE_LAUNCH" | .launching => "LAUNCHING"
  | .running => "RUNNING" | .completed => "COMPLETED" | .failed => "FAILED" | .cancelled => "CANCELLED"

/-- `LaunchState(text)`. -/
def LaunchState.ofValue (text : String) : Option LaunchState :=
  [reserved, rejectedPreLaunch, launching, running, completed, failed, cancelled].find? (·.value = text)

/-- The states a process receipt can end in. -/
def LaunchState.ended : LaunchState → Bool
  | .completed | .failed | .cancelled => true
  | _ => false

/-- `TERMINAL_STATES`. -/
def LaunchState.terminal : LaunchState → Bool
  | .rejectedPreLaunch => true
  | s => s.ended

/-- `RESERVED < LAUNCHING < RUNNING < terminal`. -/
def LaunchState.rank : LaunchState → Nat
  | .reserved => 0
  | .launching => 1
  | .running => 2
  | _ => 3

/-- A value of a JSON document: of a float the integer that it equals, if any, of an object its canonical
serialisation. -/
inductive Json where
  | null | bool (value : Bool) | text (value : String) | int (value : Int) | float (whole : Option Int) | array
  | object (canonical : String)
deriving DecidableEq, Repr

/-- `value == number`; a truth value is a number too. -/
def Json.isInt : Json → Int → Bool
  | int n, number => n = number
  | bool b, number => (if b then 1 else 0) = number
  | float whole, number => whole = some number
  | _, _ => false

/-- `None` or a text. -/
def Json.ofOption : Option String → Json
  | none => null
  | some value => text value

@[simp] theorem Json.ofOption_some (value : String) : ofOption (some value) = text value := rfl

/-- A JSON object: `document.get(name)`. -/
abbrev Document := String → Json

def keyHead (c : Char) : Bool := c.isAlphanum

def keyTail (c : Char) : Bool := c.isAlphanum || c = '.' || c = '_' || c = ':' || c = '-'

/-- `^[A-Za-z0-9][A-Za-z0-9._:-]{0,limit}$`. -/
def boundedIdentifier (limit : Nat) (value : String) : Bool :=
  match value.toList with
  | [] => false
  | c :: cs => keyHead c && cs.length ≤ limit && cs.all keyTail

def validIdempotencyKey (value : String) : Bool := boundedIdentifier 255 value

def validDriverId (value : String) : Bool := boundedIdentifier 127 value

/-- A `sha256:` digest by its length and start. -/
def isDigest (value : String) : Bool := "sha256:".toList.isPrefixOf value.toList && value.length = 71

/-- The driver columns of a record. -/
structure DriverBinding where
  driverId : String
  driverType : String
  profileRevision : Int
  profileFingerprint : String
deriving DecidableEq, Repr

def validateDriverBinding (driver : DriverBinding) : Except String Unit := do
  if blank driver.driverId || driver.driverId.length > 128 then
    throw "driver_id must be a bounded non-empty identity"
  if blank driver.driverType || driver.driverType.length > 32 then
    throw "driver_type must be a bounded non-empty identity"
  if driver.profileRevision < 1 then
    throw "driver profile revision must be positive"
  if !isDigest driver.profileFingerprint then
    throw "driver profile fingerprint must be a sha256 digest"

structure LaunchRecord where
  launchRecordId : String
  authorityScope : String
  idempotencyKey : String
  requestDigest : String
  driver : Option DriverBinding
  launchRuntimeInstanceId : Option String
  launchState : LaunchState
  jobId : Option String
  receiptId : String
  launchNonce : Option String
  processPid : Option Int
  processBirthIdentity : Option String
  processHostIdentity : Option String
  createdAt : String
  launchError : Option String
  resultJson : Option String
  exitCode : Option Int
deriving DecidableEq, Repr

inductive DriverType where
  | test | claude | grok | agy | codex
deriving DecidableEq, Repr

def DriverType.value : DriverType → String
  | .test => "test" | .claude => "claude" | .grok => "grok" | .agy => "agy" | .codex => "codex"

/-- The part of a profile that the launch path reads. -/
structure DriverProfile where
  driverId : String
  driverType : DriverType
  profileRevision : Int
  profileFingerprint : String
  executableSha256 : Option String
  available : Bool
deriving DecidableEq, Repr

def DriverProfile.binding (profile : DriverProfile) : DriverBinding :=
  ⟨profile.driverId, profile.driverType.value, profile.profileRevision, profile.profileFingerprint⟩

end AgentFabric.LocalWorker
