import AgentFabric.Lib.JsonSize
import AgentFabric.LocalWorker.RequestBody

/-!
# The specification of a native run

What the daemon writes for the child that runs a native driver, and what the child accepts of it.
-/

namespace AgentFabric.LocalWorker

open AgentFabric.Lib

/-- `DriverType(value)`. -/
def DriverType.ofText (text : Text) : Option DriverType :=
  [.test, .claude, .grok, .agy, .codex].find? fun driverType => decide (lit driverType.value = text)

def DriverType.native : DriverType → Bool
  | .test => false
  | _ => true

namespace Wire

/-- Comparisons of floating-point numbers with integers and with each other, and `float(n)`, which raises for an integer
out of range. -/
structure Numbers (F : JsonFloats) where
  equalsInt : F.Val → Int → Bool
  ofInt : Int → Option F.Val
  atLeast : Int → F.Val → Bool
  above : Int → F.Val → Bool
  atMost : F.Val → Int → Bool
  le : F.Val → F.Val → Bool
  /-- `120.0`. -/
  defaultSeconds : F.Val
  above_zero : ∀ x, atLeast 1 x = true → above 0 x = true
  le_self : ∀ x, atLeast 1 x = true → le x x = true

/-- What `resolve` and `stat` tell of a path; the digest is missing when the file cannot be read. -/
structure File where
  path : Text
  sha256 : Option Text
  device : Int
  inode : Int
  uid : Nat
  mode : Nat
  regular : Bool
  executable : Bool

structure Disk where
  resolve : Text → Option File
  posix : Bool
  euid : Nat

/-- Why the child refuses its specification, or an exception that it does not catch. -/
inductive SpecError where
  | invalid (message : String)
  | raised (error : PyError)
  | overflowError
deriving DecidableEq

section

variable {F : JsonFloats} {π : Type} {N : Numbers F}

/-- Between 1 and 3600 seconds. -/
def Numbers.bounded (N : Numbers F) (x : F.Val) : Bool := N.atLeast 1 x && N.atMost x 3600

/-- An executable that the operator has reviewed. -/
structure Executable where
  path : Text
  sha256 : Text
  device : Int
  inode : Int
  uid : Nat
  mode : Nat
deriving DecidableEq

/-- `^sha256:[0-9a-f]{64}$`. -/
def isFingerprint (t : Text) : Bool :=
  decide (t.take 7 = lit "sha256:") && decide (t.length = 71) &&
    (t.drop 7).all fun c => isDigit c || decide (0x61 ≤ c.val ∧ c.val ≤ 0x66)

/-- A profile that passed its checks. -/
structure DriverProfile (N : Numbers F) where
  driverId : Text
  driverType : DriverType
  profileRevision : Int
  profileFingerprint : Text
  executable : Option Executable
  maxExecutionSeconds : F.Val
  driverId_safe : identifier 127 driverId = true
  revision_pos : 1 ≤ profileRevision
  fingerprint_sha : isFingerprint profileFingerprint = true
  seconds_bounded : N.bounded maxExecutionSeconds = true

/-- `Path(raw).expanduser().resolve(strict=True)`, with the checks of the file. -/
def Disk.review (disk : Disk) (raw : Text) : Option Executable :=
  match disk.resolve raw with
  | none => none
  | some file =>
    if !file.regular || !file.executable then none
    else if disk.posix && (file.mode &&& 0o022 ≠ 0 || (file.uid ≠ disk.euid && file.uid ≠ 0)) then none
    else file.sha256.map fun sha256 => ⟨file.path, sha256, file.device, file.inode, file.uid, file.mode⟩

/-- `value.get(name, default)`. -/
def fieldOr (entries : Entries F) (name : String) (default : Value F.Val) : Value F.Val :=
  (entries.lookup (lit name)).getD default

/-- What the fingerprint of a profile is computed from. -/
def profileMaterial (driverId : Text) (driverType : DriverType) (revision : Int) (executable : Option Executable)
    (seconds : F.Val) : Value F.Val :=
  let text (get : Executable → Text) : Value F.Val := (executable.map fun e => .str (get e)).getD .none
  let number (get : Executable → Int) : Value F.Val := (executable.map fun e => .int (get e)).getD .none
  .dict [(lit "driver_id", .str driverId), (lit "driver_type", .str (lit driverType.value)),
    (lit "profile_revision", .int revision), (lit "executable", text Executable.path),
    (lit "executable_sha256", text Executable.sha256), (lit "executable_device", number Executable.device),
    (lit "executable_inode", number Executable.inode), (lit "executable_uid", number fun e => e.uid),
    (lit "executable_mode", number fun e => e.mode), (lit "max_execution_seconds", .float seconds),
    (lit "available", .bool true)]

def fingerprint (hexdigest : List Byte → Text) (material : Value F.Val) : Option Text :=
  ((wideText F material).bind utf8Encode).map fun bytes => lit "sha256:" ++ hexdigest bytes

/-- `float(value)` of a number that is no truth value. -/
def seconds (N : Numbers F) : Value F.Val → Option (Option F.Val)
  | .float x => some (some x)
  | .int n => some (N.ofInt n)
  | _ => none

def profileFields : List String :=
  ["driver_id", "driver_type", "profile_revision", "executable", "max_execution_seconds"]

/-- The executable that a mapping names: a native driver has one, a test driver has none. -/
def reviewed (disk : Disk) (driverType : DriverType) (raw : Value F.Val) : Option (Option Executable) :=
  if driverType.native then
    match raw with
    | .str path => if strip path = [] then none else (disk.review path).map some
    | _ => none
  else match raw with
  | .none => some none
  | _ => none

/-- `DriverProfile.from_mapping`; every `DriverProfileError` and `ValueError` becomes the same refusal. -/
def DriverProfile.fromMapping (N : Numbers F) (disk : Disk) (hexdigest : List Byte → Text) (value : Entries F) :
    Except SpecError (DriverProfile N) :=
  let invalid : Except SpecError (DriverProfile N) := .error (.invalid "native driver profile is invalid")
  if !(value.all fun e => decide (e.1 ∈ profileFields.map lit)) then invalid
  else match field value "driver_id", field value "driver_type", fieldOr value "profile_revision" (.int 1) with
  | .str driverId, .str driverType, .int revision =>
    match DriverType.ofText driverType, seconds N (fieldOr value "max_execution_seconds" (.float N.defaultSeconds)) with
    | some driverType, some (some timeout) =>
      if h : identifier 127 driverId = true ∧ 1 ≤ revision ∧ N.bounded timeout = true then
        match reviewed disk driverType (field value "executable") with
        | none => invalid
        | some executable =>
          match fingerprint hexdigest (profileMaterial driverId driverType revision executable timeout) with
          | none => invalid
          | some print =>
            if hprint : isFingerprint print = true then
              .ok ⟨driverId, driverType, revision, print, executable, timeout, h.1, h.2.1, hprint, h.2.2⟩
            else invalid
      else invalid
    | some _, some none => .error .overflowError
    | _, _ => invalid
  | _, _, _ => invalid

/-! ## The daemon -/

/-- A text that identifies something: not blank, at most 256 characters, without a lone surrogate. -/
structure Name where
  text : Text
  visible : strip text ≠ []
  short : text.length ≤ 256
  plain : Plain text

/-- The identities of a launch that has been claimed. -/
structure Claimed where
  jobId : Name
  idempotencyKey : Name
  launchNonce : Name
  requestDigest : Name
  processHostIdentity : Name
  launchRuntimeInstanceId : Name

/-- `str(job["job_type"])`; a job that has been accepted has a text there. -/
def jobType (job : Entries F) : Text :=
  match field job "job_type" with
  | .str s => s
  | _ => []

def specSchema : String := "local-worker-native-execution/v1"

def launchPart (record : Claimed) : Entries F :=
  [(lit "protocol_version", .int protocolVersion), (lit "job_id", .str record.jobId.text),
    (lit "idempotency_key", .str record.idempotencyKey.text), (lit "launch_nonce", .str record.launchNonce.text),
    (lit "request_digest", .str record.requestDigest.text),
    (lit "process_host_identity", .str record.processHostIdentity.text),
    (lit "launch_runtime_instance_id", .str record.launchRuntimeInstanceId.text)]

def driverPart (profile : DriverProfile N) (executable : Executable) : Entries F :=
  [(lit "driver_id", .str profile.driverId), (lit "driver_type", .str (lit profile.driverType.value)),
    (lit "profile_revision", .int profile.profileRevision),
    (lit "profile_fingerprint", .str profile.profileFingerprint), (lit "executable", .str executable.path),
    (lit "executable_sha256", .str executable.sha256),
    (lit "max_execution_seconds", .float profile.maxExecutionSeconds)]

def schemaOf (job : Entries F) : Value F.Val :=
  if jobType job = lit "inference.structured" then field job "schema" else .none

def requestPart (profile : DriverProfile N) (request : LaunchSpec F π) : Entries F :=
  [(lit "run_id", .str request.runId), (lit "task_id", taskValue request.taskId),
    (lit "job_type", .str (jobType request.job)), (lit "role", field request.job "role"),
    (lit "prompt", field request.job "prompt"), (lit "schema", schemaOf request.job),
    (lit "timeout_seconds", .float profile.maxExecutionSeconds)]

def specEntries (record : Claimed) (profile : DriverProfile N) (executable : Executable) (request : LaunchSpec F π) :
    Entries F :=
  [(lit "schema_version", .str (lit specSchema)), (lit "launch", .dict (launchPart record)),
    (lit "driver", .dict (driverPart profile executable)), (lit "request", .dict (requestPart profile request))]

def specDocument (record : Claimed) (profile : DriverProfile N) (executable : Executable) (request : LaunchSpec F π) :
    Value F.Val := .dict (specEntries record profile executable request)

def nativeSpec (record : Claimed) (profile : DriverProfile N) (executable : Executable) (request : LaunchSpec F π) :
    Stage (List Byte) := do
  let encoded ← encodedDocument (specDocument record profile executable request)
  if maxRequestBytes < encoded.length then raise .valueError else .ok encoded

/-! ## The child -/

def maxSpecBytes : Nat := 256 * 1024

def specFields : List String := ["schema_version", "launch", "driver", "request"]

/-- The identities of a launch that the child checks. -/
def identityFields : List String :=
  ["job_id", "idempotency_key", "launch_nonce", "request_digest", "process_host_identity", "launch_runtime_instance_id"]

def launchFields : List String := "protocol_version" :: identityFields

def driverFields : List String :=
  ["driver_id", "driver_type", "profile_revision", "profile_fingerprint", "executable", "executable_sha256",
    "max_execution_seconds"]

def requestFields : List String := ["run_id", "task_id", "job_type", "role", "prompt", "schema", "timeout_seconds"]

def invalid {α : Type} (message : String) : Except SpecError α := .error (.invalid message)

def object (value : Value F.Val) (fields : List String) (name : String) : Except SpecError (Entries F) :=
  match value with
  | .dict entries => if hasFields entries fields then .ok entries
      else invalid (name ++ " has unknown or missing fields")
  | _ => invalid (name ++ " has unknown or missing fields")

def identity (value : Value F.Val) (name : String) (maximum : Nat) : Except SpecError Text :=
  match value with
  | .str s =>
    if strip s = [] ∨ maximum < s.length then invalid (name ++ " must be a bounded non-empty string") else .ok s
  | _ => invalid (name ++ " must be a bounded non-empty string")

/-- `value == number`. -/
def equals (N : Numbers F) (value : Value F.Val) (number : Int) : Bool :=
  match value with
  | .int n => n = number
  | .bool b => (if b then 1 else 0) = number
  | .float x => N.equalsInt x number
  | _ => false

/-- The identities of the launch, in any order. -/
def checkLaunch (N : Numbers F) (launch : Entries F) : Except SpecError Unit :=
  if !equals N (field launch "protocol_version") protocolVersion then invalid "launch protocol version is unsupported"
  else identityFields.forM fun name => (identity (field launch name) ("launch." ++ name) 256).map fun _ => ()

def profileMapping (driver : Entries F) : Entries F := profileFields.map fun name => (lit name, field driver name)

def checkDriver (N : Numbers F) (disk : Disk) (hexdigest : List Byte → Text) (driver : Entries F) :
    Except SpecError Unit := do
  let profile ← DriverProfile.fromMapping N disk hexdigest (profileMapping driver)
  match profile.executable with
  | none => invalid "native runner received a non-native driver"
  | some executable =>
    if !isText (field driver "profile_fingerprint") profile.profileFingerprint ||
        !isText (field driver "executable_sha256") executable.sha256 then
      invalid "native driver executable/profile identity changed"
    else match disk.resolve executable.path with
    | none => invalid "native driver executable is unavailable"
    | some file =>
      if !file.regular || !file.executable then invalid "native driver executable is not executable" else .ok ()

def checkTimeout (N : Numbers F) (maximum timeout : Value F.Val) : Except SpecError Unit :=
  match seconds N maximum, seconds N timeout with
  | some (some maximum), some (some timeout) =>
    if N.bounded maximum && N.above 0 timeout && N.le timeout maximum then .ok ()
    else invalid "worker timeout exceeds its driver profile"
  | some none, _ => .error .overflowError
  | _, some none => .error .overflowError
  | _, _ => invalid "worker timeout exceeds its driver profile"

def checkTask (task : Value F.Val) : Except SpecError Unit :=
  match task with
  | .none => .ok ()
  | task => (identity task "request.task_id" 256).map fun _ => ()

/-- The type of the job is known; is it structured? -/
def checkJobType (value : Value F.Val) : Except SpecError Bool :=
  match value with
  | .str s =>
    if s ∈ jobTypes.map lit then .ok (decide (s = lit "inference.structured"))
    else invalid "worker job_type is unsupported"
  | .list _ | .dict _ => .error (.raised .typeError)
  | _ => invalid "worker job_type is unsupported"

def checkPrompt (value : Value F.Val) : Except SpecError Unit := do
  let prompt ← identity value "request.prompt" maxPromptBytes
  match utf8Encode prompt with
  | none => .error (.raised .unicodeEncodeError)
  | some bytes => if maxPromptBytes < bytes.length then invalid "worker prompt exceeds 128 KiB" else .ok ()

def checkSchema (structured : Bool) (schema : Value F.Val) : Except SpecError Unit :=
  match structured, schema with
  | true, .dict _ => .ok ()
  | true, _ => invalid "structured worker request requires an object schema"
  | false, .none => .ok ()
  | false, _ => invalid "chat worker request must not include a schema"

def checkRequest (request : Entries F) : Except SpecError Unit := do
  let _ ← identity (field request "run_id") "request.run_id" 256
  checkTask (field request "task_id")
  let structured ← checkJobType (field request "job_type")
  checkPrompt (field request "prompt")
  let _ ← identity (field request "role") "request.role" 64
  checkSchema structured (field request "schema")

def readRoot (raw : List Byte) : Except SpecError (Entries F) :=
  if raw = [] ∨ maxSpecBytes < raw.length then invalid "execution spec is empty or exceeds 256 KiB"
  else match utf8Strict raw with
  | none => invalid "execution spec must be UTF-8 JSON"
  | some text =>
    match loadsText F.toFloatFormat (fun pairs => (.ok (objectOf pairs) : Except Empty (Value F.Val))) text with
    | .error _ => invalid "execution spec must be UTF-8 JSON"
    | .ok value => object value specFields "execution spec"

/-- `_read_spec`: the launch, the driver and the request of a specification. -/
def readSpec (N : Numbers F) (disk : Disk) (hexdigest : List Byte → Text) (raw : List Byte) :
    Except SpecError (Entries F × Entries F × Entries F) := do
  let root ← readRoot raw
  if !isText (field root "schema_version") (lit specSchema) then invalid "execution spec schema is unsupported"
  else
    let launch ← object (field root "launch") launchFields "launch identity"
    let driver ← object (field root "driver") driverFields "driver profile"
    let request ← object (field root "request") requestFields "worker request"
    checkLaunch N launch
    checkDriver N disk hexdigest driver
    checkTimeout N (field driver "max_execution_seconds") (field request "timeout_seconds")
    checkRequest request
    return (launch, driver, request)

end

/-! ## What the daemon has accepted -/

section Accepted

variable {F : JsonFloats} {π : Type}

/-- What the checks of the daemon leave true of a request, in either protocol. -/
structure Accepted (request : LaunchSpec F π) : Prop where
  sized : (Value.dict request.job).Sized
  encodable : EncodableRequest request.runId request.taskId request.job
  runId : strip request.runId ≠ [] ∧ request.runId.length ≤ 256
  taskId : ∀ t, request.taskId = some t → strip t ≠ [] ∧ t.length ≤ 256
  jobType : ∃ t, field request.job "job_type" = .str t ∧ t ∈ jobTypes.map lit
  role : ∃ r, field request.job "role" = .str r ∧ r ∈ roles.map lit
  prompt : ∃ p, field request.job "prompt" = .str p ∧ textSize p ≤ maxPromptBytes

variable {value : Value F.Val}

theorem isMember_true {names : List String} (h : isMember value names = .ok true) :
    ∃ s, value = .str s ∧ s ∈ names.map lit := by
  unfold isMember at h
  split at h
  · cases h
  · cases h
  · next s => exact ⟨s, rfl, of_decide_eq_true (Except.ok.inj h)⟩
  · cases h

theorem boundedText_bounds {s : Text} (h : boundedText value = some s) :
    strip s ≠ [] ∧ s.length ≤ 256 := by
  unfold boundedText at h
  split at h
  · split at h
    · cases h
    · next hne =>
      cases h
      rw [not_or, Nat.not_lt] at hne
      exact hne
  · cases h

variable {host : Host F π}

theorem launchHeader_bounds {body : Entries F} {header : Header F} (h : launchHeader host body = .ok header) :
    (strip header.runId ≠ [] ∧ header.runId.length ≤ 256) ∧
      ∀ t, header.taskId = some t → strip t ≠ [] ∧ t.length ≤ 256 := by
  unfold launchHeader at h
  split at h
  · split at h
    · cases h
    split at h
    · cases h
    split at h
    · cases h
    split at h
    · cases h
    split at h
    · split at h
      · cases h
      · next hrun _ =>
        cases h
        exact ⟨boundedText_bounds hrun, fun t ht => (by cases ht)⟩
      · next hrun _ =>
        split at h
        · cases h
        · next htask =>
          cases h
          refine ⟨boundedText_bounds hrun, fun t ht => ?_⟩
          cases ht
          exact boundedText_bounds htask
    · cases h
  · cases h

theorem looked_up {names : List String} {known : Bool} (h : isMember value names = .ok known)
    (hknown : ¬ (!known) = true) : ∃ s, value = .str s ∧ s ∈ names.map lit := by
  cases known with
  | false => exact absurd rfl hknown
  | true => exact isMember_true h

theorem utf8Length_size {text : Text} {length : Nat} (h : utf8Length text = .ok length) : length = textSize text := by
  obtain ⟨bytes, hbytes, rfl⟩ := utf8Length_ok.mp h
  exact utf8Encode_length hbytes

theorem jobReason_none {job : Entries F} (h : jobReason job = .ok none) :
    (∃ t, field job "job_type" = .str t ∧ t ∈ jobTypes.map lit) ∧
      (∃ r, field job "role" = .str r ∧ r ∈ roles.map lit) ∧
      ∃ p, field job "prompt" = .str p ∧ textSize p ≤ maxPromptBytes := by
  unfold jobReason at h
  obtain ⟨known, htype, h⟩ := bind_eq_ok.mp h
  split at h
  · cases h
  next hknown =>
  obtain ⟨known', hrole, h⟩ := bind_eq_ok.mp h
  split at h
  · cases h
  next hknown' =>
  refine ⟨looked_up htype hknown, looked_up hrole hknown', ?_⟩
  split at h
  · cases h
  · next prompt _ hprompt =>
    obtain ⟨length, hlength, h⟩ := bind_eq_ok.mp h
    split at h
    · cases h
    · next hle =>
      rw [utf8Length_size hlength] at hle
      exact ⟨prompt, hprompt, Nat.not_lt.mp hle⟩
  · cases h

theorem encodable_of_digest {runId : Text} {taskId : Option Text} {job : Entries F} {digest : Text}
    (hsized : (Value.dict job).Sized) (h : requestDigest host runId taskId job = .ok digest) :
    EncodableRequest runId taskId job := by
  by_contra hnot
  obtain ⟨error, hraised⟩ := (requestDigest_raises hsized).mpr hnot
  rw [hraised] at h
  cases h

theorem postLaunch_accepted {raw : List Byte} {key digest : Text} {request : LaunchSpec F π}
    (h : postLaunch host raw = .ok (.accepted key digest request)) : Accepted request := by
  obtain ⟨body, hbody, h⟩ := bind_eq_ok.mp h
  unfold parseLaunch at h
  obtain ⟨header, hheader, h⟩ := bind_eq_ok.mp h
  obtain ⟨computed, hcomputed, h⟩ := bind_eq_ok.mp h
  split at h
  · cases h
  obtain ⟨reason, hreason, h⟩ := bind_eq_ok.mp h
  split at h
  · cases h
  cases h
  have hof := launchHeader_of hheader
  have hsized : (Value.dict header.job).Sized := hof.job ▸ field_sized (jsonBody_sized hbody) "job"
  obtain ⟨hrun, htask⟩ := launchHeader_bounds hheader
  obtain ⟨htype, hrole, hprompt⟩ := jobReason_none hreason
  exact ⟨hsized, encodable_of_digest hsized hcomputed, hrun, htask, htype, hrole, hprompt⟩

theorem postJob_accepted {uuid : Uuid} (huuid : uuid.text.length = 36) {raw : List Byte} {digest : Text}
    {request : LaunchSpec F π} (h : postJob host uuid raw = .ok (digest, request)) :
    Accepted request ∧ request.profile = host.default := by
  obtain ⟨body, hbody, h⟩ := bind_eq_ok.mp h
  unfold parseJobV1 at h
  split at h
  · cases h
  obtain ⟨known, htype, h⟩ := bind_eq_ok.mp h
  split at h
  · cases h
  next hknown =>
  obtain ⟨known', hrole, h⟩ := bind_eq_ok.mp h
  split at h
  · cases h
  next hknown' =>
  split at h
  · cases h
  · next prompt _ hprompt =>
    obtain ⟨length, hlength, h⟩ := bind_eq_ok.mp h
    split at h
    · cases h
    next hle =>
    split at h
    · cases h
    obtain ⟨computed, hcomputed, h⟩ := bind_eq_ok.mp h
    cases h
    rw [utf8Length_size hlength] at hle
    have hsized := jsonBody_sized hbody
    have hlong : (lit "v1-run-" ++ uuid.text).length ≤ 256 := by
      rw [List.length_append, huuid]
      decide
    have hvisible : strip (lit "v1-run-" ++ uuid.text) ≠ [] := fun hblank =>
      absurd (strip_eq_nil.mp hblank (ch 'v') List.mem_cons_self) (by decide)
    refine ⟨⟨hsized, encodable_of_digest hsized hcomputed, ⟨hvisible, hlong⟩, fun t ht => (by cases ht),
      looked_up htype hknown, looked_up hrole hknown', prompt, hprompt, Nat.not_lt.mp hle⟩, rfl⟩
  · cases h

end Accepted

/-! ## The document -/

section Document

variable {F : JsonFloats} {N : Numbers F} {π : Type}

/-- The bytes that the identities of a launch take. -/
def Claimed.size (record : Claimed) : Nat :=
  strSize record.jobId.text + strSize record.idempotencyKey.text + strSize record.launchNonce.text +
    strSize record.requestDigest.text + strSize record.processHostIdentity.text +
    strSize record.launchRuntimeInstanceId.text

/-- The bytes that a profile takes. -/
def DriverProfile.size (profile : DriverProfile N) (executable : Executable) : Nat :=
  strSize profile.driverId + strSize (lit profile.driverType.value) + jsonSize F (.int profile.profileRevision) +
    strSize profile.profileFingerprint + strSize executable.path + strSize executable.sha256 +
    2 * jsonSize F (.float profile.maxExecutionSeconds)

/-- The bytes that a request takes. -/
def LaunchSpec.size (request : LaunchSpec F π) : Nat :=
  strSize request.runId + jsonSize F (taskValue request.taskId) + strSize (jobType request.job) +
    jsonSize F (field request.job "role") + jsonSize F (field request.job "prompt") + jsonSize F (schemaOf request.job)

/-- The bytes of the names and the punctuation. -/
def specOverhead : Nat := 437

theorem jsonSize_specDocument (record : Claimed) (profile : DriverProfile N) (executable : Executable)
    (request : LaunchSpec F π) : jsonSize F (specDocument record profile executable request) =
      record.size + profile.size executable + request.size + specOverhead := by
  have hnames : (specSchema :: (specFields ++ launchFields ++ driverFields ++ requestFields)).map
      (fun name => strSize (lit name)) =
      [34, 16, 8, 8, 9, 18, 8, 17, 14, 16, 23, 28, 11, 13, 18, 21, 12, 19, 23, 8, 9, 10, 6, 8, 8, 17] := by decide
  have hversion : jsonSize F (.int protocolVersion) = 1 := by
    rw [jsonSize, show protocolVersion = 2 from rfl, intText_two]
    decide
  simp only [specFields, launchFields, identityFields, driverFields, requestFields, List.cons_append, List.nil_append,
    List.map_cons, List.map_nil, List.cons.injEq, and_true] at hnames
  simp only [specDocument, specEntries, launchPart, driverPart, requestPart, jsonSize, entriesSize, List.length_cons,
    List.length_nil,
    Claimed.size, DriverProfile.size, LaunchSpec.size, specOverhead] at hversion ⊢
  omega

end Document

/-! ## The profile -/

section Profile

variable {F : JsonFloats} {N : Numbers F} {π : Type} {disk : Disk} {hexdigest : List Byte → Text}

/-- The five fields of a native profile. -/
def profileEntries (profile : DriverProfile N) (executable : Executable) : Entries F :=
  [(lit "driver_id", .str profile.driverId), (lit "driver_type", .str (lit profile.driverType.value)),
    (lit "profile_revision", .int profile.profileRevision), (lit "executable", .str executable.path),
    (lit "max_execution_seconds", .float profile.maxExecutionSeconds)]

/-- Read again from its five fields, a native profile is what it was. -/
structure DriverProfile.Current (profile : DriverProfile N) (executable : Executable) (disk : Disk)
    (hexdigest : List Byte → Text) : Prop where
  native : profile.executable = some executable
  unchanged : DriverProfile.fromMapping N disk hexdigest (profileEntries profile executable) = .ok profile

theorem isFingerprint_plain {t : Text} (h : isFingerprint t = true) : Plain t := by
  simp only [isFingerprint, Bool.and_eq_true, decide_eq_true_eq, List.all_eq_true, Bool.or_eq_true] at h
  obtain ⟨⟨hhead, -⟩, hdigits⟩ := h
  rw [← List.take_append_drop 7 t]
  refine Plain.append (hhead ▸ plain_of_ascii rfl) (plain_of_lt fun c hc => ?_)
  rcases hdigits c hc with hdigit | hletter
  · exact isDigit_lt hdigit
  · omega

theorem identifier_plain {limit : Nat} {t : Text} (h : identifier limit t = true) : Plain t := by
  have halnum : ∀ c, identifier.alnum c = true → c.val < 0x80 := by
    intro c hc
    simp only [identifier.alnum, Bool.or_eq_true, decide_eq_true_eq] at hc
    rcases hc with (hdigit | hupper) | hlower
    · exact isDigit_lt hdigit
    · omega
    · omega
  cases t with
  | nil => cases h
  | cons c t =>
    simp only [identifier, Bool.and_eq_true, List.all_eq_true, Bool.or_eq_true, decide_eq_true_eq] at h
    refine plain_of_lt fun d hd => ?_
    rcases List.mem_cons.mp hd with rfl | hd
    · exact halnum _ h.1.1
    · rcases h.2 d hd with hchar | hmark
      · exact halnum d hchar
      · exact lt_of_mem_ascii (t := lit "._:-") rfl hmark

theorem driverType_ofText (driverType : DriverType) : DriverType.ofText (lit driverType.value) = some driverType := by
  cases driverType <;> decide

theorem fromMapping_entries (profile : DriverProfile N) (executable : Executable) :
    DriverProfile.fromMapping N disk hexdigest (profileEntries profile executable) =
      match reviewed disk profile.driverType (.str executable.path : Value F.Val) with
      | none => invalid "native driver profile is invalid"
      | some executable =>
        match fingerprint hexdigest
          (profileMaterial (F := F) profile.driverId profile.driverType profile.profileRevision
            executable profile.maxExecutionSeconds) with
        | none => invalid "native driver profile is invalid"
        | some print =>
          if hprint : isFingerprint print = true then
            .ok ⟨profile.driverId, profile.driverType, profile.profileRevision, print, executable,
              profile.maxExecutionSeconds, profile.driverId_safe, profile.revision_pos, hprint, profile.seconds_bounded⟩
          else invalid "native driver profile is invalid" := by
  have hall : (profileEntries profile executable).all (fun e => decide (e.1 ∈ profileFields.map lit)) = true := rfl
  have hid : field (profileEntries profile executable) "driver_id" = .str profile.driverId := rfl
  have htype : field (profileEntries profile executable) "driver_type" = .str (lit profile.driverType.value) := rfl
  have hrevision : fieldOr (profileEntries profile executable) "profile_revision" (.int 1) =
      .int profile.profileRevision := rfl
  have hseconds : seconds N (fieldOr (profileEntries profile executable) "max_execution_seconds"
      (.float N.defaultSeconds)) = some (some profile.maxExecutionSeconds) := rfl
  have hpath : field (profileEntries profile executable) "executable" = .str executable.path := rfl
  unfold DriverProfile.fromMapping
  simp only [hall, hid, htype, hrevision, hseconds, hpath, driverType_ofText, Bool.not_true,
    Bool.false_eq_true, if_false,
    profile.driverId_safe, profile.revision_pos, profile.seconds_bounded, and_self, dif_pos, invalid]

variable {executable : Executable}

/-- What reading a profile again has looked up. -/
theorem DriverProfile.Current.read {profile : DriverProfile N} (h : profile.Current executable disk hexdigest) :
    fingerprint hexdigest (profileMaterial (F := F) profile.driverId profile.driverType profile.profileRevision
        (some executable) profile.maxExecutionSeconds) = some profile.profileFingerprint ∧
      disk.review executable.path = some executable := by
  have hread := (fromMapping_entries profile executable).symm.trans h.unchanged
  split at hread
  · cases hread
  next executable' hreviewed =>
  split at hread
  · cases hread
  next print hprint =>
  split at hread
  · have hsame := Except.ok.inj hread
    have hexecutable : executable' = some executable := (congrArg DriverProfile.executable hsame).trans h.native
    have hfingerprint : print = profile.profileFingerprint := congrArg DriverProfile.profileFingerprint hsame
    subst hexecutable hfingerprint
    refine ⟨hprint, ?_⟩
    simp only [reviewed] at hreviewed
    split at hreviewed
    · split at hreviewed
      · cases hreviewed
      · obtain ⟨e, he, heq⟩ := Option.map_eq_some_iff.mp hreviewed
        cases heq
        exact he
    · cases hreviewed
  · cases hread

theorem Disk.review_some {raw : Text} (h : disk.review raw = some executable) :
    ∃ file, disk.resolve raw = some file ∧ file.regular = true ∧ file.executable = true := by
  unfold Disk.review at h
  split at h
  · cases h
  · next file hfile =>
    split at h
    · cases h
    · next hkind =>
      refine ⟨file, hfile, ?_⟩
      simpa using hkind

theorem DriverProfile.Current.written {profile : DriverProfile N} (h : profile.Current executable disk hexdigest) :
    (intText profile.profileRevision).isSome = true ∧ Plain executable.path ∧ Plain executable.sha256 := by
  obtain ⟨bytes, hbytes, -⟩ := Option.map_eq_some_iff.mp h.read.1
  obtain ⟨text, htext, -⟩ := Option.bind_eq_some_iff.mp hbytes
  have htree : (profileMaterial (F := F) profile.driverId profile.driverType profile.profileRevision (some executable)
      profile.maxExecutionSeconds).Tree := by
    refine ⟨?_, Value.formedEntries_iff.mpr ?_⟩
    · exact show [lit "driver_id", lit "driver_type", lit "profile_revision", lit "executable", lit "executable_sha256",
        lit "executable_device", lit "executable_inode", lit "executable_uid", lit "executable_mode",
        lit "max_execution_seconds", lit "available"].Nodup by decide
    · simp [Value.Formed]
  have hsized := Value.Sized.of_wideText htree htext
  have hencodable := (encode_wideText_isSome hsized).mp (Option.isSome_of_mem hbytes)
  rw [profileMaterial, Value.encodable_dict] at hencodable
  have hints := hsized.ints profile.profileRevision
  simp only [profileMaterial, Value.leaves, Value.leavesEntries, Option.map_some, Option.getD_some] at hints
  refine ⟨hints (by simp), ?_, ?_⟩
  · exact Value.encodable_str.mp (hencodable (lit "executable", .str executable.path) (by simp)).2
  · exact Value.encodable_str.mp (hencodable (lit "executable_sha256", .str executable.sha256) (by simp)).2

end Profile

/-! ## What is written -/

section Written

variable {F : JsonFloats} {N : Numbers F} {π : Type} {disk : Disk} {hexdigest : List Byte → Text} {record : Claimed}
variable {profile : DriverProfile N} {executable : Executable} {request : LaunchSpec F π}

theorem schemaOf_sized (h : (Value.dict request.job).Sized) : (schemaOf request.job).Sized := by
  unfold schemaOf
  split
  · exact field_sized h "schema"
  · exact Value.sized_none

theorem schemaOf_encodable (h : (Value.dict request.job).Encodable) : (schemaOf request.job).Encodable := by
  unfold schemaOf
  split
  · exact field_encodable h "schema"
  · exact fun s hs => (by cases hs)

theorem keys_nodup {entries : Entries F} (names : List String) (h : entries.map Prod.fst = names.map lit)
    (hnames : (names.map lit).Nodup) : (entries.map Prod.fst).Nodup := h ▸ hnames

theorem keys_plain {entries : Entries F} (names : List String) (h : entries.map Prod.fst = names.map lit)
    (hnames : ∀ name ∈ names, asciiText (lit name) = true) {e : Text × Value F.Val} (he : e ∈ entries) : Plain e.1 := by
  have hkey : e.1 ∈ names.map lit := h ▸ List.mem_map_of_mem he
  obtain ⟨name, hname, heq⟩ := List.mem_map.mp hkey
  exact heq ▸ plain_of_ascii (hnames name hname)

theorem launchPart_keys : ((launchPart (F := F) record).map Prod.fst).Nodup := keys_nodup launchFields rfl (by decide)

theorem driverPart_keys : ((driverPart profile executable).map Prod.fst).Nodup :=
    keys_nodup driverFields rfl (by decide)

theorem requestPart_keys : ((requestPart profile request).map Prod.fst).Nodup :=
    keys_nodup requestFields rfl (by decide)

theorem specEntries_keys : ((specEntries record profile executable request).map Prod.fst).Nodup :=
  keys_nodup specFields rfl (by decide)

theorem specDocument_sized (hcurrent : profile.Current executable disk hexdigest) (haccepted : Accepted request) :
    (specDocument record profile executable request).Sized := by
  have hversion : (Value.int protocolVersion : Value F.Val).Sized := Value.sized_int (Option.isSome_of_mem intText_two)
  have hlaunch : (Value.dict (launchPart record) : Value F.Val).Sized := by
    refine Value.sized_dict launchPart_keys ?_
    simp [launchPart, Value.sized_str, hversion]
  have hdriver : (Value.dict (driverPart profile executable)).Sized := by
    refine Value.sized_dict driverPart_keys ?_
    simp [driverPart, Value.sized_str, Value.sized_float, Value.sized_int hcurrent.written.1]
  have hrequest : (Value.dict (requestPart profile request)).Sized := by
    refine Value.sized_dict requestPart_keys ?_
    simp [requestPart, Value.sized_str, Value.sized_float, taskValue_sized, schemaOf_sized haccepted.sized,
      field_sized haccepted.sized]
  refine Value.sized_dict specEntries_keys ?_
  simp [specEntries, Value.sized_str, hlaunch, hdriver, hrequest]

theorem jobType_plain (h : (Value.dict request.job).Encodable) : Plain (jobType request.job) := by
  have hfield := field_encodable h "job_type"
  unfold jobType
  split
  · next heq =>
    rw [heq] at hfield
    exact Value.encodable_str.mp hfield
  · exact fun c hc => (by cases hc)

theorem specDocument_encodable (hcurrent : profile.Current executable disk hexdigest) (haccepted : Accepted request) :
    (specDocument record profile executable request).Encodable := by
  have hnumber : ∀ n : Int, (Value.int n : Value F.Val).Encodable := fun n s hs => (by cases List.mem_singleton.mp hs)
  have hfloat : ∀ x : F.Val, (Value.float x).Encodable := fun x s hs => (by cases hs)
  have htype : Plain (lit profile.driverType.value) := by
    cases profile.driverType <;> exact plain_of_ascii rfl
  have hlaunch : (Value.dict (launchPart record) : Value F.Val).Encodable := by
    refine Value.encodable_dict.mpr fun e he => ⟨keys_plain launchFields rfl (by decide) he, ?_⟩
    revert e
    simp [launchPart, Value.encodable_str, hnumber, record.jobId.plain, record.idempotencyKey.plain,
      record.launchNonce.plain, record.requestDigest.plain, record.processHostIdentity.plain,
      record.launchRuntimeInstanceId.plain]
  have hdriver : (Value.dict (driverPart profile executable)).Encodable := by
    refine Value.encodable_dict.mpr fun e he => ⟨keys_plain driverFields rfl (by decide) he, ?_⟩
    revert e
    simp [driverPart, Value.encodable_str, hnumber, hfloat, htype, identifier_plain profile.driverId_safe,
      isFingerprint_plain profile.fingerprint_sha, hcurrent.written]
  have hrequest : (Value.dict (requestPart profile request)).Encodable := by
    refine Value.encodable_dict.mpr fun e he => ⟨keys_plain requestFields rfl (by decide) he, ?_⟩
    have hjob := haccepted.encodable.job
    have htask : (taskValue request.taskId : Value F.Val).Encodable :=
      taskValue_encodable.mpr haccepted.encodable.taskId
    revert e
    simp [requestPart, Value.encodable_str, hfloat, haccepted.encodable.runId, htask, jobType_plain hjob,
      schemaOf_encodable hjob, field_encodable hjob]
  refine Value.encodable_dict.mpr fun e he => ⟨keys_plain specFields rfl (by decide) he, ?_⟩
  revert e
  simp [specEntries, hlaunch, hdriver, hrequest, Value.encodable_str,
    show Plain (lit specSchema) from plain_of_ascii rfl]

theorem encodedDocument_written {v : Value F.Val} (h : v.Writable) : ∃ text bytes, wideText F v = some text ∧
    utf8Encode text = some bytes ∧ bytes.length = jsonSize F v ∧ encodedDocument v = .ok bytes := by
  obtain ⟨bytes, hbytes⟩ := Option.isSome_iff_exists.mp ((encode_wideText_iff h.sized.tree).mpr h)
  obtain ⟨text, htext, hencoded⟩ := Option.bind_eq_some_iff.mp hbytes
  refine ⟨text, bytes, htext, hencoded, (utf8Encode_length hencoded).trans (wideText_size h.sized.tree htext), ?_⟩
  unfold encodedDocument
  rw [htext]
  dsimp only
  rw [hencoded]

theorem nativeSpec_written (record : Claimed) (hcurrent : profile.Current executable disk hexdigest)
    (haccepted : Accepted request) : ∃ text bytes,
      wideText F (specDocument record profile executable request) = some text ∧ utf8Encode text = some bytes ∧
      bytes.length = jsonSize F (specDocument record profile executable request) ∧
      nativeSpec record profile executable request =
        if maxRequestBytes < bytes.length then raise .valueError else .ok bytes := by
  have hwritable : (specDocument record profile executable request).Writable :=
    ⟨specDocument_sized hcurrent haccepted, specDocument_encodable hcurrent haccepted⟩
  obtain ⟨text, bytes, htext, hencoded, hlength, hdocument⟩ := encodedDocument_written hwritable
  refine ⟨text, bytes, htext, hencoded, hlength, ?_⟩
  unfold nativeSpec
  rw [hdocument]
  rfl

end Written

/-! ## What is read -/

section Reading

variable {F : JsonFloats} {N : Numbers F} {π : Type} {disk : Disk} {hexdigest : List Byte → Text} {record : Claimed}
variable {profile : DriverProfile N} {executable : Executable} {request : LaunchSpec F π}

theorem identity_ok {s : Text} {name : String} {maximum : Nat} (hvisible : strip s ≠ []) (hshort : s.length ≤ maximum) :
    identity (.str s : Value F.Val) name maximum = .ok s := by
  unfold identity
  dsimp only
  rw [if_neg]
  rintro (hblank | hlong)
  · exact hvisible hblank
  · omega

theorem forM_ok {names : List String} {f : String → Except SpecError Unit} (h : ∀ name ∈ names, f name = .ok ()) :
    names.forM f = .ok () := by
  induction names with
  | nil => rfl
  | cons name names ih =>
    rw [show (name :: names).forM f = (f name >>= fun _ => names.forM f) from rfl, h name List.mem_cons_self]
    exact ih fun other hother => h other (List.mem_cons_of_mem name hother)

theorem checkLaunch_ok : checkLaunch N (ordered (launchPart record)) = .ok () := by
  have hfield := field_ordered (@launchPart_keys F record)
  have hversion : equals N (field (ordered (launchPart record)) "protocol_version") protocolVersion = true := by
    rw [hfield]
    rfl
  have hname : ∀ name ∈ identityFields, ∃ n : Name, field (launchPart (F := F) record) name = .str n.text := by
    intro name hname
    simp only [identityFields, List.mem_cons, List.not_mem_nil, or_false] at hname
    rcases hname with rfl | rfl | rfl | rfl | rfl | rfl
    · exact ⟨record.jobId, rfl⟩
    · exact ⟨record.idempotencyKey, rfl⟩
    · exact ⟨record.launchNonce, rfl⟩
    · exact ⟨record.requestDigest, rfl⟩
    · exact ⟨record.processHostIdentity, rfl⟩
    · exact ⟨record.launchRuntimeInstanceId, rfl⟩
  unfold checkLaunch
  rw [hversion]
  refine forM_ok fun name hmem => ?_
  obtain ⟨n, hn⟩ := hname name hmem
  rw [hfield, hn, show (Value.str n.text : Value F.Val).sorted = .str n.text from rfl, identity_ok n.visible n.short]
  rfl

theorem checkDriver_ok (h : profile.Current executable disk hexdigest) :
    checkDriver N disk hexdigest (ordered (driverPart profile executable)) = .ok () := by
  have hfield := field_ordered (@driverPart_keys _ _ profile executable)
  have hmapping : profileMapping (ordered (driverPart profile executable)) = profileEntries profile executable := by
    simp only [profileMapping, profileFields, List.map_cons, List.map_nil, hfield]
    rfl
  obtain ⟨file, hfile, hregular, hexecutable⟩ := Disk.review_some h.read.2
  have hfingerprint : isText (field (ordered (driverPart profile executable)) "profile_fingerprint")
      profile.profileFingerprint = true := by
    rw [hfield]
    exact decide_eq_true rfl
  have hsha : isText (field (ordered (driverPart profile executable)) "executable_sha256")
    executable.sha256 = true := by
    rw [hfield]
    exact decide_eq_true rfl
  unfold checkDriver
  rw [hmapping, h.unchanged]
  simp only [bind, Except.bind, h.native, hfingerprint, hsha, hfile, hregular, hexecutable]
  rfl

theorem checkTimeout_ok : checkTimeout N (field (ordered (driverPart profile executable)) "max_execution_seconds")
    (field (ordered (requestPart profile request)) "timeout_seconds") = .ok () := by
  have hbounded := profile.seconds_bounded
  have hone : N.atLeast 1 profile.maxExecutionSeconds = true := by
    simp only [Numbers.bounded, Bool.and_eq_true] at hbounded
    exact hbounded.1
  rw [field_ordered driverPart_keys, field_ordered requestPart_keys]
  show checkTimeout N (.float profile.maxExecutionSeconds) (.float profile.maxExecutionSeconds) = .ok ()
  simp only [checkTimeout, seconds, hbounded, N.above_zero _ hone, N.le_self _ hone, Bool.and_self, if_true]

/-- What the child asks of a request beyond what the daemon has checked. -/
structure Fit (request : LaunchSpec F π) : Prop where
  prompt : ∀ p, field request.job "prompt" = .str p → strip p ≠ []
  schema : jobType request.job = lit "inference.structured" → ∃ entries, field request.job "schema" = .dict entries

theorem checkPrompt_iff {p : Text} (hplain : Plain p) (hsize : textSize p ≤ maxPromptBytes) :
    checkPrompt (.str p : Value F.Val) = .ok () ↔ strip p ≠ [] := by
  have hlength := length_le_textSize p
  obtain ⟨bytes, hbytes⟩ := Option.isSome_iff_exists.mp (utf8Encode_isSome.mpr hplain)
  have hshort : ¬ maxPromptBytes < bytes.length := by
    rw [utf8Encode_length hbytes]
    omega
  unfold checkPrompt
  by_cases hblank : strip p = []
  · refine iff_of_false (fun h => ?_) (not_not.mpr hblank)
    rw [identity, if_pos (Or.inl hblank)] at h
    cases h
  · refine iff_of_true ?_ hblank
    rw [identity_ok hblank (by omega)]
    simp only [bind, Except.bind, hbytes, hshort, if_false]

theorem checkSchema_iff (structured : Bool) (job : Entries F)
    (h : structured = decide (jobType job = lit "inference.structured")) :
    checkSchema structured (schemaOf job).sorted = .ok () ↔
      (jobType job = lit "inference.structured" → ∃ entries, field job "schema" = .dict entries) := by
  by_cases hstructured : jobType job = lit "inference.structured"
  · rw [h, schemaOf, if_pos hstructured, decide_eq_true hstructured]
    cases hschema : field job "schema" with
    | dict entries => exact iff_of_true rfl fun _ => ⟨entries, rfl⟩
    | _ =>
      refine iff_of_false (fun h => (by cases h)) fun h => ?_
      obtain ⟨entries, heq⟩ := h hstructured
      cases heq
  · rw [h, schemaOf, if_neg hstructured, decide_eq_false hstructured]
    exact iff_of_true rfl fun h => absurd h hstructured

theorem role_identity {r : Text} (h : r ∈ roles.map lit) : strip r ≠ [] ∧ r.length ≤ 64 := by
  revert r
  decide

/-- The child accepts a request that the daemon has accepted exactly when it is fit. -/
theorem checkRequest_iff (haccepted : Accepted request) :
    checkRequest (ordered (requestPart profile request)) = .ok () ↔ Fit request := by
  have hfield := field_ordered (@requestPart_keys _ _ _ profile request)
  obtain ⟨t, htype, hknown⟩ := haccepted.jobType
  obtain ⟨r, hrole, hallowed⟩ := haccepted.role
  obtain ⟨p, hprompt, hsize⟩ := haccepted.prompt
  have hplain : Plain p := Value.encodable_str.mp (hprompt ▸ field_encodable haccepted.encodable.job "prompt")
  have hjobType : jobType request.job = t := by rw [jobType, htype]
  have hrun : field (ordered (requestPart profile request)) "run_id" = .str request.runId := hfield "run_id"
  have htask : checkTask (field (ordered (requestPart profile request)) "task_id") = .ok () := by
    rw [hfield, show field (requestPart profile request) "task_id" = taskValue request.taskId from rfl]
    cases hid : request.taskId with
    | none => rfl
    | some id =>
      obtain ⟨hvisible, hshort⟩ := haccepted.taskId id hid
      show (identity (.str id) "request.task_id" 256).map _ = .ok ()
      rw [identity_ok hvisible hshort]
      rfl
  have hchecked : checkJobType (field (ordered (requestPart profile request)) "job_type") =
      .ok (decide (jobType request.job = lit "inference.structured")) := by
    rw [hfield, show (field (requestPart profile request) "job_type").sorted = .str (jobType request.job) from rfl,
      checkJobType, hjobType, if_pos hknown]
  have hrole' : field (ordered (requestPart profile request)) "role" = .str r := by
    rw [hfield, show field (requestPart profile request) "role" = field request.job "role" from rfl, hrole]
    rfl
  have hprompt' : field (ordered (requestPart profile request)) "prompt" = .str p := by
    rw [hfield, show field (requestPart profile request) "prompt" = field request.job "prompt" from rfl, hprompt]
    rfl
  have hschema : field (ordered (requestPart profile request)) "schema" = (schemaOf request.job).sorted :=
    hfield "schema"
  have hallowed := role_identity hallowed
  have hfit : Fit request ↔ checkPrompt (.str p : Value F.Val) = .ok () ∧
      checkSchema (decide (jobType request.job = lit "inference.structured"))
        (schemaOf request.job).sorted = .ok () := by
    rw [checkPrompt_iff hplain hsize, checkSchema_iff _ _ rfl]
    refine ⟨fun h => ⟨h.prompt p hprompt, h.schema⟩, fun h => ⟨fun q hq => ?_, h.2⟩⟩
    cases hprompt.symm.trans hq
    exact h.1
  rw [hfit, checkRequest, hrun, identity_ok haccepted.runId.1 haccepted.runId.2, htask, hchecked, hprompt', hrole',
    identity_ok hallowed.1 hallowed.2, hschema]
  cases checkPrompt (.str p : Value F.Val) with
  | error => exact iff_of_false (fun h => (by cases h)) fun h => (by cases h.1)
  | ok => exact ⟨fun h => ⟨rfl, h⟩, fun h => h.2⟩

/-- The three parts are read back as they were written, but for the order of their entries. -/
theorem readSpec_written (hcurrent : profile.Current executable disk hexdigest) (haccepted : Accepted request)
    {text : Text} {bytes : List Byte} (htext : wideText F (specDocument record profile executable request) = some text)
    (hbytes : utf8Encode text = some bytes) (hfits : bytes.length ≤ maxSpecBytes) :
    readSpec N disk hexdigest bytes = (checkRequest (ordered (requestPart profile request))).map fun _ =>
      (ordered (launchPart record), ordered (driverPart profile executable),
        ordered (requestPart profile request)) := by
  have hsized : (specDocument record profile executable request).Sized := specDocument_sized hcurrent haccepted
  have hhook : ∀ pairs : List (Text × Value F.Val), (pairs.map Prod.fst).Nodup →
      (Except.ok (objectOf pairs) : Except Empty (Value F.Val)) = .ok (.dict pairs) := fun pairs hpairs =>
    congrArg Except.ok (objectOf_nodup hpairs)
  have hlength := (utf8Encode_length hbytes).trans (wideText_size hsized.tree htext)
  rw [jsonSize_specDocument, specOverhead] at hlength
  have hne : ¬ (bytes = [] ∨ maxSpecBytes < bytes.length) := by
    rintro (rfl | hlong)
    · rw [List.length_nil] at hlength
      omega
    · omega
  have hobject : ∀ {entries : Entries F} {fields : List String} (name : String), hasFields entries fields = true →
      object (.dict (ordered entries)) fields name = .ok (ordered entries) := by
    intro entries fields name h
    rw [object, hasFields_ordered, h]
    rfl
  have hroot : readRoot bytes = .ok (ordered (specEntries record profile executable request)) := by
    rw [readRoot, if_neg hne, utf8Strict_of_encode hbytes]
    dsimp only
    rw [loadsText_wideText hhook hsized.tree htext]
    exact hobject "execution spec" rfl
  have hfield := field_ordered (@specEntries_keys _ _ _ record profile executable request)
  have hversion : isText (field (ordered (specEntries record profile executable request)) "schema_version")
      (lit specSchema) = true := by
    rw [hfield]
    exact show decide (lit specSchema = lit specSchema) = true from decide_eq_true rfl
  have hlaunch : object (field (ordered (specEntries record profile executable request)) "launch") launchFields
      "launch identity" = .ok (ordered (launchPart record)) := by
    rw [hfield]
    exact hobject "launch identity" rfl
  have hdriver : object (field (ordered (specEntries record profile executable request)) "driver") driverFields
      "driver profile" = .ok (ordered (driverPart profile executable)) := by
    rw [hfield]
    exact hobject "driver profile" rfl
  have hrequest : object (field (ordered (specEntries record profile executable request)) "request") requestFields
      "worker request" = .ok (ordered (requestPart profile request)) := by
    rw [hfield]
    exact hobject "worker request" rfl
  unfold readSpec
  simp only [bind, Except.bind, hroot, hversion, hlaunch, hdriver, hrequest, checkLaunch_ok, checkDriver_ok hcurrent,
    checkTimeout_ok, Bool.not_true, Bool.false_eq_true, if_false]
  cases checkRequest (ordered (requestPart profile request)) <;> rfl

end Reading

/-! ## Both ends -/

section Both

variable {F : JsonFloats} {N : Numbers F} {disk : Disk} {hexdigest : List Byte → Text} {executable : Executable}

/-- The daemon has accepted a body, in either protocol. -/
inductive Admitted {π : Type} (host : Host F π) (raw : List Byte) : LaunchSpec F π → Prop where
  | launch {key digest : Text} {request : LaunchSpec F π}
      (h : postLaunch host raw = .ok (.accepted key digest request)) : Admitted host raw request
  | job {uuid : Uuid} {digest : Text} {request : LaunchSpec F π} (huuid : uuid.text.length = 36)
      (h : postJob host uuid raw = .ok (digest, request)) : Admitted host raw request

theorem Admitted.accepted {π : Type} {host : Host F π} {raw : List Byte} {request : LaunchSpec F π}
    (h : Admitted host raw request) : Accepted request := by
  cases h with
  | launch h => exact postLaunch_accepted h
  | job huuid h => exact (postJob_accepted huuid h).1

/-- The child takes what the daemon writes for the request: the same prompt, role and schema. -/
def Served (disk : Disk) (hexdigest : List Byte → Text) (record : Claimed) (executable : Executable)
    (request : LaunchSpec F (DriverProfile N)) : Prop :=
  ∃ bytes launch driver child, nativeSpec record request.profile executable request = .ok bytes ∧
    bytes.length ≤ maxSpecBytes ∧ readSpec N disk hexdigest bytes = .ok (launch, driver, child) ∧
    field child "prompt" = field request.job "prompt" ∧ field child "role" = field request.job "role" ∧
    (field child "schema").Same (schemaOf request.job)

def specSize (record : Claimed) (executable : Executable) (request : LaunchSpec F (DriverProfile N)) : Nat :=
  record.size + request.profile.size executable + request.size + specOverhead

theorem Served.fit {record : Claimed} {request : LaunchSpec F (DriverProfile N)}
    (hcurrent : request.profile.Current executable disk hexdigest) (haccepted : Accepted request)
    (h : Served disk hexdigest record executable request) :
    Fit request ∧ specSize record executable request ≤ maxSpecBytes := by
  obtain ⟨bytes, launch, driver, child, hwritten, hfits, hread, -⟩ := h
  obtain ⟨text, encoded, htext, hencoded, hlength, hspec⟩ := nativeSpec_written record hcurrent haccepted
  rw [hspec] at hwritten
  split at hwritten
  · cases hwritten
  cases hwritten
  rw [jsonSize_specDocument] at hlength
  refine ⟨?_, (Nat.le_of_eq hlength.symm).trans hfits⟩
  rw [readSpec_written hcurrent haccepted htext hencoded hfits] at hread
  refine (@checkRequest_iff _ _ _ request.profile request haccepted).mp ?_
  cases hchecked : checkRequest (ordered (requestPart request.profile request)) with
  | error =>
    rw [hchecked] at hread
    cases hread
  | ok => rfl

/-- **What the daemon has accepted, the child accepts** exactly when the prompt is not blank, the schema of a structured
job is an object, and the bytes of the identities, the profile and the request leave the specification short enough. -/
theorem served_iff {host : Host F (DriverProfile N)} {raw : List Byte} (record : Claimed)
    {request : LaunchSpec F (DriverProfile N)} (hadmitted : Admitted host raw request)
    (hcurrent : request.profile.Current executable disk hexdigest) :
    Served disk hexdigest record executable request ↔
      Fit request ∧ specSize record executable request ≤ maxSpecBytes := by
  have haccepted := hadmitted.accepted
  refine ⟨fun h => h.fit hcurrent haccepted, fun ⟨hfit, hsize⟩ => ?_⟩
  obtain ⟨text, bytes, htext, hbytes, hlength, hspec⟩ := nativeSpec_written record hcurrent haccepted
  rw [jsonSize_specDocument] at hlength
  have hfits : bytes.length ≤ maxSpecBytes := hlength ▸ hsize
  have hread := readSpec_written hcurrent haccepted htext hbytes hfits
  rw [(checkRequest_iff haccepted).mpr hfit] at hread
  have hfield := field_ordered (@requestPart_keys _ _ _ request.profile request)
  obtain ⟨r, hrole, -⟩ := haccepted.role
  obtain ⟨p, hprompt, -⟩ := haccepted.prompt
  refine ⟨bytes, _, _, _, hspec.trans (if_neg (Nat.not_lt.mpr hfits)), hfits, hread, ?_, ?_, ?_⟩
  · rw [hfield, show field (requestPart request.profile request) "prompt" =
      field request.job "prompt" from rfl, hprompt]
    rfl
  · rw [hfield, show field (requestPart request.profile request) "role" = field request.job "role" from rfl, hrole]
    rfl
  · rw [hfield]
    exact Value.Same.sorted (schemaOf request.job)

end Both

/-! ## A blank prompt -/

/-- Floating-point numbers of which only 60.0 and NaN occur. -/
def minuteFloats : JsonFloats where
  Val := Option Unit
  isFinite x := x.isSome
  repr _ := lit "60.0"
  parse _ := some ()
  nan := none
  infinity := none
  negInfinity := none
  repr_literal x _ := by
    have hdigits : ∀ t : Text, t ≠ [] → t.all isDigit = true → Digits t := fun t hne h => ⟨hne, List.all_eq_true.mp h⟩
    have hint : Digits (lit "60") ∧ (lit "60").head? ≠ some (ch '0') := ⟨hdigits _ (by decide) rfl, by decide⟩
    have hfrac : Digits (lit "0") := hdigits _ (by decide) rfl
    exact ⟨⟨[], lit "60", lit ".0", []⟩, ⟨Or.inl rfl, Or.inr hint, Or.inr ⟨lit "0", rfl, hfrac⟩, Or.inl rfl⟩, rfl, rfl⟩
  parse_repr x hx := by
    cases x with
    | none => cases hx
    | some u => rfl
  word _ := lit "NaN"
  word_cases x hx := by
    cases x with
    | none => exact Or.inl ⟨rfl, rfl⟩
    | some u => cases hx

/-- Comparisons with 60.0. -/
def minuteNumbers : Numbers minuteFloats where
  equalsInt x n := x.isSome && n = 60
  ofInt n := if n = 60 then some (some ()) else none
  atLeast n x := x.isSome && decide (n ≤ 60)
  above n x := x.isSome && decide (n < 60)
  atMost x n := x.isSome && decide (60 ≤ n)
  le x y := x.isSome && y.isSome
  defaultSeconds := none
  above_zero x hx := by
    cases x with
    | none => cases hx
    | some u => rfl
  le_self x hx := by
    cases x with
    | none => cases hx
    | some u => rfl

/-- The digits of a digest. -/
def zeros : Text := List.replicate 64 (ch '0')

def reviewedExecutable : Executable := ⟨lit "/c", zeros, 1, 1, 0, 0o755⟩

def reviewedDisk : Disk where
  resolve path := if path = lit "/c" then some ⟨lit "/c", some zeros, 1, 1, 0, 0o755, true, true⟩ else none
  posix := true
  euid := 0

/-- A profile of that executable. -/
def reviewedProfile : DriverProfile minuteNumbers where
  driverId := lit "d"
  driverType := .claude
  profileRevision := 1
  profileFingerprint := lit "sha256:" ++ zeros
  executable := some reviewedExecutable
  maxExecutionSeconds := some ()
  driverId_safe := by decide
  revision_pos := by decide
  fingerprint_sha := by decide +kernel
  seconds_bounded := by decide

theorem reviewedProfile_current : reviewedProfile.Current reviewedExecutable reviewedDisk fun _ => zeros where
  native := rfl
  unchanged := by
    have hmaterial : ((wideText minuteFloats (profileMaterial reviewedProfile.driverId reviewedProfile.driverType
        reviewedProfile.profileRevision (some reviewedExecutable) reviewedProfile.maxExecutionSeconds)).bind
        utf8Encode).isSome = true := by decide +kernel
    obtain ⟨bytes, hbytes⟩ := Option.isSome_iff_exists.mp hmaterial
    have hreview : reviewed reviewedDisk reviewedProfile.driverType
        (.str reviewedExecutable.path : Value minuteFloats.Val) = some (some reviewedExecutable) := by decide +kernel
    have hprint : fingerprint (fun _ => zeros) (profileMaterial (F := minuteFloats) reviewedProfile.driverId
        reviewedProfile.driverType reviewedProfile.profileRevision (some reviewedExecutable)
        reviewedProfile.maxExecutionSeconds) = some reviewedProfile.profileFingerprint := by
      rw [fingerprint, hbytes]
      rfl
    rw [fromMapping_entries, hreview]
    dsimp only
    rw [hprint]
    dsimp only
    rw [dif_pos reviewedProfile.fingerprint_sha]
    rfl

/-- A daemon with that profile. -/
def reviewedHost : Host minuteFloats (DriverProfile minuteNumbers) where
  recursionLimit := 1000
  equalsInt x n := minuteNumbers.equalsInt x n
  hexdigest _ := zeros
  authorityId := lit "a"
  registryId := lit "r"
  available := true
  find _ := some reviewedProfile
  default := reviewedProfile
  supportsExecution _ := true

def sampleName : Name := ⟨lit "n", by decide, by decide, plain_of_ascii rfl⟩

def uuidZero : Uuid := ⟨lit "00000000-0000-4000-8000-000000000000", plain_of_ascii rfl⟩

def blankBody : List Byte := bytesOf "\x7b\"job_type\":\"inference.chat\",\"role\":\"RAG\",\"prompt\":\" \"\x7d"

def promptOf {F : JsonFloats} {π : Type} (request : LaunchSpec F π) : Text :=
  match field request.job "prompt" with
  | .str s => s
  | _ => []

theorem blank_accepted : (postJob reviewedHost uuidZero blankBody).toOption.map (fun p => promptOf p.2) =
    some (lit " ") := by decide +kernel

/-- Identities of a launch. -/
def sampleRecord : Claimed where
  jobId := sampleName
  idempotencyKey := sampleName
  launchNonce := sampleName
  requestDigest := sampleName
  processHostIdentity := sampleName
  launchRuntimeInstanceId := sampleName

/-- A prompt of one blank is accepted, and the child refuses it. -/
theorem blank_prompt_refused : ∃ request, Admitted reviewedHost blankBody request ∧
    request.profile.Current reviewedExecutable reviewedDisk (fun _ => zeros) ∧
    ¬ Served reviewedDisk (fun _ => zeros) sampleRecord reviewedExecutable request := by
  cases hpost : postJob reviewedHost uuidZero blankBody with
  | error stop =>
    have hblank := blank_accepted
    rw [hpost] at hblank
    cases hblank
  | ok p =>
    obtain ⟨digest, request⟩ := p
    obtain ⟨haccepted, hprofile⟩ := postJob_accepted rfl hpost
    have hcurrent : request.profile.Current reviewedExecutable reviewedDisk fun _ => zeros :=
      hprofile ▸ reviewedProfile_current
    refine ⟨request, .job rfl hpost, hcurrent, fun hserved => ?_⟩
    obtain ⟨p, hprompt, -⟩ := haccepted.prompt
    have hblank := blank_accepted
    rw [hpost] at hblank
    simp only [Except.toOption, Option.map_some, promptOf, hprompt] at hblank
    obtain rfl := Option.some.inj hblank
    exact (hserved.fit hcurrent haccepted).1.prompt _ hprompt (by decide)

/-- A job whose prompt is one letter. -/
def visibleBody : List Byte := bytesOf "\x7b\"job_type\":\"inference.chat\",\"role\":\"RAG\",\"prompt\":\"p\"\x7d"

theorem visible_accepted : ((postJob reviewedHost uuidZero visibleBody).toOption.map fun p =>
    decide (promptOf p.2 = lit "p") && decide (jobType p.2.job = lit "inference.chat") &&
      decide (specSize sampleRecord reviewedExecutable p.2 ≤ maxSpecBytes)) = some true := by decide +kernel

/-- A prompt of one letter. -/
theorem served_iff_visible : ∃ request, Admitted reviewedHost visibleBody request ∧
    Served reviewedDisk (fun _ => zeros) sampleRecord reviewedExecutable request := by
  cases hpost : postJob reviewedHost uuidZero visibleBody with
  | error stop =>
    have hvisible := visible_accepted
    rw [hpost] at hvisible
    cases hvisible
  | ok p =>
    obtain ⟨digest, request⟩ := p
    have hcurrent : request.profile.Current reviewedExecutable reviewedDisk fun _ => zeros :=
      (postJob_accepted rfl hpost).2 ▸ reviewedProfile_current
    have hvisible := visible_accepted
    rw [hpost] at hvisible
    simp only [Except.toOption, Option.map_some, Option.some.injEq, Bool.and_eq_true, decide_eq_true_eq] at hvisible
    obtain ⟨⟨hprompt, htype⟩, hsize⟩ := hvisible
    have hadmitted : Admitted reviewedHost visibleBody request := .job rfl hpost
    refine ⟨request, hadmitted, (served_iff sampleRecord hadmitted hcurrent).mpr ⟨⟨fun p hp => ?_, fun h => ?_⟩, hsize⟩⟩
    · rw [promptOf, hp] at hprompt
      obtain rfl : p = lit "p" := hprompt
      decide
    · exact absurd (htype.symm.trans h) (by decide)

end Wire

end AgentFabric.LocalWorker
