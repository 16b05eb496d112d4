import AgentFabric.Lib.JsonStrict
import AgentFabric.LocalWorker.Server

/-!
# Reading the body of a launch

From the bytes of `POST /v2/launches` and `POST /v1/jobs` to a request that passed its checks: `_json_body`,
`request_digest`, `parse_launch` and the checks of `create_job_v1`, with the exceptions that their steps raise.
-/

namespace AgentFabric.LocalWorker.Wire

open AgentFabric.Lib

/-- The exceptions that nothing in the handlers catches. -/
inductive PyError where
  | recursionError
  | unicodeEncodeError
  | valueError
  | typeError
deriving DecidableEq

/-- How a step ends a handler. -/
inductive Stop where
  | response (status : Nat) (code : String)
  | raised (error : PyError)
deriving DecidableEq

/-- A step ends with a result, with a response, or with an exception. -/
abbrev Stage (α : Type) := Except Stop α

def answer {α : Type} (status : Nat) (code : String) : Stage α := .error (.response status code)

def raise {α : Type} (error : PyError) : Stage α := .error (.raised error)

/-- What the checks read: the depth that the JSON reader can follow, the comparison of numbers, the hash function, the
identities of the registry and the catalog of profiles. -/
structure Host (F : JsonFloats) (π : Type) where
  recursionLimit : Nat
  equalsInt : F.Val → Int → Bool
  hexdigest : List Byte → Text
  authorityId : Text
  registryId : Text
  available : Bool
  find : Text → Option π
  default : π
  supportsExecution : π → Bool

/-- The entries of an object. -/
abbrev Entries (F : JsonFloats) := List (Text × Value F.Val)

section

variable {F : JsonFloats} {π : Type}

/-- `mapping.get(name)`. -/
def field (entries : Entries F) (name : String) : Value F.Val := (entries.lookup (lit name)).getD .none

/-- `set(mapping) == fields`. -/
def hasFields (entries : Entries F) (fields : List String) : Bool :=
  entries.all (fun e => decide (e.1 ∈ fields.map lit)) && fields.all fun name =>
    (entries.map Prod.fst).contains (lit name)

/-- `value == text`. -/
def isText (value : Value F.Val) (text : Text) : Bool :=
  match value with
  | .str s => s = text
  | _ => false

/-- `value == number`; a truth value is a number too. -/
def isInt (host : Host F π) (value : Value F.Val) (number : Int) : Bool :=
  match value with
  | .int n => n = number
  | .bool b => (if b then 1 else 0) = number
  | .float x => host.equalsInt x number
  | _ => false

/-- `value in names`; an array and an object have no hash. -/
def isMember (value : Value F.Val) (names : List String) : Stage Bool :=
  match value with
  | .list _ | .dict _ => raise .typeError
  | .str s => .ok (decide (s ∈ names.map lit))
  | _ => .ok false

/-- `^[A-Za-z0-9][A-Za-z0-9._:-]{0,limit}$`. -/
def identifier (limit : Nat) : Text → Bool
  | [] => false
  | c :: t => alnum c && decide (t.length ≤ limit) && t.all fun c => alnum c || decide (c ∈ lit "._:-")
where
  alnum (c : CodePoint) : Bool :=
    isDigit c || decide (0x41 ≤ c.val ∧ c.val ≤ 0x5A) || decide (0x61 ≤ c.val ∧ c.val ≤ 0x7A)

/-- `len(text.encode("utf-8"))`. -/
def utf8Length (text : Text) : Stage Nat :=
  match utf8Encode text with
  | some bytes => .ok bytes.length
  | none => raise .unicodeEncodeError

/-! ## The body -/

def maxRequestBytes : Nat := 256 * 1024

def maxJsonDepth : Nat := 32

def maxJsonNodes : Nat := 20000

/-- A node is refused when none remains or when it lies too deep. -/
def spent (depth remaining : Nat) : Bool := remaining = 0 || maxJsonDepth < depth

mutual

/-- `visit` of `_strict_json_tree`: the nodes that remain, or nothing for a tree that is refused. -/
def visit : Value F.Val → Nat → Nat → Option Nat
  | .list items, depth, remaining =>
      if spent depth remaining then none else visitItems items (depth + 1) (remaining - 1)
  | .dict entries, depth, remaining =>
    if spent depth remaining then none else visitEntries entries (depth + 1) (remaining - 1)
  | .float x, depth, remaining => if spent depth remaining || !F.isFinite x then none else some (remaining - 1)
  | .foreign _ _, _, _ => none
  | _, depth, remaining => if spent depth remaining then none else some (remaining - 1)

def visitItems : List (Value F.Val) → Nat → Nat → Option Nat
  | [], _, remaining => some remaining
  | v :: items, depth, remaining => (visit v depth remaining).bind (visitItems items depth)

def visitEntries : List (Text × Value F.Val) → Nat → Nat → Option Nat
  | [], _, remaining => some remaining
  | (_, v) :: entries, depth, remaining => (visit v depth remaining).bind (visitEntries entries depth)

end

def strictJsonTree (value : Value F.Val) : Bool := (visit value 0 maxJsonNodes).isSome

def jsonBody (host : Host F π) (raw : List Byte) : Stage (Entries F) :=
  if maxRequestBytes < raw.length ∨ raw = [] then answer 413 "LAUNCH_REQUEST_TOO_LARGE"
  else match utf8Strict raw with
  | none => answer 400 "INVALID_JSON"
  | some text =>
    match strictLoads F.toFloatFormat host.recursionLimit text with
    -- neither a `UnicodeError` nor a `ValueError`
    | .error (.hook .depth) => raise .recursionError
    | .error _ => answer 400 "INVALID_JSON"
    | .ok (.dict entries) =>
      if strictJsonTree (F := F) (.dict entries) then .ok entries else answer 400 "INVALID_LAUNCH_REQUEST"
    | .ok _ => answer 400 "INVALID_LAUNCH_REQUEST"

/-! ## The digest -/

def taskValue (taskId : Option Text) : Value F.Val :=
  match taskId with
  | some t => .str t
  | none => .none

def canonicalRequestDocument (runId : Text) (taskId : Option Text) (job : Entries F) : Value F.Val :=
  .dict [(lit "protocol_version", .int protocolVersion),
    (lit "execution", .dict [(lit "run_id", .str runId), (lit "task_id", taskValue taskId)]),
    (lit "job", .dict job)]

/-- `json.dumps` of the document, encoded. -/
def encodedDocument (document : Value F.Val) : Stage (List Byte) :=
  match wideText F document with
  | none => raise .valueError
  | some text =>
    match utf8Encode text with
    | none => raise .unicodeEncodeError
    | some bytes => .ok bytes

def requestDigest (host : Host F π) (runId : Text) (taskId : Option Text) (job : Entries F) : Stage Text := do
  let encoded ← encodedDocument (canonicalRequestDocument runId taskId job)
  return lit "sha256:" ++ host.hexdigest encoded

/-! ## The launch -/

/-- The part of a launch that is checked before its digest is computed. -/
structure Header (F : JsonFloats) where
  key : Text
  execution : Entries F
  runId : Text
  taskId : Option Text
  job : Entries F

/-- A text that is not blank and at most 256 characters long. -/
def boundedText (value : Value F.Val) : Option Text :=
  match value with
  | .str s => if strip s = [] ∨ 256 < s.length then none else some s
  | _ => none

def launchHeader (host : Host F π) (body : Entries F) : Stage (Header F) :=
  match field body "idempotency_key" with
  | .str key =>
    if !identifier 255 key then answer 400 "INVALID_IDEMPOTENCY_KEY"
    else if !isInt host (field body "protocol_version") protocolVersion then answer 400 "UNSUPPORTED_PROTOCOL"
    else if !host.available then answer 503 "REGISTRY_UNAVAILABLE"
    else if !isText (field body "authority_id") host.authorityId || !isText
      (field body "registry_id") host.registryId then
      answer 409 "LAUNCH_AUTHORITY_MISMATCH"
    else match field body "execution", field body "job" with
    | .dict execution, .dict job =>
      match boundedText (field execution "run_id"), field execution "task_id" with
      | none, _ => answer 400 "INVALID_LAUNCH_REQUEST"
      | some runId, .none => .ok ⟨key, execution, runId, none, job⟩
      | some runId, task =>
        match boundedText task with
        | none => answer 400 "INVALID_LAUNCH_REQUEST"
        | some taskId => .ok ⟨key, execution, runId, some taskId, job⟩
    | _, _ => answer 400 "INVALID_LAUNCH_REQUEST"
  | _ => answer 400 "INVALID_IDEMPOTENCY_KEY"

def selectedProfile (host : Host F π) (job : Entries F) : Option π :=
  match field job "driver_id" with
  | .str driverId => if identifier 127 driverId then host.find driverId else none
  | _ => none

def jobTypes : List String := ["inference.chat", "inference.structured"]

def roles : List String := ["FAST_ROUTER", "GENERAL_REASONING", "RAG", "UNCENSORED_REVIEWER"]

/-- The fields of a job, with a schema if it is structured. -/
def expectedFields (job : Entries F) (base : List String) : List String :=
  if isText (field job "job_type") (lit "inference.structured") then base ++ ["schema"] else base

/-- The checks before the job itself: the reason of the rejection, or the profile. -/
def admission (host : Host F π) (body : Entries F) (header : Header F) (computed : Text) : Except String π :=
  if !hasFields body topFields then .error "UNSUPPORTED_REQUEST_FIELDS"
  else if !hasFields header.execution executionFields then .error "UNSUPPORTED_EXECUTION_FIELDS"
  else if !hasFields header.job (expectedFields header.job ["driver_id", "job_type", "role", "prompt"]) then
    .error "UNSUPPORTED_JOB_FIELDS"
  else if !isText (field body "request_digest") computed then .error "REQUEST_DIGEST_MISMATCH"
  else match selectedProfile host header.job with
  | none => .error "DRIVER_NOT_REGISTERED"
  | some profile => if host.supportsExecution profile then .ok profile else .error "DRIVER_UNAVAILABLE"

/-- The checks of the job of a launch. -/
def jobReason (job : Entries F) : Stage (Option String) := do
  if !(← isMember (field job "job_type") jobTypes) then return some "UNSUPPORTED_JOB_TYPE"
  if !(← isMember (field job "role") roles) then return some "UNSUPPORTED_WORKER_ROLE"
  match field job "prompt" with
  | .str [] => return some "INVALID_PROMPT"
  | .str prompt =>
    if maxPromptBytes < (← utf8Length prompt) then return some "PROMPT_TOO_LARGE"
    if !isText (field job "job_type") (lit "inference.structured") then return none
    match field job "schema" with
    | .dict _ => return none
    | _ => return some "INVALID_RESPONSE_SCHEMA"
  | _ => return some "INVALID_PROMPT"

/-- A request that passed its checks. -/
structure LaunchSpec (F : JsonFloats) (π : Type) where
  runId : Text
  taskId : Option Text
  job : Entries F
  profile : π

/-- A launch goes on to be rejected for the record, or to be reserved. -/
inductive Parsed (F : JsonFloats) (π : Type) where
  | rejected (key digest : Text) (reason : String) (profile : Option π)
  | accepted (key digest : Text) (spec : LaunchSpec F π)

def parseLaunch (host : Host F π) (body : Entries F) : Stage (Parsed F π) := do
  let header ← launchHeader host body
  let computed ← requestDigest host header.runId header.taskId header.job
  match admission host body header computed with
  | .error reason => return .rejected header.key computed reason (selectedProfile host header.job)
  | .ok profile =>
    match ← jobReason header.job with
    | some reason => return .rejected header.key computed reason (some profile)
    | none => return .accepted header.key computed ⟨header.runId, header.taskId, header.job, profile⟩

/-- The identity that a job of the first protocol draws. -/
structure Uuid where
  text : Text
  plain : Plain text

/-- The checks of `create_job_v1`, up to its digest. -/
def parseJobV1 (host : Host F π) (identity : Uuid) (body : Entries F) : Stage (Text × LaunchSpec F π) := do
  if !hasFields body (expectedFields body ["job_type", "role", "prompt"]) then answer 422 "PRE_LAUNCH_REJECTED"
  else if !(← isMember (field body "job_type") jobTypes) then answer 422 "PRE_LAUNCH_REJECTED"
  else if !(← isMember (field body "role") roles) then answer 422 "PRE_LAUNCH_REJECTED"
  else match field body "prompt" with
  | .str [] => answer 422 "PRE_LAUNCH_REJECTED"
  | .str prompt =>
    if maxPromptBytes < (← utf8Length prompt) then answer 422 "PRE_LAUNCH_REJECTED"
    else if !host.supportsExecution host.default then answer 422 "PRE_LAUNCH_REJECTED"
    else
      let runId := lit "v1-run-" ++ identity.text
      let digest ← requestDigest host runId none body
      return (digest, ⟨runId, none, body, host.default⟩)
  | _ => answer 422 "PRE_LAUNCH_REJECTED"

/-- `POST /v2/launches`, until the request is accepted or its rejection is recorded. -/
def postLaunch (host : Host F π) (raw : List Byte) : Stage (Parsed F π) := do parseLaunch host (← jsonBody host raw)

/-- `POST /v1/jobs`, until the request is accepted. -/
def postJob (host : Host F π) (identity : Uuid) (raw : List Byte) : Stage (Text × LaunchSpec F π) := do
  parseJobV1 host identity (← jsonBody host raw)

/-! ## Exceptions -/

/-- The step ends with an exception. -/
def Raises {α : Type} (stage : Stage α) : Prop := ∃ error, stage = .error (.raised error)

theorem raises_raise {α : Type} (error : PyError) : Raises (raise error : Stage α) := ⟨error, rfl⟩

theorem not_raises_ok {α : Type} (a : α) : ¬ Raises (.ok a : Stage α) := by
  rintro ⟨error, h⟩
  cases h

theorem not_raises_answer {α : Type} (status : Nat) (code : String) : ¬ Raises (answer status code : Stage α) := by
  rintro ⟨error, h⟩
  cases h

theorem raises_bind {α β : Type} {stage : Stage α} {f : α → Stage β} :
    Raises (stage >>= f) ↔ Raises stage ∨ ∃ a, stage = .ok a ∧ Raises (f a) := by
  cases stage with
  | error =>
    refine ⟨fun ⟨error, h⟩ => Or.inl ⟨error, ?_⟩, ?_⟩
    · rw [Except.error.inj h]
    · rintro (⟨error, h⟩ | ⟨a, h, -⟩)
      · exact ⟨error, congrArg Except.error (Except.error.inj h)⟩
      · cases h
  | ok a =>
    refine ⟨fun h => Or.inr ⟨a, rfl, h⟩, ?_⟩
    rintro (h | ⟨b, h, hf⟩)
    · exact absurd h (not_raises_ok a)
    · cases h
      exact hf

/-- The body nests its arrays and objects deeper than the reader can follow. -/
def TooDeep (host : Host F π) (raw : List Byte) : Prop :=
  raw.length ≤ maxRequestBytes ∧ raw ≠ [] ∧ ∃ text, utf8Strict raw = some text ∧
    strictLoads F.toFloatFormat host.recursionLimit text = .error (.hook .depth)

variable {host : Host F π}

theorem jsonBody_raises {raw : List Byte} : Raises (jsonBody host raw) ↔ TooDeep host raw := by
  unfold jsonBody TooDeep
  split
  · next h =>
    refine iff_of_false (not_raises_answer _ _) ?_
    rintro ⟨hlen, hne, -⟩
    rcases h with h | h
    · omega
    · exact hne h
  · next h =>
    rw [not_or, Nat.not_lt] at h
    cases hdecoded : utf8Strict raw with
    | none =>
      refine iff_of_false (not_raises_answer _ _) ?_
      rintro ⟨-, -, text, ht, -⟩
      cases ht
    | some text =>
      dsimp only
      have hthis : (∃ t, some text = some t ∧
        strictLoads F.toFloatFormat host.recursionLimit t = .error (.hook .depth)) ↔
          strictLoads F.toFloatFormat host.recursionLimit text = .error (.hook .depth) := by simp
      rw [hthis]
      split
      · next heq => exact iff_of_true (raises_raise _) ⟨h.1, h.2, heq⟩
      · next e hne heq =>
        exact iff_of_false (not_raises_answer _ _) fun h => hne (Except.error.inj (heq.symm.trans h.2.2))
      · next heq =>
        refine iff_of_false ?_ fun h => by cases heq.symm.trans h.2.2
        split
        · exact not_raises_ok _
        · exact not_raises_answer _ _
      · next heq => exact iff_of_false (not_raises_answer _ _) fun h => by cases heq.symm.trans h.2.2

/-! ## What is read of a body -/

variable {body : Entries F}

theorem jsonBody_sized {raw : List Byte} (h : jsonBody host raw = .ok body) :
    (Value.dict body).Sized := by
  unfold jsonBody at h
  split at h
  · cases h
  · split at h
    · cases h
    · split at h
      · cases h
      · cases h
      · next hread =>
        split at h
        · cases h
          exact strictLoads_sized hread
        · cases h
      · cases h

theorem field_cases (entries : Entries F) (name : String) :
    field entries name = .none ∨ (lit name, field entries name) ∈ entries := by
  unfold field
  cases h : entries.lookup (lit name) with
  | none => exact Or.inl rfl
  | some =>
    obtain ⟨before, after, hsplit, -⟩ := List.lookup_eq_some_iff.mp h
    right
    rw [hsplit]
    simp

/-- The entries of an object in the order of their keys, and so in every object among them. -/
abbrev ordered (entries : Entries F) : Entries F := (Value.sortedEntries entries).insertionSort Value.keyLe

variable {entries : Entries F}

theorem mem_keys_ordered {key : Text} :
    key ∈ (ordered entries).map Prod.fst ↔ key ∈ entries.map Prod.fst := by
  rw [((List.perm_insertionSort Value.keyLe (Value.sortedEntries entries)).map Prod.fst).mem_iff,
    Value.sortedEntries_keys]

theorem field_ordered (h : (entries.map Prod.fst).Nodup) (name : String) :
    field (ordered entries) name = (field entries name).sorted := by
  rw [field, Value.lookup_sorted h, field]
  cases entries.lookup (lit name) <;> rfl

theorem hasFields_iff {fields : List String} : hasFields entries fields = true ↔
    (∀ key ∈ entries.map Prod.fst, key ∈ fields.map lit) ∧ ∀ name ∈ fields, lit name ∈ entries.map Prod.fst := by
  simp [hasFields]

theorem hasFields_ordered {fields : List String} :
    hasFields (ordered entries) fields = hasFields entries fields := by
  rw [Bool.eq_iff_iff, hasFields_iff, hasFields_iff]
  simp only [mem_keys_ordered]

theorem field_tree (h : (Value.dict entries).Tree) (name : String) :
    (field entries name).Tree := by
  rcases field_cases entries name with hnone | hmem
  · rw [hnone]
    trivial
  · exact Value.formedEntries_iff.mp h.2 _ hmem

theorem field_sized (h : (Value.dict entries).Sized) (name : String) :
    (field entries name).Sized := by
  rcases field_cases entries name with hnone | hmem
  · rw [hnone]
    exact ⟨trivial, by rintro _ ⟨⟩⟩
  · exact Value.sized_entry h hmem

theorem field_encodable (h : (Value.dict entries).Encodable) (name : String) :
    (field entries name).Encodable := by
  rcases field_cases entries name with hnone | hmem
  · rw [hnone]
    intro s hs
    cases hs
  · intro s hs
    refine h s ?_
    rw [Value.leaves, Value.leavesEntries_eq, List.mem_flatMap]
    exact ⟨_, hmem, List.mem_cons_of_mem _ hs⟩

/-- Everything that a header holds is in its body. -/
structure Header.Of (header : Header F) (body : Entries F) : Prop where
  key : field body "idempotency_key" = .str header.key
  execution : field body "execution" = .dict header.execution
  runId : field header.execution "run_id" = .str header.runId
  taskId : field header.execution "task_id" = taskValue header.taskId
  job : field body "job" = .dict header.job

theorem boundedText_eq_some {value : Value F.Val} {s : Text} (h : boundedText value = some s) : value = .str s := by
  unfold boundedText at h
  split at h
  · split at h
    · cases h
    · cases h
      rfl
  · cases h

theorem launchHeader_of {header : Header F}
    (h : launchHeader host body = .ok header) : header.Of body := by
  unfold launchHeader at h
  split at h
  · next key hkey =>
    split at h
    · cases h
    split at h
    · cases h
    split at h
    · cases h
    split at h
    · cases h
    split at h
    · next execution job hexecution hjob =>
      split at h
      · cases h
      · next runId hrun htask =>
        cases h
        exact ⟨hkey, hexecution, boundedText_eq_some hrun, htask, hjob⟩
      · next runId hrun _ =>
        split at h
        · cases h
        · next taskId htask =>
          cases h
          exact ⟨hkey, hexecution, boundedText_eq_some hrun, boundedText_eq_some htask, hjob⟩
    · cases h
  · cases h

theorem launchHeader_not_raises (host : Host F π) (body : Entries F) : ¬ Raises (launchHeader host body) := by
  unfold launchHeader
  repeat' split
  all_goals first | exact not_raises_ok _ | exact not_raises_answer _ _

/-! ## Digests that can be computed -/

theorem intText_two : intText 2 = some (lit "2") := by
  simp [intText, natText]
  decide

/-- Neither the identities nor the job hold a lone surrogate. -/
structure EncodableRequest (runId : Text) (taskId : Option Text) (job : Entries F) : Prop where
  runId : Plain runId
  taskId : ∀ t, taskId = some t → Plain t
  job : (Value.dict job).Encodable

theorem taskValue_sized (taskId : Option Text) : (taskValue taskId : Value F.Val).Sized := by
  cases taskId with
  | none => exact Value.sized_none
  | some t => exact Value.sized_str t

variable {taskId : Option Text}

theorem taskValue_encodable :
    (taskValue taskId : Value F.Val).Encodable ↔ ∀ t, taskId = some t → Plain t := by
  cases taskId with
  | none => exact iff_of_true (by rintro _ ⟨⟩) (by rintro _ ⟨⟩)
  | some t =>
    refine Value.encodable_str.trans ⟨fun h u hu => ?_, fun h => h t rfl⟩
    cases hu
    exact h

variable {job : Entries F}

theorem document_sized {runId : Text} (h : (Value.dict job).Sized) :
    (canonicalRequestDocument runId taskId job).Sized := by
  have hexecution : (Value.dict [(lit "run_id", .str runId), (lit "task_id", taskValue taskId)] : Value F.Val).Sized :=
    Value.sized_dict (by simp only [List.map_cons, List.map_nil]; decide +kernel)
      (by simp [Value.sized_str, taskValue_sized])
  refine Value.sized_dict (by simp only [List.map_cons, List.map_nil]; decide +kernel) ?_
  exact List.forall_mem_cons.mpr
    ⟨Value.sized_int (Option.isSome_of_mem intText_two), List.forall_mem_cons.mpr ⟨hexecution,
    List.forall_mem_cons.mpr ⟨h, by rintro _ ⟨⟩⟩⟩⟩

theorem document_encodable {runId : Text} :
    (canonicalRequestDocument runId taskId job).Encodable ↔ EncodableRequest runId taskId job := by
  have hname : ∀ {name : String}, asciiText (lit name) = true → Plain (lit name) := plain_of_ascii
  have hnames : Plain (lit "protocol_version") ∧ Plain (lit "execution") ∧ Plain (lit "job") ∧ Plain (lit "run_id") ∧
      Plain (lit "task_id") := ⟨hname rfl, hname rfl, hname rfl, hname rfl, hname rfl⟩
  have hversion : (Value.int protocolVersion : Value F.Val).Encodable := fun s hs => by cases List.mem_singleton.mp hs
  have hexecution : (Value.dict [(lit "run_id", .str runId), (lit "task_id", taskValue taskId)] :
    Value F.Val).Encodable ↔
      Plain runId ∧ ∀ t, taskId = some t → Plain t := by
    rw [Value.encodable_dict]
    simp [Value.encodable_str, taskValue_encodable, hnames]
  rw [canonicalRequestDocument, Value.encodable_dict]
  simp only [List.forall_mem_cons, hnames, hversion, hexecution, true_and]
  exact ⟨fun h => ⟨h.1.1, h.1.2, h.2.1⟩, fun h => ⟨⟨h.runId, h.taskId⟩, h.job, by rintro _ ⟨⟩⟩⟩

theorem requestDigest_raises {runId : Text} (h : (Value.dict job).Sized) :
    Raises (requestDigest host runId taskId job) ↔ ¬ EncodableRequest runId taskId job := by
  have hsized := @document_sized _ taskId _ runId h
  have hencoded := encode_wideText_isSome hsized
  obtain ⟨text, htext⟩ := Option.isSome_iff_exists.mp (wideText_isSome hsized)
  rw [htext, Option.bind_some, document_encodable] at hencoded
  rw [← hencoded]
  unfold requestDigest encodedDocument
  rw [htext]
  dsimp only
  cases utf8Encode text with
  | none => exact iff_of_true (raises_bind.mpr (Or.inl (raises_raise _))) (by simp)
  | some => exact iff_of_false (not_raises_ok _) (by simp)

/-! ## Jobs that can be checked -/

/-- A value that can be looked up in a set. -/
def hashable (value : Value F.Val) : Bool :=
  match value with
  | .list _ | .dict _ => false
  | _ => true

theorem isMember_cases (value : Value F.Val) (names : List String) :
    (hashable value = false ∧ isMember value names = raise .typeError) ∨
      (hashable value = true ∧ ∃ found, isMember value names = .ok found) := by
  cases value with
  | list => exact Or.inl ⟨rfl, rfl⟩
  | dict => exact Or.inl ⟨rfl, rfl⟩
  | _ => exact Or.inr ⟨rfl, _, rfl⟩

theorem utf8Length_raises {text : Text} : Raises (utf8Length text) ↔ ¬ Plain text := by
  rw [← utf8Encode_isSome]
  unfold utf8Length
  cases utf8Encode text with
  | none => exact iff_of_true (raises_raise _) (by simp)
  | some => exact iff_of_false (not_raises_ok _) (by simp)

/-- The type of the job can be looked up, and its role if its type is allowed. -/
structure Enumerable (job : Entries F) : Prop where
  jobType : hashable (field job "job_type") = true
  role : isMember (field job "job_type") jobTypes = .ok true → hashable (field job "role") = true

/-- A launch that is checked without an exception: no surrogate in what is hashed, and where the launch comes to the
checks of its job, a type and a role that can be looked up. -/
def LaunchFit (host : Host F π) (body : Entries F) : Prop :=
  ∀ header, launchHeader host body = .ok header → EncodableRequest header.runId header.taskId header.job ∧
    ∀ computed profile, requestDigest host header.runId header.taskId header.job = .ok computed →
      admission host body header computed = .ok profile → Enumerable header.job

/-- A job of the first protocol that is checked without an exception. -/
def JobFit (host : Host F π) (body : Entries F) : Prop :=
  hasFields body (expectedFields body ["job_type", "role", "prompt"]) = true → Enumerable body ∧
    (isMember (field body "job_type") jobTypes = .ok true → isMember (field body "role") roles = .ok true →
      ∀ prompt, field body "prompt" = .str prompt → prompt ≠ [] → Plain prompt ∧
        ∀ bytes, utf8Encode prompt = some bytes → bytes.length ≤ maxPromptBytes →
          host.supportsExecution host.default = true → (Value.dict body).Encodable)

/-- What follows the lookups of the type and the role, if it raises nothing. -/
theorem lookups_raise {α : Type} {refused : Bool → Stage α} {rest : Stage α}
    (hrefused : ∀ b, ¬ Raises (refused b)) :
    Raises (do
      if !(← isMember (field job "job_type") jobTypes) then refused true
      else if !(← isMember (field job "role") roles) then refused false
      else rest : Stage α) ↔
      ¬ Enumerable job ∨ (isMember (field job "job_type") jobTypes = .ok true ∧
        isMember (field job "role") roles = .ok true ∧ Raises rest) := by
  rcases isMember_cases (field job "job_type") jobTypes with ⟨hhash, htype⟩ | ⟨hhash, found, htype⟩
  · rw [htype]
    refine iff_of_true ⟨_, rfl⟩ (Or.inl fun h => ?_)
    rw [h.jobType] at hhash
    cases hhash
  · rw [htype]
    cases found with
    | false =>
      refine iff_of_false (hrefused true) ?_
      rintro (h | ⟨hfound, -⟩)
      · exact h ⟨hhash, fun hfound => by cases htype.symm.trans hfound⟩
      · cases hfound
    | true =>
      rcases isMember_cases (field job "role") roles with ⟨hhash', hrole⟩ | ⟨hhash', found', hrole⟩
      · refine iff_of_true ?_ (Or.inl fun h => ?_)
        · rw [hrole]
          exact ⟨_, rfl⟩
        · rw [h.role htype] at hhash'
          cases hhash'
      · have henumerable : Enumerable job := ⟨hhash, fun _ => hhash'⟩
        rw [hrole]
        cases found' with
        | false =>
          refine iff_of_false (hrefused false) ?_
          rintro (h | ⟨-, hfound, -⟩)
          · exact h henumerable
          · cases hfound
        | true =>
          refine ⟨fun h => Or.inr ⟨rfl, rfl, h⟩, ?_⟩
          rintro (h | ⟨-, -, h⟩)
          · exact absurd henumerable h
          · exact h

theorem jobReason_raises (h : (Value.dict job).Encodable) :
    Raises (jobReason job) ↔ ¬ Enumerable job := by
  unfold jobReason
  refine (@lookups_raise _ _ _ (fun b => .ok (some (if b then "UNSUPPORTED_JOB_TYPE" else "UNSUPPORTED_WORKER_ROLE"))) _
    fun b => not_raises_ok _).trans (or_iff_left ?_)
  rintro ⟨-, -, hraises⟩
  have hencodable := field_encodable h "prompt"
  split at hraises
  · exact not_raises_ok _ hraises
  · next prompt _ hprompt =>
    rw [hprompt] at hencodable
    rcases raises_bind.mp hraises with hlength | ⟨length, -, hrest⟩
    · exact utf8Length_raises.mp hlength (hencodable prompt List.mem_cons_self)
    · repeat' split at hrest
      all_goals exact not_raises_ok _ hrest
  · exact not_raises_ok _ hraises

theorem parseLaunch_raises (h : (Value.dict body).Sized) :
    Raises (parseLaunch host body) ↔ ¬ LaunchFit host body := by
  unfold parseLaunch LaunchFit
  rw [raises_bind, or_iff_right (launchHeader_not_raises host body)]
  cases hheader : launchHeader host body with
  | error =>
    refine iff_of_false ?_ (not_not.mpr ?_)
    · rintro ⟨header, heq, -⟩
      cases heq
    · intro header heq
      cases heq
  | ok header =>
    have hjob : (Value.dict header.job).Sized := (launchHeader_of hheader).job ▸ field_sized h "job"
    have hdigest := @requestDigest_raises _ _ host header.taskId _ header.runId hjob
    simp only [Except.ok.injEq, exists_eq_left', forall_eq']
    rw [raises_bind, hdigest]
    by_cases hencodable : EncodableRequest header.runId header.taskId header.job
    · have hadmitted : ∀ computed, Raises (match admission host body header computed with
          | .error reason => .ok (.rejected header.key computed reason (selectedProfile host header.job))
          | .ok profile => do
            match ← jobReason header.job with
            | some reason => return .rejected header.key computed reason (some profile)
            | none => return .accepted header.key computed ⟨header.runId, header.taskId, header.job, profile⟩ :
          Stage (Parsed F π)) ↔ ∃ profile, admission host body header computed = .ok profile ∧
            ¬ Enumerable header.job := by
        intro computed
        cases admission host body header computed with
        | error =>
          refine iff_of_false (not_raises_ok _) ?_
          rintro ⟨profile, heq, -⟩
          cases heq
        | ok =>
          simp only [Except.ok.injEq, exists_eq_left']
          rw [raises_bind, jobReason_raises hencodable.job]
          refine or_iff_left ?_
          rintro ⟨reason, -, hraises⟩
          split at hraises <;> exact not_raises_ok _ hraises
      simp only [hencodable, not_true_eq_false, false_or, true_and]
      push Not
      constructor
      · rintro ⟨computed, hcomputed, hraises⟩
        obtain ⟨profile, hprofile, hjob⟩ := (hadmitted computed).mp hraises
        exact ⟨computed, profile, hcomputed, hprofile, hjob⟩
      · rintro ⟨computed, profile, hcomputed, hprofile, hjob⟩
        exact ⟨computed, hcomputed, (hadmitted computed).mpr ⟨profile, hprofile, hjob⟩⟩
    · simp [hencodable]

theorem utf8Length_ok {text : Text} {length : Nat} :
    utf8Length text = .ok length ↔ ∃ bytes, utf8Encode text = some bytes ∧ bytes.length = length := by
  unfold utf8Length
  cases utf8Encode text with
  | none => simp [raise]
  | some => simp

theorem parseJobV1_raises {identity : Uuid} (h : (Value.dict body).Sized) :
    Raises (parseJobV1 host identity body) ↔ ¬ JobFit host body := by
  have hrun : Plain (lit "v1-run-" ++ identity.text) := Plain.append (plain_of_ascii rfl) identity.plain
  have hdigest : Raises (requestDigest host (lit "v1-run-" ++ identity.text) none body) ↔
      ¬ (Value.dict body).Encodable := by
    rw [requestDigest_raises h]
    exact not_congr ⟨fun h => h.job, fun h => ⟨hrun, by rintro _ ⟨⟩, h⟩⟩
  unfold parseJobV1 JobFit
  by_cases hfields : hasFields body (expectedFields body ["job_type", "role", "prompt"]) = true
  · rw [forall_prop_of_true hfields, hfields]
    refine (@lookups_raise _ _ _ (fun _ => answer 422 "PRE_LAUNCH_REJECTED") _ fun _ => not_raises_answer _ _).trans ?_
    rw [not_and_or]
    refine or_congr_right ?_
    push Not
    refine and_congr_right fun _ => and_congr_right fun _ => ?_
    split
    · next hprompt =>
      refine iff_of_false (not_raises_answer _ _) ?_
      rintro ⟨prompt, heq, hne, -⟩
      cases hprompt.symm.trans heq
      exact hne rfl
    · next prompt hne hprompt =>
      rw [raises_bind, utf8Length_raises]
      constructor
      · rintro (hplain | ⟨length, hlength, hrest⟩)
        · exact ⟨prompt, hprompt, hne, fun h => absurd h hplain⟩
        · refine ⟨prompt, hprompt, hne, fun _ => ?_⟩
          obtain ⟨bytes, hbytes, rfl⟩ := utf8Length_ok.mp hlength
          refine ⟨bytes, hbytes, ?_⟩
          split at hrest
          · exact absurd hrest (not_raises_answer _ _)
          · next hshort =>
            split at hrest
            · exact absurd hrest (not_raises_answer _ _)
            · next hsupports =>
              refine ⟨by omega, by simpa using hsupports, hdigest.mp ?_⟩
              refine (raises_bind.mp hrest).resolve_right ?_
              rintro ⟨_, -, hok⟩
              exact not_raises_ok _ hok
      · rintro ⟨_, heq, -, hrest⟩
        cases hprompt.symm.trans heq
        by_cases hplain : Plain prompt
        · obtain ⟨bytes, hbytes, hshort, hsupports, hencodable⟩ := hrest hplain
          refine Or.inr ⟨bytes.length, utf8Length_ok.mpr ⟨bytes, hbytes, rfl⟩, ?_⟩
          rw [if_neg (by omega), hsupports]
          exact raises_bind.mpr (Or.inl (hdigest.mpr hencodable))
        · exact Or.inl hplain
    · next hnone =>
      refine iff_of_false (not_raises_answer _ _) ?_
      rintro ⟨prompt, heq, -⟩
      exact hnone prompt heq
  · have hfalse : hasFields body (expectedFields body ["job_type", "role", "prompt"]) = false := by simpa using hfields
    rw [hfalse]
    exact iff_of_false (not_raises_answer _ _) (not_not.mpr fun h => by cases h)

/-- **A launch is answered or goes on** exactly when the reader can follow the nesting of its body and its document is
fit: no exception leaves the reading of the body, the checks of its tree, its digest and its fields. The same for a job
of the first protocol. -/
theorem parsing_total_iff (host : Host F π) (identity : Uuid) (raw : List Byte) :
    (¬ Raises (postLaunch host raw) ↔
      ¬ TooDeep host raw ∧ ∀ body, jsonBody host raw = .ok body → LaunchFit host body) ∧
    (¬ Raises (postJob host identity raw) ↔
      ¬ TooDeep host raw ∧ ∀ body, jsonBody host raw = .ok body → JobFit host body) := by
  constructor
  · unfold postLaunch
    rw [raises_bind, jsonBody_raises, not_or]
    refine and_congr_right fun _ => ?_
    push Not
    exact forall₂_congr fun body hbody => (not_congr (parseLaunch_raises (jsonBody_sized hbody))).trans not_not
  · unfold postJob
    rw [raises_bind, jsonBody_raises, not_or]
    refine and_congr_right fun _ => ?_
    push Not
    exact forall₂_congr fun body hbody => (not_congr (parseJobV1_raises (jsonBody_sized hbody))).trans not_not

end

/-! ## A launch that raises -/

def bytesOf (text : String) : List Byte := text.toList.map fun c => byte c.toNat

/-- A daemon with one profile. -/
def sampleHost : Host sampleFloats Unit where
  recursionLimit := 1000
  equalsInt _ _ := false
  hexdigest _ := lit "0"
  authorityId := lit "a"
  registryId := lit "r"
  available := true
  find _ := some ()
  default := ()
  supportsExecution _ := true

/-- A launch whose run id is the escape of a lone surrogate. -/
def surrogateBody : List Byte :=
  bytesOf ("\x7b\"idempotency_key\":\"k\",\"protocol_version\":2,\"authority_id\":\"a\"," ++
  "\"registry_id\":\"r\",\"execution\":\x7b\"run_id\":\"\\ud800\"\x7d,\"job\":\x7b\x7d\x7d")

/-- Its header is accepted, and its digest raises. -/
theorem surrogate_launch_raises : Raises (postLaunch sampleHost surrogateBody) := by
  have hread : ((jsonBody sampleHost surrogateBody >>= launchHeader sampleHost).toOption.map Header.runId) =
      some [codePoint 0xD800] := by decide +kernel
  unfold postLaunch
  cases hbody : jsonBody sampleHost surrogateBody with
  | error stop =>
    rw [hbody] at hread
    cases hread
  | ok body =>
    rw [hbody] at hread
    refine (parseLaunch_raises (jsonBody_sized hbody)).mpr fun hfit => ?_
    obtain ⟨header, hheader, hrun⟩ := Option.map_eq_some_iff.mp hread
    have hok : launchHeader sampleHost body = .ok header := by
      simp only [bind, Except.bind] at hheader
      cases h : launchHeader sampleHost body with
      | error stop =>
        rw [h] at hheader
        cases hheader
      | ok header' =>
        rw [h] at hheader
        exact congrArg Except.ok (Option.some.inj hheader)
    have hplain := (hfit header hok).1.runId
    rw [hrun] at hplain
    exact absurd (hplain _ List.mem_cons_self) (by decide)

end AgentFabric.LocalWorker.Wire
