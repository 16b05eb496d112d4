import AgentFabric.Lib.JsonRoundTrip

/-!
# Bridge envelopes

The messages that the Bridge exchanges: a structured artifact inside an envelope that carries a hash over all its
fields, as canonical JSON.

The functions that raise return `Except Raised`. The hash is the parameter `sha256Hex`, the floating-point numbers are
the parameter `F`. The depth of the interpreter's own stack is not modelled.
-/

namespace AgentFabric.Bridge

open AgentFabric.Lib

/-- What is raised: `BridgeValidationError` with its message, `UnicodeEncodeError`, or another `ValueError`. -/
inductive Raised where
  | validation (message : Text)
  | unicodeEncode
  | value
deriving DecidableEq

structure BridgeLimits where
  maxPayloadBytes : Nat := 131072
  maxEnvelopeBytes : Nat := 262144
  maxDepth : Nat := 16
  maxContainerItems : Nat := 2048
  maxStringBytes : Nat := 65536
  positive : 0 < maxPayloadBytes ∧ 0 < maxEnvelopeBytes ∧ 0 < maxDepth ∧ 0 < maxContainerItems ∧
    0 < maxStringBytes := by
    decide
  payload_le_envelope : maxPayloadBytes ≤ maxEnvelopeBytes := by decide

section Protocol

variable {F : FloatFormat}

/-- The representation that is hashed and sent. -/
def canonicalJsonBytes (d : Datum F.Val) : Except Raised (List Byte) :=
  match (dumps F d.value).bind utf8Encode with
  | some bytes => .ok bytes
  | none => .error (.validation (lit "value is not canonical JSON"))

/-! ## Limits -/

section Limits

variable (limits : BridgeLimits)

mutual

/-- `visit`: the number of items met so far. The copy that the source builds of a node is equal to it. -/
def visit : Value F.Val → Nat → Nat → Except Raised Nat
  | v, depth, count =>
    if limits.maxDepth < depth then .error (.validation (lit "JSON depth limit exceeded"))
    else match v with
    | .none | .bool _ | .int _ => .ok count
    | .str s =>
      match utf8Encode s with
      | none => .error .unicodeEncode
      | some bytes =>
        if limits.maxStringBytes < bytes.length then .error (.validation (lit "JSON string limit exceeded"))
        else .ok count
    | .float x => if F.isFinite x then .ok count else .error (.validation (lit "non-finite JSON number"))
    | .list items =>
      if limits.maxContainerItems < count + items.length then
        .error (.validation (lit "JSON container item limit exceeded"))
      else visitItems items (depth + 1) (count + items.length)
    | .dict entries =>
      if limits.maxContainerItems < count + entries.length then
        .error (.validation (lit "JSON container item limit exceeded"))
      else visitEntries entries (depth + 1) (count + entries.length)
    | .foreign type _ =>
      .error (.validation (if type = lit "dict" then lit "JSON object keys must be strings"
        else lit "unsupported JSON value type: " ++ type))

def visitItems : List (Value F.Val) → Nat → Nat → Except Raised Nat
  | [], _, count => .ok count
  | v :: items, depth, count => do
    let count ← visit v depth count
    visitItems items depth count

def visitEntries : List (Text × Value F.Val) → Nat → Nat → Except Raised Nat
  | [], _, count => .ok count
  | (_, v) :: entries, depth, count => do
    let count ← visit v depth count
    visitEntries entries depth count

end

/-- `validate_json`, for a `payload` with the limit of its bytes. -/
def validateJson (d : Datum F.Val) (payload : Bool) : Except Raised (Datum F.Val) := do
  let _ ← visit limits d.value 0 0
  if payload then
    let bytes ← canonicalJsonBytes d
    if limits.maxPayloadBytes < bytes.length then .error (.validation (lit "payload byte limit exceeded"))
    else .ok d
  else .ok d

end Limits

abbrev NonEmpty := { t : Text // strip t ≠ [] }

def nonEmpty (d : Datum F.Val) (field : String) : Except Raised NonEmpty :=
  match d.value with
  | .str s =>
    if h : strip s ≠ [] then .ok ⟨s, h⟩
    else .error (.validation (lit field ++ lit " must be a non-empty string"))
  | _ => .error (.validation (lit field ++ lit " must be a non-empty string"))

/-- `set(keys) == expected`. -/
def sameKeys (keys expected : List Text) : Bool := keys.all (· ∈ expected) && expected.all (· ∈ keys)

/-! ## Artifacts -/

structure StructuredArtifact (F : FloatFormat) where
  artifactId : NonEmpty
  artifactType : NonEmpty
  content : Datum F.Val

def artifactFields : List Text := [lit "artifactID", lit "artifactType", lit "content"]

theorem artifactFields_nodup : artifactFields.Nodup := by decide

def StructuredArtifact.toProtocol (a : StructuredArtifact F) : Datum F.Val :=
  .dict [(lit "artifactID", .str a.artifactId.val), (lit "artifactType", .str a.artifactType.val),
    (lit "content", a.content)] artifactFields_nodup

def StructuredArtifact.fromProtocol (d : Datum F.Val) (limits : BridgeLimits) :
    Except Raised (StructuredArtifact F) :=
  match d.value with
  | .dict entries =>
    if sameKeys (entries.map Prod.fst) artifactFields then do
      let content ← validateJson limits (d.get (lit "content")) true
      let artifactId ← nonEmpty (d.get (lit "artifactID")) "artifactID"
      let artifactType ← nonEmpty (d.get (lit "artifactType")) "artifactType"
      .ok { artifactId := artifactId, artifactType := artifactType, content := content }
    else .error (.validation (lit "artifact fields must match the protocol exactly"))
  | .foreign type _ =>
    .error (.validation (if type = lit "dict" then lit "artifact fields must match the protocol exactly"
      else lit "artifact must be an object"))
  | _ => .error (.validation (lit "artifact must be an object"))

/-! ## Envelopes -/

structure BridgeEnvelope (F : FloatFormat) where
  bridgeVersion : Text
  codecId : Text
  messageId : Text
  senderId : Text
  receiverId : Text
  taskId : Text
  payload : StructuredArtifact F

def bodyFields : List Text :=
  [lit "bridgeVersion", lit "codecID", lit "messageID", lit "senderID", lit "receiverID", lit "taskID", lit "payload"]

theorem bodyFields_nodup : bodyFields.Nodup := by decide

def envelopeFields : List Text := bodyFields ++ [lit "envelopeSha256"]

theorem envelopeFields_nodup : envelopeFields.Nodup := by decide

namespace BridgeEnvelope

def bodyEntries (e : BridgeEnvelope F) : List (Text × Datum F.Val) :=
  [(lit "bridgeVersion", .str e.bridgeVersion), (lit "codecID", .str e.codecId), (lit "messageID", .str e.messageId),
    (lit "senderID", .str e.senderId), (lit "receiverID", .str e.receiverId), (lit "taskID", .str e.taskId),
    (lit "payload", e.payload.toProtocol)]

def bodyProtocol (e : BridgeEnvelope F) : Datum F.Val := .dict e.bodyEntries bodyFields_nodup

def strictStep (result : List (Text × Value F.Val)) (pair : Text × Value F.Val) :
    Except Raised (List (Text × Value F.Val)) :=
  if pair.1 ∈ result.map Prod.fst then .error (.validation (lit "duplicate JSON object field"))
  else .ok (result ++ [pair])

/-- `strict_object`: the pairs of an object, one by one. -/
def strictObject (pairs : List (Text × Value F.Val)) : Except Raised (Value F.Val) := do
  let result ← pairs.foldlM strictStep []
  .ok (.dict result)

theorem strictStep_foldlM (pairs result : List (Text × Value F.Val)) (h : (result.map Prod.fst).Nodup) :
    pairs.foldlM strictStep result = if ((result ++ pairs).map Prod.fst).Nodup then .ok (result ++ pairs)
      else .error (.validation (lit "duplicate JSON object field")) := by
  induction pairs generalizing result with
  | nil => simp [List.foldlM, pure, Except.pure, h]
  | cons pair pairs ih =>
    have hassoc : result ++ pair :: pairs = result ++ [pair] ++ pairs := by simp
    by_cases hmem : pair.1 ∈ result.map Prod.fst
    · have hdup : ¬ ((result ++ pair :: pairs).map Prod.fst).Nodup := by
        rw [List.map_append, List.nodup_append]
        exact fun hn => hn.2.2 pair.1 hmem pair.1 List.mem_cons_self rfl
      simp only [List.foldlM, strictStep, if_pos hmem, if_neg hdup, bind, Except.bind]
    · have hnodup : ((result ++ [pair]).map Prod.fst).Nodup := by
        rw [List.map_append, List.nodup_append]
        refine ⟨h, List.nodup_singleton _, fun a ha b hb hab => hmem ?_⟩
        obtain rfl : b = pair.1 := List.mem_singleton.mp hb
        exact hab ▸ ha
      simp only [List.foldlM, strictStep, if_neg hmem, bind, Except.bind]
      rw [ih _ hnodup, hassoc]

theorem strictObject_nodup (pairs : List (Text × Value F.Val)) (h : (pairs.map Prod.fst).Nodup) :
    strictObject pairs = .ok (.dict pairs) := by
  simp [strictObject, strictStep_foldlM pairs [] List.nodup_nil, h, bind, Except.bind]

theorem strictObject_distinct (pairs : List (Text × Value F.Val)) (v : Value F.Val) (h : strictObject pairs = .ok v)
    (hpairs : Value.FormedEntries True pairs) : v.Distinct := by
  simp only [strictObject, strictStep_foldlM pairs [] List.nodup_nil, List.nil_append, bind, Except.bind] at h
  by_cases hn : (pairs.map Prod.fst).Nodup
  · rw [if_pos hn] at h
    cases h
    exact ⟨hn, hpairs⟩
  · rw [if_neg hn] at h
    cases h

/-- `json.loads` of a message. The scanner does not run out of its bound: `loadsText_ne_exhausted`. -/
def parse (encoded : List Byte) : Except Raised (Datum F.Val) :=
  match h : loads F strictObject encoded with
  | .ok v => .ok ⟨v, loads_distinct strictObject_distinct h⟩
  | .error .decode => .error (.validation (lit "envelope is not valid UTF-8 JSON"))
  | .error (.hook e) => .error e
  | .error .digits | .error .exhausted => .error .value

section Hash

variable (sha256Hex : List Byte → Text)

/-- Covers every field of the envelope. -/
def envelopeSha256 (e : BridgeEnvelope F) : Except Raised Text := do
  let bytes ← canonicalJsonBytes e.bodyProtocol
  .ok (sha256Hex bytes)

def entries (e : BridgeEnvelope F) (hash : Text) : List (Text × Datum F.Val) :=
  e.bodyEntries ++ [(lit "envelopeSha256", .str hash)]

theorem entries_keys (e : BridgeEnvelope F) (hash : Text) : (e.entries hash).map Prod.fst = envelopeFields := rfl

def toProtocol (e : BridgeEnvelope F) : Except Raised (Datum F.Val) := do
  let hash ← e.envelopeSha256 sha256Hex
  .ok (.dict (e.entries hash) (by rw [entries_keys]; exact envelopeFields_nodup))

def toBytes (e : BridgeEnvelope F) (limits : BridgeLimits) : Except Raised (List Byte) := do
  let protocol ← e.toProtocol sha256Hex
  let encoded ← canonicalJsonBytes protocol
  if limits.maxEnvelopeBytes < encoded.length then .error (.validation (lit "envelope byte limit exceeded"))
  else .ok encoded

def fromBytes (encoded : List Byte) (limits : BridgeLimits) : Except Raised (BridgeEnvelope F) := do
  if limits.maxEnvelopeBytes < encoded.length then .error (.validation (lit "envelope byte limit exceeded"))
  else
    let raw ← parse encoded
    if (raw.keys?.map (sameKeys · envelopeFields)).getD false = false then
      .error (.validation (lit "envelope fields must match the protocol exactly"))
    else
      let _ ← validateJson limits raw false
      let bridgeVersion ← nonEmpty (raw.get (lit "bridgeVersion")) "bridgeVersion"
      let codecId ← nonEmpty (raw.get (lit "codecID")) "codecID"
      let messageId ← nonEmpty (raw.get (lit "messageID")) "messageID"
      let senderId ← nonEmpty (raw.get (lit "senderID")) "senderID"
      let receiverId ← nonEmpty (raw.get (lit "receiverID")) "receiverID"
      let taskId ← nonEmpty (raw.get (lit "taskID")) "taskID"
      let payload ← StructuredArtifact.fromProtocol (raw.get (lit "payload")) limits
      let envelope : BridgeEnvelope F :=
        { bridgeVersion := bridgeVersion, codecId := codecId, messageId := messageId, senderId := senderId,
          receiverId := receiverId, taskId := taskId, payload := payload }
      match (raw.get (lit "envelopeSha256")).value with
      | .str supplied => do
        let hash ← envelope.envelopeSha256 sha256Hex
        if supplied = hash then .ok envelope else .error (.validation (lit "envelope SHA-256 mismatch"))
      | _ => .error (.validation (lit "envelope SHA-256 mismatch"))

end Hash

end BridgeEnvelope

end Protocol

end AgentFabric.Bridge
