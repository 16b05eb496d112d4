import AgentFabric.Domain
import AgentFabric.Bridge.Model

/-!
# The exchange of an artifact

`BridgeFoundation.exchange` sends an artifact through a codec and back, and returns either the derived artifact or the
source with the reason for the fallback. The codec is foreign code: it may return anything and raise anything.

The clock of the telemetry and the timeout of an operation are not modelled: a codec that does not answer in time
answers `timeout`.
-/

namespace AgentFabric.Bridge

open AgentFabric.Lib

inductive FallbackReason where
  | disabled | forbiddenAuthority | unsupported | versionMismatch | codecMismatch | validationFailed | payloadLimit
  | hashMismatch | decodeFailed | timeout
deriving DecidableEq

inductive AuthorityClass where
  | redAction | codeWrite | credential | capabilityGrant | toolCall | shell
deriving DecidableEq

structure TransferContext where
  taskId : NonEmpty
  authorities : List AuthorityClass

def TransferContext.bridgeAllowed (context : TransferContext) : Bool := context.authorities.isEmpty

structure BridgeCapabilities where
  peerId : NonEmpty
  versions : List Text
  codecs : List Text
  maxPayloadBytes : Nat
  available : Bool
  positive : 0 < maxPayloadBytes
  versions_valid : versions.Nodup ∧ ∀ v ∈ versions, strip v ≠ []
  codecs_valid : codecs.Nodup ∧ ∀ c ∈ codecs, strip c ≠ []

/-- An available `BridgeNegotiation`. -/
structure Selected where
  version : Text
  codecId : Text
  maxPayloadBytes : Nat

/-- The first version and the first codec of the local peer that the remote one has too. -/
def negotiate (localPeer remotePeer : BridgeCapabilities) : Except FallbackReason Selected :=
  if ¬ (localPeer.available ∧ remotePeer.available) then .error .unsupported
  else match localPeer.versions.find? (· ∈ remotePeer.versions) with
    | none => .error .versionMismatch
    | some version =>
      match localPeer.codecs.find? (· ∈ remotePeer.codecs) with
      | none => .error .codecMismatch
      | some codecId =>
        .ok { version := version, codecId := codecId,
              maxPayloadBytes := min localPeer.maxPayloadBytes remotePeer.maxPayloadBytes }

structure BridgeTelemetry where
  exchangeId : Text
  senderId : Text
  receiverId : Text
  bridgeAvailable : Bool
  protocolVersion : Option Text := none
  codecId : Option Text := none
  sourceArtifactSha256 : Option Text := none
  envelopeSha256 : Option Text := none
  originalBytes : Nat := 0
  encodedBytes : Nat := 0
  fallbackReason : Option FallbackReason := none

/-- `authoritative` and `canonical` are constants of the class. -/
structure DerivedBridgeArtifact (F : FloatFormat) where
  artifactId : Text
  sourceArtifactId : Text
  content : Datum F.Val
  envelopeSha256 : Option Text
  codecId : Option Text

structure BridgeDelivery (F : FloatFormat) where
  source : StructuredArtifact F
  usedBridge : Bool
  telemetry : BridgeTelemetry
  derived : Option (DerivedBridgeArtifact F) := none

/-! ## Codecs -/

/-- How a call of a codec ends: with a value, with `TimeoutError`, `BridgeValidationError`, another `Exception`, or an
exception that is none, such as a cancellation. -/
inductive Answer (α : Type) where
  | returned (value : α)
  | timeout
  | validation (message : Text)
  | failed
  | interrupted

/-- What `encode` returns: bytes, or another object with its length if it has one. -/
inductive Encoded where
  | bytes (b : List Byte)
  | other (length : Option Nat)

inductive Attribute where
  | bridgeVersion | codecId | messageId | senderId | receiverId | taskId | envelopeSha256
deriving DecidableEq

/-- What `decode` returns: an envelope, or any other object by what its attributes give when they are read for the first
time, the second and so on: nothing when the reading raises, and `some none` for what is equal to no text. -/
inductive Decoded (F : FloatFormat) where
  | envelope (e : BridgeEnvelope F)
  | other (read : Attribute → Nat → Option (Option Text)) (content : Option (Datum F.Val))

structure Codec (F : FloatFormat) where
  encode : BridgeEnvelope F → BridgeLimits → Answer Encoded
  decode : List Byte → BridgeLimits → Answer (Decoded F)

section Identity

variable {F : FloatFormat} (sha256Hex : List Byte → Text)

def identityCodecId : Text := lit "identity-json/1.0"

/-- `IdentityJSONCodec`. -/
def identityCodec : Codec F where
  encode envelope limits :=
    match envelope.toBytes sha256Hex limits with
    | .ok b => .returned (.bytes b)
    | .error (.validation message) => .validation message
    | .error _ => .failed
  decode encoded limits :=
    match BridgeEnvelope.fromBytes sha256Hex encoded limits with
    | .ok envelope =>
      if envelope.codecId ≠ identityCodecId then .validation (lit "envelope codec does not match decoder")
      else .returned (.envelope envelope)
    | .error (.validation message) => .validation message
    | .error _ => .failed

/-- The codecs of a foundation that is built without any. -/
def defaultCodecs (codecId : Text) : Option (Codec F) :=
  if codecId = identityCodecId then some (identityCodec sha256Hex) else none

end Identity

/-- What an exchange raises. -/
inductive Escape where
  | raised (r : Raised)
  | noLength
  | attribute
  | interrupted
deriving DecidableEq

structure BridgeConfig where
  enabled : Bool := false
  limits : BridgeLimits := {}

section Exchange

variable {F : FloatFormat} (sha256Hex : List Byte → Text)

def BridgeEnvelope.attribute (e : BridgeEnvelope F) : Attribute → Except Raised Text
  | .bridgeVersion => .ok e.bridgeVersion
  | .codecId => .ok e.codecId
  | .messageId => .ok e.messageId
  | .senderId => .ok e.senderId
  | .receiverId => .ok e.receiverId
  | .taskId => .ok e.taskId
  | .envelopeSha256 => e.envelopeSha256 sha256Hex

/-- The attribute of a decoded object, read for the `n`-th time. -/
def Decoded.read (d : Decoded F) (a : Attribute) (n : Nat) : Except Escape (Option Text) :=
  match d with
  | .envelope e =>
    match e.attribute sha256Hex a with
    | .ok value => .ok (some value)
    | .error r => .error (.raised r)
  | .other read _ =>
    match read a n with
    | some value => .ok value
    | none => .error .attribute

def Decoded.content : Decoded F → Except Escape (Datum F.Val)
  | .envelope e => .ok e.payload.content
  | .other _ (some content) => .ok content
  | .other _ none => .error .attribute

/-- `decoded.a != expected or …`, from left to right. -/
def mismatch (d : Decoded F) : List (Attribute × Text) → Except Escape Bool
  | [] => .ok false
  | (a, expected) :: rest => do
    let value ← d.read sha256Hex a 0
    if value = some expected then mismatch d rest else .ok true

/-- The attributes of a decoded envelope that are compared, with what they have to be. -/
def expectedOf (e : BridgeEnvelope F) : List (Attribute × Text) :=
  [(.bridgeVersion, e.bridgeVersion), (.codecId, e.codecId), (.messageId, e.messageId), (.senderId, e.senderId),
    (.receiverId, e.receiverId), (.taskId, e.taskId)]

/-- What is known of an exchange when it returns: the fields of its telemetry. -/
structure Known where
  version : Option Text := none
  codecId : Option Text := none
  sourceHash : Option Text := none
  sourceBytes : Nat := 0
  envelopeHash : Option Text := none
  encodedBytes : Nat := 0

/-- What an exchange is called with. -/
structure Request (F : FloatFormat) where
  exchangeId : Text
  messageId : Text
  sender : BridgeCapabilities
  receiver : BridgeCapabilities
  context : TransferContext
  source : StructuredArtifact F

variable (req : Request F)

def fallback (source : StructuredArtifact F) (known : Known) (reason : FallbackReason) : BridgeDelivery F where
  source := source
  usedBridge := false
  telemetry := {
    exchangeId := req.exchangeId
    senderId := req.sender.peerId
    receiverId := req.receiver.peerId
    bridgeAvailable := false
    protocolVersion := known.version
    codecId := known.codecId
    sourceArtifactSha256 := known.sourceHash
    envelopeSha256 := known.envelopeHash
    originalBytes := known.sourceBytes
    encodedBytes := known.encodedBytes
    fallbackReason := some reason }

/-- The part after the guarded block: the checks of the decoded object, and the delivery of its content. -/
def deliver (known : Known) (envelope : BridgeEnvelope F) (hash : Text) (d : Decoded F) :
    Except Escape (BridgeDelivery F) := do
  if ← mismatch sha256Hex d (expectedOf envelope) then .ok (fallback req envelope.payload known .validationFailed)
  else
    let value ← d.read sha256Hex .envelopeSha256 0
    if value ≠ some hash then .ok (fallback req envelope.payload known .hashMismatch)
    else
      let content ← d.content
      let derivedHash ← d.read sha256Hex .envelopeSha256 1
      let derivedCodec ← d.read sha256Hex .codecId 1
      let telemetryHash ← d.read sha256Hex .envelopeSha256 2
      .ok {
        source := envelope.payload
        usedBridge := true
        telemetry := {
          exchangeId := req.exchangeId
          senderId := req.sender.peerId
          receiverId := req.receiver.peerId
          bridgeAvailable := true
          protocolVersion := known.version
          codecId := known.codecId
          sourceArtifactSha256 := known.sourceHash
          envelopeSha256 := telemetryHash
          originalBytes := known.sourceBytes
          encodedBytes := known.encodedBytes }
        derived := some {
          artifactId := lit "bridge-derived:" ++ req.exchangeId
          sourceArtifactId := envelope.payload.artifactId
          content := content
          envelopeSha256 := derivedHash
          codecId := derivedCodec } }

/-- The reason for a `BridgeValidationError` of the guarded block. -/
def validationReason (message : Text) : FallbackReason :=
  if lit "SHA-256 mismatch" <:+: message then .hashMismatch else .validationFailed

/-- The guarded block from `codec.encode` on; `len(encoded)` stands in its handlers. -/
def transmit (limits : BridgeLimits) (codec : Codec F) (known : Known) (envelope : BridgeEnvelope F) (hash : Text) :
    Except Escape (BridgeDelivery F) :=
  match codec.encode envelope limits with
  | .timeout => .ok (fallback req envelope.payload known .timeout)
  | .validation message => .ok (fallback req envelope.payload known (validationReason message))
  | .failed => .ok (fallback req envelope.payload known .decodeFailed)
  | .interrupted => .error .interrupted
  | .returned (.other none) => .error .noLength
  | .returned (.other (some n)) =>
    .ok (fallback req envelope.payload { known with encodedBytes := n }
      (validationReason (lit "codec encode result must be bytes")))
  | .returned (.bytes b) =>
    let known := { known with encodedBytes := b.length }
    match codec.decode b limits with
    | .timeout => .ok (fallback req envelope.payload known .timeout)
    | .validation message => .ok (fallback req envelope.payload known (validationReason message))
    | .failed => .ok (fallback req envelope.payload known .decodeFailed)
    | .interrupted => .error .interrupted
    | .returned d => deliver sha256Hex req known envelope hash d

def envelopeOf (selected : Selected) (source : StructuredArtifact F) : BridgeEnvelope F where
  bridgeVersion := selected.version
  codecId := selected.codecId
  messageId := req.messageId
  senderId := req.sender.peerId
  receiverId := req.receiver.peerId
  taskId := req.context.taskId
  payload := source

/-- From the validation of the source on, which its caller may have built. -/
def send (limits : BridgeLimits) (selected : Selected) (codec : Codec F) : Except Escape (BridgeDelivery F) :=
  let known : Known := { version := selected.version, codecId := selected.codecId }
  match StructuredArtifact.fromProtocol req.source.toProtocol limits with
  | .error (.validation _) => .ok (fallback req req.source known .validationFailed)
  | .error r => .error (.raised r)
  | .ok source =>
    match canonicalJsonBytes source.toProtocol with
    | .error (.validation _) => .ok (fallback req source known .validationFailed)
    | .error r => .error (.raised r)
    | .ok bytes =>
      let known := { known with sourceHash := some (sha256Hex bytes), sourceBytes := bytes.length }
      if min selected.maxPayloadBytes limits.maxPayloadBytes < bytes.length then
        .ok (fallback req source known .payloadLimit)
      else
        let envelope := envelopeOf req selected source
        match envelope.envelopeSha256 sha256Hex with
        | .error (.validation message) => .ok (fallback req source known (validationReason message))
        | .error _ => .ok (fallback req source known .decodeFailed)
        | .ok hash => transmit sha256Hex req limits codec { known with envelopeHash := some hash } envelope hash

def exchange (config : BridgeConfig) (codecs : Text → Option (Codec F)) : Except Escape (BridgeDelivery F) :=
  if ¬ config.enabled then .ok (fallback req req.source {} .disabled)
  else if ¬ req.context.bridgeAllowed then .ok (fallback req req.source {} .forbiddenAuthority)
  else match negotiate req.sender req.receiver with
  | .error reason => .ok (fallback req req.source {} reason)
  | .ok selected =>
    match codecs selected.codecId with
    | none =>
      .ok (fallback req req.source { version := selected.version, codecId := selected.codecId } .unsupported)
    | some codec => send sha256Hex req config.limits selected codec

end Exchange

end AgentFabric.Bridge
