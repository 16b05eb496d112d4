import AgentFabric.Bridge.Foundation
import AgentFabric.Bridge.RoundTrip

/-!
# An exchange is lossless, or falls back

Whatever the codec does, an exchange returns the source with a reason, or the content of the source: unless a string of
the source cannot be sent, or the codec answers with something that is neither bytes nor an envelope of JSON.
-/

namespace AgentFabric.Bridge

open AgentFabric.Lib

variable {F : FloatFormat} {sha256Hex : List Byte → Text}

/-! ## What a hash determines -/

section Foreign

variable {φ : Type}

mutual

theorem tree_of_sorted : (v : Value φ) → v.Distinct → v.sorted.Tree → v.Tree
  | .none, _, _ => trivial
  | .bool _, _, _ => trivial
  | .int _, _, _ => trivial
  | .float _, _, _ => trivial
  | .str _, _, _ => trivial
  | .list vs, hd, hs => treeItems_of_sorted vs hd hs
  | .dict entries, hd, hs => by
    have hperm := List.perm_insertionSort Value.keyLe (Value.sortedEntries entries)
    refine ⟨hd.1, treeEntries_of_sorted entries hd.2 (Value.formedEntries_iff.mpr fun e he => ?_)⟩
    exact Value.formedEntries_iff.mp hs.2 e (hperm.mem_iff.mpr he)
  | .foreign _ _, _, hs => hs

theorem treeItems_of_sorted : (vs : List (Value φ)) → Value.FormedItems True vs →
    Value.FormedItems False (Value.sortedItems vs) → Value.FormedItems False vs
  | [], _, _ => trivial
  | v :: vs, hd, hs => ⟨tree_of_sorted v hd.1 hs.1, treeItems_of_sorted vs hd.2 hs.2⟩

theorem treeEntries_of_sorted : (entries : List (Text × Value φ)) → Value.FormedEntries True entries →
    Value.FormedEntries False (Value.sortedEntries entries) → Value.FormedEntries False entries
  | [], _, _ => trivial
  | (_, v) :: entries, hd, hs => ⟨tree_of_sorted v hd.1 hs.1, treeEntries_of_sorted entries hd.2 hs.2⟩

end

theorem tree_of_same {d : Datum φ} {v : Value φ} (hsame : d.value.Same v) (hv : v.Tree) : d.value.Tree := by
  apply tree_of_sorted d.value d.distinct
  rw [show d.value.sorted = v.sorted from hsame]
  exact Value.formed_sorted hv

end Foreign

variable {e e' : BridgeEnvelope F}

theorem body_tree (h : e.payload.content.value.Tree) : e.bodyProtocol.value.Tree := by
  refine ⟨by rw [List.map_map]; exact bodyFields_nodup, ?_⟩
  simp only [BridgeEnvelope.bodyEntries, List.map_cons, List.map_nil, Value.FormedEntries, Datum.str, Value.Formed,
    true_and, and_true]
  exact ⟨artifactFields_nodup, trivial, trivial, h, trivial⟩

theorem content_of_body (h : e.bodyProtocol.value.Same e'.bodyProtocol.value) :
    e.payload.content.value.Same e'.payload.content.value := by
  have hcontent : ∀ e : BridgeEnvelope F, (e.bodyProtocol.sorted.get (lit "payload")).get (lit "content") =
      e.payload.content.sorted := by
    intro e
    rw [Datum.get_sorted, Datum.get_sorted]
    rfl
  have hsorted : e.bodyProtocol.sorted = e'.bodyProtocol.sorted := Datum.ext_value h
  have heq := hcontent e
  rw [hsorted, hcontent e'] at heq
  exact congrArg Datum.value heq.symm

/-- Two envelopes of JSON with one hash have the same content. -/
theorem content_of_hash (hsha : Function.Injective sha256Hex) {hash : Text}
    (h : e.envelopeSha256 sha256Hex = .ok hash) (h' : e'.envelopeSha256 sha256Hex = .ok hash)
    (ht : e.payload.content.value.Tree) (ht' : e'.payload.content.value.Tree) :
    e.payload.content.value.Same e'.payload.content.value := by
  obtain ⟨bytes, hbytes, heq⟩ := bind_eq_ok.mp h
  obtain ⟨bytes', hbytes', heq'⟩ := bind_eq_ok.mp h'
  obtain rfl : bytes = bytes' := hsha ((Except.ok.inj heq).trans (Except.ok.inj heq').symm)
  obtain ⟨s, hs, hb⟩ := canonicalJsonBytes_ok.mp hbytes
  obtain ⟨s', hs', hb'⟩ := canonicalJsonBytes_ok.mp hbytes'
  obtain rfl := utf8Encode_injective hb hb'
  exact content_of_body (dumps_injective (body_tree ht) (body_tree ht') hs hs')

/-! ## Answers of a codec -/

/-- Before all the attributes have been compared one of them differs. -/
def Refused (read : Attribute → Nat → Option (Option Text)) : List (Attribute × Text) → Prop
  | [] => False
  | (a, expected) :: rest =>
    (∃ value, read a 0 = some value ∧ value ≠ some expected) ∨ (read a 0 = some (some expected) ∧ Refused read rest)

/-- Every attribute is what it has to be. -/
def Agrees (read : Attribute → Nat → Option (Option Text)) (expected : List (Attribute × Text)) : Prop :=
  ∀ p ∈ expected, read p.1 0 = some (some p.2)

section Sound

variable (sha256Hex)

/-- What `decode` may return for an envelope and its hash: an envelope that has a hash, of JSON if the hash is the same;
or another object that differs in an attribute, or that has the content of the source. -/
def Decoded.Sound (envelope : BridgeEnvelope F) (hash : Text) : Decoded F → Prop
  | .envelope e => expectedOf e = expectedOf envelope →
      ∃ h, e.envelopeSha256 sha256Hex = .ok h ∧ (h = hash → e.payload.content.value.Tree)
  | .other read content =>
    let expected := expectedOf envelope ++ [(.envelopeSha256, hash)]
    Refused read expected ∨
      (Agrees read expected ∧ read .envelopeSha256 1 ≠ none ∧ read .codecId 1 ≠ none ∧ read .envelopeSha256 2 ≠ none ∧
        ∃ c, content = some c ∧ c.value.Same envelope.payload.content.value)

/-- A codec that is not interrupted, encodes to something that has a length, and decodes to something sound. -/
def Codec.Sound (codec : Codec F) (limits : BridgeLimits) (envelope : BridgeEnvelope F) (hash : Text) : Prop :=
  codec.encode envelope limits ≠ .interrupted ∧ codec.encode envelope limits ≠ .returned (.other none) ∧
    ∀ b, codec.encode envelope limits = .returned (.bytes b) →
      codec.decode b limits ≠ .interrupted ∧
      ∀ d, codec.decode b limits = .returned d → d.Sound sha256Hex envelope hash

/-- If the request comes to the codec: no string of the source that is validated has a lone surrogate, and the codec is
sound for the envelope of the source, if it is sent. -/
def Covered (req : Request F) (config : BridgeConfig) (codecs : Text → Option (Codec F)) : Prop :=
  ∀ selected codec, config.enabled = true → req.context.bridgeAllowed = true →
    negotiate req.sender req.receiver = .ok selected → codecs selected.codecId = some codec →
    StructuredArtifact.fromProtocol req.source.toProtocol config.limits ≠ .error .unicodeEncode ∧
    ∀ bytes hash, StructuredArtifact.fromProtocol req.source.toProtocol config.limits = .ok req.source →
      canonicalJsonBytes req.source.toProtocol = .ok bytes →
      bytes.length ≤ min selected.maxPayloadBytes config.limits.maxPayloadBytes →
      (envelopeOf req selected req.source).envelopeSha256 sha256Hex = .ok hash →
      codec.Sound sha256Hex config.limits (envelopeOf req selected req.source) hash

end Sound

/-- The source comes back unchanged, with its own content from the bridge or with the reason for the fallback. -/
def Lossless (source : StructuredArtifact F) (r : Except Escape (BridgeDelivery F)) : Prop :=
  ∃ delivery, r = .ok delivery ∧ delivery.source = source ∧
    ((delivery.usedBridge = true ∧ delivery.telemetry.fallbackReason = none ∧
        ∃ derived, delivery.derived = some derived ∧ derived.content.value.Same source.content.value) ∨
      (delivery.usedBridge = false ∧ delivery.derived = none ∧ delivery.telemetry.fallbackReason ≠ none))

section Exchange

variable {req : Request F} {source : StructuredArtifact F}

theorem lossless_fallback (known : Known) (reason : FallbackReason) :
    Lossless source (.ok (fallback req source known reason)) :=
  ⟨_, rfl, rfl, .inr ⟨rfl, rfl, by rintro ⟨⟩⟩⟩

theorem not_lossless_error (e : Escape) : ¬ Lossless source (.error e) := by
  rintro ⟨_, h, -⟩
  cases h

variable {read : Attribute → Nat → Option (Option Text)}

theorem refused_append {l l' : List (Attribute × Text)} :
    Refused read (l ++ l') ↔ Refused read l ∨ (Agrees read l ∧ Refused read l') := by
  induction l with
  | nil => simp [Refused, Agrees]
  | cons p l ih =>
    obtain ⟨a, expected⟩ := p
    simp only [List.cons_append, Refused, ih, Agrees, List.forall_mem_cons]
    constructor
    · rintro (h | ⟨h, h' | ⟨ha, h'⟩⟩)
      · exact .inl (.inl h)
      · exact .inl (.inr ⟨h, h'⟩)
      · exact .inr ⟨⟨h, ha⟩, h'⟩
    · rintro ((h | ⟨h, h'⟩) | ⟨⟨h, ha⟩, h'⟩)
      · exact .inl h
      · exact .inr ⟨h, .inl h'⟩
      · exact .inr ⟨h, .inr ⟨ha, h'⟩⟩

theorem mismatch_other {content : Option (Datum F.Val)} (l : List (Attribute × Text)) :
    (mismatch sha256Hex (.other read content) l = .ok true ↔ Refused read l) ∧
      (mismatch sha256Hex (.other read content) l = .ok false ↔ Agrees read l) := by
  induction l with
  | nil =>
    refine ⟨⟨fun h => ?_, fun h => h.elim⟩, ⟨fun _ p hp => ?_, fun _ => rfl⟩⟩
    · cases h
    · cases hp
  | cons p l ih =>
    obtain ⟨a, expected⟩ := p
    have hagrees : Agrees read ((a, expected) :: l) ↔ read a 0 = some (some expected) ∧ Agrees read l :=
      List.forall_mem_cons
    rw [hagrees]
    simp only [mismatch, Decoded.read, Refused]
    cases hread : read a 0 with
    | none => simp [bind, Except.bind]
    | some value =>
      by_cases hv : value = some expected
      · subst hv
        simpa [bind, Except.bind] using ih
      · simp [bind, Except.bind, hv]

theorem mismatch_envelope (e envelope : BridgeEnvelope F) :
    mismatch sha256Hex (.envelope e) (expectedOf envelope) = .ok (!decide (expectedOf e = expectedOf envelope)) := by
  simp only [mismatch, expectedOf, Decoded.read, BridgeEnvelope.attribute, bind, Except.bind, Option.some.injEq,
    List.cons.injEq, Prod.mk.injEq, true_and, and_true]
  by_cases h₁ : e.bridgeVersion = envelope.bridgeVersion
  swap; · simp [h₁]
  by_cases h₂ : e.codecId = envelope.codecId
  swap; · simp [h₁, h₂]
  by_cases h₃ : e.messageId = envelope.messageId
  swap; · simp [h₁, h₂, h₃]
  by_cases h₄ : e.senderId = envelope.senderId
  swap; · simp [h₁, h₂, h₃, h₄]
  by_cases h₅ : e.receiverId = envelope.receiverId
  swap; · simp [h₁, h₂, h₃, h₄, h₅]
  by_cases h₆ : e.taskId = envelope.taskId
  · simp [h₁, h₂, h₃, h₄, h₅, h₆]
  · simp [h₁, h₂, h₃, h₄, h₅, h₆]

variable {envelope : BridgeEnvelope F}

/-- A decoded envelope. -/
theorem deliver_envelope (hsha : Function.Injective sha256Hex) {known : Known} {e : BridgeEnvelope F} {hash : Text}
    (htree : envelope.payload.content.value.Tree) (hhash : envelope.envelopeSha256 sha256Hex = .ok hash) :
    Lossless envelope.payload (deliver sha256Hex req known envelope hash (.envelope e)) ↔
      (Decoded.envelope e).Sound sha256Hex envelope hash := by
  simp only [deliver, mismatch_envelope, Decoded.Sound]
  by_cases hids : expectedOf e = expectedOf envelope
  swap
  · simp only [hids, decide_false, Bool.not_false, false_implies, iff_true]
    exact lossless_fallback known _
  simp only [hids, decide_true, Bool.not_true, true_implies, Decoded.read, BridgeEnvelope.attribute]
  cases h : e.envelopeSha256 sha256Hex with
  | error r =>
    refine iff_of_false (not_lossless_error (.raised r)) ?_
    rintro ⟨_, heq, -⟩
    cases heq
  | ok carried =>
    by_cases heq : carried = hash
    swap
    · have hne : (some carried : Option Text) ≠ some hash := fun h => heq (Option.some.inj h)
      simp only [bind, Except.bind, Bool.false_eq_true, if_false, if_pos hne]
      exact iff_of_true (lossless_fallback known _) ⟨carried, rfl, fun h => absurd h heq⟩
    subst heq
    simp only [bind, Except.bind, Bool.false_eq_true, if_false, ne_eq, not_true_eq_false, Decoded.content]
    constructor
    · rintro ⟨delivery, hd, -, ⟨-, -, derived, hderived, hsame⟩ | ⟨hno, -⟩⟩
      · cases hd
        cases hderived
        exact ⟨carried, rfl, fun _ => tree_of_same hsame htree⟩
      · cases hd
        cases hno
    · rintro ⟨_, heq', htree'⟩
      have hjson : e.payload.content.value.Tree := htree' (Except.ok.inj heq').symm
      exact ⟨_, rfl, rfl, .inl ⟨rfl, rfl, _, rfl, content_of_hash hsha h hhash hjson htree⟩⟩

/-- Another decoded object. -/
theorem deliver_other {known : Known} {hash : Text} {content : Option (Datum F.Val)} :
    Lossless envelope.payload (deliver sha256Hex req known envelope hash (.other read content)) ↔
      (Decoded.other read content).Sound sha256Hex envelope hash := by
  have hagrees : Agrees read (expectedOf envelope ++ [(.envelopeSha256, hash)]) ↔
      Agrees read (expectedOf envelope) ∧ read .envelopeSha256 0 = some (some hash) := by
    simp only [Agrees, List.forall_mem_append, List.forall_mem_singleton]
  obtain ⟨htrue, hfalse⟩ := @mismatch_other F sha256Hex read content (expectedOf envelope)
  simp only [Decoded.Sound, refused_append, hagrees, Refused, and_false, or_false, deliver]
  cases hm : mismatch sha256Hex (.other read content) (expectedOf envelope) with
  | error e =>
    have hno : ¬ Refused read (expectedOf envelope) := fun hr => by rw [htrue.mpr hr] at hm; cases hm
    have hno' : ¬ Agrees read (expectedOf envelope) := fun ha => by rw [hfalse.mpr ha] at hm; cases hm
    refine iff_of_false (not_lossless_error e) ?_
    rintro ((hr | ⟨ha, -⟩) | ⟨⟨ha, -⟩, -⟩)
    · exact hno hr
    · exact hno' ha
    · exact hno' ha
  | ok b =>
    cases b with
    | true => exact iff_of_true (lossless_fallback known _) (.inl (.inl (htrue.mp hm)))
    | false =>
      have ha := hfalse.mp hm
      have hno : ¬ Refused read (expectedOf envelope) := fun hr => by rw [htrue.mpr hr] at hm; cases hm
      simp only [hno, ha, true_and, false_or, bind, Except.bind, Bool.false_eq_true, if_false, Decoded.read]
      cases hread : read .envelopeSha256 0 with
      | none =>
        refine iff_of_false (not_lossless_error .attribute) ?_
        simp
      | some value =>
        by_cases hv : value = some hash
        swap
        · simp only [ne_eq, hv, not_false_eq_true, if_true]
          exact iff_of_true (lossless_fallback known _) (.inl ⟨value, rfl, hv⟩)
        subst hv
        simp only [ne_eq, not_true_eq_false, if_false, Decoded.content]
        cases content with
        | none =>
          refine iff_of_false (not_lossless_error .attribute) ?_
          simp
        | some c =>
          cases hderived : read .envelopeSha256 1 with
          | none =>
            refine iff_of_false (not_lossless_error .attribute) ?_
            simp
          | some =>
            cases hcodec : read .codecId 1 with
            | none =>
              refine iff_of_false (not_lossless_error .attribute) ?_
              simp
            | some =>
              cases htelemetry : read .envelopeSha256 2 with
              | none =>
                refine iff_of_false (not_lossless_error .attribute) ?_
                simp
              | some =>
                constructor
                · rintro ⟨delivery, hd, -, ⟨-, -, derived, hderived, hsame⟩ | ⟨hno, -⟩⟩
                  · cases hd
                    cases hderived
                    exact .inr ⟨trivial, by simp, by simp, by simp, c, rfl, hsame⟩
                  · cases hd
                    cases hno
                · rintro (⟨_, heq, hne⟩ | ⟨-, -, -, -, c', hc, hsame⟩)
                  · exact absurd (Option.some.inj heq).symm hne
                  · cases hc
                    exact ⟨_, rfl, rfl, .inl ⟨rfl, rfl, _, rfl, hsame⟩⟩

/-- The part of an exchange from the codec on. -/
theorem transmit_lossless (hsha : Function.Injective sha256Hex) {limits : BridgeLimits} {codec : Codec F}
    {known : Known} {hash : Text} (htree : envelope.payload.content.value.Tree)
    (hhash : envelope.envelopeSha256 sha256Hex = .ok hash) :
    Lossless envelope.payload (transmit sha256Hex req limits codec known envelope hash) ↔
      codec.Sound sha256Hex limits envelope hash := by
  unfold transmit Codec.Sound
  cases hencode : codec.encode envelope limits with
  | timeout => exact iff_of_true (lossless_fallback known _) ⟨by simp, by simp, by simp⟩
  | validation => exact iff_of_true (lossless_fallback known _) ⟨by simp, by simp, by simp⟩
  | failed => exact iff_of_true (lossless_fallback known _) ⟨by simp, by simp, by simp⟩
  | interrupted => exact iff_of_false (not_lossless_error .interrupted) fun h => h.1 rfl
  | returned encoded =>
    cases encoded with
    | other length =>
      cases length with
      | none => exact iff_of_false (not_lossless_error .noLength) fun h => h.2.1 rfl
      | some => exact iff_of_true (lossless_fallback _ _) ⟨by simp, by simp, by simp⟩
    | bytes b =>
      simp only [ne_eq, reduceCtorEq, not_false_eq_true, Answer.returned.injEq, Encoded.bytes.injEq,
        forall_eq', true_and]
      cases hdecode : codec.decode b limits with
      | timeout => exact iff_of_true (lossless_fallback _ _) ⟨by simp, by simp⟩
      | validation => exact iff_of_true (lossless_fallback _ _) ⟨by simp, by simp⟩
      | failed => exact iff_of_true (lossless_fallback _ _) ⟨by simp, by simp⟩
      | interrupted => exact iff_of_false (not_lossless_error .interrupted) fun h => h.1 rfl
      | returned d =>
        simp only [reduceCtorEq, not_false_eq_true, Answer.returned.injEq, forall_eq', true_and]
        cases d with
        | envelope => exact deliver_envelope hsha htree hhash
        | other => exact deliver_other

end Exchange

/-! ## What validation raises -/

section Visit

variable {limits : BridgeLimits}

mutual

theorem visit_ne_value : (v : Value F.Val) → ∀ depth count, visit limits v depth count ≠ .error .value
  | .none, _, _ | .bool _, _, _ | .int _, _, _ => by
    simp only [visit]
    split <;> rintro ⟨⟩
  | .float _, _, _ => by
    simp only [visit]
    split
    · rintro ⟨⟩
    · split <;> rintro ⟨⟩
  | .str _, _, _ => by
    simp only [visit]
    split
    · rintro ⟨⟩
    split
    · rintro ⟨⟩
    · split <;> rintro ⟨⟩
  | .list vs, depth, count => by
    simp only [visit]
    split
    · rintro ⟨⟩
    split
    · rintro ⟨⟩
    · exact visitItems_ne_value vs _ _
  | .dict entries, depth, count => by
    simp only [visit]
    split
    · rintro ⟨⟩
    split
    · rintro ⟨⟩
    · exact visitEntries_ne_value entries _ _
  | .foreign _ _, _, _ => by
    simp only [visit]
    split <;> rintro ⟨⟩

theorem visitItems_ne_value : (vs : List (Value F.Val)) →
    ∀ depth count, visitItems limits vs depth count ≠ .error .value
  | [], _, _ => by rintro ⟨⟩
  | v :: vs, depth, count => by
    simp only [visitItems, bind, Except.bind]
    cases h : visit limits v depth count with
    | error => exact fun heq => visit_ne_value v depth count (h.trans heq)
    | ok n => exact visitItems_ne_value vs depth n

theorem visitEntries_ne_value : (entries : List (Text × Value F.Val)) →
    ∀ depth count, visitEntries limits entries depth count ≠ .error .value
  | [], _, _ => by rintro ⟨⟩
  | (_, v) :: entries, depth, count => by
    simp only [visitEntries, bind, Except.bind]
    cases h : visit limits v depth count with
    | error => exact fun heq => visit_ne_value v depth count (h.trans heq)
    | ok n => exact visitEntries_ne_value entries depth n

end

variable {d : Datum F.Val}

theorem canonicalJsonBytes_error {r : Raised} (h : canonicalJsonBytes d = .error r) :
    ∃ message, r = .validation message := by
  unfold canonicalJsonBytes at h
  split at h
  · cases h
  · cases h
    exact ⟨_, rfl⟩

theorem bind_eq_error {ε α β : Type} {x : Except ε α} {f : α → Except ε β} {e : ε} :
    x >>= f = .error e ↔ x = .error e ∨ ∃ a, x = .ok a ∧ f a = .error e := by
  cases x with
  | error => simp [Bind.bind, Except.bind]
  | ok => simp [Bind.bind, Except.bind]

theorem nonEmpty_ne_value {field : String} : nonEmpty d field ≠ .error .value := by
  unfold nonEmpty
  split
  · split <;> rintro ⟨⟩
  · rintro ⟨⟩

theorem validateJson_ne_value {payload : Bool} : validateJson limits d payload ≠ .error .value := by
  intro h
  rcases bind_eq_error.mp h with h | ⟨_, -, h⟩
  · exact visit_ne_value d.value 0 0 h
  · split at h
    · rcases bind_eq_error.mp h with h | ⟨_, -, h⟩
      · obtain ⟨_, h⟩ := canonicalJsonBytes_error h
        cases h
      · split at h <;> cases h
    · cases h

theorem fromProtocol_error {r : Raised} (h : StructuredArtifact.fromProtocol d limits = .error r) :
    r = .unicodeEncode ∨ ∃ message, r = .validation message := by
  have hne : r ≠ .value := by
    rintro rfl
    unfold StructuredArtifact.fromProtocol at h
    split at h
    · split at h
      · rcases bind_eq_error.mp h with h | ⟨_, -, h⟩
        · exact validateJson_ne_value h
        rcases bind_eq_error.mp h with h | ⟨_, -, h⟩
        · exact nonEmpty_ne_value h
        rcases bind_eq_error.mp h with h | ⟨_, -, h⟩
        · exact nonEmpty_ne_value h
        · cases h
      · cases h
    · cases h
    · cases h
  cases r with
  | validation message => exact .inr ⟨message, rfl⟩
  | unicodeEncode => exact .inl rfl
  | value => exact absurd rfl hne

end Visit

section Exchange

variable {req : Request F}

theorem send_lossless (hsha : Function.Injective sha256Hex) {limits : BridgeLimits} {selected : Selected}
    {codec : Codec F} :
    Lossless req.source (send sha256Hex req limits selected codec) ↔
      StructuredArtifact.fromProtocol req.source.toProtocol limits ≠ .error .unicodeEncode ∧
      ∀ bytes hash, StructuredArtifact.fromProtocol req.source.toProtocol limits = .ok req.source →
        canonicalJsonBytes req.source.toProtocol = .ok bytes →
        bytes.length ≤ min selected.maxPayloadBytes limits.maxPayloadBytes →
        (envelopeOf req selected req.source).envelopeSha256 sha256Hex = .ok hash →
        codec.Sound sha256Hex limits (envelopeOf req selected req.source) hash := by
  unfold send
  cases hvalid : StructuredArtifact.fromProtocol req.source.toProtocol limits with
  | error =>
    obtain rfl | ⟨message, rfl⟩ := fromProtocol_error hvalid
    · exact iff_of_false (not_lossless_error _) fun h => h.1 rfl
    · exact iff_of_true (lossless_fallback _ _) ⟨by simp, by simp⟩
  | ok =>
    obtain ⟨rfl, hcontent⟩ := fromProtocol_toProtocol.mp hvalid
    have htree : req.source.content.value.Tree :=
      tree_of_leaves _ req.source.content.distinct (validateJson_payload.mp hcontent).2.2.2.1
    simp only [ne_eq, reduceCtorEq, not_false_eq_true, true_and, true_implies]
    cases hbytes : canonicalJsonBytes req.source.toProtocol with
    | error =>
      obtain ⟨message, rfl⟩ := canonicalJsonBytes_error hbytes
      exact iff_of_true (lossless_fallback _ _) (by simp)
    | ok bytes =>
      by_cases hlen : min selected.maxPayloadBytes limits.maxPayloadBytes < bytes.length
      · simp only [if_pos hlen]
        refine iff_of_true (lossless_fallback _ _) ?_
        rintro _ _ ⟨⟩ hle
        omega
      simp only [if_neg hlen]
      cases hhash : (envelopeOf req selected req.source).envelopeSha256 sha256Hex with
      | error r =>
        obtain ⟨message, rfl⟩ : ∃ message, r = .validation message := by
          cases h : canonicalJsonBytes (envelopeOf req selected req.source).bodyProtocol with
          | error =>
            simp only [BridgeEnvelope.envelopeSha256, h, bind, Except.bind, Except.error.injEq] at hhash
            exact hhash ▸ canonicalJsonBytes_error h
          | ok => simp [BridgeEnvelope.envelopeSha256, h, bind, Except.bind] at hhash
        exact iff_of_true (lossless_fallback _ _) (by simp)
      | ok hash =>
        rw [show req.source = (envelopeOf req selected req.source).payload from rfl] at htree
        refine (transmit_lossless hsha htree hhash).trans ⟨?_, ?_⟩
        · rintro h _ _ ⟨⟩ - ⟨⟩
          exact h
        · intro h
          exact h bytes hash rfl (Nat.le_of_not_lt hlen) rfl

/-- **An exchange is lossless, or falls back**, exactly when the request is covered: whatever the configuration, the
peers, the source and the answers of the codec. -/
theorem exchange_lossless_iff (hsha : Function.Injective sha256Hex) (config : BridgeConfig)
    (codecs : Text → Option (Codec F)) :
    Lossless req.source (exchange sha256Hex req config codecs) ↔ Covered sha256Hex req config codecs := by
  unfold exchange Covered
  by_cases henabled : config.enabled = true
  swap
  · rw [if_pos henabled]
    exact iff_of_true (lossless_fallback _ _) fun _ _ h => absurd h henabled
  rw [if_neg (not_not_intro henabled)]
  by_cases hallowed : req.context.bridgeAllowed = true
  swap
  · rw [if_pos hallowed]
    exact iff_of_true (lossless_fallback _ _) fun _ _ _ h => absurd h hallowed
  rw [if_neg (not_not_intro hallowed)]
  cases hnegotiate : negotiate req.sender req.receiver with
  | error reason => exact iff_of_true (lossless_fallback _ _) (by simp)
  | ok selected =>
    cases hcodec : codecs selected.codecId with
    | none =>
      simp only [hcodec]
      refine iff_of_true (lossless_fallback _ _) ?_
      rintro _ _ _ _ ⟨⟩ h
      rw [hcodec] at h
      cases h
    | some codec =>
      simp only [hcodec]
      rw [send_lossless hsha]
      constructor
      · rintro h _ codec' _ _ ⟨⟩ hc
        obtain rfl : codec = codec' := Option.some.inj (hcodec.symm.trans hc)
        exact h
      · intro h
        exact h selected codec henabled hallowed rfl hcodec

/-- The identity codec returns an envelope of JSON, if it returns one. -/
theorem identityCodec_sound (limits : BridgeLimits) (envelope : BridgeEnvelope F) (hash : Text) :
    (identityCodec sha256Hex).Sound sha256Hex limits envelope hash := by
  refine ⟨?_, ?_, fun b _ => ⟨?_, fun d hd => ?_⟩⟩
  · simp only [identityCodec]
    split <;> rintro ⟨⟩
  · simp only [identityCodec]
    split <;> rintro ⟨⟩
  · simp only [identityCodec]
    split
    · split <;> rintro ⟨⟩
    · rintro ⟨⟩
    · rintro ⟨⟩
  · simp only [identityCodec] at hd
    split at hd
    · next e he =>
      split at hd
      · cases hd
      · cases hd
        obtain ⟨-, raw, -, -, -, -, hpayload, h, -, hhash⟩ := fromBytes_ok.mp he
        obtain ⟨-, hcontent, -, -⟩ := fromProtocol_ok.mp hpayload
        obtain ⟨heq, -, -, hleaves, -⟩ := validateJson_payload.mp hcontent
        rw [← heq] at hleaves
        exact fun _ => ⟨h, hhash, fun _ => tree_of_leaves _ e.payload.content.distinct hleaves⟩
    · cases hd
    · cases hd

end Exchange

/-! ## Two exchanges -/

def peer (name : NonEmpty) : BridgeCapabilities where
  peerId := name
  versions := [lit "fabric-bridge/1.0"]
  codecs := [identityCodecId]
  maxPayloadBytes := 131072
  available := true
  positive := by decide
  versions_valid := by decide
  codecs_valid := by decide

/-- The request to send a content from `a` to `b`. -/
def noteRequest (content : Datum wholeFloats.Val) : Request wholeFloats where
  exchangeId := lit "x1"
  messageId := lit "m1"
  sender := peer ⟨lit "a", by decide⟩
  receiver := peer ⟨lit "b", by decide⟩
  context := { taskId := ⟨lit "t1", by decide⟩, authorities := [] }
  source := (note content).payload

/-- A string with a lone surrogate. -/
def unsendable : Datum wholeFloats.Val where
  value := .dict [(lit "finding", .str [codePoint 0xD800])]
  distinct := ⟨by decide, trivial, trivial⟩

def findingArtifact : List Byte :=
  (utf8Encode (lit "\x7b\"artifactID\":\"a1\",\"artifactType\":\"note\"," ++
    lit "\"content\":\x7b\"a\":null,\"z\":[1,2.0,\"é\\n\"]\x7d\x7d")).getD []

def findingBody : List Byte :=
  (utf8Encode (lit "\x7b\"bridgeVersion\":\"fabric-bridge/1.0\",\"codecID\":\"identity-json/1.0\"," ++
    lit "\"messageID\":\"m1\",\"payload\":\x7b\"artifactID\":\"a1\",\"artifactType\":\"note\"," ++
    lit "\"content\":\x7b\"a\":null,\"z\":[1,2.0,\"é\\n\"]\x7d\x7d," ++
    lit "\"receiverID\":\"b\",\"senderID\":\"a\",\"taskID\":\"t1\"\x7d")).getD []

def artifactDigest : Text := lit "186f5f71a524da030cc2ba841546280f757d990347f7286ab0b44c5258ee7e84"

def bodyDigest : Text := lit "2cbab6dfafb705d030021b252f3da0e10280134356eb5814000b7beaedab8591"

/-- The digests of the artifact and of the envelope, and marked bytes for everything else. -/
def findingHash (b : List Byte) : Text :=
  if b = findingArtifact then artifactDigest
  else if b = findingBody then bodyDigest
  else ch '#' :: b.map fun x => codePoint x.val

theorem findingHash_injective : Function.Injective findingHash := by
  have hmap : Function.Injective fun x : Byte => codePoint x.val := by
    intro x y hxy
    have hval := congrArg Fin.val hxy
    simp only [codePoint, Fin.val_ofNat] at hval
    rw [Nat.mod_eq_of_lt (by omega), Nat.mod_eq_of_lt (by omega)] at hval
    exact Fin.ext hval
  have hdigests : artifactDigest ≠ bodyDigest := by decide
  have hartifact : ∀ t, artifactDigest ≠ ch '#' :: t := fun t h =>
    absurd (congrArg List.head? h) (by decide : artifactDigest.head? ≠ some (ch '#'))
  have hbody : ∀ t, bodyDigest ≠ ch '#' :: t := fun t h =>
    absurd (congrArg List.head? h) (by decide : bodyDigest.head? ≠ some (ch '#'))
  intro x y hxy
  unfold findingHash at hxy
  by_cases hx : x = findingArtifact
  · by_cases hy : y = findingArtifact
    · rw [hx, hy]
    · by_cases hy' : y = findingBody
      · rw [if_pos hx, if_neg hy, if_pos hy'] at hxy
        exact absurd hxy hdigests
      · rw [if_pos hx, if_neg hy, if_neg hy'] at hxy
        exact absurd hxy (hartifact _)
  by_cases hx' : x = findingBody
  · by_cases hy : y = findingArtifact
    · rw [if_neg hx, if_pos hx', if_pos hy] at hxy
      exact absurd hxy.symm hdigests
    · by_cases hy' : y = findingBody
      · rw [hx', hy']
      · rw [if_neg hx, if_pos hx', if_neg hy, if_neg hy'] at hxy
        exact absurd hxy (hbody _)
  by_cases hy : y = findingArtifact
  · rw [if_neg hx, if_neg hx', if_pos hy] at hxy
    exact absurd hxy.symm (hartifact _)
  by_cases hy' : y = findingBody
  · rw [if_neg hx, if_neg hx', if_neg hy, if_pos hy'] at hxy
    exact absurd hxy.symm (hbody _)
  rw [if_neg hx, if_neg hx', if_neg hy, if_neg hy'] at hxy
  exact List.map_injective_iff.mpr hmap (List.tail_eq_of_cons_eq hxy)

/-- A lone surrogate in the source escapes the exchange as `UnicodeEncodeError`, with the codec of the repository. -/
theorem surrogate_escapes : ¬ Lossless (noteRequest unsendable).source
    (exchange findingHash (noteRequest unsendable) { enabled := true } (defaultCodecs findingHash)) := by
  have hraised : exchange findingHash (noteRequest unsendable) { enabled := true } (defaultCodecs findingHash) =
      .error (.raised .unicodeEncode) := rfl
  rw [hraised]
  exact not_lossless_error _

theorem exchange_lossless_finding : Lossless (noteRequest finding).source
    (exchange findingHash (noteRequest finding) { enabled := true } (defaultCodecs findingHash)) := by
  obtain ⟨payload, hvalid⟩ := exists_of_isOk
    (x := StructuredArtifact.fromProtocol (noteRequest finding).source.toProtocol {}) (by decide +kernel)
  refine (exchange_lossless_iff findingHash_injective { enabled := true } _).mpr ?_
  intro selected codec _ _ _ hcodec
  refine ⟨by rw [hvalid]; rintro ⟨⟩, fun _ hash _ _ _ _ => ?_⟩
  unfold defaultCodecs at hcodec
  split at hcodec
  · cases hcodec
    exact identityCodec_sound _ _ hash
  · cases hcodec

end AgentFabric.Bridge
