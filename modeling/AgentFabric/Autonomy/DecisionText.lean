import AgentFabric.Store.RedactedJson

/-!
# The text of a decision

A worker answers with one JSON object; it is stored as the summary of a result, redacted like any text, and read back.
-/

namespace AgentFabric.Autonomy.DecisionText

open AgentFabric.Lib AgentFabric.Store.Redaction

/-! ## The schemas -/

variable {φ : Type}

/-- White space in the schemas; the separators from 28 to 31 are none. -/
def isBlank (c : CodePoint) : Bool := Lib.isSpace c && !decide (28 ≤ c.val ∧ c.val ≤ 31)

def trim (t : Text) : Text := ((t.dropWhile isBlank).reverse.dropWhile isBlank).reverse

/-- `str_strip_whitespace`; a text with a surrogate is no valid one. -/
def stripped : Value φ → Option Text
  | .str s => if s.any (·.surrogate) = true then none else some (trim s)
  | _ => none

def boundedStr (least most : Nat) (v : Value φ) : Bool :=
  (stripped v).any fun s => decide (least ≤ s.length ∧ s.length ≤ most)

def oneOf (allowed : List String) (s : Text) : Bool := allowed.any fun a => decide (lit a = s)

def literal (allowed : List String) : Value φ → Bool
  | .str s => oneOf allowed s
  | _ => false

def boundedInt (p : Int → Bool) : Value φ → Bool
  | .int n => p n
  | _ => false

def isBool : Value φ → Bool
  | .bool _ => true
  | _ => false

/-- `dict[str, Any]` -/
def anyDict : Value φ → Bool
  | .dict entries => entries.all fun e => !e.1.any (·.surrogate)
  | _ => false

def nullable (check : Value φ → Bool) : Value φ → Bool
  | .none => true
  | v => check v

def boundedList (least most : Nat) (check : Value φ → Bool) : Value φ → Bool
  | .list items => decide (least ≤ items.length ∧ items.length ≤ most) && items.all check
  | _ => false

structure Field (φ : Type) where
  name : String
  required : Bool
  check : Value φ → Bool

/-- A strict model that forbids other fields, with its validator. -/
def model (fields : List (Field φ)) (validate : List (Text × Value φ) → Bool) : Value φ → Bool
  | .dict entries =>
    entries.all (fun e => fields.any fun f => decide (lit f.name = e.1)) &&
      fields.all (fun f => (entries.lookup (lit f.name)).elim (!f.required) f.check) && validate entries
  | _ => false

def field (entries : List (Text × Value φ)) (name : String) : Value φ := (entries.lookup (lit name)).getD .none

def strictDecision : List (Field φ) := [
  ⟨"schemaVersion", true, literal ["autonomy-decision/v1"]⟩,
  ⟨"goalID", true, boundedStr 1 200⟩,
  ⟨"iterationSequence", true, boundedInt fun n => decide (1 ≤ n)⟩,
  ⟨"steerVersion", true, boundedInt fun n => decide (0 ≤ n)⟩]

def anyStr (v : Value φ) : Bool := (stripped v).isSome

def failureReasons : List String := ["BLOCKED", "NO_PROGRESS", "ITERATION_LIMIT", "BUDGET_LIMIT", "REPEATED_FAILURE",
  "SAFETY_BOUNDARY", "PERMISSION_REQUIRED", "HUMAN_ESCALATION", "USER_STOPPED"]

def evaluationDecision : Value φ → Bool :=
  model (strictDecision ++ [
    ⟨"decisionType", true, literal ["evaluation"]⟩,
    ⟨"disposition", true, literal ["incomplete", "satisfied", "terminate"]⟩,
    ⟨"summary", true, boundedStr 1 4000⟩,
    ⟨"progressFingerprint", true, boundedStr 1 256⟩,
    ⟨"terminationReason", false, nullable anyStr⟩,
    ⟨"facts", false, anyDict⟩])
  fun entries =>
    let reason := stripped (field entries "terminationReason")
    if literal ["terminate"] (field entries "disposition") = true then reason.any (oneOf failureReasons)
      else reason.isNone

def plainStr : Value φ → Option Text
  | .str s => some s
  | _ => none

def items : Value φ → List (Value φ)
  | .list items => items
  | _ => []

/-- Identifiers that are not blank, bounded and all different. -/
def identifiers (v : Value φ) : Bool :=
  let group := (items v).filterMap plainStr
  group.all (fun s => !(strip s).isEmpty && decide (s.length ≤ 200)) && decide group.Nodup

def actionPayload : Value φ → Bool :=
  model [
    ⟨"topology", false, literal ["single", "primaryReviewer", "parallelPanel", "cheapFirstEscalation", "fallback"]⟩,
    ⟨"priority", false, boundedInt fun n => decide (0 ≤ n ∧ n ≤ 100)⟩,
    ⟨"permissionClass", false, literal ["green", "yellow", "red"]⟩,
    ⟨"labels", false, boundedList 1 8 (literal ["coding", "architecture", "research", "fastRouting", "rag", "review",
      "creative", "longContext", "privacySensitive", "highUncertainty"])⟩,
    ⟨"requiredCapabilities", false, boundedList 0 16 fun v => (plainStr v).isSome⟩,
    ⟨"minimumContextTokens", false, nullable (boundedInt fun n => decide (0 < n))⟩,
    ⟨"privacySensitive", false, isBool⟩,
    ⟨"codeWriteRequired", false, isBool⟩,
    ⟨"panelSize", false, boundedInt fun n => decide (1 ≤ n ∧ n ≤ 8)⟩,
    ⟨"preferredWorkers", false, boundedList 0 16 fun v => (plainStr v).isSome⟩]
  fun entries => identifiers (field entries "requiredCapabilities") && identifiers (field entries "preferredWorkers") &&
    decide ((items (field entries "labels")).filterMap plainStr).Nodup

/-- `^[A-Za-z0-9][A-Za-z0-9._-]*$` -/
def isActionKey : Text → Bool
  | [] => false
  | c :: s => isAlnum c && s.all fun d => isAlnum d || decide (d = ch '.' ∨ d = ch '_' ∨ d = ch '-')

def actionRoles : List String :=
  ["primary", "reviewer", "panelist", "router", "verifier", "planner", "fallback", "other"]

def plannedActionDecision : Value φ → Bool :=
  model [
    ⟨"key", true, fun v => boundedStr 1 120 v && (stripped v).any isActionKey⟩,
    ⟨"title", true, boundedStr 1 300⟩,
    ⟨"description", true, boundedStr 1 12000⟩,
    ⟨"role", false, boundedStr 1 40⟩,
    ⟨"payload", false, actionPayload⟩]
  fun entries => (stripped (field entries "role")).all (oneOf actionRoles)

def actionKey : Value φ → Option Text
  | .dict entries => stripped (field entries "key")
  | _ => none

def planDecision : Value φ → Bool :=
  model (strictDecision ++ [
    ⟨"decisionType", true, literal ["plan"]⟩,
    ⟨"summary", true, boundedStr 1 4000⟩,
    ⟨"rationale", false, boundedStr 0 8000⟩,
    ⟨"actions", true, boundedList 1 8 plannedActionDecision⟩])
  fun entries => decide ((items (field entries "actions")).filterMap actionKey).Nodup

def verificationDecision : Value φ → Bool :=
  model (strictDecision ++ [
    ⟨"decisionType", true, literal ["verification"]⟩,
    ⟨"satisfied", true, isBool⟩,
    ⟨"summary", true, boundedStr 1 4000⟩,
    ⟨"progressFingerprint", true, boundedStr 1 256⟩,
    ⟨"terminationReason", false, nullable anyStr⟩,
    ⟨"evidence", false, anyDict⟩])
  fun entries =>
    let reason := stripped (field entries "terminationReason")
    match field entries "satisfied" with
    | .bool true => reason.all (oneOf ["SUCCESS"])
    | _ => reason.all (oneOf failureReasons)

/-- The strict schemas of the driver; `model` is what they share. -/
def acceptsDecision (v : Value φ) : Bool := evaluationDecision v || planDecision v || verificationDecision v

/-! ## Reading a summary -/

variable {F : JsonFloats} {u : UnicodeTables} {text : Text} {v : Value F.Val}

/-- `json.loads` of the summary of a result, as `_execute_task` returns it. -/
def readDecision (F : JsonFloats) (summary : Text) : Except (LoadError Empty) (Value F.Val) :=
  loadsText F.toFloatFormat keepLast (strip summary)

/-- The stored text of a decision is read, as a value with the keys and the structure of the decision. -/
def Persists (F : JsonFloats) (u : UnicodeTables) (text : Text) : Prop :=
  ∃ v w, readDecision F text = .ok v ∧ readDecision F (redactText u text) = .ok w ∧ Alike Eq v w

/-- No object of the text repeats a key. -/
def Unrepeated (F : JsonFloats) (text : Text) : Prop :=
  ∃ v, loadsText F.toFloatFormat keepPairs (strip text) = .ok v ∧ v.Distinct

/-- The patterns remove no quotation mark, and every key stands for what it stood for. -/
structure Spared (u : UnicodeTables) (text : Text) : Prop where
  contained : Contained text
  keys : ∀ k ∈ keySpellings (strip text), decode (redactText u k) = decode k

theorem edited_of_read (hread : loadsText F.toFloatFormat keepPairs (strip text) = .ok v) (h : Contained text) :
    Lib.Edited (redactText u) (strip text) (strip (redactText u text)) := by
  have hlexed := (loadsText_spells hread).1
  exact (h.edited hlexed.of_strip u).strip

theorem unrepeated_of_keys (hread : readDecision F text = .ok v) (h : ((keySpellings (strip text)).map decode).Nodup) :
    Unrepeated F text := by
  obtain ⟨w, hw, -⟩ := loadsText_keepLast.mp hread
  rw [(loadsText_spells hw).2] at h
  exact ⟨w, hw, distinct_of_keys w h⟩

theorem contained_of_persists (h : Persists F u text) (hread : loadsText F.toFloatFormat keepPairs (strip text) = .ok v)
    (hd : v.Distinct) : Contained text := by
  have hle := ReadAlike.quotes_le h hread hd
  rw [quotes_strip, quotes_strip] at hle
  exact contained_of_quotes hle

/-- **Reading back.** A decision is read back with its keys and its structure where it is spared by the patterns, and
without repeated keys only there. -/
theorem persists_iff (hread : readDecision F text = .ok v) :
    (Spared u text → Persists F u text) ∧ (Unrepeated F text → Persists F u text → Spared u text) := by
  obtain ⟨w, hw, rfl⟩ := loadsText_keepLast.mp hread
  constructor
  · intro h
    exact (edited_of_read hw h.contained).readAlike hw h.keys
  · rintro ⟨w', hw', hd⟩ h
    have hcontained := contained_of_persists h hw' hd
    exact ⟨hcontained, ReadAlike.keys h (edited_of_read hw' hcontained) hw' hd⟩

/-! ## A key and a token in a summary -/

def quotedLit (s : String) : Text := ch '"' :: lit s ++ [ch '"']

def evaluationText (summary : String) : Text :=
  let members := [("schemaVersion", quotedLit "autonomy-decision/v1"), ("goalID", quotedLit "g"),
    ("iterationSequence", lit "1"), ("steerVersion", lit "0"), ("decisionType", quotedLit "evaluation"),
    ("disposition", quotedLit "incomplete"), ("summary", quotedLit summary), ("progressFingerprint", quotedLit "p")]
  lit "\x7b" ++ (lit ",").intercalate (members.map fun m => quotedLit m.1 ++ lit ":" ++ m.2) ++ lit "\x7d"

/-- A key is redacted inside of its literal. -/
theorem evaluation_with_key_persists : ∃ v, readDecision sampleFloats (evaluationText "use sk-0123456789ab") = .ok v ∧
    acceptsDecision v = true ∧ Spared asciiTables (evaluationText "use sk-0123456789ab") ∧
    Persists sampleFloats asciiTables (evaluationText "use sk-0123456789ab") := by
  have haccepted : (readDecision sampleFloats (evaluationText "use sk-0123456789ab")).toOption.any
    acceptsDecision = true := by
    decide +kernel
  have hspared : Spared asciiTables (evaluationText "use sk-0123456789ab") :=
    ⟨⟨by decide +kernel, by decide +kernel⟩, by decide +kernel⟩
  cases hread : readDecision sampleFloats (evaluationText "use sk-0123456789ab") with
  | error e =>
    rw [hread] at haccepted
    exact nomatch haccepted
  | ok v =>
    rw [hread] at haccepted
    have hpersists := (persists_iff hread).1 hspared
    have hunrepeated := unrepeated_of_keys hread (by decide +kernel)
    exact ⟨v, rfl, haccepted, (persists_iff hread).2 hunrepeated hpersists, hpersists⟩

/-- The value behind `token=` ends at the comma behind its literal. -/
theorem evaluation_with_token_lost : ¬ ∀ (F : JsonFloats) (u : UnicodeTables) (text : Text) (v : Value F.Val),
    readDecision F text = .ok v → acceptsDecision v = true → Persists F u text := by
  intro hall
  have haccepted : (readDecision sampleFloats (evaluationText "set token=abc")).toOption.any
    acceptsDecision = true := by
    decide +kernel
  have hlost : (readDecision sampleFloats (redactText asciiTables (evaluationText "set token=abc"))).toOption.isNone =
    true := by
    decide +kernel
  cases hread : readDecision sampleFloats (evaluationText "set token=abc") with
  | error e =>
    rw [hread] at haccepted
    exact nomatch haccepted
  | ok v =>
    rw [hread] at haccepted
    obtain ⟨_, w, -, hback, -⟩ := hall _ asciiTables _ v hread haccepted
    rw [hback] at hlost
    exact nomatch hlost

end AgentFabric.Autonomy.DecisionText
