import AgentFabric.Bootstrap.Progress
import AgentFabric.Domain
import AgentFabric.Native.Redact

/-!
# The evidence of a bootstrap step

The constructor of a step result refuses evidence with material that has the shape of a command or of a credential. It
receives a value of Python, which `json.dumps` may or may not write: a tuple is a sequence, and a key need not be a
text.
-/

namespace AgentFabric.Bootstrap

open AgentFabric.Lib AgentFabric.Store.Redaction AgentFabric.Native

/-! ## What the constructor receives -/

/-- A key of a dictionary; of other keys there are `str(key)` and `repr(key)`. -/
inductive Key (φ : Type) where
  | text (t : Text)
  | int (n : Int)
  | bool (b : Bool)
  | float (x : φ)
  | none
  | other (shown represented : Text)

/-- A value as `_safe_json` walks it. Of the sequences the lists and tuples are written, of the mappings the
dictionaries. -/
inductive Evidence (φ : Type) where
  | none
  | bool (b : Bool)
  | int (n : Int)
  | float (x : φ)
  | str (t : Text)
  | sequence (written : Bool) (items : List (Evidence φ))
  | mapping (written : Bool) (entries : List (Key φ × Evidence φ))
  | other

/-- What the constructor of a result receives. -/
structure StepInput (P : Platform) where
  schemaVersion : Int
  runId : Text
  stepId : Text
  idempotencyKey : Text
  outcome : Outcome
  executionMode : ExecutionMode
  actor : Text
  observedAt : Stamp
  evidence : Evidence P.floats.Val
  authorization : Option AuthorizationReference

inductive InitError where
  | valueError (message : Text)
  /-- The encoder raises a `TypeError` or a `ValueError`. -/
  | unwritable
deriving DecidableEq

/-! ## What is refused -/

/-- The tables of the standard library above ASCII, with the characters that are written as they are. -/
structure TextTables extends UnicodeTables where
  isPrintable : CodePoint → Bool

def forbiddenKeyIdentities : List Text := [
  "accesstoken", "apikey", "argv", "authorization", "authorizationheader", "bearer", "bearertoken", "clientsecret",
  "command", "cookie", "credential", "credentials", "oauth", "oauthsecret", "oauthtoken", "password", "passwordhash",
  "privatekey", "refreshtoken", "secret", "secretkey", "sessioncookie", "sessiontoken", "shell", "signature",
  "token"].map lit

/-- `[A-Za-z0-9._~-]` under `(?i)`. -/
def isBearerLetter (c : CodePoint) : Bool :=
  isAlnum c || decide (c ∈ lit "._~-") || ['i', 'k', 's'].any (ignoreCase · c)

/-- `(?i)(?:token|api[_-]?key|password|secret|authorization)\s*[:=]` -/
def namedText : Regex CodePoint :=
  .seq (.choice [named "token", .seq (named "api") (.seq joiner (named "key")), named "password", named "secret",
    named "authorization"]) (.seq spaces (.one isSeparator))

/-- `(?i)bearer\s+[A-Za-z0-9._~-]{8,}` -/
def bearerText : Regex CodePoint := .seq (named "bearer") (.seq (.many Lib.isSpace 1) (.many isBearerLetter 8))

/-- The patterns for texts; `forbiddenKeyIdentities`: the keys that are refused in every spelling. -/
def credentialText (u : UnicodeTables) : List (Regex CodePoint) := [namedText, (keyRule u).removed, bearerText]

def keyIdentity (u : UnicodeTables) (key : Text) : Text := compactKeyIdentity u key

def hexText : Nat → Nat → Text
  | 0, _ => []
  | width + 1, n => hexText width (n / 16) ++ [hexDigit (n % 16)]

def reprChar (u : TextTables) (quote c : CodePoint) : Text :=
  if c = quote ∨ c = ch '\\' then [ch '\\', c]
  else if c = ch '\t' then lit "\\t"
  else if c = ch '\n' then lit "\\n"
  else if c = ch '\r' then lit "\\r"
  else if c.val < 0x20 ∨ c.val = 0x7F then lit "\\x" ++ hexText 2 c.val
  else if c.val < 0x7F ∨ u.isPrintable c then [c]
  else if c.val ≤ 0xFF then lit "\\x" ++ hexText 2 c.val
  else if c.val ≤ 0xFFFF then lit "\\u" ++ hexText 4 c.val
  else lit "\\U" ++ hexText 8 c.val

/-- `repr` of a string. -/
def reprText (u : TextTables) (s : Text) : Text :=
  let quote := if codePoint 0x27 ∈ s ∧ ch '"' ∉ s then ch '"' else codePoint 0x27
  quote :: s.flatMap (reprChar u quote) ++ [quote]

/-- What `int.__str__` raises. -/
def tooManyDigits : Text :=
  lit ("Exceeds the limit (4300 digits) for integer string conversion; " ++
    "use sys.set_int_max_str_digits() to increase the limit")

def boolText (b : Bool) : Text := if b then lit "True" else lit "False"

variable (u : TextTables) (P : Platform)

/-- `str(key)` -/
def Key.shown : Key P.floats.Val → Except Text Text
  | .text t => .ok t
  | .int n => orRaise (intText n) tooManyDigits
  | .bool b => .ok (boolText b)
  | .float x => .ok (P.floatStr x)
  | .none => .ok (lit "None")
  | .other shown _ => .ok shown

/-- `repr(key)`, where `str(key)` is known. -/
def Key.represented (shown : Text) : Key P.floats.Val → Text
  | .text t => reprText u t
  | .other _ represented => represented
  | _ => shown

mutual

/-- `_safe_json`; an error is the message of the `ValueError`. -/
def safeJson (path : Text) : Evidence P.floats.Val → Except Text Unit
  | .mapping _ entries => safeEntries path entries
  | .sequence _ items => safeItems path 0 items
  | .str text =>
    ensure ((credentialText u.toUnicodeTables).any (·.search text) = false)
      (path ++ lit " contains credential-shaped text")
  | .other => .error (path ++ lit " contains a non-JSON value")
  | .none | .bool _ | .int _ | .float _ => .ok ()

def safeEntries (path : Text) : List (Key P.floats.Val × Evidence P.floats.Val) → Except Text Unit
  | [] => .ok ()
  | (key, child) :: entries => do
    let shown ← key.shown P
    ensure (keyIdentity u.toUnicodeTables shown ∉ forbiddenKeyIdentities)
      (path ++ lit " contains prohibited field " ++ key.represented u P shown)
    safeJson (path ++ ch '.' :: shown) child
    safeEntries path entries

def safeItems (path : Text) (index : Nat) : List (Evidence P.floats.Val) → Except Text Unit
  | [] => .ok ()
  | child :: items => do
    safeJson (path ++ (ch '[' :: natText index ++ [ch ']'])) child
    safeItems path (index + 1) items

end

/-! ## What is written -/

def Key.written : Key P.floats.Val → Option Text
  | .text t => some t
  | .int n => intText n
  | .bool b => some (if b then lit "true" else lit "false")
  | .float x => some (if P.floats.isFinite x then P.floats.repr x else P.floats.word x)
  | .none => some (lit "null")
  | .other _ _ => Option.none

def Key.isText {φ : Type} : Key φ → Bool
  | .text _ => true
  | _ => false

def Key.isNumber {φ : Type} : Key φ → Bool
  | .int _ | .bool _ | .float _ => true
  | _ => false

/-- Keys of two kinds cannot be sorted. -/
def sortable {φ : Type} (keys : List (Key φ)) : Bool :=
  decide (keys.length ≤ 1) || keys.all Key.isText || keys.all Key.isNumber

mutual

/-- The value that `json.dumps` writes, if it can be written; its keys are sorted as texts. -/
def jsonValue : Evidence P.floats.Val → Option P.Json
  | .none => some .none
  | .bool b => some (.bool b)
  | .int n => some (.int n)
  | .float x => some (.float x)
  | .str t => some (.str t)
  | .sequence written items => if written then (jsonItems items).map .list else none
  | .mapping written entries =>
    if written && sortable (entries.map Prod.fst) then (jsonEntries entries).map .dict else none
  | .other => none

def jsonItems : List (Evidence P.floats.Val) → Option (List P.Json)
  | [] => some []
  | item :: items => do
    let value ← jsonValue item
    let values ← jsonItems items
    return value :: values

def jsonEntries : List (Key P.floats.Val × Evidence P.floats.Val) → Option (List (Text × P.Json))
  | [] => some []
  | (key, child) :: entries => do
    let name ← key.written P
    let value ← jsonValue child
    let values ← jsonEntries entries
    return (name, value) :: values

end

variable {P}

def StepInput.toProtocol (s : StepInput P) (evidence : P.Json) : P.Json :=
  .dict [(lit "schemaVersion", .int s.schemaVersion), (lit "runID", .str s.runId), (lit "stepID", .str s.stepId),
    (lit "idempotencyKey", .str s.idempotencyKey), (lit "outcome", .str s.outcome.value),
    (lit "executionMode", .str s.executionMode.value), (lit "actor", .str s.actor),
    (lit "observedAt", .str s.observedAt.text), (lit "evidence", evidence),
    (lit "authorization", match s.authorization with
      | some a => a.toProtocol P
      | none => .none)]

/-- `BootstrapStepResult.__post_init__` -/
def postInit (s : StepInput P) : Except InitError Unit := do
  ensure (s.schemaVersion = 1) (.valueError (lit "unsupported bootstrap step-result schema version"))
  [(lit "run_id", s.runId), (lit "step_id", s.stepId), (lit "idempotency_key", s.idempotencyKey),
    (lit "actor", s.actor)].forM fun field =>
      ensure (isIdentifier field.2 = true) (.valueError (field.1 ++ lit " must be a machine identifier"))
  (safeJson u P (lit "result") s.evidence).mapError .valueError
  let evidence ← orRaise (jsonValue P s.evidence) .unwritable
  -- the order of the keys does not change the length
  let document ← orRaise (canonical P (s.toProtocol evidence)) .unwritable
  ensure (document.length ≤ maxResultBytes) (.valueError (lit "bootstrap result exceeds the bounded evidence size"))

/-! ## Values in the evidence -/

section Within

variable {φ : Type} {v : Evidence φ} {p : Evidence φ → Prop}

/-- A value stands in another one, at some depth. -/
inductive Evidence.Within : Evidence φ → Evidence φ → Prop
  | self (v : Evidence φ) : Within v v
  | item {v w : Evidence φ} {written : Bool} {items : List (Evidence φ)} (hw : w ∈ items) (h : Within v w) :
    Within v (.sequence written items)
  | entry {v w : Evidence φ} {written : Bool} {key : Key φ} {entries : List (Key φ × Evidence φ)}
    (hw : (key, w) ∈ entries) (h : Within v w) : Within v (.mapping written entries)

/-- A key of a mapping at some depth. -/
def Evidence.HasKey (v : Evidence φ) (key : Key φ) : Prop :=
  ∃ written entries child, (Evidence.mapping written entries).Within v ∧ (key, child) ∈ entries

/-- Something holds of a value and of all that stands in it. -/
def Evidence.Everywhere (p : Evidence φ → Prop) (v : Evidence φ) : Prop := ∀ w, Within w v → p w

namespace Evidence

theorem everywhere_sequence {written : Bool} {items : List (Evidence φ)} : Everywhere p (.sequence written items) ↔
    p (.sequence written items) ∧ ∀ w ∈ items, Everywhere p w := by
  constructor
  · intro h
    exact ⟨h _ (.self _), fun w hw x hx => h x (.item hw hx)⟩
  · rintro ⟨hself, hitems⟩ x hx
    cases hx with
    | self => exact hself
    | item hw hx => exact hitems _ hw x hx

theorem everywhere_mapping {written : Bool} {entries : List (Key φ × Evidence φ)} :
    Everywhere p (.mapping written entries) ↔
      p (.mapping written entries) ∧ ∀ e ∈ entries, Everywhere p e.2 := by
  constructor
  · intro h
    exact ⟨h _ (.self _), fun e he x hx => h x (.entry he hx)⟩
  · rintro ⟨hself, hentries⟩ x hx
    cases hx with
    | self => exact hself
    | entry hw hx => exact hentries _ hw x hx

theorem everywhere_leaf (hsequence : ∀ written items, v ≠ .sequence written items)
    (hmapping : ∀ written entries, v ≠ .mapping written entries) : Everywhere p v ↔ p v := by
  constructor
  · intro h
    exact h v (.self v)
  · rintro hself x hx
    cases hx with
    | self => exact hself
    | item => exact absurd rfl (hsequence _ _)
    | entry => exact absurd rfl (hmapping _ _)

end Evidence

end Within

/-! ## Accepted evidence -/

variable {u : TextTables}

/-- What `safeJson` asks of a key. -/
def KeyFine (u : UnicodeTables) (P : Platform) (key : Key P.floats.Val) : Prop :=
  ∃ shown, key.shown P = .ok shown ∧ keyIdentity u shown ∉ forbiddenKeyIdentities

/-- What `safeJson` asks of one value, without the values in it. -/
def Fine (u : UnicodeTables) : Evidence P.floats.Val → Prop
  | .mapping _ entries => ∀ e ∈ entries, KeyFine u P e.1
  | .str text => ∀ pattern ∈ credentialText u, ¬ pattern.Occurs none text
  | .other => False
  | _ => True

theorem not_any_search {patterns : List (Regex CodePoint)} {text : Text} :
    patterns.any (·.search text) = false ↔ ∀ pattern ∈ patterns, ¬ pattern.Occurs none text := by
  simp only [List.any_eq_false, Regex.search_iff]

mutual

theorem safeJson_eq_ok : (path : Text) → (v : Evidence P.floats.Val) →
    (safeJson u P path v = .ok () ↔ v.Everywhere (Fine u.toUnicodeTables))
  | path, .mapping written entries => by
    rw [Evidence.everywhere_mapping, safeJson, safeEntries_eq_ok path entries]
    exact forall₂_and
  | path, .sequence written items => by
    rw [Evidence.everywhere_sequence, safeJson, safeItems_eq_ok path 0 items]
    exact (and_iff_right trivial).symm
  | path, .str text => by
    rw [Evidence.everywhere_leaf (by simp) (by simp), safeJson, Fine, ensure_eq_ok, not_any_search]
  | path, .other => by
    rw [Evidence.everywhere_leaf (by simp) (by simp), safeJson, Fine]
    simp
  | path, .none => by simp [Evidence.everywhere_leaf, safeJson, Fine]
  | path, .bool b => by simp [Evidence.everywhere_leaf, safeJson, Fine]
  | path, .int n => by simp [Evidence.everywhere_leaf, safeJson, Fine]
  | path, .float x => by simp [Evidence.everywhere_leaf, safeJson, Fine]

theorem safeEntries_eq_ok : (path : Text) → (entries : List (Key P.floats.Val × Evidence P.floats.Val)) →
    (safeEntries u P path entries = .ok () ↔ ∀ e ∈ entries,
      KeyFine u.toUnicodeTables P e.1 ∧ e.2.Everywhere (Fine u.toUnicodeTables))
  | path, [] => by simp [safeEntries]
  | path, (key, child) :: entries => by
    rw [safeEntries, List.forall_mem_cons]
    simp only [bind_eq_ok, ensure_eq_ok, KeyFine, safeEntries_eq_ok path entries]
    constructor
    · rintro ⟨shown, hshown, _, hkey, _, hchild, hrest⟩
      exact ⟨⟨⟨shown, hshown, hkey⟩, (safeJson_eq_ok _ child).mp hchild⟩, hrest⟩
    · rintro ⟨⟨⟨shown, hshown, hkey⟩, hchild⟩, hrest⟩
      exact ⟨shown, hshown, (), hkey, (), (safeJson_eq_ok _ child).mpr hchild, hrest⟩

theorem safeItems_eq_ok : (path : Text) → (index : Nat) → (items : List (Evidence P.floats.Val)) →
    (safeItems u P path index items = .ok () ↔ ∀ v ∈ items, v.Everywhere (Fine u.toUnicodeTables))
  | path, index, [] => by simp [safeItems]
  | path, index, child :: items => by
    rw [safeItems, List.forall_mem_cons, bind_eq_ok]
    simp only [safeJson_eq_ok _ child, safeItems_eq_ok path (index + 1) items, exists_const]

end

theorem forM_ensure_eq_ok {α ε : Type} {l : List α} {p : α → Prop} [DecidablePred p] {e : α → ε} {u : Unit} :
    (l.forM fun x => ensure (p x) (e x)) = .ok u ↔ ∀ x ∈ l, p x := by
  induction l with
  | nil => exact ⟨fun _ => List.forall_mem_nil _, fun _ => rfl⟩
  | cons x l ih =>
    have hcons : ((x :: l).forM fun x => ensure (p x) (e x)) = ensure (p x) (e x) >>= fun _ =>
      l.forM fun x => ensure (p x) (e x) := rfl
    rw [hcons, bind_eq_ok, List.forall_mem_cons, ← ih]
    simp only [ensure_eq_ok, exists_const]

/-- The fields of a result. -/
def StepInput.report (s : StepInput P) (evidence : List (Text × P.Json)) : StepReport P where
  runId := s.runId
  stepId := s.stepId
  idempotencyKey := s.idempotencyKey
  outcome := s.outcome
  executionMode := s.executionMode
  actor := s.actor
  observedAt := s.observedAt
  evidence := evidence
  authorization := s.authorization

variable {s : StepInput P}

theorem postInit_eq_ok : postInit u s = .ok () ↔ s.schemaVersion = 1 ∧
    (isIdentifier s.runId && isIdentifier s.stepId && isIdentifier s.idempotencyKey && isIdentifier s.actor) = true ∧
    s.evidence.Everywhere (Fine u.toUnicodeTables) ∧ ∃ evidence document, jsonValue P s.evidence = some evidence ∧
      canonical P (s.toProtocol evidence) = some document ∧ document.length ≤ maxResultBytes := by
  have hsafe : (safeJson u P (lit "result") s.evidence).mapError InitError.valueError = .ok () ↔
      s.evidence.Everywhere (Fine u.toUnicodeTables) := by
    rw [← safeJson_eq_ok (lit "result")]
    cases safeJson u P (lit "result") s.evidence <;> simp [Except.mapError]
  simp only [postInit, bind_eq_ok, ensure_eq_ok, orRaise_eq_ok, forM_ensure_eq_ok, hsafe, exists_const, exists_and_left,
    Bool.and_eq_true, List.forall_mem_cons, List.not_mem_nil, false_implies, implies_true, and_true, and_assoc]

/-- What is accepted with a dictionary as evidence has what a result is made of. -/
theorem postInit_report {entries : List (Text × P.Json)} (h : postInit u s = .ok ())
    (hevidence : jsonValue P s.evidence = some (.dict entries)) :
    (isIdentifier s.runId && isIdentifier s.stepId && isIdentifier s.idempotencyKey && isIdentifier s.actor) = true ∧
      ∃ document, canonical P ((s.report entries).toProtocol P) = some document ∧ document.length ≤ maxResultBytes := by
  obtain ⟨hversion, hidentified, -, evidence, document, hvalue, hdocument, hlength⟩ := postInit_eq_ok.mp h
  obtain rfl : evidence = .dict entries := Option.some.inj (hvalue.symm.trans hevidence)
  have hsame : s.toProtocol (.dict entries) = (s.report entries).toProtocol P := by
    rw [StepInput.toProtocol, hversion]
    rfl
  exact ⟨hidentified, document, hsame ▸ hdocument, hlength⟩

/-! ## Credentials -/

def CredentialText (u : UnicodeTables) (text : Text) : Prop := ∃ pattern ∈ credentialText u, pattern.Occurs none text

/-- At every depth no key folds to a prohibited identity, and no key and no string has the text of a credential. -/
structure CredentialFree (u : UnicodeTables) (v : Evidence P.floats.Val) : Prop where
  identities : ∀ key, v.HasKey key → ∀ shown, key.shown P = .ok shown → keyIdentity u shown ∉ forbiddenKeyIdentities
  keys : ∀ key, v.HasKey key → ∀ shown, key.shown P = .ok shown → ¬ CredentialText u shown
  strings : ∀ text, (Evidence.str text).Within v → ¬ CredentialText u text

/-- **Accepted evidence is free of credentials exactly when no key has the text of one.** -/
theorem evidence_credential_free_iff (u : TextTables) (P : Platform) (s : StepInput P) (h : postInit u s = .ok ()) :
    CredentialFree u.toUnicodeTables s.evidence ↔
      ∀ key, s.evidence.HasKey key → ∀ shown, key.shown P = .ok shown → ¬ CredentialText u.toUnicodeTables shown := by
  obtain ⟨-, -, hfine, -⟩ := postInit_eq_ok.mp h
  constructor
  · intro hfree
    exact hfree.keys
  · intro hkeys
    refine ⟨?_, hkeys, fun text hin => ?_⟩
    · rintro key ⟨written, entries, child, hin, hmem⟩ shown hshown
      obtain ⟨shown', hshown', hkey⟩ := hfine _ hin (key, child) hmem
      obtain rfl : shown = shown' := Except.ok.inj (hshown.symm.trans hshown')
      exact hkey
    · rintro ⟨pattern, hpattern, hoccurs⟩
      exact hfine _ hin pattern hpattern hoccurs

/-! ## A key with the text of a credential -/

def sampleTables : TextTables := ⟨⟨fun _ => false, fun c => [c]⟩, fun _ => false⟩

def inputOf (evidence : Evidence Unit) : StepInput samplePlatform where
  schemaVersion := 1
  runId := lit "run-1"
  stepId := lit "observe"
  idempotencyKey := lit "key-1"
  outcome := .succeeded
  executionMode := .observedOnly
  actor := lit "bootstrap"
  observedAt := sampleStamp
  evidence := evidence
  authorization := none

/-- A dictionary and a tuple in the evidence, with a number as a key. -/
def hostEvidence : Evidence Unit := .mapping true [(.text (lit "host"), .mapping true [(.text (lit "cores"),
  .sequence true [.int 8, .mapping true [(.int 0, .str (lit "idle"))]])])]

/-- A key in a dictionary in a tuple. -/
def labelledEvidence : Evidence Unit :=
  .mapping true [(.text (lit "host"), .sequence true [.mapping true [(.text (lit "token: abc"), .int 1)]])]

theorem postInit_accepts {evidence : Evidence Unit}
    (h : (postInit sampleTables (inputOf evidence)).toOption.isSome = true) :
    postInit sampleTables (inputOf evidence) = .ok () := by
  cases hinit : postInit sampleTables (inputOf evidence) with
  | error =>
    rw [hinit] at h
    cases h
  | ok => rfl

theorem hostEvidence_keys {key : Key Unit} (h : hostEvidence.HasKey key) :
    ∀ shown, key.shown samplePlatform = .ok shown →
    ¬ CredentialText sampleTables.toUnicodeTables shown := by
  have hall : ∀ name ∈ ["host", "cores", "0"].map lit,
      (credentialText sampleTables.toUnicodeTables).any (·.search name) = false := by decide +kernel
  suffices hkeys : ∃ name ∈ ["host", "cores", "0"].map lit, key.shown samplePlatform = .ok name by
    obtain ⟨name, hname, hkey⟩ := hkeys
    rintro shown hshown ⟨pattern, hpattern, hoccurs⟩
    obtain rfl : name = shown := Except.ok.inj (hkey.symm.trans hshown)
    exact not_any_search.mp (hall name hname) pattern hpattern hoccurs
  obtain ⟨written, entries, child, hin, hmem⟩ := h
  cases hin with
  | self =>
    obtain ⟨rfl, -⟩ := Prod.mk.inj (List.mem_singleton.mp hmem)
    exact ⟨_, by simp, rfl⟩
  | entry hw hin =>
    obtain ⟨-, rfl⟩ := Prod.mk.inj (List.mem_singleton.mp hw)
    cases hin with
    | self =>
      obtain ⟨rfl, -⟩ := Prod.mk.inj (List.mem_singleton.mp hmem)
      exact ⟨_, by simp, rfl⟩
    | entry hw hin =>
      obtain ⟨-, rfl⟩ := Prod.mk.inj (List.mem_singleton.mp hw)
      cases hin with
      | item hw hin =>
        simp only [List.mem_cons, List.not_mem_nil, or_false] at hw
        rcases hw with rfl | rfl
        · cases hin
        · cases hin with
          | self =>
            obtain ⟨rfl, -⟩ := Prod.mk.inj (List.mem_singleton.mp hmem)
            exact ⟨lit "0", by simp, rfl⟩
          | entry hw hin =>
            obtain ⟨-, rfl⟩ := Prod.mk.inj (List.mem_singleton.mp hw)
            cases hin

theorem evidence_credential_free_host :
    CredentialFree (P := samplePlatform) sampleTables.toUnicodeTables hostEvidence :=
  (evidence_credential_free_iff sampleTables samplePlatform (inputOf hostEvidence)
    (postInit_accepts (by decide +kernel))).mpr
    fun _ hkey => hostEvidence_keys hkey

/-- A key is not searched for the text of a credential. -/
theorem evidence_credential_labelled : ¬ ∀ (u : TextTables) (P : Platform) (s : StepInput P),
    postInit u s = .ok () → CredentialFree u.toUnicodeTables s.evidence := by
  intro hall
  have hfree := hall sampleTables samplePlatform (inputOf labelledEvidence) (postInit_accepts (by decide +kernel))
  refine hfree.keys (.text (lit "token: abc")) ?_ _ rfl ⟨namedText, List.mem_cons_self, Regex.search_iff.mp ?_⟩
  · exact ⟨true, _, .int 1, .entry List.mem_cons_self (.item List.mem_cons_self (.self _)), List.mem_cons_self⟩
  · decide +kernel

end AgentFabric.Bootstrap
