import AgentFabric.Native.Capture

/-!
# Deterministic verification

The verifier of a definition of done runs the criteria of a scope one after the other; what a command printed is kept
in a file that is named after the criterion.
-/

namespace AgentFabric.Verifier

open AgentFabric.Lib AgentFabric.Store.Redaction AgentFabric.Native

/-! ## Criteria -/

inductive VerificationKind where
  | command | fileExists | jsonEquals
deriving DecidableEq

structure VerificationCriterion (φ : Type) where
  id : Text
  kind : VerificationKind
  required : Bool
  command : List Text
  relativePath : Option Text
  expected : Value φ

/-- How a command ends. -/
structure Outcome where
  exitCode : Int
  stdout : List Byte
  stderr : List Byte
  timedOut : Bool

/-- A file that cannot be read as JSON: an `OSError` or a `JSONDecodeError`, or bytes that are not UTF-8. -/
inductive ReadError where
  | unread (message : Text)
  | undecoded

/-- What the verifier asks of the machine: the resolved path of an executable and whether it exists, the resolved path
of a relative one that stays in the workspace, files, the equality of JSON values, commands that start or do not,
digests. -/
structure Machine (φ : Type) where
  locate : Text → Text × Bool
  resolve : Text → Option Text
  isFile : Text → Bool
  readJson : Text → Except ReadError (Value φ)
  equal : Value φ → Value φ → Bool
  run : VerificationCriterion φ → Except Text Outcome
  sha256 : List Byte → Text

structure CommandEvidence where
  argv : List Text
  exitCode : Int
  timedOut : Bool
  stdoutSha256 : Text
  stderrSha256 : Text
  stdout : Text
  stderr : Text
deriving DecidableEq

inductive Evidence (φ : Type) where
  | missing
  | command (path : Text) (evidence : CommandEvidence)
  | file (path : Text) (found : Bool)
  | unread (path : Text)
  | json (path : Text) (actual expected : Value φ)

structure VerificationResult (φ : Type) where
  criterionId : Text
  passed : Bool
  summary : Text
  exitCode : Option Int
  evidence : Evidence φ

/-- What ends a run: a `VerificationPolicyError`, the `OSError` of a command that does not start, or a
`UnicodeDecodeError`. -/
inductive VerificationError where
  | policy (message : String)
  | operatingSystem (message : Text)
  | unicodeDecode
deriving DecidableEq

structure DefinitionOfDoneResult (φ : Type) where
  complete : Bool
  results : List (VerificationResult φ)
  requiredFailures : List Text

/-- A file that is written, for a criterion. -/
structure Write where
  criterionId : Text
  path : Text
  evidence : CommandEvidence
deriving DecidableEq

/-! ## The name of a file -/

/-- `[A-Za-z0-9_.-]` -/
def isSafe (c : CodePoint) : Bool := isAlnum c || decide (c = ch '_' ∨ c = ch '.' ∨ c = ch '-')

def safeId (id : Text) : Text := id.map fun c => if isSafe c then c else ch '_'

def evidencePath (root id : Text) : Text := root ++ ch '/' :: (safeId id ++ lit ".json")

/-- A letter that is, or becomes, an underscore. -/
def Blurred (c : CodePoint) : Prop := c = ch '_' ∨ isSafe c = false

instance : DecidablePred Blurred := fun _ => inferInstanceAs (Decidable (_ ∨ _))

/-- Identifiers that differ in blurred letters only. -/
def Alike (a b : Text) : Prop := List.Forall₂ (fun x y => x = y ∨ Blurred x ∧ Blurred y) a b

instance (a b : Text) : Decidable (Alike a b) := inferInstanceAs (Decidable (List.Forall₂ _ a b))

/-- A file of a directory itself. -/
def Inside (root path : Text) : Prop :=
  ∃ name, path = root ++ ch '/' :: name ∧ ch '/' ∉ name ∧ ch '\x00' ∉ name ∧ name ≠ lit "." ∧ name ≠ lit ".."

theorem safe_eq_iff (x y : CodePoint) : (if isSafe x then x else ch '_') = (if isSafe y then y else ch '_') ↔
    x = y ∨ Blurred x ∧ Blurred y := by
  have hmark : isSafe (ch '_') = true := by decide
  unfold Blurred
  by_cases hx : isSafe x = true <;> by_cases hy : isSafe y = true
  · simp only [hx, hy, if_true]
    grind
  · simp only [hx, hy, if_true]
    grind
  · simp only [hx, hy, if_true]
    grind
  · simp [hx, hy]

/-- **Two identifiers share a name** exactly when they differ in blurred letters only. -/
theorem safeId_eq_iff (a b : Text) : safeId a = safeId b ↔ Alike a b := by
  induction a generalizing b with
  | nil => cases b <;> simp [safeId, Alike]
  | cons x a ih =>
    cases b with
    | nil => simp [safeId, Alike]
    | cons y b =>
      have hrest : safeId a = safeId b ↔ List.Forall₂ (fun x y => x = y ∨ Blurred x ∧ Blurred y) a b := ih b
      simp only [safeId, List.map_cons, List.cons.injEq, safe_eq_iff, Alike, List.forall₂_cons] at hrest ⊢
      rw [hrest]

theorem evidencePath_eq_iff (root a b : Text) : evidencePath root a = evidencePath root b ↔ Alike a b := by
  rw [← safeId_eq_iff]
  simp [evidencePath]

theorem safeId_safe (id : Text) : ∀ c ∈ safeId id, isSafe c = true := by
  intro c hc
  obtain ⟨x, -, rfl⟩ := List.mem_map.mp hc
  split
  · assumption
  · decide

theorem evidencePath_inside (root id : Text) : Inside root (evidencePath root id) := by
  have hclean : ∀ c, isSafe c = false → c ∉ lit ".json" → c ∉ safeId id ++ lit ".json" := by
    intro c hc hjson hmem
    rcases List.mem_append.mp hmem with hmem | hmem
    · rw [safeId_safe id c hmem] at hc
      exact nomatch hc
    · exact hjson hmem
  have hlen : 5 ≤ (safeId id ++ lit ".json").length := by
    rw [List.length_append]
    exact Nat.le_add_left 5 _
  refine ⟨_, rfl, hclean _ (by decide) (by decide), hclean _ (by decide) (by decide), fun h => ?_, fun h => ?_⟩
  · rw [h] at hlen
    exact absurd hlen (by decide)
  · rw [h] at hlen
    exact absurd hlen (by decide)

/-! ## The criteria of a scope -/

variable {φ : Type}

/-- The first pattern of `_redact`. -/
def authorizationValue : Rule CodePoint where
  kept := .seq (named "authorization") (.seq spaces (.seq (.one isSeparator) spaces))
  removed := .many (fun c => !Lib.isSpace c) 1

/-- The second pattern of `_redact`. -/
def tokenValue : Rule CodePoint where
  kept := .seq (.choice [.seq (named "api") (.seq joiner (named "key")),
    .seq (named "access") (.seq joiner (named "token")), .seq (named "refresh") (.seq joiner (named "token")),
    named "cookie"]) (.seq spaces (.seq (.one isSeparator) spaces))
  removed := .many (fun c => !Lib.isSpace c) 1

def redactOutput (text : Text) : Text := tokenValue.substitute redacted (authorizationValue.substitute redacted text)

/-- `text[-4000:]` -/
def lastPart (text : Text) : Text := text.drop (text.length - 4000)

def commandEvidence (machine : Machine φ) (criterion : VerificationCriterion φ) (outcome : Outcome) : CommandEvidence :=
  let stdout := if outcome.timedOut then [] else outcome.stdout
  let stderr := if outcome.timedOut then ((utf8Encode (lit "verification timed out")).getD []) else outcome.stderr
  { argv := criterion.command
    exitCode := outcome.exitCode
    timedOut := outcome.timedOut
    stdoutSha256 := machine.sha256 stdout
    stderrSha256 := machine.sha256 stderr
    stdout := lastPart (redactOutput (utf8Replace stdout))
    stderr := lastPart (redactOutput (utf8Replace stderr)) }

/-- The executable of a command is a path that does not exist. -/
def unlocated (machine : Machine φ) (executable : Text) : Bool :=
  decide (ch '/' ∈ executable) && !(machine.locate executable).2

def write (machine : Machine φ) (root : Text) (criterion : VerificationCriterion φ) (outcome : Outcome) : Write where
  criterionId := criterion.id
  path := evidencePath root criterion.id
  evidence := commandEvidence machine criterion outcome

/-- `_command`, with the file that it writes. -/
def command (machine : Machine φ) (root : Text) (criterion : VerificationCriterion φ) :
    Except VerificationError (VerificationResult φ × List Write) :=
  match criterion.command with
  | [] => .error (.policy "command criterion requires argv")
  | executable :: _ =>
    if unlocated machine executable then
      .ok ({ criterionId := criterion.id
             passed := false
             summary := lit "executable not found: " ++ (machine.locate executable).1
             exitCode := none
             evidence := .missing }, [])
    else do
      let outcome ← (machine.run criterion).mapError .operatingSystem
      let written := write machine root criterion outcome
      let passed := !written.evidence.timedOut && decide (written.evidence.exitCode = 0)
      .ok ({ criterionId := criterion.id
             passed := passed
             summary := if passed then lit "command passed" else lit "command failed"
             exitCode := some written.evidence.exitCode
             evidence := .command written.path written.evidence }, [written])

def resolveRelative (machine : Machine φ) : Option Text → Except VerificationError Text
  | none | some [] => .error (.policy "file criterion requires relative_path")
  | some relative =>
    match machine.resolve relative with
    | none => .error (.policy "verification path escapes workspace")
    | some path => .ok path

def fileExists (machine : Machine φ) (criterion : VerificationCriterion φ) :
    Except VerificationError (VerificationResult φ) := do
  let path ← resolveRelative machine criterion.relativePath
  let passed := machine.isFile path
  return { criterionId := criterion.id
           passed := passed
           summary := lit "file " ++ (if passed then lit "exists" else lit "missing") ++ lit ": " ++
             criterion.relativePath.getD []
           exitCode := none
           evidence := .file path passed }

def jsonEquals (machine : Machine φ) (criterion : VerificationCriterion φ) :
    Except VerificationError (VerificationResult φ) := do
  let path ← resolveRelative machine criterion.relativePath
  match machine.readJson path with
  | .error .undecoded => throw .unicodeDecode
  | .error (.unread e) =>
    return { criterionId := criterion.id
             passed := false
             summary := lit "could not read JSON: " ++ e
             exitCode := none
             evidence := .unread path }
  | .ok actual =>
    let passed := machine.equal actual criterion.expected
    return { criterionId := criterion.id
             passed := passed
             summary := if passed then lit "JSON matched" else lit "JSON differed"
             exitCode := none
             evidence := .json path actual criterion.expected }

def verify (machine : Machine φ) (root : Text) (criterion : VerificationCriterion φ) :
    Except VerificationError (VerificationResult φ × List Write) :=
  match criterion.kind with
  | .command => command machine root criterion
  | .fileExists => (fileExists machine criterion).map (·, [])
  | .jsonEquals => (jsonEquals machine criterion).map (·, [])

/-- The criteria in their order; what has been written stays when one of them raises. -/
def verifyAll (machine : Machine φ) (root : Text) :
    List (VerificationCriterion φ) → List Write × Except VerificationError (List (VerificationResult φ))
  | [] => ([], .ok [])
  | criterion :: rest =>
    match verify machine root criterion with
    | .error e => ([], .error e)
    | .ok (result, written) =>
      let (writes, results) := verifyAll machine root rest
      (written ++ writes, results.map (result :: ·))

def verifyDefinition (machine : Machine φ) (root : Text) (criteria : List (VerificationCriterion φ)) :
    List Write × Except VerificationError (DefinitionOfDoneResult φ) :=
  let (writes, results) := verifyAll machine root criteria
  let required := (criteria.filter (·.required)).map (·.id)
  (writes, results.map fun results =>
    let failures := (results.filter fun r => !r.passed && decide (r.criterionId ∈ required)).map (·.criterionId)
    { complete := !required.isEmpty && failures.isEmpty
      results := results
      requiredFailures := failures })

/-! ## What a run writes -/

/-- The file is there as text, or not at all. -/
def decodes (machine : Machine φ) (path : Text) : Bool :=
  match machine.readJson path with
  | .error .undecoded => false
  | _ => true

/-- The criterion does not raise. -/
def proceeds (machine : Machine φ) (criterion : VerificationCriterion φ) : Bool :=
  match criterion.kind with
  | .command => criterion.command.head?.any fun executable =>
    unlocated machine executable || (machine.run criterion).isOk
  | .fileExists => criterion.relativePath.any fun relative => !relative.isEmpty && (machine.resolve relative).isSome
  | .jsonEquals => criterion.relativePath.any fun relative =>
    !relative.isEmpty && (machine.resolve relative).any (decodes machine)

def runs (machine : Machine φ) (criterion : VerificationCriterion φ) : Bool :=
  decide (criterion.kind = .command) && criterion.command.head?.any fun executable => !unlocated machine executable

/-- The criteria that a run reaches and whose commands it runs. -/
def recorded (machine : Machine φ) (criteria : List (VerificationCriterion φ)) : List (VerificationCriterion φ) :=
  (criteria.takeWhile (proceeds machine)).filter (runs machine)

variable {machine : Machine φ} {root : Text} {criteria : List (VerificationCriterion φ)} {c : VerificationCriterion φ}

/-- The file of a criterion whose command runs. -/
def written (machine : Machine φ) (root : Text) (criterion : VerificationCriterion φ) : Write :=
  write machine root criterion ((machine.run criterion).toOption.getD ⟨0, [], [], false⟩)

/-- One criterion: it raises, or it writes the file of its command, if it runs one. -/
theorem verify_cases (machine : Machine φ) (root : Text) (c : VerificationCriterion φ) :
    if proceeds machine c = true then
      ∃ result, verify machine root c = .ok (result, if runs machine c then [written machine root c] else [])
    else ∃ e, verify machine root c = .error e := by
  cases hkind : c.kind with
  | command =>
    cases hcommand : c.command with
    | nil => simp [proceeds, verify, command, hkind, hcommand]
    | cons executable =>
      cases hlocated : unlocated machine executable with
      | true => simp [proceeds, runs, verify, command, hkind, hcommand, hlocated]
      | false =>
        cases hrun : machine.run c <;>
          simp [proceeds, runs, verify, command, written, hkind, hcommand, hlocated, hrun, Except.isOk, Except.toBool,
            Except.mapError, Except.toOption, bind, Except.bind]
  | fileExists =>
    rcases hpath : c.relativePath with - | - | ⟨x, relative⟩
    · simp [proceeds, verify, fileExists, resolveRelative, hkind, hpath, bind, Except.bind, Except.map]
    · simp [proceeds, verify, fileExists, resolveRelative, hkind, hpath, bind, Except.bind, Except.map]
    · cases hresolved : machine.resolve (x :: relative) <;>
        simp [proceeds, runs, verify, fileExists, resolveRelative, hkind, hpath, hresolved, bind, Except.bind, pure,
          Except.pure, Except.map]
  | jsonEquals =>
    rcases hpath : c.relativePath with - | - | ⟨x, relative⟩
    · simp [proceeds, verify, jsonEquals, resolveRelative, hkind, hpath, bind, Except.bind, Except.map]
    · simp [proceeds, verify, jsonEquals, resolveRelative, hkind, hpath, bind, Except.bind, Except.map]
    · cases hresolved : machine.resolve (x :: relative) with
      | none => simp [proceeds, verify, jsonEquals, resolveRelative, hkind, hpath, hresolved, bind,
          Except.bind, Except.map]
      | some path =>
        rcases hjson : machine.readJson path with (message | -) | actual <;>
          simp [proceeds, runs, verify, jsonEquals, resolveRelative, decodes, hkind, hpath, hresolved, hjson, bind,
            Except.bind, pure, Except.pure, Except.map, throw, throwThe, MonadExceptOf.throw]

theorem writes_eq (machine : Machine φ) (root : Text) (criteria : List (VerificationCriterion φ)) :
    (verifyDefinition machine root criteria).1 = (recorded machine criteria).map (written machine root) := by
  show (verifyAll machine root criteria).1 = _
  induction criteria with
  | nil => rfl
  | cons c rest ih =>
    have hcase := verify_cases machine root c
    cases hproceeds : proceeds machine c with
    | false =>
      rw [hproceeds, if_neg Bool.false_ne_true] at hcase
      obtain ⟨e, he⟩ := hcase
      simp [verifyAll, he, recorded, hproceeds]
    | true =>
      rw [hproceeds, if_pos rfl] at hcase
      obtain ⟨result, hresult⟩ := hcase
      cases hruns : runs machine c <;>
        simp [verifyAll, hresult, recorded, hproceeds, hruns, ih]

/-! ## Separate files -/

/-- The evidence in the file of a path, after some writes. -/
def disk (writes : List Write) (path : Text) : Option CommandEvidence :=
  (writes.reverse.find? fun w => decide (w.path = path)).map (·.evidence)

theorem disk_of_separate {writes : List Write} (h : writes.Pairwise fun w w' => w.path ≠ w'.path) :
    ∀ w ∈ writes, disk writes w.path = some w.evidence := by
  intro w hw
  have hfound : ∀ l : List Write, (l.Pairwise fun w w' => w.path ≠ w'.path) → w ∈ l →
      l.find? (fun w' => decide (w'.path = w.path)) = some w := by
    intro l hl hmem
    induction l with
    | nil => exact nomatch hmem
    | cons w' l ih =>
      rw [List.pairwise_cons] at hl
      rcases List.mem_cons.mp hmem with rfl | hmem
      · simp
      · rw [List.find?_cons_of_neg (by simpa using hl.1 w hmem)]
        exact ih hl.2 hmem
  have hreverse : writes.reverse.Pairwise fun w w' => w.path ≠ w'.path :=
    (List.pairwise_reverse.mpr h).imp fun hne => hne.symm
  rw [disk, hfound _ hreverse (List.mem_reverse.mpr hw), Option.map_some]

/-- **Evidence files.** In a run over a scope every file is in the directory of evidence, and two criteria never have
the same file exactly when no two identifiers of criteria whose commands are run differ in blurred letters only; then
every file has the evidence of its criterion at the end. -/
theorem evidence_separate_iff (machine : Machine φ) (root : Text) (criteria : List (VerificationCriterion φ)) :
    (((verifyDefinition machine root criteria).1.Pairwise fun w w' => w.path ≠ w'.path) ∧
        (∀ w ∈ (verifyDefinition machine root criteria).1, Inside root w.path) ↔
      (recorded machine criteria).Pairwise fun c c' => ¬ Alike c.id c'.id) ∧
    (((recorded machine criteria).Pairwise fun c c' => ¬ Alike c.id c'.id) →
      ∀ w ∈ (verifyDefinition machine root criteria).1,
        disk (verifyDefinition machine root criteria).1 w.path = some w.evidence) := by
  rw [writes_eq]
  have hseparate : (((recorded machine criteria).map (written machine root)).Pairwise fun w w' => w.path ≠ w'.path) ↔
      (recorded machine criteria).Pairwise fun c c' => ¬ Alike c.id c'.id := by
    rw [List.pairwise_map]
    simp only [written, write, ne_eq, evidencePath_eq_iff]
  refine ⟨⟨fun h => hseparate.mp h.1, fun h => ⟨hseparate.mpr h, ?_⟩⟩, fun h => disk_of_separate (hseparate.mpr h)⟩
  intro w hw
  obtain ⟨c, -, rfl⟩ := List.mem_map.mp hw
  exact evidencePath_inside root c.id

def commandCriterion (id : Text) : VerificationCriterion Empty where
  id := id
  kind := .command
  required := true
  command := [lit "true"]
  relativePath := none
  expected := .none

/-- A machine without files on which every command succeeds and prints the identifier of its criterion. -/
def printing : Machine Empty where
  locate executable := (executable, true)
  resolve := some
  isFile _ := false
  readJson _ := .error (.unread (lit "not found"))
  equal _ _ := false
  run c := .ok ⟨0, (utf8Encode c.id).getD [], [], false⟩
  sha256 _ := []

/-- Two criteria whose identifiers differ in a blank and an underscore write one file. -/
theorem evidence_collides : ¬ ∀ (φ : Type) (machine : Machine φ) (root : Text)
    (criteria : List (VerificationCriterion φ)), (criteria.map (·.id)).Nodup →
      ((verifyDefinition machine root criteria).1.Pairwise fun w w' => w.path ≠ w'.path) ∧
        ∀ w ∈ (verifyDefinition machine root criteria).1, Inside root w.path := by
  intro hall
  have h := (hall Empty printing (lit "evidence") [commandCriterion (lit "a b"), commandCriterion (lit "a_b")]
    (by decide)).1
  exact absurd h (by decide)

end AgentFabric.Verifier
