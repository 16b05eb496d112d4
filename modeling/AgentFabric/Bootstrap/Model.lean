import AgentFabric.Lib.JsonAscii
import AgentFabric.Lib.Table

/-!
# The bootstrap recorder: plans and results

`bootstrap/lifecycle.py` records a bootstrap plan, and the results that others report for its steps.
-/

namespace AgentFabric.Bootstrap

open AgentFabric.Lib

/-- What the recorder takes from its platform.  The shortened digest is a parameter of its own, since no function onto
texts of a fixed length can be injective. -/
structure Platform where
  floats : JsonFloats
  /-- `bool(x)` -/
  floatTruth : floats.Val → Bool
  /-- `x == n` -/
  floatEq : floats.Val → Int → Bool
  /-- `int(x)` -/
  floatInt : floats.Val → Option Int
  /-- `str(x)` -/
  floatStr : floats.Val → Text
  /-- What a TEXT column makes of a REAL; NaN is NULL. -/
  floatColumn : floats.Val → Option Text
  /-- `int(text)` -/
  parseInt : Text → Option Int
  /-- `hashlib.sha256(text.encode()).hexdigest()` -/
  hexdigest : Text → Text
  /-- `hexdigest()[:24]` -/
  hexprefix : Text → Text
  floatTruth_of_int : ∀ x, floatInt x = some 1 → floatTruth x = true
  floatColumn_plain : ∀ x t, floatColumn x = some t → Plain t
  parseInt_nil : parseInt [] = none

/-- The values of a plan, a profile or a result. -/
abbrev Platform.Json (P : Platform) : Type := Value P.floats.Val

inductive BootstrapError where
  | valueError (message : String)
  | keyError (message : String)
  | typeError (message : String)
  | integrityError (constraint : String)
deriving DecidableEq, Repr

/-! ## Identifiers -/

def asciiUpper (c : CodePoint) : Bool := decide (0x41 ≤ c.val ∧ c.val ≤ 0x5A)

def asciiLower (c : CodePoint) : Bool := decide (0x61 ≤ c.val ∧ c.val ≤ 0x7A)

def asciiAlnum (c : CodePoint) : Bool := asciiUpper c || asciiLower c || isDigit c

/-- `_IDENTIFIER`. -/
def isIdentifier : Text → Bool
  | [] => false
  | c :: t => asciiAlnum c && t.all (fun d => asciiAlnum d || decide (d ∈ lit "._:-")) && decide (t.length ≤ 127)

/-- The rest of a capability inside a segment, with or without a separator before it. -/
def capabilityRest (separated : Bool) : Text → Bool
  | [] => separated
  | [c] => separated && (asciiLower c || isDigit c)
  | c :: d :: t =>
    if asciiLower c || isDigit c then capabilityRest separated (d :: t)
    else decide (c ∈ lit "._-") && (asciiLower d || isDigit d) && capabilityRest true t

/-- `_CAPABILITY`. -/
def isCapability : Text → Bool
  | [] => false
  | c :: t => asciiLower c && capabilityRest false t

/-! ## States -/

inductive RunState where
  | active | waiting | failed | complete
deriving DecidableEq, Repr

inductive StepState where
  | pending | ready | awaitingReview | awaitingApproval | satisfied | failed | blocked
deriving DecidableEq, Repr

def StepState.value : StepState → Text
  | .pending => lit "pending"
  | .ready => lit "ready"
  | .awaitingReview => lit "awaitingReview"
  | .awaitingApproval => lit "awaitingApproval"
  | .satisfied => lit "satisfied"
  | .failed => lit "failed"
  | .blocked => lit "blocked"

/-- A result is recorded for a step in one of these states. -/
def StepState.actionable : StepState → Bool
  | .ready | .awaitingReview | .awaitingApproval => true
  | _ => false

inductive Outcome where
  | succeeded | failed
deriving DecidableEq, Repr

def Outcome.value : Outcome → Text
  | .succeeded => lit "succeeded"
  | .failed => lit "failed"

inductive ExecutionMode where
  | observedOnly | externallyExecuted
deriving DecidableEq, Repr

def ExecutionMode.value : ExecutionMode → Text
  | .observedOnly => lit "observedOnly"
  | .externallyExecuted => lit "externallyExecuted"

inductive AuthorityType where
  | human | enterprise | privilegeBroker | trustedNode
deriving DecidableEq, Repr

def AuthorityType.value : AuthorityType → Text
  | .human => lit "human"
  | .enterprise => lit "enterprise"
  | .privilegeBroker => lit "privilegeBroker"
  | .trustedNode => lit "trustedNode"

/-- What `_stamp` writes: `YYYY-MM-DDTHH:MM:SSZ`. -/
structure Stamp where
  text : Text
  length_eq : text.length = 20
  chars : ∀ c ∈ text, isDigit c = true ∨ c ∈ lit "-:TZ"

/-! ## Results -/

structure AuthorizationReference where
  grantReference : Text
  capability : Text
  subject : Text
  verifiedBy : Text
  authorityType : AuthorityType
  identified : (isIdentifier grantReference && isIdentifier subject && isIdentifier verifiedBy) = true
  capable : isCapability capability = true

section Writer

variable (P : Platform)

def canonical (v : P.Json) : Option Text := (canonicalText P.floats v).map (· ++ lit "\n")

def digest (v : P.Json) : Except BootstrapError Text :=
  match canonical P v with
  | some text => .ok (P.hexdigest text)
  | none => .error (.typeError "value is not JSON serializable")

def AuthorizationReference.toProtocol (a : AuthorizationReference) : P.Json :=
  .dict [(lit "grantReference", .str a.grantReference), (lit "capability", .str a.capability),
    (lit "subject", .str a.subject), (lit "verifiedBy", .str a.verifiedBy),
    (lit "authorityType", .str a.authorityType.value)]

/-- The fields of a result. -/
structure StepReport where
  runId : Text
  stepId : Text
  idempotencyKey : Text
  outcome : Outcome
  executionMode : ExecutionMode
  actor : Text
  observedAt : Stamp
  evidence : List (Text × P.Json)
  authorization : Option AuthorizationReference

def StepReport.toProtocol (r : StepReport P) : P.Json :=
  .dict [(lit "schemaVersion", .int 1), (lit "runID", .str r.runId), (lit "stepID", .str r.stepId),
    (lit "idempotencyKey", .str r.idempotencyKey), (lit "outcome", .str r.outcome.value),
    (lit "executionMode", .str r.executionMode.value), (lit "actor", .str r.actor),
    (lit "observedAt", .str r.observedAt.text), (lit "evidence", .dict r.evidence),
    (lit "authorization", match r.authorization with
      | some a => a.toProtocol P
      | none => .none)]

def maxResultBytes : Nat := 32 * 1024

/-- `BootstrapStepResult`: its identifiers are machine identifiers, its evidence is an object as JSON carries it, and
its document is bounded. -/
structure StepResult extends StepReport P where
  identified : (isIdentifier runId && isIdentifier stepId && isIdentifier idempotencyKey && isIdentifier actor) = true
  readable : (Value.dict evidence).Readable
  document : Text
  written : canonical P toStepReport.toProtocol = some document
  bounded : document.length ≤ maxResultBytes

def StepResult.digest (r : StepResult P) : Text := P.hexdigest r.document

/-! ## Rows -/

structure StepRow where
  stepId : Text
  ordinal : Nat
  phase : Text
  action : Text
  planStatus : Text
  state : StepState
  mutating : Bool
  requiredCapability : Option Text
  dependencies : List Text
  reason : Text
  /-- The result whose digest, authorization and document the row holds. -/
  result : Option (StepResult P)
  updatedAt : Text

structure RunRow where
  planDigest : Text
  profileDigest : Text
  state : RunState
  currentPhase : Option Text
  createdAt : Text
  updatedAt : Text
  completedAt : Option Text
  steps : List (StepRow P)

structure ReceiptRow where
  runId : Text
  stepId : Text
  resultDigest : Text
  recordedAt : Text
deriving DecidableEq

structure AuditEvent where
  eventId : Text
  runId : Text
  stepId : Option Text
  kind : Text
  actor : Text
  summary : Text
  payloadJson : Text
  previousHash : Text
  eventHash : Text
  createdAt : Text
deriving DecidableEq

structure Db where
  runs : Table Text (RunRow P)
  receipts : Table Text ReceiptRow
  audit : List AuditEvent

def Db.initial : Db P := ⟨.empty, .empty, []⟩

/-! ## Plans -/

/-- `value == n`. -/
def equalsInt (v : P.Json) (n : Int) : Bool :=
  match v with
  | .int m => decide (m = n)
  | .float x => P.floatEq x n
  | .bool b => decide ((if b then 1 else 0) = n)
  | _ => false

/-- `value == text`. -/
def equalsText (v : P.Json) (s : Text) : Bool :=
  match v with
  | .str t => decide (t = s)
  | _ => false

/-- `bool(value)`. -/
def truth (v : P.Json) : Bool :=
  match v with
  | .none => false
  | .bool b => b
  | .int n => decide (n ≠ 0)
  | .float x => P.floatTruth x
  | .str s => !s.isEmpty
  | .list items => !items.isEmpty
  | .dict entries => !entries.isEmpty
  | .foreign _ _ => true

/-- `str(value)`; the text of a collection begins with a bracket, which no identifier does. -/
def strOf (v : P.Json) : Text :=
  match v with
  | .none => lit "None"
  | .bool b => if b then lit "True" else lit "False"
  | .int n => (intText n).getD []
  | .float x => P.floatStr x
  | .str s => s
  | .list _ => lit "["
  | .dict _ => lit "\x7b"
  | .foreign _ _ => lit "("

/-- The fields that a step must have. -/
def requiredFields : List Text :=
  [lit "id", lit "phase", lit "action", lit "status", lit "reason", lit "mutating", lit "dependsOn",
    lit "requiredCapability"]

/-- A field of a step that has it. -/
def field (fields : List (Text × P.Json)) (key : String) : P.Json := (fields.lookup (lit key)).getD .none

/-- The dependencies, if all of them are names of admitted steps. -/
def admittedDependencies (identifiers : List Text) (v : P.Json) : Bool :=
  match v with
  | .list items => items.all fun item => match item with
    | .str s => decide (s ∈ identifiers)
    | _ => false
  | _ => false

/-- The capability of a step: scoped for a mutating step, absent for another. -/
def admittedCapability (mutating capability : P.Json) : Except BootstrapError Unit :=
  if truth P mutating then
    match capability with
    | .str s =>
      if isCapability s then .ok () else .error (.valueError "mutating bootstrap step requires a scoped capability")
    | _ => .error (.valueError "mutating bootstrap step requires a scoped capability")
  else
    match capability with
    | .none => .ok ()
    | _ => .error (.valueError "non-mutating bootstrap step cannot claim a capability")

/-- One step of `_validate_plan`: its own name is known before its dependencies are looked at. -/
def validateStep (identifiers : List Text) (step : P.Json) : Except BootstrapError (List Text) :=
  match step with
  | .dict fields =>
    if requiredFields.all fun key => (fields.lookup key).isSome then
      let stepId := strOf P (field P fields "id")
      if isIdentifier stepId && decide (stepId ∉ identifiers) then
        if admittedDependencies P (stepId :: identifiers) (field P fields "dependsOn") then do
          admittedCapability P (field P fields "mutating") (field P fields "requiredCapability")
          return stepId :: identifiers
        else .error (.valueError "bootstrap dependencies must refer to earlier steps")
      else .error (.valueError "bootstrap step IDs must be unique machine identifiers")
    else .error (.valueError "bootstrap step is missing lifecycle fields")
  | _ => .error (.valueError "bootstrap step must be an object")

def validateSteps : List Text → List P.Json → Except BootstrapError Unit
  | _, [] => .ok ()
  | identifiers, step :: steps => do
    let identifiers ← validateStep P identifiers step
    validateSteps identifiers steps

/-- `_validate_plan`; the answer is the list of steps. -/
def validatePlan (plan : P.Json) : Except BootstrapError (List P.Json) :=
  match plan with
  | .dict entries =>
    if !equalsInt P (field P entries "schemaVersion") 2 || !equalsText P (field P entries "mode") (lit "dryRun") then
      .error (.valueError "durable bootstrap requires dry-run plan schema v2")
    else
      match field P entries "failClosed", field P entries "automaticActions" with
      | .bool true, .list [] =>
        match field P entries "steps" with
        | .list [] => .error (.valueError "bootstrap plan requires ordered steps")
        | .list steps => do
          validateSteps P [] steps
          return steps
        | _ => .error (.valueError "bootstrap plan requires ordered steps")
      | _, _ => .error (.valueError "bootstrap plan must remain fail-closed with no automatic actions")
  | _ => .error (.typeError "plan is not a mapping")

/-! ## Inserting the steps -/

/-- A value in a TEXT column that is not nullable. -/
def textColumn (v : P.Json) : Except BootstrapError Text :=
  match v with
  | .str s => if s.any CodePoint.surrogate then .error (.typeError "surrogates not allowed") else .ok s
  | .int n =>
    if -(2 ^ 63) ≤ n ∧ n < 2 ^ 63 then .ok ((intText n).getD []) else .error (.typeError "int too large for SQLite")
  | .bool b => .ok (if b then lit "1" else lit "0")
  | .float x =>
    match P.floatColumn x with
    | some text => .ok text
    | none => .error (.integrityError "NOT NULL")
  | .none => .error (.integrityError "NOT NULL")
  | _ => .error (.typeError "type is not supported")

def nullableColumn (v : P.Json) : Except BootstrapError (Option Text) :=
  match v with
  | .none => .ok none
  | v => do return some (← textColumn P v)

/-- `int(value)`, under the check of the column. -/
def flagColumn (v : P.Json) : Except BootstrapError Bool :=
  let n : Option Int := match v with
    | .bool b => some (if b then 1 else 0)
    | .int n => some n
    | .float x => P.floatInt x
    | .str s => P.parseInt s
    | _ => none
  match n with
  | none => .error (.typeError "int() argument must be a string or a number")
  | some 0 => .ok false
  | some 1 => .ok true
  | some _ => .error (.integrityError "CHECK")

/-- The dependencies of a validated step. -/
def dependencyNames (v : P.Json) : List Text :=
  match v with
  | .list items => items.filterMap fun item => match item with
    | .str s => some s
    | _ => none
  | _ => []

def initialStepState (status : P.Json) (ordinal : Nat) : StepState :=
  if ordinal = 0 ∧ equalsText P status (lit "blocked") = true then .blocked else .pending

def stepRow (step : P.Json) (ordinal : Nat) (now : Stamp) : Except BootstrapError (StepRow P) :=
  match step with
  | .dict fields => do
    let stepId ← textColumn P (field P fields "id")
    let phase ← textColumn P (field P fields "phase")
    let action ← textColumn P (field P fields "action")
    let planStatus ← textColumn P (field P fields "status")
    let mutating ← flagColumn P (field P fields "mutating")
    let requiredCapability ← nullableColumn P (field P fields "requiredCapability")
    let reason ← textColumn P (field P fields "reason")
    return {
      stepId, ordinal, phase, action, planStatus, mutating, requiredCapability, reason
      state := initialStepState P (field P fields "status") ordinal
      dependencies := dependencyNames P (field P fields "dependsOn")
      result := none
      updatedAt := now.text }
  | _ => .error (.typeError "step is not a mapping")

/-- The rows of the steps from an ordinal on; a name occurs once. -/
def stepRows (now : Stamp) : Nat → List (StepRow P) → List P.Json → Except BootstrapError (List (StepRow P))
  | _, rows, [] => .ok rows
  | ordinal, rows, step :: steps => do
    let row ← stepRow P step ordinal now
    if rows.any fun other => decide (other.stepId = row.stepId) then .error (.integrityError "PRIMARY KEY")
    else stepRows now (ordinal + 1) (rows ++ [row]) steps

end Writer

end AgentFabric.Bootstrap
