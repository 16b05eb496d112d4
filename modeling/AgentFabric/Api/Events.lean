import AgentFabric.Api.Cursor
import AgentFabric.Domain
import AgentFabric.Lib.JsonSize

/-!
# Pages of events

The query of the event journal, with its filters in SQL and the limits that the database sets to it.
-/

namespace AgentFabric.Api

open AgentFabric.Lib

inductive Harness where
  | codex
  | claudeCode
  | grokBuild
  | googleAGY
  | localWorker
  | mock
deriving DecidableEq

def Harness.value : Harness → Text
  | .codex => lit "codex"
  | .claudeCode => lit "claudeCode"
  | .grokBuild => lit "grokBuild"
  | .googleAGY => lit "googleAGY"
  | .localWorker => lit "localWorker"
  | .mock => lit "mock"

/-- `_harness` -/
def Harness.wire : Harness → Text
  | .localWorker => lit "lmStudio"
  | .mock => lit "codex"
  | h => h.value

inductive EventSeverity where
  | debug
  | info
  | notice
  | warning
  | error
  | critical
deriving DecidableEq

/-- `SEVERITY_RANK` -/
def EventSeverity.rank : EventSeverity → Nat
  | .debug => 0
  | .info => 1
  | .notice => 2
  | .warning => 3
  | .error => 4
  | .critical => 5

def severityNamed (name : Text) : Option EventSeverity :=
  [(lit "debug", .debug), (lit "info", .info), (lit "notice", .notice), (lit "warning", .warning),
    (lit "error", .error), (lit "critical", .critical)].lookup name

/-- What a row looks like on the wire. -/
def eventKinds : List Text := [
  "taskAssigned", "workerSpawned", "modelStarted", "toolInvocation", "output", "phaseChanged", "heartbeat",
  "rateLimitWarning", "quotaChanged", "taskCompleted", "taskFailed", "retryScheduled", "cancellation", "sessionEnded",
  "nodeStateChanged", "supervisorNotice", "goalCreated", "goalStarted", "goalIterationStarted", "goalEvaluated",
  "goalPlanCreated", "goalActionStateChanged", "goalActionCancellationRequested", "goalVerified",
  "goalReplanRequired", "goalPaused", "goalResumed", "goalSteered", "goalStopped", "goalTerminated",
  "taskDependencyAdded", "taskExecutionLeaseAcquired", "taskExecutionLeaseReleased", "workerResultRecorded",
  "verificationCompleted", "dispatchDeferred", "providerJobPrepared", "providerJobLaunchStarted",
  "providerJobHandleBound", "providerJobReconciled", "providerJobResultCollected", "taskVerificationScopeBound",
  "humanEscalationRequested", "humanEscalationResolved"].map lit

/-- The wire kinds of raw kinds that are none themselves. -/
def kindAliases : List (Text × Text) := [
  ("routingDecisionRecorded", "taskAssigned"), ("workerRunInterrupted", "taskFailed"), ("taskRecovered", "taskFailed"),
  ("quota_snapshot", "quotaChanged"), ("quota_warning", "quotaChanged"), ("quota_critical", "quotaChanged"),
  ("quota_exhausted", "quotaChanged"), ("quota_reset_observed", "quotaChanged"), ("usage_delta", "quotaChanged"),
  ("usage_stale", "quotaChanged")].map fun e => (lit e.1, lit e.2)

def targetKinds : List (Text × Text) := [
  ("succeeded", "taskCompleted"), ("failed", "taskFailed"), ("cancelled", "cancellation")].map fun e =>
    (lit e.1, lit e.2)

variable (P : Platform)

/-- `_json(row["payload_json"], {})` -/
def payloadOf (payloadJson : Text) : Value P.floats.Val :=
  match loadsText P.floats.toFloatFormat keepLast payloadJson with
  | .ok value => value
  | .error _ => .dict []

/-- `payload.get(name)` -/
def field {φ : Type} (name : String) : Value φ → Value φ
  | .dict entries => (entries.lookup (lit name)).getD .none
  | _ => .none

/-- Neither an array nor an object. -/
def Scalar {φ : Type} (v : Value φ) : Prop := (∀ items, v ≠ .list items) ∧ ∀ entries, v ≠ .dict entries

/-- `2 ** 63`, the first number that the database does not take. -/
def integerBound : Int := 9223372036854775808

/-- A row of `events` with the columns of the task, worker, node, goal, run and model that are joined to it. Its payload
is an object and shallow, as each writer gives a dictionary of its own; under `to` they put the value of a state, and no
writer sets `harness`. -/
structure EventRow where
  sequence : Nat
  eventId : Option Text
  createdAt : Text
  kind : Text
  severity : EventSeverity
  summary : Text
  payloadJson : Text
  actor : Text
  taskId : Option Text
  workerId : Option Text
  taskReference : Option Text
  nodeId : Option Text
  hostname : Option Text
  harness : Option Harness
  provider : Option Text
  goalId : Option Text
  sessionId : Option Text
  modelProvider : Option Text
  modelIdentifier : Option Text
  modelDisplayName : Option Text
  contextVariant : Option Text
  contextWindowTokens : Option Nat
  texts : ∀ t ∈ [kind, summary, payloadJson, actor], Plain t
  numbered : 1 ≤ sequence ∧ (sequence : Int) < integerBound
  shallow : P.tooDeep payloadJson = false
  object : ∃ entries, payloadOf P payloadJson = .dict entries
  scalar : ∀ name ∈ ["to", "harness"], Scalar (field name (payloadOf P payloadJson))

structure WireModel where
  identifier : Text
  displayName : Text
  provider : Text
  contextVariant : Option Text
  contextWindowTokens : Option Nat

structure WireEvent where
  id : Text
  sequence : Nat
  timestamp : Text
  kind : Text
  severity : EventSeverity
  message : Text
  nodeID : Option Text
  hostname : Option Text
  workerID : Option Text
  harness : Option Text
  provider : Option Text
  model : Option WireModel
  goalID : Option Text
  taskID : Option Text
  taskReference : Option Text
  sessionID : Option Text
  payload : Value P.floats.Val

/-- `value or default`, with the empty text as no value. -/
def orText (value : Option Text) (default : Text) : Text := (value.filter fun t => t ≠ []).getD default

/-- `_provider` -/
def wireProvider (value : Option Text) : Option Text := value.map fun t => if t = lit "mock" then lit "local" else t

variable {P}

/-- `_model` -/
def wireModel (row : EventRow P) : WireModel where
  identifier := orText row.modelIdentifier (lit "unknown")
  displayName := orText row.modelDisplayName (lit "Unknown model")
  provider := orText (wireProvider ((row.modelProvider.filter fun t => t ≠ []).or row.provider)) (lit "local")
  contextVariant := row.contextVariant
  contextWindowTokens := row.contextWindowTokens

def wireKind (row : EventRow P) : Text :=
  if row.kind = lit "taskStateChanged" then
    match field "to" (payloadOf P row.payloadJson) with
    | .str target => (targetKinds.lookup target).getD (lit "phaseChanged")
    | _ => lit "phaseChanged"
  else if row.kind ∈ eventKinds then row.kind
  else (kindAliases.lookup row.kind).getD (lit "supervisorNotice")

variable (P) in
/-- `str(value)` of a member that is shown. -/
def shownMember : Value P.floats.Val → Option Text
  | .str t => some t
  | .int n => some ((intText n).getD [])
  | .bool b => some (if b then lit "True" else lit "False")
  | .float x => some (P.floatStr x)
  | _ => none

def genericPayload (row : EventRow P) : Value P.floats.Val :=
  let fields := match payloadOf P row.payloadJson with
    | .dict entries => entries.filterMap fun e => (shownMember P e.2).map fun t => (e.1, .str t)
    | _ => []
  .dict [(lit "harness", .str (lit "generic")),
    (lit "detail", .dict
      [(lit "source", .str row.actor), (lit "text", .str row.summary), (lit "fields", .dict fields)])]

def eventPayload (row : EventRow P) : Value P.floats.Val :=
  match field "harness" (payloadOf P row.payloadJson), field "detail" (payloadOf P row.payloadJson) with
  | .str harness, .dict _ =>
    if harness ∈ ["claude", "grok", "agy", "generic"].map lit then payloadOf P row.payloadJson else genericPayload row
  | _, _ => genericPayload row

def event (row : EventRow P) : WireEvent P where
  id := orText row.eventId (lit "evt-" ++ natText row.sequence)
  sequence := row.sequence
  timestamp := row.createdAt
  kind := wireKind row
  severity := row.severity
  message := row.summary
  nodeID := row.nodeId
  hostname := row.hostname
  workerID := row.workerId
  harness := row.harness.map Harness.wire
  provider := wireProvider row.provider
  model := (row.workerId.filter fun t => t ≠ []).map fun _ => wireModel row
  goalID := row.goalId
  taskID := row.taskId
  taskReference := row.taskReference
  sessionID := row.sessionId
  payload := eventPayload row

/-! ## The table -/

variable (P) in
/-- The table of events, in the order of their sequence numbers, and the ids in the table of nodes. -/
structure EventLog where
  rows : List (EventRow P)
  nodes : List Text
  increasing : rows.Pairwise fun a b => a.sequence < b.sequence
  joined : ∀ row ∈ rows, ∀ id ∈ row.nodeId, id ∈ nodes

/-- `highest_event_sequence` -/
def EventLog.highest (log : EventLog P) : Nat := (log.rows.getLast?.map EventRow.sequence).getD 0

/-! ## Filters -/

structure EventFilter where
  nodes : List Text
  harnesses : List Text
  tasks : List Text
  goals : List Text
  kinds : List Text
  minimumSeverity : Text
  search : Option Text

/-- `expression IN (values)`, where there are values. -/
def isIn (value : Option Text) (values : List Text) : Bool := values.isEmpty || value.any fun v => decide (v ∈ values)

/-- A character as `LIKE` compares it: ASCII letters without their case, and no difference between the last three. -/
def folded (c : CodePoint) : CodePoint :=
  if c.val = 0xFFFE ∨ c.val = 0xFFFF then codePoint 0xFFFD else Store.Redaction.lowerAscii c

/-- The text up to its first NUL, where it ends for `LIKE`. -/
def upToNul (t : Text) : Text := t.takeWhile fun c => c.val != 0

/-- `LIKE`: `%` for any text, `_` for any character. -/
def like : Text → Text → Bool
  | [], t => t.isEmpty
  | c :: p, t =>
    if c = ch '%' then t.tails.any (like p)
    else match t with
      | [] => false
      | d :: t => (c = ch '_' || folded c == folded d) && like p t

/-- `LOWER(t) LIKE '%' || needle || '%'` -/
def containsLike (needle t : Text) : Bool :=
  like (upToNul (ch '%' :: (needle ++ [ch '%']))) (upToNul (t.map Store.Redaction.lowerAscii))

/-- The harness as the table has it. -/
def storedHarness (name : Text) : Text := if name = lit "lmStudio" then lit "localWorker" else name

/-- `search`, where it is not empty. -/
def EventFilter.needle (P : Platform) (f : EventFilter) : Option Text := (f.search.filter fun t => t ≠ []).map P.lower

/-- The conditions in SQL. -/
def selected (f : EventFilter) (minimum : EventSeverity) (row : EventRow P) : Bool :=
  isIn row.nodeId f.nodes && isIn (row.harness.map Harness.value) (f.harnesses.map storedHarness) &&
    isIn row.taskId f.tasks && isIn row.goalId f.goals && decide (minimum.rank ≤ row.severity.rank) &&
    (f.needle P).all fun needle => containsLike needle row.summary || containsLike needle row.payloadJson

/-- The number of values that are bound: the numbers of the window, the filters, the severities that are allowed and
twice the search. -/
def EventFilter.boundValues (f : EventFilter) (minimum : EventSeverity) : Nat :=
  3 + f.nodes.length + f.harnesses.length + f.tasks.length + f.goals.length + (6 - minimum.rank) +
    if f.search.all List.isEmpty then 0 else 2

/-- The pattern of the search has more bytes than `LIKE` takes. -/
def EventFilter.tooLong (P : Platform) (f : EventFilter) : Bool :=
  (f.needle P).any fun needle => decide (P.maxPattern < textSize (ch '%' :: (needle ++ [ch '%'])))

/-- The texts of a filter can be given to the database. -/
def EventFilter.Bindable (P : Platform) (f : EventFilter) : Prop :=
  (∀ t ∈ f.nodes ++ f.harnesses ++ f.tasks ++ f.goals, Plain t) ∧ ∀ t ∈ f.needle P, Plain t

instance (t : Text) : Decidable (Plain t) := inferInstanceAs (Decidable (∀ c ∈ t, c.surrogate = false))

instance (f : EventFilter) : Decidable (f.Bindable P) :=
  inferInstanceAs (Decidable
    ((∀ t ∈ f.nodes ++ f.harnesses ++ f.tasks ++ f.goals, Plain t) ∧ ∀ t ∈ f.needle P, Plain t))

/-! ## Pages -/

structure EventsRequest extends EventFilter where
  limit : Nat
  cursor : Option Text
  afterSequence : Nat
  ascending : Bool

variable (P) in
structure EventPage where
  events : List (WireEvent P)
  nextCursor : Option Text
  hasMore : Bool
  highestSequence : Nat
  totalCount : Nat

def inWindow (after : Nat) (before high : Int) (row : EventRow P) : Bool :=
  decide (after < row.sequence ∧ (row.sequence : Int) ≤ high ∧ (row.sequence : Int) < before)

/-- `LIKE` is evaluated. The conditions on the table of events come before it, those on the tables that are joined do
not; but a plan that starts with the nodes has to find one first. -/
def compared (log : EventLog P) (r : EventsRequest) (minimum : EventSeverity) (before high : Int) : Bool :=
  (r.nodes.isEmpty || !P.nodesFirst r.nodes r.harnesses r.tasks r.goals || log.nodes.any fun id =>
    decide (id ∈ r.nodes)) &&
    log.rows.any fun row => inWindow r.afterSequence before high row && isIn row.taskId r.tasks &&
      decide (minimum.rank ≤ row.severity.rank)

/-- The events that a query finds, in the order of the query. -/
def found (log : EventLog P) (r : EventsRequest) (minimum : EventSeverity) (before high : Int) : List (WireEvent P) :=
  let rows := log.rows.filter fun row =>
    inWindow r.afterSequence before high row && selected r.toEventFilter minimum row
  let values := (if r.ascending then rows else rows.reverse).map event
  if r.kinds.isEmpty then values else values.filter fun v => decide (v.kind ∈ r.kinds)

/-- The last event of a page, or the first one of a page in ascending order, for the next cursor. -/
def boundary (r : EventsRequest) (page : List (WireEvent P)) : Option (WireEvent P) :=
  if r.ascending then page.head? else page.getLast?

/-- `before` and `high`: from the cursor, or from the highest number. -/
def window (P : Platform) (currentHigh : Nat) (r : EventsRequest) : Except EventsError (Int × Int) :=
  match r.cursor with
  | some (c :: t) => decodeCursor P (c :: t)
  | _ => .ok (currentHigh + 1, currentHigh)

/-- The numbers are not too large for the database. -/
def Storable (r : EventsRequest) (w : Int × Int) : Prop :=
  (r.afterSequence : Int) < integerBound ∧ w.2 < integerBound ∧ w.1 < integerBound

instance (r : EventsRequest) (w : Int × Int) : Decidable (Storable r w) :=
  inferInstanceAs (Decidable ((r.afterSequence : Int) < integerBound ∧ w.2 < integerBound ∧ w.1 < integerBound))

/-- The cursor of the next page, if there is one to be told. -/
def nextCursor (r : EventsRequest) (high : Int) (values : List (WireEvent P)) : Except EventsError (Option Text) :=
  if values.length ≤ r.limit then .ok none
  else match boundary r (values.take r.limit) with
    | none => .ok none
    | some last =>
      (orRaise (encodeCursor P last.sequence high) (.valueError "Exceeds the limit for integer string conversion")).map
        some

/-- The window and the minimum severity of a query that is prepared and bound. -/
def parameters (P : Platform) (currentHigh : Nat) (r : EventsRequest) :
    Except EventsError ((Int × Int) × EventSeverity) := do
  let w ← window P currentHigh r
  let minimum ← orRaise (severityNamed r.minimumSeverity) (.valueError "invalid minSeverity")
  ensure (r.boundValues minimum ≤ P.maxVariables) .operationalError
  ensure (Storable r w) .overflowError
  ensure (r.Bindable P) (.valueError "surrogates not allowed")
  return (w, minimum)

/-- `SupervisorProjection.events`: the highest number is read first, and the log then. -/
def events (currentHigh : Nat) (log : EventLog P) (r : EventsRequest) : Except EventsError (EventPage P) := do
  let ((before, high), minimum) ← parameters P currentHigh r
  ensure (¬ (r.tooLong P = true ∧ compared log r minimum before high = true)) .operationalError
  let values := found log r minimum before high
  let cursor ← nextCursor r high values
  return {
    events := values.take r.limit
    nextCursor := cursor
    hasMore := decide (r.limit < values.length)
    highestSequence := currentHigh
    totalCount := values.length }

end AgentFabric.Api
