import AgentFabric.Bootstrap.Model

/-!
# The bootstrap recorder: runs

`BootstrapLifecycleStore` of `bootstrap/lifecycle.py`: runs, their steps, results and audit events.
-/

namespace AgentFabric.Bootstrap

open AgentFabric.Lib

variable {P : Platform}

/-! ## Steps -/

section Steps

def findStep (steps : List (StepRow P)) (stepId : Text) : Option (StepRow P) :=
  steps.find? fun s => decide (s.stepId = stepId)

def updateStep (stepId : Text) (f : StepRow P → StepRow P) (steps : List (StepRow P)) : List (StepRow P) :=
  steps.map fun s => if s.stepId = stepId then f s else s

def dependenciesSatisfied (steps : List (StepRow P)) (dependencies : List Text) : Bool :=
  dependencies.all fun d => (findStep steps d).any fun s => decide (s.state = .satisfied)

def StepRow.nextState (s : StepRow P) : StepState :=
  if s.planStatus = lit "notNeeded" then .satisfied
  else if s.planStatus = lit "blocked" then .ready
  else if s.planStatus = lit "required" then .awaitingReview
  else if s.mutating then .awaitingApproval
  else .ready

def StepRow.eventKind (s : StepRow P) : Text :=
  if s.planStatus = lit "notNeeded" then lit "bootstrapStepNotNeeded" else lit "bootstrapStepActionable"

/-- The first step that is not satisfied. -/
def currentStep (steps : List (StepRow P)) : Option (StepRow P) :=
  steps.find? fun s => decide (s.state ≠ .satisfied)

def runState (steps : List (StepRow P)) : RunState :=
  if steps.any fun s => decide (s.state = .failed) then .failed
  else if !steps.isEmpty && steps.all fun s => decide (s.state = .satisfied) then .complete
  else
    match currentStep steps with
    | some s =>
      if s.state = .awaitingApproval ∨ s.state = .awaitingReview ∨ s.state = .blocked then .waiting else .active
    | none => .active

def currentPhase (steps : List (StepRow P)) : Text := ((currentStep steps).map StepRow.phase).getD (lit "COMMIT")

def Db.stepsOf (db : Db P) (runId : Text) : List (StepRow P) := ((db.runs.get? runId).map RunRow.steps).getD []

def Db.updateSteps (db : Db P) (runId : Text) (f : List (StepRow P) → List (StepRow P)) : Db P :=
  { db with runs := db.runs.modify runId fun run => { run with steps := f run.steps } }

end Steps

/-! ## The audit chain -/

/-- The hash that the first event of a run continues. -/
def zeroHash : Text := List.replicate 64 (ch '0')

def previousHash (audit : List AuditEvent) (runId : Text) : Text :=
  ((audit.filter fun e => decide (e.runId = runId)).getLast?.map AuditEvent.eventHash).getD zeroHash

/-- The text that the identifier of an event is the digest of. -/
def eventSeed (runId kind createdAt : Text) (stepId : Option Text) (previous : Text) : Text :=
  runId ++ ch ':' :: kind ++ ch ':' :: createdAt ++ ch ':' :: stepId.getD [] ++ ch ':' :: previous

def eventBody (P : Platform) (eventId runId : Text) (stepId : Option Text) (kind actor summary : Text)
    (payload : P.Json)
    (createdAt : Text) : P.Json :=
  .dict [(lit "eventID", .str eventId), (lit "runID", .str runId),
    (lit "stepID", match stepId with
      | some s => .str s
      | none => .none),
    (lit "kind", .str kind), (lit "actor", .str actor), (lit "summary", .str summary), (lit "payload", payload),
    (lit "createdAt", .str createdAt)]

/-- What an event tells, apart from its place in the chain. -/
structure EventContent (P : Platform) where
  stepId : Option Text
  kind : Text
  actor : Text
  summary : Text
  payload : P.Json
  createdAt : Text

/-- One more event of the hash chain of a run. -/
def appendAudit (db : Db P) (runId : Text) (e : EventContent P) : Except BootstrapError (Db P) :=
  let previous := previousHash db.audit runId
  let eventId := lit "bootstrap-event-" ++ P.hexprefix (eventSeed runId e.kind e.createdAt e.stepId previous)
  match canonical P (eventBody P eventId runId e.stepId e.kind e.actor e.summary e.payload e.createdAt),
      canonicalText P.floats e.payload with
  | some body, some payloadJson =>
    let eventHash := P.hexdigest (previous ++ body)
    if db.audit.any fun old => decide (old.eventId = eventId) || decide (old.eventHash = eventHash) then
      .error (.integrityError "UNIQUE bootstrap_audit_events")
    else
      .ok { db with audit := db.audit ++ [{
        eventId, runId, stepId := e.stepId, kind := e.kind, actor := e.actor, summary := e.summary, payloadJson
        previousHash := previous, eventHash, createdAt := e.createdAt }] }
  | _, _ => .error (.typeError "payload is not JSON serializable")

/-! ## Reconciliation -/

def promotionEvent (actor createdAt : Text) (step : StepRow P) : EventContent P where
  stepId := some step.stepId
  kind := step.eventKind
  actor := actor
  summary := lit "Bootstrap step is " ++ step.nextState.value
  payload := .dict [(lit "phase", .str step.phase), (lit "action", .str step.action),
    (lit "requiredCapability", match step.requiredCapability with
      | some c => .str c
      | none => .none)]
  createdAt := createdAt

/-- One row of a pass; the flag tells whether something has changed. -/
def promote (runId actor createdAt : Text) (acc : Db P × Bool) (step : StepRow P) :
    Except BootstrapError (Db P × Bool) :=
  if step.state ≠ .pending then .ok acc
  else if !dependenciesSatisfied (acc.1.stepsOf runId) step.dependencies then .ok acc
  else do
    let db := acc.1.updateSteps runId (updateStep step.stepId fun s =>
      { s with state := step.nextState, updatedAt := createdAt })
    let db ← appendAudit db runId (promotionEvent actor createdAt step)
    return (db, true)

/-- One pass over the rows as they were read at its beginning. -/
def promotePass (runId actor createdAt : Text) (db : Db P) : Except BootstrapError (Db P × Bool) :=
  (db.stepsOf runId).foldlM (promote runId actor createdAt) (db, false)

/-- Passes until one changes nothing; every other one leaves fewer pending steps. -/
def promoteLoop (runId actor createdAt : Text) : Nat → Db P → Except BootstrapError (Db P)
  | 0, db => .ok db
  | n + 1, db => do
    let (db, changed) ← promotePass runId actor createdAt db
    if changed then promoteLoop runId actor createdAt n db else return db

/-- Promote the pending steps whose dependencies are satisfied, until none is left. -/
def reconcile (runId actor createdAt : Text) (db : Db P) : Except BootstrapError (Db P) := do
  let db ← promoteLoop runId actor createdAt ((db.stepsOf runId).length + 1) db
  let steps := db.stepsOf runId
  return { db with runs := db.runs.modify runId fun run =>
    { run with
      state := runState steps
      currentPhase := some (currentPhase steps)
      updatedAt := createdAt
      completedAt := if runState steps = .complete then some createdAt else none } }

/-! ## Transactions -/

def initializeRun (db : Db P) (runId : Text) (profile plan : P.Json) (actor : Text) (now : Stamp) :
    Except BootstrapError (Db P) :=
  if isIdentifier runId && isIdentifier actor then do
    let steps ← validatePlan P plan
    let planDigest ← digest P plan
    let profileDigest ← digest P profile
    match db.runs.get? runId with
    | some existing =>
      if existing.planDigest ≠ planDigest ∨ existing.profileDigest ≠ profileDigest then
        .error (.valueError "bootstrap run already exists with different discovery/plan evidence")
      else return db
    | none =>
      let rows ← stepRows P now 0 [] steps
      let run : RunRow P := {
        planDigest, profileDigest, state := .active, currentPhase := none, createdAt := now.text,
        updatedAt := now.text, completedAt := none, steps := rows }
      let db := { db with runs := db.runs.upsert runId run }
      let db ← appendAudit db runId {
        stepId := none
        kind := lit "bootstrapRunInitialized"
        actor := actor
        summary := lit "Durable bootstrap run initialized without host mutation"
        payload := .dict [(lit "planDigest", .str planDigest), (lit "profileDigest", .str profileDigest)]
        createdAt := now.text }
      reconcile runId actor now.text db
  else .error (.valueError "run_id and actor must be machine identifiers")

/-- `_validate_mutating_result`, and what is asked of the other results. -/
def admitResult (step : StepRow P) (r : StepResult P) : Except BootstrapError Unit :=
  if step.mutating then
    if r.executionMode ≠ .externallyExecuted then
      .error (.valueError "mutating step must be executed by an external authorized broker")
    else
      match r.authorization with
      | none => .error (.valueError "mutating step requires an external authorization reference")
      | some a =>
        if some a.capability ≠ step.requiredCapability then
          .error (.valueError "authorization capability does not match the planned operation")
        else if a.authorityType = .privilegeBroker ∧ a.verifiedBy.isEmpty = true then
          .error (.valueError "Privilege Broker result must identify its verifier")
        else .ok ()
  else if r.executionMode ≠ .observedOnly then
    .error (.valueError "non-mutating step must use observedOnly execution mode")
  else .ok ()

def Outcome.stepState : Outcome → StepState
  | .succeeded => .satisfied
  | .failed => .failed

def resultEvent (r : StepResult P) : EventContent P where
  stepId := some r.stepId
  kind := lit "bootstrapStepResultRecorded"
  actor := r.actor
  summary := lit "Bootstrap step recorded as " ++ r.outcome.stepState.value
  payload := .dict [(lit "resultDigest", .str r.digest), (lit "outcome", .str r.outcome.value),
    (lit "executionMode", .str r.executionMode.value),
    (lit "authorizationReference", match r.authorization with
      | some a => .str a.grantReference
      | none => .none)]
  createdAt := r.observedAt.text

def recordResult (db : Db P) (r : StepResult P) : Except BootstrapError (Db P) :=
  match db.receipts.get? r.idempotencyKey with
  | some receipt =>
    if receipt.resultDigest ≠ r.digest then
      .error (.valueError "idempotency key was already used for a different result")
    else if receipt.runId ≠ r.runId then
      .error (.valueError "idempotency key belongs to a different bootstrap run")
    else .ok db
  | none =>
    match findStep (db.stepsOf r.runId) r.stepId with
    | none => .error (.keyError "unknown bootstrap step")
    | some step =>
      if step.state = .satisfied then
        .error (.valueError "satisfied bootstrap step requires the original idempotency key")
      else if !step.state.actionable then .error (.valueError "bootstrap step is not actionable")
      else if !dependenciesSatisfied (db.stepsOf r.runId) step.dependencies then
        .error (.valueError "bootstrap step dependencies are not satisfied")
      else do
        admitResult step r
        let db := db.updateSteps r.runId (updateStep r.stepId fun s =>
          { s with state := r.outcome.stepState, result := some r, updatedAt := r.observedAt.text })
        let receipt : ReceiptRow := ⟨r.runId, r.stepId, r.digest, r.observedAt.text⟩
        let db := { db with receipts := db.receipts.upsert r.idempotencyKey receipt }
        let db ← appendAudit db r.runId (resultEvent r)
        reconcile r.runId (lit "bootstrap") r.observedAt.text db

/-! ## The chain as it is read -/

/-- An event of the projection of a run. -/
structure ProjectedEvent (P : Platform) where
  eventId : Text
  content : EventContent P
  previousHash : Text
  eventHash : Text

/-- `json.loads`. -/
def loadPayload (P : Platform) (text : Text) : Option P.Json :=
  (loadsText P.floats.toFloatFormat (fun pairs => (.ok (objectOf pairs) : Except Empty P.Json)) text).toOption

def AuditEvent.project (P : Platform) (e : AuditEvent) : Option (ProjectedEvent P) :=
  (loadPayload P e.payloadJson).map fun payload =>
    ⟨e.eventId, ⟨e.stepId, e.kind, e.actor, e.summary, payload, e.createdAt⟩, e.previousHash, e.eventHash⟩

/-- The audit of `get_run`, for the rows of one run. -/
def getAudit (P : Platform) (rows : List AuditEvent) : Option (List (ProjectedEvent P)) :=
  rows.mapM (AuditEvent.project P)

def Db.auditOf (db : Db P) (runId : Text) : List AuditEvent := db.audit.filter fun e => decide (e.runId = runId)

/-- `_verify_audit_projection`, from the hash before the events. -/
def verifyAudit (P : Platform) (runId : Text) : Text → List (ProjectedEvent P) → Bool
  | _, [] => true
  | previous, e :: events =>
    if e.previousHash ≠ previous then false
    else
      match canonical P (eventBody P e.eventId runId e.content.stepId e.content.kind e.content.actor e.content.summary
        e.content.payload e.content.createdAt) with
      | none => false
      | some body =>
        if e.eventHash ≠ P.hexdigest (previous ++ body) then false
        else verifyAudit P runId (P.hexdigest (previous ++ body)) events

/-- `verify_audit_chain`, on the rows of one run. -/
def auditChainValid (P : Platform) (runId : Text) (rows : List AuditEvent) : Bool :=
  (getAudit P rows).any (verifyAudit P runId zeroHash)

/-! ## Sequences of calls -/

inductive Call (P : Platform) where
  | create (runId : Text) (profile plan : P.Json) (actor : Text) (now : Stamp)
  | record (result : StepResult P)

def Call.exec (db : Db P) : Call P → Except BootstrapError (Db P)
  | .create runId profile plan actor now => initializeRun db runId profile plan actor now
  | .record result => recordResult db result

/-- A call that raises is rolled back. -/
def Call.apply (db : Db P) (c : Call P) : Db P :=
  match c.exec db with
  | .ok db' => db'
  | .error _ => db

def runCalls (db : Db P) (calls : List (Call P)) : Db P := calls.foldl Call.apply db

/-- The call commits. -/
def Call.Accepted (db : Db P) (c : Call P) : Prop := ∃ db', c.exec db = .ok db'

end AgentFabric.Bootstrap
