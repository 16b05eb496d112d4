import Mathlib.Data.List.Basic

/-!
# Persisted states and their transition tables

The enumerations of `domain.py`, the closed sets of the `CHECK` columns, and the tables of `state_machine.py`.
-/

namespace AgentFabric

/-- The white space that `str.strip` removes. -/
def isSpace (c : Char) : Bool :=
  (9 ≤ c.toNat && c.toNat ≤ 13) || (28 ≤ c.toNat && c.toNat ≤ 32) || (0x2000 ≤ c.toNat && c.toNat ≤ 0x200A) ||
    [0x85, 0xA0, 0x1680, 0x2028, 0x2029, 0x202F, 0x205F, 0x3000].contains c.toNat

/-- `not text.strip()`. -/
def blank (text : String) : Bool := text.toList.all isSpace

inductive TaskState where
  | draft | queued | ready | running | waiting | reviewing | blocked | interrupted | succeeded | failed | cancelled
deriving DecidableEq, Repr

def TaskState.value : TaskState → String
  | .draft => "draft" | .queued => "queued" | .ready => "ready" | .running => "running"
  | .waiting => "waiting" | .reviewing => "reviewing" | .blocked => "blocked"
  | .interrupted => "interrupted" | .succeeded => "succeeded" | .failed => "failed" | .cancelled => "cancelled"

inductive RunState where
  | starting | running | waiting | completed | failed | cancelled | timedOut | interrupted | authRequired
  | rateLimited
deriving DecidableEq, Repr

def RunState.value : RunState → String
  | .starting => "starting" | .running => "running" | .waiting => "waiting" | .completed => "completed"
  | .failed => "failed" | .cancelled => "cancelled" | .timedOut => "timedOut"
  | .interrupted => "interrupted" | .authRequired => "authRequired" | .rateLimited => "rateLimited"

/-- The states of `('starting','running','waiting')`. -/
def RunState.active : RunState → Bool
  | .starting | .running | .waiting => true
  | _ => false

inductive WorkerState where
  | idle | starting | running | waiting | rateLimited | stopping | offline | failed
deriving DecidableEq, Repr

def WorkerState.releasable : WorkerState → Bool
  | .starting | .running | .waiting | .stopping => true
  | _ => false

/-- The worker states of `('starting','running','waiting')`. -/
def WorkerState.busy : WorkerState → Bool
  | .starting | .running | .waiting => true
  | _ => false

inductive ResourceState where
  | available | warning | rateLimited | budgetExhausted | cooldown | unknown
deriving DecidableEq, Repr

inductive ExecutionTopology where
  | single | primaryReviewer | parallelPanel | cheapFirstEscalation | fallback
deriving DecidableEq, Repr

inductive FailureClass where
  | blockedByHuman | transient | implementationBug | versionDifference | infrastructure | designChangeRequired
  | unsafeToContinue | auth | rateLimit | timeout | cancelled
deriving DecidableEq, Repr

inductive LeaseState where
  | active | released
deriving DecidableEq, Repr

inductive LaunchState where
  | prepared | launching | bound | terminal | uncertain
deriving DecidableEq, Repr

inductive ReconciliationState where
  | unknown | knownRunning | knownCompleted | knownFailed | knownCancelled | providerNotFound
  | providerUnreachable
deriving DecidableEq, Repr

inductive CollectionState where
  | pending | collected | notAvailable | uncertain
deriving DecidableEq, Repr

inductive EscalationState where
  | opened | resolved | dismissed
deriving DecidableEq, Repr

inductive EscalationCode where
  | providerStateAmbiguous | externalJobUnreachable | idempotencyUncertain | resumeUnsupported
  | resultCollectionUncertain
deriving DecidableEq, Repr

/-- What a store operation raises; a raised operation commits nothing. -/
inductive StoreError where
  | keyError (key : String)
  | valueError (message : String)
  | typeError (message : String)
  | runtimeError (message : String)
  | verificationPolicy (message : String)
  | invalidTransition (message : String)
  | executionLeaseLost (message : String)
  | integrityError (message : String)
deriving DecidableEq, Repr

/-- Raise unless the condition holds. -/
def ensure {ε : Type} (c : Prop) [Decidable c] (e : ε) : Except ε Unit :=
  if c then .ok () else .error e

@[simp] theorem ensure_eq_ok {ε : Type} {c : Prop} [Decidable c] {e : ε} {u : Unit} : ensure c e = .ok u ↔ c := by
  unfold ensure
  split <;> simp_all

/-- A query result that must exist. -/
def orRaise {ε α : Type} (o : Option α) (e : ε) : Except ε α :=
  match o with
  | some a => .ok a
  | none => .error e

@[simp] theorem orRaise_eq_ok {ε α : Type} {o : Option α} {e : ε} {a : α} :
    orRaise o e = .ok a ↔ o = some a := by
  cases o <;> simp [orRaise]

@[simp] theorem bind_eq_ok {ε α β : Type} {x : Except ε α} {f : α → Except ε β} {b : β} :
    x >>= f = .ok b ↔ ∃ a, x = .ok a ∧ f a = .ok b := by
  cases x with
  | error => simp [Bind.bind, Except.bind]
  | ok => simp [Bind.bind, Except.bind]

@[simp] theorem pure_eq_ok {ε α : Type} {a b : α} : (pure a : Except ε α) = .ok b ↔ a = b := by
  simp [pure, Except.pure]

/-! ## Transition tables -/

/-- The targets of each state; a state may always be written again. -/
structure TransitionTable (σ : Type) where
  transitions : σ → List σ
  value : σ → String

def TransitionTable.allows {σ : Type} [DecidableEq σ] (t : TransitionTable σ) (current target : σ) : Bool :=
  decide (current = target) || decide (target ∈ t.transitions current)

def TransitionTable.require {σ : Type} [DecidableEq σ] (t : TransitionTable σ) (current target : σ) :
    Except StoreError Unit :=
  ensure (t.allows current target = true)
    (.invalidTransition ("illegal transition: " ++ t.value current ++ " -> " ++ t.value target))

def taskTransitions : TransitionTable TaskState where
  value := TaskState.value
  transitions
    | .draft => [.queued, .cancelled]
    | .queued => [.ready, .blocked, .cancelled, .failed]
    | .ready => [.running, .blocked, .cancelled, .failed]
    | .running => [.waiting, .reviewing, .succeeded, .failed, .cancelled, .interrupted]
    | .waiting => [.ready, .running, .blocked, .failed, .cancelled]
    | .reviewing => [.ready, .succeeded, .failed, .blocked, .cancelled]
    | .blocked => [.ready, .cancelled, .failed]
    | .interrupted => [.ready, .failed, .cancelled]
    | .succeeded | .failed | .cancelled => []

def runTransitions : TransitionTable RunState where
  value := RunState.value
  transitions
    | .starting => [.running, .failed, .cancelled, .authRequired, .rateLimited]
    | .running => [.waiting, .completed, .failed, .cancelled, .timedOut, .interrupted, .authRequired, .rateLimited]
    | .waiting => [.running, .completed, .failed, .cancelled]
    | .completed | .failed | .cancelled | .timedOut | .interrupted | .authRequired | .rateLimited => []

@[simp] theorem require_eq_ok {σ : Type} [DecidableEq σ] {t : TransitionTable σ} {current target : σ} {u : Unit} :
    t.require current target = .ok u ↔ t.allows current target = true := by
  simp [TransitionTable.require]

/-- `{SUCCEEDED, FAILED, CANCELLED}`. -/
def TaskState.terminal : TaskState → Bool
  | .succeeded | .failed | .cancelled => true
  | _ => false

theorem taskTransitions_terminal {s s' : TaskState} (h : s.terminal = true)
    (ha : taskTransitions.allows s s' = true) : s' = s := by
  cases s <;> simp_all [TaskState.terminal, TransitionTable.allows, taskTransitions]

theorem runTransitions_terminal {s s' : RunState} (h : s.active = false)
    (ha : runTransitions.allows s s' = true) : s' = s := by
  cases s <;> simp_all [RunState.active, TransitionTable.allows, runTransitions]

end AgentFabric
