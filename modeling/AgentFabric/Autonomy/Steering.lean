import AgentFabric.Lib.Handlers
import AgentFabric.Autonomy.GoalFencing
import AgentFabric.Store.Records

/-!
# The steers of a goal

A steer appends a row, counts the goal's steer version up and rewrites the goal's effective intent, in one transaction.
The three are stored apart, and engines, hosts and other clients run in between.
-/

namespace AgentFabric.Autonomy.Steering

open AgentFabric.Lib AgentFabric.Store
open AgentFabric.Store.Redaction (UnicodeTables)
open AgentFabric.Store.Records (redactString)

/-! ## The store with the texts of its goals -/

/-- The texts of a goal. -/
structure GoalTexts where
  intent : String
  effectiveIntent : String
deriving DecidableEq, Repr

structure SteerRow where
  goalId : String
  sequence : Nat
  instruction : String
  priority : Option Int
  preserveValidWork : Bool
  actor : String
deriving DecidableEq, Repr

/-- The store and the hosts with the texts of the goals and the table of steers. -/
structure SteeredDb where
  host : HostDb
  texts : Table String GoalTexts
  steers : Table String SteerRow

def SteeredDb.initial : SteeredDb := ⟨HostDb.initial, .empty, .empty⟩

def SteeredDb.withDb (w : SteeredDb) (db : Db) : SteeredDb := { w with host := { w.host with db := db } }

/-- What `steer` is told. -/
structure SteerArgs where
  goalId : String
  instruction : String
  priority : Option Int
  preserveValidWork : Bool
  actor : String
deriving DecidableEq, Repr

def steeredIntent (effectiveIntent : String) (sequence : Nat) (instruction : String) : String :=
  effectiveIntent ++ "\n\nSteer " ++ toString sequence ++ ": " ++ instruction

def steerTaken (steers : Table String SteerRow) (goalId : String) (sequence : Nat) : Bool :=
  steers.any fun _ r => decide (r.goalId = goalId ∧ r.sequence = sequence)

section

variable (u : UnicodeTables)

def createGoal (w : SteeredDb) (goalId projectId intent : String) (budgets : GoalBudget) :
    Except StoreError (Unit × SteeredDb) := do
  let r ← Store.createGoal w.host.db goalId projectId intent budgets
  let safeIntent := redactString u intent
  return ((), { w.withDb r.2 with texts := w.texts.upsert goalId ⟨safeIntent, safeIntent⟩ })

def SteerArgs.row (args : SteerArgs) (sequence : Nat) : SteerRow :=
  ⟨args.goalId, sequence, redactString u args.instruction, args.priority, args.preserveValidWork, args.actor⟩

def steer (w : SteeredDb) (args : SteerArgs) (uuid : String) : Except StoreError (Unit × SteeredDb) := do
  let r ← steerGoal w.host.db args.goalId args.instruction args.priority
  let goal ← getGoal w.host.db args.goalId
  let texts ← orRaise (w.texts.get? args.goalId) (.keyError args.goalId)
  let sequence := goal.steerVersion + 1
  let effective := steeredIntent texts.effectiveIntent sequence (redactString u args.instruction)
  ensure (steerTaken w.steers args.goalId sequence = false)
    (.integrityError "UNIQUE constraint failed: autonomous_steers.goal_id, autonomous_steers.sequence")
  let steers ← orRaise (w.steers.insert? ("steer-" ++ uuid) (args.row u sequence))
    (.integrityError "UNIQUE constraint failed: autonomous_steers.id")
  return ((), { w.withDb r.2 with
    texts := w.texts.modify args.goalId fun t => { t with effectiveIntent := effective }
    steers := steers })

/-- A transaction of a goal; a steer without more arguments keeps valid work and is a human one. -/
def transact (w : SteeredDb) (uuid : String) : (op : GoalOp) → Except StoreError (op.Reply × SteeredDb)
  | .createGoal goalId projectId intent budgets => createGoal u w goalId projectId intent budgets
  | .steer goalId instruction priority => steer u w ⟨goalId, instruction, priority, true, "human"⟩ uuid
  | op => (execGoal op w.host.db).map fun r => (r.1, w.withDb r.2)

/-- A transaction that raises commits nothing. -/
def commitAll {α : Type} (w : SteeredDb) (op : Except StoreError (α × SteeredDb)) : Except StoreError α × SteeredDb :=
  match op with
  | .ok (a, w') => (.ok a, w')
  | .error e => (.error e, w)

inductive SteerCall where
  | host (c : HostCall)
  | steer (args : SteerArgs)

abbrev SteerCall.Reply : SteerCall → Type
  | .host c => c.Reply
  | .steer _ => Except StoreError Unit

def steeredAct (dg : Digests) (w : SteeredDb) (env : Environment) : (c : SteerCall) → c.Reply × SteeredDb
  | .steer args => commitAll w (steer u w args env.uuid)
  | .host (.engine _ (.transact op)) => commitAll w (transact u w env.uuid op)
  | .host (.engine _ (.store (.goal op))) => commitAll w (transact u w env.uuid op)
  | .host (.client (.transact op)) => commitAll w (transact u w env.uuid op)
  | .host (.client (.store (.goal op))) => commitAll w (transact u w env.uuid op)
  | .host c => ((hostAct dg w.host env c).1, { w with host := (hostAct dg w.host env c).2 })

def steeredMachine (dg : Digests) : Machine Nat SteeredDb SteerCall SteerCall.Reply Environment where
  act _ w env c := steeredAct u dg w env c

end

/-- The calls of hosts and other clients. -/
def asHost : HostProg Unit → Prog SteerCall SteerCall.Reply Unit
  | .ret a => .ret a
  | .call c next => .call (.host c) fun r => asHost (next r)

inductive SteerRequest where
  | host (request : HostRequest)
  | steer (args : SteerArgs)

def serveSteered (uuid5 : String → String) : Nat → SteerRequest → Prog SteerCall SteerCall.Reply Unit
  | i, .host request => asHost (serveHost uuid5 i request)
  | _, .steer args => .call (.steer args) fun _ => .ret ()

abbrev SteerEvent := Lib.Event Nat SteerCall SteerCall.Reply

abbrev SteerHistory := Traced Nat SteeredDb SteerCall SteerCall.Reply

/-- A schedule of hosts, heartbeats, controls, steers, store operations, crashes and restarts, with its calls. -/
def steeredRun (u : UnicodeTables) (dg : Digests) (uuid5 : String → String)
    (moves : List (Move Nat SteerRequest Environment)) : SteerHistory :=
  ((Pool.quiet ⟨SteeredDb.initial, []⟩).run (steeredMachine u dg).traced (serveSteered uuid5) moves).shared

/-! ## Accepted calls -/

def GoalOp.acceptedSteer : (op : GoalOp) → Except StoreError op.Reply → Option SteerArgs
  | .steer goalId instruction priority, .ok _ => some ⟨goalId, instruction, priority, true, "human"⟩
  | _, _ => none

def GoalOp.acceptedGoal : (op : GoalOp) → Except StoreError op.Reply → Option (String × String)
  | .createGoal goalId _ intent _, .ok _ => some (goalId, intent)
  | _, _ => none

/-- The call is a steer that was accepted. -/
def acceptedSteer : SteerEvent → Option SteerArgs
  | ⟨_, .steer args, .ok _⟩ => some args
  | ⟨_, .host (.engine _ (.transact op)), r⟩ => GoalOp.acceptedSteer op r
  | ⟨_, .host (.engine _ (.store (.goal op))), r⟩ => GoalOp.acceptedSteer op r
  | ⟨_, .host (.client (.transact op)), r⟩ => GoalOp.acceptedSteer op r
  | ⟨_, .host (.client (.store (.goal op))), r⟩ => GoalOp.acceptedSteer op r
  | _ => none

/-- The call has created a goal, with this intent. -/
def acceptedGoal : SteerEvent → Option (String × String)
  | ⟨_, .host (.engine _ (.transact op)), r⟩ => GoalOp.acceptedGoal op r
  | ⟨_, .host (.engine _ (.store (.goal op))), r⟩ => GoalOp.acceptedGoal op r
  | ⟨_, .host (.client (.transact op)), r⟩ => GoalOp.acceptedGoal op r
  | ⟨_, .host (.client (.store (.goal op))), r⟩ => GoalOp.acceptedGoal op r
  | _ => none

/-- The accepted steers of a goal, in the order of their calls. -/
def acceptedSteers (trace : List SteerEvent) (g : String) : List SteerArgs :=
  (trace.filterMap acceptedSteer).filter fun a => decide (a.goalId = g)

/-- The intent that the goal was created with. -/
def originalIntent (trace : List SteerEvent) (g : String) : Option String :=
  ((trace.filterMap acceptedGoal).find? fun e => decide (e.1 = g)).map Prod.snd

/-! ## What a call does -/

variable {u : UnicodeTables} {dg : Digests} {w w' : SteeredDb} {g : String}

def SteeredDb.version (w : SteeredDb) (g : String) : Option Nat := (w.host.db.goals.get? g).map (·.steerVersion)

/-- A call creates a goal, steers one, or leaves versions, texts and steers as they are. -/
inductive Step (u : UnicodeTables) (w w' : SteeredDb) : Option SteerArgs → Option (String × String) → Prop
  | quiet (version : ∀ k, w'.version k = w.version k) (texts : w'.texts = w.texts) (steers : w'.steers = w.steers) :
    Step u w w' none none
  | created (goalId intent : String) (fresh : w.version goalId = none)
    (version : ∀ k, w'.version k = if k = goalId then some 0 else w.version k)
    (texts : w'.texts = w.texts.upsert goalId ⟨redactString u intent, redactString u intent⟩)
    (steers : w'.steers = w.steers) : Step u w w' none (some (goalId, intent))
  | steered (args : SteerArgs) (n : Nat) (t : GoalTexts) (id : String) (row : w.version args.goalId = some n)
    (before : w.texts.get? args.goalId = some t)
    (version : ∀ k, w'.version k = if k = args.goalId then some (n + 1) else w.version k)
    (texts : w'.texts = w.texts.modify args.goalId fun t' =>
      { t' with effectiveIntent := steeredIntent t.effectiveIntent (n + 1) (redactString u args.instruction) })
    (steers : w.steers.insert? id (args.row u (n + 1)) = some w'.steers) : Step u w w' (some args) none

theorem Step.of_goals {db : Db} (h : db.goals = w.host.db.goals) : Step u w (w.withDb db) none none :=
  .quiet (fun k => by simp only [SteeredDb.version, SteeredDb.withDb, h]) rfl rfl

theorem Step.of_edit {db : Db} {id : String} {f : GoalRow → GoalRow}
    (hf : ∀ goal, (f goal).steerVersion = goal.steerVersion)
    (h : db.goals = w.host.db.goals.modify id f) : Step u w (w.withDb db) none none := by
  refine .quiet (fun k => ?_) rfl rfl
  simp only [SteeredDb.version, SteeredDb.withDb, h, Table.get?_modify]
  split
  · rw [Option.map_map]
    congr 1
    exact funext hf
  · rfl

theorem createGoal_step {goalId projectId intent : String} {budgets : GoalBudget} {r : Unit}
    (h : createGoal u w goalId projectId intent budgets = .ok (r, w')) : Step u w w' none (some (goalId, intent)) := by
  simp only [createGoal, bind_eq_ok, pure_eq_ok, Prod.mk.injEq] at h
  obtain ⟨⟨_, db⟩, hcreate, -, rfl⟩ := h
  simp only [Store.createGoal, bind_eq_ok, orRaise_eq_ok, pure_eq_ok, Prod.mk.injEq] at hcreate
  obtain ⟨_, -, goals, hinsert, -, rfl⟩ := hcreate
  refine .created goalId intent ?_ (fun k => ?_) rfl rfl
  · rw [SteeredDb.version, Table.insert?_fresh hinsert, Option.map_none]
  · simp only [SteeredDb.version, SteeredDb.withDb, Table.get?_insert hinsert]
    split <;> rfl

variable {uuid : String}

theorem steer_step {args : SteerArgs} {r : Unit} (h : steer u w args uuid = .ok (r, w')) :
    Step u w w' (some args) none := by
  simp only [steer, bind_eq_ok, getGoal_eq_ok, orRaise_eq_ok, pure_eq_ok, Prod.mk.injEq] at h
  obtain ⟨⟨_, db⟩, hsteer, goal, hgoal, t, ht, _, -, steers, hinsert, -, rfl⟩ := h
  obtain ⟨_, events, hgoal', -, rfl⟩ := steerGoal_ok hsteer
  obtain rfl := Option.some.inj (hgoal.symm.trans hgoal')
  refine .steered args goal.steerVersion t ("steer-" ++ uuid) ?_ ht (fun k => ?_) rfl hinsert
  · rw [SteeredDb.version, hgoal, Option.map_some]
  · simp only [SteeredDb.version, SteeredDb.withDb, setGoal, Table.get?_modify]
    split
    · next hk =>
      subst hk
      rw [hgoal]
      rfl
    · rfl

def writesTexts : GoalOp → Bool
  | .createGoal .. | .steer .. => true
  | _ => false

variable {op : GoalOp}

/-- The other transactions keep every version. -/
theorem execGoal_step {r : op.Reply} {db : Db} (h : execGoal op w.host.db = .ok (r, db))
    (hop : writesTexts op = false) : Step u w (w.withDb db) none none := by
  cases op with
  | createGoal => exact nomatch hop
  | steer => exact nomatch hop
  | pause goalId mode =>
    rcases pauseGoal_ok h with rfl | ⟨_, _, _, rfl⟩
    · exact .of_goals rfl
    · exact .of_edit (f := (·.withState mode.target)) (fun _ => rfl) rfl
  | resume goalId now =>
    obtain ⟨_, _, _, rfl⟩ := resumeGoal_ok h
    exact .of_edit (f := (·.resume now)) (fun _ => rfl) rfl
  | stop goalId reason =>
    obtain ⟨_, _, _, rfl⟩ := stopGoal_ok h
    exact .of_edit (f := (·.finish .stopped .userStopped reason)) (fun _ => rfl) rfl
  | start goalId now =>
    rcases startGoal_ok h with rfl | ⟨_, _, _, rfl⟩
    · exact .of_goals rfl
    · exact .of_edit (f := (·.start now)) (fun _ => rfl) rfl
  | beginIteration =>
    obtain ⟨goal, _, _, _, _, rfl⟩ := beginIteration_ok h
    exact .of_edit (f := (·.iterate (goal.iterationCount + 1))) (fun _ => rfl) rfl
  | recordEvaluation iterationId evaluation =>
    obtain ⟨_, _, ⟨_, rfl⟩ | ⟨_, rfl⟩⟩ := recordEvaluation_ok h
    · exact .of_goals rfl
    · exact .of_edit (f := (·.evaluated evaluation.progressFingerprint)) (fun _ => rfl) rfl
  | recordPlan iterationId goalId plan =>
    rcases recordPlan_ok h with ⟨_, rfl⟩ | ⟨_, _, rfl⟩
    · exact .of_goals rfl
    · exact .of_edit (f := (·.addTasks plan.actions.length)) (fun _ => rfl) rfl
  | recordVerification =>
    rcases recordGoalVerification_ok h with ⟨_, rfl⟩ | ⟨_, rfl⟩ <;> exact .of_goals rfl
  | phaseIsCurrent =>
    rcases phaseIsCurrent_ok h with ⟨_, rfl⟩ | ⟨_, rfl⟩ <;> exact .of_goals rfl
  | completeReplan goalId iterationId verification failures =>
    obtain rfl := completeReplan_ok h
    exact .of_edit (f := (·.replan verification.progressFingerprint failures)) (fun _ => rfl) rfl
  | terminate goalId reason detail =>
    rcases terminateGoal_ok h with rfl | ⟨_, _, _, rfl⟩
    · exact .of_goals rfl
    · exact .of_edit (f := (·.finish .terminated reason detail)) (fun _ => rfl) rfl
  | terminatePhaseIfCurrent goalId iterationId reason detail =>
    rcases terminatePhaseIfCurrent_ok h with rfl | rfl | ⟨_, _, _, _, rfl⟩
    · exact .of_goals rfl
    · exact .of_goals rfl
    · exact .of_edit (f := (·.finish .terminated reason detail)) (fun _ => rfl) rfl
  | interruptForSteer =>
    obtain rfl := interruptForSteer_ok h
    exact .of_goals rfl
  | setIterationState =>
    cases h
    exact .of_goals rfl
  | setAction =>
    obtain rfl := setAction_ok h
    exact .of_goals rfl

theorem transact_other (hop : writesTexts op = false) :
    transact u w uuid op = (execGoal op w.host.db).map fun r => (r.1, w.withDb r.2) := by
  cases op with
  | createGoal => exact nomatch hop
  | steer => exact nomatch hop
  | _ => rfl

/-- A transaction steers as its answer says. -/
theorem transact_step {r : op.Reply} (h : transact u w uuid op = .ok (r, w')) :
    Step u w w' (GoalOp.acceptedSteer op (.ok r)) (GoalOp.acceptedGoal op (.ok r)) := by
  cases op with
  | createGoal => exact createGoal_step h
  | steer => exact steer_step h
  | _ =>
    rw [transact_other rfl] at h
    obtain ⟨⟨_, db⟩, hexec, heq⟩ := Records.map_eq_ok.mp h
    obtain ⟨-, rfl⟩ := Prod.mk.inj heq
    exact execGoal_step hexec rfl

theorem commitAll_step : Step u w (commitAll w (transact u w uuid op)).2
    (GoalOp.acceptedSteer op (commitAll w (transact u w uuid op)).1)
    (GoalOp.acceptedGoal op (commitAll w (transact u w uuid op)).1) := by
  cases h : transact u w uuid op with
  | ok => exact transact_step h
  | error =>
    have hnone : ∀ {α : Type} {f : α → Option (String × String)} {f' : α → Option SteerArgs} {a : α}, f a = none →
        f' a = none → Step u w w (f' a) (f a) := by
      intro α f f' a h h'
      rw [h, h']
      exact .quiet (fun _ => rfl) rfl rfl
    exact hnone (by cases op <;> rfl) (by cases op <;> rfl)

def writesGoals : Call → Bool
  | .transact _ => true
  | .store op => op.writesGoals
  | _ => false

theorem commit_goals {α : Type} {db : Db} {op : Except StoreError (α × Db)}
    (h : ∀ r db', op = .ok (r, db') → db'.goals = db.goals) : (commit db op).2.goals = db.goals := by
  cases op with
  | ok x => exact h x.1 x.2 rfl
  | error => rfl

theorem act_goals (dg : Digests) (db : Db) (env : Environment) {c : Call} (h : writesGoals c = false) :
    (act dg db env c).2.goals = db.goals := by
  cases c with
  | transact => exact nomatch h
  | store => exact commit_goals fun r db' hexec => (exec_frame hexec).goals h
  | _ => rfl

theorem engineAct_goals (dg : Digests) (host : HostDb) (env : Environment) (claim : GoalLeaseClaim)
    {c : Call} (h : writesGoals c = false) : (engineAct dg host env claim c).2.db.goals = host.db.goals := by
  cases c with
  | transact => exact nomatch h
  | store => exact act_goals dg host.db env h
  | cancel =>
    simp only [engineAct, cancelHandle]
    split
    · rfl
    · exact commit_goals fun r db' hexec => (exec_frame hexec).goals rfl
  | _ => rfl

theorem hostCommit_goals {α : Type} {host : HostDb} {op : Except StoreError (α × HostDb)}
    (h : ∀ r host', op = .ok (r, host') → host'.db = host.db) : (hostCommit host op).2.db = host.db := by
  cases op with
  | ok x => exact h x.1 x.2 rfl
  | error => rfl

theorem hostAct_goals (dg : Digests) (host : HostDb) (env : Environment) {c : HostCall}
    (hengine : ∀ claim c', c = .engine claim c' → writesGoals c' = false)
    (hclient : ∀ c', c = .client c' → writesGoals c' = false) :
    (hostAct dg host env c).2.db.goals = host.db.goals := by
  cases c with
  | register =>
    refine congrArg Db.goals (hostCommit_goals fun r host' h => ?_)
    simp only [registerHost, bind_eq_ok, pure_eq_ok, Prod.mk.injEq] at h
    obtain ⟨_, _, _, _, _, _, _, _, _, rfl⟩ := h
    rfl
  | setHost => rfl
  | tryAcquire =>
    refine congrArg Db.goals (hostCommit_goals fun r host' h => ?_)
    rcases tryAcquireGoal_ok h with ⟨-, rfl⟩ | ⟨_, -, -, -, hdb, -⟩
    · rfl
    · exact hdb
  | heartbeat =>
    simp only [hostAct, heartbeatGoal]
    split <;> rfl
  | release =>
    simp only [hostAct, releaseGoal]
    split <;> rfl
  | engine claim c => exact engineAct_goals dg host env claim (hengine claim c rfl)
  | client c => exact act_goals dg host.db env (hclient c rfl)

/-- What an event says of a call: `w'` is what the call leaves. -/
def Tells (u : UnicodeTables) (dg : Digests) (w : SteeredDb) (env : Environment) (c : SteerCall) : Prop :=
  ∀ i, Step u w (steeredAct u dg w env c).2 (acceptedSteer ⟨i, c, (steeredAct u dg w env c).1⟩)
    (acceptedGoal ⟨i, c, (steeredAct u dg w env c).1⟩)

theorem apart_tells {env : Environment} {c : HostCall}
    (hact : steeredAct u dg w env (.host c) =
      ((hostAct dg w.host env c).1, { w with host := (hostAct dg w.host env c).2 }))
    (hsteer : ∀ i r, acceptedSteer ⟨i, .host c, r⟩ = none) (hgoal : ∀ i r, acceptedGoal ⟨i, .host c, r⟩ = none)
    (hgoals : (hostAct dg w.host env c).2.db.goals = w.host.db.goals) : Tells u dg w env (.host c) := by
  intro i
  rw [hsteer, hgoal, hact]
  exact .quiet (fun k => by simp only [SteeredDb.version, hgoals]) rfl rfl

theorem engine_tells (env : Environment) (claim : GoalLeaseClaim) (c : Call) :
    Tells u dg w env (.host (.engine claim c)) := by
  cases c with
  | transact => exact fun _ => commitAll_step
  | store op =>
    cases op with
    | goal => exact fun _ => commitAll_step
    | _ => exact apart_tells rfl (fun _ _ => rfl) (fun _ _ => rfl) (engineAct_goals dg w.host env claim rfl)
  | _ => exact apart_tells rfl (fun _ _ => rfl) (fun _ _ => rfl) (engineAct_goals dg w.host env claim rfl)

theorem client_tells (env : Environment) (c : Call) : Tells u dg w env (.host (.client c)) := by
  cases c with
  | transact => exact fun _ => commitAll_step
  | store op =>
    cases op with
    | goal => exact fun _ => commitAll_step
    | _ => exact apart_tells rfl (fun _ _ => rfl) (fun _ _ => rfl) (act_goals dg w.host.db env rfl)
  | _ => exact apart_tells rfl (fun _ _ => rfl) (fun _ _ => rfl) (act_goals dg w.host.db env rfl)

/-- So does every call. -/
theorem steeredAct_step (w : SteeredDb) (env : Environment) (c : SteerCall) : Tells u dg w env c := by
  cases c with
  | steer args =>
    intro i
    cases h : steer u w args env.uuid with
    | ok x =>
      simp only [steeredAct, h, commitAll]
      exact steer_step h
    | error e =>
      simp only [steeredAct, h, commitAll]
      exact .quiet (fun _ => rfl) rfl rfl
  | host c =>
    cases c with
    | engine claim c => exact engine_tells env claim c
    | client c => exact client_tells env c
    | _ => exact apart_tells rfl (fun _ _ => rfl) (fun _ _ => rfl) (hostAct_goals dg w.host env (fun _ _ h => nomatch h)
        fun _ h => nomatch h)

/-! ## The fold -/

/-- The steers of a goal, in the order of their insertion. -/
def rowsOf (w : SteeredDb) (g : String) : List SteerRow :=
  (w.steers.rows.map Prod.snd).filter fun r => decide (r.goalId = g)

/-- `ORDER BY sequence`. -/
def listSteers (w : SteeredDb) (g : String) : List SteerRow :=
  (rowsOf w g).mergeSort fun a b => decide (a.sequence ≤ b.sequence)

/-- Steers one after the other over an intent. -/
def foldSteers (intent : String) (rows : List SteerRow) : String :=
  rows.foldl (fun effective r => steeredIntent effective r.sequence r.instruction) intent

/-- The rows of steers that were accepted one after the other. -/
def numbered (u : UnicodeTables) (accepted : List SteerArgs) : List SteerRow :=
  accepted.mapIdx fun i a => a.row u (i + 1)

/-- The tables say of a goal what the accepted calls say. -/
structure Folded (u : UnicodeTables) (g : String) (h : SteerHistory) : Prop where
  rows : rowsOf h.state g = numbered u (acceptedSteers h.trace g)
  version : h.state.version g = (originalIntent h.trace g).map fun _ => (acceptedSteers h.trace g).length
  texts : h.state.texts.get? g = (originalIntent h.trace g).map fun intent =>
    ⟨redactString u intent, foldSteers (redactString u intent) (numbered u (acceptedSteers h.trace g))⟩
  absent : originalIntent h.trace g = none → acceptedSteers h.trace g = []

theorem numbered_concat (accepted : List SteerArgs) (a : SteerArgs) :
    numbered u (accepted ++ [a]) = numbered u accepted ++ [a.row u (accepted.length + 1)] := by
  rw [numbered, List.mapIdx_append]
  simp [numbered]

theorem acceptedSteers_concat (trace : List SteerEvent) (e : SteerEvent) (g : String) :
    acceptedSteers (trace ++ [e]) g =
    acceptedSteers trace g ++ ((acceptedSteer e).toList.filter fun a => decide (a.goalId = g)) := by
  rw [acceptedSteers, List.filterMap_append, List.filter_append]
  cases h : acceptedSteer e <;> simp [acceptedSteers, h]

theorem originalIntent_concat (trace : List SteerEvent) (e : SteerEvent) (g : String) :
    originalIntent (trace ++ [e]) g =
    (originalIntent trace g).or (((acceptedGoal e).filter fun x => decide (x.1 = g)).map Prod.snd) := by
  rw [originalIntent, List.filterMap_append, List.find?_append, Option.map_or]
  cases h : acceptedGoal e with
  | none => simp [originalIntent, h]
  | some x => by_cases hx : x.1 = g <;> simp [originalIntent, h, hx, Option.filter]

/-- What one call adds to the rows and the texts of a goal. -/
theorem Folded.step {h : SteerHistory} (hfold : Folded u g h) {e : SteerEvent} {w' : SteeredDb}
    (hstep : Step u h.state w' (acceptedSteer e) (acceptedGoal e)) : Folded u g ⟨w', h.trace ++ [e]⟩ := by
  obtain ⟨hrows, hversion, htexts, habsent⟩ := hfold
  generalize hs : acceptedSteer e = accepted at hstep
  generalize hg : acceptedGoal e = goal at hstep
  have hsteers := acceptedSteers_concat h.trace e g
  have hintent := originalIntent_concat h.trace e g
  rw [hs] at hsteers
  rw [hg] at hintent
  cases hstep with
  | quiet version texts steers =>
    simp only [Option.toList_none, List.filter_nil, List.append_nil] at hsteers
    simp only [Option.filter_none, Option.map_none, Option.or_none] at hintent
    have hsame : rowsOf w' g = rowsOf h.state g := by rw [rowsOf, steers, rowsOf]
    exact ⟨by rw [hsame, hrows, hsteers], by rw [version, hversion, hintent, hsteers],
      by rw [texts, htexts, hintent, hsteers], by rw [hintent, hsteers]; exact habsent⟩
  | created goalId intent fresh version texts steers =>
    simp only [Option.toList_none, List.filter_nil, List.append_nil] at hsteers
    have hsame : rowsOf w' g = rowsOf h.state g := by rw [rowsOf, steers, rowsOf]
    by_cases hk : goalId = g
    · subst hk
      rw [hversion, Option.map_eq_none_iff] at fresh
      have hnil := habsent fresh
      rw [fresh, Option.none_or] at hintent
      simp only [Option.filter_some, decide_true, if_true, Option.map_some] at hintent
      rw [hnil] at hsteers
      refine ⟨by rw [hsame, hrows, hnil, hsteers], ?_, ?_, fun _ => hsteers⟩
      · rw [version, if_pos rfl, hintent, hsteers]
        rfl
      · rw [texts, Table.get?_upsert, if_pos rfl, hintent, hsteers]
        rfl
    · have hother : g ≠ goalId := fun heq => hk heq.symm
      simp only [Option.filter_some, hk, decide_false, Bool.false_eq_true, if_false, Option.map_none, Option.or_none]
        at hintent
      refine ⟨by rw [hsame, hrows, hsteers], ?_, ?_, by rw [hintent, hsteers]; exact habsent⟩
      · rw [version, if_neg hother, hversion, hintent, hsteers]
      · rw [texts, Table.get?_upsert, if_neg hother, htexts, hintent, hsteers]
  | steered args n t id row before version texts steers =>
    have hinsert : rowsOf w' g = rowsOf h.state g ++
        (if args.goalId = g then [args.row u (n + 1)] else []) := by
      rw [rowsOf, Table.insert?_rows steers, List.map_append, List.filter_append, rowsOf]
      by_cases hk : args.goalId = g <;> simp [SteerArgs.row, hk]
    simp only [Option.filter_none, Option.map_none, Option.or_none] at hintent
    by_cases hk : args.goalId = g
    · subst hk
      rw [hversion] at row
      obtain ⟨intent, hcreated, hn⟩ := Option.map_eq_some_iff.mp row
      rw [htexts, hcreated, Option.map_some] at before
      obtain rfl := Option.some.inj before
      subst hn
      simp only [Option.toList_some, List.filter_cons, List.filter_nil, decide_true, if_true] at hsteers
      refine ⟨?_, ?_, ?_, fun hnone => ?_⟩
      · rw [hinsert, if_pos rfl, hrows, hsteers, numbered_concat]
      · rw [version, if_pos rfl, hintent, hsteers, hcreated, Option.map_some, List.length_append, List.length_singleton]
      · rw [texts, Table.get?_modify_self, htexts, hintent, hsteers, hcreated, numbered_concat]
        simp only [Option.map_some, foldSteers, List.foldl_append, List.foldl_cons, List.foldl_nil]
        rfl
      · rw [hintent, hcreated] at hnone
        exact nomatch hnone
    · have hother : g ≠ args.goalId := fun heq => hk heq.symm
      simp only [Option.toList_some, List.filter_cons, List.filter_nil, hk, decide_false, Bool.false_eq_true, if_false,
        List.append_nil] at hsteers
      refine ⟨by rw [hinsert, if_neg hk, List.append_nil, hrows, hsteers], ?_, ?_,
        by rw [hintent, hsteers]; exact habsent⟩
      · rw [version, if_neg hother, hversion, hintent, hsteers]
      · rw [texts, Table.get?_modify_ne _ _ hother, htexts, hintent, hsteers]

theorem initial_folded (u : UnicodeTables) (g : String) : Folded u g ⟨SteeredDb.initial, []⟩ :=
  ⟨rfl, rfl, rfl, fun _ => rfl⟩

theorem steeredRun_folded (u : UnicodeTables) (dg : Digests) (uuid5 : String → String)
    (moves : List (Move Nat SteerRequest Environment)) (g : String) : Folded u g (steeredRun u dg uuid5 moves) := by
  refine Pool.run_invariant (I := Folded u g) (G := fun _ _ _ => True) ?_ (initial_folded u g) moves
  intro i request
  refine (Outline.always .true (Prog.all_true _) ?_).post fun _ _ _ => trivial
  intro c h env _ hfold _
  exact ⟨hfold.step (steeredAct_step h.state env c i), trivial, trivial⟩

theorem numbered_sorted (accepted : List SteerArgs) :
    (numbered u accepted).Pairwise fun a b => decide (a.sequence ≤ b.sequence) = true := by
  rw [List.pairwise_iff_getElem]
  intro i j hi hj hlt
  simp only [numbered, List.getElem_mapIdx, SteerArgs.row, decide_eq_true_eq]
  omega

/-- **Steering is a fold.** Along every schedule a goal's version counts its accepted steers, whose rows carry the
numbers from one on, and its effective intent is their fold over the intent it was created with.  A refused steer
changes nothing. -/
theorem steering_is_a_fold (u : UnicodeTables) (dg : Digests) (uuid5 : String → String)
    (moves : List (Move Nat SteerRequest Environment)) :
    (∀ g goal, (steeredRun u dg uuid5 moves).state.host.db.goals.get? g = some goal →
      ∃ intent, originalIntent (steeredRun u dg uuid5 moves).trace g = some intent ∧
        goal.steerVersion = (acceptedSteers (steeredRun u dg uuid5 moves).trace g).length ∧
        listSteers (steeredRun u dg uuid5 moves).state g =
          (acceptedSteers (steeredRun u dg uuid5 moves).trace g).mapIdx (fun i a => a.row u (i + 1)) ∧
        (steeredRun u dg uuid5 moves).state.texts.get? g = some ⟨redactString u intent,
          foldSteers (redactString u intent) (listSteers (steeredRun u dg uuid5 moves).state g)⟩) ∧
    (∀ (w : SteeredDb) (env : Environment) (args : SteerArgs) (e : StoreError),
      (steeredAct u dg w env (.steer args)).1 = .error e → (steeredAct u dg w env (.steer args)).2 = w) ∧
    (∀ (w : SteeredDb) (env : Environment) (goalId instruction : String) (priority : Option Int) (e : StoreError),
      (steeredAct u dg w env (.host (.client (.transact (.steer goalId instruction priority))))).1 = .error e →
      (steeredAct u dg w env (.host (.client (.transact (.steer goalId instruction priority))))).2 = w) := by
  have hrefused : ∀ (w : SteeredDb) (op : Except StoreError (Unit × SteeredDb)) (e : StoreError),
      (commitAll w op).1 = .error e → (commitAll w op).2 = w := by
    intro w op e h
    cases op with
    | ok x => exact nomatch h
    | error e => rfl
  refine ⟨fun g goal hgoal => ?_, fun w env args => hrefused w _, fun w env goalId instruction priority => hrefused w _⟩
  obtain ⟨hrows, hversion, htexts, -⟩ := steeredRun_folded u dg uuid5 moves g
  have hlist : listSteers (steeredRun u dg uuid5 moves).state g =
      numbered u (acceptedSteers (steeredRun u dg uuid5 moves).trace g) := by
    rw [listSteers, hrows, List.mergeSort_of_pairwise (numbered_sorted _)]
  rw [SteeredDb.version, hgoal, Option.map_some] at hversion
  obtain ⟨intent, hintent, hcount⟩ := Option.map_eq_some_iff.mp hversion.symm
  rw [hintent, Option.map_some] at htexts
  exact ⟨intent, hintent, hcount.symm, hlist, by rw [hlist]; exact htexts⟩

private def freshUuid (uuid : String) : Environment := { Environment.silent with uuid := uuid }

-- the second steer is refused, the third one is dropped before its transaction and called again
private def steeredTwice : List (Move Nat SteerRequest Environment) :=
  [.start 0 (.host (.control (.createGoal "g" "p" "ship" {}))),
    .step 0 (freshUuid "0"), .start 1 (.steer ⟨"g", "a", none, true, "human"⟩), .step 1 (freshUuid "1"),
    .start 2 (.steer ⟨"g", " ", none, true, "human"⟩), .step 2 (freshUuid "2"),
    .start 3 (.steer ⟨"g", "b", some 9, false, "human"⟩), .drop 3,
    .start 4 (.host (.control (.steer "g" "token=b" none))), .step 4 (freshUuid "4")]

private abbrev steeredHistory : SteerHistory := steeredRun ⟨fun _ => false, fun c => [c]⟩ .trivial id steeredTwice

theorem goal_steered_twice : ∃ goal, steeredHistory.state.host.db.goals.get? "g" = some goal ∧
    goal.steerVersion = 2 := by
  obtain ⟨goal, hgoal⟩ := Option.isSome_iff_exists.mp
    (show (steeredHistory.state.host.db.goals.get? "g").isSome = true from rfl)
  have hcount : (acceptedSteers steeredHistory.trace "g").length = 2 := rfl
  obtain ⟨_, -, hversion, -⟩ := (steering_is_a_fold _ _ _ _).1 "g" goal hgoal
  exact ⟨goal, hgoal, hversion.trans hcount⟩

end AgentFabric.Autonomy.Steering
