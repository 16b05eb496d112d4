import AgentFabric.Lib.Avoidance
import AgentFabric.Autonomy.Calls

/-!
# Work after a control

A pause or a stop asks that no new work begins until a resume. The engine reads the goal's state in one call and begins
work in a later one, so a control that commits between the two is overtaken.
-/

namespace AgentFabric.Autonomy

open AgentFabric.Lib AgentFabric.Store

/-- A step of the database begins work for the goal. -/
inductive NewWork (g : String) (db db' : Db) : Prop
  | iteration (id : String) (it : IterationRow) (fresh : db.iterations.get? id = none)
      (row : db'.iterations.get? id = some it) (goal : it.goalId = g)
  | plan (id : String) (it it' : IterationRow) (row : db.iterations.get? id = some it)
      (row' : db'.iterations.get? id = some it') (goal : it.goalId = g) (planned : it'.plan ≠ it.plan)
  | action (id : String) (action : ActionRow) (fresh : db.actions.get? id = none)
      (row : db'.actions.get? id = some action) (goal : action.goalId = g)
  | dispatch (id : String) (action action' : ActionRow) (row : db.actions.get? id = some action)
      (row' : db'.actions.get? id = some action') (goal : action.goalId = g) (planned : action.state = .planned)
      (dispatching : action'.state = .dispatching)

/-- The transactions that begin work. -/
def GoalOp.startsWork : GoalOp → Bool
  | .beginIteration .. | .recordPlan .. | .setAction _ .dispatching _ _ _ => true
  | _ => false

def Call.startsWork : Call → Prop
  | .transact op => GoalOp.startsWork op = true
  | _ => False

section

variable {g : String} {db db' : Db}

/-- Where every row was there before, with its plan, and no action was moved to `dispatching`, no work begins. -/
theorem not_newWork
    (hi : ∀ k it', db'.iterations.get? k = some it' → ∃ it, db.iterations.get? k = some it ∧ it'.plan = it.plan)
    (ha : ∀ k a', db'.actions.get? k = some a' → ∃ a, db.actions.get? k = some a ∧
      (a'.state = .dispatching → a.state = .dispatching)) : ¬ NewWork g db db' := by
  intro hn
  cases hn with
  | iteration id it fresh row _ =>
    obtain ⟨it₀, hit, _⟩ := hi id it row
    exact nomatch fresh.symm.trans hit
  | plan id it it' row row' _ planned =>
    obtain ⟨it₀, hit, hplan⟩ := hi id it' row'
    obtain rfl := Option.some.inj (row.symm.trans hit)
    exact planned hplan
  | action id action fresh row _ =>
    obtain ⟨a, hrow, _⟩ := ha id action row
    exact nomatch fresh.symm.trans hrow
  | dispatch id action action' row row' _ planned dispatching =>
    obtain ⟨a, hrow, hstate⟩ := ha id action' row'
    obtain rfl := Option.some.inj (row.symm.trans hrow)
    exact nomatch planned.symm.trans (hstate dispatching)

theorem same_actions (ha : db'.actions = db.actions) (k : String) (a' : ActionRow) (h : db'.actions.get? k = some a') :
    ∃ a, db.actions.get? k = some a ∧ (a'.state = .dispatching → a.state = .dispatching) :=
  ⟨a', ha ▸ h, fun hs => hs⟩

theorem not_newWork_of_same (hi : db'.iterations = db.iterations) (ha : db'.actions = db.actions) :
    ¬ NewWork g db db' :=
  not_newWork (fun _ it' h => ⟨it', hi ▸ h, rfl⟩) (same_actions ha)

theorem not_newWork_of_iteration {id : String} (u : IterationRow → IterationRow) (hu : ∀ it, (u it).plan = it.plan)
    (hi : db'.iterations = db.iterations.modify id u) (ha : db'.actions = db.actions) : ¬ NewWork g db db' := by
  refine not_newWork (fun k it' h => ?_) (same_actions ha)
  rw [hi, Table.get?_modify] at h
  split at h
  · obtain ⟨it, hit, rfl⟩ := Option.map_eq_some_iff.mp h
    exact ⟨it, hit, hu it⟩
  · exact ⟨it', h, rfl⟩

/-- An action that is not moved to `dispatching` begins no work. -/
theorem not_newWork_of_action {id : String} (f : ActionRow → ActionRow) (hf : ∀ a, (f a).state ≠ .dispatching)
    (hi : db'.iterations = db.iterations) (ha : db'.actions = db.actions.modify id f) : ¬ NewWork g db db' := by
  refine not_newWork (fun _ it' h => ⟨it', hi ▸ h, rfl⟩) fun k a' h => ?_
  rw [ha, Table.get?_modify] at h
  split at h
  · obtain ⟨a, hrow, rfl⟩ := Option.map_eq_some_iff.mp h
    exact ⟨a, hrow, fun hs => absurd hs (hf a)⟩
  · exact ⟨a', h, fun hs => hs⟩

theorem not_newWork_of_interrupt (id : String) :
    ¬ NewWork g db (setIteration db id (·.withState .interrupted)) :=
  not_newWork_of_iteration (·.withState .interrupted) (fun _ => rfl) rfl rfl

/-- Only the transactions that begin work begin work. -/
theorem startsWork_of_newWork {op : GoalOp} {r : op.Reply} (h : execGoal op db = .ok (r, db'))
    (hn : NewWork g db db') : GoalOp.startsWork op = true := by
  cases op with
  | createGoal =>
    obtain ⟨_, _, _, _, _, rfl⟩ := createGoal_ok h
    exact absurd hn (not_newWork_of_same rfl rfl)
  | pause =>
    rcases pauseGoal_ok h with rfl | ⟨_, _, _, rfl⟩ <;> exact absurd hn (not_newWork_of_same rfl rfl)
  | resume =>
    obtain ⟨_, _, _, rfl⟩ := resumeGoal_ok h
    exact absurd hn (not_newWork_of_same rfl rfl)
  | steer =>
    obtain ⟨_, _, _, _, rfl⟩ := steerGoal_ok h
    exact absurd hn (not_newWork_of_same rfl rfl)
  | stop =>
    obtain ⟨_, _, _, rfl⟩ := stopGoal_ok h
    exact absurd hn (not_newWork_of_same rfl rfl)
  | start =>
    rcases startGoal_ok h with rfl | ⟨_, _, _, rfl⟩ <;> exact absurd hn (not_newWork_of_same rfl rfl)
  | beginIteration => rfl
  | recordEvaluation =>
    obtain ⟨_, _, ⟨_, rfl⟩ | ⟨_, rfl⟩⟩ := recordEvaluation_ok h
    · exact absurd hn (not_newWork_of_interrupt _)
    · exact absurd hn (not_newWork_of_iteration (·.evaluate _) (fun _ => rfl) rfl rfl)
  | recordPlan => rfl
  | recordVerification =>
    rcases recordGoalVerification_ok h with ⟨_, rfl⟩ | ⟨_, rfl⟩
    · exact absurd hn (not_newWork_of_interrupt _)
    · exact absurd hn (not_newWork_of_iteration (·.verify _) (fun _ => rfl) rfl rfl)
  | phaseIsCurrent =>
    rcases phaseIsCurrent_ok h with ⟨_, rfl⟩ | ⟨_, rfl⟩
    · exact absurd hn (not_newWork_of_interrupt _)
    · exact absurd hn (not_newWork_of_same rfl rfl)
  | completeReplan =>
    obtain rfl := completeReplan_ok h
    exact absurd hn (not_newWork_of_iteration (·.withState .replanning) (fun _ => rfl) rfl rfl)
  | terminate =>
    rcases terminateGoal_ok h with rfl | ⟨_, _, _, rfl⟩ <;> exact absurd hn (not_newWork_of_same rfl rfl)
  | terminatePhaseIfCurrent =>
    rcases terminatePhaseIfCurrent_ok h with rfl | rfl | ⟨_, _, _, _, rfl⟩
    · exact absurd hn (not_newWork_of_interrupt _)
    · exact absurd hn (not_newWork_of_same rfl rfl)
    · exact absurd hn (not_newWork_of_iteration (·.withState .completed) (fun _ => rfl) rfl rfl)
  | interruptForSteer =>
    obtain rfl := interruptForSteer_ok h
    exact absurd hn (not_newWork_of_interrupt _)
  | setIterationState iterationId state =>
    cases h
    exact absurd hn (not_newWork_of_iteration (·.withState state) (fun _ => rfl) rfl rfl)
  | setAction actionId state handle result error =>
    by_cases hs : state = .dispatching
    · rw [hs]; rfl
    · obtain rfl := setAction_ok h
      exact absurd hn (not_newWork_of_action (·.set state handle result error) (fun _ => hs) rfl rfl)

end

/-! ## A halted goal -/

def GoalState.halted (state : GoalState) : Bool := state.paused || state.final

/-- What a call makes of a standing control of the goal. -/
def haltedAfter (g : String) (halted : Bool) : GoalEvent → Bool
  | ⟨_, .transact (.pause g' _), .ok _⟩ => halted || decide (g' = g)
  | ⟨_, .transact (.stop g' _), .ok _⟩ => halted || decide (g' = g)
  | ⟨_, .transact (.resume g' _), .ok _⟩ => halted && decide (g' ≠ g)
  | _ => halted

/-- A pause or a stop of the goal has committed, and no resume since. -/
def haltedBy (g : String) (trace : List GoalEvent) : Bool := trace.foldl (haltedAfter g) false

theorem haltedBy_concat (g : String) (trace : List GoalEvent) (e : GoalEvent) :
    haltedBy g (trace ++ [e]) = haltedAfter g (haltedBy g trace) e := by
  simp [haltedBy, List.foldl_append]

/-- The goal is paused or has ended. -/
def Halts (g : String) (db : Db) : Prop := ∃ goal, db.goals.get? g = some goal ∧ GoalState.halted goal.state = true

section

variable {g : String} {db db' : Db}

theorem Halts.of_goals (h : Halts g db) (hg : db'.goals = db.goals) : Halts g db' := by
  obtain ⟨goal, hrow, hs⟩ := h
  exact ⟨goal, hg ▸ hrow, hs⟩

theorem Halts.set {k : String} {f : GoalRow → GoalRow} (h : Halts g db) (hg : db'.goals = db.goals.modify k f)
    (hf : ∀ goal, db.goals.get? k = some goal → GoalState.halted goal.state = true →
      GoalState.halted (f goal).state = true) : Halts g db' := by
  obtain ⟨goal, hrow, hs⟩ := h
  by_cases hk : g = k
  · subst hk
    exact ⟨f goal, by rw [hg, Table.get?_modify_self, hrow]; rfl, hf goal hrow hs⟩
  · exact ⟨goal, by rw [hg, Table.get?_modify_ne _ _ hk]; exact hrow, hs⟩

theorem pauseGoal_halts {mode : PauseMode} {u : Unit} (h : pauseGoal db g mode = .ok (u, db')) : Halts g db' := by
  simp only [pauseGoal, bind_eq_ok] at h
  obtain ⟨goal, hg, h⟩ := h
  obtain ⟨hrow, _⟩ := requireMutable_ok hg
  have htarget : GoalState.halted mode.target = true := by cases mode <;> rfl
  split at h
  · rename_i hs
    cases h
    exact ⟨goal, hrow, by rw [hs]; exact htarget⟩
  · cases h
    exact ⟨_, (Table.get?_modify_self ..).trans (by rw [hrow]; rfl), htarget⟩

theorem stopGoal_halts {reason : String} {u : Unit} (h : stopGoal db g reason = .ok (u, db')) : Halts g db' := by
  obtain ⟨goal, hrow, _, rfl⟩ := stopGoal_ok h
  exact ⟨_, (Table.get?_modify_self ..).trans (by rw [hrow]; rfl), rfl⟩

/-- Nothing but a resume wakes a halted goal. -/
theorem execGoal_halts {op : GoalOp} {r : op.Reply} (h : execGoal op db = .ok (r, db'))
    (hop : ∀ now, op ≠ .resume g now)
    (hh : Halts g db) : Halts g db' := by
  cases op with
  | createGoal =>
    obtain ⟨_, goals, _, _, hins, rfl⟩ := createGoal_ok h
    obtain ⟨goal, hrow, hs⟩ := hh
    refine ⟨goal, ?_, hs⟩
    rw [Table.get?_insert hins, if_neg, hrow]
    rintro rfl
    exact nomatch (Table.insert?_fresh hins).symm.trans hrow
  | pause goalId mode =>
    rcases pauseGoal_ok h with rfl | ⟨_, _, _, rfl⟩
    · exact hh
    · exact hh.set (f := (·.withState mode.target)) rfl fun _ _ _ => by cases mode <;> rfl
  | resume goalId now =>
    obtain ⟨_, _, _, rfl⟩ := resumeGoal_ok h
    obtain ⟨goal, hrow, hs⟩ := hh
    refine ⟨goal, (Table.get?_modify_ne _ _ fun e => hop now (by rw [e])).trans hrow, hs⟩
  | steer =>
    obtain ⟨_, _, _, _, rfl⟩ := steerGoal_ok h
    exact hh.set (f := (·.steer)) rfl fun _ _ hs => hs
  | stop goalId reason =>
    obtain ⟨_, _, _, rfl⟩ := stopGoal_ok h
    exact hh.set (f := (·.finish .stopped .userStopped reason)) rfl fun _ _ _ => rfl
  | start goalId now =>
    rcases startGoal_ok h with rfl | ⟨goal, hrow, hs, rfl⟩
    · exact hh
    · refine hh.set (f := (·.start now)) rfl fun goal' hrow' hs' => ?_
      rw [← Option.some.inj (hrow.symm.trans hrow'), hs] at hs'
      cases hs'
  | beginIteration =>
    obtain ⟨goal, _, _, _, _, rfl⟩ := beginIteration_ok h
    exact hh.set (f := (·.iterate (goal.iterationCount + 1))) rfl fun _ _ hs => hs
  | recordEvaluation iterationId evaluation =>
    obtain ⟨_, _, ⟨_, rfl⟩ | ⟨_, rfl⟩⟩ := recordEvaluation_ok h
    · exact hh.of_goals rfl
    · exact hh.set (f := (·.evaluated evaluation.progressFingerprint)) rfl fun _ _ hs => hs
  | recordPlan iterationId goalId plan =>
    rcases recordPlan_ok h with ⟨_, rfl⟩ | ⟨_, _, rfl⟩
    · exact hh.of_goals rfl
    · exact hh.set (f := (·.addTasks plan.actions.length)) rfl fun _ _ hs => hs
  | recordVerification =>
    rcases recordGoalVerification_ok h with ⟨_, rfl⟩ | ⟨_, rfl⟩ <;> exact hh.of_goals rfl
  | phaseIsCurrent =>
    rcases phaseIsCurrent_ok h with ⟨_, rfl⟩ | ⟨_, rfl⟩ <;> exact hh.of_goals rfl
  | completeReplan goalId iterationId verification failures =>
    obtain rfl := completeReplan_ok h
    exact hh.set (f := (·.replan verification.progressFingerprint failures)) rfl fun _ _ hs => hs
  | terminate goalId reason detail =>
    rcases terminateGoal_ok h with rfl | ⟨_, _, _, rfl⟩
    · exact hh
    · exact hh.set (f := (·.finish .terminated reason detail)) rfl fun _ _ _ => rfl
  | terminatePhaseIfCurrent goalId iterationId reason detail =>
    rcases terminatePhaseIfCurrent_ok h with rfl | rfl | ⟨_, _, _, _, rfl⟩
    · exact hh.of_goals rfl
    · exact hh
    · exact hh.set (f := (·.finish .terminated reason detail)) rfl fun _ _ _ => rfl
  | interruptForSteer =>
    obtain rfl := interruptForSteer_ok h
    exact hh.of_goals rfl
  | setIterationState =>
    cases h
    exact hh.of_goals rfl
  | setAction =>
    obtain rfl := setAction_ok h
    exact hh.of_goals rfl

end

/-! ## What the engine can still begin -/

/-- The reply, if it is a read of the goal, shows it halted. -/
def ShowsHalted (g : String) : (c : Call) → c.Reply → Prop
  | .getGoal g', r => g' = g → ∀ goal, r = .ok goal → GoalState.halted goal.state = true
  | _, _ => True

/-- The program can begin work although every read of the goal shows it halted: it is past its check. -/
def Armed (g : String) {α : Type} (p : Prog Call Call.Reply α) : Prop := p.Reaches (ShowsHalted g) Call.startsWork

/-- The program begins no work while the goal is halted. -/
abbrev Heeds (g : String) {α : Type} (Q : α → Prop) (p : Engine α) : Prop :=
  Prog.Spares (ShowsHalted g) Call.startsWork Q p

section

variable {g id : String}

theorem fetchGoal_heeds : Heeds g (fun goal => GoalState.halted goal.state = true) (fetchGoal g) := by
  refine .bind (.ask fun h => h) fun r hr => .result fun goal hgoal => ?_
  cases r with
  | ok row => exact Except.ok.inj hgoal ▸ hr rfl row rfl
  | error => cases hgoal

theorem run_heeds (uuid5 : String → String) (polls rounds : Nat) :
    Heeds g (fun _ => True) (run uuid5 g polls rounds) := by
  cases rounds with
  | zero => exact .pure trivial
  | succ =>
    unfold run
    refine .bind fetchGoal_heeds fun goal hs => ?_
    rw [show (goal.state.paused || goal.state.final) = true from hs]
    exact .pure trivial

end

/-! ## One goal, its engines and its controls -/

/-- Every engine slot runs an engine of the goal; the other slots serve requests. -/
def serveGoal (uuid5 : String → String) (g : String) : Slot → Request → Prog Call Call.Reply Unit
  | .engine _, request => serve uuid5 (.engine g) request
  | .client n, request => serve uuid5 (.client n) request

/-- A schedule of the engines of one goal, controls, store operations, crashes and restarts. -/
def goalRun (dg : Digests) (uuid5 : String → String) (g : String) (moves : List (Move Slot Request Environment)) :
    Pool Slot (Traced Slot Db Call Call.Reply) Call Call.Reply :=
  (Pool.quiet ⟨Db.initial, []⟩).run (machine dg).traced (serveGoal uuid5 g) moves

/-- A pause or a stop that halts the goal finds no engine of the goal between a check of its state and the transaction
that the check guards. -/
def ControlsFindNoneArmed (dg : Digests) (uuid5 : String → String) (g : String)
    (moves : List (Move Slot Request Environment)) : Prop :=
  ∀ before m after, moves = before ++ m :: after → haltedBy g (goalRun dg uuid5 g before).shared.trace = false →
    haltedBy g (goalRun dg uuid5 g (before ++ [m])).shared.trace = true →
      ∀ k p, (goalRun dg uuid5 g before).thread (.engine k) = some p → ¬ Armed g p

section

variable {dg : Digests} {uuid5 : String → String} {g : String}

theorem serve_legal (i : Slot) (request : Request) :
    (serveGoal uuid5 g i request).All fun c => c.ofEngine g ∨ c.ofClient := by
  have hcontrol : (control request).run.All fun c => c.ofEngine g ∨ c.ofClient :=
    (control_client request).mono fun c hc => Or.inr hc
  cases i with
  | engine =>
    cases request with
    | engine => exact .bind ((run_engine uuid5 _ _).mono fun c hc => Or.inl hc) fun _ => trivial
    | _ => exact .bind hcontrol fun _ => trivial
  | client => cases request <;> exact .bind hcontrol fun _ => trivial

variable {moves : List (Move Slot Request Environment)} {i : Slot}

theorem goalRun_legal {c : Call} {next : c.Reply → Prog Call Call.Reply Unit}
    (h : (goalRun dg uuid5 g moves).thread i = some (.call c next)) :
    c.ofEngine g ∨ c.ofClient :=
  (Pool.thread_all (P := fun _ c => c.ofEngine g ∨ c.ofClient) serve_legal moves h).1

theorem haltedAfter_error (halted : Bool) (i : Slot) (op : GoalOp) (e : StoreError) :
    haltedAfter g halted ⟨i, .transact op, .error e⟩ = halted := by
  cases op <;> rfl

theorem haltedAfter_ok {halted : Bool} {op : GoalOp} {r : op.Reply}
    (h : haltedAfter g halted ⟨i, .transact op, .ok r⟩ = true) :
    (∃ mode, op = .pause g mode) ∨ (∃ reason, op = .stop g reason) ∨ (halted = true ∧ ∀ now, op ≠ .resume g now) := by
  cases op with
  | pause g' mode =>
    rcases Bool.or_eq_true_iff.mp h with h | h
    · exact Or.inr (Or.inr ⟨h, fun _ e => nomatch e⟩)
    · exact Or.inl ⟨mode, by rw [of_decide_eq_true h]⟩
  | stop g' reason =>
    rcases Bool.or_eq_true_iff.mp h with h | h
    · exact Or.inr (Or.inr ⟨h, fun _ e => nomatch e⟩)
    · exact Or.inr (Or.inl ⟨reason, by rw [of_decide_eq_true h]⟩)
  | resume =>
    obtain ⟨h, hne⟩ := Bool.and_eq_true_iff.mp h
    exact Or.inr (Or.inr ⟨h, fun now' e => of_decide_eq_true hne (GoalOp.resume.inj e).1⟩)
  | _ => exact Or.inr (Or.inr ⟨h, fun _ e => nomatch e⟩)

variable {w : Traced Slot Db Call Call.Reply}

/-- One call: a goal under a standing control is halted. -/
theorem halts_step {c : Call} (hc : c.ofEngine g ∨ c.ofClient) (i : Slot) (env : Environment)
    (hw : haltedBy g w.trace = true → Halts g w.state)
    (h : haltedBy g ((machine dg).traced.act i w env c).2.trace = true) :
    Halts g ((machine dg).traced.act i w env c).2.state := by
  have hh : haltedAfter g (haltedBy g w.trace) ⟨i, c, (act dg w.state env c).1⟩ = true :=
    (haltedBy_concat g w.trace _).symm.trans h
  show Halts g (act dg w.state env c).2
  cases c with
  | transact op =>
    simp only [act, commit] at hh ⊢
    cases hop : execGoal op w.state with
    | error e =>
      rw [hop] at hh
      exact hw ((haltedAfter_error _ i op e).symm.trans hh)
    | ok =>
      rw [hop] at hh
      rcases haltedAfter_ok hh with ⟨mode, rfl⟩ | ⟨reason, rfl⟩ | ⟨hbefore, hne⟩
      · exact pauseGoal_halts hop
      · exact stopGoal_halts hop
      · exact execGoal_halts hop hne (hw hbefore)
  | store op =>
    have hother : op.writesGoals = false := hc.resolve_left fun h => h
    simp only [act, commit] at hh ⊢
    cases hop : exec dg op w.state with
    | error => exact hw hh
    | ok => exact (hw (by rw [hop] at hh; exact hh)).of_goals ((exec_frame hop).goals hother)
  | _ => exact hw hh

theorem goalRun_halts (moves : List (Move Slot Request Environment)) :
    haltedBy g (goalRun dg uuid5 g moves).shared.trace = true → Halts g (goalRun dg uuid5 g moves).shared.state := by
  induction moves using List.reverseRecOn with
  | nil => exact fun h => nomatch h
  | append_singleton moves m ih =>
    unfold goalRun at ih ⊢
    rw [Pool.run_snoc]
    rcases Pool.move_shared _ m with h | ⟨i, env, c, next, hthread, h⟩
    · rw [h]; exact ih
    · rw [h]; exact halts_step (goalRun_legal hthread) i env ih

theorem showsHalted (h : Halts g w.state) (i : Slot) (env : Environment) (c : Call) :
    ShowsHalted g c ((machine dg).traced.act i w env c).1 := by
  cases c with
  | getGoal =>
    rintro rfl goal hgoal
    obtain ⟨row, hrow, hs⟩ := h
    obtain rfl := Option.some.inj (hrow.symm.trans (getGoal_eq_ok.mp hgoal))
    exact hs
  | _ => trivial

theorem control_idle (request : Request) :
    ((control request).run.bind fun _ => .ret ()).All fun c => ¬ c.startsWork := by
  refine .bind ((control_client request).mono fun c hc h => ?_) fun _ => trivial
  cases c with
  | transact op => cases op <;> first | exact hc | cases h
  | _ => exact h

theorem serve_unarmed (i : Slot) (request : Request) : ¬ Armed g (serveGoal uuid5 g i request) := by
  have hcontrol : ¬ Armed g ((control request).run.bind fun _ => .ret ()) :=
    (Prog.Avoids.of_all (control_idle request)).unreached
  cases i with
  | engine =>
    cases request with
    | engine rounds polls => exact (Prog.Avoids.discard (run_heeds uuid5 polls rounds) ()).unreached
    | _ => exact hcontrol
  | client => cases request <;> exact hcontrol

theorem client_unarmed {n : Nat} {p : Prog Call Call.Reply Unit}
    (hp : (goalRun dg uuid5 g moves).thread (.client n) = some p) : ¬ Armed g p := by
  have hall : p.All fun c => ¬ c.startsWork := by
    refine Pool.thread_property (K := fun i p => ∀ m, i = Slot.client m → p.All fun c => ¬ Call.startsWork c)
      (fun i request m hi => ?_) (fun i c next r h m hi => (h m hi).2 r) moves hp n rfl
    subst hi
    cases request <;> exact control_idle _
  exact (Prog.Avoids.of_all hall).unreached

theorem unarmed_of_onset {env : Environment} {c : Call} {next : c.Reply → Prog Call Call.Reply Unit}
    (hbefore : haltedBy g w.trace = false) (hafter : haltedBy g ((machine dg).traced.act i w env c).2.trace = true)
    (h : ¬ Armed g (.call c next)) :
    ¬ Armed g (next ((machine dg).traced.act i w env c).1) := by
  intro hr
  refine h (Or.inr ⟨_, ?_, hr⟩)
  cases c with
  | getGoal =>
    have hh : haltedBy g w.trace = true := (haltedBy_concat g w.trace _).symm.trans hafter
    rw [hbefore] at hh
    cases hh
  | _ => trivial

theorem goalRun_unarmed (hmoves : ControlsFindNoneArmed dg uuid5 g moves)
    (h : haltedBy g (goalRun dg uuid5 g moves).shared.trace = true) {p : Prog Call Call.Reply Unit}
    (hp : (goalRun dg uuid5 g moves).thread i = some p) : ¬ Armed g p := by
  cases i with
  | client n => exact client_unarmed hp
  | engine k =>
  refine Pool.unreached_while (H := fun w => haltedBy g w.trace = true ∧ Halts g w.state)
    (fun w env c hw => showsHalted hw.2 (.engine k) env c) (serve_unarmed (.engine k)) moves
    (fun before m after e hbefore hafter q hq => ?_) ⟨h, goalRun_halts moves h⟩ hp
  have hfalse : haltedBy g (goalRun dg uuid5 g before).shared.trace = false := by
    refine Bool.eq_false_iff.mpr fun ht => hbefore ⟨ht, goalRun_halts before ht⟩
  have hold := hmoves before m after e hfalse hafter.1 k
  rw [Pool.run_snoc] at hq hafter
  rcases Pool.move_thread hq with hq | ⟨request, _, rfl⟩ | ⟨env, c, next, hnext, rfl, hs⟩
  · exact hold q hq
  · exact serve_unarmed (.engine k) request
  · exact unarmed_of_onset hfalse (by rw [hs] at hafter; exact hafter.1) (hold _ hnext)

theorem startsWork_of_call {env : Environment} {c : Call} (hc : c.ofEngine g ∨ c.ofClient)
    (h : NewWork g w.state ((machine dg).traced.act i w env c).2.state) :
    c.startsWork := by
  have hsame : ¬ NewWork g w.state w.state := not_newWork_of_same rfl rfl
  replace h : NewWork g w.state (act dg w.state env c).2 := h
  cases c with
  | transact op =>
    simp only [act, commit] at h
    cases hop : execGoal op w.state with
    | error => rw [hop] at h; exact absurd h hsame
    | ok => rw [hop] at h; exact startsWork_of_newWork hop h
  | store op =>
    have hother : op.writesGoals = false := hc.resolve_left fun h => h
    simp only [act, commit] at h
    cases hop : exec dg op w.state with
    | error => rw [hop] at h; exact absurd h hsame
    | ok =>
      rw [hop] at h
      exact absurd h (not_newWork_of_same ((exec_frame hop).iterations hother) ((exec_frame hop).actions hother))
  | _ => exact absurd h hsame

end

/-- **No new work after a control.** Along every schedule of the engines of a goal, its controls, crashes and restarts
in which each pause or stop finds no engine between a check of the goal's state and the transaction that the check
guards: while a pause or a stop stands, no step inserts an iteration, records a plan with its actions, or starts to
dispatch a planned action. -/
theorem no_new_work_after_control (dg : Digests) (uuid5 : String → String) (g : String)
    (moves : List (Move Slot Request Environment)) (m : Move Slot Request Environment)
    (hmoves : ControlsFindNoneArmed dg uuid5 g moves)
    (halted : haltedBy g (goalRun dg uuid5 g moves).shared.trace = true) :
    ¬ NewWork g (goalRun dg uuid5 g moves).shared.state (goalRun dg uuid5 g (moves ++ [m])).shared.state := by
  intro hwork
  rw [show goalRun dg uuid5 g (moves ++ [m]) = (goalRun dg uuid5 g moves).move _ _ m from Pool.run_snoc ..] at hwork
  rcases Pool.move_shared (goalRun dg uuid5 g moves) m with h | ⟨i, env, c, next, hthread, h⟩
  · rw [h] at hwork
    exact not_newWork_of_same rfl rfl hwork
  · rw [h] at hwork
    exact goalRun_unarmed hmoves halted hthread (Or.inl (startsWork_of_call (goalRun_legal hthread) hwork))

section

private def undecided : Environment := .silent

private def begun (steps : Nat) : List (Move Slot Request Environment) :=
  [.start (.client 0) (.createGoal "g" "p" "intent" {}), .step (.client 0) undecided,
    .start (.engine "g") (.engine 1 0)] ++ List.replicate steps (.step (.engine "g") undecided)

private def pausing : List (Move Slot Request Environment) :=
  [.start (.client 1) (.pause "g" .soft), .step (.client 1) undecided]

-- the engine has read the goal as running and found no active iteration; then the pause commits
theorem iteration_begins_after_pause :
    haltedBy "g" (goalRun Digests.trivial id "g" (begun 9 ++ pausing)).shared.trace = true ∧
      NewWork "g" (goalRun Digests.trivial id "g" (begun 9 ++ pausing)).shared.state
        (goalRun Digests.trivial id "g" (begun 9 ++ pausing ++ [.step (.engine "g") undecided])).shared.state :=
  ⟨by decide, .iteration "iter-1" ⟨"g", 1, .evaluating, none, none, none⟩ (by decide +kernel)
    (by decide) rfl⟩

-- the engine crashed in its first iteration; its successor has not read the goal when the pause commits
private def restarted : List (Move Slot Request Environment) :=
  begun 12 ++ [.drop (.engine "g"), .start (.engine "g") (.engine 1 0)] ++ pausing

private theorem restarted_controls : ControlsFindNoneArmed Digests.trivial id "g" restarted := by
  intro before m after e _ hafter k p hp
  have hprefix : ∀ n < 19, haltedBy "g" (goalRun Digests.trivial id "g" (restarted.take n)).shared.trace = false := by
    decide
  have htake : restarted.take (before.length + 1) = before ++ [m] := by rw [e, List.take_length_add_append]; rfl
  have hlength : before.length + 1 + after.length = 19 := by
    have := congrArg List.length e
    simp only [List.length_append, List.length_cons] at this
    have hrestarted : restarted.length = 19 := rfl
    omega
  have hlast : before.length = 18 := by
    by_contra hne
    rw [← htake, hprefix _ (by omega)] at hafter
    cases hafter
  have hbefore : before = restarted.take 18 := by simp [e, ← hlast]
  have hk : k = "g" := by
    obtain ⟨request, hstart⟩ := Pool.started_of_thread hp
    have hmem : .start (.engine k) request ∈ restarted := e ▸ List.mem_append_left _ hstart
    simp [restarted, begun, pausing] at hmem
    exact hmem.1
  rw [hk, hbefore] at hp
  have hentry : (goalRun Digests.trivial id "g" (restarted.take 18)).thread (.engine "g") =
      some (serveGoal id "g" (.engine "g") (.engine 1 0)) := rfl
  rw [← Option.some.inj (hentry.symm.trans hp)]
  exact serve_unarmed _ _

theorem no_new_work_after_control_restarted :
    haltedBy "g" (goalRun Digests.trivial id "g" restarted).shared.trace = true ∧
      ¬ NewWork "g" (goalRun Digests.trivial id "g" restarted).shared.state
        (goalRun Digests.trivial id "g" (restarted ++ [.step (.engine "g") undecided])).shared.state := by
  have hhalted : haltedBy "g" (goalRun Digests.trivial id "g" restarted).shared.trace = true := by decide
  exact ⟨hhalted, no_new_work_after_control Digests.trivial id "g" restarted _ restarted_controls hhalted⟩

end

end AgentFabric.Autonomy
