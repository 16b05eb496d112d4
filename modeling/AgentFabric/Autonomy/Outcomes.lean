import AgentFabric.Lib.Avoidance
import AgentFabric.Autonomy.Phases
import Mathlib

/-!
# What the iterations of a goal leave behind

One engine for each goal, any controls, store operations, crashes and restarts.
-/

namespace AgentFabric.Autonomy

open AgentFabric.Lib AgentFabric.Store

/-- A schedule of engines, controls, store operations, crashes and restarts, with the calls that were made. -/
def engineRun (dg : Digests) (uuid5 : String → String) (moves : List (Move Slot Request Environment)) :
    Pool Slot World Call Call.Reply :=
  (Pool.quiet ⟨Db.initial, []⟩).run (machine dg).traced (serve uuid5) moves

theorem initial_agenda : Agenda Db.initial :=
  ⟨fun _ _ h => (by cases h), fun _ _ _ _ h => (by cases h), fun _ _ h => (by cases h), fun _ _ h => (by cases h),
    fun _ _ h => (by cases h)⟩

theorem engineRun_agenda (dg : Digests) (uuid5 : String → String) (moves : List (Move Slot Request Environment)) :
    Agenda (engineRun dg uuid5 moves).shared.state :=
  Pool.run_invariant (I := fun w : World => Agenda w.state) (serve_licensed dg uuid5) initial_agenda moves

section

variable {dg : Digests} {uuid5 : String → String}

theorem engineRun_trace (moves later : List (Move Slot Request Environment)) :
    (engineRun dg uuid5 moves).shared.trace <+: (engineRun dg uuid5 (moves ++ later)).shared.trace := by
  unfold engineRun
  rw [Pool.run_append]
  refine Pool.run_guarantee (P := fun w w' : World => w.trace <+: w'.trace) (serve_licensed dg uuid5)
    (fun _ => List.prefix_refl _)
    List.IsPrefix.trans (fun hrules => ?_)
      (Pool.run_sound (serve_licensed dg uuid5) (Pool.quiet_sound initial_agenda) moves) later
  obtain ⟨c, env, _, rfl⟩ := hrules
  exact List.prefix_append _ _

theorem engineRun_event {before : List (Move Slot Request Environment)} {m : Move Slot Request Environment} {i : Slot}
    {c : Call} {r : c.Reply}
    (h : (engineRun dg uuid5 (before ++ [m])).shared.trace = (engineRun dg uuid5 before).shared.trace ++ [⟨i, c, r⟩]) :
    ∃ env, r = (act dg (engineRun dg uuid5 before).shared.state env c).1 := by
  have hmove := @Pool.move_shared _ _ _ _ _ _ _ (machine dg).traced (serve uuid5) (engineRun dg uuid5 before) m
  rw [show engineRun dg uuid5 (before ++ [m]) = (engineRun dg uuid5 before).move _ _ m from Pool.run_snoc ..] at h
  rcases hmove with hsame | ⟨j, env, c', next, _, hmoved⟩
  · rw [hsame] at h
    have hlength := congrArg List.length h
    simp at hlength
  · rw [hmoved] at h
    have hevent := List.append_cancel_left h
    cases hevent
    exact ⟨env, rfl⟩

end

section

private def atWork : Environment :=
  { Environment.silent with
    evaluation := some ⟨.incomplete, "to do", "p", none, by decide, by decide⟩
    plan := some ⟨"plan", [⟨"a", "title", "text", "", "", by decide⟩], ""⟩
    verification := some ⟨false, "not yet", "p", none, by decide, by decide⟩
    handle := .error "refused" }

/-- The engine of a new goal makes its first calls. -/
private def underway (env : Environment) (calls : Nat) : List (Move Slot Request Environment) :=
  [.start (.client 0) (.createGoal "g" "p" "intent" {}), .step (.client 0) env, .start (.engine "g") (.engine 1 0)] ++
    List.replicate calls (.step (.engine "g") env)

/-- It crashes and starts again. -/
private def resumed (env : Environment) (calls : Nat) : List (Move Slot Request Environment) :=
  [.drop (.engine "g"), .start (.engine "g") (.engine 1 0)] ++ List.replicate calls (.step (.engine "g") env)

end

/-! ## Budgets -/

/-- The iterations of a goal, in the order of the table. -/
def iterationsOf (db : Db) (g : String) : List (String × IterationRow) :=
  db.iterations.rows.filter fun e => decide (e.2.goalId = g)

section

variable {db : Db} {g : String} {goal : GoalRow}

theorem mem_iterationsOf {id : String} {it : IterationRow} :
    (id, it) ∈ iterationsOf db g ↔ db.iterations.get? id = some it ∧ it.goalId = g := by
  unfold iterationsOf
  rw [List.mem_filter, Table.mem_rows, decide_eq_true_eq]

theorem Agenda.sequences (hA : Agenda db) (hgoal : db.goals.get? g = some goal) :
    ((iterationsOf db g).map fun e => e.2.sequence).Perm (List.range' 1 goal.iterationCount) := by
  have hrows : (iterationsOf db g).Nodup := db.iterations.nodup.of_map.filter _
  refine (List.perm_ext_iff_of_nodup (hrows.map_on ?_) List.nodup_range').mpr fun n => ?_
  · rintro ⟨id, it⟩ h ⟨id', it'⟩ h' hs
    obtain ⟨hit, hg⟩ := mem_iterationsOf.mp h
    obtain ⟨hit', hg'⟩ := mem_iterationsOf.mp h'
    obtain rfl := hA.unique id it id' it' hit hit' (hg.trans hg'.symm) hs
    rw [hit] at hit'
    rw [Option.some.inj hit']
  · rw [List.mem_map, List.mem_range'_1]
    constructor
    · rintro ⟨⟨id, it⟩, h, rfl⟩
      obtain ⟨hit, hg⟩ := mem_iterationsOf.mp h
      have hplaced := (hA.ok hit (by rw [hg]; exact hgoal)).placed
      show 1 ≤ it.sequence ∧ it.sequence < 1 + goal.iterationCount
      omega
    · rintro ⟨h1, hn⟩
      obtain ⟨id, it, hit, hg, hs⟩ := hA.covered g goal hgoal n h1 (by omega)
      exact ⟨(id, it), mem_iterationsOf.mpr ⟨hit, hg⟩, hs⟩

end

/-- **The budget of a goal.**  After any run, the iterations of a goal are numbered 1 to its iteration count, which is
at most the maximum; at most one of them is active; and its task count is the number of its actions, at most the
maximum. -/
theorem goal_budget_invariant (dg : Digests) (uuid5 : String → String) (moves : List (Move Slot Request Environment))
    (g : String) : ∀ goal ∈ (engineRun dg uuid5 moves).shared.state.goals.get? g,
      (iterationsOf (engineRun dg uuid5 moves).shared.state g).length = goal.iterationCount ∧
      goal.iterationCount ≤ goal.budgets.maxIterations ∧
      ((iterationsOf (engineRun dg uuid5 moves).shared.state g).map fun e => e.2.sequence).Perm
        (List.range' 1 goal.iterationCount) ∧
      (∀ id it id' it', (id, it) ∈ iterationsOf (engineRun dg uuid5 moves).shared.state g →
        (id', it') ∈ iterationsOf (engineRun dg uuid5 moves).shared.state g →
        it.state.active = true → it'.state.active = true → id = id') ∧
      goal.taskCount = ((engineRun dg uuid5 moves).shared.state.actions.rows.filter fun e =>
        decide (e.2.goalId = g)).length ∧
      goal.taskCount ≤ goal.budgets.maxTasks := by
  intro goal hgoal
  have hA := engineRun_agenda dg uuid5 moves
  have hseq := hA.sequences hgoal
  obtain ⟨hle, htasks, hcount⟩ := hA.bounded g goal hgoal
  refine ⟨?_, hle, hseq, fun id it id' it' h h' hactive hactive' => ?_, ?_, htasks⟩
  · simpa using hseq.length_eq
  · obtain ⟨hit, hg⟩ := mem_iterationsOf.mp h
    obtain ⟨hit', hg'⟩ := mem_iterationsOf.mp h'
    by_contra hne
    have hidle := hA.alone (P := fun _ => True) ⟨it, hit, hg, hactive, trivial⟩ (Ne.symm hne) hit' hg'
    rw [hidle] at hactive'
    cases hactive'
  · rw [hcount]
    exact List.countP_eq_length_filter

section

/-- The goal after its first iteration, whose only action failed. -/
private def workedGoal : GoalRow := ⟨"p", .running, none, none, {}, 1, 0, 1, 1, 0, some "p", some 0⟩

/-- One iteration and one task, after a crash within it. -/
theorem goal_budget_invariant_resumed :
    (engineRun .trivial id (underway atWork 30 ++ resumed atWork 40)).shared.state.goals.get? "g" = some workedGoal ∧
      (iterationsOf (engineRun .trivial id (underway atWork 30 ++ resumed atWork 40)).shared.state "g").length = 1 := by
  have hgoal : (engineRun .trivial id (underway atWork 30 ++ resumed atWork 40)).shared.state.goals.get? "g" =
    some workedGoal := by
    decide +kernel
  exact ⟨hgoal, (goal_budget_invariant .trivial id _ "g" workedGoal hgoal).1⟩

end

/-! ## Finished iterations -/

/-- Every finished iteration of a goal that is not final has settled actions. -/
def ClosedSettled (db : Db) : Prop :=
  ∀ id it goal, db.iterations.get? id = some it → it.state.active = false → db.goals.get? it.goalId = some goal →
    goal.state.final = false → Settled id db

section

variable {db db' : Db} {g id : String} {f : GoalRow → GoalRow} {u : IterationRow → IterationRow}
    {P : IterationRow → Prop}

theorem ClosedSettled.same (h : ClosedSettled db) (hA : Agenda db) (hgoals : GoalsCounted db db')
    (hi : db'.iterations = db.iterations) (ha : db'.actions = db.actions) : ClosedSettled db' := by
  intro k it goal' hit hactive hgoal' hopen
  rw [hi] at hit
  obtain ⟨goal, hgoal, _⟩ := hA.rows k it hit
  obtain ⟨goal'', hgoal'', hc⟩ := hgoals.forth _ goal hgoal
  obtain rfl := Option.some.inj (hgoal''.symm.trans hgoal')
  refine (settled_same ha).mpr (h k it goal hit hactive hgoal ?_)
  by_contra hfinal
  rw [hc.final (by simpa using hfinal)] at hopen
  cases hopen

/-- An edit of the engine's iteration may close it only with settled actions, or once the goal is final. -/
theorem ClosedSettled.edit (h : ClosedSettled db) (hcurrent : Current g id P db) (hE : Edited g id f u db db')
    (hu : IterationEdit u) (ha : db'.actions = db.actions)
    (hf : ∀ goal, goal.state.final = true → (f goal).state.final = true)
    (hclose : ∀ it goal, P it → db.goals.get? g = some goal → (u it).state.active = false →
      (f goal).state.final = false →
      Settled id db) : ClosedSettled db' := by
  intro k it goal' hit hactive hgoal' hopen
  refine (settled_same ha).mpr ?_
  obtain ⟨it₀, hit₀, hgoalId, _, hne, heq⟩ := hE.back hu hit
  obtain ⟨own, hown, howng, _, hP⟩ := hcurrent
  obtain ⟨goal, hgoal, hcase⟩ := hE.goal_back hgoal'
  by_cases hk : k = id
  · subst hk
    obtain rfl := Option.some.inj (hown.symm.trans hit₀)
    rcases hcase with ⟨_, rfl⟩ | ⟨hother, _⟩
    · rw [heq rfl] at hactive
      refine hclose own goal hP ?_ hactive hopen
      rw [← howng, ← hgoalId]
      exact hgoal
    · exact absurd (hgoalId.trans howng) hother
  · rw [hne hk] at hactive
    rw [hgoalId] at hgoal
    refine h k it₀ goal hit₀ hactive hgoal ?_
    rcases hcase with ⟨_, rfl⟩ | ⟨_, rfl⟩
    · by_contra hfinal
      rw [hf goal (by simpa using hfinal)] at hopen
      cases hopen
    · exact hopen

theorem ClosedSettled.interrupt (h : ClosedSettled db) (hcurrent : Current g id P db) (hsettled : Settled id db) :
    ClosedSettled (setIteration db id (·.withState .interrupted)) :=
  h.edit hcurrent (edited_iteration _) (.withState _) rfl (fun _ hs => hs) fun _ _ _ _ _ _ => hsettled

theorem ClosedSettled.stay (h : ClosedSettled db) (hcurrent : Current g id P db) (hE : Edited g id f u db db')
    (hu : IterationEdit u) (ha : db'.actions = db.actions)
    (hf : ∀ goal, goal.state.final = true → (f goal).state.final = true)
    (hactive : ∀ it, P it → (u it).state.active = true) : ClosedSettled db' :=
  h.edit hcurrent hE hu ha hf fun it _ hP _ hclosed => by
    rw [hactive it hP] at hclosed
    cases hclosed

/-- The phase check of the iteration meets settled actions if the goal was steered. -/
def FenceSettled (db : Db) : Call → Prop
  | .transact (.phaseIsCurrent g id expected) =>
    ∀ goal ∈ db.goals.get? g, (goal.steerVersion : Int) ≠ expected → Settled id db
  | _ => True

theorem phaseIsCurrent_stale {expected : Int} {b : Bool} (h : phaseIsCurrent db g id expected = .ok (b, db')) :
    (b = true ∧ db' = db) ∨ (db' = setIteration db id (·.withState .interrupted) ∧
      ∃ goal, db.goals.get? g = some goal ∧ (goal.steerVersion : Int) ≠ expected) := by
  simp only [phaseIsCurrent, bind_eq_ok, getGoal_eq_ok] at h
  obtain ⟨goal, hgoal, h⟩ := h
  unfold stalePhase at h
  split at h
  · rename_i hst
    split at hst
    · cases hst
    · rename_i hne
      cases h
      exact Or.inr ⟨(Option.some.inj hst).symm, goal, hgoal, hne⟩
  · cases h
    exact Or.inl ⟨rfl, rfl⟩

/-- An iteration begins open. -/
theorem ClosedSettled.begun {j uuid r : String} (hC : ClosedSettled db)
    (hop : Permits g db (.beginIteration j uuid)) (h : execGoal (.beginIteration j uuid) db = .ok (r, db')) :
    ClosedSettled db' := by
  obtain ⟨rfl, _⟩ := hop
  obtain ⟨goal, hb⟩ := begun_of_ok h
  have ha : db'.actions = db.actions := by
    obtain ⟨_, _, _, _, _, rfl⟩ := beginIteration_ok h
    rfl
  intro i it goal' hit hactive hgoal' hopen
  refine (settled_same ha).mpr ?_
  rcases hb.back hit with ⟨rfl, rfl⟩ | ⟨_, hit⟩
  · cases hactive
  · rw [hb.goals] at hgoal'
    split at hgoal'
    · rename_i hg
      obtain rfl := Option.some.inj hgoal'
      exact hC i it goal hit hactive (by rw [hg]; exact hb.row) hopen
    · exact hC i it goal' hit hactive hgoal' hopen

/-- An evaluation that finds its goal steered interrupts an iteration without actions. -/
theorem ClosedSettled.evaluated {i : String} {evaluation : GoalEvaluation} {expected : Int} {r : Bool}
    (hC : ClosedSettled db)
    (hop : Permits g db (.recordEvaluation i evaluation expected))
    (h : execGoal (.recordEvaluation i evaluation expected) db = .ok (r, db')) (hA : Agenda db) :
    ClosedSettled db' := by
  obtain ⟨it, hit, ⟨_, rfl⟩ | ⟨_, rfl⟩⟩ := recordEvaluation_ok h
  · refine hC.interrupt hop (hA.unplanned_settled (g := g) ?_)
    obtain ⟨own, hown, hg, hactive, hnone⟩ := hop
    refine ⟨own, hown, hg, hactive, ?_⟩
    by_contra hplan
    obtain ⟨goal, _, hok⟩ := hA.rows i own hown
    obtain ⟨cp, hcp, _⟩ := hok.planned (Option.isSome_iff_ne_none.mpr hplan)
    rw [hnone] at hcp
    cases hcp
  · have hcurrent := hop
    obtain ⟨own, hown, hg, hactive, _⟩ := hcurrent
    obtain rfl := Option.some.inj (hown.symm.trans hit)
    rw [hg]
    have hcurrent : Current g i (fun it => it.state.active = true) db := ⟨own, hown, hg, hactive, hactive⟩
    exact hC.stay hcurrent (edited_both _ _) ⟨fun _ => rfl, fun _ => rfl, fun _ _ hv => Or.inl hv⟩ rfl (fun _ hs => hs)
      fun _ hs => hs

/-- The actions of a plan belong to the iteration that goes on. -/
theorem ClosedSettled.planned {i k : String} {plan : GoalPlan} {expected : Int}
    {actionId : String → String} {r : Bool} (hC : ClosedSettled db)
    (hop : Permits g db (.recordPlan i k plan expected actionId))
    (h : execGoal (.recordPlan i k plan expected actionId) db = .ok (r, db'))
    (hA : Agenda db) :
    ClosedSettled db' := by
  obtain ⟨rfl, hcurrent, _⟩ := hop
  rcases recordPlan_rows h with ⟨_, rfl⟩ | ⟨_, actions, hins, rfl⟩
  · exact hC.interrupt hcurrent (hA.unplanned_settled (hcurrent.mono fun _ hp => hp.1))
  · have hmiddle : ClosedSettled (setGoal (setIteration db i (·.planWith plan)) k (·.addTasks plan.actions.length)) :=
      hC.stay hcurrent (edited_both _ _) ⟨fun _ => rfl, fun _ => rfl, fun _ _ hv => Or.inl hv⟩ rfl (fun _ hs => hs)
        fun _ _ => rfl
    obtain ⟨own, hown, _⟩ := hcurrent
    intro j it goal hit hactive hgoal hopen a row hrow hid
    rcases (Table.get?_insertAll hins).mp hrow with hold | hmem
    · exact hmiddle j it goal hit hactive hgoal hopen a row hold hid
    · obtain ⟨x, _, hx⟩ := List.mem_map.mp hmem
      have hrowid : row.iterationId = i := by rw [← (Prod.mk.inj hx).2]
      have hij : j = i := hid.symm.trans hrowid
      have hplanned : it = own.planWith plan := by
        have hrow' : (db.iterations.modify i (·.planWith plan)).get? j = some it := hit
        rw [hij, Table.get?_modify_self, hown] at hrow'
        exact (Option.some.inj hrow').symm
      rw [hplanned] at hactive
      cases hactive

/-- An iteration is completed with its actions settled, or interrupted with its goal final. -/
theorem ClosedSettled.moved {i : String} {state : IterationState} {r : Unit} (hC : ClosedSettled db)
    (hop : Permits g db (.setIterationState i state)) (h : execGoal (.setIterationState i state) db = .ok (r, db')) :
    ClosedSettled db' := by
  cases h
  have hstay : ∀ {P : IterationRow → Prop}, Current g i P db → state.active = true →
      ClosedSettled (setIteration db i (·.withState state)) := fun hcurrent hactive =>
    hC.stay hcurrent (edited_iteration _) (.withState _) rfl (fun _ hs => hs) fun _ _ => hactive
  cases state with
  | dispatching => exact hstay hop rfl
  | collecting => exact hstay hop rfl
  | verifying => exact hstay hop.1 rfl
  | completed =>
    exact hC.edit hop.1 (edited_iteration _) (.withState _) rfl (fun _ hs => hs) fun _ _ _ _ _ _ => hop.2
  | interrupted =>
    refine hC.edit hop.1 (edited_iteration _) (.withState _) rfl (fun _ hs => hs) fun _ goal _ hgoal _ hopen => ?_
    obtain ⟨goal', hgoal', hfinal⟩ := hop.2
    obtain rfl := Option.some.inj (hgoal.symm.trans hgoal')
    rw [hfinal] at hopen
    cases hopen
  | _ => exact hop.elim

/-- Only actions of an open iteration are set. -/
theorem ClosedSettled.acted {actionId : String} {state : ActionState} {handle : Option DispatchHandle}
    {result : Option ActionResult} {error : Option String} {r : Unit} (hC : ClosedSettled db)
    (hop : Permits g db (.setAction actionId state handle result error))
    (h : execGoal (.setAction actionId state handle result error) db = .ok (r, db')) :
    ClosedSettled db' := by
  obtain ⟨i, ⟨a, ha, hid, _⟩, own, hown, _, hactive, _⟩ := hop
  obtain rfl := setAction_ok h
  intro j it goal hit hclosed hgoal hopen k row hrow hrowid
  have hji : j ≠ i := by
    rintro rfl
    obtain rfl := Option.some.inj (hown.symm.trans hit)
    rw [hactive] at hclosed
    cases hclosed
  simp only [Table.get?_modify] at hrow
  split at hrow
  · rename_i hk
    subst hk
    obtain ⟨row₀, hrow₀, rfl⟩ := Option.map_eq_some_iff.mp hrow
    obtain rfl := Option.some.inj (ha.symm.trans hrow₀)
    exact absurd (hrowid.symm.trans hid) hji
  · exact hC j it goal hit hclosed hgoal hopen k row hrow hrowid

/-- The transactions of an engine close settled iterations only, its phase checks apart. -/
theorem closed_permitted {op : GoalOp} {r : op.Reply} (hop : Permits g db op) (h : execGoal op db = .ok (r, db'))
    (hA : Agenda db) (hfence : FenceSettled db (.transact op)) (hC : ClosedSettled db) : ClosedSettled db' := by
  have huncounted : Uncounted op → ClosedSettled db' := by
    intro hu
    obtain ⟨hgoals, hi, ha⟩ := uncounted_goals hu h
    exact hC.same hA hgoals hi ha
  cases op with
  | start => exact huncounted trivial
  | terminate => exact huncounted trivial
  | beginIteration => exact hC.begun hop h
  | recordEvaluation => exact hC.evaluated hop h hA
  | recordPlan => exact hC.planned hop h hA
  | recordVerification =>
    obtain ⟨hcurrent, hsettled⟩ := hop
    rcases recordGoalVerification_ok h with ⟨_, rfl⟩ | ⟨_, rfl⟩
    · exact hC.interrupt hcurrent hsettled
    · exact hC.edit hcurrent (edited_iteration _) ⟨fun _ => rfl, fun _ => rfl, fun _ _ hv =>
        Or.inr (by rw [← Option.some.inj hv]; exact fun hn => (by cases hn))⟩ rfl (fun _ hs => hs) fun _ _ _ _ _ _ =>
          hsettled
  | phaseIsCurrent =>
    obtain ⟨rfl, hcurrent⟩ := hop
    rcases phaseIsCurrent_stale h with ⟨_, rfl⟩ | ⟨rfl, goal, hgoal, hne⟩
    · exact hC
    · exact hC.interrupt hcurrent (hfence goal hgoal hne)
  | completeReplan =>
    obtain ⟨rfl, _, _, hcurrent⟩ := hop
    obtain rfl := completeReplan_ok h
    exact hC.stay hcurrent (edited_pair _ _) (.withState _) rfl (fun _ hs => hs) fun _ _ => rfl
  | terminatePhaseIfCurrent =>
    obtain ⟨rfl, hcurrent, hsettled⟩ := hop
    rcases terminatePhaseIfCurrent_ok h with rfl | rfl | ⟨_, _, _, _, rfl⟩
    · exact hC.interrupt hcurrent hsettled
    · exact hC
    · exact hC.edit hcurrent (edited_pair _ _) (.withState _) rfl (fun _ _ => rfl) fun _ _ _ _ _ _ => hsettled
  | interruptForSteer =>
    obtain ⟨rfl, hcurrent⟩ := hop
    obtain rfl := interruptForSteer_ok h
    exact hC.interrupt hcurrent (hA.unplanned_settled hcurrent)
  | setIterationState => exact hC.moved hop h
  | setAction => exact hC.acted hop h
  | _ => exact hop.elim

end

/-- Along the schedule, a phase check that finds its goal steered finds the actions of its iteration settled. -/
def FencesSettled (dg : Digests) (uuid5 : String → String) (moves : List (Move Slot Request Environment)) : Prop :=
  ∀ before m after, moves = before ++ m :: after → ∀ i c r,
    (engineRun dg uuid5 (before ++ [m])).shared.trace = (engineRun dg uuid5 before).shared.trace ++ [⟨i, c, r⟩] →
      FenceSettled (engineRun dg uuid5 before).shared.state c

/-- **Finished iterations hold only settled actions.**  In every schedule whose phase checks find no unfinished actions
after a steer, the actions of every finished iteration have an outcome, as long as the goal is not final. -/
theorem finished_iterations_settled (dg : Digests) (uuid5 : String → String)
    (moves : List (Move Slot Request Environment)) (hfences : FencesSettled dg uuid5 moves) (id : String) :
    ∀ it ∈ (engineRun dg uuid5 moves).shared.state.iterations.get? id, it.state.active = false →
      ∀ goal ∈ (engineRun dg uuid5 moves).shared.state.goals.get? it.goalId, goal.state.final = false →
        ∀ actionId, ∀ a ∈ (engineRun dg uuid5 moves).shared.state.actions.get? actionId, a.iterationId = id →
          a.state ≠ .planned ∧ a.state ≠ .dispatching ∧ a.state ≠ .running := by
  have hinitial : ClosedSettled Db.initial := by
    intro id it goal hit
    cases hit
  have hC : ClosedSettled (engineRun dg uuid5 moves).shared.state := by
    refine Pool.run_kept (J := fun w : World => ClosedSettled w.state) (serve_licensed dg uuid5) initial_agenda
      hinitial moves fun before m after i e hA hrules hC => ?_
    obtain ⟨c, env, hc, hw⟩ := hrules
    have hfence := hfences before m after e i c _ (congrArg Traced.trace hw)
    rw [hw]
    show ClosedSettled (act dg (engineRun dg uuid5 before).shared.state env c).2
    rcases hc with hc | hc | ⟨g, op, rfl, rfl, hop⟩
    · obtain ⟨hgoals, hi, ha⟩ := client_goals hc env
      exact hC.same hA hgoals hi ha
    · rw [act_query hc]
      exact hC
    · exact commit_step (P := fun _ db' => ClosedSettled db')
        (fun r db' h => closed_permitted hop h hA hfence hC) fun _ => hC
  intro it hit hactive goal hgoal hopen actionId a ha hid
  have hsettled := hC id it goal hit hactive hgoal hopen actionId a ha hid
  exact ⟨fun hs => (by rw [hs] at hsettled; cases hsettled), fun hs => (by rw [hs] at hsettled; cases hsettled),
    fun hs => (by rw [hs] at hsettled; cases hsettled)⟩

section

-- the engine crashed with its action running; the goal is steered before its successor checks the evaluation
private def steeredRun : List (Move Slot Request Environment) :=
  underway { atWork with handle := .ok ⟨"h", none, ""⟩ } 35 ++
    [.start (.client 1) (.steer "g" "differently" none), .step (.client 1) atWork] ++ resumed atWork 7

/-- The iteration is interrupted with its action running, and the goal goes on. -/
theorem interrupted_iteration_runs :
    ((engineRun .trivial id steeredRun).shared.state.iterations.get? "iter-1").map IterationRow.state =
      some .interrupted ∧
      ((engineRun .trivial id steeredRun).shared.state.actions.get? "act-iter-1:a").map
        ActionRow.iterationId = some "iter-1" ∧
      ((engineRun .trivial id steeredRun).shared.state.actions.get? "act-iter-1:a").map
        ActionRow.state = some .running ∧
      ((engineRun .trivial id steeredRun).shared.state.goals.get? "g").map GoalRow.state = some .running :=
  ⟨by decide +kernel, by decide +kernel, by decide +kernel, by decide +kernel⟩

/-- The call is no phase check, or one that found its decision current. -/
def passed : GoalEvent → Bool
  | ⟨_, .transact (.phaseIsCurrent ..), .ok current⟩ => current
  | ⟨_, .transact (.phaseIsCurrent ..), .error _⟩ => false
  | _ => true

/-- Where every phase check passes, none meets a steer. -/
theorem fencesSettled_of_passed {dg : Digests} {uuid5 : String → String} {moves : List (Move Slot Request Environment)}
    (h : (engineRun dg uuid5 moves).shared.trace.all passed = true) : FencesSettled dg uuid5 moves := by
  intro before m after e i c r htrace
  have hmem : ⟨i, c, r⟩ ∈ (engineRun dg uuid5 moves).shared.trace := by
    have hprefix : (engineRun dg uuid5 (before ++ [m])).shared.trace <+: (engineRun dg uuid5 moves).shared.trace := by
      rw [show moves = before ++ [m] ++ after by rw [e, List.append_assoc]; rfl]
      exact engineRun_trace _ _
    refine hprefix.subset ?_
    rw [htrace]
    exact List.mem_append_right _ List.mem_cons_self
  have hpassed := List.all_eq_true.mp h _ hmem
  obtain ⟨env, rfl⟩ := engineRun_event htrace
  cases c with
  | transact op =>
    cases op with
    | phaseIsCurrent g id expected =>
      intro goal hgoal hne
      have hgoal : (engineRun dg uuid5 before).shared.state.goals.get? g = some goal := hgoal
      have hstale : (act dg (engineRun dg uuid5 before).shared.state env
        (.transact (.phaseIsCurrent g id expected))).1 =
          .ok false := by
        have hread : getGoal (engineRun dg uuid5 before).shared.state g = .ok goal := getGoal_eq_ok.mpr hgoal
        simp only [act, execGoal, phaseIsCurrent, hread, stalePhase]
        simp [bind, Except.bind, pure, Except.pure, hne, commit]
      rw [hstale] at hpassed
      cases hpassed
    | _ => trivial
  | _ => trivial

/-- The only action of the first iteration failed, and the iteration is completed. -/
theorem finished_iterations_settled_failed :
    ((engineRun .trivial id (underway atWork 51)).shared.state.iterations.get? "iter-1").map IterationRow.state =
      some .completed ∧
      ∀ a ∈ (engineRun .trivial id (underway atWork 51)).shared.state.actions.get? "act-iter-1:a",
        a.state ≠ .running := by
  have hfences : FencesSettled .trivial id (underway atWork 51) := fencesSettled_of_passed (by decide +kernel)
  have hrow : (engineRun .trivial id (underway atWork 51)).shared.state.iterations.get? "iter-1" = some
      ⟨"g", 1, .completed, some ⟨⟨.incomplete, "to do", "p", none, by decide, by decide⟩, some 0⟩,
        some ⟨"plan", [⟨"a", "title", "text", "", "", by decide⟩], ""⟩,
        some ⟨⟨false, "not yet", "p", none, by decide, by decide⟩, some 0⟩⟩ := by decide +kernel
  have hgoal : (engineRun .trivial id (underway atWork 51)).shared.state.goals.get? "g" = some workedGoal := by
    decide +kernel
  have haction : ((engineRun .trivial id (underway atWork 51)).shared.state.actions.get? "act-iter-1:a").map
      ActionRow.iterationId = some "iter-1" := by decide +kernel
  refine ⟨by rw [hrow]; rfl, fun a ha => ?_⟩
  have ha : (engineRun .trivial id (underway atWork 51)).shared.state.actions.get? "act-iter-1:a" = some a := ha
  rw [ha] at haction
  exact (finished_iterations_settled .trivial id (underway atWork 51) hfences "iter-1" _ hrow rfl workedGoal hgoal rfl
    "act-iter-1:a" a ha (Option.some.inj haction)).2.2

end

/-! ## Failures -/

/-- The iteration of the goal whose failures the call counted. -/
def replanOf (g : String) : GoalEvent → Option String
  | ⟨_, .transact (.completeReplan g' id _ _), .ok _⟩ => if g' = g then some id else none
  | _ => none

/-- The iterations of the goal whose failures were counted, in order. -/
def replanned (g : String) (trace : List GoalEvent) : List String := trace.filterMap (replanOf g)

/-- The call ended the goal in the iteration. -/
def endsGoal (g id : String) : GoalEvent → Bool
  | ⟨_, .transact (.terminatePhaseIfCurrent g' id' _ _ _), .ok true⟩ => decide (g' = g ∧ id' = id)
  | _ => false

def endedIn (g id : String) (trace : List GoalEvent) : Bool := trace.any (endsGoal g id)

/-- The failures of a goal are those of its replanned iterations, each counted once. -/
structure Counts (g : String) (w : World) : Prop where
  once : (replanned g w.trace).Nodup
  rows : ∀ id ∈ replanned g w.trace, ∃ it, w.state.iterations.get? id = some it ∧ it.goalId = g ∧
    (it.state = .replanning ∨ it.state.active = false)
  marked : ∀ id it, w.state.iterations.get? id = some it → it.goalId = g → it.state = .replanning →
    id ∈ replanned g w.trace
  completed : ∀ id it, w.state.iterations.get? id = some it → it.goalId = g → it.state = .completed →
    id ∈ replanned g w.trace ∨ endedIn g id w.trace = true
  total : ∀ goal ∈ w.state.goals.get? g,
    goal.failureCount = ((replanned g w.trace).map (failuresOf w.state)).sum

section

variable {dg : Digests} {db db' : Db} {g id : String} {trace : List GoalEvent} {e : GoalEvent} {P : IterationRow → Prop}
  {f : GoalRow → GoalRow} {u : IterationRow → IterationRow}

theorem replanned_snoc (g : String) (trace : List GoalEvent) (e : GoalEvent) :
    replanned g (trace ++ [e]) = replanned g trace ++ (replanOf g e).toList := by
  unfold replanned
  rw [List.filterMap_append]
  cases h : replanOf g e <;> simp [h]

theorem endedIn_snoc (g id : String) (trace : List GoalEvent) (e : GoalEvent) :
    endedIn g id (trace ++ [e]) = (endedIn g id trace || endsGoal g id e) := by
  simp [endedIn]

/-- A call that counts nothing, where the goal's iterations keep their failures and its counter stays. -/
theorem Counts.keep (h : Counts g ⟨db, trace⟩) (he : replanOf g e = none)
    (hrows : ∀ id it, db.iterations.get? id = some it → it.goalId = g → id ∈ replanned g trace →
      (it.state = .replanning ∨ it.state.active = false) → ∃ it', db'.iterations.get? id = some it' ∧ it'.goalId = g ∧
        (it'.state = .replanning ∨ it'.state.active = false) ∧ failuresOf db' id = failuresOf db id)
    (hmarked : ∀ id it', db'.iterations.get? id = some it' → it'.goalId = g → it'.state = .replanning →
      ∃ it, db.iterations.get? id = some it ∧ it.goalId = g ∧ it.state = .replanning)
    (hcompleted : ∀ id it', db'.iterations.get? id = some it' → it'.goalId = g → it'.state = .completed →
      (∃ it, db.iterations.get? id = some it ∧ it.goalId = g ∧ (it.state = .replanning ∨ it.state = .completed)) ∨
        endsGoal g id e = true)
    (hgoal : ∀ goal', db'.goals.get? g = some goal' → (∃ goal, db.goals.get? g = some goal ∧
      goal'.failureCount = goal.failureCount) ∨ (replanned g trace = [] ∧ goal'.failureCount = 0)) :
    Counts g ⟨db', trace ++ [e]⟩ := by
  have hsame : replanned g (trace ++ [e]) = replanned g trace := by
    rw [replanned_snoc, he]
    exact List.append_nil _
  refine ⟨?_, fun id hid => ?_, fun id it' hit' hg hs => ?_, fun id it' hit' hg hs => ?_, fun goal' hgoal' => ?_⟩
  · rw [hsame]
    exact h.once
  · rw [hsame] at hid
    obtain ⟨it, hit, hg, hs⟩ := h.rows id hid
    obtain ⟨it', hit', hg', hs', _⟩ := hrows id it hit hg hid hs
    exact ⟨it', hit', hg', hs'⟩
  · rw [hsame]
    obtain ⟨it, hit, hg, hs⟩ := hmarked id it' hit' hg hs
    exact h.marked id it hit hg hs
  · rw [hsame, endedIn_snoc]
    rcases hcompleted id it' hit' hg hs with ⟨it, hit, hg, hs | hs⟩ | hend
    · exact Or.inl (h.marked id it hit hg hs)
    · exact (h.completed id it hit hg hs).imp_right fun hend => by rw [hend]; rfl
    · exact Or.inr (by rw [hend, Bool.or_true])
  · rw [hsame]
    have hmap : (replanned g trace).map (failuresOf db') = (replanned g trace).map (failuresOf db) := by
      refine List.map_congr_left fun id hid => ?_
      obtain ⟨it, hit, hg, hs⟩ := h.rows id hid
      obtain ⟨_, _, _, _, hfailures⟩ := hrows id it hit hg hid hs
      exact hfailures
    show goal'.failureCount = ((replanned g trace).map (failuresOf db')).sum
    rw [hmap]
    rcases hgoal goal' hgoal' with ⟨goal, hrow, hcount⟩ | ⟨hempty, hzero⟩
    · rw [hcount]
      exact h.total goal hrow
    · rw [hempty, hzero]
      rfl

theorem Counts.nothing (h : Counts g ⟨db, trace⟩) (hA : Agenda db) (hnone : db.goals.get? g = none) :
    replanned g trace = [] := by
  refine List.eq_nil_iff_forall_not_mem.mpr fun id hid => ?_
  obtain ⟨it, hit, hg, _⟩ := h.rows id hid
  obtain ⟨goal, hgoal, _⟩ := hA.rows id it hit
  rw [hg, hnone] at hgoal
  cases hgoal

theorem Counts.untouched (h : Counts g ⟨db, trace⟩) (hut : Untouched g db db') (hA : Agenda db) (hA' : Agenda db')
    (he : replanOf g e = none) : Counts g ⟨db', trace ++ [e]⟩ := by
  refine h.keep he (fun id it hit hg _ hs =>
    ⟨it, (hut.iterations id it hg).mpr hit, hg, hs, hut.failures hA hA' hit hg⟩)
    (fun id it' hit' hg hs => ⟨it', (hut.iterations id it' hg).mp hit', hg, hs⟩)
    (fun id it' hit' hg hs => Or.inl ⟨it', (hut.iterations id it' hg).mp hit', hg, Or.inr hs⟩) fun goal' hgoal' => ?_
  cases hgoal : db.goals.get? g with
  | none => exact Or.inr ⟨h.nothing hA hgoal, hut.fresh hgoal goal' hgoal'⟩
  | some goal =>
    obtain ⟨goal'', hgoal'', _, _, _, _, hf, _⟩ := hut.goal goal hgoal
    obtain rfl := Option.some.inj (hgoal''.symm.trans hgoal')
    exact Or.inl ⟨goal, rfl, hf⟩

/-- An edit of the engine's iteration that counts nothing. -/
theorem Counts.edit (h : Counts g ⟨db, trace⟩) (he : replanOf g e = none) (hcurrent : Current g id P db)
    (hE : Edited g id f u db db') (hu : IterationEdit u) (ha : db'.actions = db.actions)
    (hf : ∀ goal, (f goal).failureCount = goal.failureCount)
    (hkeep : ∀ it, P it → it.state = .replanning → (u it).state = .replanning ∨ (u it).state.active = false)
    (hmark : ∀ it, P it → (u it).state = .replanning → it.state = .replanning)
    (hclose : ∀ it, P it → (u it).state = .completed → it.state = .replanning ∨ endsGoal g id e = true) :
    Counts g ⟨db', trace ++ [e]⟩ := by
  obtain ⟨own, hown, howng, hactive, hP⟩ := hcurrent
  have hfailures : ∀ k, failuresOf db' k = failuresOf db k := fun k => by unfold failuresOf; rw [ha]
  have hself : db'.iterations.get? id = some (u own) := by rw [hE.iterations, if_pos rfl, hown]; rfl
  refine h.keep he (fun k it hit hg _ hs => ?_) (fun k it' hit' hg hs => ?_) (fun k it' hit' hg hs => ?_)
    fun goal' hgoal' => ?_
  · by_cases hk : k = id
    · subst hk
      obtain rfl := Option.some.inj (hown.symm.trans hit)
      refine ⟨u own, hself, (hu.goalId own).trans howng, hkeep own hP ?_, hfailures k⟩
      exact hs.resolve_right fun hf => by rw [hactive] at hf; cases hf
    · exact ⟨it, by rw [hE.iteration_ne hk]; exact hit, hg, hs, hfailures k⟩
  · by_cases hk : k = id
    · subst hk
      obtain rfl := Option.some.inj (hself.symm.trans hit')
      exact ⟨own, hown, howng, hmark own hP hs⟩
    · rw [hE.iteration_ne hk] at hit'
      exact ⟨it', hit', hg, hs⟩
  · by_cases hk : k = id
    · subst hk
      obtain rfl := Option.some.inj (hself.symm.trans hit')
      exact (hclose own hP hs).imp_left fun hs => ⟨own, hown, howng, Or.inl hs⟩
    · rw [hE.iteration_ne hk] at hit'
      exact Or.inl ⟨it', hit', hg, Or.inr hs⟩
  · obtain ⟨goal, hgoal, ⟨_, rfl⟩ | ⟨hne, _⟩⟩ := hE.goal_back hgoal'
    · exact Or.inl ⟨goal, hgoal, hf goal⟩
    · exact absurd rfl hne

theorem Counts.interrupt (h : Counts g ⟨db, trace⟩) (he : replanOf g e = none) (hcurrent : Current g id P db) :
    Counts g ⟨setIteration db id (·.withState .interrupted), trace ++ [e]⟩ :=
  h.edit he hcurrent (edited_iteration _) (.withState _) rfl (fun _ => rfl) (fun _ _ _ => Or.inr rfl)
    (fun _ _ hs => (by cases hs)) fun _ _ hs => (by cases hs)

/-- The iteration is not dispatched again between its count and its close. -/
def NotRedispatched (db : Db) : Call → Prop
  | .transact (.setIterationState id .dispatching) => ∀ it ∈ db.iterations.get? id, it.state ≠ .replanning
  | _ => True

theorem terminatePhaseIfCurrent_true {iterationId detail : String} {reason : TerminationReason}
    {expected : Int} {b : Bool}
    (h : terminatePhaseIfCurrent db g iterationId reason detail expected = .ok (b, db')) :
    b = true ∨ db' = setIteration db iterationId (·.withState .interrupted) := by
  simp only [terminatePhaseIfCurrent, bind_eq_ok] at h
  obtain ⟨goal, _, h⟩ := h
  split at h
  · rename_i hst
    cases h
    exact Or.inr (stalePhase_some hst)
  · split at h <;> cases h <;> exact Or.inl rfl

theorem failuresOf_set {actionId k : String} {fa : ActionRow → ActionRow}
    (hfa : ∀ a, (fa a).iterationId = a.iterationId)
    (hmember : Member g id actionId db) (hk : k ≠ id) :
    failuresOf { db with actions := db.actions.modify actionId fa } k = failuresOf db k := by
  obtain ⟨a₀, ha₀, hid, _⟩ := hmember
  refine failuresOf_congr fun i a ha => ?_
  by_cases hi : i = actionId
  · subst hi
    simp only [Table.get?_modify_self, ha₀, Option.map_some, Option.some.injEq]
    constructor
    · rintro rfl
      exact absurd (ha.symm.trans ((hfa a₀).trans hid)) hk
    · rintro rfl
      exact absurd (ha.symm.trans hid) hk
  · simp [Table.get?_modify_ne _ _ hi]

variable {i : Slot}

/-- Failures are counted as the iteration is marked for it. -/
theorem Counts.replan {verification : GoalVerification} {failures : Nat}
    (h : Counts g ⟨db, trace⟩) (hfailures : failures = failuresOf db id)
    (hcurrent : Current g id (fun it => it.state ≠ .replanning ∧ it.verification.isSome = true ∧ Prepared it) db) :
    Counts g ⟨setIteration (setGoal db g (·.replan verification.progressFingerprint failures)) id
      (·.withState .replanning),
      trace ++ [⟨i, .transact (.completeReplan g id verification failures), .ok ()⟩]⟩ := by
  obtain ⟨own, hown, howng, hactive, hne, _⟩ := hcurrent
  have hsnoc : replanned g (trace ++ [⟨i, .transact (.completeReplan g id verification failures), .ok ()⟩]) =
      replanned g trace ++ [id] := by
    rw [replanned_snoc]
    simp [replanOf]
  have hnew : id ∉ replanned g trace := by
    intro hid
    obtain ⟨it, hit, _, hs⟩ := h.rows id hid
    obtain rfl := Option.some.inj (hown.symm.trans hit)
    rcases hs with hs | hs
    · exact hne hs
    · rw [hactive] at hs
      cases hs
  have hself : (db.iterations.modify id (·.withState .replanning)).get? id = some (own.withState .replanning) := by
    rw [Table.get?_modify_self, hown]
    rfl
  have hother : ∀ {k}, k ≠ id → (db.iterations.modify id (·.withState .replanning)).get? k = db.iterations.get? k :=
    fun hk => Table.get?_modify_ne _ _ hk
  refine ⟨?_, fun k hk => ?_, fun k it hit hg hs => ?_, fun k it hit hg hs => ?_, fun goal' hgoal' => ?_⟩
  · rw [hsnoc]
    exact List.nodup_append.mpr ⟨h.once, List.nodup_singleton id, fun a ha b hb => by
      rintro rfl
      exact hnew (List.mem_singleton.mp hb ▸ ha)⟩
  · rw [hsnoc, List.mem_append, List.mem_singleton] at hk
    by_cases hkid : k = id
    · subst hkid
      exact ⟨_, hself, howng, Or.inl rfl⟩
    · obtain ⟨it, hit, hg, hs⟩ := h.rows k (hk.resolve_right hkid)
      exact ⟨it, (hother hkid).trans hit, hg, hs⟩
  · rw [hsnoc, List.mem_append, List.mem_singleton]
    by_cases hkid : k = id
    · exact Or.inr hkid
    · exact Or.inl (h.marked k it ((hother hkid).symm.trans hit) hg hs)
  · rw [hsnoc, List.mem_append, List.mem_singleton, endedIn_snoc]
    by_cases hkid : k = id
    · exact Or.inl (Or.inr hkid)
    · rcases h.completed k it ((hother hkid).symm.trans hit) hg hs with hin | hend
      · exact Or.inl (Or.inl hin)
      · exact Or.inr (by rw [hend]; rfl)
  · have hrow : (db.goals.modify g (·.replan verification.progressFingerprint failures)).get? g = some goal' := hgoal'
    rw [Table.get?_modify_self, Option.map_eq_some_iff] at hrow
    obtain ⟨goal, hgoal, rfl⟩ := hrow
    have htotal := h.total goal hgoal
    rw [hsnoc, List.map_append, List.sum_append]
    show goal.failureCount + failures = ((replanned g trace).map (failuresOf db)).sum + (([id].map (failuresOf db)).sum)
    rw [htotal, hfailures]
    simp

/-- The iteration that begins has no failures yet. -/
theorem Counts.begun {k uuid r : String}
    (hop : Permits g db (.beginIteration k uuid)) (hexec : execGoal (.beginIteration k uuid) db = .ok (r, db'))
    (h : Counts g ⟨db, trace⟩) :
    Counts g ⟨db', trace ++ [⟨i, .transact (.beginIteration k uuid), .ok r⟩]⟩ := by
  obtain ⟨rfl, _⟩ := hop
  obtain ⟨goal, hb⟩ := begun_of_ok hexec
  have ha : db'.actions = db.actions := by
    obtain ⟨_, _, _, _, _, rfl⟩ := beginIteration_ok hexec
    rfl
  refine h.keep rfl (fun j it hit hg _ hs => ⟨it, hb.old hit, hg, hs, by unfold failuresOf; rw [ha]⟩)
    (fun j it hit hg hs => ?_) (fun j it hit hg hs => ?_) fun goal' hgoal' => Or.inl ⟨goal, hb.row, ?_⟩
  · rcases hb.back hit with ⟨_, rfl⟩ | ⟨_, hit⟩
    · cases hs
    · exact ⟨it, hit, hg, hs⟩
  · rcases hb.back hit with ⟨_, rfl⟩ | ⟨_, hit⟩
    · cases hs
    · exact Or.inl ⟨it, hit, hg, Or.inr hs⟩
  · rw [hb.goals, if_pos rfl] at hgoal'
    rw [← Option.some.inj hgoal']
    rfl

/-- A recorded evaluation counts nothing. -/
theorem Counts.evaluated {j : String} {evaluation : GoalEvaluation} {expected : Int} {r : Bool}
    (hop : Permits g db (.recordEvaluation j evaluation expected))
    (hexec : execGoal (.recordEvaluation j evaluation expected) db = .ok (r, db'))
    (h : Counts g ⟨db, trace⟩) :
    Counts g ⟨db', trace ++ [⟨i, .transact (.recordEvaluation j evaluation expected), .ok r⟩]⟩ := by
  obtain ⟨it, hit, ⟨_, rfl⟩ | ⟨_, rfl⟩⟩ := recordEvaluation_ok hexec
  · exact h.interrupt rfl hop
  · obtain ⟨own, hown, hg, hactive, _⟩ := hop
    obtain rfl := Option.some.inj (hown.symm.trans hit)
    rw [hg]
    have hcurrent : Current g j (fun it => it.state.active = true) db := ⟨own, hown, hg, hactive, hactive⟩
    exact h.edit rfl hcurrent (edited_both _ _) ⟨fun _ => rfl, fun _ => rfl, fun _ _ hv => Or.inl hv⟩ rfl (fun _ => rfl)
      (fun _ _ hs => Or.inl hs) (fun _ _ hs => hs) fun it hs hcompleted => by
        rw [show it.state = .completed from hcompleted] at hs
        cases hs

/-- A plan comes before the dispatch, and its actions belong to no other iteration. -/
theorem Counts.planned {j k : String} {plan : GoalPlan} {expected : Int}
    {actionId : String → String} {r : Bool}
    (hop : Permits g db (.recordPlan j k plan expected actionId))
    (hexec : execGoal (.recordPlan j k plan expected actionId) db = .ok (r, db'))
    (hA : Agenda db) (h : Counts g ⟨db, trace⟩) :
    Counts g ⟨db', trace ++ [⟨i, .transact (.recordPlan j k plan expected actionId), .ok r⟩]⟩ := by
  obtain ⟨rfl, hcurrent, _⟩ := hop
  rcases recordPlan_rows hexec with ⟨_, rfl⟩ | ⟨_, actions, hins, rfl⟩
  · exact h.interrupt rfl hcurrent
  obtain ⟨own, hown, howng, hactive, hplan, hevaluated⟩ := hcurrent
  have hstate : own.state = .evaluating := by
    obtain ⟨goal, _, hok⟩ := hA.rows j own hown
    rcases hok.prepared hactive with hs | hp | ⟨cp, hcp, hs⟩
    · exact hs
    · rw [hplan] at hp
      cases hp
    · obtain ⟨cp', hcp', hi⟩ := hevaluated
      obtain rfl := Option.some.inj (hcp.symm.trans hcp')
      cases hs.symm.trans hi
  have hself : (db.iterations.modify j (·.planWith plan)).get? j = some (own.planWith plan) := by
    rw [Table.get?_modify_self, hown]
    rfl
  have hother : ∀ {m}, m ≠ j → (db.iterations.modify j (·.planWith plan)).get? m = db.iterations.get? m :=
    fun hm => Table.get?_modify_ne _ _ hm
  refine h.keep rfl (fun m it hit hg _ hs => ?_) (fun m it hit hg hs => ?_) (fun m it hit hg hs => ?_)
    fun goal' hgoal' => Or.inl ?_
  · have hm : m ≠ j := by
      rintro rfl
      obtain rfl := Option.some.inj (hown.symm.trans hit)
      rw [hstate] at hs
      rcases hs with hs | hs <;> cases hs
    refine ⟨it, (hother hm).trans hit, hg, hs, failuresOf_congr fun n a hid => ?_⟩
    refine (Table.get?_insertAll hins).trans (or_iff_left fun hmem => ?_)
    obtain ⟨x, _, hx⟩ := List.mem_map.mp hmem
    exact hm (hid.symm.trans (by rw [← (Prod.mk.inj hx).2]))
  · by_cases hm : m = j
    · subst hm
      obtain rfl := Option.some.inj (hself.symm.trans hit)
      cases hs
    · exact ⟨it, (hother hm).symm.trans hit, hg, hs⟩
  · by_cases hm : m = j
    · subst hm
      obtain rfl := Option.some.inj (hself.symm.trans hit)
      cases hs
    · exact Or.inl ⟨it, (hother hm).symm.trans hit, hg, Or.inr hs⟩
  · have hrow : (db.goals.modify k (·.addTasks plan.actions.length)).get? k = some goal' := hgoal'
    rw [Table.get?_modify_self, Option.map_eq_some_iff] at hrow
    obtain ⟨goal, hgoal, rfl⟩ := hrow
    exact ⟨goal, hgoal, rfl⟩

/-- A recorded verification counts nothing. -/
theorem Counts.verified {j : String} {verification : GoalVerification} {expected : Int} {r : Bool}
    (hop : Permits g db (.recordVerification j verification expected))
    (hexec : execGoal (.recordVerification j verification expected) db = .ok (r, db'))
    (h : Counts g ⟨db, trace⟩) :
    Counts g ⟨db', trace ++ [⟨i, .transact (.recordVerification j verification expected), .ok r⟩]⟩ := by
  obtain ⟨⟨own, hown, hg, hactive, _⟩, _⟩ := hop
  have hcurrent : Current g j (fun it => it.state.active = true) db := ⟨own, hown, hg, hactive, hactive⟩
  rcases recordGoalVerification_ok hexec with ⟨_, rfl⟩ | ⟨_, rfl⟩
  · exact h.interrupt rfl hcurrent
  · exact h.edit rfl hcurrent (edited_iteration _) ⟨fun _ => rfl, fun _ => rfl, fun _ _ hv =>
      Or.inr (by rw [← Option.some.inj hv]; exact fun hn => (by cases hn))⟩ rfl (fun _ => rfl) (fun _ _ hs => Or.inl hs)
        (fun _ _ hs => hs) fun it hs hcompleted => by
          rw [show it.state = .completed from hcompleted] at hs
          cases hs

/-- An iteration whose failures are counted is not dispatched, collected or verified again, but closed. -/
theorem Counts.moved {j : String} {state : IterationState} {r : Unit}
    (hop : Permits g db (.setIterationState j state)) (hexec : execGoal (.setIterationState j state) db = .ok (r, db'))
    (hA : Agenda db) (hagain : NotRedispatched db (.transact (.setIterationState j state))) (h : Counts g ⟨db, trace⟩) :
    Counts g ⟨db', trace ++ [⟨i, .transact (.setIterationState j state), .ok r⟩]⟩ := by
  cases hexec
  have hmove : ∀ {P : IterationRow → Prop}, Current g j P db → state ≠ .replanning → state ≠ .completed →
      (∀ it, db.iterations.get? j = some it → it.state ≠ .replanning) →
      Counts g ⟨setIteration db j (·.withState state),
        trace ++ [⟨i, .transact (.setIterationState j state), .ok ()⟩]⟩ := by
    rintro P ⟨own, hown, hg, hactive, _⟩ hne hopen hfree
    have hcurrent : Current g j (fun it => it.state ≠ .replanning) db := ⟨own, hown, hg, hactive, hfree own hown⟩
    exact h.edit rfl hcurrent (edited_iteration _) (.withState _) rfl (fun _ => rfl) (fun _ hp hs => absurd hs hp)
      (fun _ _ hs => absurd hs hne) fun _ _ hs => absurd hs hopen
  cases state with
  | dispatching => exact hmove hop (by decide) (by decide) hagain
  | collecting =>
    refine hmove hop (by decide) (by decide) fun it hit hs => ?_
    obtain ⟨own, hown, _, _, _, hw⟩ := hop
    obtain rfl := Option.some.inj (hown.symm.trans hit)
    rw [hs] at hw
    rcases hw with hw | hw <;> cases hw
  | verifying =>
    refine hmove hop.1 (by decide) (by decide) fun it hit hs => ?_
    obtain ⟨⟨own, hown, _, _, hnone, _⟩, _⟩ := hop
    obtain rfl := Option.some.inj (hown.symm.trans hit)
    obtain ⟨goal, _, hok⟩ := hA.rows j own hown
    have hv := hok.replanned hs
    rw [hnone] at hv
    cases hv
  | completed =>
    exact h.edit rfl hop.1 (edited_iteration _) (.withState _) rfl (fun _ => rfl) (fun _ _ _ => Or.inr rfl)
      (fun _ _ hs => (by cases hs)) fun _ hp _ => Or.inl hp
  | interrupted => exact h.interrupt rfl hop.1
  | _ => exact hop.elim

/-- The actions of an iteration whose failures are counted are final. -/
theorem Counts.acted {actionId : String} {state : ActionState} {handle : Option DispatchHandle}
    {result : Option ActionResult} {error : Option String} {r : Unit}
    (hop : Permits g db (.setAction actionId state handle result error))
    (hexec : execGoal (.setAction actionId state handle result error) db = .ok (r, db'))
    (h : Counts g ⟨db, trace⟩) :
    Counts g ⟨db', trace ++ [⟨i, .transact (.setAction actionId state handle result error), .ok r⟩]⟩ := by
  obtain ⟨j, hmember, own, hown, _, hactive, _, hw⟩ := hop
  obtain rfl := setAction_ok hexec
  refine h.keep rfl (fun m it hit hg _ hs => ⟨it, hit, hg, hs, failuresOf_set (fun _ => rfl) hmember ?_⟩)
    (fun m it hit hg hs => ⟨it, hit, hg, hs⟩) (fun m it hit hg hs => Or.inl ⟨it, hit, hg, Or.inr hs⟩)
    fun goal hgoal => Or.inl ⟨goal, hgoal, rfl⟩
  rintro rfl
  obtain rfl := Option.some.inj (hown.symm.trans hit)
  rcases hs with hs | hs
  · rw [hs] at hw
    rcases hw with hw | hw <;> cases hw
  · rw [hactive] at hs
    cases hs

/-- The transactions of an engine count the failures of an iteration once, its repeated dispatches apart. -/
theorem counts_permitted {op : GoalOp} {r : op.Reply} (hop : Permits g db op)
    (hexec : execGoal op db = .ok (r, db'))
    (hA : Agenda db) (hagain : NotRedispatched db (.transact op)) (h : Counts g ⟨db, trace⟩) :
    Counts g ⟨db', trace ++ [⟨i, .transact op, .ok r⟩]⟩ := by
  have huncounted : Uncounted op → Counts g ⟨db', trace ++ [⟨i, .transact op, .ok r⟩]⟩ := by
    intro hu
    obtain ⟨hgoals, hi, ha⟩ := uncounted_goals hu hexec
    obtain ⟨hA', hut⟩ := hA.counted hgoals hi ha
    refine h.untouched (hut g) hA hA' ?_
    cases op <;> first | rfl | exact hu.elim
  cases op with
  | start k now => exact huncounted trivial
  | terminate k reason detail => exact huncounted trivial
  | beginIteration => exact h.begun hop hexec
  | recordEvaluation => exact h.evaluated hop hexec
  | recordPlan => exact h.planned hop hexec hA
  | recordVerification => exact h.verified hop hexec
  | phaseIsCurrent k j expected =>
    obtain ⟨rfl, hcurrent⟩ := hop
    rcases phaseIsCurrent_ok hexec with ⟨_, rfl⟩ | ⟨_, rfl⟩
    · exact h.interrupt rfl hcurrent
    · exact h.untouched (.refl _ _) hA hA rfl
  | completeReplan k j verification failures =>
    obtain ⟨rfl, hfailures, _, hcurrent⟩ := hop
    obtain rfl := completeReplan_ok hexec
    exact h.replan hfailures hcurrent
  | terminatePhaseIfCurrent k j reason detail expected =>
    obtain ⟨rfl, hcurrent, _⟩ := hop
    rcases terminatePhaseIfCurrent_true hexec with rfl | rfl
    · rcases terminatePhaseIfCurrent_ok hexec with rfl | rfl | ⟨_, _, _, _, rfl⟩
      · exact h.interrupt rfl hcurrent
      · exact h.untouched (.refl _ _) hA hA rfl
      · exact h.edit rfl hcurrent (edited_pair _ _) (.withState _) rfl (fun _ => rfl) (fun _ _ _ => Or.inr rfl)
          (fun _ _ hs => (by cases hs)) fun _ _ _ => Or.inr (by simp [endsGoal])
    · exact h.interrupt rfl hcurrent
  | interruptForSteer k j =>
    obtain ⟨rfl, hcurrent⟩ := hop
    obtain rfl := interruptForSteer_ok hexec
    exact h.interrupt rfl hcurrent
  | setIterationState => exact h.moved hop hexec hA hagain
  | setAction => exact h.acted hop hexec
  | _ => exact hop.elim

theorem replanOf_other {k : String} {op : GoalOp} (hop : Permits k db op) (hk : g ≠ k)
    (r : Except StoreError op.Reply) : replanOf g ⟨i, .transact op, r⟩ = none := by
  cases op with
  | completeReplan =>
    obtain ⟨rfl, _⟩ := hop
    cases r with
    | ok => exact if_neg fun e => hk e.symm
    | error => rfl
  | _ => rfl

end

/-- Along the schedule, no iteration is dispatched between the count of its failures and its close. -/
def ReplansClosed (dg : Digests) (uuid5 : String → String) (moves : List (Move Slot Request Environment)) : Prop :=
  ∀ before m after, moves = before ++ m :: after → ∀ i c r,
    (engineRun dg uuid5 (before ++ [m])).shared.trace = (engineRun dg uuid5 before).shared.trace ++ [⟨i, c, r⟩] →
      NotRedispatched (engineRun dg uuid5 before).shared.state c

theorem engineRun_counts (dg : Digests) (uuid5 : String → String) (moves : List (Move Slot Request Environment))
    (hclosed : ReplansClosed dg uuid5 moves) (g : String) : Counts g (engineRun dg uuid5 moves).shared := by
  have hinitial : Counts g ⟨Db.initial, []⟩ :=
    ⟨List.nodup_nil, fun _ h => (by cases h), fun _ _ h => (by cases h), fun _ _ h =>
      (by cases h), fun _ h => (by cases h)⟩
  refine Pool.run_kept (J := Counts g) (serve_licensed dg uuid5) initial_agenda hinitial moves
    fun before m after i e hA hrules h => ?_
  obtain ⟨c, env, hc, hw⟩ := hrules
  have hagain := hclosed before m after e i c _ (congrArg Traced.trace hw)
  rw [hw]
  show Counts g ⟨(act dg (engineRun dg uuid5 before).shared.state env c).2, (engineRun dg uuid5 before).shared.trace ++
    [⟨i, c, (act dg (engineRun dg uuid5 before).shared.state env c).1⟩]⟩
  rcases hc with hc | hc | ⟨k, op, rfl, rfl, hop⟩
  · obtain ⟨hgoals, hi, ha⟩ := client_goals hc env
    obtain ⟨hA', hut⟩ := hA.counted hgoals hi ha
    refine h.untouched (hut g) hA hA' ?_
    cases c with
    | transact op => cases op <;> first | rfl | exact hc.elim
    | _ => rfl
  · have hsame := @act_query dg (engineRun dg uuid5 before).shared.state c hc env
    refine h.untouched (by rw [hsame]; exact .refl _ _) hA (by rw [hsame]; exact hA) ?_
    cases c with
    | transact op => exact hc.elim
    | _ => rfl
  · by_cases hk : g = k
    · subst hk
      refine commit_step (P := fun r db' => Counts g ⟨db', (engineRun dg uuid5 before).shared.trace ++
        [⟨.engine g, .transact op, r⟩]⟩) (fun r db' hexec => counts_permitted hop hexec hA hagain h) fun error => ?_
      refine h.untouched (.refl _ _) hA hA ?_
      cases op <;> rfl
    · have hlicensed : Licensed (.engine k) (engineRun dg uuid5 before).shared.state (.transact op) :=
        Or.inr (Or.inr ⟨k, op, rfl, rfl, hop⟩)
      obtain ⟨hA', hut⟩ := @licensed_step dg _ _ _ hlicensed env hA
      exact h.untouched (hut g fun e => hk (Slot.engine.inj e).symm) hA hA' (replanOf_other hop hk _)

/-- **Failures are counted once.**  In every schedule that dispatches no iteration between the count of its failures and
its close: every iteration is counted at most once; one that was completed without ending the goal is counted; and the
failure count of the goal is the number of unsuccessful actions of the counted iterations. -/
theorem failures_counted_once (dg : Digests) (uuid5 : String → String) (moves : List (Move Slot Request Environment))
    (hclosed : ReplansClosed dg uuid5 moves) (g : String) :
    (replanned g (engineRun dg uuid5 moves).shared.trace).Nodup ∧
      (∀ id it, (id, it) ∈ iterationsOf (engineRun dg uuid5 moves).shared.state g → it.state = .completed →
        endedIn g id (engineRun dg uuid5 moves).shared.trace = false →
          id ∈ replanned g (engineRun dg uuid5 moves).shared.trace) ∧
      ∀ goal ∈ (engineRun dg uuid5 moves).shared.state.goals.get? g, goal.failureCount =
        ((replanned g (engineRun dg uuid5 moves).shared.trace).map
          (failuresOf (engineRun dg uuid5 moves).shared.state)).sum := by
  have h := engineRun_counts dg uuid5 moves hclosed g
  refine ⟨h.once, fun id it hmem hs hend => ?_, h.total⟩
  obtain ⟨hit, hg⟩ := mem_iterationsOf.mp hmem
  refine (h.completed id it hit hg hs).resolve_right fun hended => ?_
  rw [hend] at hended
  cases hended

section

/-- The engine crashed between the count and the close; its successor counts the one failed action again. -/
theorem failures_counted_twice :
    replanned "g" (engineRun .trivial id (underway atWork 50 ++ resumed atWork 24)).shared.trace =
      ["iter-1", "iter-1"] ∧
      failuresOf (engineRun .trivial id (underway atWork 50 ++ resumed atWork 24)).shared.state "iter-1" = 1 ∧
      ((engineRun .trivial id (underway atWork 50 ++ resumed atWork 24)).shared.state.goals.get? "g").map
        GoalRow.failureCount = some 2 :=
  ⟨by decide +kernel, by decide +kernel, by decide +kernel⟩

def dispatchesIteration : Call → Bool
  | .transact (.setIterationState _ .dispatching) => true
  | _ => false

theorem replansClosed_of_states {dg : Digests} {uuid5 : String → String} {moves : List (Move Slot Request Environment)}
    (h : ∀ n < moves.length, ((engineRun dg uuid5 (moves.take n)).shared.state.iterations.rows.all fun e =>
        decide (e.2.state ≠ .replanning)) = true ∨
      (∀ e ∈ (engineRun dg uuid5 (moves.take (n + 1))).shared.trace.getLast?, dispatchesIteration e.call = false)) :
    ReplansClosed dg uuid5 moves := by
  intro before m after e i c r htrace
  have htake : moves.take before.length = before ∧ moves.take (before.length + 1) = before ++ [m] := by
    constructor
    · simp [e]
    · rw [e, List.take_length_add_append]
      rfl
  have hcase := h before.length (by rw [e]; simp)
  rw [htake.1, htake.2, htrace] at hcase
  cases c with
  | transact op =>
    cases op with
    | setIterationState id state =>
      cases state with
      | dispatching =>
        rcases hcase with hrows | hlast
        · exact fun it hit => of_decide_eq_true (List.all_eq_true.mp hrows (id, it) (Table.mem_rows.mpr hit))
        · have hevent := hlast _ (by rw [List.getLast?_concat]; rfl)
          cases hevent
      | _ => trivial
    | _ => trivial
  | _ => trivial

/-- The failed action of the completed iteration is counted once. -/
theorem failures_counted_once_failed :
    "iter-1" ∈ replanned "g" (engineRun .trivial id (underway atWork 51)).shared.trace ∧
      workedGoal.failureCount = ((replanned "g" (engineRun .trivial id (underway atWork 51)).shared.trace).map
        (failuresOf (engineRun .trivial id (underway atWork 51)).shared.state)).sum := by
  have hclosed : ReplansClosed .trivial id (underway atWork 51) := replansClosed_of_states (by decide +kernel)
  have hgoal : (engineRun .trivial id (underway atWork 51)).shared.state.goals.get? "g" = some workedGoal := by
    decide +kernel
  exact ⟨by decide +kernel, (failures_counted_once .trivial id (underway atWork 51) hclosed "g").2.2 workedGoal hgoal⟩

end

end AgentFabric.Autonomy
