import AgentFabric.Autonomy.Justified

/-!
# The iterations of a goal

What the tables of the autonomous goals say at every moment, and what the engine of a goal has made sure of before each
of its transactions.
-/

namespace AgentFabric.Autonomy

open AgentFabric.Lib AgentFabric.Store

def Evaluated (disposition : EvaluationDisposition) (it : IterationRow) : Prop :=
  ∃ cp, it.evaluation = some cp ∧ cp.decision.disposition = disposition

/-- The iteration has something to verify: its plan, or the proposal that the goal is reached. -/
def Prepared (it : IterationRow) : Prop := it.plan.isSome = true ∨ Evaluated .satisfied it

/-- What an iteration says about itself and its goal. -/
structure IterationOk (goal : GoalRow) (it : IterationRow) : Prop where
  placed : 1 ≤ it.sequence ∧ it.sequence ≤ goal.iterationCount
  last : it.state.active = true → it.sequence = goal.iterationCount
  versioned : ∀ cp, it.verification = some cp → cp.steerVersion ≠ none
  planned : it.plan.isSome = true → Evaluated .incomplete it
  progressing : it.state.active = true → it.plan.isSome = true → goal.noProgressCount < goal.budgets.noProgressLimit
  replanned : it.state = .replanning → it.verification.isSome = true
  prepared : it.state.active = true → it.state = .evaluating ∨ Prepared it

def actionCount (db : Db) (g : String) : Nat := db.actions.rows.countP fun e => decide (e.2.goalId = g)

structure Agenda (db : Db) : Prop where
  rows : ∀ id it, db.iterations.get? id = some it → ∃ goal, db.goals.get? it.goalId = some goal ∧ IterationOk goal it
  unique : ∀ id it id' it', db.iterations.get? id = some it → db.iterations.get? id' = some it' →
    it.goalId = it'.goalId → it.sequence = it'.sequence → id = id'
  covered : ∀ g goal, db.goals.get? g = some goal → ∀ n, 1 ≤ n → n ≤ goal.iterationCount →
    ∃ id it, db.iterations.get? id = some it ∧ it.goalId = g ∧ it.sequence = n
  owned : ∀ id a, db.actions.get? id = some a → ∃ it, db.iterations.get? a.iterationId = some it ∧
    it.goalId = a.goalId ∧ it.plan.isSome = true
  bounded : ∀ g goal, db.goals.get? g = some goal → goal.iterationCount ≤ goal.budgets.maxIterations ∧
    goal.taskCount ≤ goal.budgets.maxTasks ∧ goal.taskCount = actionCount db g

/-! ## What an engine makes sure of -/

/-- The iteration is active, belongs to the goal, and satisfies the condition. -/
def Current (g id : String) (P : IterationRow → Prop) (db : Db) : Prop :=
  ∃ it, db.iterations.get? id = some it ∧ it.goalId = g ∧ it.state.active = true ∧ P it

/-- Every action of the iteration has an outcome. -/
def Settled (id : String) (db : Db) : Prop :=
  ∀ k a, db.actions.get? k = some a → a.iterationId = id → ActionState.unfinished a.state = false

/-- The number of unsuccessful actions of an iteration. -/
def failuresOf (db : Db) (id : String) : Nat :=
  db.actions.rows.countP fun e => decide (e.2.iterationId = id) && !(resultFromAction e.2).succeeded

/-- The iteration hands out its actions or collects them. -/
def Working (it : IterationRow) : Prop :=
  it.plan.isSome = true ∧ (it.state = .dispatching ∨ it.state = .collecting)

/-- The action belongs to the iteration. -/
def Member (g id actionId : String) (db : Db) : Prop :=
  ∃ a, db.actions.get? actionId = some a ∧ a.iterationId = id ∧ a.goalId = g

def Ended (g : String) (db : Db) : Prop := ∃ goal, db.goals.get? g = some goal ∧ goal.state.final = true

/-- The engine sets an iteration to this state. -/
def PermitsState (g id : String) (db : Db) : IterationState → Prop
  | .dispatching => Current g id (fun it => it.plan.isSome = true) db
  | .collecting => Current g id Working db
  | .verifying => Current g id (fun it => it.verification = none ∧ Prepared it) db ∧ Settled id db
  | .completed => Current g id (fun it => it.state = .replanning) db ∧ Settled id db
  | .interrupted => Current g id (fun _ => True) db ∧ Ended g db
  | _ => False

/-- The engine of the goal makes the transaction. -/
def Permits (g : String) (db : Db) : GoalOp → Prop
  | .start g' _ | .terminate g' _ _ => g' = g
  | .beginIteration g' _ => g' = g ∧ Idle g db ∧
    ∃ goal, db.goals.get? g = some goal ∧ goal.iterationCount < goal.budgets.maxIterations
  | .recordEvaluation id _ _ => Current g id (fun it => it.evaluation = none) db
  | .recordPlan id g' plan _ _ => g' = g ∧ Current g id (fun it => it.plan = none ∧ Evaluated .incomplete it) db ∧
    ∃ goal, db.goals.get? g = some goal ∧ goal.taskCount + plan.actions.length ≤ goal.budgets.maxTasks ∧
      goal.noProgressCount < goal.budgets.noProgressLimit
  | .recordVerification id _ _ => Current g id Prepared db ∧ Settled id db
  | .phaseIsCurrent g' id _ => g' = g ∧ Current g id (fun _ => True) db
  | .completeReplan g' id _ failures => g' = g ∧ failures = failuresOf db id ∧ Settled id db ∧
    Current g id (fun it => it.state ≠ .replanning ∧ it.verification.isSome = true ∧ Prepared it) db
  | .terminatePhaseIfCurrent g' id _ _ _ => g' = g ∧ Current g id (fun _ => True) db ∧ Settled id db
  | .interruptForSteer g' id => g' = g ∧ Current g id (fun it => it.plan = none) db
  | .setIterationState id state => PermitsState g id db state
  | .setAction actionId _ _ _ _ => ∃ id, Member g id actionId db ∧ Current g id Working db
  | _ => False

/-- What a step leaves alone for the engine of a goal: its iterations, its actions, and the counters of the goal. -/
structure Untouched (g : String) (db db' : Db) : Prop where
  iterations : ∀ id it, it.goalId = g → (db'.iterations.get? id = some it ↔ db.iterations.get? id = some it)
  actions : ∀ id a, a.goalId = g → (db'.actions.get? id = some a ↔ db.actions.get? id = some a)
  goal : ∀ goal, db.goals.get? g = some goal → ∃ goal', db'.goals.get? g = some goal' ∧
    goal'.budgets = goal.budgets ∧ goal'.iterationCount = goal.iterationCount ∧ goal'.taskCount = goal.taskCount ∧
    goal'.noProgressCount = goal.noProgressCount ∧ goal'.failureCount = goal.failureCount ∧
    (goal.state.final = true → goal'.state.final = true)
  fresh : db.goals.get? g = none → ∀ goal', db'.goals.get? g = some goal' → goal'.failureCount = 0

theorem Untouched.refl (g : String) (db : Db) : Untouched g db db :=
  ⟨fun _ _ _ => Iff.rfl, fun _ _ _ => Iff.rfl, fun goal h => ⟨goal, h, rfl, rfl, rfl, rfl, rfl, id⟩,
    fun hnone _ h => nomatch hnone.symm.trans h⟩

/-! ## Rows -/

section

variable {db db' : Db} {g id : String} {goal goal' : GoalRow} {it : IterationRow} {P Q : IterationRow → Prop}

theorem Current.mono (h : Current g id P db) (hPQ : ∀ it, P it → Q it) : Current g id Q db := by
  obtain ⟨it, hit, hg, hactive, hP⟩ := h
  exact ⟨it, hit, hg, hactive, hPQ it hP⟩

theorem IterationOk.kept (h : IterationOk goal it) (hcount : goal'.iterationCount = goal.iterationCount)
    (hbudgets : goal'.budgets = goal.budgets) (hprogress : goal'.noProgressCount = goal.noProgressCount) :
    IterationOk goal' it :=
  ⟨by rw [hcount]; exact h.placed, by rw [hcount]; exact h.last, h.versioned, h.planned,
    by rw [hbudgets, hprogress]; exact h.progressing, h.replanned, h.prepared⟩

theorem IterationOk.finished (h : IterationOk goal it) (hactive : it.state.active = false)
    (hcount : goal.iterationCount ≤ goal'.iterationCount) : IterationOk goal' it :=
  ⟨⟨h.placed.1, h.placed.2.trans hcount⟩, fun ha => (by rw [hactive] at ha; cases ha), h.versioned, h.planned,
    fun ha => (by rw [hactive] at ha; cases ha), h.replanned, fun ha => (by rw [hactive] at ha; cases ha)⟩

theorem IterationOk.withState (h : IterationOk goal it) (hcurrent : it.state.active = true) (state : IterationState)
    (hreplan : state = .replanning → it.verification.isSome = true)
    (hprepared : state.active = true → state = .evaluating ∨ Prepared it) : IterationOk goal (it.withState state) :=
  ⟨h.placed, fun _ => h.last hcurrent, h.versioned, h.planned, fun _ => h.progressing hcurrent, hreplan, hprepared⟩

theorem IterationOk.interrupt (h : IterationOk goal it) (hcurrent : it.state.active = true) :
    IterationOk goal (it.withState .interrupted) :=
  h.withState hcurrent _ (fun h => nomatch h) fun h => nomatch h

theorem Agenda.alone (hA : Agenda db) (hcurrent : Current g id P db) {k : String} (hk : k ≠ id)
    (hit : db.iterations.get? k = some it) (hg : it.goalId = g) : it.state.active = false := by
  obtain ⟨own, hown, howng, hactive, _⟩ := hcurrent
  obtain ⟨goal, hgoal, hok⟩ := hA.rows k it hit
  obtain ⟨goal', hgoal', hok'⟩ := hA.rows id own hown
  rw [hg] at hgoal
  rw [howng, hgoal] at hgoal'
  obtain rfl := Option.some.inj hgoal'
  by_contra ha
  refine hk (hA.unique k it id own hit hown (hg.trans howng.symm) ?_)
  rw [hok.last (by simpa using ha), hok'.last hactive]

theorem Agenda.ok (hA : Agenda db) (hit : db.iterations.get? id = some it)
    (hgoal : db.goals.get? it.goalId = some goal) :
    IterationOk goal it := by
  obtain ⟨goal', hgoal', hok⟩ := hA.rows id it hit
  rw [hgoal] at hgoal'
  obtain rfl := Option.some.inj hgoal'
  exact hok

theorem Agenda.action_goal (hA : Agenda db) (hit : db.iterations.get? id = some it) (hg : it.goalId = g) {k : String}
    {a : ActionRow} (ha : db.actions.get? k = some a) (hid : a.iterationId = id) : a.goalId = g := by
  obtain ⟨it', hit', hg', _⟩ := hA.owned k a ha
  rw [hid, hit] at hit'
  obtain rfl := Option.some.inj hit'
  exact hg'.symm.trans hg

theorem Untouched.actions_of (hut : Untouched g db db') (hA : Agenda db) (hA' : Agenda db')
    (hit : db.iterations.get? id = some it) (hg : it.goalId = g) (k : String) (a : ActionRow)
    (hid : a.iterationId = id) :
    db'.actions.get? k = some a ↔ db.actions.get? k = some a :=
  have hit' := (hut.iterations id it hg).mpr hit
  ⟨fun ha => (hut.actions k a (hA'.action_goal hit' hg ha hid)).mp ha,
    fun ha => (hut.actions k a (hA.action_goal hit hg ha hid)).mpr ha⟩

theorem settled_congr (h : ∀ k a, a.iterationId = id → (db'.actions.get? k = some a ↔ db.actions.get? k = some a)) :
    Settled id db' ↔ Settled id db :=
  ⟨fun hs k a ha hid => hs k a ((h k a hid).mpr ha) hid, fun hs k a ha hid => hs k a ((h k a hid).mp ha) hid⟩

theorem settled_same (ha : db'.actions = db.actions) : Settled id db' ↔ Settled id db := by
  unfold Settled
  rw [ha]

theorem failuresOf_congr (h : ∀ k a, a.iterationId = id → (db'.actions.get? k = some a ↔ db.actions.get? k = some a)) :
    failuresOf db' id = failuresOf db id := by
  refine Table.countP_eq_of_get? fun k a hp => h k a ?_
  simp only [Bool.and_eq_true, decide_eq_true_eq] at hp
  exact hp.1

theorem Untouched.settled (hut : Untouched g db db') (hA : Agenda db) (hA' : Agenda db')
    (hit : db.iterations.get? id = some it) (hg : it.goalId = g) : Settled id db' ↔ Settled id db :=
  settled_congr (hut.actions_of hA hA' hit hg)

theorem Untouched.failures (hut : Untouched g db db') (hA : Agenda db) (hA' : Agenda db')
    (hit : db.iterations.get? id = some it) (hg : it.goalId = g) : failuresOf db' id = failuresOf db id :=
  failuresOf_congr (hut.actions_of hA hA' hit hg)

theorem Agenda.no_actions (hA : Agenda db) (hit : db.iterations.get? id = some it) (hplan : it.plan = none) {k : String}
    {a : ActionRow} (ha : db.actions.get? k = some a) : a.iterationId ≠ id := by
  rintro rfl
  obtain ⟨it', hit', _, hsome⟩ := hA.owned k a ha
  rw [hit] at hit'
  rw [← Option.some.inj hit', hplan] at hsome
  cases hsome

theorem Agenda.unplanned_settled (hA : Agenda db) (hcurrent : Current g id (fun it => it.plan = none) db) :
    Settled id db := by
  obtain ⟨it, hit, _, _, hplan⟩ := hcurrent
  exact fun k a ha hid => absurd hid (hA.no_actions hit hplan ha)

theorem Agenda.unplanned_failures (hA : Agenda db) (hcurrent : Current g id (fun it => it.plan = none) db) :
    failuresOf db id = 0 := by
  obtain ⟨it, hit, _, _, hplan⟩ := hcurrent
  refine List.countP_eq_zero.mpr fun e he hp => ?_
  simp only [Bool.and_eq_true, decide_eq_true_eq] at hp
  exact hA.no_actions hit hplan (Table.mem_rows.mp he) hp.1

end

/-! ## Edits -/

section

variable {db db' : Db} {g id : String} {f : GoalRow → GoalRow} {u : IterationRow → IterationRow}

theorem Edited.goal_back (h : Edited g id f u db db') {k : String} {goal' : GoalRow}
    (hg : db'.goals.get? k = some goal') :
    ∃ goal, db.goals.get? k = some goal ∧ ((k = g ∧ goal' = f goal) ∨ (k ≠ g ∧ goal' = goal)) := by
  by_cases hk : k = g
  · subst hk
    rw [h.goals, if_pos rfl, Option.map_eq_some_iff] at hg
    obtain ⟨goal, hgoal, rfl⟩ := hg
    exact ⟨goal, hgoal, Or.inl ⟨rfl, rfl⟩⟩
  · rw [h.goal_ne hk] at hg
    exact ⟨goal', hg, Or.inr ⟨hk, rfl⟩⟩

theorem Edited.iteration_to (h : Edited g id f u db db') {k : String} {it : IterationRow}
    (hit : db.iterations.get? k = some it) : db'.iterations.get? k = some (if k = id then u it else it) := by
  rw [h.iterations]
  split
  · rw [hit]
    rfl
  · exact hit

theorem edited_pair (f : GoalRow → GoalRow) (u : IterationRow → IterationRow) :
    Edited g id f u db (setIteration (setGoal db g f) id u) :=
  ⟨fun k => by simp [setGoal, setIteration], fun k => by simp [setGoal, setIteration]⟩

/-- An edit of the engine's own goal and iteration. -/
theorem Agenda.edited (hA : Agenda db) (h : Edited g id f u db db') (hu : IterationEdit u)
    (hbudgets : ∀ goal, (f goal).budgets = goal.budgets)
    (hcount : ∀ goal, (f goal).iterationCount = goal.iterationCount)
    (hown : ∀ it, db.iterations.get? id = some it → it.goalId = g)
    (hself : ∀ it goal, db.iterations.get? id = some it → db.goals.get? g = some goal → IterationOk goal it →
      IterationOk (f goal) (u it))
    (hrest : ∀ k it goal, k ≠ id → db.iterations.get? k = some it → it.goalId = g → IterationOk goal it →
      IterationOk (f goal) it)
    (howned : ∀ k a, db'.actions.get? k = some a → ∃ it, db'.iterations.get? a.iterationId = some it ∧
      it.goalId = a.goalId ∧ it.plan.isSome = true)
    (htasks : ∀ goal, db.goals.get? g = some goal → goal.taskCount = actionCount db g →
      (f goal).taskCount ≤ goal.budgets.maxTasks ∧ (f goal).taskCount = actionCount db' g)
    (hothers : ∀ k, k ≠ g → actionCount db' k = actionCount db k) : Agenda db' := by
  refine ⟨fun k it hit => ?_, fun k it k' it' hit hit' hg hs => ?_, fun k goal' hgoal' n h1 hn => ?_, howned,
    fun k goal' hgoal' => ?_⟩
  · obtain ⟨it₀, hit₀, hgoalId, hseq, hne, heq⟩ := h.back hu hit
    obtain ⟨goal, hgoal, hok⟩ := hA.rows k it₀ hit₀
    rw [hgoalId]
    by_cases hg : it₀.goalId = g
    · refine ⟨f goal, by rw [h.goals, if_pos hg, hgoal]; rfl, ?_⟩
      by_cases hk : k = id
      · subst hk
        rw [heq rfl]
        exact hself it₀ goal hit₀ (hg ▸ hgoal) hok
      · rw [hne hk]
        exact hrest k it₀ goal hk hit₀ hg hok
    · have hk : k ≠ id := by
        rintro rfl
        exact hg (hown it₀ hit₀)
      exact ⟨goal, by rw [h.goal_ne hg]; exact hgoal, by rw [hne hk]; exact hok⟩
  · obtain ⟨it₀, hit₀, hgoalId, hseq, _⟩ := h.back hu hit
    obtain ⟨it₁, hit₁, hgoalId', hseq', _⟩ := h.back hu hit'
    exact hA.unique k it₀ k' it₁ hit₀ hit₁ (hgoalId.symm.trans (hg.trans hgoalId')) (hseq.symm.trans (hs.trans hseq'))
  · obtain ⟨goal, hgoal, hcase⟩ := h.goal_back hgoal'
    have hsame : goal'.iterationCount = goal.iterationCount := by
      rcases hcase with ⟨_, rfl⟩ | ⟨_, rfl⟩
      · exact hcount goal
      · rfl
    obtain ⟨k', it, hit, hg, hseq⟩ := hA.covered k goal hgoal n h1 (by omega)
    refine ⟨k', _, h.iteration_to hit, ?_, ?_⟩
    · split
      · rw [hu.goalId]; exact hg
      · exact hg
    · split
      · rw [hu.sequence]; exact hseq
      · exact hseq
  · obtain ⟨goal, hgoal, hcase⟩ := h.goal_back hgoal'
    obtain ⟨hle, htask, htally⟩ := hA.bounded k goal hgoal
    rcases hcase with ⟨rfl, rfl⟩ | ⟨hk, rfl⟩
    · rw [hcount, hbudgets]
      exact ⟨hle, htasks goal hgoal htally⟩
    · exact ⟨hle, htask, htally.trans (hothers k hk).symm⟩

theorem Edited.untouched (h : Edited g id f u db db') (hu : IterationEdit u)
    (hown : ∀ it, db.iterations.get? id = some it → it.goalId = g)
    {k : String} (hk : k ≠ g)
    (hactions : ∀ i a, a.goalId = k → (db'.actions.get? i = some a ↔ db.actions.get? i = some a)) :
    Untouched k db db' := by
  refine ⟨fun i it hg => ?_, hactions, fun goal hgoal =>
    ⟨goal, by rw [h.goal_ne hk]; exact hgoal, rfl, rfl, rfl, rfl, rfl, fun hs => hs⟩,
    fun hnone goal' hgoal' => nomatch hnone.symm.trans ((h.goal_ne hk).symm.trans hgoal')⟩
  by_cases hi : i = id
  · subst hi
    constructor
    · intro hit
      obtain ⟨it₀, hit₀, hg₀, _⟩ := h.back hu hit
      exact absurd (hg.symm.trans (hg₀.trans (hown it₀ hit₀))) hk
    · intro hit
      exact absurd (hg.symm.trans (hown it hit)) hk
  · rw [h.iteration_ne hi]

/-- The engine edits its active iteration and the counters of its goal. -/
theorem Agenda.advance (hA : Agenda db) {P : IterationRow → Prop} (hcurrent : Current g id P db)
    (h : Edited g id f u db db') (hactions : db'.actions = db.actions) (hu : IterationEdit u)
    (hplan : ∀ it, it.plan.isSome = true → (u it).plan.isSome = true)
    (hf : ∀ goal, (f goal).budgets = goal.budgets ∧ (f goal).iterationCount = goal.iterationCount ∧
      (f goal).taskCount = goal.taskCount)
    (hself : ∀ it goal, it.state.active = true → P it → IterationOk goal it → IterationOk (f goal) (u it)) :
    Agenda db' ∧ ∀ k, k ≠ g → Untouched k db db' := by
  have hown : ∀ it, db.iterations.get? id = some it → it.goalId = g := by
    obtain ⟨own, hown, howng, _⟩ := hcurrent
    intro it hit
    rw [hown] at hit
    rw [← Option.some.inj hit]
    exact howng
  have htally : ∀ k, actionCount db' k = actionCount db k := fun k => by unfold actionCount; rw [hactions]
  refine ⟨hA.edited h hu (fun goal => (hf goal).1) (fun goal => (hf goal).2.1) hown (fun it goal hit _ hok => ?_)
    (fun k it goal hk hit hg hok => ?_) (fun k a ha => ?_) (fun goal hgoal hcount => ?_) fun k _ => htally k,
    fun k hk => h.untouched hu hown hk fun _ _ _ => by rw [hactions]⟩
  · obtain ⟨own, hrow, _, hactive, hP⟩ := hcurrent
    rw [hrow] at hit
    obtain rfl := Option.some.inj hit
    exact hself own goal hactive hP hok
  · exact hok.finished (hA.alone hcurrent hk hit hg) (Nat.le_of_eq (hf goal).2.1.symm)
  · rw [hactions] at ha
    obtain ⟨it, hit, hg, hsome⟩ := hA.owned k a ha
    refine ⟨_, h.iteration_to hit, ?_, ?_⟩
    · split
      · rw [hu.goalId]; exact hg
      · exact hg
    · split
      · exact hplan it hsome
      · exact hsome
  · rw [htally, (hf goal).2.2]
    exact ⟨(hA.bounded g goal hgoal).2.1, hcount⟩

theorem Agenda.interrupt (hA : Agenda db) {P : IterationRow → Prop} (hcurrent : Current g id P db) :
    Agenda (setIteration db id (·.withState .interrupted)) ∧
      ∀ k, k ≠ g → Untouched k db (setIteration db id (·.withState .interrupted)) :=
  hA.advance hcurrent (edited_iteration _) rfl (.withState _) (fun _ h => h) (fun _ => ⟨rfl, rfl, rfl⟩)
    fun _ _ hactive _ hok => hok.interrupt hactive

/-- The counters of a goal stay, and so does that it is final. -/
structure Counted (goal goal' : GoalRow) : Prop where
  budgets : goal'.budgets = goal.budgets
  iterations : goal'.iterationCount = goal.iterationCount
  tasks : goal'.taskCount = goal.taskCount
  progress : goal'.noProgressCount = goal.noProgressCount
  failures : goal'.failureCount = goal.failureCount
  final : goal.state.final = true → goal'.state.final = true

theorem Counted.refl (goal : GoalRow) : Counted goal goal := ⟨rfl, rfl, rfl, rfl, rfl, fun h => h⟩

theorem Counted.of_open {goal : GoalRow} (hopen : goal.state.final = false) (state : GoalState)
    (reason : Option TerminationReason) (detail : Option String) (started : Option Nat) (steers : Nat) :
    Counted goal { goal with state := state, terminationReason := reason, terminationDetail := detail,
                             startedAt := started, steerVersion := steers } :=
  ⟨rfl, rfl, rfl, rfl, rfl, fun h => (by rw [hopen] at h; cases h)⟩

/-- Every row of the goals comes from one with the same counters. -/
structure GoalsCounted (db db' : Db) : Prop where
  forth : ∀ k goal, db.goals.get? k = some goal → ∃ goal', db'.goals.get? k = some goal' ∧ Counted goal goal'
  back : ∀ k goal', db'.goals.get? k = some goal' → (∃ goal, db.goals.get? k = some goal ∧ Counted goal goal') ∨
    (db.goals.get? k = none ∧ goal'.iterationCount = 0 ∧ goal'.taskCount = 0 ∧ goal'.failureCount = 0)

theorem goalsCounted_of_edit (hg : ∀ k, db'.goals.get? k = if k = g then (db.goals.get? k).map f else db.goals.get? k)
    (hf : ∀ goal, db.goals.get? g = some goal → Counted goal (f goal)) : GoalsCounted db db' := by
  refine ⟨fun k goal hgoal => ?_, fun k goal' hgoal' => Or.inl ?_⟩
  · by_cases hk : k = g
    · subst hk
      exact ⟨f goal, by rw [hg, if_pos rfl, hgoal]; rfl, hf goal hgoal⟩
    · exact ⟨goal, by rw [hg, if_neg hk]; exact hgoal, .refl goal⟩
  · by_cases hk : k = g
    · subst hk
      rw [hg, if_pos rfl, Option.map_eq_some_iff] at hgoal'
      obtain ⟨goal, hgoal, rfl⟩ := hgoal'
      exact ⟨goal, hgoal, hf goal hgoal⟩
    · rw [hg, if_neg hk] at hgoal'
      exact ⟨goal', hgoal', .refl goal'⟩

/-- A step that counts nothing touches nothing. -/
theorem Agenda.counted (hA : Agenda db) (h : GoalsCounted db db') (hi : db'.iterations = db.iterations)
    (ha : db'.actions = db.actions) : Agenda db' ∧ ∀ k, Untouched k db db' := by
  have htally : ∀ k, actionCount db' k = actionCount db k := fun k => by unfold actionCount; rw [ha]
  refine ⟨⟨fun id it hit => ?_, by rw [hi]; exact hA.unique, fun k goal' hgoal' n h1 hn => ?_,
    by rw [ha, hi]; exact hA.owned, fun k goal' hgoal' => ?_⟩, fun k =>
      ⟨fun _ _ _ => by rw [hi], fun _ _ _ => by rw [ha],
    fun goal hgoal => ?_, fun hnone goal' hgoal' => ?_⟩⟩
  · rw [hi] at hit
    obtain ⟨goal, hgoal, hok⟩ := hA.rows id it hit
    obtain ⟨goal', hgoal', hc⟩ := h.forth _ goal hgoal
    exact ⟨goal', hgoal', hok.kept hc.iterations hc.budgets hc.progress⟩
  · rw [hi]
    rcases h.back k goal' hgoal' with ⟨goal, hgoal, hc⟩ | ⟨_, hzero, _⟩
    · exact hA.covered k goal hgoal n h1 (by rw [← hc.iterations]; exact hn)
    · omega
  · rw [htally]
    rcases h.back k goal' hgoal' with ⟨goal, hgoal, hc⟩ | ⟨hnone, hzero, htasks, _⟩
    · rw [hc.iterations, hc.budgets, hc.tasks]
      exact hA.bounded k goal hgoal
    · have hempty : actionCount db k = 0 := by
        refine List.countP_eq_zero.mpr fun e he hp => ?_
        obtain ⟨it, hit, hg, _⟩ := hA.owned e.1 e.2 (Table.mem_rows.mp he)
        obtain ⟨goal, hgoal, _⟩ := hA.rows _ it hit
        rw [hg, of_decide_eq_true hp, hnone] at hgoal
        cases hgoal
      rw [hzero, htasks, hempty]
      exact ⟨Nat.zero_le _, Nat.zero_le _, rfl⟩
  · obtain ⟨goal', hgoal', hc⟩ := h.forth k goal hgoal
    exact ⟨goal', hgoal', hc.budgets, hc.iterations, hc.tasks, hc.progress, hc.failures, hc.final⟩
  · rcases h.back k goal' hgoal' with ⟨goal, hgoal, _⟩ | ⟨_, _, _, hzero⟩
    · exact nomatch hnone.symm.trans hgoal
    · exact hzero

end

/-! ## The transactions that count nothing -/

/-- The controls, the start of a goal and its end. -/
def Uncounted : GoalOp → Prop
  | .createGoal .. | .pause .. | .resume .. | .steer .. | .stop .. | .start .. | .terminate .. => True
  | _ => False

section

variable {dg : Digests} {db db' : Db} {g id : String}

theorem uncounted_goals {op : GoalOp} {r : op.Reply} (hop : Uncounted op) (h : execGoal op db = .ok (r, db')) :
    GoalsCounted db db' ∧ db'.iterations = db.iterations ∧ db'.actions = db.actions := by
  have hrefl : GoalsCounted db db :=
    ⟨fun _ goal hk => ⟨goal, hk, .refl goal⟩, fun _ goal hk => Or.inl ⟨goal, hk, .refl goal⟩⟩
  have hset : ∀ {k : String} {goal : GoalRow} {f : GoalRow → GoalRow}, db.goals.get? k = some goal →
      Counted goal (f goal) → GoalsCounted db (setGoal db k f) := by
    intro k goal f hk hc
    refine goalsCounted_of_edit (g := k) (f := f) (fun k' => by simp [setGoal]) fun goal' hk' => ?_
    rw [hk] at hk'
    obtain rfl := Option.some.inj hk'
    exact hc
  cases op with
  | createGoal =>
    obtain ⟨goal, goals, _, ⟨hi, ht, hf⟩, hins, rfl⟩ := createGoal_row h
    refine ⟨⟨fun k' goal' hk' => ⟨goal', ?_, .refl goal'⟩, fun k' goal' hk' => ?_⟩, rfl, rfl⟩
    · show goals.get? k' = _
      rw [Table.get?_insert hins, if_neg, hk']
      rintro rfl
      rw [Table.insert?_fresh hins] at hk'
      cases hk'
    · have hk'' : goals.get? k' = some goal' := hk'
      rw [Table.get?_insert hins] at hk''
      split at hk''
      · subst k'
        obtain rfl := Option.some.inj hk''
        exact Or.inr ⟨Table.insert?_fresh hins, hi, ht, hf⟩
      · exact Or.inl ⟨goal', hk'', .refl goal'⟩
  | pause =>
    rcases pauseGoal_ok h with rfl | ⟨goal, hk, hs, rfl⟩
    · exact ⟨hrefl, rfl, rfl⟩
    · exact ⟨hset hk (.of_open hs _ _ _ _ _), rfl, rfl⟩
  | resume =>
    obtain ⟨goal, hk, hs, rfl⟩ := resumeGoal_ok h
    exact ⟨hset hk (.of_open (paused_not_final hs) _ _ _ _ _), rfl, rfl⟩
  | steer k =>
    obtain ⟨goal, events, hk, hs, rfl⟩ := steerGoal_ok h
    refine ⟨?_, rfl, rfl⟩
    refine goalsCounted_of_edit (g := k) (f := (·.steer)) (fun k' => by simp [setGoal]) fun goal' hk' => ?_
    rw [hk] at hk'
    obtain rfl := Option.some.inj hk'
    exact .of_open hs _ _ _ _ _
  | stop =>
    obtain ⟨goal, hk, hs, rfl⟩ := stopGoal_ok h
    exact ⟨hset hk (.of_open hs _ _ _ _ _), rfl, rfl⟩
  | start =>
    rcases startGoal_ok h with rfl | ⟨goal, hk, hs, rfl⟩
    · exact ⟨hrefl, rfl, rfl⟩
    · exact ⟨hset hk (.of_open (by rw [hs]; rfl) _ _ _ _ _), rfl, rfl⟩
  | terminate =>
    rcases terminateGoal_ok h with rfl | ⟨goal, hk, hs, rfl⟩
    · exact ⟨hrefl, rfl, rfl⟩
    · exact ⟨hset hk (.of_open hs _ _ _ _ _), rfl, rfl⟩
  | _ => exact hop.elim

/-! ## The transactions of an engine -/

/-- A new iteration takes the next number. -/
theorem Agenda.begin (hA : Agenda db) {goal : GoalRow} (h : Begun g id goal db db') (ha : db'.actions = db.actions)
    (hidle : Idle g db) (hlimit : goal.iterationCount < goal.budgets.maxIterations) :
    Agenda db' ∧ ∀ k, k ≠ g → Untouched k db db' := by
  have htally : ∀ k, actionCount db' k = actionCount db k := fun k => by unfold actionCount; rw [ha]
  have hother : ∀ {k}, k ≠ g → db'.goals.get? k = db.goals.get? k := fun hk => by rw [h.goals, if_neg hk]
  have hself : db'.goals.get? g = some (goal.iterate (goal.iterationCount + 1)) := by rw [h.goals, if_pos rfl]
  have hbelow : ∀ {k it}, db.iterations.get? k = some it → it.goalId = g → it.sequence ≤ goal.iterationCount := by
    intro k it hit hg
    exact (hA.ok hit (by rw [hg]; exact h.row)).placed.2
  refine ⟨⟨fun k it hit => ?_, fun k it k' it' hit hit' hgg hss => ?_, fun k goal' hgoal' n h1 hn => ?_,
    fun k a hrow => ?_, fun k goal' hgoal' => ?_⟩, fun k hk =>
    ⟨fun i it hit => ⟨fun hrow => ?_, fun hrow => h.old hrow⟩, fun _ _ _ => by rw [ha],
      fun goal' hgoal' => ⟨goal', by rw [hother hk]; exact hgoal', rfl, rfl, rfl, rfl, rfl, fun hs => hs⟩,
      fun hnone goal' hgoal' => nomatch hnone.symm.trans ((hother hk).symm.trans hgoal')⟩⟩
  · rcases h.back hit with ⟨rfl, rfl⟩ | ⟨_, hit⟩
    · refine ⟨_, hself, ⟨⟨Nat.le_add_left _ _, Nat.le_refl _⟩, fun _ => rfl, fun _ hv => ?_, fun hp => ?_,
        fun _ hp => ?_, fun hs => ?_, fun _ => Or.inl rfl⟩⟩
      · cases hv
      · cases hp
      · cases hp
      · cases hs
    · obtain ⟨goal', hgoal', hok⟩ := hA.rows k it hit
      by_cases hg : it.goalId = g
      · rw [hg, h.row] at hgoal'
        obtain rfl := Option.some.inj hgoal'
        exact ⟨_, by rw [hg]; exact hself, hok.finished (hidle k it hit hg) (Nat.le_succ _)⟩
      · exact ⟨goal', by rw [hother hg]; exact hgoal', hok⟩
  · rcases h.back hit with ⟨rfl, rfl⟩ | ⟨_, hit⟩ <;> rcases h.back hit' with ⟨rfl, rfl⟩ | ⟨_, hit'⟩
    · rfl
    · have hle := hbelow hit' hgg.symm
      simp only at hss
      omega
    · have hle := hbelow hit hgg
      simp only at hss
      omega
    · exact hA.unique k it k' it' hit hit' hgg hss
  · by_cases hk : k = g
    · subst hk
      rw [hself] at hgoal'
      obtain rfl := Option.some.inj hgoal'
      by_cases hlast : n = goal.iterationCount + 1
      · exact ⟨id, _, (h.iterations id).trans (if_pos rfl), rfl, hlast.symm⟩
      · have hn' : n ≤ goal.iterationCount + 1 := hn
        obtain ⟨i, it, hit, hg, hs⟩ := hA.covered k goal h.row n h1 (by omega)
        exact ⟨i, it, h.old hit, hg, hs⟩
    · rw [hother hk] at hgoal'
      obtain ⟨i, it, hit, hg, hs⟩ := hA.covered k goal' hgoal' n h1 hn
      exact ⟨i, it, h.old hit, hg, hs⟩
  · rw [ha] at hrow
    obtain ⟨it, hit, hg, hplan⟩ := hA.owned k a hrow
    exact ⟨it, h.old hit, hg, hplan⟩
  · rw [htally]
    by_cases hk : k = g
    · subst hk
      rw [hself] at hgoal'
      obtain rfl := Option.some.inj hgoal'
      exact ⟨hlimit, (hA.bounded k goal h.row).2⟩
    · rw [hother hk] at hgoal'
      exact hA.bounded k goal' hgoal'
  · rcases h.back hrow with ⟨rfl, rfl⟩ | ⟨_, hrow⟩
    · exact absurd hit.symm hk
    · exact hrow

/-- A plan gives its iteration the actions. -/
theorem Agenda.plan (hA : Agenda db) {plan : GoalPlan} {actionId : String → String} {actions : Table String ActionRow}
    (hins : db.actions.insertAll? (plannedRows g id actionId plan.actions) = some actions)
    (hcurrent : Current g id (fun it => it.plan = none ∧ Evaluated .incomplete it) db)
    (hgoal : ∃ goal, db.goals.get? g = some goal ∧ goal.taskCount + plan.actions.length ≤ goal.budgets.maxTasks ∧
      goal.noProgressCount < goal.budgets.noProgressLimit) :
    Agenda (setGoal (setIteration { db with actions := actions } id (·.planWith plan)) g
      (·.addTasks plan.actions.length)) ∧
      ∀ k, k ≠ g → Untouched k db
        (setGoal (setIteration { db with actions := actions } id (·.planWith plan)) g
          (·.addTasks plan.actions.length)) := by
  have hE : Edited g id (·.addTasks plan.actions.length) (·.planWith plan) db
      (setGoal (setIteration { db with actions := actions } id (·.planWith plan)) g (·.addTasks plan.actions.length)) :=
    ⟨fun k => by simp [setGoal, setIteration], fun k => by simp [setGoal, setIteration]⟩
  have hu : IterationEdit (·.planWith plan) := ⟨fun _ => rfl, fun _ => rfl, fun _ _ h => Or.inl h⟩
  obtain ⟨goal, hrow, hlimit, hprogress⟩ := hgoal
  have hown : ∀ it, db.iterations.get? id = some it → it.goalId = g := by
    obtain ⟨own, hown, howng, _⟩ := hcurrent
    intro it hit
    rw [hown] at hit
    rw [← Option.some.inj hit]
    exact howng
  have hnew : ∀ e ∈ plannedRows g id actionId plan.actions, e.2.goalId = g ∧ e.2.iterationId = id := by
    intro e he
    obtain ⟨x, _, rfl⟩ := List.mem_map.mp he
    exact ⟨rfl, rfl⟩
  have hcount : ∀ k, (plannedRows g id actionId plan.actions).countP (fun e => decide (e.2.goalId = k)) =
      if k = g then plan.actions.length else 0 := by
    intro k
    split
    · subst k
      rw [List.countP_eq_length.mpr fun e he => decide_eq_true (hnew e he).1]
      simp [plannedRows]
    · rename_i hk
      exact List.countP_eq_zero.mpr fun e he => by simpa [(hnew e he).1] using Ne.symm hk
  have htally : ∀ k, actionCount (setGoal (setIteration { db with actions := actions } id (·.planWith plan)) g
      (·.addTasks plan.actions.length)) k = actionCount db k + if k = g then plan.actions.length else 0 := by
    intro k
    show actions.rows.countP _ = _
    rw [Table.insertAll?_rows hins, List.countP_append, hcount]
    rfl
  refine ⟨hA.edited hE hu (fun _ => rfl) (fun _ => rfl) hown (fun it goal' hit hgoal' hok => ?_)
    (fun k it goal' hk hit hg hok => hok.finished (hA.alone hcurrent hk hit hg) (Nat.le_refl _)) (fun k a ha => ?_)
    (fun goal' hgoal' hc => ?_) fun k hk => by
      rw [htally, if_neg hk]; rfl, fun k hk => hE.untouched hu hown hk fun i a hg => ?_⟩
  · obtain ⟨own, hcur, _, hactive, _, hevaluated⟩ := hcurrent
    rw [hcur] at hit
    obtain rfl := Option.some.inj hit
    rw [hrow] at hgoal'
    obtain rfl := Option.some.inj hgoal'
    exact ⟨hok.placed, fun _ => hok.last hactive, hok.versioned, fun _ => hevaluated, fun _ _ => hprogress,
      fun hs => (by cases hs), fun _ => Or.inr (Or.inl rfl)⟩
  · rcases (Table.get?_insertAll hins).mp ha with hold | hmem
    · obtain ⟨it, hit, hg, hplan⟩ := hA.owned k a hold
      refine ⟨_, hE.iteration_to hit, ?_, ?_⟩
      · split <;> exact hg
      · split
        · rfl
        · exact hplan
    · obtain ⟨own, hcur, howng, _⟩ := hcurrent
      obtain ⟨hg, hid⟩ := hnew _ hmem
      refine ⟨_, by rw [hid]; exact hE.iteration_to hcur, ?_, ?_⟩
      · rw [if_pos rfl]
        exact howng.trans hg.symm
      · rw [if_pos rfl]
        rfl
  · rw [hrow] at hgoal'
    obtain rfl := Option.some.inj hgoal'
    rw [htally, if_pos rfl, ← hc]
    exact ⟨hlimit, rfl⟩
  · refine (Table.get?_insertAll hins).trans (or_iff_left fun hmem => hk ?_)
    exact hg.symm.trans (hnew _ hmem).1

/-- An action of the engine's goal is updated in place. -/
theorem Agenda.set (hA : Agenda db) {actionId : String} {f : ActionRow → ActionRow}
    (hf : ∀ a, (f a).goalId = a.goalId ∧ (f a).iterationId = a.iterationId) (hmember : Member g id actionId db) :
    Agenda { db with actions := db.actions.modify actionId f } ∧
      ∀ k, k ≠ g → Untouched k db { db with actions := db.actions.modify actionId f } := by
  have htally : ∀ k, actionCount { db with actions := db.actions.modify actionId f } k = actionCount db k := by
    intro k
    have hp : ∀ a, decide ((f a).goalId = k) = decide (a.goalId = k) := fun a => by rw [(hf a).1]
    exact Table.countP_modify (p := fun a : ActionRow => decide (a.goalId = k)) hp
  refine ⟨⟨hA.rows, hA.unique, hA.covered, fun k a ha => ?_, fun k goal hgoal => ?_⟩, fun k hk => ⟨fun _ _ _ => Iff.rfl,
    fun i a hg => ?_, fun goal hgoal => ⟨goal, hgoal, rfl, rfl, rfl, rfl, rfl, fun hs => hs⟩,
      fun hnone _ hgoal' => nomatch hnone.symm.trans hgoal'⟩⟩
  · simp only [Table.get?_modify] at ha
    split at ha
    · obtain ⟨a₀, ha₀, rfl⟩ := Option.map_eq_some_iff.mp ha
      rw [(hf a₀).1, (hf a₀).2]
      exact hA.owned k a₀ ha₀
    · exact hA.owned k a ha
  · rw [htally]
    exact hA.bounded k goal hgoal
  · obtain ⟨a₀, ha₀, _, hg₀⟩ := hmember
    by_cases hi : i = actionId
    · subst hi
      simp only [Table.get?_modify_self, ha₀, Option.map_some, Option.some.injEq]
      constructor
      · rintro rfl
        exact absurd (hg.symm.trans ((hf a₀).1.trans hg₀)) hk
      · rintro rfl
        exact absurd (hg.symm.trans hg₀) hk
    · simp [Table.get?_modify_ne _ _ hi]

/-- What a transaction that its engine made sure of does: the agenda stays, and the other engines notice nothing. -/
theorem permitted_step {op : GoalOp} {r : op.Reply} (hop : Permits g db op) (h : execGoal op db = .ok (r, db'))
    (hA : Agenda db) : Agenda db' ∧ ∀ k, k ≠ g → Untouched k db db' := by
  have hsame : Agenda db ∧ ∀ k, k ≠ g → Untouched k db db := ⟨hA, fun k _ => .refl k db⟩
  have huncounted : Uncounted op → Agenda db' ∧ ∀ k, k ≠ g → Untouched k db db' := by
    intro hu
    obtain ⟨hgoals, hi, ha⟩ := uncounted_goals hu h
    obtain ⟨hA', hut⟩ := hA.counted hgoals hi ha
    exact ⟨hA', fun k _ => hut k⟩
  cases op with
  | start k now => exact huncounted trivial
  | terminate k reason detail => exact huncounted trivial
  | beginIteration k uuid =>
    obtain ⟨rfl, hidle, goal, hgoal, hlimit⟩ := hop
    obtain ⟨goal', hb⟩ := begun_of_ok h
    obtain rfl : goal = goal' := Option.some.inj (hgoal.symm.trans hb.row)
    refine hA.begin hb ?_ hidle hlimit
    obtain ⟨_, _, _, _, _, rfl⟩ := beginIteration_ok h
    rfl
  | recordEvaluation i evaluation expected =>
    obtain ⟨it, hit, ⟨_, rfl⟩ | ⟨_, rfl⟩⟩ := recordEvaluation_ok h
    · exact hA.interrupt hop
    · have hcurrent := hop
      obtain ⟨it', hit', hg, _⟩ := hcurrent
      obtain rfl : it = it' := Option.some.inj (hit.symm.trans hit')
      rw [hg]
      refine hA.advance hop (edited_both _ _) rfl ⟨fun _ => rfl, fun _ => rfl, fun _ _ hv => Or.inl hv⟩ (fun _ hp => hp)
        (fun _ => ⟨rfl, rfl, rfl⟩) fun it goal hactive hnone hok => ?_
      have hplan : it.plan.isSome = true → False := fun hp => by
        obtain ⟨cp, hcp, _⟩ := hok.planned hp
        rw [hnone] at hcp
        cases hcp
      refine ⟨hok.placed, hok.last, hok.versioned, fun hp => (hplan hp).elim, fun _ hp =>
        (hplan hp).elim, hok.replanned,
        fun hs => ?_⟩
      rcases hok.prepared hs with hs | hp | ⟨cp, hcp, _⟩
      · exact Or.inl hs
      · exact (hplan hp).elim
      · rw [hnone] at hcp
        cases hcp
  | recordPlan i k plan expected actionId =>
    obtain ⟨rfl, hcurrent, hgoal⟩ := hop
    rcases recordPlan_rows h with ⟨_, rfl⟩ | ⟨_, actions, hins, rfl⟩
    · exact hA.interrupt hcurrent
    · exact hA.plan hins hcurrent hgoal
  | recordVerification i verification expected =>
    obtain ⟨hcurrent, _⟩ := hop
    rcases recordGoalVerification_ok h with ⟨_, rfl⟩ | ⟨_, rfl⟩
    · exact hA.interrupt hcurrent
    · refine hA.advance hcurrent (edited_iteration _) rfl ⟨fun _ => rfl, fun _ => rfl, fun _ _ hv => ?_⟩
        (fun _ hp => hp)
        (fun _ => ⟨rfl, rfl, rfl⟩) fun it goal hactive _ hok => ?_
      · exact Or.inr (by rw [← Option.some.inj hv]; exact fun hn => nomatch hn)
      · exact ⟨hok.placed, hok.last, fun cp hv =>
          (by rw [← Option.some.inj hv]; exact fun hn => nomatch hn), hok.planned,
          hok.progressing, fun _ => rfl, hok.prepared⟩
  | phaseIsCurrent k i expected =>
    obtain ⟨rfl, hcurrent⟩ := hop
    rcases phaseIsCurrent_ok h with ⟨_, rfl⟩ | ⟨_, rfl⟩
    · exact hA.interrupt hcurrent
    · exact hsame
  | completeReplan k i verification failures =>
    obtain ⟨rfl, _, _, hcurrent⟩ := hop
    obtain rfl := completeReplan_ok h
    refine hA.advance hcurrent (edited_pair _ _) rfl
      (.withState .replanning) (fun _ hp => hp) (fun _ => ⟨rfl, rfl, rfl⟩) fun it goal hactive hP hok => ?_
    obtain ⟨_, hverified, hprepared⟩ := hP
    refine ⟨hok.placed, fun _ => hok.last hactive, hok.versioned, hok.planned, fun _ hp => ?_, fun _ => hverified,
      fun _ => Or.inr hprepared⟩
    have hlt := hok.progressing hactive hp
    show (if _ then goal.noProgressCount else 0) < goal.budgets.noProgressLimit
    split
    · exact hlt
    · exact Nat.zero_lt_of_lt hlt
  | terminatePhaseIfCurrent k i reason detail expected =>
    obtain ⟨rfl, hcurrent, _⟩ := hop
    rcases terminatePhaseIfCurrent_ok h with rfl | rfl | ⟨_, _, _, _, rfl⟩
    · exact hA.interrupt hcurrent
    · exact hsame
    · exact hA.advance hcurrent (edited_pair _ _) rfl
        (.withState .completed) (fun _ hp => hp) (fun _ => ⟨rfl, rfl, rfl⟩) fun it goal hactive _ hok =>
          (hok.withState hactive .completed (fun hs => nomatch hs) fun hs => nomatch hs).kept rfl rfl rfl
  | interruptForSteer k i =>
    obtain ⟨rfl, hcurrent⟩ := hop
    obtain rfl := interruptForSteer_ok h
    exact hA.interrupt hcurrent
  | setIterationState i state =>
    cases h
    have hstate : ∀ {P : IterationRow → Prop}, Current g i P db →
      (∀ it, P it → state = .replanning → it.verification.isSome = true) →
        (∀ it, P it → state.active = true → state = .evaluating ∨ Prepared it) →
        Agenda (setIteration db i (·.withState state)) ∧ ∀ k, k ≠ g →
          Untouched k db (setIteration db i (·.withState state)) :=
      fun hcurrent hreplan hprepared => hA.advance hcurrent (edited_iteration _) rfl (.withState state) (fun _ hp => hp)
        (fun _ => ⟨rfl, rfl, rfl⟩) fun it goal hactive hP hok =>
          hok.withState hactive state (hreplan it hP) (hprepared it hP)
    cases state with
    | dispatching => exact hstate hop (fun _ _ hs => nomatch hs) fun _ hp _ => Or.inr (Or.inl hp)
    | collecting => exact hstate hop (fun _ _ hs => nomatch hs) fun _ hp _ => Or.inr (Or.inl hp.1)
    | verifying => exact hstate hop.1 (fun _ _ hs => nomatch hs) fun _ hp _ => Or.inr hp.2
    | completed => exact hstate hop.1 (fun _ _ hs => nomatch hs) fun _ _ hs => nomatch hs
    | interrupted => exact hstate hop.1 (fun _ _ hs => nomatch hs) fun _ _ hs => nomatch hs
    | _ => exact hop.elim
  | setAction actionId state handle result error =>
    obtain ⟨i, hmember, _⟩ := hop
    obtain rfl := setAction_ok h
    exact hA.set (fun _ => ⟨rfl, rfl⟩) hmember
  | _ => exact hop.elim

end

end AgentFabric.Autonomy
