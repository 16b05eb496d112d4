import AgentFabric.Autonomy.Engine

/-!
# What justifies a success

The last iteration of a goal that ended in success was verified as satisfied at the current steer version.
-/

namespace AgentFabric.Autonomy

open AgentFabric.Lib AgentFabric.Store

def Success (goal : GoalRow) : Prop := goal.state = .terminated ∧ goal.terminationReason = some .success

def Succeeded (db : Db) (g : String) : Prop := ∃ goal, db.goals.get? g = some goal ∧ Success goal

/-- The last iteration of the goal is verified as satisfied, for the goal's steer version. -/
def Justified (db : Db) (g : String) (goal : GoalRow) : Prop :=
  ∃ id it cp, db.iterations.get? id = some it ∧ it.goalId = g ∧
    (∀ id' it', db.iterations.get? id' = some it' → it'.goalId = g → id' ≠ id → it'.sequence < it.sequence) ∧
    it.verification = some cp ∧ cp.decision.satisfied = true ∧ cp.steerVersion = some goal.steerVersion

/-- Iterations are numbered within their goal, only the last one is active, and every success is justified. -/
structure GoalInv (db : Db) : Prop where
  numbered : ∀ id it, db.iterations.get? id = some it → ∃ goal, db.goals.get? it.goalId = some goal ∧
    it.sequence ≤ goal.iterationCount ∧ (it.state.active = true → it.sequence = goal.iterationCount)
  unique : ∀ id it id' it', db.iterations.get? id = some it → db.iterations.get? id' = some it' →
    it.goalId = it'.goalId → it.sequence = it'.sequence → id = id'
  versioned : ∀ id it cp, db.iterations.get? id = some it → it.verification = some cp → cp.steerVersion ≠ none
  justified : ∀ g goal, db.goals.get? g = some goal → Success goal → Justified db g goal

/-- What a step of a slot leaves alone. -/
structure Guarantee (i : Slot) (db db' : Db) : Prop where
  final : ∀ g goal, db.goals.get? g = some goal → ∃ goal', db'.goals.get? g = some goal' ∧
    (goal.state.final = true → goal'.state = goal.state ∧ goal'.terminationReason = goal.terminationReason ∧
      goal'.steerVersion = goal.steerVersion)
  iterations : ∀ g, i ≠ .engine g → ∀ id it, it.goalId = g →
    (db'.iterations.get? id = some it ↔ db.iterations.get? id = some it)
  count : ∀ g, i ≠ .engine g → ∀ goal, db.goals.get? g = some goal → ∃ goal', db'.goals.get? g = some goal' ∧
    goal'.iterationCount = goal.iterationCount
  success : ∀ g, i ≠ .engine g → Succeeded db' g → Succeeded db g

theorem Guarantee.refl (i : Slot) (db : Db) : Guarantee i db db :=
  ⟨fun _ goal h => ⟨goal, h, fun _ => ⟨rfl, rfl, rfl⟩⟩, fun _ _ _ _ _ => Iff.rfl, fun _ _ goal h => ⟨goal, h, rfl⟩,
    fun _ _ h => h⟩

/-! ## What the engine of a goal knows -/

/-- The goal has not ended as a success, and the iteration is its last one. -/
def Own (g id : String) (db : Db) : Prop :=
  ¬ Succeeded db g ∧ ∃ it goal, db.iterations.get? id = some it ∧ it.goalId = g ∧ db.goals.get? g = some goal ∧
    it.sequence = goal.iterationCount

def Recorded (g id : String) (cp : Checkpoint GoalVerification) (db : Db) : Prop :=
  ∃ it, db.iterations.get? id = some it ∧ it.goalId = g ∧ it.verification = some cp

/-- No iteration of the goal is active. -/
def Idle (g : String) (db : Db) : Prop :=
  ∀ id it, db.iterations.get? id = some it → it.goalId = g → it.state.active = false

theorem open_stable (g : String) : Stable GoalInv Guarantee (.engine g) fun db => ¬ Succeeded db g :=
  fun _ _ _ hj _ _ hg h hs => h (hg.success g hj hs)

theorem own_stable (g id : String) : Stable GoalInv Guarantee (.engine g) (Own g id) := by
  rintro j db db' hj _ _ hg ⟨hopen, it, goal, hit, hgoal, hrow, hseq⟩
  obtain ⟨goal', hrow', hcount⟩ := hg.count g hj goal hrow
  exact ⟨fun hs => hopen (hg.success g hj hs), it, goal', (hg.iterations g hj id it hgoal).mpr hit, hgoal, hrow',
    hseq.trans hcount.symm⟩

theorem recorded_stable (g id : String) (cp : Checkpoint GoalVerification) :
    Stable GoalInv Guarantee (.engine g) (Recorded g id cp) := by
  rintro j db db' hj _ _ hg ⟨it, hit, hgoal, hv⟩
  exact ⟨it, (hg.iterations g hj id it hgoal).mpr hit, hgoal, hv⟩

theorem idle_stable (g : String) : Stable GoalInv Guarantee (.engine g) (Idle g) := by
  intro j db db' hj _ _ hg h id it hit hgoal
  exact h id it ((hg.iterations g hj id it hgoal).mp hit) hgoal

/-! ## Steps of an engine -/

/-- An update of a goal that anyone may make: it counts no iteration, respects a final goal, and makes no success. -/
structure GoalEdit (goal goal' : GoalRow) : Prop where
  count : goal'.iterationCount = goal.iterationCount
  final : goal.state.final = true → goal'.state = goal.state ∧ goal'.terminationReason = goal.terminationReason ∧
    goal'.steerVersion = goal.steerVersion
  success : Success goal' → Success goal

theorem GoalEdit.refl (goal : GoalRow) : GoalEdit goal goal := ⟨rfl, fun _ => ⟨rfl, rfl, rfl⟩, id⟩

theorem GoalEdit.of_open {goal goal' : GoalRow} (hopen : goal.state.final = false)
    (hcount : goal'.iterationCount = goal.iterationCount) (hs : ¬ Success goal') : GoalEdit goal goal' :=
  ⟨hcount, fun h => (by rw [hopen] at h; cases h), fun h => absurd h hs⟩

theorem GoalEdit.of_state {goal goal' : GoalRow} (hstate : goal'.state = goal.state)
    (hreason : goal'.terminationReason = goal.terminationReason) (hcount : goal'.iterationCount = goal.iterationCount)
    (hsteer : goal'.steerVersion = goal.steerVersion) : GoalEdit goal goal' :=
  ⟨hcount, fun _ => ⟨hstate, hreason, hsteer⟩, fun h => ⟨hstate ▸ h.1, hreason ▸ h.2⟩⟩

/-- An update of an iteration: its place stays, and a new verification carries its steer version. -/
structure IterationEdit (f : IterationRow → IterationRow) : Prop where
  goalId : ∀ it, (f it).goalId = it.goalId
  sequence : ∀ it, (f it).sequence = it.sequence
  versioned : ∀ it cp, (f it).verification = some cp → it.verification = some cp ∨ cp.steerVersion ≠ none

theorem IterationEdit.id : IterationEdit id := ⟨fun _ => rfl, fun _ => rfl, fun _ _ h => Or.inl h⟩

theorem IterationEdit.withState (state : IterationState) : IterationEdit (·.withState state) :=
  ⟨fun _ => rfl, fun _ => rfl, fun _ _ h => Or.inl h⟩

/-- Only the goal `g` and the iteration `id` are edited. -/
structure Edited (g id : String) (f : GoalRow → GoalRow) (u : IterationRow → IterationRow) (db db' : Db) : Prop where
  goals : ∀ k, db'.goals.get? k = if k = g then (db.goals.get? k).map f else db.goals.get? k
  iterations : ∀ k, db'.iterations.get? k = if k = id then (db.iterations.get? k).map u else db.iterations.get? k

section

variable {g id : String} {f : GoalRow → GoalRow} {u : IterationRow → IterationRow} {db db' : Db}

theorem Edited.goal (h : Edited g id f u db db') {goal : GoalRow} (hg : db.goals.get? g = some goal) :
    db'.goals.get? g = some (f goal) := by rw [h.goals, if_pos rfl, hg]; rfl

variable {k : String}

theorem Edited.goal_ne (h : Edited g id f u db db') (hk : k ≠ g) :
    db'.goals.get? k = db.goals.get? k := by rw [h.goals, if_neg hk]

theorem Edited.iteration_ne (h : Edited g id f u db db') (hk : k ≠ id) :
    db'.iterations.get? k = db.iterations.get? k := by rw [h.iterations, if_neg hk]

theorem Edited.back (h : Edited g id f u db db') (hu : IterationEdit u) {it : IterationRow}
    (hit : db'.iterations.get? k = some it) : ∃ it₀, db.iterations.get? k = some it₀ ∧ it.goalId = it₀.goalId ∧
      it.sequence = it₀.sequence ∧ (k ≠ id → it = it₀) ∧ (k = id → it = u it₀) := by
  by_cases hk : k = id
  · subst hk
    rw [h.iterations, if_pos rfl, Option.map_eq_some_iff] at hit
    obtain ⟨it₀, hit₀, rfl⟩ := hit
    exact ⟨it₀, hit₀, hu.goalId it₀, hu.sequence it₀, fun hne => absurd rfl hne, fun _ => rfl⟩
  · rw [h.iteration_ne hk] at hit
    exact ⟨it, hit, rfl, rfl, fun _ => rfl, fun e => absurd e hk⟩

/-- An edit keeps where iterations stand. -/
theorem Edited.numbered (h : Edited g id f u db db') (hI : GoalInv db) (hu : IterationEdit u) (own : Own g id db)
    (count : ∀ goal, db.goals.get? g = some goal → (f goal).iterationCount = goal.iterationCount)
    (k : String) (it : IterationRow) (hit : db'.iterations.get? k = some it) : ∃ goal,
      db'.goals.get? it.goalId = some goal ∧ it.sequence ≤ goal.iterationCount ∧
        (it.state.active = true → it.sequence = goal.iterationCount) := by
  obtain ⟨_, own, ownGoal, hown, howng, hrow, hseq⟩ := own
  obtain ⟨it₀, hit₀, hgoal, hsequence, hother, hself⟩ := h.back hu hit
  obtain ⟨goal, hg, hle, hactive⟩ := hI.numbered k it₀ hit₀
  by_cases hgg : it₀.goalId = g
  · rw [hgg] at hg
    obtain rfl : ownGoal = goal := Option.some.inj (hrow.symm.trans hg)
    have hc := count ownGoal hg
    refine ⟨f ownGoal, by rw [hgoal, hgg]; exact h.goal hg, by rw [hsequence, hc]; exact hle, fun ha => ?_⟩
    rw [hsequence, hc]
    by_cases hk : k = id
    · subst hk
      rw [hown] at hit₀
      rw [← Option.some.inj hit₀]
      exact hseq
    · rw [hother hk] at ha
      exact hactive ha
  · have hk : k ≠ id := by
      rintro rfl
      rw [hown] at hit₀
      exact hgg (by rw [← Option.some.inj hit₀]; exact howng)
    refine ⟨goal, ?_, by rw [hsequence]; exact hle, fun ha => ?_⟩
    · rw [hgoal, h.goal_ne hgg]; exact hg
    · rw [hsequence]
      rw [hother hk] at ha
      exact hactive ha

theorem Edited.unique (h : Edited g id f u db db') (hI : GoalInv db) (hu : IterationEdit u) (k : String)
    (it : IterationRow) (k' : String) (it' : IterationRow) (hit : db'.iterations.get? k = some it)
    (hit' : db'.iterations.get? k' = some it') (hg : it.goalId = it'.goalId) (hs : it.sequence = it'.sequence) :
    k = k' := by
  obtain ⟨it₀, hit₀, hgoal, hseq, _⟩ := h.back hu hit
  obtain ⟨it₁, hit₁, hgoal', hseq', _⟩ := h.back hu hit'
  exact hI.unique k it₀ k' it₁ hit₀ hit₁ (hgoal.symm.trans (hg.trans hgoal')) (hseq.symm.trans (hs.trans hseq'))

theorem Edited.versioned (h : Edited g id f u db db') (hI : GoalInv db) (hu : IterationEdit u) (k : String)
    (it : IterationRow) (cp : Checkpoint GoalVerification) (hit : db'.iterations.get? k = some it)
    (hcp : it.verification = some cp) : cp.steerVersion ≠ none := by
  obtain ⟨it₀, hit₀, _, _, hother, hself⟩ := h.back hu hit
  by_cases hk : k = id
  · rw [hself hk] at hcp
    rcases hu.versioned it₀ cp hcp with hcp | hcp
    · exact hI.versioned k it₀ cp hit₀ hcp
    · exact hcp
  · rw [hother hk] at hcp
    exact hI.versioned k it₀ cp hit₀ hcp

theorem Edited.justified_ne (h : Edited g id f u db db') (hI : GoalInv db) (hu : IterationEdit u) (own : Own g id db)
    (hk : k ≠ g) {goal : GoalRow} (hg : db'.goals.get? k = some goal) (hs : Success goal) : Justified db' k goal := by
  obtain ⟨_, own, _, hown, howng, _, _⟩ := own
  rw [h.goal_ne hk] at hg
  obtain ⟨i, it, cp, hit, hgoal, hlast, hcp⟩ := hI.justified k goal hg hs
  have hi : i ≠ id := by
    rintro rfl
    rw [hown] at hit
    exact hk (hgoal.symm.trans (by rw [← Option.some.inj hit]; exact howng))
  refine ⟨i, it, cp, by rw [h.iteration_ne hi]; exact hit, hgoal, fun i' it' hit' hgoal' hne => ?_, hcp⟩
  obtain ⟨it₀, hit₀, hg₀, hs₀, _⟩ := h.back hu hit'
  rw [hs₀]
  exact hlast i' it₀ hit₀ (hg₀.symm.trans hgoal') hne

/-- What an edit by the engine of `g` guarantees to the others. -/
theorem Edited.guarantee (h : Edited g id f u db db') (hu : IterationEdit u) (own : Own g id db)
    (final : ∀ goal, db.goals.get? g = some goal → goal.state.final = true →
      (f goal).state = goal.state ∧ (f goal).terminationReason = goal.terminationReason ∧
        (f goal).steerVersion = goal.steerVersion) : Guarantee (.engine g) db db' := by
  obtain ⟨_, own, _, hown, howng, _, _⟩ := own
  refine ⟨fun k goal hk => ?_, fun k hk i it hit => ?_, fun k hk goal hgoal => ?_, fun k hk ⟨goal, hgoal, hs⟩ => ?_⟩
  · by_cases hkg : k = g
    · subst hkg
      exact ⟨f goal, h.goal hk, final goal hk⟩
    · exact ⟨goal, by rw [h.goal_ne hkg]; exact hk, fun _ => ⟨rfl, rfl, rfl⟩⟩
  · have hkg : k ≠ g := fun e => hk (by rw [e])
    by_cases hi : i = id
    · subst hi
      constructor
      · intro hit'
        obtain ⟨it₀, hit₀, hg₀, _⟩ := h.back hu hit'
        rw [hown] at hit₀
        exact absurd (hit.symm.trans (hg₀.trans (by rw [← Option.some.inj hit₀]; exact howng))) hkg
      · intro hit'
        rw [hown] at hit'
        exact absurd (hit.symm.trans (by rw [← Option.some.inj hit']; exact howng)) hkg
    · rw [h.iteration_ne hi]
  · have hkg : k ≠ g := fun e => hk (by rw [e])
    exact ⟨goal, by rw [h.goal_ne hkg]; exact hgoal, rfl⟩
  · have hkg : k ≠ g := fun e => hk (by rw [e])
    exact ⟨goal, by rw [← h.goal_ne hkg]; exact hgoal, hs⟩

/-- An edit of its own iteration keeps the invariant and the guarantee. -/
theorem edit_step (h : Edited g id f u db db') (hI : GoalInv db) (own : Own g id db)
    (hf : ∀ goal, db.goals.get? g = some goal → GoalEdit goal (f goal)) (hu : IterationEdit u) :
    GoalInv db' ∧ Guarantee (.engine g) db db' ∧ Own g id db' := by
  have hopen : ¬ Succeeded db' g := by
    rintro ⟨goal', hg', hs⟩
    obtain ⟨hopen, _, goal, _, _, hg, _⟩ := own
    rw [h.goal hg] at hg'
    rw [← Option.some.inj hg'] at hs
    exact hopen ⟨goal, hg, (hf goal hg).success hs⟩
  refine ⟨⟨h.numbered hI hu own fun goal hg => (hf goal hg).count, h.unique hI hu, h.versioned hI hu, ?_⟩,
    h.guarantee hu own fun goal hg => (hf goal hg).final, hopen, ?_⟩
  · intro k goal hg hs
    by_cases hk : k = g
    · subst hk
      exact absurd ⟨goal, hg, hs⟩ hopen
    · exact h.justified_ne hI hu own hk hg hs
  · obtain ⟨_, it, goal, hit, hgoal, hg, hseq⟩ := own
    refine ⟨u it, f goal, by rw [h.iterations, if_pos rfl, hit]; rfl, (hu.goalId it).trans hgoal, h.goal hg, ?_⟩
    rw [hu.sequence, (hf goal hg).count]
    exact hseq

end

/-! ## The transactions of an engine, one by one -/

/-- The transactions that an engine makes while it advances its iteration, apart from the one that ends the goal as a
success. -/
def Routine (g id : String) : GoalOp → Prop
  | .start g' _ => g' = g
  | .recordEvaluation i _ _ | .recordVerification i _ _ | .setIterationState i _ => i = id
  | .recordPlan i g' _ _ _ | .phaseIsCurrent g' i _ | .completeReplan g' i _ _ | .interruptForSteer g' i =>
    g' = g ∧ i = id
  | .terminate g' reason _ => g' = g ∧ reason ≠ .success
  | .terminatePhaseIfCurrent g' i reason _ _ => g' = g ∧ i = id ∧ reason ≠ .success
  | .setAction .. => True
  | _ => False

section

variable {g id : String} {db db' : Db}

theorem edited_iteration (u : IterationRow → IterationRow) : Edited g id (·) u db (setIteration db id u) :=
  ⟨fun k => by simp [setIteration], fun k => by simp [setIteration]⟩

theorem edited_goal (f : GoalRow → GoalRow) : Edited g id f (·) db (setGoal db g f) :=
  ⟨fun k => by simp [setGoal], fun k => by simp [setGoal]⟩

theorem edited_both (f : GoalRow → GoalRow) (u : IterationRow → IterationRow) :
    Edited g id f u db (setGoal (setIteration db id u) g f) :=
  ⟨fun k => by simp [setGoal, setIteration], fun k => by simp [setGoal, setIteration]⟩

theorem interrupt_step (hI : GoalInv db) (own : Own g id db) : GoalInv (setIteration db id (·.withState .interrupted)) ∧
    Guarantee (.engine g) db (setIteration db id (·.withState .interrupted)) ∧
      Own g id (setIteration db id (·.withState .interrupted)) :=
  edit_step (edited_iteration _) hI own (fun goal _ => .refl goal) (.withState _)

/-- An update of one goal row keeps the invariant, whoever makes it. -/
theorem goal_step {f : GoalRow → GoalRow} (i : Slot)
    (hg : ∀ k, db'.goals.get? k = if k = g then (db.goals.get? k).map f else db.goals.get? k)
    (hi : db'.iterations = db.iterations) (hI : GoalInv db)
    (hf : ∀ goal, db.goals.get? g = some goal → GoalEdit goal (f goal)) : GoalInv db' ∧ Guarantee i db db' := by
  have hto : ∀ k goal, db.goals.get? k = some goal → ∃ goal', db'.goals.get? k = some goal' ∧ GoalEdit goal goal' := by
    intro k goal hk
    rw [hg]
    by_cases hkg : k = g
    · subst hkg
      exact ⟨f goal, by rw [if_pos rfl, hk]; rfl, hf goal hk⟩
    · exact ⟨goal, by rw [if_neg hkg]; exact hk, .refl goal⟩
  have hfrom : ∀ k goal', db'.goals.get? k = some goal' → ∃ goal, db.goals.get? k = some goal ∧
    GoalEdit goal goal' := by
    intro k goal' hk
    rw [hg] at hk
    by_cases hkg : k = g
    · subst hkg
      rw [if_pos rfl, Option.map_eq_some_iff] at hk
      obtain ⟨goal, hk, rfl⟩ := hk
      exact ⟨goal, hk, hf goal hk⟩
    · rw [if_neg hkg] at hk
      exact ⟨goal', hk, .refl goal'⟩
  refine ⟨⟨fun k it hit => ?_, ?_, ?_, fun k goal' hk hs => ?_⟩, ⟨fun k goal hk => ?_, fun _ _ k it _ => ?_,
    fun k _ goal hk => ?_, fun k _ ⟨goal', hk, hs⟩ => ?_⟩⟩
  · rw [hi] at hit
    obtain ⟨goal, hgoal, hle, hactive⟩ := hI.numbered k it hit
    obtain ⟨goal', hgoal', hedit⟩ := hto _ goal hgoal
    exact ⟨goal', hgoal', by rw [hedit.count]; exact hle, by rw [hedit.count]; exact hactive⟩
  · rw [hi]; exact hI.unique
  · rw [hi]; exact hI.versioned
  · obtain ⟨goal, hgoal, hedit⟩ := hfrom k goal' hk
    have hsucc := hedit.success hs
    have hsteer := (hedit.final (by rw [hsucc.1]; rfl)).2.2
    unfold Justified
    rw [hi, hsteer]
    exact hI.justified k goal hgoal hsucc
  · obtain ⟨goal', hk', hedit⟩ := hto k goal hk
    exact ⟨goal', hk', hedit.final⟩
  · rw [hi]
  · obtain ⟨goal', hk', hedit⟩ := hto k goal hk
    exact ⟨goal', hk', hedit.count⟩
  · obtain ⟨goal, hgoal, hedit⟩ := hfrom k goal' hk
    exact ⟨goal, hgoal, hedit.success hs⟩

theorem same_step (hg : db'.goals = db.goals) (hi : db'.iterations = db.iterations) (hI : GoalInv db)
    (own : Own g id db) : GoalInv db' ∧ Guarantee (.engine g) db db' ∧ Own g id db' := by
  refine edit_step (f := (·)) (u := (·)) ⟨fun k => ?_, fun k => ?_⟩ hI own (fun goal _ => .refl goal) .id
  · rw [hg]; split <;> simp
  · rw [hi]; split <;> simp

/-- Every routine transaction keeps the invariant and what the engine knows. -/
theorem routine_step {op : GoalOp} {r : op.Reply} (hop : Routine g id op) (h : execGoal op db = .ok (r, db'))
    (hI : GoalInv db) (own : Own g id db) : GoalInv db' ∧ Guarantee (.engine g) db db' ∧ Own g id db' := by
  cases op with
  | start =>
    obtain rfl := hop
    rcases startGoal_ok h with rfl | ⟨goal, hg, hs, rfl⟩
    · exact same_step rfl rfl hI own
    · refine edit_step (edited_goal _) hI own (fun goal' hg' => ?_) .id
      rw [hg] at hg'
      obtain rfl := Option.some.inj hg'
      exact .of_open (by rw [hs]; rfl) rfl fun hf => (by cases hf.1)
  | recordEvaluation =>
    obtain rfl := hop
    obtain ⟨it, hit, ⟨_, rfl⟩ | ⟨_, rfl⟩⟩ := recordEvaluation_ok h
    · exact interrupt_step hI own
    · have hown := own
      obtain ⟨_, it', _, hit', hgoal, _⟩ := hown
      rw [hit] at hit'
      obtain rfl := Option.some.inj hit'
      rw [hgoal]
      exact edit_step (edited_both _ _) hI own (fun goal _ => .of_state rfl rfl rfl rfl)
        ⟨fun _ => rfl, fun _ => rfl, fun _ _ h => Or.inl h⟩
  | recordPlan i g' plan =>
    obtain ⟨rfl, rfl⟩ := hop
    rcases recordPlan_ok h with ⟨_, rfl⟩ | ⟨_, actions, rfl⟩
    · exact interrupt_step hI own
    · refine edit_step (f := (·.addTasks plan.actions.length)) (u := (·.planWith plan)) ⟨fun k => ?_, fun k => ?_⟩ hI
        own (fun goal _ => .of_state rfl rfl rfl rfl) ⟨fun _ => rfl, fun _ => rfl, fun _ _ h => Or.inl h⟩
      · simp [setGoal, setIteration]
      · simp [setGoal, setIteration]
  | recordVerification =>
    obtain rfl := hop
    rcases recordGoalVerification_ok h with ⟨_, rfl⟩ | ⟨_, rfl⟩
    · exact interrupt_step hI own
    · refine edit_step (edited_iteration _) hI own (fun goal _ => .refl goal) ⟨fun _ => rfl, fun _ => rfl, ?_⟩
      intro it cp hcp
      obtain rfl := Option.some.inj hcp
      exact Or.inr (Option.some_ne_none _)
  | phaseIsCurrent =>
    obtain ⟨rfl, rfl⟩ := hop
    rcases phaseIsCurrent_ok h with ⟨_, rfl⟩ | ⟨_, rfl⟩
    · exact interrupt_step hI own
    · exact same_step rfl rfl hI own
  | completeReplan g' i verification failures =>
    obtain ⟨rfl, rfl⟩ := hop
    obtain rfl := completeReplan_ok h
    exact edit_step (edited_both (·.replan verification.progressFingerprint failures) (·.withState .replanning)) hI own
      (fun goal _ => .of_state rfl rfl rfl rfl) (.withState _)
  | terminate =>
    obtain ⟨rfl, hr⟩ := hop
    rcases terminateGoal_ok h with rfl | ⟨goal, hg, hs, rfl⟩
    · exact same_step rfl rfl hI own
    · refine edit_step (edited_goal _) hI own (fun goal' hg' => ?_) .id
      rw [hg] at hg'
      obtain rfl := Option.some.inj hg'
      exact .of_open hs rfl fun hf => hr (Option.some.inj hf.2)
  | terminatePhaseIfCurrent g' i reason detail =>
    obtain ⟨rfl, rfl, hr⟩ := hop
    rcases terminatePhaseIfCurrent_ok h with rfl | rfl | ⟨goal, hg, hs, _, rfl⟩
    · exact interrupt_step hI own
    · exact same_step rfl rfl hI own
    · refine edit_step (edited_both (·.finish .terminated reason detail) (·.withState .completed)) hI own
        (fun goal' hg' => ?_) (.withState _)
      rw [hg] at hg'
      obtain rfl := Option.some.inj hg'
      exact .of_open hs rfl fun hf => hr (Option.some.inj hf.2)
  | interruptForSteer =>
    obtain ⟨rfl, rfl⟩ := hop
    obtain rfl := interruptForSteer_ok h
    exact interrupt_step hI own
  | setIterationState =>
    obtain rfl := hop
    cases h
    exact edit_step (edited_iteration _) hI own (fun goal _ => .refl goal) (.withState _)
  | setAction =>
    obtain rfl := setAction_ok h
    exact same_step rfl rfl hI own
  | _ => exact hop.elim

/-- Ending the goal as a success, with the satisfied verification on record under the expected steer version. -/
theorem success_step {detail : String} {expected : Int} {b : Bool} {cp : Checkpoint GoalVerification}
    (h : terminatePhaseIfCurrent db g id .success detail expected = .ok (b, db')) (hI : GoalInv db) (own : Own g id db)
    (recorded : Recorded g id cp db) (hsat : cp.decision.satisfied = true)
    (hversion : ∀ v : Nat, (v : Int) = expected → cp.steerVersion = some v) :
    GoalInv db' ∧ Guarantee (.engine g) db db' := by
  rcases terminatePhaseIfCurrent_ok h with rfl | rfl | ⟨goal, hg, hs, hsteer, rfl⟩
  · obtain ⟨hI', hG, _⟩ := interrupt_step hI own
    exact ⟨hI', hG⟩
  · exact ⟨hI, Guarantee.refl _ _⟩
  · have hedit : Edited g id (·.finish .terminated .success detail) (·.withState .completed) db
        (setIteration (setGoal db g (·.finish .terminated .success detail)) id (·.withState .completed)) :=
      edited_both _ _
    have hu := IterationEdit.withState .completed
    refine ⟨⟨hedit.numbered hI hu own fun _ _ => rfl, hedit.unique hI hu, hedit.versioned hI hu, ?_⟩,
      hedit.guarantee hu own fun goal' hg' hfin => ?_⟩
    · intro k goal' hg' hsucc
      by_cases hk : k = g
      · subst hk
        obtain ⟨_, own, ownGoal, hown, howng, hrow, hseq⟩ := own
        obtain ⟨it, hit, hitg, hv⟩ := recorded
        obtain rfl : own = it := Option.some.inj (hown.symm.trans hit)
        obtain rfl : ownGoal = goal := Option.some.inj (hrow.symm.trans hg)
        rw [hedit.goal hg] at hg'
        obtain rfl := Option.some.inj hg'
        refine ⟨id, own.withState .completed, cp, ?_, hitg, fun i' it' hit' hgoal' hne => ?_, hv, hsat,
          hversion _ hsteer⟩
        · rw [hedit.iterations, if_pos rfl, hown]; rfl
        · obtain ⟨it₀, hit₀, hg₀, hs₀, _⟩ := hedit.back hu hit'
          obtain ⟨goal₀, hgoal₀, hle, _⟩ := hI.numbered i' it₀ hit₀
          rw [← hg₀, hgoal', hrow] at hgoal₀
          obtain rfl := Option.some.inj hgoal₀
          rw [hs₀]
          refine lt_of_le_of_ne (hseq ▸ hle) fun heq => hne ?_
          exact hI.unique i' it₀ id own hit₀ hown (hg₀.symm.trans (hgoal'.trans hitg.symm)) heq
      · exact hedit.justified_ne hI hu own hk hg' hsucc
    · rw [hg] at hg'
      obtain rfl := Option.some.inj hg'
      rw [hs] at hfin
      cases hfin

/-! ## Controls, and the start of an iteration -/

/-- The transactions that touch one goal row and make no success of it, plus the creation of a goal. -/
def Control : GoalOp → Prop
  | .createGoal .. | .pause .. | .resume .. | .steer .. | .stop .. | .start .. => True
  | .terminate _ reason _ => reason ≠ .success
  | _ => False

theorem create_step {goal : GoalRow} {goals : Table String GoalRow} (i : Slot) (hstate : goal.state = .created)
    (hins : db.goals.insert? g goal = some goals) (hI : GoalInv db) :
    GoalInv { db with goals := goals } ∧ Guarantee i db { db with goals := goals } := by
  have hfresh := Table.insert?_fresh hins
  have hold : ∀ k goal', db.goals.get? k = some goal' → goals.get? k = some goal' := by
    intro k goal' hk
    rw [Table.get?_insert hins, if_neg, hk]
    rintro rfl
    rw [hfresh] at hk
    cases hk
  have hnew : ∀ k goal', goals.get? k = some goal' → Success goal' → db.goals.get? k = some goal' := by
    intro k goal' hk hs
    rw [Table.get?_insert hins] at hk
    split at hk
    · obtain rfl := Option.some.inj hk
      cases hstate.symm.trans hs.1
    · exact hk
  refine ⟨⟨fun k it hit => ?_, hI.unique, hI.versioned, fun k goal' hk hs =>
    hI.justified k goal' (hnew k goal' hk hs) hs⟩,
    ⟨fun k goal' hk => ⟨goal', hold k goal' hk, fun _ => ⟨rfl, rfl, rfl⟩⟩, fun _ _ _ _ _ => Iff.rfl,
      fun k _ goal' hk => ⟨goal', hold k goal' hk, rfl⟩, fun k _ hk => hk.imp fun goal' hk =>
        ⟨hnew k goal' hk.1 hk.2, hk.2⟩⟩⟩
  obtain ⟨goal', hgoal', h⟩ := hI.numbered k it hit
  exact ⟨goal', hold _ goal' hgoal', h⟩

theorem paused_not_final {state : GoalState} (h : state.paused = true) : state.final = false := by
  cases state <;> simp_all [GoalState.paused, GoalState.final]

/-- A control keeps the invariant, whoever sends it. -/
theorem control_step {op : GoalOp} {r : op.Reply} (i : Slot) (hop : Control op)
    (h : execGoal op db = .ok (r, db')) (hI : GoalInv db) : GoalInv db' ∧ Guarantee i db db' := by
  have hset : ∀ {k : String} {goal : GoalRow} {f : GoalRow → GoalRow}, db.goals.get? k = some goal →
      GoalEdit goal (f goal) → GoalInv (setGoal db k f) ∧ Guarantee i db (setGoal db k f) := by
    intro k goal f hk hedit
    refine goal_step (g := k) (f := f) i (fun k' => by simp [setGoal]) rfl hI fun goal' hk' => ?_
    rw [hk] at hk'
    obtain rfl := Option.some.inj hk'
    exact hedit
  cases op with
  | createGoal =>
    obtain ⟨goal, goals, hs, _, hins, rfl⟩ := createGoal_ok h
    exact create_step i hs hins hI
  | pause k mode =>
    rcases pauseGoal_ok h with rfl | ⟨goal, hk, hs, rfl⟩
    · exact ⟨hI, .refl i _⟩
    · exact hset hk (.of_open hs rfl fun hf => by cases mode <;> cases hf.1)
  | resume =>
    obtain ⟨goal, hk, hs, rfl⟩ := resumeGoal_ok h
    exact hset hk (.of_open (paused_not_final hs) rfl fun hf => (by cases hf.1))
  | steer k =>
    obtain ⟨goal, events, hk, hs, rfl⟩ := steerGoal_ok h
    refine goal_step (g := k) (f := (·.steer)) i (fun k' => by simp [setGoal]) rfl hI fun goal' hk' => ?_
    rw [hk] at hk'
    obtain rfl := Option.some.inj hk'
    refine .of_open hs rfl fun hf => ?_
    have hstate : goal.state = .terminated := hf.1
    rw [hstate] at hs
    cases hs
  | stop =>
    obtain ⟨goal, hk, hs, rfl⟩ := stopGoal_ok h
    exact hset hk (.of_open hs rfl fun hf => (by cases hf.1))
  | start =>
    rcases startGoal_ok h with rfl | ⟨goal, hk, hs, rfl⟩
    · exact ⟨hI, .refl i _⟩
    · exact hset hk (.of_open (by rw [hs]; rfl) rfl fun hf => (by cases hf.1))
  | terminate =>
    rcases terminateGoal_ok h with rfl | ⟨goal, hk, hs, rfl⟩
    · exact ⟨hI, .refl i _⟩
    · exact hset hk (.of_open hs rfl fun hf => hop (Option.some.inj hf.2))
  | _ => exact hop.elim

/-- The goal has one more iteration, under the next number. -/
structure Begun (g id : String) (goal : GoalRow) (db db' : Db) : Prop where
  row : db.goals.get? g = some goal
  goals : ∀ k, db'.goals.get? k =
    if k = g then some (goal.iterate (goal.iterationCount + 1)) else db.goals.get? k
  fresh : db.iterations.get? id = none
  iterations : ∀ k, db'.iterations.get? k =
    if k = id then some ⟨g, goal.iterationCount + 1, .evaluating, none, none, none⟩ else db.iterations.get? k

theorem begun_of_ok {uuid : String} (h : beginIteration db g uuid = .ok (id, db')) :
    ∃ goal, Begun g id goal db db' := by
  obtain ⟨goal, iterations, events, hg, hins, rfl⟩ := beginIteration_ok h
  refine ⟨goal, hg, fun k => ?_, Table.insert?_fresh hins, fun k => Table.get?_insert hins k⟩
  show (db.goals.modify g _).get? k = _
  rw [Table.get?_modify]
  split
  · subst k
    rw [hg]; rfl
  · rfl

section

variable {goal : GoalRow}

variable {k : String} {it : IterationRow}

theorem Begun.back (h : Begun g id goal db db') (hit : db'.iterations.get? k = some it) :
    (k = id ∧ it = ⟨g, goal.iterationCount + 1, .evaluating, none, none, none⟩) ∨
      (k ≠ id ∧ db.iterations.get? k = some it) := by
  rw [h.iterations] at hit
  by_cases hk : k = id
  · rw [if_pos hk] at hit
    exact Or.inl ⟨hk, (Option.some.inj hit).symm⟩
  · rw [if_neg hk] at hit
    exact Or.inr ⟨hk, hit⟩

theorem Begun.old (h : Begun g id goal db db') (hit : db.iterations.get? k = some it) :
    db'.iterations.get? k = some it := by
  rw [h.iterations, if_neg, hit]
  rintro rfl
  rw [h.fresh] at hit
  cases hit

theorem Begun.below (h : Begun g id goal db db') (hI : GoalInv db) (hit : db.iterations.get? k = some it)
    (hitg : it.goalId = g) : it.sequence ≤ goal.iterationCount := by
  obtain ⟨goal', hgoal', hle, _⟩ := hI.numbered k it hit
  rw [hitg, h.row] at hgoal'
  rw [Option.some.inj hgoal']
  exact hle

theorem Begun.succeeded (h : Begun g id goal db db') {goal' : GoalRow} (hk : db'.goals.get? k = some goal')
    (hs : Success goal') : Succeeded db k ∧ (k ≠ g → db.goals.get? k = some goal') := by
  rw [h.goals] at hk
  by_cases hkg : k = g
  · rw [if_pos hkg] at hk
    rw [← Option.some.inj hk] at hs
    exact ⟨⟨goal, hkg ▸ h.row, hs⟩, fun hne => absurd hkg hne⟩
  · rw [if_neg hkg] at hk
    exact ⟨⟨goal', hk, hs⟩, fun _ => hk⟩

theorem Begun.guarantee (h : Begun g id goal db db') : Guarantee (.engine g) db db' := by
  refine ⟨fun k goal' hk => ?_, fun k hk i it hit => ⟨fun hit' => ?_, h.old⟩, fun k hk goal' hgoal' => ?_,
    fun k _ ⟨goal', hgoal', hs⟩ => (h.succeeded hgoal' hs).1⟩
  · by_cases hkg : k = g
    · subst hkg
      rw [h.row] at hk
      obtain rfl := Option.some.inj hk
      exact ⟨_, (h.goals k).trans (if_pos rfl), fun _ => ⟨rfl, rfl, rfl⟩⟩
    · exact ⟨goal', by rw [h.goals, if_neg hkg]; exact hk, fun _ => ⟨rfl, rfl, rfl⟩⟩
  · rcases h.back hit' with ⟨rfl, rfl⟩ | ⟨_, hit'⟩
    · exact absurd (congrArg Slot.engine hit) hk
    · exact hit'
  · refine ⟨goal', ?_, rfl⟩
    rw [h.goals, if_neg fun e => hk (by rw [e])]
    exact hgoal'

/-- The new iteration is the last one of its goal; before it none was active. -/
theorem Begun.inv (h : Begun g id goal db db') (hI : GoalInv db) (hopen : ¬ Succeeded db g) (idle : Idle g db) :
    GoalInv db' := by
  refine ⟨fun k it hit => ?_, fun k it k' it' hit hit' hgg hss => ?_, fun k it cp hit hcp => ?_,
    fun k goal' hk hs => ?_⟩
  · rw [h.goals]
    rcases h.back hit with ⟨rfl, rfl⟩ | ⟨_, hit⟩
    · exact ⟨_, if_pos rfl, le_refl _, fun _ => rfl⟩
    · by_cases hitg : it.goalId = g
      · refine ⟨_, if_pos hitg, (h.below hI hit hitg).trans (Nat.le_succ _), fun ha => ?_⟩
        rw [idle k it hit hitg] at ha
        cases ha
      · rw [if_neg hitg]
        exact hI.numbered k it hit
  · rcases h.back hit with ⟨rfl, rfl⟩ | ⟨_, hit⟩ <;> rcases h.back hit' with ⟨rfl, rfl⟩ | ⟨_, hit'⟩
    · rfl
    · have := h.below hI hit' hgg.symm
      simp only at hss
      omega
    · have := h.below hI hit hgg
      simp only at hss
      omega
    · exact hI.unique k it k' it' hit hit' hgg hss
  · rcases h.back hit with ⟨rfl, rfl⟩ | ⟨_, hit⟩
    · cases hcp
    · exact hI.versioned k it cp hit hcp
  · obtain ⟨hsucc, hrow⟩ := h.succeeded hk hs
    have hkg : k ≠ g := fun e => hopen (e ▸ hsucc)
    obtain ⟨i, it, cp, hit, hitg, hlast, hrest⟩ := hI.justified k goal' (hrow hkg) hs
    refine ⟨i, it, cp, h.old hit, hitg, fun i' it' hit' hitg' hne => ?_, hrest⟩
    rcases h.back hit' with ⟨rfl, rfl⟩ | ⟨_, hit'⟩
    · exact absurd hitg'.symm hkg
    · exact hlast i' it' hit' hitg' hne

end

theorem begin_step {uuid : String} (h : beginIteration db g uuid = .ok (id, db')) (hI : GoalInv db)
    (hopen : ¬ Succeeded db g) (idle : Idle g db) : GoalInv db' ∧ Guarantee (.engine g) db db' ∧ Own g id db' := by
  obtain ⟨goal, hb⟩ := begun_of_ok h
  refine ⟨hb.inv hI hopen idle, hb.guarantee, fun ⟨goal', hgoal', hs⟩ => hopen (hb.succeeded hgoal' hs).1, _, _,
    (hb.iterations id).trans (if_pos rfl), rfl, (hb.goals g).trans (if_pos rfl), rfl⟩

end

end AgentFabric.Autonomy
