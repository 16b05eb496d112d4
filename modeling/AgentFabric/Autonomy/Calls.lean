import AgentFabric.Autonomy.Engine

/-!
# The calls of an engine

What each phase of the engine may ask, for any condition on calls that admits the calls of that phase.
-/

namespace AgentFabric.Autonomy

open AgentFabric.Lib AgentFabric.Store

abbrev GoalEvent := Lib.Event Slot Call Call.Reply

/-- A question that changes nothing. -/
def Call.query : Call → Prop
  | .transact _ | .store _ => False
  | _ => True

/-- The calls that the collection of dispatched work may make. -/
structure Collects (P : Call → Prop) (g : String) : Prop where
  query : ∀ c, c.query → P c
  settles : ∀ actionId state result error, state ≠ .dispatching →
    P (.transact (.setAction actionId state none result error))
  terminates : ∀ reason detail, reason ≠ .success → P (.transact (.terminate g reason detail))

/-- The calls that the start of a collection may make: an action runs under its handle. -/
structure Attaches (P : Call → Prop) (g : String) : Prop extends Collects P g where
  links : ∀ actionId handle, P (.transact (.setAction actionId .running (some handle) none none))

/-- The calls that the collection of the actions of a set may make. -/
structure CollectsIn (P : Call → Prop) (g : String) (S : String → Prop) : Prop where
  query : ∀ c, c.query → P c
  settles : ∀ actionId state result error, S actionId → state ≠ .dispatching →
    P (.transact (.setAction actionId state none result error))
  terminates : ∀ reason detail, reason ≠ .success → P (.transact (.terminate g reason detail))

/-- The calls that the start of their collection may make. -/
structure AttachesIn (P : Call → Prop) (g : String) (S : String → Prop) : Prop extends CollectsIn P g S where
  links : ∀ actionId handle, S actionId → P (.transact (.setAction actionId .running (some handle) none none))

variable {P : Call → Prop} {g : String} {S : String → Prop}

theorem Collects.within (hP : Collects P g) : CollectsIn P g fun _ => True :=
  ⟨hP.query, fun actionId state result error _ => hP.settles actionId state result error, hP.terminates⟩

theorem Attaches.within (hP : Attaches P g) : AttachesIn P g fun _ => True :=
  ⟨hP.toCollects.within, fun actionId handle _ => hP.links actionId handle⟩

theorem transact_obeys {op : GoalOp} (h : P (.transact op)) : Prog.Obeys P (transact op) :=
  .bind (.ask h) fun _ => .result _

variable {goalId actionId : String}

theorem fetchGoal_obeys (h : P (.getGoal goalId)) : Prog.Obeys P (fetchGoal goalId) :=
  .bind (.ask h) fun _ => .result _

theorem assertOwnership_obeys (h : P .assertOwnership) : Prog.Obeys P assertOwnership := by
  refine .bind (.ask h) fun r => ?_
  split
  · exact .pure _
  · exact .throw _

theorem controlGate_obeys (h : P (.getGoal goalId)) : Prog.Obeys P (controlGate goalId) :=
  .bind (fetchGoal_obeys h) fun _ => .pure _

theorem recordRunning_obeys (hP : AttachesIn P g S) (hS : S actionId) (handle : DispatchHandle) :
    Prog.Obeys P (recordRunning actionId handle) := by
  refine .bind (.ask (hP.links actionId handle hS)) fun r => ?_
  split
  · exact .pure _
  · exact .bind (transact_obeys (hP.settles _ _ _ _ hS (by decide))) fun _ => .pure _

theorem recordDispatch_obeys (hP : AttachesIn P g S) (hS : S actionId) (handle : Except String DispatchHandle) :
    Prog.Obeys P (recordDispatch actionId handle) := by
  cases handle with
  | error => exact .bind (transact_obeys (hP.settles _ _ _ _ hS (by decide))) fun _ => .pure _
  | ok handle =>
    refine .bind (.ask (hP.query _ trivial)) fun owned => ?_
    split
    · exact recordRunning_obeys hP hS handle
    · exact .bind (transact_obeys (hP.settles _ _ _ _ hS (by decide))) fun _ => .pure _

theorem attachActions_within (hP : AttachesIn P g S) (startedNow : List String) : ∀ rows : List (String × ActionRow),
    (∀ e ∈ rows, S e.1) → Prog.Obeys P (attachActions startedNow rows)
  | [], _ => .pure _
  | (actionId, row) :: rest, hS => by
    have ih := attachActions_within hP startedNow rest fun e he => hS e (List.mem_cons_of_mem _ he)
    have hself : S actionId := hS _ List.mem_cons_self
    unfold attachActions
    split
    · exact .bind (transact_obeys (hP.settles _ _ _ _ hself (by decide))) fun _ => ih
    split
    · exact .bind ih fun _ => .pure _
    refine .bind (.ask (hP.query _ trivial)) fun recovered => ?_
    split
    · exact .bind (transact_obeys (hP.settles _ _ _ _ hself (by decide))) fun _ => ih
    refine .bind (recordRunning_obeys hP hself _) fun running => ?_
    split
    · exact .bind ih fun _ => .pure _
    · exact ih

theorem attachActions_obeys (hP : Attaches P g) (startedNow : List String) (rows : List (String × ActionRow)) :
    Prog.Obeys P (attachActions startedNow rows) := attachActions_within hP.within startedNow rows fun _ _ => trivial

/-- What is pending then are running actions. -/
theorem attachActions_yields (startedNow : List String) : ∀ rows : List (String × ActionRow),
    (attachActions startedNow rows).run.Yields fun r => ∀ pending, r = .ok pending →
      ∀ e ∈ pending, ∃ row, (e.1, row) ∈ rows
  | [] => by
    rintro pending h e he
    cases h
    cases he
  | (actionId, row) :: rest => by
    have ih := attachActions_yields startedNow rest
    have htail : (attachActions startedNow rest).run.Yields fun r => ∀ pending, r = .ok pending →
        ∀ e ∈ pending, ∃ row', (e.1, row') ∈ (actionId, row) :: rest :=
      ih.mono fun r h pending hr e he => by
        obtain ⟨row', hmem⟩ := h pending hr e he
        exact ⟨row', List.mem_cons_of_mem _ hmem⟩
    have hcons : ∀ handle : DispatchHandle, (do return (actionId, handle) :: (← attachActions startedNow rest) :
        Engine (List (String × DispatchHandle))).run.Yields fun r => ∀ pending, r = .ok pending →
          ∀ e ∈ pending, ∃ row', (e.1, row') ∈ (actionId, row) :: rest := by
      intro handle
      refine Prog.Yields.bind htail fun r hr => ?_
      cases r with
      | error => exact fun pending h => nomatch h
      | ok others =>
        rintro pending h e he
        cases h
        rcases List.mem_cons.mp he with rfl | he
        · exact ⟨row, List.mem_cons_self⟩
        · exact hr others rfl e he
    unfold attachActions
    split
    · exact Prog.Yields.raising_bind fun _ => htail
    split
    · exact hcons _
    refine Prog.Yields.raising_bind fun recovered => ?_
    split
    · exact Prog.Yields.raising_bind fun _ => htail
    refine Prog.Yields.raising_bind fun running => ?_
    split
    · exact hcons _
    · exact htail

theorem inflightBudgetGuard_obeys (hP : CollectsIn P g S) (goal : GoalRow) :
    Prog.Obeys P (inflightBudgetGuard g goal) := by
  refine .bind (.ask (hP.query _ trivial)) fun now => ?_
  split
  · exact .pure _
  split
  · exact .pure _
  · exact .bind (.ask (hP.query _ trivial)) fun _ => .pure _

theorem inflightLimit_reason (budget : GoalBudget) (observed : BudgetObservation) :
    ∀ reason detail, inflightLimit budget observed = some (reason, detail) → reason ≠ .success := by
  intro reason detail h
  unfold inflightLimit at h
  simp only [Option.or_eq_some_iff] at h
  rcases h with h | ⟨_, h⟩ <;> split at h <;> simp at h <;> simp [← h.2.1]

theorem inflightBudgetGuard_yields (goal : GoalRow) : (inflightBudgetGuard g goal).run.Yields fun r => ∀ limit,
    r = .ok limit → ∀ reason detail, limit = some (reason, detail) → reason ≠ .success := by
  refine Prog.Yields.raising_bind fun now => ?_
  split
  · rintro limit h reason detail rfl
    cases h
    decide
  split
  · rintro limit h reason detail rfl
    cases h
  · refine Prog.Yields.raising_bind fun observed => ?_
    rintro limit h reason detail rfl
    exact inflightLimit_reason _ _ reason detail (Except.ok.inj h)

theorem workGuard_obeys (hP : CollectsIn P g S) (goal : GoalRow) :
    Prog.Obeys P (workGuard g goal) := by
  unfold workGuard
  split
  · exact inflightBudgetGuard_obeys hP goal
  · exact .pure _

theorem workGuard_yields (goal : GoalRow) : (workGuard g goal).run.Yields fun r => ∀ limit,
    r = .ok limit → ∀ reason detail, limit = some (reason, detail) → reason ≠ .success := by
  unfold workGuard
  split
  · exact inflightBudgetGuard_yields goal
  · rintro limit h reason detail rfl
    cases h

theorem requestCancellations_obeys (hP : CollectsIn P g S) (pending : List (String × DispatchHandle)) :
    Prog.Obeys P (requestCancellations pending) :=
  .forM fun _ _ => .bind (.ask (hP.query _ trivial)) fun _ => .pure _

theorem orAbandon_obeys (hP : CollectsIn P g S) {α : Type} (pending : List (String × DispatchHandle)) {p : Engine α}
    (hp : Prog.Obeys P p) : Prog.Obeys P (orAbandon pending p) := by
  refine .bind (.attempt hp) fun r => ?_
  split
  · exact .pure _
  · exact .bind (requestCancellations_obeys hP pending) fun _ => .throw _

theorem cancelPending_obeys (hP : CollectsIn P g S) : ∀ pending : List (String × DispatchHandle),
    (∀ e ∈ pending, S e.1) →
    Prog.Obeys P (cancelPending pending)
  | [], _ => .pure _
  | _ :: rest, hS =>
    .bind (orAbandon_obeys hP rest (transact_obeys (hP.settles _ _ _ _ (hS _ List.mem_cons_self) (by decide)))) fun _ =>
      cancelPending_obeys hP rest fun e he => hS e (List.mem_cons_of_mem _ he)

theorem target_ne_dispatching (result : ActionResult) : ActionResult.target result ≠ .dispatching := by
  unfold ActionResult.target
  split
  · decide
  · split <;> decide

theorem recordOutcome_obeys (hP : CollectsIn P g S) (outcome : String × Except String ActionResult) (hS : S outcome.1) :
    Prog.Obeys P (recordOutcome outcome) := by
  unfold recordOutcome
  split
  · exact transact_obeys (hP.settles _ _ _ _ hS (target_ne_dispatching _))
  · exact transact_obeys (hP.settles _ _ _ _ hS (by decide))

theorem settle_obeys (hP : CollectsIn P g S) : ∀ (outcomes : List (String × Except String ActionResult))
    (pending : List (String × DispatchHandle)), (∀ e ∈ pending, S e.1) → Prog.Obeys P (settle outcomes pending)
  | [], _, _ => .pure _
  | outcome :: rest, pending, hS => by
    unfold settle
    split
    · rename_i hmem
      obtain ⟨e, he, hkey⟩ := List.mem_map.mp (List.contains_iff_mem.mp hmem)
      exact .bind (orAbandon_obeys hP _ (recordOutcome_obeys hP outcome (hkey ▸ hS e he))) fun _ =>
        settle_obeys hP rest _ fun e he => hS e (List.mem_of_mem_filter he)
    · exact settle_obeys hP rest pending hS

theorem settle_yields :
    ∀ (outcomes : List (String × Except String ActionResult)) (pending : List (String × DispatchHandle)),
    (settle outcomes pending).run.Yields fun r => ∀ left, r = .ok left → ∀ e ∈ left, e ∈ pending
  | [], pending => by
    rintro left h e he
    cases h
    exact he
  | outcome :: rest, pending => by
    unfold settle
    split
    · refine Prog.Yields.raising_bind fun _ => (settle_yields rest _).mono fun r h left hr e he => ?_
      exact List.mem_of_mem_filter (h left hr e he)
    · exact settle_yields rest pending

theorem workEnds_obeys (hP : CollectsIn P g S) : Prog.Obeys P (workEnds g) := by
  refine .bind (fetchGoal_obeys (hP.query _ trivial)) fun goal =>
    .bind (assertOwnership_obeys (hP.query _ trivial)) fun _ =>
    .bind_yields (workGuard_obeys hP goal) (workGuard_yields goal) fun limit hlimit => ?_
  split
  · exact .bind (transact_obeys (hP.terminates _ _ (hlimit _ _ rfl))) fun _ => .pure _
  · exact .pure _

theorem collect_within (hP : CollectsIn P g S) : ∀ (polls : Nat) (pending : List (String × DispatchHandle)),
    (∀ e ∈ pending, S e.1) → Prog.Obeys P (collect g polls pending)
  | _, [], _ => by unfold collect; exact .pure _
  | 0, _ :: _, _ => orAbandon_obeys hP _ (.throw _)
  | polls + 1, p :: ps, hS => by
    unfold collect
    refine .bind (.ask (hP.query _ trivial)) fun finished =>
      .bind (orAbandon_obeys hP _ (workEnds_obeys hP)) fun ends => ?_
    split
    · exact .bind (requestCancellations_obeys hP _) fun _ => cancelPending_obeys hP _ hS
    · exact .bind_yields (settle_obeys hP finished _ hS) (settle_yields finished _) fun left hleft =>
        collect_within hP polls left fun e he => hS e (hleft e he)

theorem collect_obeys (hP : Collects P g) (polls : Nat) (pending : List (String × DispatchHandle)) :
    Prog.Obeys P (collect g polls pending) := collect_within hP.within polls pending fun _ _ => trivial

/-! ## The phases before the verification -/

/-- The calls that an engine may make while it advances an iteration up to its verification. -/
structure Advances (P : Call → Prop) (g id : String) : Prop extends Collects P g where
  evaluates : ∀ evaluation expected, P (.transact (.recordEvaluation id evaluation expected))
  plans : ∀ plan expected actionId, P (.transact (.recordPlan id g plan expected actionId))
  interrupts : P (.transact (.interruptForSteer g id))
  ends : ∀ reason detail expected, reason ≠ .success →
    P (.transact (.terminatePhaseIfCurrent g id reason detail expected))
  moves : ∀ state, P (.transact (.setIterationState id state))
  dispatches : ∀ actionId, P (.transact (.setAction actionId .dispatching none none none))

section

variable {id : String}

theorem evaluationPhase_obeys (hP : Advances P g id) : Prog.Obeys P (evaluationPhase g id) := by
  refine .bind (.ask (hP.query _ trivial)) fun r => .bind (.result _) fun iteration =>
    .bind (fetchGoal_obeys (hP.query _ trivial)) fun goal => ?_
  split
  · exact .pure _
  · refine .bind (.ask (hP.query _ trivial)) fun answer => .bind (.result _) fun evaluation =>
      .bind (assertOwnership_obeys (hP.query _ trivial)) fun _ =>
        .bind (transact_obeys (hP.evaluates _ _)) fun recorded => ?_
    split <;> exact .pure _

theorem planPhase_obeys (hP : Advances P g id) (uuid5 : String → String) (evaluation : GoalEvaluation) :
    Prog.Obeys P (planPhase uuid5 g id evaluation) := by
  refine .bind (.ask (hP.query _ trivial)) fun r => .bind (.result _) fun iteration => ?_
  split
  · exact .pure _
  refine .bind (controlGate_obeys (hP.query _ trivial)) fun gate => ?_
  split
  · exact .pure _
  refine .bind (fetchGoal_obeys (hP.query _ trivial)) fun planning => .bind (.ask (hP.query _ trivial)) fun answer =>
    .bind (.result _) fun plan => .bind (assertOwnership_obeys (hP.query _ trivial)) fun _ =>
      .bind (fetchGoal_obeys (hP.query _ trivial)) fun current => ?_
  split
  · exact .bind (transact_obeys hP.interrupts) fun _ => .pure _
  split
  · exact .bind (transact_obeys (hP.ends _ _ _ (by decide))) fun _ => .pure _
  refine .bind (fetchGoal_obeys (hP.query _ trivial)) fun goal => ?_
  split
  · exact .bind (transact_obeys (hP.ends _ _ _ (by decide))) fun _ => .pure _
  · exact transact_obeys (hP.plans _ _ _)

theorem dispatchAction_obeys (hP : AttachesIn P g S)
    (hdispatch : ∀ actionId, S actionId → P (.transact (.setAction actionId .dispatching none none none)))
    {actionId : String} (hS : S actionId) (row : ActionRow) : Prog.Obeys P (dispatchAction actionId row) := by
  refine .bind (transact_obeys (hdispatch actionId hS)) fun _ => ?_
  split <;> exact .bind (.ask (hP.query _ trivial)) fun handle => recordDispatch_obeys hP hS handle

theorem dispatchActions_within (hP : AttachesIn P g S)
    (hdispatch : ∀ actionId, S actionId → P (.transact (.setAction actionId .dispatching none none none))) :
    ∀ rows : List (String × ActionRow), (∀ e ∈ rows, S e.1) → Prog.Obeys P (dispatchActions g rows)
  | [], _ => .pure _
  | (actionId, row) :: rest, hS => by
    have ih := dispatchActions_within hP hdispatch rest fun e he => hS e (List.mem_cons_of_mem _ he)
    unfold dispatchActions
    split
    · exact ih
    refine .bind (controlGate_obeys (hP.query _ trivial)) fun gate => ?_
    split
    · exact .pure _
    exact .bind (assertOwnership_obeys (hP.query _ trivial)) fun _ =>
      .bind (dispatchAction_obeys hP hdispatch (hS _ List.mem_cons_self) row) fun started =>
        .bind ih fun others => .pure _

theorem dispatchAndCollect_obeys (hA : Attaches P g) (hP : Advances P g id) (polls : Nat) :
    Prog.Obeys P (dispatchAndCollect g id polls) := by
  refine .bind (transact_obeys (hP.moves _)) fun _ => .bind (fetchGoal_obeys (hP.query _ trivial)) fun _ =>
    .bind (.ask (hP.query _ trivial)) fun rows =>
    
    .bind (dispatchActions_within hA.within (fun actionId _ => hP.dispatches actionId) rows fun _ _ => trivial)
      fun startedNow => .bind (.ask (hP.query _ trivial)) fun rows => ?_
  dsimp only
  split
  · exact .pure _
  · exact .bind (transact_obeys (hP.moves _)) fun _ => .bind (attachActions_obeys hA startedNow _)
      fun pending => collect_obeys hP.toCollects polls pending

end

/-! ## The verification -/

/-- The calls that an engine may make to obtain a verification. -/
structure Checkpoints (P : Call → Prop) (g id : String) : Prop where
  query : ∀ c, c.query → P c
  current : ∀ expected, P (.transact (.phaseIsCurrent g id expected))
  moves : ∀ state, P (.transact (.setIterationState id state))
  verifies : ∀ verification expected, P (.transact (.recordVerification id verification expected))

/-- The calls that an engine may make to apply one. -/
structure Applies (P : Call → Prop) (g id : String) : Prop extends Checkpoints P g id where
  ends : ∀ reason detail expected, P (.transact (.terminatePhaseIfCurrent g id reason detail expected))
  replans : ∀ verification failures, P (.transact (.completeReplan g id verification failures))

section

variable {id : String}

theorem verificationCheckpoint_obeys (hP : Checkpoints P g id) (results : List ActionResult) (expected : Int) :
    Prog.Obeys P (verificationCheckpoint g id results expected) := by
  refine .bind (.ask (hP.query _ trivial)) fun r => .bind (.result _) fun iteration => ?_
  split
  · refine .bind (fetchGoal_obeys (hP.query _ trivial)) fun goal => ?_
    split
    · exact .bind (transact_obeys (hP.current _)) fun _ => .pure _
    · exact .pure _
  refine .bind (controlGate_obeys (hP.query _ trivial)) fun gate => ?_
  split
  · exact .pure _
  refine .bind (transact_obeys (hP.current _)) fun current => ?_
  split
  · exact .pure _
  refine .bind (transact_obeys (hP.moves _)) fun _ => .bind (fetchGoal_obeys (hP.query _ trivial)) fun goal =>
    .bind (.ask (hP.query _ trivial)) fun answer => .bind (.result _) fun verification =>
      .bind (assertOwnership_obeys (hP.query _ trivial)) fun _ =>
        .bind (transact_obeys (hP.verifies _ _)) fun recorded => ?_
  split <;> exact .pure _

theorem applyVerificationOutcome_obeys (hP : Applies P g id) (verification : GoalVerification) (failures : Nat)
    (expected : Int) :
    Prog.Obeys P (applyVerificationOutcome g id verification failures expected) := by
  unfold applyVerificationOutcome
  split
  · refine .bind (fetchGoal_obeys (hP.query _ trivial)) fun goal => .bind (.ask (hP.query _ trivial)) fun live => ?_
    split
    · exact .pure _
    · exact .bind (transact_obeys (hP.ends _ _ _)) fun _ => .pure _
  split
  · exact .bind (transact_obeys (hP.ends _ _ _)) fun _ => .pure _
  · refine .bind (transact_obeys (hP.current _)) fun current => ?_
    split
    · exact .pure _
    refine .bind (.ask (hP.query _ trivial)) fun r => .bind (.result _) fun iteration => ?_
    dsimp only
    split
    · exact .bind (transact_obeys (hP.replans _ _)) fun _ => transact_obeys (hP.moves _)
    · exact transact_obeys (hP.moves _)

theorem verifyPhase_obeys (hP : Applies P g id) (results : List ActionResult) (failures : Nat) (expected : Int) :
    Prog.Obeys P (verifyPhase g id results failures expected) := by
  refine .bind (verificationCheckpoint_obeys hP.toCheckpoints results expected) fun checkpoint => ?_
  split
  · exact .pure _
  · exact applyVerificationOutcome_obeys hP _ failures _

end

/-! ## The whole engine -/

def GoalOp.ofEngine (g : String) : GoalOp → Prop
  | .createGoal .. | .pause .. | .resume .. | .steer .. | .stop .. => False
  | .start g' _ | .beginIteration g' _ | .recordPlan _ g' _ _ _ | .phaseIsCurrent g' _ _ | .completeReplan g' _ _ _
  | .terminate g' _ _ | .terminatePhaseIfCurrent g' _ _ _ _ | .interruptForSteer g' _ => g' = g
  | .recordEvaluation .. | .recordVerification .. | .setIterationState .. | .setAction .. => True

def Call.ofEngine (g : String) : Call → Prop
  | .transact op => GoalOp.ofEngine g op
  | .store _ => False
  | _ => True

theorem ofEngine_advances (g id : String) : Advances (Call.ofEngine g) g id where
  query c hc := by cases c <;> trivial
  settles _ _ _ _ _ := trivial
  terminates _ _ _ := rfl
  evaluates _ _ := trivial
  plans _ _ _ := rfl
  interrupts := rfl
  ends _ _ _ _ := rfl
  moves _ := trivial
  dispatches _ := trivial

theorem ofEngine_attaches (g : String) : Attaches (Call.ofEngine g) g :=
  ⟨(ofEngine_advances g "").toCollects, fun _ _ => trivial⟩

theorem ofEngine_applies (g id : String) : Applies (Call.ofEngine g) g id where
  query := (ofEngine_advances g id).query
  current _ := rfl
  moves _ := trivial
  verifies _ _ := trivial
  ends _ _ _ := rfl
  replans _ _ := rfl

section

variable {id : String}

theorem workPhase_engine (polls : Nat) : Prog.Obeys (Call.ofEngine g) (workPhase g id polls) := by
  refine .bind (controlGate_obeys trivial) fun gate => ?_
  split
  · exact .pure _
  refine .bind (dispatchAndCollect_obeys (ofEngine_attaches g) (ofEngine_advances g id) polls) fun _ =>
    .bind (assertOwnership_obeys trivial) fun _ =>
    .bind (fetchGoal_obeys trivial) fun goal => ?_
  split
  · exact .pure _
  split
  · exact .bind (transact_obeys trivial) fun _ => .pure _
  refine .bind (.ask trivial) fun actions => ?_
  split
  · exact .pure _
  · exact .bind (fetchGoal_obeys trivial) fun goal => verifyPhase_obeys (ofEngine_applies g id) _ _ _

theorem advanceIteration_engine (uuid5 : String → String) (polls : Nat) :
    Prog.Obeys (Call.ofEngine g) (advanceIteration uuid5 g id polls) := by
  refine .bind (evaluationPhase_obeys (ofEngine_advances g id)) fun r => ?_
  split
  · exact .pure _
  refine .bind (transact_obeys rfl) fun current => ?_
  split
  · exact .pure _
  split
  · exact verifyPhase_obeys (ofEngine_applies g id) _ _ _
  · exact .bind (transact_obeys rfl) fun _ => .pure _
  · exact .throw _
  · refine .bind (fetchGoal_obeys trivial) fun goal => ?_
    split
    · exact .bind (transact_obeys rfl) fun _ => .pure _
    refine .bind (planPhase_obeys (ofEngine_advances g id) uuid5 _) fun planned => ?_
    split
    · exact workPhase_engine polls
    · exact .pure _

end

theorem budgetGuard_obeys (goal : GoalRow) : Prog.Obeys Call.query (budgetGuard g goal) := by
  unfold budgetGuard
  split
  · exact .pure _
  split
  · exact .pure _
  split
  · exact .pure _
  refine .bind (.ask trivial) fun now => ?_
  split
  · exact .pure _
  split
  · exact .pure _
  · exact .bind (.ask trivial) fun _ => .pure _

theorem consumptionLimit_reason (budget : GoalBudget) (observed : BudgetObservation) :
    ∀ reason detail, consumptionLimit budget observed = some (reason, detail) → reason ≠ .success := by
  intro reason detail h
  unfold consumptionLimit at h
  simp only [Option.or_eq_some_iff] at h
  rcases h with h | ⟨_, h⟩ <;> split at h <;> simp at h <;> first | simp [← h.2.1] | simp [← h.1]

theorem budgetGuard_yields (goal : GoalRow) : (budgetGuard g goal).run.Yields fun r => ∀ limit,
    r = .ok limit → ∀ reason detail, limit = some (reason, detail) → reason ≠ .success := by
  have hpure : ∀ {reason : TerminationReason} {detail : String}, reason ≠ .success →
      (pure (some (reason, detail)) : Engine (Option (TerminationReason × String))).run.Yields fun r => ∀ limit,
        r = .ok limit → ∀ reason detail, limit = some (reason, detail) → reason ≠ .success := by
    rintro reason detail hreason limit h reason' detail' rfl
    cases h
    exact hreason
  unfold budgetGuard
  split
  · exact hpure (by decide)
  split
  · exact hpure (by decide)
  split
  · exact hpure (by decide)
  refine Prog.Yields.raising_bind fun now => ?_
  split
  · exact hpure (by decide)
  split
  · rintro limit h reason detail rfl
    cases h
  · refine Prog.Yields.raising_bind fun observed => ?_
    rintro limit h reason detail rfl
    exact consumptionLimit_reason _ _ reason detail (Except.ok.inj h)

theorem ensureStarted_obeys (query : ∀ c, c.query → P c) (starts : ∀ now, P (.transact (.start g now))) :
    Prog.Obeys P (ensureStarted g) := by
  refine .bind (fetchGoal_obeys (query _ trivial)) fun goal => ?_
  split
  · exact .bind (.ask (query _ trivial)) fun now => .bind (transact_obeys (starts now)) fun _ =>
      fetchGoal_obeys (query _ trivial)
  · exact .pure _

variable (uuid5 : String → String) (polls : Nat)

theorem runOnce_engine : Prog.Obeys (Call.ofEngine g) (runOnce uuid5 g polls) := by
  have hquery := (ofEngine_advances g "").query
  refine .bind (assertOwnership_obeys trivial) fun _ => .bind (ensureStarted_obeys hquery fun _ => rfl) fun goal => ?_
  split
  · exact .pure _
  refine .bind (.ask trivial) fun active => ?_
  split
  · exact advanceIteration_engine uuid5 polls
  refine .bind ((budgetGuard_obeys goal).mono hquery) fun limit => ?_
  split
  · exact transact_obeys rfl
  · exact .bind (.ask trivial) fun uuid => .bind (transact_obeys rfl) fun id => advanceIteration_engine uuid5 polls

theorem run_engine : ∀ rounds : Nat, Prog.Obeys (Call.ofEngine g) (run uuid5 g polls rounds)
  | 0 => .pure _
  | rounds + 1 => by
    unfold run
    refine .bind (fetchGoal_obeys trivial) fun goal => ?_
    split
    · exact .pure _
    · exact .bind (runOnce_engine uuid5 polls) fun _ => run_engine rounds

/-! ## The other clients -/

/-- The human controls, and the operations of the store that are not about goals. -/
def Call.ofClient : Call → Prop
  | .transact (.createGoal ..) | .transact (.pause ..) | .transact (.resume ..) | .transact (.steer ..)
  | .transact (.stop ..) => True
  | .store op => op.writesGoals = false
  | _ => False

theorem control_client (request : Request) : Prog.Obeys Call.ofClient (control request) := by
  cases request with
  | store op other => exact .bind (.ask other) fun _ => .pure _
  | engine => exact .pure _
  | _ => exact transact_obeys trivial

end AgentFabric.Autonomy
