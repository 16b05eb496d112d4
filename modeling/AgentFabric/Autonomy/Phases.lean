import AgentFabric.Autonomy.Success
import AgentFabric.Autonomy.Iterations

/-!
# The phases of the engine

The engine of a goal makes sure of `Permits` before each of its transactions, whatever runs between its calls.
-/

namespace AgentFabric.Autonomy

open AgentFabric.Lib AgentFabric.Store

abbrev World := Traced Slot Db Call Call.Reply

/-! ## Licensed calls -/

/-- The calls that a slot may make: the other clients send controls and use the rest of the store, an engine makes the
transactions that it made sure of. -/
def Licensed (i : Slot) (db : Db) (c : Call) : Prop :=
  c.ofClient ∨ c.query ∨ ∃ g op, i = .engine g ∧ c = .transact op ∧ Permits g db op

section

variable {dg : Digests} {db db' : Db} {g id : String}

/-- A client leaves iterations and actions alone. -/
theorem client_goals {c : Call} (hc : c.ofClient) (env : Environment) :
    GoalsCounted db (act dg db env c).2 ∧ (act dg db env c).2.iterations = db.iterations ∧
      (act dg db env c).2.actions = db.actions := by
  have hrefl : GoalsCounted db db :=
    ⟨fun _ goal hk => ⟨goal, hk, .refl goal⟩, fun _ goal hk => Or.inl ⟨goal, hk, .refl goal⟩⟩
  cases c with
  | transact op =>
    refine commit_step (P :=
      fun _ db' => GoalsCounted db db' ∧ db'.iterations = db.iterations ∧ db'.actions = db.actions)
      (fun r db' h => uncounted_goals ?_ h) fun _ => ⟨hrefl, rfl, rfl⟩
    cases op <;> trivial
  | store =>
    refine commit_step (P :=
      fun _ db' => GoalsCounted db db' ∧ db'.iterations = db.iterations ∧ db'.actions = db.actions)
      (fun r db' h => ?_) fun _ => ⟨hrefl, rfl, rfl⟩
    have hframe := exec_frame h
    have hgoals := hframe.goals hc
    exact ⟨⟨fun k goal hk => hrefl.forth k goal hk |>.imp fun goal' hg => ⟨hgoals ▸ hg.1, hg.2⟩,
      fun k goal hk => hrefl.back k goal (hgoals ▸ hk)⟩, hframe.iterations hc, hframe.actions hc⟩
  | _ => exact hc.elim

/-- A licensed call keeps the agenda and leaves the goals of other engines alone. -/
theorem licensed_step {i : Slot} {c : Call} (hc : Licensed i db c) (env : Environment) (hA : Agenda db) :
    Agenda (act dg db env c).2 ∧ ∀ k, i ≠ .engine k → Untouched k db (act dg db env c).2 := by
  rcases hc with hc | hc | ⟨k, op, rfl, rfl, hop⟩
  · obtain ⟨hgoals, hi, ha⟩ := @client_goals dg _ _ hc env
    obtain ⟨hA', hut⟩ := hA.counted hgoals hi ha
    exact ⟨hA', fun k _ => hut k⟩
  · rw [act_query hc]
    exact ⟨hA, fun k _ => .refl k db⟩
  · refine commit_step (P := fun _ db' => Agenda db' ∧ ∀ k', Slot.engine k ≠ .engine k' → Untouched k' db db')
      (fun r db' h => ?_) fun _ => ⟨hA, fun k' _ => .refl k' db⟩
    obtain ⟨hA', hut⟩ := permitted_step hop h hA
    exact ⟨hA', fun k' hk => hut k' fun e => hk (by rw [e])⟩

/-- A step of a slot: a licensed call. -/
def Rules (dg : Digests) (i : Slot) (w w' : World) : Prop :=
  ∃ c env, Licensed i w.state c ∧ w' = ((machine dg).traced.act i w env c).2

/-! ## What an engine keeps knowing -/

/-- The steps of the other slots keep the assertion. -/
def Steady (g : String) (φ : Db → Prop) : Prop :=
  ∀ db db', Agenda db → Agenda db' → Untouched g db db' → φ db → φ db'

theorem Steady.stable {φ : Db → Prop} (h : Steady g φ) :
    Stable (fun w : World => Agenda w.state) (Rules dg) (.engine g) fun w => φ w.state := by
  rintro j w w' hj hA hA' ⟨c, env, hc, rfl⟩ hφ
  exact h _ _ hA hA' ((licensed_step hc env hA).2 g hj) hφ

theorem Steady.true : Steady g fun _ => True := fun _ _ _ _ _ _ => trivial

theorem Steady.const (p : Prop) : Steady g fun _ => p := fun _ _ _ _ _ h => h

theorem Steady.and {φ ψ : Db → Prop} (hφ : Steady g φ) (hψ : Steady g ψ) : Steady g fun db => φ db ∧ ψ db :=
  fun db db' hA hA' hut h => ⟨hφ db db' hA hA' hut h.1, hψ db db' hA hA' hut h.2⟩

theorem Steady.forall {α : Sort*} {φ : α → Db → Prop} (h : ∀ a, Steady g (φ a)) : Steady g fun db => ∀ a, φ a db :=
  fun db db' hA hA' hut hall a => h a db db' hA hA' hut (hall a)

theorem Steady.imp (p : Prop) {φ : Db → Prop} (h : Steady g φ) : Steady g fun db => p → φ db :=
  fun db db' hA hA' hut hp hq => h db db' hA hA' hut (hp hq)

theorem Steady.current (g id : String) (P : IterationRow → Prop) : Steady g (Current g id P) := by
  rintro db db' _ _ hut ⟨it, hit, hg, hrest⟩
  exact ⟨it, (hut.iterations id it hg).mpr hit, hg, hrest⟩

theorem Steady.idle (g : String) : Steady g (Idle g) :=
  fun _ _ _ _ hut h id it hit hg => h id it ((hut.iterations id it hg).mp hit) hg

theorem Steady.member (g id actionId : String) : Steady g (Member g id actionId) := by
  rintro db db' _ _ hut ⟨a, ha, hid, hg⟩
  exact ⟨a, (hut.actions actionId a hg).mpr ha, hid, hg⟩

theorem Steady.ended (g : String) : Steady g (Ended g) := by
  rintro db db' _ _ hut ⟨goal, hgoal, hfinal⟩
  obtain ⟨goal', hgoal', _, _, _, _, _, hs⟩ := hut.goal goal hgoal
  exact ⟨goal', hgoal', hs hfinal⟩

/-- The goal has the budgets and the counters that were read. -/
def Reads (g : String) (goal : GoalRow) (db : Db) : Prop :=
  ∃ goal', db.goals.get? g = some goal' ∧ goal'.budgets = goal.budgets ∧ goal'.iterationCount = goal.iterationCount ∧
    goal'.taskCount = goal.taskCount ∧ goal'.noProgressCount = goal.noProgressCount

theorem Steady.reads (g : String) (goal : GoalRow) : Steady g (Reads g goal) := by
  rintro db db' _ _ hut ⟨goal', hgoal', hb, hi, ht, hn⟩
  obtain ⟨goal'', hgoal'', hb', hi', ht', hn', _, _⟩ := hut.goal goal' hgoal'
  exact ⟨goal'', hgoal'', hb'.trans hb, hi'.trans hi, ht'.trans ht, hn'.trans hn⟩

/-- The engine's iteration, whose actions all have an outcome, so many of them a failure. -/
def Finished (g id : String) (P : IterationRow → Prop) (failures : Nat) (db : Db) : Prop :=
  Current g id P db ∧ Settled id db ∧ failures = failuresOf db id

theorem Steady.finished (g id : String) (P : IterationRow → Prop) (failures : Nat) :
    Steady g (Finished g id P failures) := by
  rintro db db' hA hA' hut ⟨hcurrent, hsettled, hfailures⟩
  have hown := hcurrent
  obtain ⟨it, hit, hg, _⟩ := hown
  exact ⟨Steady.current g id P db db' hA hA' hut hcurrent, (hut.settled hA hA' hit hg).mpr hsettled,
    hfailures.trans (hut.failures hA hA' hit hg).symm⟩

end

/-! ## Outlines of the engine's parts -/

/-- From `φ`, the part makes licensed calls only, and what it returns comes with `Q`. -/
abbrev Phase (dg : Digests) (g : String) {α : Type} (φ : Db → Prop) (p : Engine α) (Q : α → Db → Prop) : Prop :=
  Outline (machine dg).traced (fun w : World => Agenda w.state) (Rules dg) (.engine g) (fun w => φ w.state) p.run
    (onOk fun r w => Q r w.state)

section

variable {dg : Digests} {g id : String} {α β : Type} {φ ψ : Db → Prop}

variable {p : Engine α} {Q : α → Db → Prop}

/-- Two phases in sequence. -/
theorem Phase.bind {f : α → Engine β} {Q' : β → Db → Prop} (hp : Phase dg g φ p Q)
    (hf : ∀ a, Phase dg g (Q a) (f a) Q') : Phase dg g φ (p >>= f) Q' := Outline.raising_bind hp hf

theorem Phase.pre (hp : Phase dg g ψ p Q) (h : ∀ db, Agenda db → φ db → ψ db) :
    Phase dg g φ p Q := Outline.weaken hp fun w hA hφ => h w.state hA hφ

theorem Phase.pure {a : α} (h : ∀ db, Agenda db → φ db → Q a db) :
    Phase dg g φ (Pure.pure a : Engine α) Q := fun w hA hφ => h w.state hA hφ

theorem Phase.throw {e : Raised} : Phase dg g φ (MonadExcept.throw e : Engine α) Q :=
  fun _ _ _ => trivial

theorem Phase.result {x : Except Raised α} (h : ∀ a db, x = .ok a → φ db → Q a db) :
    Phase dg g φ (Prog.result x) Q := Outline.result fun a w hx _ hφ => h a w.state hx hφ

/-- A licensed call, with what holds of its answer. -/
theorem Phase.ask {c : Call} {Q : c.Reply → Db → Prop} (hst : ∀ r, Steady g (Q r))
    (hlicensed : ∀ db, Agenda db → φ db → Licensed (.engine g) db c)
    (hpost : ∀ db env, Agenda db → φ db → Q (act dg db env c).1 (act dg db env c).2) :
    Phase dg g φ (Autonomy.ask c) Q :=
  Outline.ask (fun r => (hst r).stable) fun w env hA hφ => by
    have hc := hlicensed w.state hA hφ
    exact ⟨(licensed_step hc env hA).1, ⟨c, env, hc, rfl⟩, hpost w.state env hA hφ⟩

theorem Phase.read {c : Call} {Q : c.Reply → Db → Prop} (hc : c.query) (hst : ∀ r, Steady g (Q r))
    (hpost : ∀ db env, Agenda db → φ db → Q (act dg db env c).1 db) : Phase dg g φ (Autonomy.ask c) Q :=
  Phase.ask hst (fun _ _ _ => Or.inr (Or.inl hc)) fun db env hA hφ => by
    have hpost := hpost db env hA hφ
    rw [act_query hc]
    exact hpost

/-- A transaction that is permitted. -/
theorem Phase.transact {op : GoalOp} {Q : op.Reply → Db → Prop} (hst : ∀ r, Steady g (Q r))
    (hop : ∀ db, Agenda db → φ db → Permits g db op)
    (hpost : ∀ db r db', Agenda db → φ db → execGoal op db = .ok (r, db') → Q r db') :
    Phase dg g φ (Autonomy.transact op) Q := by
  refine Phase.bind (Q := fun r db => ∀ a, r = .ok a → Q a db) (Phase.ask (fun r => .forall fun a => .imp _ (hst a))
    (fun db hA hφ => Or.inr (Or.inr ⟨g, op, rfl, rfl, hop db hA hφ⟩)) fun db env hA hφ => ?_) fun r => ?_
  · exact commit_step (P := fun r db' => ∀ a, r = .ok a → Q a db')
      (fun a db' h a' ha => Except.ok.inj ha ▸ hpost db a db' hA hφ h)
      fun e a ha => nomatch ha
  · refine Phase.result fun a db hx h => h a ?_
    cases r with
    | ok =>
      cases hx
      rfl
    | error => cases hx

/-- A program of calls that each keep the assertion. -/
theorem Phase.within {P : Call → Prop} (hst : Steady g φ) (hp : Prog.Obeys P p)
    (step : ∀ c, P c → c.query ∨ ∃ op, c = .transact op ∧ ∀ db, Agenda db → φ db →
      Permits g db op ∧ ∀ r db', execGoal op db = .ok (r, db') → φ db') : Phase dg g φ p fun _ => φ := by
  refine Outline.keep (φ := fun w : World => φ w.state) hst.stable hp fun c w env hc hA hφ => ?_
  rcases step c hc with hquery | ⟨op, rfl, hop⟩
  · have hlicensed : Licensed (.engine g) w.state c := Or.inr (Or.inl hquery)
    refine ⟨(licensed_step hlicensed env hA).1, ⟨c, env, hlicensed, rfl⟩, ?_⟩
    show φ (act dg w.state env c).2
    rw [act_query hquery]
    exact hφ
  · obtain ⟨hpermits, hkept⟩ := hop w.state hA hφ
    have hlicensed : Licensed (.engine g) w.state (.transact op) := Or.inr (Or.inr ⟨g, op, rfl, rfl, hpermits⟩)
    have hA' : Agenda (act dg w.state env (.transact op)).2 := (licensed_step hlicensed env hA).1
    exact ⟨hA', ⟨_, env, hlicensed, rfl⟩, commit_step (P := fun _ db' => φ db') (fun r db' h => hkept r db' h) fun _ =>
      hφ⟩

theorem Phase.query (hst : Steady g φ) (hp : Prog.Obeys Call.query p) : Phase dg g φ p fun _ => φ :=
  Phase.within hst hp fun _ hc => Or.inl hc

theorem Phase.yields {Q' : α → Prop} (hp : Phase dg g φ p Q) (hq : p.run.Yields fun r => ∀ a, r = .ok a → Q' a) :
    Phase dg g φ p fun a db => Q a db ∧ Q' a := by
  refine (Outline.yields hp hq).post fun r w h => ?_
  cases r with
  | ok a => exact ⟨h.1, h.2 a rfl⟩
  | error => trivial

/-- What was read of the goal lasts. -/
theorem fetchGoal_phase (hst : Steady g φ) : Phase dg g φ (fetchGoal g)
    fun goal db => φ db ∧ Reads g goal db ∧ (goal.state.final = true → Ended g db) := by
  refine Phase.bind (Q :=
    fun r db => φ db ∧ ∀ goal, r = .ok goal → Reads g goal db ∧ (goal.state.final = true → Ended g db))
    (Phase.read trivial (fun r => hst.and (.forall fun goal => .imp _ ((Steady.reads g goal).and (.imp _ (.ended g)))))
      fun db env hA hφ => ⟨hφ, fun goal hr => ?_⟩) fun r => Phase.result fun goal db hx h => ?_
  · have hgoal : db.goals.get? g = some goal := getGoal_eq_ok.mp hr
    exact ⟨⟨goal, hgoal, rfl, rfl, rfl, rfl⟩, fun hf => ⟨goal, hgoal, hf⟩⟩
  · cases r with
    | ok =>
      cases hx
      exact ⟨h.1, h.2 goal rfl⟩
    | error => cases hx

theorem getIteration_bind {P : IterationRow → Prop} {f : IterationRow → Engine β} {Q : β → Db → Prop} (hst : Steady g ψ)
    (hf : ∀ it, P it → Phase dg g (fun db => Current g id (fun it' => it' = it) db ∧ ψ db) (f it) Q) :
    Phase dg g (fun db => Current g id P db ∧ ψ db)
      (do let it ← answered (← Autonomy.ask (.getIteration id)); f it) Q := by
  refine Phase.bind (Q := fun r db => ψ db ∧ ∀ it, r = .ok it → Current g id (fun it' => it' = it) db ∧ P it)
    (Phase.read trivial (fun r => hst.and (.forall fun it => .imp _ ((Steady.current g id _).and (.const _))))
      fun db env hA hφ => ⟨hφ.2, fun it hr => ?_⟩) fun r => Phase.bind (Phase.result
        (Q := fun it db => (Current g id (fun it' => it' = it) db ∧ ψ db) ∧ P it) fun it db hx h => ?_)
          fun it => Outline.of_const fun hP => hf it hP
  · have hrow : db.iterations.get? id = some it := orRaise_eq_ok.mp hr
    obtain ⟨it', hit', hg, hactive, hP⟩ := hφ.1
    rw [hrow] at hit'
    obtain rfl := Option.some.inj hit'
    exact ⟨⟨it, hrow, hg, hactive, rfl⟩, hP⟩
  · cases r with
    | ok =>
      cases hx
      exact ⟨⟨(h.2 it rfl).1, h.1⟩, (h.2 it rfl).2⟩
    | error => cases hx

/-- The phase check keeps the assertion. -/
theorem phaseIsCurrent_phase {P : IterationRow → Prop} {expected : Int} (hst : Steady g φ)
    (hcurrent : ∀ db, φ db → Current g id P db) :
    Phase dg g φ (Autonomy.transact (.phaseIsCurrent g id expected)) fun b db => b = true → φ db := by
  refine Phase.transact (fun r => .imp _ hst) (fun db _ hφ => ⟨rfl, (hcurrent db hφ).mono fun _ _ => trivial⟩)
    fun db r db' _ hφ h hr => ?_
  rcases phaseIsCurrent_ok h with ⟨hf, _⟩ | ⟨_, rfl⟩
  · rw [hf] at hr
    cases hr
  · exact hφ

theorem Current.update {db db' : Db} {P Q : IterationRow → Prop} {u : IterationRow → IterationRow}
    (h : Current g id P db) (hi : db'.iterations = db.iterations.modify id u)
    (hu : ∀ it, P it → (u it).goalId = it.goalId ∧ (it.state.active = true → (u it).state.active = true) ∧ Q (u it)) :
    Current g id Q db' := by
  obtain ⟨it, hit, hg, hactive, hP⟩ := h
  obtain ⟨hgoal, hs, hQ⟩ := hu it hP
  exact ⟨u it, by rw [hi, Table.get?_modify_self, hit]; rfl, hgoal.trans hg, hs hactive, hQ⟩

theorem Finished.update {db db' : Db} {P Q : IterationRow → Prop} {u : IterationRow → IterationRow} {failures : Nat}
    (h : Finished g id P failures db) (hi : db'.iterations = db.iterations.modify id u) (ha : db'.actions = db.actions)
    (hu : ∀ it, P it → (u it).goalId = it.goalId ∧ (it.state.active = true → (u it).state.active = true) ∧ Q (u it)) :
    Finished g id Q failures db' := by
  obtain ⟨hcurrent, hsettled, hfailures⟩ := h
  exact ⟨hcurrent.update hi hu, by
    unfold Settled; rw [ha]; exact hsettled, by unfold failuresOf; rw [ha]; exact hfailures⟩

end

/-! ## The verification -/

section

variable {dg : Digests} {g id : String} {failures : Nat}

/-- There is something to verify, and its verification is on record. -/
def Verified (it : IterationRow) : Prop := it.verification.isSome = true ∧ Prepared it

/-- A verification that is returned is on record. -/
theorem verificationCheckpoint_phase (results : List ActionResult) (expected : Int) :
    Phase dg g (Finished g id Prepared failures) (verificationCheckpoint g id results expected)
      fun r db => r.isSome = true → Finished g id Verified failures db := by
  have hst := Steady.finished g id Prepared failures
  have hnone : ∀ {φ : Db → Prop}, Phase dg g φ (pure none : Engine (Option (GoalVerification × Int)))
      fun r db => r.isSome = true → Finished g id Verified failures db := Phase.pure nofun
  unfold verificationCheckpoint
  refine (getIteration_bind hst fun it hprepared => ?_).pre fun db hA hφ => ⟨hφ.1, hφ⟩
  have hstrow := (Steady.current g id fun it' => it' = it).and hst
  split
  · rename_i persisted hv
    refine Phase.bind (fetchGoal_phase hstrow) fun goal => ?_
    split
    · exact (Phase.bind (phaseIsCurrent_phase hstrow fun db hφ => hφ.1) fun _ => hnone).pre fun db hA hφ => hφ.1
    · refine Phase.pure fun db hA hφ _ => ⟨hφ.1.1.mono ?_, hφ.1.2.2⟩
      rintro it' rfl
      exact ⟨by rw [hv]; rfl, hprepared⟩
  · rename_i hv
    refine Phase.bind (Phase.query hstrow (controlGate_obeys trivial)) fun gate => ?_
    split
    · exact hnone
    refine Phase.bind (phaseIsCurrent_phase hstrow fun db hφ => hφ.1) fun current => ?_
    split
    · exact hnone
    rename_i hcurrent
    refine Phase.bind (Q := fun _ => Finished g id Prepared failures) (Phase.transact (fun _ => hst) (fun db _ hφ => ?_)
      fun db r db' _ hφ h => ?_) fun _ => ?_
    · obtain ⟨hrow, hfinished⟩ := hφ (by simpa using hcurrent)
      exact ⟨hrow.mono fun it' e => by rw [e]; exact ⟨hv, hprepared⟩, hfinished.2.1⟩
    · cases h
      exact (hφ (by simpa using hcurrent)).2.update rfl rfl fun it' hp => ⟨rfl, fun _ => rfl, hp⟩
    refine Phase.bind (Phase.query hst (fetchGoal_obeys trivial)) fun goal =>
      Phase.bind (Phase.query hst (.ask trivial)) fun answer =>
        Phase.bind (Phase.query hst (.result _)) fun verification =>
        Phase.bind (Phase.query hst (assertOwnership_obeys trivial)) fun _ =>
          Phase.bind (Q := fun b db => b = true → Finished g id Verified failures db) (Phase.transact
            (fun _ => .imp _ (.finished g id Verified failures)) (fun db _ hφ => ⟨hφ.1, hφ.2.1⟩)
              fun db r db' _ hφ h hr => ?_) fun recorded => ?_
    · rcases recordGoalVerification_ok h with ⟨hb, _⟩ | ⟨_, rfl⟩
      · rw [hb] at hr
        cases hr
      · exact hφ.update rfl rfl fun it' hp => ⟨rfl, fun hs => hs, rfl, hp⟩
    · split
      · exact hnone
      · rename_i hrec
        exact Phase.pure fun db hA hφ _ => hφ (by simpa using hrec)

/-- A goal may be ended when its iteration is settled. -/
theorem terminatePhase_phase {φ : Db → Prop} {P : IterationRow → Prop} {reason : TerminationReason} {detail : String}
    {expected : Int} (hcurrent : ∀ db, φ db → Current g id P db) (hsettled : ∀ db, φ db → Settled id db) :
    Phase dg g φ (transact (.terminatePhaseIfCurrent g id reason detail expected)) fun _ _ => True :=
  Phase.transact (fun _ => .true) (fun db _ hφ => ⟨rfl, (hcurrent db hφ).mono fun _ _ => trivial, hsettled db hφ⟩)
    fun _ _ _ _ _ _ => trivial

/-- The outcome of a recorded verification may be applied. -/
theorem applyVerificationOutcome_phase (verification : GoalVerification) (expected : Int) :
    Phase dg g (Finished g id Verified failures) (applyVerificationOutcome g id verification failures expected)
      fun _ _ => True := by
  have hst := Steady.finished g id Verified failures
  have hend : ∀ {reason detail expected}, Phase dg g (Finished g id Verified failures)
      (transact (.terminatePhaseIfCurrent g id reason detail expected)) fun _ _ => True :=
    terminatePhase_phase (fun db hφ => hφ.1) fun db hφ => hφ.2.1
  have hclose : Phase dg g (Finished g id (fun it => it.state = .replanning) failures)
      (transact (.setIterationState id .completed)) fun _ _ => True :=
    Phase.transact (fun _ => .true) (fun db _ hφ => ⟨hφ.1, hφ.2.1⟩) fun _ _ _ _ _ _ => trivial
  unfold applyVerificationOutcome
  split
  · refine Phase.bind (Phase.query hst (fetchGoal_obeys trivial)) fun goal =>
      Phase.bind (Phase.query hst (.ask trivial)) fun live => ?_
    split
    · exact Phase.pure fun _ _ _ => trivial
    · exact Phase.bind hend fun _ => Phase.pure fun _ _ _ => trivial
  split
  · exact Phase.bind hend fun _ => Phase.pure fun _ _ _ => trivial
  refine Phase.bind (phaseIsCurrent_phase hst fun db hφ => hφ.1) fun current => ?_
  split
  · exact Phase.pure fun _ _ _ => trivial
  rename_i hcurrent
  refine (getIteration_bind hst fun it hverified => ?_).pre fun db hA hφ =>
    ⟨(hφ (by simpa using hcurrent)).1, hφ (by simpa using hcurrent)⟩
  dsimp only
  split
  · rename_i hstate
    refine Phase.bind (Q := fun _ => Finished g id (fun it => it.state = .replanning) failures)
      (Phase.transact (fun _ => .finished _ _ _ _) (fun db _ hφ => ⟨rfl, hφ.2.2.2, hφ.2.2.1, hφ.1.mono ?_⟩)
        fun db r db' _ hφ h => ?_) fun _ => hclose
    · rintro it' rfl
      exact ⟨hstate, hverified⟩
    · obtain rfl := completeReplan_ok h
      exact hφ.2.update rfl rfl fun it' _ => ⟨rfl, fun _ => rfl, rfl⟩
  · rename_i hstate
    refine hclose.pre fun db hA hφ => ⟨hφ.1.mono ?_, hφ.2.2⟩
    rintro it' rfl
    simpa using hstate

/-- A finished iteration may be verified. -/
theorem verifyPhase_phase (results : List ActionResult) (expected : Int) :
    Phase dg g (Finished g id Prepared failures) (verifyPhase g id results failures expected) fun _ _ => True := by
  refine Phase.bind (verificationCheckpoint_phase results expected) fun r => ?_
  split
  · exact Phase.pure fun _ _ _ => trivial
  · exact (applyVerificationOutcome_phase _ _).pre fun db hA hφ => hφ rfl

end

/-! ## The work -/

/-- The calls that hand out and collect the actions of a set. -/
def Call.gathers (g : String) (S : String → Prop) : Call → Prop
  | .transact (.setAction actionId _ _ _ _) => S actionId
  | .transact (.terminate g' _ _) => g' = g
  | .transact _ | .store _ => False
  | _ => True

theorem gathers_attaches (g : String) (S : String → Prop) : AttachesIn (Call.gathers g S) g S where
  query c hc := by cases c <;> trivial
  settles _ _ _ _ hS _ := hS
  terminates _ _ _ := rfl
  links _ _ hS := hS

section

variable {dg : Digests} {g id : String}

/-- The engine hands out and collects actions of its working iteration. -/
def Gathering (g id : String) (S : String → Prop) (db : Db) : Prop :=
  Current g id Working db ∧ ∀ actionId, S actionId → Member g id actionId db

theorem Steady.gathering (g id : String) (S : String → Prop) : Steady g (Gathering g id S) :=
  (Steady.current g id Working).and (.forall fun actionId => .imp _ (.member g id actionId))

/-- Programs that gather keep the iteration gathering. -/
theorem gather_phase {α : Type} {S : String → Prop} {p : Engine α} (hp : Prog.Obeys (Call.gathers g S) p) :
    Phase dg g (Gathering g id S) p fun _ => Gathering g id S := by
  refine Phase.within (Steady.gathering g id S) hp fun c hc => ?_
  cases c with
  | transact op =>
    refine Or.inr ⟨op, rfl, fun db hA hφ => ?_⟩
    obtain ⟨hcurrent, hmember⟩ := hφ
    cases op with
    | setAction actionId state handle result error =>
      refine ⟨⟨id, hmember actionId hc, hcurrent⟩, fun r db' h => ?_⟩
      obtain rfl := setAction_ok h
      refine ⟨hcurrent, fun k hk => ?_⟩
      obtain ⟨a, ha, hid, hg⟩ := hmember k hk
      by_cases hself : k = actionId
      · subst hself
        exact ⟨a.set state handle result error, by rw [Table.get?_modify_self, ha]; rfl, hid, hg⟩
      · exact ⟨a, by rw [Table.get?_modify_ne _ _ hself]; exact ha, hid, hg⟩
    | terminate =>
      refine ⟨hc, fun r db' h => ?_⟩
      rcases terminateGoal_ok h with rfl | ⟨_, _, _, rfl⟩ <;> exact ⟨hcurrent, hmember⟩
    | _ => exact hc.elim
  | store => exact hc.elim
  | _ => exact Or.inl trivial

/-- The listed actions belong to the iteration; once all have an outcome, the failures are counted from them. -/
theorem listActions_phase {P : IterationRow → Prop} : Phase dg g (Current g id P) (ask (.listActions id)) fun rows db =>
    Current g id P db ∧ (∀ actionId, (∃ row, (actionId, row) ∈ rows) → Member g id actionId db) ∧
      ((rows.any fun e => ActionState.unfinished e.2.state) = false →
        Finished g id P ((rows.map fun e => resultFromAction e.2).countP fun r => !r.succeeded) db) := by
  refine Phase.read trivial
    (fun rows => (Steady.current g id P).and ((Steady.forall fun _ => .imp _ (.member _ _ _)).and
    (.imp _ (.finished _ _ _ _)))) fun db env hA hcurrent => ?_
  show Current g id P db ∧ (∀ actionId, (∃ row, (actionId, row) ∈ listActions db id) → Member g id actionId db) ∧
    (((listActions db id).any fun e => ActionState.unfinished e.2.state) = false → Finished g id P
      (((listActions db id).map fun e => resultFromAction e.2).countP fun r => !r.succeeded) db)
  have hperm := List.mergeSort_perm (db.actions.rows.filter fun e => decide (e.2.iterationId = id)) fun a b =>
    decide (a.2.ordinal ≤ b.2.ordinal)
  have hmem : ∀ {k a}, (k, a) ∈ listActions db id ↔ db.actions.get? k = some a ∧ a.iterationId = id := by
    intro k a
    refine hperm.mem_iff.trans ?_
    rw [List.mem_filter, Table.mem_rows, decide_eq_true_eq]
  have hown := hcurrent
  obtain ⟨it, hit, hg, _⟩ := hown
  refine ⟨hcurrent, fun actionId ⟨row, hrow⟩ => ?_, fun hany => ⟨hcurrent, fun k a ha hid => ?_, ?_⟩⟩
  · obtain ⟨ha, hid⟩ := hmem.mp hrow
    exact ⟨row, ha, hid, hA.action_goal hit hg ha hid⟩
  · exact List.any_eq_false.mp hany (k, a) (hmem.mpr ⟨ha, hid⟩) |> fun h => by simpa using h
  · rw [List.countP_map]
    refine (hperm.countP_eq _).trans ?_
    rw [List.countP_filter]
    unfold failuresOf
    refine List.countP_congr fun e _ => ?_
    simp only [Function.comp_apply, Bool.and_comm]

/-- With a plan, actions may be dispatched and collected. -/
theorem dispatchAndCollect_phase (polls : Nat) :
    Phase dg g (Current g id fun it => it.plan.isSome = true) (dispatchAndCollect g id polls)
      fun _ => Current g id Working := by
  have hst := Steady.current g id Working
  refine Phase.bind (Q := fun _ => Current g id Working) (Phase.transact (fun _ => hst) (fun db _ hφ => hφ)
    fun db r db' _ hφ h => ?_) fun _ => ?_
  · cases h
    exact hφ.update rfl fun it hp => ⟨rfl, fun _ => rfl, hp, Or.inl rfl⟩
  refine Phase.bind (Phase.query hst (fetchGoal_obeys trivial)) fun _ => Phase.bind listActions_phase fun rows => ?_
  refine Phase.bind ((gather_phase (S := fun k => ∃ row, (k, row) ∈ rows) ?_).pre fun db _ hφ => ⟨hφ.1, hφ.2.1⟩)
    fun startedNow => ?_
  · exact dispatchActions_within (gathers_attaches g _) (fun _ hS => hS) rows fun e he => ⟨e.2, he⟩
  refine Phase.bind (listActions_phase.pre fun db _ hφ => hφ.1) fun rows => ?_
  dsimp only
  split
  · exact Phase.pure fun db _ hφ => hφ.1
  have hgather := Steady.gathering g id fun k => ∃ row, (k, row) ∈ rows.filter fun e => decide (e.2.state = .running)
  refine Phase.bind (Q :=
    fun _ => Gathering g id fun k => ∃ row, (k, row) ∈ rows.filter fun e => decide (e.2.state = .running))
    (Phase.transact (fun _ => hgather) (fun db _ hφ => hφ.1) fun db r db' _ hφ h => ?_) fun _ => ?_
  · cases h
    refine ⟨hφ.1.update rfl fun it hp => ⟨rfl, fun _ => rfl, hp.1, Or.inr rfl⟩, fun k hk => ?_⟩
    obtain ⟨row, hrow⟩ := hk
    exact hφ.2.1 k ⟨row, List.mem_of_mem_filter hrow⟩
  refine Phase.bind (Phase.yields
    (gather_phase (attachActions_within (gathers_attaches g _) startedNow _ fun e he => ⟨e.2, he⟩))
    (attachActions_yields startedNow _)) fun pending => Outline.of_const fun hpending => ?_
  exact (gather_phase (collect_within (gathers_attaches g _).toCollectsIn polls pending hpending)).post fun r w h => by
    cases r with
    | ok => exact h.1
    | error => trivial

/-- A plan may be worked on and verified. -/
theorem workPhase_phase (polls : Nat) :
    Phase dg g (Current g id fun it => it.plan.isSome = true) (workPhase g id polls) fun _ _ => True := by
  have hst := Steady.current g id Working
  have hdone : ∀ {φ : Db → Prop}, Phase dg g φ (pure () : Engine Unit) fun _ _ => True :=
    Phase.pure fun _ _ _ => trivial
  refine Phase.bind (Phase.query (Steady.current g id _) (controlGate_obeys trivial)) fun gate => ?_
  split
  · exact hdone
  refine Phase.bind (dispatchAndCollect_phase polls) fun _ =>
    Phase.bind (Phase.query hst (assertOwnership_obeys trivial)) fun _ =>
    Phase.bind (fetchGoal_phase hst) fun goal => ?_
  split
  · exact hdone
  split
  · rename_i hfinal
    exact Phase.bind (Phase.transact (fun _ => .true) (fun db _ hφ => ⟨hφ.1.mono fun _ _ => trivial, hφ.2.2 hfinal⟩)
      fun _ _ _ _ _ _ => trivial) fun _ => hdone
  refine Phase.bind (listActions_phase.pre fun db _ hφ => hφ.1) fun rows => ?_
  split
  · exact hdone
  rename_i hany
  refine (Phase.bind (Phase.query (Steady.finished g id Working _) (fetchGoal_obeys trivial)) fun goal =>
    (verifyPhase_phase _ _).pre fun db _ hφ => ⟨hφ.1.mono fun it hw => Or.inl hw.1, hφ.2⟩).pre fun db _ hφ =>
      hφ.2.2 (by simpa using hany)

end

/-! ## A round of the engine -/

section

variable {dg : Digests} {g id : String}

/-- The evaluation on record is this one. -/
def EvaluatedAs (evaluation : GoalEvaluation) (it : IterationRow) : Prop :=
  ∃ cp, it.evaluation = some cp ∧ cp.decision = evaluation

/-- An evaluation that is returned is on record. -/
theorem evaluationPhase_phase : Phase dg g (Current g id fun _ => True) (evaluationPhase g id)
    fun r db => ∀ evaluation version, r = some (evaluation, version) → Current g id (EvaluatedAs evaluation) db := by
  unfold evaluationPhase
  refine (getIteration_bind (ψ := fun _ => True) .true fun it _ => ?_).pre fun db _ hφ => ⟨hφ, trivial⟩
  have hst := (Steady.current g id fun it' => it' = it).and Steady.true
  refine Phase.bind (Phase.query hst (fetchGoal_obeys trivial)) fun goal => ?_
  split
  · rename_i persisted hpersisted
    refine Phase.pure fun db _ hφ evaluation version he => hφ.1.mono ?_
    cases he
    rintro it' rfl
    exact ⟨persisted, hpersisted, rfl⟩
  · rename_i hnone
    refine Phase.bind (Phase.query hst (.ask trivial)) fun answer =>
      Phase.bind (Phase.query hst (.result _)) fun evaluation =>
      Phase.bind (Phase.query hst (assertOwnership_obeys trivial)) fun _ =>
        Phase.bind (Q := fun b db => b = true → Current g id (EvaluatedAs evaluation) db) (Phase.transact
          (fun _ => .imp _ (.current g id _)) (fun db _ hφ => hφ.1.mono ?_) fun db r db' _ hφ h hr => ?_)
            fun recorded => ?_
    · rintro it' rfl
      exact hnone
    · obtain ⟨it', hit', ⟨hb, _⟩ | ⟨_, rfl⟩⟩ := recordEvaluation_ok h
      · rw [hb] at hr
        cases hr
      · exact hφ.1.update rfl fun it _ => ⟨rfl, fun hs => hs, _, rfl, rfl⟩
    · split
      · exact Phase.pure nofun
      · rename_i hrec
        refine Phase.pure fun db _ hφ evaluation' version he => ?_
        cases he
        exact hφ (by simpa using hrec)

theorem terminateUnplanned_phase {P : IterationRow → Prop} (hP : ∀ it, P it → it.plan = none)
    {reason : TerminationReason}
    {detail : String} {expected : Int} :
    Phase dg g (Current g id P) (transact (.terminatePhaseIfCurrent g id reason detail expected)) fun _ _ => True :=
  Phase.transact (fun _ => .true) (fun _ hA hφ => ⟨rfl, hφ.mono fun _ _ => trivial, hA.unplanned_settled (hφ.mono hP)⟩)
    fun _ _ _ _ _ _ => trivial

/-- An iteration that goes on after planning has a plan. -/
theorem planPhase_phase (uuid5 : String → String) (evaluation : GoalEvaluation) {goal : GoalRow}
    (hprogress : goal.noProgressCount < goal.budgets.noProgressLimit) :
    Phase dg g (fun db => Current g id (Evaluated .incomplete) db ∧ Reads g goal db) (planPhase uuid5 g id evaluation)
      fun b db => b = true → Current g id (fun it => it.plan.isSome = true) db := by
  unfold planPhase
  refine getIteration_bind (Steady.reads g goal) fun it hevaluated => ?_
  have hst := (Steady.current g id fun it' => it' = it).and (Steady.reads g goal)
  have hfalse : ∀ {φ : Db → Prop}, Phase dg g φ (pure false : Engine Bool)
      fun b db => b = true → Current g id (fun it => it.plan.isSome = true) db := Phase.pure nofun
  split
  · rename_i hplan
    exact Phase.pure fun db _ hφ _ => hφ.1.mono fun it' e => e ▸ hplan
  rename_i hplan
  have hunplanned : ∀ it', it' = it → it'.plan = none := by
    rintro it' rfl
    simpa using hplan
  have hend : ∀ {reason detail expected φ}, (∀ db : Db, φ db → Current g id (fun it' => it' = it) db) →
      Phase dg g φ (transact (.terminatePhaseIfCurrent g id reason detail expected)) fun _ _ => True :=
    fun hφ => (terminateUnplanned_phase hunplanned).pre fun db _ h => hφ db h
  refine Phase.bind (Phase.query hst (controlGate_obeys trivial)) fun gate => ?_
  split
  · exact hfalse
  refine Phase.bind (Phase.query hst (fetchGoal_obeys trivial)) fun planning =>
    Phase.bind (Phase.query hst (.ask trivial)) fun answer => Phase.bind (Phase.query hst (.result _)) fun plan =>
      Phase.bind (Phase.query hst (assertOwnership_obeys trivial)) fun _ =>
        Phase.bind (Phase.query hst (fetchGoal_obeys trivial)) fun current => ?_
  split
  · exact Phase.bind (Phase.transact (Q := fun _ _ => True) (fun _ => .true)
      (fun db _ hφ => ⟨rfl, hφ.1.mono hunplanned⟩)
      fun _ _ _ _ _ _ => trivial) fun _ => hfalse
  split
  · exact Phase.bind (hend fun db hφ => hφ.1) fun _ => hfalse
  refine Phase.bind (fetchGoal_phase hst) fun now => ?_
  split
  · exact Phase.bind (hend fun db hφ => hφ.1.1) fun _ => hfalse
  rename_i htasks
  refine Phase.transact (fun _ => .imp _ (.current g id _))
    (fun db _ hφ => ⟨rfl, hφ.1.1.mono fun it' e => ⟨hunplanned it' e, e ▸ hevaluated⟩, ?_⟩)
    fun db r db' _ hφ h hr => ?_
  · obtain ⟨⟨_, row, hrow, hb, _, _, hn⟩, ⟨row', hrow', hb', _, ht', _⟩, _⟩ := hφ
    obtain rfl := Option.some.inj (hrow.symm.trans hrow')
    refine ⟨row, hrow, ?_, by rw [hn, hb]; exact hprogress⟩
    rw [ht', hb']
    omega
  · rcases recordPlan_rows h with ⟨hb, _⟩ | ⟨_, _, _, rfl⟩
    · rw [hb] at hr
      cases hr
    · exact hφ.1.1.update rfl fun it' _ => ⟨rfl, fun _ => rfl, rfl⟩

/-- An active iteration may be advanced. -/
theorem advanceIteration_phase (uuid5 : String → String) (polls : Nat) :
    Phase dg g (Current g id fun _ => True) (advanceIteration uuid5 g id polls) fun _ _ => True := by
  have hdone : ∀ {φ : Db → Prop}, Phase dg g φ (pure () : Engine Unit) fun _ _ => True :=
    Phase.pure fun _ _ _ => trivial
  refine Phase.bind evaluationPhase_phase fun r => ?_
  split
  · exact hdone
  rename_i evaluation version
  have hst := Steady.current g id (EvaluatedAs evaluation)
  refine Phase.bind ((phaseIsCurrent_phase hst fun db hφ => hφ).pre fun db _ hφ => hφ evaluation version rfl)
    fun current => ?_
  split
  · exact hdone
  rename_i hcurrent
  refine Phase.pre (ψ := Current g id (EvaluatedAs evaluation)) ?_ fun db _ hφ => hφ (by simpa using hcurrent)
  have hunplanned : ∀ {db}, Agenda db → evaluation.disposition ≠ .incomplete →
    Current g id (EvaluatedAs evaluation) db →
      Current g id (fun it => it.plan = none ∧ EvaluatedAs evaluation it) db := by
    rintro db hA hne ⟨it, hit, hg, hactive, cp, hcp, rfl⟩
    refine ⟨it, hit, hg, hactive, ?_, cp, hcp, rfl⟩
    by_contra hplan
    obtain ⟨goal, _, hok⟩ := hA.rows id it hit
    obtain ⟨cp', hcp', hincomplete⟩ := hok.planned (Option.isSome_iff_ne_none.mpr hplan)
    rw [hcp] at hcp'
    exact hne (by rw [Option.some.inj hcp']; exact hincomplete)
  split
  · rename_i hdisposition
    refine (verifyPhase_phase _ _).pre fun db hA hφ => ?_
    have hcur := hunplanned hA (by rw [hdisposition]; decide) hφ
    refine ⟨hcur.mono ?_, hA.unplanned_settled (hcur.mono fun _ h => h.1),
      (hA.unplanned_failures (hcur.mono fun _ h => h.1)).symm⟩
    rintro it ⟨_, cp, hcp, rfl⟩
    exact Or.inr ⟨cp, hcp, hdisposition⟩
  · rename_i reason hdisposition _
    exact Phase.bind ((terminateUnplanned_phase fun it h => h.1).pre fun db hA hφ =>
      hunplanned hA (by rw [hdisposition]; decide) hφ) fun _ => hdone
  · exact Phase.throw
  · rename_i hdisposition
    refine Phase.bind (fetchGoal_phase hst) fun goal => ?_
    split
    · rename_i hlimit
      refine Phase.bind ((terminateUnplanned_phase (P := fun it => it.plan = none) fun it h => h).pre fun db hA hφ =>
        ?_) fun _ => hdone
      obtain ⟨⟨it, hit, hg, hactive, _⟩, ⟨row, hrow, hb, _, _, hn⟩, _⟩ := hφ
      refine ⟨it, hit, hg, hactive, ?_⟩
      by_contra hplan
      have hlt := (hA.ok hit (by rw [hg]; exact hrow)).progressing hactive (Option.isSome_iff_ne_none.mpr hplan)
      rw [hn, hb] at hlt
      omega
    · rename_i hlimit
      refine Phase.bind ((planPhase_phase uuid5 evaluation (Nat.lt_of_not_le hlimit)).pre fun db _ hφ =>
        ⟨hφ.1.mono ?_, hφ.2.1⟩)
        fun planned => ?_
      · rintro it ⟨cp, hcp, rfl⟩
        exact ⟨cp, hcp, hdisposition⟩
      · split
        · rename_i hplanned
          exact (workPhase_phase polls).pre fun db _ hφ => hφ hplanned
        · exact hdone

theorem ensureStarted_phase : Phase dg g (fun _ => True) (ensureStarted g) fun goal db => Reads g goal db := by
  have hread : Phase dg g (fun _ => True) (fetchGoal g) fun goal db => Reads g goal db :=
    (fetchGoal_phase .true).post fun r w h => by
      cases r with
      | ok => exact h.2.1
      | error => trivial
  have hstart : ∀ now, Phase dg g (fun _ => True) (transact (.start g now)) fun _ _ => True := fun now =>
    Phase.transact (fun _ => .true) (fun _ _ _ => rfl) fun _ _ _ _ _ _ => trivial
  refine Phase.bind hread fun goal => ?_
  split
  · have hnow : Phase dg g (fun _ => True) (ask .now) fun _ _ => True := Phase.query .true (.ask trivial)
    exact Phase.pre (ψ := fun _ => True) (Phase.bind hnow fun now => Phase.bind (hstart now) fun _ => hread)
      fun _ _ _ => trivial
  · exact Phase.pure fun _ _ h => h

theorem budgetGuard_none (goal : GoalRow) : (budgetGuard g goal).run.Yields fun r => ∀ limit, r = .ok limit →
    limit = none → goal.iterationCount < goal.budgets.maxIterations := by
  unfold budgetGuard
  split
  · rintro limit h rfl
    cases h
  · rename_i hlt
    have hany : ∀ {p : Engine (Option (TerminationReason × String))}, p.run.Yields fun r => ∀ limit, r = .ok limit →
        limit = none → goal.iterationCount < goal.budgets.maxIterations :=
      (Prog.yields_true _).mono fun _ _ _ _ _ => Nat.lt_of_not_le hlt
    exact hany

variable (uuid5 : String → String) (polls : Nat)

/-- One round of an engine keeps the agenda. -/
theorem runOnce_phase : Phase dg g (fun _ => True) (runOnce uuid5 g polls) fun _ _ => True := by
  refine Phase.bind (Phase.query .true (assertOwnership_obeys trivial)) fun _ =>
    Phase.bind ensureStarted_phase fun goal => ?_
  split
  · exact Phase.pure fun _ _ _ => trivial
  have hidle := (Steady.reads g goal).and (Steady.idle g)
  refine Phase.bind (Q := fun r db => Reads g goal db ∧ (∀ id, r = some id → Current g id (fun _ => True) db) ∧
    (r = none → Idle g db)) (Phase.read trivial (fun r => (Steady.reads g goal).and
      ((Steady.forall fun id => .imp _ (.current g id _)).and (.imp _ (.idle g)))) fun db env hA hφ =>
        ⟨hφ, fun id hr => ?_, activeIteration_none⟩) fun r => ?_
  · obtain ⟨it, hit, hg, hactive⟩ := activeIteration_some hr
    exact ⟨it, hit, hg, hactive, trivial⟩
  cases r with
  | some id => exact (advanceIteration_phase uuid5 polls).pre fun db _ hφ => hφ.2.1 id rfl
  | none =>
    refine Phase.pre (ψ := fun db => Reads g goal db ∧ Idle g db) ?_ fun db _ hφ => ⟨hφ.1, hφ.2.2 rfl⟩
    refine Phase.bind (Phase.yields (Phase.query hidle (budgetGuard_obeys goal)) (budgetGuard_none goal))
      fun limit => ?_
    split
    · exact Phase.transact (fun _ => .true) (fun _ _ _ => rfl) fun _ _ _ _ _ _ => trivial
    · refine Outline.of_const fun hlimit => ?_
      have hbegin : ∀ uuid, Phase dg g (fun db => Reads g goal db ∧ Idle g db) (transact (.beginIteration g uuid))
          fun id => Current g id fun _ => True := by
        intro uuid
        refine Phase.transact (fun _ => .current _ _ _) (fun db _ hφ => ⟨rfl, hφ.2, ?_⟩) fun db id db' _ hφ h => ?_
        · obtain ⟨row, hrow, hb, hi, _⟩ := hφ.1
          exact ⟨row, hrow, by rw [hi, hb]; exact hlimit rfl⟩
        · obtain ⟨goal', hb⟩ := begun_of_ok h
          exact ⟨_, (hb.iterations id).trans (if_pos rfl), rfl, rfl, trivial⟩
      have hask : Phase dg g (fun db => Reads g goal db ∧ Idle g db) (ask .uuid) fun _ db =>
        Reads g goal db ∧ Idle g db :=
        Phase.query hidle (.ask trivial)
      exact Phase.bind hask fun uuid => Phase.bind (hbegin uuid) fun id => advanceIteration_phase uuid5 polls

/-- So does a run of any number of rounds. -/
theorem run_phase : ∀ rounds : Nat, Phase dg g (fun _ => True) (run uuid5 g polls rounds) fun _ _ => True
  | 0 => fun _ _ _ => trivial
  | rounds + 1 => by
    unfold run
    refine Phase.bind (Phase.query .true (fetchGoal_obeys trivial)) fun goal => ?_
    split
    · exact Phase.pure fun _ _ _ => trivial
    · exact Phase.bind (runOnce_phase uuid5 polls) fun _ => run_phase rounds

end

/-- Every slot makes licensed calls only. -/
theorem serve_licensed (dg : Digests) (uuid5 : String → String) (i : Slot) (request : Request) :
    Outline (machine dg).traced (fun w : World => Agenda w.state) (Rules dg) i (fun _ => True) (serve uuid5 i request)
      fun _ _ => True := by
  unfold serve
  split
  · exact Outline.bind (run_phase uuid5 _ _) fun r _ _ _ => trivial
  · refine Outline.bind (Outline.keep (φ := fun _ => True) Stable.true (control_client _) fun c w env hc hA _ => ?_)
      fun r _ _ _ => trivial
    have hlicensed : Licensed i w.state c := Or.inl hc
    exact ⟨(licensed_step hlicensed env hA).1, ⟨c, env, hlicensed, rfl⟩, trivial⟩

end AgentFabric.Autonomy
