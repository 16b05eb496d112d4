import AgentFabric.Autonomy.Calls
import AgentFabric.Autonomy.Justified

/-!
# A successful goal is justified

The engine of a goal under interference: controls, other engines and the rest of the store run between its calls.
-/

namespace AgentFabric.Autonomy

open AgentFabric.Lib AgentFabric.Store

/-! ## Calls -/

/-- The calls of an engine that advances an iteration, apart from the one that ends the goal as a success. -/
def Call.advances (g id : String) : Call → Prop
  | .transact op => Routine g id op
  | .store _ => False
  | _ => True

theorem advances_advances (g id : String) : Advances (Call.advances g id) g id where
  query c hc := by cases c <;> trivial
  settles _ _ _ _ _ := trivial
  terminates _ _ h := ⟨rfl, h⟩
  evaluates _ _ := rfl
  plans _ _ _ := ⟨rfl, rfl⟩
  interrupts := ⟨rfl, rfl⟩
  ends _ _ _ h := ⟨rfl, rfl, h⟩
  moves _ := rfl
  dispatches _ := trivial

/-- The calls of the other clients. -/
def Call.controls : Call → Prop
  | .transact op => Control op
  | .store op => op.writesGoals = false
  | _ => True

section

variable {dg : Digests} {db : Db}

theorem act_query {c : Call} (hc : c.query) (env : Environment) : (act dg db env c).2 = db := by
  cases c <;> first | rfl | exact hc.elim

theorem commit_step {α : Type} {op : Except StoreError (α × Db)} {P : Except StoreError α → Db → Prop}
    (hok : ∀ a db', op = .ok (a, db') → P (.ok a) db') (herror : ∀ e, P (.error e) db) :
    P (commit db op).1 (commit db op).2 := by
  unfold commit
  split
  · exact hok _ _ rfl
  · exact herror _

/-- A call that advances its own iteration keeps invariant and guarantee. -/
theorem advances_step {g id : String} {c : Call} (hc : c.advances g id) (env : Environment) (hI : GoalInv db)
    (own : Own g id db) : GoalInv (act dg db env c).2 ∧ Guarantee (.engine g) db (act dg db env c).2 ∧
      Own g id (act dg db env c).2 := by
  cases c with
  | transact =>
    exact commit_step (P := fun _ db' => GoalInv db' ∧ Guarantee (.engine g) db db' ∧ Own g id db')
      (fun _ _ h => routine_step hc h hI own) fun _ => ⟨hI, .refl _ _, own⟩
  | store => exact hc.elim
  | _ => exact ⟨hI, .refl _ _, own⟩

/-- So does a control. -/
theorem controls_step (i : Slot) {c : Call} (hc : c.controls) (env : Environment) (hI : GoalInv db) :
    GoalInv (act dg db env c).2 ∧ Guarantee i db (act dg db env c).2 := by
  cases c with
  | transact =>
    exact commit_step (P := fun _ db' => GoalInv db' ∧ Guarantee i db db') (fun _ _ h => control_step i hc h hI)
      fun _ => ⟨hI, .refl _ _⟩
  | store =>
    refine commit_step (P := fun _ db' => GoalInv db' ∧ Guarantee i db db') (fun _ db' h => ?_)
      fun _ => ⟨hI, .refl _ _⟩
    have hframe := exec_frame h
    refine goal_step (g := "") (f := (·)) i (fun k => ?_) (hframe.iterations hc) hI fun goal _ => .refl goal
    rw [hframe.goals hc]
    split <;> simp
  | _ => exact ⟨hI, .refl _ _⟩

end

/-! ## The programs -/

section

variable {dg : Digests} {g : String} {α : Type}

theorem query_step {i : Slot} {φ : Db → Prop} (c : Call) (db : Db) (env : Environment) (hc : c.query)
    (hI : GoalInv db) (hφ : φ db) :
    GoalInv (act dg db env c).2 ∧ Guarantee i db (act dg db env c).2 ∧ φ (act dg db env c).2 := by
  rw [act_query hc]
  exact ⟨hI, .refl i db, hφ⟩

theorem query_outline {i : Slot} {φ : Db → Prop} {p : Engine α} (hst : Stable GoalInv Guarantee i φ)
    (hp : Prog.Obeys Call.query p) : Outline (machine dg) GoalInv Guarantee i φ p.run (onOk fun _ => φ) :=
  Outline.keep hst hp query_step

/-- While it advances an iteration, the engine keeps it as the last one of its goal. -/
theorem advance_outline {id : String} {p : Engine α} (hp : Prog.Obeys (Call.advances g id) p) :
    Outline (machine dg) GoalInv Guarantee (.engine g) (Own g id) p.run (onOk fun _ => Own g id) :=
  Outline.keep (own_stable g id) hp fun _ _ env hc hI own => advances_step hc env hI own

end

/-! ## The verification -/

section

variable {dg : Digests} {g id : String}

/-- What the engine knows while it goes on with a decision. -/
def Decided (g id : String) (verification : GoalVerification) (version : Nat) (db : Db) : Prop :=
  Own g id db ∧ Recorded g id ⟨verification, some version⟩ db

theorem decided_stable (g id : String) (verification : GoalVerification) (version : Nat) :
    Stable GoalInv Guarantee (.engine g) (Decided g id verification version) :=
  (own_stable g id).and (recorded_stable g id _)

theorem getIteration_outline : Outline (machine dg) GoalInv Guarantee (.engine g) (Own g id)
    (ask (.getIteration id)).run (onOk fun r db => Own g id db ∧ ∀ it cp, r = .ok it → it.verification = some cp →
      ∃ version, cp.steerVersion = some version ∧ Recorded g id cp db) := by
  refine Outline.ask (fun r => (own_stable g id).and ?_) fun db env hI own => ⟨hI, .refl _ _, own, ?_⟩
  · intro j db db' hj hI hI' hg h it cp hr hv
    obtain ⟨version, hversion, hrec⟩ := h it cp hr hv
    exact ⟨version, hversion, recorded_stable g id cp j db db' hj hI hI' hg hrec⟩
  · intro it cp hr hv
    have hit : db.iterations.get? id = some it := orRaise_eq_ok.mp hr
    obtain ⟨version, hversion⟩ := Option.ne_none_iff_exists'.mp (hI.versioned id it cp hit hv)
    obtain ⟨_, own, _, hown, howng, _⟩ := own
    rw [hit] at hown
    obtain rfl := Option.some.inj hown
    exact ⟨version, hversion, it, hit, howng, hv⟩

theorem recordVerification_outline (verification : GoalVerification) (version : Nat) :
    Outline (machine dg) GoalInv Guarantee (.engine g) (Own g id)
      (transact (.recordVerification id verification version)).run
      (onOk fun b db => Own g id db ∧ (b = true → Decided g id verification version db)) := by
  refine Outline.raising_bind (Q := fun r db => Own g id db ∧ (r = .ok true → Decided g id verification version db))
    (Outline.ask (fun r => (own_stable g id).and ?_) fun db env hI own => ?_) fun r => ?_
  · intro j db db' hj hI hI' hg h hr
    exact decided_stable g id verification version j db db' hj hI hI' hg (h hr)
  · refine commit_step (P := fun r db' => GoalInv db' ∧ Guarantee (.engine g) db db' ∧ Own g id db' ∧
      (r = .ok true → Decided g id verification version db')) (fun b db' h => ?_)
      fun e => ⟨hI, .refl _ _, own, fun hr => nomatch hr⟩
    have hop : Routine g id (.recordVerification id verification version) := rfl
    obtain ⟨hI', hG, own'⟩ := routine_step hop h hI own
    refine ⟨hI', hG, own', fun hb => ⟨own', ?_⟩⟩
    obtain rfl := Except.ok.inj hb
    rcases recordGoalVerification_ok h with ⟨hb, _⟩ | ⟨_, rfl⟩
    · cases hb
    · obtain ⟨_, it, _, hit, hitg, _⟩ := own
      refine ⟨it.verify ⟨verification, some version⟩, ?_, hitg, rfl⟩
      simp [setIteration, hit]
  · intro db hI h
    cases r with
    | ok => exact ⟨h.1, fun hb => h.2 (by rw [hb])⟩
    | error => trivial

/-- The decision that the engine goes on with is on record. -/
theorem verificationCheckpoint_outline (results : List ActionResult) (expected : Int) :
    Outline (machine dg) GoalInv Guarantee (.engine g) (Own g id)
      (verificationCheckpoint g id results expected).run
      (onOk fun r db => ∀ verification version, r = some (verification, version) →
        ∃ n : Nat, version = n ∧ Decided g id verification n db) := by
  have hnone : ∀ (φ : Db → Prop), Outline (machine dg) GoalInv Guarantee (.engine g) φ
      (pure none : Engine (Option (GoalVerification × Int))).run (onOk fun r db => ∀ verification version,
        r = some (verification, version) → ∃ n : Nat, version = n ∧ Decided g id verification n db) :=
    fun φ db _ _ verification version h => nomatch h
  refine Outline.raising_bind getIteration_outline fun r => Outline.raising_bind (Q := fun it db =>
    Own g id db ∧ ∀ cp, it.verification = some cp → ∃ version, cp.steerVersion = some version ∧ Recorded g id cp db)
    (fun db hI h => ?_) fun iteration => ?_
  · cases r with
    | ok it => exact ⟨h.1, fun cp hv => h.2 it cp rfl hv⟩
    | error => trivial
  split
  · rename_i persisted hv
    refine Outline.weaken (ψ := fun db => ∃ version, persisted.steerVersion = some version ∧
      Decided g id persisted.decision version db) ?_ fun db hI h => ?_
    · cases persisted.steerVersion with
      | none => exact Outline.unreached fun db ⟨_, h, _⟩ => nomatch h
      | some version =>
        refine Outline.weaken (ψ := Decided g id persisted.decision version) ?_ fun db hI ⟨_, hv, h⟩ => ?_
        · refine Outline.raising_bind (query_outline (decided_stable g id _ version) (fetchGoal_obeys trivial))
            fun goal => ?_
          rw [if_neg (fun h => nomatch h.1)]
          intro db hI h verification' version' he
          cases he
          exact ⟨version, rfl, h⟩
        · rw [Option.some.inj hv]
          exact h
    · obtain ⟨version, hversion, hrec⟩ := h.2 persisted hv
      refine ⟨version, hversion, h.1, ?_⟩
      rw [← hversion]
      exact hrec
  · refine Outline.weaken (ψ := Own g id) ?_ fun db hI h => h.1
    refine Outline.raising_bind (advance_outline (controlGate_obeys trivial)) fun gate => ?_
    split
    · exact hnone _
    refine Outline.raising_bind (advance_outline (transact_obeys ⟨rfl, rfl⟩)) fun current => ?_
    split
    · exact hnone _
    refine Outline.raising_bind (advance_outline (transact_obeys rfl)) fun _ =>
      Outline.raising_bind (advance_outline (fetchGoal_obeys trivial)) fun goal =>
      Outline.raising_bind (advance_outline (.ask trivial)) fun answer =>
      Outline.raising_bind (advance_outline (.result _)) fun verification =>
      Outline.raising_bind (advance_outline (assertOwnership_obeys trivial)) fun _ =>
      Outline.raising_bind (recordVerification_outline verification goal.steerVersion) fun recorded => ?_
    split
    · exact hnone _
    · rename_i hrec
      intro db hI h verification' version' he
      cases he
      exact ⟨goal.steerVersion, rfl, h.2 (by simpa using hrec)⟩

/-- Only a satisfied decision ends the goal as a success, and it is on record for the last iteration. -/
theorem applyVerificationOutcome_outline (verification : GoalVerification) (failures version : Nat) :
    Outline (machine dg) GoalInv Guarantee (.engine g) (Decided g id verification version)
      (applyVerificationOutcome g id verification failures version).run (onOk fun _ _ => True) := by
  unfold applyVerificationOutcome
  split
  · rename_i hsat
    refine Outline.raising_bind (query_outline (decided_stable g id _ version) (fetchGoal_obeys trivial)) fun goal =>
      Outline.raising_bind (query_outline (decided_stable g id _ version) (.ask trivial)) fun live => ?_
    split
    · exact fun _ _ _ => trivial
    refine Outline.raising_bind (Q := fun _ _ => True) (Outline.raising_bind (Q := fun _ _ => True)
      (Outline.ask (fun _ => Stable.true) fun db env hI h => ?_) fun r => ?_) fun _ => fun _ _ _ => trivial
    · refine commit_step (P := fun _ db' => GoalInv db' ∧ Guarantee (.engine g) db db' ∧ True) (fun b db' hok => ?_)
        fun e => ⟨hI, .refl _ _, trivial⟩
      obtain ⟨hI', hG⟩ := success_step hok hI h.1 h.2 hsat fun v hv => by rw [Int.ofNat.inj hv]
      exact ⟨hI', hG, trivial⟩
    · exact fun _ _ _ => onOk_true _ _
  · rename_i hsat
    have hreasoned := verification.reasoned
    rw [if_neg hsat] at hreasoned
    refine Outline.weaken (ψ := Own g id) ((advance_outline ?_).post fun r s _ => onOk_true r s) fun db hI h => h.1
    split
    · rename_i reason hreason
      exact .bind (transact_obeys ⟨rfl, rfl, fun e => hreasoned (by rw [hreason, e])⟩) fun _ => .pure _
    refine .bind (transact_obeys ⟨rfl, rfl⟩) fun current => ?_
    split
    · exact .pure _
    refine .bind (.ask trivial) fun r => .bind (.result _) fun iteration => ?_
    split
    · exact .bind (transact_obeys ⟨rfl, rfl⟩) fun _ => transact_obeys rfl
    · exact transact_obeys rfl

theorem verifyPhase_outline (results : List ActionResult) (failures : Nat) (expected : Int) :
    Outline (machine dg) GoalInv Guarantee (.engine g) (Own g id)
      (verifyPhase g id results failures expected).run (onOk fun _ _ => True) := by
  refine Outline.raising_bind (verificationCheckpoint_outline results expected) fun r => ?_
  split
  · exact fun _ _ _ => trivial
  · rename_i verification version
    refine Outline.weaken (ψ := fun db => ∃ n : Nat, version = n ∧ Decided g id verification n db) ?_
      fun db hI h => h verification version rfl
    cases version with
    | ofNat n =>
      refine (applyVerificationOutcome_outline verification failures n).weaken fun db hI ⟨m, hm, h⟩ => ?_
      rw [Int.ofNat.inj hm]
      exact h
    | negSucc => exact Outline.unreached fun db ⟨m, hm, _⟩ => nomatch hm

theorem workPhase_outline (polls : Nat) : Outline (machine dg) GoalInv Guarantee (.engine g) (Own g id)
    (workPhase g id polls).run (onOk fun _ _ => True) := by
  refine Outline.raising_bind (advance_outline (controlGate_obeys trivial)) fun gate => ?_
  split
  · exact fun _ _ _ => trivial
  refine Outline.raising_bind
    (advance_outline (dispatchAndCollect_obeys ⟨(advances_advances g id).toCollects, fun _ _ => trivial⟩
    (advances_advances g id) polls)) fun _ =>
    Outline.raising_bind (advance_outline (assertOwnership_obeys trivial)) fun _ =>
    Outline.raising_bind (advance_outline (fetchGoal_obeys trivial)) fun goal => ?_
  split
  · exact fun _ _ _ => trivial
  split
  · exact Outline.raising_bind (advance_outline (transact_obeys rfl)) fun _ => fun _ _ _ => trivial
  refine Outline.raising_bind (advance_outline (.ask trivial)) fun actions => ?_
  split
  · exact fun _ _ _ => trivial
  · exact Outline.raising_bind (advance_outline (fetchGoal_obeys trivial)) fun goal => verifyPhase_outline _ _ _

theorem advanceIteration_outline (uuid5 : String → String) (polls : Nat) :
    Outline (machine dg) GoalInv Guarantee (.engine g) (Own g id)
      (advanceIteration uuid5 g id polls).run (onOk fun _ _ => True) := by
  refine Outline.raising_bind (advance_outline (evaluationPhase_obeys (advances_advances g id))) fun r => ?_
  split
  · exact fun _ _ _ => trivial
  rename_i evaluation version
  refine Outline.raising_bind (advance_outline (transact_obeys ⟨rfl, rfl⟩)) fun current => ?_
  split
  · exact fun _ _ _ => trivial
  split
  · exact verifyPhase_outline _ _ _
  · rename_i reason hdisposition hreason
    have hreasoned := evaluation.reasoned
    rw [if_pos hdisposition, hreason] at hreasoned
    exact Outline.raising_bind (advance_outline (transact_obeys ⟨rfl, rfl, fun e => hreasoned.2 (by rw [e])⟩))
      fun _ => fun _ _ _ => trivial
  · exact fun _ _ _ => trivial
  · refine Outline.raising_bind (advance_outline (fetchGoal_obeys trivial)) fun goal => ?_
    split
    · exact Outline.raising_bind (advance_outline (transact_obeys ⟨rfl, rfl, by decide⟩)) fun _ => fun _ _ _ => trivial
    refine Outline.raising_bind (advance_outline (planPhase_obeys (advances_advances g id) uuid5 evaluation))
      fun planned => ?_
    split
    · exact workPhase_outline polls
    · exact fun _ _ _ => trivial

end

/-! ## A round of the engine -/

theorem foldl_laterIteration_mem (es : List (String × IterationRow)) (e : String × IterationRow) :
    es.foldl laterIteration e = e ∨ es.foldl laterIteration e ∈ es := by
  induction es generalizing e with
  | nil => exact Or.inl rfl
  | cons a es ih =>
    rw [List.foldl_cons]
    rcases ih (laterIteration e a) with h | h
    · rw [h]
      unfold laterIteration
      split
      · exact Or.inr List.mem_cons_self
      · exact Or.inl rfl
    · exact Or.inr (List.mem_cons_of_mem a h)

theorem activeIteration_some {db : Db} {g id : String} (h : activeIteration db g = some id) :
    ∃ it, db.iterations.get? id = some it ∧ it.goalId = g ∧ it.state.active = true := by
  unfold activeIteration at h
  split at h
  · cases h
  rename_i e es hfilter
  have hmem : es.foldl laterIteration e ∈ e :: es := by
    rcases foldl_laterIteration_mem es e with he | he
    · rw [he]
      exact List.mem_cons_self
    · exact List.mem_cons_of_mem e he
  rw [← hfilter, List.mem_filter] at hmem
  obtain ⟨hrow, hactive⟩ := hmem
  obtain rfl := Option.some.inj h
  simp only [Bool.and_eq_true, decide_eq_true_eq] at hactive
  exact ⟨_, Table.mem_rows.mp hrow, hactive.1, hactive.2⟩

theorem activeIteration_none {db : Db} {g : String} (h : activeIteration db g = none) : Idle g db := by
  unfold activeIteration at h
  split at h
  · rename_i hfilter
    intro id it hit hgoal
    have hnot : (id, it) ∉ db.iterations.rows.filter fun e => decide (e.2.goalId = g) && e.2.state.active := by
      rw [hfilter]
      exact List.not_mem_nil
    rw [List.mem_filter, not_and] at hnot
    simpa [hgoal] using hnot (Table.mem_rows.mpr hit)
  · cases h

section

variable {dg : Digests} {g : String}

theorem own_of_active {db : Db} {id : String} (hI : GoalInv db) (hopen : ¬ Succeeded db g)
    (h : activeIteration db g = some id) : Own g id db := by
  obtain ⟨it, hit, rfl, hactive⟩ := activeIteration_some h
  obtain ⟨goal, hgoal, _, hlast⟩ := hI.numbered id it hit
  exact ⟨hopen, it, goal, hit, rfl, hgoal, hlast hactive⟩

theorem fetchGoal_outline {φ : Db → Prop} : Outline (machine dg) GoalInv Guarantee (.engine g) φ (fetchGoal g).run
    (onOk fun goal db => goal.state = .running → ¬ Succeeded db g) := by
  refine Outline.raising_bind (Q := fun r db => ∀ goal, r = .ok goal → goal.state = .running → ¬ Succeeded db g)
    (Outline.ask (fun r => ?_) fun db env hI _ => ⟨hI, .refl _ _, ?_⟩) fun r db hI h => ?_
  · intro j db db' hj hI hI' hG h goal hr hstate
    exact open_stable g j db db' hj hI hI' hG (h goal hr hstate)
  · rintro goal hr hstate ⟨goal', hgoal', hs⟩
    have hgoal : db.goals.get? g = some goal := getGoal_eq_ok.mp hr
    obtain rfl : goal = goal' := Option.some.inj (hgoal.symm.trans hgoal')
    exact nomatch hstate.symm.trans hs.1
  · cases r with
    | ok goal => exact h goal rfl
    | error => trivial

theorem control_outline {i : Slot} {α : Type} {φ : Db → Prop} {p : Engine α} (hp : Prog.Obeys Call.controls p) :
    Outline (machine dg) GoalInv Guarantee i φ p.run (onOk fun _ _ => True) := by
  refine (Outline.keep (φ := fun _ => True) Stable.true hp fun c db env hc hI _ => ?_).weaken fun _ _ _ => trivial
  obtain ⟨hI', hG⟩ := controls_step i hc env hI
  exact ⟨hI', hG, trivial⟩

theorem ensureStarted_outline : Outline (machine dg) GoalInv Guarantee (.engine g) (fun _ => True)
    (ensureStarted g).run (onOk fun goal db => goal.state = .running → ¬ Succeeded db g) := by
  refine Outline.raising_bind fetchGoal_outline fun goal => ?_
  split
  · exact Outline.raising_bind (control_outline (.ask trivial)) fun now =>
      Outline.raising_bind (control_outline (transact_obeys trivial)) fun _ => fetchGoal_outline
  · exact fun db hI h => h

theorem beginIteration_outline (uuid : String) : Outline (machine dg) GoalInv Guarantee (.engine g)
    (fun db => ¬ Succeeded db g ∧ Idle g db) (transact (.beginIteration g uuid)).run
    (onOk fun id db => Own g id db) := by
  refine Outline.raising_bind (Q := fun r db => ∀ id, r = .ok id → Own g id db)
    (Outline.ask (fun r => ?_) fun db env hI h => ?_) fun r db hI h => ?_
  · intro j db db' hj hI hI' hG h id hr
    exact own_stable g id j db db' hj hI hI' hG (h id hr)
  · refine commit_step (P := fun r db' => GoalInv db' ∧ Guarantee (.engine g) db db' ∧ ∀ id, r = .ok id → Own g id db')
      (fun id db' hok => ?_) fun e => ⟨hI, .refl _ _, nofun⟩
    obtain ⟨hI', hG, own⟩ := begin_step hok hI h.1 h.2
    exact ⟨hI', hG, fun id' hr => Except.ok.inj hr ▸ own⟩
  · cases r with
    | ok id => exact h id rfl
    | error => trivial

variable (uuid5 : String → String) (polls : Nat)

theorem runOnce_outline : Outline (machine dg) GoalInv Guarantee (.engine g) (fun _ => True)
    (runOnce uuid5 g polls).run (onOk fun _ _ => True) := by
  refine Outline.raising_bind (control_outline (assertOwnership_obeys trivial)) fun _ =>
    Outline.raising_bind ensureStarted_outline fun goal => ?_
  split
  · exact fun _ _ _ => trivial
  rename_i hrunning
  refine Outline.weaken (ψ := fun db => ¬ Succeeded db g) ?_ fun db hI h => h (by simpa using hrunning)
  have idle := (open_stable g).and (idle_stable g)
  refine Outline.raising_bind (Q := fun r db => (∀ id, r = some id → Own g id db) ∧
    (r = none → ¬ Succeeded db g ∧ Idle g db)) (Outline.ask (fun r => ?_) fun db env hI hopen => ⟨hI, .refl _ _, ?_⟩)
    fun r => ?_
  · intro j db db' hj hI hI' hG h
    exact ⟨fun id hr => own_stable g id j db db' hj hI hI' hG (h.1 id hr),
      fun hr => idle j db db' hj hI hI' hG (h.2 hr)⟩
  · exact ⟨fun id hr => own_of_active hI hopen hr, fun hr => ⟨hopen, activeIteration_none hr⟩⟩
  cases r with
  | some id => exact (advanceIteration_outline uuid5 polls).weaken fun db hI h => h.1 id rfl
  | none =>
    refine Outline.weaken (ψ := fun db => ¬ Succeeded db g ∧ Idle g db) ?_ fun db hI h => h.2 rfl
    refine Outline.raising_bind (Outline.of_obeys idle (budgetGuard_obeys goal) (budgetGuard_yields goal) query_step)
      fun limit => ?_
    split
    · exact Outline.of_const fun hreason => control_outline (transact_obeys (hreason _ _ rfl))
    · refine Outline.weaken (ψ := fun db => ¬ Succeeded db g ∧ Idle g db) ?_ fun db hI h => h.1
      exact Outline.raising_bind (query_outline idle (.ask trivial)) fun uuid =>
        Outline.raising_bind (beginIteration_outline uuid) fun id => advanceIteration_outline uuid5 polls

/-- So does a run of the engine. -/
theorem run_outline : ∀ rounds : Nat, Outline (machine dg) GoalInv Guarantee (.engine g) (fun _ => True)
    (run uuid5 g polls rounds).run (onOk fun _ _ => True)
  | 0 => fun _ _ _ => trivial
  | rounds + 1 => by
    unfold run
    refine Outline.raising_bind (control_outline (fetchGoal_obeys trivial)) fun goal => ?_
    split
    · exact fun _ _ _ => trivial
    · exact Outline.raising_bind (runOnce_outline uuid5 polls) fun _ => run_outline rounds

end

theorem control_obeys (request : Request) : Prog.Obeys Call.controls (control request) := by
  cases request with
  | store op other => exact .bind (.ask other) fun _ => .pure _
  | engine => exact .pure _
  | _ => exact transact_obeys trivial

theorem serve_outline (dg : Digests) (uuid5 : String → String) (i : Slot) (request : Request) :
    Outline (machine dg) GoalInv Guarantee i (fun _ => True) (serve uuid5 i request) fun _ _ => True := by
  unfold serve
  split
  · exact Outline.bind (run_outline uuid5 _ _) fun r _ _ _ => trivial
  · exact Outline.bind (control_outline (control_obeys _)) fun r _ _ _ => trivial

/-- The database after a schedule of engines, controls, store operations, crashes and restarts. -/
def after (dg : Digests) (uuid5 : String → String) (moves : List (Move Slot Request Environment)) : Db :=
  ((Pool.quiet Db.initial).run (machine dg) (serve uuid5) moves).shared

theorem initial_inv : GoalInv Db.initial :=
  ⟨fun _ _ h => (nomatch h), fun _ _ _ _ h => (nomatch h), fun _ _ _ h => (nomatch h), fun _ _ h => (nomatch h)⟩

/-- A goal that is final stays as it ended, steer version included. -/
def FinalKept (db db' : Db) : Prop :=
  ∀ g goal, db.goals.get? g = some goal → goal.state.final = true → ∃ goal', db'.goals.get? g = some goal' ∧
    goal'.state = goal.state ∧ goal'.terminationReason = goal.terminationReason ∧
      goal'.steerVersion = goal.steerVersion

theorem FinalKept.trans {a b c : Db} (h : FinalKept a b) (h' : FinalKept b c) : FinalKept a c := by
  intro g goal hg hfinal
  obtain ⟨goal', hg', hs, hr, hv⟩ := h g goal hg hfinal
  obtain ⟨goal'', hg'', hs', hr', hv'⟩ := h' g goal' hg' (hs ▸ hfinal)
  exact ⟨goal'', hg'', hs'.trans hs, hr'.trans hr, hv'.trans hv⟩

theorem after_finalKept (dg : Digests) (uuid5 : String → String) (moves later : List (Move Slot Request Environment)) :
    FinalKept (after dg uuid5 moves) (after dg uuid5 (moves ++ later)) := by
  unfold after
  rw [Pool.run_append]
  refine Pool.run_guarantee (P := FinalKept) (serve_outline dg uuid5)
    (fun db g goal h _ => ⟨goal, h, rfl, rfl, rfl⟩) FinalKept.trans
    (fun hG g goal hg hfinal => ?_) (Pool.run_sound (serve_outline dg uuid5) (Pool.quiet_sound initial_inv) moves) later
  obtain ⟨goal', hg', hkept⟩ := hG.final g goal hg
  exact ⟨goal', hg', hkept hfinal⟩

/-- **Autonomous success is justified.** Whatever the engines, the controls, the crashes and the restarts did, a goal
that ended as a success has a last iteration verified as satisfied for its steer version, and stays that way. -/
theorem autonomous_success_justified (dg : Digests) (uuid5 : String → String)
    (moves later : List (Move Slot Request Environment)) (g : String) (goal : GoalRow)
    (hgoal : (after dg uuid5 moves).goals.get? g = some goal) (hs : Success goal) :
    Justified (after dg uuid5 moves) g goal ∧ ∃ goal', (after dg uuid5 (moves ++ later)).goals.get? g = some goal' ∧
      Success goal' ∧ goal'.steerVersion = goal.steerVersion ∧ Justified (after dg uuid5 (moves ++ later)) g goal' := by
  have hinv : ∀ ms, GoalInv (after dg uuid5 ms) := Pool.run_invariant (serve_outline dg uuid5) initial_inv
  obtain ⟨goal', hgoal', hstate, hreason, hsteer⟩ :=
    after_finalKept dg uuid5 moves later g goal hgoal (by rw [hs.1]; rfl)
  have hs' : Success goal' := ⟨hstate.trans hs.1, hreason.trans hs.2⟩
  exact ⟨(hinv moves).justified g goal hgoal hs, goal', hgoal', hs', hsteer, (hinv _).justified g goal' hgoal' hs'⟩

section

private def satisfiedAnswers : Environment :=
  { Environment.silent with
    evaluation := some ⟨.satisfied, "done", "p", none, by decide, by decide⟩
    verification := some ⟨true, "verified", "p", none, by decide, by decide⟩ }

-- the engine crashes after it recorded the verification; its successor applies it
private def crashedRun : List (Move Slot Request Environment) :=
  [.start (.client 0) (.createGoal "g" "p" "intent" {}), .step (.client 0) satisfiedAnswers,
    .start (.engine "g") (.engine 1 0)] ++ List.replicate 24 (.step (.engine "g") satisfiedAnswers) ++
  [.drop (.engine "g"), .start (.engine "g") (.engine 1 0)] ++
    List.replicate 12 (.step (.engine "g") satisfiedAnswers)

private def succeededGoal : GoalRow :=
  ⟨"p", .terminated, some .success, some "verified", {}, 1, 0, 0, 0, 0, some "p", some 0⟩

theorem autonomous_success_justified_resumed :
    (after Digests.trivial id crashedRun).goals.get? "g" = some succeededGoal ∧
      Justified (after Digests.trivial id crashedRun) "g" succeededGoal := by
  have hrow : (after Digests.trivial id crashedRun).goals.get? "g" = some succeededGoal := by decide +kernel
  exact ⟨hrow, (autonomous_success_justified Digests.trivial id crashedRun [] "g" succeededGoal hrow ⟨rfl, rfl⟩).1⟩

end

/-- **A final goal is final.** Whatever the engines, the controls, the crashes and the restarts did: a goal that was
stopped or terminated stays as it ended, with its reason and its steer version, and every goal has at most one active
iteration, the one that it has counted last. -/
theorem final_goals_stay (dg : Digests) (uuid5 : String → String) (moves later : List (Move Slot Request Environment)) :
    FinalKept (after dg uuid5 moves) (after dg uuid5 (moves ++ later)) ∧
    ∀ id it, (after dg uuid5 moves).iterations.get? id = some it → it.state.active = true →
      (∃ goal, (after dg uuid5 moves).goals.get? it.goalId = some goal ∧ it.sequence = goal.iterationCount) ∧
      ∀ id' it', (after dg uuid5 moves).iterations.get? id' = some it' → it'.goalId = it.goalId →
        it'.state.active = true → id' = id := by
  have hinv : GoalInv (after dg uuid5 moves) := Pool.run_invariant (serve_outline dg uuid5) initial_inv moves
  refine ⟨after_finalKept dg uuid5 moves later, fun id it hit hactive => ?_⟩
  obtain ⟨goal, hgoal, -, hlast⟩ := hinv.numbered id it hit
  refine ⟨⟨goal, hgoal, hlast hactive⟩, fun id' it' hit' hsame hactive' => ?_⟩
  obtain ⟨goal', hgoal', -, hlast'⟩ := hinv.numbered id' it' hit'
  rw [hsame, hgoal] at hgoal'
  cases hgoal'
  exact hinv.unique id' it' id it hit' hit hsame ((hlast' hactive').trans (hlast hactive).symm)

end AgentFabric.Autonomy
