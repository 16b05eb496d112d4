import AgentFabric.Autonomy.Calls
import AgentFabric.Lib.Executions

/-!
# Collected results under a control

An engine waits for the collectors of its actions, and looks at its goal after every wait.  What a collector returns
is recorded by the transaction that moves the action to its outcome.
-/

namespace AgentFabric.Autonomy

open AgentFabric.Lib AgentFabric.Store

abbrev Reply := Σ c : Call, c.Reply

/-- What the collector of each action has returned, or raised, after so many calls of the engine. -/
structure Collectors where
  returned : String → Nat → Option (Except String ActionResult)
  lasting : ∀ id n m outcome, n ≤ m → returned id n = some outcome → returned id m = some outcome

/-- The collectors as they go on after some calls. -/
def Collectors.after (c : Collectors) (k : Nat) : Collectors where
  returned id n := c.returned id (k + n)
  lasting id n m outcome h := c.lasting id (k + n) (k + m) outcome (Nat.add_le_add_left h k)

/-- A wait ends with the collectors that have finished. -/
def Inspects (c : Collectors) (calls : List Reply) : Prop :=
  ∀ n ids outcomes, calls[n]? = some ⟨.collected ids, outcomes⟩ →
    ∀ id outcome, (id, outcome) ∈ outcomes ↔ id ∈ ids ∧ c.returned id n = some outcome

/-- After `n` calls the engine has found that the work has to end, while it waits for the actions `ids`. -/
def Noticed (g : String) (calls : List Reply) (n : Nat) (ids : List String) : Prop :=
  ∃ front outcomes checks rest, calls = front ++ ⟨.collected ids, outcomes⟩ :: (checks ++ rest) ∧
    (workEnds g).run.Executes checks (.ok true) ∧ n = front.length + (checks.length + 1)

def ResultRecorded (calls : List Reply) (id : String) (result : ActionResult) : Prop :=
  ⟨.transact (.setAction id (ActionResult.target result) none (some result) none), .ok ()⟩ ∈ calls

/-- The action is cancelled without a result. -/
def ResultDropped (calls : List Reply) (id : String) : Prop :=
  ∃ error reply, ⟨.transact (.setAction id .cancelled none none error), reply⟩ ∈ calls

/-! ## The calls of a round -/

def Call.waits (c : Call) : Prop := ∃ ids, c = .collected ids

/-- A change of an action. -/
def Call.sets (id : String) (c : Call) : Prop :=
  ∃ state handle result error, c = .transact (.setAction id state handle result error)

/-- A cancellation without a result. -/
def Call.drops (id : String) (c : Call) : Prop := ∃ error, c = .transact (.setAction id .cancelled none none error)

def Call.records (id : String) (c : Call) : Prop :=
  ∃ result, c = .transact (.setAction id (ActionResult.target result) none (some result) none)

/-- The calls that a round makes after its wait, whatever it records. -/
structure Checks (P : Call → Prop) (g : String) : Prop where
  query : ∀ c, c.query → ¬ c.waits → P c
  terminates : ∀ reason detail, P (.transact (.terminate g reason detail))

section

variable {P : Call → Prop} {g : String} {pending : List (String × DispatchHandle)} {calls : List Reply}

theorem checks_waits (g : String) : Checks (fun c => ¬ c.waits) g where
  query _ _ h := h
  terminates _ _ := by rintro ⟨_, h⟩; cases h

theorem checks_drops (g id : String) : Checks (fun c => ¬ c.drops id) g where
  query c hq _ := by rintro ⟨_, rfl⟩; exact hq
  terminates _ _ := by rintro ⟨_, h⟩; cases h

theorem checks_records (g id : String) : Checks (fun c => ¬ c.records id) g where
  query c hq _ := by rintro ⟨_, rfl⟩; exact hq
  terminates _ _ := by rintro ⟨_, h⟩; cases h

theorem workEnds_all (hP : Checks P g) : Prog.Obeys P (workEnds g) := by
  have hask : ∀ c : Call, c.query → ¬ c.waits → Prog.Obeys P (ask c) := fun c hq hw => .ask (hP.query c hq hw)
  refine .bind (fetchGoal_obeys (hP.query _ trivial (by rintro ⟨_, h⟩; cases h))) fun goal =>
    .bind (assertOwnership_obeys (hP.query _ trivial (by rintro ⟨_, h⟩; cases h))) fun _ =>
      .bind ?_ fun limit => ?_
  · unfold workGuard
    split
    · refine .bind (hask .now trivial (by rintro ⟨_, h⟩; cases h)) fun now => ?_
      split
      · exact .pure _
      split
      · exact .pure _
      · exact .bind (hask (.observeBudget g) trivial (by rintro ⟨_, h⟩; cases h)) fun _ => .pure _
    · exact .pure _
  · split
    · exact .bind (transact_obeys (hP.terminates _ _)) fun _ => .pure _
    · exact .pure _

theorem requestCancellations_all (hP : Checks P g) (pending : List (String × DispatchHandle)) :
    Prog.Obeys P (requestCancellations pending) :=
  .forM fun _ _ => .bind (.ask (hP.query _ trivial (by rintro ⟨_, h⟩; cases h))) fun _ => .pure _

theorem orAbandon_all (hP : Checks P g) {α : Type} (pending : List (String × DispatchHandle)) {p : Engine α}
    (hp : Prog.Obeys P p) : Prog.Obeys P (orAbandon pending p) := by
  refine .bind (.attempt hp) fun r => ?_
  split
  · exact .pure _
  · exact .bind (requestCancellations_all hP pending) fun _ => .throw _

theorem cancelPending_all (hP : Checks P g)
    (hcancel : ∀ id error, P (.transact (.setAction id .cancelled none none error))) :
    ∀ pending : List (String × DispatchHandle), Prog.Obeys P (cancelPending pending)
  | [] => .pure _
  | _ :: rest =>
    .bind (orAbandon_all hP rest (transact_obeys (hcancel _ _))) fun _ => cancelPending_all hP hcancel rest

theorem settle_all (hP : Checks P g) (hrecord : ∀ outcome, Prog.Obeys P (recordOutcome outcome)) :
    ∀ (outcomes : List (String × Except String ActionResult)) (pending : List (String × DispatchHandle)),
      Prog.Obeys P (settle outcomes pending)
  | [], _ => .pure _
  | outcome :: rest, pending => by
    unfold settle
    split
    · exact .bind (orAbandon_all hP _ (hrecord outcome)) fun _ => settle_all hP hrecord rest _
    · exact settle_all hP hrecord rest pending

theorem recordOutcome_waits (outcome : String × Except String ActionResult) :
    Prog.Obeys (fun c => ¬ c.waits) (recordOutcome outcome) := by
  unfold recordOutcome
  split <;> exact transact_obeys (by rintro ⟨_, h⟩; cases h)

theorem recordOutcome_drops (id : String) (outcome : String × Except String ActionResult) :
    Prog.Obeys (fun c => ¬ c.drops id) (recordOutcome outcome) := by
  unfold recordOutcome
  split <;>
  · refine transact_obeys ?_
    rintro ⟨error, h⟩
    simp at h

variable {id : String}

theorem recordOutcome_sets {outcome : String × Except String ActionResult} (h : outcome.1 ≠ id) :
    Prog.Obeys (fun c => ¬ c.sets id) (recordOutcome outcome) := by
  unfold recordOutcome
  split <;>
  · refine transact_obeys ?_
    rintro ⟨_, _, _, _, heq⟩
    injection heq with heq
    injection heq with heq
    exact h heq

theorem collect_sets (hid : id ∉ pending.map Prod.fst) (polls : Nat) :
    Prog.Obeys (fun c => ¬ c.sets id) (collect g polls pending) := by
  refine collect_within (S := fun a => a ≠ id) ⟨?_, ?_, ?_⟩ polls pending ?_
  · rintro c hq ⟨_, _, _, _, rfl⟩
    exact hq
  · rintro actionId state result error hne - ⟨_, _, _, _, heq⟩
    injection heq with heq
    injection heq with heq
    exact hne heq
  · rintro reason detail - ⟨_, _, _, _, heq⟩
    cases heq
  · rintro e he rfl
    exact hid (List.mem_map_of_mem he)

theorem ResultRecorded.records {result : ActionResult} (h : ResultRecorded calls id result) :
    ∃ e ∈ calls, Call.records id e.1 := ⟨_, h, result, rfl⟩

theorem ResultDropped.drops (h : ResultDropped calls id) : ∃ e ∈ calls, Call.drops id e.1 := by
  obtain ⟨error, reply, hmem⟩ := h
  exact ⟨_, hmem, error, rfl⟩

theorem Call.records.sets {c : Call} (h : c.records id) : c.sets id := by
  obtain ⟨result, rfl⟩ := h
  exact ⟨_, _, _, _, rfl⟩

theorem Call.drops.sets {c : Call} (h : c.drops id) : c.sets id := by
  obtain ⟨error, rfl⟩ := h
  exact ⟨_, _, _, _, rfl⟩

/-! ## The parts of a round -/

theorem orAbandon_executes {α : Type} {p : Engine α} {y : Except Raised α}
    (h : (orAbandon pending p).run.Executes calls y) : ∃ first z second, calls = first ++ second ∧
      p.run.Executes first z ∧ ∀ a, z = .ok a ∨ y = .ok a → second = [] ∧ z = .ok a ∧ y = .ok a := by
  rcases Prog.Executes.of_raising h with ⟨first, r, second, rfl, hfirst, hsecond⟩ | ⟨e, hattempt, rfl⟩
  · obtain ⟨first, z, last, rfl, hp, hret⟩ := Prog.Executes.of_bind hfirst
    cases hret
    rw [List.append_nil]
    refine ⟨first, r, second, rfl, hp, ?_⟩
    cases r with
    | ok =>
      cases hsecond
      rintro a (ha | ha) <;> exact ⟨rfl, ha, ha⟩
    | error =>
      rintro a (ha | rfl)
      · cases ha
      · rcases Prog.Executes.of_raising hsecond with ⟨_, _, _, _, _, hthrow⟩ | ⟨_, _, he⟩
        · cases hthrow
        · cases he
  · obtain ⟨_, _, last, _, _, hret⟩ := Prog.Executes.of_bind hattempt
    cases hret

theorem orAbandon_ok {α : Type} {p : Engine α} {a : α} (h : (orAbandon pending p).run.Executes calls (.ok a)) :
    p.run.Executes calls (.ok a) := by
  obtain ⟨first, z, second, rfl, hp, hends⟩ := orAbandon_executes h
  obtain ⟨rfl, rfl, -⟩ := hends a (Or.inr rfl)
  rw [List.append_nil]
  exact hp

theorem transact_ok {op : GoalOp} {a : op.Reply} (h : (transact op).run.Executes calls (.ok a)) :
    calls = [⟨.transact op, .ok a⟩] := by
  rcases Prog.Executes.of_raising h with ⟨first, r, second, rfl, hfirst, hsecond⟩ | ⟨e, _, he⟩
  · cases hfirst with
    | step _ _ reply rest _ hrest =>
      cases hrest
      cases hsecond' : r with
      | ok =>
        rw [hsecond'] at hsecond
        cases hsecond
        rfl
      | error =>
        rw [hsecond'] at hsecond
        cases hsecond
  · cases he

/-- **What one wait records**: the results of the actions that do not stay pending, and no others. -/
theorem settle_records : ∀ {outcomes : List (String × Except String ActionResult)}
    {pending left : List (String × DispatchHandle)} {calls : List Reply},
    (settle outcomes pending).run.Executes calls (.ok left) →
      (∀ id ∈ left.map Prod.fst, id ∈ pending.map Prod.fst ∧ ∀ result, ¬ ResultRecorded calls id result) ∧
        ∀ id ∈ pending.map Prod.fst, id ∉ left.map Prod.fst →
          ∃ outcome, (id, outcome) ∈ outcomes ∧ ∀ result, outcome = .ok result → ResultRecorded calls id result
  | [], pending, left, calls, h => by
    cases h
    exact ⟨fun id hid => ⟨hid, (by rintro _ ⟨⟩)⟩, fun id hid hleft => absurd hid hleft⟩
  | outcome :: rest, pending, left, calls, h => by
    unfold settle at h
    split at h
    · rename_i hmem
      rcases Prog.Executes.of_raising h with ⟨first, _, second, rfl, hfirst, hsecond⟩ | ⟨e, _, he⟩
      · have hrecord : (recordOutcome outcome).run.Executes first (.ok ()) := orAbandon_ok hfirst
        obtain ⟨hstay, hgone⟩ := settle_records hsecond
        have hfilter : ∀ id, id ∈ (pending.filter fun p => p.1 ≠ outcome.1).map Prod.fst ↔
            id ∈ pending.map Prod.fst ∧ id ≠ outcome.1 := by
          intro id
          simp only [List.mem_map, List.mem_filter, decide_eq_true_eq]
          constructor
          · rintro ⟨p, ⟨hp, hne⟩, rfl⟩
            exact ⟨⟨p, hp, rfl⟩, hne⟩
          · rintro ⟨⟨p, hp, rfl⟩, hne⟩
            exact ⟨p, ⟨hp, hne⟩, rfl⟩
        refine ⟨fun id hid => ?_, fun id hid hleft => ?_⟩
        · obtain ⟨hin, hnot⟩ := hstay id hid
          obtain ⟨hpending, hne⟩ := (hfilter id).mp hin
          refine ⟨hpending, fun result hrec => ?_⟩
          rcases List.mem_append.mp hrec with hrec | hrec
          · obtain ⟨e, he, hrecords⟩ := ResultRecorded.records hrec
            exact hrecord.all (recordOutcome_sets (Ne.symm hne)) e he hrecords.sets
          · exact hnot result hrec
        · by_cases hne : id = outcome.1
          · subst hne
            refine ⟨outcome.2, List.mem_cons_self, fun result hresult => List.mem_append_left _ ?_⟩
            unfold recordOutcome at hrecord
            rw [hresult] at hrecord
            rw [transact_ok hrecord]
            exact List.mem_cons_self
          · obtain ⟨o, ho, hrec⟩ := hgone id ((hfilter id).mpr ⟨hid, hne⟩) hleft
            exact ⟨o, List.mem_cons_of_mem _ ho, fun result h => List.mem_append_right _ (hrec result h)⟩
      · cases he
    · rename_i hmem
      obtain ⟨hstay, hgone⟩ := settle_records h
      refine ⟨hstay, fun id hid hleft => ?_⟩
      obtain ⟨o, ho, hrec⟩ := hgone id hid hleft
      exact ⟨o, List.mem_cons_of_mem _ ho, hrec⟩

end

/-! ## When a control is noticed -/

section

variable {g : String} {calls first second : List Reply} {n : Nat} {ids : List String} {c : Collectors}

theorem Noticed.cons {e : Reply} (h : Noticed g (e :: calls) n ids) :
    (∃ outcomes checks rest, e = ⟨.collected ids, outcomes⟩ ∧ calls = checks ++ rest ∧
      (workEnds g).run.Executes checks (.ok true) ∧ n = checks.length + 1) ∨
      ∃ m, n = m + 1 ∧ Noticed g calls m ids := by
  obtain ⟨front, outcomes, checks, rest, hsplit, hchecks, rfl⟩ := h
  cases front with
  | nil =>
    obtain ⟨rfl, rfl⟩ := List.cons.inj hsplit
    exact Or.inl ⟨outcomes, checks, rest, rfl, rfl, hchecks, by simp⟩
  | cons d front =>
    obtain ⟨rfl, rfl⟩ := List.cons.inj hsplit
    refine Or.inr ⟨front.length + (checks.length + 1), ?_, front, outcomes, checks, rest, rfl, hchecks, rfl⟩
    rw [List.length_cons]
    omega

theorem Noticed.of_append (hfirst : ∀ e ∈ first, ¬ Call.waits e.1) (h : Noticed g (first ++ second) n ids) :
    ∃ m, n = first.length + m ∧ Noticed g second m ids := by
  induction first generalizing n with
  | nil => exact ⟨n, by simp, h⟩
  | cons e first ih =>
    rcases h.cons with ⟨outcomes, _, _, rfl, _, _, _⟩ | ⟨m, rfl, hm⟩
    · exact absurd ⟨ids, rfl⟩ (hfirst _ List.mem_cons_self)
    · obtain ⟨k, rfl, hk⟩ := ih (fun d hd => hfirst d (List.mem_cons_of_mem _ hd)) hm
      exact ⟨k, by rw [List.length_cons]; omega, hk⟩

theorem Noticed.false_of_waitless (hcalls : ∀ e ∈ calls, ¬ Call.waits e.1) (h : Noticed g calls n ids) : False := by
  obtain ⟨front, outcomes, checks, rest, rfl, _, _⟩ := h
  exact hcalls ⟨.collected ids, outcomes⟩ (by simp) ⟨ids, rfl⟩

theorem Inspects.after (h : Inspects c (first ++ second)) : Inspects (c.after first.length) second := by
  intro n ids outcomes hcall id outcome
  refine h (first.length + n) ids outcomes ?_ id outcome
  rw [List.getElem?_append_right (Nat.le_add_right _ _), Nat.add_sub_cancel_left]
  exact hcall

/-- What has become of the actions when a control is noticed: those that were still awaited have no recorded result,
and those that were not have the outcome that their collector returned. -/
structure Outcomes (c : Collectors) (pending : List (String × DispatchHandle)) (calls : List Reply) (n : Nat)
    (ids : List String) : Prop where
  awaited : ∀ id ∈ ids, id ∈ pending.map Prod.fst ∧ ∀ result, ¬ ResultRecorded calls id result
  settled : ∀ id ∈ pending.map Prod.fst, id ∉ ids → ∃ outcome, c.returned id n = some outcome ∧
    (∀ result, outcome = .ok result → ResultRecorded calls id result) ∧ ¬ ResultDropped calls id

variable {outcomes : List (String × Except String ActionResult)}

theorem outcomes_now {pending : List (String × DispatchHandle)} {checks cancels : List Reply} {y : Except Raised Unit}
    (hchecks : (workEnds g).run.Executes checks (.ok true))
    (hcancels : (requestCancellations pending >>= fun _ => cancelPending pending).run.Executes cancels y) :
    Outcomes c pending (⟨.collected (pending.map Prod.fst), outcomes⟩ :: (checks ++ cancels)) n
      (pending.map Prod.fst) where
  awaited id hid := by
    refine ⟨hid, fun result hrec => ?_⟩
    obtain ⟨e, he, hrecords⟩ := hrec.records
    rcases List.mem_cons.mp he with rfl | he
    · obtain ⟨_, h⟩ := hrecords
      cases h
    · rcases List.mem_append.mp he with he | he
      · exact hchecks.all (workEnds_all (checks_records g id)) e he hrecords
      · have hnone : ∀ id' error, ¬ Call.records id (.transact (.setAction id' .cancelled none none error)) := by
          rintro id' error ⟨result, h⟩
          simp at h
        have hall : Prog.Obeys (fun c => ¬ c.records id)
            (requestCancellations pending >>= fun _ => cancelPending pending) :=
          .bind (requestCancellations_all (checks_records g id) pending) fun _ =>
            cancelPending_all (checks_records g id) hnone pending
        exact hcancels.all hall e he hrecords
  settled id hid hnot := absurd hid hnot

/-- The control is noticed in a later round. -/
theorem outcomes_later {pending left : List (String × DispatchHandle)} {checks settled last : List Reply}
    {ends : Bool} {y : Except Raised Unit} {polls m : Nat} (hchecks : (workEnds g).run.Executes checks (.ok ends))
    (hsettled : (settle outcomes pending).run.Executes settled (.ok left))
    (hlast : (collect g polls left).run.Executes last y)
    (hseen : ∀ id outcome, (id, outcome) ∈ outcomes → c.returned id 0 = some outcome)
    (h : Outcomes (c.after ((checks ++ settled).length + 1)) left last m ids) :
    Outcomes c pending (⟨.collected (pending.map Prod.fst), outcomes⟩ :: (checks ++ (settled ++ last)))
      ((checks ++ settled).length + 1 + m) ids where
  awaited id hid := by
    obtain ⟨hleft, hnot⟩ := h.awaited id hid
    obtain ⟨hpending, hnot'⟩ := (settle_records hsettled).1 id hleft
    refine ⟨hpending, fun result hrec => ?_⟩
    rcases List.mem_cons.mp hrec with heq | hrec
    · cases heq
    · rcases List.mem_append.mp hrec with hrec | hrec
      · exact hchecks.all (workEnds_all (checks_records g id)) _ hrec ⟨result, rfl⟩
      · rcases List.mem_append.mp hrec with hrec | hrec
        · exact hnot' result hrec
        · exact hnot result hrec
  settled id hid hnot := by
    have hdropped : ¬ ResultDropped last id → ¬ ResultDropped (⟨.collected (pending.map Prod.fst), outcomes⟩ ::
        (checks ++ (settled ++ last))) id := by
      rintro hlater ⟨error, reply, hmem⟩
      rcases List.mem_cons.mp hmem with heq | hmem
      · cases heq
      · rcases List.mem_append.mp hmem with hmem | hmem
        · exact hchecks.all (workEnds_all (checks_drops g id)) _ hmem ⟨error, rfl⟩
        · rcases List.mem_append.mp hmem with hmem | hmem
          · exact hsettled.all (settle_all (checks_drops g id) (recordOutcome_drops id) _ _) _ hmem ⟨error, rfl⟩
          · exact hlater ⟨error, reply, hmem⟩
    by_cases hleft : id ∈ left.map Prod.fst
    · obtain ⟨outcome, hreturned, hrec, hlater⟩ := h.settled id hleft hnot
      refine ⟨outcome, hreturned, fun result hresult => ?_, hdropped hlater⟩
      exact List.mem_cons_of_mem _ (List.mem_append_right _ (List.mem_append_right _ (hrec result hresult)))
    · obtain ⟨outcome, hmem, hrec⟩ := (settle_records hsettled).2 id hid hleft
      refine ⟨outcome, c.lasting id 0 _ outcome (Nat.zero_le _) (hseen id outcome hmem), fun result hresult => ?_,
        hdropped fun hdrop => ?_⟩
      · exact List.mem_cons_of_mem _ (List.mem_append_right _ (List.mem_append_left _ (hrec result hresult)))
      · obtain ⟨e, he, hdrops⟩ := hdrop.drops
        exact hlast.all (collect_sets hleft polls) e he hdrops.sets

theorem ending_waits (pending : List (String × DispatchHandle)) :
    Prog.Obeys (fun c => ¬ c.waits) (requestCancellations pending >>= fun _ => cancelPending pending) := by
  refine .bind (requestCancellations_all (checks_waits "") pending) fun _ =>
    cancelPending_all (checks_waits "") ?_ pending
  rintro id error ⟨_, h⟩
  cases h

/-- **The actions at the moment of a control.** -/
theorem collect_noticed : ∀ {polls : Nat} {pending : List (String × DispatchHandle)} {calls : List Reply}
    {x : Except Raised Unit} {c : Collectors} {n : Nat}, (collect g polls pending).run.Executes calls x →
      Inspects c calls → Noticed g calls n ids → Outcomes c pending calls n ids := by
  intro polls
  induction polls with
  | zero =>
    intro pending calls x c n hx _ hn
    have hwaitless : Prog.Obeys (fun c => ¬ c.waits) (collect g 0 pending) := by
      cases pending with
      | nil => exact .pure _
      | cons p ps => exact orAbandon_all (checks_waits g) _ (.throw _)
    exact (hn.false_of_waitless fun e he => hx.all hwaitless e he).elim
  | succ polls ih =>
    intro pending calls x c n hx hc hn
    cases pending with
    | nil =>
      have hwaitless : Prog.Obeys (fun c => ¬ c.waits) (collect g (polls + 1) []) := .pure _
      exact (hn.false_of_waitless fun e he => hx.all hwaitless e he).elim
    | cons p ps =>
      unfold collect at hx
      generalize hpending : p :: ps = pending at hx ⊢
      cases hx with
      | step _ _ outcomes rest _ hrest =>
      have hseen : ∀ id outcome, (id, outcome) ∈ outcomes → c.returned id 0 = some outcome := fun id outcome hmem =>
        ((hc 0 _ outcomes rfl id outcome).mp hmem).2
      have hguard : Prog.Obeys (fun c => ¬ c.waits) (orAbandon pending (workEnds g)) :=
        orAbandon_all (checks_waits g) _ (workEnds_all (checks_waits g))
      rcases Prog.Executes.of_raising hrest with ⟨checks, ends, second, rfl, hends, hsecond⟩ | ⟨e, hends, rfl⟩
      · have hchecks := orAbandon_ok hends
        rcases hn.cons with ⟨_, checks', rest', heq, hsplit, hchecks', rfl⟩ | ⟨m, rfl, hm⟩
        · -- the check after this wait finds it
          obtain ⟨-, htrue⟩ := hchecks.deterministic hchecks' hsplit
          obtain rfl := Except.ok.inj htrue
          obtain rfl : pending.map Prod.fst = ids := by
            obtain ⟨hcall, -⟩ := Sigma.mk.inj heq
            exact Call.collected.inj hcall
          exact outcomes_now hchecks hsecond
        · obtain ⟨k, rfl, hk⟩ := hm.of_append fun e he => hends.all hguard e he
          cases ends with
          | true => exact (hk.false_of_waitless fun e he => hsecond.all (ending_waits pending) e he).elim
          | false =>
            have hsettle : Prog.Obeys (fun c => ¬ c.waits) (settle outcomes pending) :=
              settle_all (checks_waits g) recordOutcome_waits _ _
            rcases Prog.Executes.of_raising hsecond with
              ⟨settled, left, last, rfl, hsettled, hlast⟩ | ⟨e, hsettled, rfl⟩
            · obtain ⟨j, rfl, hj⟩ := hk.of_append fun e he => hsettled.all hsettle e he
              have hall : (⟨.collected (pending.map Prod.fst), outcomes⟩ :: (checks ++ (settled ++ last)) :
                  List Reply) = (⟨.collected (pending.map Prod.fst), outcomes⟩ :: (checks ++ settled)) ++ last := by
                rw [List.cons_append, List.append_assoc]
              have hlater : Inspects (c.after ((checks ++ settled).length + 1)) last := by
                rw [hall] at hc
                exact hc.after
              have hcount : checks.length + (settled.length + j) + 1 = (checks ++ settled).length + 1 + j := by
                rw [List.length_append]
                omega
              rw [hcount]
              exact outcomes_later hchecks hsettled hlast hseen (ih hlast hlater hj)
            · exact (hk.false_of_waitless fun e he => hsettled.all hsettle e he).elim
      · rcases hn.cons with ⟨_, checks', rest', heq, rfl, hchecks', rfl⟩ | ⟨m, rfl, hm⟩
        · -- the check would have raised
          obtain ⟨first, z, second, hsplit, hfirst, hover⟩ := orAbandon_executes hends
          obtain ⟨-, rfl⟩ := hfirst.deterministic hchecks' hsplit.symm
          cases (hover true (Or.inl rfl)).2.2
        · exact (hm.false_of_waitless fun e he => hends.all hguard e he).elim

end

/-! ## No result is lost -/

section

variable {g : String} {pending : List (String × DispatchHandle)} {calls : List Reply}

/-- What a collector had returned when a control was noticed is recorded, and the action is not cancelled without
it. -/
def ResultsKept (g : String) (c : Collectors) (pending : List (String × DispatchHandle)) (calls : List Reply) :
    Prop :=
  ∀ n ids, Noticed g calls n ids → ∀ id ∈ pending.map Prod.fst, ∀ result, c.returned id n = some (.ok result) →
    ResultRecorded calls id result ∧ ¬ ResultDropped calls id

/-- No collector that is still awaited has returned a result when a control is noticed. -/
def Unreturned (g : String) (c : Collectors) (calls : List Reply) : Prop :=
  ∀ n ids, Noticed g calls n ids → ∀ id ∈ ids, ∀ result, c.returned id n ≠ some (.ok result)

/-- **Results under a control.**  Whatever actions are collected, in whatever order their collectors finish and
whenever a control or a limit ends the work, no result is lost exactly if no collector that the engine still waits for
has returned one when the engine notices. -/
theorem collected_results_iff (polls : Nat) (c : Collectors) {x : Except Raised Unit}
    (hx : (collect g polls pending).run.Executes calls x) (hc : Inspects c calls) :
    ResultsKept g c pending calls ↔ Unreturned g c calls := by
  constructor
  · intro hkept n ids hn id hid result hreturned
    obtain ⟨hpending, hnot⟩ := (collect_noticed hx hc hn).awaited id hid
    exact hnot result (hkept n ids hn id hpending result hreturned).1
  · intro hnone n ids hn id hid result hreturned
    have hgone : id ∉ ids := fun hid' => hnone n ids hn id hid' result hreturned
    obtain ⟨outcome, hreturned', hrec, hkept⟩ := (collect_noticed hx hc hn).settled id hid hgone
    rw [hreturned] at hreturned'
    exact ⟨hrec result (Option.some.inj hreturned').symm, hkept⟩

end

/-! ## A result that is thrown away, and one that is kept -/

section

private def success : ActionResult := ⟨true, "", "", false⟩

private def handleOf (id : String) : DispatchHandle := ⟨id, some id, ""⟩

/-- A goal in the given state, without limits. -/
private def goalIn (state : GoalState) : GoalRow where
  projectId := "p"
  state := state
  terminationReason := none
  terminationDetail := none
  budgets := {}
  iterationCount := 1
  noProgressCount := 0
  taskCount := 2
  failureCount := 0
  steerVersion := 0
  progressFingerprint := none
  startedAt := none

/-- The action `a` has succeeded, and nothing else has finished. -/
private def firstDone : Collectors where
  returned id _ := if id = "a" then some (.ok success) else none
  lasting _ _ _ _ _ h := h

private def cancelled (id : String) : Reply :=
  ⟨.transact (.setAction id .cancelled none none (some "collection stopped after terminal control")), .ok ()⟩

/-- The goal is stopped while the action finishes. -/
private def stoppedAtOnce : List Reply :=
  [⟨.collected ["a"], [("a", .ok success)]⟩, ⟨.getGoal "g", .ok (goalIn .stopped)⟩, ⟨.assertOwnership, .ok ()⟩,
    ⟨.cancel (handleOf "a"), true⟩, cancelled "a"]

/-- The engine has seen the result, and cancels the action without it. -/
theorem stop_discards_result : (collect "g" 1 [("a", handleOf "a")]).run.Executes stoppedAtOnce (.ok ()) ∧
    Inspects firstDone stoppedAtOnce ∧ ¬ ResultsKept "g" firstDone [("a", handleOf "a")] stoppedAtOnce := by
  refine ⟨?_, ?_, ?_⟩
  · exact .step _ _ _ _ _ (.step _ _ _ _ _ (.step _ _ _ _ _ (.step _ _ _ _ _ (.step _ _ _ _ _ (.done _)))))
  · intro n ids outcomes hcall id outcome
    match n with
    | 0 =>
      cases hcall
      constructor
      · intro hmem
        obtain ⟨rfl, rfl⟩ := Prod.mk.inj (List.mem_singleton.mp hmem)
        exact ⟨List.mem_cons_self, rfl⟩
      · rintro ⟨hid, hreturned⟩
        obtain rfl := List.mem_singleton.mp hid
        obtain rfl := Option.some.inj hreturned
        exact List.mem_cons_self
    | 1 | 2 | 3 | 4 => cases hcall
    | n + 5 => cases hcall
  · intro hkept
    have hnoticed : Noticed "g" stoppedAtOnce 3 ["a"] :=
      ⟨[], _, [_, _], _, rfl, .step _ _ _ _ _ (.step _ _ _ _ _ (.done _)), rfl⟩
    obtain ⟨hrec, -⟩ := hkept 3 ["a"] hnoticed "a" List.mem_cons_self success rfl
    simp [ResultRecorded, stoppedAtOnce, cancelled] at hrec

/-- The first action is recorded before the goal is stopped, and the second one is still at work. -/
private def stoppedLater : List Reply :=
  [⟨.collected ["a", "b"], [("a", .ok success)]⟩, ⟨.getGoal "g", .ok (goalIn .running)⟩, ⟨.assertOwnership, .ok ()⟩,
    ⟨.now, 0⟩, ⟨.transact (.setAction "a" .completed none (some success) none), .ok ()⟩, ⟨.collected ["b"], []⟩,
    ⟨.getGoal "g", .ok (goalIn .stopped)⟩, ⟨.assertOwnership, .ok ()⟩, ⟨.cancel (handleOf "b"), true⟩, cancelled "b"]

theorem later_stop_keeps_result :
    ResultsKept "g" firstDone [("a", handleOf "a"), ("b", handleOf "b")] stoppedLater := by
  have hx : (collect "g" 2 [("a", handleOf "a"), ("b", handleOf "b")]).run.Executes stoppedLater (.ok ()) :=
    .step _ _ _ _ _ (.step _ _ _ _ _ (.step _ _ _ _ _ (.step _ _ _ _ _ (.step _ _ _ _ _ (.step _ _ _ _ _
      (.step _ _ _ _ _ (.step _ _ _ _ _ (.step _ _ _ _ _ (.step _ _ _ _ _ (.done _))))))))))
  have hc : Inspects firstDone stoppedLater := by
    intro n ids outcomes hcall id outcome
    match n with
    | 0 =>
      cases hcall
      constructor
      · intro hmem
        obtain ⟨rfl, rfl⟩ := Prod.mk.inj (List.mem_singleton.mp hmem)
        exact ⟨List.mem_cons_self, rfl⟩
      · rintro ⟨_, hreturned⟩
        by_cases hid : id = "a"
        · subst hid
          obtain rfl := Option.some.inj hreturned
          exact List.mem_cons_self
        · simp [firstDone, hid] at hreturned
    | 5 =>
      cases hcall
      refine iff_of_false List.not_mem_nil ?_
      rintro ⟨hid, hreturned⟩
      obtain rfl := List.mem_singleton.mp hid
      cases hreturned
    | 1 | 2 | 3 | 4 | 6 | 7 | 8 | 9 => cases hcall
    | n + 10 => cases hcall
  refine (collected_results_iff 2 firstDone hx hc).mpr ?_
  intro n ids hn id hid result hreturned
  -- the stop is noticed after the second wait, for the second action only
  have hids : ids = ["b"] := by
    have hrunning : (workEnds "g").run.Executes
        [⟨.getGoal "g", .ok (goalIn .running)⟩, ⟨.assertOwnership, .ok ()⟩, ⟨.now, 0⟩] (.ok false) :=
      .step _ _ _ _ _ (.step _ _ _ _ _ (.step _ _ _ _ _ (.done _)))
    rcases hn.cons with ⟨_, checks, rest, -, hsplit, hchecks, -⟩ | ⟨m, -, hm⟩
    · cases (hrunning.deterministic hchecks hsplit).2
    · have hbusy : ∀ e ∈ stoppedLater.tail.take 4, ¬ Call.waits e.1 := by simp [stoppedLater, Call.waits]
      have hm : Noticed "g" (stoppedLater.tail.take 4 ++ stoppedLater.drop 5) m ids := hm
      obtain ⟨k, -, hk⟩ := Noticed.of_append hbusy hm
      rcases hk.cons with ⟨_, _, _, heq, -, -, -⟩ | ⟨_, -, hlater⟩
      · exact (Call.collected.inj (Sigma.mk.inj heq).1).symm
      · exact (hlater.false_of_waitless (by simp [Call.waits, cancelled])).elim
  subst hids
  obtain rfl := List.mem_singleton.mp hid
  cases hreturned

end

end AgentFabric.Autonomy
