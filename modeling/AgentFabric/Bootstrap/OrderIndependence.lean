import AgentFabric.Bootstrap.Progress

/-!
# The order of the results

Accepted results lead to the same progress in every order, also when some of them are sent again.
-/

namespace AgentFabric.Bootstrap

open AgentFabric.Lib

variable {P : Platform}

/-! ## What the digest of a result determines -/

section Digest

theorem protocolKeys : [lit "schemaVersion", lit "runID", lit "stepID", lit "idempotencyKey", lit "outcome",
    lit "executionMode", lit "actor", lit "observedAt", lit "evidence", lit "authorization"].Nodup :=
      of_decide_eq_true rfl

theorem authorizationKeys : [lit "grantReference", lit "capability", lit "subject", lit "verifiedBy",
    lit "authorityType"].Nodup := of_decide_eq_true rfl

theorem AuthorizationReference.toProtocol_readable (a : AuthorizationReference) : (a.toProtocol P).Readable := by
  have hid := a.identified
  simp only [Bool.and_eq_true] at hid
  have htype : Plain a.authorityType.value := by cases a.authorityType <;> exact plain_of_ascii rfl
  refine .dict authorizationKeys (fun e he => ?_) fun e he => ?_
  · simp only [List.mem_cons, List.not_mem_nil, or_false] at he
    rcases he with rfl | rfl | rfl | rfl | rfl <;> exact (plain_of_ascii rfl).joined
  · simp only [List.mem_cons, List.not_mem_nil, or_false] at he
    rcases he with rfl | rfl | rfl | rfl | rfl
    · exact .str (isIdentifier_plain hid.1.1).joined
    · exact .str (isCapability_plain a.capable).joined
    · exact .str (isIdentifier_plain hid.1.2).joined
    · exact .str (isIdentifier_plain hid.2).joined
    · exact .str htype.joined

/-- A result is an object as JSON carries it. -/
theorem StepResult.toProtocol_readable (r : StepResult P) : (r.toProtocol P).Readable := by
  have hid := r.identified
  simp only [Bool.and_eq_true] at hid
  have houtcome : Plain r.outcome.value := by cases r.outcome <;> exact plain_of_ascii rfl
  have hmode : Plain r.executionMode.value := by cases r.executionMode <;> exact plain_of_ascii rfl
  refine .dict protocolKeys (fun e he => ?_) fun e he => ?_
  · simp only [List.mem_cons, List.not_mem_nil, or_false] at he
    rcases he with rfl | rfl | rfl | rfl | rfl | rfl | rfl | rfl | rfl | rfl <;> exact (plain_of_ascii rfl).joined
  · simp only [List.mem_cons, List.not_mem_nil, or_false] at he
    rcases he with rfl | rfl | rfl | rfl | rfl | rfl | rfl | rfl | rfl | rfl
    · exact .int 1
    · exact .str (isIdentifier_plain hid.1.1.1).joined
    · exact .str (isIdentifier_plain hid.1.1.2).joined
    · exact .str (isIdentifier_plain hid.1.2).joined
    · exact .str houtcome.joined
    · exact .str hmode.joined
    · exact .str (isIdentifier_plain hid.2).joined
    · exact .str r.observedAt.plain.joined
    · exact r.readable
    · cases r.authorization with
      | none => exact .none
      | some a => exact a.toProtocol_readable

/-- The digest of a result determines what is recorded of it. -/
theorem StepResult.same_of_digest (hP : Function.Injective P.hexdigest) {r q : StepResult P} (h : r.digest = q.digest) :
    (r.toProtocol P).Same (q.toProtocol P) := by
  have hdocument : r.document = q.document := hP h
  have hr := r.written
  rw [hdocument, ← q.written] at hr
  obtain ⟨s, hs, hs'⟩ := Option.map_eq_some_iff.mp r.written
  obtain ⟨t, ht, ht'⟩ := Option.map_eq_some_iff.mp q.written
  obtain rfl := List.append_cancel_right (hs'.trans (hdocument.trans ht'.symm))
  exact canonicalText_injective r.toProtocol_readable q.toProtocol_readable hs ht

theorem Outcome.value_inj {a b : Outcome} (h : a.value = b.value) : a = b := by
  revert h
  cases a <;> cases b <;> decide

theorem StepResult.fields_of_same {r q : StepResult P} (h : (r.toProtocol P).Same (q.toProtocol P)) :
    r.runId = q.runId ∧ r.stepId = q.stepId ∧ r.outcome = q.outcome := by
  have hfield := lookup_of_same (by exact protocolKeys) (by exact protocolKeys) h
  exact ⟨Value.str.inj (Option.some.inj (hfield (lit "runID"))),
    Value.str.inj (Option.some.inj (hfield (lit "stepID"))),
    Outcome.value_inj (Value.str.inj (Option.some.inj (hfield (lit "outcome"))))⟩

end Digest

/-! ## The state of a step -/

section States

variable {start steps steps' mid : List (StepRow P)}

theorem Moves.blocked_iff (h : Moves steps steps') (hsound : Sound steps) {s : StepRow P} (hs : s.state = .blocked) :
    s ∈ steps ↔ s ∈ steps' := by
  induction h with
  | refl => exact Iff.rfl
  | tail hmoves hmove ih =>
    have hmid := Moves.sound hmoves hsound
    obtain ⟨t, t', hrep⟩ := hmove.replaces hmid
    rw [ih, hrep.mem_iff]
    constructor
    · intro hmem
      refine Or.inl ⟨hmem, fun heq => ?_⟩
      rw [eq_of_stepId hmid.nodup hmem hrep.mem heq] at hs
      exact hrep.unblocked hs
    · rintro (⟨hmem, -⟩ | rfl)
      · exact hmem
      · have hbegun := hrep.begun
        rw [hs] at hbegun
        cases hbegun

/-- A step is satisfied that was planned as not needed, unless it is blocked or depends on one that is not satisfied. -/
theorem satisfied_of_notNeeded (hsound : Sound steps) (hsettled : Settled steps) {s : StepRow P} (hs : s ∈ steps)
    (hplan : s.planStatus = lit "notNeeded") (hblocked : s.state ≠ .blocked)
    (hdeps : dependenciesSatisfied steps s.dependencies = true) : s.state = .satisfied := by
  have hcons := hsound.consistent s hs
  have hnext : s.nextState = .satisfied := if_pos hplan
  unfold StepRow.Consistent at hcons
  cases hstate : s.state with
  | satisfied => rfl
  | blocked => exact absurd hstate hblocked
  | pending =>
    rw [hsettled s hs hstate] at hdeps
    cases hdeps
  | failed =>
    rw [hstate] at hcons
    obtain ⟨_, -, -, -, -, hneeded⟩ := hcons
    exact absurd hplan hneeded
  | ready =>
    rw [hstate, hnext] at hcons
    cases hcons.2
  | awaitingReview =>
    rw [hstate, hnext] at hcons
    cases hcons.2
  | awaitingApproval =>
    rw [hstate, hnext] at hcons
    cases hcons.2

def StepRow.outcome (s : StepRow P) : Option Outcome := s.result.map fun r => r.outcome

/-- The state of a step between two calls. -/
theorem StepRow.state_eq (hsound : Sound steps) (hsettled : Settled steps) {s : StepRow P} (hs : s ∈ steps) :
    s.state = match s.outcome with
      | some o => o.stepState
      | none =>
        if s.state = .blocked then .blocked
        else if dependenciesSatisfied steps s.dependencies then s.nextState else .pending := by
  have hcons := hsound.consistent s hs
  have hdeps := hsound.dependencies s hs
  unfold StepRow.Consistent at hcons
  unfold StepRow.outcome
  cases hstate : s.state with
  | pending =>
    rw [hstate] at hcons
    simp [hcons, hsettled s hs hstate]
  | blocked =>
    rw [hstate] at hcons
    simp [hcons]
  | failed =>
    rw [hstate] at hcons
    obtain ⟨r, hr, -, houtcome, -⟩ := hcons
    simp [hr, houtcome, Outcome.stepState]
  | satisfied =>
    rw [hstate] at hcons hdeps
    rcases hcons with ⟨hnone, hplan⟩ | ⟨r, hr, -, houtcome, -⟩
    · simp [hnone, hdeps rfl, StepRow.nextState, hplan]
    · simp [hr, houtcome, Outcome.stepState]
  | ready =>
    rw [hstate] at hcons hdeps
    simp [hcons.1, hdeps rfl, ← hcons.2]
  | awaitingReview =>
    rw [hstate] at hcons hdeps
    simp [hcons.1, hdeps rfl, ← hcons.2]
  | awaitingApproval =>
    rw [hstate] at hcons hdeps
    simp [hcons.1, hdeps rfl, ← hcons.2]

/-- The results of one run are among those of the other. -/
def Covers (steps steps' : List (StepRow P)) : Prop :=
  ∀ s ∈ steps, ∀ o, s.outcome = some o → ∃ t ∈ steps', t.stepId = s.stepId ∧ t.outcome = some o

/-- **What is satisfied on the way is satisfied in the end**, on any other way that records the same results. -/
theorem satisfiedIn_of_moves (hsound : Sound start) (h : Moves start mid) (hrest : Moves mid steps)
    (h' : Moves start steps') (hsettled : Settled steps') (hcovers : Covers steps steps') {d : Text}
    (hd : SatisfiedIn mid d) : SatisfiedIn steps' d := by
  have hsound' := h'.sound hsound
  induction h generalizing d with
  | refl =>
    obtain ⟨t, ht, hid, hstate⟩ := hd
    exact ⟨t, h'.keeps hsound ht (Or.inl hstate), hid, hstate⟩
  | @tail mid next hmoves hmove ih =>
    have hmid := Moves.sound hmoves hsound
    have ih : ∀ {d}, SatisfiedIn mid d → SatisfiedIn steps' d := fun hd => ih (.head hmove hrest) hd
    obtain ⟨t, ht, rfl, hstate⟩ := hd
    rcases hmove with ⟨s, hs, hpending, hdeps, time⟩ | ⟨r, hrecording⟩
    · obtain ⟨u, hu, heq⟩ := mem_updateStep.mp ht
      by_cases hid : u.stepId = s.stepId
      · -- a promotion to satisfied: the step was planned as not needed, and its dependencies are satisfied there too
        rw [eq_of_stepId hmid.nodup hu hs hid, if_pos rfl] at heq
        subst heq
        have hplan : s.planStatus = lit "notNeeded" := by
          rcases s.nextState_cases with ⟨-, hplan⟩ | ⟨hactionable, -⟩
          · exact hplan
          · rw [show s.nextState = .satisfied from hstate] at hactionable
            cases hactionable
        obtain ⟨o, ho, hos⟩ := mem_of_samePlan' (Moves.samePlan hmoves hsound) hs
        obtain ⟨v, hv, hov⟩ := mem_of_samePlan (h'.samePlan hsound) ho
        have hvs : v.stepId = s.stepId := hov.stepId.trans hos.stepId.symm
        refine ⟨v, hv, hvs, satisfied_of_notNeeded hsound' hsettled hv ?_ (fun hblocked => ?_) ?_⟩
        · rw [hov.planStatus, ← hos.planStatus, hplan]
        · have hmem := (Moves.blocked_iff hmoves hsound hblocked).mp ((h'.blocked_iff hsound hblocked).mpr hv)
          rw [eq_of_stepId hmid.nodup hmem hs hvs, hpending] at hblocked
          cases hblocked
        · rw [hov.dependencies, ← hos.dependencies, dependenciesSatisfied_iff hsound'.nodup]
          exact fun d hd => ih ((dependenciesSatisfied_iff hmid.nodup).mp hdeps d hd)
      · rw [if_neg hid] at heq
        exact heq ▸ ih ⟨u, hu, rfl, heq ▸ hstate⟩
    · obtain ⟨s, hs, -, -, -⟩ := id hrecording
      obtain ⟨u, hu, heq⟩ := mem_updateStep.mp ht
      by_cases hid : u.stepId = r.stepId
      · -- a recorded result is recorded there too
        rw [if_pos hid] at heq
        subst heq
        have hnext := Move.sound (Or.inr ⟨r, hrecording⟩) hmid
        have hlast : ({ u with state := r.outcome.stepState, result := some r, updatedAt := r.observedAt.text } :
            StepRow P) ∈ steps := hrest.result hnext ht rfl
        obtain ⟨v, hv, hvs, houtcome⟩ := hcovers _ hlast r.outcome rfl
        refine ⟨v, hv, hvs, ?_⟩
        rw [StepRow.state_eq hsound' hsettled hv, houtcome]
        exact hstate
      · rw [if_neg hid] at heq
        exact heq ▸ ih ⟨u, hu, rfl, heq ▸ hstate⟩

end States

/-! ## Runs in the same states -/

section SameStates

variable {start steps steps' : List (StepRow P)}

def SameState (s t : StepRow P) : Prop := s.stepId = t.stepId ∧ s.phase = t.phase ∧ s.state = t.state

theorem sameState_of_covers (hsound : Sound start) (h : Moves start steps) (h' : Moves start steps')
    (hsettled : Settled steps) (hsettled' : Settled steps') (hcovers : Covers steps steps')
    (hcovers' : Covers steps' steps) :
    List.Forall₂ SameState steps steps' := by
  have hsteps := h.sound hsound
  have hsteps' := h'.sound hsound
  have hstate : ∀ {s t}, s ∈ steps → t ∈ steps' → (∃ o, SamePlan o s ∧ SamePlan o t) → SameState s t := by
    rintro s t hs ht ⟨o, hos, hot⟩
    have hid : s.stepId = t.stepId := hos.stepId.trans hot.stepId.symm
    have houtcome : s.outcome = t.outcome := by
      cases hso : s.outcome with
      | some o =>
        obtain ⟨t', ht', hid', ho⟩ := hcovers s hs o hso
        rw [← eq_of_stepId hsteps'.nodup ht' ht (hid'.trans hid), ho]
      | none =>
        cases hto : t.outcome with
        | none => rfl
        | some o =>
          obtain ⟨s', hs', hid', ho⟩ := hcovers' t ht o hto
          rw [eq_of_stepId hsteps.nodup hs' hs (hid'.trans hid.symm), hso] at ho
          cases ho
    have hblocked : s.state = .blocked ↔ t.state = .blocked := by
      constructor
      · intro hb
        have hmem := (h'.blocked_iff hsound hb).mp ((h.blocked_iff hsound hb).mpr hs)
        rw [← eq_of_stepId hsteps'.nodup hmem ht hid, hb]
      · intro hb
        have hmem := (h.blocked_iff hsound hb).mp ((h'.blocked_iff hsound hb).mpr ht)
        rw [← eq_of_stepId hsteps.nodup hmem hs hid.symm, hb]
    have hdeps : dependenciesSatisfied steps s.dependencies = dependenciesSatisfied steps' t.dependencies := by
      rw [hos.dependencies, hot.dependencies, Bool.eq_iff_iff, dependenciesSatisfied_iff hsteps.nodup,
        dependenciesSatisfied_iff hsteps'.nodup]
      refine forall₂_congr fun d _ => ⟨fun hd => ?_, fun hd => ?_⟩
      · exact satisfiedIn_of_moves hsound h .refl h' hsettled' hcovers hd
      · exact satisfiedIn_of_moves hsound h' .refl h hsettled hcovers' hd
    refine ⟨hid, hos.phase.trans hot.phase.symm, ?_⟩
    rw [StepRow.state_eq hsteps hsettled hs, StepRow.state_eq hsteps' hsettled' ht, houtcome, hdeps, hos.nextState,
      hot.nextState]
    simp only [hblocked]
  have hplan := h.samePlan hsound
  have hplan' := h'.samePlan hsound
  refine List.forall₂_iff_get.mpr ⟨hplan.length_eq.symm.trans hplan'.length_eq, fun i hi hi' => ?_⟩
  have hstart : i < start.length := hplan.length_eq ▸ hi
  exact hstate (List.get_mem _ _) (List.get_mem _ _) ⟨_, hplan.get hstart hi, hplan'.get hstart hi'⟩

theorem currentStep_sameState (h : List.Forall₂ SameState steps steps') :
    (currentStep steps = none ∧ currentStep steps' = none) ∨
      ∃ s t, currentStep steps = some s ∧ currentStep steps' = some t ∧ SameState s t := by
  induction h with
  | nil => exact Or.inl ⟨rfl, rfl⟩
  | @cons s t _ _ hst _ ih =>
    unfold currentStep at ih ⊢
    rw [List.find?_cons, List.find?_cons, ← hst.2.2]
    cases hopen : decide (s.state ≠ .satisfied) with
    | true => exact Or.inr ⟨s, t, rfl, rfl, hst⟩
    | false => exact ih

theorem map_sameState (h : List.Forall₂ SameState steps steps') :
    steps.map (fun s => (s.stepId, s.state)) = steps'.map fun s => (s.stepId, s.state) := by
  induction h with
  | nil => rfl
  | cons hst _ ih => simp only [List.map_cons, hst.1, hst.2.2, ih]

theorem runState_sameState (h : List.Forall₂ SameState steps steps') : runState steps = runState steps' := by
  have hany : (steps.any fun s => decide (s.state = .failed)) = steps'.any fun s => decide (s.state = .failed) := by
    induction h with
    | nil => rfl
    | cons hst _ ih => rw [List.any_cons, List.any_cons, hst.2.2, ih]
  have hall : (steps.all fun s => decide (s.state = .satisfied)) = steps'.all fun s =>
    decide (s.state = .satisfied) := by
    clear hany
    induction h with
    | nil => rfl
    | cons hst _ ih => rw [List.all_cons, List.all_cons, hst.2.2, ih]
  have hempty : steps.isEmpty = steps'.isEmpty := by
    cases h <;> rfl
  unfold runState
  rw [hany, hall, hempty]
  rcases currentStep_sameState h with ⟨h, h'⟩ | ⟨s, t, h, h', hst⟩
  · rw [h, h']
  · simp only [h, h', hst.2.2]

theorem currentPhase_sameState (h : List.Forall₂ SameState steps steps') :
    currentPhase steps = currentPhase steps' := by
  unfold currentPhase
  rcases currentStep_sameState h with ⟨h, h'⟩ | ⟨s, t, h, h', hst⟩
  · rw [h, h']
  · rw [h, h', Option.map_some, Option.map_some, hst.2.1]

end SameStates

/-! ## Sequences of accepted results -/

def AllAccepted : Db P → List (StepResult P) → Prop
  | _, [] => True
  | db, r :: rs => (Call.record r).Accepted db ∧ AllAccepted ((Call.record r).apply db) rs

def Db.HasOutcome (db : Db P) (runId stepId : Text) (o : Outcome) : Prop :=
  ∃ run, db.runs.get? runId = some run ∧ ∃ s ∈ run.steps, s.stepId = stepId ∧ s.outcome = some o

section Recorded

variable {db : Db P} {r : StepResult P}

/-- What an accepted result adds to the outcomes. -/
theorem hasOutcome_record (hP : Function.Injective P.hexdigest) (hkept : AllKept db) (hreceipted : Receipted db)
    (haccept : (Call.record r).Accepted db) {runId stepId : Text} {o : Outcome} :
    ((Call.record r).apply db).HasOutcome runId stepId o ↔
      db.HasOutcome runId stepId o ∨ (r.runId = runId ∧ r.stepId = stepId ∧ r.outcome = o) := by
  obtain ⟨db', hexec⟩ := haccept
  have happly : (Call.record r).apply db = db' := by simp [Call.apply, hexec]
  rw [happly]
  rcases recordResult_ok hexec fun run hrun => (hkept _ run hrun).sound with
    ⟨rfl, receipt, hreceipt, hdigest, hrunId⟩ | ⟨run, mid, steps, hrec⟩
  · -- a replay: the result that was recorded under the key is the same
    obtain ⟨run, q, hrun, -, rfl, s, hs, hq⟩ := hreceipted.receipt _ receipt hreceipt
    obtain ⟨hqrun, hqstep, hqoutcome⟩ := StepResult.fields_of_same (StepResult.same_of_digest hP hdigest)
    obtain ⟨-, hstep, -⟩ := hreceipted.result _ run hrun s hs q hq
    refine ⟨Or.inl, fun h => h.elim id ?_⟩
    rintro ⟨rfl, rfl, rfl⟩
    exact ⟨run, hqrun ▸ hrun, s, hs, hstep.symm.trans hqstep, by simp [StepRow.outcome, hq, hqoutcome]⟩
  · have hsound := (hkept _ run hrec.found).sound
    have hmid := Move.sound (Or.inr ⟨r, hrec.recording⟩) hsound
    by_cases hid : runId = r.runId
    · subst hid
      constructor
      · rintro ⟨run', hrun', s, hs, rfl, houtcome⟩
        obtain rfl := Option.some.inj (hrec.run.symm.trans hrun')
        obtain ⟨q, hq, rfl⟩ := Option.map_eq_some_iff.mp houtcome
        obtain ⟨t, ht, hplan, hresult⟩ := promotions_result hrec.promoted hs
        rw [hresult] at hq
        rcases hrec.recording.result_cases ht hq with ⟨rfl, hstep⟩ | ⟨u, hu, hstep, huq⟩
        · exact Or.inr ⟨rfl, (hplan.stepId.trans hstep).symm, rfl⟩
        · exact Or.inl ⟨run, hrec.found, u, hu, hstep.trans hplan.stepId.symm, by simp [StepRow.outcome, huq]⟩
      · rintro (⟨run', hrun', s, hs, rfl, houtcome⟩ | ⟨-, rfl, rfl⟩)
        · obtain rfl := Option.some.inj (hrec.found.symm.trans hrun')
          obtain ⟨q, hq, -⟩ := Option.map_eq_some_iff.mp houtcome
          exact ⟨_, hrec.run, s, hrec.moves.result hsound hs hq, rfl, houtcome⟩
        · obtain ⟨s, hs, hq, -, hstep⟩ := hrec.recording.recorded
          exact ⟨_, hrec.run, s, (promotions_moves hrec.promoted).result hmid hs hq, hstep, by
            simp [StepRow.outcome, hq]⟩
    · have hsame : db'.HasOutcome runId stepId o ↔ db.HasOutcome runId stepId o := by
        unfold Db.HasOutcome
        rw [hrec.others runId hid]
      rw [hsame]
      exact ⟨Or.inl, fun h => h.elim id fun h => absurd h.1.symm hid⟩

theorem hasOutcome_results (hP : Function.Injective P.hexdigest) {runId stepId : Text} {o : Outcome} :
    ∀ {rs : List (StepResult P)} {db : Db P}, AllKept db → Receipted db → AllAccepted db rs →
    ((runCalls db (rs.map .record)).HasOutcome runId stepId o ↔
      db.HasOutcome runId stepId o ∨ ∃ r ∈ rs, r.runId = runId ∧ r.stepId = stepId ∧ r.outcome = o)
  | [], db, _, _, _ => by simp [runCalls]
  | r :: rs, db, hkept, hreceipted, h => by
    refine (hasOutcome_results hP ((Call.record r).apply_kept hkept)
      ((Call.record r).apply_receipted hkept hreceipted) h.2).trans ?_
    rw [hasOutcome_record hP hkept hreceipted h.1, List.exists_mem_cons_iff, or_assoc]

theorem receipt_of_accepted (hkept : AllKept db) (haccept : (Call.record r).Accepted db) :
    ∃ receipt, ((Call.record r).apply db).receipts.get? r.idempotencyKey = some receipt ∧
      receipt.resultDigest = r.digest ∧ receipt.runId = r.runId := by
  obtain ⟨db', hexec⟩ := haccept
  have happly : (Call.record r).apply db = db' := by simp [Call.apply, hexec]
  rw [happly]
  rcases recordResult_ok hexec fun run hrun => (hkept _ run hrun).sound with ⟨rfl, receipt, h⟩ | ⟨run, mid, steps, hrec⟩
  · exact ⟨receipt, h⟩
  · exact ⟨_, by rw [hrec.receipts, Table.get?_upsert, if_pos rfl], rfl, rfl⟩

theorem runs_of_results : ∀ {rs : List (StepResult P)} {db : Db P}, AllKept db → ∀ {runId : Text},
    db.runs.get? runId = none → (runCalls db (rs.map .record)).runs.get? runId = none
  | [], _, _, _, h => h
  | r :: rs, db, hkept, runId, h => by
    refine runs_of_results ((Call.record r).apply_kept hkept) ?_
    rcases (Call.record r).apply_cases hkept with hsame | ⟨-, ⟨_, _, _, _, _, _, _, _, _, hcall, -⟩ |
      ⟨q, run, _, _, -, hrec⟩⟩
    · rw [hsame, h]
    · cases hcall
    · rw [hrec.others, h]
      rintro rfl
      rw [hrec.found] at h
      cases h

end Recorded

/-! ## Order independence -/

/-- The steps are in the same states, and so are the runs. -/
structure SameProgress (run run' : RunRow P) : Prop where
  steps : run.steps.map (fun s => (s.stepId, s.state)) = run'.steps.map fun s => (s.stepId, s.state)
  state : run.state = run'.state
  phase : run.currentPhase = run'.currentPhase

theorem sameProgress_of_states {run run' : RunRow P} (hkept : Kept run) (hkept' : Kept run')
    (h : List.Forall₂ SameState run.steps run'.steps) : SameProgress run run' where
  steps := map_sameState h
  state := by rw [hkept.state, hkept'.state, runState_sameState h]
  phase := by rw [hkept.phase, hkept'.phase, currentPhase_sameState h]

/-- **Order independence.**  From every state, two sequences of results that are permutations of one another, and are
all accepted in both orders, leave every run in the same states and the same phase.  A result that has been accepted can
be replayed at any later point and changes nothing; another result under its key raises and changes nothing. -/
theorem bootstrap_order_independence (P : Platform) (hP : Function.Injective P.hexdigest) (calls : List (Call P)) :
    (∀ rs rs' : List (StepResult P), rs.Perm rs' → AllAccepted (runCalls (Db.initial P) calls) rs →
      AllAccepted (runCalls (Db.initial P) calls) rs' → ∀ runId run,
      (runCalls (Db.initial P) (calls ++ rs.map .record)).runs.get? runId = some run →
      ∃ run', (runCalls (Db.initial P) (calls ++ rs'.map .record)).runs.get? runId = some run' ∧
        SameProgress run run') ∧
    ∀ r : StepResult P, (Call.record r).Accepted (runCalls (Db.initial P) calls) → ∀ more : List (Call P),
      recordResult (runCalls (Db.initial P) (calls ++ .record r :: more)) r =
        .ok (runCalls (Db.initial P) (calls ++ .record r :: more)) ∧
      ∀ q : StepResult P, q.idempotencyKey = r.idempotencyKey → ¬ (q.toProtocol P).Same (r.toProtocol P) →
        (∃ e, recordResult (runCalls (Db.initial P) (calls ++ .record r :: more)) q = .error e) ∧
        (Call.record q).apply (runCalls (Db.initial P) (calls ++ .record r :: more)) =
          runCalls (Db.initial P) (calls ++ .record r :: more) := by
  have hkept := runCalls_kept (AllKept.initial (P := P)) calls
  have hreceipted := runCalls_receipted calls AllKept.initial (Receipted.initial (P := P))
  refine ⟨fun rs rs' hperm hrs hrs' runId run hrun => ?_, fun r hr more => ?_⟩
  · rw [runCalls_append] at hrun ⊢
    obtain ⟨start, hstart⟩ : ∃ start, (runCalls (Db.initial P) calls).runs.get? runId = some start := by
      cases hget : (runCalls (Db.initial P) calls).runs.get? runId with
      | some start => exact ⟨start, rfl⟩
      | none =>
        rw [runs_of_results hkept hget] at hrun
        cases hrun
    obtain ⟨run₁, hrun₁, hmoves⟩ := runCalls_moves (rs.map .record) hkept hstart
    obtain rfl := Option.some.inj (hrun₁.symm.trans hrun)
    obtain ⟨run', hrun', hmoves'⟩ := runCalls_moves (rs'.map .record) hkept hstart
    have hkept₁ := runCalls_kept hkept (rs.map .record) _ _ hrun₁
    have hkept' := runCalls_kept hkept (rs'.map .record) _ _ hrun'
    -- both orders record the same outcomes
    have hsame : ∀ {id o}, (runCalls (runCalls (Db.initial P) calls) (rs.map .record)).HasOutcome runId id o ↔
        (runCalls (runCalls (Db.initial P) calls) (rs'.map .record)).HasOutcome runId id o := by
      intro id o
      rw [hasOutcome_results hP hkept hreceipted hrs, hasOutcome_results hP hkept hreceipted hrs']
      simp only [hperm.mem_iff]
    have hcovers : Covers run₁.steps run'.steps := by
      intro s hs o ho
      obtain ⟨run₂, hrun₂, t, ht, hid, hto⟩ := hsame.mp ⟨run₁, hrun₁, s, hs, rfl, ho⟩
      obtain rfl := Option.some.inj (hrun₂.symm.trans hrun')
      exact ⟨t, ht, hid, hto⟩
    have hcovers' : Covers run'.steps run₁.steps := by
      intro s hs o ho
      obtain ⟨run₂, hrun₂, t, ht, hid, hto⟩ := hsame.mpr ⟨run', hrun', s, hs, rfl, ho⟩
      obtain rfl := Option.some.inj (hrun₂.symm.trans hrun₁)
      exact ⟨t, ht, hid, hto⟩
    exact ⟨run', hrun', sameProgress_of_states hkept₁ hkept'
      (sameState_of_covers (hkept _ _ hstart).sound hmoves hmoves'
      hkept₁.settled hkept'.settled hcovers hcovers')⟩
  · have hlater : ∃ receipt, (runCalls (Db.initial P) (calls ++ .record r :: more)).receipts.get? r.idempotencyKey =
        some receipt ∧ receipt.resultDigest = r.digest ∧ receipt.runId = r.runId := by
      obtain ⟨receipt, hreceipt, hfields⟩ := receipt_of_accepted hkept hr
      rw [runCalls_append]
      exact ⟨receipt, runCalls_receipts more ((Call.record r).apply_kept hkept) hreceipt, hfields⟩
    obtain ⟨receipt, hreceipt, hdigest, hrunId⟩ := hlater
    refine ⟨?_, fun q hkey hdiffers => ?_⟩
    · rw [recordResult, hreceipt]
      simp only [hdigest, hrunId, ne_eq, not_true_eq_false, if_false]
    · have hraises : recordResult (runCalls (Db.initial P) (calls ++ .record r :: more)) q =
          .error (.valueError "idempotency key was already used for a different result") := by
        rw [recordResult, hkey, hreceipt]
        refine if_pos fun heq => hdiffers (StepResult.same_of_digest hP ?_)
        exact heq.symm.trans hdigest
      exact ⟨⟨_, hraises⟩, by simp [Call.apply, Call.exec, hraises]⟩

/-- A run with two steps that do not depend on each other. -/
def pairStart : Start samplePlatform :=
  { sampleStart [] with plan := samplePlan [sampleStep "observe" "ready" [], sampleStep "inspect" "ready" []] }

def otherReport : StepReport samplePlatform :=
  { sampleReport with stepId := lit "inspect", idempotencyKey := lit "key-2" }

def otherResult : StepResult samplePlatform where
  toStepReport := otherReport
  identified := rfl
  readable := sampleResult.readable
  document := (canonical samplePlatform otherReport.toProtocol).getD []
  written := rfl
  bounded := by decide +kernel

def pairDb : Db samplePlatform := runCalls (Db.initial samplePlatform) [pairStart.call]

theorem accepted_of_isOk {db : Db samplePlatform} {c : Call samplePlatform} (h : (c.exec db).isOk = true) :
    c.Accepted db := by
  unfold Call.Accepted
  cases hc : c.exec db with
  | ok db' => exact ⟨db', rfl⟩
  | error =>
    rw [hc] at h
    cases h

theorem pair_commits :
    ((Call.record sampleResult).exec pairDb).isOk = true ∧
    ((Call.record otherResult).exec ((Call.record sampleResult).apply pairDb)).isOk = true ∧
    ((Call.record otherResult).exec pairDb).isOk = true ∧
    ((Call.record sampleResult).exec ((Call.record otherResult).apply pairDb)).isOk = true ∧
    ((runCalls (Db.initial samplePlatform) ([pairStart.call] ++ [sampleResult, otherResult].map .record)).runs.get?
      (lit "run-1")).isSome = true := by
  decide +kernel

theorem pair_accepted :
    AllAccepted pairDb [sampleResult, otherResult] ∧ AllAccepted pairDb [otherResult, sampleResult] := by
  obtain ⟨hsample, hother, hother', hsample', -⟩ := pair_commits
  exact ⟨⟨accepted_of_isOk hsample, accepted_of_isOk hother, trivial⟩,
    ⟨accepted_of_isOk hother', accepted_of_isOk hsample', trivial⟩⟩

theorem bootstrap_order_independence_sample :
    (∃ run run', (runCalls (Db.initial samplePlatform) ([pairStart.call] ++
        [sampleResult, otherResult].map .record)).runs.get? (lit "run-1") = some run ∧
      (runCalls (Db.initial samplePlatform) ([pairStart.call] ++
        [otherResult, sampleResult].map .record)).runs.get? (lit "run-1") = some run' ∧ SameProgress run run') ∧
    recordResult (runCalls (Db.initial samplePlatform) [pairStart.call, .record sampleResult, .record otherResult])
        sampleResult =
      .ok (runCalls (Db.initial samplePlatform) [pairStart.call, .record sampleResult, .record otherResult]) := by
  have h := bootstrap_order_independence samplePlatform samplePlatform_hashing.digest_inj [pairStart.call]
  obtain ⟨run, hrun⟩ := Option.isSome_iff_exists.mp pair_commits.2.2.2.2
  obtain ⟨run', hrun', hsame⟩ := h.1 _ _ (List.Perm.swap _ _ []) pair_accepted.1 pair_accepted.2 (lit "run-1") run hrun
  exact ⟨⟨run, run', hrun, hrun', hsame⟩, (h.2 sampleResult pair_accepted.1.1 [.record otherResult]).1⟩

end AgentFabric.Bootstrap
