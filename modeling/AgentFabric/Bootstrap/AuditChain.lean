import AgentFabric.Bootstrap.Audit
import AgentFabric.Bootstrap.RunInvariant

/-!
# The audit chain of a run

The events of each run form a chain of hashes that verifies, and that no change of the rows survives.
-/

namespace AgentFabric.Bootstrap

open AgentFabric.Lib

variable {P : Platform}

/-! ## Transactions in which no insertion fails -/

section Inserts

/-- The transaction commits with an outcome that satisfies `Q`, or raises something else than a failed insertion. -/
def Inserts {α : Type} (Q : α → Prop) : Except BootstrapError α → Prop
  | .ok a => Q a
  | .error e => e ≠ .integrityError "UNIQUE bootstrap_audit_events"

variable {α β : Type} {Q : α → Prop} {R : β → Prop} {x : Except BootstrapError α} {f : α → Except BootstrapError β}

theorem Inserts.bind (hx : Inserts Q x) (hf : ∀ a, x = .ok a → Inserts R (f a)) : Inserts R (x >>= f) := by
  cases x with
  | ok a => exact hf a rfl
  | error => exact hx

theorem Inserts.of_ok {a : α} (h : x = .ok a) (hQ : Q a) : Inserts Q x := h ▸ hQ

theorem digest_inserts (v : P.Json) : Inserts (fun _ => True) (digest P v) := by
  unfold digest
  split
  · trivial
  · rintro ⟨⟩

theorem admittedCapability_inserts (mutating capability : P.Json) :
    Inserts (fun _ => True) (admittedCapability P mutating capability) := by
  unfold admittedCapability
  split
  · split
    · split
      · trivial
      · rintro ⟨⟩
    · rintro ⟨⟩
  · split
    · trivial
    · rintro ⟨⟩

theorem validateStep_inserts (identifiers : List Text) (step : P.Json) :
    Inserts (fun _ => True) (validateStep P identifiers step) := by
  unfold validateStep
  split
  · split
    · dsimp only
      split
      · split
        · exact (admittedCapability_inserts _ _).bind fun _ _ => trivial
        · rintro ⟨⟩
      · rintro ⟨⟩
    · rintro ⟨⟩
  · rintro ⟨⟩

theorem validateSteps_inserts (steps : List P.Json) : ∀ identifiers,
    Inserts (fun _ => True) (validateSteps P identifiers steps) := by
  induction steps with
  | nil => exact fun _ => trivial
  | cons step steps ih => exact fun identifiers => (validateStep_inserts identifiers step).bind fun ids _ => ih ids

theorem validatePlan_inserts (plan : P.Json) : Inserts (fun _ => True) (validatePlan P plan) := by
  unfold validatePlan
  split
  · split
    · rintro ⟨⟩
    split
    · split
      · rintro ⟨⟩
      · exact (validateSteps_inserts _ _).bind fun _ _ => trivial
      · rintro ⟨⟩
    · rintro ⟨⟩
  · rintro ⟨⟩

theorem textColumn_inserts (v : P.Json) : Inserts (fun _ => True) (textColumn P v) := by
  unfold textColumn
  split
  · split
    · rintro ⟨⟩
    · trivial
  · split
    · trivial
    · rintro ⟨⟩
  · trivial
  · split
    · trivial
    · exact fun h => absurd (BootstrapError.integrityError.inj h) (by decide)
  · exact fun h => absurd (BootstrapError.integrityError.inj h) (by decide)
  · rintro ⟨⟩

theorem nullableColumn_inserts (v : P.Json) : Inserts (fun _ => True) (nullableColumn P v) := by
  unfold nullableColumn
  split
  · trivial
  · exact (textColumn_inserts _).bind fun _ _ => trivial

theorem flagColumn_inserts (v : P.Json) : Inserts (fun _ => True) (flagColumn P v) := by
  unfold flagColumn
  dsimp only
  split
  · rintro ⟨⟩
  · trivial
  · trivial
  · exact fun h => absurd (BootstrapError.integrityError.inj h) (by decide)

theorem stepRow_inserts (step : P.Json) (ordinal : Nat) (now : Stamp) :
    Inserts (fun _ => True) (stepRow P step ordinal now) := by
  unfold stepRow
  split
  · refine (textColumn_inserts _).bind fun _ _ => (textColumn_inserts _).bind fun _ _ =>
      (textColumn_inserts _).bind fun _ _ => (textColumn_inserts _).bind fun _ _ =>
      (flagColumn_inserts _).bind fun _ _ => (nullableColumn_inserts _).bind fun _ _ =>
      (textColumn_inserts _).bind fun _ _ => trivial
  · rintro ⟨⟩

theorem stepRows_inserts (now : Stamp) (steps : List P.Json) : ∀ (ordinal : Nat) (rows : List (StepRow P)),
    Inserts (fun _ => True) (stepRows P now ordinal rows steps) := by
  induction steps with
  | nil => exact fun _ _ => trivial
  | cons step steps ih =>
    intro ordinal rows
    refine (stepRow_inserts step ordinal now).bind fun row _ => ?_
    split
    · exact fun h => absurd (BootstrapError.integrityError.inj h) (by decide)
    · exact ih _ _

theorem admitResult_inserts (s : StepRow P) (r : StepResult P) : Inserts (fun _ => True) (admitResult s r) := by
  unfold admitResult
  split
  · split
    · rintro ⟨⟩
    split
    · rintro ⟨⟩
    split
    · rintro ⟨⟩
    split
    · rintro ⟨⟩
    · trivial
  split
  · rintro ⟨⟩
  · trivial

end Inserts

/-! ## Between two calls -/

/-- What holds of a database between any two calls. -/
structure Audited (db : Db P) : Prop where
  log : Log P db.audit
  begun : ∀ id, (∃ o ∈ db.audit, o.runId = id) ↔ ∃ run, db.runs.get? id = some run
  identified : ∀ id run, db.runs.get? id = some run → isIdentifier id = true
  stored : ∀ id run, db.runs.get? id = some run → ∀ s ∈ run.steps, s.Stored

theorem Audited.initial : Audited (Db.initial P) where
  log := .nil
  begun id := by
    constructor
    · rintro ⟨o, ho, -⟩
      cases ho
    · rintro ⟨run, hrun⟩
      cases hrun
  identified _ _ h := (by cases h)
  stored _ _ h := (by cases h)

variable {plan profile v : P.Json} {planDigest profileDigest actor t : Text}

theorem initializedEvent_proper (hP : P.Hashing) (now : Stamp) (hplan : digest P plan = .ok planDigest)
    (hprofile : digest P profile = .ok profileDigest) (hactor : isIdentifier actor = true) :
    (initializedEvent (P := P) planDigest profileDigest actor now).Proper := by
  have hdigest : ∀ {v : P.Json} {d : Text}, digest P v = .ok d → Plain d := by
    intro v d h
    unfold digest at h
    split at h
    · exact Except.ok.inj h ▸ (hP.digest_hex _).plain
    · cases h
  refine ⟨(by rintro _ ⟨⟩), plain_of_ascii rfl, isIdentifier_plain hactor, plain_of_ascii rfl, now.plain, ?_, ?_⟩
  · refine .dict (of_decide_eq_true rfl) (fun e he => ?_) fun e he => ?_
    · simp only [List.mem_cons, List.not_mem_nil, or_false] at he
      rcases he with rfl | rfl <;> exact (plain_of_ascii rfl).joined
    · simp only [List.mem_cons, List.not_mem_nil, or_false] at he
      rcases he with rfl | rfl
      · exact .str (hdigest hplan).joined
      · exact .str (hdigest hprofile).joined
  · refine canonicalText_dict_isSome fun e he => ?_
    simp only [List.mem_cons, List.not_mem_nil, or_false] at he
    rcases he with rfl | rfl <;> rfl

theorem initializedEvent_initial (planDigest profileDigest actor : Text) (now : Stamp) :
    (initializedEvent (P := P) planDigest profileDigest actor now).Initial := ⟨rfl, rfl, now.length_eq⟩

theorem StepResult.identifiers (r : StepResult P) : isIdentifier r.runId = true ∧ isIdentifier r.stepId = true ∧
    isIdentifier r.idempotencyKey = true ∧ isIdentifier r.actor = true := by
  have h := r.identified
  simp only [Bool.and_eq_true] at h
  exact ⟨h.1.1.1, h.1.1.2, h.1.2, h.2⟩

theorem resultEvent_proper (hP : P.Hashing) (r : StepResult P) : (resultEvent r).Proper := by
  obtain ⟨-, hstep, -, hactor⟩ := r.identifiers
  have hgrant : ∀ g ∈ r.authorization.map AuthorizationReference.grantReference, Plain g := by
    intro g hg
    obtain ⟨a, -, rfl⟩ := Option.map_eq_some_iff.mp hg
    have h := a.identified
    simp only [Bool.and_eq_true] at h
    exact isIdentifier_plain h.1.1
  have houtcome : Plain r.outcome.value := by cases r.outcome <;> exact plain_of_ascii rfl
  have hmode : Plain r.executionMode.value := by cases r.executionMode <;> exact plain_of_ascii rfl
  refine ⟨fun s hs => Option.some.inj hs ▸ isIdentifier_plain hstep, plain_of_ascii rfl, isIdentifier_plain hactor,
    (plain_of_ascii rfl).append (nextState_value_plain _), r.observedAt.plain, ?_, ?_⟩
  · refine .dict (of_decide_eq_true rfl) (fun e he => ?_) fun e he => ?_
    · simp only [List.mem_cons, List.not_mem_nil, or_false] at he
      rcases he with rfl | rfl | rfl | rfl <;> exact (plain_of_ascii rfl).joined
    · simp only [List.mem_cons, List.not_mem_nil, or_false] at he
      rcases he with rfl | rfl | rfl | rfl
      · exact .str (hP.digest_hex _).plain.joined
      · exact .str houtcome.joined
      · exact .str hmode.joined
      · revert hgrant
        cases r.authorization with
        | none => exact fun _ => .none
        | some => exact fun h => .str (h _ rfl).joined
  · refine canonicalText_dict_isSome fun e he => ?_
    simp only [List.mem_cons, List.not_mem_nil, or_false] at he
    rcases he with rfl | rfl | rfl | rfl
    · rfl
    · rfl
    · rfl
    · dsimp only
      cases r.authorization <;> rfl

variable {db db' : Db P}

theorem initializeRun_succeeds (hP : P.Hashing) (h : Audited db) {now : Stamp} {steps : List P.Json}
    {rows : List (StepRow P)} (hid : isIdentifier runId = true ∧ isIdentifier actor = true)
    (hvalid : validatePlan P plan = .ok steps) (hplan : digest P plan = .ok planDigest)
    (hprofile : digest P profile = .ok profileDigest) (habsent : db.runs.get? runId = none)
    (hrows : stepRows P now 0 [] steps = .ok rows) :
    ∃ db', initializeRun db runId profile plan actor now = .ok db' ∧ Log P db'.audit := by
  obtain ⟨row, happend, hrow, hlog⟩ := appendAudit_succeeds hP
    { db with runs := db.runs.upsert runId (newRun planDigest profileDigest now rows) } h.log hid.1
    (initializedEvent_proper hP now hplan hprofile hid.2) fun _ =>
      initializedEvent_initial planDigest profileDigest actor now
  have happendable : Appendable runId { db with
      runs := db.runs.upsert runId (newRun planDigest profileDigest now rows)
      audit := db.audit ++ [row] } := by
    refine ⟨hlog, ⟨row, by simp, hrow.owner⟩, fun s hs => ?_⟩
    have hsteps : s ∈ rows := by
      simpa [Db.stepsOf, Table.get?_upsert, newRun] using hs
    exact stepRows_stored hrows (fun _ hs => (by cases hs)) s hsteps
  obtain ⟨db', hrec, hlog'⟩ := reconcile_succeeds hP hid.1 (isIdentifier_plain hid.2) now.plain happendable
  refine ⟨db', ?_, hlog'⟩
  simp only [newRun, initializedEvent] at happend hrec
  rw [initializeRun, if_pos (by simp [hid])]
  simp only [bind, Except.bind, hvalid, hplan, hprofile, habsent, hrows, happend]
  exact hrec

/-- No insertion of `initialize_run` fails. -/
theorem initializeRun_inserts (hP : P.Hashing) (h : Audited db) (runId : Text) (profile plan : P.Json) (actor : Text)
    (now : Stamp) :
    Inserts (fun db' => Log P db'.audit) (initializeRun db runId profile plan actor now) := by
  by_cases hadmitted : ∃ planDigest profileDigest steps rows, (isIdentifier runId = true ∧ isIdentifier actor = true) ∧
      validatePlan P plan = .ok steps ∧ digest P plan = .ok planDigest ∧ digest P profile = .ok profileDigest ∧
      db.runs.get? runId = none ∧ stepRows P now 0 [] steps = .ok rows
  · obtain ⟨planDigest, profileDigest, steps, rows, hid, hvalid, hplan, hprofile, habsent, hrows⟩ := hadmitted
    obtain ⟨db', hok, hlog⟩ := initializeRun_succeeds hP h hid hvalid hplan hprofile habsent hrows
    exact .of_ok hok hlog
  · unfold initializeRun
    split
    · next hid =>
      rw [Bool.and_eq_true] at hid
      refine (validatePlan_inserts plan).bind fun steps hvalid => ?_
      refine (digest_inserts plan).bind fun planDigest hplan => ?_
      refine (digest_inserts profile).bind fun profileDigest hprofile => ?_
      split
      · split
        · rintro ⟨⟩
        · exact h.log
      · next habsent =>
        exact (stepRows_inserts now steps 0 []).bind fun rows hrows =>
          absurd ⟨planDigest, profileDigest, steps, rows, hid, hvalid, hplan, hprofile, habsent, hrows⟩ hadmitted
    · rintro ⟨⟩

/-- A result that is admitted is recorded. -/
theorem recordResult_succeeds (hP : P.Hashing) (h : Audited db) {r : StepResult P} {step : StepRow P}
    (habsent : db.receipts.get? r.idempotencyKey = none) (hstep : findStep (db.stepsOf r.runId) r.stepId = some step)
    (hactionable : step.state.actionable = true)
    (hdeps : dependenciesSatisfied (db.stepsOf r.runId) step.dependencies = true)
    (hadmits : admitResult step r = .ok ()) :
    ∃ db', recordResult db r = .ok db' ∧ Log P db'.audit := by
  obtain ⟨run, hrun⟩ : ∃ run, db.runs.get? r.runId = some run := by
    cases hget : db.runs.get? r.runId with
    | none => simp [Db.stepsOf, hget, findStep] at hstep
    | some run => exact ⟨run, rfl⟩
  have happendable : Appendable r.runId db := by
    refine ⟨h.log, (h.begun _).mpr ⟨run, hrun⟩, ?_⟩
    rw [stepsOf_of_get? hrun]
    exact h.stored _ run hrun
  obtain ⟨hrunId, -, -, -⟩ := r.identifiers
  have hupdated := happendable.update r.stepId
    (fun s => { s with state := r.outcome.stepState, result := some r, updatedAt := r.observedAt.text })
    fun s => ⟨rfl, rfl, rfl, rfl, rfl, rfl, rfl, rfl⟩
  have hready : Appendable r.runId { db.updateSteps r.runId (updateStep r.stepId fun s =>
      { s with state := r.outcome.stepState, result := some r, updatedAt := r.observedAt.text }) with
    receipts := db.receipts.upsert r.idempotencyKey ⟨r.runId, r.stepId, r.digest, r.observedAt.text⟩ } :=
    ⟨hupdated.log, hupdated.begun, hupdated.stored⟩
  have hactor : Plain (lit "bootstrap") := plain_of_ascii rfl
  obtain ⟨row, happend, hmid⟩ := hready.append hP hrunId (resultEvent_proper hP r)
  obtain ⟨db', hrec, hlog⟩ := reconcile_succeeds hP hrunId hactor r.observedAt.plain hmid
  refine ⟨db', ?_, hlog⟩
  unfold recordResult
  rw [habsent]
  dsimp only
  rw [hstep]
  dsimp only
  have hstate : step.state ≠ .satisfied := by
    intro heq
    rw [heq] at hactionable
    cases hactionable
  rw [if_neg hstate, if_neg (by simp [hactionable]), if_neg (by simp [hdeps])]
  simp only [bind, Except.bind, hadmits]
  have happend' : appendAudit _ r.runId (resultEvent r) = _ := happend
  simp only [Db.updateSteps] at happend' hrec ⊢
  rw [happend']
  exact hrec

/-- No insertion of `record_result` fails. -/
theorem recordResult_inserts (hP : P.Hashing) (h : Audited db) (r : StepResult P) :
    Inserts (fun db' => Log P db'.audit) (recordResult db r) := by
  cases hreceipt : db.receipts.get? r.idempotencyKey with
  | some =>
    unfold recordResult
    rw [hreceipt]
    dsimp only
    split
    · rintro ⟨⟩
    split
    · rintro ⟨⟩
    · exact h.log
  | none =>
    by_cases hadmitted : ∃ step, findStep (db.stepsOf r.runId) r.stepId = some step ∧ step.state.actionable = true ∧
        dependenciesSatisfied (db.stepsOf r.runId) step.dependencies = true ∧ admitResult step r = .ok ()
    · obtain ⟨step, hstep, hactionable, hdeps, hadmits⟩ := hadmitted
      obtain ⟨db', hok, hlog⟩ := recordResult_succeeds hP h hreceipt hstep hactionable hdeps hadmits
      exact .of_ok hok hlog
    · unfold recordResult
      rw [hreceipt]
      dsimp only
      split
      · rintro ⟨⟩
      next step hstep =>
      split
      · rintro ⟨⟩
      split
      · rintro ⟨⟩
      split
      · rintro ⟨⟩
      next hactionable hdeps =>
      exact (admitResult_inserts step r).bind fun _ hadmits =>
        absurd ⟨step, hstep, by simpa using hactionable, by simpa using hdeps, hadmits⟩ hadmitted

variable {a b audit : List AuditEvent} {o : AuditEvent}

theorem Appends.subset {C : EventContent P → Prop} (h : Appends runId C a b) (ho : o ∈ a) : o ∈ b := by
  induction h with
  | refl => exact ho
  | snoc _ _ _ _ ih => exact List.mem_append_left _ ih

theorem Appends.mem {C : EventContent P → Prop} (h : Appends runId C a b) (ho : o ∈ b) : o ∈ a ∨ o.runId = runId := by
  induction h with
  | refl => exact Or.inl ho
  | snoc _ _ hrow _ ih =>
    rcases List.mem_append.mp ho with ho | ho
    · exact ih ho
    · exact Or.inr (List.mem_singleton.mp ho ▸ (auditRow_some hrow).owner)

theorem samePlan_stored {steps steps' : List (StepRow P)} (h : List.Forall₂ SamePlan steps steps')
    (hs : ∀ s ∈ steps, s.Stored) : ∀ s ∈ steps', s.Stored := by
  induction h with
  | nil => exact hs
  | cons hsame _ ih =>
    exact List.forall_mem_cons.mpr
      ⟨hsame.stored (hs _ List.mem_cons_self), ih fun s h => hs s (List.mem_cons_of_mem _ h)⟩

theorem Initialized.audited {now : Stamp} {rows steps : List (StepRow P)}
    (h : Initialized db db' runId profile plan actor now planDigest profileDigest rows steps) (haudited : Audited db)
    (hlog : Log P db'.audit) : Audited db' := by
  obtain ⟨row, hrow, happends⟩ := h.audit
  refine ⟨hlog, fun id => ?_, fun id run hrun => ?_, fun id run hrun => ?_⟩
  · by_cases hid : id = runId
    · subst hid
      exact ⟨fun _ => ⟨_, h.run⟩, fun _ => ⟨row, happends.subset (by simp), (auditRow_some hrow).owner⟩⟩
    · rw [h.others id hid, ← haudited.begun id]
      constructor
      · rintro ⟨o, ho, howner⟩
        rcases happends.mem ho with ho | ho
        · rcases List.mem_append.mp ho with ho | ho
          · exact ⟨o, ho, howner⟩
          · obtain rfl := List.mem_singleton.mp ho
            exact absurd (howner.symm.trans (auditRow_some hrow).owner) hid
        · exact absurd (howner.symm.trans ho) hid
      · rintro ⟨o, ho, howner⟩
        exact ⟨o, happends.subset (List.mem_append_left _ ho), howner⟩
  · by_cases hid : id = runId
    · exact hid ▸ h.identified.1
    · exact haudited.identified id run (h.others id hid ▸ hrun)
  · by_cases hid : id = runId
    · subst hid
      obtain rfl := Option.some.inj (h.run.symm.trans hrun)
      obtain ⟨planSteps, -, hrows, -⟩ := h.planned
      exact samePlan_stored ((promotions_moves h.promoted).samePlan h.fresh.1.sound)
        (stepRows_stored hrows fun _ hs => (by cases hs))
    · exact haudited.stored id run (h.others id hid ▸ hrun)

theorem Recorded.audited {r : StepResult P} {run : RunRow P} {mid steps : List (StepRow P)}
    (h : Recorded db db' r run mid steps) (haudited : Audited db) (hsound : Sound run.steps) (hlog : Log P db'.audit)
    :
    Audited db' := by
  refine ⟨hlog, fun id => ?_, fun id run' hrun => ?_, fun id run' hrun => ?_⟩
  · by_cases hid : id = r.runId
    · subst hid
      obtain ⟨o, ho, howner⟩ := (haudited.begun _).mpr ⟨run, h.found⟩
      exact ⟨fun _ => ⟨_, h.run⟩, fun _ => ⟨o, h.audit.subset ho, howner⟩⟩
    · rw [h.others id hid, ← haudited.begun id]
      constructor
      · rintro ⟨o, ho, howner⟩
        rcases h.audit.mem ho with ho | ho
        · exact ⟨o, ho, howner⟩
        · exact absurd (howner.symm.trans ho) hid
      · rintro ⟨o, ho, howner⟩
        exact ⟨o, h.audit.subset ho, howner⟩
  · by_cases hid : id = r.runId
    · exact hid ▸ r.identifiers.1
    · exact haudited.identified id run' (h.others id hid ▸ hrun)
  · by_cases hid : id = r.runId
    · subst hid
      obtain rfl := Option.some.inj (h.run.symm.trans hrun)
      exact samePlan_stored (h.moves.samePlan hsound) (haudited.stored _ run h.found)
    · exact haudited.stored id run' (h.others id hid ▸ hrun)

/-- No insertion of an event fails. -/
theorem Call.exec_inserts (hP : P.Hashing) (h : Audited db) (c : Call P) :
    Inserts (fun db' => Log P db'.audit) (c.exec db) := by
  cases c with
  | create runId profile plan actor now => exact initializeRun_inserts hP h runId profile plan actor now
  | record r => exact recordResult_inserts hP h r

/-- Every call keeps the chains. -/
theorem Call.apply_audited (hP : P.Hashing) (hkept : AllKept db) (h : Audited db) (c : Call P) :
    Audited (c.apply db) := by
  rcases c.apply_cases hkept with hsame | ⟨⟨db', hexec⟩, hcase⟩
  · exact hsame.symm ▸ h
  have happly : c.apply db = db' := by simp [Call.apply, hexec]
  have hlog : Log P (c.apply db).audit := by
    have hinserts := c.exec_inserts hP h
    rw [hexec] at hinserts
    exact happly ▸ hinserts
  rcases hcase with ⟨_, _, _, _, _, _, _, _, _, -, hinit⟩ | ⟨r, run, _, _, -, hrec⟩
  · exact hinit.audited h hlog
  · exact hrec.audited h (hkept _ run hrec.found).sound hlog

theorem runCalls_audited (hP : P.Hashing) (calls : List (Call P)) : ∀ {db : Db P}, AllKept db → Audited db →
    Audited (runCalls db calls) := by
  induction calls with
  | nil => exact fun _ h => h
  | cons c calls ih => exact fun hkept h => ih (c.apply_kept hkept) (c.apply_audited hP hkept h)

/-! ## The chains verify -/

def linkBody (P : Platform) (runId : Text) (e : ProjectedEvent P) : Text :=
  (canonical P (eventBody P e.eventId runId e.content.stepId e.content.kind e.content.actor e.content.summary
    e.content.payload e.content.createdAt)).getD []

def Writable (P : Platform) (runId : Text) (e : ProjectedEvent P) : Prop :=
  canonical P (eventBody P e.eventId runId e.content.stepId e.content.kind e.content.actor e.content.summary
    e.content.payload e.content.createdAt) = some (linkBody P runId e)

abbrev LinkedEvents (P : Platform) (runId : Text) : Text → List (ProjectedEvent P) → Prop :=
  Linked ProjectedEvent.previousHash ProjectedEvent.eventHash (fun p b => P.hexdigest (p ++ b)) (linkBody P runId)

theorem verifyAudit_iff {p : Text} {es : List (ProjectedEvent P)} :
    verifyAudit P runId p es = true ↔ (∀ e ∈ es, Writable P runId e) ∧ LinkedEvents P runId p es := by
  induction es generalizing p with
  | nil => simp [verifyAudit, Linked]
  | cons e es ih =>
    simp only [verifyAudit, List.forall_mem_cons, Linked]
    split
    · next hne =>
      simp only [Bool.false_eq_true, false_iff]
      exact fun h => hne h.2.1
    next hprev =>
    rw [not_not] at hprev
    split
    · next hnone =>
      simp only [Bool.false_eq_true, false_iff]
      intro h
      rw [Writable, hnone] at h
      cases h.1.1
    next body hbody =>
    have hlink : linkBody P runId e = body := by simp only [linkBody, hbody, Option.getD_some]
    split
    · next hne =>
      simp only [Bool.false_eq_true, false_iff]
      intro h
      rw [hlink] at h
      exact hne h.2.2.1
    next hhash =>
    rw [not_not] at hhash
    rw [ih, Writable, hlink, hhash]
    simp only [hbody, hprev, true_and]

theorem loadPayload_canonical (hv : v.Readable) (ht : canonicalText P.floats v = some t) :
    loadPayload P t = some v.sorted := by
  have hhook : ∀ pairs : List (Text × P.Json), (pairs.map Prod.fst).Nodup →
      (Except.ok (objectOf pairs) : Except Empty P.Json) = .ok (.dict pairs) := fun _ h => by rw [objectOf_nodup h]
  rw [loadPayload, loadsText_canonical hhook hv ht]
  rfl

theorem canonical_sorted_payload (eventId runId kind actor summary createdAt : Text) (stepId : Option Text)
    (payload : P.Json) : canonical P (eventBody P eventId runId stepId kind actor summary payload.sorted createdAt) =
      canonical P (eventBody P eventId runId stepId kind actor summary payload createdAt) := by
  have hsame : (eventBody P eventId runId stepId kind actor summary payload.sorted createdAt).Same
      (eventBody P eventId runId stepId kind actor summary payload createdAt) := by
    simp only [Value.Same, eventBody, Value.sorted, Value.sortedEntries, Value.sorted_sorted]
  rw [canonical, canonical, canonicalText_same hsame]

theorem Genuine.project (h : Genuine P o) : ∃ e : ProjectedEvent P, o.project P = some e ∧
    e.previousHash = o.previousHash ∧ e.eventHash = o.eventHash ∧ Writable P o.runId e ∧
    e.eventHash = P.hexdigest (e.previousHash ++ linkBody P o.runId e) := by
  obtain ⟨audit, c, -, hc, -, -, hrow⟩ := h
  obtain ⟨b, hb, hhash⟩ := hrow.body
  rw [← hrow.previousHash] at hhash
  have hload := loadPayload_canonical hc.payload hrow.payload
  have hbody : canonical P
    (eventBody P o.eventId o.runId o.stepId o.kind o.actor o.summary c.payload.sorted o.createdAt) =
      some b := by
    rw [canonical_sorted_payload, hrow.stepId, hrow.kind, hrow.actor, hrow.summary, hrow.createdAt, hb]
  refine ⟨⟨o.eventId, ⟨o.stepId, o.kind, o.actor, o.summary, c.payload.sorted, o.createdAt⟩,
    o.previousHash, o.eventHash⟩,
    by simp only [AuditEvent.project, hload, Option.map_some], rfl, rfl, ?_, ?_⟩
  · show canonical P _ = some (linkBody P _ _)
    rw [linkBody]
    simp only [hbody, Option.getD_some]
  · rw [linkBody]
    simp only [hbody, Option.getD_some, hhash]

/-- The rows of a run, projected, are a chain that ends in the last hash of the run. -/
theorem Log.linked (h : Log P audit) (runId : Text) :
    ∃ es, getAudit P (audit.filter fun o => decide (o.runId = runId)) = some es ∧ (∀ e ∈ es, Writable P runId e) ∧
      LinkedEvents P runId zeroHash es ∧ endHash ProjectedEvent.eventHash zeroHash es = previousHash audit runId := by
  obtain ⟨hchained, hgenuine⟩ := h
  induction hchained with
  | nil => exact ⟨[], rfl, (by rintro _ ⟨⟩), trivial, rfl⟩
  | @snoc log o hlog hprev hzero hnew ih =>
    obtain ⟨es, hes, hwritable, hlinked, hend⟩ := ih fun d hd => hgenuine d (List.mem_append_left _ hd)
    by_cases hid : o.runId = runId
    · subst hid
      obtain ⟨e, he, hprev', hhash', hw, hhash⟩ := (hgenuine o (by simp)).project
      have hfilter : (log ++ [o]).filter (fun d => decide (d.runId = o.runId)) =
          log.filter (fun d => decide (d.runId = o.runId)) ++ [o] := by simp [List.filter_append]
      refine ⟨es ++ [e], ?_, fun d hd => ?_, ?_, ?_⟩
      · rw [getAudit] at hes ⊢
        rw [hfilter, List.mapM_append, hes]
        simp [he]
      · rcases List.mem_append.mp hd with hd | hd
        · exact hwritable d hd
        · exact List.mem_singleton.mp hd ▸ hw
      · have hlast : e.previousHash = endHash ProjectedEvent.eventHash zeroHash es := by
          rw [hprev', hend, hprev]
          rfl
        exact linked_concat.mpr ⟨hlinked, hlast, hlast ▸ hhash⟩
      · rw [endHash_concat, hhash']
        exact (lastHash_concat_self log o).symm
    · refine ⟨es, ?_, hwritable, hlinked, ?_⟩
      · rw [List.filter_append, List.filter_singleton]
        simpa [hid] using hes
      · rw [hend]
        exact (lastHash_concat_ne log hid).symm

theorem Log.valid (h : Log P audit) (runId : Text) :
    auditChainValid P runId (audit.filter fun o => decide (o.runId = runId)) = true := by
  obtain ⟨es, hes, hwritable, hlinked, -⟩ := h.linked runId
  rw [auditChainValid, hes]
  exact verifyAudit_iff.mpr ⟨hwritable, hlinked⟩

/-! ## Tampering -/

/-- The texts of a row of the database have no surrogates. -/
structure AuditEvent.Stored (o : AuditEvent) : Prop where
  eventId : Plain o.eventId
  stepId : ∀ s ∈ o.stepId, Plain s
  kind : Plain o.kind
  actor : Plain o.actor
  summary : Plain o.summary
  payloadJson : Plain o.payloadJson
  createdAt : Plain o.createdAt

/-- The rows agree in everything that is hashed, the payloads as values. -/
structure SameFields (P : Platform) (o o' : AuditEvent) : Prop where
  previousHash : o.previousHash = o'.previousHash
  eventHash : o.eventHash = o'.eventHash
  eventId : o.eventId = o'.eventId
  stepId : o.stepId = o'.stepId
  kind : o.kind = o'.kind
  actor : o.actor = o'.actor
  summary : o.summary = o'.summary
  createdAt : o.createdAt = o'.createdAt
  payload : ∃ v v', loadPayload P o.payloadJson = some v ∧ loadPayload P o'.payloadJson = some v' ∧ v.Same v'

theorem project_some {e : ProjectedEvent P} (h : o.project P = some e) :
    ∃ v, loadPayload P o.payloadJson = some v ∧
      e = ⟨o.eventId, ⟨o.stepId, o.kind, o.actor, o.summary, v, o.createdAt⟩, o.previousHash, o.eventHash⟩ := by
  obtain ⟨v, hv, rfl⟩ := Option.map_eq_some_iff.mp h
  exact ⟨v, hv, rfl⟩

theorem loadPayload_readable (ht : Plain t) (h : loadPayload P t = some v) : v.Readable := by
  unfold loadPayload at h
  cases hload : loadsText P.floats.toFloatFormat (fun pairs => (.ok (objectOf pairs) : Except Empty P.Json)) t with
  | error => simp [hload, Except.toOption] at h
  | ok =>
    rw [hload] at h
    obtain rfl := Option.some.inj h
    exact (reads_objects P.floats).loadsText ht hload

theorem optionText_inj {φ : Type} : ∀ {a b : Option Text}, (some (match a with
      | some s => Value.str (φ := φ) s
      | none => .none)).map Value.sorted = (some (match b with
      | some s => Value.str s
      | none => .none)).map Value.sorted → a = b
  | none, none, _ => rfl
  | some _, some _, h => congrArg some (Value.str.inj (Option.some.inj h))
  | none, some _, h => (by cases Option.some.inj h)
  | some _, none, h => (by cases Option.some.inj h)

/-- Rows whose projections agree as entries of a chain agree in everything that is hashed. -/
theorem sameFields_of_entry (hrun : isIdentifier runId = true) {o' : AuditEvent} (ho : o.Stored) (ho' : o'.Stored)
    {e e' : ProjectedEvent P} (he : o.project P = some e) (he' : o'.project P = some e') (hw : Writable P runId e)
    (hw' : Writable P runId e')
    (h : SameEntry ProjectedEvent.previousHash ProjectedEvent.eventHash (linkBody P runId) e e')
    : SameFields P o o' := by
  obtain ⟨v, hv, rfl⟩ := project_some he
  obtain ⟨v', hv', rfl⟩ := project_some he'
  have hplain := isIdentifier_plain hrun
  rw [Writable, ← h.body] at hw'
  obtain ⟨s, hs, hs'⟩ := Option.map_eq_some_iff.mp hw
  obtain ⟨t, ht, ht'⟩ := Option.map_eq_some_iff.mp hw'
  obtain rfl := List.append_cancel_right (hs'.trans ht'.symm)
  have hsame := canonicalText_injective
    (eventBody_readable ho.eventId hplain ho.stepId ho.kind ho.actor ho.summary (loadPayload_readable ho.payloadJson hv)
      ho.createdAt)
    (eventBody_readable ho'.eventId hplain ho'.stepId ho'.kind ho'.actor ho'.summary
      (loadPayload_readable ho'.payloadJson hv') ho'.createdAt) hs ht
  have hfield := lookup_of_same (by exact bodyKeys) (by exact bodyKeys) hsame
  exact {
    previousHash := h.prev
    eventHash := h.hash
    eventId := Value.str.inj (Option.some.inj (hfield (lit "eventID")))
    stepId := optionText_inj (hfield (lit "stepID"))
    kind := Value.str.inj (Option.some.inj (hfield (lit "kind")))
    actor := Value.str.inj (Option.some.inj (hfield (lit "actor")))
    summary := Value.str.inj (Option.some.inj (hfield (lit "summary")))
    createdAt := Value.str.inj (Option.some.inj (hfield (lit "createdAt")))
    payload := ⟨v, v', hv, hv', Option.some.inj (hfield (lit "payload"))⟩ }

theorem auditChainValid_linked (h : auditChainValid P runId rows = true) :
    ∃ es, List.Forall₂ (fun o e => AuditEvent.project P o = some e) rows es ∧ (∀ e ∈ es, Writable P runId e) ∧
      LinkedEvents P runId zeroHash es := by
  simp only [auditChainValid, Option.any_eq_true] at h
  obtain ⟨es, hes, hverify⟩ := h
  obtain ⟨hwritable, hlinked⟩ := verifyAudit_iff.mp hverify
  refine ⟨es, ?_, hwritable, hlinked⟩
  clear hverify hwritable hlinked
  rw [getAudit] at hes
  induction rows generalizing es with
  | nil =>
    obtain rfl := Option.some.inj hes
    exact .nil
  | cons o rows ih =>
    simp only [List.mapM_cons, bind, Option.bind_eq_some_iff, pure, Option.some.injEq] at hes
    obtain ⟨e, he, rest, hrest, rfl⟩ := hes
    exact .cons he (ih _ hrest)

theorem endHash_project {es : List (ProjectedEvent P)}
    (h : List.Forall₂ (fun o e => AuditEvent.project P o = some e) rows es) (p : Text) :
    endHash ProjectedEvent.eventHash p es = endHash AuditEvent.eventHash p rows := by
  induction h generalizing p with
  | nil => rfl
  | cons he _ ih =>
    obtain ⟨v, -, rfl⟩ := project_some he
    rw [endHash_cons, endHash_cons, ih]

theorem sameFields_of_entries (hrun : isIdentifier runId = true) :
    ∀ {rows rows' : List AuditEvent} {es es' : List (ProjectedEvent P)},
    List.Forall₂ (fun o e => AuditEvent.project P o = some e) rows es →
    List.Forall₂ (fun o e => AuditEvent.project P o = some e) rows' es' → (∀ o ∈ rows, o.Stored) →
      (∀ o ∈ rows', o.Stored) →
    (∀ e ∈ es, Writable P runId e) → (∀ e ∈ es', Writable P runId e) →
    List.Forall₂ (SameEntry ProjectedEvent.previousHash ProjectedEvent.eventHash (linkBody P runId)) es es' →
    List.Forall₂ (SameFields P) rows rows'
  | _, _, _, _, .nil, .nil, _, _, _, _, .nil => .nil
  | _, _, _, _, .cons he hrest, .cons he' hrest', hs, hs', hw, hw', .cons hentry hentries => by
    rw [List.forall_mem_cons] at hs hs' hw hw'
    exact .cons (sameFields_of_entry hrun hs.1 hs'.1 he he' hw.1 hw'.1 hentry)
      (sameFields_of_entries hrun hrest hrest' hs.2 hs'.2 hw.2 hw'.2 hentries)

theorem Writable.braced {e : ProjectedEvent P} (h : Writable P runId e) : Braced (linkBody P runId e) :=
  canonical_dict_braced h

section Tampering

variable {runId : Text} {rows rows' : List AuditEvent}

theorem auditChain_same (hP : P.Hashing) (hrun : isIdentifier runId = true) (hs : ∀ o ∈ rows, o.Stored)
    (hs' : ∀ o ∈ rows', o.Stored) (h : auditChainValid P runId rows = true) (h' : auditChainValid P runId rows' = true)
    (hend : endHash AuditEvent.eventHash zeroHash rows = endHash AuditEvent.eventHash zeroHash rows') :
    List.Forall₂ (SameFields P) rows rows' := by
  obtain ⟨es, hproject, hw, hlinked⟩ := auditChainValid_linked h
  obtain ⟨es', hproject', hw', hlinked'⟩ := auditChainValid_linked h'
  refine sameFields_of_entries hrun hproject hproject' hs hs' hw hw' ?_
  refine hlinked.same hP.laws hlinked' (fun e he => (hw e he).braced) (fun e he => (hw' e he).braced) ?_
  rw [endHash_project hproject, endHash_project hproject', hend]

theorem auditChain_take (hP : P.Hashing) (hrun : isIdentifier runId = true) (hs : ∀ o ∈ rows, o.Stored)
    (hs' : ∀ o ∈ rows', o.Stored) (h : auditChainValid P runId rows = true) (h' : auditChainValid P runId rows' = true)
    (hend : endHash AuditEvent.eventHash zeroHash rows' = zeroHash ∨
      ∃ o ∈ rows, endHash AuditEvent.eventHash zeroHash rows' = o.eventHash) :
    ∃ n, List.Forall₂ (SameFields P) (rows.take n) rows' := by
  obtain ⟨es, hproject, hw, hlinked⟩ := auditChainValid_linked h
  obtain ⟨es', hproject', hw', hlinked'⟩ := auditChainValid_linked h'
  have hend' : endHash ProjectedEvent.eventHash zeroHash es' = zeroHash ∨
      ∃ e ∈ es, endHash ProjectedEvent.eventHash zeroHash es' = e.eventHash := by
    rw [endHash_project hproject']
    refine hend.imp_right fun ⟨o, ho, heq⟩ => ?_
    obtain ⟨i, hi, rfl⟩ := List.getElem_of_mem ho
    have hlen := hproject.length_eq
    have he := List.Forall₂.get hproject hi (hlen ▸ hi)
    obtain ⟨v, -, hv⟩ := project_some he
    exact ⟨es.get ⟨i, hlen ▸ hi⟩, List.get_mem _ _, by rw [hv, heq]; rfl⟩
  obtain ⟨n, hn⟩ := hlinked.same_take hP.laws hlinked' (fun e he => (hw e he).braced)
    (fun e he => (hw' e he).braced) hend'
  exact ⟨n, sameFields_of_entries hrun (List.forall₂_take n hproject) hproject'
    (fun o ho => hs o (List.mem_of_mem_take ho)) hs' (fun e he => hw e (List.mem_of_mem_take he)) hw' hn⟩

end Tampering

/-- **The audit chain.**  After every sequence of calls the chain of each run verifies, and no insertion of an event
fails on its identifier or its hash.  Two lists of rows that both verify for a run agree in all hashed fields if they
end in the same hash; and one that ends in any hash of the other is a beginning of it. -/
theorem bootstrap_audit_chain (P : Platform) (hP : P.Hashing) :
    (∀ calls : List (Call P),
      (∀ runId, auditChainValid P runId ((runCalls (Db.initial P) calls).auditOf runId) = true) ∧
      ∀ c : Call P, c.exec (runCalls (Db.initial P) calls) ≠ .error (.integrityError "UNIQUE bootstrap_audit_events")) ∧
    ∀ runId (rows rows' : List AuditEvent), isIdentifier runId = true → (∀ o ∈ rows, o.Stored) →
      (∀ o ∈ rows', o.Stored) → auditChainValid P runId rows = true → auditChainValid P runId rows' = true →
      (endHash AuditEvent.eventHash zeroHash rows = endHash AuditEvent.eventHash zeroHash rows' →
        List.Forall₂ (SameFields P) rows rows') ∧
      (endHash AuditEvent.eventHash zeroHash rows' = zeroHash ∨
        (∃ o ∈ rows, endHash AuditEvent.eventHash zeroHash rows' = o.eventHash) →
        ∃ n, List.Forall₂ (SameFields P) (rows.take n) rows') := by
  refine ⟨fun calls => ?_, fun runId rows rows' hrun hs hs' h h' =>
    ⟨auditChain_same hP hrun hs hs' h h', auditChain_take hP hrun hs hs' h h'⟩⟩
  have haudited := runCalls_audited hP calls AllKept.initial Audited.initial
  refine ⟨haudited.log.valid, fun c hc => ?_⟩
  have hinserts := c.exec_inserts hP haudited
  rw [hc] at hinserts
  exact hinserts rfl

/-! ## A platform -/

section Sample

/-- A character in six hexadecimal digits. -/
def sixDigits (c : CodePoint) : Text :=
  [hexDigit (c.val / 1048576), hexDigit (c.val / 65536 % 16), hexDigit (c.val / 4096 % 16), hexDigit (c.val / 256 % 16),
    hexDigit (c.val / 16 % 16), hexDigit (c.val % 16)]

/-- A digest without collisions. -/
def sampleDigest (t : Text) : Text := ch '1' :: t.flatMap sixDigits

theorem hexDigit_isHex {n : Nat} (h : n < 16) : isHex (hexDigit n) = true := by
  revert n
  decide

theorem hexDigit_inj {m n : Nat} (hm : m < 16) (hn : n < 16) (h : hexDigit m = hexDigit n) : m = n := by
  have := (hexValue_digit hm).symm.trans ((congrArg hexValue h).trans (hexValue_digit hn))
  exact Option.some.inj this

theorem sixDigits_inj {c d : CodePoint} (h : sixDigits c = sixDigits d) : c = d := by
  have hc := c.isLt
  have hd := d.isLt
  simp only [sixDigits, List.cons.injEq, and_true] at h
  obtain ⟨h₁, h₂, h₃, h₄, h₅, h₆⟩ := h
  have h₁ := hexDigit_inj (by omega) (by omega) h₁
  have h₂ := hexDigit_inj (by omega) (by omega) h₂
  have h₃ := hexDigit_inj (by omega) (by omega) h₃
  have h₄ := hexDigit_inj (by omega) (by omega) h₄
  have h₅ := hexDigit_inj (by omega) (by omega) h₅
  have h₆ := hexDigit_inj (by omega) (by omega) h₆
  exact Fin.ext (by omega)

theorem flatMap_sixDigits_inj : ∀ {s t : Text}, s.flatMap sixDigits = t.flatMap sixDigits → s = t
  | [], [], _ => rfl
  | [], d :: t, h => (by cases h)
  | c :: s, [], h => (by cases h)
  | c :: s, d :: t, h => by
    rw [List.flatMap_cons, List.flatMap_cons] at h
    obtain ⟨hhead, htail⟩ := List.append_inj h rfl
    rw [sixDigits_inj hhead, flatMap_sixDigits_inj htail]

theorem sampleDigest_hex (t : Text) : Hex (sampleDigest t) := by
  refine List.forall_mem_cons.mpr ⟨by decide, fun c hc => ?_⟩
  obtain ⟨d, -, hd⟩ := List.mem_flatMap.mp hc
  have hlt := d.isLt
  simp only [sixDigits, List.mem_cons, List.not_mem_nil, or_false] at hd
  rcases hd with rfl | rfl | rfl | rfl | rfl | rfl <;> exact hexDigit_isHex (by omega)

def samplePlatform : Platform where
  floats := sampleFloats
  floatTruth _ := true
  floatEq _ _ := false
  floatInt _ := none
  floatStr _ := lit "nan"
  floatColumn _ := none
  parseInt _ := none
  hexdigest := sampleDigest
  hexprefix := sampleDigest
  floatTruth_of_int _ _ := rfl
  floatColumn_plain _ _ h := nomatch h
  parseInt_nil := rfl

theorem samplePlatform_hashing : samplePlatform.Hashing where
  digest_inj _ _ h := flatMap_sixDigits_inj (List.cons.inj h).2
  prefix_inj _ _ h := flatMap_sixDigits_inj (List.cons.inj h).2
  digest_hex := sampleDigest_hex
  prefix_hex := sampleDigest_hex
  digest_ne_zero t h := by
    have hhead : ch '1' = ch '0' := (List.cons.inj (h : _ = ch '0' :: List.replicate 63 (ch '0'))).1
    exact absurd hhead (by decide)

def sampleStamp : Stamp where
  text := lit "2026-01-01T00:00:00Z"
  length_eq := rfl
  chars c hc := by
    have hall : ((lit "2026-01-01T00:00:00Z").all fun d => isDigit d || decide (d ∈ lit "-:TZ")) = true := rfl
    simpa using List.all_eq_true.mp hall c hc

/-- A step of a plan that observes. -/
def sampleStep (id status : String) (dependsOn : List String) : Value Unit :=
  .dict [(lit "id", .str (lit id)), (lit "phase", .str (lit "PREPARE")), (lit "action", .str (lit "observe")),
    (lit "status", .str (lit status)), (lit "reason", .str (lit "sample")), (lit "mutating", .bool false),
    (lit "dependsOn", .list (dependsOn.map fun d => .str (lit d))), (lit "requiredCapability", .none)]

def samplePlan (steps : List (Value Unit)) : Value Unit :=
  .dict [(lit "schemaVersion", .int 2), (lit "mode", .str (lit "dryRun")), (lit "failClosed", .bool true),
    (lit "automaticActions", .list []), (lit "steps", .list steps)]

/-- A run with one step is initialized. -/
def sampleCalls : List (Call samplePlatform) :=
  [.create (lit "run-1") (.dict []) (samplePlan [sampleStep "observe" "ready" []]) (lit "bootstrap") sampleStamp]

/-- An event about nothing, with a spelling of the empty object. -/
def emptyEvent (payloadJson : String) : AuditEvent where
  eventId := lit "event"
  runId := lit "run-1"
  stepId := none
  kind := lit "kind"
  actor := lit "bootstrap"
  summary := []
  payloadJson := lit payloadJson
  previousHash := zeroHash
  eventHash := sampleDigest (zeroHash ++ ((canonical samplePlatform (eventBody samplePlatform (lit "event")
    (lit "run-1") none (lit "kind") (lit "bootstrap") [] (.dict []) sampleStamp.text)).getD []))
  createdAt := sampleStamp.text

theorem emptyEvent_stored {payloadJson : String} (h : asciiText (lit payloadJson) = true) :
    ∀ o ∈ [emptyEvent payloadJson], o.Stored := by
  refine List.forall_mem_singleton.mpr ⟨plain_of_ascii rfl, ?_, plain_of_ascii rfl, plain_of_ascii rfl,
    plain_of_ascii rfl, plain_of_ascii h, plain_of_ascii rfl⟩
  rintro _ ⟨⟩

end Sample

theorem bootstrap_audit_chain_sample :
    auditChainValid samplePlatform (lit "run-1")
      ((runCalls (Db.initial samplePlatform) sampleCalls).auditOf (lit "run-1")) = true ∧
    List.Forall₂ (SameFields samplePlatform) [emptyEvent "\x7b\x7d"] [emptyEvent "\x7b \x7d"] := by
  have h := bootstrap_audit_chain samplePlatform samplePlatform_hashing
  exact ⟨(h.1 sampleCalls).1 (lit "run-1"), (h.2 (lit "run-1") _ _ rfl (emptyEvent_stored rfl) (emptyEvent_stored rfl)
    (by decide +kernel) (by decide +kernel)).1 rfl⟩

end AgentFabric.Bootstrap
