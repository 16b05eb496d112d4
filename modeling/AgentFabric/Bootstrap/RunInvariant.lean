import AgentFabric.Bootstrap.Reconcile
import AgentFabric.Domain

/-!
# The invariant of a bootstrap run

What holds of the steps of every run between two calls.
-/

namespace AgentFabric.Bootstrap

open AgentFabric.Lib

variable {P : Platform}

/-! ## The rows of a plan -/

/-- The rows of a plan are new: pending, except that a blocked plan blocks its first step. -/
structure Fresh (rows : List (StepRow P)) : Prop where
  nodup : (stepIds rows).Nodup
  state : ∀ s ∈ rows, s.state.begun = false
  result : ∀ s ∈ rows, s.result = none

theorem stepRow_fresh {step : P.Json} {ordinal : Nat} {now : Stamp} {row : StepRow P}
    (h : stepRow P step ordinal now = .ok row) : row.state.begun = false ∧ row.result = none := by
  unfold stepRow at h
  split at h
  · simp only [bind_eq_ok, pure_eq_ok] at h
    obtain ⟨_, -, _, -, _, -, _, -, _, -, _, -, _, -, rfl⟩ := h
    refine ⟨?_, rfl⟩
    show (initialStepState P _ ordinal).begun = false
    unfold initialStepState
    split <;> rfl
  · cases h

theorem stepRows_fresh {now : Stamp} : ∀ {steps : List P.Json} {ordinal : Nat} {rows rows' : List (StepRow P)},
    stepRows P now ordinal rows steps = .ok rows' → Fresh rows → Fresh rows' ∧ rows'.length = rows.length + steps.length
  | [], ordinal, rows, rows', h, hrows => by
    obtain rfl := Except.ok.inj h
    exact ⟨hrows, rfl⟩
  | step :: steps, ordinal, rows, rows', h, hrows => by
    simp only [stepRows, bind_eq_ok] at h
    obtain ⟨row, hrow, h⟩ := h
    split at h
    · cases h
    next hnew =>
    obtain ⟨hstate, hresult⟩ := stepRow_fresh hrow
    have hne : row.stepId ∉ stepIds rows := by
      intro hmem
      obtain ⟨other, hother, hid⟩ := List.mem_map.mp hmem
      exact hnew (List.any_eq_true.mpr ⟨other, hother, decide_eq_true hid⟩)
    have hfresh : Fresh (rows ++ [row]) := by
      refine ⟨?_, fun s hs => ?_, fun s hs => ?_⟩
      · rw [stepIds, List.map_append]
        exact List.nodup_append.mpr ⟨hrows.nodup, List.nodup_singleton _, fun a ha b hb heq =>
          hne (List.mem_singleton.mp hb ▸ heq ▸ ha)⟩
      · rcases List.mem_append.mp hs with hs | hs
        · exact hrows.state s hs
        · exact List.mem_singleton.mp hs ▸ hstate
      · rcases List.mem_append.mp hs with hs | hs
        · exact hrows.result s hs
        · exact List.mem_singleton.mp hs ▸ hresult
    obtain ⟨hfresh', hlength⟩ := stepRows_fresh h hfresh
    refine ⟨hfresh', ?_⟩
    simp only [List.length_append, List.length_cons, List.length_nil] at hlength ⊢
    omega

theorem Fresh.sound {rows : List (StepRow P)} (h : Fresh rows) : Sound rows where
  nodup := h.nodup
  dependencies s hs hbegun := by
    rw [h.state s hs] at hbegun
    cases hbegun
  consistent s hs := by
    have hstate := h.state s hs
    have hresult := h.result s hs
    unfold StepRow.Consistent
    revert hstate
    cases s.state <;> simp [StepState.begun, hresult]

/-! ## Transactions that commit -/

def newRun (planDigest profileDigest : Text) (now : Stamp) (rows : List (StepRow P)) : RunRow P where
  planDigest := planDigest
  profileDigest := profileDigest
  state := .active
  currentPhase := none
  createdAt := now.text
  updatedAt := now.text
  completedAt := none
  steps := rows

/-- The event of a new run. -/
def initializedEvent (planDigest profileDigest actor : Text) (now : Stamp) : EventContent P where
  stepId := none
  kind := lit "bootstrapRunInitialized"
  actor := actor
  summary := lit "Durable bootstrap run initialized without host mutation"
  payload := .dict [(lit "planDigest", .str planDigest), (lit "profileDigest", .str profileDigest)]
  createdAt := now.text

/-- A run is initialized. -/
structure Initialized (db db' : Db P) (runId : Text) (profile plan : P.Json) (actor : Text) (now : Stamp)
    (planDigest profileDigest : Text) (rows steps : List (StepRow P)) : Prop where
  identified : isIdentifier runId = true ∧ isIdentifier actor = true
  absent : db.runs.get? runId = none
  planned : ∃ planSteps, validatePlan P plan = .ok planSteps ∧ stepRows P now 0 [] planSteps = .ok rows ∧ planSteps ≠ []
  digests : digest P plan = .ok planDigest ∧ digest P profile = .ok profileDigest
  receipts : db'.receipts = db.receipts
  others : ∀ id, id ≠ runId → db'.runs.get? id = db.runs.get? id
  promoted : Relation.ReflTransGen Promotion rows steps
  settled : Settled steps
  run : db'.runs.get? runId = some ((newRun planDigest profileDigest now rows).reconciled steps now.text)
  audit : ∃ row, auditRow (P := P) db.audit runId (initializedEvent planDigest profileDigest actor now) = some row ∧
    Appends runId (Promotes actor now.text rows) (db.audit ++ [row]) db'.audit

theorem validatePlan_steps {plan : P.Json} {steps : List P.Json} (h : validatePlan P plan = .ok steps) :
    steps ≠ [] ∧ validateSteps P [] steps = .ok () := by
  unfold validatePlan at h
  split at h
  · split at h
    · cases h
    split at h
    · split at h
      · cases h
      · next hne _ =>
        simp only [bind_eq_ok, pure_eq_ok] at h
        obtain ⟨_, hvalid, rfl⟩ := h
        exact ⟨fun hnil => hne hnil, hvalid⟩
      · cases h
    · cases h
  · cases h

theorem initializeRun_ok {actor : Text} {profile plan : P.Json} {now : Stamp}
    (h : initializeRun db runId profile plan actor now = .ok db') :
    (db' = db ∧ ∃ existing, db.runs.get? runId = some existing) ∨ ∃ planDigest profileDigest rows steps,
      Initialized db db' runId profile plan actor now planDigest profileDigest rows steps := by
  unfold initializeRun at h
  split at h
  · next hid =>
    rw [Bool.and_eq_true] at hid
    simp only [bind_eq_ok] at h
    obtain ⟨planSteps, hplan, planDigest, hpd, profileDigest, hqd, h⟩ := h
    split at h
    · next existing hexisting =>
      split at h
      · cases h
      · exact Or.inl ⟨(Except.ok.inj h).symm, existing, hexisting⟩
    · next habsent =>
      simp only [bind_eq_ok] at h
      obtain ⟨rows, hrows, mid, happend, hrec⟩ := h
      right
      obtain ⟨row, hrow, -, rfl⟩ := appendAudit_ok happend
      have hrun : (db.runs.upsert runId (newRun planDigest profileDigest now rows)).get? runId =
          some (newRun planDigest profileDigest now rows) := by
        rw [Table.get?_upsert, if_pos rfl]
      have hsound : Sound rows :=
        (stepRows_fresh hrows ⟨List.nodup_nil, fun _ h => (nomatch h), fun _ h => (nomatch h)⟩).1.sound
      obtain ⟨hreceipts, haudit, hothers, steps, hprom, hsettled, hfinal⟩ := reconcile_ok hrec hrun hsound
      refine ⟨planDigest, profileDigest, rows, steps, hid, habsent,
        ⟨planSteps, hplan, hrows, (validatePlan_steps hplan).1⟩,
        ⟨hpd, hqd⟩, hreceipts, fun id hne => ?_, hprom, hsettled, hfinal, row, hrow, haudit⟩
      rw [hothers id hne]
      show (db.runs.upsert runId _).get? id = _
      rw [Table.get?_upsert, if_neg hne]
  · cases h

/-- A result is recorded. -/
structure Recorded (db db' : Db P) (r : StepResult P) (run : RunRow P) (mid steps : List (StepRow P)) : Prop where
  absent : db.receipts.get? r.idempotencyKey = none
  found : db.runs.get? r.runId = some run
  recording : Recording r run.steps mid
  promoted : Relation.ReflTransGen Promotion mid steps
  settled : Settled steps
  receipts : db'.receipts = db.receipts.upsert r.idempotencyKey ⟨r.runId, r.stepId, r.digest, r.observedAt.text⟩
  others : ∀ id, id ≠ r.runId → db'.runs.get? id = db.runs.get? id
  run : db'.runs.get? r.runId = some (run.reconciled steps r.observedAt.text)
  audit : Appends r.runId (fun e => e = resultEvent r ∨ Promotes (lit "bootstrap") r.observedAt.text mid e)
    db.audit db'.audit

theorem recordResult_ok (h : recordResult db r = .ok db')
    (hsound : ∀ run, db.runs.get? r.runId = some run → Sound run.steps) :
    (db' = db ∧ ∃ receipt, db.receipts.get? r.idempotencyKey = some receipt ∧ receipt.resultDigest = r.digest ∧
      receipt.runId = r.runId) ∨ ∃ run mid steps, Recorded db db' r run mid steps := by
  unfold recordResult at h
  split at h
  · next receipt hreceipt =>
    split at h
    · cases h
    split at h
    · cases h
    · next hdigest hrun =>
      exact Or.inl ⟨(Except.ok.inj h).symm, receipt, hreceipt, not_not.mp hdigest, not_not.mp hrun⟩
  next habsent =>
  right
  split at h
  · cases h
  next step hstep =>
  split at h
  · cases h
  split at h
  · cases h
  split at h
  · cases h
  next hactionable hdeps =>
  simp only [bind_eq_ok] at h
  obtain ⟨_, hadmits, appended, happend, hrec⟩ := h
  obtain ⟨run, hrun⟩ : ∃ run, db.runs.get? r.runId = some run := by
    cases hget : db.runs.get? r.runId with
    | none => simp [Db.stepsOf, hget, findStep] at hstep
    | some run => exact ⟨run, rfl⟩
  rw [stepsOf_of_get? hrun] at hstep hdeps
  have hrecording := Recording.record step hstep (by simpa using hactionable) (by simpa using hdeps) hadmits
  have hmid := Move.sound (Or.inr ⟨r, hrecording⟩) (hsound run hrun)
  obtain ⟨row, hrow, hunused, rfl⟩ := appendAudit_ok happend
  have hrun' := get?_updateSteps db r.runId r.runId (updateStep r.stepId fun s =>
    { s with state := r.outcome.stepState, result := some r, updatedAt := r.observedAt.text })
  rw [hrun, Option.map_some, if_pos rfl] at hrun'
  obtain ⟨hreceipts, haudit, hothers, steps, hprom, hsettled, hfinal⟩ := reconcile_ok hrec hrun' hmid
  refine ⟨run, _, steps, habsent, hrun, hrecording, hprom, hsettled, hreceipts, fun id hne => ?_, hfinal, ?_⟩
  · rw [hothers id hne]
    show (db.updateSteps r.runId _).runs.get? id = _
    rw [get?_updateSteps]
    simp [hne]
  · exact (Appends.snoc .refl (Or.inl rfl) hrow hunused).trans (haudit.mono fun e he => Or.inr he)

/-! ## Between two calls -/

/-- What holds of a run between any two calls. -/
structure Kept (run : RunRow P) : Prop where
  sound : Sound run.steps
  settled : Settled run.steps
  state : run.state = runState run.steps
  phase : run.currentPhase = some (currentPhase run.steps)
  steps : run.steps ≠ []

variable {steps' : List (StepRow P)}

theorem promotions_result (h : Relation.ReflTransGen Promotion steps steps') {s : StepRow P} (hs : s ∈ steps') :
    ∃ t ∈ steps, SamePlan t s ∧ s.result = t.result := by
  induction h generalizing s with
  | refl => exact ⟨s, hs, .refl s, rfl⟩
  | @tail mid _ _ hp ih =>
    obtain ⟨u, hu, hstate, hdeps, time⟩ := hp
    obtain ⟨t, ht, rfl⟩ := mem_updateStep.mp hs
    obtain ⟨o, ho, hplan, hresult⟩ := ih ht
    refine ⟨o, ho, hplan.trans ?_, ?_⟩
    · split
      · exact ⟨rfl, rfl, rfl, rfl, rfl, rfl, rfl, rfl⟩
      · exact .refl t
    · split <;> exact hresult

theorem Recording.result (h : Recording r steps steps') {s : StepRow P} (hs : s ∈ steps') :
    s.result = some r ∨ ∃ t ∈ steps, SamePlan t s ∧ s.result = t.result := by
  obtain ⟨u, hu, -, -, -⟩ := h
  obtain ⟨t, ht, rfl⟩ := mem_updateStep.mp hs
  split
  · exact Or.inl rfl
  · exact Or.inr ⟨t, ht, .refl t, rfl⟩

theorem samePlan_ne_nil (h : List.Forall₂ SamePlan steps steps') (hne : steps ≠ []) :
    steps' ≠ [] := by
  rintro rfl
  cases h
  exact hne rfl

section Kept

variable {db db' : Db P} {runId actor : Text} {profile plan : P.Json} {now : Stamp} {planDigest profileDigest : Text}
  {rows steps mid : List (StepRow P)} {r : StepResult P} {run : RunRow P}

theorem Initialized.fresh (h : Initialized db db' runId profile plan actor now planDigest profileDigest rows steps) :
    Fresh rows ∧ rows ≠ [] := by
  obtain ⟨planSteps, -, hrows, hne⟩ := h.planned
  obtain ⟨hfresh, hlength⟩ :=
    stepRows_fresh hrows ⟨List.nodup_nil, fun _ h => (nomatch h), fun _ h => (nomatch h)⟩
  refine ⟨hfresh, fun hnil => hne (List.eq_nil_of_length_eq_zero ?_)⟩
  rw [hnil] at hlength
  simpa using hlength.symm

theorem Initialized.kept (h : Initialized db db' runId profile plan actor now planDigest profileDigest rows steps) :
    Kept ((newRun planDigest profileDigest now rows).reconciled steps now.text) := by
  obtain ⟨hfresh, hne⟩ := h.fresh
  have hmoves := promotions_moves h.promoted
  exact ⟨hmoves.sound hfresh.sound, h.settled, rfl, rfl, samePlan_ne_nil (hmoves.samePlan hfresh.sound) hne⟩

theorem Recorded.moves (h : Recorded db db' r run mid steps) : Moves run.steps steps :=
  .head (Or.inr ⟨r, h.recording⟩) (promotions_moves h.promoted)

theorem Recorded.kept (h : Recorded db db' r run mid steps) (hkept : Kept run) :
    Kept (run.reconciled steps r.observedAt.text) :=
  ⟨h.moves.sound hkept.sound, h.settled, rfl, rfl,
    samePlan_ne_nil (h.moves.samePlan hkept.sound) hkept.steps⟩

end Kept

def AllKept (db : Db P) : Prop := ∀ runId run, db.runs.get? runId = some run → Kept run

theorem AllKept.initial : AllKept (Db.initial P) := nofun

/-- A call changes nothing, or initializes a run or records a result. -/
theorem Call.apply_cases (hkept : AllKept db) (c : Call P) : c.apply db = db ∨ c.Accepted db ∧
    ((∃ runId profile plan actor now planDigest profileDigest rows steps,
        c = .create runId profile plan actor now ∧
        Initialized db (c.apply db) runId profile plan actor now planDigest profileDigest rows steps) ∨
      ∃ r run mid steps, c = .record r ∧ Recorded db (c.apply db) r run mid steps) := by
  cases hexec : c.exec db with
  | error e => exact Or.inl (by simp [Call.apply, hexec])
  | ok db' =>
    have happly : c.apply db = db' := by simp [Call.apply, hexec]
    rw [happly]
    cases c with
    | create runId profile plan actor now =>
      rcases initializeRun_ok hexec with ⟨hsame, -⟩ | ⟨planDigest, profileDigest, rows, steps, h⟩
      · exact Or.inl hsame
      · exact Or.inr ⟨⟨db', hexec⟩, Or.inl ⟨runId, profile, plan, actor, now, planDigest, profileDigest, rows, steps,
          rfl, h⟩⟩
    | record r =>
      rcases recordResult_ok hexec fun run hrun => (hkept _ run hrun).sound with ⟨hsame, -⟩ | ⟨run, mid, steps, h⟩
      · exact Or.inl hsame
      · exact Or.inr ⟨⟨db', hexec⟩, Or.inr ⟨r, run, mid, steps, rfl, h⟩⟩

/-- Every call keeps the invariant. -/
theorem Call.apply_kept (hkept : AllKept db) (c : Call P) : AllKept (c.apply db) := by
  intro id run hrun
  rcases c.apply_cases hkept with hsame | ⟨-, ⟨runId, profile, plan, actor, now, _, _, rows, steps, -, h⟩ |
    ⟨r, old, mid, steps, -, h⟩⟩
  · rw [hsame] at hrun
    exact hkept id run hrun
  · by_cases hid : id = runId
    · subst hid
      obtain rfl := Option.some.inj (h.run.symm.trans hrun)
      exact h.kept
    · rw [h.others id hid] at hrun
      exact hkept id run hrun
  · by_cases hid : id = r.runId
    · subst hid
      obtain rfl := Option.some.inj (h.run.symm.trans hrun)
      exact h.kept (hkept _ old h.found)
    · rw [h.others id hid] at hrun
      exact hkept id run hrun

theorem runCalls_append (db : Db P) (calls more : List (Call P)) :
    runCalls db (calls ++ more) = runCalls (runCalls db calls) more := List.foldl_append

theorem runCalls_kept (hkept : AllKept db) (calls : List (Call P)) : AllKept (runCalls db calls) := by
  induction calls generalizing db with
  | nil => exact hkept
  | cons c calls ih => exact ih (c.apply_kept hkept)

/-- The steps of a run only move. -/
theorem Call.apply_moves (hkept : AllKept db) (c : Call P) (hrun : db.runs.get? runId = some run) :
    ∃ run', (c.apply db).runs.get? runId = some run' ∧ Moves run.steps run'.steps := by
  rcases c.apply_cases hkept with hsame | ⟨-, ⟨id, profile, plan, actor, now, _, _, rows, steps, -, h⟩ |
    ⟨r, old, mid, steps, -, h⟩⟩
  · exact ⟨run, by rw [hsame]; exact hrun, .refl⟩
  · have hid : runId ≠ id := by
      rintro rfl
      rw [h.absent] at hrun
      cases hrun
    exact ⟨run, by rw [h.others runId hid]; exact hrun, .refl⟩
  · by_cases hid : runId = r.runId
    · subst hid
      obtain rfl := Option.some.inj (h.found.symm.trans hrun)
      exact ⟨_, h.run, h.moves⟩
    · exact ⟨run, by rw [h.others runId hid]; exact hrun, .refl⟩

theorem runCalls_moves (more : List (Call P)) : ∀ {db : Db P}, AllKept db → ∀ {runId : Text} {run : RunRow P},
    db.runs.get? runId = some run → ∃ run', (runCalls db more).runs.get? runId = some run' ∧
      Moves run.steps run'.steps := by
  induction more with
  | nil => exact fun _ _ run hrun => ⟨run, hrun, .refl⟩
  | cons c more ih =>
    intro db hkept runId run hrun
    obtain ⟨run', hrun', hmoves⟩ := c.apply_moves hkept hrun
    obtain ⟨run'', hrun'', hmoves'⟩ := ih (c.apply_kept hkept) hrun'
    exact ⟨run'', hrun'', hmoves.trans hmoves'⟩

/-! ## Where a run comes from -/

/-- The call was made in the sequence, and it committed. -/
def Call.AcceptedIn (calls : List (Call P)) (c : Call P) : Prop :=
  ∃ pre post, calls = pre ++ c :: post ∧ c.Accepted (runCalls (Db.initial P) pre)

variable {calls : List (Call P)}

theorem Call.AcceptedIn.concat {c : Call P} (h : c.AcceptedIn calls) (d : Call P) :
    c.AcceptedIn (calls ++ [d]) := by
  obtain ⟨pre, post, rfl, hacc⟩ := h
  exact ⟨pre, post ++ [d], by simp, hacc⟩

/-- The run was initialized from a plan, and the results of its steps were recorded. -/
structure Known (calls : List (Call P)) (runId : Text) (run : RunRow P) : Prop where
  planned : ∃ profile plan actor now planSteps rows, Call.AcceptedIn calls (.create runId profile plan actor now) ∧
    validatePlan P plan = .ok planSteps ∧ stepRows P now 0 [] planSteps = .ok rows ∧ Fresh rows ∧ Moves rows run.steps
  recorded : ∀ s ∈ run.steps, ∀ r, s.result = some r → r.runId = runId ∧ Call.AcceptedIn calls (.record r)

theorem Known.concat (h : Known calls runId run) (d : Call P) :
    Known (calls ++ [d]) runId run where
  planned := by
    obtain ⟨profile, plan, actor, now, planSteps, rows, hacc, h⟩ := h.planned
    exact ⟨profile, plan, actor, now, planSteps, rows, hacc.concat d, h⟩
  recorded s hs r hr := ⟨(h.recorded s hs r hr).1, (h.recorded s hs r hr).2.concat d⟩

theorem runCalls_known (calls : List (Call P)) (hrun : (runCalls (Db.initial P) calls).runs.get? runId = some run) :
    Known calls runId run := by
  induction calls using List.reverseRecOn generalizing runId run with
  | nil => exact nomatch hrun
  | append_singleton calls c ih =>
    have hkept := runCalls_kept AllKept.initial calls
    rw [runCalls_append] at hrun
    change (c.apply (runCalls (Db.initial P) calls)).runs.get? runId = some run at hrun
    rcases c.apply_cases hkept with hsame | ⟨hacc, ⟨id, profile, plan, actor, now, _, _, rows, steps, rfl, h⟩ |
      ⟨r, old, mid, steps, rfl, h⟩⟩
    · rw [hsame] at hrun
      exact (ih hrun).concat c
    · by_cases hid : runId = id
      · subst hid
        obtain rfl := Option.some.inj (h.run.symm.trans hrun)
        obtain ⟨planSteps, hplan, hrows, -⟩ := h.planned
        obtain ⟨hfresh, -⟩ := h.fresh
        refine ⟨⟨profile, plan, actor, now, planSteps, rows, ⟨calls, [], rfl, hacc⟩, hplan, hrows, hfresh,
          promotions_moves h.promoted⟩, fun s hs r hr => ?_⟩
        obtain ⟨t, ht, -, hresult⟩ := promotions_result h.promoted hs
        rw [hresult, hfresh.result t ht] at hr
        cases hr
      · rw [h.others runId hid] at hrun
        exact (ih hrun).concat _
    · by_cases hid : runId = r.runId
      · subst hid
        obtain rfl := Option.some.inj (h.run.symm.trans hrun)
        have hold := (ih h.found).concat (.record r)
        obtain ⟨profile, plan, actor, now, planSteps, rows, hinit, hplan, hrows, hfresh, hmoves⟩ := hold.planned
        refine ⟨⟨profile, plan, actor, now, planSteps, rows, hinit, hplan, hrows, hfresh, hmoves.trans h.moves⟩,
          fun s hs r' hr' => ?_⟩
        obtain ⟨t, ht, -, hresult⟩ := promotions_result h.promoted hs
        rw [hresult] at hr'
        rcases h.recording.result ht with hnew | ⟨u, hu, -, hsame⟩
        · obtain rfl := Option.some.inj (hnew.symm.trans hr')
          exact ⟨rfl, calls, [], rfl, hacc⟩
        · rw [hsame] at hr'
          exact hold.recorded u hu r' hr'
      · rw [h.others runId hid] at hrun
        exact (ih hrun).concat _

/-! ## The states of a run -/

theorem runState_failed :
    runState steps = .failed ↔ ∃ s ∈ steps, s.state = .failed := by
  unfold runState
  split
  · next h =>
    simp only [List.any_eq_true, decide_eq_true_eq] at h
    simp [h]
  next hfailed =>
  simp only [List.any_eq_true, decide_eq_true_eq] at hfailed
  simp only [hfailed, iff_false]
  split
  · exact fun h => nomatch h
  split
  · split <;> exact fun h => nomatch h
  · exact fun h => nomatch h

theorem runState_complete (hne : steps ≠ []) :
    runState steps = .complete ↔ ∀ s ∈ steps, s.state = .satisfied := by
  unfold runState
  split
  · next h =>
    simp only [List.any_eq_true, decide_eq_true_eq] at h
    obtain ⟨s, hs, hstate⟩ := h
    refine ⟨fun h => (nomatch h), fun hall => ?_⟩
    rw [hall s hs] at hstate
    cases hstate
  have hempty : steps.isEmpty = false := List.isEmpty_eq_false_iff.mpr hne
  split
  · next h =>
    simp only [hempty, Bool.not_false, Bool.true_and, List.all_eq_true, decide_eq_true_eq] at h
    simp only [true_iff]
    exact h
  next hall =>
  simp only [hempty, Bool.not_false, Bool.true_and, List.all_eq_true, decide_eq_true_eq] at hall
  simp only [hall, iff_false]
  split
  · split <;> exact fun h => nomatch h
  · exact fun h => nomatch h

/-! ## The invariant -/

/-- The step was planned as not needed, or satisfied by a recorded result that was executed elsewhere with an
authorization for exactly its planned capability. -/
def Authorized (calls : List (Call P)) (runId : Text) (s : StepRow P) : Prop :=
  s.planStatus = lit "notNeeded" ∨ ∃ r a, s.result = some r ∧ Call.AcceptedIn calls (.record r) ∧ r.runId = runId ∧
    r.stepId = s.stepId ∧ r.outcome = .succeeded ∧ r.executionMode = .externallyExecuted ∧ r.authorization = some a ∧
    s.requiredCapability = some a.capability

/-- What holds of a run after a sequence of calls. -/
structure RunInvariant (calls : List (Call P)) (runId : Text) (run : RunRow P) : Prop where
  planned : ∃ profile plan actor now planSteps rows, Call.AcceptedIn calls (.create runId profile plan actor now) ∧
    validatePlan P plan = .ok planSteps ∧ stepRows P now 0 [] planSteps = .ok rows ∧
      List.Forall₂ SamePlan rows run.steps
  ordered : ∀ s ∈ run.steps, s.state.actionable = true ∨ s.state = .satisfied ∨ s.state = .failed →
    ∀ d ∈ s.dependencies, SatisfiedIn run.steps d
  promoted : ∀ s ∈ run.steps, s.state = .pending → ¬ ∀ d ∈ s.dependencies, SatisfiedIn run.steps d
  authorized : ∀ s ∈ run.steps, s.mutating = true → s.state = .satisfied → Authorized calls runId s
  complete : run.state = .complete ↔ ∀ s ∈ run.steps, s.state = .satisfied
  failed : run.state = .failed ↔ ∃ s ∈ run.steps, s.state = .failed

theorem admitResult_mutating {s : StepRow P} (h : admitResult s r = .ok ()) (hmutating : s.mutating = true) :
    r.executionMode = .externallyExecuted ∧
      ∃ a, r.authorization = some a ∧ s.requiredCapability = some a.capability := by
  unfold admitResult at h
  rw [if_pos hmutating] at h
  split at h
  · cases h
  next hmode =>
  refine ⟨not_not.mp hmode, ?_⟩
  split at h
  · cases h
  next a hauth =>
  split at h
  · cases h
  next hcap => exact ⟨a, hauth, (not_not.mp hcap).symm⟩

theorem Kept.invariant (hkept : Kept run) (hknown : Known calls runId run) : RunInvariant calls runId run where
  planned := by
    obtain ⟨profile, plan, actor, now, planSteps, rows, hinit, hplan, hrows, hfresh, hmoves⟩ := hknown.planned
    exact ⟨profile, plan, actor, now, planSteps, rows, hinit, hplan, hrows, hmoves.samePlan hfresh.sound⟩
  ordered s hs hstate := by
    have hbegun : s.state.begun = true := by
      revert hstate
      cases s.state <;> simp [StepState.actionable, StepState.begun]
    exact (dependenciesSatisfied_iff hkept.sound.nodup).mp (hkept.sound.dependencies s hs hbegun)
  promoted s hs hstate hall := by
    have hfalse := hkept.settled s hs hstate
    rw [(dependenciesSatisfied_iff hkept.sound.nodup).mpr hall] at hfalse
    cases hfalse
  authorized s hs hmutating hstate := by
    have hcons := hkept.sound.consistent s hs
    rw [StepRow.Consistent, hstate] at hcons
    rcases hcons with ⟨-, hplan⟩ | ⟨r, hresult, hid, houtcome, hadmits, -⟩
    · exact Or.inl hplan
    · obtain ⟨hmode, a, hauth, hcap⟩ := admitResult_mutating hadmits hmutating
      obtain ⟨hrun, hacc⟩ := hknown.recorded s hs r hresult
      exact Or.inr ⟨r, a, hresult, hacc, hrun, hid, houtcome, hmode, hauth, hcap⟩
  complete := by rw [hkept.state, runState_complete hkept.steps]
  failed := by rw [hkept.state, runState_failed]

/-- **The run invariant.**  After every sequence of initializations and results, accepted or rejected, for any runs of
one database: the invariant holds of every run, satisfied and failed steps never change again, and a call that is
rejected changes nothing. -/
theorem bootstrap_run_invariant (P : Platform) (calls : List (Call P)) :
    (∀ runId run, (runCalls (Db.initial P) calls).runs.get? runId = some run → RunInvariant calls runId run) ∧
    (∀ more runId run s, (runCalls (Db.initial P) calls).runs.get? runId = some run → s ∈ run.steps →
      s.state = .satisfied ∨ s.state = .failed →
      ∃ run', (runCalls (Db.initial P) (calls ++ more)).runs.get? runId = some run' ∧ s ∈ run'.steps) ∧
    ∀ c : Call P, ¬ c.Accepted (runCalls (Db.initial P) calls) →
      runCalls (Db.initial P) (calls ++ [c]) = runCalls (Db.initial P) calls := by
  have hkept := runCalls_kept (AllKept.initial (P := P)) calls
  refine ⟨fun runId run hrun => (hkept runId run hrun).invariant (runCalls_known calls hrun),
    fun more runId run s hrun hs hstate => ?_, fun c hc => ?_⟩
  · rw [runCalls_append]
    obtain ⟨run', hrun', hmoves⟩ := runCalls_moves more hkept hrun
    exact ⟨run', hrun', hmoves.keeps (hkept runId run hrun).sound hs hstate⟩
  · rw [runCalls_append]
    show c.apply _ = _
    unfold Call.apply
    split
    · next db' hexec => exact absurd ⟨db', hexec⟩ hc
    · rfl

end AgentFabric.Bootstrap
