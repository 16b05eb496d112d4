import AgentFabric.Bootstrap.Steps

/-!
# What a reconciliation does

Pending steps whose dependencies are satisfied are promoted one by one, each with its audit event.
-/

namespace AgentFabric.Bootstrap

open AgentFabric.Lib

variable {P : Platform}

/-! ## Events -/

def auditRow (audit : List AuditEvent) (runId : Text) (e : EventContent P) : Option AuditEvent :=
  let previous := previousHash audit runId
  let eventId := lit "bootstrap-event-" ++ P.hexprefix (eventSeed runId e.kind e.createdAt e.stepId previous)
  match canonical P (eventBody P eventId runId e.stepId e.kind e.actor e.summary e.payload e.createdAt),
      canonicalText P.floats e.payload with
  | some body, some payloadJson => some {
      eventId, runId, stepId := e.stepId, kind := e.kind, actor := e.actor, summary := e.summary, payloadJson
      previousHash := previous, eventHash := P.hexdigest (previous ++ body), createdAt := e.createdAt }
  | _, _ => none

/-- No event of the audit has the identifier or the hash of the row. -/
def Unused (audit : List AuditEvent) (row : AuditEvent) : Prop :=
  ∀ old ∈ audit, old.eventId ≠ row.eventId ∧ old.eventHash ≠ row.eventHash

theorem appendAudit_ok {db db' : Db P} {runId : Text} {e : EventContent P} (h : appendAudit db runId e = .ok db') :
    ∃ row, auditRow db.audit runId e = some row ∧ Unused db.audit row ∧
      db' = { db with audit := db.audit ++ [row] } := by
  unfold appendAudit at h
  dsimp only at h
  split at h
  · next body payloadJson hbody hpayload =>
    split at h
    · cases h
    · next hfresh =>
      refine ⟨_, by simp only [auditRow, hbody, hpayload], fun old hold => ?_, (Except.ok.inj h).symm⟩
      have hno : ¬ _ := fun hany => hfresh (List.any_eq_true.mpr ⟨old, hold, hany⟩)
      rw [Bool.or_eq_true, decide_eq_true_eq, decide_eq_true_eq, not_or] at hno
      exact hno
  · cases h

/-- Events of a run with contents in `C` are appended to the audit. -/
inductive Appends (runId : Text) (C : EventContent P → Prop) (audit : List AuditEvent) : List AuditEvent → Prop where
  | refl : Appends runId C audit audit
  | snoc {mid : List AuditEvent} {e : EventContent P} {row : AuditEvent} (h : Appends runId C audit mid) (he : C e)
      (hrow : auditRow mid runId e = some row) (hunused : Unused mid row) : Appends runId C audit (mid ++ [row])

theorem Appends.mono {runId : Text} {C C' : EventContent P → Prop} {a b : List AuditEvent} (h : Appends runId C a b)
    (hC : ∀ e, C e → C' e) : Appends runId C' a b := by
  induction h with
  | refl => exact .refl
  | snoc _ he hrow hunused ih => exact .snoc ih (hC _ he) hrow hunused

theorem Appends.trans {runId : Text} {C : EventContent P → Prop} {a b c : List AuditEvent} (h : Appends runId C a b)
    (h' : Appends runId C b c) : Appends runId C a c := by
  induction h' with
  | refl => exact h
  | snoc _ he hrow hunused ih => exact .snoc ih he hrow hunused

/-! ## Frames -/

/-- Only the steps of one run change, and events of the run are appended. -/
structure Frame (runId : Text) (C : EventContent P → Prop) (db db' : Db P) : Prop where
  receipts : db'.receipts = db.receipts
  runs : ∀ id, db'.runs.get? id =
    (db.runs.get? id).map fun run => if id = runId then { run with steps := db'.stepsOf runId } else run
  audit : Appends runId C db.audit db'.audit

section Frame

variable {runId : Text} {C : EventContent P → Prop} {db db' db'' : Db P} {run : RunRow P}

theorem stepsOf_of_get? (h : db.runs.get? runId = some run) : db.stepsOf runId = run.steps := by
  simp [Db.stepsOf, h]

theorem Frame.refl (runId : Text) (C : EventContent P → Prop) (db : Db P) : Frame runId C db db where
  receipts := rfl
  runs id := by
    cases h : db.runs.get? id with
    | none => rfl
    | some =>
      rw [Option.map_some]
      split
      · next hid =>
        subst hid
        rw [stepsOf_of_get? h]
      · rfl
  audit := .refl

theorem Frame.trans (h : Frame runId C db db') (h' : Frame runId C db' db'') : Frame runId C db db'' where
  receipts := h'.receipts.trans h.receipts
  runs id := by
    rw [h'.runs, h.runs, Option.map_map]
    congr 1
    funext run
    simp only [Function.comp_apply]
    split <;> rfl
  audit := h.audit.trans h'.audit

theorem Frame.mono {C' : EventContent P → Prop} (h : Frame runId C db db') (hC : ∀ e, C e → C' e) :
    Frame runId C' db db' := ⟨h.receipts, h.runs, h.audit.mono hC⟩

theorem Frame.get?_run (h : Frame runId C db db') (hrun : db.runs.get? runId = some run) :
    db'.runs.get? runId = some { run with steps := db'.stepsOf runId } := by
  rw [h.runs, hrun, Option.map_some, if_pos rfl]

theorem stepsOf_updateSteps (hrun : db.runs.get? runId = some run) (f : List (StepRow P) → List (StepRow P)) :
    (db.updateSteps runId f).stepsOf runId = f (db.stepsOf runId) := by
  simp [Db.stepsOf, Db.updateSteps, hrun]

theorem get?_updateSteps (db : Db P) (runId id : Text) (f : List (StepRow P) → List (StepRow P)) :
    (db.updateSteps runId f).runs.get? id =
      (db.runs.get? id).map fun run => if id = runId then { run with steps := f run.steps } else run := by
  by_cases h : id = runId
  · subst h
    simp [Db.updateSteps]
  · simp [Db.updateSteps, Table.get?_modify_ne _ _ h, h]

theorem Frame.of_update {f : List (StepRow P) → List (StepRow P)} {e : EventContent P} (he : C e)
    (hrun : db.runs.get? runId = some run) (h : appendAudit (db.updateSteps runId f) runId e = .ok db') :
    Frame runId C db db' ∧ db'.stepsOf runId = f (db.stepsOf runId) := by
  obtain ⟨row, hrow, hunused, rfl⟩ := appendAudit_ok h
  have hsteps := stepsOf_updateSteps hrun f
  refine ⟨⟨rfl, fun id => ?_, .snoc .refl he hrow hunused⟩, hsteps⟩
  show (db.updateSteps runId f).runs.get? id = _
  rw [get?_updateSteps]
  refine Option.map_congr fun run' hrun' => ?_
  split
  · next hid =>
    subst hid
    have hsame := hsteps.trans (congrArg f (stepsOf_of_get? hrun'))
    exact congrArg (fun steps => { run' with steps := steps }) hsame.symm
  · rfl

end Frame

/-! ## One pass -/

def pendingCount (steps : List (StepRow P)) : Nat := steps.countP fun s => decide (s.state = .pending)

section Pass

variable {runId actor createdAt : Text} {steps steps' : List (StepRow P)} {acc acc' : Db P × Bool}

theorem countP_replace {p : StepRow P → Bool} {s s' : StepRow P} (hs' : p s' = false) (l : List (StepRow P)) :
    (l.map fun t => if t.stepId = s.stepId then s' else t).countP p ≤ l.countP p ∧
      (s ∈ l → p s = true → (l.map fun t => if t.stepId = s.stepId then s' else t).countP p < l.countP p) := by
  induction l with
  | nil => exact ⟨Nat.le_refl 0, fun h => nomatch h⟩
  | cons t l ih =>
    obtain ⟨hle, hlt⟩ := ih
    simp only [List.map_cons, List.countP_cons]
    by_cases hid : t.stepId = s.stepId
    · simp only [if_pos hid, hs', Bool.false_eq_true, if_false]
      refine ⟨by omega, fun hmem hp => ?_⟩
      rcases List.mem_cons.mp hmem with rfl | hmem
      · simp only [hp, if_true]
        omega
      · have := hlt hmem hp
        omega
    · simp only [if_neg hid]
      refine ⟨by omega, fun hmem hp => ?_⟩
      rcases List.mem_cons.mp hmem with rfl | hmem
      · exact absurd rfl hid
      · have := hlt hmem hp
        omega

theorem Promotion.pendingCount_lt (h : Promotion steps steps') (hsound : Sound steps) :
    pendingCount steps' < pendingCount steps := by
  obtain ⟨s, hs, hstate, hdeps, time⟩ := h
  rw [updateStep_eq hsound.nodup hs]
  refine (countP_replace ?_ steps).2 hs (by simp [hstate])
  rcases s.nextState_cases with ⟨hnext, -⟩ | ⟨hnext, -⟩
  · simp [hnext]
  · simp only [decide_eq_false_iff_not]
    intro h
    rw [h] at hnext
    cases hnext

theorem promotions_moves (h : Relation.ReflTransGen Promotion steps steps') : Moves steps steps' := by
  induction h with
  | refl => exact .refl
  | tail _ hp ih => exact ih.tail (Or.inl hp)

theorem promotions_pendingCount_le (h : Relation.ReflTransGen Promotion steps steps') (hsound : Sound steps) :
    pendingCount steps' ≤ pendingCount steps := by
  induction h with
  | refl => exact Nat.le_refl _
  | tail hprom hp ih =>
    have hmid := Moves.sound (promotions_moves hprom) hsound
    exact Nat.le_trans (Nat.le_of_lt (hp.pendingCount_lt hmid)) ih

def Promotes (actor createdAt : Text) (steps : List (StepRow P)) (e : EventContent P) : Prop :=
  ∃ s ∈ steps, e = promotionEvent actor createdAt s

theorem promote_ok {s : StepRow P} {run : RunRow P} (h : promote runId actor createdAt acc s = .ok acc')
    (hrun : acc.1.runs.get? runId = some run) :
    (acc' = acc ∧ (s.state = .pending → dependenciesSatisfied (acc.1.stepsOf runId) s.dependencies = false)) ∨
      (acc'.2 = true ∧ Frame runId (fun e => e = promotionEvent actor createdAt s) acc.1 acc'.1 ∧
        s.state = .pending ∧ dependenciesSatisfied (acc.1.stepsOf runId) s.dependencies = true ∧
        acc'.1.stepsOf runId = updateStep s.stepId (fun t => { t with state := s.nextState, updatedAt := createdAt })
          (acc.1.stepsOf runId)) := by
  unfold promote at h
  split at h
  · next hne =>
    exact Or.inl ⟨(Except.ok.inj h).symm, fun hp => absurd hp hne⟩
  split at h
  · next hdeps =>
    exact Or.inl ⟨(Except.ok.inj h).symm, fun _ => by simpa using hdeps⟩
  · next hpending hdeps =>
    right
    simp only [bind, Except.bind] at h
    split at h
    · cases h
    · next db' happend =>
      obtain rfl := Except.ok.inj h
      obtain ⟨hframe, hsteps⟩ := Frame.of_update (C := fun e => e = promotionEvent actor createdAt s) rfl hrun happend
      exact ⟨rfl, hframe, not_not.mp hpending, by simpa using hdeps, hsteps⟩

/-- The rows of a pass, from one of them on. -/
theorem promoteRows_ok {run : RunRow P} : ∀ {rows : List (StepRow P)} {acc acc' : Db P × Bool},
    rows.foldlM (promote runId actor createdAt) acc = .ok acc' → acc.1.runs.get? runId = some run →
    Sound (acc.1.stepsOf runId) → (stepIds rows).Nodup → (∀ s ∈ rows, s ∈ acc.1.stepsOf runId) →
    Frame runId (Promotes actor createdAt rows) acc.1 acc'.1 ∧
      Relation.ReflTransGen Promotion (acc.1.stepsOf runId) (acc'.1.stepsOf runId) ∧
      (acc'.2 = false → acc' = acc ∧ ∀ s ∈ rows, s.state = .pending →
        dependenciesSatisfied (acc.1.stepsOf runId) s.dependencies = false) ∧
      (acc'.2 = true → acc.2 = true ∨ pendingCount (acc'.1.stepsOf runId) < pendingCount (acc.1.stepsOf runId))
  | [], acc, acc', h, hrun, hsound, hnodup, hmem => by
    obtain rfl := Except.ok.inj h
    exact ⟨.refl _ _ _, .refl, fun _ => ⟨rfl, fun _ hs => nomatch hs⟩, fun h => Or.inl h⟩
  | s :: rows, acc, acc', h, hrun, hsound, hnodup, hmem => by
    rw [List.foldlM_cons] at h
    simp only [bind, Except.bind] at h
    split at h
    · cases h
    next mid hmid =>
    rw [stepIds, List.map_cons, List.nodup_cons] at hnodup
    rcases promote_ok hmid hrun with ⟨rfl, hkeep⟩ | ⟨hchanged, hframe, hpending, hdeps, hsteps⟩
    · obtain ⟨hframe, hprom, hsame, hless⟩ := promoteRows_ok h hrun hsound hnodup.2
        fun t ht => hmem t (List.mem_cons_of_mem s ht)
      refine ⟨hframe.mono fun e ⟨t, ht, he⟩ => ⟨t, List.mem_cons_of_mem s ht, he⟩, hprom, fun hfalse => ?_, hless⟩
      obtain ⟨heq, hrows⟩ := hsame hfalse
      refine ⟨heq, fun t ht => ?_⟩
      rcases List.mem_cons.mp ht with rfl | ht
      · exact hkeep
      · exact hrows t ht
    · have hpromotion : Promotion (acc.1.stepsOf runId) (mid.1.stepsOf runId) := by
        rw [hsteps]
        exact .promote s (hmem s List.mem_cons_self) hpending hdeps createdAt
      have hsound' := Move.sound (Or.inl hpromotion) hsound
      -- the rows that follow are still as they were read
      have hmem' : ∀ t ∈ rows, t ∈ mid.1.stepsOf runId := fun t ht => by
        rw [hsteps]
        exact mem_updateStep_of_ne (hmem t (List.mem_cons_of_mem s ht))
          fun heq => hnodup.1 (heq ▸ List.mem_map_of_mem ht)
      obtain ⟨hframe', hprom, hsame, -⟩ := promoteRows_ok h (hframe.get?_run hrun) hsound' hnodup.2 hmem'
      have hlt := hpromotion.pendingCount_lt hsound
      have hle := promotions_pendingCount_le hprom hsound'
      refine ⟨(hframe.mono ?_).trans (hframe'.mono ?_), .head hpromotion hprom, fun hfalse => ?_, fun _ => Or.inr ?_⟩
      · rintro e rfl
        exact ⟨s, List.mem_cons_self, rfl⟩
      · rintro e ⟨t, ht, he⟩
        exact ⟨t, List.mem_cons_of_mem s ht, he⟩
      · rw [(hsame hfalse).1, hchanged] at hfalse
        cases hfalse
      · omega

theorem promotePass_ok {db db' : Db P} {changed : Bool} {run : RunRow P}
    (h : promotePass runId actor createdAt db = .ok (db', changed)) (hrun : db.runs.get? runId = some run)
    (hsound : Sound (db.stepsOf runId)) :
    Frame runId (Promotes actor createdAt (db.stepsOf runId)) db db' ∧
      Relation.ReflTransGen Promotion (db.stepsOf runId) (db'.stepsOf runId) ∧
      (changed = false → db' = db ∧ Settled (db.stepsOf runId)) ∧
      (changed = true → pendingCount (db'.stepsOf runId) < pendingCount (db.stepsOf runId)) := by
  obtain ⟨hframe, hprom, hsame, hless⟩ := promoteRows_ok h hrun hsound hsound.nodup fun s hs => hs
  refine ⟨hframe, hprom, fun hfalse => ?_, fun htrue => ?_⟩
  · obtain ⟨heq, hsettled⟩ := hsame hfalse
    exact ⟨congrArg Prod.fst heq, hsettled⟩
  · exact (hless htrue).resolve_left fun h => nomatch h

end Pass

/-! ## The loop -/

section Loop

variable {runId actor createdAt : Text}

theorem Promotes.of_moves {steps steps' : List (StepRow P)} (h : Moves steps steps') (hsound : Sound steps)
    {e : EventContent P} (he : Promotes actor createdAt steps' e) : Promotes actor createdAt steps e := by
  obtain ⟨s', hs', rfl⟩ := he
  obtain ⟨s, hs, hsame⟩ := mem_of_samePlan' (h.samePlan hsound) hs'
  refine ⟨s, hs, ?_⟩
  simp only [promotionEvent, StepRow.eventKind, hsame.nextState, hsame.stepId, hsame.planStatus,
    hsame.phase, hsame.action,
    hsame.requiredCapability]

theorem promoteLoop_ok : ∀ {n : Nat} {db db' : Db P} {run : RunRow P},
    promoteLoop runId actor createdAt n db = .ok db' → db.runs.get? runId = some run → Sound (db.stepsOf runId) →
    pendingCount (db.stepsOf runId) < n →
    Frame runId (Promotes actor createdAt (db.stepsOf runId)) db db' ∧
      Relation.ReflTransGen Promotion (db.stepsOf runId) (db'.stepsOf runId) ∧ Settled (db'.stepsOf runId)
  | 0, db, db', run, h, hrun, hsound, hn => absurd hn (Nat.not_lt_zero _)
  | n + 1, db, db', run, h, hrun, hsound, hn => by
    simp only [promoteLoop, bind, Except.bind] at h
    split at h
    · cases h
    next pass hpass =>
    obtain ⟨mid, changed⟩ := pass
    obtain ⟨hframe, hprom, hsame, hless⟩ := promotePass_ok hpass hrun hsound
    have hmoves : Moves (db.stepsOf runId) (mid.stepsOf runId) := promotions_moves hprom
    split at h
    · next hchanged =>
      have hlt := hless hchanged
      obtain ⟨hframe', hprom', hsettled⟩ := promoteLoop_ok h (hframe.get?_run hrun) (hmoves.sound hsound)
        (Nat.lt_of_lt_of_le hlt (Nat.le_of_lt_succ hn))
      exact ⟨hframe.trans (hframe'.mono fun e he => he.of_moves hmoves hsound), hprom.trans hprom', hsettled⟩
    · next hchanged =>
      obtain rfl := Except.ok.inj h
      obtain ⟨rfl, hsettled⟩ := hsame (by simpa using hchanged)
      exact ⟨hframe, hprom, hsettled⟩

theorem pendingCount_lt (steps : List (StepRow P)) : pendingCount steps < steps.length + 1 :=
  Nat.lt_succ_of_le List.countP_le_length

/-- The columns of a run that a reconciliation computes. -/
def RunRow.reconciled (run : RunRow P) (steps : List (StepRow P)) (createdAt : Text) : RunRow P :=
  { run with
    steps := steps
    state := runState steps
    currentPhase := some (Bootstrap.currentPhase steps)
    updatedAt := createdAt
    completedAt := if runState steps = .complete then some createdAt else none }

/-- **A reconciliation** promotes steps until nothing is left to promote, and computes the columns of the run. -/
theorem reconcile_ok {db db' : Db P} {run : RunRow P} (h : reconcile runId actor createdAt db = .ok db')
    (hrun : db.runs.get? runId = some run) (hsound : Sound run.steps) :
    db'.receipts = db.receipts ∧ Appends runId (Promotes actor createdAt run.steps) db.audit db'.audit ∧
      (∀ id, id ≠ runId → db'.runs.get? id = db.runs.get? id) ∧
      ∃ steps, Relation.ReflTransGen Promotion run.steps steps ∧ Settled steps ∧
        db'.runs.get? runId = some (run.reconciled steps createdAt) := by
  have hsteps := stepsOf_of_get? hrun
  rw [← hsteps] at hsound ⊢
  simp only [reconcile, bind, Except.bind] at h
  split at h
  · cases h
  next mid hloop =>
  obtain rfl := Except.ok.inj h
  obtain ⟨hframe, hprom, hsettled⟩ := promoteLoop_ok hloop hrun hsound (pendingCount_lt _)
  refine ⟨hframe.receipts, hframe.audit, fun id hid => ?_, _, hprom, hsettled, ?_⟩
  · show (mid.runs.modify _ _).get? id = _
    rw [Table.get?_modify_ne _ _ hid, hframe.runs]
    simp [hid]
  · show (mid.runs.modify _ _).get? runId = _
    rw [Table.get?_modify_self, hframe.get?_run hrun]
    rfl

end Loop

end AgentFabric.Bootstrap
