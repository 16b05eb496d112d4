import AgentFabric.Bootstrap.AuditChain
import AgentFabric.Bootstrap.Receipts

/-!
# Progress of a bootstrap run

A run without a failed step goes on: the result of some step can be recorded, until the run is complete.
-/

namespace AgentFabric.Bootstrap

open AgentFabric.Lib

variable {P : Platform}

/-! ## The run of a call -/

/-- The arguments of `initialize_run`. -/
structure Start (P : Platform) where
  runId : Text
  profile : P.Json
  plan : P.Json
  actor : Text
  now : Stamp

namespace Start

variable (start : Start P)

def call : Call P := .create start.runId start.profile start.plan start.actor start.now

def Planned (planSteps : List P.Json) (rows : List (StepRow P)) : Prop :=
  validatePlan P start.plan = .ok planSteps ∧ stepRows P start.now 0 [] planSteps = .ok rows

/-- The call has created the run, which is now in this state. -/
def Run (calls : List (Call P)) (run : RunRow P) : Prop :=
  ∃ pre post, calls = pre ++ start.call :: post ∧ (runCalls (Db.initial P) pre).runs.get? start.runId = none ∧
    start.call.Accepted (runCalls (Db.initial P) pre) ∧ (runCalls (Db.initial P) calls).runs.get? start.runId = some run

/-- Results complete the run. -/
def Completable : Prop :=
  ∃ (results : List (StepResult P)) (run : RunRow P),
    (runCalls (Db.initial P) (start.call :: results.map .record)).runs.get? start.runId = some run ∧
    run.state = .complete

end Start

/-- A state of a run that is complete, or in which a step is actionable. -/
def RunRow.Progresses (run : RunRow P) : Prop := run.state = .complete ∨ ∃ s ∈ run.steps, s.state.actionable = true

/-- Every dependency of a step is the name of an earlier one. -/
def Earlier (rows : List (StepRow P)) : Prop :=
  ∀ i s, rows[i]? = some s → ∀ d ∈ s.dependencies, d ∈ stepIds (rows.take i)

/-- No step depends on itself, and every dependency of a step is the stored name of one up to it. -/
def WellNamed (rows : List (StepRow P)) : Prop :=
  ∀ i s, rows[i]? = some s → s.stepId ∉ s.dependencies ∧ ∀ d ∈ s.dependencies, d ∈ stepIds (rows.take (i + 1))

/-- Results of these steps can be formed: one for each step that is needed, under different keys. -/
def Reportable (runId : Text) (rows : List (StepRow P)) : Prop :=
  ∃ results : List (StepResult P), (results.map fun r => r.idempotencyKey).Nodup ∧
    ∀ s ∈ rows, s.planStatus ≠ lit "notNeeded" →
      ∃ r ∈ results, r.runId = runId ∧ r.stepId = s.stepId ∧ r.outcome = .succeeded ∧ admitResult s r = .ok ()

/-! ## The rows of a plan -/

section Rows

variable {step : P.Json} {steps : List P.Json} {ordinal : Nat} {now : Stamp}

theorem stepRow_ok {row : StepRow P} (h : stepRow P step ordinal now = .ok row) : ∃ fields, step = .dict fields ∧
    textColumn P (field P fields "id") = .ok row.stepId ∧
    row.dependencies = dependencyNames P (field P fields "dependsOn") ∧
    row.state = initialStepState P (field P fields "status") ordinal := by
  unfold stepRow at h
  split at h
  · next fields =>
    simp only [bind_eq_ok, pure_eq_ok] at h
    obtain ⟨_, hid, _, -, _, -, _, -, _, -, _, -, _, -, rfl⟩ := h
    exact ⟨fields, rfl, hid, rfl, rfl⟩
  · cases h

theorem stepRows_append : ∀ {steps : List P.Json} {ordinal : Nat} {before rows : List (StepRow P)},
    stepRows P now ordinal before steps = .ok rows → ∃ more, rows = before ++ more ∧
      List.Forall₂ (fun step row => ∃ n, stepRow P step n now = .ok row) steps more
  | [], _, before, _, h => by
    obtain rfl := Except.ok.inj h
    exact ⟨[], (List.append_nil _).symm, .nil⟩
  | step :: steps, ordinal, before, rows, h => by
    simp only [stepRows, bind_eq_ok] at h
    obtain ⟨row, hrow, h⟩ := h
    split at h
    · cases h
    · obtain ⟨more, rfl, hmore⟩ := stepRows_append h
      exact ⟨row :: more, by simp, .cons ⟨ordinal, hrow⟩ hmore⟩

end Rows

/-! ## The order of the steps -/

section Order

variable {rows steps : List (StepRow P)}

theorem samePlan_earlier (h : List.Forall₂ SamePlan rows steps) (hearlier : Earlier rows) : Earlier steps := by
  intro i t ht d hd
  obtain ⟨s, hs, hsame⟩ := getElem?_of_forall₂ h ht
  rw [samePlan_stepIds (List.forall₂_take i h)]
  exact hearlier i s hs d (hsame.dependencies ▸ hd)

theorem wellNamed_iff (hnodup : (stepIds rows).Nodup) : Earlier rows ↔ WellNamed rows := by
  have htake : ∀ {i s}, rows[i]? = some s → stepIds (rows.take (i + 1)) = stepIds (rows.take i) ++ [s.stepId] := by
    intro i s hs
    rw [List.take_add_one, hs]
    simp [stepIds]
  constructor
  · refine fun h i s hs => ⟨fun hself => ?_, fun d hd => ?_⟩
    · have hmem := h i s hs _ hself
      have hsub : (stepIds (rows.take (i + 1))).Nodup := hnodup.sublist ((List.take_sublist _ _).map _)
      rw [htake hs] at hsub
      exact (List.nodup_append.mp hsub).2.2 _ hmem _ (List.mem_singleton_self _) rfl
    · rw [htake hs]
      exact List.mem_append_left _ (h i s hs d hd)
  · intro h i s hs d hd
    obtain ⟨hself, hnamed⟩ := h i s hs
    have hmem := hnamed d hd
    rw [htake hs] at hmem
    rcases List.mem_append.mp hmem with hmem | hmem
    · exact hmem
    · exact absurd (List.mem_singleton.mp hmem ▸ hd) hself

def Unblocked (steps : List (StepRow P)) : Prop := ∀ s ∈ steps, s.state ≠ .blocked

theorem Moves.unblocked (h : Moves rows steps) (hsound : Sound rows) (hrows : Unblocked rows) : Unblocked steps := by
  induction h with
  | refl => exact hrows
  | tail hmoves hmove ih =>
    obtain ⟨s, s', hrep⟩ := hmove.replaces (Moves.sound hmoves hsound)
    intro t ht hblocked
    rcases hrep.mem_iff.mp ht with ⟨hold, -⟩ | rfl
    · exact ih t hold hblocked
    · have hbegun := hrep.begun
      rw [hblocked] at hbegun
      cases hbegun

/-- **Until all steps are satisfied or one has failed, a step is actionable**: the first one that is not satisfied. -/
theorem actionable_of_earlier {run : RunRow P} (hkept : Kept run) (hunblocked : Unblocked run.steps)
    (hearlier : Earlier run.steps) (hfailed : ∀ s ∈ run.steps, s.state ≠ .failed) : run.Progresses := by
  cases hfirst : currentStep run.steps with
  | none =>
    left
    rw [hkept.state, runState_complete hkept.steps]
    intro s hs
    simpa using List.find?_eq_none.mp hfirst s hs
  | some s =>
    right
    obtain ⟨hopen, before, after, hsteps, hbefore⟩ := List.find?_eq_some_iff_append.mp hfirst
    have hs : s ∈ run.steps := hsteps ▸ List.mem_append_right _ List.mem_cons_self
    have hget : run.steps[before.length]? = some s := by
      rw [hsteps]
      simp
    have htake : run.steps.take before.length = before := by
      rw [hsteps]
      simp
    have hdeps : ∀ d ∈ s.dependencies, SatisfiedIn run.steps d := by
      intro d hd
      have hmem := hearlier _ s hget d hd
      rw [htake] at hmem
      obtain ⟨t, ht, rfl⟩ := List.mem_map.mp hmem
      exact ⟨t, hsteps ▸ List.mem_append_left _ ht, rfl, by simpa using hbefore t ht⟩
    refine ⟨s, hs, ?_⟩
    cases hstate : s.state with
    | pending =>
      have hfalse := hkept.settled s hs hstate
      rw [(dependenciesSatisfied_iff hkept.sound.nodup).mpr hdeps] at hfalse
      cases hfalse
    | blocked => exact absurd hstate (hunblocked s hs)
    | failed => exact absurd hstate (hfailed s hs)
    | satisfied => simp [hstate] at hopen
    | ready => rfl
    | awaitingReview => rfl
    | awaitingApproval => rfl

theorem begun_of_selfDependent (h : Moves rows steps) (hfresh : Fresh rows) {s : StepRow P} (hs : s ∈ steps)
    (hself : s.stepId ∈ s.dependencies) : s.state.begun = false := by
  induction h generalizing s with
  | refl => exact hfresh.state s hs
  | tail hmoves hmove ih =>
    have hsound := Moves.sound hmoves hfresh.sound
    obtain ⟨t, t', hrep⟩ := hmove.replaces hsound
    rcases hrep.mem_iff.mp hs with ⟨hold, -⟩ | rfl
    · exact ih hold hself
    · -- it could only move once it was satisfied
      rw [hrep.samePlan.stepId, hrep.samePlan.dependencies] at hself
      obtain ⟨u, hu, hid, hstate⟩ := (dependenciesSatisfied_iff hsound.nodup).mp hrep.dependencies _ hself
      have hbegun := ih hu (by rw [eq_of_stepId hsound.nodup hu hrep.mem hid]; exact hself)
      rw [hstate] at hbegun
      cases hbegun

end Order

/-! ## The states of the run -/

section Run

variable {start : Start P} {planSteps : List P.Json} {rows : List (StepRow P)}

theorem Start.Planned.fresh (h : start.Planned planSteps rows) : Fresh rows :=
  (stepRows_fresh h.2 ⟨List.nodup_nil, fun _ h => (by cases h), fun _ h => (by cases h)⟩).1

theorem Start.Planned.created (h : start.Planned planSteps rows) {db : Db P}
    (habsent : db.runs.get? start.runId = none) (haccept : start.call.Accepted db) :
    ∃ planDigest profileDigest steps,
      Initialized db (start.call.apply db) start.runId start.profile start.plan start.actor
      start.now planDigest profileDigest rows steps := by
  obtain ⟨db', hexec⟩ := haccept
  have happly : start.call.apply db = db' := by simp [Call.apply, hexec]
  rw [happly]
  rcases initializeRun_ok hexec with ⟨-, existing, hexisting⟩ | ⟨planDigest, profileDigest, rows', steps, hinit⟩
  · rw [habsent] at hexisting
    cases hexisting
  · obtain ⟨planSteps', hplan, hrows, -⟩ := hinit.planned
    obtain rfl := Except.ok.inj (h.1.symm.trans hplan)
    obtain rfl := Except.ok.inj (h.2.symm.trans hrows)
    exact ⟨planDigest, profileDigest, steps, hinit⟩

theorem Start.Run.moves {calls : List (Call P)} {run : RunRow P} (h : start.Run calls run)
    (hplanned : start.Planned planSteps rows) : Kept run ∧ Moves rows run.steps := by
  obtain ⟨pre, post, rfl, habsent, haccept, hrun⟩ := h
  have hkept := runCalls_kept (AllKept.initial (P := P)) pre
  obtain ⟨_, _, steps, hinit⟩ := hplanned.created habsent haccept
  have hkept' := start.call.apply_kept hkept
  rw [runCalls_append] at hrun
  change (runCalls (start.call.apply _) post).runs.get? _ = _ at hrun
  obtain ⟨run', hrun', hmoves⟩ := runCalls_moves post hkept' hinit.run
  obtain rfl := Option.some.inj (hrun'.symm.trans hrun)
  exact ⟨runCalls_kept hkept' post _ _ hrun', (promotions_moves hinit.promoted).trans hmoves⟩

theorem Start.Run.not_complete {calls : List (Call P)} {run : RunRow P} (h : start.Run calls run)
    (hplanned : start.Planned planSteps rows) {s : StepRow P} (hs : s ∈ rows) (hself : s.stepId ∈ s.dependencies) :
    run.state ≠ .complete := by
  obtain ⟨hkept, hmoves⟩ := h.moves hplanned
  intro hcomplete
  rw [hkept.state, runState_complete hkept.steps] at hcomplete
  obtain ⟨t, ht, hsame⟩ := mem_of_samePlan (hmoves.samePlan hplanned.fresh.sound) hs
  have hbegun := begun_of_selfDependent hmoves hplanned.fresh ht (by rw [hsame.stepId, hsame.dependencies]; exact hself)
  rw [hcomplete t ht] at hbegun
  cases hbegun

theorem stepRows_unblocked {now : Stamp} {steps : List P.Json} : ∀ {ordinal : Nat} {before rows : List (StepRow P)},
    stepRows P now ordinal before steps = .ok rows → 0 < ordinal → Unblocked before → Unblocked rows := by
  induction steps with
  | nil =>
    intro ordinal before rows h _ hbefore
    obtain rfl := Except.ok.inj h
    exact hbefore
  | cons step steps ih =>
    intro ordinal before rows h hpos hbefore
    simp only [stepRows, bind_eq_ok] at h
    obtain ⟨row, hrow, h⟩ := h
    split at h
    · cases h
    · refine ih h (Nat.succ_pos _) fun s hs => ?_
      rcases List.mem_append.mp hs with hs | hs
      · exact hbefore s hs
      · obtain rfl := List.mem_singleton.mp hs
        obtain ⟨fields, -, -, -, hstate⟩ := stepRow_ok hrow
        rw [hstate]
        unfold initialStepState
        rw [if_neg (fun h => by omega)]
        rintro ⟨⟩

theorem Start.Planned.unblocked (h : start.Planned planSteps rows)
    (hfirst : ∀ s, rows.head? = some s → s.state ≠ .blocked) :
    Unblocked rows := by
  obtain ⟨-, hrows⟩ := h
  cases planSteps with
  | nil =>
    obtain rfl := Except.ok.inj hrows
    exact fun _ hs => (by cases hs)
  | cons step steps =>
    simp only [stepRows, bind_eq_ok] at hrows
    obtain ⟨row, hrow, hrest⟩ := hrows
    split at hrest
    · cases hrest
    · obtain ⟨more, rfl, -⟩ := stepRows_append hrest
      refine stepRows_unblocked hrest (Nat.succ_pos 0) fun s hs => ?_
      obtain rfl := List.mem_singleton.mp hs
      exact hfirst s rfl

end Run

/-! ## Results that complete a run -/

section Drive

variable {runId : Text} {rows : List (StepRow P)} {results : List (StepResult P)} {db : Db P} {run : RunRow P}

theorem promotions_not_failed {steps steps' : List (StepRow P)} (h : Relation.ReflTransGen Promotion steps steps')
    (hsteps : ∀ s ∈ steps, s.state ≠ .failed) : ∀ s ∈ steps', s.state ≠ .failed := by
  induction h with
  | refl => exact hsteps
  | tail _ hp ih =>
    obtain ⟨u, hu, -, -, time⟩ := hp
    intro s hs
    obtain ⟨t, ht, rfl⟩ := mem_updateStep.mp hs
    split
    · rcases u.nextState_cases with ⟨hnext, -⟩ | ⟨hnext, -⟩
      · exact fun h => (by cases hnext.symm.trans h)
      · intro h
        rw [show u.nextState = .failed from h] at hnext
        cases hnext
    · exact ih t ht

theorem Recording.not_failed {r : StepResult P} {steps steps' : List (StepRow P)} (h : Recording r steps steps')
    (hr : r.outcome = .succeeded) (hsteps : ∀ s ∈ steps, s.state ≠ .failed) : ∀ s ∈ steps', s.state ≠ .failed := by
  obtain ⟨u, hu, -, -, -⟩ := h
  intro s hs
  obtain ⟨t, ht, rfl⟩ := mem_updateStep.mp hs
  split
  · rw [hr]
    rintro ⟨⟩
  · exact hsteps t ht

/-- A run of which some of the results have been recorded, and nothing else has. -/
structure Driven (runId : Text) (rows : List (StepRow P)) (results : List (StepResult P)) (db : Db P) (run : RunRow P) :
    Prop where
  kept : AllKept db
  audited : Audited db
  found : db.runs.get? runId = some run
  moves : Moves rows run.steps
  failed : ∀ s ∈ run.steps, s.state ≠ .failed
  receipts : ∀ key receipt, db.receipts.get? key = some receipt →
    ∃ r ∈ results, r.idempotencyKey = key ∧ SatisfiedIn run.steps r.stepId

/-- The results that are still to be recorded. -/
def remaining (results : List (StepResult P)) (db : Db P) : Nat :=
  results.countP fun r => (db.receipts.get? r.idempotencyKey).isNone

theorem countP_lt {α : Type} {p q : α → Bool} {l : List α} (h : ∀ a ∈ l, q a = true → p a = true) {a : α} (ha : a ∈ l)
    (hp : p a = true) (hq : q a = false) : l.countP q < l.countP p := by
  induction l with
  | nil => cases ha
  | cons b l ih =>
    have hmono := List.countP_mono_left fun c hc => h c (List.mem_cons_of_mem b hc)
    rw [List.countP_cons, List.countP_cons]
    rcases List.mem_cons.mp ha with rfl | ha
    · simp only [hp, hq, if_true, Bool.false_eq_true, if_false]
      omega
    · have hlt := ih (fun c hc => h c (List.mem_cons_of_mem b hc)) ha
      have hb := h b List.mem_cons_self
      split
      · next hqb =>
        rw [if_pos (hb hqb)]
        omega
      · split <;> omega

/-- One more result is recorded. -/
theorem Driven.step (hP : P.Hashing) (h : Driven runId rows results db run) (hsound : Sound rows)
    (hkeys : (results.map fun r => r.idempotencyKey).Nodup)
    (hresults : ∀ s ∈ rows, s.planStatus ≠ lit "notNeeded" →
      ∃ r ∈ results, r.runId = runId ∧ r.stepId = s.stepId ∧ r.outcome = .succeeded ∧ admitResult s r = .ok ())
    {s : StepRow P} (hs : s ∈ run.steps) (hactionable : s.state.actionable = true) :
    ∃ r ∈ results, (Call.record r).Accepted db ∧ ∃ run', Driven runId rows results ((Call.record r).apply db) run' ∧
      remaining results ((Call.record r).apply db) < remaining results db := by
  have hrunSound := h.moves.sound hsound
  obtain ⟨u, hu, hsame⟩ := mem_of_samePlan' (h.moves.samePlan hsound) hs
  have hneeded : s.planStatus ≠ lit "notNeeded" := by
    have hcons := hrunSound.consistent s hs
    have hnext : s.state = s.nextState := by
      rw [StepRow.Consistent] at hcons
      revert hcons hactionable
      cases s.state <;> simp [StepState.actionable]
    rcases s.nextState_cases with ⟨hsat, -⟩ | ⟨-, hplan⟩
    · rw [hnext, hsat] at hactionable
      cases hactionable
    · exact hplan
  obtain ⟨r, hr, hrun, hstep, houtcome, hadmits⟩ := hresults u hu (hsame.planStatus ▸ hneeded)
  have habsent : db.receipts.get? r.idempotencyKey = none := by
    cases hget : db.receipts.get? r.idempotencyKey with
    | none => rfl
    | some receipt =>
      -- the step of a result that has been recorded is satisfied
      obtain ⟨q, hq, hkey, t, ht, hid, hstate⟩ := h.receipts _ receipt hget
      obtain rfl := List.inj_on_of_nodup_map hkeys hq hr hkey
      rw [← eq_of_stepId hrunSound.nodup ht hs (hid.trans (hstep.trans hsame.stepId.symm)), hstate] at hactionable
      cases hactionable
  have hfind : findStep (db.stepsOf r.runId) r.stepId = some s := by
    rw [hrun, stepsOf_of_get? h.found, hstep, ← hsame.stepId]
    exact findStep_eq_some hrunSound.nodup hs
  have hdeps : dependenciesSatisfied (db.stepsOf r.runId) s.dependencies = true := by
    rw [hrun, stepsOf_of_get? h.found]
    refine hrunSound.dependencies s hs ?_
    revert hactionable
    cases s.state <;> simp [StepState.actionable, StepState.begun]
  obtain ⟨db', hexec, -⟩ := recordResult_succeeds hP h.audited habsent hfind hactionable hdeps
    ((hsame.admitResult r).trans hadmits)
  have happly : (Call.record r).apply db = db' := by simp [Call.apply, Call.exec, hexec]
  rcases recordResult_ok hexec fun run hrun => (h.kept _ run hrun).sound with
    ⟨-, receipt, hreceipt, -⟩ | ⟨old, mid, steps, hrec⟩
  · rw [habsent] at hreceipt
    cases hreceipt
  have hfound := hrec.found
  rw [hrun, h.found] at hfound
  obtain rfl := Option.some.inj hfound
  have hmid := Move.sound (Or.inr ⟨r, hrec.recording⟩) hrunSound
  refine ⟨r, hr, ⟨db', hexec⟩, run.reconciled steps r.observedAt.text, ?_, ?_⟩
  · refine ⟨(Call.record r).apply_kept h.kept, (Call.record r).apply_audited hP h.kept h.audited, ?_,
      h.moves.trans hrec.moves, promotions_not_failed hrec.promoted (hrec.recording.not_failed houtcome h.failed),
      fun key receipt hkey => ?_⟩
    · rw [happly, ← hrun]
      exact hrec.run
    · rw [happly, hrec.receipts, Table.get?_upsert] at hkey
      split at hkey
      · next heq =>
        obtain ⟨t, ht, -, hstate, hid⟩ := hrec.recording.recorded
        rw [houtcome] at hstate
        exact ⟨r, hr, heq.symm, t, (promotions_moves hrec.promoted).keeps hmid ht (Or.inl hstate), hid, hstate⟩
      · obtain ⟨q, hq, hkey, hsatisfied⟩ := h.receipts key receipt hkey
        exact ⟨q, hq, hkey, hrec.moves.satisfiedIn hrunSound hsatisfied⟩
  · rw [happly]
    refine countP_lt (fun q _ hq => ?_) hr (by simp [habsent]) (by simp [hrec.receipts, Table.get?_upsert])
    rw [hrec.receipts, Table.get?_upsert] at hq
    split at hq
    · cases hq
    · exact hq

/-- **Results complete the run**, one after another. -/
theorem Driven.complete (hP : P.Hashing) (hsound : Sound rows) (hunblocked : Unblocked rows) (hearlier : Earlier rows)
    (hkeys : (results.map fun r => r.idempotencyKey).Nodup)
    (hresults : ∀ s ∈ rows, s.planStatus ≠ lit "notNeeded" →
      ∃ r ∈ results, r.runId = runId ∧ r.stepId = s.stepId ∧ r.outcome = .succeeded ∧ admitResult s r = .ok ()) :
    ∀ {n : Nat} {db : Db P} {run : RunRow P}, Driven runId rows results db run → remaining results db < n →
    ∃ (more : List (StepResult P)) (run' : RunRow P),
      (runCalls db (more.map .record)).runs.get? runId = some run' ∧ run'.state = .complete := by
  intro n
  induction n with
  | zero => exact fun _ hn => absurd hn (Nat.not_lt_zero _)
  | succ n ih =>
    intro db run h hn
    rcases actionable_of_earlier (h.kept _ run h.found) (h.moves.unblocked hsound hunblocked)
      (samePlan_earlier (h.moves.samePlan hsound) hearlier) h.failed with hcomplete | ⟨s, hs, hactionable⟩
    · exact ⟨[], run, h.found, hcomplete⟩
    · obtain ⟨r, -, -, run', h', hlt⟩ := h.step hP hsound hkeys hresults hs hactionable
      obtain ⟨more, run'', hrun'', hcomplete⟩ := ih h' (by omega)
      exact ⟨r :: more, run'', hrun'', hcomplete⟩

end Drive

/-! ## What the plan says -/

section Plans

variable (P) in
/-- The name of a step, as the plan is checked. -/
def planId : P.Json → Text
  | .dict fields => strOf P (field P fields "id")
  | _ => []

variable (P) in
/-- The names that a step depends on. -/
def planDependencies : P.Json → List Text
  | .dict fields => dependencyNames P (field P fields "dependsOn")
  | _ => []

variable (P) in
def TextId (step : P.Json) : Prop := ∃ fields name, step = .dict fields ∧ field P fields "id" = .str name

theorem mem_dependencyNames {ids : List Text} {v : P.Json} (h : admittedDependencies P ids v = true) {d : Text}
    (hd : d ∈ dependencyNames P v) : d ∈ ids := by
  unfold admittedDependencies at h
  split at h
  · next items =>
    simp only [dependencyNames, List.mem_filterMap] at hd
    obtain ⟨item, hitem, hname⟩ := hd
    have hadmitted := List.all_eq_true.mp h item hitem
    cases item with
    | str =>
      obtain rfl := Option.some.inj hname
      exact of_decide_eq_true hadmitted
    | _ => cases hname
  · cases h

theorem validateStep_ok {ids ids' : List Text} {step : P.Json} (h : validateStep P ids step = .ok ids') :
    ids' = planId P step :: ids ∧ ∀ d ∈ planDependencies P step, d ∈ ids' := by
  unfold validateStep at h
  split at h
  · split at h
    · dsimp only at h
      split at h
      · split at h
        · next hdeps =>
          simp only [bind_eq_ok, pure_eq_ok] at h
          obtain ⟨_, -, rfl⟩ := h
          exact ⟨rfl, fun d hd => mem_dependencyNames hdeps hd⟩
        · cases h
      · cases h
    · cases h
  · cases h

theorem validateSteps_ok : ∀ {ids : List Text} {steps : List P.Json}, validateSteps P ids steps = .ok () →
    ∀ i step, steps[i]? = some step → ∀ d ∈ planDependencies P step, d ∈ ids ∨ d ∈ (steps.take (i + 1)).map (planId P)
  | _, [], _, _, _, hstep, _, _ => by simp at hstep
  | ids, first :: steps, h, i, step, hstep, d, hd => by
    simp only [validateSteps, bind_eq_ok] at h
    obtain ⟨ids', hfirst, hrest⟩ := h
    obtain ⟨rfl, hdeps⟩ := validateStep_ok hfirst
    have hcons : ∀ {l : List Text}, d ∈ planId P first :: ids ∨ d ∈ l → d ∈ ids ∨ d ∈ planId P first :: l := by
      rintro l (hd | hd)
      · rcases List.mem_cons.mp hd with rfl | hd
        · exact Or.inr List.mem_cons_self
        · exact Or.inl hd
      · exact Or.inr (List.mem_cons_of_mem _ hd)
    cases i with
    | zero =>
      obtain rfl := Option.some.inj hstep
      exact hcons (l := []) (Or.inl (hdeps d hd))
    | succ i => exact hcons (validateSteps_ok hrest i step hstep d hd)

/-- **When all steps are named by texts, only a step that depends on itself is named wrongly.** -/
theorem Start.Planned.wellNamed_iff {start : Start P} {planSteps : List P.Json} {rows : List (StepRow P)}
    (h : start.Planned planSteps rows) (htext : ∀ step ∈ planSteps, TextId P step) :
    WellNamed rows ↔ ∀ step ∈ planSteps, planId P step ∉ planDependencies P step := by
  obtain ⟨more, hmore, hrows⟩ := stepRows_append h.2
  obtain rfl := hmore.trans (List.nil_append more)
  have hname : ∀ {step row}, step ∈ planSteps → (∃ n, stepRow P step n start.now = .ok row) →
      row.stepId = planId P step ∧ row.dependencies = planDependencies P step := by
    rintro step row hstep ⟨n, hrow⟩
    obtain ⟨fields, name, rfl, hid⟩ := htext step hstep
    obtain ⟨_, heq, hcolumn, hdeps, -⟩ := stepRow_ok hrow
    obtain rfl := Value.dict.inj heq
    refine ⟨?_, hdeps⟩
    rw [hid] at hcolumn
    simp only [textColumn] at hcolumn
    split at hcolumn
    · cases hcolumn
    · rw [planId, hid, strOf, ← Except.ok.inj hcolumn]
  have hnames : ∀ {steps : List P.Json} {rows : List (StepRow P)}, (∀ step ∈ steps, step ∈ planSteps) →
      List.Forall₂ (fun step row => ∃ n, stepRow P step n start.now = .ok row) steps rows →
      stepIds rows = steps.map (planId P) := by
    intro steps rows hsub hall
    induction hall with
    | nil => rfl
    | cons hrow _ ih =>
      exact congrArg₂ List.cons (hname (hsub _ List.mem_cons_self) hrow).1
        (ih fun step hstep => hsub step (List.mem_cons_of_mem _ hstep))
  constructor
  · intro hwell step hstep
    obtain ⟨i, hi⟩ := List.getElem?_of_mem hstep
    obtain ⟨row, hrow, hof⟩ := getElem?_of_forall₂ hrows.flip hi
    have hself := (hwell i row hrow).1
    rwa [(hname hstep hof).1, (hname hstep hof).2] at hself
  · intro hself i row hrow
    obtain ⟨step, hi, hof⟩ := getElem?_of_forall₂ hrows hrow
    have hstep := List.mem_of_getElem? hi
    obtain ⟨hid, hdeps⟩ := hname hstep hof
    rw [hid, hdeps]
    refine ⟨hself step hstep, fun d hd => ?_⟩
    rw [hnames (fun s hs => List.mem_of_mem_take hs) (List.forall₂_take (i + 1) hrows)]
    exact (validateSteps_ok (validatePlan_steps h.1).2 i step hi d hd).resolve_left fun hnil => (by cases hnil)

end Plans

/-! ## Progress -/

section Progress

variable {start : Start P} {planSteps : List P.Json} {rows : List (StepRow P)}

theorem Start.Run.reportable {calls : List (Call P)} {run : RunRow P} (h : start.Run calls run)
    (hplanned : start.Planned planSteps rows) (hcomplete : run.state = .complete) : Reportable start.runId rows := by
  obtain ⟨hkept, hmoves⟩ := h.moves hplanned
  have hsame := hmoves.samePlan hplanned.fresh.sound
  obtain ⟨pre, post, rfl, -, -, hrun⟩ := h
  have hreceipted := runCalls_receipted (pre ++ start.call :: post) AllKept.initial (Receipted.initial (P := P))
  rw [hkept.state, runState_complete hkept.steps] at hcomplete
  refine ⟨run.steps.filterMap fun s => s.result, ?_, fun s hs hneeded => ?_⟩
  · rw [List.Nodup, List.pairwise_map, List.pairwise_filterMap]
    have hnodup : run.steps.Pairwise fun s t => s.stepId ≠ t.stepId := List.pairwise_map.mp hkept.sound.nodup
    refine hnodup.imp_of_mem fun {s t} hs ht hne r hr q hq hkey => hne ?_
    exact hreceipted.result_unique hrun hs ht hr hq hkey
  · obtain ⟨t, ht, hplan⟩ := mem_of_samePlan hsame hs
    have hcons := hkept.sound.consistent t ht
    rw [StepRow.Consistent, hcomplete t ht] at hcons
    rcases hcons with ⟨-, hnot⟩ | ⟨r, hr, hid, houtcome, hadmits, -⟩
    · exact absurd (hplan.planStatus.symm.trans hnot) hneeded
    · exact ⟨r, List.mem_filterMap.mpr ⟨t, ht, hr⟩, (hreceipted.result _ run hrun t ht r hr).1, hid.trans hplan.stepId,
        houtcome, (hplan.admitResult r).symm.trans hadmits⟩

theorem digest_ok {v : P.Json} (h : (canonical P v).isSome = true) : ∃ d, digest P v = .ok d := by
  obtain ⟨t, ht⟩ := Option.isSome_iff_exists.mp h
  exact ⟨P.hexdigest t, by rw [digest, ht]⟩

theorem Start.Planned.accepted (hP : P.Hashing) (h : start.Planned planSteps rows)
    (hid : isIdentifier start.runId = true ∧ isIdentifier start.actor = true)
    (hplan : (canonical P start.plan).isSome = true) (hprofile : (canonical P start.profile).isSome = true) :
    start.call.Accepted (Db.initial P) := by
  obtain ⟨planDigest, hplan⟩ := digest_ok hplan
  obtain ⟨profileDigest, hprofile⟩ := digest_ok hprofile
  obtain ⟨db', hok, -⟩ := initializeRun_succeeds hP Audited.initial hid h.1 hplan hprofile rfl h.2
  exact ⟨db', hok⟩

theorem Start.Planned.driven (hP : P.Hashing) (h : start.Planned planSteps rows)
    (haccept : start.call.Accepted (Db.initial P)) (results : List (StepResult P)) :
    ∃ run, Driven start.runId rows results (start.call.apply (Db.initial P)) run := by
  obtain ⟨_, _, steps, hinit⟩ := h.created rfl haccept
  refine ⟨_, start.call.apply_kept AllKept.initial,
    start.call.apply_audited hP AllKept.initial Audited.initial, hinit.run,
    promotions_moves hinit.promoted, promotions_not_failed hinit.promoted fun s hs hfailed => ?_,
      fun key receipt hkey => ?_⟩
  · have hbegun := h.fresh.state s hs
    rw [hfailed] at hbegun
    cases hbegun
  · rw [hinit.receipts] at hkey
    cases hkey

end Progress

/-- **Progress.**  For every plan that is accepted and whose first step is not blocked: in every state of its run in
which no step has failed, the run is complete or a step is actionable, the run can be completed, and every dependency is
an earlier step, exactly if no step depends on itself, every dependency is a stored name, and results of the steps can
be formed.  When all steps are named by texts, the names are right exactly if no step lists its own.  A run with a step
that depends on itself is never complete. -/
theorem bootstrap_progress (P : Platform) (hP : P.Hashing) (start : Start P) (planSteps : List P.Json)
    (rows : List (StepRow P)) (hplanned : start.Planned planSteps rows) (haccept : start.call.Accepted (Db.initial P))
    (hfirst : ∀ s, rows.head? = some s → s.state ≠ .blocked) :
    (((∀ calls run, start.Run calls run → (∀ s ∈ run.steps, s.state ≠ .failed) → run.Progresses) ∧
        start.Completable ∧ Earlier rows) ↔ WellNamed rows ∧ Reportable start.runId rows) ∧
      ((∀ step ∈ planSteps, TextId P step) →
        (WellNamed rows ↔ ∀ step ∈ planSteps, planId P step ∉ planDependencies P step)) ∧
      ((∃ s ∈ rows, s.stepId ∈ s.dependencies) → ∀ calls run, start.Run calls run → run.state ≠ .complete) := by
  have hsound := hplanned.fresh.sound
  have hunblocked := hplanned.unblocked hfirst
  refine ⟨⟨fun ⟨_, ⟨results, run, hrun, hcomplete⟩, hearlier⟩ => ⟨(wellNamed_iff hsound.nodup).mp hearlier, ?_⟩,
    fun ⟨hwell, results, hkeys, hresults⟩ => ?_⟩, hplanned.wellNamed_iff, fun ⟨s, hs, hself⟩ calls run h =>
    h.not_complete hplanned hs hself⟩
  · exact Start.Run.reportable ⟨[], _, rfl, rfl, haccept, hrun⟩ hplanned hcomplete
  · have hearlier := (wellNamed_iff hsound.nodup).mpr hwell
    refine ⟨fun calls run h hfailed => ?_, ?_, hearlier⟩
    · obtain ⟨hkept, hmoves⟩ := h.moves hplanned
      exact actionable_of_earlier hkept (hmoves.unblocked hsound hunblocked)
        (samePlan_earlier (hmoves.samePlan hsound) hearlier) hfailed
    · obtain ⟨run, hdriven⟩ := hplanned.driven hP haccept results
      exact hdriven.complete hP hsound hunblocked hearlier hkeys hresults (Nat.lt_succ_self _)

/-! ## Plans with one step -/

section Samples

/-- A run with one step, which depends on the given ones. -/
def sampleStart (dependsOn : List String) : Start samplePlatform where
  runId := lit "run-1"
  profile := .dict []
  plan := samplePlan [sampleStep "observe" "ready" dependsOn]
  actor := lit "bootstrap"
  now := sampleStamp

def sampleRow (dependsOn : List String) : StepRow samplePlatform where
  stepId := lit "observe"
  ordinal := 0
  phase := lit "PREPARE"
  action := lit "observe"
  planStatus := lit "ready"
  state := .pending
  mutating := false
  requiredCapability := none
  dependencies := dependsOn.map lit
  reason := lit "sample"
  result := none
  updatedAt := sampleStamp.text

theorem independent_planned : (sampleStart []).Planned [sampleStep "observe" "ready" []] [sampleRow []] := ⟨rfl, rfl⟩

theorem selfDependent_planned :
    (sampleStart ["observe"]).Planned [sampleStep "observe" "ready" ["observe"]] [sampleRow ["observe"]] := ⟨rfl, rfl⟩

theorem independent_accepted : (sampleStart []).call.Accepted (Db.initial samplePlatform) :=
  independent_planned.accepted samplePlatform_hashing ⟨rfl, rfl⟩ rfl rfl

theorem selfDependent_accepted : (sampleStart ["observe"]).call.Accepted (Db.initial samplePlatform) :=
  selfDependent_planned.accepted samplePlatform_hashing ⟨rfl, rfl⟩ rfl rfl

def sampleReport : StepReport samplePlatform where
  runId := lit "run-1"
  stepId := lit "observe"
  idempotencyKey := lit "key-1"
  outcome := .succeeded
  executionMode := .observedOnly
  actor := lit "bootstrap"
  observedAt := sampleStamp
  evidence := []
  authorization := none

def sampleResult : StepResult samplePlatform where
  toStepReport := sampleReport
  identified := rfl
  readable := .dict List.nodup_nil (fun _ h => nomatch h) fun _ h => nomatch h
  document := (canonical samplePlatform sampleReport.toProtocol).getD []
  written := rfl
  bounded := by decide +kernel

theorem sampleRow_reportable : Reportable (lit "run-1") [sampleRow []] := by
  refine ⟨[sampleResult], List.nodup_singleton _, fun s hs _ => ?_⟩
  obtain rfl := List.mem_singleton.mp hs
  exact ⟨sampleResult, List.mem_singleton_self _, rfl, rfl, rfl, rfl⟩

theorem sampleRow_wellNamed : WellNamed [sampleRow []] := by
  intro i s hs
  obtain rfl := List.mem_singleton.mp (List.mem_of_getElem? hs)
  exact ⟨(by rintro ⟨⟩), fun d hd => (by cases hd)⟩

end Samples

theorem bootstrap_progress_independent : (sampleStart []).Completable :=
  ((bootstrap_progress samplePlatform samplePlatform_hashing
    (sampleStart []) _ _ independent_planned independent_accepted
    fun s hs => by cases hs; rintro ⟨⟩).1.mpr ⟨sampleRow_wellNamed, sampleRow_reportable⟩).2.1

/-- A plan that is accepted, and whose first step is not blocked, can stop without a failed step: its only step depends
on itself. -/
theorem bootstrap_progress_selfDependent :
    ∃ (start : Start samplePlatform) (planSteps : List (Value Unit)) (rows : List (StepRow samplePlatform)),
      start.Planned planSteps rows ∧ start.call.Accepted (Db.initial samplePlatform) ∧
      (∀ s, rows.head? = some s → s.state ≠ .blocked) ∧ ¬ Earlier rows ∧ ¬ start.Completable ∧
      ∃ calls run, start.Run calls run ∧ (∀ s ∈ run.steps, s.state ≠ .failed) ∧ ¬ run.Progresses := by
  have hself : (sampleRow ["observe"]).stepId ∈ (sampleRow ["observe"]).dependencies := List.mem_singleton_self _
  have hmem : sampleRow ["observe"] ∈ [sampleRow ["observe"]] := List.mem_singleton_self _
  refine ⟨sampleStart ["observe"], _, _, selfDependent_planned, selfDependent_accepted, fun s hs => ?_, fun h => ?_,
    fun ⟨results, run, hrun, hcomplete⟩ => ?_, ?_⟩
  · cases hs
    rintro ⟨⟩
  · cases h 0 _ rfl _ hself
  · have hstart : (sampleStart ["observe"]).Run _ run := ⟨[], _, rfl, rfl, selfDependent_accepted, hrun⟩
    exact hstart.not_complete selfDependent_planned hmem hself hcomplete
  · obtain ⟨run, hdriven⟩ := selfDependent_planned.driven samplePlatform_hashing selfDependent_accepted []
    have hstart : (sampleStart ["observe"]).Run [(sampleStart ["observe"]).call] run :=
      ⟨[], [], rfl, rfl, selfDependent_accepted, hdriven.found⟩
    refine ⟨_, run, hstart, hdriven.failed, ?_⟩
    rintro (hcomplete | ⟨s, hs, hactionable⟩)
    · exact hstart.not_complete selfDependent_planned hmem hself hcomplete
    · have hsound := selfDependent_planned.fresh.sound
      obtain ⟨u, hu, hsame⟩ := mem_of_samePlan' (hdriven.moves.samePlan hsound) hs
      obtain rfl := List.mem_singleton.mp hu
      have hbegun := begun_of_selfDependent hdriven.moves selfDependent_planned.fresh hs
        (by rw [hsame.stepId, hsame.dependencies]; exact hself)
      revert hactionable hbegun
      cases s.state <;> simp [StepState.actionable, StepState.begun]

end AgentFabric.Bootstrap
