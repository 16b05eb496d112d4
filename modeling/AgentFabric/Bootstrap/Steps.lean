import AgentFabric.Bootstrap.Lifecycle
import Mathlib.Logic.Relation

/-!
# How the steps of a run move

Whatever the recorder does to the steps of a run is a sequence of promotions and recordings.
-/

namespace AgentFabric.Bootstrap

open AgentFabric.Lib

variable {P : Platform}

/-! ## Reading and writing a step -/

section Update

variable {steps : List (StepRow P)} {s t : StepRow P} {stepId d : Text} {f : StepRow P → StepRow P}

def stepIds (steps : List (StepRow P)) : List Text := steps.map StepRow.stepId

theorem findStep_some (h : findStep steps stepId = some s) : s ∈ steps ∧ s.stepId = stepId :=
  ⟨List.mem_of_find?_eq_some h, by simpa using List.find?_some h⟩

theorem eq_of_stepId (hnodup : (stepIds steps).Nodup) (hs : s ∈ steps) (ht : t ∈ steps) (h : s.stepId = t.stepId) :
    s = t := List.inj_on_of_nodup_map hnodup hs ht h

theorem findStep_eq_some (hnodup : (stepIds steps).Nodup) (hs : s ∈ steps) : findStep steps s.stepId = some s := by
  cases h : findStep steps s.stepId with
  | none => exact absurd (List.find?_eq_none.mp h s hs) (by simp)
  | some =>
    obtain ⟨ht, hid⟩ := findStep_some h
    rw [eq_of_stepId hnodup ht hs hid]

theorem mem_updateStep :
    t ∈ updateStep stepId f steps ↔ ∃ s ∈ steps, t = if s.stepId = stepId then f s else s := by
  simp only [updateStep, List.mem_map, eq_comm]

theorem mem_updateStep_of_ne (hs : s ∈ steps) (hne : s.stepId ≠ stepId) : s ∈ updateStep stepId f steps :=
  mem_updateStep.mpr ⟨s, hs, (if_neg hne).symm⟩

def SatisfiedIn (steps : List (StepRow P)) (stepId : Text) : Prop :=
  ∃ s ∈ steps, s.stepId = stepId ∧ s.state = .satisfied

theorem dependenciesSatisfied_iff (hnodup : (stepIds steps).Nodup) {dependencies : List Text} :
    dependenciesSatisfied steps dependencies = true ↔ ∀ d ∈ dependencies, SatisfiedIn steps d := by
  simp only [dependenciesSatisfied, List.all_eq_true, Option.any_eq_true, decide_eq_true_eq]
  refine forall₂_congr fun d _ => ⟨?_, ?_⟩
  · rintro ⟨s, hs, hstate⟩
    obtain ⟨hmem, hid⟩ := findStep_some hs
    exact ⟨s, hmem, hid, hstate⟩
  · rintro ⟨s, hs, rfl, hstate⟩
    exact ⟨s, findStep_eq_some hnodup hs, hstate⟩

end Update

/-! ## Moves -/

/-- The columns that come from the plan. -/
structure SamePlan (s t : StepRow P) : Prop where
  stepId : t.stepId = s.stepId
  ordinal : t.ordinal = s.ordinal
  phase : t.phase = s.phase
  action : t.action = s.action
  planStatus : t.planStatus = s.planStatus
  mutating : t.mutating = s.mutating
  requiredCapability : t.requiredCapability = s.requiredCapability
  dependencies : t.dependencies = s.dependencies

theorem SamePlan.refl (s : StepRow P) : SamePlan s s := ⟨rfl, rfl, rfl, rfl, rfl, rfl, rfl, rfl⟩

theorem SamePlan.trans {u : StepRow P} (h : SamePlan s t) (h' : SamePlan t u) : SamePlan s u :=
  ⟨h'.1.trans h.1, h'.2.trans h.2, h'.3.trans h.3, h'.4.trans h.4, h'.5.trans h.5, h'.6.trans h.6, h'.7.trans h.7,
    h'.8.trans h.8⟩

/-- A pending step whose dependencies are satisfied is promoted. -/
inductive Promotion (steps : List (StepRow P)) : List (StepRow P) → Prop where
  | promote (s : StepRow P) (hs : s ∈ steps) (hstate : s.state = .pending)
      (hdeps : dependenciesSatisfied steps s.dependencies = true) (time : Text) :
      Promotion steps (updateStep s.stepId (fun t => { t with state := s.nextState, updatedAt := time }) steps)

/-- A result is recorded for an actionable step. -/
inductive Recording (r : StepResult P) (steps : List (StepRow P)) : List (StepRow P) → Prop where
  | record (s : StepRow P) (hs : findStep steps r.stepId = some s) (hstate : s.state.actionable = true)
      (hdeps : dependenciesSatisfied steps s.dependencies = true) (hadmits : admitResult s r = .ok ()) :
      Recording r steps (updateStep r.stepId
        (fun t => { t with state := r.outcome.stepState, result := some r, updatedAt := r.observedAt.text }) steps)

def Move (steps steps' : List (StepRow P)) : Prop := Promotion steps steps' ∨ ∃ r, Recording r steps steps'

/-- What a state says about the result of a step, and about its plan. -/
def StepRow.Consistent (s : StepRow P) : Prop :=
  match s.state with
  | .pending | .blocked => s.result = none
  | .ready | .awaitingReview | .awaitingApproval => s.result = none ∧ s.state = s.nextState
  | .satisfied => (s.result = none ∧ s.planStatus = lit "notNeeded") ∨
      ∃ r, s.result = some r ∧ r.stepId = s.stepId ∧ r.outcome = .succeeded ∧ admitResult s r = .ok () ∧
        s.planStatus ≠ lit "notNeeded"
  | .failed => ∃ r, s.result = some r ∧ r.stepId = s.stepId ∧ r.outcome = .failed ∧ admitResult s r = .ok () ∧
        s.planStatus ≠ lit "notNeeded"

/-- The step is neither pending nor blocked. -/
def StepState.begun : StepState → Bool
  | .pending | .blocked => false
  | _ => true

/-- What holds of the steps between any two moves. -/
structure Sound (steps : List (StepRow P)) : Prop where
  nodup : (stepIds steps).Nodup
  dependencies : ∀ s ∈ steps, s.state.begun = true → dependenciesSatisfied steps s.dependencies = true
  consistent : ∀ s ∈ steps, s.Consistent

/-- Nothing is left to promote. -/
def Settled (steps : List (StepRow P)) : Prop :=
  ∀ s ∈ steps, s.state = .pending → dependenciesSatisfied steps s.dependencies = false

theorem StepRow.nextState_cases (s : StepRow P) :
    (s.nextState = .satisfied ∧ s.planStatus = lit "notNeeded") ∨
      (s.nextState.actionable = true ∧ s.planStatus ≠ lit "notNeeded") := by
  unfold nextState
  split
  · next h => exact Or.inl ⟨rfl, h⟩
  next h =>
  right
  refine ⟨?_, h⟩
  split
  · rfl
  split
  · rfl
  split <;> rfl

theorem SamePlan.nextState (h : SamePlan s t) : t.nextState = s.nextState := by
  simp only [StepRow.nextState, h.planStatus, h.mutating]

theorem SamePlan.admitResult (h : SamePlan s t) (r : StepResult P) :
    admitResult t r = admitResult s r := by
  simp only [Bootstrap.admitResult, h.mutating, h.requiredCapability]

/-- One step is replaced, and was neither satisfied nor failed before. -/
structure Replaces (steps steps' : List (StepRow P)) (s s' : StepRow P) : Prop where
  mem : s ∈ steps
  samePlan : SamePlan s s'
  open_ : s.state ≠ .satisfied ∧ s.state ≠ .failed
  unblocked : s.state ≠ .blocked
  begun : s'.state.begun = true
  dependencies : dependenciesSatisfied steps s.dependencies = true
  consistent : s'.Consistent
  eq : steps' = steps.map fun t => if t.stepId = s.stepId then s' else t

theorem updateStep_eq (hnodup : (stepIds steps).Nodup) (hs : s ∈ steps) (f : StepRow P → StepRow P) :
    updateStep s.stepId f steps = steps.map fun t => if t.stepId = s.stepId then f s else t := by
  refine List.map_congr_left fun t ht => ?_
  by_cases h : t.stepId = s.stepId
  · rw [eq_of_stepId hnodup ht hs h]
  · simp only [if_neg h]

/-- Every move replaces one step. -/
theorem Move.replaces (h : Move steps steps') (hsound : Sound steps) :
    ∃ s s', Replaces steps steps' s s' := by
  rcases h with ⟨s, hs, hstate, hdeps, time⟩ | ⟨r, s, hs, hstate, hdeps, hadmits⟩
  · have hplan : SamePlan s { s with state := s.nextState, updatedAt := time } :=
      ⟨rfl, rfl, rfl, rfl, rfl, rfl, rfl, rfl⟩
    have hresult : s.result = none := by
      have h := hsound.consistent s hs
      rw [StepRow.Consistent, hstate] at h
      exact h
    refine ⟨s, _, hs, hplan, by simp [hstate], by simp [hstate], ?_, hdeps, ?_, updateStep_eq hsound.nodup hs _⟩
    · rcases s.nextState_cases with ⟨hnext, -⟩ | ⟨hnext, -⟩
      · show s.nextState.begun = true
        rw [hnext]
        rfl
      · revert hnext
        show s.nextState.actionable = true → s.nextState.begun = true
        cases s.nextState <;> decide
    · show match s.nextState with
        | .pending | .blocked => s.result = none
        | .ready | .awaitingReview | .awaitingApproval => s.result = none ∧ s.nextState = s.nextState
        | .satisfied => _
        | .failed => _
      rcases s.nextState_cases with ⟨hnext, hplan⟩ | ⟨hnext, -⟩
      · rw [hnext]
        exact Or.inl ⟨hresult, hplan⟩
      · revert hnext
        cases s.nextState <;> simp [StepState.actionable, hresult]
  · obtain ⟨hmem, hid⟩ := findStep_some hs
    have hplanned : s.planStatus ≠ lit "notNeeded" := by
      have h := hsound.consistent s hmem
      have hnext : s.state = s.nextState := by
        rw [StepRow.Consistent] at h
        revert h hstate
        cases s.state <;> simp [StepState.actionable]
      rcases s.nextState_cases with ⟨hsat, -⟩ | ⟨-, hplan⟩
      · rw [hnext, hsat] at hstate
        cases hstate
      · exact hplan
    refine ⟨s, { s with state := r.outcome.stepState, result := some r, updatedAt := r.observedAt.text }, hmem,
      ⟨rfl, rfl, rfl, rfl, rfl, rfl, rfl, rfl⟩, ?_, ?_, ?_, hdeps, ?_, ?_⟩
    · revert hstate
      cases s.state <;> simp [StepState.actionable]
    · revert hstate
      cases s.state <;> simp [StepState.actionable]
    · cases r.outcome <;> rfl
    · unfold StepRow.Consistent
      cases ho : r.outcome with
      | succeeded => exact Or.inr ⟨r, rfl, hid.symm, ho, hadmits, hplanned⟩
      | failed => exact ⟨r, rfl, hid.symm, ho, hadmits, hplanned⟩
    · rw [← hid]
      exact updateStep_eq hsound.nodup hmem _

section Replaces

variable {steps steps' : List (StepRow P)} {s s' : StepRow P}

theorem Replaces.mem_iff (h : Replaces steps steps' s s') {t : StepRow P} :
    t ∈ steps' ↔ (t ∈ steps ∧ t.stepId ≠ s.stepId) ∨ t = s' := by
  rw [h.eq, List.mem_map]
  constructor
  · rintro ⟨u, hu, rfl⟩
    by_cases hid : u.stepId = s.stepId
    · exact Or.inr (if_pos hid)
    · rw [if_neg hid]
      exact Or.inl ⟨hu, hid⟩
  · rintro (⟨ht, hid⟩ | rfl)
    · exact ⟨t, ht, if_neg hid⟩
    · exact ⟨s, h.mem, if_pos rfl⟩

theorem Replaces.stepIds_eq (h : Replaces steps steps' s s') : stepIds steps' = stepIds steps := by
  rw [h.eq, stepIds, List.map_map, stepIds]
  refine List.map_congr_left fun t _ => ?_
  simp only [Function.comp_apply]
  split
  · next hid => rw [h.samePlan.stepId, hid]
  · rfl

theorem Replaces.satisfiedIn (h : Replaces steps steps' s s') (hnodup : (stepIds steps).Nodup) {d : Text}
    (hd : SatisfiedIn steps d) : SatisfiedIn steps' d := by
  obtain ⟨t, ht, hid, hstate⟩ := hd
  refine ⟨t, h.mem_iff.mpr (Or.inl ⟨ht, fun heq => ?_⟩), hid, hstate⟩
  rw [eq_of_stepId hnodup ht h.mem heq] at hstate
  exact h.open_.1 hstate

theorem Replaces.dependenciesSatisfied (h : Replaces steps steps' s s') (hnodup : (stepIds steps).Nodup)
    {dependencies : List Text} (hd : dependenciesSatisfied steps dependencies = true) :
    Bootstrap.dependenciesSatisfied steps' dependencies = true := by
  rw [dependenciesSatisfied_iff (h.stepIds_eq ▸ hnodup)]
  exact fun d hmem => h.satisfiedIn hnodup ((dependenciesSatisfied_iff hnodup).mp hd d hmem)

theorem Replaces.sound (h : Replaces steps steps' s s') (hsound : Sound steps) : Sound steps' where
  nodup := h.stepIds_eq ▸ hsound.nodup
  dependencies t ht hbegun := by
    rcases h.mem_iff.mp ht with ⟨hold, -⟩ | rfl
    · exact h.dependenciesSatisfied hsound.nodup (hsound.dependencies t hold hbegun)
    · rw [h.samePlan.dependencies]
      exact h.dependenciesSatisfied hsound.nodup h.dependencies
  consistent t ht := by
    rcases h.mem_iff.mp ht with ⟨hold, -⟩ | rfl
    · exact hsound.consistent t hold
    · exact h.consistent

end Replaces

/-- A move keeps the steps sound. -/
theorem Move.sound (h : Move steps steps') (hsound : Sound steps) : Sound steps' := by
  obtain ⟨s, s', hrep⟩ := h.replaces hsound
  exact hrep.sound hsound

/-- Sequences of moves. -/
abbrev Moves : List (StepRow P) → List (StepRow P) → Prop := Relation.ReflTransGen Move

theorem Moves.sound (h : Moves steps steps') (hsound : Sound steps) : Sound steps' := by
  induction h with
  | refl => exact hsound
  | tail _ hmove ih => exact hmove.sound ih

/-- A step that has an outcome stays as it is. -/
theorem Moves.keeps (h : Moves steps steps') (hsound : Sound steps) (ht : t ∈ steps)
    (hstate : t.state = .satisfied ∨ t.state = .failed) : t ∈ steps' := by
  induction h with
  | refl => exact ht
  | tail hmoves hmove ih =>
    have hmid := Moves.sound hmoves hsound
    obtain ⟨s, s', hrep⟩ := hmove.replaces hmid
    refine hrep.mem_iff.mpr (Or.inl ⟨ih, fun heq => ?_⟩)
    rw [eq_of_stepId hmid.nodup ih hrep.mem heq] at hstate
    exact hstate.elim hrep.open_.1 hrep.open_.2

theorem samePlan_map (h : List.Forall₂ SamePlan steps steps') {f : StepRow P → StepRow P}
    (hf : ∀ t ∈ steps', SamePlan t (f t)) : List.Forall₂ SamePlan steps (steps'.map f) := by
  induction h with
  | nil => exact .nil
  | cons hsame _ ih =>
    exact .cons (hsame.trans (hf _ List.mem_cons_self)) (ih fun t ht => hf t (List.mem_cons_of_mem _ ht))

theorem Moves.samePlan (h : Moves steps steps') (hsound : Sound steps) :
    List.Forall₂ SamePlan steps steps' := by
  induction h with
  | refl => exact List.forall₂_same.mpr fun s _ => .refl s
  | tail hmoves hmove ih =>
    have hmid := Moves.sound hmoves hsound
    obtain ⟨s, s', hrep⟩ := hmove.replaces hmid
    rw [hrep.eq]
    refine samePlan_map ih fun t ht => ?_
    split
    · next hid =>
      rw [eq_of_stepId hmid.nodup ht hrep.mem hid]
      exact hrep.samePlan
    · exact .refl t

section SamePlan

variable {rows steps : List (StepRow P)}

theorem getElem?_of_forall₂ {α β : Type} {R : α → β → Prop} {a : List α} {b : List β} (h : List.Forall₂ R a b) {i : Nat}
    {y : β} (hy : b[i]? = some y) : ∃ x, a[i]? = some x ∧ R x y := by
  induction h generalizing i with
  | nil => simp at hy
  | cons hR _ ih =>
    cases i with
    | zero =>
      obtain rfl := Option.some.inj hy
      exact ⟨_, rfl, hR⟩
    | succ => exact ih hy

theorem mem_of_samePlan (h : List.Forall₂ SamePlan rows steps) {s : StepRow P} (hs : s ∈ rows) :
    ∃ t ∈ steps, SamePlan s t := by
  obtain ⟨i, hi⟩ := List.getElem?_of_mem hs
  obtain ⟨t, ht, hsame⟩ := getElem?_of_forall₂ h.flip hi
  exact ⟨t, List.mem_of_getElem? ht, hsame⟩

theorem mem_of_samePlan' (h : List.Forall₂ SamePlan rows steps) {t : StepRow P} (ht : t ∈ steps) :
    ∃ s ∈ rows, SamePlan s t := by
  obtain ⟨i, hi⟩ := List.getElem?_of_mem ht
  obtain ⟨s, hs, hsame⟩ := getElem?_of_forall₂ h hi
  exact ⟨s, List.mem_of_getElem? hs, hsame⟩

theorem samePlan_stepIds (h : List.Forall₂ SamePlan rows steps) : stepIds steps = stepIds rows := by
  induction h with
  | nil => rfl
  | cons hsame _ ih => exact congrArg₂ List.cons hsame.stepId ih

end SamePlan

theorem Moves.satisfiedIn (h : Moves steps steps') (hsound : Sound steps) {d : Text} (hd : SatisfiedIn steps d) :
    SatisfiedIn steps' d := by
  obtain ⟨t, ht, hid, hstate⟩ := hd
  exact ⟨t, h.keeps hsound ht (Or.inl hstate), hid, hstate⟩

end AgentFabric.Bootstrap
