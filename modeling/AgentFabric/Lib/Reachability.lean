import Mathlib.Logic.Relation
import Mathlib.Data.List.Basic

/-!
# Reachability by rounds

A recursive query walks a list of edges in rounds until it finds nothing new. As many rounds as there are edges suffice.
-/

namespace AgentFabric.Lib

open Relation

section

variable {α : Type} {edges : List (α × α)}

/-- One step along an edge. -/
def Edge (edges : List (α × α)) (a b : α) : Prop := (a, b) ∈ edges

def Acyclic (edges : List (α × α)) : Prop := ∀ a, ¬ TransGen (Edge edges) a a

theorem acyclic_nil : Acyclic ([] : List (α × α)) := by
  intro a h
  obtain ⟨b, hab, _⟩ := TransGen.head'_iff.mp h
  exact List.not_mem_nil hab

/-- A path that uses one more edge is an old path, or runs over the new edge. -/
theorem path_concat {a b x y : α} (h : TransGen (Edge (edges ++ [(a, b)])) x y) :
    TransGen (Edge edges) x y ∨ ReflTransGen (Edge edges) x a ∧ ReflTransGen (Edge edges) b y := by
  have hedge : ∀ {u v}, Edge (edges ++ [(a, b)]) u v → Edge edges u v ∨ u = a ∧ v = b := by
    intro u v huv
    rcases List.mem_append.mp huv with hold | hnew
    · exact Or.inl hold
    · obtain ⟨rfl, rfl⟩ := Prod.mk.inj (List.mem_singleton.mp hnew)
      exact Or.inr ⟨rfl, rfl⟩
  induction h with
  | single huv =>
    rcases hedge huv with hold | ⟨rfl, rfl⟩
    · exact Or.inl (.single hold)
    · exact Or.inr ⟨.refl, .refl⟩
  | tail _ hvw ih =>
    rcases hedge hvw with hold | ⟨rfl, rfl⟩
    · exact ih.imp (·.tail hold) fun ⟨hx, hb⟩ => ⟨hx, hb.tail hold⟩
    · rcases ih with hpath | ⟨hx, _⟩
      · exact Or.inr ⟨hpath.to_reflTransGen, .refl⟩
      · exact Or.inr ⟨hx, .refl⟩

/-- An edge that closes no cycle. -/
theorem Acyclic.concat {a b : α} (h : Acyclic edges) (hback : ¬ ReflTransGen (Edge edges) b a) :
    Acyclic (edges ++ [(a, b)]) := by
  intro x hx
  rcases path_concat hx with hold | ⟨hxa, hbx⟩
  · exact h x hold
  · exact hback (hbx.trans hxa)

/-- Nothing new can be reached. -/
def Closed (edges : List (α × α)) (reached : List α) : Prop := ∀ a b, (a, b) ∈ edges → a ∈ reached → b ∈ reached

theorem Closed.path {reached : List α} (h : Closed edges reached) {a b : α} (ha : a ∈ reached)
    (hab : ReflTransGen (Edge edges) a b) : b ∈ reached := by
  induction hab with
  | refl => exact ha
  | tail _ hbc ih => exact h _ _ hbc ih

end

section

variable {α : Type} [DecidableEq α] {edges : List (α × α)}

/-- One round: where the edges lead from what was reached so far. -/
def targets (edges : List (α × α)) (reached : List α) : List α :=
  (edges.filter fun e => decide (e.1 ∈ reached)).map Prod.snd

/-- The nodes reached in at most `rounds` rounds. -/
def reach (edges : List (α × α)) : Nat → List α → List α
  | 0, reached => reached
  | rounds + 1, reached => reach edges rounds (reached ++ targets edges reached)

variable {reached : List α}

theorem mem_targets {b : α} : b ∈ targets edges reached ↔ ∃ a ∈ reached, (a, b) ∈ edges := by
  simp only [targets, List.mem_map, List.mem_filter, decide_eq_true_eq, Prod.exists]
  constructor
  · rintro ⟨a, b, ⟨hmem, ha⟩, rfl⟩
    exact ⟨a, ha, hmem⟩
  · rintro ⟨a, ha, hmem⟩
    exact ⟨a, b, ⟨hmem, ha⟩, rfl⟩

theorem reach_mono (rounds : Nat) : reached ⊆ reach edges rounds reached := by
  induction rounds generalizing reached with
  | zero => exact fun _ h => h
  | succ rounds ih => exact fun a ha => ih (List.mem_append_left _ ha)

theorem reach_sound {rounds : Nat} {b : α} (h : b ∈ reach edges rounds reached) :
    ∃ a ∈ reached, ReflTransGen (Edge edges) a b := by
  induction rounds generalizing reached with
  | zero => exact ⟨b, h, .refl⟩
  | succ rounds ih =>
    obtain ⟨a, ha, hab⟩ := ih h
    rcases List.mem_append.mp ha with ha | ha
    · exact ⟨a, ha, hab⟩
    · obtain ⟨r, hr, hra⟩ := mem_targets.mp ha
      exact ⟨r, hr, .head hra hab⟩

theorem Closed.targets {reached : List α} (h : Closed edges reached) : Lib.targets edges reached ⊆ reached := by
  intro b hb
  obtain ⟨a, ha, hab⟩ := mem_targets.mp hb
  exact h a b hab ha

theorem Closed.reach (rounds : Nat) {reached : List α} (h : Closed edges reached) :
    Closed edges (reach edges rounds reached) := by
  induction rounds generalizing reached with
  | zero => exact h
  | succ rounds ih =>
    refine ih fun a b hab ha => List.mem_append_left _ (h a b hab ?_)
    rcases List.mem_append.mp ha with ha | ha
    · exact ha
    · exact h.targets ha

/-- The edges that lead to something not reached yet. -/
def openEdges (edges : List (α × α)) (reached : List α) : Nat := edges.countP fun e => decide (e.2 ∉ reached)

/-- A round that finds something new leaves fewer open edges. -/
theorem openEdges_lt (h : ¬ Closed edges reached) :
    openEdges edges (reached ++ targets edges reached) < openEdges edges reached := by
  simp only [Closed, not_forall] at h
  obtain ⟨a, b, hab, ha, hb⟩ := h
  have hnew : b ∈ reached ++ targets edges reached := List.mem_append_right _ (mem_targets.mpr ⟨a, ha, hab⟩)
  have hfewer : ∀ es : List (α × α), openEdges es (reached ++ targets edges reached) ≤ openEdges es reached :=
    fun es => List.countP_mono_left fun e _ he =>
      decide_eq_true fun hmem => of_decide_eq_true he (List.mem_append_left _ hmem)
  -- the edge from `a` to `b` was open and no longer is
  obtain ⟨s, t, hst⟩ := List.append_of_mem hab
  have hs := hfewer s
  have ht := hfewer t
  have hsplit : ∀ l : List α, openEdges edges l = openEdges s l + (openEdges t l + if b ∈ l then 0 else 1) := by
    intro l
    rw [hst, openEdges, List.countP_append, List.countP_cons]
    by_cases hl : b ∈ l <;> simp [hl, openEdges]
  rw [hsplit, hsplit, if_pos hnew, if_neg hb]
  omega

/-- After as many rounds as edges nothing new can be reached. -/
theorem reach_closed_of_open {rounds : Nat} (h : openEdges edges reached ≤ rounds) :
    Closed edges (reach edges rounds reached) := by
  induction rounds generalizing reached with
  | zero =>
    by_contra hopen
    have hlt := openEdges_lt hopen
    simp only [reach] at hlt
    omega
  | succ rounds ih =>
    by_cases hclosed : Closed edges reached
    · exact hclosed.reach (rounds + 1)
    · have hlt := openEdges_lt hclosed
      exact ih (by omega)

theorem reach_closed (roots : List α) : Closed edges (reach edges edges.length roots) :=
  reach_closed_of_open List.countP_le_length

/-- **The query computes the closure.** -/
theorem mem_reach {roots : List α} {b : α} :
    b ∈ reach edges edges.length roots ↔ ∃ a ∈ roots, ReflTransGen (Edge edges) a b := by
  constructor
  · exact reach_sound
  · rintro ⟨a, ha, hab⟩
    exact (reach_closed roots).path (reach_mono _ ha) hab

end

end AgentFabric.Lib
