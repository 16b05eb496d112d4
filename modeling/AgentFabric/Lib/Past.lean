import Mathlib.Data.List.Basic
import Mathlib.Data.List.Induction

/-!
# The past of a trace

What an event finds behind it, for traces that grow at the end.
-/

namespace AgentFabric.Lib

variable {α β : Type}

theorem split_snoc {trace pre post : List α} {e x : α} (h : trace ++ [e] = pre ++ x :: post) :
    (∃ post', post = post' ++ [e] ∧ trace = pre ++ x :: post') ∨ (post = [] ∧ x = e ∧ pre = trace) := by
  induction post using List.reverseRecOn with
  | nil =>
    have h := List.append_inj' h rfl
    exact Or.inr ⟨rfl, (List.cons.inj h.2).1.symm, h.1.symm⟩
  | append_singleton post' y =>
    rw [show pre ++ x :: (post' ++ [y]) = (pre ++ x :: post') ++ [y] by simp] at h
    have h := List.append_inj' h rfl
    obtain rfl := (List.cons.inj h.2).1
    exact Or.inl ⟨post', rfl, h.1⟩

theorem eq_of_pairwise {R : α → α → Prop} {l : List α} (h : l.Pairwise R) {a b : α} (ha : a ∈ l) (hb : b ∈ l)
    (hab : ¬ R a b) (hba : ¬ R b a) : a = b := by
  induction l with
  | nil => cases ha
  | cons x l ih =>
    obtain ⟨hx, hl⟩ := List.pairwise_cons.mp h
    rcases List.mem_cons.mp ha with rfl | ha'
    · rcases List.mem_cons.mp hb with rfl | hb'
      · rfl
      · exact absurd (hx b hb') hab
    · rcases List.mem_cons.mp hb with rfl | hb'
      · exact absurd (hx a ha') hba
      · exact ih hl ha' hb'

theorem getLast?_of_pairwise {R : α → α → Prop} {l : List α} (h : l.Pairwise R) {a : α} (ha : a ∈ l)
    (hmax : ∀ b ∈ l, ¬ R a b) : l.getLast? = some a := by
  induction l using List.reverseRecOn with
  | nil => cases ha
  | append_singleton l b _ =>
    rw [List.getLast?_concat]
    rcases List.mem_append.mp ha with ha | ha
    · have hlast : b ∈ l ++ [b] := List.mem_append_right _ List.mem_cons_self
      exact absurd ((List.pairwise_append.mp h).2.2 a ha b List.mem_cons_self) (hmax b hlast)
    · rw [List.mem_singleton.mp ha]

/-! ## Lawful traces -/

/-- Every event is lawful after the ones before it. -/
def Always (lawful : List α → α → Prop) (trace : List α) : Prop :=
  ∀ pre e post, trace = pre ++ e :: post → lawful pre e

namespace Always

variable {lawful : List α → α → Prop} {trace : List α} {e : α}

theorem nil : Always lawful [] := fun pre e post h => by
  have hlength := congrArg List.length h
  simp at hlength

theorem snoc (h : Always lawful trace) (he : lawful trace e) : Always lawful (trace ++ [e]) := by
  intro pre x post hsplit
  rcases split_snoc hsplit with ⟨post', _, htrace⟩ | ⟨_, rfl, rfl⟩
  · exact h pre x post' htrace
  · exact he

theorem congr {lawful' lawful'' : List α → α → Prop} (h : Always lawful trace)
    (he : ∀ pre e, lawful pre e → (lawful' pre e ↔ lawful'' pre e)) : Always lawful' trace ↔ Always lawful'' trace :=
  ⟨fun h' pre e post hsplit => (he pre e (h pre e post hsplit)).mp (h' pre e post hsplit),
    fun h' pre e post hsplit => (he pre e (h pre e post hsplit)).mpr (h' pre e post hsplit)⟩

theorem mono {lawful' : List α → α → Prop} (h : Always lawful trace) (he : ∀ pre e, lawful pre e → lawful' pre e) :
    Always lawful' trace := fun pre e post hsplit => he pre e (h pre e post hsplit)

theorem iff_take : Always lawful trace ↔ ∀ n (h : n < trace.length), lawful (trace.take n) (trace.get ⟨n, h⟩) := by
  constructor
  · intro h n hn
    refine h _ _ (trace.drop (n + 1)) ?_
    rw [List.get_eq_getElem, List.getElem_cons_drop hn, List.take_append_drop]
  · rintro h pre e post rfl
    have := h pre.length (by simp)
    simpa using this

instance [∀ pre e, Decidable (lawful pre e)] : Decidable (Always lawful trace) := decidable_of_iff' _ iff_take

end Always

/-! ## Since -/

/-- Some event is a `p`, and no event after it is a `q`. -/
def Since (p q : α → Prop) (trace : List α) : Prop :=
  ∃ pre e post, trace = pre ++ e :: post ∧ p e ∧ ∀ x ∈ post, ¬ q x

namespace Since

variable {p q : α → Prop} {trace : List α} {e : α}

theorem now (h : p e) : Since p q (trace ++ [e]) := ⟨trace, e, [], rfl, h, nofun⟩

theorem snoc (h : Since p q trace) (he : ¬ q e) : Since p q (trace ++ [e]) := by
  obtain ⟨pre, x, post, rfl, hx, hpost⟩ := h
  refine ⟨pre, x, post ++ [e], by simp, hx, fun y hy => ?_⟩
  rcases List.mem_append.mp hy with hy | hy
  · exact hpost y hy
  · obtain rfl := List.mem_singleton.mp hy
    exact he

theorem of_snoc (h : Since p q (trace ++ [e])) : p e ∨ (Since p q trace ∧ ¬ q e) := by
  obtain ⟨pre, x, post, hsplit, hx, hpost⟩ := h
  rcases split_snoc hsplit with ⟨post', rfl, rfl⟩ | ⟨_, rfl, _⟩
  · exact Or.inr ⟨⟨pre, x, post', rfl, hx, fun y hy => hpost y (List.mem_append_left _ hy)⟩,
      hpost e (List.mem_append_right _ List.mem_cons_self)⟩
  · exact Or.inl hx

theorem iff_take : Since p q trace ↔
    ∃ n, ∃ h : n < trace.length, p (trace.get ⟨n, h⟩) ∧ ∀ x ∈ trace.drop (n + 1), ¬ q x := by
  constructor
  · rintro ⟨pre, x, post, rfl, hx, hpost⟩
    refine ⟨pre.length, by simp, by simpa using hx, ?_⟩
    rw [List.append_cons, List.drop_left' (by simp)]
    exact hpost
  · rintro ⟨n, h, hx, hpost⟩
    refine ⟨trace.take n, _, trace.drop (n + 1), ?_, hx, hpost⟩
    rw [List.get_eq_getElem, List.getElem_cons_drop h, List.take_append_drop]

instance [DecidablePred p] [DecidablePred q] : Decidable (Since p q trace) := decidable_of_iff' _ iff_take

end Since

/-! ## The latest event -/

/-- What the last event that says something says. -/
def latest (f : α → Option β) (trace : List α) : Option β := (trace.filterMap f).getLast?

section

variable {f : α → Option β} {trace : List α} {e : α} {b : β}

theorem latest_snoc_some (h : f e = some b) : latest f (trace ++ [e]) = some b := by
  simp [latest, List.filterMap_append, h]

theorem latest_snoc_none (h : f e = none) : latest f (trace ++ [e]) = latest f trace := by
  simp [latest, List.filterMap_append, h]

theorem mem_of_latest (h : latest f trace = some b) : b ∈ trace.filterMap f := List.mem_of_getLast? h

end

end AgentFabric.Lib
