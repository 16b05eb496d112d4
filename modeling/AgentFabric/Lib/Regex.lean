import Mathlib.Data.List.Basic
import Mathlib.Data.List.Forall2
import Mathlib.Data.List.TakeWhile

/-!
# Regular expressions of a backtracking engine

What an expression can consume at a position, the preferred way first, with search and substitution.
-/

namespace AgentFabric.Lib

variable {α : Type}

/-- A regular expression; a repetition is of one class of letters, and greedy. -/
inductive Regex (α : Type) where
  | empty
  | one (p : α → Bool)
  | many (p : α → Bool) (least : Nat)
  | boundary (word : α → Bool)
  | seq (first second : Regex α)
  | alt (first second : Regex α)

namespace Regex

/-- The letter before a position, after some more letters. -/
def lastOr (before : Option α) (consumed : List α) : Option α := consumed.getLast?.or before

/-- A position between a letter of a word and another one, or an end of the text. -/
def isBoundary (word : α → Bool) (before : Option α) (s : List α) : Bool := before.any word != s.head?.any word

/-- What the expression can consume, the preferred way first, and what is left. -/
def ways : Regex α → Option α → List α → List (List α × List α)
  | .empty, _, s => [([], s)]
  | .one _, _, [] => []
  | .one p, _, c :: s => if p c then [([c], s)] else []
  | .many p least, _, s =>
    let longest := (s.takeWhile p).length
    (List.range (longest + 1 - least)).map fun i => (s.take (longest - i), s.drop (longest - i))
  | .boundary word, before, s => if isBoundary word before s then [([], s)] else []
  | .seq first second, before, s =>
    (first.ways before s).flatMap fun m =>
      (second.ways (lastOr before m.1) m.2).map fun n => (m.1 ++ n.1, n.2)
  | .alt first second, before, s => first.ways before s ++ second.ways before s

/-- `e?`. -/
def opt (e : Regex α) : Regex α := .alt e .empty

/-- One letter after the other. -/
def literal : List (α → Bool) → Regex α
  | [] => .empty
  | p :: ps => .seq (.one p) (literal ps)

/-- The first of the expressions that leads to a match. -/
def choice : List (Regex α) → Regex α
  | [] => .many (fun _ => false) 1
  | [e] => e
  | e :: es => .alt e (choice es)

variable {e : Regex α} {before : Option α} {s x r : List α}

theorem ways_empty : empty.ways before s = [([], s)] := rfl

variable {p word : α → Bool}

theorem ways_one_nil : (one p).ways before [] = [] := rfl

theorem ways_one_cons {c : α} :
    (one p).ways before (c :: s) = if p c then [([c], s)] else [] := rfl

theorem ways_many {least : Nat} : (many p least).ways before s =
    (List.range ((s.takeWhile p).length + 1 - least)).map fun i =>
      (s.take ((s.takeWhile p).length - i), s.drop ((s.takeWhile p).length - i)) := rfl

theorem ways_boundary :
    (boundary word).ways before s = if isBoundary word before s then [([], s)] else [] := rfl

variable {first second : Regex α}

theorem ways_seq : (seq first second).ways before s =
    (first.ways before s).flatMap fun m =>
      (second.ways (lastOr before m.1) m.2).map fun n => (m.1 ++ n.1, n.2) := rfl

theorem ways_alt :
    (alt first second).ways before s = first.ways before s ++ second.ways before s := rfl

@[simp]
theorem lastOr_nil (before : Option α) : lastOr before [] = before := rfl

theorem lastOr_cons (before : Option α) (c : α) (x : List α) : lastOr before (c :: x) = lastOr (some c) x := by
  cases x with
  | nil => rfl
  | cons d x =>
    simp only [lastOr, List.getLast?_cons_cons]
    rw [List.getLast?_eq_some_getLast (List.cons_ne_nil d x)]
    rfl

theorem lastOr_append (before : Option α) (x y : List α) : lastOr before (x ++ y) = lastOr (lastOr before x) y := by
  induction x generalizing before with
  | nil => rfl
  | cons c x ih => rw [List.cons_append, lastOr_cons, ih, lastOr_cons]

theorem mem_empty : (x, r) ∈ empty.ways before s ↔ x = [] ∧ r = s := by simp [ways_empty]

theorem mem_one : (x, r) ∈ (one p).ways before s ↔ ∃ c, p c = true ∧ x = [c] ∧ s = c :: r := by
  cases s with
  | nil => simp [ways_one_nil]
  | cons c =>
    by_cases hc : p c = true
    · simp [ways_one_cons, hc]
      tauto
    · simp [ways_one_cons, hc]

theorem mem_boundary :
    (x, r) ∈ (boundary word).ways before s ↔ isBoundary word before s = true ∧ x = [] ∧ r = s := by
  by_cases hb : isBoundary word before s = true <;> simp [ways_boundary, hb]

theorem mem_seq : (x, r) ∈ (seq first second).ways before s ↔
    ∃ y t z, (y, t) ∈ first.ways before s ∧ (z, r) ∈ second.ways (lastOr before y) t ∧ x = y ++ z := by
  simp only [ways_seq, List.mem_flatMap, List.mem_map, Prod.mk.injEq, Prod.exists]
  constructor
  · rintro ⟨y, t, hy, z, u, hz, rfl, rfl⟩
    exact ⟨y, t, z, hy, hz, rfl⟩
  · rintro ⟨y, t, z, hy, hz, rfl⟩
    exact ⟨y, t, hy, z, r, hz, rfl, rfl⟩

theorem mem_alt : (x, r) ∈ (alt first second).ways before s ↔
    (x, r) ∈ first.ways before s ∨ (x, r) ∈ second.ways before s := List.mem_append

theorem mem_many {least : Nat} : (x, r) ∈ (many p least).ways before s ↔
    x ++ r = s ∧ (∀ c ∈ x, p c = true) ∧ least ≤ x.length := by
  simp only [ways_many, List.mem_map, List.mem_range, Prod.mk.injEq]
  constructor
  · rintro ⟨i, hi, rfl, rfl⟩
    have hle : (s.takeWhile p).length - i ≤ s.length :=
      (Nat.sub_le _ _).trans (List.takeWhile_prefix p).length_le
    refine ⟨List.take_append_drop _ _, fun c hc => ?_, by rw [List.length_take]; omega⟩
    have htake : s.take ((s.takeWhile p).length - i) = (s.takeWhile p).take ((s.takeWhile p).length - i) := by
      have hsplit : s.takeWhile p ++ s.dropWhile p = s := List.takeWhile_append_dropWhile
      calc s.take ((s.takeWhile p).length - i)
          = (s.takeWhile p ++ s.dropWhile p).take ((s.takeWhile p).length - i) := by rw [hsplit]
        _ = (s.takeWhile p).take ((s.takeWhile p).length - i) := List.take_append_of_le_length (Nat.sub_le _ _)
    rw [htake] at hc
    exact List.mem_takeWhile_imp (List.mem_of_mem_take hc)
  · rintro ⟨rfl, hx, hleast⟩
    have htake : (x ++ r).takeWhile p = x ++ r.takeWhile p := List.takeWhile_append_of_pos hx
    refine ⟨(r.takeWhile p).length, ?_, ?_, ?_⟩ <;> rw [htake, List.length_append]
    · omega
    · simp
    · simp

theorem mem_choice {es : List (Regex α)} (he : e ∈ es) (h : (x, r) ∈ e.ways before s) :
    (x, r) ∈ (choice es).ways before s := by
  induction es with
  | nil => exact nomatch he
  | cons d es ih =>
    cases es with
    | nil =>
      obtain rfl := List.mem_singleton.mp he
      exact h
    | cons =>
      rcases List.mem_cons.mp he with rfl | he
      · exact mem_alt.mpr (Or.inl h)
      · exact mem_alt.mpr (Or.inr (ih he))

theorem mem_literal {ps : List (α → Bool)} : (x, r) ∈ (literal ps).ways before s ↔
    List.Forall₂ (fun p c => p c = true) ps x ∧ x ++ r = s := by
  induction ps generalizing before s x with
  | nil =>
    rw [literal, mem_empty, List.forall₂_nil_left_iff]
    constructor
    · rintro ⟨rfl, rfl⟩
      exact ⟨rfl, rfl⟩
    · rintro ⟨rfl, rfl⟩
      exact ⟨rfl, rfl⟩
  | cons p ps ih =>
    rw [literal, mem_seq, List.forall₂_cons_left_iff]
    constructor
    · rintro ⟨_, t, z, hone, hrest, rfl⟩
      obtain ⟨c, hc, rfl, rfl⟩ := mem_one.mp hone
      obtain ⟨hall, rfl⟩ := ih.mp hrest
      exact ⟨⟨c, z, hc, hall, rfl⟩, rfl⟩
    · rintro ⟨⟨c, z, hc, hall, rfl⟩, rfl⟩
      exact ⟨[c], z ++ r, z, mem_one.mpr ⟨c, hc, rfl, rfl⟩, ih.mpr ⟨hall, rfl⟩, rfl⟩

theorem mem_literal_eq [DecidableEq α] {l : List α} :
    (x, r) ∈ (literal (l.map fun d c => decide (c = d))).ways before s ↔ x = l ∧ x ++ r = s := by
  have hsame : List.Forall₂ (fun p c => p c = true) (l.map fun d c => decide (c = d)) x ↔ x = l := by
    induction l generalizing x with
    | nil => rw [List.map_nil, List.forall₂_nil_left_iff]
    | cons d l ih =>
      simp only [List.map_cons, List.forall₂_cons_left_iff, decide_eq_true_eq, ih]
      constructor
      · rintro ⟨_, _, rfl, rfl, rfl⟩
        rfl
      · rintro rfl
        exact ⟨_, _, rfl, rfl, rfl⟩
  rw [mem_literal, hsame]

/-- A repetition prefers the longest run. -/
theorem head_many {least : Nat} (h : ((many p least).ways before s).head? = some (x, r)) :
    x = s.takeWhile p ∧ r = s.dropWhile p := by
  simp only [ways_many] at h
  cases hn : (s.takeWhile p).length + 1 - least with
  | zero =>
    rw [hn] at h
    exact nomatch h
  | succ =>
    rw [hn, List.range_succ_eq_map, List.map_cons, List.head?_cons, Option.some.injEq, Prod.mk.injEq, Nat.sub_zero] at h
    obtain ⟨rfl, rfl⟩ := h
    have hsplit : s.takeWhile p ++ s.dropWhile p = s := List.takeWhile_append_dropWhile
    constructor
    · calc s.take (s.takeWhile p).length
          = (s.takeWhile p ++ s.dropWhile p).take (s.takeWhile p).length := by rw [hsplit]
        _ = s.takeWhile p := List.take_left
    · calc s.drop (s.takeWhile p).length
          = (s.takeWhile p ++ s.dropWhile p).drop (s.takeWhile p).length := by rw [hsplit]
        _ = s.dropWhile p := List.drop_left

theorem ways_append (h : (x, r) ∈ e.ways before s) : x ++ r = s := by
  induction e generalizing before s x r with
  | empty =>
    obtain ⟨rfl, rfl⟩ := mem_empty.mp h
    rfl
  | one =>
    obtain ⟨c, -, rfl, rfl⟩ := mem_one.mp h
    rfl
  | many => exact (mem_many.mp h).1
  | boundary =>
    obtain ⟨-, rfl, rfl⟩ := mem_boundary.mp h
    rfl
  | seq first second ihf ihs =>
    obtain ⟨y, t, z, hy, hz, rfl⟩ := mem_seq.mp h
    rw [List.append_assoc, ihs hz, ihf hy]
  | alt first second ihf ihs => exact (mem_alt.mp h).elim ihf ihs

/-! ## Search -/

/-- `re.search` behind a letter: some position at which the expression matches. -/
def searchFrom (e : Regex α) : Option α → List α → Bool
  | before, [] => !(e.ways before []).isEmpty
  | before, c :: s => !(e.ways before (c :: s)).isEmpty || searchFrom e (some c) s

def search (e : Regex α) (s : List α) : Bool := e.searchFrom none s

/-- A part of the text is what the expression consumes there. -/
def Occurs (e : Regex α) (before : Option α) (s : List α) : Prop :=
  ∃ y x r, s = y ++ (x ++ r) ∧ (x, r) ∈ e.ways (lastOr before y) (x ++ r)

theorem occurs_cons {before : Option α} {c : α} :
    e.Occurs before (c :: s) ↔ e.ways before (c :: s) ≠ [] ∨ e.Occurs (some c) s := by
  constructor
  · rintro ⟨y, x, r, hs, hx⟩
    cases y with
    | nil =>
      rw [List.nil_append] at hs
      rw [lastOr_nil, ← hs] at hx
      exact Or.inl (List.ne_nil_of_mem hx)
    | cons d y =>
      obtain ⟨rfl, rfl⟩ := List.cons.inj hs
      rw [lastOr_cons] at hx
      exact Or.inr ⟨y, x, r, rfl, hx⟩
  · rintro (hways | ⟨y, x, r, rfl, hx⟩)
    · obtain ⟨⟨x, r⟩, hx⟩ := List.exists_mem_of_ne_nil _ hways
      have hs := ways_append hx
      exact ⟨[], x, r, hs.symm, by rwa [lastOr_nil, hs]⟩
    · exact ⟨c :: y, x, r, rfl, by rwa [lastOr_cons]⟩

theorem searchFrom_iff {before : Option α} : e.searchFrom before s = true ↔ e.Occurs before s := by
  induction s generalizing before with
  | nil =>
    simp only [searchFrom, Bool.not_eq_true', List.isEmpty_eq_false_iff]
    constructor
    · intro hways
      obtain ⟨⟨x, r⟩, hx⟩ := List.exists_mem_of_ne_nil _ hways
      have hs := ways_append hx
      exact ⟨[], x, r, hs.symm, by rwa [lastOr_nil, hs]⟩
    · rintro ⟨y, x, r, hs, hx⟩
      obtain ⟨rfl, hxr⟩ := List.append_eq_nil_iff.mp hs.symm
      rw [lastOr_nil, hxr] at hx
      exact List.ne_nil_of_mem hx
  | cons c s ih =>
    rw [occurs_cons, ← ih]
    simp [searchFrom]

theorem search_iff : e.search s = true ↔ e.Occurs none s := searchFrom_iff

/-! ## Expressions without boundaries -/

/-- The expression asks for no boundary. -/
def Local : Regex α → Prop
  | .boundary _ => False
  | .seq first second => first.Local ∧ second.Local
  | .alt first second => first.Local ∧ second.Local
  | _ => True

/-- The expression consumes the whole text. -/
def Accepts (e : Regex α) (x : List α) : Prop := (x, []) ∈ e.ways none x

/-- What a local expression consumes in one text it consumes in every text that begins so. -/
theorem Local.ways_of_ways (hl : e.Local) (h : (x, r) ∈ e.ways before s) (before' : Option α)
    (r' : List α) : (x, r') ∈ e.ways before' (x ++ r') := by
  induction e generalizing before s x r before' r' with
  | empty =>
    obtain ⟨rfl, -⟩ := mem_empty.mp h
    exact mem_empty.mpr ⟨rfl, rfl⟩
  | one =>
    obtain ⟨c, hc, rfl, -⟩ := mem_one.mp h
    exact mem_one.mpr ⟨c, hc, rfl, rfl⟩
  | many =>
    obtain ⟨-, hx, hleast⟩ := mem_many.mp h
    exact mem_many.mpr ⟨rfl, hx, hleast⟩
  | boundary => exact hl.elim
  | seq first second ihf ihs =>
    obtain ⟨y, t, z, hy, hz, rfl⟩ := mem_seq.mp h
    rw [List.append_assoc]
    exact mem_seq.mpr ⟨y, z ++ r', z, ihf hl.1 hy _ _, ihs hl.2 hz _ _, rfl⟩
  | alt first second ihf ihs => exact mem_alt.mpr ((mem_alt.mp h).imp (ihf hl.1 · _ _) (ihs hl.2 · _ _))

theorem Local.accepts (hl : e.Local) (h : (x, r) ∈ e.ways before s) : e.Accepts x := by
  have hx := hl.ways_of_ways h none []
  rwa [List.append_nil] at hx

theorem Accepts.ways (hl : e.Local) (h : e.Accepts x) (before : Option α) (r : List α) :
    (x, r) ∈ e.ways before (x ++ r) := hl.ways_of_ways h before r

/-- The letters that an expression consumes anywhere. -/
def letters : Regex α → α → Bool
  | .one p, c | .many p _, c => p c
  | .seq first second, c | .alt first second, c => first.letters c || second.letters c
  | _, _ => false

theorem letters_of_ways (h : (x, r) ∈ e.ways before s) : ∀ c ∈ x, e.letters c = true := by
  induction e generalizing before s x r with
  | empty =>
    obtain ⟨rfl, -⟩ := mem_empty.mp h
    exact nofun
  | one =>
    obtain ⟨c, hc, rfl, -⟩ := mem_one.mp h
    simpa [letters] using hc
  | many => exact (mem_many.mp h).2.1
  | boundary =>
    obtain ⟨-, rfl, -⟩ := mem_boundary.mp h
    exact nofun
  | seq first second ihf ihs =>
    obtain ⟨y, t, z, hy, hz, rfl⟩ := mem_seq.mp h
    intro c hc
    simp only [letters, Bool.or_eq_true]
    exact (List.mem_append.mp hc).imp (ihf hy c) (ihs hz c)
  | alt first second ihf ihs =>
    intro c hc
    simp only [letters, Bool.or_eq_true]
    exact (mem_alt.mp h).imp (ihf · c hc) (ihs · c hc)

/-- The expression can consume nothing. -/
def nullable : Regex α → Bool
  | .one _ => false
  | .many _ least => least == 0
  | .seq first second => first.nullable && second.nullable
  | .alt first second => first.nullable || second.nullable
  | _ => true

/-- The letters that an expression consumes first. -/
def heads : Regex α → α → Bool
  | .one p, c | .many p _, c => p c
  | .seq first second, c => first.heads c || first.nullable && second.heads c
  | .alt first second, c => first.heads c || second.heads c
  | _, _ => false

theorem nullable_of_ways (h : ([], r) ∈ e.ways before s) : e.nullable = true := by
  induction e generalizing before s r with
  | empty => rfl
  | one =>
    obtain ⟨c, -, hnil, -⟩ := mem_one.mp h
    exact nomatch hnil
  | many => simpa [nullable] using (mem_many.mp h).2.2
  | boundary => rfl
  | seq first second ihf ihs =>
    obtain ⟨y, t, z, hy, hz, hyz⟩ := mem_seq.mp h
    obtain ⟨rfl, rfl⟩ := List.append_eq_nil_iff.mp hyz.symm
    simp [nullable, ihf hy, ihs hz]
  | alt first second ihf ihs =>
    simp only [nullable, Bool.or_eq_true]
    exact (mem_alt.mp h).imp ihf ihs

theorem heads_of_ways {c : α} (h : (c :: x, r) ∈ e.ways before s) : e.heads c = true := by
  induction e generalizing before s x r with
  | empty => exact nomatch (mem_empty.mp h).1
  | one => exact letters_of_ways h c List.mem_cons_self
  | many => exact letters_of_ways h c List.mem_cons_self
  | boundary => exact nomatch letters_of_ways h c List.mem_cons_self
  | seq first second ihf ihs =>
    obtain ⟨y, t, z, hy, hz, hyz⟩ := mem_seq.mp h
    simp only [heads, Bool.or_eq_true, Bool.and_eq_true]
    cases y with
    | nil =>
      rw [List.nil_append] at hyz
      subst hyz
      exact Or.inr ⟨nullable_of_ways hy, ihs hz⟩
    | cons =>
      obtain ⟨rfl, -⟩ := List.cons.inj hyz
      exact Or.inl (ihf hy)
  | alt first second ihf ihs =>
    simp only [heads, Bool.or_eq_true]
    exact (mem_alt.mp h).imp ihf ihs

/-! ## One letter -/

/-- No part of the expression consumes the letter or takes it for one of a word. -/
def blind (q : α) : Regex α → Bool
  | .empty => true
  | .one p | .many p _ => !p q
  | .boundary word => !word q
  | .seq first second | .alt first second => first.blind q && second.blind q

theorem blind_of_ways {q : α} (he : e.blind q = true) (h : (x, r) ∈ e.ways before s) : q ∉ x := by
  have hletters : e.letters q = false := by
    clear h
    induction e with
    | empty => rfl
    | one => simpa [blind, letters] using he
    | many => simpa [blind, letters] using he
    | boundary => rfl
    | seq first second ihf ihs =>
      simp only [blind, Bool.and_eq_true] at he
      simp [letters, ihf he.1, ihs he.2]
    | alt first second ihf ihs =>
      simp only [blind, Bool.and_eq_true] at he
      simp [letters, ihf he.1, ihs he.2]
  intro hq
  rw [letters_of_ways h q hq] at hletters
  exact nomatch hletters

/-- In front of a letter to which it is blind an expression behaves as at the end of the text. -/
theorem ways_of_blind {q : α} (he : e.blind q = true) {before' : Option α}
    (hb : before = before' ∨ before = some q ∧ before' = none) (s y : List α) :
    e.ways before (s ++ q :: y) = (e.ways before' s).map fun m => (m.1, m.2 ++ q :: y) := by
  induction e generalizing before before' s with
  | empty => rfl
  | one p =>
    simp only [blind, Bool.not_eq_true'] at he
    cases s with
    | nil => simp [ways_one_nil, ways_one_cons, he]
    | cons c => by_cases hc : p c = true <;> simp [ways_one_cons, hc]
  | many p =>
    simp only [blind, Bool.not_eq_true'] at he
    have hlongest : (s ++ q :: y).takeWhile p = s.takeWhile p := by
      rw [List.takeWhile_append]
      split
      · next hall =>
        rw [(List.takeWhile_prefix p).eq_of_length hall, List.takeWhile_cons, he]
        simp
      · rfl
    have hle : (s.takeWhile p).length ≤ s.length := (List.takeWhile_prefix p).length_le
    simp only [ways_many, hlongest, List.map_map]
    apply List.map_congr_left
    intro i hi
    rw [Function.comp_apply, List.take_append_of_le_length (by omega), List.drop_append_of_le_length (by omega)]
  | boundary word =>
    simp only [blind, Bool.not_eq_true'] at he
    have hside : isBoundary word before (s ++ q :: y) = isBoundary word before' s := by
      have hbefore : before.any word = before'.any word := by
        rcases hb with rfl | ⟨rfl, rfl⟩
        · rfl
        · simpa using he
      unfold isBoundary
      rw [hbefore]
      cases s with
      | nil => simp [he]
      | cons => rfl
    simp only [ways_boundary, hside]
    split <;> rfl
  | seq first second ihf ihs =>
    simp only [blind, Bool.and_eq_true] at he
    have hnext : ∀ z : List α, lastOr before z = lastOr before' z ∨ lastOr before z = some q ∧
      lastOr before' z = none := by
      intro z
      cases z with
      | nil => exact hb
      | cons => exact Or.inl (by rw [lastOr_cons, lastOr_cons])
    simp only [ways_seq, ihf he.1 hb, List.flatMap_map, List.map_flatMap, ihs he.2 (hnext _), List.map_map]
    rfl
  | alt first second ihf ihs =>
    simp only [blind, Bool.and_eq_true] at he
    simp only [ways_alt, ihf he.1 hb, ihs he.2 hb, List.map_append]

/-- The expression can do with the letters of a list. -/
def within (allowed : List α) : Regex α → Bool
  | .one p => allowed.any p
  | .many p least => least == 0 || allowed.any p
  | .seq first second => first.within allowed && second.within allowed
  | .alt first second => first.within allowed || second.within allowed
  | _ => true

theorem within_of_ways {allowed : List α} (h : (x, r) ∈ e.ways before s) (hx : ∀ c ∈ x, c ∈ allowed) :
    e.within allowed = true := by
  induction e generalizing before s x r with
  | empty => rfl
  | one =>
    obtain ⟨c, hc, rfl, -⟩ := mem_one.mp h
    exact List.any_eq_true.mpr ⟨c, hx c List.mem_cons_self, hc⟩
  | many =>
    obtain ⟨-, hall, hleast⟩ := mem_many.mp h
    simp only [within, Bool.or_eq_true, beq_iff_eq]
    cases x with
    | nil => exact Or.inl (Nat.le_zero.mp hleast)
    | cons c => exact Or.inr (List.any_eq_true.mpr ⟨c, hx c List.mem_cons_self, hall c List.mem_cons_self⟩)
  | boundary => rfl
  | seq first second ihf ihs =>
    obtain ⟨y, t, z, hy, hz, rfl⟩ := mem_seq.mp h
    have hfirst := ihf hy fun c hc => hx c (List.mem_append_left z hc)
    have hsecond := ihs hz fun c hc => hx c (List.mem_append_right y hc)
    simp [within, hfirst, hsecond]
  | alt first second ihf ihs =>
    simp only [within, Bool.or_eq_true]
    exact (mem_alt.mp h).imp (ihf · hx) (ihs · hx)

end Regex

/-! ## Substitution -/

open Regex

/-- An expression in two parts: a match keeps the first one, the second one is replaced. -/
structure Rule (α : Type) where
  kept : Regex α
  removed : Regex α

namespace Rule

/-- The preferred match at a position: what is kept, what is removed, what is left. -/
def first (rule : Rule α) (before : Option α) (s : List α) : Option (List α × List α × List α) :=
  ((rule.kept.ways before s).flatMap fun m =>
    (rule.removed.ways (lastOr before m.1) m.2).map fun n => (m.1, n.1, n.2)).head?

/-- The letters of a match are passed over, the other ones are copied. -/
def scan (rule : Rule α) (replacement : List α) : Option α → Nat → List α → List α
  | _, _, [] => []
  | _, skip + 1, c :: s => rule.scan replacement (some c) skip s
  | before, 0, c :: s =>
    match rule.first before (c :: s) with
    | none => c :: rule.scan replacement (some c) 0 s
    | some (kept, removed, _) =>
      kept ++ replacement ++ rule.scan replacement (some c) (kept.length + removed.length - 1) s

/-- Every match from left to right is replaced. -/
def substitute (rule : Rule α) (replacement s : List α) : List α := rule.scan replacement none 0 s

variable {rule : Rule α} {before : Option α} {s kept removed rest : List α}

theorem mem_of_first (h : rule.first before s = some (kept, removed, rest)) :
    ∃ t, (kept, t) ∈ rule.kept.ways before s ∧
      (rule.removed.ways (lastOr before kept) t).head? = some (removed, rest) := by
  unfold first at h
  generalize rule.kept.ways before s = found at h
  induction found with
  | nil => exact nomatch h
  | cons m found ih =>
    rw [List.flatMap_cons, List.head?_append] at h
    cases hm : (rule.removed.ways (lastOr before m.1) m.2).head? with
    | none =>
      rw [List.head?_map, hm, Option.map_none, Option.none_or] at h
      obtain ⟨t, ht, hhead⟩ := ih h
      exact ⟨t, List.mem_cons_of_mem _ ht, hhead⟩
    | some =>
      rw [List.head?_map, hm, Option.map_some, Option.some_or] at h
      simp only [Option.some.injEq, Prod.mk.injEq] at h
      obtain ⟨rfl, rfl, rfl⟩ := h
      exact ⟨m.2, List.mem_cons_self, hm⟩

theorem first_append (h : rule.first before s = some (kept, removed, rest)) : kept ++ (removed ++ rest) = s := by
  obtain ⟨t, ht, hhead⟩ := mem_of_first h
  rw [ways_append (List.mem_of_mem_head? hhead), ways_append ht]

theorem first_ne_none {t : List α} (hk : (kept, t) ∈ rule.kept.ways before s)
    (hr : (removed, rest) ∈ rule.removed.ways (lastOr before kept) t) : rule.first before s ≠ none := by
  rw [first, Ne, List.head?_eq_none_iff, List.flatMap_eq_nil_iff]
  intro h
  have := List.map_eq_nil_iff.mp (h (kept, t) hk)
  rw [this] at hr
  exact nomatch hr

/-- A match consumes a letter. -/
def Consumes (rule : Rule α) : Prop :=
  ∀ before s kept removed rest, rule.first before s = some (kept, removed, rest) → removed ≠ []

/-- The removed parts of the matches that are replaced. -/
def removals (rule : Rule α) : Option α → Nat → List α → List (List α)
  | _, _, [] => []
  | _, skip + 1, c :: s => rule.removals (some c) skip s
  | before, 0, c :: s =>
    match rule.first before (c :: s) with
    | none => rule.removals (some c) 0 s
    | some (kept, removed, _) => removed :: rule.removals (some c) (kept.length + removed.length - 1) s

theorem scan_skip (rule : Rule α) (replacement : List α) (before : Option α) (x s : List α) :
    rule.scan replacement before x.length (x ++ s) = rule.scan replacement (lastOr before x) 0 s := by
  induction x generalizing before with
  | nil => rfl
  | cons c x ih => rw [List.length_cons, List.cons_append, scan, ih, lastOr_cons]

theorem removals_skip (rule : Rule α) (before : Option α) (x s : List α) :
    rule.removals before x.length (x ++ s) = rule.removals (lastOr before x) 0 s := by
  induction x generalizing before with
  | nil => rfl
  | cons c x ih => rw [List.length_cons, List.cons_append, removals, ih, lastOr_cons]

theorem scan_keep {c : α} (replacement : List α) (h : rule.first before (c :: s) = none) :
    rule.scan replacement before 0 (c :: s) = c :: rule.scan replacement (some c) 0 s ∧
      rule.removals before 0 (c :: s) = rule.removals (some c) 0 s := by
  simp only [scan, removals, h, and_self]

theorem scan_hit (hrule : rule.Consumes) (replacement : List α)
    (h : rule.first before s = some (kept, removed, rest)) :
    rule.scan replacement before 0 s =
        kept ++ (replacement ++ rule.scan replacement (lastOr before (kept ++ removed)) 0 rest) ∧
      rule.removals before 0 s = removed :: rule.removals (lastOr before (kept ++ removed)) 0 rest := by
  obtain rfl := first_append h
  have hne := hrule _ _ _ _ _ h
  cases hx : kept ++ removed with
  | nil => exact absurd (List.append_eq_nil_iff.mp hx).2 hne
  | cons d x =>
    have hlen : kept.length + removed.length - 1 = x.length := by
      rw [← List.length_append, hx, List.length_cons, Nat.add_sub_cancel]
    have hs : kept ++ (removed ++ rest) = d :: (x ++ rest) := by rw [← List.append_assoc, hx, List.cons_append]
    rw [hs] at h ⊢
    simp only [scan, removals, h, hlen, scan_skip, removals_skip, lastOr_cons, List.append_assoc, and_self]

/-- A substitution, one hit after the other. -/
theorem scan_induction (hrule : rule.Consumes) (replacement : List α)
    {motive : Option α → List α → List α → List (List α) → Prop} (done : ∀ before, motive before [] [] [])
    (keep : ∀ before c s out found, rule.first before (c :: s) = none → motive (some c) s out found →
      motive before (c :: s) (c :: out) found)
    (hit : ∀ before kept removed rest out found,
      rule.first before (kept ++ (removed ++ rest)) = some (kept, removed, rest) →
      motive (lastOr before (kept ++ removed)) rest out found →
      motive before (kept ++ (removed ++ rest)) (kept ++ (replacement ++ out)) (removed :: found))
    (before : Option α) (s : List α) :
    motive before s (rule.scan replacement before 0 s) (rule.removals before 0 s) := by
  induction hn : s.length using Nat.strong_induction_on generalizing before s with
  | _ n ih =>
    subst hn
    cases s with
    | nil => exact done before
    | cons c s =>
      cases hfirst : rule.first before (c :: s) with
      | none =>
        obtain ⟨hscan, hremovals⟩ := scan_keep replacement hfirst
        rw [hscan, hremovals]
        exact keep before c s _ _ hfirst (ih s.length (Nat.lt_succ_self _) _ s rfl)
      | some m =>
        obtain ⟨kept, removed, rest⟩ := m
        obtain ⟨hscan, hremovals⟩ := scan_hit hrule replacement hfirst
        have hne := List.length_pos_of_ne_nil (hrule _ _ _ _ _ hfirst)
        have hs := first_append hfirst
        have hlt : rest.length < (c :: s).length := by
          rw [← hs, List.length_append, List.length_append]
          omega
        rw [hscan, hremovals, ← hs]
        rw [← hs] at hfirst
        exact hit before kept removed rest _ _ hfirst (ih rest.length hlt _ rest rfl)

end Rule

/-- The text `out` is what the substitution makes of `s`. -/
inductive Rewritten (rule : Rule α) (replacement : List α) : Option α → List α → List α → Prop where
  | done (before : Option α) : Rewritten rule replacement before [] []
  | keep {before : Option α} {c : α} {s out : List α} (hc : rule.first before (c :: s) = none)
      (h : Rewritten rule replacement (some c) s out) : Rewritten rule replacement before (c :: s) (c :: out)
  | hit {before : Option α} {kept removed rest out : List α}
      (hc : rule.first before (kept ++ (removed ++ rest)) = some (kept, removed, rest))
      (h : Rewritten rule replacement (lastOr before (kept ++ removed)) rest out) :
      Rewritten rule replacement before (kept ++ (removed ++ rest)) (kept ++ (replacement ++ out))

section

variable {rule : Rule α} {replacement : List α} {before : Option α} {s out : List α}

theorem Rule.scan_rewritten (hrule : rule.Consumes) (replacement : List α) (before : Option α) (s : List α) :
    Rewritten rule replacement before s (rule.scan replacement before 0 s) :=
  Rule.scan_induction hrule _ (motive := fun before s out _ => Rewritten rule replacement before s out) .done
    (fun _ _ _ _ _ hc h => .keep hc h) (fun _ _ _ _ _ _ hc h => .hit hc h) before s

theorem Rule.substitute_rewritten (hrule : rule.Consumes) (replacement s : List α) :
    Rewritten rule replacement none s (rule.substitute replacement s) := scan_rewritten hrule _ _ _

theorem Rewritten.eq_self (h : Rewritten rule replacement before s out)
    (hsame : ∀ pre kept removed rest, s = pre ++ (kept ++ (removed ++ rest)) →
      rule.first (lastOr before pre) (kept ++ (removed ++ rest)) = some (kept, removed, rest) →
      removed = replacement) : out = s := by
  induction h with
  | done => rfl
  | @keep before c s out hc h ih =>
    rw [ih fun pre kept removed rest hs hfirst => ?_]
    refine hsame (c :: pre) kept removed rest (by rw [hs, List.cons_append]) ?_
    rwa [lastOr_cons]
  | @hit before kept removed rest out hc h ih =>
    rw [hsame [] kept removed rest rfl hc, ih fun pre kept' removed' rest' hs hfirst => ?_]
    refine hsame (kept ++ (removed ++ pre)) kept' removed' rest' (by rw [hs]; simp) ?_
    rwa [← List.append_assoc, lastOr_append]

/-- Up to the first mark of a replacement the text is the one before the substitution; there the same letter
follows, or the removed part of a match. -/
theorem Rewritten.common {mark : α} {body x out' : List α} (h : Rewritten rule (mark :: body) before s out)
    (hx : mark ∉ x) (hout : out = x ++ out') :
    ∃ s', s = x ++ s' ∧ (s'.head? = out'.head? ∨ ∃ pre kept removed rest, x = pre ++ kept ∧
      s' = removed ++ rest ∧
        rule.first (lastOr before pre) (kept ++ (removed ++ rest)) = some (kept, removed, rest)) := by
  induction h generalizing x with
  | done =>
    obtain ⟨rfl, rfl⟩ := List.append_eq_nil_iff.mp hout.symm
    exact ⟨[], rfl, Or.inl rfl⟩
  | @keep before c s out hc h ih =>
    cases x with
    | nil =>
      rw [List.nil_append] at hout
      exact ⟨c :: s, rfl, Or.inl (by rw [← hout]; rfl)⟩
    | cons =>
      obtain ⟨rfl, hrest⟩ := List.cons.inj hout
      obtain ⟨s', rfl, hs'⟩ := ih (fun hm => hx (List.mem_cons_of_mem _ hm)) hrest
      refine ⟨s', rfl, hs'.imp_right ?_⟩
      rintro ⟨pre, kept, removed, rest, rfl, rfl, hfirst⟩
      exact ⟨c :: pre, kept, removed, rest, rfl, rfl, by rwa [lastOr_cons]⟩
  | @hit before kept removed rest out hc =>
    rcases List.append_eq_append_iff.mp hout with ⟨k2, rfl, hk2⟩ | ⟨k2, rfl, hk2⟩
    · cases k2 with
      | nil =>
        rw [List.append_nil]
        exact ⟨removed ++ rest, rfl, Or.inr ⟨[], kept, removed, rest, rfl, rfl, hc⟩⟩
      | cons =>
        obtain ⟨rfl, -⟩ := List.cons.inj hk2
        exact absurd (by simp) hx
    · cases k2 with
      | nil =>
        rw [List.append_nil]
        exact ⟨removed ++ rest, rfl, Or.inr ⟨[], x, removed, rest, rfl, rfl, by rwa [List.append_nil] at hc⟩⟩
      | cons d k2 =>
        refine ⟨d :: k2 ++ (removed ++ rest), by simp, Or.inl ?_⟩
        rw [hk2]
        rfl

/-- Where matches keep nothing, the text up to the first mark is copied. -/
theorem Rewritten.split {mark : α} {body x out' : List α} (h : Rewritten rule (mark :: body) before s out)
    (hkept : rule.kept = .empty) (hx : mark ∉ x) (hout : out = x ++ out') :
    ∃ s', s = x ++ s' ∧ Rewritten rule (mark :: body) (lastOr before x) s' out' := by
  induction h generalizing x with
  | done =>
    obtain ⟨rfl, rfl⟩ := List.append_eq_nil_iff.mp hout.symm
    exact ⟨[], rfl, .done _⟩
  | @keep before c s out hc h ih =>
    cases x with
    | nil =>
      obtain rfl : c :: out = out' := hout
      exact ⟨c :: s, rfl, .keep hc h⟩
    | cons =>
      obtain ⟨rfl, hrest⟩ := List.cons.inj hout
      obtain ⟨s', rfl, hs'⟩ := ih (fun hm => hx (List.mem_cons_of_mem _ hm)) hrest
      exact ⟨s', rfl, by rwa [lastOr_cons]⟩
  | @hit before kept removed rest out hc h =>
    obtain ⟨t, hway, -⟩ := Rule.mem_of_first hc
    rw [hkept] at hway
    obtain ⟨rfl, -⟩ := mem_empty.mp hway
    cases x with
    | nil =>
      obtain rfl : mark :: body ++ out = out' := hout
      exact ⟨_, rfl, .hit hc h⟩
    | cons =>
      obtain ⟨rfl, -⟩ := List.cons.inj hout
      exact absurd List.mem_cons_self hx

theorem Rewritten.copy {y : List α} (h : Rewritten rule replacement before (y ++ s) out)
    (hy : ∀ c ∈ y, ∀ before t, rule.first before (c :: t) = none) :
    ∃ out', out = y ++ out' ∧ Rewritten rule replacement (lastOr before y) s out' := by
  induction y generalizing before out with
  | nil => exact ⟨out, rfl, h⟩
  | cons c y ih =>
    generalize ht : c :: y ++ s = t at h
    cases h with
    | done => exact nomatch ht
    | keep hc h =>
      obtain ⟨rfl, rfl⟩ := List.cons.inj ht
      obtain ⟨out', rfl, hout'⟩ := ih h fun d hd => hy d (List.mem_cons_of_mem _ hd)
      exact ⟨out', rfl, by rwa [lastOr_cons]⟩
    | hit hc =>
      rw [← ht, List.cons_append, hy c List.mem_cons_self] at hc
      exact nomatch hc

end

end AgentFabric.Lib
