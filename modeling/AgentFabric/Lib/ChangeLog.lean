import Mathlib.Data.List.MinMax
import Mathlib.Data.List.Sort

/-!
# Logs of changes

A log to which a value is appended only where the newest entry differs from it, the newest entry being the one with
the greatest key.
-/

namespace AgentFabric.Lib

section

variable {α β K : Type*}

/-! ## The greatest key -/

section

variable [LinearOrder K]

theorem argmax_map (f : α → β) (key : β → K) (l : List α) :
    (l.map f).argmax key = (l.argmax fun a => key (f a)).map f := by
  induction l using List.reverseRecOn with
  | nil => rfl
  | append_singleton l a ih =>
    rw [List.map_append, List.map_singleton, List.argmax_concat, List.argmax_concat, ih]
    cases l.argmax fun a => key (f a) with
    | none => rfl
    | some =>
      simp only [Option.map_some]
      split <;> rfl

theorem argmax_of_increasing {key : α → K} {l : List α} (h : l.Pairwise fun a b => key a < key b) :
    l.argmax key = l.getLast? := by
  induction l using List.reverseRecOn with
  | nil => rfl
  | append_singleton l a ih =>
    obtain ⟨hl, -, hlast⟩ := List.pairwise_append.mp h
    rw [List.argmax_concat, ih hl, List.getLast?_concat]
    cases hb : l.getLast? with
    | none => rfl
    | some b =>
      have hlt : key b < key a := hlast b (List.mem_of_getLast? hb) a List.mem_cons_self
      simp only [hlt, if_true]

/-- The greatest key stands at the end of the sorted list. -/
theorem getLast?_mergeSort {key : α → K} {l : List α} (hinj : ∀ a ∈ l, ∀ b ∈ l, key a = key b → a = b) :
    (l.mergeSort fun a b => decide (key a ≤ key b)).getLast? = l.argmax key := by
  have hsorted : (l.mergeSort fun a b => decide (key a ≤ key b)).Pairwise fun a b => key a ≤ key b := by
    refine (List.pairwise_mergeSort ?_ ?_ l).imp fun h => of_decide_eq_true h
    · intro a b c hab hbc
      exact decide_eq_true ((of_decide_eq_true hab).trans (of_decide_eq_true hbc))
    · intro a b
      simpa only [Bool.or_eq_true, decide_eq_true_eq] using le_total (key a) (key b)
  cases hlast : (l.mergeSort fun a b => decide (key a ≤ key b)).getLast? with
  | none =>
    have hnil := List.getLast?_eq_none_iff.mp hlast
    have hl : l = [] := List.length_eq_zero_iff.mp (by rw [← List.length_mergeSort, hnil, List.length_nil])
    rw [hl, List.argmax_nil]
  | some x =>
    have hx : x ∈ l := List.mem_mergeSort.mp (List.mem_of_getLast? hlast)
    have hmax : ∀ y ∈ l, key y ≤ key x := by
      intro y hy
      obtain ⟨front, hfront⟩ := List.getLast?_eq_some_iff.mp hlast
      rw [hfront] at hsorted
      have hy' : y ∈ front ++ [x] := hfront ▸ List.mem_mergeSort.mpr hy
      rcases List.mem_append.mp hy' with hy' | hy'
      · exact (List.pairwise_append.mp hsorted).2.2 y hy' x List.mem_cons_self
      · rw [List.mem_singleton.mp hy']
    cases hm : l.argmax key with
    | none => exact absurd (List.argmax_eq_none.mp hm) (List.ne_nil_of_mem hx)
    | some m =>
      have hm' := List.argmax_mem hm
      rw [hinj x hx m hm' ((List.le_of_mem_argmax hx hm).antisymm (hmax m hm'))]

end

/-! ## Changes -/

section

variable (same : α → α → Prop) [DecidableRel same]

/-- The values that differ from the one before them, after a previous value if there was one. -/
def changesAfter : Option α → List α → List α
  | _, [] => []
  | prev, a :: l =>
    if prev.any fun b => decide (same b a) then changesAfter (some a) l else a :: changesAfter (some a) l

/-- The values that differ from the one before them. -/
def changes (l : List α) : List α := changesAfter same none l

variable {same}

theorem changesAfter_snoc (prev : Option α) (l : List α) (a : α) : changesAfter same prev (l ++ [a]) =
    changesAfter same prev l ++ if (l.getLast?.or prev).any fun b => decide (same b a) then [] else [a] := by
  induction l generalizing prev with
  | nil =>
    simp only [List.nil_append, changesAfter, List.getLast?_nil, Option.none_or]
    rfl
  | cons x l ih =>
    have hlast : (x :: l).getLast?.or prev = l.getLast?.or (some x) := by
      rw [List.getLast?_cons, Option.some_or]
      cases l.getLast? <;> rfl
    simp only [List.cons_append, changesAfter, ih, hlast]
    split <;> rfl

theorem changes_snoc (l : List α) (a : α) :
    changes same (l ++ [a]) = changes same l ++ if l.getLast?.any fun b => decide (same b a) then [] else [a] := by
  rw [changes, changesAfter_snoc, Option.or_none]
  rfl

variable {l : List α}

theorem changes_repeated {a b : α} (hb : l.getLast? = some b) (h : same b a) :
    changes same (l ++ [a]) = changes same l := by
  simp only [changes_snoc, hb, Option.any_some, h, decide_true, if_true, List.append_nil]

theorem changes_new {a : α} (h : ∀ b ∈ l.getLast?, ¬ same b a) :
    changes same (l ++ [a]) = changes same l ++ [a] := by
  have hfresh : (l.getLast?.any fun b => decide (same b a)) = false := by
    cases hb : l.getLast? with
    | none => rfl
    | some b => simpa using h b hb
  simp only [changes_snoc, hfresh, Bool.false_eq_true, if_false]

variable (equiv : Equivalence same)

include equiv

theorem changes_last {a : α} (h : l.getLast? = some a) :
    ∃ b, (changes same l).getLast? = some b ∧ same b a := by
  induction l using List.reverseRecOn generalizing a with
  | nil => exact nomatch h
  | append_singleton l x ih =>
    obtain rfl : x = a := by simpa using h
    by_cases hrep : ∃ b ∈ l.getLast?, same b x
    · obtain ⟨b, hb, hsame⟩ := hrep
      obtain ⟨c, hc, hcb⟩ := ih hb
      rw [changes_repeated hb hsame]
      exact ⟨c, hc, equiv.trans hcb hsame⟩
    · push Not at hrep
      rw [changes_new hrep, List.getLast?_concat]
      exact ⟨x, rfl, equiv.refl x⟩

theorem changes_last_iff {a : α} :
    (∃ b ∈ (changes same l).getLast?, same b a) ↔ ∃ b ∈ l.getLast?, same b a := by
  cases hlast : l.getLast? with
  | none =>
    rw [List.getLast?_eq_none_iff.mp hlast]
    rfl
  | some x =>
    obtain ⟨b, hb, hbx⟩ := changes_last equiv hlast
    rw [hb]
    constructor
    · rintro ⟨c, hc, h⟩
      obtain rfl := Option.some.inj hc
      exact ⟨x, rfl, equiv.trans (equiv.symm hbx) h⟩
    · rintro ⟨c, hc, h⟩
      obtain rfl := Option.some.inj hc
      exact ⟨b, rfl, equiv.trans hbx h⟩

end

/-! ## The log -/

section

variable [LinearOrder K] (key : α → K) (same : α → α → Prop) [DecidableRel same]

/-- A value that repeats the newest entry is not written again. -/
def record (log : List α) (a : α) : List α :=
  if (log.argmax key).any fun b => decide (same b a) then log else log ++ [a]

variable {key same}

variable {log l : List α}

theorem record_repeated {a b : α} (hb : log.argmax key = some b) (h : same b a) :
    record key same log a = log := by
  simp only [record, hb, Option.any_some, h, decide_true, if_true]

theorem record_new {a : α} (h : ∀ b ∈ log.argmax key, ¬ same b a) :
    record key same log a = log ++ [a] := by
  have hfresh : ((log.argmax key).any fun b => decide (same b a)) = false := by
    cases hb : log.argmax key with
    | none => rfl
    | some b => simpa using h b hb
  simp only [record, hfresh, Bool.false_eq_true, if_false]

/-- The keys of the changes increase. -/
def Increasing (key : α → K) (same : α → α → Prop) [DecidableRel same] (l : List α) : Prop :=
  (changes same l).Pairwise fun a b => key a < key b

variable (equiv : Equivalence same)

include equiv

theorem record_changes (h : Increasing key same l) (a : α) :
    record key same (changes same l) a = changes same (l ++ [a]) := by
  have hlast := changes_last_iff equiv (l := l) (a := a)
  rw [← argmax_of_increasing h] at hlast
  by_cases hrep : ∃ b ∈ l.getLast?, same b a
  · obtain ⟨c, hc, hca⟩ := hlast.mpr hrep
    obtain ⟨b, hb, hba⟩ := hrep
    rw [record_repeated hc hca, changes_repeated hb hba]
  · have hnew := mt hlast.mp hrep
    push Not at hrep hnew
    rw [record_new hnew, changes_new hrep]

omit equiv in
theorem Increasing.of_snoc {a : α} (h : Increasing key same (l ++ [a])) : Increasing key same l := by
  unfold Increasing at h
  rw [changes_snoc] at h
  exact (List.pairwise_append.mp h).1

/-- **The log is the list of the changes**, where their keys increase. -/
theorem foldl_record (h : Increasing key same l) : l.foldl (record key same) [] = changes same l := by
  induction l using List.reverseRecOn with
  | nil => rfl
  | append_singleton l a ih =>
    rw [List.foldl_append, ih h.of_snoc]
    exact record_changes equiv h.of_snoc a

omit equiv

/-- What recording a value does, given the value before it. -/
structure Recorded (key : α → K) (same : α → α → Prop) (log log' : List α) (last : Option α) (a : α) : Prop where
  repeated : ∀ b ∈ last, same b a → log' = log
  new : (∀ b ∈ last, ¬ same b a) → log' = log ++ [a]
  latest : ∃ b ∈ log'.argmax key, same b a

include equiv

/-- **A value is recorded as it should be** exactly if the keys of the changes still increase with it. -/
theorem recorded_iff_increasing (h : Increasing key same l) (a : α) :
    Recorded key same (changes same l) (record key same (changes same l) a) l.getLast? a ↔
      Increasing key same (l ++ [a]) := by
  rw [record_changes equiv h]
  by_cases hrep : ∃ b ∈ l.getLast?, same b a
  · obtain ⟨b, hb, hba⟩ := hrep
    have hsame : changes same (l ++ [a]) = changes same l := changes_repeated hb hba
    have hinc : Increasing key same (l ++ [a]) := by
      unfold Increasing
      rw [hsame]
      exact h
    refine ⟨fun _ => hinc, fun _ => ⟨fun _ _ _ => hsame, fun hnew => absurd hba (hnew b hb), ?_⟩⟩
    rw [hsame, argmax_of_increasing h]
    exact (changes_last_iff equiv).mpr ⟨b, hb, hba⟩
  · push Not at hrep
    have hnew : changes same (l ++ [a]) = changes same l ++ [a] := changes_new hrep
    constructor
    · intro hrec
      obtain ⟨b, hb, hba⟩ := hrec.latest
      unfold Increasing
      rw [hnew, List.argmax_concat, argmax_of_increasing h] at hb
      rw [hnew, List.pairwise_append]
      refine ⟨h, List.pairwise_singleton _ _, ?_⟩
      intro x hx y hy
      obtain rfl := List.mem_singleton.mp hy
      cases hlast : (changes same l).getLast? with
      | none =>
        rw [List.getLast?_eq_none_iff.mp hlast] at hx
        exact nomatch hx
      | some c =>
        rw [hlast] at hb
        have hle : key x ≤ key c :=
          List.le_of_mem_argmax hx ((argmax_of_increasing h).trans hlast)
        dsimp only at hb
        split at hb
        · next hlt => exact hle.trans_lt hlt
        · -- the newest entry would be one that the value differs from
          obtain rfl := Option.some.inj hb
          obtain ⟨d, hd, hda⟩ := (changes_last_iff equiv).mp ⟨c, hlast, hba⟩
          exact absurd hda (hrep d hd)
    · intro hinc
      refine ⟨fun b hb hba => absurd hba (hrep b hb), fun _ => hnew, a, ?_, equiv.refl a⟩
      rw [argmax_of_increasing hinc, hnew, List.getLast?_concat]
      rfl

end

/-! ## Steps of a run -/

theorem forall_splits_snoc {P : List α → α → Prop} {l : List α} {x : α} :
    (∀ pre a post, l ++ [x] = pre ++ a :: post → P pre a) ↔
      (∀ pre a post, l = pre ++ a :: post → P pre a) ∧ P l x := by
  constructor
  · intro h
    refine ⟨fun pre a post hl => h pre a (post ++ [x]) ?_, h l x [] rfl⟩
    rw [hl, List.append_assoc, List.cons_append]
  · rintro ⟨h, hx⟩ pre a post hsplit
    rcases List.eq_nil_or_concat post with rfl | ⟨front, y, rfl⟩
    · obtain ⟨rfl, rfl⟩ : l = pre ∧ x = a := by simpa using List.append_inj' hsplit rfl
      exact hx
    · rw [List.concat_eq_append, ← List.cons_append, ← List.append_assoc] at hsplit
      exact h pre a front (List.append_inj' hsplit rfl).1

end

end AgentFabric.Lib
