import Mathlib.Data.List.Sort

/-!
# Sorting by keys that determine the element

Where two elements that are both below each other are equal, a list sorts to the same list in every order in which it is
given.
-/

namespace AgentFabric.Lib

variable {α : Type} {le : α → α → Bool} {l l' : List α}

/-- Two orders of one list sort alike. -/
theorem mergeSort_eq_of_perm (trans : ∀ a b c, le a b → le b c → le a c) (total : ∀ a b, le a b || le b a)
    (antisymm : ∀ a ∈ l, ∀ b ∈ l, le a b → le b a → a = b) (h : l'.Perm l) : l'.mergeSort le = l.mergeSort le := by
  refine @List.Perm.eq_of_pairwise _ (fun a b => le a b = true) _ _ ?_ (List.pairwise_mergeSort trans total _)
    (List.pairwise_mergeSort trans total _) ?_
  · intro a b ha hb
    exact antisymm a (h.subset (List.mem_mergeSort.mp ha)) b (List.mem_mergeSort.mp hb)
  · exact (List.mergeSort_perm l' le).trans (h.trans (List.mergeSort_perm l le).symm)

/-- So do two lists with the same selected elements, as far as these are concerned. -/
theorem filter_mergeSort_eq {p : α → Bool} (trans : ∀ a b c, le a b → le b c → le a c)
    (total : ∀ a b, le a b || le b a) (antisymm : ∀ a ∈ l, ∀ b ∈ l, le a b → le b a → a = b)
    (h : (l'.filter p).Perm (l.filter p)) : (l'.mergeSort le).filter p = (l.mergeSort le).filter p := by
  have hsame : ((l'.mergeSort le).filter p).Perm ((l.mergeSort le).filter p) :=
    ((List.mergeSort_perm l' le).filter p).trans (h.trans ((List.mergeSort_perm l le).filter p).symm)
  refine @List.Perm.eq_of_pairwise _ (fun a b => le a b = true) _ _ ?_
    ((List.pairwise_mergeSort trans total l').filter p) ((List.pairwise_mergeSort trans total l).filter p) hsame
  intro a b ha hb
  have hmem : ∀ {c}, c ∈ (l.mergeSort le).filter p → c ∈ l := fun hc =>
    List.mem_mergeSort.mp (List.mem_filter.mp hc).1
  exact antisymm a (hmem (hsame.subset ha)) b (hmem hb)

end AgentFabric.Lib
