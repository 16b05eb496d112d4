import Mathlib.Data.List.Forall2
import Mathlib.Data.List.Induction

/-!
# Hash chains

Entries that each name the hash of the entry before and carry a hash of it together with their own body.
-/

namespace AgentFabric.Lib

/-! ## Interleaved chains -/

section Log

variable {α κ η : Type} [DecidableEq κ] (owner : α → κ) (prev hash : α → η) (zero : η)

def lastHash (log : List α) (k : κ) : η := ((log.filter fun e => decide (owner e = k)).getLast?.map hash).getD zero

/-- Every entry names the last hash of its owner, and has a hash that is new. -/
inductive ChainLog : List α → Prop where
  | nil : ChainLog []
  | snoc {log : List α} {e : α} (h : ChainLog log) (hprev : prev e = lastHash owner hash zero log (owner e))
      (hzero : hash e ≠ zero) (hnew : ∀ o ∈ log, hash o ≠ hash e) : ChainLog (log ++ [e])

variable {owner prev hash zero} {log : List α} {e : α} {k : κ}

theorem lastHash_concat_self (log : List α) (e : α) : lastHash owner hash zero (log ++ [e]) (owner e) = hash e := by
  simp [lastHash, List.filter_append]

theorem lastHash_concat_ne (log : List α) (h : owner e ≠ k) :
    lastHash owner hash zero (log ++ [e]) k = lastHash owner hash zero log k := by
  simp [lastHash, List.filter_append, h]

theorem lastHash_cases (owner : α → κ) (hash : α → η) (zero : η) (log : List α) (k : κ) :
    ((∀ o ∈ log, owner o ≠ k) ∧ lastHash owner hash zero log k = zero) ∨
      ∃ o ∈ log, owner o = k ∧ lastHash owner hash zero log k = hash o := by
  cases h : (log.filter fun e => decide (owner e = k)).getLast? with
  | none =>
    have hnil := List.getLast?_eq_none_iff.mp h
    refine Or.inl ⟨fun o ho heq => ?_, by simp [lastHash, h]⟩
    have hmem : o ∈ log.filter fun e => decide (owner e = k) := List.mem_filter.mpr ⟨ho, decide_eq_true heq⟩
    rw [hnil] at hmem
    cases hmem
  | some o =>
    have hmem := List.mem_filter.mp (List.mem_of_getLast? h)
    exact Or.inr ⟨o, hmem.1, of_decide_eq_true hmem.2, by simp [lastHash, h]⟩

theorem ChainLog.hash_ne_zero (h : ChainLog owner prev hash zero log) (he : e ∈ log) : hash e ≠ zero := by
  induction h with
  | nil => cases he
  | snoc _ _ hzero _ ih =>
    rcases List.mem_append.mp he with he | he
    · exact ih he
    · exact List.mem_singleton.mp he ▸ hzero

theorem ChainLog.hash_inj (h : ChainLog owner prev hash zero log) {o : α} (he : e ∈ log) (ho : o ∈ log)
    (heq : hash e = hash o) : e = o := by
  induction h with
  | nil => cases he
  | snoc _ _ _ hnew ih =>
    rcases List.mem_append.mp he with he | he <;> rcases List.mem_append.mp ho with ho | ho
    · exact ih he ho
    · exact absurd (List.mem_singleton.mp ho ▸ heq) (hnew e he)
    · exact absurd (List.mem_singleton.mp he ▸ heq.symm) (hnew o ho)
    · rw [List.mem_singleton.mp he, List.mem_singleton.mp ho]

theorem ChainLog.prev_cases (h : ChainLog owner prev hash zero log) (he : e ∈ log) :
    prev e = zero ∨ ∃ o ∈ log, owner o = owner e ∧ prev e = hash o := by
  induction h with
  | nil => cases he
  | @snoc log new _ hprev _ _ ih =>
    rcases List.mem_append.mp he with he | he
    · rcases ih he with h | ⟨o, ho, h⟩
      · exact Or.inl h
      · exact Or.inr ⟨o, List.mem_append_left _ ho, h⟩
    · obtain rfl := List.mem_singleton.mp he
      rw [hprev]
      rcases lastHash_cases owner hash zero log (owner e) with ⟨-, h⟩ | ⟨o, ho, howner, h⟩
      · exact Or.inl h
      · exact Or.inr ⟨o, List.mem_append_left _ ho, howner, h⟩

/-- **The last hash of an owner is not yet named**: an entry that names the same hash is the first one of another owner,
and the owner has no entry. -/
theorem ChainLog.prev_eq_last (h : ChainLog owner prev hash zero log) (he : e ∈ log)
    (heq : prev e = lastHash owner hash zero log k) : (∀ o ∈ log, owner o ≠ k) ∧ prev e = zero := by
  induction h with
  | nil => cases he
  | @snoc log new hlog hprev hzero hnew ih =>
    by_cases hk : owner new = k
    · -- the last hash is new, so that no entry names it
      subst hk
      rw [lastHash_concat_self] at heq
      have hold : prev e = zero ∨ ∃ o ∈ log, prev e = hash o := by
        rcases List.mem_append.mp he with he | he
        · rcases hlog.prev_cases he with h | ⟨o, ho, -, h⟩
          · exact Or.inl h
          · exact Or.inr ⟨o, ho, h⟩
        · obtain rfl := List.mem_singleton.mp he
          rw [hprev]
          rcases lastHash_cases owner hash zero log (owner e) with ⟨-, h⟩ | ⟨o, ho, -, h⟩
          · exact Or.inl h
          · exact Or.inr ⟨o, ho, h⟩
      rcases hold with h | ⟨o, ho, h⟩
      · exact absurd (heq.symm.trans h) hzero
      · exact absurd (h.symm.trans heq) (hnew o ho)
    · rw [lastHash_concat_ne log hk] at heq
      rcases List.mem_append.mp he with he | he
      · obtain ⟨hnone, h⟩ := ih he heq
        refine ⟨fun o ho => ?_, h⟩
        rcases List.mem_append.mp ho with ho | ho
        · exact hnone o ho
        · exact List.mem_singleton.mp ho ▸ hk
      · -- two owners have the same last hash, so that neither has an entry
        obtain rfl := List.mem_singleton.mp he
        rw [hprev] at heq ⊢
        rcases lastHash_cases owner hash zero log k with ⟨hnone, h⟩ | ⟨o, ho, howner, h⟩
        · refine ⟨fun o ho => ?_, heq.trans h⟩
          rcases List.mem_append.mp ho with ho | ho
          · exact hnone o ho
          · exact List.mem_singleton.mp ho ▸ hk
        · rcases lastHash_cases owner hash zero log (owner e) with ⟨-, h'⟩ | ⟨o', ho', howner', h'⟩
          · exact absurd (h.symm.trans (heq.symm.trans h')) (hlog.hash_ne_zero ho)
          · have hsame := hlog.hash_inj ho' ho (h'.symm.trans (heq.trans h))
            exact absurd (howner'.symm.trans (hsame ▸ howner)) hk

end Log

/-! ## One chain -/

section Chain

variable {α β η : Type} (prev hash : α → η) (digest : η → β → η) (body : α → β)

/-- Every entry names the hash before it, and hashes it together with its body. -/
def Linked : η → List α → Prop
  | _, [] => True
  | p, e :: es => prev e = p ∧ hash e = digest p (body e) ∧ Linked (hash e) es

/-- The hash that a chain ends in. -/
def endHash (p : η) (es : List α) : η := (es.getLast?.map hash).getD p

/-- The hash function is injective on the hashes in `A` and the bodies in `B`, gives hashes in `A`, and never the hash
that a chain begins with. -/
structure DigestLaws (A : η → Prop) (B : β → Prop) (zero : η) : Prop where
  zero_mem : A zero
  closed : ∀ p b, A (digest p b)
  ne_zero : ∀ p b, digest p b ≠ zero
  inj : ∀ p q b c, A p → A q → B b → B c → digest p b = digest q c → p = q ∧ b = c

/-- The entries agree in what is hashed. -/
structure SameEntry (e e' : α) : Prop where
  prev : prev e = prev e'
  hash : hash e = hash e'
  body : body e = body e'

variable {prev hash digest body} {p zero : η} {es es' : List α} {e : α} {A : η → Prop} {B : β → Prop}

theorem endHash_cons (p : η) (e : α) (es : List α) : endHash hash p (e :: es) = endHash hash (hash e) es := by
  cases es with
  | nil => rfl
  | cons => simp [endHash, List.getLast?_cons]

theorem endHash_concat (p : η) (es : List α) (e : α) : endHash hash p (es ++ [e]) = hash e := by simp [endHash]

theorem linked_concat : Linked prev hash digest body p (es ++ [e]) ↔ Linked prev hash digest body p es ∧
    prev e = endHash hash p es ∧ hash e = digest (endHash hash p es) (body e) := by
  induction es generalizing p with
  | nil => simp [Linked, endHash]
  | cons d es ih => simp only [List.cons_append, Linked, ih, endHash_cons, and_assoc]

theorem Linked.take (h : Linked prev hash digest body p es) (n : Nat) : Linked prev hash digest body p (es.take n) := by
  induction es generalizing p n with
  | nil => simpa using h
  | cons d es ih =>
    cases n with
    | zero => trivial
    | succ n => exact ⟨h.1, h.2.1, ih h.2.2 n⟩

theorem Linked.endHash_mem (h : Linked prev hash digest body p es) (hlaws : DigestLaws digest A B zero) (hp : A p) :
    A (endHash hash p es) := by
  rcases List.eq_nil_or_concat' es with rfl | ⟨es, e, rfl⟩
  · exact hp
  · rw [endHash_concat, (linked_concat.mp h).2.2]
    exact hlaws.closed _ _

/-- **A chain is determined by its last hash.** -/
theorem Linked.same (hlaws : DigestLaws digest A B zero) (h : Linked prev hash digest body zero es)
    (h' : Linked prev hash digest body zero es') (hes : ∀ e ∈ es, B (body e)) (hes' : ∀ e ∈ es', B (body e))
    (hend : endHash hash zero es = endHash hash zero es') : List.Forall₂ (SameEntry prev hash body) es es' := by
  induction es using List.reverseRecOn generalizing es' with
  | nil =>
    rcases List.eq_nil_or_concat' es' with rfl | ⟨es', e', rfl⟩
    · exact .nil
    · rw [endHash_concat, (linked_concat.mp h').2.2] at hend
      exact absurd hend.symm (hlaws.ne_zero _ _)
  | append_singleton es e ih =>
    obtain ⟨hlinked, hprev, hhash⟩ := linked_concat.mp h
    rcases List.eq_nil_or_concat' es' with rfl | ⟨es', e', rfl⟩
    · rw [endHash_concat, hhash] at hend
      exact absurd hend (hlaws.ne_zero _ _)
    · obtain ⟨hlinked', hprev', hhash'⟩ := linked_concat.mp h'
      rw [endHash_concat, endHash_concat] at hend
      obtain ⟨hp, hbody⟩ := hlaws.inj _ _ _ _ (hlinked.endHash_mem hlaws hlaws.zero_mem)
        (hlinked'.endHash_mem hlaws hlaws.zero_mem) (hes e (by simp)) (hes' e' (by simp))
        (hhash.symm.trans (hend.trans hhash'))
      have hrest := ih hlinked hlinked' (fun d hd => hes d (List.mem_append_left _ hd))
        (fun d hd => hes' d (List.mem_append_left _ hd)) hp
      exact List.rel_append hrest (.cons ⟨hprev.trans (hp.trans hprev'.symm), hend, hbody⟩ .nil)

theorem Linked.same_take (hlaws : DigestLaws digest A B zero) (h : Linked prev hash digest body zero es)
    (h' : Linked prev hash digest body zero es') (hes : ∀ e ∈ es, B (body e)) (hes' : ∀ e ∈ es', B (body e))
    (hend : endHash hash zero es' = zero ∨ ∃ e ∈ es, endHash hash zero es' = hash e) :
    ∃ n, List.Forall₂ (SameEntry prev hash body) (es.take n) es' := by
  obtain ⟨n, hn⟩ : ∃ n, endHash hash zero (es.take n) = endHash hash zero es' := by
    rcases hend with hzero | ⟨e, he, hhash⟩
    · exact ⟨0, hzero.symm⟩
    · obtain ⟨i, hi, rfl⟩ := List.getElem_of_mem he
      refine ⟨i + 1, ?_⟩
      rw [List.take_succ_eq_append_getElem hi, endHash_concat, hhash]
  exact ⟨n, (h.take n).same hlaws h' (fun d hd => hes d (List.mem_of_mem_take hd)) hes' hn⟩

end Chain

end AgentFabric.Lib
