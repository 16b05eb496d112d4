import AgentFabric.Lib.Replies

/-!
# What a program does by its own past

A law that every call of a program obeys, about the calls before it and their replies.
-/

namespace AgentFabric.Lib

namespace Prog

variable {C : Type} {R : C → Type} {α β ε : Type} {law : List (Σ c, R c) → C → Prop}

/-- Every call obeys the law about the past, and the result satisfies `Q` about the whole past. -/
def Heeds (law : List (Σ c, R c) → C → Prop) (Q : List (Σ c, R c) → α → Prop) :
    List (Σ c, R c) → Prog C R α → Prop
  | past, ret a => Q past a
  | past, call c next => law past c ∧ ∀ r, Heeds law Q (past ++ [⟨c, r⟩]) (next r)

namespace Heeds

variable {Q : List (Σ c, R c) → α → Prop} {Q' : List (Σ c, R c) → β → Prop} {past : List (Σ c, R c)}

theorem bind {p : Prog C R α} {f : α → Prog C R β} (hp : Heeds law Q past p)
    (hf : ∀ past a, Q past a → Heeds law Q' past (f a)) : Heeds law Q' past (p.bind f) := by
  induction p generalizing past with
  | ret a => exact hf past a hp
  | call c next ih => exact ⟨hp.1, fun r => ih r (hp.2 r)⟩

theorem mono {Q₂ : List (Σ c, R c) → α → Prop} {p : Prog C R α} (hp : Heeds law Q past p)
    (hq : ∀ past a, Q past a → Q₂ past a) : Heeds law Q₂ past p := by
  induction p generalizing past with
  | ret a => exact hq past a hp
  | call c next ih => exact ⟨hp.1, fun r => ih r (hp.2 r)⟩

theorem raising_bind {Q : List (Σ c, R c) → Except ε α → Prop} {Q' : List (Σ c, R c) → Except ε β → Prop}
    {p : Raising ε C R α} {f : α → Raising ε C R β} (hp : Heeds law Q past p.run)
    (hf : ∀ past a, Q past (.ok a) → Heeds law Q' past (f a).run)
    (he : ∀ past e, Q past (.error e) → Q' past (.error e)) : Heeds law Q' past (p >>= f).run := by
  refine bind hp fun past x hx => ?_
  cases x with
  | ok a => exact hf past a hx
  | error e => exact he past e hx

theorem of_avoids {p : Prog C R α}
    (h : ∀ final, past ⊆ final → p.Avoids (fun c r => ⟨c, r⟩ ∈ final) (fun c => ¬ law final c) (Q final)) :
    Heeds law Q past p := by
  induction p generalizing past with
  | ret => exact h past (List.Subset.refl past)
  | call c next ih =>
    refine ⟨not_not.mp (h past (List.Subset.refl past)).1, fun r => ih r fun final hfinal => ?_⟩
    exact (h final fun e he => hfinal (List.mem_append_left _ he)).2 r
      (hfinal (List.mem_append_right _ (List.mem_singleton.mpr rfl)))

end Heeds

/-- After these calls with these replies, `p` is left of the program. -/
inductive Leads : Prog C R α → List (Σ c, R c) → Prog C R α → Prop
  | here (p : Prog C R α) : Leads p [] p
  | step (c : C) (next : R c → Prog C R α) (r : R c) {past : List (Σ c, R c)} {p : Prog C R α}
      (rest : Leads (next r) past p) : Leads (call c next) (⟨c, r⟩ :: past) p

theorem Leads.snoc {q : Prog C R α} {past : List (Σ c, R c)} {c : C} {next : R c → Prog C R α}
    (h : Leads q past (call c next)) (r : R c) : Leads q (past ++ [⟨c, r⟩]) (next r) := by
  generalize hp : call c next = p at h
  induction h with
  | here =>
    subst hp
    exact .step c next r (.here _)
  | step c' next' r' _ ih => exact .step c' next' r' (ih hp)

theorem Heeds.leads {Q : List (Σ c, R c) → α → Prop} {q p : Prog C R α} {before past : List (Σ c, R c)}
    (h : Heeds law Q before q) (hl : Leads q past p) : Heeds law Q (before ++ past) p := by
  induction hl generalizing before with
  | here => simpa using h
  | step c next r _ ih =>
    rw [List.append_cons]
    exact ih (h.2 r)

end Prog

/-! ## The past of a program under way -/

section

variable {ι σ C O E : Type} {R : C → Type} [DecidableEq ι] {M : Machine ι σ C R O} {entry : ι → E → Prog C R Unit}

/-- The calls of one thread, with their replies. -/
def callsOf (i : ι) (trace : List (Event ι C R)) : List (Σ c, R c) :=
  (trace.filter fun e => decide (e.thread = i)).map fun e => ⟨e.call, e.reply⟩

theorem callsOf_snoc_self (trace : List (Event ι C R)) (i : ι) (c : C) (r : R c) :
    callsOf i (trace ++ [⟨i, c, r⟩]) = callsOf i trace ++ [⟨c, r⟩] := by
  simp [callsOf]

theorem callsOf_snoc_ne {i j : ι} (h : j ≠ i) (trace : List (Event ι C R)) (c : C) (r : R c) :
    callsOf i (trace ++ [⟨j, c, r⟩]) = callsOf i trace := by
  simp [callsOf, h]

theorem mem_trace_of_callsOf {i : ι} {trace : List (Event ι C R)} {e : Σ c, R c} (h : e ∈ callsOf i trace) :
    ⟨i, e.1, e.2⟩ ∈ trace := by
  obtain ⟨⟨j, c, r⟩, he, rfl⟩ := List.mem_map.mp h
  rw [List.mem_filter, decide_eq_true_eq] at he
  obtain ⟨hmem, rfl⟩ := he
  exact hmem

/-- The calls that the thread `i` has made since it was started with `e` are `past`. -/
def Serving (M : Machine ι σ C R O) (entry : ι → E → Prog C R Unit) (s : σ) (moves : List (Move ι E O)) (i : ι) (e : E)
    (past : List (Σ c, R c)) : Prop :=
  ∃ before after, moves = before ++ .start i e :: after ∧
    ((Pool.quiet ⟨s, []⟩).run M.traced entry before).thread i = none ∧
    callsOf i ((Pool.quiet ⟨s, []⟩).run M.traced entry moves).shared.trace =
      callsOf i ((Pool.quiet ⟨s, []⟩).run M.traced entry before).shared.trace ++ past

/-- **A program under way** is what its calls since its start left of it. -/
theorem Pool.thread_leads {s : σ} {moves : List (Move ι E O)} {i : ι} {p : Prog C R Unit}
    (h : ((Pool.quiet ⟨s, []⟩).run M.traced entry moves).thread i = some p) :
    ∃ e past, Serving M entry s moves i e past ∧ (entry i e).Leads past p := by
  induction moves using List.reverseRecOn generalizing p with
  | nil => cases h
  | append_singleton moves m ih =>
    have hkept : ∀ {q}, ((Pool.quiet ⟨s, []⟩).run M.traced entry moves).thread i = some q →
        ∀ more, callsOf i ((Pool.quiet ⟨s, []⟩).run M.traced entry (moves ++ [m])).shared.trace =
          callsOf i ((Pool.quiet ⟨s, []⟩).run M.traced entry moves).shared.trace ++ more →
        ∀ p, (∀ past e, (entry i e).Leads past q → (entry i e).Leads (past ++ more) p) →
        ∃ e past, Serving M entry s (moves ++ [m]) i e past ∧ (entry i e).Leads past p := by
      intro q hq more hcalls p hleads
      obtain ⟨e, past, ⟨before, after, hmoves, hfree, hpast⟩, hl⟩ := ih hq
      refine ⟨e, past ++ more, ⟨before, after ++ [m], by simp [hmoves], hfree, ?_⟩, hleads past e hl⟩
      rw [hcalls, hpast, List.append_assoc]
    have hsame : ((Pool.quiet ⟨s, []⟩).run M.traced entry moves).thread i = some p →
        callsOf i ((Pool.quiet ⟨s, []⟩).run M.traced entry (moves ++ [m])).shared.trace =
          callsOf i ((Pool.quiet ⟨s, []⟩).run M.traced entry moves).shared.trace →
        ∃ e past, Serving M entry s (moves ++ [m]) i e past ∧ (entry i e).Leads past p := by
      intro hp hcalls
      exact hkept hp [] (by simpa using hcalls) p fun past e hl => by simpa using hl
    rw [Pool.run_snoc] at h hsame hkept
    cases m with
    | start j e =>
      by_cases hj : j = i
      · subst hj
        cases hfree : ((Pool.quiet ⟨s, []⟩).run M.traced entry moves).thread j with
        | none =>
          simp only [Pool.move, hfree] at h
          rcases Pool.set_thread h with ⟨-, he⟩ | ⟨hne, -⟩
          · obtain rfl := Option.some.inj he
            refine ⟨e, [], ⟨moves, [], rfl, hfree, ?_⟩, .here _⟩
            rw [Pool.run_snoc]
            simp [Pool.move, hfree]
          · exact absurd rfl hne
        | some =>
          have hunmoved : ((Pool.quiet ⟨s, []⟩).run M.traced entry moves).move M.traced entry (.start j e) =
              (Pool.quiet ⟨s, []⟩).run M.traced entry moves := by simp only [Pool.move, hfree]
          rw [hunmoved] at h hsame
          exact hsame h rfl
      · have hthread : (((Pool.quiet ⟨s, []⟩).run M.traced entry moves).move M.traced entry (.start j e)).thread i =
            ((Pool.quiet ⟨s, []⟩).run M.traced entry moves).thread i := Pool.move_thread_ne _ hj
        rw [hthread] at h
        refine hsame h ?_
        simp only [Pool.move]
        split <;> rfl
    | drop j =>
      by_cases hj : j = i
      · subst hj
        simp [Pool.move, Pool.set] at h
      · have hthread : (((Pool.quiet ⟨s, []⟩).run M.traced entry moves).move M.traced entry (.drop j)).thread i =
            ((Pool.quiet ⟨s, []⟩).run M.traced entry moves).thread i := Pool.move_thread_ne _ hj
        rw [hthread] at h
        exact hsame h rfl
    | step j o =>
      by_cases hj : j = i
      · subst hj
        cases hrun : ((Pool.quiet ⟨s, []⟩).run M.traced entry moves).thread j with
        | none =>
          have hunmoved : ((Pool.quiet ⟨s, []⟩).run M.traced entry moves).move M.traced entry (.step j o) =
              (Pool.quiet ⟨s, []⟩).run M.traced entry moves := by simp only [Pool.move, hrun]
          rw [hunmoved, hrun] at h
          cases h
        | some q =>
          cases q with
          | ret =>
            have hunmoved : ((Pool.quiet ⟨s, []⟩).run M.traced entry moves).move M.traced entry (.step j o) =
                (Pool.quiet ⟨s, []⟩).run M.traced entry moves := by simp only [Pool.move, hrun]
            rw [hunmoved] at h hsame
            exact hsame h rfl
          | call c =>
            simp only [Pool.move, hrun] at h hkept
            rcases Pool.set_thread h with ⟨-, he⟩ | ⟨hne, -⟩
            · obtain rfl := Option.some.inj he
              exact hkept rfl [⟨c, _⟩] (callsOf_snoc_self _ j c _) _ fun past e hl => hl.snoc _
            · exact absurd rfl hne
      · have hthread : (((Pool.quiet ⟨s, []⟩).run M.traced entry moves).move M.traced entry (.step j o)).thread i =
            ((Pool.quiet ⟨s, []⟩).run M.traced entry moves).thread i := Pool.move_thread_ne _ hj
        rw [hthread] at h
        refine hsame h ?_
        simp only [Pool.move]
        split
        · exact callsOf_snoc_ne hj _ _ _
        · rfl

end

end AgentFabric.Lib
