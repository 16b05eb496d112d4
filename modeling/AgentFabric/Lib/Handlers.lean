import AgentFabric.Lib.Avoidance

/-!
# Handlers, and one program among others

Each call of a program is carried out by a program over other calls; outlines are kept by that.
-/

namespace AgentFabric.Lib

/-! ## Handlers -/

namespace Prog

variable {C C' : Type} {R : C → Type} {R' : C' → Type} {α β γ : Type}

theorem bind_assoc (p : Prog C R α) (f : α → Prog C R β) (f' : β → Prog C R γ) :
    (p.bind f).bind f' = p.bind fun a => (f a).bind f' := by
  induction p with
  | ret => rfl
  | call c next ih => exact congrArg (call c) (funext ih)

theorem all_true (p : Prog C R α) : p.All fun _ => True := by
  induction p with
  | ret => trivial
  | call c next ih => exact ⟨trivial, ih⟩

/-- Every call is carried out by a program over other calls. -/
def interp (handler : (c : C) → Prog C' R' (R c)) : Prog C R α → Prog C' R' α
  | ret a => ret a
  | call c next => (handler c).bind fun r => (next r).interp handler

theorem interp_bind (handler : (c : C) → Prog C' R' (R c)) (p : Prog C R α) (f : α → Prog C R β) :
    (p.bind f).interp handler = (p.interp handler).bind fun a => (f a).interp handler := by
  induction p with
  | ret => rfl
  | call c next ih =>
    show ((handler c).bind fun r => ((next r).bind f).interp handler) = _
    rw [interp, bind_assoc]
    exact congrArg (handler c).bind (funext ih)

theorem All.interp {P : C → Prop} {P' : C' → Prop} {handler : (c : C) → Prog C' R' (R c)} {p : Prog C R α}
    (hp : p.All P) (hh : ∀ c, P c → (handler c).All P') : (p.interp handler).All P' := by
  induction p with
  | ret => trivial
  | call c next ih => exact (hh c hp.1).bind fun r => ih r (hp.2 r)

end Prog

section

variable {ι σ C O E : Type} {R : C → Type}

section

variable {C' : Type} {R' : C' → Type} {M : Machine ι σ C' R' O} {I : σ → Prop} {G : ι → σ → σ → Prop} {i : ι} {α : Type}

theorem Outline.interp {P : C → Prop} {handler : (c : C) → Prog C' R' (R c)} {φ : σ → Prop} {p : Prog C R α}
    (hp : p.All P) (hh : ∀ c, P c → Outline M I G i φ (handler c) fun _ => φ) :
    Outline M I G i φ (p.interp handler) fun _ => φ := by
  induction p with
  | ret => exact fun _ _ h => h
  | call c next ih => exact Outline.bind (hh c hp.1) fun r => ih r (hp.2 r)

end

variable {M : Machine ι σ C R O} {I : σ → Prop} {G : ι → σ → σ → Prop} {i : ι}

/-! ## One program among others -/

/-- The program that a move concerns. -/
def Move.party : Move ι E O → ι
  | .start i _ | .step i _ | .drop i => i

variable [DecidableEq ι]

variable {entry : ι → E → Prog C R Unit}

/-- The other programs are not concerned. -/
theorem Pool.move_thread_ne (pool : Pool ι σ C R) {m : Move ι E O} (h : m.party ≠ i) :
    (pool.move M entry m).thread i = pool.thread i := by
  cases m with
  | start j =>
    have hj : i ≠ j := Ne.symm h
    simp only [Pool.move]
    split
    · simp [Pool.set, hj]
    · rfl
  | drop j =>
    have hj : i ≠ j := Ne.symm h
    simp [Pool.move, Pool.set, hj]
  | step j =>
    have hj : i ≠ j := Ne.symm h
    simp only [Pool.move]
    split
    · simp [Pool.set, hj]
    · rfl

theorem Pool.move_shared_party (entry : ι → E → Prog C R Unit) (pool : Pool ι σ C R) (m : Move ι E O) :
    (pool.move M entry m).shared = pool.shared ∨
      ∃ o c, (pool.move M entry m).shared = (M.act m.party pool.shared o c).2 := by
  cases m with
  | start =>
    simp only [Pool.move]
    split <;> exact Or.inl rfl
  | drop => exact Or.inl rfl
  | step j o =>
    simp only [Pool.move]
    split
    · exact Or.inr ⟨o, _, rfl⟩
    · exact Or.inl rfl

variable {pool : Pool ι σ C R}

/-- **One program among others.**  A program with an outline keeps it along a schedule that does not drop it, if every
move of the others keeps the invariant and respects what the program relies on. -/
theorem Pool.run_among {Q : Unit → σ → Prop} (moves : List (Move ι E O)) {p : Prog C R Unit} {φ : σ → Prop}
    (hp : pool.thread i = some p) (hI : I pool.shared) (hst : Stable I G i φ) (hφ : φ pool.shared)
    (hout : Outline M I G i φ p Q) (hdrop : .drop i ∉ moves)
    (hothers : ∀ before m after, moves = before ++ m :: after → m.party ≠ i → I (pool.run M entry before).shared →
      I (pool.run M entry (before ++ [m])).shared ∧
        G m.party (pool.run M entry before).shared (pool.run M entry (before ++ [m])).shared) :
    ∃ q ψ, (pool.run M entry moves).thread i = some q ∧ I (pool.run M entry moves).shared ∧
      ψ (pool.run M entry moves).shared ∧ Outline M I G i ψ q Q := by
  induction moves generalizing pool p φ with
  | nil => exact ⟨p, φ, hp, hI, hφ, hout⟩
  | cons m ms ih =>
    have hnext : ∀ {p' φ'}, (pool.move M entry m).thread i = some p' → I (pool.move M entry m).shared →
        Stable I G i φ' → φ' (pool.move M entry m).shared → Outline M I G i φ' p' Q → _ :=
      fun hp' hI' hst' hφ' hout' => ih hp' hI' hst' hφ' hout' (fun h => hdrop (List.mem_cons_of_mem m h))
        fun before m' after e => hothers (m :: before) m' after (by rw [e]; rfl)
    by_cases hparty : m.party = i
    · cases m with
      | drop => exact absurd (by rw [← hparty]; exact List.mem_cons_self) hdrop
      | start j e =>
        obtain rfl : j = i := hparty
        have hsame : pool.move M entry (.start j e) = pool := by simp only [Pool.move, hp]
        exact hnext (by rw [hsame]; exact hp) (by rw [hsame]; exact hI) hst (by rw [hsame]; exact hφ) hout
      | step j o =>
        obtain rfl : j = i := hparty
        cases p with
        | ret =>
          have hsame : pool.move M entry (.step j o) = pool := by simp only [Pool.move, hp]
          exact hnext (by rw [hsame]; exact hp) (by rw [hsame]; exact hI) hst (by rw [hsame]; exact hφ) hout
        | call c next =>
          obtain ⟨hI', _, ψ, hstψ, hψ, hrest⟩ := hout pool.shared o hI hφ
          have hthread : (pool.move M entry (.step j o)).thread j = some (next (M.act j pool.shared o c).1) := by
            simp [Pool.move, hp, Pool.set]
          have hshared : (pool.move M entry (.step j o)).shared = (M.act j pool.shared o c).2 := by
            simp [Pool.move, hp]
          exact hnext hthread (by rw [hshared]; exact hI') hstψ (by rw [hshared]; exact hψ) hrest
    · obtain ⟨hI', hg⟩ := hothers [] m ms rfl hparty hI
      exact hnext ((Pool.move_thread_ne pool hparty).trans hp) hI' hst
        (hst m.party _ _ hparty hI hI' hg hφ) hout

/-- The program has come to its end. -/
def Pool.finished (pool : Pool ι σ C R) (i : ι) : Bool :=
  match pool.thread i with
  | some (.ret _) => true
  | _ => false

omit [DecidableEq ι] in
theorem Pool.finished_iff : pool.finished i = true ↔ pool.thread i = some (.ret ()) := by
  unfold Pool.finished
  split
  · rename_i h
    exact ⟨fun _ => h, fun _ => rfl⟩
  · rename_i h
    exact ⟨fun h => (by cases h), fun hret => absurd hret (h ())⟩

theorem Pool.ends (entry : ι → E → Prog C R Unit) (o : O) {p : Prog C R Unit} (hp : pool.thread i = some p) :
    ∃ n, (pool.run M entry (List.replicate n (.step i o))).finished i = true := by
  induction p generalizing pool with
  | ret => exact ⟨0, Pool.finished_iff.mpr hp⟩
  | call c next ih =>
    have hthread : (pool.move M entry (.step i o)).thread i = some (next (M.act i pool.shared o c).1) := by
      simp [Pool.move, hp, Pool.set]
    obtain ⟨n, hn⟩ := ih _ hthread
    exact ⟨n + 1, hn⟩

/-- Every new event of a trace was made by a move, in the state before it. -/
theorem Pool.event_at {pool : Pool ι (Traced ι σ C R) C R} (moves : List (Move ι E O)) {e : Event ι C R}
    (he : e ∈ (pool.run M.traced entry moves).shared.trace) (hnew : e ∉ pool.shared.trace) :
    ∃ before m after o, moves = before ++ m :: after ∧
      (pool.run M.traced entry (before ++ [m])).shared =
        (M.traced.act e.thread (pool.run M.traced entry before).shared o e.call).2 ∧
      e.reply = (M.act e.thread (pool.run M.traced entry before).shared.state o e.call).1 := by
  induction moves using List.reverseRecOn with
  | nil => exact absurd he hnew
  | append_singleton moves m ih =>
    by_cases hold : e ∈ (pool.run M.traced entry moves).shared.trace
    · obtain ⟨before, m', after, o, rfl, hstep, hreply⟩ := ih hold
      exact ⟨before, m', after ++ [m], o, by simp, hstep, hreply⟩
    · rw [Pool.run_snoc] at he
      rcases Pool.move_shared_party (M := M.traced) entry (pool.run M.traced entry moves) m with
        hsame | ⟨o, c, hact⟩
      · exact absurd (hsame ▸ he) hold
      · rw [hact] at he
        rcases List.mem_append.mp he with he | he
        · exact absurd he hold
        · obtain rfl := List.mem_singleton.mp he
          exact ⟨moves, m, [], o, rfl, by rw [Pool.run_snoc]; exact hact, rfl⟩

end

end AgentFabric.Lib
