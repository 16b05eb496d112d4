import AgentFabric.Lib.Replies

/-!
# Executions of programs

The calls that a program makes, given the replies to them, and the result that it ends with.
-/

namespace AgentFabric.Lib.Prog

variable {C : Type} {R : C → Type} {α β : Type} {P : C → Prop}

/-- The calls of an execution are among those that the program can make. -/
theorem Executes.all {p : Prog C R α} {calls : List (Σ c, R c)} {a : α} (hp : p.All P) (h : p.Executes calls a) :
    ∀ e ∈ calls, P e.1 := by
  induction h with
  | done => exact nofun
  | step c next r calls a _ ih =>
    intro e he
    rcases List.mem_cons.mp he with rfl | he
    · exact hp.1
    · exact ih (hp.2 r) e he

/-- The replies determine the calls and the result. -/
theorem Executes.deterministic {p : Prog C R α} {calls calls' rest rest' : List (Σ c, R c)} {a a' : α}
    (h : p.Executes calls a) (h' : p.Executes calls' a') (hsame : calls ++ rest = calls' ++ rest') :
    calls = calls' ∧ a = a' := by
  induction h generalizing calls' with
  | done =>
    cases h'
    exact ⟨rfl, rfl⟩
  | step c next r calls a _ ih =>
    cases h' with
    | step _ _ r' calls' _ tail =>
      obtain ⟨hhead, hrest⟩ := List.cons.inj hsame
      obtain ⟨-, hr⟩ := Sigma.mk.inj hhead
      obtain rfl := eq_of_heq hr
      obtain ⟨rfl, rfl⟩ := ih tail hrest
      exact ⟨rfl, rfl⟩

theorem Executes.of_raising {ε : Type} {p : Raising ε C R α} {f : α → Raising ε C R β} {calls : List (Σ c, R c)}
    {x : Except ε β} (h : (p >>= f).run.Executes calls x) :
    (∃ first a second, calls = first ++ second ∧ p.run.Executes first (.ok a) ∧ (f a).run.Executes second x) ∨
      ∃ e, p.run.Executes calls (.error e) ∧ x = .error e := by
  obtain ⟨first, y, second, rfl, hfirst, hsecond⟩ := Executes.of_bind h
  cases y with
  | ok a => exact Or.inl ⟨first, a, second, rfl, hfirst, hsecond⟩
  | error e =>
    cases hsecond
    rw [List.append_nil]
    exact Or.inr ⟨e, hfirst, rfl⟩

end AgentFabric.Lib.Prog
