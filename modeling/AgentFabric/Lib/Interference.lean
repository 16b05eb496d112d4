import Mathlib.Logic.Relation
import AgentFabric.Lib.Replies

/-!
# One program among others

What a program is promised while others move, and replies that decide its result.
-/

namespace AgentFabric.Lib

namespace Prog

variable {C : Type} {R : C → Type} {α β ε : Type} {P : C → Prop}

/-- Whatever reply a call of the kind `P` gets, it decides the result, and no other such call follows. -/
def Decides (P : C → Prop) (Q : (c : C) → R c → α → Prop) : Prog C R α → Prop
  | ret _ => True
  | call c next => ∀ r, (P c → (next r).Avoids (fun _ _ => True) P (Q c r)) ∧ (next r).Decides P Q

namespace Decides

variable {Q : (c : C) → R c → α → Prop} {Q' : (c : C) → R c → β → Prop}

theorem of_all {p : Prog C R α} (hp : p.All fun c => ¬ P c) : p.Decides P Q := by
  induction p with
  | ret => trivial
  | call c next ih => exact fun r => ⟨fun hc => absurd hc hp.1, ih r (hp.2 r)⟩

theorem bind {p : Prog C R α} {f : α → Prog C R β} (hp : p.Decides P Q)
    (hq : ∀ c r a, P c → Q c r a → (f a).Avoids (fun _ _ => True) P (Q' c r)) (hf : ∀ a, (f a).Decides P Q') :
    (p.bind f).Decides P Q' := by
  induction p with
  | ret a => exact hf a
  | call c next ih =>
    intro r
    exact ⟨fun hc => Avoids.bind ((hp r).1 hc) fun a ha => hq c r a hc ha, ih r (hp r).2⟩

theorem after {Q : (c : C) → R c → Except ε β → Prop} {p : Raising ε C R α} {f : α → Raising ε C R β}
    (hp : Obeys (fun c => ¬ P c) p) (hf : ∀ a, (f a).run.Decides P Q) : (p >>= f).run.Decides P Q := by
  refine bind (Q := fun _ _ _ => False) (of_all hp) (fun _ _ _ _ h => h.elim) fun x => ?_
  cases x with
  | ok a => exact hf a
  | error => trivial

theorem through {Q : (c : C) → R c → Except ε α → Prop} {Q' : (c : C) → R c → Except ε β → Prop}
    {p : Raising ε C R α} {f : α → Raising ε C R β} (hp : p.run.Decides P Q)
    (hok : ∀ c r a, P c → Q c r (.ok a) → (f a).run.Avoids (fun _ _ => True) P (Q' c r))
    (herror : ∀ c r e, P c → Q c r (.error e) → Q' c r (.error e)) (hf : ∀ a, (f a).run.Decides P Q') :
    (p >>= f).run.Decides P Q' := by
  refine bind hp (fun c r x hc hx => ?_) fun x => ?_
  · cases x with
    | ok a => exact hok c r a hc hx
    | error e => exact herror c r e hc hx
  · cases x with
    | ok a => exact hf a
    | error => trivial

theorem executes {p : Prog C R α} {calls : List (Σ c, R c)} {a : α} (h : p.Decides P Q) (hx : p.Executes calls a) :
    ∀ e ∈ calls, P e.1 → Q e.1 e.2 a := by
  induction hx with
  | done => exact fun e he => nomatch he
  | step c next r calls a rest ih =>
    intro e he hP
    rcases List.mem_cons.mp he with rfl | he
    · exact Avoids.executes ((h r).1 hP) rest fun _ _ => trivial
    · exact ih (h r).2 e he hP

end Decides

end Prog

/-- An execution whose replies are all `ok` makes no bad call. -/
theorem Prog.Avoids.executed {C : Type} {R : C → Type} {α : Type} {ok : (c : C) → R c → Prop} {bad : C → Prop}
    {Q : α → Prop} {p : Prog C R α} {calls : List (Σ c, R c)} {a : α} (h : p.Avoids ok bad Q) (hx : p.Executes calls a)
    (hok : ∀ e ∈ calls, ok e.1 e.2) : ∀ e ∈ calls, ¬ bad e.1 := by
  induction hx with
  | done => exact fun e he => nomatch he
  | step c next r calls a _ ih =>
    intro e he
    rcases List.mem_cons.mp he with rfl | he
    · exact h.1
    · exact ih (h.2 r (hok ⟨c, r⟩ List.mem_cons_self)) (fun e he => hok e (List.mem_cons_of_mem _ he)) e he

/-! ## Interference -/

/-- A call on the shared state, with the state before it and the outcome of what the state does not decide. -/
structure Stage (σ O C : Type) where
  before : σ
  outcome : O
  call : C

section

variable {σ O C : Type} {R : C → Type}

def Stage.reply (act : σ → O → (c : C) → R c × σ) (stage : Stage σ O C) : Σ c, R c :=
  ⟨stage.call, (act stage.before stage.outcome stage.call).1⟩

def Stage.after (act : σ → O → (c : C) → R c × σ) (stage : Stage σ O C) : σ :=
  (act stage.before stage.outcome stage.call).2

/-- The stages lead from one state to another; before each of them, and at the end, others may take any steps. -/
inductive Amid (act : σ → O → (c : C) → R c × σ) (others : σ → σ → Prop) : σ → List (Stage σ O C) → σ → Prop
  | done {s s' : σ} (h : Relation.ReflTransGen others s s') : Amid act others s [] s'
  | step {s s' : σ} (stage : Stage σ O C) {stages : List (Stage σ O C)}
      (h : Relation.ReflTransGen others s stage.before) (rest : Amid act others (stage.after act) stages s') :
      Amid act others s (stage :: stages) s'

variable {act : σ → O → (c : C) → R c × σ} {others : σ → σ → Prop} {I : σ → Prop} {le : σ → σ → Prop}

theorem keeps_others (refl : ∀ s, le s s) (trans : ∀ {a b c}, le a b → le b c → le a c)
    (hothers : ∀ {s s'}, I s → others s s' → I s' ∧ le s s') {s s' : σ} (hI : I s)
    (h : Relation.ReflTransGen others s s') : I s' ∧ le s s' := by
  induction h with
  | refl => exact ⟨hI, refl s⟩
  | tail _ hstep ih =>
    obtain ⟨hI', hle⟩ := hothers ih.1 hstep
    exact ⟨hI', trans ih.2 hle⟩

/-- What every call and every step of the others keeps is kept along the stages. -/
theorem Amid.kept (refl : ∀ s, le s s) (trans : ∀ {a b c}, le a b → le b c → le a c)
    (hact : ∀ {s}, I s → ∀ o c, I (act s o c).2 ∧ le s (act s o c).2)
    (hothers : ∀ {s s'}, I s → others s s' → I s' ∧ le s s') {s s' : σ} {stages : List (Stage σ O C)}
    (h : Amid act others s stages s') (hI : I s) :
    (I s' ∧ le s s') ∧ ∀ stage ∈ stages, I stage.before ∧ le s stage.before ∧ le (stage.after act) s' := by
  induction h with
  | done h => exact ⟨keeps_others refl trans hothers hI h, fun stage hstage => nomatch hstage⟩
  | step stage h rest ih =>
    obtain ⟨hbefore, hle⟩ := keeps_others refl trans hothers hI h
    obtain ⟨hafter, hact'⟩ := hact hbefore stage.outcome stage.call
    obtain ⟨⟨hI', hle'⟩, hstages⟩ := ih hafter
    have hstart := trans hle hact'
    refine ⟨⟨hI', trans hstart hle'⟩, fun stage' hstage' => ?_⟩
    rcases List.mem_cons.mp hstage' with rfl | hmem
    · exact ⟨hbefore, hle, hle'⟩
    · obtain ⟨hI'', hle'', hend⟩ := hstages stage' hmem
      exact ⟨hI'', trans hstart hle'', hend⟩

end

end AgentFabric.Lib
