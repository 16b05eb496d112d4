import Mathlib.Logic.Function.Basic
import Mathlib.Data.List.Basic
import Mathlib.Data.List.Induction

/-!
# Interleaved programs over a shared state

Sequential programs perform atomic calls on a state that they share with any number of other programs.
-/

namespace AgentFabric.Lib

/-- A sequential program over the calls `C`, with replies `R`. -/
inductive Prog (C : Type) (R : C → Type) (α : Type) where
  | ret (a : α)
  | call (c : C) (next : R c → Prog C R α)

namespace Prog

variable {C : Type} {R : C → Type} {α β γ : Type}

def bind : Prog C R α → (α → Prog C R β) → Prog C R β
  | ret a, f => f a
  | call c next, f => call c fun r => (next r).bind f

instance : Monad (Prog C R) where
  pure := ret
  bind := bind

/-- One call, with its reply as the result. -/
def perform (c : C) : Prog C R (R c) := call c ret

@[simp] theorem ret_bind (a : α) (f : α → Prog C R β) : (ret a).bind f = f a := rfl

@[simp] theorem call_bind (c : C) (next : R c → Prog C R α) (f : α → Prog C R β) :
    (call c next).bind f = call c fun r => (next r).bind f := rfl

@[simp] theorem pure_eq_ret (a : α) : (pure a : Prog C R α) = ret a := rfl

@[simp] theorem bind_eq (p : Prog C R α) (f : α → Prog C R β) : (p >>= f) = p.bind f := rfl

/-- Every call that the program can make satisfies `P`, whatever the replies are. -/
def All (P : C → Prop) : Prog C R α → Prop
  | ret _ => True
  | call c next => P c ∧ ∀ r, (next r).All P

@[simp] theorem all_ret (P : C → Prop) (a : α) : (ret a : Prog C R α).All P := trivial

@[simp] theorem all_perform {P : C → Prop} (c : C) : (perform c : Prog C R (R c)).All P ↔ P c := by
  simp [perform, All]

variable {p : Prog C R α} {f : α → Prog C R β}

theorem All.bind {P : C → Prop} (hp : p.All P) (hf : ∀ a, (f a).All P) :
    (p.bind f).All P := by
  induction p with
  | ret a => exact hf a
  | call c next ih => exact ⟨hp.1, fun r => ih r (hp.2 r)⟩

/-- Every result of the program satisfies `Q`, whatever the replies are. -/
def Yields (Q : α → Prop) : Prog C R α → Prop
  | ret a => Q a
  | call _ next => ∀ r, (next r).Yields Q

theorem yields_true (p : Prog C R α) : p.Yields fun _ => True := by
  induction p with
  | ret => trivial
  | call c next ih => exact ih

theorem Yields.mono {Q Q' : α → Prop} (hp : p.Yields Q) (h : ∀ a, Q a → Q' a) : p.Yields Q' := by
  induction p with
  | ret a => exact h a hp
  | call c next ih => exact fun r => ih r (hp r)

theorem Yields.bind {Q : α → Prop} {Q' : β → Prop} (hp : p.Yields Q) (hf : ∀ a, Q a → (f a).Yields Q') :
    (p.bind f).Yields Q' := by
  induction p with
  | ret a => exact hf a hp
  | call c next ih => exact fun r => ih r (hp r)

theorem All.bind_yields {P : C → Prop} {Q : α → Prop} (hp : p.All P) (hq : p.Yields Q) (hf : ∀ a, Q a → (f a).All P) :
    (p.bind f).All P := by
  induction p with
  | ret a => exact hf a hq
  | call c next ih => exact ⟨hp.1, fun r => ih r (hp.2 r) (hq r)⟩

abbrev Raising (ε : Type) (C : Type) (R : C → Type) (α : Type) := ExceptT ε (Prog C R) α

/-- One call inside a program that may raise. -/
def ask {ε : Type} (c : C) : Raising ε C R (R c) := ExceptT.lift (perform c)

/-- A result computed without a call. -/
def result {ε : Type} (x : Except ε α) : Raising ε C R α := ExceptT.mk (ret x)

/-- Run a program and return what it raised, if it did. -/
def attempt {ε : Type} (p : Raising ε C R α) : Raising ε C R (Except ε α) :=
  ExceptT.mk (p.run.bind fun r => ret (.ok r))

/-- Every call of a program that may raise satisfies `P`. -/
def Obeys {ε : Type} (P : C → Prop) (p : Raising ε C R α) : Prop := p.run.All P

section

variable {ε : Type} {P : C → Prop}

variable {p : Raising ε C R α}

theorem Obeys.bind {f : α → Raising ε C R β} (hp : Obeys P p) (hf : ∀ a, Obeys P (f a)) :
    Obeys P (p >>= f) := by
  refine All.bind hp fun r => ?_
  cases r with
  | ok a => exact hf a
  | error => trivial

theorem Obeys.bind_yields {Q : α → Prop} {f : α → Raising ε C R β} (hp : Obeys P p)
    (hq : p.run.Yields fun r => ∀ a, r = .ok a → Q a) (hf : ∀ a, Q a → Obeys P (f a)) : Obeys P (p >>= f) := by
  refine All.bind_yields hp hq fun r hr => ?_
  cases r with
  | ok a => exact hf a (hr a rfl)
  | error => trivial

theorem Obeys.rescue {h : ε → Raising ε C R α} (hp : Obeys P p) (hh : ∀ e, Obeys P (h e)) :
    Obeys P (tryCatch p h) := by
  refine All.bind hp fun r => ?_
  cases r with
  | ok => trivial
  | error e => exact hh e

theorem Obeys.attempt (hp : Obeys P p) : Obeys P (Prog.attempt p) :=
  All.bind hp fun _ => trivial

theorem Obeys.pure (a : α) : Obeys P (Pure.pure a : Raising ε C R α) := trivial

theorem Obeys.throw (e : ε) : Obeys P (MonadExcept.throw e : Raising ε C R α) := trivial

theorem Obeys.result (x : Except ε α) : Obeys P (Prog.result x : Raising ε C R α) := trivial

theorem Obeys.ask {c : C} (h : P c) : Obeys P (Prog.ask c : Raising ε C R (R c)) := ⟨h, fun _ => trivial⟩

theorem Obeys.forM {l : List α} {f : α → Raising ε C R PUnit} (hf : ∀ a ∈ l, Obeys P (f a)) : Obeys P (l.forM f) := by
  induction l with
  | nil => exact .pure _
  | cons a l ih => exact .bind (hf a List.mem_cons_self) fun _ => ih fun b hb => hf b (List.mem_cons_of_mem a hb)

theorem Obeys.mono {P' : C → Prop} (hp : Obeys P p) (h : ∀ c, P c → P' c) : Obeys P' p := by
  unfold Obeys at hp ⊢
  generalize p.run = q at hp
  induction q with
  | ret => trivial
  | call c next ih => exact ⟨h c hp.1, fun r => ih r (hp.2 r)⟩

end

theorem Yields.raising_bind {ε : Type} {Q : β → Prop} {p : Raising ε C R α} {f : α → Raising ε C R β}
    (hf : ∀ a, (f a).run.Yields fun r => ∀ b, r = .ok b → Q b) :
    (p >>= f).run.Yields fun r => ∀ b, r = .ok b → Q b := by
  refine Yields.bind (yields_true p.run) fun r _ => ?_
  cases r with
  | ok a => exact hf a
  | error => exact fun b h => nomatch h

end Prog

/-- The effect of a call by the program `i`; the environment resolves what the state does not decide. -/
structure Machine (ι σ C : Type) (R : C → Type) (O : Type) where
  act : ι → σ → O → (c : C) → R c × σ

/-- The shared state and the programs that are under way. -/
structure Pool (ι σ C : Type) (R : C → Type) where
  shared : σ
  thread : ι → Option (Prog C R Unit)

inductive Move (ι E O : Type) where
  | start (i : ι) (entry : E)
  | step (i : ι) (env : O)
  | drop (i : ι)

section

variable {ι σ C O E : Type} {R : C → Type}

/-! ## Proof outlines -/

/-- What the program `i` knows survives the steps of every other program. -/
def Stable (I : σ → Prop) (G : ι → σ → σ → Prop) (i : ι) (φ : σ → Prop) : Prop :=
  ∀ j s s', j ≠ i → I s → I s' → G j s s' → φ s → φ s'

/-- From `φ`, every call of the program keeps `I` and `G`, and leaves a stable assertion for the rest. -/
def Outline (M : Machine ι σ C R O) (I : σ → Prop) (G : ι → σ → σ → Prop) (i : ι) {α : Type} :
    (σ → Prop) → Prog C R α → (α → σ → Prop) → Prop
  | φ, .ret a, Q => ∀ s, I s → φ s → Q a s
  | φ, .call c next, Q => ∀ s o, I s → φ s → I (M.act i s o c).2 ∧ G i s (M.act i s o c).2 ∧
      ∃ ψ, Stable I G i ψ ∧ ψ (M.act i s o c).2 ∧ Outline M I G i ψ (next (M.act i s o c).1) Q

variable {M : Machine ι σ C R O} {I : σ → Prop} {G : ι → σ → σ → Prop} {i : ι} {α β : Type}

theorem Stable.true : Stable I G i fun _ => True := fun _ _ _ _ _ _ _ _ => trivial

variable {ψ : σ → Prop}

theorem Stable.and (hφ : Stable I G i φ) (hψ : Stable I G i ψ) :
    Stable I G i fun s => φ s ∧ ψ s :=
  fun j s s' hj hs hs' hg h => ⟨hφ j s s' hj hs hs' hg h.1, hψ j s s' hj hs hs' hg h.2⟩

theorem Stable.const (p : Prop) : Stable I G i fun _ => p := fun _ _ _ _ _ _ _ h => h

variable {p : Prog C R α} {Q : α → σ → Prop}

theorem Outline.weaken (h : Outline M I G i ψ p Q) (hφ : ∀ s, I s → φ s → ψ s) : Outline M I G i φ p Q := by
  cases p with
  | ret => exact fun s hi hs => h s hi (hφ s hi hs)
  | call => exact fun s o hi hs => h s o hi (hφ s hi hs)

theorem Outline.unreached (h : ∀ s, ¬ φ s) :
    Outline M I G i φ p Q := by
  cases p with
  | ret => exact fun s _ hs => absurd hs (h s)
  | call => exact fun s _ _ hs => absurd hs (h s)

theorem Outline.of_const {q : Prop} (h : q → Outline M I G i φ p Q) : Outline M I G i (fun s => φ s ∧ q) p Q := by
  cases p with
  | ret => exact fun s hi hs => h hs.2 s hi hs.1
  | call => exact fun s o hi hs => h hs.2 s o hi hs.1

theorem Outline.post {Q' : α → σ → Prop} (h : Outline M I G i φ p Q) (hq : ∀ a s, Q a s → Q' a s) :
    Outline M I G i φ p Q' := by
  induction p generalizing φ with
  | ret a => exact fun s hi hs => hq a s (h s hi hs)
  | call c next ih =>
    intro s o hi hs
    obtain ⟨hi', hg, ψ, hst, hψ, hrest⟩ := h s o hi hs
    exact ⟨hi', hg, ψ, hst, hψ, ih _ hrest⟩

theorem Outline.yields {Q' : α → Prop} (h : Outline M I G i φ p Q) (hq : p.Yields Q') :
    Outline M I G i φ p fun a s => Q a s ∧ Q' a := by
  induction p generalizing φ with
  | ret => exact fun s hi hs => ⟨h s hi hs, hq⟩
  | call c next ih =>
    intro s o hi hs
    obtain ⟨hi', hg, ψ, hst, hψ, hrest⟩ := h s o hi hs
    exact ⟨hi', hg, ψ, hst, hψ, ih _ hrest (hq _)⟩

theorem Outline.bind {f : α → Prog C R β} {Q' : β → σ → Prop} (hp : Outline M I G i φ p Q)
    (hf : ∀ a, Outline M I G i (Q a) (f a) Q') : Outline M I G i φ (p.bind f) Q' := by
  induction p generalizing φ with
  | ret a => exact (hf a).weaken hp
  | call c next ih =>
    intro s o hi hs
    obtain ⟨hi', hg, ψ, hst, hψ, hrest⟩ := hp s o hi hs
    exact ⟨hi', hg, ψ, hst, hψ, ih _ hrest⟩

theorem Outline.perform {c : C} {Q : R c → σ → Prop} (stable : ∀ r, Stable I G i (Q r)) (step : ∀ s o, I s → φ s →
      I (M.act i s o c).2 ∧ G i s (M.act i s o c).2 ∧ Q (M.act i s o c).1 (M.act i s o c).2) :
    Outline M I G i φ (.perform c) Q := by
  intro s o hi hs
  obtain ⟨hi', hg, hq⟩ := step s o hi hs
  exact ⟨hi', hg, Q _, stable _, hq, fun _ _ h => h⟩

/-- The postcondition of a program that may raise: nothing is promised of an error. -/
def onOk {ε : Type} (Q : α → σ → Prop) : Except ε α → σ → Prop
  | .ok a => Q a
  | .error _ => fun _ => True

theorem onOk_true (r : Except ε α) (s : σ) : onOk (fun _ _ => True) r s := by
  cases r <;> trivial

theorem Outline.ask {c : C} {Q : R c → σ → Prop} (stable : ∀ r, Stable I G i (Q r)) (step : ∀ s o, I s → φ s →
      I (M.act i s o c).2 ∧ G i s (M.act i s o c).2 ∧ Q (M.act i s o c).1 (M.act i s o c).2) :
    Outline M I G i φ (Prog.ask c : Prog.Raising ε C R (R c)).run (onOk Q) :=
  Outline.bind (Outline.perform stable step) fun _ _ _ h => h

theorem Outline.ask_bind {c : C} {f : R c → Prog.Raising ε C R α} {Q : R c → σ → Prop} {Q' : Except ε α → σ → Prop}
    (stable : ∀ r, Stable I G i (Q r)) (step : ∀ s o, I s → φ s →
      I (M.act i s o c).2 ∧ G i s (M.act i s o c).2 ∧ Q (M.act i s o c).1 (M.act i s o c).2)
    (hf : ∀ r, Outline M I G i (Q r) (f r).run Q') : Outline M I G i φ (Prog.ask c >>= f).run Q' := by
  intro s o hi hs
  obtain ⟨hi', hg, hq⟩ := step s o hi hs
  exact ⟨hi', hg, Q _, stable _, hq, hf _⟩

theorem Outline.result {x : Except ε α} (h : ∀ a s, x = .ok a → I s → φ s → Q a s) :
    Outline M I G i φ (Prog.result x : Prog.Raising ε C R α).run (onOk Q) := by
  cases x with
  | ok a => exact fun s hi hs => h a s rfl hi hs
  | error => exact fun _ _ _ => trivial

theorem Outline.raising_bind {p : Prog.Raising ε C R α} {f : α → Prog.Raising ε C R β} {Q' : β → σ → Prop}
    (hp : Outline M I G i φ p.run (onOk Q)) (hf : ∀ a, Outline M I G i (Q a) (f a).run (onOk Q')) :
    Outline M I G i φ (p >>= f).run (onOk Q') := by
  refine Outline.bind hp fun r => ?_
  cases r with
  | ok a => exact hf a
  | error => exact fun _ _ _ => trivial

theorem Outline.attempt {p : Prog.Raising ε C R α} {Q : Except ε α → σ → Prop} (hp : Outline M I G i φ p.run Q) :
    Outline M I G i φ (Prog.attempt p).run (onOk Q) :=
  Outline.bind hp fun _ _ _ h => h

theorem Outline.raising_catch {p : Prog.Raising ε C R α} {h : ε → Prog.Raising ε C R α}
    (hp : Outline M I G i φ p.run (onOk Q)) (hh : ∀ e, Outline M I G i (fun _ => True) (h e).run (onOk Q)) :
    Outline M I G i φ (tryCatch p h).run (onOk Q) := by
  refine Outline.bind hp fun r => ?_
  cases r with
  | ok => exact fun _ _ h => h
  | error e => exact hh e

theorem Outline.of_all {Q : α → Prop} (hst : Stable I G i φ) (hp : p.All P) (hq : p.Yields Q)
    (step : ∀ c s o, P c → I s → φ s → I (M.act i s o c).2 ∧ G i s (M.act i s o c).2 ∧ φ (M.act i s o c).2) :
    Outline M I G i φ p fun a s => φ s ∧ Q a := by
  induction p with
  | ret => exact fun _ _ hs => ⟨hs, hq⟩
  | call c next ih =>
    intro s o hi hs
    obtain ⟨hi', hg, hs'⟩ := step c s o hp.1 hi hs
    exact ⟨hi', hg, φ, hst, hs', ih _ (hp.2 _) (hq _)⟩

theorem Outline.of_obeys {Q : α → Prop} {p : Prog.Raising ε C R α} (hst : Stable I G i φ) (hp : Prog.Obeys P p)
    (hq : p.run.Yields fun r => ∀ a, r = .ok a → Q a)
    (step : ∀ c s o, P c → I s → φ s → I (M.act i s o c).2 ∧ G i s (M.act i s o c).2 ∧ φ (M.act i s o c).2) :
    Outline M I G i φ p.run (onOk fun a s => φ s ∧ Q a) := by
  refine (Outline.of_all hst hp hq step).post fun r s h => ?_
  cases r with
  | ok a => exact ⟨h.1, h.2 a rfl⟩
  | error => trivial

theorem Outline.always (hst : Stable I G i φ) (hp : p.All P)
    (step : ∀ c s o, P c → I s → φ s → I (M.act i s o c).2 ∧ G i s (M.act i s o c).2 ∧ φ (M.act i s o c).2) :
    Outline M I G i φ p fun _ => φ :=
  (Outline.of_all hst hp (Prog.yields_true _) step).post fun _ _ h => h.1

theorem Outline.keep {p : Prog.Raising ε C R α} (hst : Stable I G i φ) (hp : Prog.Obeys P p)
    (step : ∀ c s o, P c → I s → φ s → I (M.act i s o c).2 ∧ G i s (M.act i s o c).2 ∧ φ (M.act i s o c).2) :
    Outline M I G i φ p.run (onOk fun _ => φ) := by
  refine (Outline.always hst hp step).post fun r s h => ?_
  cases r with
  | ok => exact h
  | error => trivial

theorem Outline.forM {l : List α} {f : α → Prog.Raising ε C R PUnit}
    (h : ∀ a ∈ l, Outline M I G i φ (f a).run (onOk fun _ => φ)) :
    Outline M I G i φ (l.forM f).run (onOk fun _ => φ) := by
  induction l with
  | nil => exact fun _ _ hs => hs
  | cons a l ih =>
    exact Outline.raising_bind (h a List.mem_cons_self) fun _ => ih fun b hb => h b (List.mem_cons_of_mem a hb)

/-! ## Programs that keep an assertion -/

/-- Whatever the program returns or raises, it keeps the assertion. -/
def Keeps (M : Machine ι σ C R O) (I : σ → Prop) (G : ι → σ → σ → Prop) (i : ι) (φ : σ → Prop) {ε α : Type}
    (p : Prog.Raising ε C R α) : Prop := Outline M I G i φ p.run fun _ => φ

namespace Keeps

variable {ε : Type} {φ : σ → Prop}

theorem result (x : Except ε α) : Keeps M I G i φ (Prog.result x : Prog.Raising ε C R α) := fun _ _ h => h

variable {p : Prog.Raising ε C R α}

theorem bind {f : α → Prog.Raising ε C R β} (hp : Keeps M I G i φ p) (hf : ∀ a, Keeps M I G i φ (f a)) :
    Keeps M I G i φ (p >>= f) := by
  refine Outline.bind hp fun r => ?_
  cases r with
  | ok a => exact hf a
  | error => exact fun _ _ h => h

theorem attempt (hp : Keeps M I G i φ p) : Keeps M I G i φ (Prog.attempt p) :=
  Outline.bind hp fun _ _ _ h => h

theorem ask {c : C} (hst : Stable I G i φ)
    (step : ∀ s o, I s → φ s → I (M.act i s o c).2 ∧ G i s (M.act i s o c).2 ∧ φ (M.act i s o c).2) :
    Keeps M I G i φ (Prog.ask c : Prog.Raising ε C R (R c)) :=
  Outline.bind (Outline.perform (fun _ => hst) step) fun _ _ _ h => h

theorem onOk {p : Prog.Raising ε C R α} (hp : Keeps M I G i φ p) : Outline M I G i φ p.run (onOk fun _ => φ) := by
  refine hp.post fun r s h => ?_
  cases r with
  | ok => exact h
  | error => trivial

theorem of_outline {Q : Except ε α → σ → Prop} (hp : Outline M I G i (fun _ => True) p.run Q) :
    Keeps M I G i (fun _ => True) p := hp.post fun _ _ _ => trivial

end Keeps

/-! ## Traces -/

/-- A call that was made, by whom, and its reply. -/
structure Event (ι C : Type) (R : C → Type) where
  thread : ι
  call : C
  reply : R call

/-- A shared state with the calls made so far, the latest last. -/
structure Traced (ι σ C : Type) (R : C → Type) where
  state : σ
  trace : List (Event ι C R)

def Machine.traced (M : Machine ι σ C R O) : Machine ι (Traced ι σ C R) C R O where
  act i w o c :=
    let (r, s) := M.act i w.state o c
    (r, ⟨s, w.trace ++ [⟨i, c, r⟩]⟩)

/-- A step of `i`: the state moves by `P` and the trace grows by one call of `i`. -/
def Extends (P : σ → σ → Prop) (i : ι) (w w' : Traced ι σ C R) : Prop :=
  P w.state w'.state ∧ ∃ c r, w'.trace = w.trace ++ [⟨i, c, r⟩]

/-! ## Schedules -/

/-- No program is under way. -/
def Pool.quiet (s : σ) : Pool ι σ C R := ⟨s, fun _ => none⟩

/-- The invariant holds and every program under way has an outline from here on. -/
def Pool.Sound (M : Machine ι σ C R O) (I : σ → Prop) (G : ι → σ → σ → Prop) (pool : Pool ι σ C R) : Prop :=
  I pool.shared ∧ ∀ i p, pool.thread i = some p →
    ∃ φ, Stable I G i φ ∧ φ pool.shared ∧ Outline M I G i φ p fun _ _ => True

theorem Pool.quiet_sound {s : σ} (h : I s) : (Pool.quiet s : Pool ι σ C R).Sound M I G :=
  ⟨h, nofun⟩

variable [DecidableEq ι]

/-- The program `i` is replaced. -/
def Pool.set (pool : Pool ι σ C R) (i : ι) (p : Option (Prog C R Unit)) : Pool ι σ C R :=
  { pool with thread := Function.update pool.thread i p }

@[simp] theorem Pool.set_shared (pool : Pool ι σ C R) (i : ι) (p : Option (Prog C R Unit)) :
    (pool.set i p).shared = pool.shared := rfl

variable {pool : Pool ι σ C R}

theorem Pool.set_thread {i j : ι} {p : Option (Prog C R Unit)} {q : Prog C R Unit}
    (h : (pool.set i p).thread j = some q) : (j = i ∧ p = some q) ∨ (j ≠ i ∧ pool.thread j = some q) := by
  by_cases hj : j = i
  · subst hj
    exact Or.inl ⟨rfl, by simpa [Pool.set] using h⟩
  · exact Or.inr ⟨hj, by simpa [Pool.set, hj] using h⟩

/-- One move; a move that is not enabled changes nothing. -/
def Pool.move (M : Machine ι σ C R O) (entry : ι → E → Prog C R Unit) (pool : Pool ι σ C R) :
    Move ι E O → Pool ι σ C R
  | .start i e =>
    match pool.thread i with
    | none => pool.set i (some (entry i e))
    | some _ => pool
  | .step i o =>
    match pool.thread i with
    | some (.call c next) =>
      let (r, s) := M.act i pool.shared o c
      { pool with shared := s }.set i (some (next r))
    | _ => pool
  | .drop i => pool.set i none

/-- A whole schedule. -/
def Pool.run (M : Machine ι σ C R O) (entry : ι → E → Prog C R Unit) (pool : Pool ι σ C R) (moves : List (Move ι E O)) :
    Pool ι σ C R :=
  moves.foldl (Pool.move M entry) pool

variable {entry : ι → E → Prog C R Unit}

/-- One move keeps a sound pool sound, and the moving program respects its guarantee. -/
theorem Pool.move_sound (hentry : ∀ i e, Outline M I G i (fun _ => True) (entry i e) fun _ _ => True)
    (h : pool.Sound M I G) (m : Move ι E O) :
    (pool.move M entry m).Sound M I G ∧
      ((pool.move M entry m).shared = pool.shared ∨ ∃ j, G j pool.shared (pool.move M entry m).shared) := by
  obtain ⟨hI, hthreads⟩ := h
  cases m with
  | start i e =>
    simp only [Pool.move]
    split
    · refine ⟨⟨hI, fun j p hp => ?_⟩, Or.inl rfl⟩
      rcases Pool.set_thread hp with ⟨rfl, he⟩ | ⟨_, hp⟩
      · obtain rfl := Option.some.inj he
        exact ⟨fun _ => True, Stable.true, trivial, hentry j e⟩
      · exact hthreads j p hp
    · exact ⟨⟨hI, hthreads⟩, Or.inl rfl⟩
  | drop =>
    refine ⟨⟨hI, fun j p hp => ?_⟩, Or.inl rfl⟩
    rcases Pool.set_thread hp with ⟨_, he⟩ | ⟨_, hp⟩
    · cases he
    · exact hthreads j p hp
  | step i o =>
    simp only [Pool.move]
    split
    · rename_i c next hi
      obtain ⟨φ, hst, hφ, hout⟩ := hthreads i _ hi
      obtain ⟨hI', hg, ψ, hst', hψ, hrest⟩ := hout _ o hI hφ
      refine ⟨⟨hI', fun j p hp => ?_⟩, Or.inr ⟨i, hg⟩⟩
      rcases Pool.set_thread hp with ⟨rfl, he⟩ | ⟨hj, hp⟩
      · obtain rfl := Option.some.inj he
        exact ⟨ψ, hst', hψ, hrest⟩
      · obtain ⟨χ, hχ, hχs, houtj⟩ := hthreads j p hp
        exact ⟨χ, hχ, hχ i _ _ (Ne.symm hj) hI hI' hg hχs, houtj⟩
    · exact ⟨⟨hI, hthreads⟩, Or.inl rfl⟩

theorem Pool.step_guarantee (h : pool.Sound M I G) (i : ι) (o : O) :
    (pool.move M entry (.step i o)).shared = pool.shared ∨
      G i pool.shared (pool.move M entry (.step i o)).shared := by
  simp only [Pool.move]
  split
  · rename_i c next hi
    obtain ⟨φ, _, hφ, hout⟩ := h.2 i _ hi
    exact Or.inr (hout _ o h.1 hφ).2.1
  · exact Or.inl rfl

/-- **A pool of programs with outlines is sound after every schedule.** -/
theorem Pool.run_sound {entry : ι → E → Prog C R Unit} {pool : Pool ι σ C R}
    (hentry : ∀ i e, Outline M I G i (fun _ => True) (entry i e) fun _ _ => True) (h : pool.Sound M I G) :
    ∀ moves : List (Move ι E O), (pool.run M entry moves).Sound M I G
  | [] => h
  | m :: ms => run_sound hentry (move_sound hentry h m).1 ms

/-- **The invariant holds after every schedule.** -/
theorem Pool.run_invariant {s : σ} (hentry : ∀ i e, Outline M I G i (fun _ => True) (entry i e) fun _ _ => True)
    (h : I s) (moves : List (Move ι E O)) : I ((Pool.quiet s).run M entry moves).shared :=
  (run_sound hentry (quiet_sound h) moves).1

theorem Pool.run_append (entry : ι → E → Prog C R Unit) (pool : Pool ι σ C R) (ms ms' : List (Move ι E O)) :
    pool.run M entry (ms ++ ms') = (pool.run M entry ms).run M entry ms' := List.foldl_append ..

/-- The calls of a schedule are the calls of the programs that it starts. -/
theorem Pool.run_calls {s : σ} (moves : List (Move ι E O)) (hentry : ∀ i e, .start i e ∈ moves → (entry i e).All P) :
    (∀ i p, ((Pool.quiet ⟨s, []⟩).run M.traced entry moves).thread i = some p → p.All P) ∧
      ∀ e ∈ ((Pool.quiet ⟨s, []⟩).run M.traced entry moves).shared.trace, P e.call := by
  induction moves using List.reverseRecOn with
  | nil => exact ⟨nofun, nofun⟩
  | append_singleton moves m ih =>
    obtain ⟨hthreads, htrace⟩ := ih fun i e he => hentry i e (List.mem_append_left _ he)
    rw [Pool.run_append]
    show (∀ i p, (((Pool.quiet ⟨s, []⟩).run M.traced entry moves).move M.traced entry m).thread i = some p → p.All P) ∧
      ∀ e ∈ (((Pool.quiet ⟨s, []⟩).run M.traced entry moves).move M.traced entry m).shared.trace, P e.call
    generalize (Pool.quiet ⟨s, []⟩).run M.traced entry moves = pool at hthreads htrace
    cases m with
    | start i e =>
      simp only [Pool.move]
      split
      · refine ⟨fun j p hp => ?_, htrace⟩
        rcases Pool.set_thread hp with ⟨rfl, he⟩ | ⟨_, hp⟩
        · obtain rfl := Option.some.inj he
          exact hentry j e (List.mem_append_right _ List.mem_cons_self)
        · exact hthreads j p hp
      · exact ⟨hthreads, htrace⟩
    | drop =>
      refine ⟨fun j p hp => ?_, htrace⟩
      rcases Pool.set_thread hp with ⟨_, he⟩ | ⟨_, hp⟩
      · cases he
      · exact hthreads j p hp
    | step i =>
      simp only [Pool.move]
      split
      · rename_i c next hi
        obtain ⟨hc, hnext⟩ := hthreads i _ hi
        refine ⟨fun j p hp => ?_, fun e he => ?_⟩
        · rcases Pool.set_thread hp with ⟨_, he⟩ | ⟨_, hp⟩
          · obtain rfl := Option.some.inj he
            exact hnext _
          · exact hthreads j p hp
        · rcases List.mem_append.mp he with he | he
          · exact htrace e he
          · obtain rfl := List.mem_singleton.mp he
            exact hc
      · exact ⟨hthreads, htrace⟩

/-- **What every step guarantees, a schedule guarantees.** -/
theorem Pool.run_guarantee {P : σ → σ → Prop} {entry : ι → E → Prog C R Unit}
    (hentry : ∀ i e, Outline M I G i (fun _ => True) (entry i e) fun _ _ => True) (refl : ∀ s, P s s)
    (trans : ∀ {a b c}, P a b → P b c → P a c) (guar : ∀ {j s s'}, G j s s' → P s s') {pool : Pool ι σ C R}
    (h : pool.Sound M I G) : ∀ moves : List (Move ι E O), P pool.shared (pool.run M entry moves).shared
  | [] => refl _
  | m :: ms => by
    obtain ⟨hsound, hmove⟩ := move_sound hentry h m
    refine trans ?_ (run_guarantee hentry refl trans guar hsound ms)
    rcases hmove with hsame | ⟨j, hg⟩
    · rw [hsame]; exact refl _
    · exact guar hg

/-- A property that every move of a schedule keeps, given the invariant and what the moving program guarantees. -/
theorem Pool.run_kept {J : σ → Prop} {s : σ}
    (hentry : ∀ i e, Outline M I G i (fun _ => True) (entry i e) fun _ _ => True) (hI : I s) (hJ : J s)
    (moves : List (Move ι E O))
    (kept : ∀ before m after i, moves = before ++ m :: after → I ((Pool.quiet s).run M entry before).shared →
      G i ((Pool.quiet s).run M entry before).shared ((Pool.quiet s).run M entry (before ++ [m])).shared →
      J ((Pool.quiet s).run M entry before).shared → J ((Pool.quiet s).run M entry (before ++ [m])).shared) :
    J ((Pool.quiet s).run M entry moves).shared := by
  induction moves using List.reverseRecOn with
  | nil => exact hJ
  | append_singleton moves m ih =>
    have hbefore := ih fun before m' after i e => kept before m' (after ++ [m]) i (by simp [e])
    have hsound := run_sound hentry (quiet_sound hI) moves
    have hsnoc : (Pool.quiet s).run M entry (moves ++ [m]) = ((Pool.quiet s).run M entry moves).move M entry m :=
      Pool.run_append entry _ moves [m]
    rcases (move_sound hentry hsound m).2 with hsame | ⟨i, hg⟩
    · rw [hsnoc, hsame]
      exact hbefore
    · exact kept moves m [] i rfl hsound.1 (by rw [hsnoc]; exact hg) hbefore

/-- **One program among others.**  A program with an outline keeps it along a schedule that does not drop it and in
which every move respects what the program relies on. -/
theorem Pool.run_follow {rely : σ → σ → Prop} {Q : Unit → σ → Prop} (moves : List (Move ι E O)) {p : Prog C R Unit}
    (hp : pool.thread i = some p) (hst : Stable (fun _ => True) (fun _ => rely) i φ) (hφ : φ pool.shared)
    (hout : Outline M (fun _ => True) (fun _ => rely) i φ p Q) (hdrop : .drop i ∉ moves)
    (hrely : ∀ before m after, moves = before ++ m :: after →
      rely (pool.run M entry before).shared (pool.run M entry (before ++ [m])).shared) :
    ∃ q ψ, (pool.run M entry moves).thread i = some q ∧ ψ (pool.run M entry moves).shared ∧
      Outline M (fun _ => True) (fun _ => rely) i ψ q Q := by
  induction moves generalizing pool p φ with
  | nil => exact ⟨p, φ, hp, hφ, hout⟩
  | cons m ms ih =>
    have hnext : ∀ {p' φ'}, (pool.move M entry m).thread i = some p' → Stable (fun _ => True) (fun _ => rely) i φ' →
        φ' (pool.move M entry m).shared → Outline M (fun _ => True) (fun _ => rely) i φ' p' Q → _ :=
      fun hp' hst' hφ' hout' => ih hp' hst' hφ' hout' (fun h => hdrop (List.mem_cons_of_mem m h))
        fun before m' after e => hrely (m :: before) m' after (by rw [e]; rfl)
    have hmove : rely pool.shared (pool.move M entry m).shared := hrely [] m ms rfl
    cases m with
    | start j e =>
      by_cases hj : j = i
      · subst hj
        have hsame : pool.move M entry (.start j e) = pool := by simp only [Pool.move, hp]
        exact hnext (by rw [hsame]; exact hp) hst (by rw [hsame]; exact hφ) hout
      · have hthread : (pool.move M entry (.start j e)).thread i = some p := by
          simp only [Pool.move]
          split
          · simpa [Pool.set, Ne.symm hj] using hp
          · exact hp
        have hshared : (pool.move M entry (.start j e)).shared = pool.shared := by
          simp only [Pool.move]
          split <;> rfl
        exact hnext hthread hst (by rw [hshared]; exact hφ) hout
    | drop j =>
      have hj : j ≠ i := fun h => hdrop (by rw [h]; exact List.mem_cons_self)
      exact hnext (by simpa [Pool.move, Pool.set, Ne.symm hj] using hp) hst hφ hout
    | step j o =>
      by_cases hj : j = i
      · subst hj
        cases p with
        | ret =>
          have hsame : pool.move M entry (.step j o) = pool := by simp only [Pool.move, hp]
          exact hnext (by rw [hsame]; exact hp) hst (by rw [hsame]; exact hφ) hout
        | call c next =>
          obtain ⟨_, _, ψ, hstψ, hψ, hrest⟩ := hout pool.shared o trivial hφ
          have hthread : (pool.move M entry (.step j o)).thread j = some (next (M.act j pool.shared o c).1) := by
            simp [Pool.move, hp, Pool.set]
          have hshared : (pool.move M entry (.step j o)).shared = (M.act j pool.shared o c).2 := by
            simp [Pool.move, hp]
          exact hnext hthread hstψ (by rw [hshared]; exact hψ) hrest
      · have hthread : (pool.move M entry (.step j o)).thread i = some p := by
          simp only [Pool.move]
          split
          · simpa [Pool.set, Ne.symm hj] using hp
          · exact hp
        exact hnext hthread hst (hst j _ _ hj trivial trivial hmove hφ) hout

end

end AgentFabric.Lib
