import AgentFabric.Lib.Threads

/-!
# Calls that are out of reach

A program that checks before it acts is harmless as long as its checks say no: from where it stands, no forbidden call
can be reached by the replies that the checks still give.
-/

namespace AgentFabric.Lib

namespace Prog

variable {C : Type} {R : C → Type} {α β : Type}

/-- A `bad` call is within reach by replies that are all `ok`. -/
def Reaches (ok : (c : C) → R c → Prop) (bad : C → Prop) : Prog C R α → Prop
  | ret _ => False
  | call c next => bad c ∨ ∃ r, ok c r ∧ (next r).Reaches ok bad

/-- No `bad` call is within reach by `ok` replies, and every result satisfies `Q`. -/
def Avoids (ok : (c : C) → R c → Prop) (bad : C → Prop) (Q : α → Prop) : Prog C R α → Prop
  | ret a => Q a
  | call c next => ¬ bad c ∧ ∀ r, ok c r → (next r).Avoids ok bad Q

variable {ok : (c : C) → R c → Prop} {bad : C → Prop}

variable {p : Prog C R α}

theorem Reaches.mono {ok' : (c : C) → R c → Prop} (h : p.Reaches ok bad) (hok : ∀ c r, ok c r → ok' c r) :
    p.Reaches ok' bad := by
  induction p with
  | ret => exact h
  | call c next ih => exact h.imp id fun ⟨r, hr, hnext⟩ => ⟨r, hok c r hr, ih r hnext⟩

theorem Avoids.unreached (h : p.Avoids ok bad Q) : ¬ p.Reaches ok bad := by
  induction p with
  | ret => exact fun hr => hr
  | call c next ih =>
    rintro (hbad | ⟨r, hok, hr⟩)
    · exact h.1 hbad
    · exact ih r (h.2 r hok) hr

theorem Avoids.mono {Q' : α → Prop} (h : p.Avoids ok bad Q) (hq : ∀ a, Q a → Q' a) :
    p.Avoids ok bad Q' := by
  induction p with
  | ret a => exact hq a h
  | call c next ih => exact ⟨h.1, fun r hok => ih r (h.2 r hok)⟩

variable {f : α → Prog C R β}

theorem Avoids.bind {Q' : β → Prop} (hp : p.Avoids ok bad Q) (hf : ∀ a, Q a → (f a).Avoids ok bad Q') :
    (p.bind f).Avoids ok bad Q' := by
  induction p with
  | ret a => exact hf a hp
  | call c next ih => exact ⟨hp.1, fun r hok => ih r (hp.2 r hok)⟩

theorem Avoids.discard (hp : p.Avoids ok bad Q) (b : β) :
    (p.bind fun _ => ret b).Avoids ok bad fun _ => True :=
  hp.bind fun _ _ => trivial

theorem Avoids.of_all (hp : p.All fun c => ¬ bad c) : p.Avoids ok bad fun _ => True := by
  induction p with
  | ret => trivial
  | call c next ih => exact ⟨hp.1, fun r _ => ih r (hp.2 r)⟩

/-- The next call is a bad one. -/
def Poised (bad : C → Prop) : Prog C R α → Prop
  | ret _ => False
  | call c _ => bad c

instance [DecidablePred bad] : (p : Prog C R α) → Decidable (p.Poised bad)
  | ret _ => instDecidableFalse
  | call c _ => inferInstanceAs (Decidable (bad c))

/-- Every `ok` reply leaves the bad calls out of reach, all along the program. -/
def Vigilant (ok : (c : C) → R c → Prop) (bad : C → Prop) : Prog C R α → Prop
  | ret _ => True
  | call c next => ∀ r, (ok c r → ¬ (next r).Reaches ok bad) ∧ (next r).Vigilant ok bad

theorem Vigilant.poised (h : p.Vigilant ok bad) (hr : p.Reaches ok bad) : p.Poised bad := by
  cases p with
  | ret => exact hr
  | call =>
    rcases hr with hbad | ⟨r, hok, hr⟩
    · exact hbad
    · exact absurd hr ((h r).1 hok)

theorem Reaches.bind (hr : (p.bind f).Reaches ok bad) (hq : p.Yields Q) :
    p.Reaches ok bad ∨ ∃ a, Q a ∧ (f a).Reaches ok bad := by
  induction p with
  | ret a => exact Or.inr ⟨a, hq, hr⟩
  | call c next ih =>
    rcases hr with hbad | ⟨r, hok, hr⟩
    · exact Or.inl (Or.inl hbad)
    · exact (ih r hr (hq r)).imp (fun hr => Or.inr ⟨r, hok, hr⟩) id

theorem Vigilant.bind (hp : p.Vigilant ok bad) (hq : p.Yields Q)
    (hf : ∀ a, Q a → ¬ (f a).Reaches ok bad ∧ (f a).Vigilant ok bad) : (p.bind f).Vigilant ok bad := by
  induction p with
  | ret a => exact (hf a hq).2
  | call c next ih =>
    refine fun r => ⟨fun hok hr => ?_, ih r (hp r).2 (hq r)⟩
    rcases Reaches.bind hr (hq r) with hr | ⟨a, ha, hr⟩
    · exact (hp r).1 hok hr
    · exact (hf a ha).1 hr

theorem Vigilant.of_all (hp : p.All fun c => ¬ bad c) : p.Vigilant ok bad := by
  induction p with
  | ret => trivial
  | call c next ih => exact fun r => ⟨fun _ => (Avoids.of_all (hp.2 r)).unreached, ih r (hp.2 r)⟩

/-- The program begins out of reach and is vigilant. -/
def Guards (ok : (c : C) → R c → Prop) (bad : C → Prop) (p : Prog C R α) : Prop :=
  ¬ p.Reaches ok bad ∧ p.Vigilant ok bad

theorem Guards.ret (a : α) : (ret a : Prog C R α).Guards ok bad := ⟨fun h => h, trivial⟩

theorem Guards.of_all (hp : p.All fun c => ¬ bad c) : p.Guards ok bad :=
  ⟨(Avoids.of_all hp).unreached, Vigilant.of_all hp⟩

theorem Guards.bind (hp : p.Guards ok bad) (hq : p.Yields Q) (hf : ∀ a, Q a → (f a).Guards ok bad) :
    (p.bind f).Guards ok bad := by
  refine ⟨fun hr => ?_, Vigilant.bind hp.2 hq hf⟩
  rcases Reaches.bind hr hq with hr | ⟨a, ha, hr⟩
  · exact hp.1 hr
  · exact (hf a ha).1 hr

/-- A program that may raise avoids the bad calls; nothing is promised of an error. -/
def Spares {ε : Type} (ok : (c : C) → R c → Prop) (bad : C → Prop) (Q : α → Prop) (p : Raising ε C R α) : Prop :=
  p.run.Avoids ok bad fun r => ∀ a, r = .ok a → Q a

namespace Spares

variable {ε : Type} {Q : α → Prop} {Q' : β → Prop}

variable {p : Raising ε C R α}

theorem bind {f : α → Raising ε C R β} (hp : Spares ok bad Q p) (hf : ∀ a, Q a → Spares ok bad Q' (f a)) :
    Spares ok bad Q' (p >>= f) := by
  refine Avoids.bind hp fun r hr => ?_
  cases r with
  | ok a => exact hf a (hr a rfl)
  | error => exact fun b h => nomatch h

theorem ask {c : C} (h : ¬ bad c) : Spares ok bad (ok c) (Prog.ask c : Raising ε C R (R c)) :=
  ⟨h, fun _ hok _ e => Except.ok.inj e ▸ hok⟩

theorem pure {a : α} (h : Q a) : Spares ok bad Q (Pure.pure a : Raising ε C R α) := fun _ e => Except.ok.inj e ▸ h

theorem throw (e : ε) : Spares ok bad Q (MonadExcept.throw e : Raising ε C R α) := nofun

theorem result {x : Except ε α} (h : ∀ a, x = .ok a → Q a) : Spares ok bad Q (Prog.result x : Raising ε C R α) := h

theorem post {Q₁ Q₂ : α → Prop} (h : Spares ok bad Q₁ p) (hq : ∀ a, Q₁ a → Q₂ a) :
    Spares ok bad Q₂ p :=
  Avoids.mono h fun _ hr a e => hq a (hr a e)

theorem forM {l : List α} {f : α → Raising ε C R PUnit} (hf : ∀ a ∈ l, Spares ok bad (fun _ => True) (f a)) :
    Spares ok bad (fun _ => True) (l.forM f) := by
  induction l with
  | nil => exact pure trivial
  | cons a l ih => exact bind (hf a List.mem_cons_self) fun _ _ => ih fun b hb => hf b (List.mem_cons_of_mem a hb)

theorem of_obeys (hp : Obeys (fun c => ¬ bad c) p) : Spares ok bad (fun _ => True) p :=
  (Avoids.of_all hp).mono fun _ _ _ _ => trivial

end Spares

/-- The same for a program that may raise. -/
def Watches {ε : Type} (ok : (c : C) → R c → Prop) (bad : C → Prop) (p : Raising ε C R α) : Prop :=
  p.run.Guards ok bad

namespace Watches

variable {ε : Type}

variable {p : Raising ε C R α}

theorem bind_yields {Q : α → Prop} {f : α → Raising ε C R β} (hp : Watches ok bad p)
    (hq : p.run.Yields fun r => ∀ a, r = .ok a → Q a) (hf : ∀ a, Q a → Watches ok bad (f a)) :
    Watches ok bad (p >>= f) := by
  refine Guards.bind hp hq fun r hr => ?_
  cases r with
  | ok a => exact hf a (hr a rfl)
  | error => exact .ret _

theorem bind {f : α → Raising ε C R β} (hp : Watches ok bad p) (hf : ∀ a, Watches ok bad (f a)) :
    Watches ok bad (p >>= f) := by
  refine Guards.bind hp (yields_true _) fun r _ => ?_
  cases r with
  | ok a => exact hf a
  | error => exact .ret _

theorem of_obeys (hp : Obeys (fun c => ¬ bad c) p) : Watches ok bad p := Guards.of_all hp

end Watches

end Prog

section

variable {ι σ C O E : Type} {R : C → Type} [DecidableEq ι] {M : Machine ι σ C R O} {entry : ι → E → Prog C R Unit}

variable {i : ι} {p : Prog C R Unit}

/-- Where the program `i` stands after a move: it was there before, it was just started, or it has performed a call. -/
theorem Pool.move_thread {pool : Pool ι σ C R} {m : Move ι E O} (h : (pool.move M entry m).thread i = some p) :
    pool.thread i = some p ∨ (∃ e, m = .start i e ∧ p = entry i e) ∨
      ∃ o c next, pool.thread i = some (.call c next) ∧ p = next (M.act i pool.shared o c).1 ∧
        (pool.move M entry m).shared = (M.act i pool.shared o c).2 := by
  cases m with
  | start j e =>
    simp only [Pool.move] at h
    split at h
    · rcases Pool.set_thread h with ⟨rfl, he⟩ | ⟨_, h⟩
      · exact Or.inr (Or.inl ⟨e, rfl, (Option.some.inj he).symm⟩)
      · exact Or.inl h
    · exact Or.inl h
  | step j o =>
    simp only [Pool.move] at h ⊢
    split at h
    · rename_i c next hj
      rcases Pool.set_thread h with ⟨rfl, he⟩ | ⟨_, h⟩
      · exact Or.inr (Or.inr ⟨o, c, next, hj, (Option.some.inj he).symm, rfl⟩)
      · exact Or.inl h
    · exact Or.inl h
  | drop =>
    rcases Pool.set_thread h with ⟨_, he⟩ | ⟨_, h⟩
    · cases he
    · exact Or.inl h

theorem Pool.move_shared (pool : Pool ι σ C R) (m : Move ι E O) : (pool.move M entry m).shared = pool.shared ∨
    ∃ i o c next, pool.thread i = some (.call c next) ∧
      (pool.move M entry m).shared = (M.act i pool.shared o c).2 := by
  cases m with
  | start =>
    simp only [Pool.move]
    split
    · exact Or.inl rfl
    · exact Or.inl rfl
  | step j o =>
    simp only [Pool.move]
    split
    · rename_i c next hj
      exact Or.inr ⟨j, o, c, next, hj, rfl⟩
    · exact Or.inl rfl
  | drop => exact Or.inl rfl

theorem Pool.run_snoc (pool : Pool ι σ C R) (ms : List (Move ι E O)) (m : Move ι E O) :
    pool.run M entry (ms ++ [m]) = (pool.run M entry ms).move M entry m := Pool.run_append entry pool ms [m]

variable {s : σ}

theorem Pool.started_of_thread {moves : List (Move ι E O)} (h : ((Pool.quiet s).run M entry moves).thread i = some p) :
    ∃ e, .start i e ∈ moves := by
  induction moves using List.reverseRecOn generalizing p with
  | nil => exact nomatch h
  | append_singleton moves m ih =>
    rw [Pool.run_snoc] at h
    rcases Pool.move_thread h with h | ⟨e, rfl, _⟩ | ⟨_, _, _, h, _⟩
    · exact (ih h).imp fun e he => List.mem_append_left _ he
    · exact ⟨e, List.mem_append_right _ List.mem_cons_self⟩
    · exact (ih h).imp fun e he => List.mem_append_left _ he

/-- **Out of reach while it lasts.** If the replies are `ok` under the condition `H`, programs start out of reach and
the program `i` is out of reach each time that `H` sets in, then it is out of reach whenever `H` holds. -/
theorem Pool.unreached_while {bad : C → Prop} {H : σ → Prop} (reply : ∀ s o c, H s → ok c (M.act i s o c).1)
    (start : ∀ e, ¬ (entry i e).Reaches ok bad) (moves : List (Move ι E O))
    (onset : ∀ before m after, moves = before ++ m :: after → ¬ H ((Pool.quiet s).run M entry before).shared →
      H ((Pool.quiet s).run M entry (before ++ [m])).shared →
      ∀ p, ((Pool.quiet s).run M entry (before ++ [m])).thread i = some p → ¬ p.Reaches ok bad)
    (h : H ((Pool.quiet s).run M entry moves).shared) (hp : ((Pool.quiet s).run M entry moves).thread i = some p) :
    ¬ p.Reaches ok bad := by
  induction moves using List.reverseRecOn generalizing p with
  | nil => exact nomatch hp
  | append_singleton moves m ih =>
    by_cases hbefore : H ((Pool.quiet s).run M entry moves).shared
    · have ih := fun q hq =>
        ih (fun before m' after e => onset before m' (after ++ [m]) (by simp [e])) hbefore (p := q) hq
      rw [Pool.run_snoc] at hp
      rcases Pool.move_thread hp with hp | ⟨e, _, rfl⟩ | ⟨o, c, next, hnext, rfl, _⟩
      · exact ih p hp
      · exact start e
      · exact fun hr => ih _ hnext (Or.inr ⟨_, reply _ o c hbefore, hr⟩)
    · exact onset moves m [] rfl hbefore h p hp

/-- **Assume and guarantee.** If the replies are `ok` under the invariant, every call that is not bad keeps it, and
programs start out of reach, then the invariant holds all along and no program ever has a bad call within reach. -/
theorem Pool.unreached_invariant {bad : C → Prop} {I : σ → Prop} (init : I s)
    (reply : ∀ i s o c, I s → ok c (M.act i s o c).1) (step : ∀ i s o c, I s → ¬ bad c → I (M.act i s o c).2)
    (start : ∀ i e, ¬ (entry i e).Reaches ok bad) (moves : List (Move ι E O)) :
    I ((Pool.quiet s).run M entry moves).shared ∧
      ∀ i p, ((Pool.quiet s).run M entry moves).thread i = some p → ¬ p.Reaches ok bad := by
  induction moves using List.reverseRecOn with
  | nil => exact ⟨init, nofun⟩
  | append_singleton moves m ih =>
    obtain ⟨hI, hthreads⟩ := ih
    rw [Pool.run_snoc]
    refine ⟨?_, fun i p hp => ?_⟩
    · rcases Pool.move_shared _ m with h | ⟨i, o, c, next, hnext, h⟩
      · rw [h]; exact hI
      · rw [h]; exact step i _ o c hI fun hbad => hthreads i _ hnext (Or.inl hbad)
    · rcases Pool.move_thread hp with hp | ⟨e, _, rfl⟩ | ⟨o, c, next, hnext, rfl, _⟩
      · exact hthreads i p hp
      · exact start i e
      · exact fun hr => hthreads i _ hnext (Or.inr ⟨_, reply i _ o c hI, hr⟩)

/-- **Within reach under a condition.** If programs start out of reach, every move keeps the condition `J`, and `J`
holds each time that a reply that is not `ok` brings a bad call within reach of the program `i`, then `J` holds whenever
a bad call is within its reach. -/
theorem Pool.holds_within_reach {bad : C → Prop} {J : σ → Prop} (start : ∀ e, ¬ (entry i e).Reaches ok bad)
    (moves : List (Move ι E O))
    (kept : ∀ before m after, moves = before ++ m :: after → J ((Pool.quiet s).run M entry before).shared →
      J ((Pool.quiet s).run M entry (before ++ [m])).shared)
    (onset : ∀ before m after o c next, moves = before ++ m :: after →
      ((Pool.quiet s).run M entry before).thread i = some (.call c next) →
      ((Pool.quiet s).run M entry (before ++ [m])).thread i =
        some (next (M.act i ((Pool.quiet s).run M entry before).shared o c).1) →
      ((Pool.quiet s).run M entry (before ++ [m])).shared = (M.act i ((Pool.quiet s).run M entry before).shared o c).2 →
      ¬ ok c (M.act i ((Pool.quiet s).run M entry before).shared o c).1 →
      (next (M.act i ((Pool.quiet s).run M entry before).shared o c).1).Reaches ok bad →
      J ((Pool.quiet s).run M entry (before ++ [m])).shared)
    (hp : ((Pool.quiet s).run M entry moves).thread i = some p) (hr : p.Reaches ok bad) :
    J ((Pool.quiet s).run M entry moves).shared := by
  induction moves using List.reverseRecOn generalizing p with
  | nil => exact nomatch hp
  | append_singleton moves m ih =>
    have hbefore : ∀ q, ((Pool.quiet s).run M entry moves).thread i = some q → q.Reaches ok bad →
        J ((Pool.quiet s).run M entry moves).shared := fun q hq hr =>
      ih (fun before m' after e => kept before m' (after ++ [m]) (by simp [e]))
        (fun before m' after o c next e => onset before m' (after ++ [m]) o c next (by simp [e])) hq hr
    have hmove := hp
    rw [Pool.run_snoc] at hmove
    rcases Pool.move_thread hmove with hq | ⟨e, _, rfl⟩ | ⟨o, c, next, hnext, rfl, hs⟩
    · exact kept moves m [] rfl (hbefore p hq hr)
    · exact absurd hr (start e)
    · by_cases hok : ok c (M.act i ((Pool.quiet s).run M entry moves).shared o c).1
      · exact kept moves m [] rfl (hbefore _ hnext (Or.inr ⟨_, hok, hr⟩))
      · exact onset moves m [] o c next rfl hnext hp (by rw [Pool.run_snoc]; exact hs) hok hr

theorem Pool.thread_property {K : ι → Prog C R Unit → Prop} (start : ∀ i e, K i (entry i e))
    (step : ∀ i c next r, K i (.call c next) → K i (next r)) (moves : List (Move ι E O))
    (hp : ((Pool.quiet s).run M entry moves).thread i = some p) : K i p := by
  induction moves using List.reverseRecOn generalizing p with
  | nil => exact nomatch hp
  | append_singleton moves m ih =>
    rw [Pool.run_snoc] at hp
    rcases Pool.move_thread hp with hp | ⟨e, _, rfl⟩ | ⟨o, c, next, hnext, rfl, _⟩
    · exact ih hp
    · exact start i e
    · exact step i c next _ (ih hnext)

theorem Pool.thread_all {P : ι → C → Prop} (start : ∀ i e, (entry i e).All (P i)) (moves : List (Move ι E O))
    (hp : ((Pool.quiet s).run M entry moves).thread i = some p) : p.All (P i) :=
  Pool.thread_property (K := fun i p => p.All (P i)) start (fun _ _ _ r h => h.2 r) moves hp

end

end AgentFabric.Lib
