import AgentFabric.Lib.Handlers

/-!
# Programs and the replies they get

A program that gets good replies avoids bad calls, and promises something of its result or its error.
-/

namespace AgentFabric.Lib

namespace Prog

variable {C C' : Type} {R : C → Type} {R' : C' → Type} {α β : Type} {ok : (c : C) → R c → Prop} {bad : C → Prop}

/-- What is promised of a result and of an error. -/
def either {ε : Type} (Q : α → Prop) (E : ε → Prop) : Except ε α → Prop
  | .ok a => Q a
  | .error e => E e

/-- A program that may raise avoids the bad calls; its result satisfies `Q` and its error `E`. -/
def Upholds {ε : Type} (ok : (c : C) → R c → Prop) (bad : C → Prop) (Q : α → Prop) (E : ε → Prop)
    (p : Raising ε C R α) : Prop :=
  p.run.Avoids ok bad (either Q E)

namespace Upholds

variable {ε : Type} {Q : α → Prop} {Q' : β → Prop} {E : ε → Prop}

variable {p : Raising ε C R α}

theorem bind {f : α → Raising ε C R β} (hp : Upholds ok bad Q E p) (hf : ∀ a, Q a → Upholds ok bad Q' E (f a)) :
    Upholds ok bad Q' E (p >>= f) := by
  refine Avoids.bind hp fun r hr => ?_
  cases r with
  | ok a => exact hf a hr
  | error => exact hr

theorem ask {c : C} (h : ¬ bad c) : Upholds ok bad (ok c) E (Prog.ask c : Raising ε C R (R c)) :=
  ⟨h, fun _ hr => hr⟩

theorem pure {a : α} (h : Q a) : Upholds ok bad Q E (Pure.pure a : Raising ε C R α) := h

theorem throw {e : ε} (h : E e) : Upholds ok bad Q E (MonadExcept.throw e : Raising ε C R α) := h

theorem result {x : Except ε α} (h : either Q E x) : Upholds ok bad Q E (Prog.result x : Raising ε C R α) := h

theorem post {Q₁ Q₂ : α → Prop} {E₁ E₂ : ε → Prop} (h : Upholds ok bad Q₁ E₁ p) (hq : ∀ a, Q₁ a → Q₂ a)
    (he : ∀ e, E₁ e → E₂ e) : Upholds ok bad Q₂ E₂ p := by
  refine Avoids.mono h fun r hr => ?_
  cases r with
  | ok a => exact hq a hr
  | error e => exact he e hr

theorem of_obeys (hp : Obeys (fun c => ¬ bad c) p) :
    Upholds ok bad (fun _ => True) (fun _ => True) p := by
  refine (Avoids.of_all hp).mono fun r _ => ?_
  cases r <;> trivial

theorem rescue {E' : ε → Prop} {h : ε → Raising ε C R α} (hp : Upholds ok bad Q E p)
    (hh : ∀ e, E e → Upholds ok bad Q E' (h e)) : Upholds ok bad Q E' (tryCatch p h) := by
  refine Avoids.bind hp fun r hr => ?_
  cases r with
  | ok => exact hr
  | error e => exact hh e hr

theorem forM {l : List α} {f : α → Raising ε C R PUnit} (hf : ∀ a ∈ l, Upholds ok bad (fun _ => True) E (f a)) :
    Upholds ok bad (fun _ => True) E (l.forM f) := by
  induction l with
  | nil => exact pure trivial
  | cons a l ih => exact bind (hf a List.mem_cons_self) fun _ _ => ih fun b hb => hf b (List.mem_cons_of_mem a hb)

theorem attempt {E' : ε → Prop} (hp : Upholds ok bad Q E p) :
    Upholds ok bad (either Q E) E' (Prog.attempt p) :=
  Avoids.bind hp fun _ hr => hr

end Upholds

variable {p : Prog C R α}

theorem Avoids.of_bad {bad' : C → Prop} (h : p.Avoids ok bad Q) (hb : ∀ c, bad' c → bad c) : p.Avoids ok bad' Q := by
  induction p with
  | ret => exact h
  | call c next ih => exact ⟨fun hc => h.1 (hb c hc), fun r hr => ih r (h.2 r hr)⟩

theorem Avoids.and_all {bad' P : C → Prop} (h : p.Avoids ok bad Q) (hall : p.All P)
    (hb : ∀ c, ¬ bad c → P c → ¬ bad' c) : p.Avoids ok bad' Q := by
  induction p with
  | ret => exact h
  | call c next ih => exact ⟨hb c h.1 hall.1, fun r hr => ih r (h.2 r hr) (hall.2 r)⟩

/-- Where every reply is `ok`, no bad call can be made at all. -/
theorem Avoids.all (h : p.Avoids ok bad Q) (hok : ∀ c r, ok c r) :
    p.All fun c => ¬ bad c := by
  induction p with
  | ret => trivial
  | call c next ih => exact ⟨h.1, fun r => ih r (h.2 r (hok c r))⟩

/-- The program makes these calls, gets these replies and ends with this result. -/
inductive Executes : Prog C R α → List (Σ c, R c) → α → Prop
  | done (a : α) : Executes (ret a) [] a
  | step (c : C) (next : R c → Prog C R α) (r : R c) (calls : List (Σ c, R c)) (a : α)
      (rest : Executes (next r) calls a) : Executes (call c next) (⟨c, r⟩ :: calls) a

/-- An execution whose replies are all `ok` ends as promised. -/
theorem Avoids.executes {calls : List (Σ c, R c)} {a : α} (h : p.Avoids ok bad Q) (hx : p.Executes calls a)
    (hok : ∀ e ∈ calls, ok e.1 e.2) : Q a := by
  induction hx with
  | done => exact h
  | step c next r calls a _ ih =>
    exact ih (h.2 r (hok ⟨c, r⟩ List.mem_cons_self)) fun e he => hok e (List.mem_cons_of_mem _ he)

theorem Executes.of_bind {f : α → Prog C R β} {calls : List (Σ c, R c)} {b : β} (h : (p.bind f).Executes calls b) :
    ∃ first a second, calls = first ++ second ∧ p.Executes first a ∧
      (f a).Executes second b := by
  induction p generalizing calls with
  | ret a => exact ⟨[], a, calls, rfl, .done a, h⟩
  | call c next ih =>
    cases h with
    | step _ _ r calls _ rest =>
      obtain ⟨first, a, second, rfl, hfirst, hsecond⟩ := ih r rest
      exact ⟨⟨c, r⟩ :: first, a, second, rfl, .step c next r first a hfirst, hsecond⟩

/-- A program that may raise has raised exactly when one of its calls failed. -/
def Candid {ε : Type} (failed : (c : C) → R c → Prop) (p : Raising ε C R α) : Prop :=
  ∀ calls x, p.run.Executes calls x → ((∃ e, x = .error e) ↔ ∃ e ∈ calls, failed e.1 e.2)

namespace Candid

variable {ε : Type} {failed : (c : C) → R c → Prop}

theorem pure (a : α) : Candid failed (Pure.pure a : Raising ε C R α) := by
  rintro calls x ⟨⟩
  simp

theorem bind {p : Raising ε C R α} {f : α → Raising ε C R β} (hp : Candid failed p) (hf : ∀ a, Candid failed (f a)) :
    Candid failed (p >>= f) := by
  intro calls x hx
  obtain ⟨first, y, second, rfl, hfirst, hsecond⟩ := Executes.of_bind hx
  cases y with
  | error e =>
    obtain ⟨c, hc, hfailed⟩ := (hp first _ hfirst).mp ⟨e, rfl⟩
    cases hsecond
    exact iff_of_true ⟨e, rfl⟩ ⟨c, List.mem_append_left _ hc, hfailed⟩
  | ok a =>
    have hclean : ¬ ∃ c ∈ first, failed c.1 c.2 := fun h => by
      obtain ⟨e, he⟩ := (hp first _ hfirst).mpr h
      cases he
    rw [hf a second x hsecond]
    constructor
    · rintro ⟨c, hc, hfailed⟩
      exact ⟨c, List.mem_append_right _ hc, hfailed⟩
    · rintro ⟨c, hc, hfailed⟩
      rcases List.mem_append.mp hc with hc | hc
      · exact absurd ⟨c, hc, hfailed⟩ hclean
      · exact ⟨c, hc, hfailed⟩

theorem ask {c : C} (h : ∀ r, ¬ failed c r) : Candid failed (Prog.ask c : Raising ε C R (R c)) := by
  intro calls x hx
  cases hx with
  | step _ _ r _ _ rest =>
    cases rest
    simpa using h r

theorem asked {c : C} {g : R c → Except ε α} (h : ∀ r, (∃ e, g r = .error e) ↔ failed c r) :
    Candid failed ((Prog.ask c : Raising ε C R (R c)) >>= fun r => Prog.result (g r)) := by
  intro calls x hx
  cases hx with
  | step _ _ r _ _ rest =>
    cases rest
    simpa using h r

theorem mapError_error {ε' : Type} {f : ε → ε'} {x : Except ε α} :
    (∃ e, x.mapError f = .error e) ↔ ∃ e, x = .error e := by
  cases x <;> simp [Except.mapError]

theorem asked_bind {c : C} {g : R c → Except ε α} {f : α → Raising ε C R β}
    (h : ∀ r, (∃ e, g r = .error e) ↔ failed c r) (hf : ∀ a, Candid failed (f a)) :
    Candid failed ((Prog.ask c : Raising ε C R (R c)) >>= fun r => Prog.result (g r) >>= f) := by
  intro calls x hx
  refine bind (asked h) hf calls x ?_
  cases hx with
  | step _ _ r calls _ rest => exact .step c _ r calls x rest

end Candid

end Prog

section

variable {ι σ C O E : Type} {R : C → Type} [DecidableEq ι] {M : Machine ι σ C R O} {entry : ι → E → Prog C R Unit}

theorem Pool.trace_grows (pool : Pool ι (Traced ι σ C R) C R) (moves : List (Move ι E O)) :
    pool.shared.trace <+: (pool.run M.traced entry moves).shared.trace := by
  induction moves using List.reverseRecOn with
  | nil => exact List.prefix_refl _
  | append_singleton moves m ih =>
    rw [Pool.run_snoc]
    rcases @Pool.move_shared _ _ _ _ _ _ _ M.traced entry (pool.run M.traced entry moves) m with
      hsame | ⟨i, o, c, next, hnext, hact⟩
    · rw [hsame]
      exact ih
    · rw [hact]
      exact ih.trans (List.prefix_append _ _)

variable {moves : List (Move ι E O)}

/-- A call made since was made by a step of the schedule, from the state before it. -/
theorem Pool.trace_since {pool : Pool ι (Traced ι σ C R) C R} {later : List (Event ι C R)} {e : Event ι C R}
    (h : (pool.run M.traced entry moves).shared.trace = pool.shared.trace ++ later) (he : e ∈ later) :
    ∃ before o after next, moves = before ++ .step e.thread o :: after ∧
      (pool.run M.traced entry before).thread e.thread = some (.call e.call next) ∧
      e.reply = (M.act e.thread (pool.run M.traced entry before).shared.state o e.call).1 := by
  induction moves using List.reverseRecOn generalizing later with
  | nil =>
    obtain rfl := List.append_right_eq_self.mp h.symm
    cases he
  | append_singleton moves m ih =>
    obtain ⟨earlier, hearlier⟩ := @Pool.trace_grows _ _ _ _ _ _ _ M entry pool moves
    have hkeep : e ∈ earlier → ∃ before o after next, moves ++ [m] = before ++ .step e.thread o :: after ∧
        (pool.run M.traced entry before).thread e.thread = some (.call e.call next) ∧
        e.reply = (M.act e.thread (pool.run M.traced entry before).shared.state o e.call).1 := by
      intro hold
      obtain ⟨before, o, after, next, rfl, hrest⟩ := ih hearlier.symm hold
      exact ⟨before, o, after ++ [m], next, by simp, hrest⟩
    rw [Pool.run_snoc] at h
    cases m with
    | start =>
      simp only [Pool.move] at h
      split at h <;> exact hkeep (List.append_cancel_left (hearlier.trans h) ▸ he)
    | drop => exact hkeep (List.append_cancel_left (hearlier.trans h) ▸ he)
    | step j o =>
      simp only [Pool.move] at h
      split at h
      · rename_i c next hj
        have hnew : later = earlier ++ [⟨j, c, (M.act j (pool.run M.traced entry moves).shared.state o c).1⟩] := by
          have hboth : pool.shared.trace ++ later = pool.shared.trace ++
              (earlier ++ [⟨j, c, (M.act j (pool.run M.traced entry moves).shared.state o c).1⟩]) := by
            rw [← List.append_assoc, hearlier]
            exact h.symm
          exact List.append_cancel_left hboth
        rw [hnew, List.mem_append, List.mem_singleton] at he
        rcases he with hold | rfl
        · exact hkeep hold
        · exact ⟨moves, o, [], next, rfl, hj, rfl⟩
      · exact hkeep (List.append_cancel_left (hearlier.trans h) ▸ he)

theorem Pool.trace_origin {s : σ} {e : Event ι C R}
    (he : e ∈ ((Pool.quiet ⟨s, []⟩).run M.traced entry moves).shared.trace) :
    ∃ before o after next, moves = before ++ .step e.thread o :: after ∧
      ((Pool.quiet ⟨s, []⟩).run M.traced entry before).thread e.thread = some (.call e.call next) ∧
      e.reply = (M.act e.thread ((Pool.quiet ⟨s, []⟩).run M.traced entry before).shared.state o e.call).1 := by
  have hall : ((Pool.quiet ⟨s, []⟩).run M.traced entry moves).shared.trace =
      (Pool.quiet ⟨s, []⟩ : Pool ι (Traced ι σ C R) C R).shared.trace ++
        ((Pool.quiet ⟨s, []⟩).run M.traced entry moves).shared.trace := rfl
  exact Pool.trace_since hall he

theorem Pool.trace_step {s : σ} {before after : List (Move ι E O)} {i : ι} {o : O} {c : C} {next : R c → Prog C R Unit}
    (h : ((Pool.quiet ⟨s, []⟩).run M.traced entry before).thread i = some (.call c next)) :
    ⟨i, c, (M.act i ((Pool.quiet ⟨s, []⟩).run M.traced entry before).shared.state o c).1⟩ ∈
      ((Pool.quiet ⟨s, []⟩).run M.traced entry (before ++ .step i o :: after)).shared.trace := by
  rw [show before ++ Move.step i o :: after = (before ++ [Move.step i o]) ++ after by simp, Pool.run_append]
  refine (Pool.trace_grows _ after).subset ?_
  rw [Pool.run_snoc]
  simp only [Pool.move, h]
  exact List.mem_append_right _ (List.mem_singleton.mpr rfl)

theorem Pool.act_invariant {J : σ → Prop} {pool : Pool ι σ C R} (init : J pool.shared)
    (step : ∀ i s o c, J s → J (M.act i s o c).2) (moves : List (Move ι E O)) :
    J (pool.run M entry moves).shared := by
  induction moves using List.reverseRecOn with
  | nil => exact init
  | append_singleton moves m ih =>
    rw [Pool.run_snoc]
    rcases @Pool.move_shared _ _ _ _ _ _ _ M entry (pool.run M entry moves) m with hsame | ⟨i, o, c, next, _, hact⟩
    · rw [hsame]
      exact ih
    · rw [hact]
      exact step i _ o c ih

/-- What the calls of a schedule keep, each in the state where it is made, holds in the end. -/
theorem Pool.act_along {J : σ → Prop} {pool : Pool ι σ C R} (init : J pool.shared)
    (step : ∀ before i o after c next, moves = before ++ .step i o :: after →
      (pool.run M entry before).thread i = some (.call c next) → J (pool.run M entry before).shared →
      J (M.act i (pool.run M entry before).shared o c).2) : J (pool.run M entry moves).shared := by
  induction moves using List.reverseRecOn with
  | nil => exact init
  | append_singleton moves m ih =>
    have hkept : J (pool.run M entry moves).shared := by
      refine ih ?_
      rintro before i o after c next rfl
      exact step before i o (after ++ [m]) c next (by simp)
    rw [Pool.run_snoc]
    cases m with
    | start =>
      simp only [Pool.move]
      split <;> exact hkept
    | drop => exact hkept
    | step j o =>
      simp only [Pool.move]
      split
      · rename_i c next hj
        exact step moves j o [] c next rfl hj hkept
      · exact hkept

/-- **No bad call.** If every reply of a schedule is `ok` and the programs avoid the bad calls by `ok` replies, then no
bad call is made. -/
theorem Pool.trace_avoids {ok : (c : C) → R c → Prop} {bad : C → Prop} {s : σ}
    (start : ∀ i e, (entry i e).Avoids ok bad fun _ => True) (moves : List (Move ι E O))
    (reply : ∀ e ∈ ((Pool.quiet ⟨s, []⟩).run M.traced entry moves).shared.trace, ok e.call e.reply) :
    (∀ e ∈ ((Pool.quiet ⟨s, []⟩).run M.traced entry moves).shared.trace, ¬ bad e.call) ∧
      ∀ i p, ((Pool.quiet ⟨s, []⟩).run M.traced entry moves).thread i = some p → p.Avoids ok bad fun _ => True := by
  induction moves using List.reverseRecOn with
  | nil => exact ⟨nofun, nofun⟩
  | append_singleton moves m ih =>
    have hgrows : ((Pool.quiet ⟨s, []⟩).run M.traced entry moves).shared.trace <+:
        ((Pool.quiet ⟨s, []⟩).run M.traced entry (moves ++ [m])).shared.trace := by
      rw [Pool.run_append]
      exact Pool.trace_grows _ [m]
    obtain ⟨htrace, hthreads⟩ := ih fun e he => reply e (hgrows.subset he)
    rw [Pool.run_snoc] at reply ⊢
    constructor
    · intro e he
      rcases @Pool.move_shared _ _ _ _ _ _ _ M.traced entry ((Pool.quiet ⟨s, []⟩).run M.traced entry moves) m with
        hsame | ⟨i, o, c, next, hnext, hact⟩
      · rw [hsame] at he
        exact htrace e he
      · rw [hact] at he
        rcases List.mem_append.mp he with hold | hnew
        · exact htrace e hold
        · obtain rfl := List.mem_singleton.mp hnew
          exact (hthreads i _ hnext).1
    · intro i p hp
      rcases Pool.move_thread hp with hold | ⟨e, _, rfl⟩ | ⟨o, c, next, hnext, rfl, hact⟩
      · exact hthreads i p hold
      · exact start i e
      · refine (hthreads i _ hnext).2 _ (reply ⟨i, c, _⟩ ?_)
        rw [hact]
        exact List.mem_append_right _ (List.mem_singleton.mpr rfl)

end

section

variable {ι σ σ' C C' O O' : Type} {R : C → Type} {R' : C' → Type} {M : Machine ι σ C R O} {M' : Machine ι σ' C' R' O'}
  {I : σ → Prop} {I' : σ' → Prop} {G : ι → σ → σ → Prop} {G' : ι → σ' → σ' → Prop} {i : ι} {α : Type}

/-- **A part of a larger state.** An outline over the part is one over the whole, if the calls act on the part as they
did, and the other programs leave the part alone or respect what its programs rely on. -/
theorem Outline.embed {inj : C → C'} {back : (c : C) → R' (inj c) → R c} {proj : σ' → σ} {env : O' → O}
    (reply : ∀ s o c, back c (M'.act i s o (inj c)).1 = (M.act i (proj s) (env o) c).1)
    (state : ∀ s o c, proj (M'.act i s o (inj c)).2 = (M.act i (proj s) (env o) c).2)
    (inv : ∀ s, I' s → I (proj s))
    (keep : ∀ s o c, I' s → I (proj (M'.act i s o (inj c)).2) → G i (proj s) (proj (M'.act i s o (inj c)).2) →
      I' (M'.act i s o (inj c)).2 ∧ G' i s (M'.act i s o (inj c)).2)
    (rely : ∀ j s s', I' s → I' s' → G' j s s' → proj s' = proj s ∨ G j (proj s) (proj s'))
    {φ : σ → Prop} {p : Prog C R α} {Q : α → σ → Prop} (h : Outline M I G i φ p Q) :
    Outline M' I' G' i (fun s => φ (proj s)) (p.interp fun c => (Prog.perform (inj c)).bind fun r => .ret (back c r))
      fun a s => Q a (proj s) := by
  induction p generalizing φ with
  | ret => exact fun s hi hs => h (proj s) (inv s hi) hs
  | call c next ih =>
    intro s o hi hs
    obtain ⟨hi', hg, ψ, hst, hψ, hrest⟩ := h (proj s) (env o) (inv s hi) hs
    rw [← state s o c] at hi' hg hψ
    obtain ⟨hkeep, hguar⟩ := keep s o c hi hi' hg
    refine ⟨hkeep, hguar, fun s => ψ (proj s), ?_, hψ, ?_⟩
    · intro j t t' hj ht ht' hg' hψt
      rcases rely j t t' ht ht' hg' with hsame | hstep
      · rw [hsame]
        exact hψt
      · exact hst j _ _ hj (inv t ht) (inv t' ht') hstep hψt
    · rw [← reply s o c] at hrest
      exact ih _ hrest

end

section

variable {ι σ C O : Type} {R : C → Type} {M : Machine ι σ C R O} {I : σ → Prop} {G : ι → σ → σ → Prop}
    {i : ι} {α : Type}

/-- **The frame rule.** What every step of every program respects stays along an outline. -/
theorem Outline.frame {φ ψ : σ → Prop} {p : Prog C R α} {Q : α → σ → Prop}
    (lasts : ∀ j s s', I s → I s' → G j s s' → ψ s → ψ s') (h : Outline M I G i φ p Q) :
    Outline M I G i (fun s => φ s ∧ ψ s) p fun a s => Q a s ∧ ψ s := by
  induction p generalizing φ with
  | ret => exact fun s hi hs => ⟨h s hi hs.1, hs.2⟩
  | call c next ih =>
    intro s o hi hs
    obtain ⟨hi', hg, χ, hst, hχ, hrest⟩ := h s o hi hs.1
    refine ⟨hi', hg, _, ?_, ⟨hχ, lasts i _ _ hi hi' hg hs.2⟩, ih _ hrest⟩
    intro j t t' hj ht ht' hg' hφ
    exact ⟨hst j t t' hj ht ht' hg' hφ.1, lasts j t t' ht ht' hg' hφ.2⟩

end

section

variable {ι σ C O V : Type} {R : C → Type} {M : Machine ι σ C R O} {I : σ → Prop} {G : ι → σ → σ → Prop} {i : ι}
  {α : Type}

/-- The program returns nothing but what it was shown: whatever holds of all that the replies show, and of what was
`seen` before, holds of all that the result shows. -/
def Relays (shown : (c : C) → R c → V → Prop) (shows' : α → V → Prop) (seen : V → Prop) (p : Prog C R α) : Prop :=
  ∀ S : V → Prop, (∀ v, seen v → S v) →
    p.Avoids (fun c r => ∀ v, shown c r v → S v) (fun _ => False) fun a => ∀ v, shows' a v → S v

/-- **Nothing but what it was shown.** What holds of whatever a reply shows, and lasts, holds of what the result
shows. -/
theorem Outline.relays {shown : (c : C) → R c → V → Prop} {shows' : α → V → Prop} {seen : V → Prop} {K : σ → V → Prop}
    (known : ∀ s o c, I s → I (M.act i s o c).2 → ∀ v, shown c (M.act i s o c).1 v → K (M.act i s o c).2 v)
    (lasts : ∀ j s s', I s → I s' → G j s s' → ∀ v, K s v → K s' v) {φ : σ → Prop} {p : Prog C R α}
    {Q : α → σ → Prop} (h : Outline M I G i φ p Q) (hp : Relays shown shows' seen p) :
    Outline M I G i (fun s => φ s ∧ ∀ v, seen v → K s v) p fun a s => Q a s ∧ ∀ v, shows' a v → K s v := by
  induction p generalizing φ seen with
  | ret => exact fun s hi hs => ⟨h s hi hs.1, fun v hv => hp (K s) hs.2 v hv⟩
  | call c next ih =>
    intro s o hi hs
    obtain ⟨hi', hg, ψ, hst, hψ, hrest⟩ := h s o hi hs.1
    have hnext : Relays shown shows' (fun v => seen v ∨ shown c (M.act i s o c).1 v) (next (M.act i s o c).1) :=
      fun S hS => (hp S fun v hv => hS v (Or.inl hv)).2 _ fun v hv => hS v (Or.inr hv)
    refine ⟨hi', hg, _, ?_, ⟨hψ, ?_⟩, ih _ hrest hnext⟩
    · intro j t t' hj ht ht' hg' hφ
      exact ⟨hst j t t' hj ht ht' hg' hφ.1, fun v hv => lasts j t t' ht ht' hg' v (hφ.2 v hv)⟩
    · rintro v (hold | hnew)
      · exact lasts i _ _ hi hi' hg v (hs.2 v hold)
      · exact known s o c hi hi' v hnew

end

end AgentFabric.Lib
