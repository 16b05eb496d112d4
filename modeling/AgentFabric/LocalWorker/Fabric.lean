import AgentFabric.LocalWorker.Receipts

/-!
# The adapter and its daemons together

Handlers and adapters share the network; every answer under way is borne out by some registry.
-/

namespace AgentFabric.LocalWorker

open AgentFabric.Lib Prog

section

-- the SHA-256 digest of a canonical request document
variable (requestDigest : RequestDigest)

/-- The registries of all daemons keep what handlers keep, and every answer that is under way is borne out. -/
structure NetInv (w : NetWorld) : Prop where
  worlds : ∀ k, SpawnInv requestDigest (w.state.worlds k)
  past : ∀ e ∈ w.state.exchanges, ∀ k, RegistryLe (e.registries k) (w.state.worlds k).state
  answers : ∀ a ∈ w.state.answers, ∀ d, a.source = some d → ∃ e, w.state.exchanges[a.conn]? = some e ∧
    Bears d e.request (e.registries d.key) a.response (w.state.worlds d.key)

end

/-- A step of any program: messages stay, and a registry moves on by a handler or stays as it is. -/
structure NetStep (i : Nat) (w w' : NetWorld) : Prop where
  exchanges : w.state.exchanges <+: w'.state.exchanges
  worlds : ∀ k, w'.state.worlds k = w.state.worlds k ∨ HandlerStep i (w.state.worlds k) (w'.state.worlds k)

theorem NetStep.le {i : Nat} {w w' : NetWorld} (h : NetStep i w w') (k : RegistryKey) :
    RegistryLe (w.state.worlds k).state (w'.state.worlds k).state := by
  rcases h.worlds k with hsame | hstep
  · rw [hsame]
    exact RegistryLe.refl _
  · exact hstep.1

section

variable {digest : String → String} {cfg : AdapterConfig} {requestDigest : RequestDigest}

theorem NetInv.step {i : Nat} {w w' : NetWorld} (h : NetInv requestDigest w) (hg : NetStep i w w')
    (hworlds : ∀ k, SpawnInv requestDigest (w'.state.worlds k))
    (hpast : ∀ e ∈ w'.state.exchanges, e ∈ w.state.exchanges ∨
      ∀ k, RegistryLe (e.registries k) (w'.state.worlds k).state)
    (hanswers : ∀ a ∈ w'.state.answers, a ∈ w.state.answers ∨ ∀ d, a.source = some d →
      ∃ e, w'.state.exchanges[a.conn]? = some e ∧
        Bears d e.request (e.registries d.key) a.response (w'.state.worlds d.key)) : NetInv requestDigest w' := by
  refine ⟨hworlds, fun e he k => ?_, fun a ha d hd => ?_⟩
  · rcases hpast e he with hold | hnew
    · exact (h.past e hold k).trans (hg.le k)
    · exact hnew k
  · rcases hanswers a ha with hold | hnew
    · obtain ⟨e, he, hbears⟩ := h.answers a hold d hd
      exact ⟨e, getElem?_of_prefix hg.exchanges he, hbears.mono (hg.le d.key)⟩
    · exact hnew d hd

/-! ## The adapter -/

variable {c : NetCall}

theorem adapter_worlds (hc : c.ofAdapter) (i : Nat) (s : Network) (env : NetEnvironment) :
    (netAct digest cfg i s env c).2.worlds = s.worlds := by
  cases c with
  | daemon => exact hc.elim
  | prepare =>
    simp only [netAct]
    split <;> rfl
  | _ => rfl

theorem adapter_answers (hc : c.ofAdapter) (i : Nat) (s : Network) (env : NetEnvironment) :
    (netAct digest cfg i s env c).2.answers = s.answers := by
  cases c with
  | respond => exact hc.elim
  | intrude => exact hc.elim
  | prepare =>
    simp only [netAct]
    split <;> rfl
  | _ => rfl

theorem netAct_sent {i : Nat} {s : Network} {env : NetEnvironment} {e : Exchange}
    (he : e ∈ (netAct digest cfg i s env c).2.exchanges) :
    e ∈ s.exchanges ∨ e.registries = fun k => (s.worlds k).state := by
  cases c with
  | send =>
    refine (List.mem_append.mp he).imp id fun hnew => ?_
    rw [List.mem_singleton.mp hnew]
  | prepare =>
    simp only [netAct] at he
    split at he <;> exact Or.inl he
  | _ => exact Or.inl he

/-- A call of the adapter keeps the invariant of the network. -/
theorem adapter_step (hc : c.ofAdapter) {w : NetWorld} (i : Nat) (env : NetEnvironment) (h : NetInv requestDigest w) :
    NetInv requestDigest ((netMachine digest cfg).traced.act i w env c).2 ∧
      NetStep i w ((netMachine digest cfg).traced.act i w env c).2 := by
  have hworlds : ((netMachine digest cfg).traced.act i w env c).2.state.worlds = w.state.worlds :=
    adapter_worlds hc i w.state env
  have hstep : NetStep i w ((netMachine digest cfg).traced.act i w env c).2 :=
    ⟨netAct_exchanges i w.state env c, fun k => Or.inl (congrFun hworlds k)⟩
  refine ⟨h.step hstep (fun k => by rw [hworlds]; exact h.worlds k) (fun e he => ?_) fun a ha => ?_, hstep⟩
  · refine (netAct_sent he).imp id fun hnew k => ?_
    rw [hworlds, hnew]
    exact RegistryLe.refl _
  · have hanswers : ((netMachine digest cfg).traced.act i w env c).2.state.answers = w.state.answers :=
      adapter_answers hc i w.state env
    exact Or.inl (hanswers ▸ ha)

/-! ## Daemons -/

variable {i : Nat} {α : Type}

/-- **A handler among the programs of the whole system.** -/
theorem onDaemon_outline (d : Daemon) {φ : World → Prop} {p : Prog Call Call.Reply α} {Q : α → World → Prop}
    (h : Outline machine.traced (SpawnInv requestDigest) HandlerStep i φ p Q) :
    Outline (netMachine digest cfg).traced (NetInv requestDigest) NetStep i (fun w => φ (w.state.worlds d.key))
      (onDaemon d p) fun a w => Q a (w.state.worlds d.key) := by
  have hworld : ∀ (w : NetWorld) (env : NetEnvironment) (c : Call),
      ((netMachine digest cfg).traced.act i w env (.daemon d c)).2.state.worlds d.key =
        (machine.traced.act i (w.state.worlds d.key) env.host c).2 := by
    intro w env c
    exact Function.update_self ..
  have hother : ∀ (w : NetWorld) (env : NetEnvironment) (c : Call) (k : RegistryKey), k ≠ d.key →
      ((netMachine digest cfg).traced.act i w env (.daemon d c)).2.state.worlds k = w.state.worlds k := by
    intro w env c k hk
    exact Function.update_of_ne hk ..
  refine Outline.embed (fun _ _ _ => rfl) hworld (fun w (hw : NetInv requestDigest w) => hw.worlds d.key) ?_ ?_ h
  · intro w env c hw hinv hg
    have hstep : NetStep i w ((netMachine digest cfg).traced.act i w env (.daemon d c)).2 := by
      refine ⟨List.prefix_refl _, fun k => ?_⟩
      by_cases hk : k = d.key
      · rw [hk]
        exact Or.inr hg
      · exact Or.inl (hother w env c k hk)
    refine ⟨hw.step hstep (fun k => ?_) (fun e he => Or.inl he) fun a ha => Or.inl ha, hstep⟩
    by_cases hk : k = d.key
    · rw [hk]
      exact hinv
    · rw [hother w env c k hk]
      exact hw.worlds k
  · exact fun j w w' _ _ hg => hg.worlds d.key

theorem respond_outline (d : Daemon) (conn : Nat) (e : Exchange) (response : WireResponse) :
    Outline (netMachine digest cfg).traced (NetInv requestDigest) NetStep i
      (fun w => Bears d e.request (e.registries d.key) response (w.state.worlds d.key) ∧
        w.state.exchanges[conn]? = some e)
      (.call (.respond conn d response) .ret) fun _ _ => True := by
  intro w env hw ⟨hbears, hconn⟩
  have hstep : NetStep i w ((netMachine digest cfg).traced.act i w env (.respond conn d response)).2 :=
    ⟨List.prefix_refl _, fun k => Or.inl rfl⟩
  refine ⟨hw.step hstep hw.worlds (fun e he => Or.inl he) fun a ha => ?_, hstep, fun _ => True, Stable.true, trivial,
    fun _ _ _ => trivial⟩
  refine (List.mem_append.mp ha).imp id fun hnew d' hd' => ?_
  obtain rfl := List.mem_singleton.mp hnew
  obtain rfl : d = d' := Option.some.inj hd'
  exact ⟨e, hconn, hbears⟩

theorem answer_outline (d : Daemon) (conn : Nat) (identity : String) (polls : Nat) :
    Outline (netMachine digest cfg).traced (NetInv requestDigest) NetStep i (fun _ => True)
      (answer requestDigest d conn identity polls) fun _ _ => True := by
  intro w env hw _
  have hstep : NetStep i w ((netMachine digest cfg).traced.act i w env (.take conn)).2 :=
    ⟨List.prefix_refl _, fun k => Or.inl rfl⟩
  refine ⟨hw.step hstep hw.worlds (fun e he => Or.inl he) fun a ha => Or.inl ha, hstep, ?_⟩
  have htake : ((netMachine digest cfg).traced.act i w env (.take conn)).1 = w.state.exchanges[conn]? := rfl
  rw [htake]
  cases he : w.state.exchanges[conn]? with
  | none => exact ⟨fun _ => True, Stable.true, trivial, fun _ _ _ => trivial⟩
  | some e =>
    have hlasts : ∀ j (w w' : NetWorld), NetInv requestDigest w → NetInv requestDigest w' → NetStep j w w' →
        w.state.exchanges[conn]? = some e → w'.state.exchanges[conn]? = some e :=
      fun j w w' _ _ hg h => getElem?_of_prefix hg.exchanges h
    refine ⟨fun w => RegistryLe (e.registries d.key) (w.state.worlds d.key).state ∧ w.state.exchanges[conn]? = some e,
      ?_, ⟨hw.past e (List.mem_of_getElem? he) d.key, he⟩, ?_⟩
    · exact fun j w w' _ hi hi' hg h => ⟨h.1.trans (hg.le d.key), hlasts j w w' hi hi' hg h.2⟩
    · refine Outline.bind (Outline.frame hlasts (onDaemon_outline d
        (respondTo_outline identity polls e.request (e.registries d.key)))) fun x => ?_
      cases x with
      | ok response => exact respond_outline d conn e response
      | error =>
        refine (respond_outline d conn e ⟨500, none, none⟩).weaken fun w _ h => ⟨⟨fun key hkey => ?_, ?_⟩, h.2⟩
        · obtain ⟨data, hdata, -⟩ := hkey
          cases hdata
        · exact fun _ _ _ (h : 500 = 404) => nomatch h

theorem serveNet_outline (i : Nat) (request : NetRequest) :
    Outline (netMachine digest cfg).traced (NetInv requestDigest) NetStep i (fun _ => True)
      (serveNet digest cfg requestDigest request) fun _ _ => True := by
  cases request with
  | adapter request =>
    refine Outline.bind (Outline.always Stable.true (operate_ofAdapter request) fun c w env hc hw _ => ?_)
      fun _ _ _ _ => trivial
    exact ⟨(adapter_step hc i env hw).1, (adapter_step hc i env hw).2, trivial⟩
  | answer d conn identity polls => exact answer_outline d conn identity polls
  | client request => exact onDaemon_outline request.daemon (serve_outline requestDigest i request)
  | stranger conn response =>
    intro w env hw _
    have hstep : NetStep i w ((netMachine digest cfg).traced.act i w env (.intrude conn response)).2 :=
      ⟨List.prefix_refl _, fun k => Or.inl rfl⟩
    refine ⟨hw.step hstep hw.worlds (fun e he => Or.inl he) fun a ha => ?_, hstep, fun _ => True, Stable.true, trivial,
      fun _ _ _ => trivial⟩
    refine (List.mem_append.mp ha).imp id fun hnew d hd => ?_
    obtain rfl := List.mem_singleton.mp hnew
    cases hd

/-! ## Every schedule -/

theorem netInv_initial (requestDigest : RequestDigest) :
    NetInv requestDigest ⟨Network.initial digest cfg, []⟩ where
  worlds _ := spawnInv_empty requestDigest
  past _ h := nomatch h
  answers _ h := nomatch h

/-- The invariant holds after every schedule. -/
theorem netRun_inv (moves : List (Move Nat NetRequest NetEnvironment)) :
    NetInv requestDigest (netRun digest cfg requestDigest moves) :=
  Pool.run_invariant serveNet_outline (netInv_initial requestDigest) moves

theorem netRun_le (moves later : List (Move Nat NetRequest NetEnvironment)) (k : RegistryKey) :
    RegistryLe ((netRun digest cfg requestDigest moves).state.worlds k).state
      ((netRun digest cfg requestDigest (moves ++ later)).state.worlds k).state := by
  unfold netRun
  rw [Pool.run_append]
  exact Pool.run_guarantee (P := fun w w' : NetWorld => RegistryLe (w.state.worlds k).state (w'.state.worlds k).state)
    serveNet_outline (fun _ => RegistryLe.refl _) RegistryLe.trans (fun hg => hg.le k)
    (Pool.run_sound serveNet_outline (Pool.quiet_sound (netInv_initial requestDigest)) moves) later

end

end AgentFabric.LocalWorker
