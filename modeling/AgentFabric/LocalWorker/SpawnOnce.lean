import AgentFabric.LocalWorker.Calls

/-!
# One spawn for each idempotency key

Only the winner of a claim reaches the spawn, and a claimed record is never claimed again.
-/

namespace AgentFabric.LocalWorker

open AgentFabric.Lib

abbrev HandlerEvent := Event Nat Call Call.Reply

abbrev World := Traced Nat Registry Call Call.Reply

/-- The record of a reply that says the caller created or owns it. -/
def owned : Except RegistryError (LaunchRecord × Bool) → Option LaunchRecord
  | .ok (r, true) => some r
  | _ => none

/-- The record that a call bound to its key. -/
def boundRecord : HandlerEvent → Option LaunchRecord
  | ⟨_, .reserve .., reply⟩ => owned reply
  | ⟨_, .rejectPreLaunch .., reply⟩ => owned reply
  | _ => none

/-- The record whose spawn a call claimed, and the claimant. -/
def claimedRecord : HandlerEvent → Option (Nat × LaunchRecord)
  | ⟨i, .claimSpawn .., reply⟩ => (owned reply).map (i, ·)
  | _ => none

/-- An attempt to create a process. -/
structure Spawn where
  thread : Nat
  record : LaunchRecord
  request : LaunchRequestSpec

def spawnAttempt : HandlerEvent → Option Spawn
  | ⟨i, .spawn record request, _⟩ => some ⟨i, record, request⟩
  | _ => none

def LaunchRecord.under (scope key : String) (r : LaunchRecord) : Bool :=
  r.authorityScope = scope && r.idempotencyKey = key

variable {r : LaunchRecord}

@[simp] theorem LaunchRecord.under_iff :
    r.under scope key = true ↔ r.authorityScope = scope ∧ r.idempotencyKey = key := by
  simp [LaunchRecord.under]

/-- The records bound to a key, the first one first. -/
def bindings (trace : List HandlerEvent) (scope key : String) : List LaunchRecord :=
  (trace.filterMap boundRecord).filter (·.under scope key)

def claims (trace : List HandlerEvent) (scope key : String) : List (Nat × LaunchRecord) :=
  (trace.filterMap claimedRecord).filter (·.2.under scope key)

def spawns (trace : List HandlerEvent) (scope key : String) : List Spawn :=
  (trace.filterMap spawnAttempt).filter (·.record.under scope key)

def firstDigest (trace : List HandlerEvent) (scope key : String) : Option String :=
  (bindings trace scope key).head?.map (·.requestDigest)

section

variable {trace : List HandlerEvent} {e : HandlerEvent} {scope key : String}

theorem bindings_concat : bindings (trace ++ [e]) scope key =
    bindings trace scope key ++ (boundRecord e).toList.filter (·.under scope key) := by
  cases h : boundRecord e <;> simp [bindings, List.filterMap_append, h]

theorem claims_concat : claims (trace ++ [e]) scope key =
    claims trace scope key ++ (claimedRecord e).toList.filter (·.2.under scope key) := by
  cases h : claimedRecord e <;> simp [claims, List.filterMap_append, h]

theorem spawns_concat : spawns (trace ++ [e]) scope key =
    spawns trace scope key ++ (spawnAttempt e).toList.filter (·.record.under scope key) := by
  cases h : spawnAttempt e <;> simp [spawns, List.filterMap_append, h]

end

/-! ## One call -/

/-- Everything a call can do to the registry, by what the trace shows of it. -/
inductive CallEffect (reg : Registry) (e : HandlerEvent) (reg' : Registry) : Prop
  | bound (fresh : LaunchRecord) (shown : boundRecord e = some fresh) (unclaimed : claimedRecord e = none)
      (unused : reg.byKey fresh.authorityScope fresh.idempotencyKey = none) (step : RegistryStep reg reg')
      (rows : reg'.rows = reg.rows ++ [fresh])
  | claimed (r₀ : LaunchRecord) (nonce rid : String) (unbound : boundRecord e = none)
      (shown : claimedRecord e = some (e.thread, r₀.launch nonce rid)) (mem : r₀ ∈ reg.rows)
      (reserved : r₀.launchState = .reserved)
      (rows : ∀ x, x ∈ reg'.rows ↔ x = r₀.launch nonce rid ∨ (x ∈ reg.rows ∧ x ≠ r₀))
  | other (unbound : boundRecord e = none) (unclaimed : claimedRecord e = none) (step : Rewrites reg reg')

section

variable {reg : Registry} {env : Environment} {i : Nat}

theorem transact_cases {α : Type} (env : Environment) (reg : Registry) (op : Except RegistryError (α × Registry)) :
    (∃ a reg', op = .ok (a, reg') ∧ transact env reg op = (.ok a, reg')) ∨
      ∃ e, transact env reg op = (.error e, reg) := by
  unfold transact
  split
  · cases op with
    | ok p => exact Or.inl ⟨p.1, p.2, rfl, rfl⟩
    | error e => exact Or.inr ⟨e, rfl⟩
  · exact Or.inr ⟨_, rfl⟩

theorem Bound.effect {reg' : Registry} {scope key digest : String} {r : LaunchRecord} {b : Bool}
    (h : Bound reg reg' scope key digest r b) (hb : boundRecord e = owned (.ok (r, b))) (hc : claimedRecord e = none) :
    CallEffect reg e reg' := by
  cases b with
  | false =>
    obtain rfl := h.old rfl
    exact .other hb hc (Or.inl rfl)
  | true =>
    obtain ⟨hunused, hrows⟩ := h.new rfl
    obtain ⟨_, rfl, rfl⟩ := Registry.byKey_eq_some.mp h.here
    exact .bound r hb hc hunused h.step hrows

theorem transact_other {α : Type} {op : Except RegistryError (α × Registry)}
    (step : ∀ {a reg'}, op = .ok (a, reg') → Rewrites reg reg') (hb : boundRecord e = none)
    (hc : claimedRecord e = none) : CallEffect reg e (transact env reg op).2 := by
  rcases transact_cases env reg op with ⟨a, reg', hop, h⟩ | ⟨_, h⟩
  · rw [h]; exact .other hb hc (step hop)
  · rw [h]; exact .other hb hc (Or.inl rfl)

theorem act_effect (reg : Registry) (env : Environment) (i : Nat) (c : Call) :
    CallEffect reg ⟨i, c, (act reg env c).1⟩ (act reg env c).2 := by
  cases c with
  | reserve scope key digest driver =>
    simp only [act]
    rcases transact_cases env reg (reserve reg scope key digest driver env.draw) with ⟨a, reg', hop, h⟩ | ⟨_, h⟩
    · rw [h]; exact (reserve_ok hop).effect rfl rfl
    · rw [h]; exact .other rfl rfl (Or.inl rfl)
  | rejectPreLaunch scope key digest reason driver =>
    simp only [act]
    rcases transact_cases env reg (rejectPreLaunch reg scope key digest reason driver env.draw) with
      ⟨a, reg', hop, h⟩ | ⟨_, h⟩
    · rw [h]; exact (rejectPreLaunch_ok hop).effect rfl rfl
    · rw [h]; exact .other rfl rfl (Or.inl rfl)
  | claimSpawn scope key rid =>
    simp only [act]
    rcases transact_cases env reg (claimSpawn reg scope key rid env.draw) with ⟨⟨r, b⟩, reg', hop, h⟩ | ⟨_, h⟩
    · rw [h]
      obtain ⟨r₀, hr₀, ⟨rfl, _, _, rfl⟩ | ⟨rfl, hs, ⟨nonce, rfl⟩, hrows⟩⟩ := claimSpawn_ok hop
      · exact .other rfl rfl (Or.inl rfl)
      · exact .claimed r₀ nonce rid rfl rfl (Registry.byKey_eq_some.mp hr₀).1 hs hrows
    · rw [h]; exact .other rfl rfl (Or.inl rfl)
  | recordStarted scope key receipt pid birth host =>
    exact transact_other (fun h => (recordStarted_ok h).rewrites) rfl rfl
  | recordLaunchError scope key detail => exact transact_other (fun h => (recordLaunchError_ok h).rewrites) rfl rfl
  | recordTerminal scope key receipt state result code =>
    exact transact_other (fun h => (recordTerminal_ok h).rewrites) rfl rfl
  | _ => exact .other rfl rfl (Or.inl rfl)

theorem CallEffect.step {reg' : Registry} (h : CallEffect reg e reg') : RegistryStep reg reg' := by
  cases h with
  | bound fresh shown unclaimed unused step rows => exact step
  | claimed r₀ nonce rid unbound shown mem reserved rows =>
    exact .rewrite (Or.inr ⟨r₀, _, mem, .launch nonce rid reserved, rows⟩)
  | other unbound unclaimed step => exact .rewrite step

end

/-! ## The invariant -/

-- the SHA-256 digest of a canonical request document
variable (requestDigest : RequestDigest)

/-- A claim is unique for its key, a spawn belongs to the thread that holds the claim, and the bound digest is the one
on record. -/
structure SpawnInv (w : World) : Prop where
  issued : w.state.Issued
  bound : ∀ scope key, firstDigest w.trace scope key = (w.state.byKey scope key).map (·.requestDigest)
  claimed : ∀ scope key, ∀ c ∈ claims w.trace scope key,
    c.2.launchState = .launching ∧ ∃ r, w.state.byKey scope key = some r ∧ RecordLe c.2 r
  claims_le : ∀ scope key, (claims w.trace scope key).length ≤ 1
  spawns_le : ∀ scope key, (spawns w.trace scope key).length ≤ 1
  spawned : ∀ scope key, ∀ s ∈ spawns w.trace scope key, (s.thread, s.record) ∈ claims w.trace scope key ∧
    requestDigest s.request.runId s.request.taskId s.request.job = s.record.requestDigest

variable {requestDigest}

/-- The digest on record is the one first bound, before and after any call. -/
theorem bound_step {reg reg' : Registry} (hi : reg.Issued) (heff : CallEffect reg e reg')
    (h : firstDigest trace scope key = (reg.byKey scope key).map (·.requestDigest)) :
    firstDigest (trace ++ [e]) scope key = (reg'.byKey scope key).map (·.requestDigest) := by
  unfold firstDigest at h ⊢
  rw [bindings_concat]
  cases hr : reg.byKey scope key with
  | some r =>
    -- the key was bound before: neither the head of the bindings nor the digest of the record changes
    obtain ⟨r', hr', hle⟩ := (heff.step.le hi).byKey hr
    rw [hr] at h
    rw [hr', Option.map_some, hle.digest]
    cases hb : bindings trace scope key with
    | nil => rw [hb] at h; cases h
    | cons x xs => rw [hb] at h; exact h
  | none =>
    rw [hr] at h
    have hnil : bindings trace scope key = [] := by
      cases hb : bindings trace scope key with
      | nil => rfl
      | cons x xs => rw [hb] at h; cases h
    rw [hnil, List.nil_append]
    cases heff with
    | bound fresh shown unclaimed unused step rows =>
      rw [shown]
      by_cases hu : fresh.under scope key = true
      · obtain ⟨rfl, rfl⟩ := LaunchRecord.under_iff.mp hu
        have hmem : fresh ∈ reg'.rows := by rw [rows]; simp
        rw [Registry.byKey_eq_some.mpr ⟨hmem, rfl, rfl⟩]
        simp [hu]
      · have hnone : reg'.byKey scope key = none := by
          refine Registry.byKey_eq_none.mpr fun x hx => ?_
          rw [rows, List.mem_append, List.mem_singleton] at hx
          rcases hx with hx | rfl
          · exact Registry.byKey_eq_none.mp hr x hx
          · exact fun hx => hu (LaunchRecord.under_iff.mpr hx)
        simp [hnone, hu]
    | claimed r₀ nonce rid unbound shown mem reserved rows =>
      have hnone := Rewrites.unused (Or.inr ⟨r₀, _, mem, .launch nonce rid reserved, rows⟩) hr
      simp [unbound, hnone]
    | other unbound unclaimed step => simp [unbound, step.unused hr]

variable {w : World}

theorem claims_nil (h : SpawnInv requestDigest w) (hmem : r ∈ w.state.rows) (hs : r.launchState = .reserved) :
    claims w.trace r.authorityScope r.idempotencyKey = [] := by
  refine List.eq_nil_iff_forall_not_mem.mpr fun c hc => ?_
  obtain ⟨hl, r', hr', hle⟩ := h.claimed _ _ c hc
  rw [Registry.byKey_eq_some.mpr ⟨hmem, rfl, rfl⟩] at hr'
  obtain rfl := Option.some.inj hr'
  have hrank := hle.rank
  rw [hl, hs] at hrank
  cases hrank

/-- Claims stay unique and on record. -/
theorem claims_step {reg' : Registry} (h : SpawnInv requestDigest w) (heff : CallEffect w.state e reg')
    (scope key : String) :
    (claims (w.trace ++ [e]) scope key).length ≤ 1 ∧ ∀ c ∈ claims (w.trace ++ [e]) scope key,
      c.2.launchState = .launching ∧ ∃ r, reg'.byKey scope key = some r ∧ RecordLe c.2 r := by
  have hold : ∀ c ∈ claims w.trace scope key,
      c.2.launchState = .launching ∧ ∃ r, reg'.byKey scope key = some r ∧ RecordLe c.2 r := by
    intro c hc
    obtain ⟨hl, r, hr, hle⟩ := h.claimed scope key c hc
    obtain ⟨r', hr', hle'⟩ := (heff.step.le h.issued).byKey hr
    exact ⟨hl, r', hr', hle.trans hle'⟩
  have hsame : claimedRecord e = none → claims (w.trace ++ [e]) scope key = claims w.trace scope key := by
    intro hn
    simp [claims_concat, hn]
  cases heff with
  | bound fresh shown unclaimed unused step rows =>
    rw [hsame unclaimed]
    exact ⟨h.claims_le scope key, hold⟩
  | other unbound unclaimed step =>
    rw [hsame unclaimed]
    exact ⟨h.claims_le scope key, hold⟩
  | claimed r₀ nonce rid unbound shown mem reserved rows =>
    rw [claims_concat, shown]
    by_cases hu : (r₀.launch nonce rid).under scope key = true
    · obtain ⟨rfl, rfl⟩ := LaunchRecord.under_iff.mp hu
      have hnil : claims w.trace r₀.authorityScope r₀.idempotencyKey = [] := claims_nil h mem reserved
      have hnil' : claims w.trace (r₀.launch nonce rid).authorityScope (r₀.launch nonce rid).idempotencyKey = [] := hnil
      rw [hnil']
      refine ⟨by simp [hu], fun c hc => ?_⟩
      simp only [Option.toList_some, List.nil_append, List.mem_filter, List.mem_singleton] at hc
      obtain ⟨rfl, _⟩ := hc
      exact ⟨rfl, _, Registry.byKey_eq_some.mpr ⟨(rows _).mpr (Or.inl rfl), rfl, rfl⟩, RecordLe.refl _⟩
    · simp only [Option.toList_some, List.filter_cons, hu, List.filter_nil, List.append_nil, Bool.false_eq_true,
        if_false]
      exact ⟨h.claims_le scope key, hold⟩

theorem claims_mono {c : Nat × LaunchRecord} (h : c ∈ claims trace scope key) :
    c ∈ claims (trace ++ [e]) scope key := by
  rw [claims_concat]
  exact List.mem_append_left _ h

def extended (w : World) (i : Nat) (env : Environment) (c : Call) : World := (machine.traced.act i w env c).2

theorem extended_trace (w : World) (i : Nat) (env : Environment) (c : Call) :
    (extended w i env c).trace = w.trace ++ [⟨i, c, (act w.state env c).1⟩] := rfl

variable {env : Environment} {c : Call}

theorem inv_of_spawns {i : Nat} (h : SpawnInv requestDigest w)
    (hle : ∀ scope key, (spawns (extended w i env c).trace scope key).length ≤ 1)
    (hspawned : ∀ scope key, ∀ s ∈ spawns (extended w i env c).trace scope key,
      (s.thread, s.record) ∈ claims w.trace scope key ∧
        requestDigest s.request.runId s.request.taskId s.request.job = s.record.requestDigest) :
    SpawnInv requestDigest (extended w i env c) := by
  have heff := act_effect w.state env i c
  refine ⟨heff.step.issued h.issued, fun scope key => bound_step h.issued heff (h.bound scope key),
    fun scope key => (claims_step h heff scope key).2, fun scope key => (claims_step h heff scope key).1, hle,
    fun scope key s hs => ?_⟩
  obtain ⟨hc, hd⟩ := hspawned scope key s hs
  exact ⟨claims_mono hc, hd⟩

/-- Calls that create no process. -/
def Call.harmless : Call → Prop
  | .spawn .. => False
  | _ => True

theorem spawns_harmless {i : Nat} {r : c.Reply} (hc : c.harmless) (scope key : String) :
    spawns (trace ++ [⟨i, c, r⟩]) scope key = spawns trace scope key := by
  have hn : spawnAttempt ⟨i, c, r⟩ = none := by
    cases c with
    | spawn record request => exact hc.elim
    | _ => rfl
  simp [spawns_concat, hn]

/-- A harmless call keeps the invariant. -/
theorem inv_step (hc : c.harmless) (i : Nat) (env : Environment) (h : SpawnInv requestDigest w) :
    SpawnInv requestDigest (extended w i env c) := by
  refine inv_of_spawns h (fun scope key => ?_) fun scope key => ?_
  · rw [extended_trace, spawns_harmless hc]
    exact h.spawns_le scope key
  · rw [extended_trace, spawns_harmless hc]
    exact h.spawned scope key

/-- The right to spawn: the claim is this thread's, and no process was created under it. -/
structure Ticket (i : Nat) (record : LaunchRecord) (w : World) : Prop where
  claim : (i, record) ∈ claims w.trace record.authorityScope record.idempotencyKey
  unspent : spawns w.trace record.authorityScope record.idempotencyKey = []

/-- So does the spawn of a claimed launch. -/
theorem spawn_step {i : Nat} {record : LaunchRecord} {request : LaunchRequestSpec}
    (h : SpawnInv requestDigest w) (ht : Ticket i record w)
    (hd : requestDigest request.runId request.taskId request.job = record.requestDigest) :
    SpawnInv requestDigest (extended w i env (.spawn record request)) := by
  have htrace : ∀ scope key, spawns (extended w i env (.spawn record request)).trace scope key =
      spawns w.trace scope key ++ [⟨i, record, request⟩].filter (·.record.under scope key) :=
    fun scope key => spawns_concat
  refine inv_of_spawns h (fun scope key => ?_) fun scope key s hs => ?_
  · rw [htrace]
    by_cases hu : record.under scope key = true
    · obtain ⟨rfl, rfl⟩ := LaunchRecord.under_iff.mp hu
      rw [ht.unspent]
      exact List.length_filter_le _ _
    · simp only [List.filter_cons, hu, List.filter_nil, List.append_nil, Bool.false_eq_true, if_false]
      exact h.spawns_le scope key
  · rw [htrace, List.mem_append, List.mem_filter, List.mem_singleton] at hs
    rcases hs with hs | ⟨rfl, hu⟩
    · exact h.spawned scope key s hs
    · obtain ⟨rfl, rfl⟩ := LaunchRecord.under_iff.mp hu
      exact ⟨ht.claim, hd⟩

/-! ## What a handler knows -/

/-- A step of a handler: records only move on, and the trace grows by the handler's own call. -/
abbrev HandlerStep : Nat → World → World → Prop := Extends RegistryLe

/-- Every call only adds to registry and trace. -/
theorem step_extends (i : Nat) (env : Environment) (c : Call) (h : SpawnInv requestDigest w) :
    HandlerStep i w (extended w i env c) :=
  ⟨(act_effect w.state env i c).step.le h.issued, c, _, rfl⟩

def DigestBound (scope key digest : String) (w : World) : Prop :=
  ∃ r, w.state.byKey scope key = some r ∧ r.requestDigest = digest

theorem digestBound_mono {digest : String} {i : Nat} {w' : World} (hg : HandlerStep i w w')
    (h : DigestBound scope key digest w) : DigestBound scope key digest w' := by
  obtain ⟨r, hr, hd⟩ := h
  obtain ⟨r', hr', hle⟩ := hg.1.byKey hr
  exact ⟨r', hr', hle.digest.trans hd⟩

theorem digestBound_stable (scope key digest : String) (i : Nat) :
    Stable (SpawnInv requestDigest) HandlerStep i (DigestBound scope key digest) :=
  fun _ _ _ _ _ _ hg h => digestBound_mono hg h

theorem length_le_one_eq {α : Type} {l : List α} (h : l.length ≤ 1) {a b : α} (ha : a ∈ l) (hb : b ∈ l) : a = b := by
  match l, h with
  | [x], _ => exact (List.mem_singleton.mp ha).trans (List.mem_singleton.mp hb).symm

theorem ticket_stable (i : Nat) (record : LaunchRecord) :
    Stable (SpawnInv requestDigest) HandlerStep i (Ticket i record) := by
  rintro j w w' hj _ hinv' ⟨_, c, r, htrace⟩ ⟨hclaim, hunspent⟩
  have hclaim' : (i, record) ∈ claims w'.trace record.authorityScope record.idempotencyKey := by
    rw [htrace]; exact claims_mono hclaim
  refine ⟨hclaim', List.eq_nil_iff_forall_not_mem.mpr fun s hs => hj ?_⟩
  have hthread : s.thread = j := by
    rw [htrace, spawns_concat, hunspent, List.nil_append, List.mem_filter] at hs
    cases c with
    | spawn rec req => exact congrArg Spawn.thread (List.mem_singleton.mp hs.1)
    | _ => exact absurd hs.1 (List.not_mem_nil)
  obtain ⟨hclaim'', _⟩ := hinv'.spawned _ _ s hs
  have := length_le_one_eq (hinv'.claims_le _ _) hclaim' hclaim''
  exact hthread.symm.trans (congrArg Prod.fst this).symm

/-! ## Handlers that create no process -/

/-- The handler creates no process, whatever the replies are. -/
abbrev Harmless {α : Type} (p : Handler α) : Prop := Prog.Obeys Call.harmless p

theorem Call.harmless_of_plain (h : c.plain) : c.harmless := by
  cases c <;> first | exact h.elim | trivial

theorem cancel_harmless (d : Daemon) (record : LaunchRecord) : Harmless (cancel d record) := by
  unfold cancel
  refine .bind (reconcile_obeys @Call.harmless_of_plain d record) fun record => ?_
  split
  · exact .pure _
  · split
    · exact .pure _
    · refine .bind (supportsExecution_obeys @Call.harmless_of_plain _) fun _ => ?_
      split
      · exact .pure _
      · split
        · split
          · exact .pure _
          · refine .bind (.ask trivial) fun _ => .bind (.ask trivial) fun _ => ?_
            split
            · exact .bind (reconcile_obeys @Call.harmless_of_plain ..) fun _ => .pure _
            · refine .bind (.ask trivial) fun _ => ?_
              split
              · exact .bind (reconcile_obeys @Call.harmless_of_plain ..) fun _ => .pure _
              · exact .pure _
        · exact .pure _

theorem cancelJobV2_harmless (d : Daemon) (jobId : String) : Harmless (cancelJobV2 d jobId) := by
  unfold cancelJobV2
  refine .bind (getJobRecord_obeys @Call.harmless_of_plain d jobId) fun _ => ?_
  split
  · exact .pure _
  · exact .bind (cancel_harmless ..) fun _ => .pure _

/-- A parsed launch carries the digest of its own request. -/
theorem parseLaunch_digest (d : Daemon) (body : LaunchBody) :
    (parseLaunch requestDigest d body).run.Yields fun r => ∀ parsed, r = .ok parsed → ∀ key digest request,
      parsed = .inr (key, digest, request) → requestDigest request.runId request.taskId request.job = digest := by
  have hleft : ∀ response : Response,
    (pure (.inl response) : Handler (Response ⊕ String × String × LaunchRequestSpec)).run.Yields
      fun r => ∀ parsed, r = .ok parsed → ∀ key digest request, parsed = .inr (key, digest, request) →
        requestDigest request.runId request.taskId request.job = digest := by
    rintro response parsed ⟨⟩ key digest request ⟨⟩
  unfold parseLaunch
  split
  · split
    · exact hleft _
    · split
      · exact hleft _
      · refine .raising_bind fun _ => ?_
        split
        · exact hleft _
        · split
          · exact hleft _
          · split
            · split
              · exact hleft _
              · dsimp only
                split
                · exact hleft _
                · refine .raising_bind fun _ => ?_
                  split
                  · rintro parsed ⟨⟩ key digest request ⟨⟩
                    rfl
                  · exact fun _ h => nomatch h
                  · exact .raising_bind fun _ => hleft _
            · exact hleft _
  · exact hleft _

/-! ## Handlers that launch -/

/-- A proof outline of a handler: no process without a ticket. -/
abbrev HandlerOutline (requestDigest : RequestDigest) (i : Nat) {α : Type} (φ : World → Prop)
    (p : Handler α) (Q : α → World → Prop) : Prop :=
  Outline machine.traced (SpawnInv requestDigest) HandlerStep i φ p.run (onOk Q)

section

variable {i : Nat} {φ : World → Prop}

theorem harmless_outline {α : Type} {p : Handler α} (h : Harmless p) :
    HandlerOutline requestDigest i φ p fun _ _ => True :=
  ((Outline.of_all Stable.true h (Prog.yields_true _) fun c _ env hc hinv _ =>
    ⟨inv_step hc i env hinv, step_extends i env c hinv, trivial⟩).post fun r w _ => onOk_true r w).weaken
    fun _ _ _ => trivial

theorem harmless_keeps {α : Type} {p : Handler α} {Q : α → Prop} (h : Harmless p)
    (hq : p.run.Yields fun r => ∀ a, r = .ok a → Q a)
    (mono : ∀ {j w w'}, HandlerStep j w w' → φ w → φ w') :
    HandlerOutline requestDigest i φ p fun a w => φ w ∧ Q a := by
  refine (Outline.of_all (fun j w w' _ _ _ hg hφ => mono hg hφ) h hq fun c w env hc hinv hφ => ?_).post fun r w hw => ?_
  · have hstep := step_extends i env c hinv
    exact ⟨inv_step hc i env hinv, hstep, mono hstep hφ⟩
  · cases r with
    | ok a => exact ⟨hw.1, hw.2 a rfl⟩
    | error e => trivial

theorem ask_outline {Q : c.Reply → World → Prop} (hc : c.harmless)
    (stable : ∀ r, Stable (SpawnInv requestDigest) HandlerStep i (Q r))
    (post : ∀ w env, SpawnInv requestDigest w → φ w → SpawnInv requestDigest (extended w i env c) →
      HandlerStep i w (extended w i env c) → Q (act w.state env c).1 (extended w i env c)) :
    HandlerOutline requestDigest i φ (ask c) Q := by
  refine Outline.ask stable fun w env hinv hφ => ?_
  have hinv' := inv_step hc i env hinv
  have hstep := step_extends i env c hinv
  exact ⟨hinv', hstep, post w env hinv hφ hinv' hstep⟩

theorem answered_outline {α : Type} {x : Except RegistryError α} {Q : α → World → Prop}
    (h : ∀ a w, x = .ok a → SpawnInv requestDigest w → φ w → Q a w) : HandlerOutline requestDigest i φ (answered x) Q
    := by
  cases x with
  | error e => exact fun _ _ _ => trivial
  | ok a => exact fun w hinv hφ => h a w rfl hinv hφ

theorem ticket_kept {w : World} {record : LaunchRecord} (hc : c.harmless)
    (h : Ticket i record w) : Ticket i record (extended w i env c) :=
  ⟨claims_mono h.claim, (spawns_harmless hc _ _).trans h.unspent⟩

variable {request : LaunchRequestSpec}

theorem spawnClaimed_outline (d : Daemon) {claimed : LaunchRecord} (profile : DriverProfile) (polls : Nat)
    (hd : requestDigest request.runId request.taskId request.job = claimed.requestDigest) :
    HandlerOutline requestDigest i (Ticket i claimed) (spawnClaimed d claimed profile request polls)
      fun _ _ => True := by
  unfold spawnClaimed
  split
  · refine Outline.raising_bind (Q := fun _ => Ticket i claimed)
      (ask_outline trivial (fun _ => ticket_stable i claimed) fun w env _ ht _ _ => ticket_kept trivial ht) fun ok => ?_
    split
    · exact fun _ _ _ => trivial
    · refine Outline.raising_bind (Q := fun _ _ => True)
        (Outline.ask (fun _ => Stable.true) fun w env hinv ht => ?_) fun outcome => ?_
      · exact ⟨spawn_step hinv ht hd, step_extends i env _ hinv, trivial⟩
      · split
        · exact fun _ _ _ => trivial
        · exact harmless_outline (recordError_obeys @Call.harmless_of_plain ..)
        · exact harmless_outline (awaitStarted_obeys @Call.harmless_of_plain ..)
  · exact fun _ _ _ => trivial

theorem claim_ticket {w : World} {scope key rid digest : String} {r : LaunchRecord}
    (hinv : SpawnInv requestDigest w) (hbound : DigestBound scope key digest w)
    (h : (act w.state env (.claimSpawn scope key rid)).1 = .ok (r, true)) :
    Ticket i r (extended w i env (.claimSpawn scope key rid)) ∧ r.requestDigest = digest := by
  have hshown : claimedRecord ⟨i, .claimSpawn scope key rid, (act w.state env (.claimSpawn scope key rid)).1⟩ =
      some (i, r) := by rw [h]; rfl
  obtain ⟨a, reg', hop, ht⟩ | ⟨e, ht⟩ :=
    transact_cases env w.state (claimSpawn w.state scope key rid env.draw)
  · obtain rfl : a = (r, true) := Except.ok.inj ((congrArg Prod.fst ht).symm.trans h)
    obtain ⟨r₀, hr₀, ⟨hf, _⟩ | ⟨_, hs, ⟨nonce, rfl⟩, _⟩⟩ := claimSpawn_ok hop
    · cases hf
    · obtain ⟨hmem, rfl, rfl⟩ := Registry.byKey_eq_some.mp hr₀
      have hnil : claims w.trace r₀.authorityScope r₀.idempotencyKey = [] := claims_nil hinv hmem hs
      refine ⟨⟨?_, ?_⟩, ?_⟩
      · rw [extended_trace, claims_concat, hshown]
        exact List.mem_append_right _ (List.mem_filter.mpr ⟨List.mem_singleton.mpr rfl, by simp⟩)
      · refine (spawns_harmless (by trivial) _ _).trans (List.eq_nil_iff_forall_not_mem.mpr fun s hsp => ?_)
        have hclaim := (hinv.spawned _ _ s hsp).1
        exact absurd (hnil ▸ hclaim) List.not_mem_nil
      · obtain ⟨r₁, hr₁, hd⟩ := hbound
        rw [hr₀] at hr₁
        obtain rfl := Option.some.inj hr₁
        exact hd
  · exact nomatch (congrArg Prod.fst ht).symm.trans h

theorem validateRecordProfile_same (d : Daemon) (record : LaunchRecord) :
    (validateRecordProfile d record).run.Yields fun r => ∀ a, r = .ok a → a.2 ≠ none → a.1 = record := by
  unfold validateRecordProfile
  split
  · rintro a ⟨⟩ _
    rfl
  · refine .raising_bind fun _ => .raising_bind fun _ => ?_
    rintro a ⟨⟩ hne
    exact absurd rfl hne

theorem launch_outline (d : Daemon) {record : LaunchRecord} (polls : Nat)
    (hd : requestDigest request.runId request.taskId request.job = record.requestDigest) :
    HandlerOutline requestDigest i (DigestBound d.authorityScope record.idempotencyKey record.requestDigest)
      (launch d record request polls) fun _ _ => True := by
  unfold launch
  split
  · exact harmless_outline (reconcile_obeys @Call.harmless_of_plain d record)
  · refine Outline.raising_bind
      (harmless_keeps (validateRecordProfile_obeys @Call.harmless_of_plain d record)
      (validateRecordProfile_same d record)
      digestBound_mono) fun ⟨record', profile⟩ => Outline.of_const fun hsame => ?_
    cases profile with
    | none => exact harmless_outline (.pure _)
    | some profile =>
      obtain rfl := hsame (Option.some_ne_none _)
      refine Outline.raising_bind (Q :=
        fun _ => DigestBound d.authorityScope record'.idempotencyKey record'.requestDigest)
        (ask_outline trivial (fun _ => digestBound_stable _ _ _ i) fun w env _ hw _ hg => digestBound_mono hg hw)
        fun current => ?_
      split
      · exact harmless_outline (recordError_obeys @Call.harmless_of_plain ..)
      · split
        · exact harmless_outline (recordError_obeys @Call.harmless_of_plain ..)
        · refine Outline.raising_bind (Q := fun reply w => ∀ r, reply = .ok (r, true) →
            Ticket i r w ∧ r.requestDigest = record'.requestDigest) ?_ fun reply => ?_
          · refine ask_outline trivial (fun reply j w w' hj hi hi' hg h r hr => ?_) fun w env hinv hw _ _ r hr => ?_
            · exact ⟨ticket_stable i r j w w' hj hi hi' hg (h r hr).1, (h r hr).2⟩
            · exact claim_ticket hinv hw hr
          · refine Outline.raising_bind (Q := fun claim w => claim.2 = true →
              Ticket i claim.1 w ∧ claim.1.requestDigest = record'.requestDigest) (answered_outline ?_)
              fun ⟨claimed, ownsSpawn⟩ => ?_
            · rintro ⟨r, b⟩ w rfl _ h rfl
              exact h r rfl
            · cases ownsSpawn with
              | false => exact harmless_outline (reconcile_obeys @Call.harmless_of_plain d claimed)
              | true =>
                refine Outline.weaken (ψ := fun w => Ticket i claimed w ∧ claimed.requestDigest = record'.requestDigest)
                  (Outline.of_const fun hdigest => ?_) fun w _ h => h rfl
                exact spawnClaimed_outline d profile polls (hd.trans hdigest.symm)

/-- What a handler knows after it reserved a key for a digest. -/
theorem reserveKey_outline (d : Daemon) (key digest : String) (driver : DriverBinding) :
    HandlerOutline requestDigest i φ (reserveKey d key digest driver) fun reply w =>
      DigestBound d.authorityScope reply.1.idempotencyKey reply.1.requestDigest w ∧
        reply.1.requestDigest = digest := by
  have hpost : ∀ {w : World} {env : Environment} {r : LaunchRecord} {b : Bool},
      (act w.state env (.reserve d.authorityScope key digest driver)).1 = .ok (r, b) →
      DigestBound d.authorityScope r.idempotencyKey r.requestDigest
        (extended w i env (.reserve d.authorityScope key digest driver)) ∧ r.requestDigest = digest := by
    intro w env r b h
    obtain ⟨a, reg', hop, ht⟩ | ⟨e, ht⟩ :=
      transact_cases env w.state (reserve w.state d.authorityScope key digest driver env.draw)
    · obtain rfl : a = (r, b) := Except.ok.inj ((congrArg Prod.fst ht).symm.trans h)
      have hb := reserve_ok hop
      obtain ⟨hmem, hscope, hkey⟩ := Registry.byKey_eq_some.mp hb.here
      have hstate : (extended w i env (.reserve d.authorityScope key digest driver)).state = reg' :=
        congrArg Prod.snd ht
      exact ⟨⟨r, by rw [hstate, hkey]; exact hb.here, rfl⟩, hb.digest⟩
    · exact nomatch (congrArg Prod.fst ht).symm.trans h
  refine Outline.raising_bind (Q := fun reply w => ∀ r b, reply = .ok (r, b) →
      DigestBound d.authorityScope r.idempotencyKey r.requestDigest w ∧ r.requestDigest = digest) ?_ fun reply => ?_
  · refine ask_outline trivial (fun reply j w w' _ _ _ hg h r b hr => ?_) fun w env _ _ _ _ r b hr => hpost hr
    exact ⟨digestBound_mono hg (h r b hr).1, (h r b hr).2⟩
  · refine answered_outline ?_
    rintro ⟨r, b⟩ w rfl _ h
    exact h r b rfl

theorem submit_outline (d : Daemon) {key digest : String} (polls : Nat)
    (hd : requestDigest request.runId request.taskId request.job = digest) :
    HandlerOutline requestDigest i φ (submit d key digest request polls) fun _ _ => True := by
  unfold submit
  refine Outline.raising_bind (reserveKey_outline d key digest _) fun ⟨record, created⟩ =>
    Outline.of_const fun hdigest => ?_
  dsimp only
  split
  · exact harmless_outline (.pure _)
  · exact Outline.raising_bind (launch_outline d polls (hd.trans hdigest.symm)) fun _ => harmless_outline (.pure _)

theorem createLaunch_outline (d : Daemon) (body : LaunchBody) (polls : Nat) :
    HandlerOutline requestDigest i φ (createLaunch requestDigest d body polls) fun _ _ => True := by
  unfold createLaunch
  refine Outline.weaken (ψ := fun _ => True) ?_ fun _ _ _ => trivial
  refine Outline.raising_bind
    (harmless_keeps (parseLaunch_obeys @Call.harmless_of_plain (fun _ _ _ _ _ => trivial) d body)
    (parseLaunch_digest d body) fun _ _ => trivial)
    fun parsed => Outline.of_const fun hdigest => ?_
  split
  · exact harmless_outline (.pure _)
  · refine Outline.raising_catch (submit_outline d polls (hdigest _ _ _ rfl)) fun e => ?_
    unfold submitFailure
    split
    · exact harmless_outline (.pure _)
    · exact harmless_outline (.pure _)
    · exact harmless_outline (.throw _)

theorem createJobV1_outline (d : Daemon) (identity : String) (body : Object) (polls : Nat) :
    HandlerOutline requestDigest i φ (createJobV1 requestDigest d identity body polls) fun _ _ => True := by
  unfold createJobV1
  dsimp only
  split
  · exact harmless_outline (.pure _)
  refine Outline.raising_bind (harmless_outline (isMember_obeys _ _)) fun _ => ?_
  split
  · exact harmless_outline (.pure _)
  refine Outline.raising_bind (harmless_outline (isMember_obeys _ _)) fun _ => ?_
  split
  · exact harmless_outline (.pure _)
  split
  · exact harmless_outline (.pure _)
  refine Outline.raising_bind (harmless_outline (supportsExecution_obeys @Call.harmless_of_plain _)) fun _ => ?_
  split
  · exact harmless_outline (.pure _)
  refine Outline.raising_catch ?_ fun e => ?_
  · refine Outline.raising_bind (reserveKey_outline d _ _ _) fun ⟨record, created⟩ => Outline.of_const fun hdigest => ?_
    exact Outline.raising_bind (launch_outline d polls hdigest.symm) fun _ => harmless_outline (.pure _)
  · split
    · exact harmless_outline (.pure _)
    · exact harmless_outline (.throw _)

theorem serve_outline (requestDigest : RequestDigest) (i : Nat) (request : Request) :
    Outline machine.traced (SpawnInv requestDigest) HandlerStep i (fun _ => True) (serve requestDigest request)
      fun _ _ => True := by
  have hdone : ∀ {α : Type} {p : Handler α}, HandlerOutline requestDigest i (fun _ => True) p (fun _ _ => True) →
      Outline machine.traced (SpawnInv requestDigest) HandlerStep i (fun _ => True) (p.run.bind fun _ => .ret ())
        fun _ _ => True :=
    fun h => Outline.bind h fun _ _ _ _ => trivial
  cases request with
  | startUp d => exact hdone (harmless_outline (recover_obeys @Call.harmless_of_plain d))
  | createLaunch d body polls => exact hdone (createLaunch_outline d body polls)
  | createJobV1 d identity body polls => exact hdone (createJobV1_outline d identity body polls)
  | lookupLaunch d key driverId =>
      exact hdone (harmless_outline (lookupLaunch_obeys @Call.harmless_of_plain d key driverId))
  | getJob d jobId => exact hdone (harmless_outline (getJobV2_obeys @Call.harmless_of_plain d jobId))
  | cancelJob d jobId => exact hdone (harmless_outline (cancelJobV2_harmless d jobId))

end

/-! ## Every schedule -/

/-- The registry and the trace after a schedule over an empty registry. -/
def history (requestDigest : RequestDigest) (moves : List (Move Nat Request Environment)) :
    World :=
  ((Pool.quiet ⟨Registry.empty, []⟩).run machine.traced (fun _ => serve requestDigest) moves).shared

theorem spawnInv_empty (requestDigest : RequestDigest) :
    SpawnInv requestDigest ⟨Registry.empty, []⟩ where
  issued := by rintro r ⟨⟩
  bound _ _ := rfl
  claimed := by rintro _ _ c ⟨⟩
  claims_le _ _ := Nat.zero_le 1
  spawns_le _ _ := Nat.zero_le 1
  spawned := by rintro _ _ s ⟨⟩

/-- The invariant holds after every schedule. -/
theorem history_inv (requestDigest : RequestDigest)
    (moves : List (Move Nat Request Environment)) : SpawnInv requestDigest (history requestDigest moves) :=
  Pool.run_invariant (serve_outline requestDigest) (spawnInv_empty requestDigest) moves

theorem history_le (requestDigest : RequestDigest)
    (moves later : List (Move Nat Request Environment)) :
    RegistryLe (history requestDigest moves).state (history requestDigest (moves ++ later)).state := by
  unfold history
  rw [Pool.run_append]
  exact Pool.run_guarantee (P := fun w w' => RegistryLe w.state w'.state) (serve_outline requestDigest)
    (fun _ => RegistryLe.refl _) RegistryLe.trans (fun hg => hg.1)
    (Pool.run_sound (serve_outline requestDigest) (Pool.quiet_sound (spawnInv_empty requestDigest)) moves) later

theorem SpawnInv.rejected_unspawned (h : SpawnInv requestDigest w) (hmem : r ∈ w.state.rows)
    (hr : r.launchState = .rejectedPreLaunch) :
    spawns w.trace r.authorityScope r.idempotencyKey = [] := by
  refine List.eq_nil_iff_forall_not_mem.mpr fun s hs => ?_
  obtain ⟨hlaunching, r', hr', hle⟩ := h.claimed _ _ _ (h.spawned _ _ s hs).1
  rw [Registry.byKey_eq_some.mpr ⟨hmem, rfl, rfl⟩] at hr'
  obtain rfl := Option.some.inj hr'
  exact nomatch hlaunching.symm.trans (hle.rejected hr)

/-- **One spawn for each key.** Along every schedule of requests, steps of handlers and crashes of daemons: at most one
process is attempted for a key, for a request whose digest is the one first bound to it; every record is found again
later with its identity and its issued nonce, never further back; and a rejected record stays rejected, with no
process under its key. -/
theorem exactly_once_spawn (requestDigest : RequestDigest)
    (moves later : List (Move Nat Request Environment)) (scope key : String) :
    (spawns (history requestDigest moves).trace scope key).length ≤ 1 ∧
      (∀ s ∈ spawns (history requestDigest moves).trace scope key,
        firstDigest (history requestDigest moves).trace scope key =
          some (requestDigest s.request.runId s.request.taskId s.request.job)) ∧
      ∀ r ∈ (history requestDigest moves).state.rows, ∃ r' ∈ (history requestDigest (moves ++ later)).state.rows,
        RecordLe r r' ∧ (r.launchState = .rejectedPreLaunch → r'.launchState = .rejectedPreLaunch ∧
          spawns (history requestDigest (moves ++ later)).trace r.authorityScope r.idempotencyKey = []) := by
  have hinv := history_inv requestDigest moves
  have hinv' := history_inv requestDigest (moves ++ later)
  refine ⟨hinv.spawns_le scope key, fun s hs => ?_, fun r hr => ?_⟩
  · obtain ⟨hclaim, hdigest⟩ := hinv.spawned scope key s hs
    obtain ⟨_, r, hr, hle⟩ := hinv.claimed scope key _ hclaim
    rw [hinv.bound scope key, hr, hdigest]
    exact congrArg some hle.digest
  · obtain ⟨r', hr', hle⟩ := history_le requestDigest moves later r hr
    refine ⟨r', hr', hle, fun hrejected => ?_⟩
    have hstate := (hle.terminal (by rw [hrejected]; rfl)).1.trans hrejected
    refine ⟨hstate, ?_⟩
    rw [← hle.scope, ← hle.key]
    exact hinv'.rejected_unspawned hr' hstate

end AgentFabric.LocalWorker
