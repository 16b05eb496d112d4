import AgentFabric.Lib.Past
import AgentFabric.NodeRecovery.Effects

/-!
# Grants and what is done under them

Every write of node recovery happens under a claim that a grant handed out.
-/

namespace AgentFabric.NodeRecovery

open AgentFabric.Lib

/-! ## What a trace says -/

/-- A claim that was handed out, to whom, and the policy that it is used with. -/
structure Grant where
  thread : Nat
  policy : RuntimeRecoveryPolicy
  claim : RecoveryLeaseClaim
deriving DecidableEq

def grantOf (e : RecoveryEvent) : Option Grant := (e.call.grant e.reply).map fun p => ⟨e.thread, p.1, p.2⟩

def grants (trace : List RecoveryEvent) : List Grant := trace.filterMap grantOf

/-- The last grant of a caller. -/
def held (i : Nat) (trace : List RecoveryEvent) : Option Grant :=
  latest (fun e => (grantOf e).filter fun g => decide (g.thread = i)) trace

/-- The adapter is invoked under the grant. -/
def invokes (key : String × Nat) : RecoveryEvent → Bool
  | ⟨_, .recover _ request, _⟩ => decide ((request.policyId, request.leaseGeneration) = key)
  | _ => false

def invocations (key : String × Nat) (trace : List RecoveryEvent) : Nat := trace.countP (invokes key)

/-- The lease was extended from a clock reading by a lease time. -/
structure Extension where
  taken : Nat
  ttl : Nat
deriving DecidableEq

/-- The grant and every heartbeat that finds the lease owned set the expiry of the lease. -/
def extensionOf (key : String × Nat) : RecoveryEvent → Option Extension
  | ⟨_, .tryAcquire policy _ _ now, .ok (some claim)⟩ => if claim.key = key then some ⟨now, policy.leaseTtl⟩ else none
  | ⟨_, .heartbeat claim leaseTtl now, true⟩ => if claim.key = key then some ⟨now, leaseTtl⟩ else none
  | _ => none

/-- The node was found ready under the grant. -/
def marks (key : String × Nat) : RecoveryEvent → Bool
  | ⟨_, .markReady _ claim, .ok ()⟩ => decide (claim.key = key)
  | _ => false

def invokedBy (i : Nat) (e : RecoveryEvent) : Prop := ∃ adapter request r, e = ⟨i, .recover adapter request, r⟩

/-- The caller is authorized, with a reference. -/
def authorizes (i : Nat) (recoveryId authorizationRef : String) (e : RecoveryEvent) : Prop :=
  ∃ context decision, e = ⟨i, .authorize context, .ok decision⟩ ∧ decision.authorized = true ∧
    decision.authorizationRef = some authorizationRef ∧ context.recoveryId = recoveryId

/-- The caller observes the runtime of the policy. -/
def observedBy (i : Nat) (policyId : String) (e : RecoveryEvent) : Prop :=
  ∃ policy r, e = ⟨i, .observe policy, r⟩ ∧ policy.id = policyId

/-- The caller is granted a lease. -/
def grantedTo (i : Nat) (e : RecoveryEvent) : Prop := e.thread = i ∧ grantOf e ≠ none

/-- The events that end a recovery that left its runtime ready. -/
def reporting : List String := ["runtimeHealthObserved", "runtimeRecoveryReady"]

/-! ## What a caller makes sure of -/

/-- An invocation of the adapter is due: there is room for it in the budget of the policy, it was authorized since the
last one, and the lease was extended. -/
structure Due (i : Nat) (policy : RuntimeRecoveryPolicy) (claim : RecoveryLeaseClaim)
    (adapter : NodeRuntimeAdapterDescriptor) (request : RuntimeRecoveryRequest)
    (trace : List RecoveryEvent) : Prop where
  key : (request.policyId, request.leaseGeneration) = claim.key
  margin : adapter.maxOperation + seconds 10 ≤ policy.leaseTtl
  deadline : request.deadlineAt = request.requestedAt + adapter.maxOperation
  budget : invocations claim.key trace < policy.maxAttempts
  authorized : Since (authorizes i request.recoveryId request.authorizationRef) (invokedBy i) trace
  extended : ∃ taken, latest (extensionOf claim.key) trace = some ⟨taken, policy.leaseTtl⟩

/-- The attempt of the claim was created after an observation that was not healthy. -/
def Attempted (claim : RecoveryLeaseClaim) (db : Db) : Prop :=
  ∃ a, db.attempts.get? claim.recoveryId = some a ∧ a.key = claim.key ∧ a.state ≠ .observedHealthy

/-- There is no attempt of the claim yet. -/
def Unattempted (claim : RecoveryLeaseClaim) (db : Db) : Prop :=
  ∀ id a, db.attempts.get? id = some a → a.key ≠ claim.key

/-- While the claim is in force, its attempt is in the state. -/
def AttemptIn (state : RecoveryAttemptState) (claim : RecoveryLeaseClaim) (db : Db) : Prop :=
  InForce claim db → ∃ a, db.attempts.get? claim.recoveryId = some a ∧ a.key = claim.key ∧ a.state = state

/-- The node was not found ready under the claim yet. -/
def Unmarked (claim : RecoveryLeaseClaim) (trace : List RecoveryEvent) : Prop := ∀ e ∈ trace, marks claim.key e = false

/-- While the claim is in force, its attempt found the runtime ready, and has done what follows. -/
def Reported (claim : RecoveryLeaseClaim) (w : World) : Prop :=
  AttemptIn .observedHealthy claim w.state ∨
    (AttemptIn .ready claim w.state ∧ ∃ e ∈ w.trace, marks claim.key e = true)

/-- What a caller has made sure of when it makes a call. -/
def Permits (i : Nat) (w : World) : Call → Prop
  | .tryAcquire policy _ _ _ => ⟨i, .getPolicy policy.id, .ok policy⟩ ∈ w.trace
  | .createAttempt policy claim state _ _ => held i w.trace = some ⟨i, policy, claim⟩ ∧ Unattempted claim w.state ∧
      Since (observedBy i policy.id) (grantedTo i) w.trace ∧ state ≠ .ready
  | .updateAttempt claim update => (∃ policy, held i w.trace = some ⟨i, policy, claim⟩) ∧ Attempted claim w.state ∧
      update.state ≠ .observedHealthy ∧ Unmarked claim w.trace
  | .markDegraded policy claim => held i w.trace = some ⟨i, policy, claim⟩ ∧ AttemptIn .degraded claim w.state
  | .markReady policy claim => held i w.trace = some ⟨i, policy, claim⟩ ∧ AttemptIn .ready claim w.state
  | .heartbeat claim _ _ => ∃ policy, held i w.trace = some ⟨i, policy, claim⟩
  | .recover adapter request =>
    ∃ policy claim, held i w.trace = some ⟨i, policy, claim⟩ ∧ Due i policy claim adapter request w.trace
  | .event claim kind => (∃ policy, held i w.trace = some ⟨i, policy, claim⟩) ∧ (kind ∈ reporting → Reported claim w)
  | _ => True

/-- The invocations of the adapter that a trace makes are due. -/
def lawful (pre : List RecoveryEvent) : RecoveryEvent → Prop
  | ⟨i, .recover adapter request, _⟩ =>
    ∃ policy claim, held i pre = some ⟨i, policy, claim⟩ ∧ Due i policy claim adapter request pre
  | _ => True

/-! ## The invariant -/

/-- Generations rise with each grant, attempts belong to grants, and only the last grant has an unfinished one. -/
structure Fenced (w : World) : Prop where
  increasing : (grants w.trace).Pairwise fun a b =>
    a.claim.policyId = b.claim.policyId → a.claim.generation < b.claim.generation
  bounded : ∀ g ∈ grants w.trace, g.claim.generation ≤ generation w.state g.claim.policyId
  named : ∀ g ∈ grants w.trace, g.claim.policyId = g.policy.id
  ordered : w.state.attempts.rows.Pairwise fun a b =>
    a.2.policyId = b.2.policyId → a.2.leaseGeneration < b.2.leaseGeneration
  attempted : ∀ id a, w.state.attempts.get? id = some a → a.leaseGeneration ≤ generation w.state a.policyId
  current : ∀ id a, w.state.attempts.get? id = some a → a.finishedAt = none →
    a.leaseGeneration = generation w.state a.policyId
  expiry : ∀ p lease, w.state.leases.get? p = some lease → lease.state = .owned →
    ∃ x, latest (extensionOf (p, lease.generation)) w.trace = some x ∧ lease.expiresAt = x.taken + x.ttl
  budget : ∀ g ∈ grants w.trace, invocations g.claim.key w.trace ≤ g.policy.maxAttempts
  backed : ∀ e ∈ w.trace, ∀ key, (invokes key e || marks key e) = true → ∃ g ∈ grants w.trace, g.claim.key = key
  lawful : Always lawful w.trace

section

variable {w : World} {trace : List RecoveryEvent} {e : RecoveryEvent} {i : Nat} {g g' : Grant} {key : String × Nat}

theorem grantOf_thread (h : grantOf e = some g) : g.thread = e.thread := by
  obtain ⟨p, -, rfl⟩ := Option.map_eq_some_iff.mp h
  rfl

theorem grants_snoc (trace : List RecoveryEvent) (e : RecoveryEvent) :
    grants (trace ++ [e]) = grants trace ++ (grantOf e).toList := by
  unfold grants
  rw [List.filterMap_append]
  cases h : grantOf e <;> simp [h]

theorem grants_snoc_none (h : grantOf e = none) : grants (trace ++ [e]) = grants trace := by
  rw [grants_snoc, h]
  exact List.append_nil _

theorem held_snoc_none (h : grantOf e = none) : held i (trace ++ [e]) = held i trace :=
  latest_snoc_none (by simp [h])

theorem held_snoc_other (h : e.thread ≠ i) : held i (trace ++ [e]) = held i trace := by
  refine latest_snoc_none ?_
  cases hg : grantOf e with
  | none => rfl
  | some g =>
    have hne : g.thread ≠ i := fun hi => h ((grantOf_thread hg).symm.trans hi)
    simp [hne]

theorem held_snoc_grant (h : grantOf e = some g) : held e.thread (trace ++ [e]) = some g :=
  latest_snoc_some (by simp [h, grantOf_thread h])

theorem held_mem (h : held i trace = some g) : g ∈ grants trace ∧ g.thread = i := by
  obtain ⟨e, he, hg⟩ := List.mem_filterMap.mp (mem_of_latest h)
  obtain ⟨hgrant, hthread⟩ := Option.filter_eq_some_iff.mp hg
  exact ⟨List.mem_filterMap.mpr ⟨e, he, hgrant⟩, of_decide_eq_true hthread⟩

theorem Fenced.unique (hF : Fenced w) (hg : g ∈ grants w.trace) (hg' : g' ∈ grants w.trace)
    (h : g.claim.key = g'.claim.key) : g = g' := by
  obtain ⟨hp, hn⟩ := Prod.mk.inj h
  refine eq_of_pairwise hF.increasing hg hg' (fun hlt => ?_) fun hlt => ?_
  · have := hlt hp
    omega
  · have := hlt hp.symm
    omega

theorem Fenced.apart (hF : Fenced w) {j : Nat} (hij : j ≠ i) (hg : held i w.trace = some g)
    (hg' : held j w.trace = some g') : g'.claim.key ≠ g.claim.key := fun h => by
  obtain ⟨hm, rfl⟩ := held_mem hg
  obtain ⟨hm', rfl⟩ := held_mem hg'
  exact hij (by rw [hF.unique hm' hm h])

/-! ## Permitted calls keep the invariant -/

theorem invocations_snoc (key : String × Nat) (trace : List RecoveryEvent) (e : RecoveryEvent) :
    invocations key (trace ++ [e]) = invocations key trace + (invokes key e).toNat := by
  unfold invocations
  rw [List.countP_append, List.countP_singleton]
  cases invokes key e <;> rfl

variable {c : Call}

variable {r : c.Reply}

theorem invokes_due (hP : Permits i w c) (h : invokes key ⟨i, c, r⟩ = true) :
    ∃ policy claim, held i w.trace = some ⟨i, policy, claim⟩ ∧ claim.key = key ∧
      invocations key w.trace < policy.maxAttempts := by
  cases c with
  | recover adapter request =>
    obtain ⟨policy, claim, hheld, hdue⟩ := hP
    have hkey : (request.policyId, request.leaseGeneration) = key := of_decide_eq_true h
    have hclaim : claim.key = key := hdue.key.symm.trans hkey
    exact ⟨policy, claim, hheld, hclaim, hclaim ▸ hdue.budget⟩
  | _ => cases h

theorem event_backed (hP : Permits i w c) (h : (invokes key ⟨i, c, r⟩ || marks key ⟨i, c, r⟩) = true) :
    ∃ g ∈ grants w.trace, g.claim.key = key := by
  rcases Bool.or_eq_true_iff.mp h with h | h
  · obtain ⟨policy, claim, hheld, hkey, _⟩ := invokes_due hP h
    exact ⟨_, (held_mem hheld).1, hkey⟩
  · cases c with
    | markReady =>
      unfold marks at h
      split at h
      · rename_i heq
        cases heq
        exact ⟨_, (held_mem hP.1).1, of_decide_eq_true h⟩
      · cases h
    | _ => cases h

theorem permits_lawful (hP : Permits i w c) (r : c.Reply) : lawful w.trace ⟨i, c, r⟩ := by
  cases c with
  | recover => exact hP
  | _ => trivial

variable {db' : Db}

/-- An owned lease was extended by the call, or it is as it was. -/
theorem effect_lease {db : Db} (h : Effect db c r db') {p : String} {lease : LeaseRow}
    (hlease : db'.leases.get? p = some lease) (howned : lease.state = .owned) :
    match extensionOf (p, lease.generation) ⟨i, c, r⟩ with
    | some x => lease.expiresAt = x.taken + x.ttl
    | none => db.leases.get? p = some lease := by
  cases h with
  | @granted policy ownerId recoveryId now claim code named =>
    simp only [Table.get?_upsert] at hlease
    by_cases hp : p = policy.id
    · rw [if_pos hp] at hlease
      cases hlease
      simp [extensionOf, RecoveryLeaseClaim.key, named, hp]
    · rw [if_neg hp] at hlease
      have hne : claim.key ≠ (p, lease.generation) := fun hk => hp ((Prod.mk.inj hk).1.symm.trans named)
      simp only [extensionOf, if_neg hne]
      exact hlease
  | @extended claim leaseTtl now inForce =>
    simp only [Table.get?_modify] at hlease
    by_cases hp : p = claim.policyId
    · rw [if_pos hp] at hlease
      obtain ⟨l, hl, rfl⟩ := Option.map_eq_some_iff.mp hlease
      subst hp
      have hgen : l.generation = claim.generation := by simpa [InForce, generation, hl] using inForce
      simp [extensionOf, RecoveryLeaseClaim.key, hgen]
    · rw [if_neg hp] at hlease
      have hne : claim.key ≠ (p, lease.generation) := fun hk => hp (Prod.mk.inj hk).1.symm
      simp only [extensionOf, if_neg hne]
      exact hlease
  | @released claim lost =>
    show db.leases.get? p = some lease
    simp only [Table.get?_modify] at hlease
    by_cases hp : p = claim.policyId
    · rw [if_pos hp] at hlease
      obtain ⟨l, hl, rfl⟩ := Option.map_eq_some_iff.mp hlease
      cases lost <;> cases howned
    · rw [if_neg hp] at hlease
      exact hlease
  | quiet idle =>
    have hnone : extensionOf (p, lease.generation) ⟨i, c, r⟩ = none := by
      cases c with
      | tryAcquire =>
        unfold extensionOf
        split
        · rename_i heq
          cases heq
          exact absurd rfl (idle _)
        · rename_i heq
          cases heq
        · rfl
      | heartbeat =>
        cases idle
        rfl
      | _ => rfl
    rw [hnone]
    exact hlease
  | _ => exact hlease

theorem ordered_updateWhere {t : Table String AttemptRow} {p : String → AttemptRow → Bool} {f : AttemptRow → AttemptRow}
    (hf : ∀ id a, t.get? id = some a → p id a = true → (f a).key = a.key)
    (h : t.rows.Pairwise fun a b => a.2.policyId = b.2.policyId → a.2.leaseGeneration < b.2.leaseGeneration) :
    (t.updateWhere p f).rows.Pairwise fun a b =>
      a.2.policyId = b.2.policyId → a.2.leaseGeneration < b.2.leaseGeneration := by
  have hkey : ∀ e ∈ t.rows, (Table.rewrite p f e).2.key = e.2.key := fun e he => by
    unfold Table.rewrite
    by_cases hp : p e.1 e.2 = true
    · rw [if_pos hp]
      exact hf e.1 e.2 (Table.mem_rows.mp he) hp
    · rw [if_neg hp]
  show (t.rows.map (Table.rewrite p f)).Pairwise _
  rw [List.pairwise_map]
  refine h.imp_of_mem fun {a b} ha hb hab hp => ?_
  obtain ⟨hap, hag⟩ := Prod.mk.inj (hkey a ha)
  obtain ⟨hbp, hbg⟩ := Prod.mk.inj (hkey b hb)
  rw [hag, hbg]
  exact hab (hap.symm.trans (hp.trans hbp))

theorem grant_fresh {policy : RuntimeRecoveryPolicy} {claim : RecoveryLeaseClaim} (hF : Fenced w) (hP : Permits i w c)
    (hE : Effect w.state c r db') (hc : c.grant r = some (policy, claim)) :
    ∀ e ∈ w.trace ++ [⟨i, c, r⟩], invokes claim.key e = false ∧ marks claim.key e = false := by
  intro e he
  rw [← Bool.or_eq_false_iff]
  refine Bool.eq_false_iff.mpr fun h => ?_
  obtain ⟨hnamed, hnext, _⟩ := hE.grant hc
  have hsome : ∃ g ∈ grants w.trace, g.claim.key = claim.key := by
    rcases List.mem_append.mp he with he | he
    · exact hF.backed e he _ h
    · obtain rfl := List.mem_singleton.mp he
      exact event_backed hP h
  obtain ⟨g, hg, hkey⟩ := hsome
  obtain ⟨hp, hn⟩ := Prod.mk.inj hkey
  have hle := hF.bounded g hg
  rw [hp, hnamed] at hle
  omega

/-- The grants stay in order and keep their budgets. -/
theorem effect_grants (hF : Fenced w) (hP : Permits i w c) (hE : Effect w.state c r db') :
    ((grants (w.trace ++ [⟨i, c, r⟩])).Pairwise fun a b =>
      a.claim.policyId = b.claim.policyId → a.claim.generation < b.claim.generation) ∧
    (∀ g ∈ grants (w.trace ++ [⟨i, c, r⟩]), g.claim.generation ≤ generation db' g.claim.policyId ∧
      g.claim.policyId = g.policy.id ∧
      invocations g.claim.key (w.trace ++ [⟨i, c, r⟩]) ≤ g.policy.maxAttempts) ∧
    ∀ g ∈ grants w.trace, g ∈ grants (w.trace ++ [⟨i, c, r⟩]) := by
  have hkept : ∀ g ∈ grants w.trace, g ∈ grants (w.trace ++ [⟨i, c, r⟩]) := fun g hg => by
    rw [grants_snoc]
    exact List.mem_append_left _ hg
  have hold : ∀ g ∈ grants w.trace, invocations g.claim.key (w.trace ++ [⟨i, c, r⟩]) ≤ g.policy.maxAttempts := by
    intro g hg
    rw [invocations_snoc]
    cases h : invokes g.claim.key ⟨i, c, r⟩ with
    | false => exact hF.budget g hg
    | true =>
      obtain ⟨policy, claim, hheld, hkey, hlt⟩ := invokes_due hP h
      obtain rfl := hF.unique hg (held_mem hheld).1 hkey.symm
      exact hlt
  cases hgrant : c.grant r with
  | none =>
    rw [grants_snoc_none (by simp [grantOf, hgrant])]
    refine ⟨hF.increasing, fun g hg => ⟨?_, hF.named g hg, hold g hg⟩, fun g hg => hg⟩
    rw [hE.ungranted hgrant]
    exact hF.bounded g hg
  | some p =>
    obtain ⟨policy, claim⟩ := p
    obtain ⟨hnamed, hnext, hgen⟩ := hE.grant hgrant
    have hadd : grants (w.trace ++ [⟨i, c, r⟩]) = grants w.trace ++ [⟨i, policy, claim⟩] := by
      rw [grants_snoc]
      simp [grantOf, hgrant]
    have hbelow : ∀ g ∈ grants w.trace, g.claim.policyId = policy.id → g.claim.generation < claim.generation := by
      intro g hg hp
      have hle := hF.bounded g hg
      rw [hp] at hle
      omega
    rw [hadd] at hkept ⊢
    refine ⟨?_, fun g hg => ?_, hkept⟩
    · refine List.pairwise_append.mpr ⟨hF.increasing, List.pairwise_singleton _ _, fun a ha b hb hab => ?_⟩
      obtain rfl := List.mem_singleton.mp hb
      exact hbelow a ha (hab.trans hnamed)
    · rcases List.mem_append.mp hg with hg | hg
      · refine ⟨?_, hF.named g hg, hold g hg⟩
        rw [hgen]
        split
        · rename_i hp
          exact Nat.le_of_lt (hbelow g hg hp)
        · exact hF.bounded g hg
      · obtain rfl := List.mem_singleton.mp hg
        refine ⟨Nat.le_of_eq (by rw [hgen, if_pos hnamed]), hnamed, ?_⟩
        have hzero : invocations claim.key (w.trace ++ [⟨i, c, r⟩]) = 0 := by
          refine List.countP_eq_zero.mpr fun e he hinv => ?_
          exact Bool.false_ne_true ((grant_fresh hF hP hE hgrant e he).1.symm.trans hinv)
        rw [hzero]
        exact Nat.zero_le _

/-- The attempts stay in order, below the generation in force, and the unfinished ones belong to it. -/
theorem effect_attempts (hF : Fenced w) (hP : Permits i w c) (hE : Effect w.state c r db') :
    (db'.attempts.rows.Pairwise fun a b =>
      a.2.policyId = b.2.policyId → a.2.leaseGeneration < b.2.leaseGeneration) ∧
    ∀ id a, db'.attempts.get? id = some a → a.leaseGeneration ≤ generation db' a.policyId ∧
      (a.finishedAt = none → a.leaseGeneration = generation db' a.policyId) := by
  have hsame : db'.attempts = w.state.attempts → c.grant r = none →
      (db'.attempts.rows.Pairwise fun a b =>
        a.2.policyId = b.2.policyId → a.2.leaseGeneration < b.2.leaseGeneration) ∧
      ∀ id a, db'.attempts.get? id = some a → a.leaseGeneration ≤ generation db' a.policyId ∧
        (a.finishedAt = none → a.leaseGeneration = generation db' a.policyId) := by
    intro hattempts hgrant
    rw [hattempts]
    refine ⟨hF.ordered, fun id a ha => ?_⟩
    rw [hE.ungranted hgrant]
    exact ⟨hF.attempted id a ha, hF.current id a ha⟩
  have hE' := hE
  cases hE with
  | @granted policy =>
    obtain ⟨_, _, hgen⟩ := hE'.grant rfl
    refine ⟨ordered_updateWhere (fun _ _ _ _ => rfl) hF.ordered, fun id a ha => ?_⟩
    simp only [Table.get?_updateWhere] at ha
    obtain ⟨b, hb, hab⟩ := Option.map_eq_some_iff.mp ha
    have hle := hF.attempted id b hb
    by_cases hun : unfinished policy.id b = true
    · rw [if_pos hun] at hab
      subst hab
      have hp : b.policyId = policy.id := by
        unfold unfinished at hun
        simp only [Bool.and_eq_true, decide_eq_true_eq] at hun
        exact hun.1
      refine ⟨?_, fun h => (by cases h)⟩
      show b.leaseGeneration ≤ generation _ b.policyId
      rw [hgen, if_pos hp]
      rw [hp] at hle
      omega
    · rw [if_neg hun] at hab
      subst hab
      rw [hgen]
      by_cases hp : b.policyId = policy.id
      · rw [if_pos hp]
        rw [hp] at hle
        refine ⟨by omega, fun hnone => absurd ?_ hun⟩
        simp [unfinished, hp, hnone]
      · rw [if_neg hp]
        exact ⟨hle, hF.current id b hb⟩
  | @created policy claim state before finished row attempts inForce inserted owner fenced =>
    obtain ⟨hheld, hun, _⟩ := hP
    have hpolicy : claim.policyId = policy.id := hF.named _ (held_mem hheld).1
    have hrow : row.leaseGeneration = generation w.state row.policyId := by
      rw [fenced, owner, ← hpolicy]
      exact inForce.symm
    refine ⟨?_, fun id a ha => ?_⟩
    · show attempts.rows.Pairwise _
      rw [Table.insert?_rows inserted]
      refine List.pairwise_append.mpr ⟨hF.ordered, List.pairwise_singleton _ _, fun a ha b hb hab => ?_⟩
      obtain rfl := List.mem_singleton.mp hb
      have hget := Table.mem_rows.mp ha
      have hle := hF.attempted a.1 a.2 hget
      have hne : a.2.leaseGeneration ≠ claim.generation := fun hg =>
        hun a.1 a.2 hget (Prod.ext (hab.trans (owner.trans hpolicy.symm)) hg)
      show a.2.leaseGeneration < row.leaseGeneration
      rw [hab, ← hrow] at hle
      omega
    · show a.leaseGeneration ≤ generation w.state a.policyId ∧ _
      have ha : attempts.get? id = some a := ha
      rw [Table.get?_insert inserted] at ha
      split at ha
      · cases ha
        exact ⟨Nat.le_of_eq hrow, fun _ => hrow⟩
      · exact ⟨hF.attempted id a ha, hF.current id a ha⟩
  | @updated claim update attempt row inForce found key =>
    obtain ⟨_, ⟨mine, hmine, hkey, _⟩, _⟩ := hP
    obtain rfl := Option.some.inj (found.symm.trans hmine)
    obtain ⟨hp, hg⟩ := Prod.mk.inj (key.trans hkey)
    refine ⟨?_, fun id a ha => ?_⟩
    · refine ordered_updateWhere (fun id a ha hid => ?_) hF.ordered
      obtain rfl : id = claim.recoveryId := of_decide_eq_true hid
      obtain rfl := Option.some.inj (found.symm.trans ha)
      exact key
    · show a.leaseGeneration ≤ generation w.state a.policyId ∧ _
      simp only [Table.get?_modify] at ha
      split at ha
      · obtain ⟨_, _, rfl⟩ := Option.map_eq_some_iff.mp ha
        have hrow : row.leaseGeneration = generation w.state row.policyId := by
          rw [hg, hp]
          exact inForce.symm
        exact ⟨Nat.le_of_eq hrow, fun _ => hrow⟩
      · exact ⟨hF.attempted id a ha, hF.current id a ha⟩
  | quiet idle =>
    refine hsame rfl ?_
    cases c with
    | tryAcquire =>
      unfold Call.grant
      split
      · rename_i heq _
        cases heq
        exact absurd rfl (idle _)
      · rfl
    | _ => rfl
  | _ => exact hsame rfl rfl

/-- **Permitted calls keep the invariant.** -/
theorem effect_fenced (hF : Fenced w) (hP : Permits i w c) (hE : Effect w.state c r db') :
    Fenced ⟨db', w.trace ++ [⟨i, c, r⟩]⟩ := by
  obtain ⟨hincreasing, hgrants, hkept⟩ := effect_grants hF hP hE
  obtain ⟨hordered, hattempts⟩ := effect_attempts hF hP hE
  refine ⟨hincreasing, fun g hg => (hgrants g hg).1, fun g hg => (hgrants g hg).2.1, hordered,
    fun id a ha => (hattempts id a ha).1, fun id a ha => (hattempts id a ha).2, fun p lease hlease howned => ?_,
    fun g hg => (hgrants g hg).2.2, fun e he key hkey => ?_, hF.lawful.snoc (permits_lawful hP r)⟩
  · have hextended := @effect_lease i _ _ _ _ hE p lease hlease howned
    cases hx : extensionOf (p, lease.generation) ⟨i, c, r⟩ with
    | some x =>
      rw [hx] at hextended
      exact ⟨x, latest_snoc_some hx, hextended⟩
    | none =>
      rw [hx] at hextended
      obtain ⟨x, hlatest, hexpires⟩ := hF.expiry p lease hextended howned
      exact ⟨x, by rw [latest_snoc_none hx]; exact hlatest, hexpires⟩
  · have hsome : ∃ g ∈ grants w.trace, g.claim.key = key := by
      rcases List.mem_append.mp he with he | he
      · exact hF.backed e he key hkey
      · obtain rfl := List.mem_singleton.mp he
        exact event_backed hP hkey
    obtain ⟨g, hg, hgkey⟩ := hsome
    exact ⟨g, hkept g hg, hgkey⟩

/-! ## What the other callers leave alone -/

/-- An attempt stays, with the grant under which it was made, and does not become a healthy first observation. -/
theorem effect_keys (hP : Permits i w c) (h : Effect w.state c r db') {id : String} {a : AttemptRow}
    (ha : w.state.attempts.get? id = some a) : ∃ a', db'.attempts.get? id = some a' ∧ a'.key = a.key ∧
      (a.state ≠ .observedHealthy → a'.state ≠ .observedHealthy) := by
  cases h with
  | @granted =>
    simp only [Table.get?_updateWhere, ha, Option.map_some]
    refine ⟨_, rfl, ?_⟩
    split
    · exact ⟨rfl, (by rintro _ ⟨⟩)⟩
    · exact ⟨rfl, fun h => h⟩
  | created row attempts inForce inserted =>
    refine ⟨a, ?_, rfl, fun h => h⟩
    show attempts.get? id = some a
    rw [Table.get?_insert inserted, if_neg]
    · exact ha
    · rintro rfl
      rw [Table.insert?_fresh inserted] at ha
      cases ha
  | @updated claim update attempt row inForce found key state =>
    simp only [Table.get?_modify]
    by_cases hid : id = claim.recoveryId
    · subst hid
      obtain rfl := Option.some.inj (found.symm.trans ha)
      exact ⟨row, by simp [ha], key, fun _ => state ▸ hP.2.2.1⟩
    · rw [if_neg hid]
      exact ⟨a, ha, rfl, fun h => h⟩
  | _ => exact ⟨a, ha, rfl, fun h => h⟩

/-- What a step of another caller leaves alone for the holder of a grant. -/
structure Undisturbed (i : Nat) (g : Grant) (w w' : World) : Prop where
  event : ∃ e, w'.trace = w.trace ++ [e] ∧ e.thread ≠ i ∧ invokes g.claim.key e = false ∧ marks g.claim.key e = false ∧
    extensionOf g.claim.key e = none
  forth : ∀ id a, w.state.attempts.get? id = some a → ∃ a', w'.state.attempts.get? id = some a' ∧ a'.key = a.key ∧
    (a.state ≠ .observedHealthy → a'.state ≠ .observedHealthy)
  back : ∀ id a, w'.state.attempts.get? id = some a → a.key = g.claim.key →
    ∃ a', w.state.attempts.get? id = some a' ∧ a'.key = g.claim.key
  force : InForce g.claim w'.state → InForce g.claim w.state
  rows : InForce g.claim w'.state → ∀ id a, w.state.attempts.get? id = some a → a.key = g.claim.key →
    w'.state.attempts.get? id = some a

/-- The event of another caller concerns another grant. -/
theorem foreign_event {j : Nat} (hF : Fenced w) (hP : Permits j w c) (hE : Effect w.state c r db') (hj : j ≠ i)
    (hg : held i w.trace = some g) :
    invokes g.claim.key ⟨j, c, r⟩ = false ∧ marks g.claim.key ⟨j, c, r⟩ = false ∧
      extensionOf g.claim.key ⟨j, c, r⟩ = none := by
  have hapart : ∀ policy claim, held j w.trace = some ⟨j, policy, claim⟩ → claim.key ≠ g.claim.key :=
    fun policy claim hheld => hF.apart hj hg hheld
  refine ⟨?_, ?_, ?_⟩
  · refine Bool.eq_false_iff.mpr fun h => ?_
    obtain ⟨policy, claim, hheld, hkey, _⟩ := invokes_due hP h
    exact hapart policy claim hheld hkey
  · cases c with
    | markReady policy claim =>
      unfold marks
      split
      · rename_i heq
        cases heq
        exact decide_eq_false (hapart policy claim hP.1)
      · rfl
    | _ => rfl
  · cases c with
    | heartbeat =>
      obtain ⟨policy, hheld⟩ := hP
      unfold extensionOf
      split
      · rename_i heq
        cases heq
      · rename_i heq
        cases heq
        exact if_neg (hapart policy _ hheld)
      · rfl
    | tryAcquire =>
      unfold extensionOf
      split
      · rename_i heq
        cases heq
        obtain ⟨hnamed, hnext, _⟩ := hE.grant rfl
        refine if_neg fun hkey => ?_
        obtain ⟨hp, hn⟩ := Prod.mk.inj hkey
        have hle := hF.bounded g (held_mem hg).1
        rw [← hp, hnamed] at hle
        omega
      · rename_i heq
        cases heq
      · rfl
    | _ => rfl

theorem effect_undisturbed {j : Nat} (hF : Fenced w) (hP : Permits j w c) (hE : Effect w.state c r db') (hj : j ≠ i)
    (hg : held i w.trace = some g) :
    Undisturbed i g w ⟨db', w.trace ++ [⟨j, c, r⟩]⟩ := by
  have hbounded := hF.bounded g (held_mem hg).1
  have hforce : InForce g.claim db' → InForce g.claim w.state ∧
      ∀ policy claim, c.grant r = some (policy, claim) → policy.id ≠ g.claim.policyId := by
    intro h
    unfold InForce at h ⊢
    cases hgrant : c.grant r with
    | none =>
      rw [hE.ungranted hgrant] at h
      exact ⟨h, (by rintro _ _ ⟨⟩)⟩
    | some p =>
      obtain ⟨policy, claim⟩ := p
      obtain ⟨hnamed, hnext, hgen⟩ := hE.grant hgrant
      rw [hgen] at h
      split at h
      · rename_i hp
        rw [hp] at hbounded
        omega
      · rename_i hp
        refine ⟨h, fun policy' claim' he => ?_⟩
        cases he
        exact fun hp' => hp hp'.symm
  refine ⟨⟨_, rfl, hj, foreign_event hF hP hE hj hg⟩, fun id a ha => effect_keys hP hE ha, ?_, fun h =>
    (hforce h).1, ?_⟩
  · intro id a ha hkey
    cases hE with
    | @granted =>
      simp only [Table.get?_updateWhere] at ha
      obtain ⟨b, hb, rfl⟩ := Option.map_eq_some_iff.mp ha
      refine ⟨b, hb, ?_⟩
      split at hkey
      · exact hkey
      · exact hkey
    | @created policy claim state before finished row attempts inForce inserted owner fenced =>
      have ha : attempts.get? id = some a := ha
      rw [Table.get?_insert inserted] at ha
      split at ha
      · have hown : row.key = claim.key := Prod.ext (owner.trans (hF.named _ (held_mem hP.1).1).symm) fenced
        obtain rfl := Option.some.inj ha
        exact absurd (hown.symm.trans hkey) (hF.apart hj hg hP.1)
      · exact ⟨a, ha, hkey⟩
    | @updated claim update attempt row inForce found key =>
      simp only [Table.get?_modify] at ha
      split at ha
      · rename_i hid
        obtain ⟨b, hb, rfl⟩ := Option.map_eq_some_iff.mp ha
        subst hid
        obtain rfl := Option.some.inj (found.symm.trans hb)
        exact ⟨attempt, found, key.symm.trans hkey⟩
      · exact ⟨a, ha, hkey⟩
    | _ => exact ⟨a, ha, hkey⟩
  · intro h id a ha hkey
    obtain ⟨-, hother⟩ := hforce h
    cases hE with
    | @granted policy ownerId recoveryId now claim =>
      have hne : ¬ unfinished policy.id a = true := fun hun => by
        unfold unfinished at hun
        simp only [Bool.and_eq_true, decide_eq_true_eq] at hun
        exact hother policy claim rfl (hun.1.symm.trans (Prod.mk.inj hkey).1)
      simp only [Table.get?_updateWhere, ha, Option.map_some, if_neg hne]
    | created row attempts inForce inserted =>
      show attempts.get? id = some a
      rw [Table.get?_insert inserted, if_neg]
      · exact ha
      · rintro rfl
        rw [Table.insert?_fresh inserted] at ha
        cases ha
    | @updated claim =>
      obtain ⟨⟨policy, hheld⟩, ⟨mine, hmine, hminekey, _⟩, _⟩ := hP
      have hid : id ≠ claim.recoveryId := by
        rintro rfl
        obtain rfl := Option.some.inj (hmine.symm.trans ha)
        exact hF.apart hj hg hheld (hminekey.symm.trans hkey)
      simp only [Table.get?_modify, if_neg hid]
      exact ha
    | _ => exact ha

end

end AgentFabric.NodeRecovery
