import AgentFabric.NodeRecovery.Grants

/-!
# The callers of node recovery

A caller makes sure of `Permits` before each of its calls, whatever the other callers do in between.
-/

namespace AgentFabric.NodeRecovery

open AgentFabric.Lib

/-- A step of a caller: a permitted call. -/
def Rules (i : Nat) (w w' : World) : Prop := ∃ c env, Permits i w c ∧ w' = (machine.traced.act i w env c).2

/-- The other callers keep the assertion. -/
def Steady (i : Nat) (g : Grant) (φ : World → Prop) : Prop := ∀ w w', Undisturbed i g w w' → φ w → φ w'

/-- The caller holds the grant, and the assertion is true. -/
def Owns (i : Nat) (g : Grant) (φ : World → Prop) (w : World) : Prop := held i w.trace = some g ∧ φ w

section

variable {w w' : World} {i : Nat} {g : Grant} {c : Call} {r : c.Reply} {db' : Db} {φ ψ : World → Prop}

/-! ## What the holder of a grant keeps knowing -/

theorem Steady.stable (h : Steady i g φ) : Stable Fenced Rules i (Owns i g φ) := by
  rintro j w w' hj hF _ ⟨c, env, hP, rfl⟩ ⟨hheld, hφ⟩
  refine ⟨?_, h _ _ (effect_undisturbed hF hP (act_effect w.state env c) hj hheld) hφ⟩
  show held i (w.trace ++ [⟨j, c, (act w.state env c).1⟩]) = some g
  rw [held_snoc_other hj]
  exact hheld

theorem Steady.true : Steady i g fun _ => True := fun _ _ _ _ => trivial

theorem Steady.and (hφ : Steady i g φ) (hψ : Steady i g ψ) : Steady i g fun w => φ w ∧ ψ w :=
  fun w w' hu h => ⟨hφ w w' hu h.1, hψ w w' hu h.2⟩

theorem Steady.forall {α : Sort*} {φ : α → World → Prop} (h : ∀ a, Steady i g (φ a)) : Steady i g fun w => ∀ a, φ a w :=
  fun w w' hu hall a => h a w w' hu (hall a)

theorem Steady.imp (p : Prop) (h : Steady i g φ) : Steady i g fun w => p → φ w :=
  fun w w' hu hp hq => h w w' hu (hp hq)

theorem Steady.attempted : Steady i g fun w => Attempted g.claim w.state := by
  rintro w w' hu ⟨a, ha, hkey, hstate⟩
  obtain ⟨a', ha', hkey', hkept⟩ := hu.forth _ a ha
  exact ⟨a', ha', hkey'.trans hkey, hkept hstate⟩

theorem Steady.unattempted : Steady i g fun w => Unattempted g.claim w.state := by
  intro w w' hu h id a ha hkey
  obtain ⟨a', ha', hkey'⟩ := hu.back id a ha hkey
  exact h id a' ha' hkey'

theorem Steady.attemptIn (state : RecoveryAttemptState) : Steady i g fun w => AttemptIn state g.claim w.state := by
  intro w w' hu h hforce
  obtain ⟨a, ha, hkey, hstate⟩ := h (hu.force hforce)
  exact ⟨a, hu.rows hforce _ a ha hkey, hkey, hstate⟩

theorem Steady.unmarked : Steady i g fun w => Unmarked g.claim w.trace := by
  intro w w' hu h e he
  obtain ⟨e', htrace, _, _, hmarks, _⟩ := hu.event
  rw [htrace] at he
  rcases List.mem_append.mp he with he | he
  · exact h e he
  · obtain rfl := List.mem_singleton.mp he
    exact hmarks

theorem Steady.invocations (n : Nat) : Steady i g fun w => invocations g.claim.key w.trace ≤ n := by
  intro w w' hu h
  obtain ⟨e, htrace, _, hinvokes, _⟩ := hu.event
  show NodeRecovery.invocations g.claim.key w'.trace ≤ n
  rw [htrace, invocations_snoc, hinvokes]
  exact h

theorem Steady.marked : Steady i g fun w => ∃ e ∈ w.trace, marks g.claim.key e := by
  rintro w w' hu ⟨e, he, hmarks⟩
  obtain ⟨e', htrace, _⟩ := hu.event
  exact ⟨e, htrace ▸ List.mem_append_left _ he, hmarks⟩

theorem Steady.or (hφ : Steady i g φ) (hψ : Steady i g ψ) : Steady i g fun w => φ w ∨ ψ w :=
  fun w w' hu h => h.imp (hφ w w' hu) (hψ w w' hu)

theorem Steady.reported : Steady i g (Reported g.claim) := .or (.attemptIn _) (.and (.attemptIn _) .marked)

def Observed (i : Nat) (g : Grant) (w : World) : Prop := Since (observedBy i g.policy.id) (grantedTo i) w.trace

theorem Steady.observed : Steady i g (Observed i g) := by
  intro w w' hu h
  obtain ⟨e, htrace, hthread, _⟩ := hu.event
  unfold Observed
  rw [htrace]
  exact h.snoc fun hgranted => hthread hgranted.1

/-- The caller was authorized since its last invocation. -/
def Authorized (i : Nat) (recoveryId authorizationRef : String) (w : World) : Prop :=
  Since (authorizes i recoveryId authorizationRef) (invokedBy i) w.trace

theorem Steady.authorized (recoveryId authorizationRef : String) :
    Steady i g (Authorized i recoveryId authorizationRef) := by
  intro w w' hu h
  obtain ⟨e, htrace, hthread, _⟩ := hu.event
  unfold Authorized
  rw [htrace]
  refine h.snoc ?_
  rintro ⟨adapter, request, r, rfl⟩
  exact hthread rfl

/-- The lease was extended by its lease time. -/
def Extended (g : Grant) (w : World) : Prop :=
  ∃ taken, latest (extensionOf g.claim.key) w.trace = some ⟨taken, g.policy.leaseTtl⟩

theorem Steady.extended : Steady i g (Extended g) := by
  rintro w w' hu ⟨taken, h⟩
  obtain ⟨e, htrace, _, _, _, hextension⟩ := hu.event
  refine ⟨taken, ?_⟩
  rw [htrace, latest_snoc_none hextension]
  exact h

/-! ## Calls that change nothing for their caller -/

/-- The calls that neither grant, extend, invoke, create nor find ready. -/
def Call.calm : Call → Bool
  | .tryAcquire .. | .heartbeat .. | .recover .. | .createAttempt .. | .markReady .. => false
  | _ => true

theorem calm_grant (hc : c.calm = true) (r : c.Reply) : c.grant r = none := by
  cases c with
  | tryAcquire => cases hc
  | _ => rfl

/-- The assertion outlasts the steps of the other callers and the caller's own calm calls. -/
structure Lasting (i : Nat) (g : Grant) (φ : World → Prop) : Prop where
  steady : Steady i g φ
  calm : ∀ w (c : Call) (r : c.Reply) db', c.calm = true → Permits i w c → Effect w.state c r db' → φ w →
    φ ⟨db', w.trace ++ [⟨i, c, r⟩]⟩

theorem Lasting.and (hφ : Lasting i g φ) (hψ : Lasting i g ψ) : Lasting i g fun w => φ w ∧ ψ w :=
  ⟨hφ.steady.and hψ.steady, fun w c r db' hc hP hE h =>
    ⟨hφ.calm w c r db' hc hP hE h.1, hψ.calm w c r db' hc hP hE h.2⟩⟩

theorem calm_event (hc : c.calm = true) (i : Nat) (r : c.Reply) (key : String × Nat) : invokes key ⟨i, c, r⟩ = false ∧
    marks key ⟨i, c, r⟩ = false ∧ extensionOf key ⟨i, c, r⟩ = none ∧ ¬ invokedBy i ⟨i, c, r⟩ := by
  cases c with
  | tryAcquire | heartbeat | recover | createAttempt | markReady => cases hc
  | _ => exact ⟨rfl, rfl, rfl, fun ⟨_, _, _, h⟩ => nomatch h⟩

/-- What was done under the grant so far: its attempt exists, and the adapter was invoked at most so often. -/
def Working (g : Grant) (n : Nat) (w : World) : Prop :=
  Attempted g.claim w.state ∧ Unmarked g.claim w.trace ∧ invocations g.claim.key w.trace ≤ n

theorem working_snoc {n : Nat} (hP : Permits i w c) (hE : Effect w.state c r db')
    (hmarks : marks g.claim.key ⟨i, c, r⟩ = false) (h : Working g n w) :
    Working g (n + (invokes g.claim.key ⟨i, c, r⟩).toNat) ⟨db', w.trace ++ [⟨i, c, r⟩]⟩ := by
  obtain ⟨⟨a, ha, hkey, hstate⟩, hunmarked, hcount⟩ := h
  obtain ⟨a', ha', hkey', hkept⟩ := effect_keys hP hE ha
  refine ⟨⟨a', ha', hkey'.trans hkey, hkept hstate⟩, fun e he => ?_, ?_⟩
  · rcases List.mem_append.mp he with he | he
    · exact hunmarked e he
    · obtain rfl := List.mem_singleton.mp he
      exact hmarks
  · show invocations g.claim.key (w.trace ++ [⟨i, c, r⟩]) ≤ _
    rw [invocations_snoc]
    omega

theorem Lasting.working (n : Nat) : Lasting i g (Working g n) := by
  refine ⟨Steady.and .attempted (.and .unmarked (.invocations n)), fun w c r db' hc hP hE h => ?_⟩
  obtain ⟨hinvokes, hmarks, _⟩ := calm_event hc i r g.claim.key
  have h := @working_snoc w i g c r db' n hP hE hmarks h
  rw [hinvokes] at h
  exact h

theorem Lasting.authorized (recoveryId authorizationRef : String) :
    Lasting i g (Authorized i recoveryId authorizationRef) :=
  ⟨.authorized _ _, fun _ _ r _ hc _ _ h => h.snoc (calm_event hc i r g.claim.key).2.2.2⟩

theorem Lasting.observed : Lasting i g (Observed i g) :=
  ⟨.observed, fun _ _ r _ hc _ _ h => h.snoc fun hgranted => hgranted.2 (by simp [grantOf, calm_grant hc r])⟩

theorem Lasting.extended : Lasting i g (Extended g) := by
  refine ⟨.extended, fun w c r db' hc _ _ ⟨taken, h⟩ => ⟨taken, ?_⟩⟩
  rw [latest_snoc_none (calm_event hc i r g.claim.key).2.2.1]
  exact h

/-- Nothing was done under the grant yet. -/
def Fresh (g : Grant) (w : World) : Prop :=
  Unattempted g.claim w.state ∧ Unmarked g.claim w.trace ∧ invocations g.claim.key w.trace ≤ 0

theorem Lasting.fresh : Lasting i g (Fresh g) := by
  refine ⟨Steady.and .unattempted (.and .unmarked (.invocations 0)), fun w c r db' hc _ hE h => ?_⟩
  obtain ⟨hun, hunmarked, hcount⟩ := h
  obtain ⟨hinvokes, hmarks, _⟩ := calm_event hc i r g.claim.key
  refine ⟨fun id a ha hkey => ?_, fun e he => ?_, ?_⟩
  · cases hE with
    | granted | created => cases hc
    | @updated claim update attempt row inForce found key =>
      simp only [Table.get?_modify] at ha
      split at ha
      · rename_i hid
        obtain ⟨b, hb, rfl⟩ := Option.map_eq_some_iff.mp ha
        subst hid
        exact hun _ attempt found (key.symm.trans hkey)
      · exact hun id a ha hkey
    | _ => exact hun id a ha hkey
  · rcases List.mem_append.mp he with he | he
    · exact hunmarked e he
    · obtain rfl := List.mem_singleton.mp he
      exact hmarks
  · show invocations g.claim.key (w.trace ++ [⟨i, c, r⟩]) ≤ 0
    rw [invocations_snoc, hinvokes]
    exact hcount

end

/-! ## Outlines of the parts -/

/-- From `φ`, the part makes permitted calls only, and what it returns comes with `Q`. -/
abbrev Part (i : Nat) (g : Grant) {α : Type} (φ : World → Prop) (p : Service α) (Q : α → World → Prop) : Prop :=
  Outline machine.traced Fenced Rules i (Owns i g φ) p.run (onOk fun a => Owns i g (Q a))

section

variable {i : Nat} {g : Grant} {α β : Type} {φ ψ : World → Prop}

theorem Part.bind {p : Service α} {f : α → Service β} {Q : α → World → Prop} {Q' : β → World → Prop}
    (hp : Part i g φ p Q) (hf : ∀ a, Part i g (Q a) (f a) Q') : Part i g φ (p >>= f) Q' := Outline.raising_bind hp hf

theorem Part.pre {p : Service α} {Q : α → World → Prop} (hp : Part i g ψ p Q) (h : ∀ w, φ w → ψ w) :
    Part i g φ p Q := Outline.weaken hp fun w _ hφ => ⟨hφ.1, h w hφ.2⟩

theorem Part.post {p : Service α} {Q Q' : α → World → Prop} (hp : Part i g φ p Q) (h : ∀ a w, Q a w → Q' a w) :
    Part i g φ p Q' := by
  refine Outline.post hp fun r w hr => ?_
  cases r with
  | ok a => exact ⟨hr.1, h a w hr.2⟩
  | error => trivial

theorem Part.pure {a : α} {Q : α → World → Prop} (h : ∀ w, φ w → Q a w) : Part i g φ (Pure.pure a : Service α) Q :=
  fun w _ hφ => ⟨hφ.1, h w hφ.2⟩

theorem Part.throw {e : Raised} {Q : α → World → Prop} : Part i g φ (MonadExcept.throw e : Service α) Q :=
  fun _ _ _ => trivial

theorem Part.ask {c : Call} {Q : c.Reply → World → Prop} (steady : ∀ r, Steady i g (Q r))
    (hgrant : ∀ r, c.grant r = none)
    (permit : ∀ w, Fenced w → held i w.trace = some g → φ w → Permits i w c)
    (post : ∀ w (r : c.Reply) db', Permits i w c → Effect w.state c r db' → φ w → Q r ⟨db', w.trace ++ [⟨i, c, r⟩]⟩) :
    Part i g φ (NodeRecovery.ask c) Q := by
  refine Outline.ask (fun r => (steady r).stable) fun w env hF hφ => ?_
  have hP := permit w hF hφ.1 hφ.2
  have hE := act_effect w.state env c
  refine ⟨effect_fenced hF hP hE, ⟨c, env, hP, rfl⟩, ?_, post w _ _ hP hE hφ.2⟩
  show held i (w.trace ++ [⟨i, c, (act w.state env c).1⟩]) = some g
  rw [held_snoc_none (by simp [grantOf, hgrant])]
  exact hφ.1

theorem Part.transact {c : Call} {f : c.Reply → Except Raised α} {Q : α → World → Prop} (steady : ∀ a, Steady i g (Q a))
    (hgrant : ∀ r, c.grant r = none) (permit : ∀ w, Fenced w → held i w.trace = some g → φ w → Permits i w c)
    (post : ∀ w (r : c.Reply) db' a, f r = .ok a → Permits i w c → Effect w.state c r db' → φ w →
      Q a ⟨db', w.trace ++ [⟨i, c, r⟩]⟩) :
    Part i g φ (NodeRecovery.ask c >>= fun r => raising (f r)) Q := by
  refine Part.bind (Part.ask (fun r => Steady.forall fun a => Steady.imp (f r = .ok a) (steady a)) hgrant permit
    fun w r db' hP hE hφ a ha => post w r db' a ha hP hE hφ) fun r => ?_
  exact Outline.result fun a w ha _ h => ⟨h.1, h.2 a ha⟩

theorem Part.calm {c : Call} (hφ : Lasting i g φ) (hc : c.calm = true)
    (permit : ∀ w, Fenced w → held i w.trace = some g → φ w → Permits i w c) :
    Part i g φ (NodeRecovery.ask c) fun _ => φ :=
  Part.ask (fun _ => hφ.steady) (calm_grant hc) permit fun w r db' hP hE h => hφ.calm w c r db' hc hP hE h

theorem Part.calm_transact {c : Call} {f : c.Reply → Except Raised α} (hφ : Lasting i g φ) (hc : c.calm = true)
    (permit : ∀ w, Fenced w → held i w.trace = some g → φ w → Permits i w c) :
    Part i g φ (NodeRecovery.ask c >>= fun r => raising (f r)) fun _ => φ :=
  Part.transact (fun _ => hφ.steady) (calm_grant hc) permit fun w r db' _ _ hP hE h => hφ.calm w c r db' hc hP hE h

theorem assertHeld_part (hφ : Lasting i g φ) (claim : RecoveryLeaseClaim) :
    Part i g φ (assertHeld claim) fun _ => φ := Part.calm_transact hφ rfl fun _ _ _ _ => trivial

theorem event_part (hφ : Lasting i g φ) {kind : String} (hkind : kind ∉ reporting) :
    Part i g φ (event g.claim kind) fun _ => φ := Part.calm_transact hφ rfl fun w _ hheld _ => by
  obtain rfl := (held_mem hheld).2
  exact ⟨⟨g.policy, hheld⟩, fun h => absurd h hkind⟩

theorem report_part (kind : String) : Part i g (Reported g.claim) (event g.claim kind) fun _ _ => True :=
  Part.transact (fun _ => .true) (fun _ => rfl) (fun w _ hheld h => by
    obtain rfl := (held_mem hheld).2
    exact ⟨⟨g.policy, hheld⟩, fun _ => h⟩) fun _ _ _ _ _ _ _ _ => trivial

theorem observe_part (hφ : Lasting i g φ) (policy : RuntimeRecoveryPolicy) :
    Part i g φ (observe policy) fun _ => φ := by
  refine Part.bind (Part.calm hφ rfl fun _ _ _ _ => trivial) fun r => ?_
  rcases r with (_ | _) | o
  · exact Part.pure fun _ h => h
  · exact Part.throw
  · exact Part.pure fun _ h => h

theorem observation_part (hφ : Lasting i g φ) :
    Part i g φ (observe g.policy) fun _ w => φ w ∧ Observed i g w := by
  refine Part.bind (Q := fun _ w => φ w ∧ Observed i g w) (Part.ask (fun _ => hφ.steady.and .observed) (fun _ => rfl)
    (fun _ _ _ _ => trivial) fun w r db' hP hE h =>
      ⟨hφ.calm w _ r db' rfl hP hE h, Since.now ⟨_, _, rfl, rfl⟩⟩) fun r => ?_
  rcases r with (_ | _) | o
  · exact Part.pure fun _ h => h
  · exact Part.throw
  · exact Part.pure fun _ h => h

theorem record_part {n : Nat} (hφ : Lasting i g φ) (hw : ∀ w, φ w → Working g n w) {update : AttemptUpdate}
    (hstate : update.state ≠ .observedHealthy) : Part i g φ (record g.claim update) fun _ => φ := by
  refine Part.calm_transact hφ rfl fun w _ hheld h => ?_
  obtain ⟨hattempted, hunmarked, _⟩ := hw w h
  obtain rfl := (held_mem hheld).2
  exact ⟨⟨g.policy, hheld⟩, hattempted, hstate, hunmarked⟩

theorem fail_part {n : Nat} (hφ : Lasting i g φ) (hw : ∀ w, φ w → Working g n w) (before : RuntimeHealthObservation)
    {state : RecoveryAttemptState} (hstate : state ≠ .observedHealthy) (code : String) {eventKind : String}
    (hkind : eventKind ∉ reporting) (attemptCount : Nat)
    (authorizationRef : Option String) (after : Option RuntimeHealthObservation) :
    Part i g φ (fail g.claim before state code eventKind attemptCount authorizationRef after) fun _ _ => True :=
  Part.bind (record_part hφ hw hstate) fun _ => Part.bind (event_part hφ hkind) fun _ => Part.pure fun _ _ => trivial

/-- An authorized decision comes with its reference, on record since the last invocation. -/
def Decided (i : Nat) (recoveryId : String) (decision : RecoveryAuthorizationDecision) (w : World) : Prop :=
  decision.authorized = true → Authorized i recoveryId (decision.authorizationRef.getD "") w

theorem authorize_part (hφ : Lasting i g φ) (call : RecoveryCall) (context : RecoveryAuthorizationContext) :
    Part i g φ (authorize call context) fun decision w => φ w ∧ Decided i context.recoveryId decision w := by
  unfold authorize
  split
  · refine Part.bind (Q := fun r w => φ w ∧ ∀ decision, r = .ok decision → Decided i context.recoveryId decision w)
      (Part.ask (fun r => hφ.steady.and (.forall fun d => .imp _ (.imp _ (.authorized _ _)))) (fun _ => rfl)
        (fun _ _ _ _ => trivial) fun w r db' hP hE h =>
          ⟨hφ.calm w _ r db' rfl hP hE h, fun decision hr hauthorized => ?_⟩)
      fun r => ?_
    · subst hr
      have hcoherent := decision.coherent
      rw [hauthorized] at hcoherent
      cases href : decision.authorizationRef with
      | none => simp [href] at hcoherent
      | some => exact Since.now ⟨context, decision, rfl, hauthorized, href, rfl⟩
    · cases r with
      | ok decision => exact Part.pure fun w h => ⟨h.1, h.2 decision rfl⟩
      | error => exact Part.throw
  · exact Part.pure fun w h => ⟨h, fun hauthorized => nomatch hauthorized⟩

theorem extend_part (hφ : Lasting i g φ) (message : String)
    (hbeat : ∀ w (taken : Nat) (r : Bool) db', Permits i w (.heartbeat g.claim g.policy.leaseTtl taken) →
      Effect w.state (.heartbeat g.claim g.policy.leaseTtl taken) r db' → φ w →
        φ ⟨db', w.trace ++ [⟨i, .heartbeat g.claim g.policy.leaseTtl taken, r⟩]⟩) :
    Part i g φ (extend g.policy g.claim message) fun _ w => φ w ∧ Extended g w := by
  refine Part.bind (Part.calm hφ rfl fun _ _ _ _ => trivial) fun taken => ?_
  refine Part.bind (Q := fun r w => φ w ∧ (r = true → Extended g w)) (Part.ask
    (fun r => hφ.steady.and (.imp _ .extended)) (fun _ => rfl) (fun w _ hheld _ => ?_)
    fun w r db' hP hE h => ⟨hbeat w taken r db' hP hE h, fun hr => ?_⟩) fun r => ?_
  · obtain rfl := (held_mem hheld).2
    exact ⟨g.policy, hheld⟩
  · subst hr
    exact ⟨taken, latest_snoc_some (by simp [extensionOf])⟩
  · cases r with
    | true => exact Part.pure fun w h => ⟨h.1, h.2 rfl⟩
    | false => exact Part.throw

theorem working_heartbeat {n : Nat} {w : World} {leaseTtl taken : Nat} {r : Bool} {db' : Db}
    (hP : Permits i w (.heartbeat g.claim leaseTtl taken))
    (hE : Effect w.state (.heartbeat g.claim leaseTtl taken) r db')
    (h : Working g n w) : Working g n ⟨db', w.trace ++ [⟨i, .heartbeat g.claim leaseTtl taken, r⟩]⟩ :=
  working_snoc hP hE rfl h

theorem attemptIn_updated {db db' : Db} {claim : RecoveryLeaseClaim} {update : AttemptUpdate} {r : Except Raised Unit}
    {u : Unit} (hE : Effect db (.updateAttempt claim update) r db') (hr : r = .ok u) (h : Attempted claim db) :
    AttemptIn update.state claim db' := by
  obtain ⟨mine, hmine, hminekey, _⟩ := h
  intro _
  subst hr
  cases hE with
  | quiet idle => exact absurd rfl idle
  | unmatched inForce missing =>
    rw [missing] at hmine
    cases hmine
  | updated attempt row inForce found key state =>
    obtain rfl := Option.some.inj (found.symm.trans hmine)
    exact ⟨row, by simp [found], key.trans hminekey, state⟩

theorem attemptIn_readied {db db' : Db} {policy : RuntimeRecoveryPolicy} {claim : RecoveryLeaseClaim}
    {state : RecoveryAttemptState} {r : Except Raised Unit} (hE : Effect db (.markReady policy claim) r db')
    (h : AttemptIn state claim db) : AttemptIn state claim db' := by
  cases hE with
  | _ => exact h

/-- The attempts that remain stay within the budget of the policy. -/
theorem recoveryAttempts_part (call : RecoveryCall) (before : RuntimeHealthObservation)
    (hmargin : call.adapter.maxOperation + seconds 10 ≤ g.policy.leaseTtl) (remaining : Nat) :
    ∀ (n attempt : Nat) (authorization : Option String) (after : Option RuntimeHealthObservation),
      n + remaining ≤ g.policy.maxAttempts →
      Part i g (Working g n) (recoveryAttempts call g.policy g.claim before remaining attempt authorization after)
        fun _ _ => True := by
  induction remaining with
  | zero =>
    intro n attempt authorization after _
    exact fail_part (.working n) (fun _ h => h) before (by decide) _ (by decide) _ _ _
  | succ remaining ih =>
    intro n attempt authorization after hn
    refine Part.bind (authorize_part (.working n) call _) fun decision => ?_
    by_cases hdecision : decision.authorized = false
    · simp only [hdecision, if_true]
      exact Part.pre (fail_part (.working n) (fun _ h => h) before (by decide) _ (by decide) _ _ _) fun _ h => h.1
    simp only [hdecision]
    have hauthorized : decision.authorized = true := by simpa using hdecision
    have hlasting := (Lasting.working n).and
      (@Lasting.authorized i g g.claim.recoveryId (decision.authorizationRef.getD ""))
    have hworking : ∀ w, Working g n w ∧ Authorized i g.claim.recoveryId (decision.authorizationRef.getD "") w →
        Working g n w := fun _ h => h.1
    refine Part.pre (ψ :=
      fun w => Working g n w ∧ Authorized i g.claim.recoveryId (decision.authorizationRef.getD "") w)
      ?_ fun w h => ⟨h.1, h.2 hauthorized⟩
    refine Part.bind (record_part hlasting hworking fun h => nomatch h) fun _ => ?_
    refine Part.bind (event_part hlasting (by decide)) fun _ => Part.bind (event_part hlasting (by decide)) fun _ => ?_
    refine Part.bind (extend_part hlasting _ fun w taken r db' hP hE h => ⟨working_heartbeat hP hE h.1, h.2.snoc ?_⟩)
      fun _ => ?_
    · rintro ⟨_, _, _, h⟩
      cases h
    refine Part.bind (Part.calm (hlasting.and .extended) rfl fun _ _ _ _ => trivial) fun requestedAt => ?_
    -- the invocation itself uses one unit of the budget
    refine Part.bind (Q := fun _ => Working g (n + 1))
      (Part.ask (fun _ => (Lasting.working (n + 1)).steady) (fun _ => rfl)
      (fun w hF hheld h => ?_) fun w r db' hP hE h => ?_) fun r => ?_
    · obtain ⟨⟨⟨_, _, hcount⟩, hsince⟩, hextended⟩ := h
      have hkey : (g.policy.id, g.claim.generation) = g.claim.key := by
        rw [← hF.named g (held_mem hheld).1]
        rfl
      obtain rfl := (held_mem hheld).2
      exact ⟨g.policy, g.claim, hheld, hkey, hmargin, rfl, by omega, hsince, hextended⟩
    · have h := @working_snoc w i g _ r db' n hP hE rfl h.1.1
      refine ⟨h.1, h.2.1, Nat.le_trans h.2.2 ?_⟩
      have := Bool.toNat_le (invokes g.claim.key
        (⟨i, .recover call.adapter (request call g.policy g.claim (decision.authorizationRef.getD "") requestedAt), r⟩ :
          RecoveryEvent))
      omega
    have hagain : ∀ attempt authorization after, Part i g (Working g (n + 1))
        (recoveryAttempts call g.policy g.claim before remaining attempt authorization after) fun _ _ => True :=
      fun attempt authorization after => ih (n + 1) attempt authorization after (by omega)
    have hfail : ∀ code attemptCount authorizationRef, Part i g (Working g (n + 1))
        (fail g.claim before .failed code "runtimeRecoveryFailed" attemptCount authorizationRef) fun _ _ => True :=
      fun code attemptCount authorizationRef => fail_part (.working (n + 1)) (fun _ h => h) before (by decide) code
        (by decide) attemptCount authorizationRef none
    rcases r with (_ | _) | execution
    · show Part i g _ (if remaining = 0 then _ else _) _
      split
      · exact hfail _ _ _
      · exact hagain _ _ _
    · exact Part.throw
    · refine Part.bind (Part.post (extend_part (.working (n + 1)) _
        fun w taken r db' hP hE h => working_heartbeat hP hE h) fun _ w h => h.1) fun _ => ?_
      split
      · exact hfail _ _ _
      split
      · split
        · exact hfail _ _ _
        · exact hagain _ _ _
      refine Part.bind (record_part (.working (n + 1)) (fun _ h => h) fun h => nomatch h) fun _ => ?_
      refine Part.bind (observe_part (.working (n + 1)) _) fun observed => ?_
      refine Part.bind (assertHeld_part (.working (n + 1)) _) fun _ => ?_
      split
      · -- the attempt is ready before the node is
        refine Part.bind (Q := fun _ w => Working g (n + 1) w ∧ AttemptIn .ready g.claim w.state)
          (Part.transact (fun _ => (Lasting.working (n + 1)).steady.and (.attemptIn .ready)) (fun _ => rfl)
            (fun w _ hheld h => ?_) fun w r db' _ hr hP hE h =>
              ⟨(Lasting.working (n + 1)).calm w _ r db' rfl hP hE h, attemptIn_updated hE hr h.1⟩) fun _ => ?_
        · obtain rfl := (held_mem hheld).2
          exact ⟨⟨g.policy, hheld⟩, h.1, (fun h => nomatch h), h.2.1⟩
        · refine Part.bind (Q := fun _ => Reported g.claim) (Part.transact (fun _ => .reported) (fun _ => rfl)
            (fun w _ hheld h => ?_) fun w r db' _ hr _ hE h => Or.inr ⟨attemptIn_readied hE h.2, ?_⟩) fun _ => ?_
          · obtain rfl := (held_mem hheld).2
            exact ⟨hheld, h.2⟩
          · subst hr
            exact ⟨_, List.mem_append_right _ List.mem_cons_self, decide_eq_true rfl⟩
          · exact Part.bind (report_part _) fun _ => Part.pure fun _ _ => trivial
      · exact hagain _ _ _

theorem attemptIn_created {db db' : Db} {policy : RuntimeRecoveryPolicy} {claim : RecoveryLeaseClaim}
    {state : RecoveryAttemptState} {before : RuntimeHealthObservation} {finished : Bool}
    {r : Except Raised Unit} {u : Unit}
    (hE : Effect db (.createAttempt policy claim state before finished) r db') (hr : r = .ok u)
    (hnamed : claim.policyId = policy.id) :
    ∃ a, db'.attempts.get? claim.recoveryId = some a ∧ a.key = claim.key ∧ a.state = state := by
  subst hr
  cases hE with
  | quiet idle => exact absurd rfl idle
  | created row attempts inForce inserted owner fenced started =>
    refine ⟨row, ?_, Prod.ext (owner.trans hnamed.symm) fenced, started⟩
    show attempts.get? claim.recoveryId = some row
    rw [Table.get?_insert inserted, if_pos rfl]

/-- `_recover_claimed`, from the grant on. -/
theorem recoverClaimed_part (call : RecoveryCall) (hnamed : g.claim.policyId = g.policy.id)
    (hmargin : call.adapter.maxOperation + seconds 10 ≤ g.policy.leaseTtl) :
    Part i g (Fresh g) (recoverClaimed call g.policy g.claim) fun _ _ => True := by
  have hlasting := (@Lasting.fresh i g).and (@Lasting.observed i g)
  refine Part.bind (observation_part .fresh) fun before => Part.bind (assertHeld_part hlasting _) fun _ => ?_
  have hpermit : ∀ w state finished, state ≠ .ready → held i w.trace = some g → Fresh g w ∧ Observed i g w →
      Permits i w (.createAttempt g.policy g.claim state before finished) := by
    intro w state finished hstate hheld h
    obtain rfl := (held_mem hheld).2
    exact ⟨hheld, h.1.1, h.2, hstate⟩
  split
  · refine Part.bind (Q := fun _ => Reported g.claim) (Part.transact (fun _ => .reported) (fun _ => rfl)
      (fun w _ hheld h => hpermit w _ _ (by decide) hheld h) fun w r db' _ hr _ hE h =>
        Or.inl fun _ => attemptIn_created hE hr hnamed) fun _ => ?_
    exact Part.bind (report_part _) fun _ => Part.pure fun _ _ => trivial
  · refine Part.bind (Q := fun _ w => Working g 0 w ∧ AttemptIn .degraded g.claim w.state)
      (Part.transact (fun _ => (Lasting.working 0).steady.and (.attemptIn .degraded)) (fun _ => rfl)
        (fun w _ hheld h => hpermit w _ _ (by decide) hheld h) fun w r db' _ hr _ hE h => ?_) fun _ => ?_
    · obtain ⟨a, ha, hkey, hstate⟩ := attemptIn_created hE hr hnamed
      refine ⟨⟨⟨a, ha, hkey, fun h => nomatch hstate.symm.trans h⟩, fun e he => ?_, ?_⟩, fun _ => ⟨a, ha, hkey, hstate⟩⟩
      · rcases List.mem_append.mp he with he | he
        · exact h.1.2.1 e he
        · obtain rfl := List.mem_singleton.mp he
          rfl
      · show invocations g.claim.key (w.trace ++ [_]) ≤ 0
        rw [invocations_snoc]
        exact h.1.2.2
    refine Part.bind (Q := fun _ => Working g 0) (Part.transact (fun _ => (Lasting.working 0).steady) (fun _ => rfl)
      (fun w _ hheld h => ?_) fun w r db' _ _ hP hE h => (Lasting.working 0).calm w _ r db' rfl hP hE h.1) fun _ => ?_
    · obtain rfl := (held_mem hheld).2
      exact ⟨hheld, h.2⟩
    split
    · exact fail_part (.working 0) (fun _ h => h) before (by decide) _ (by decide) _ _ _
    · exact recoveryAttempts_part call before hmargin _ 0 1 none none (by omega)

end

/-! ## Whole calls -/

section

variable {i : Nat} {α : Type} {φ : World → Prop}

/-- The assertion is about what is on record. -/
def Recorded (φ : World → Prop) : Prop := ∀ w db' e, φ w → φ ⟨db', w.trace ++ [e]⟩

theorem Recorded.stable (h : Recorded φ) : Stable Fenced Rules i φ := by
  rintro j w w' _ _ _ ⟨c, env, _, rfl⟩ hφ
  exact h w _ _ hφ

theorem Recorded.true : Recorded fun _ => True := fun _ _ _ _ => trivial

def ReadBy (i : Nat) (policy : RuntimeRecoveryPolicy) (w : World) : Prop :=
  ⟨i, .getPolicy policy.id, .ok policy⟩ ∈ w.trace

theorem ReadBy.lasts {policy : RuntimeRecoveryPolicy} : Recorded (ReadBy i policy) :=
  fun _ _ _ h => List.mem_append_left _ h

theorem free_call {c : Call} (hφ : Recorded φ) (hP : ∀ w, Permits i w c) :
    Outline machine.traced Fenced Rules i φ (NodeRecovery.ask c).run (onOk fun _ => φ) :=
  Outline.ask (fun _ => hφ.stable) fun w env hF h =>
    ⟨effect_fenced hF (hP w) (act_effect w.state env c), ⟨c, env, hP w, rfl⟩, hφ w _ _ h⟩

theorem reading_call (policyId : String) :
    Outline machine.traced Fenced Rules i (fun _ => True) (NodeRecovery.ask (.getPolicy policyId)).run
      (onOk fun (r : Except Raised RuntimeRecoveryPolicy) w => ∀ policy, r = .ok policy → ReadBy i policy w) := by
  refine Outline.ask (fun r j s s' hj hs hs' hg h policy hr => ReadBy.lasts.stable j s s' hj hs hs' hg (h policy hr))
    fun w env hF _ => ⟨effect_fenced hF trivial (act_effect w.state env (.getPolicy policyId)),
      ⟨.getPolicy policyId, env, trivial, rfl⟩, ?_⟩
  intro policy hr
  have hid : policy.id = policyId := (getPolicy_ok hr).1
  subst hid
  refine List.mem_append_right _ (List.mem_singleton.mpr ?_)
  rw [← hr]
  rfl

theorem leaseOwner_free (hφ : Recorded φ) (call : RecoveryCall) :
    Outline machine.traced Fenced Rules i φ (leaseOwner call).run (onOk fun _ => φ) := by
  unfold leaseOwner
  split
  · exact fun _ _ h => h
  · exact Outline.raising_bind (free_call hφ fun _ => trivial) fun _ _ _ h => h

theorem fresh_granted {w : World} {policy : RuntimeRecoveryPolicy} {ownerId recoveryId : String} {now : Nat}
    {claim : RecoveryLeaseClaim} {db' : Db} (hF : Fenced w)
    (hP : Permits i w (.tryAcquire policy ownerId recoveryId now))
    (hE : Effect w.state (.tryAcquire policy ownerId recoveryId now) (.ok (some claim)) db') :
    claim.policyId = policy.id ∧ Owns i ⟨i, policy, claim⟩ (Fresh ⟨i, policy, claim⟩)
      ⟨db', w.trace ++ [⟨i, .tryAcquire policy ownerId recoveryId now, .ok (some claim)⟩]⟩ := by
  obtain ⟨hnamed, hnext, _⟩ := hE.grant rfl
  have hnothing := grant_fresh hF hP hE rfl
  refine ⟨hnamed, @held_snoc_grant w.trace ⟨i, _, _⟩ _ rfl, ?_, fun e he => (hnothing e he).2, ?_⟩
  · intro id a ha hkey
    cases hE with
    | quiet idle => exact idle _ rfl
    | granted =>
      simp only [Table.get?_updateWhere] at ha
      obtain ⟨b, hb, rfl⟩ := Option.map_eq_some_iff.mp ha
      have hbkey : b.key = claim.key := by
        split at hkey
        · exact hkey
        · exact hkey
      obtain ⟨hp, hg⟩ := Prod.mk.inj hbkey
      have hle := hF.attempted id b hb
      rw [hp, hnamed] at hle
      omega
  · refine Nat.le_of_eq (List.countP_eq_zero.mpr fun e he hinv => ?_)
    exact Bool.false_ne_true ((hnothing e he).1.symm.trans hinv)

theorem admissible_margin {call : RecoveryCall} {policy : RuntimeRecoveryPolicy} {u : Unit}
    (h : admissible call policy = .ok u) : call.adapter.maxOperation + seconds 10 ≤ policy.leaseTtl := by
  simp only [admissible, bind_eq_ok, ensure_eq_ok] at h
  obtain ⟨-, -, -, -, -, -, -, hmargin, -⟩ := h
  exact hmargin

theorem recoverIfNeeded_permitted (call : RecoveryCall) :
    Outline machine.traced Fenced Rules i (fun _ => True) (recoverIfNeeded call).run (onOk fun _ _ => True) := by
  refine Outline.raising_bind (reading_call call.policyId) fun read => ?_
  refine Outline.raising_bind (Q := fun policy => ReadBy i policy)
    (Outline.result fun policy w hread _ h => h policy hread)
    fun policy => ?_
  refine Outline.raising_bind (Q :=
    fun _ w => ReadBy i policy w ∧ call.adapter.maxOperation + seconds 10 ≤ policy.leaseTtl)
    (Outline.result fun _ _ h _ hread => ⟨hread, admissible_margin h⟩) fun _ => Outline.of_const fun hmargin => ?_
  refine Outline.raising_bind (free_call ReadBy.lasts fun _ => trivial) fun uuid => ?_
  refine Outline.raising_bind (leaseOwner_free ReadBy.lasts call) fun ownerId => ?_
  refine Outline.raising_bind (free_call ReadBy.lasts fun _ => trivial) fun now => ?_
  have hstable : ∀ claim, Stable Fenced Rules i (Owns i ⟨i, policy, claim⟩ (Fresh ⟨i, policy, claim⟩)) :=
    fun claim => Lasting.fresh.steady.stable
  refine Outline.raising_bind (Q := fun (r : Except Raised (Option RecoveryLeaseClaim)) w => ∀ claim,
    r = .ok (some claim) → claim.policyId = policy.id ∧ Owns i ⟨i, policy, claim⟩ (Fresh ⟨i, policy, claim⟩) w)
    (Outline.ask (fun r j s s' hj hs hs' hg h claim hr =>
      ⟨(h claim hr).1, hstable claim j s s' hj hs hs' hg (h claim hr).2⟩)
      fun w env hF hread => ?_) fun r => ?_
  · have hE := act_effect w.state env (.tryAcquire policy ownerId ("runtime-recovery-" ++ uuid) now)
    have hP : Permits i w (.tryAcquire policy ownerId ("runtime-recovery-" ++ uuid) now) := hread
    refine ⟨effect_fenced hF hP hE, ⟨_, env, hP, rfl⟩, fun claim hr => ?_⟩
    have hr : (act w.state env (.tryAcquire policy ownerId ("runtime-recovery-" ++ uuid) now)).1 = .ok (some claim) :=
      hr
    rw [hr] at hE
    have h := @fresh_granted i w policy ownerId ("runtime-recovery-" ++ uuid) now claim _ hF hP hE
    rw [← hr] at h
    exact h
  refine Outline.raising_bind (Q := fun o w => ∀ claim, o = some claim →
    claim.policyId = policy.id ∧ Owns i ⟨i, policy, claim⟩ (Fresh ⟨i, policy, claim⟩) w)
    (Outline.result fun o w ho _ h claim hclaim => h claim (by rw [ho, hclaim])) fun o => ?_
  cases o with
  | none => exact fun _ _ _ => trivial
  | some claim =>
    refine Outline.weaken (ψ := fun w => Owns i ⟨i, policy, claim⟩ (Fresh ⟨i, policy, claim⟩) w ∧
      claim.policyId = policy.id) (Outline.of_const fun hnamed => ?_) fun w _ h => ⟨(h claim rfl).2, (h claim rfl).1⟩
    refine Outline.raising_bind (Outline.attempt (recoverClaimed_part call hnamed hmargin)) fun outcome => ?_
    refine Outline.weaken (ψ := fun _ => True) ?_ fun _ _ _ => trivial
    refine Outline.raising_bind (free_call .true fun _ => trivial) fun _ => ?_
    exact Outline.result fun _ _ _ _ _ => trivial

/-- **Every caller makes permitted calls only.** -/
theorem serve_permitted (i : Nat) (e : Request) :
    Outline machine.traced Fenced Rules i (fun _ => True) (serve i e) fun _ _ => True := by
  cases e with
  | recover call => exact Outline.bind (recoverIfNeeded_permitted call) fun _ _ _ _ => trivial
  | configure policy by' =>
    exact Outline.bind (free_call (c := .upsertPolicy policy by') .true fun _ => trivial) fun _ _ _ _ => trivial

end

end AgentFabric.NodeRecovery
