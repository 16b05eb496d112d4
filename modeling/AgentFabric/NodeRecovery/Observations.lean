import AgentFabric.NodeRecovery.Restoration

/-!
# What the observations of a node leave behind

Histories of recoveries of the enabled policies of one node.
-/

namespace AgentFabric.NodeRecovery

open AgentFabric.Lib

/-! ## Histories -/

def OfNode (policies : Table String PolicyRow) (node id : String) (row : PolicyRow) : Prop :=
  policies.get? id = some row ∧ row.enabled = true ∧ row.nodeId = node

/-- Every request is a recovery of an enabled policy of the node. -/
def History (policies : Table String PolicyRow) (node : String) (moves : List (Move Nat Request Environment)) : Prop :=
  ∀ i request, .start i request ∈ moves → ∃ call row, request = .recover call ∧ OfNode policies node call.policyId row

/-- The calls of such requests: no policy is written, and only policies of the node are read. -/
def Call.confined (policies : Table String PolicyRow) (node : String) : Call → Prop
  | .getPolicy policyId => ∃ row, OfNode policies node policyId row
  | .upsertPolicy .. => False
  | _ => True

section

variable {policies : Table String PolicyRow} {node : String}

theorem confined_transact {c : Call} {α : Type} (f : c.Reply → Except Raised α) (h : c.confined policies node) :
    Prog.Obeys (Call.confined policies node) (NodeRecovery.ask c >>= fun r => raising (f r)) :=
  .bind (.ask h) fun _ => .result _

theorem fail_confined (claim : RecoveryLeaseClaim) (before : RuntimeHealthObservation) (state : RecoveryAttemptState)
    (code eventKind : String) (attemptCount : Nat) (authorizationRef : Option String)
    (after : Option RuntimeHealthObservation) : Prog.Obeys (Call.confined policies node)
      (fail claim before state code eventKind attemptCount authorizationRef after) :=
  .bind (confined_transact _ trivial) fun _ => .bind (confined_transact _ trivial) fun _ => .pure _

theorem authorize_confined (call : RecoveryCall) (context : RecoveryAuthorizationContext) :
    Prog.Obeys (Call.confined policies node) (authorize call context) := by
  unfold authorize
  split
  · refine .bind (.ask trivial) fun r => ?_
    split
    · exact .pure _
    · exact .throw _
  · exact .pure _

theorem observe_confined (policy : RuntimeRecoveryPolicy) :
    Prog.Obeys (Call.confined policies node) (observe policy) := by
  refine .bind (.ask trivial) fun r => ?_
  split
  · exact .pure _
  · exact .pure _
  · exact .throw _

theorem extend_confined (policy : RuntimeRecoveryPolicy) (claim : RecoveryLeaseClaim) (message : String) :
    Prog.Obeys (Call.confined policies node) (extend policy claim message) := by
  refine .bind (.ask trivial) fun now => .bind (.ask trivial) fun extended => ?_
  split
  · exact .pure _
  · exact .throw _

theorem recoveryAttempts_confined (call : RecoveryCall) (policy : RuntimeRecoveryPolicy) (claim : RecoveryLeaseClaim)
    (before : RuntimeHealthObservation) (remaining : Nat) : ∀ attempt authorization after,
      Prog.Obeys (Call.confined policies node)
        (recoveryAttempts call policy claim before remaining attempt authorization after) := by
  induction remaining with
  | zero => exact fun _ _ _ => fail_confined ..
  | succ remaining ih =>
    intro attempt authorization after
    refine .bind (authorize_confined ..) fun decision => ?_
    split
    · exact fail_confined ..
    refine .bind (confined_transact _ trivial) fun _ => .bind (confined_transact _ trivial) fun _ => ?_
    refine .bind (confined_transact _ trivial) fun _ => .bind (extend_confined ..) fun _ => ?_
    refine .bind (.ask trivial) fun requestedAt => .bind (.ask trivial) fun r => ?_
    split
    · exact .throw _
    · split
      · exact fail_confined ..
      · exact ih ..
    · refine .bind (extend_confined ..) fun _ => ?_
      split
      · exact fail_confined ..
      split
      · split
        · exact fail_confined ..
        · exact ih ..
      refine .bind (confined_transact _ trivial) fun _ => .bind (observe_confined _) fun observed => ?_
      refine .bind (confined_transact _ trivial) fun _ => ?_
      split
      · refine .bind (confined_transact _ trivial) fun _ => .bind (confined_transact _ trivial) fun _ => ?_
        exact .bind (confined_transact _ trivial) fun _ => .pure _
      · exact ih ..

theorem recoverClaimed_confined (call : RecoveryCall) (policy : RuntimeRecoveryPolicy) (claim : RecoveryLeaseClaim) :
    Prog.Obeys (Call.confined policies node) (recoverClaimed call policy claim) := by
  refine .bind (observe_confined _) fun before => .bind (confined_transact _ trivial) fun _ => ?_
  split
  · exact .bind (confined_transact _ trivial) fun _ => .bind (confined_transact _ trivial) fun _ => .pure _
  · refine .bind (confined_transact _ trivial) fun _ => .bind (confined_transact _ trivial) fun _ => ?_
    split
    · exact fail_confined ..
    · exact recoveryAttempts_confined ..

theorem leaseOwner_confined (call : RecoveryCall) : Prog.Obeys (Call.confined policies node) (leaseOwner call) := by
  unfold leaseOwner
  split
  · exact .pure _
  · exact .bind (.ask trivial) fun _ => .pure _

theorem recoverIfNeeded_confined {call : RecoveryCall} {row : PolicyRow} (h : OfNode policies node call.policyId row) :
    Prog.Obeys (Call.confined policies node) (recoverIfNeeded call) := by
  refine .bind (.ask ⟨row, h⟩) fun read => .bind (.result _) fun policy => .bind (.result _) fun _ => ?_
  refine .bind (.ask trivial) fun uuid => .bind (leaseOwner_confined call) fun ownerId => ?_
  refine .bind (.ask trivial) fun now => .bind (.ask trivial) fun r => .bind (.result _) fun acquired => ?_
  split
  · exact .throw _
  · refine .bind (.attempt (recoverClaimed_confined ..)) fun outcome => .bind (.ask trivial) fun _ => ?_
    exact .result _

theorem history_confined {nodes : Table String NodeState} {workers : Table String WorkerRow}
    {moves : List (Move Nat Request Environment)} (h : History policies node moves) :
    ∀ e ∈ (recoveryRun (.initial policies nodes workers) moves).shared.trace, e.call.confined policies node := by
  refine (Pool.run_calls moves fun i request hstart => ?_).2
  obtain ⟨call, row, rfl, hpolicy⟩ := h i request hstart
  exact Prog.All.bind (recoverIfNeeded_confined hpolicy) fun _ => trivial

end

/-! ## What a trace says about a policy -/

/-- Whether an observation of the policy found its runtime ready. -/
def readiness (policyId : String) : RecoveryEvent → Option Bool
  | ⟨_, .observe policy, r⟩ =>
    if policy.id = policyId then some (match r with | .ok o => o.readyFor policy | .error _ => false) else none
  | _ => none

/-- The last observation of the policy found its runtime ready. -/
def FoundReady (policyId : String) (trace : List RecoveryEvent) : Prop := latest (readiness policyId) trace = some true

instance (policyId : String) (trace : List RecoveryEvent) : Decidable (FoundReady policyId trace) :=
  inferInstanceAs (Decidable (_ = _))

/-- The recovery of a policy reports that its runtime is ready. -/
def reports (policyId : String) : RecoveryEvent → Bool
  | ⟨_, .event claim kind, .ok ()⟩ => decide (claim.policyId = policyId) && reporting.contains kind
  | _ => false

def ReportedSince (policyId : String) (trace : List RecoveryEvent) : Prop :=
  Since (fun e => reports policyId e = true) (fun e => readiness policyId e ≠ none) trace

instance (policyId : String) (trace : List RecoveryEvent) : Decidable (ReportedSince policyId trace) :=
  inferInstanceAs (Decidable (Since _ _ _))

/-- The latest attempt of the policy found its runtime ready, and has done what follows. -/
def Concluded (policyId : String) (w : World) : Prop :=
  ∃ e, latestAttempt w.state policyId = some e ∧ (e.2.state = .observedHealthy ∨
    (e.2.state = .ready ∧ ∃ x ∈ w.trace, marks e.2.key x = true))

/-- The policy whose first observation an event has recorded as healthy. -/
def healthyPolicy : RecoveryEvent → Option RuntimeRecoveryPolicy
  | ⟨_, .createAttempt policy _ .observedHealthy _ _, .ok ()⟩ => some policy
  | _ => none

section

variable {w : World} {db' : Db} {c : Call} {r : c.Reply} {i : Nat} {q : String} {e : String × AttemptRow}

/-! ## The latest attempts after a call -/

variable {db : Db}

theorem attemptsOf_updateWhere {p : String → AttemptRow → Bool} {f : AttemptRow → AttemptRow}
    (hf : ∀ id a, db.attempts.get? id = some a → p id a = true → (f a).policyId = a.policyId)
    (h : db'.attempts = db.attempts.updateWhere p f) (q : String) :
    attemptsOf db' q = (attemptsOf db q).map (Table.rewrite p f) := by
  have hkept : ∀ x ∈ db.attempts.rows, (Table.rewrite p f x).2.policyId = x.2.policyId := fun x hx => by
    unfold Table.rewrite
    by_cases hp : p x.1 x.2 = true
    · rw [if_pos hp]
      exact hf x.1 x.2 (Table.mem_rows.mp hx) hp
    · rw [if_neg hp]
  unfold attemptsOf
  rw [h]
  show (db.attempts.rows.map (Table.rewrite p f)).filter _ = _
  rw [List.filter_map]
  refine congrArg _ (List.filter_congr fun x hx => ?_)
  show decide ((Table.rewrite p f x).2.policyId = q) = _
  rw [hkept x hx]

theorem latestAttempt_updateWhere {p : String → AttemptRow → Bool} {f : AttemptRow → AttemptRow}
    (hf : ∀ id a, db.attempts.get? id = some a → p id a = true → (f a).policyId = a.policyId)
    (h : db'.attempts = db.attempts.updateWhere p f) (q : String) :
    latestAttempt db' q = (latestAttempt db q).map (Table.rewrite p f) := by
  unfold latestAttempt
  rw [attemptsOf_updateWhere hf h, List.getLast?_map]

theorem latestAttempt_reconciled (db : Db) (policyId code : String) (now : Nat)
    (h : db'.attempts = db.attempts.updateWhere (fun _ a => unfinished policyId a) fun a => a.reconciled code now) :
    latestAttempt db' q = (latestAttempt db q).map fun e =>
      (e.1, if unfinished policyId e.2 then e.2.reconciled code now else e.2) :=
  latestAttempt_updateWhere (f := fun a => a.reconciled code now) (fun _ _ _ _ => rfl) h q

theorem latestAttempt_updated (db : Db) (id : String) (row : AttemptRow)
    (hkey : ∀ a, db.attempts.get? id = some a → row.policyId = a.policyId)
    (h : db'.attempts = db.attempts.modify id fun _ => row) :
    latestAttempt db' q = (latestAttempt db q).map fun e => (e.1, if decide (e.1 = id) then row else e.2) := by
  refine latestAttempt_updateWhere (fun id' a ha hid => ?_) h q
  obtain rfl : id' = id := of_decide_eq_true hid
  exact hkey a ha

variable {row attempt : AttemptRow}

theorem latestAttempt_insert {id : String} {attempts : Table String AttemptRow}
    (h : db.attempts.insert? id row = some attempts) (q : String) :
    latestAttempt { db with attempts := attempts } q = if row.policyId = q then some (id, row)
      else latestAttempt db q := by
  unfold latestAttempt attemptsOf
  show (attempts.rows.filter _).getLast? = _
  rw [Table.insert?_rows h, List.filter_append]
  split
  · rename_i hp
    rw [List.filter_cons_of_pos (by simpa using hp), List.filter_nil, List.getLast?_concat]
  · rename_i hp
    rw [List.filter_cons_of_neg (by simpa using hp), List.filter_nil, List.append_nil]

theorem latestAttempt_get (h : latestAttempt db q = some e) :
    db.attempts.get? e.1 = some e.2 ∧ e.2.policyId = q := mem_attemptsOf.mp (List.mem_of_getLast? h)

theorem Concluded.same (h : Concluded q w) (ha : db'.attempts = w.state.attempts) (x : RecoveryEvent) :
    Concluded q ⟨db', w.trace ++ [x]⟩ := by
  obtain ⟨e, he, hcase⟩ := h
  refine ⟨e, ?_, hcase.imp_right fun ⟨hready, y, hy, hmarks⟩ => ⟨hready, y, List.mem_append_left _ hy, hmarks⟩⟩
  unfold latestAttempt attemptsOf at he ⊢
  rw [← he]
  show (List.filter _ db'.attempts.rows).getLast? = _
  rw [ha]

theorem Concluded.earlier {x : RecoveryEvent} (h : Concluded q ⟨db', w.trace ++ [x]⟩)
    (hlatest : ∀ e, latestAttempt db' q = some e → (e.2.state = .observedHealthy ∨ e.2.state = .ready) →
      latestAttempt w.state q = some e ∧ (e.2.state = .ready → marks e.2.key x = false)) : Concluded q w := by
  obtain ⟨e, he, hcase⟩ := h
  obtain ⟨hkept, hunmarked⟩ := hlatest e he (hcase.imp_right And.left)
  refine ⟨e, hkept, hcase.imp_right fun ⟨hready, y, hy, hmarks⟩ => ⟨hready, y, ?_, hmarks⟩⟩
  rcases List.mem_append.mp hy with hy | hy
  · exact hy
  · rw [List.mem_singleton.mp hy, hunmarked hready] at hmarks
    cases hmarks

theorem updated_policy {id : String} (hfound : db.attempts.get? id = some attempt) (hkey : row.key = attempt.key) :
    ∀ a, db.attempts.get? id = some a → row.policyId = a.policyId := fun a ha => by
  obtain rfl := Option.some.inj (hfound.symm.trans ha)
  exact (Prod.mk.inj hkey).1

theorem updated_unconcluded {claim : RecoveryLeaseClaim} {update : AttemptUpdate}
    (hP : Permits i w (.updateAttempt claim update)) (hfound : w.state.attempts.get? claim.recoveryId = some attempt)
    (hstate : attempt.state = .observedHealthy ∨ (attempt.state = .ready ∧ ∃ x ∈ w.trace, marks attempt.key x = true)) :
    False := by
  obtain ⟨_, ⟨mine, hmine, hkey, hunhealthy⟩, _, hunmarked⟩ := hP
  obtain rfl := Option.some.inj (hfound.symm.trans hmine)
  rcases hstate with h | ⟨_, x, hx, hmarks⟩
  · exact hunhealthy h
  · rw [hkey, hunmarked x hx] at hmarks
    cases hmarks

def createdPolicy : RecoveryEvent → Option RuntimeRecoveryPolicy
  | ⟨_, .createAttempt policy _ _ _ _, .ok ()⟩ => some policy
  | _ => none

/-- What was concluded stays so until the next attempt. -/
theorem concluded_step (hP : Permits i w c) (hE : Effect w.state c r db') (h : Concluded q w)
    (hcreate : ∀ policy, createdPolicy ⟨i, c, r⟩ = some policy → policy.id ≠ q) :
    Concluded q ⟨db', w.trace ++ [⟨i, c, r⟩]⟩ := by
  have hlater : ∀ e : String × AttemptRow, latestAttempt db' q = some e → (e.2.state = .observedHealthy ∨
      (e.2.state = .ready ∧ ∃ x ∈ w.trace, marks e.2.key x = true)) → Concluded q ⟨db', w.trace ++ [⟨i, c, r⟩]⟩ :=
    fun e he hcase => ⟨e, he, hcase.imp_right fun ⟨hready, x, hx, hmarks⟩ =>
      ⟨hready, x, List.mem_append_left _ hx, hmarks⟩⟩
  cases hE with
  | @granted policy ownerId recoveryId now claim code =>
    obtain ⟨e, he, hcase⟩ := h
    refine hlater e ?_ hcase
    have hfinished : e.2.finishedAt.isSome = true := by
      rw [e.2.finished]
      rcases hcase with h | ⟨h, _⟩
      · rw [h]
        rfl
      · rw [h]
        rfl
    have hun : unfinished policy.id e.2 = false := by
      unfold unfinished
      rw [← Option.not_isSome, hfinished]
      exact Bool.and_false _
    rw [latestAttempt_reconciled w.state policy.id code now, he, Option.map_some, hun]
    · rfl
    · rfl
  | @created policy claim state before finished row attempts inForce inserted owner =>
    obtain ⟨e, he, hcase⟩ := h
    refine hlater e ?_ hcase
    rw [latestAttempt_insert inserted, owner, if_neg (hcreate policy rfl)]
    exact he
  | @updated claim update attempt row inForce found key =>
    obtain ⟨e, he, hcase⟩ := h
    refine hlater e ?_ hcase
    have hother : e.1 ≠ claim.recoveryId := fun hid => by
      have hget := (latestAttempt_get he).1
      rw [hid] at hget
      exact updated_unconcluded hP hget hcase
    rw [latestAttempt_updated w.state claim.recoveryId row (updated_policy found key), he, Option.map_some,
      decide_eq_false hother]
    · rfl
    · rfl
  | _ => exact h.same rfl _

/-- A policy is concluded by a healthy first observation or by a restoration. -/
theorem concluded_back (hP : Permits i w c) (hE : Effect w.state c r db')
    (h : Concluded q ⟨db', w.trace ++ [⟨i, c, r⟩]⟩) (hnamed : ∀ g ∈ grants w.trace, g.claim.policyId = g.policy.id) :
    Concluded q w ∨ (∃ policy, healthyPolicy ⟨i, c, r⟩ = some policy ∧ policy.id = q) ∨
      ∃ policy, restoredPolicy ⟨i, c, r⟩ = some policy ∧ policy.id = q := by
  cases hE with
  | @granted policy ownerId recoveryId now claim code =>
    refine Or.inl (h.earlier fun e he hstate => ?_)
    rw [latestAttempt_reconciled w.state policy.id code now rfl] at he
    obtain ⟨b, hb, rfl⟩ := Option.map_eq_some_iff.mp he
    by_cases hun : unfinished policy.id b.2 = true
    · rw [if_pos hun] at hstate
      rcases hstate with h | h
      · cases h
      · cases h
    · simp only [if_neg hun]
      exact ⟨hb, fun _ => rfl⟩
  | @created policy claim state before finished row attempts inForce inserted owner fenced started =>
    by_cases hq : policy.id = q
    · by_cases hstate : state = .observedHealthy
      · subst hstate
        exact Or.inr (Or.inl ⟨policy, rfl, hq⟩)
      · obtain ⟨e, he, hcase⟩ := h
        rw [latestAttempt_insert inserted, owner, if_pos hq] at he
        obtain rfl := Option.some.inj he
        rcases hcase with h | ⟨h, _⟩
        · exact absurd (started.symm.trans h) hstate
        · exact absurd (started.symm.trans h) hP.2.2.2
    · refine Or.inl (h.earlier fun e he _ => ?_)
      rw [latestAttempt_insert inserted, owner, if_neg hq] at he
      exact ⟨he, fun _ => rfl⟩
  | @updated claim update attempt row inForce found key state =>
    refine Or.inl ?_
    obtain ⟨_, ⟨mine, hmine, hkey, _⟩, hunhealthy, hunmarked⟩ := hP
    obtain rfl := Option.some.inj (found.symm.trans hmine)
    obtain ⟨e, he, hcase⟩ := h
    rw [latestAttempt_updated w.state claim.recoveryId row (updated_policy found key) rfl] at he
    obtain ⟨b, hb, rfl⟩ := Option.map_eq_some_iff.mp he
    by_cases hid : b.1 = claim.recoveryId
    · simp only [hid, decide_true, if_true] at hcase
      rcases hcase with h | ⟨_, x, hx, hmarks⟩
      · exact absurd (state.symm.trans h) hunhealthy
      · rw [key, hkey] at hmarks
        rcases List.mem_append.mp hx with hx | hx
        · rw [hunmarked x hx] at hmarks
          cases hmarks
        · rw [List.mem_singleton.mp hx] at hmarks
          cases hmarks
    · simp only [hid, decide_false] at hcase
      refine ⟨b, hb, hcase.imp_right fun ⟨hready, x, hx, hmarks⟩ => ⟨hready, x, ?_, hmarks⟩⟩
      rcases List.mem_append.mp hx with hx | hx
      · exact hx
      · rw [List.mem_singleton.mp hx] at hmarks
        cases hmarks
  | @readied policy =>
    by_cases hq : policy.id = q
    · exact Or.inr (Or.inr ⟨policy, rfl, hq⟩)
    · refine Or.inl (h.earlier fun e he _ => ⟨he, fun _ => decide_eq_false fun hkey => hq ?_⟩)
      have hpolicy := hnamed _ (held_mem hP.1).1
      exact hpolicy.symm.trans ((Prod.mk.inj hkey).1.trans (latestAttempt_get he).2)
  | quiet idle =>
    refine Or.inl (h.earlier fun e he _ => ⟨he, fun _ => ?_⟩)
    cases c with
    | markReady =>
      cases r with
      | ok => exact absurd rfl idle
      | error => rfl
    | _ => rfl
  | _ => exact Or.inl (h.earlier fun e he _ => ⟨he, fun _ => rfl⟩)

end

/-! ## Coherent histories -/

def Stored (policies : Table String PolicyRow) (node : String) (policy : RuntimeRecoveryPolicy) : Prop :=
  OfNode policies node policy.id policy.toPolicyRow

/-- The grant has an attempt, or its holder has not observed the policy since. -/
def Answered (p : String) (w : World) (g : Grant) : Prop :=
  (∃ id a, w.state.attempts.get? id = some a ∧ a.key = g.claim.key) ∨
    ¬ Since (observedBy g.thread p) (grantedTo g.thread) w.trace

/-- Policies are used as they are stored, and a policy that reported and was not observed since is concluded. -/
structure Coherent (policies : Table String PolicyRow) (node : String) (w : World) : Prop where
  table : w.state.policies = policies
  read : ∀ j id policy, ⟨j, .getPolicy id, .ok policy⟩ ∈ w.trace → Stored policies node policy
  granted : ∀ g ∈ grants w.trace, Stored policies node g.policy
  reported : ∀ p, ReportedSince p w.trace → Concluded p w ∧
    ∀ g ∈ grants w.trace, g.claim.policyId = p → InForce g.claim w.state → Answered p w g

section

variable {policies : Table String PolicyRow} {node p : String} {w : World} {db' : Db} {c : Call} {r : c.Reply} {i : Nat}
  {g : Grant}

theorem grant_acquires {policy : RuntimeRecoveryPolicy} {claim : RecoveryLeaseClaim}
    (h : c.grant r = some (policy, claim)) :
    ∃ ownerId recoveryId now, c = .tryAcquire policy ownerId recoveryId now := by
  cases c with
  | tryAcquire policy' ownerId recoveryId now =>
    have hpolicy : policy' = policy := by
      unfold Call.grant at h
      split at h
      · rename_i hcall
        exact (Call.tryAcquire.inj hcall).1.trans (Prod.mk.inj (Option.some.inj h)).1
      · cases h
    exact ⟨ownerId, recoveryId, now, by rw [hpolicy]⟩
  | _ => cases h

theorem Answered.step (hP : Permits i w c) (hE : Effect w.state c r db') (h : Answered p w g)
    (hread : readiness p ⟨i, c, r⟩ = none) : Answered p ⟨db', w.trace ++ [⟨i, c, r⟩]⟩ g := by
  rcases h with ⟨id, a, ha, hkey⟩ | hnone
  · obtain ⟨a', ha', hkey', _⟩ := effect_keys hP hE ha
    exact Or.inl ⟨id, a', ha', hkey'.trans hkey⟩
  · refine Or.inr fun hsince => ?_
    rcases hsince.of_snoc with ⟨policy, r', heq, hpolicy⟩ | ⟨hsince, _⟩
    · cases heq
      simp [readiness, hpolicy] at hread
    · exact hnone hsince

theorem report_concluded {claim : RecoveryLeaseClaim} (hF : Fenced w) (hforce : InForce claim w.state)
    (h : Reported claim w) (hp : claim.policyId = p) :
    Concluded p w ∧ ∀ g : Grant, g.claim.policyId = p → InForce g.claim w.state → Answered p w g := by
  have hanswered : ∀ a, w.state.attempts.get? claim.recoveryId = some a → a.key = claim.key →
      ∀ g : Grant, g.claim.policyId = p → InForce g.claim w.state → Answered p w g := fun a ha hkey g hg hgforce => by
    have hgen : g.claim.generation = claim.generation := by
      rw [← hgforce, ← hforce, hg, hp]
    exact Or.inl ⟨_, a, ha, hkey.trans (Prod.ext (hp.trans hg.symm) hgen.symm)⟩
  rcases h with hhealthy | ⟨hready, x, hx, hmarks⟩
  · obtain ⟨a, ha, hkey, hstate⟩ := hhealthy hforce
    exact ⟨⟨_, hp ▸ hF.latest hforce ha hkey, Or.inl hstate⟩, hanswered a ha hkey⟩
  · obtain ⟨a, ha, hkey, hstate⟩ := hready hforce
    refine ⟨⟨_, hp ▸ hF.latest hforce ha hkey, Or.inr ⟨hstate, x, hx, ?_⟩⟩, hanswered a ha hkey⟩
    exact (congrArg (fun k => marks k x) hkey).trans hmarks

theorem reported_uncreated (hF : Fenced w) (hP : Permits i w c) (hE : Effect w.state c r db')
    (hanswered : ∀ g ∈ grants w.trace, g.claim.policyId = p → InForce g.claim w.state → Answered p w g)
    {policy : RuntimeRecoveryPolicy} (hcreated : createdPolicy ⟨i, c, r⟩ = some policy) : policy.id ≠ p := by
  rintro rfl
  cases hE with
  | @created policy' claim state before finished row attempts inForce =>
    cases hcreated
    obtain ⟨hheld, hunattempted, hobserved, _⟩ := hP
    rcases hanswered _ (held_mem hheld).1 (hF.named _ (held_mem hheld).1) inForce with ⟨id, a, ha, hkey⟩ | hnone
    · exact hunattempted id a ha hkey
    · exact hnone hobserved
  | quiet idle =>
    cases c with
    | createAttempt =>
      cases r with
      | ok => exact idle rfl
      | error => cases hcreated
    | _ => cases hcreated
  | _ => cases hcreated

/-- What was reported stays concluded until the next observation. -/
theorem coherent_reported (hF : Fenced w) (hJ : Coherent policies node w) (hP : Permits i w c)
    (hE : Effect w.state c r db') (hreport : ReportedSince p w.trace) (hread : readiness p ⟨i, c, r⟩ = none) :
    Concluded p ⟨db', w.trace ++ [⟨i, c, r⟩]⟩ ∧ ∀ g ∈ grants (w.trace ++ [⟨i, c, r⟩]), g.claim.policyId = p →
      InForce g.claim db' → Answered p ⟨db', w.trace ++ [⟨i, c, r⟩]⟩ g := by
  obtain ⟨hconcluded, hanswered⟩ := hJ.reported p hreport
  refine ⟨concluded_step hP hE hconcluded fun policy hcreated => reported_uncreated hF hP hE hanswered hcreated, ?_⟩
  cases hgrant : c.grant r with
  | none =>
    rw [grants_snoc_none (by simp [grantOf, hgrant])]
    intro g hg hp hforce
    unfold InForce at hforce
    rw [hE.ungranted hgrant] at hforce
    exact (hanswered g hg hp hforce).step hP hE hread
  | some granted =>
    obtain ⟨policy, claim⟩ := granted
    obtain ⟨hnamed, hnext, hgen⟩ := hE.grant hgrant
    intro g hg hp hforce
    rw [grants_snoc] at hg
    rcases List.mem_append.mp hg with hg | hg
    · unfold InForce at hforce
      rw [hgen] at hforce
      split at hforce
      · rename_i hsame
        have hle := hF.bounded g hg
        rw [hsame] at hle
        omega
      · exact (hanswered g hg hp hforce).step hP hE hread
    · obtain rfl : g = ⟨i, policy, claim⟩ := by simpa [grantOf, hgrant] using hg
      refine Or.inr fun hsince => ?_
      rcases hsince.of_snoc with ⟨policy', r', heq, _⟩ | ⟨_, hungranted⟩
      · cases heq
        cases hgrant
      · exact hungranted ⟨rfl, by simp [grantOf, hgrant]⟩

/-- A call of a history keeps it coherent. -/
theorem coherent_step (hF : Fenced w) (hJ : Coherent policies node w) (hP : Permits i w c)
    (hc : c.confined policies node) (env : Environment) : Coherent policies node (machine.traced.act i w env c).2 := by
  have hE := act_effect w.state env c
  show Coherent policies node ⟨(act w.state env c).2, w.trace ++ [⟨i, c, (act w.state env c).1⟩]⟩
  refine ⟨?_, fun j id policy he => ?_, fun g hg => ?_, fun p hreport => ?_⟩
  · refine (hE.policies ?_).trans hJ.table
    cases c with
    | upsertPolicy => exact hc.elim
    | _ => rfl
  · rcases List.mem_append.mp he with he | he
    · exact hJ.read j id policy he
    · obtain ⟨rfl, rfl, hr⟩ := Event.mk.inj (List.mem_singleton.mp he)
      have hr : Except.ok policy = getPolicy w.state id := eq_of_heq hr
      obtain ⟨rfl, hrow⟩ := getPolicy_ok hr.symm
      obtain ⟨row, hof⟩ := hc
      rw [hJ.table, hof.1] at hrow
      obtain rfl := Option.some.inj hrow
      exact hof
  · rw [grants_snoc] at hg
    rcases List.mem_append.mp hg with hg | hg
    · exact hJ.granted g hg
    · cases hgrant : c.grant (act w.state env c).1 with
      | none => simp [grantOf, hgrant] at hg
      | some granted =>
        obtain ⟨policy, claim⟩ := granted
        obtain rfl : g = ⟨i, policy, claim⟩ := by simpa [grantOf, hgrant] using hg
        obtain ⟨ownerId, recoveryId, now, rfl⟩ := grant_acquires hgrant
        exact hJ.read i policy.id policy hP
  · rcases Since.of_snoc hreport with hreports | ⟨hreport, hread⟩
    · cases c with
      | event claim =>
        simp only [reports] at hreports
        split at hreports
        · rename_i heq
          obtain ⟨rfl, hcall, hr⟩ := Event.mk.inj heq
          cases hcall
          obtain ⟨hp, hkind⟩ := Bool.and_eq_true_iff.mp hreports
          have hforce : InForce claim w.state := assertOwned_ok (eq_of_heq hr)
          obtain ⟨hconcluded, hanswered⟩ :=
            report_concluded hF hforce (hP.2 (List.contains_iff_mem.mp hkind)) (of_decide_eq_true hp)
          refine ⟨hconcluded.same rfl _, fun g _ hp hforce => (hanswered g hp hforce).step hP hE rfl⟩
        · cases hreports
      | _ => cases hreports
    · exact coherent_reported hF hJ hP hE hreport (by simpa using hread)

theorem coherent_run {nodes : Table String NodeState} {workers : Table String WorkerRow}
    (moves : List (Move Nat Request Environment)) (h : History policies node moves) :
    Coherent policies node (recoveryRun (.initial policies nodes workers) moves).shared := by
  induction moves using List.reverseRecOn with
  | nil =>
    refine ⟨rfl, nofun, nofun, fun p hreport => ?_⟩
    obtain ⟨pre, e, post, hsplit, _⟩ := hreport
    exact absurd (congrArg List.length hsplit) (by simp [recoveryRun, Pool.run, Pool.quiet])
  | append_singleton moves m ih =>
    have hJ := ih fun i request hstart => h i request (List.mem_append_left _ hstart)
    rcases recoveryRun_move policies nodes workers moves m with hsame | ⟨i, c, env, hP, hmove⟩
    · rw [hsame]
      exact hJ
    · have hconfined := @history_confined policies node nodes workers _ h
      rw [hmove] at hconfined ⊢
      have hconfined := hconfined _ (List.mem_append_right _ List.mem_cons_self)
      exact coherent_step (fenced_run policies nodes workers moves) hJ hP hconfined env

end

end AgentFabric.NodeRecovery
