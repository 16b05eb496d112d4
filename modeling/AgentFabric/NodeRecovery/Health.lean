import AgentFabric.NodeRecovery.Observations

/-!
# Healthy observations and what degradation took away

Which healthy observations restore the node and the workers that a degradation has taken away.
-/

namespace AgentFabric.NodeRecovery

open AgentFabric.Lib

/-! ## What degradation takes away -/

def Down (db : Db) (node : String) : Prop := ∃ s, db.nodes.get? node = some s ∧ s ≠ .online

def Offline (db : Db) (worker : String) : Prop := ∃ row, db.workers.get? worker = some row ∧ row.state = .offline

/-- The worker is offline, and it was not at some earlier time of the run. -/
def TakenDown (db : Db) (moves : List (Move Nat Request Environment)) (worker : String) : Prop :=
  Offline (recoveryRun db moves).shared.state worker ∧ ∃ before after row, moves = before ++ after ∧
    (recoveryRun db before).shared.state.workers.get? worker = some row ∧ row.state ≠ .offline

/-- A policy whose first observation was healthy, and which restores nothing, finds its node online and its workers
where they were, or there is another policy to be concluded. -/
def LeftToOthers (policies : Table String PolicyRow) (node : String) (w : World) (down : String → Prop)
    (policy : RuntimeRecoveryPolicy) : Prop :=
  (Down w.state node → ∃ q row, OfNode policies node q row ∧ q ≠ policy.id ∧ ¬ Concluded q w) ∧
    ∀ worker ∈ policy.workerIds, down worker →
      ∃ q row, OfNode policies node q row ∧ q ≠ policy.id ∧ worker ∈ row.workerIds ∧ ¬ Concluded q w

/-- A restoration that finds all other policies concluded finds them healthy by start second and id. -/
def SeenConcluded (policies : Table String PolicyRow) (node : String) (w : World)
    (policy : RuntimeRecoveryPolicy) : Prop :=
  Down w.state node → (∀ q row, OfNode policies node q row → q ≠ policy.id → Concluded q w) →
    ∀ q row, OfNode policies node q row → q ≠ policy.id →
      (greatest (attemptsOf w.state q)).any (fun e => e.2.state.healthy) = true

/-- Healthy first observations leave nothing undone, and restorations see the other policies as they are. -/
def Redressed (policies : Table String PolicyRow) (node : String) (db : Db)
    (moves : List (Move Nat Request Environment)) :
    Prop :=
  ∀ before m after, moves = before ++ m :: after →
    (∀ policy ∈ newly healthyPolicy db before m,
      LeftToOthers policies node (recoveryRun db before).shared (TakenDown db before) policy) ∧
    ∀ policy ∈ newly restoredPolicy db before m, SeenConcluded policies node (recoveryRun db before).shared policy

/-- A node whose policies are all concluded is online, and a worker that was taken offline has one that is not. -/
structure Redeemed (policies : Table String PolicyRow) (node : String) (w : World) (down : String → Prop) : Prop where
  online : (∃ q row, OfNode policies node q row) → (∀ q row, OfNode policies node q row → Concluded q w) →
    ¬ Down w.state node
  workers : ∀ worker, down worker → ∃ q row, OfNode policies node q row ∧ worker ∈ row.workerIds ∧ ¬ Concluded q w

/-! ## One call -/

section

variable {policies : Table String PolicyRow} {node : String} {w : World} {db' : Db} {i : Nat} {c : Call} {r : c.Reply}
  {policy : RuntimeRecoveryPolicy} {claim : RecoveryLeaseClaim} {down down' : String → Prop} {worker : String}
  {trace : List RecoveryEvent}

/-- A worker that is down now was so before, or the call has taken it. -/
def Falls (w : World) (db' : Db) (down down' : String → Prop) : Prop :=
  ∀ worker, down' worker → Offline db' worker ∧
    (down worker ∨ ∃ row, w.state.workers.get? worker = some row ∧ row.state ≠ .offline)

theorem Coherent.held (h : Coherent policies node w) (hheld : held i w.trace = some ⟨i, policy, claim⟩) :
    OfNode policies node policy.id policy.toPolicyRow := h.granted _ (held_mem hheld).1

theorem OfNode.listed (hown : OfNode policies node policy.id policy.toPolicyRow) {q : String} {row : PolicyRow}
    (hq : OfNode policies node q row) (hid : q = policy.id) (hlisted : worker ∈ row.workerIds) :
    worker ∈ policy.workerIds := by
  have hrow := hq.1
  rw [hid, hown.1] at hrow
  obtain rfl := Option.some.inj hrow
  exact hlisted

theorem Redeemed.same (h : Redeemed policies node w down) (hfalls : Falls w db' down down')
    (hnodes : db'.nodes = w.state.nodes) (hworkers : db'.workers = w.state.workers)
    (hback : ∀ q, Concluded q ⟨db', trace⟩ → Concluded q w) : Redeemed policies node ⟨db', trace⟩ down' := by
  refine ⟨fun hsome hall => ?_, fun worker hdown => ?_⟩
  · show ¬ ∃ s, db'.nodes.get? node = some s ∧ s ≠ .online
    rw [hnodes]
    exact h.online hsome fun q row hq => hback q (hall q row hq)
  · obtain ⟨⟨now, hnow, hoffline⟩, hdown | ⟨row, hrow, hup⟩⟩ := hfalls worker hdown
    · obtain ⟨q, row, hq, hlisted, hopen⟩ := h.workers worker hdown
      exact ⟨q, row, hq, hlisted, fun hc => hopen (hback q hc)⟩
    · rw [hworkers, hrow] at hnow
      obtain rfl := Option.some.inj hnow
      exact absurd hoffline hup

theorem degraded_unconcluded (hF : Fenced w) (hP : Permits i w (.markDegraded policy claim))
    (hforce : InForce claim w.state) (ha : db'.attempts = w.state.attempts) : ¬ Concluded policy.id ⟨db', trace⟩ := by
  rintro ⟨e, he, hcase⟩
  obtain ⟨hheld, hdegraded⟩ := hP
  obtain ⟨a, hget, hkey, hstate⟩ := hdegraded hforce
  have hlatest : latestAttempt db' policy.id = some (claim.recoveryId, a) := by
    rw [← show claim.policyId = policy.id from hF.named _ (held_mem hheld).1, ← hF.latest hforce hget hkey]
    unfold latestAttempt attemptsOf
    rw [ha]
  rw [hlatest] at he
  obtain rfl := Option.some.inj he
  rw [hstate] at hcase
  rcases hcase with h | ⟨h, _⟩
  · cases h
  · cases h

theorem degraded_worker {db : Db} {row : WorkerRow}
    (hdb : db'.workers = db.workers.updateWhere
      (fun id w => policy.workerIds.contains id && degradable w.state) fun w =>
      { w with state := .offline, resourceState := .unknown })
    (hrow : db.workers.get? worker = some row) (hup : row.state ≠ .offline) (hoffline : Offline db' worker) :
    worker ∈ policy.workerIds := by
  obtain ⟨now, hnow, hoffline⟩ := hoffline
  rw [hdb, Table.get?_updateWhere, hrow, Option.map_some, Option.some.injEq] at hnow
  by_contra hlisted
  have hcontains : policy.workerIds.contains worker = false := by simpa using hlisted
  rw [hcontains, Bool.false_and, if_neg Bool.false_ne_true] at hnow
  rw [hnow] at hup
  exact hup hoffline

theorem readied_worker {db : Db}
    (hdb : db'.workers = db.workers.updateWhere
      (fun id w => policy.workerIds.contains id && restorable w.state) fun w =>
      { w with state := .idle, resourceState := .available })
    (hoffline : Offline db' worker) : Offline db worker ∧ worker ∉ policy.workerIds := by
  obtain ⟨now, hnow, hoffline⟩ := hoffline
  rw [hdb, Table.get?_updateWhere] at hnow
  obtain ⟨row, hrow, hnow⟩ := Option.map_eq_some_iff.mp hnow
  split at hnow
  · subst hnow
    cases hoffline
  · rename_i hkept
    subst hnow
    refine ⟨⟨row, hrow, hoffline⟩, fun hlisted => hkept ?_⟩
    have hcontains : policy.workerIds.contains worker = true := by simpa using hlisted
    rw [hcontains, hoffline]
    rfl

/-- One call of a history keeps its node redeemed. -/
theorem redeemed_step (hF : Fenced w) (hJ : Coherent policies node w) (hP : Permits i w c) (hE : Effect w.state c r db')
    (hfalls : Falls w db' down down') (h : Redeemed policies node w down)
    (hleft : ∀ policy, healthyPolicy ⟨i, c, r⟩ = some policy → LeftToOthers policies node w down policy)
    (hseen : ∀ policy, restoredPolicy ⟨i, c, r⟩ = some policy → SeenConcluded policies node w policy) :
    Redeemed policies node ⟨db', w.trace ++ [⟨i, c, r⟩]⟩ down' := by
  have hback := fun q hc => @concluded_back w db' c r i q hP hE hc hF.named
  have hother : healthyPolicy ⟨i, c, r⟩ = none → restoredPolicy ⟨i, c, r⟩ = none →
      ∀ q, Concluded q ⟨db', w.trace ++ [⟨i, c, r⟩]⟩ → Concluded q w := fun hh hr q hc => by
    rcases hback q hc with hc | ⟨policy, hpolicy, _⟩ | ⟨policy, hpolicy, _⟩
    · exact hc
    · rw [hh] at hpolicy
      cases hpolicy
    · rw [hr] at hpolicy
      cases hpolicy
  cases hE with
  | @degraded policy claim inForce =>
    refine ⟨fun _ hall => absurd (hall policy.id _ (hJ.held hP.1)) (degraded_unconcluded hF hP inForce rfl),
      fun worker hdown => ?_⟩
    obtain ⟨hoffline, hdown | ⟨row, hrow, hup⟩⟩ := hfalls worker hdown
    · obtain ⟨q, row, hq, hlisted, hopen⟩ := h.workers worker hdown
      exact ⟨q, row, hq, hlisted, fun hc => hopen (hother rfl rfl q hc)⟩
    · exact ⟨policy.id, _, hJ.held hP.1, degraded_worker rfl hrow hup hoffline, degraded_unconcluded hF hP inForce rfl⟩
  | @readied policy =>
    have hothers : ∀ q, q ≠ policy.id → Concluded q _ → Concluded q w := fun q hq hc => by
      rcases hback q hc with hc | ⟨policy', hpolicy, _⟩ | ⟨policy', hpolicy, hid⟩
      · exact hc
      · cases hpolicy
      · cases hpolicy
        exact absurd hid.symm hq
    have hown := hJ.held hP.1
    refine ⟨fun hsome hall => ?_, fun worker hdown => ?_⟩
    · rintro ⟨s, hs, hdown⟩
      have hs : (if unhealthyPolicy w.state policy then w.state.nodes
        else w.state.nodes.modify policy.nodeId fun _ => .online).get? node = some s := hs
      cases hpick : unhealthyPolicy w.state policy with
      | true =>
        rw [hpick, if_pos rfl] at hs
        obtain ⟨q, row, ⟨hstored, henabled, hnode, hq⟩, hunhealthy⟩ := unhealthyPolicy_eq_true.mp hpick
        rw [hJ.table] at hstored
        have hseen := hseen policy rfl ⟨s, hs, hdown⟩ (fun q row hof hq => hothers q hq (hall q row hof)) q row
          ⟨hstored, henabled, hnode.trans hown.2.2⟩ hq
        rw [hunhealthy] at hseen
        cases hseen
      | false =>
        rw [hpick, if_neg Bool.false_ne_true, hown.2.2, Table.get?_modify_self] at hs
        obtain ⟨_, _, rfl⟩ := Option.map_eq_some_iff.mp hs
        exact hdown rfl
    · obtain ⟨hoffline, hcase⟩ := hfalls worker hdown
      obtain ⟨⟨row, hrow, hwas⟩, hunlisted⟩ := readied_worker (by exact rfl) hoffline
      rcases hcase with hdown | ⟨row', hrow', hup⟩
      · obtain ⟨q, row, hq, hlisted, hopen⟩ := h.workers worker hdown
        refine ⟨q, row, hq, hlisted, fun hc => hopen (hothers q (fun hid => hunlisted ?_) hc)⟩
        exact hown.listed hq hid hlisted
      · obtain rfl := Option.some.inj (hrow.symm.trans hrow')
        exact absurd hwas hup
  | @created policy claim state before finished row =>
    by_cases hstate : state = .observedHealthy
    · subst hstate
      have hothers : ∀ q, q ≠ policy.id → Concluded q _ → Concluded q w := fun q hq hc => by
        rcases hback q hc with hc | ⟨policy', hpolicy, hid⟩ | ⟨policy', hpolicy, _⟩
        · exact hc
        · cases hpolicy
          exact absurd hid.symm hq
        · cases hpolicy
      obtain ⟨hnode, hworkers⟩ := hleft policy rfl
      refine ⟨fun _ hall hdown => ?_, fun worker hdown => ?_⟩
      · obtain ⟨q, row, hof, hq, hopen⟩ := hnode hdown
        exact hopen (hothers q hq (hall q row hof))
      · obtain ⟨⟨now, hnow, hoffline⟩, hdown | ⟨row, hrow, hup⟩⟩ := hfalls worker hdown
        · obtain ⟨q, row, hof, hlisted, hopen⟩ := h.workers worker hdown
          by_cases hq : q = policy.id
          · obtain ⟨q', row', hof', hq', hlisted', hopen'⟩ :=
              hworkers worker ((hJ.held hP.1).listed hof hq hlisted) hdown
            exact ⟨q', row', hof', hlisted', fun hc => hopen' (hothers q' hq' hc)⟩
          · exact ⟨q, row, hof, hlisted, fun hc => hopen (hothers q hq hc)⟩
        · obtain rfl := Option.some.inj (hrow.symm.trans hnow)
          exact absurd hoffline hup
    · refine h.same hfalls rfl rfl (hother ?_ rfl)
      cases state with
      | observedHealthy => exact absurd rfl hstate
      | _ => rfl
  | quiet idle =>
    have hnothing : healthyPolicy ⟨i, c, r⟩ = none ∧ restoredPolicy ⟨i, c, r⟩ = none := by
      cases c with
      | createAttempt policy claim state =>
        cases r with
        | ok => exact absurd rfl idle
        | error => cases state <;> exact ⟨rfl, rfl⟩
      | markReady =>
        cases r with
        | ok => exact absurd rfl idle
        | error => exact ⟨rfl, rfl⟩
      | _ => exact ⟨rfl, rfl⟩
    exact h.same hfalls rfl rfl (hother hnothing.1 hnothing.2)
  | _ => exact h.same hfalls rfl rfl (hother rfl rfl)

end

/-! ## Whole histories -/

section

variable {db db' : Db} {c : Call} {r : c.Reply} {k : String} {moves before : List (Move Nat Request Environment)}
  {m : Move Nat Request Environment} {policies : Table String PolicyRow} {node : String}
  {nodes : Table String NodeState} {workers : Table String WorkerRow}

theorem Effect.present (h : Effect db c r db') : ((db'.nodes.get? k).isSome = (db.nodes.get? k).isSome) ∧
    ((db'.workers.get? k).isSome = (db.workers.get? k).isSome) := by
  cases h with
  | degraded =>
    refine ⟨?_, by rw [Table.get?_updateWhere, Option.isSome_map]⟩
    simp only [Table.get?_modify, apply_ite Option.isSome, Option.isSome_map, ite_self]
  | @readied policy =>
    refine ⟨?_, by rw [Table.get?_updateWhere, Option.isSome_map]⟩
    cases unhealthyPolicy db policy with
    | true => rfl
    | false =>
      show ((db.nodes.modify policy.nodeId fun _ => .online).get? k).isSome = _
      simp only [Table.get?_modify, apply_ite Option.isSome, Option.isSome_map, ite_self]
  | _ => exact ⟨rfl, rfl⟩

theorem takenDown_falls {i : Nat} {env : Environment}
    (hmove : (recoveryRun db (before ++ [m])).shared = (machine.traced.act i (recoveryRun db before).shared env c).2) :
    Falls (recoveryRun db before).shared (recoveryRun db (before ++ [m])).shared.state (TakenDown db before)
      (TakenDown db (before ++ [m])) := by
  rintro worker ⟨hoffline, pre, post, row, hsplit, hrow, hup⟩
  refine ⟨hoffline, ?_⟩
  obtain ⟨now, hnow, hoff⟩ := hoffline
  have hpresent := @Effect.present _ _ _ _ worker (act_effect (recoveryRun db before).shared.state env c)
  have hstate : (recoveryRun db (before ++ [m])).shared.state = (act (recoveryRun db before).shared.state env c).2 := by
    rw [hmove]
    rfl
  rw [← hstate, hnow] at hpresent
  obtain ⟨last, hlast⟩ := Option.isSome_iff_exists.mp hpresent.2.symm
  by_cases hwas : last.state = .offline
  · refine Or.inl ⟨⟨last, hlast, hwas⟩, ?_⟩
    induction post using List.reverseRecOn with
    | nil =>
      rw [List.append_nil] at hsplit
      rw [hsplit, hrow] at hnow
      obtain rfl := Option.some.inj hnow
      exact absurd hoff hup
    | append_singleton post =>
      rw [← List.append_assoc] at hsplit
      exact ⟨pre, post, row, (List.append_inj' hsplit rfl).1, hrow, hup⟩
  · exact Or.inr ⟨last, hlast, hwas⟩

theorem takenDown_same (hsame : (recoveryRun db (before ++ [m])).shared = (recoveryRun db before).shared)
    {worker : String}
    (h : TakenDown db (before ++ [m]) worker) : TakenDown db before worker := by
  obtain ⟨hoffline, pre, post, row, hsplit, hrow, hup⟩ := h
  rw [hsame] at hoffline
  refine ⟨hoffline, ?_⟩
  induction post using List.reverseRecOn with
  | nil =>
    rw [List.append_nil] at hsplit
    rw [← hsplit, hsame] at hrow
    exact ⟨before, [], row, (List.append_nil _).symm, hrow, hup⟩
  | append_singleton post =>
    rw [← List.append_assoc] at hsplit
    exact ⟨pre, post, row, (List.append_inj' hsplit rfl).1, hrow, hup⟩

theorem redeemed_run (moves : List (Move Nat Request Environment)) (hhistory : History policies node moves)
    (hredress : Redressed policies node (.initial policies nodes workers) moves) :
    Redeemed policies node (recoveryRun (.initial policies nodes workers) moves).shared
      (TakenDown (.initial policies nodes workers) moves) := by
  induction moves using List.reverseRecOn with
  | nil =>
    refine ⟨fun ⟨q, row, hq⟩ hall => ?_, fun worker ⟨⟨now, hnow, hoff⟩, pre, post, row, hsplit, hrow, hup⟩ => ?_⟩
    · obtain ⟨e, he, _⟩ := hall q row hq
      cases he
    · obtain ⟨rfl, rfl⟩ := List.append_eq_nil_iff.mp hsplit.symm
      obtain rfl := Option.some.inj (hnow.symm.trans hrow)
      exact absurd hoff hup
  | append_singleton moves m ih =>
    have hbefore : History policies node moves :=
      fun i request hstart => hhistory i request (List.mem_append_left _ hstart)
    have h := ih hbefore fun before m' after hsplit => hredress before m' (after ++ [m]) (by simp [hsplit])
    rcases recoveryRun_move policies nodes workers moves m with hsame | ⟨i, c, env, hP, hmove⟩
    · rw [hsame]
      exact ⟨h.online, fun worker hdown => h.workers worker (takenDown_same hsame hdown)⟩
    · obtain ⟨hleft, hseen⟩ := hredress moves m [] rfl
      have hfalls := takenDown_falls hmove
      rw [hmove] at hfalls ⊢
      exact redeemed_step (fenced_run policies nodes workers moves) (coherent_run moves hbefore) hP
        (act_effect _ env c) hfalls h (fun policy hp => hleft policy ((newly_move _ _ _ hmove policy).mpr hp))
        fun policy hp => hseen policy ((newly_move _ _ _ hmove policy).mpr hp)

theorem node_present (moves : List (Move Nat Request Environment)) :
    ((recoveryRun (.initial policies nodes workers) moves).shared.state.nodes.get? node).isSome =
      (nodes.get? node).isSome := by
  induction moves using List.reverseRecOn with
  | nil => rfl
  | append_singleton moves m ih =>
    rcases recoveryRun_move policies nodes workers moves m with hsame | ⟨i, c, env, hP, hmove⟩
    · rw [hsame]
      exact ih
    · rw [hmove]
      exact (act_effect _ env c).present.1.trans ih

/-- **A healthy observation restores what degradation took away.** In every history of the enabled policies of a node in
which healthy first observations leave nothing undone and restorations see the other policies as they are, whenever
every policy was last found ready and has reported, the node is online and no worker of its policies is still taken
offline. -/
theorem healthy_observations_restore (moves : List (Move Nat Request Environment))
    (hnode : (nodes.get? node).isSome = true)
    (hhistory : History policies node moves)
    (hredress : Redressed policies node (.initial policies nodes workers) moves)
    (hsome : ∃ q row, OfNode policies node q row)
    (hready : ∀ q row, OfNode policies node q row →
      FoundReady q (recoveryRun (.initial policies nodes workers) moves).shared.trace ∧
        ReportedSince q (recoveryRun (.initial policies nodes workers) moves).shared.trace) :
    (recoveryRun (.initial policies nodes workers) moves).shared.state.nodes.get? node = some .online ∧
      ∀ worker, (∃ q row, OfNode policies node q row ∧ worker ∈ row.workerIds) →
        ¬ TakenDown (.initial policies nodes workers) moves worker := by
  have hJ := @coherent_run policies node nodes workers moves hhistory
  have h := redeemed_run moves hhistory hredress
  have hall : ∀ q row, OfNode policies node q row →
    Concluded q (recoveryRun (.initial policies nodes workers) moves).shared :=
    fun q row hq => (hJ.reported q (hready q row hq).2).1
  refine ⟨?_, fun worker _ hdown => ?_⟩
  · obtain ⟨s, hs⟩ := Option.isSome_iff_exists.mp ((node_present moves).trans hnode)
    by_contra hne
    refine h.online hsome hall ⟨s, hs, fun honline => hne ?_⟩
    rw [hs, honline]
  · obtain ⟨q, row, hq, _, hopen⟩ := h.workers worker hdown
    exact hopen (hall q row hq)

end

section

private def onePolicy : Table String PolicyRow := Table.empty.upsert "policy-a" startPolicy.toPolicyRow

private theorem onePolicy_ofNode {node q : String} {row : PolicyRow} (h : OfNode onePolicy node q row) :
    q = "policy-a" := by
  by_contra hq
  have hrow := h.1
  rw [onePolicy, Table.get?_upsert, if_neg hq] at hrow
  cases hrow

/-- The runtime is down, its start is authorized, and it is ready. -/
private def startedRecovery : List (Move Nat Request Environment) :=
  [startRecovery 0 "policy-a" true] ++ List.replicate 8 (.step 0 (downAt 0)) ++
    List.replicate 17 (.step 0 (startedAt 0))

private theorem startedRecovery_redressed :
    Redressed onePolicy "node-1" (.initial onePolicy oneNode oneWorker) startedRecovery := by
  have hall : ∀ n (h : n < startedRecovery.length),
      newly healthyPolicy (.initial onePolicy oneNode oneWorker) (startedRecovery.take n)
        (startedRecovery.get ⟨n, h⟩) = [] ∧
      ∀ policy ∈ newly restoredPolicy (.initial onePolicy oneNode oneWorker) (startedRecovery.take n)
        (startedRecovery.get ⟨n, h⟩), policy.id = "policy-a" := by
    decide
  intro before m after hsplit
  have hn := hall before.length (by simp [hsplit])
  simp only [hsplit, List.take_left, List.get_eq_getElem, List.getElem_append_right (Nat.le_refl _), Nat.sub_self,
    List.getElem_cons_zero] at hn
  refine ⟨fun policy hp => ?_, fun policy hp _ _ q row hq hother => ?_⟩
  · rw [hn.1] at hp
    cases hp
  · exact absurd ((onePolicy_ofNode hq).trans (hn.2 policy hp).symm) hother

/-- The started runtime brings its node and its worker back. -/
theorem healthy_observations_restore_started :
    (recoveryRun (.initial onePolicy oneNode oneWorker) startedRecovery).shared.state.nodes.get?
      "node-1" = some .online ∧
      ∀ worker, (∃ q row, OfNode onePolicy "node-1" q row ∧ worker ∈ row.workerIds) →
        ¬ TakenDown (.initial onePolicy oneNode oneWorker) startedRecovery worker := by
  refine healthy_observations_restore startedRecovery (by decide) (fun i request h => ?_) startedRecovery_redressed
    ⟨"policy-a", startPolicy.toPolicyRow, by decide, rfl, rfl⟩ fun q row hq => ?_
  · simp only [startedRecovery, startRecovery, List.mem_append, List.mem_singleton, List.mem_replicate,
      Move.start.injEq,
      reduceCtorEq, and_false, or_false] at h
    exact ⟨_, startPolicy.toPolicyRow, h.2, by decide, rfl, rfl⟩
  · obtain rfl := onePolicy_ofNode hq
    exact ⟨by decide, by decide +kernel⟩

/-- The runtime is down and may not be started; later it comes back by itself. -/
private def selfHealed : List (Move Nat Request Environment) :=
  [startRecovery 0 "policy-a" false] ++ List.replicate 11 (.step 0 (downAt 0)) ++ [startRecovery 1 "policy-a" false] ++
    List.replicate 9 (.step 1 (startedAt 1))

/-- The node is still degraded after the healthy observation. -/
theorem self_healed_degraded : ¬ ∀ (policies : Table String PolicyRow) (nodes : Table String NodeState)
    (workers : Table String WorkerRow) (node : String) (moves : List (Move Nat Request Environment)),
    (nodes.get? node).isSome = true → History policies node moves → (∃ q row, OfNode policies node q row) →
    (∀ q row, OfNode policies node q row →
      FoundReady q (recoveryRun (.initial policies nodes workers) moves).shared.trace) →
    (recoveryRun (.initial policies nodes workers) moves).shared.state.nodes.get? node = some .online ∧
      ∀ worker, (∃ q row, OfNode policies node q row ∧ worker ∈ row.workerIds) →
        ¬ TakenDown (.initial policies nodes workers) moves worker := fun h => by
  have honline := (h onePolicy oneNode oneWorker "node-1" selfHealed (by decide) (fun i request h => ?_)
    ⟨"policy-a", startPolicy.toPolicyRow, by decide, rfl, rfl⟩ fun q row hq => ?_).1
  · have hdegraded : (recoveryRun (.initial onePolicy oneNode oneWorker) selfHealed).shared.state.nodes.get? "node-1" =
        some .degraded := by
      decide
    rw [hdegraded] at honline
    cases honline
  · simp only [selfHealed, startRecovery, List.mem_append, List.mem_singleton, List.mem_replicate, Move.start.injEq,
      reduceCtorEq, and_false, or_false] at h
    rcases h with ⟨_, h⟩ | ⟨_, h⟩
    · exact ⟨_, startPolicy.toPolicyRow, h, by decide, rfl, rfl⟩
    · exact ⟨_, startPolicy.toPolicyRow, h, by decide, rfl, rfl⟩
  · obtain rfl := onePolicy_ofNode hq
    decide

end

end AgentFabric.NodeRecovery
