import AgentFabric.Runtime.Histories
import AgentFabric.Runtime.Requests

/-!
# Jobs that the provider does not know

A recovery that is told that a job does not exist makes the attempt retryable, unless it has found other jobs of the
task before.  It looks at the jobs that are still open, not at the runs of the attempt.
-/

namespace AgentFabric.Runtime

open AgentFabric.Lib AgentFabric.Store

/-- The run belongs to the latest attempt of the task. -/
def Latest (db : Db) (t : String) (run : RunRow) : Prop :=
  run.taskId = t ∧ ∀ id' run', db.runs.get? id' = some run' → run'.taskId = t → run'.attempt ≤ run.attempt

/-- The latest attempt of the task has no two runs. -/
def Lone (db : Db) (t : String) : Prop :=
  ∀ id id' run run', db.runs.get? id = some run → db.runs.get? id' = some run' → Latest db t run → Latest db t run' →
    id = id'

instance (db : Db) (t : String) (run : RunRow) : Decidable (Latest db t run) :=
  decidable_of_iff (run.taskId = t ∧ ∀ e ∈ db.runs.rows, e.2.taskId = t → e.2.attempt ≤ run.attempt)
    (and_congr_right fun _ => ⟨fun h id' run' hrun' => h (id', run') (Table.mem_rows.mpr hrun'),
      fun h e he => h e.1 e.2 (Table.mem_rows.mp he)⟩)

instance (db : Db) (t : String) : Decidable (Lone db t) :=
  decidable_of_iff (∀ e ∈ db.runs.rows, ∀ e' ∈ db.runs.rows, Latest db t e.2 → Latest db t e'.2 → e.1 = e'.1)
    ⟨fun h id id' run run' hrun hrun' => h (id, run) (Table.mem_rows.mpr hrun) (id', run') (Table.mem_rows.mpr hrun'),
      fun h e he e' he' => h e.1 e'.1 e.2 e'.2 (Table.mem_rows.mp he) (Table.mem_rows.mp he')⟩

/-- The run whose job a call interrupts because its provider does not know it. -/
def interruptedJob : RuntimeEvent → Option String
  | ⟨_, .store (.interruptMissingProviderJob runId _ _), _⟩ => some runId
  | _ => none

def interruptions (trace : List RuntimeEvent) : List String := trace.filterMap interruptedJob

/-- The other clients leave the runs of attempts to the runtimes. -/
def recoveryOp : StoreOp → Bool
  | .createWorkerRun .. | .interruptMissingProviderJob .. => false
  | .claimTaskDispatch args => args.leaseOwnerId.isSome
  | _ => true

/-- A schedule of runtimes and clients from an empty database. -/
def recoveryRun (dg : Digests) (moves : List (Move Nat Request Environment)) : Pool Nat History Call Call.Reply :=
  (Pool.quiet ⟨World.initial, []⟩).run (machine dg).traced (serve recoveryOp) moves

/-- The interruption of a missing job under a generation. -/
def Call.interrupts (runId : String) (gen : Nat) (c : Call) : Prop :=
  ∃ owner clock, c = .store (.interruptMissingProviderJob runId ⟨owner, gen⟩ clock)

/-- The program may go on to interrupt a job that is no other task's: it has found a single open job of the task. -/
def MayInterrupt (db : Db) (t : String) (gen : Nat) (p : Prog Call Call.Reply Unit) : Prop :=
  ∃ runId, (∀ job, db.jobs.get? runId = some job → job.taskId = t) ∧
    p.Reaches (fun _ _ => True) (Call.interrupts runId gen)

/-- The task has a lone attempt whenever a recovery that may interrupt one of its jobs is granted its lease. -/
def LoneClaims (dg : Digests) (moves : List (Move Nat Request Environment)) : Prop :=
  ∀ before m after, moves = before ++ m :: after → ∀ i t owner ttl allowCancelled now gen p,
    (recoveryRun dg (before ++ [m])).shared.trace = (recoveryRun dg before).shared.trace ++
      [⟨i, .store (.claimTaskReconciliation t owner ttl allowCancelled now), .ok (some gen)⟩] →
    (recoveryRun dg (before ++ [m])).thread i = some p →
    MayInterrupt (recoveryRun dg (before ++ [m])).shared.state.db t gen p →
    Lone (recoveryRun dg (before ++ [m])).shared.state.db t

/-! ## What a generation bounds -/

/-- The generation was granted, and as long as it is the latest the attempt is lone. -/
def Bounded (t : String) (gen : Nat) (w : History) : Prop :=
  ∃ lease, w.state.db.leases.get? t = some lease ∧ gen ≤ lease.generation ∧
    (lease.generation = gen → Lone w.state.db t)

/-- The calls that add runs only under a new generation. -/
def Call.attempting : Call → Prop
  | .store (.createWorkerRun ..) => False
  | .store (.claimTaskDispatch args) => args.leaseOwnerId.isSome = true
  | _ => True

section

variable {dg : Digests} {db db' : Db} {t : String}

theorem Lone.mono (h : Lone db t) (hold : ∀ id a, db.runs.get? id = some a → ∃ b, db'.runs.get? id = some b ∧
      b.taskId = a.taskId ∧ b.attempt = a.attempt)
    (hnew : ∀ id b, db'.runs.get? id = some b → b.taskId = t → ∃ a, db.runs.get? id = some a ∧
      b.taskId = a.taskId ∧ b.attempt = a.attempt) : Lone db' t := by
  have hlatest : ∀ {id a b}, db.runs.get? id = some a → b.taskId = a.taskId → b.attempt = a.attempt →
      Latest db' t b → Latest db t a := by
    intro id a b ha htask hattempt hb
    refine ⟨htask.symm.trans hb.1, fun id' run' hrun' ht => ?_⟩
    obtain ⟨b', hb', htask', hattempt'⟩ := hold id' run' hrun'
    have hle := hb.2 id' b' hb' (htask'.trans ht)
    omega
  intro id id' run run' hrun hrun' hl hl'
  obtain ⟨a, ha, htask, hattempt⟩ := hnew id run hrun hl.1
  obtain ⟨a', ha', htask', hattempt'⟩ := hnew id' run' hrun' hl'.1
  exact h id id' a a' ha ha' (hlatest ha htask hattempt hl) (hlatest ha' htask' hattempt' hl')

/-- A committed operation adds runs of a task only under a new generation of its lease. -/
theorem exec_lone {op : StoreOp} {r : op.Reply} (h : exec dg op db = .ok (r, db')) (hop : (Call.store op).attempting)
    {lease lease' : LeaseRow} (hl : db.leases.get? t = some lease) (hl' : db'.leases.get? t = some lease')
    (hgen : lease'.generation = lease.generation) (hlone : Lone db t) : Lone db' t := by
  refine hlone.mono (fun id a ha => ?_) fun id b hb ht => ?_
  · obtain ⟨b, hb, hu⟩ := exec_runs_some h ha
    exact ⟨b, hb, hu.ident.1, hu.ident.2.2.1⟩
  · cases ha : db.runs.get? id with
    | some a =>
      obtain ⟨b', hb', hu⟩ := exec_runs_some h ha
      obtain rfl := Option.some.inj (hb.symm.trans hb')
      exact ⟨a, rfl, hu.ident.1, hu.ident.2.2.1⟩
    | none =>
      exfalso
      rcases exec_runs_none h ha hb with ⟨args, task, rfl, _, _, hmem⟩ | ⟨_, _, _, _, _, _, _, rfl, _⟩
      · -- the claim grants the lease of the task whose runs it adds
        obtain ⟨w, _, hw⟩ := List.mem_map.mp hmem
        obtain ⟨_, rfl⟩ := Prod.mk.inj hw
        obtain rfl : args.taskId = t := ht
        obtain ⟨owner, howner⟩ := Option.isSome_iff_exists.mp hop
        rcases claimTaskDispatch_ok h with ⟨_, rfl⟩ | ⟨_, _, _, _, _, _, _, _, _, _, _, rfl⟩
        · cases ha.symm.trans hb
        · simp only [claimLease, howner, grantLease, Table.get?_upsert, if_true] at hl'
          have hnext := nextGeneration_of_some hl
          rw [← Option.some.inj hl'] at hgen
          simp only at hgen
          omega
      · exact hop

variable {gen : Nat} {w : History} {i : Nat} {env : Environment} {c : Call}

/-- A call of an attempt keeps the bound. -/
theorem bounded_step (h : Bounded t gen w) (hc : c.attempting) : Bounded t gen (extended dg w i env c) := by
  obtain ⟨lease, hl, hle, hlone⟩ := h
  rcases act_db dg w.state env c with hdb | ⟨op, clock, uuid, r, rfl, hexec⟩
  · refine ⟨lease, ?_, hle, fun hg => ?_⟩
    · rw [extended_state, hdb]; exact hl
    · rw [extended_state, hdb]; exact hlone hg
  · have hop : (Call.store (stamp clock uuid op)).attempting := by cases op <;> exact hc
    obtain ⟨lease', hl', hgrown | ⟨hsame, _⟩⟩ := exec_leases_some hexec hl
    · exact ⟨lease', hl', by omega, fun hg => by omega⟩
    · exact ⟨lease', hl', by omega, fun hg => exec_lone hexec hop hl hl' hsame (hlone (by omega))⟩

theorem serve_attempting (i : Nat) (request : Request) : (serve recoveryOp i request).All Call.attempting := by
  refine .bind (handle_obeys (fun c hc => ?_) (fun c hc => ?_) (fun _ _ => trivial) (fun _ _ _ => trivial)
    (fun op hop => ?_) request)
    fun _ => trivial
  · cases c with
    | store op => cases op <;> first | exact hc | trivial
    | _ => trivial
  · cases c with
    | store op => cases op <;> trivial
    | _ => trivial
  · cases op <;> first | exact hop | trivial

theorem recoveryRun_snoc (dg : Digests) (moves : List (Move Nat Request Environment))
    (m : Move Nat Request Environment) : (recoveryRun dg (moves ++ [m])).shared = (recoveryRun dg moves).shared ∨
      ∃ i env c next, (recoveryRun dg moves).thread i = some (.call c next) ∧
        (recoveryRun dg (moves ++ [m])).shared = extended dg (recoveryRun dg moves).shared i env c :=
  served_snoc dg recoveryOp moves m

theorem recoveryRun_bounded (moves : List (Move Nat Request Environment)) (m : Move Nat Request Environment)
    (h : Bounded t gen (recoveryRun dg moves).shared) : Bounded t gen (recoveryRun dg (moves ++ [m])).shared := by
  rcases recoveryRun_snoc dg moves m with hs | ⟨i, env, c, next, hthread, hs⟩
  · rw [hs]; exact h
  · rw [hs]
    exact bounded_step h (Pool.thread_all serve_attempting moves hthread).1

theorem recoveryRun_jobs {runId : String} (before after : List (Move Nat Request Environment)) {job : JobRow}
    (h : (recoveryRun dg before).shared.state.db.jobs.get? runId = some job) :
    ∃ job', (recoveryRun dg (before ++ after)).shared.state.db.jobs.get? runId = some job' ∧
      job'.taskId = job.taskId := by
  induction after using List.reverseRecOn with
  | nil => exact ⟨job, by rw [List.append_nil]; exact h, rfl⟩
  | append_singleton after m ih =>
    obtain ⟨job', hjob', htask⟩ := ih
    rw [← List.append_assoc]
    rcases recoveryRun_snoc dg (before ++ after) m with hs | ⟨i, env, c, next, _, hs⟩
    · rw [hs]; exact ⟨job', hjob', htask⟩
    · rw [hs]
      obtain ⟨job'', hjob'', htask', _⟩ := (act_kept dg _ env c).jobs runId job' hjob'
      exact ⟨job'', hjob'', htask'.trans htask⟩

end

/-! ## Interruptions follow a grant -/

/-- The replies that grant the generation of the task to nobody, and list the job under its task. -/
def Unclaimed (runId t : String) (gen : Nat) : (c : Call) → c.Reply → Prop
  | .store (.claimTaskReconciliation taskId _ _ _ _), r => taskId = t → r ≠ .ok (some gen)
  | .reconcilableJobs, r => ∀ j ∈ r, j.runId = runId → j.job.taskId = t
  | _, _ => True

section

variable {dg : Digests} (s : Supervisor) {runId t : String} {gen : Nat}

theorem innocent_ordinary (c : Call) (h : c.ordinary = true) : ¬ c.interrupts runId gen := by
  rintro ⟨owner, clock, rfl⟩
  cases h

theorem innocent_audit (key : String) (audit : AuditRow) : ¬ (Call.recordAudit key audit).interrupts runId gen := by
  rintro ⟨owner, clock, h⟩
  cases h

theorem innocent_made (c : Call) (h : c.made = true) : ¬ c.interrupts runId gen := by
  rintro ⟨owner, clock, rfl⟩
  cases h

theorem recoverProviderJobs_unclaimed (taskId : String) {jobs : List RecoveredJob}
    (hjobs : ∀ j ∈ jobs, j.runId = runId → taskId = t) :
    Prog.Spares (Unclaimed runId t gen) (Call.interrupts runId gen) (fun _ => True)
      (recoverProviderJobs s taskId jobs) := by
  refine .bind (.ask (innocent_ordinary _ rfl)) fun active _ => ?_
  split
  · exact .pure trivial
  refine .bind (Q := fun claimed => taskId = t → claimed ≠ some gen) (.bind (.ask (innocent_ordinary _ rfl))
    fun r hr => .result fun a ha htask e => ?_) fun claimed hclaimed => ?_
  · cases r with
    | error => cases ha
    | ok =>
      obtain rfl := Except.ok.inj ha
      exact hr htask (by rw [e])
  split
  · exact .pure trivial
  rename_i generation
  refine .of_obeys (recoverClaimed_obeys innocent_ordinary innocent_made innocent_audit s taskId
    (fun j hj => ?_) _)
  rintro ⟨owner, clock, e⟩
  cases e
  exact hclaimed (hjobs j hj rfl) rfl

theorem jobsByTask_task {jobs : List RecoveredJob} {e : String × List RecoveredJob} (he : e ∈ jobsByTask jobs)
    {j : RecoveredJob} (hj : j ∈ e.2) : j ∈ jobs ∧ j.job.taskId = e.1 := by
  obtain ⟨t, _, rfl⟩ := List.mem_map.mp he
  obtain ⟨hmem, htask⟩ := List.mem_filter.mp hj
  exact ⟨hmem, of_decide_eq_true htask⟩

theorem recover_unclaimed (taskIds : Option (List String)) :
    Prog.Spares (Unclaimed runId t gen) (Call.interrupts runId gen) (fun _ => True) (recover s taskIds) := by
  have hord : ∀ c : Call, c.ordinary = true → ¬ c.interrupts runId gen := innocent_ordinary
  have hmade : ∀ c : Call, c.made = true → ¬ c.interrupts runId gen := innocent_made
  refine .bind (.ask (hord _ rfl)) fun _ _ =>
    .bind (.of_obeys (repairs_obey hord hmade innocent_audit s taskIds _)) fun _ _ =>
    .bind (Q := fun _ => True) ?_ fun _ _ => .of_obeys (recoverRest_obeys hord hmade innocent_audit s taskIds)
  refine .bind (.ask (hord _ rfl)) fun jobs hjobs => .forM fun e he =>
    recoverProviderJobs_unclaimed s e.1 fun j hj hrun => ?_
  obtain ⟨hmem, htask⟩ := jobsByTask_task he hj
  exact htask.symm.trans (hjobs j (List.mem_of_mem_filter hmem) hrun)

/-- No other request interrupts a job. -/
theorem serve_unclaimed (i : Nat) (request : Request) :
    ¬ (serve recoveryOp i request).Reaches (Unclaimed runId t gen) (Call.interrupts runId gen) := by
  have hord : ∀ c : Call, c.ordinary = true → ¬ c.interrupts runId gen := innocent_ordinary
  have hall : ∀ c : Call, c.made = true → Prog.Obeys (fun c => ¬ c.interrupts runId gen) (ask c) :=
    fun c hc => .ask (innocent_made c hc)
  have hK := obeying hord innocent_audit
  have hserve : ∀ {p : Program Unit}, Prog.Obeys (fun c => ¬ c.interrupts runId gen) p →
      ¬ (p.run.bind fun _ => .ret ()).Reaches (Unclaimed runId t gen) (Call.interrupts runId gen) :=
    fun hp => ((Prog.Avoids.of_all hp).discard ()).unreached
  cases request with
  | dispatch s taskIds prior => exact hserve (hK.dispatchReady hall s taskIds prior)
  | recover s taskIds => exact ((recover_unclaimed s taskIds).discard ()).unreached
  | cancel s taskId =>
    exact hserve (.bind (hK.cancelTask s (fun _ _ _ => hK.cancelWorkerRun hall s _ _ _) taskId) fun _ => .pure _)
  | coroutine index polls => exact hserve (hK.runCoroutine hall index polls)
  | audit taskId => exact hserve (hK.auditTask taskId)
  | auditPending taskIds => exact hserve (hK.auditPendingTerminalTasks taskIds)
  | client op =>
    refine hserve ?_
    show Prog.Obeys _ (if recoveryOp op then _ else _)
    split
    · rename_i hop
      refine .bind (hK.transact (.ask ?_)) fun _ => .pure _
      rintro ⟨owner, clock, e⟩
      cases e
      cases hop
    · exact .pure _

end

/-! ## Runs -/

theorem claim_granted {dg : Digests} {w : World} {env : Environment} {t owner : String} {ttl now gen : Nat}
    {allowCancelled : Bool}
    (h : (act dg w env (.store (.claimTaskReconciliation t owner ttl allowCancelled now))).1 = .ok (some gen)) :
    ∃ lease, (act dg w env (.store (.claimTaskReconciliation t owner ttl allowCancelled now))).2.db.leases.get? t =
      some lease ∧ lease.generation = gen := by
  rcases act_store dg w env (.claimTaskReconciliation t owner ttl allowCancelled now) with
    ⟨clock, uuid, r, hexec, hreply⟩ | ⟨⟨e, he⟩, _⟩
  · obtain rfl : r = some gen := Except.ok.inj (hreply.symm.trans h)
    rcases claimTaskReconciliation_ok hexec with ⟨hnone, _⟩ | ⟨_, _, _, _, hgen, hdb⟩
    · cases hnone
    · rw [hdb]
      have hrow : (grantLease w.db t owner ttl clock.now).get? t =
          some ⟨owner, nextGeneration w.db t, .active, timestamp (clock.now + ttl)⟩ := by
        simp [grantLease, Table.get?_upsert]
      exact ⟨_, hrow, (Option.some.inj hgen).symm⟩
  · cases he.symm.trans h

section

variable {dg : Digests} {runId t : String} {gen : Nat} {i : Nat} {p : Prog Call Call.Reply Unit}

/-- Whoever may interrupt a job of the task under a generation has a lone attempt before it. -/
theorem recoveryRun_within_reach {moves : List (Move Nat Request Environment)} (hclaims : LoneClaims dg moves)
    {job : JobRow} (hjob : (recoveryRun dg moves).shared.state.db.jobs.get? runId = some job) (htask : job.taskId = t)
    (hp : (recoveryRun dg moves).thread i = some p)
    (hr : p.Reaches (Unclaimed runId t gen) (Call.interrupts runId gen)) :
    Bounded t gen (recoveryRun dg moves).shared := by
  refine Pool.holds_within_reach (J := Bounded t gen) (fun e => serve_unclaimed i e) moves
    (fun before m after _ h => recoveryRun_bounded before m h)
    (fun before m after env c next e hthread hthread' hs hok hreach => ?_) hp hr
  have hjobs : ∀ before after job', moves = before ++ after →
      (recoveryRun dg before).shared.state.db.jobs.get? runId = some job' → job'.taskId = t := by
    intro before after job' e hjob'
    obtain ⟨job'', hjob'', htask'⟩ := recoveryRun_jobs before after hjob'
    rw [← e, hjob] at hjob''
    rw [← htask', ← Option.some.inj hjob'', htask]
  cases c with
  | reconcilableJobs =>
    refine absurd (fun j hj hrun => ?_) hok
    have hknown := reconcilableJobs_known hj
    rw [hrun] at hknown
    exact hjobs before (m :: after) _ e hknown
  | store op =>
    cases op with
    | claimTaskReconciliation taskId owner ttl allowCancelled now =>
      obtain ⟨rfl, hreply⟩ := Classical.not_imp.mp hok
      replace hreply := not_not.mp hreply
      obtain ⟨lease, hl, hgen⟩ := claim_granted hreply
      rw [hs]
      refine ⟨lease, hl, by omega, fun _ => ?_⟩
      rw [← hs]
      refine hclaims before m after e i taskId owner ttl allowCancelled now gen _ ?_ hthread'
        ⟨runId, fun job' hjob' => ?_,
        hreach.mono fun _ _ _ => trivial⟩
      · refine (congrArg Traced.trace hs).trans ?_
        exact congrArg (fun r => (recoveryRun dg before).shared.trace ++
          [(⟨i, .store (.claimTaskReconciliation taskId owner ttl allowCancelled now), r⟩ : RuntimeEvent)]) hreply
      · exact hjobs (before ++ [m]) after job' (by simp [e]) hjob'
    | _ => exact absurd trivial hok
  | _ => exact absurd trivial hok

theorem interruptions_concat {trace : List RuntimeEvent} {e : RuntimeEvent} {runId : String} :
    interruptions (trace ++ [e]) = interruptions trace ++ [runId] ↔ interruptedJob e = some runId := by
  cases h : interruptedJob e <;> simp [interruptions, h]

theorem interruptedJob_some {h : History} {i : Nat} {env : Environment} {c : Call} {runId : String}
    (he : interruptedJob (eventOf dg h i env c) = some runId) :
    ∃ lease clock, c = .store (.interruptMissingProviderJob runId lease clock) := by
  cases c with
  | store op =>
    cases op with
    | interruptMissingProviderJob k lease clock => exact ⟨lease, clock, by rw [Option.some.inj he]⟩
    | _ => cases he
  | _ => cases he

theorem interruption_current {w : World} {env : Environment} {runId : String} {lease : HeldLease} {clock : Clock}
    (h : (act dg w env (.store (.interruptMissingProviderJob runId lease clock))).2.db.tasks.get? t ≠
      w.db.tasks.get? t) :
    (∃ job, w.db.jobs.get? runId = some job ∧ job.taskId = t) ∧
      ∃ row, w.db.leases.get? t = some row ∧ row.generation = lease.generation := by
  rcases act_store dg w env (.interruptMissingProviderJob runId lease clock) with
    ⟨clock', uuid, r, hexec, _⟩ | ⟨_, hdb⟩
  · obtain ⟨job, run, task, hjob, hl, _, _, ⟨_, hdb⟩ | ⟨_, hdb⟩⟩ := interruptMissingProviderJob_ok hexec
    · rw [hdb] at h
      exact absurd rfl h
    · have htask : job.taskId = t := by
        by_contra hne
        rw [hdb] at h
        exact h (Table.get?_modify_ne _ _ (Ne.symm hne))
      obtain ⟨row, hrow, _, hgen, _⟩ := leaseCurrent_iff.mp hl
      rw [htask] at hrow
      exact ⟨⟨job, hjob, htask⟩, row, hrow, hgen⟩
  · rw [hdb] at h
    exact absurd rfl h

end

/-- **Missing jobs.**  Any number of processes dispatch, execute, recover and cancel over any number of passes and
restarts, clients use the store, and providers answer whatever they like.  As long as every recovery that has found a
single open job of a task is granted the lease only while the latest attempt of the task has a single run: a job that
the provider does not know moves its task only if the latest attempt of the task has a single run. -/
theorem missing_job_rule (dg : Digests) (moves : List (Move Nat Request Environment))
    (m : Move Nat Request Environment) (hclaims : LoneClaims dg moves) (runId : String)
    (hmissing : interruptions (recoveryRun dg (moves ++ [m])).shared.trace =
      interruptions (recoveryRun dg moves).shared.trace ++ [runId]) (t : String)
    (hmoved : (recoveryRun dg (moves ++ [m])).shared.state.db.tasks.get? t ≠
      (recoveryRun dg moves).shared.state.db.tasks.get? t) : Lone (recoveryRun dg moves).shared.state.db t := by
  rcases recoveryRun_snoc dg moves m with hs | ⟨i, env, c, next, hthread, hs⟩
  · rw [hs] at hmoved
    exact absurd rfl hmoved
  rw [hs] at hmoved hmissing
  obtain ⟨lease, clock, rfl⟩ := interruptedJob_some (interruptions_concat.mp hmissing)
  obtain ⟨⟨job, hjob, htask⟩, row, hrow, hgen⟩ := interruption_current hmoved
  obtain ⟨row', hrow', _, hlone⟩ := recoveryRun_within_reach hclaims hjob htask hthread
    (Or.inl ⟨lease.owner, clock, rfl⟩)
  obtain rfl := Option.some.inj (hrow.symm.trans hrow')
  exact hlone hgen

section

private def durableSupervisor (runtimeId : String) : Supervisor :=
  ⟨runtimeId, fun _ => some .durable, 3, 1000000, 30000000, 1000000⟩

private def provider (workerIds : List String) (runId : String) (observation : ReconciliationState) : Environment :=
  { Environment.completing with
    decision := ⟨workerIds, false⟩
    contract := ⟨"a", "a-1", 1, { supportsReconcile := true, supportsRepeatableCollect := true }⟩
    handle := .ok ⟨runId, "a", "a-1", "job", none, none, none, none, 1, "", by decide, by decide⟩
    observation := .ok observation }

/-- The leases have run out by now. -/
private def expired (env : Environment) : Environment := { env with wait := 31000000 }

private def steps (n i : Nat) (env : Environment) : List (Move Nat Request Environment) :=
  List.replicate n (.step i env)

private def pair : Environment := provider ["w1", "w2"] "" .unknown

-- an attempt of two runs is launched; one of them completes, then the process crashes; a recovery finds the other alone
private def pairRecovered : List (Move Nat Request Environment) :=
  [.start 0 (.client (.createTask ⟨"t", "p", "#0001", .ready, .single, 0⟩)), .step 0 pair,
    .start 1 (.client (.upsertWorker "w1" ⟨.idle, .available, none⟩)), .step 1 pair,
    .start 2 (.client (.upsertWorker "w2" ⟨.idle, .available, none⟩)), .step 2 pair,
    .start 3 (.dispatch (durableSupervisor "A") none fun a b => decide (a ≤ b))] ++ steps 12 3 pair ++
  [.start 4 (.coroutine 0 1)] ++ steps 2 4 pair ++
  [.start 5 (.coroutine 1 1)] ++ steps 12 5 (provider [] "run-w1" .unknown) ++
  [.start 6 (.coroutine 2 1)] ++ steps 6 6 (provider [] "run-w2" .unknown) ++
  [.drop 4, .drop 6, .start 7 (.recover (durableSupervisor "B") none)] ++ steps 4 7 (expired pair) ++
    steps 8 7 (provider [] "" .providerNotFound)

private def pairInterrupted : List (Move Nat Request Environment) :=
  pairRecovered ++ [.step 7 (provider [] "" .providerNotFound)]

theorem missing_peer_interrupts_pair :
    interruptions (recoveryRun .trivial pairInterrupted).shared.trace =
        interruptions (recoveryRun .trivial pairRecovered).shared.trace ++ ["run-w2"] ∧
      ((recoveryRun .trivial pairRecovered).shared.state.db.tasks.get? "t").map TaskRow.state = some .running ∧
      ((recoveryRun .trivial pairInterrupted).shared.state.db.tasks.get? "t").map TaskRow.state = some .interrupted ∧
      ¬ Lone (recoveryRun .trivial pairRecovered).shared.state.db "t" := by
  decide +kernel

private def single : Environment := provider ["w1"] "run-w1" .providerNotFound

-- an attempt of one run is launched, its process crashes, and the provider does not know the job
private def singleRecovered : List (Move Nat Request Environment) :=
  [.start 0 (.client (.createTask ⟨"t", "p", "#0001", .ready, .single, 0⟩)), .step 0 single,
    .start 1 (.client (.upsertWorker "w1" ⟨.idle, .available, none⟩)), .step 1 single,
    .start 2 (.dispatch (durableSupervisor "A") none fun a b => decide (a ≤ b))] ++ steps 9 2 single ++
  [.start 3 (.coroutine 0 1)] ++ steps 2 3 single ++ [.start 4 (.coroutine 1 1)] ++ steps 6 4 single ++
  [.drop 3, .drop 4, .start 5 (.recover (durableSupervisor "B") none)] ++ steps 4 5 (expired single) ++
    steps 8 5 single

private theorem singleRecovered_lone : LoneClaims .trivial singleRecovered := by
  intro before m after e i t owner ttl allowCancelled now gen p _ _ _ id id' run run' hrun hrun' _ _
  have hruns : ∀ n ≤ singleRecovered.length,
      (recoveryRun .trivial (singleRecovered.take n)).shared.state.db.runs.rows.length ≤ 1 := by decide +kernel
  have htake : singleRecovered.take (before.length + 1) = before ++ [m] := by
    rw [e, List.take_length_add_append]; rfl
  have hlength : before.length + 1 ≤ singleRecovered.length := by rw [e]; simp
  have hle := hruns _ hlength
  rw [htake] at hle
  exact congrArg Prod.fst (unique_of_length_le_one hle (Table.mem_rows.mpr hrun) (Table.mem_rows.mpr hrun'))

theorem missing_job_rule_single :
    ((recoveryRun .trivial (singleRecovered ++ [.step 5 single])).shared.state.db.tasks.get? "t").map TaskRow.state =
        some .interrupted ∧ Lone (recoveryRun .trivial singleRecovered).shared.state.db "t" :=
  ⟨by decide +kernel, missing_job_rule .trivial singleRecovered (.step 5 single) singleRecovered_lone "run-w1"
    (by decide +kernel) "t" (by decide +kernel)⟩

end

end AgentFabric.Runtime
