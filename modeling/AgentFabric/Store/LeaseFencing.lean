import AgentFabric.Store.Ops

/-!
# Lease fencing

Generations grow, and a holder of an older one changes nothing.
-/

namespace AgentFabric.Store

open AgentFabric.Lib

variable {dg : Digests}

structure Grant where
  taskId : String
  ownerId : String
  generation : Nat
deriving DecidableEq, Repr

/-- The lease that an operation granted, read off its arguments and its reply. -/
def grantOf : (op : StoreOp) → op.Reply → Option Grant
  | .claimTaskDispatch args, some claim =>
    match args.leaseOwnerId, claim.leaseGeneration with
    | some owner, some generation => some ⟨args.taskId, owner, generation⟩
    | _, _ => none
  | .claimTaskReconciliation taskId owner _ _ _, some generation => some ⟨taskId, owner, generation⟩
  | _, _ => none

/-- The grants of a sequence of operations, in order. -/
def grants (dg : Digests) (db : Db) : List StoreOp → List Grant
  | [] => []
  | op :: ops =>
    match exec dg op db with
    | .ok (r, db') => (grantOf op r).toList ++ grants dg db' ops
    | .error _ => grants dg db ops

/-- The lease that optional arguments present for a task. -/
def LeaseArgs.guard (lease : LeaseArgs) (taskId : String) : Option Grant :=
  match lease.owner, lease.generation with
  | some owner, some generation => some ⟨taskId, owner, generation⟩
  | _, _ => none

/-- The lease that a fenced operation presents, with the task that it is checked for. -/
def guardOf (db : Db) : StoreOp → Option Grant
  | .transitionTask taskId _ _ lease _ => lease.guard taskId
  | .setWorkerState _ _ _ _ fence _ => fence.taskId.bind fence.lease.guard
  | .activateWorkerRun runId lease _ | .transitionWorkerRun runId _ _ lease _
  | .saveWorkerResult runId _ lease _ | .recordAdapterEvent runId _ lease _ =>
    (db.runs.get? runId).bind fun run => lease.guard run.taskId
  | .prepareProviderJob runId _ _ _ lease _ _ =>
    (db.runs.get? runId).map fun run => ⟨run.taskId, lease.owner, lease.generation⟩
  | .markProviderJobLaunching runId lease _ | .bindProviderJobHandle runId _ _ _ lease _
  | .recordProviderJobObservation runId _ lease _ | .markProviderJobResultCollected runId _ lease _
  | .finalizeProviderJobResult runId _ _ _ lease _ | .interruptMissingProviderJob runId lease _
  | .requestExecutionEscalation runId _ lease _ _ | .resolveExecutionEscalations runId _ lease _ =>
    (db.jobs.get? runId).map fun job => ⟨job.taskId, lease.owner, lease.generation⟩
  | _ => none

/-- The lease row of the task names this owner and generation. -/
def Holds (db : Db) (grant : Grant) : Prop :=
  ∃ lease, db.leases.get? grant.taskId = some lease ∧ lease.ownerId = grant.ownerId ∧
    lease.generation = grant.generation

/-! ## One operation -/

/-- Owner and generation of the lease row are kept, and a released row stays released. -/
structure LeaseKept (old new : Option LeaseRow) : Prop where
  ident : new.map (fun l => (l.ownerId, l.generation)) = old.map fun l => (l.ownerId, l.generation)
  active : ∀ l', new = some l' → l'.state = .active → ∃ l, old = some l ∧ l.state = .active

theorem LeaseKept.refl (l : Option LeaseRow) : LeaseKept l l := ⟨rfl, fun l' h ha => ⟨l', h, ha⟩⟩

theorem LeaseKept.map {l : Option LeaseRow} {f : LeaseRow → LeaseRow} (ho : ∀ x, (f x).ownerId = x.ownerId)
    (hg : ∀ x, (f x).generation = x.generation) (ha : ∀ x, (f x).state = .active → x.state = .active) :
    LeaseKept l (l.map f) := by
  cases l with
  | none => exact LeaseKept.refl none
  | some x =>
    refine ⟨by simp [ho, hg], ?_⟩
    rintro l' ⟨⟩ hact
    exact ⟨x, rfl, ha x hact⟩

variable {db db' : Db} {t taskId : String}

theorem LeaseKept.modify {f : LeaseRow → LeaseRow} (ho : ∀ x, (f x).ownerId = x.ownerId)
    (hg : ∀ x, (f x).generation = x.generation) (ha : ∀ x, (f x).state = .active → x.state = .active) :
    LeaseKept (db.leases.get? t) ((db.leases.modify taskId f).get? t) := by
  rw [Table.get?_modify]
  split
  · exact LeaseKept.map ho hg ha
  · exact LeaseKept.refl _

/-- What an operation does to the lease row of one task. -/
inductive LeaseChange (db db' : Db) (grant : Option Grant) (t : String) : Prop where
  | granted (owner : String) (expiresAt : Nat) (hg : grant = some ⟨t, owner, nextGeneration db t⟩)
      (hl : db'.leases.get? t = some ⟨owner, nextGeneration db t, .active, expiresAt⟩)
  | kept (hg : ∀ g, grant = some g → g.taskId ≠ t) (hl : LeaseKept (db.leases.get? t) (db'.leases.get? t))

theorem LeaseChange.of_eq (h : db'.leases = db.leases) : LeaseChange db db' none t :=
  .kept (fun _ hg => by cases hg) (by rw [h]; exact LeaseKept.refl _)

theorem LeaseChange.of_grantLease {owner : String} {ttl now : Nat}
    (h : db'.leases = grantLease db taskId owner ttl now) (t : String) :
    LeaseChange db db' (some ⟨taskId, owner, nextGeneration db taskId⟩) t := by
  have hget : db'.leases.get? t = if t = taskId then
      some ⟨owner, nextGeneration db taskId, .active, timestamp (now + ttl)⟩ else db.leases.get? t := by
    rw [h, grantLease, Table.get?_upsert]
  by_cases ht : t = taskId
  · subst ht
    exact .granted owner _ rfl (by simpa using hget)
  · refine .kept (fun g hg => ?_) (by rw [hget, if_neg ht]; exact LeaseKept.refl _)
    cases hg
    exact fun e => ht e.symm

theorem grantOf_claim {args : DispatchArgs} {claim : DispatchClaim} {generation : Nat}
    (h : claim.leaseGeneration = args.leaseOwnerId.map fun _ => generation) :
    grantOf (.claimTaskDispatch args) (some claim) =
      args.leaseOwnerId.map fun owner => ⟨args.taskId, owner, generation⟩ := by
  cases ho : args.leaseOwnerId <;> simp [grantOf, ho, h]

variable {op : StoreOp}

variable {r : op.Reply}

/-- Every operation grants the next generation of a task or keeps its lease. -/
theorem exec_leases (h : exec dg op db = .ok (r, db')) (t : String) :
    LeaseChange db db' (grantOf op r) t := by
  cases op with
  | claimTaskDispatch args =>
    rcases claimTaskDispatch_ok h with ⟨rfl, rfl⟩ | ⟨task, runs, -, -, -, -, -, -, -, -, rfl, rfl⟩
    · exact .of_eq rfl
    · rw [grantOf_claim rfl]
      cases ho : args.leaseOwnerId with
      | none => exact .of_eq (by simp [claimLease, ho])
      | some => exact .of_grantLease (by simp [claimLease, ho]; rfl) t
  | claimTaskReconciliation =>
    rcases claimTaskReconciliation_ok h with ⟨rfl, rfl⟩ | ⟨task, -, -, -, rfl, rfl⟩
    · exact .of_eq rfl
    · exact .of_grantLease rfl t
  | heartbeatTaskExecutionLease =>
    rcases heartbeat_ok h with ⟨-, rfl⟩ | ⟨-, -, rfl⟩
    · exact .of_eq rfl
    · exact .kept (fun _ hg => by cases hg)
        (LeaseKept.modify (fun _ => rfl) (fun _ => rfl) fun _ hact => hact)
  | releaseTaskExecutionLease =>
    rcases release_ok h with ⟨-, rfl⟩ | ⟨-, -, rfl⟩
    · exact .of_eq rfl
    · exact .kept (fun _ hg => by cases hg)
        (LeaseKept.modify (fun _ => rfl) (fun _ => rfl) fun _ hact => by cases hact)
  | cancelTaskExecution =>
    obtain ⟨_, _, ⟨_, _, rfl⟩ | ⟨_, _, rfl⟩⟩ := cancelTaskExecution_ok h
    · exact .of_eq rfl
    · exact .kept (fun _ hg => by cases hg)
        (LeaseKept.modify (fun _ => rfl) (fun _ => rfl) fun _ hact => by cases hact)
  | recoverInterrupted =>
    cases h
    refine .kept (fun _ hg => by cases hg) ?_
    simp only [Table.get?_updateWhere]
    refine LeaseKept.map (fun x => ?_) (fun x => ?_) fun x => ?_ <;> split <;> simp [LeaseRow.release]
  | _ => exact .of_eq ((exec_frame h).leases rfl)

variable {g : Grant}

/-- A fenced operation commits only under a lease row with exactly its owner and generation. -/
theorem guard_holds (h : exec dg op db = .ok (r, db')) (hg : guardOf db op = some g) :
    ∃ now, leaseCurrent db g.taskId g.ownerId g.generation now = true := by
  have args : ∀ {lease : LeaseArgs} {t : String} {clock : Nat}, requireLeaseArgs db t lease clock = .ok () →
      lease.guard t = some g → ∃ now, leaseCurrent db g.taskId g.ownerId g.generation now = true := by
    intro lease t clock hl hgd
    rcases requireLeaseArgs_eq_ok.mp hl with rfl | ⟨owner, generation, rfl, hc⟩
    · cases hgd
    · cases hgd
      exact ⟨_, hc⟩
  have viaRun : ∀ {runId : String} {run : RunRow} {lease : LeaseArgs} {clock : Nat},
      db.runs.get? runId = some run → requireLeaseArgs db run.taskId lease clock = .ok () →
      ((db.runs.get? runId).bind fun run => lease.guard run.taskId) = some g →
      ∃ now, leaseCurrent db g.taskId g.ownerId g.generation now = true := by
    intro runId run lease clock hr hl hgd
    rw [hr] at hgd
    exact args hl hgd
  have viaJob : ∀ {runId : String} {job : JobRow} {lease : HeldLease} {clock : Nat},
      db.jobs.get? runId = some job → leaseCurrent db job.taskId lease.owner lease.generation clock = true →
      ((db.jobs.get? runId).map fun job => (⟨job.taskId, lease.owner, lease.generation⟩ : Grant)) = some g →
      ∃ now, leaseCurrent db g.taskId g.ownerId g.generation now = true := by
    intro runId job lease clock hj hl hgd
    rw [hj] at hgd
    cases hgd
    exact ⟨_, hl⟩
  cases op with
  | transitionTask =>
    obtain ⟨_, _, hl, _, _⟩ := transitionTask_ok h
    exact args hl hg
  | setWorkerState workerId state resource model fence =>
    obtain ⟨hf, -⟩ := setWorkerState_ok h
    obtain ⟨task, owner, generation⟩ := fence
    cases task <;> cases owner <;> cases generation <;>
      simp_all [guardOf, LeaseArgs.guard, requireWorkerFence]
    subst hg
    exact ⟨_, hf⟩
  | activateWorkerRun =>
    obtain ⟨_, _, hr, _, hl, _⟩ := activateWorkerRun_ok h
    exact viaRun hr hl hg
  | transitionWorkerRun =>
    obtain ⟨_, hr, hl, _⟩ := transitionWorkerRun_ok h
    exact viaRun hr hl hg
  | saveWorkerResult =>
    obtain ⟨_, hr, hl, _⟩ := saveWorkerResult_ok h
    exact viaRun hr hl hg
  | recordAdapterEvent =>
    obtain ⟨_, hr, hl, _⟩ := recordAdapterEvent_ok h
    exact viaRun hr hl hg
  | prepareProviderJob =>
    obtain ⟨run, hr, hl, _⟩ := prepareProviderJob_ok h
    simp only [guardOf, hr, Option.map_some, Option.some.injEq] at hg
    subst hg
    exact ⟨_, hl⟩
  | markProviderJobLaunching =>
    obtain ⟨_, hj, hl, _⟩ := markProviderJobLaunching_ok h
    exact viaJob hj hl hg
  | bindProviderJobHandle =>
    obtain ⟨_, hj, hl, _⟩ := bindProviderJobHandle_ok h
    exact viaJob hj hl hg
  | recordProviderJobObservation =>
    obtain ⟨_, hj, hl, _⟩ := recordProviderJobObservation_ok h
    exact viaJob hj hl hg
  | markProviderJobResultCollected =>
    obtain ⟨_, _, hj, hl, _⟩ := markProviderJobResultCollected_ok h
    exact viaJob hj hl hg
  | finalizeProviderJobResult =>
    obtain ⟨_, _, _, _, _, hj, hl, _⟩ := finalizeProviderJobResult_ok h
    exact viaJob hj hl hg
  | interruptMissingProviderJob =>
    obtain ⟨_, _, _, hj, hl, _⟩ := interruptMissingProviderJob_ok h
    exact viaJob hj hl hg
  | requestExecutionEscalation =>
    obtain ⟨_, _, hj, hl, _⟩ := requestExecutionEscalation_ok h
    exact viaJob hj hl hg
  | resolveExecutionEscalations =>
    obtain ⟨_, _, hj, hl, _⟩ := resolveExecutionEscalations_ok h
    exact viaJob hj hl hg
  | _ => cases hg

/-! ## Sequences of operations -/

/-- Lease rows stay, and their generation only grows; under one generation the owner is fixed. -/
def LeaseLe (db db' : Db) : Prop :=
  ∀ t l, db.leases.get? t = some l → ∃ l', db'.leases.get? t = some l' ∧
    (l.generation < l'.generation ∨ (l'.generation = l.generation ∧ l'.ownerId = l.ownerId))

theorem LeaseLe.refl (db : Db) : LeaseLe db db := fun _ l hl => ⟨l, hl, Or.inr ⟨rfl, rfl⟩⟩

theorem LeaseLe.trans {a b c : Db} (hab : LeaseLe a b) (hbc : LeaseLe b c) : LeaseLe a c := by
  intro t l hl
  obtain ⟨l₁, h₁, h₁'⟩ := hab t l hl
  obtain ⟨l₂, h₂, h₂'⟩ := hbc t l₁ h₁
  refine ⟨l₂, h₂, ?_⟩
  rcases h₁' with h₁' | ⟨hg₁, ho₁⟩ <;> rcases h₂' with h₂' | ⟨hg₂, ho₂⟩
  · exact Or.inl (by omega)
  · exact Or.inl (by omega)
  · exact Or.inl (by omega)
  · exact Or.inr ⟨hg₂.trans hg₁, ho₂.trans ho₁⟩

theorem nextGeneration_of_some {l : LeaseRow} (h : db.leases.get? t = some l) :
    nextGeneration db t = l.generation + 1 := by
  simp [nextGeneration, h]

/-- Under every operation generations only rise. -/
theorem exec_leaseLe (h : exec dg op db = .ok (r, db')) :
    LeaseLe db db' := by
  intro t l hl
  rcases exec_leases h t with ⟨owner, expiresAt, -, hn⟩ | ⟨-, hk⟩
  · refine ⟨_, hn, Or.inl ?_⟩
    simp [nextGeneration_of_some hl]
  · have hid := hk.ident
    rw [hl] at hid
    cases hn : db'.leases.get? t with
    | none => simp [hn] at hid
    | some l' =>
      simp only [hn, Option.map_some, Option.some.injEq, Prod.mk.injEq] at hid
      exact ⟨l', rfl, Or.inr ⟨hid.2, hid.1⟩⟩

theorem runOps_leaseLe (dg : Digests) (db : Db) (ops : List StoreOp) : LeaseLe db (runOps dg db ops) :=
  runOps_relation LeaseLe.refl LeaseLe.trans exec_leaseLe db ops

/-- A grant is above all generations before it. -/
theorem exec_grant (h : exec dg op db = .ok (r, db')) (hg : grantOf op r = some g) :
    Holds db' g ∧ ∀ l, db.leases.get? g.taskId = some l → l.generation < g.generation := by
  rcases exec_leases h g.taskId with ⟨owner, expiresAt, hgr, hn⟩ | ⟨hne, -⟩
  · have hgrant := Option.some.inj (hg.symm.trans hgr)
    have howner : g.ownerId = owner := congrArg Grant.ownerId hgrant
    have hgen : g.generation = nextGeneration db g.taskId := congrArg Grant.generation hgrant
    refine ⟨⟨_, hn, howner.symm, hgen.symm⟩, ?_⟩
    intro l hl
    rw [hgen, nextGeneration_of_some hl]
    omega
  · exact absurd rfl (hne g hg)

theorem grant_le {ops : List StoreOp} (h : Holds db g) :
    ∃ l, (runOps dg db ops).leases.get? g.taskId = some l ∧ g.generation ≤ l.generation := by
  obtain ⟨l, hl, -, hgen⟩ := h
  obtain ⟨l', hl', hle⟩ := runOps_leaseLe dg db ops _ l hl
  exact ⟨l', hl', by omega⟩

/-- Every grant of a sequence is at or below the generation stored at its end, and above the one at its start. -/
theorem grants_bounds {ops : List StoreOp} (h : g ∈ grants dg db ops) :
    (∃ l, (runOps dg db ops).leases.get? g.taskId = some l ∧ g.generation ≤ l.generation) ∧
      ∀ l, db.leases.get? g.taskId = some l → l.generation < g.generation := by
  induction ops generalizing db with
  | nil => cases h
  | cons op ops ih =>
    unfold grants at h
    rw [runOps_cons, apply]
    cases he : exec dg op db with
    | error =>
      rw [he] at h
      exact ih h
    | ok p =>
      obtain ⟨r, db'⟩ := p
      rw [he] at h
      simp only [List.mem_append, Option.mem_toList] at h
      rcases h with hg | h
      · obtain ⟨hh, hlt⟩ := exec_grant he hg
        exact ⟨grant_le hh, hlt⟩
      · obtain ⟨hle, hlt⟩ := ih h
        refine ⟨hle, ?_⟩
        intro l hl
        obtain ⟨l', hl', hle'⟩ := exec_leaseLe he _ l hl
        have := hlt l' hl'
        omega

theorem grants_pairwise (db : Db) (ops : List StoreOp) :
    (grants dg db ops).Pairwise fun a b => a.taskId = b.taskId → a.generation < b.generation := by
  induction ops generalizing db with
  | nil => exact List.Pairwise.nil
  | cons op ops ih =>
    unfold grants
    cases he : exec dg op db with
    | error => exact ih db
    | ok p =>
      obtain ⟨r, db'⟩ := p
      simp only [List.pairwise_append]
      refine ⟨?_, ih db', ?_⟩
      · cases grantOf op r <;> simp
      · intro a ha b hb htask
        obtain ⟨⟨l, hl, -, hgen⟩, -⟩ := exec_grant he (Option.mem_toList.mp ha)
        rw [htask] at hl
        have := (grants_bounds hb).2 l hl
        omega

theorem owner_unique {pre mid : List StoreOp} {o o' : String} {g : Nat} (h : Holds (runOps dg db pre) ⟨t, o, g⟩)
    (h' : Holds (runOps dg db (pre ++ mid)) ⟨t, o', g⟩) : o = o' := by
  obtain ⟨l, hl, ho, hg⟩ := h
  obtain ⟨l', hl', ho', hg'⟩ := h'
  rw [runOps_append] at hl'
  obtain ⟨l₂, hl₂, hle⟩ := runOps_leaseLe dg (runOps dg db pre) mid t l hl
  rw [hl₂] at hl'
  cases hl'
  rcases hle with hlt | ⟨-, howner⟩
  · simp only at hg hg'
    omega
  · exact ho.symm.trans (howner.symm.trans ho')

/-- **Lease fencing.** Over every sequence of store operations, by any owners and at any clock readings, each grant of
a task's lease carries a larger generation than every earlier one, no generation is ever held by two owners, and a
write fenced by a generation is refused once a later generation of the task has been issued. -/
theorem lease_fencing (dg : Digests) (ops : List StoreOp) :
    ((grants dg Db.initial ops).Pairwise fun a b => a.taskId = b.taskId → a.generation < b.generation) ∧
    (∀ pre pre', pre <+: ops → pre' <+: ops → ∀ t o o' g,
      Holds (runOps dg Db.initial pre) ⟨t, o, g⟩ → Holds (runOps dg Db.initial pre') ⟨t, o', g⟩ → o = o') ∧
    (∀ pre op post, ops = pre ++ op :: post → ∀ t o o' g,
      guardOf (runOps dg Db.initial pre) op = some ⟨t, o, g⟩ → ⟨t, o', g + 1⟩ ∈ grants dg Db.initial pre →
      ∃ e, exec dg op (runOps dg Db.initial pre) = .error e) := by
  refine ⟨grants_pairwise _ _, ?_, ?_⟩
  · intro pre pre' hp hp' t o o' g h h'
    rcases List.prefix_or_prefix_of_prefix hp hp' with ⟨mid, rfl⟩ | ⟨mid, rfl⟩
    · exact owner_unique h h'
    · exact (owner_unique h' h).symm
  · intro pre op post _ t o o' g hg hmem
    cases he : exec dg op (runOps dg Db.initial pre) with
    | error e => exact ⟨e, rfl⟩
    | ok p =>
      -- an accepted write sees exactly generation `g`, but the row is at `g + 1` or later
      obtain ⟨now, hc⟩ := guard_holds he hg
      obtain ⟨l, hl, -, hgen, -, -⟩ := leaseCurrent_iff.mp hc
      obtain ⟨⟨l', hl', hle⟩, -⟩ := grants_bounds hmem
      rw [hl] at hl'
      cases hl'
      simp only at hgen hle
      omega

/-- A task claimed by one runtime, whose lease expires and is taken over by another. -/
def takeover : List StoreOp :=
  [.createTask ⟨"t", "p", "#0001", .ready, .single, 0⟩,
   .upsertWorker "w" ⟨.idle, .available, none⟩,
   .claimTaskDispatch ⟨"t", ["w"], 1, none, some "A", 30000000, none, fun w => w, 0⟩,
   .claimTaskReconciliation "t" "B" 30000000 false 60000000]

/-- The first owner's late activation of its own run is refused after the takeover. -/
theorem lease_fencing_takeover :
    ∃ e, exec .trivial (.activateWorkerRun "run-w" (.held "A" 1) ⟨61000000, 61000000⟩)
      (runOps .trivial Db.initial takeover) = .error e :=
  (lease_fencing .trivial
    (takeover ++ [.activateWorkerRun "run-w" (.held "A" 1) ⟨61000000, 61000000⟩])).2.2
    takeover _ [] rfl "t" "A" "B" 1 (by decide) (by decide)

end AgentFabric.Store
