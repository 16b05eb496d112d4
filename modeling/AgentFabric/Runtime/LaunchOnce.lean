import AgentFabric.Runtime.Histories

/-!
# One launch for each run

A process crosses the launch boundary of a run only with the grant of its activation or its job.
-/

namespace AgentFabric.Runtime

open AgentFabric.Lib AgentFabric.Store

variable {dg : Digests}

/-- A call that crossed the launch boundary of a run. -/
structure Launch where
  thread : Nat
  workerId : String
  runId : String
  idempotencyKey : Option String
  basis : LaunchBasis
deriving DecidableEq

def launchOf : RuntimeEvent → Option Launch
  | ⟨i, .startJob workerId runId key basis, _⟩ => some ⟨i, workerId, runId, some key, basis⟩
  | ⟨i, .execute workerId runId, _⟩ => some ⟨i, workerId, runId, none, .activation⟩
  | _ => none

/-- The launch is a replay that both sides promise to deduplicate. -/
def Launch.deduplicated (l : Launch) : Bool := decide (l.basis = .replay true true)

def launches (trace : List RuntimeEvent) (runId : String) : List Launch :=
  (trace.filterMap launchOf).filter fun l => decide (l.runId = runId)

def firstLaunches (trace : List RuntimeEvent) (runId : String) : List Launch :=
  (launches trace runId).filter fun l => !l.deduplicated

section

variable {trace : List RuntimeEvent} {e : RuntimeEvent} {runId : String}

theorem launches_concat : launches (trace ++ [e]) runId =
    launches trace runId ++ (launchOf e).toList.filter fun l => decide (l.runId = runId) := by
  cases h : launchOf e <;> simp [launches, List.filterMap_append, h]

theorem firstLaunches_concat : firstLaunches (trace ++ [e]) runId = firstLaunches trace runId ++
    ((launchOf e).toList.filter fun l => decide (l.runId = runId)).filter fun l => !l.deduplicated := by
  rw [firstLaunches, launches_concat, List.filter_append]
  rfl

theorem launches_quiet (h : launchOf e = none) : launches (trace ++ [e]) runId = launches trace runId := by
  simp [launches_concat, h]

end

/-! ## The invariant -/

/-- A run is activated once, a first launch belongs to the coroutine that activated the run, every launch carries the
key of its run, and every replay is backed by the persisted job and by an observed contract. -/
structure LaunchInv (h : History) : Prop extends ActivatedOnce h where
  keyed : ∀ id job, h.state.db.jobs.get? id = some job → job.idempotencyKey = idempotencyKey id
  firstLaunches_le : ∀ runId, (firstLaunches h.trace runId).length ≤ 1
  launched : ∀ runId, ∀ l ∈ firstLaunches h.trace runId,
    l.basis = .activation ∧ (l.thread, runId) ∈ activations h.trace runId
  keys : ∀ runId, ∀ l ∈ launches h.trace runId, ∀ key ∈ l.idempotencyKey, key = idempotencyKey runId
  replayed : ∀ runId, ∀ l ∈ launches h.trace runId, l.deduplicated = true →
    (∃ job, h.state.db.jobs.get? runId = some job ∧ job.capabilities.supportsProviderIdempotency = true) ∧
    ∃ contract : Contract, contract.capabilities.supportsProviderIdempotency = true ∧
      (⟨l.thread, .contract l.workerId, contract⟩ : RuntimeEvent) ∈ h.trace

section

variable {h : History} {i : Nat} {env : Environment} {c : Call}

theorem keyed_step (hI : LaunchInv h) (id : String) (job : JobRow)
    (hjob : (extended dg h i env c).state.db.jobs.get? id = some job) : job.idempotencyKey = idempotencyKey id := by
  rw [extended_state] at hjob
  rcases act_db dg h.state env c with hdb | ⟨op, clock, uuid, r, _, hexec⟩
  · rw [hdb] at hjob
    exact hI.keyed id job hjob
  · cases hold : h.state.db.jobs.get? id with
    | some a =>
      obtain ⟨b, hb, hu⟩ := exec_jobs_some hexec hold
      rw [hb] at hjob
      obtain rfl := Option.some.inj hjob
      exact hu.intent.2.2.2.2.2.1.trans (hI.keyed id a hold)
    | none =>
      obtain ⟨_, _, _, _, _, _, _, _, _, _, rfl⟩ := exec_jobs_none hexec hold hjob
      rfl

/-- Whatever the call is, the invariant holds again once its launch is accounted for. -/
theorem inv_of_launch (hI : LaunchInv h)
    (hfirst : ∀ runId, (firstLaunches (extended dg h i env c).trace runId).length ≤ 1)
    (hnew : ∀ l, launchOf (eventOf dg h i env c) = some l →
      (l.deduplicated = false → l.basis = .activation ∧ (l.thread, l.runId) ∈ activations h.trace l.runId) ∧
      (∀ key ∈ l.idempotencyKey, key = idempotencyKey l.runId) ∧
      (l.deduplicated = true →
        (∃ job, h.state.db.jobs.get? l.runId = some job ∧ job.capabilities.supportsProviderIdempotency = true) ∧
        ∃ contract : Contract, contract.capabilities.supportsProviderIdempotency = true ∧
          (⟨l.thread, .contract l.workerId, contract⟩ : RuntimeEvent) ∈ h.trace)) :
    LaunchInv (extended dg h i env c) := by
  have hmem : ∀ runId, ∀ l ∈ launches (extended dg h i env c).trace runId, l ∈ launches h.trace runId ∨
      (launchOf (eventOf dg h i env c) = some l ∧ l.runId = runId) := by
    intro runId l hl
    rw [extended_trace, launches_concat, List.mem_append, List.mem_filter] at hl
    rcases hl with hl | ⟨hl, hrun⟩
    · exact Or.inl hl
    · exact Or.inr ⟨by simpa using hl, by simpa using hrun⟩
  refine ⟨hI.toActivatedOnce.step, keyed_step hI, hfirst, fun runId l hl => ?_, fun runId l hl => ?_,
    fun runId l hl hd => ?_⟩
  · obtain ⟨hl, hd⟩ := List.mem_filter.mp hl
    rcases hmem runId l hl with hl | ⟨hnewl, rfl⟩
    · obtain ⟨hbasis, hmem⟩ := hI.launched runId l (List.mem_filter.mpr ⟨hl, hd⟩)
      exact ⟨hbasis, activations_mono hmem⟩
    · obtain ⟨hbasis, hmem⟩ := (hnew l hnewl).1 (by simpa using hd)
      exact ⟨hbasis, activations_mono hmem⟩
  · rcases hmem runId l hl with hl | ⟨hnewl, rfl⟩
    · exact hI.keys runId l hl
    · exact (hnew l hnewl).2.1
  · have hback : (∃ job, h.state.db.jobs.get? runId = some job ∧
        job.capabilities.supportsProviderIdempotency = true) ∧ ∃ contract : Contract,
        contract.capabilities.supportsProviderIdempotency = true ∧
          (⟨l.thread, .contract l.workerId, contract⟩ : RuntimeEvent) ∈ h.trace := by
      rcases hmem runId l hl with hl | ⟨hnewl, rfl⟩
      · exact hI.replayed runId l hl hd
      · exact (hnew l hnewl).2.2 hd
    obtain ⟨⟨job, hjob, hcap⟩, contract, hcontract, hevent⟩ := hback
    obtain ⟨job', hjob', _, _, hcap'⟩ := (act_kept dg h.state env c).jobs runId job hjob
    exact ⟨⟨job', hjob', hcap' ▸ hcap⟩, contract, hcontract, List.mem_append_left _ hevent⟩

/-- Calls that do not cross a launch boundary. -/
def Call.quiet : Call → Prop
  | .startJob .. | .execute .. => False
  | _ => True

theorem launchOf_quiet (hc : c.quiet) : launchOf (eventOf dg h i env c) = none := by
  cases c <;> first | rfl | exact hc.elim

/-- A call that launches nothing keeps the invariant. -/
theorem quiet_step (hc : c.quiet) (hI : LaunchInv h) : LaunchInv (extended dg h i env c) := by
  have hnone : launchOf (eventOf dg h i env c) = none := launchOf_quiet hc
  refine inv_of_launch hI (fun runId => ?_) fun l hl => ?_
  · rw [extended_trace, firstLaunches, launches_quiet hnone]
    exact hI.firstLaunches_le runId
  · rw [hnone] at hl
    cases hl

end

/-! ## What a coroutine knows -/

/-- The right to launch: the activation is this coroutine's, and nothing was launched under it. -/
structure Ticket (i : Nat) (runId : String) (h : History) : Prop where
  activated : (i, runId) ∈ activations h.trace runId
  unspent : firstLaunches h.trace runId = []

/-- The job of the run is persisted as it was read. -/
def Known (j : RecoveredJob) (h : History) : Prop :=
  ∃ job, h.state.db.jobs.get? j.runId = some job ∧ job.capabilities = j.job.capabilities ∧
    j.job.idempotencyKey = idempotencyKey j.runId

section

variable {h : History} {i : Nat} {env : Environment} {c : Call}

theorem known_mono {j : RecoveredJob} {h' : History} (hg : RuntimeStep i h h') (hj : Known j h) : Known j h' := by
  obtain ⟨job, hjob, hcap, hkey⟩ := hj
  obtain ⟨job', hjob', _, _, hcap'⟩ := hg.1.jobs j.runId job hjob
  exact ⟨job', hjob', hcap'.trans hcap, hkey⟩

theorem ticket_stable (i : Nat) (runId : String) : Stable LaunchInv RuntimeStep i (Ticket i runId) := by
  rintro j h h' hj _ hinv' ⟨_, c, r, htrace⟩ ⟨hactivated, hunspent⟩
  have hactivated' : (i, runId) ∈ activations h'.trace runId := by
    rw [htrace]
    exact activations_mono hactivated
  refine ⟨hactivated', List.eq_nil_iff_forall_not_mem.mpr fun l hl => hj ?_⟩
  have hthread : l.thread = j := by
    rw [htrace, firstLaunches_concat, hunspent, List.nil_append, List.mem_filter, List.mem_filter] at hl
    cases c with
    | startJob => exact congrArg Launch.thread (List.mem_singleton.mp hl.1.1)
    | execute => exact congrArg Launch.thread (List.mem_singleton.mp hl.1.1)
    | _ => exact absurd hl.1.1 List.not_mem_nil
  exact hthread.symm.trans (hinv'.unique (hinv'.launched runId l hl).2 hactivated')

theorem ticket_kept {runId : String} (hc : c.quiet) (ht : Ticket i runId h) :
    Ticket i runId (extended dg h i env c) := by
  refine ⟨activations_mono ht.activated, ?_⟩
  rw [extended_trace, firstLaunches, launches_quiet (launchOf_quiet hc)]
  exact ht.unspent

/-- The first launch of an activated run keeps the invariant. -/
theorem launch_step {runId : String} {l : Launch} (hI : LaunchInv h) (ht : Ticket i runId h)
    (hl : launchOf (eventOf dg h i env c) = some l) (hthread : l.thread = i) (hrun : l.runId = runId)
    (hbasis : l.basis = .activation) (hkey : ∀ key ∈ l.idempotencyKey, key = idempotencyKey runId) :
    LaunchInv (extended dg h i env c) := by
  have hdedup : l.deduplicated = false := by simp [Launch.deduplicated, hbasis]
  refine inv_of_launch hI (fun runId' => ?_) fun l' hl' => ?_
  · rw [extended_trace, firstLaunches_concat, hl]
    by_cases he : l.runId = runId'
    · rw [← he, hrun, ht.unspent]
      exact (List.length_filter_le _ _).trans (List.length_filter_le _ _)
    · simpa [he] using hI.firstLaunches_le runId'
  · rw [hl] at hl'
    obtain rfl := Option.some.inj hl'
    refine ⟨fun _ => ?_, fun key hk => hrun ▸ hkey key hk, fun hd => ?_⟩
    · rw [hthread, hrun]
      exact ⟨hbasis, ht.activated⟩
    · rw [hdedup] at hd
      cases hd

end

/-! ## Programs that launch nothing -/

abbrev Quiet {α : Type} (p : Program α) : Prop := Prog.Obeys Call.quiet p

theorem quietly : Discipline @Quiet :=
  .of_calls (fun x => .result x) .bind .attempt (fun c _ => .ask (by cases c <;> trivial)) fun _ _ => .ask trivial

section

variable (s : Supervisor)

theorem store_quiet (op : StoreOp) : Quiet (store op) := quietly.transact (.ask trivial)

theorem quiet_moves (taskId : String) (generation : Nat) : MayMove @Quiet s taskId generation :=
  fun _ _ _ => .ask trivial

theorem quiet_finalizes (runId : String) (generation : Nat) : MayFinalize @Quiet s runId generation :=
  fun _ _ _ _ => .ask trivial

theorem launchFailed_quiet (a : Assignment) (kind : AdapterKind) (error : Raised) :
    Quiet (launchFailed s a kind error) := by
  unfold launchFailed
  split
  · exact .bind (store_quiet _) fun _ => .bind (quietly.account _) fun _ => .bind (store_quiet _) fun _ =>
      .bind (quietly.account _) fun _ => .throw _
  · split
    · exact quietly.persistWorkerResult s (quiet_finalizes s _ _) _
    · exact quietly.holdAmbiguousProviderJob s a error (.bind (store_quiet _) fun _ => .bind (store_quiet _) fun _ =>
        .bind (quietly.account _) fun _ => .pure _)

theorem cancelWorkerRun_quiet (runId : String) (run : RunRow) (generation : Option Nat) :
    Quiet (cancelWorkerRun s runId run generation) :=
  .bind (.ask trivial) fun _ => quietly.cancelRead s (fun _ _ _ _ _ => quiet_finalizes s _ _) run

theorem observeJob_quiet (j : RecoveredJob) (contract : Contract) (alone : Bool) (generation : Nat)
    (r : Reconciliation) : Quiet (observeJob s j contract alone generation r) :=
  quietly.observeJob s (quiet_finalizes s _ _) (.ask trivial) _ _ _

theorem claimAndStart_quiet (taskId : String) (task : TaskRow) (workerIds : List String) :
    Quiet (claimAndStart s taskId task workerIds) := by
  refine .bind (store_quiet _) fun claim => ?_
  split
  · refine .bind (quietly.getTask _) fun current => ?_
    split
    · exact quietly.deferDispatch s _ _ _
    · exact .pure _
  · exact .bind (.result _) fun _ => .bind (quietly.prepareRuns s _ _) fun _ => .bind (.ask trivial) fun _ => .pure _

theorem dispatchReady_quiet (taskIds : Option (List String)) (prior : String → String → Bool) :
    Quiet (dispatchReady s taskIds prior) :=
  .bind (.ask trivial) fun _ => .forM fun _ _ => quietly.dispatchTask s taskIds (fun _ _ _ => .ask trivial)
    fun _ => claimAndStart_quiet s _ _ _

end

/-! ## Outlines -/

abbrev RuntimeOutline (dg : Digests) (i : Nat) {α : Type} (φ : History → Prop) (p : Program α)
    (Q : α → History → Prop) : Prop :=
  Outline (machine dg).traced LaunchInv RuntimeStep i φ p.run (onOk Q)

section

variable {i : Nat} {α : Type} {φ : History → Prop}

variable {p : Program α}

theorem quiet_keeps (hp : Quiet p) (hst : Stable LaunchInv RuntimeStep i φ)
    (hφ : ∀ h env c, c.quiet → φ h → φ (extended dg h i env c)) : RuntimeOutline dg i φ p fun _ => φ :=
  Outline.keep hst hp fun c h env hc hI hh => ⟨quiet_step hc hI, step_extends, hφ h env c hc hh⟩

theorem quiet_outline (hp : Quiet p) : RuntimeOutline dg i φ p fun _ _ => True :=
  (quiet_keeps (φ := fun _ => True) hp Stable.true fun _ _ _ _ _ => trivial).weaken fun _ _ _ => trivial

theorem launch_outline {runId : String} {c : Call} {Q : c.Reply → History → Prop} (hQ : ∀ r h, Q r h)
    (hlaunch : ∀ h env, ∃ l, launchOf (eventOf dg h i env c) = some l ∧ l.thread = i ∧ l.runId = runId ∧
      l.basis = .activation ∧ ∀ key ∈ l.idempotencyKey, key = idempotencyKey runId) :
    RuntimeOutline dg i (Ticket i runId) (ask c) Q := by
  refine Outline.ask (fun r _ h h' _ _ _ _ _ => hQ r h') fun h env hI ht => ⟨?_, step_extends, hQ _ _⟩
  obtain ⟨l, hl, hthread, hrun, hbasis, hkey⟩ := hlaunch h env
  exact launch_step hI ht hl hthread hrun hbasis hkey

theorem ticket_keeps (runId : String) (hp : Quiet p) :
    RuntimeOutline dg i (Ticket i runId) p fun _ => Ticket i runId :=
  quiet_keeps hp (ticket_stable i runId) fun _ _ _ hc ht => ticket_kept hc ht

variable (s : Supervisor)

theorem launch_under_ticket (a : Assignment) (kind : AdapterKind) (job : JobRow)
    (hkey : job.idempotencyKey = idempotencyKey a.runId) :
    RuntimeOutline dg i (Ticket i a.runId) (launch s a kind job) fun _ _ => True := by
  refine Outline.raising_bind (ticket_keeps a.runId (store_quiet _)) fun _ => ?_
  cases kind with
  | durable =>
    refine Outline.raising_bind (Q := fun _ _ => True) (launch_outline (fun _ _ => trivial)
      fun h env => ⟨_, rfl, rfl, Eq.refl a.runId, rfl, ?_⟩) fun r => ?_
    · rintro key ⟨⟩
      exact hkey
    · refine quiet_outline (.bind (.result _) fun handle => ?_)
      split
      · exact .bind (.throw _) fun _ => .bind (store_quiet _) fun _ => .bind (.ask trivial) fun _ => .result _
      · exact .bind (store_quiet _) fun _ => .bind (.ask trivial) fun _ => .result _
  | legacy =>
    exact Outline.raising_bind (Q := fun _ _ => True) (launch_outline (fun _ _ => trivial)
      fun h env => ⟨_, rfl, rfl, Eq.refl a.runId, rfl, fun key hk => nomatch hk⟩) fun r => quiet_outline (.result _)

theorem activation_ticket {h : History} {env : Environment} {runId : String} {lease : LeaseArgs} {clock : Clock}
    (hI : LaunchInv h) (hr : (act dg h.state env (.store (.activateWorkerRun runId lease clock))).1 = .ok true) :
    Ticket i runId (extended dg h i env (.store (.activateWorkerRun runId lease clock))) := by
  have hactivated : activatedRun (eventOf dg h i env (.store (.activateWorkerRun runId lease clock))) =
      some (i, runId) := by
    have hg : granted (act dg h.state env (.store (.activateWorkerRun runId lease clock))).1 = true :=
      decide_eq_true hr
    simp only [eventOf, activatedRun, hg, if_true]
  refine ⟨?_, List.eq_nil_iff_forall_not_mem.mpr fun l hl => ?_⟩
  · rw [extended_trace, activations_concat, hactivated]
    simp
  · -- an earlier launch would belong to an earlier activation, after which the run is not STARTING
    rw [extended_trace, firstLaunches, launches_quiet (launchOf_quiet (c := .store _) trivial)] at hl
    obtain ⟨run, hrun, hs⟩ := hI.begun runId _ (hI.launched runId l hl).2
    obtain ⟨⟨run', hrun', hs'⟩, _⟩ := activation_begins hr
    rw [hrun] at hrun'
    exact hs (Option.some.inj hrun' ▸ hs')

theorem activation_outline (runId : String) (lease : LeaseArgs) (clock : Clock) :
    RuntimeOutline dg i (fun _ => True) (store (.activateWorkerRun runId lease clock))
      fun b h => b = true → Ticket i runId h := by
  refine Outline.raising_bind (Q := fun (r : Except StoreError Bool) h => r = .ok true → Ticket i runId h)
    (Outline.ask (fun r => ?_) fun h env hI _ =>
      ⟨quiet_step (c := .store _) trivial hI, step_extends, fun hr => activation_ticket hI hr⟩)
    fun r => Outline.result fun b h hb hI ht hr => ?_
  · intro j h h' hj hI hI' hg ht hr
    exact ticket_stable i runId j h h' hj hI hI' hg (ht hr)
  · cases r with
    | ok =>
      obtain rfl := Except.ok.inj hb
      exact ht (by rw [hr])
    | error => cases hb

theorem getProviderJob_outline (runId : String) : RuntimeOutline dg i (Ticket i runId) (getProviderJob runId)
    fun job h => Ticket i runId h ∧ job.idempotencyKey = idempotencyKey runId := by
  refine Outline.raising_bind (Q := fun db h => Ticket i runId h ∧
    ∀ job, db.jobs.get? runId = some job → job.idempotencyKey = idempotencyKey runId)
    (Outline.ask (fun db => (ticket_stable i runId).and (Stable.const _)) fun h env hI ht =>
      ⟨quiet_step (c := .read) trivial hI, step_extends, ticket_kept (c := .read) trivial ht,
        fun job hjob => hI.keyed runId job hjob⟩) fun db => present_outline fun job h hjob hdb => ?_
  exact ⟨hdb.1, hdb.2 job hjob⟩

theorem executeWorker_outline (a : Assignment) :
    RuntimeOutline dg i (fun _ => True) (executeWorker s a) fun _ _ => True := by
  refine Outline.raising_bind (activation_outline _ _ _) fun activated => ?_
  split
  · rename_i hactivated
    refine Outline.weaken (ψ := Ticket i a.runId) ?_ fun h _ ht => ht hactivated
    refine Outline.raising_bind (present_outline fun _ _ _ ht => ht) fun kind =>
      Outline.raising_bind (getProviderJob_outline a.runId) fun job => Outline.of_const fun hkey =>
      Outline.raising_bind (Q := fun _ _ => True) (Outline.attempt (Q := fun _ _ => True)
        ((launch_under_ticket s a kind job hkey).post fun _ _ _ => trivial)) fun r => quiet_outline ?_
    split
    · exact quietly.persistWorkerResult s (quiet_finalizes s _ _) _
    · exact launchFailed_quiet s a kind _
  · exact fun _ _ _ => trivial

/-! ## Recovery -/

/-- Every job of the list is persisted as it was read. -/
def AllKnown (jobs : List RecoveredJob) (h : History) : Prop := ∀ j ∈ jobs, Known j h

theorem allKnown_stable (jobs : List RecoveredJob) : Stable LaunchInv RuntimeStep i (AllKnown jobs) :=
  fun _ _ _ _ _ _ hg h j hj => known_mono hg (h j hj)

theorem allKnown_always (jobs : List RecoveredJob) (hp : Quiet p) :
    Outline (machine dg).traced LaunchInv RuntimeStep i (AllKnown jobs) p.run fun _ => AllKnown jobs :=
  Outline.always (allKnown_stable jobs) hp fun _ _ _ hc hI hh =>
    ⟨quiet_step hc hI, step_extends, fun j hj => known_mono step_extends (hh j hj)⟩

theorem allKnown_keeps (jobs : List RecoveredJob) (hp : Quiet p) :
    RuntimeOutline dg i (AllKnown jobs) p fun _ => AllKnown jobs :=
  quiet_keeps hp (allKnown_stable jobs) fun _ _ _ _ h j hj => known_mono step_extends (h j hj)

def Observed (i : Nat) (workerId : String) (contract : Contract) (h : History) : Prop :=
  (⟨i, .contract workerId, contract⟩ : RuntimeEvent) ∈ h.trace

theorem observed_stable (workerId : String) (contract : Contract) :
    Stable LaunchInv RuntimeStep i (Observed i workerId contract) := by
  rintro j h h' _ _ _ ⟨_, c, r, htrace⟩ hobs
  unfold Observed
  rw [htrace]
  exact List.mem_append_left _ hobs

variable {j : RecoveredJob}

/-- A replay backed by both promises keeps the invariant. -/
theorem replay_step {h : History} {env : Environment} {contract : Contract} (hI : LaunchInv h) (hj : Known j h)
    (hobs : Observed i j.job.workerId contract h) (hboth : j.job.capabilities.supportsProviderIdempotency = true ∧
      contract.capabilities.supportsProviderIdempotency = true) :
    LaunchInv (extended dg h i env (.startJob j.job.workerId j.runId j.job.idempotencyKey
      (.replay j.job.capabilities.supportsProviderIdempotency contract.capabilities.supportsProviderIdempotency))) := by
  rw [hboth.1, hboth.2]
  obtain ⟨job, hjob, hcap, hkey⟩ := hj
  refine inv_of_launch hI (fun runId => ?_) fun l hl => ?_
  · rw [extended_trace, firstLaunches_concat]
    refine le_trans (le_of_eq ?_) (hI.firstLaunches_le runId)
    by_cases hrun : j.runId = runId <;> simp [eventOf, launchOf, hrun, Launch.deduplicated]
  · obtain rfl := Option.some.inj hl
    refine ⟨fun hd => absurd hd (by simp [Launch.deduplicated]), ?_, fun _ => ⟨⟨job, hjob, hcap ▸ hboth.1⟩, contract,
      hboth.2, hobs⟩⟩
    rintro key ⟨⟩
    exact hkey

variable {jobs all : List RecoveredJob}

theorem replayLaunch_outline (hmem : j ∈ jobs) (contract : Contract) (generation : Nat) :
    RuntimeOutline dg i (fun h => AllKnown jobs h ∧ Observed i j.job.workerId contract h)
      (replayLaunch s j contract generation) fun _ => AllKnown jobs := by
  unfold replayLaunch
  split
  · exact fun h _ hh => hh.1
  rename_i hboth
  have hboth : j.job.capabilities.supportsProviderIdempotency = true ∧
      contract.capabilities.supportsProviderIdempotency = true := by simpa using hboth
  have hlaunched : Outline (machine dg).traced LaunchInv RuntimeStep i
      (fun h => AllKnown jobs h ∧ Observed i j.job.workerId contract h)
      (ask (.startJob j.job.workerId j.runId j.job.idempotencyKey
        (.replay j.job.capabilities.supportsProviderIdempotency
        contract.capabilities.supportsProviderIdempotency))).run fun _ => AllKnown jobs :=
    Outline.bind (Outline.perform (fun _ => allKnown_stable jobs) fun h env hI hh =>
      ⟨replay_step hI (hh.1 j hmem) hh.2 hboth, step_extends, fun k hk => known_mono step_extends (hh.1 k hk)⟩)
      fun _ _ _ hh => hh
  refine Outline.raising_bind (Outline.attempt (Q := fun _ => AllKnown jobs) (Outline.bind hlaunched fun r => ?_))
    fun r => ?_
  · cases r with
    | error => exact fun _ _ hh => hh
    | ok =>
      refine allKnown_always jobs (.bind (.result _) fun handle => ?_)
      split
      · exact .bind (.throw _) fun _ => store_quiet _
      · exact store_quiet _
  · split <;> exact fun _ _ hh => hh

theorem contract_outline (jobs : List RecoveredJob) (workerId : String) :
    RuntimeOutline dg i (AllKnown jobs) (ask (.contract workerId))
      fun contract h => AllKnown jobs h ∧ Observed i workerId contract h := by
  refine Outline.ask (fun contract => (allKnown_stable jobs).and (observed_stable workerId contract)) fun h env hI hh =>
    ⟨quiet_step (c := .contract _) trivial hI, step_extends, fun j hj => known_mono step_extends (hh j hj), ?_⟩
  exact List.mem_append_right _ (List.mem_singleton.mpr rfl)

theorem reconcileJob_outline (hmem : j ∈ jobs) (alone : Bool) (generation : Nat) (r : Reconciliation) :
    RuntimeOutline dg i (AllKnown jobs) (reconcileJob s alone generation j r) fun _ => AllKnown jobs := by
  unfold reconcileJob
  split
  · exact allKnown_keeps jobs (quietly.holdJob s _ _ _ _)
  refine Outline.raising_bind (allKnown_keeps jobs (.ask trivial)) fun negotiated => ?_
  split
  · exact allKnown_keeps jobs (quietly.holdJob s _ _ _ _)
  refine Outline.raising_bind (contract_outline jobs _) fun contract => ?_
  split
  · exact (allKnown_keeps jobs (quietly.holdJob s _ _ _ _)).weaken fun _ _ hh => hh.1
  split
  · exact (allKnown_keeps jobs (observeJob_quiet s _ _ _ _ _)).weaken fun _ _ hh => hh.1
  refine Outline.raising_bind (replayLaunch_outline s hmem contract generation) fun replayed => ?_
  split
  · exact allKnown_keeps jobs (observeJob_quiet s _ _ _ _ _)
  · exact allKnown_keeps jobs (quietly.holdJob s _ _ _ _)

theorem reconcileJobs_outline (alone : Bool) (generation : Nat) :
    ∀ (js : List RecoveredJob) (r : Reconciliation), js ⊆ jobs →
      RuntimeOutline dg i (AllKnown jobs) (reconcileJobs s alone generation js r) fun _ => AllKnown jobs
  | [], _, _ => fun _ _ hh => hh
  | j :: js, r, hsub => Outline.raising_bind (reconcileJob_outline s (hsub List.mem_cons_self) alone generation r)
      fun r => reconcileJobs_outline alone generation js r fun _ hk => hsub (List.mem_cons_of_mem j hk)

theorem reconcileClaimedProviderJobs_outline (hsub : jobs ⊆ all) (taskId : String) (generation : Nat) :
    RuntimeOutline dg i (AllKnown all) (reconcileClaimedProviderJobs s taskId jobs generation)
      fun _ => AllKnown all := by
  refine Outline.raising_bind (allKnown_keeps all (quietly.getTask _)) fun _ =>
    Outline.raising_bind (reconcileJobs_outline s _ _ jobs _ hsub) fun r => allKnown_keeps all ?_
  split
  · exact .bind (quietly.resumeTask s (quiet_moves s _ _)) fun _ => .bind (.ask trivial) fun _ => .pure _
  split
  · exact .bind (quietly.resumeTask s (quiet_moves s _ _)) fun _ =>
      .bind (quietly.finishTaskAttempt s (quiet_moves s _ _) _) fun _ => .pure _
  split
  · exact .bind (quietly.markTaskWaitingForReconciliation s _ _ _) fun _ => .pure _
  · exact .pure _

theorem recoverProviderJobs_outline (hsub : jobs ⊆ all) (taskId : String) :
    RuntimeOutline dg i (AllKnown all) (recoverProviderJobs s taskId jobs) fun _ => AllKnown all := by
  refine Outline.raising_bind (allKnown_keeps all (.ask trivial)) fun active => ?_
  split
  · exact fun _ _ hh => hh
  refine Outline.raising_bind (allKnown_keeps all (store_quiet _)) fun claimed => ?_
  split
  · exact fun _ _ hh => hh
  rename_i generation
  refine Outline.raising_bind (Outline.attempt (Q := onOk fun _ => AllKnown all) ?_) fun r => ?_
  · unfold reconcileUnowned
    split
    · exact allKnown_keeps all
        (.bind (quietly.recoverCancelledProviderJobs s (fun _ _ => cancelWorkerRun_quiet s _ _ _) _) fun _ => .pure _)
    · exact reconcileClaimedProviderJobs_outline s hsub taskId generation
  · split
    · exact fun _ _ hh => hh
    · exact allKnown_keeps all (quietly.releaseLease s _ _)
    · refine Outline.raising_bind (quiet_outline (quietly.releaseLease s _ _)) fun _ _ _ _ => trivial

theorem jobsByTask_subset {e : String × List RecoveredJob} (he : e ∈ jobsByTask jobs) :
    e.2 ⊆ jobs := by
  obtain ⟨t, _, rfl⟩ := List.mem_map.mp he
  exact List.filter_subset_self _

theorem recoverDurableProviderJobs_outline (taskIds : Option (List String)) :
    RuntimeOutline dg i (fun _ => True) (recoverDurableProviderJobs s taskIds) fun _ _ => True := by
  refine Outline.raising_bind (Q := AllKnown) (Outline.ask allKnown_stable fun h env hI _ =>
    ⟨quiet_step (c := .reconcilableJobs) trivial hI, step_extends, ?_⟩) fun jobs => ?_
  · intro j hj
    have hjob := reconcilableJobs_known hj
    exact ⟨j.job, hjob, rfl, hI.keyed _ _ hjob⟩
  · refine Outline.post (Q := onOk fun _ => AllKnown jobs) (Outline.forM fun e he => ?_) fun r h _ => onOk_true r h
    exact recoverProviderJobs_outline s (fun j hj => List.filter_subset_self _ (jobsByTask_subset he hj)) e.1

theorem recover_outline (taskIds : Option (List String)) :
    RuntimeOutline dg i (fun _ => True) (recover s taskIds) fun _ _ => True := by
  refine Outline.raising_bind (quiet_outline (.ask trivial)) fun db => Outline.raising_bind
    (quiet_outline (.forM fun task _ => quietly.repairFinalizedProviderAttempt s taskIds fun _ => quiet_moves s _ _))
      fun _ =>
    Outline.raising_bind (recoverDurableProviderJobs_outline s taskIds) fun _ => quiet_outline ?_
  exact .bind (store_quiet _) fun _ => .bind (.ask trivial) fun _ =>
    .bind (.forM fun e _ => .bind (quietly.account _) fun _ => .pure _) fun _ => .bind (.ask trivial) fun _ =>
    .bind (.forM fun task _ => quietly.requeueInterrupted s taskIds fun _ _ => .ask trivial) fun _ =>
    quietly.auditPendingTerminalTasks taskIds

end

/-! ## Every schedule -/

section

variable {i : Nat}

theorem runCoroutine_outline (index polls : Nat) :
    RuntimeOutline dg i (fun _ => True) (runCoroutine index polls) fun _ _ => True := by
  refine Outline.raising_bind (quiet_outline (.ask trivial)) fun coroutine => ?_
  cases coroutine with
  | none => exact fun _ _ _ => trivial
  | some coroutine =>
    refine Outline.raising_bind (Q := fun _ _ => True) (Outline.attempt (Outline.post
      (Q := onOk fun _ _ => True) ?_ fun _ _ _ => trivial)) fun r => quiet_outline ?_
    · cases coroutine with
      | executeTask s => exact quiet_outline (quietly.executeTask s (quiet_moves s _ _) _ _ _ (.ask trivial))
      | executeWorker s assignment => exact executeWorker_outline s assignment
      | reattach s => exact quiet_outline (quietly.reattachProviderTask s (quiet_moves s _ _) _ _ (.ask trivial))
      | resumeOne s => exact quiet_outline (quietly.resumeOne s (quiet_finalizes s _ _))
    · split <;> exact .ask trivial

theorem handle_outline (admitted : StoreOp → Bool) (request : Request) :
    RuntimeOutline dg i (fun _ => True) (handle admitted request) fun _ _ => True := by
  cases request with
  | dispatch s taskIds prior => exact quiet_outline (dispatchReady_quiet s taskIds prior)
  | recover s taskIds => exact recover_outline s taskIds
  | cancel s taskId =>
      exact quiet_outline (.bind (quietly.cancelTask s (fun _ _ _ => cancelWorkerRun_quiet s _ _ _) taskId) fun _ =>
      .pure _)
  | coroutine index polls => exact runCoroutine_outline index polls
  | audit taskId => exact quiet_outline (quietly.auditTask taskId)
  | auditPending taskIds => exact quiet_outline (quietly.auditPendingTerminalTasks taskIds)
  | client op =>
    refine quiet_outline ?_
    show Quiet (if admitted op then _ else _)
    split
    · exact .bind (store_quiet op) fun _ => .pure _
    · exact .pure _

theorem serve_outline (admitted : StoreOp → Bool) (request : Request) :
    Outline (machine dg).traced LaunchInv RuntimeStep i
    (fun _ => True) (serve admitted i request) fun _ _ => True :=
  Outline.bind (handle_outline admitted request) fun _ _ _ _ => trivial

end

/-- The history of a schedule from an empty database. -/
def history (dg : Digests) (moves : List (Move Nat Request Environment)) : History :=
  ((Pool.quiet ⟨World.initial, []⟩).run (machine dg).traced (serve fun _ => true) moves).shared

theorem initial_inv : LaunchInv ⟨World.initial, []⟩ where
  toActivatedOnce := initial_activatedOnce
  keyed _ _ h := nomatch h
  firstLaunches_le _ := Nat.zero_le 1
  launched _ _ h := nomatch h
  keys _ _ h := nomatch h
  replayed _ _ h := nomatch h

/-- **At most one launch.**  Any number of processes dispatch, execute, recover and cancel, any number of clients use
the store, calls interleave in every order and processes crash anywhere.  For every run, at most one call that crosses
the launch boundary is not a deduplicated replay; every launch of a durable job carries the idempotency key of its run;
and a replay is made only if the persisted job and the contract that the replaying process observed both promise
provider idempotency. -/
theorem launch_at_most_once (dg : Digests) (moves : List (Move Nat Request Environment)) (runId : String) :
    (firstLaunches (history dg moves).trace runId).length ≤ 1 ∧
      (∀ l ∈ launches (history dg moves).trace runId, ∀ key ∈ l.idempotencyKey, key = idempotencyKey runId) ∧
      ∀ l ∈ launches (history dg moves).trace runId, l.basis ≠ .activation →
        l.basis = .replay true true ∧
        (∃ job, (history dg moves).state.db.jobs.get? runId = some job ∧
          job.capabilities.supportsProviderIdempotency = true) ∧
        ∃ contract : Contract, contract.capabilities.supportsProviderIdempotency = true ∧
          (⟨l.thread, .contract l.workerId, contract⟩ : RuntimeEvent) ∈ (history dg moves).trace := by
  have hinv : LaunchInv (history dg moves) := 
    Pool.run_invariant (fun _ request => serve_outline _ request) initial_inv moves
  refine ⟨hinv.firstLaunches_le runId, hinv.keys runId, fun l hl hbasis => ?_⟩
  have hdedup : l.deduplicated = true := by
    by_contra hd
    exact hbasis (hinv.launched runId l (List.mem_filter.mpr ⟨hl, by simpa using hd⟩)).1
  exact ⟨of_decide_eq_true hdedup, hinv.replayed runId l hl hdedup⟩

end AgentFabric.Runtime
