import AgentFabric.Runtime.Ownership

/-!
# A worker never runs twice

Two active runs never have one worker, as long as every worker is registered once.
-/

namespace AgentFabric.Runtime

open AgentFabric.Lib AgentFabric.Store

variable {dg : Digests}

/-! ## What survives -/

/-- No call of anybody undoes it. -/
def Enduring (φ : History → Prop) : Prop := ∀ j h h', OwnerStep j h h' → φ h → φ h'

/-- It survives the calls of the others, and the tame calls of the coroutine itself. -/
structure Lasting (dg : Digests) (i : Nat) (φ : History → Prop) : Prop where
  stable : Stable Books OwnerStep i φ
  own : ∀ h env c, c.tame (fun _ => False) → φ h → φ (extended dg h i env c)

section

variable {i : Nat} {φ ψ : History → Prop} {α : Type}

theorem Enduring.stable (hφ : Enduring φ) : Stable Books OwnerStep i φ := fun j h h' _ _ _ hg hh => hφ j h h' hg hh

theorem Enduring.lasting (dg : Digests) (hφ : Enduring φ) : Lasting dg i φ :=
  ⟨hφ.stable, fun h _ _ hc hh => hφ i h _ (step_fences hc.accounted) hh⟩

theorem Enduring.true : Enduring fun _ => True := fun _ _ _ _ h => h

theorem Enduring.and (hφ : Enduring φ) (hψ : Enduring ψ) : Enduring fun h => φ h ∧ ψ h :=
  fun j h h' hg hh => ⟨hφ j h h' hg hh.1, hψ j h h' hg hh.2⟩

theorem Lasting.and (hφ : Lasting dg i φ) (hψ : Lasting dg i ψ) : Lasting dg i fun h => φ h ∧ ψ h :=
  ⟨hφ.stable.and hψ.stable, fun h env c hc hh => ⟨hφ.own h env c hc hh.1, hψ.own h env c hc hh.2⟩⟩

theorem enduring_reconciles (runId : String) : Enduring (Reconciles runId) := fun _ _ _ hg h => reconciles_mono hg h

theorem enduring_assignment (s : Supervisor) (a : Assignment) : Enduring (AssignmentOk s a) :=
  fun _ _ _ hg h => assignmentOk_mono hg h

theorem enduring_coroutine (c : Coroutine) : Enduring fun h => CoroutineOk h c :=
    fun _ _ _ hg h => coroutineOk_mono hg h

theorem enduring_fenced (t : String) (g : Nat) : Enduring fun h => Fenced h.state.db t g := by
  rintro j h h' ⟨hkept, _⟩ ⟨lease, hl, hle, hactive⟩
  obtain ⟨lease', hl', hgen⟩ := hkept.leases t lease hl
  refine ⟨lease', hl', by omega, fun hs => ?_⟩
  rcases hgen with hlt | ⟨heq, hback⟩
  · omega
  · have := hactive (hback hs)
    omega

variable {env : Environment}

/-- A tame call ends no run. -/
theorem tame_ends_nothing {h : History} {c : Call} (hc : c.tame fun _ => False) :
    endedRun (eventOf dg h i env c) = none := by
  cases he : endedRun (eventOf dg h i env c) with
  | none => rfl
  | some p =>
    obtain ⟨_, ⟨_, _, _, rfl⟩ | ⟨_, _, _, _, _, rfl⟩, _⟩ := endedRun_some he
    · cases hc
    · exact hc.elim

theorem endedRun_thread {e : RuntimeEvent} {p : Nat × String} (he : endedRun e = some p) : p.1 = e.thread := by
  unfold endedRun at he
  split at he
  · exact congrArg Prod.fst (Option.some.inj he).symm
  · exact congrArg Prod.fst (Option.some.inj he).symm
  · cases he

theorem lasting_mine (dg : Digests) (runId : String) : Lasting dg i (Mine i runId) := by
  constructor
  · rintro j h h' hj _ _ ⟨_, c, r, htrace⟩ ⟨hact, hopen⟩
    rw [Mine, htrace]
    refine ⟨activations_mono hact, fun hend => ?_⟩
    rcases mem_endings_concat.mp hend with hend | hend
    · exact hopen hend
    · exact hj (endedRun_thread hend).symm
  · rintro h env c hc ⟨hact, hopen⟩
    refine ⟨activations_mono hact, fun hend => ?_⟩
    rcases mem_endings_concat.mp hend with hend | hend
    · exact hopen hend
    · exact absurd (hend.symm.trans (tame_ends_nothing hc)) (fun h => nomatch h)

theorem lasting_owes (dg : Digests) (workerId : String) : Lasting dg i (Owes i workerId) := by
  constructor
  · rintro j h h' hj _ _ ⟨hkept, c, r, htrace⟩ ⟨runId, run, howed, hr, hw⟩
    obtain ⟨run', hr', _, hw', _⟩ := hkept.runs runId run hr
    refine ⟨runId, run', ?_, hr', hw'.trans hw⟩
    rw [htrace, owed_concat, owedAfter]
    split
    · exact List.mem_cons_of_mem _ howed
    · split
      · exact List.mem_filter.mpr ⟨howed, decide_eq_true (Ne.symm hj)⟩
      · exact howed
  · rintro h env c hc ⟨runId, run, howed, hr, hw⟩
    obtain ⟨run', hr', _, hw', _⟩ := (act_kept dg h.state env c).runs runId run hr
    obtain ⟨hfail, hfree⟩ : failedRun (eventOf dg h i env c) = none ∧ freesWorker (eventOf dg h i env c) = false :=
      tame_quiet hc
    refine ⟨runId, run', ?_, hr', hw'.trans hw⟩
    rw [extended_trace, owed_quiet hfail hfree]
    exact howed

/-! ## Programs that keep the books -/

/-- Programs that keep the books and what their coroutine knows. -/
abbrev Owned (dg : Digests) (i : Nat) (φ : History → Prop) {α : Type} (p : Program α) : Prop :=
  Keeps (machine dg).traced Books OwnerStep i φ p

abbrev OwnerOutline (dg : Digests) (i : Nat) {α : Type} (φ : History → Prop) (p : Program α)
    (Q : α → History → Prop) : Prop :=
  Outline (machine dg).traced Books OwnerStep i φ p.run (onOk Q)

/-- An ordinary call is tame. -/
theorem ordinary_tame {c : Call} (hc : c.ordinary = true) : c.tame fun _ => False := by
  cases c with
  | store op => cases op <;> simp_all [Call.ordinary, ordinaryOp, Call.tame, StoreOp.tame, StoreOp.accounted]
  | create xs => cases hc
  | _ => trivial

/-- A tame call keeps the books. -/
theorem owned_ask {c : Call} (hφ : Lasting dg i φ) (hc : c.tame fun _ => False) : Owned dg i φ (ask c) :=
  .ask hφ.stable fun h env hB hh =>
    ⟨tame_step hB hc fun _ hf => hf.elim, step_fences hc.accounted, hφ.own h env c hc hh⟩

/-- Programs that keep the books are a discipline. -/
theorem owning (hφ : Lasting dg i φ) : Discipline fun p => Owned dg i φ p :=
  .of_calls (fun x => .result x) .bind .attempt (fun _ hc => owned_ask hφ (ordinary_tame hc))
    fun _ _ => owned_ask hφ trivial

variable (s : Supervisor)

/-- A task may be moved on. -/
theorem owned_moves (hφ : Lasting dg i φ) (taskId : String) (generation : Nat) :
    MayMove (fun p => Owned dg i φ p) s taskId generation := fun _ _ h => owned_ask hφ h

variable {runId : String}

/-- A run may be finalized if its job can be reconciled. -/
theorem owned_finalizes (hφ : Enduring φ) (hr : ∀ h, φ h → Reconciles runId h) (generation : Nat) :
    MayFinalize (fun p => Owned dg i φ p) s runId generation := by
  intro target detail release _
  refine .ask hφ.stable fun h env hB hh => ⟨?_, step_fences trivial, hφ i h _ (step_fences trivial) hh⟩
  exact tame_step (F := fun id => id = runId) hB rfl fun id hid => Or.inl (hid ▸ hr h hh)

/-- Coroutines with sound assignments may be created. -/
theorem owned_create {xs : List Coroutine} (hφ : Enduring φ) (hx : ∀ h, φ h → ∀ x ∈ xs, CoroutineOk h x) :
    Owned dg i φ (ask (.create xs)) :=
  .ask hφ.stable fun h _ hB hh =>
    ⟨create_step hB (hx h hh), step_fences trivial, hφ i h _ (step_fences trivial) hh⟩

/-! ## One run -/

/-- A run belongs to the thread that activated it. -/
theorem activation_mine {h : History} {lease : LeaseArgs} {clock : Clock} (hB : Books h)
    (hr : (act dg h.state env (.store (.activateWorkerRun runId lease clock))).1 = .ok true) :
    Mine i runId (extended dg h i env (.store (.activateWorkerRun runId lease clock))) := by
  have hactivated : activatedRun (eventOf dg h i env (.store (.activateWorkerRun runId lease clock))) =
      some (i, runId) := by
    have hg : granted (act dg h.state env (.store (.activateWorkerRun runId lease clock))).1 = true :=
      decide_eq_true hr
    simp only [eventOf, activatedRun, hg, if_true]
  refine ⟨?_, fun hend => ?_⟩
  · rw [extended_trace, activations_concat, hactivated]
    simp
  · -- a run that was ended before is not STARTING
    rcases mem_endings_concat.mp hend with hend | hend
    · obtain ⟨_, run, hrun, hs⟩ := hB.ended _ hend
      obtain ⟨⟨run', hrun', hs'⟩, _⟩ := activation_begins hr
      rw [hrun] at hrun'
      rw [Option.some.inj hrun', hs'] at hs
      cases hs
    · cases hend

/-- What the coroutine of an activated run knows. -/
def Charge (s : Supervisor) (i : Nat) (a : Assignment) (h : History) : Prop := AssignmentOk s a h ∧ Mine i a.runId h

theorem lasting_charge (dg : Digests) (a : Assignment) : Lasting dg i (Charge s i a) :=
  ((enduring_assignment s a).lasting dg).and (lasting_mine dg a.runId)

/-- An activation puts the run in the charge of its thread. -/
theorem activate_owned (a : Assignment) : OwnerOutline dg i (AssignmentOk s a)
    (store (.activateWorkerRun a.runId (leaseArgs s a.generation) unstamped))
    fun b h => b = true → Charge s i a h := by
  refine store_outline (fun b => ?_) fun h env hB ha => ⟨tame_step (F := fun _ => False) hB trivial fun _ hf => hf.elim,
    step_fences trivial, fun b hr hb => ⟨enduring_assignment s a i h _ (step_fences trivial) ha, ?_⟩⟩
  · intro j h h' hj hB hB' hg hm hb
    exact (lasting_charge s dg a).stable j h h' hj hB hB' hg (hm hb)
  · exact activation_mine hB (hb ▸ hr)

/-- A launch keeps the run in charge. -/
theorem launch_owned (a : Assignment) (kind : AdapterKind) (job : JobRow) :
    Owned dg i (Charge s i a) (launch s a kind job) := by
  have hK := owning (lasting_charge (i := i) s dg a)
  refine hK.bind (hK.store _ rfl) fun _ => ?_
  cases kind with
  | durable =>
    refine hK.bind (owned_ask (lasting_charge s dg a) trivial) fun r => hK.bind (hK.answered _) fun handle => ?_
    split
    · exact hK.bind (hK.throw _) fun _ => hK.bind (hK.transact (owned_ask (lasting_charge s dg a) trivial)) fun _ =>
        hK.bind (hK.call (.resumeJob _ _ _ _) rfl) fun _ => hK.answered _
    · exact hK.bind (hK.transact (owned_ask (lasting_charge s dg a) trivial)) fun _ =>
        hK.bind (hK.call (.resumeJob _ _ _ _) rfl) fun _ => hK.answered _
  | legacy => exact hK.bind (owned_ask (lasting_charge s dg a) trivial) fun _ => hK.answered _

/-- The result of a run in charge may be persisted. -/
theorem persistWorkerResult_owned (a : Assignment) (result : WorkerResult) :
    OwnerOutline dg i (Charge s i a) (persistWorkerResult s a.runId a.generation result) fun _ _ => True := by
  have hK := owning (lasting_charge (i := i) s dg a)
  refine Outline.raising_bind (hK.account _).onOk fun ledger => Outline.raising_bind (hK.store _ rfl).onOk fun _ =>
    Outline.raising_bind (hK.account _).onOk fun evidence => ?_
  refine store_outline (fun _ => Stable.true) fun h env hB hc => ⟨?_, step_fences trivial, fun _ _ => trivial⟩
  exact tame_step (F := fun id => id = a.runId) hB rfl fun id hid => Or.inr (hid ▸ hc.2)

theorem failLegacyRun_owned (a : Assignment) (hk : s.adapters a.workerId = some .legacy) (error : Raised) :
    OwnerOutline dg i (Charge s i a) (failLegacyRun s a error) fun _ _ => True := by
  have hK := owning (lasting_owes (i := i) dg a.workerId)
  have hT := owning (i := i) (Enduring.true.lasting dg)
  refine Outline.raising_bind (Q := fun _ => Owes i a.workerId) ?_ fun _ =>
    Outline.raising_bind (hK.account _).onOk fun _ => Outline.raising_bind (Q := fun _ _ => True) ?_ fun _ =>
    (hT.bind (hT.account _) fun _ => hT.throw _).onOk
  · refine store_outline (fun _ => (lasting_owes dg a.workerId).stable) fun h env hB hc =>
      ⟨fail_step hB hc.2 (hc.1.legacy hk), step_fences (Or.inr rfl), fun _ hr => ?_⟩
    obtain ⟨run, hrun, _, hw⟩ := hc.1.run
    obtain ⟨run', hrun', _, hw', _⟩ := (act_kept dg h.state env (.store _)).runs a.runId run hrun
    refine ⟨a.runId, run', ?_, hrun', hw'.trans hw⟩
    rw [extended_trace, owed_concat]
    change _ ∈ owedAfter _ ⟨i, _, (act dg h.state env _).1⟩
    rw [hr]
    exact List.mem_cons_self
  · exact store_outline (fun _ => Stable.true) fun h env hB ho =>
      ⟨release_step hB ho, step_fences trivial, fun _ _ => trivial⟩

theorem getTask_owned (a : Assignment) : OwnerOutline dg i (Charge s i a) (getTask a.taskId)
    fun task h => Charge s i a h ∧ (task.state = .cancelled → Fenced h.state.db a.taskId a.generation) := by
  refine Outline.raising_bind (Q := fun db h => Charge s i a h ∧
    ∀ task, db.tasks.get? a.taskId = some task → task.state = .cancelled → Fenced h.state.db a.taskId a.generation)
    (Outline.ask (fun db => (lasting_charge s dg a).stable.and ?_) fun h env hB hc =>
      ⟨tame_step (F := fun _ => False) hB trivial fun _ hf => hf.elim, step_fences (c := .read) trivial,
        (lasting_charge s dg a).own h env .read trivial hc, fun task ht hs => hc.1.granted.cancelled ⟨task, ht, hs⟩⟩)
    fun db => present_outline fun task h ht hq => ⟨hq.1, hq.2 task ht⟩
  intro j h h' hj _ _ hg hq task ht hs
  exact enduring_fenced a.taskId a.generation j h h' hg (hq task ht hs)

/-- No run is moved under a fenced lease. -/
theorem fenced_refuses {h : History} {a : Assignment} {target : RunState} {detail : RunDetail}
    (ha : AssignmentOk s a h) (hf : Fenced h.state.db a.taskId a.generation) :
    ∃ e, (act dg h.state env
      (.store (.transitionWorkerRun a.runId target detail (leaseArgs s a.generation) unstamped))).1 = .error e := by
  rcases act_store dg h.state env (.transitionWorkerRun a.runId target detail (leaseArgs s a.generation) unstamped) with
    ⟨clock, uuid, r, hexec, _⟩ | ⟨hr, _⟩
  · obtain ⟨run, hrun, hl, _⟩ := transitionWorkerRun_ok hexec
    obtain ⟨run', hrun', ht, _⟩ := ha.run
    rw [hrun] at hrun'
    obtain rfl := Option.some.inj hrun'
    rw [ht] at hl
    rcases requireLeaseArgs_eq_ok.mp hl with habsent | ⟨owner, generation, hheld, hcurrent⟩
    · cases habsent
    · cases hheld
      rw [hf.not_current] at hcurrent
      cases hcurrent
  · exact hr

theorem holdCancelled_owned (a : Assignment) {detail : RunDetail} {rest : Program Unit} :
    OwnerOutline dg i (fun h => AssignmentOk s a h ∧ Fenced h.state.db a.taskId a.generation) (do
      store (.transitionWorkerRun a.runId .cancelled detail (leaseArgs s a.generation) unstamped)
      rest) fun _ _ => True := by
  refine Outline.raising_bind (Q := fun _ _ => False) (store_outline (fun _ => Stable.const _) fun h env hB hc => ?_)
    fun _ => Outline.unreached fun _ h => h
  have hr : ∃ e, (act dg h.state env
      (.store (.transitionWorkerRun a.runId .cancelled detail (leaseArgs s a.generation) unstamped))).1 = .error e :=
    fenced_refuses s hc.1 hc.2
  refine ⟨refused_step hB hr, refused_fences hr, fun r hok => ?_⟩
  obtain ⟨e, he⟩ := hr
  exact absurd (hok.symm.trans he) fun h => nomatch h

theorem holdAmbiguousProviderJob_owned (a : Assignment) (error : Raised) :
    OwnerOutline dg i (Charge s i a) (holdAmbiguousProviderJob s a error) fun _ _ => True := by
  have hK := owning (lasting_charge (i := i) s dg a)
  have hT := owning (i := i) (Enduring.true.lasting dg)
  refine Outline.raising_bind (hK.getProviderJob _).onOk fun job => Outline.raising_bind (hK.store _ rfl).onOk fun _ =>
    Outline.raising_bind (hK.store _ rfl).onOk fun _ => Outline.raising_bind (getTask_owned s a) fun task => ?_
  split
  · rename_i hcancelled
    exact (holdCancelled_owned s a).weaken fun _ _ hh => ⟨hh.1.1, hh.2 hcancelled⟩
  · refine Outline.weaken (ψ := fun _ => True) (Keeps.onOk ?_) fun _ _ _ => trivial
    refine hT.bind (hT.store _ rfl) fun _ => hT.bind (hT.store _ rfl) fun _ => hT.bind (hT.getTask _) fun task => ?_
    split
    · exact hT.store _ rfl
    · exact hT.pure _

theorem launchFailed_owned (a : Assignment) {kind : AdapterKind} (hk : s.adapters a.workerId = some kind)
    (error : Raised) : OwnerOutline dg i (Charge s i a) (launchFailed s a kind error) fun _ _ => True := by
  unfold launchFailed
  cases kind with
  | legacy => exact failLegacyRun_owned s a hk error
  | durable =>
    dsimp only
    split
    · exact persistWorkerResult_owned s a _
    · exact holdAmbiguousProviderJob_owned s a error

/-- A coroutine that executes a sound assignment keeps the books. -/
theorem executeWorker_owned (a : Assignment) :
    OwnerOutline dg i (AssignmentOk s a) (executeWorker s a) fun _ _ => True := by
  have hK := owning (lasting_charge (i := i) s dg a)
  refine Outline.raising_bind (activate_owned s a) fun activated => ?_
  split
  · rename_i hactivated
    refine Outline.weaken (ψ := Charge s i a) ?_ fun h _ hc => hc hactivated
    refine Outline.raising_bind (Q := fun kind h => Charge s i a h ∧ s.adapters a.workerId = some kind)
      (present_outline fun kind h hk hc => ⟨hc, hk⟩) fun kind => Outline.of_const fun hk =>
      Outline.raising_bind (hK.getProviderJob _).onOk fun job =>
      Outline.raising_bind (Q := fun _ => Charge s i a) (Outline.attempt (launch_owned s a kind job)) fun r => ?_
    split
    · exact persistWorkerResult_owned s a _
    · exact launchFailed_owned s a hk _
  · exact fun _ _ _ => trivial

/-! ## Cancellation -/

theorem cancelWorkerRun_owned (hφ : Enduring φ) (runId : String) (run : RunRow) (generation : Option Nat) :
    Owned dg i φ (cancelWorkerRun s runId run generation) := by
  have hread : ∀ job : Option JobRow, Enduring fun h => φ h ∧
      ((∃ j ∈ job, j.capabilities.supportsReconcile = true) → Reconciles runId h) := fun job => hφ.and
    fun j h h' hg hr hj => enduring_reconciles runId j h h' hg (hr hj)
  refine Outline.ask_bind (Q := fun db h => φ h ∧
    ((∃ j ∈ db.jobs.get? runId, j.capabilities.supportsReconcile = true) → Reconciles runId h))
    (fun db => (hread _).stable) (fun h env hB hh => ⟨tame_step (F := fun _ => False) hB trivial fun _ hf => hf.elim,
      step_fences (c := .read) trivial, hφ i h _ (step_fences (c := .read) trivial) hh, ?_⟩) fun db => ?_
  · rintro ⟨job, hjob, hcap⟩
    exact ⟨job, hjob, hcap⟩
  · refine Outline.post (Discipline.cancelRead (owning ((hread (db.jobs.get? runId)).lasting dg)) s ?_ run)
      fun _ _ hh => hh.1
    exact fun j hj g _ hcap => owned_finalizes s (hread _) (fun h hh => hh.2 ⟨j, hj, hcap⟩) g

/-! ## Dispatch -/

/-- The runs of a claim are there, and its lease was granted. -/
def Claimed (taskId : String) (generation : Nat) (runIds : List (String × String)) (h : History) : Prop :=
  Granted taskId generation h ∧ ∀ e ∈ runIds, ∃ run, h.state.db.runs.get? e.2 = some run ∧ run.taskId = taskId ∧
    run.workerId = e.1

theorem enduring_claimed (taskId : String) (generation : Nat) (runIds : List (String × String)) :
    Enduring (Claimed taskId generation runIds) := by
  intro j h h' hg hc
  refine ⟨granted_mono hg hc.1, fun e he => ?_⟩
  obtain ⟨run, hrun, ht, hw⟩ := hc.2 e he
  obtain ⟨run', hrun', ht', hw', _⟩ := hg.1.runs e.2 run hrun
  exact ⟨run', hrun', ht'.trans ht, hw'.trans hw⟩

/-- What a granted claim has written. -/
theorem claim_claimed {db db' : Db} {args : DispatchArgs} {claim : DispatchClaim} {generation : Nat}
    (h : claimTaskDispatch dg db args = .ok (some claim, db')) (hg : claim.leaseGeneration = some generation) :
    (∃ task, db'.tasks.get? args.taskId = some task ∧ task.state = .running) ∧
    (∃ lease, db'.leases.get? args.taskId = some lease ∧ generation ≤ lease.generation) ∧
    ∀ e ∈ claim.runIds, ∃ run, db'.runs.get? e.2 = some run ∧ run.taskId = args.taskId ∧ run.workerId = e.1 := by
  rcases claimTaskDispatch_ok h with ⟨hnone, _⟩ | ⟨task, runs, ht, _, _, _, _, _, _, hruns, hclaim, rfl⟩
  · cases hnone
  obtain rfl := Option.some.inj hclaim
  obtain ⟨owner, howner, rfl⟩ := Option.map_eq_some_iff.mp hg
  refine ⟨⟨task.claim (timestamp args.now), by simp [ht], rfl⟩, ?_, fun e he => ?_⟩
  · refine ⟨⟨owner, nextGeneration db args.taskId, .active, timestamp (args.now + args.leaseTtl)⟩, ?_, le_refl _⟩
    simp [claimLease, howner, grantLease, Table.get?_upsert]
  · obtain ⟨w, hw, rfl⟩ := List.mem_map.mp he
    refine ⟨startingRun args.taskId w (task.attemptCount + 1) args.timeoutAt task.currentVerificationScopeId
      task.definitionRevision (timestamp args.now), ?_, rfl, rfl⟩
    rw [Table.get?_insertAll hruns]
    exact Or.inr (List.mem_map.mpr ⟨w, hw, rfl⟩)

/-- A claim that is granted has claimed its runs. -/
theorem claim_owned (taskId : String) (args : DispatchArgs) (ht : args.taskId = taskId) :
    OwnerOutline dg i (fun _ => True) (store (.claimTaskDispatch args)) fun reply h => ∀ claim generation,
      reply = some claim → claim.leaseGeneration = some generation → Claimed taskId generation claim.runIds h := by
  refine store_outline (fun reply => ?_) fun h env hB _ =>
    ⟨tame_step (F := fun _ => False) hB trivial fun _ hf => hf.elim,
    step_fences trivial, fun reply hreply claim generation hc hg => ?_⟩
  · intro j h h' _ _ _ hg hq claim generation hc hgen
    exact enduring_claimed _ _ _ j h h' hg (hq claim generation hc hgen)
  · rcases act_store dg h.state env (.claimTaskDispatch args) with ⟨clock, uuid, r, hexec, hok⟩ | ⟨⟨e, he⟩, _⟩
    · rw [hreply] at hok
      obtain rfl := Except.ok.inj hok
      subst hc
      obtain ⟨⟨task, htask, hs⟩, hlease, hruns⟩ := claim_claimed hexec hg
      subst ht
      refine ⟨⟨⟨task, htask⟩, hlease, fun ⟨task', ht', hs'⟩ => ?_⟩, hruns⟩
      have hsame : task = task' := Option.some.inj (htask.symm.trans ht')
      rw [hsame, hs'] at hs
      cases hs
    · rw [he] at hreply
      cases hreply

theorem prepare_owned (hφ : Enduring φ) (runId adapterType instanceId : String) (capabilities : JobCapabilities)
    (generation : Nat) : OwnerOutline dg i φ
      (store (.prepareProviderJob runId adapterType instanceId capabilities (held s generation) "" unstamped))
      fun _ h => φ h ∧ (capabilities.supportsReconcile = false → Unreconciled runId h) := by
  have hend : Enduring fun h => φ h ∧ (capabilities.supportsReconcile = false → Unreconciled runId h) :=
    hφ.and fun j h h' hg hu hc => unreconciled_mono hg (hu hc)
  refine store_outline (fun _ => hend.stable) fun h env hB hh => ⟨tame_step (F := fun _ => False) hB trivial
    fun _ hf => hf.elim, step_fences trivial, fun job hreply => ⟨hφ i h _ (step_fences trivial) hh, fun hc => ?_⟩⟩
  rcases act_store dg h.state env (.prepareProviderJob runId adapterType instanceId capabilities (held s generation) ""
    unstamped) with ⟨clock, uuid, r, hexec, hok⟩ | ⟨⟨e, he⟩, _⟩
  · obtain ⟨run, _, _, ⟨hjob, _, hcap, hdb⟩ | ⟨jobs, hins, hjob, _, hdb⟩⟩ := prepareProviderJob_ok hexec
    · exact ⟨r, by rw [extended_state, hdb]; exact hjob, by rw [hcap]; exact hc⟩
    · refine ⟨r, by rw [extended_state, hdb]; simp [Table.get?_insert hins], ?_⟩
      rw [hjob]
      exact hc
  · rw [he] at hreply
    cases hreply

theorem adapterJobContract_legacy (workerId : String) (contract : Contract) :
    (adapterJobContract workerId .legacy contract).2.2.supportsReconcile = false := rfl

theorem prepareRuns_owned {φ : History → Prop} (hφ : Enduring φ) (generation : Nat) : ∀ runIds : List (String × String),
    OwnerOutline dg i φ (prepareRuns s generation runIds)
      fun _ h => φ h ∧ ∀ e ∈ runIds, s.adapters e.1 = some .legacy → Unreconciled e.2 h
  | [] => fun _ _ hh => ⟨hh, fun _ he => nomatch he⟩
  | (workerId, runId) :: rest => by
    have hK := owning (i := i) (hφ.lasting dg)
    refine Outline.raising_bind (Q := fun kind h => φ h ∧ s.adapters workerId = some kind)
      (present_outline fun kind h hk hh => ⟨hh, hk⟩) fun kind => Outline.of_const fun hk =>
      Outline.raising_bind (hK.call (.contract _) rfl).onOk fun contract =>
      Outline.raising_bind (prepare_owned s hφ runId _ _ _ generation) fun job => ?_
    have hdone : Enduring fun h => φ h ∧
        ((adapterJobContract workerId kind contract).2.2.supportsReconcile = false → Unreconciled runId h) :=
      hφ.and fun j h h' hg hu hc => unreconciled_mono hg (hu hc)
    refine (prepareRuns_owned hdone generation rest).post fun r h hq => ?_
    cases r with
    | error e => trivial
    | ok u =>
      obtain ⟨⟨hh, hu⟩, hrest⟩ := hq
      refine ⟨hh, fun e he hlegacy => ?_⟩
      rcases List.mem_cons.mp he with rfl | he
      · rw [hk] at hlegacy
        obtain rfl := Option.some.inj hlegacy
        exact hu (adapterJobContract_legacy workerId contract)
      · exact hrest e he hlegacy

theorem assignments_mem {taskId : String} {workerIds : List String} {claim : DispatchClaim} {generation : Nat}
    {a : Assignment} (ha : a ∈ assignments taskId workerIds claim generation) :
    a.taskId = taskId ∧ a.generation = generation ∧ (a.workerId, a.runId) ∈ claim.runIds := by
  obtain ⟨w, _, hw⟩ := List.mem_filterMap.mp ha
  obtain ⟨runId, hrun, rfl⟩ := Option.map_eq_some_iff.mp hw
  obtain ⟨before, after, heq, _⟩ := List.lookup_eq_some_iff.mp hrun
  exact ⟨rfl, rfl, by rw [heq]; simp⟩

/-- Claiming and starting an attempt keeps the books. -/
theorem claimAndStart_owned (taskId : String) (task : TaskRow) (workerIds : List String) :
    Owned dg i (fun _ => True) (claimAndStart s taskId task workerIds) := by
  have hT := owning (i := i) (Enduring.true.lasting dg)
  refine Keeps.of_outline (Q := onOk fun _ _ => True) ?_
  refine Outline.raising_bind (claim_owned taskId _ rfl) fun reply => ?_
  split
  · refine Outline.weaken (ψ := fun _ => True) (Keeps.onOk ?_) fun _ _ _ => trivial
    refine hT.bind (hT.getTask _) fun current => ?_
    split
    · exact hT.deferDispatch s _ _ _
    · exact hT.pure _
  · rename_i claim
    refine Outline.raising_bind (Q := fun generation => Claimed taskId generation claim.runIds)
      (present_outline fun generation h hg hq => hq claim generation rfl hg) fun generation =>
      Outline.raising_bind (prepareRuns_owned s (enduring_claimed _ _ _) generation claim.runIds) fun _ => ?_
    refine Outline.raising_bind (Q := fun _ _ => True) (Outline.ask (fun _ => Stable.true) fun h env hB hc =>
      ⟨create_step hB ?_, step_fences trivial, trivial⟩) fun _ _ _ _ => trivial
    intro x hx
    obtain rfl := List.mem_singleton.mp hx
    intro a ha
    obtain ⟨ht, hgen, hmem⟩ := assignments_mem ha
    obtain ⟨⟨hgranted, hruns⟩, hlegacy⟩ := hc
    refine ⟨?_, fun hk => hlegacy _ hmem hk, by rw [ht, hgen]; exact hgranted⟩
    rw [ht]
    exact hruns _ hmem

theorem dispatchReady_owned (taskIds : Option (List String)) (prior : String → String → Bool) :
    Owned dg i (fun _ => True) (dispatchReady s taskIds prior) := by
  have hT := owning (i := i) (Enduring.true.lasting dg)
  refine hT.bind (hT.call .read rfl) fun _ => hT.forM fun task _ => hT.dispatchTask s taskIds ?_ ?_
  · exact fun _ _ h => owned_ask (Enduring.true.lasting dg) h
  · exact fun _ => claimAndStart_owned s _ _ _

/-! ## Recovery -/

/-- The jobs are persisted with the capabilities that were read. -/
def Persisted (jobs : List RecoveredJob) (h : History) : Prop :=
  ∀ j ∈ jobs, ∃ job, h.state.db.jobs.get? j.runId = some job ∧ job.capabilities = j.job.capabilities

theorem enduring_persisted (jobs : List RecoveredJob) : Enduring (Persisted jobs) := by
  intro i h h' hg hp j hj
  obtain ⟨job, hjob, hcap⟩ := hp j hj
  obtain ⟨job', hjob', _, _, hcap'⟩ := hg.1.jobs j.runId job hjob
  exact ⟨job', hjob', hcap'.trans hcap⟩

def AllReconcile (jobs : List RecoveredJob) (h : History) : Prop := ∀ j ∈ jobs, Reconciles j.runId h

theorem enduring_allReconcile (jobs : List RecoveredJob) : Enduring (AllReconcile jobs) :=
  fun _ _ _ hg h j hj => reconciles_mono hg (h j hj)

/-- The reconciliation of a job adds at most this job to those that still run. -/
def Adds (runId : String) (r : Reconciliation) (p : Program Reconciliation) : Prop :=
  p.run.Yields fun x => ∀ r', x = .ok r' → ∀ k ∈ r'.running, k ∈ r.running ∨ k.runId = runId

variable {r r' : Reconciliation}

theorem Adds.bind {p : Program α} {f : α → Program Reconciliation} (hf : ∀ a, Adds runId r (f a)) :
    Adds runId r (p >>= f) := Prog.Yields.raising_bind hf

theorem Adds.pure (h : ∀ k ∈ r'.running, k ∈ r.running ∨ k.runId = runId) :
    Adds runId r (Pure.pure r') := by
  intro x hx
  obtain rfl := Except.ok.inj hx
  exact h

theorem holdJob_adds (runId : String) (code : EscalationCode) (generation : Nat) (hr : r'.running = r.running) :
    Adds runId r (holdJob s runId code generation r') :=
  .bind fun _ => .pure fun _ hk => Or.inl (hr ▸ hk)

/-- Settling a job adds at most this job to those that run. -/
theorem settleJob_adds (j : RecoveredJob) (contract : Contract) (observed : ReconciliationState) (alone : Bool)
    (generation : Nat) (r : Reconciliation) : Adds j.runId r (settleJob s j contract observed alone generation r) := by
  have hcollect : Adds j.runId r (collectJob s j observed generation r) := by
    unfold collectJob
    split
    · exact holdJob_adds s _ _ _ rfl
    refine .bind fun collected => ?_
    split
    · exact .bind fun _ => .pure fun k hk => Or.inl hk
    · exact holdJob_adds s _ _ _ rfl
  cases observed with
  | knownRunning =>
    refine .bind fun _ => ?_
    split
    · exact holdJob_adds s _ _ _ rfl
    · refine .bind fun _ => .pure fun k hk => ?_
      rcases List.mem_append.mp hk with hk | hk
      · exact Or.inl hk
      · exact Or.inr (congrArg RecoveredJob.runId (List.mem_singleton.mp hk))
  | knownCompleted => exact hcollect
  | knownFailed => exact hcollect
  | knownCancelled => exact hcollect
  | providerNotFound =>
    show Adds j.runId r (missingJob s j alone generation r)
    unfold missingJob
    split
    · exact holdJob_adds s _ _ _ rfl
    · exact .bind fun _ => .bind fun _ => .pure fun k hk => Or.inl hk
  | providerUnreachable => exact holdJob_adds s _ _ _ rfl
  | unknown => exact holdJob_adds s _ _ _ rfl

theorem observeJob_adds (j : RecoveredJob) (contract : Contract) (alone : Bool) (generation : Nat)
    (r : Reconciliation) :
    Adds j.runId r (observeJob s j contract alone generation r) :=
  .bind fun _ => .bind fun _ => settleJob_adds s j contract _ alone generation r

/-- What a reconciliation knows about the jobs that it was given and those that it has found running. -/
def Reconciling (jobs : List RecoveredJob) (r : Reconciliation) (h : History) : Prop :=
  Persisted jobs h ∧ AllReconcile r.running h

theorem enduring_reconciling (jobs : List RecoveredJob) (r : Reconciliation) : Enduring (Reconciling jobs r) :=
  (enduring_persisted jobs).and (enduring_allReconcile r.running)

variable {jobs all : List RecoveredJob}

theorem holdJob_owned (runId : String) (code : EscalationCode) (generation : Nat) (r : Reconciliation) :
    OwnerOutline dg i (Reconciling jobs r) (holdJob s runId code generation r) (Reconciling jobs) :=
  Outline.raising_bind ((owning ((enduring_reconciling jobs r).lasting dg)).escalate s _ _ _).onOk fun _ _ _ hh => hh

/-- Observing a job keeps what is known of the jobs. -/
theorem observeJob_owned {j j' : RecoveredJob} (hmem : j ∈ jobs) (hcap : j.job.capabilities.supportsReconcile = true)
    (hrun : j'.runId = j.runId) (contract : Contract) (alone : Bool) (generation : Nat) (r : Reconciliation) :
    OwnerOutline dg i (Reconciling jobs r) (observeJob s j' contract alone generation r) (Reconciling jobs) := by
  have hend := enduring_reconciling jobs r
  have hrec : ∀ h, Reconciling jobs r h → Reconciles j'.runId h := by
    intro h hh
    obtain ⟨job, hjob, hsame⟩ := hh.1 j hmem
    exact ⟨job, by rw [hrun]; exact hjob, by rw [hsame]; exact hcap⟩
  have hkeeps : Owned dg i (Reconciling jobs r) (observeJob s j' contract alone generation r) :=
    (owning (hend.lasting dg)).observeJob s (owned_finalizes s hend hrec generation)
      (owned_ask (hend.lasting dg) trivial) contract alone r
  refine (hkeeps.yields (observeJob_adds s j' contract alone generation r)).post fun x h hq => ?_
  cases x with
  | error e => trivial
  | ok r' =>
    refine ⟨hq.1.1, fun k hk => ?_⟩
    rcases hq.2 r' rfl k hk with hold | hnew
    · exact hq.1.2 k hold
    · rw [hnew]
      exact hrec h hq.1

theorem replayLaunch_owned (hφ : Enduring φ) (j : RecoveredJob) (contract : Contract) (generation : Nat) :
    Owned dg i φ (replayLaunch s j contract generation) := by
  have hK := owning (i := i) (hφ.lasting dg)
  unfold replayLaunch
  split
  · exact hK.pure _
  refine hK.bind (hK.attempt ?_) fun replayed => ?_
  · refine hK.bind (owned_ask (hφ.lasting dg) trivial) fun reply => hK.bind (hK.answered _) fun handle => ?_
    split
    · exact hK.bind (hK.throw _) fun _ => hK.transact (owned_ask (hφ.lasting dg) trivial)
    · exact hK.transact (owned_ask (hφ.lasting dg) trivial)
  · split <;> exact hK.pure _

theorem reconcileJob_owned {j : RecoveredJob} (hmem : j ∈ jobs) (alone : Bool) (generation : Nat) (r : Reconciliation)
    :
    OwnerOutline dg i (Reconciling jobs r) (reconcileJob s alone generation j r) (Reconciling jobs) := by
  have hend := enduring_reconciling jobs r
  have hK := owning (i := i) (hend.lasting dg)
  unfold reconcileJob
  split
  · exact holdJob_owned s _ _ _ r
  refine Outline.raising_bind (hK.call (.negotiate _) rfl).onOk fun negotiated => ?_
  split
  · exact holdJob_owned s _ _ _ r
  refine Outline.raising_bind (hK.call (.contract _) rfl).onOk fun contract => ?_
  split
  · exact holdJob_owned s _ _ _ r
  rename_i hcap
  have hcap : j.job.capabilities.supportsReconcile = true := by
    by_contra hne
    exact hcap (Or.inr (Or.inl (by simpa using hne)))
  split
  · exact observeJob_owned s hmem hcap rfl contract alone generation r
  refine Outline.raising_bind (Q := fun o h => Reconciling jobs r h ∧ ∀ j' ∈ o, j'.runId = j.runId)
    (((replayLaunch_owned s hend j contract generation).yields (replayLaunch_runId s j contract generation)).post
      fun x h hq => ?_) fun replayed => ?_
  · cases x with
    | error e => trivial
    | ok o => exact ⟨hq.1, hq.2 o rfl⟩
  · split
    · exact Outline.of_const fun hrun => observeJob_owned s hmem hcap (hrun _ rfl) contract alone generation r
    · exact (holdJob_owned s _ _ _ r).weaken fun _ _ hh => hh.1

/-- So does the loop over the jobs. -/
theorem reconcileJobs_owned (alone : Bool) (generation : Nat) :
    ∀ (js : List RecoveredJob) (r : Reconciliation), js ⊆ jobs →
      OwnerOutline dg i (Reconciling jobs r) (reconcileJobs s alone generation js r) (Reconciling jobs)
  | [], _, _ => fun _ _ hh => hh
  | j :: js, r, hsub => Outline.raising_bind (reconcileJob_owned s (hsub List.mem_cons_self) alone generation r)
      fun r => reconcileJobs_owned alone generation js r fun _ hk => hsub (List.mem_cons_of_mem j hk)

theorem reconcileClaimedProviderJobs_owned (hsub : jobs ⊆ all) (taskId : String) (generation : Nat) :
    OwnerOutline dg i (Persisted all) (reconcileClaimedProviderJobs s taskId jobs generation)
      fun _ => Persisted all := by
  have hK := owning (i := i) ((enduring_persisted all).lasting dg)
  refine Outline.raising_bind (hK.getTask _).onOk fun _ => Outline.raising_bind (Q := Reconciling all)
    ((reconcileJobs_owned s _ _ jobs _ hsub).weaken fun _ _ hp => ⟨hp, fun _ hj => nomatch hj⟩) fun r => ?_
  have hend := enduring_reconciling all r
  have hR := owning (i := i) (hend.lasting dg)
  have hmoves := owned_moves (i := i) s (hend.lasting dg) taskId generation
  refine Outline.post (Q := onOk fun _ => Reconciling all r) (Keeps.onOk ?_) fun x h hq => ?_
  · split
    · refine hR.bind (hR.resumeTask s hmoves) fun _ =>
        hR.bind (owned_create hend fun h hh x hx => ?_) fun _ => hR.pure _
      obtain rfl := List.mem_singleton.mp hx
      exact hh.2
    split
    · exact hR.bind (hR.resumeTask s hmoves) fun _ => hR.bind (hR.finishTaskAttempt s hmoves _) fun _ => hR.pure _
    split
    · exact hR.bind (hR.markTaskWaitingForReconciliation s _ _ _) fun _ => hR.pure _
    · exact hR.pure _
  · cases x with
    | error e => trivial
    | ok b => exact hq.1

theorem recoverProviderJobs_owned (hsub : jobs ⊆ all) (taskId : String) :
    OwnerOutline dg i (Persisted all) (recoverProviderJobs s taskId jobs) fun _ => Persisted all := by
  have hend := enduring_persisted all
  have hK := owning (i := i) (hend.lasting dg)
  have hT := owning (i := i) (Enduring.true.lasting dg)
  refine Outline.raising_bind (hK.call (.isActive _) rfl).onOk fun active => ?_
  split
  · exact fun _ _ hh => hh
  refine Outline.raising_bind (hK.store _ rfl).onOk fun claimed => ?_
  split
  · exact fun _ _ hh => hh
  rename_i generation
  refine Outline.raising_bind (Outline.attempt (Q := onOk fun _ => Persisted all) ?_) fun r => ?_
  · unfold reconcileUnowned
    split
    · exact (hK.bind (hK.recoverCancelledProviderJobs s (fun _ _ => cancelWorkerRun_owned s hend _ _ _) _)
        fun _ => hK.pure _).onOk
    · exact reconcileClaimedProviderJobs_owned s hsub taskId generation
  · split
    · exact fun _ _ hh => hh
    · exact (hK.releaseLease s _ _).onOk
    · exact Outline.raising_bind (Q := fun _ _ => True)
        (Outline.weaken (hT.releaseLease s _ _).onOk fun _ _ _ => trivial)
        fun _ _ _ _ => trivial

theorem jobsByTask_sub {e : String × List RecoveredJob} (he : e ∈ jobsByTask jobs) :
    e.2 ⊆ jobs := by
  obtain ⟨t, _, rfl⟩ := List.mem_map.mp he
  exact List.filter_subset_self _

theorem recoverDurableProviderJobs_owned (taskIds : Option (List String)) :
    OwnerOutline dg i (fun _ => True) (recoverDurableProviderJobs s taskIds) fun _ _ => True := by
  refine Outline.raising_bind (Q := Persisted) (Outline.ask (fun jobs => (enduring_persisted jobs).stable)
    fun h env hB _ => ⟨tame_step (F := fun _ => False) hB trivial fun _ hf => hf.elim, step_fences trivial, ?_⟩)
    fun jobs => ?_
  · intro j hj
    exact ⟨j.job, reconcilableJobs_known hj, rfl⟩
  · refine Outline.post (Q := onOk fun _ => Persisted jobs) (Outline.forM fun e he => ?_) fun r h _ => onOk_true r h
    exact recoverProviderJobs_owned s (fun j hj => List.filter_subset_self _ (jobsByTask_sub he hj)) e.1

/-- A recovery keeps the books. -/
theorem recover_owned (taskIds : Option (List String)) : Owned dg i (fun _ => True) (recover s taskIds) := by
  have hend := Enduring.true.lasting (i := i) dg
  have hT := owning hend
  refine hT.bind (hT.call .read rfl) fun _ => hT.bind (hT.forM fun task _ => hT.repairFinalizedProviderAttempt s taskIds
    fun _ => owned_moves s hend _ _) fun _ =>
      hT.bind (.of_outline (recoverDurableProviderJobs_owned s taskIds)) fun _ => ?_
  exact hT.bind (hT.store _ rfl) fun _ => hT.bind (hT.call .read rfl) fun _ => hT.bind (hT.forM fun _ _ =>
    hT.bind (hT.account _) fun _ => hT.pure _) fun _ => hT.bind (hT.call .read rfl) fun _ => hT.bind (hT.forM fun _ _ =>
    hT.requeueInterrupted s taskIds fun _ h => owned_ask hend h) fun _ => hT.auditPendingTerminalTasks taskIds

end

/-! ## Every schedule -/

/-- The operations of the other clients.  Runs are started, ended and given up by the runtimes only, and a task is
cancelled together with its runs. -/
def clientOp : StoreOp → Bool
  | .setWorkerState .. | .createWorkerRun .. | .transitionWorkerRun .. | .finalizeProviderJobResult ..
  | .markProviderJobResultCollected .. => false
  | .transitionTask _ target _ _ _ => decide (target ≠ .cancelled)
  | _ => true

section

variable {i : Nat}

/-- A coroutine with a sound assignment keeps the books. -/
theorem coroutine_owned (polls : Nat) (c : Coroutine) :
    OwnerOutline dg i (fun h => CoroutineOk h c) (coroutineProgram polls c) fun _ _ => True := by
  have hend := enduring_coroutine c
  have hK := owning (i := i) (hend.lasting dg)
  cases c with
  | executeTask s taskId attempt generation assignments =>
    refine Outline.post (hK.executeTask s (owned_moves s (hend.lasting dg) _ _) _ _ polls
      (owned_create hend fun h hh x hx => ?_)) fun r h _ => onOk_true r h
    obtain ⟨a, ha, rfl⟩ := List.mem_map.mp hx
    exact hh a ha
  | executeWorker s assignment => exact executeWorker_owned s assignment
  | reattach s taskId generation jobs finalize =>
    refine Outline.post (hK.reattachProviderTask s (owned_moves s (hend.lasting dg) _ _) finalize polls
      (owned_create hend fun h hh x hx => ?_)) fun r h _ => onOk_true r h
    obtain ⟨k, hk, rfl⟩ := List.mem_map.mp hx
    exact hh k hk
  | resumeOne s taskId generation job =>
    exact Outline.post (hK.resumeOne s (owned_finalizes s hend (fun _ hh => hh) _)) fun r h _ => onOk_true r h

/-- A coroutine that is begun has a sound assignment. -/
theorem begin_coroutine {h : History} {env : Environment} {index : Nat} (hB : Books h) :
    ∀ x ∈ (act dg h.state env (.begin index)).1, CoroutineOk (extended dg h i env (.begin index)) x := by
  intro x hx
  refine coroutineOk_mono (step_fences (c := .begin index) trivial) (hB.coroutines index x ?_)
  simp only [act] at hx
  split at hx
  · rename_i y hy
    obtain rfl := Option.some.inj hx
    exact hy
  · cases hx

theorem runCoroutine_owned (index polls : Nat) : OwnerOutline dg i (fun _ => True) (runCoroutine index polls)
    fun _ _ => True := by
  have hT := owning (i := i) (Enduring.true.lasting dg)
  refine Outline.raising_bind (Q := fun x h => ∀ c ∈ x, CoroutineOk h c) (Outline.ask (fun x => ?_) fun h env hB _ =>
    ⟨tame_step (F := fun _ => False) hB trivial fun _ hf => hf.elim, step_fences (c := .begin index) trivial,
      begin_coroutine hB⟩) fun x => ?_
  · intro j h h' _ _ _ hg hq c hc
    exact coroutineOk_mono hg (hq c hc)
  cases x with
  | none => exact fun _ _ _ => trivial
  | some c =>
    refine Outline.raising_bind (Q := fun _ _ => True) (Outline.attempt (Outline.post (Q := onOk fun _ _ => True)
      ((coroutine_owned polls c).weaken fun _ _ hq => hq c rfl) fun _ _ _ => trivial)) fun r => Keeps.onOk ?_
    split <;> exact hT.call (.finish _ _) rfl

theorem client_tame {op : StoreOp} (h : clientOp op = true) : (Call.store op).tame fun _ => False := by
  cases op <;> simp_all [clientOp, Call.tame, StoreOp.tame, StoreOp.accounted]

/-- Every request keeps the books. -/
theorem handle_owned (request : Request) :
    Outline (machine dg).traced Books OwnerStep i (fun _ => True) (handle clientOp request).run fun _ _ => True := by
  have hend := Enduring.true.lasting (i := i) dg
  have hT := owning hend
  cases request with
  | dispatch s taskIds prior => exact dispatchReady_owned s taskIds prior
  | recover s taskIds => exact recover_owned s taskIds
  | cancel s taskId =>
    exact hT.bind (hT.cancelTask s (fun _ _ _ => cancelWorkerRun_owned s Enduring.true _ _ _) taskId) fun _ => hT.pure _
  | coroutine index polls => exact (runCoroutine_owned index polls).post fun _ _ _ => trivial
  | audit taskId => exact hT.auditTask taskId
  | auditPending taskIds => exact hT.auditPendingTerminalTasks taskIds
  | client op =>
    show Owned dg i (fun _ => True) (if clientOp op then _ else _)
    split
    · rename_i hop
      exact hT.bind (hT.transact (owned_ask hend (client_tame hop))) fun _ => hT.pure _
    · exact hT.pure _

end

/-- The history of a schedule of runtimes and clients from an empty database. -/
def supervised (dg : Digests) (moves : List (Move Nat Request Environment)) : History :=
  ((Pool.quiet ⟨World.initial, []⟩).run (machine dg).traced (serve clientOp) moves).shared

theorem initial_books : Books ⟨World.initial, []⟩ where
  toActivatedOnce := initial_activatedOnce
  accounts := ⟨fun _ _ h => (nomatch h), fun _ _ h => (nomatch h), fun _ _ h => (nomatch h), fun _ _ h => (nomatch h)⟩
  failed _ h := nomatch h
  ended _ h := nomatch h
  registered _ _ h := nomatch h
  coroutines _ _ h := nomatch h
  exclusive _ := ⟨fun _ _ h => (nomatch h), fun _ _ _ _ h => (nomatch h), fun _ h =>
    (nomatch h), fun _ h => (nomatch h)⟩

theorem serve_owned {i : Nat} (request : Request) : Outline (machine dg).traced Books OwnerStep i (fun _ => True)
    (serve clientOp i request) fun _ _ => True :=
  Outline.bind (handle_owned request) fun _ _ _ _ => trivial

/-- **The books hold after every schedule.** -/
theorem supervised_books (dg : Digests) (moves : List (Move Nat Request Environment)) : Books (supervised dg moves) :=
  Pool.run_invariant (fun _ request => serve_owned request) initial_books moves

/-- **Worker exclusivity.**  Any number of processes dispatch, activate, hold, finalize, cancel, interrupt and recover,
any number of clients use the store, calls interleave in every order and processes crash anywhere.  As long as every
worker is registered at most once, a worker with an active run is not IDLE and has no other active run. -/
theorem worker_exclusive (dg : Digests) (moves : List (Move Nat Request Environment))
    (honce : RegisteredOnce (supervised dg moves).trace) :
    (∀ runId run, (supervised dg moves).state.db.runs.get? runId = some run → run.state.active = true →
      ∃ worker, (supervised dg moves).state.db.workers.get? run.workerId = some worker ∧ worker.state ≠ .idle) ∧
    ∀ runId runId' run run', (supervised dg moves).state.db.runs.get? runId = some run →
      (supervised dg moves).state.db.runs.get? runId' = some run' → run.state.active = true →
      run'.state.active = true → run.workerId = run'.workerId → runId = runId' :=
  ⟨((supervised_books dg moves).exclusive honce).held, ((supervised_books dg moves).exclusive honce).alone⟩

/-- One process with one plain adapter. -/
def plainSupervisor : Supervisor :=
  ⟨"A", fun w => if w = "w" then some .legacy else none, 2, 1000000, 30000000, 1000000⟩

/-- An environment in which the scheduler selects one worker and every adapter call succeeds. -/
def calm : Environment := { Environment.completing with uuid := fun _ => "1" }

/-- A task and a worker are created, and a process dispatches up to its claim. -/
def claimSchedule : List (Move Nat Request Environment) :=
  [.start 0 (.client (.createTask ⟨"t", "p", "#0001", .ready, .single, 0⟩)), .step 0 calm,
   .start 1 (.client (.upsertWorker "w" ⟨.idle, .available, none⟩)), .step 1 calm,
   .start 2 (.dispatch plainSupervisor none fun a b => decide (a ≤ b))] ++ List.replicate 6 (.step 2 calm)

/-- The worker of that claim is taken. -/
theorem worker_exclusive_claimed : ∃ worker,
    (supervised .trivial claimSchedule).state.db.workers.get? "w" = some worker ∧ worker.state ≠ .idle :=
  (worker_exclusive .trivial claimSchedule (by decide +kernel)).1 "run-1"
    (startingRun "t" "w" 1 (some 1000000) none 1 0) (by decide +kernel) rfl

end AgentFabric.Runtime
