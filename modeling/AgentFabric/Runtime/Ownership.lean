import AgentFabric.Runtime.Histories
import AgentFabric.Store.WorkerOwnership

/-!
# The books of the workers

Along a history, who has ended a run and who still has to give its worker back.
-/

namespace AgentFabric.Runtime

open AgentFabric.Lib AgentFabric.Store

variable {dg : Digests}

/-! ## What the trace shows -/

/-- The run that a call failed, and who did. -/
def failedRun : RuntimeEvent → Option (Nat × String)
  | ⟨i, .store (.transitionWorkerRun runId .failed _ _ _), .ok _⟩ => some (i, runId)
  | _ => none

/-- The run that a call ended on the word of its caller. -/
def endedRun : RuntimeEvent → Option (Nat × String)
  | ⟨i, .store (.transitionWorkerRun runId .failed _ _ _), .ok _⟩ => some (i, runId)
  | ⟨i, .store (.finalizeProviderJobResult runId _ _ _ _ _), .ok _⟩ => some (i, runId)
  | _ => none

def failures (trace : List RuntimeEvent) : List (Nat × String) := trace.filterMap failedRun

def endings (trace : List RuntimeEvent) : List (Nat × String) := trace.filterMap endedRun

/-- The call gave a worker back. -/
def freesWorker : RuntimeEvent → Bool
  | ⟨_, .store (.setWorkerState _ .idle _ _ _ _), .ok _⟩ => true
  | _ => false

def owedAfter (owed : List (Nat × String)) (e : RuntimeEvent) : List (Nat × String) :=
  match failedRun e with
  | some p => p :: owed
  | none => if freesWorker e then owed.filter fun p => decide (p.1 ≠ e.thread) else owed

/-- The failed runs whose worker was not given back yet. -/
def owed (trace : List RuntimeEvent) : List (Nat × String) := trace.foldl owedAfter []

def registeredWorker : RuntimeEvent → Option String
  | ⟨_, .store (.upsertWorker workerId _), _⟩ => some workerId
  | _ => none

def registrations (trace : List RuntimeEvent) : List String := trace.filterMap registeredWorker

/-- Every worker is registered at most once. -/
def RegisteredOnce (trace : List RuntimeEvent) : Prop := (registrations trace).Nodup

instance (trace : List RuntimeEvent) : Decidable (RegisteredOnce trace) :=
  inferInstanceAs (Decidable (registrations trace).Nodup)

section

variable {trace : List RuntimeEvent} {e : RuntimeEvent}

variable {p : Nat × String}

theorem mem_failures_concat :
    p ∈ failures (trace ++ [e]) ↔ p ∈ failures trace ∨ failedRun e = some p := by
  rw [failures, List.filterMap_append, List.mem_append]
  cases h : failedRun e <;> simp [failures, h, eq_comm]

theorem mem_endings_concat :
    p ∈ endings (trace ++ [e]) ↔ p ∈ endings trace ∨ endedRun e = some p := by
  rw [endings, List.filterMap_append, List.mem_append]
  cases h : endedRun e <;> simp [endings, h, eq_comm]

theorem owed_concat : owed (trace ++ [e]) = owedAfter (owed trace) e := by
  simp [owed, List.foldl_append]

theorem owed_quiet (hf : failedRun e = none) (hr : freesWorker e = false) : owed (trace ++ [e]) = owed trace := by
  rw [owed_concat, owedAfter, hf, hr]
  rfl

theorem registrations_concat : registrations (trace ++ [e]) = registrations trace ++ (registeredWorker e).toList := by
  cases h : registeredWorker e <;> simp [registrations, List.filterMap_append, h]

theorem RegisteredOnce.init (h : RegisteredOnce (trace ++ [e])) : RegisteredOnce trace := by
  rw [RegisteredOnce, registrations_concat] at h
  exact h.of_append_left

theorem failedRun_ended (h : failedRun e = some p) : endedRun e = some p := by
  unfold failedRun at h
  split at h
  · exact h
  · cases h

end

/-! ## What a coroutine relies on -/

def Reconciles (runId : String) (h : History) : Prop :=
  ∃ job, h.state.db.jobs.get? runId = some job ∧ job.capabilities.supportsReconcile = true

def Unreconciled (runId : String) (h : History) : Prop :=
  ∃ job, h.state.db.jobs.get? runId = some job ∧ job.capabilities.supportsReconcile = false

/-- A lease that was granted for the task; it is over once the task is cancelled. -/
structure Granted (taskId : String) (generation : Nat) (h : History) : Prop where
  task : ∃ task, h.state.db.tasks.get? taskId = some task
  lease : ∃ lease, h.state.db.leases.get? taskId = some lease ∧ generation ≤ lease.generation
  cancelled : TaskCancelled h.state.db taskId → Fenced h.state.db taskId generation

structure AssignmentOk (s : Supervisor) (a : Assignment) (h : History) : Prop where
  run : ∃ run, h.state.db.runs.get? a.runId = some run ∧ run.taskId = a.taskId ∧ run.workerId = a.workerId
  legacy : s.adapters a.workerId = some .legacy → Unreconciled a.runId h
  granted : Granted a.taskId a.generation h

/-- What a coroutine may rely on when it begins. -/
def CoroutineOk (h : History) : Coroutine → Prop
  | .executeTask s _ _ _ assignments => ∀ a ∈ assignments, AssignmentOk s a h
  | .executeWorker s a => AssignmentOk s a h
  | .reattach _ _ _ jobs _ => ∀ j ∈ jobs, Reconciles j.runId h
  | .resumeOne _ _ _ j => Reconciles j.runId h

/-- The calls that never cancel a task but with its runs, and never end a run silently. -/
def Call.accounted : Call → Prop
  | .store op => op.accounted
  | _ => True

/-- What no accounted call undoes: a cancellation takes the lease away. -/
structure Fences (w w' : World) : Prop extends Kept w w' where
  cancels : ∀ t, (∃ task, w.db.tasks.get? t = some task) → TaskCancelled w'.db t → TaskCancelled w.db t ∨
    ∀ lease, w'.db.leases.get? t = some lease → lease.state ≠ .active

abbrev OwnerStep : Nat → History → History → Prop := Extends Fences

theorem accounted_stamp {op : StoreOp} (h : op.accounted) (clock : Clock) (uuid : String → String) :
    (stamp clock uuid op).accounted := by
  cases op <;> exact h

/-- An accounted call respects the leases. -/
theorem accounted_fences {w : World} {env : Environment} {c : Call} (hc : c.accounted) :
    Fences w (act dg w env c).2 := by
  refine ⟨act_kept dg w env c, fun t ht hcancelled => ?_⟩
  rcases act_db dg w env c with hdb | ⟨op, clock, uuid, r, rfl, hexec⟩
  · rw [hdb] at hcancelled
    exact Or.inl hcancelled
  · obtain ⟨task, ht⟩ := ht
    exact exec_cancels_lease hexec (accounted_stamp hc clock uuid) ht hcancelled

section

variable {h h' : History} {j : Nat}

theorem reconciles_mono (hg : OwnerStep j h h') {runId : String} (hr : Reconciles runId h) : Reconciles runId h' := by
  obtain ⟨job, hjob, hcap⟩ := hr
  obtain ⟨job', hjob', _, _, hcap'⟩ := hg.1.jobs runId job hjob
  exact ⟨job', hjob', hcap' ▸ hcap⟩

theorem unreconciled_mono (hg : OwnerStep j h h') {runId : String} (hr : Unreconciled runId h) :
    Unreconciled runId h' := by
  obtain ⟨job, hjob, hcap⟩ := hr
  obtain ⟨job', hjob', _, _, hcap'⟩ := hg.1.jobs runId job hjob
  exact ⟨job', hjob', hcap' ▸ hcap⟩

theorem granted_mono (hg : OwnerStep j h h') {t : String} {g : Nat} (hr : Granted t g h) : Granted t g h' := by
  obtain ⟨⟨task, ht⟩, ⟨lease, hl, hle⟩, hcancelled⟩ := hr
  obtain ⟨lease', hl', hgen⟩ := hg.1.leases t lease hl
  have hle' : g ≤ lease'.generation := by omega
  refine ⟨hg.1.tasks t task ht, ⟨lease', hl', hle'⟩, fun hc => ?_⟩
  rcases hg.1.cancels t ⟨task, ht⟩ hc with hbefore | hinactive
  · obtain ⟨old, hold, _, hactive⟩ := hcancelled hbefore
    rw [hl] at hold
    obtain rfl := Option.some.inj hold
    refine ⟨lease', hl', hle', fun hs => ?_⟩
    rcases hgen with hlt | ⟨heq, hback⟩
    · omega
    · have := hactive (hback hs)
      omega
  · exact ⟨lease', hl', hle', fun hs => absurd hs (hinactive lease' hl')⟩

theorem assignmentOk_mono (hg : OwnerStep j h h') {s : Supervisor} {a : Assignment} (hr : AssignmentOk s a h) :
    AssignmentOk s a h' := by
  obtain ⟨⟨run, hrun, ht, hw⟩, hlegacy, hgranted⟩ := hr
  obtain ⟨run', hrun', ht', hw', _⟩ := hg.1.runs a.runId run hrun
  exact ⟨⟨run', hrun', ht'.trans ht, hw'.trans hw⟩, fun hk => unreconciled_mono hg (hlegacy hk),
    granted_mono hg hgranted⟩

theorem coroutineOk_mono (hg : OwnerStep j h h') {c : Coroutine} (hr : CoroutineOk h c) : CoroutineOk h' c := by
  cases c with
  | executeTask => exact fun a ha => assignmentOk_mono hg (hr a ha)
  | executeWorker => exact assignmentOk_mono hg hr
  | reattach => exact fun k hk => reconciles_mono hg (hr k hk)
  | resumeOne => exact reconciles_mono hg hr

end

/-! ## The invariant -/

structure Books (h : History) : Prop extends ActivatedOnce h where
  accounts : Accounts h.state.db (fun runId => ∃ i, (i, runId) ∈ failures h.trace)
    fun runId => ∃ i, (i, runId) ∈ endings h.trace
  failed : ∀ p ∈ failures h.trace, Unreconciled p.2 h
  ended : ∀ p ∈ endings h.trace, (Reconciles p.2 h ∨ p ∈ activations h.trace p.2) ∧
    ∃ run, h.state.db.runs.get? p.2 = some run ∧ run.state.active = false
  registered : ∀ w row, h.state.db.workers.get? w = some row → w ∈ registrations h.trace
  coroutines : ∀ (k : Nat) c, h.state.coroutines[k]? = some (.created c) → CoroutineOk h c
  exclusive : RegisteredOnce h.trace → Exclusive h.state.db (owed h.trace)

/-- The run is this coroutine's to end. -/
def Mine (i : Nat) (runId : String) (h : History) : Prop :=
  (i, runId) ∈ activations h.trace runId ∧ (i, runId) ∉ endings h.trace

section

variable {h : History} {i : Nat} {env : Environment} {c : Call} {runId : String}

theorem failures_subset {trace : List RuntimeEvent} {p : Nat × String} (hp : p ∈ failures trace) :
    p ∈ endings trace := by
  obtain ⟨e, he, hfail⟩ := List.mem_filterMap.mp hp
  exact List.mem_filterMap.mpr ⟨e, he, failedRun_ended hfail⟩

theorem Books.mine_open (hB : Books h) (hm : Mine i runId h) (hu : Unreconciled runId h) :
    ¬ ∃ k, (k, runId) ∈ endings h.trace := by
  rintro ⟨k, hk⟩
  obtain ⟨hr | hact, _⟩ := hB.ended _ hk
  · obtain ⟨job, hjob, hcap⟩ := hr
    obtain ⟨job', hjob', hcap'⟩ := hu
    rw [hjob] at hjob'
    rw [← Option.some.inj hjob', hcap] at hcap'
    cases hcap'
  · obtain rfl := hB.unique hact hm.1
    exact hm.2 hk

theorem Books.not_failed_of_mine (hB : Books h) (hm : Mine i runId h) : ¬ ∃ k, (k, runId) ∈ failures h.trace := by
  rintro ⟨k, hk⟩
  exact hB.mine_open hm (hB.failed _ hk) ⟨k, failures_subset hk⟩

theorem Books.not_failed_of_reconciles (hB : Books h) (hr : Reconciles runId h) :
    ¬ ∃ k, (k, runId) ∈ failures h.trace := by
  rintro ⟨k, hk⟩
  obtain ⟨job, hjob, hcap⟩ := hr
  obtain ⟨job', hjob', hcap'⟩ := hB.failed _ hk
  rw [hjob] at hjob'
  rw [← Option.some.inj hjob', hcap] at hcap'
  cases hcap'

/-- The coroutines that wait to begin: those of before, and those that the call created. -/
theorem act_coroutines {w : World} {k : Nat} {x : Coroutine}
    (hx : (act dg w env c).2.coroutines[k]? = some (.created x)) :
    w.coroutines[k]? = some (.created x) ∨ ∃ xs, c = .create xs ∧ x ∈ xs := by
  have hset : ∀ {index : Nat} {p : Progress}, (∀ y, p ≠ .created y) →
      (w.coroutines.set index p)[k]? = some (.created x) → w.coroutines[k]? = some (.created x) := by
    intro index p hp hk
    rw [List.getElem?_set] at hk
    split at hk
    · split at hk
      · exact absurd (Option.some.inj hk) (hp x)
      · cases hk
    · exact hk
  cases c with
  | create xs =>
    simp only [act] at hx
    by_cases hk : k < w.coroutines.length
    · rw [List.getElem?_append_left hk] at hx
      exact Or.inl hx
    · rw [List.getElem?_append_right (by omega), List.getElem?_map] at hx
      obtain ⟨y, hy, he⟩ := Option.map_eq_some_iff.mp hx
      cases he
      exact Or.inr ⟨xs, rfl, List.mem_of_getElem? hy⟩
  | begin =>
    left
    simp only [act] at hx
    split at hx
    · exact hset (fun y he => by cases he) hx
    · exact hx
  | finish => exact Or.inl (hset (fun y he => by cases he) hx)
  | _ => exact Or.inl hx

abbrev AccountsAfter (dg : Digests) (h : History) (i : Nat) (env : Environment) (c : Call) : Prop :=
  Accounts (extended dg h i env c).state.db
    (fun runId => ∃ k, (k, runId) ∈ failures (extended dg h i env c).trace)
    fun runId => ∃ k, (k, runId) ∈ endings (extended dg h i env c).trace

theorem failures_mono (hf : ∃ k, (k, runId) ∈ failures h.trace) :
    ∃ k, (k, runId) ∈ failures (extended dg h i env c).trace := by
  obtain ⟨k, hk⟩ := hf
  exact ⟨k, mem_failures_concat.mpr (Or.inl hk)⟩

theorem endings_mono (he : ∃ k, (k, runId) ∈ endings h.trace) :
    ∃ k, (k, runId) ∈ endings (extended dg h i env c).trace := by
  obtain ⟨k, hk⟩ := he
  exact ⟨k, mem_endings_concat.mpr (Or.inl hk)⟩

theorem accounts_same (hB : Books h) (hdb : (extended dg h i env c).state.db = h.state.db) :
    AccountsAfter dg h i env c := by
  unfold AccountsAfter
  rw [hdb]
  refine ⟨hB.accounts.task, hB.accounts.job, hB.accounts.cancelled, fun id run hr hs => ?_⟩
  rcases hB.accounts.ended id run hr hs with hi | hf | hcan | ⟨he, hjob⟩
  · exact Or.inl hi
  · exact Or.inr (Or.inl (failures_mono hf))
  · exact Or.inr (Or.inr (Or.inl hcan))
  · exact Or.inr (Or.inr (Or.inr ⟨endings_mono he, hjob⟩))

/-- An accounted call keeps the accounts. -/
theorem accounts_step (hB : Books h) (hc : c.accounted) : AccountsAfter dg h i env c := by
  cases c with
  | store op =>
    rcases act_store dg h.state env op with ⟨clock, uuid, r, hexec, hreply⟩ | ⟨_, hdb⟩
    · refine hB.accounts.step hexec (accounted_stamp hc clock uuid) (fun _ => failures_mono) (fun _ => endings_mono)
        ?_ ?_
      · intro id detail lease clk hop
        refine ⟨i, mem_failures_concat.mpr (Or.inr ?_)⟩
        cases op <;> simp only [stamp] at hop <;> cases hop
        show failedRun ⟨i, _, (act dg h.state env _).1⟩ = _
        rw [hreply]
        rfl
      · intro id target detail release lease clk hop
        refine ⟨i, mem_endings_concat.mpr (Or.inr ?_)⟩
        cases op <;> simp only [stamp] at hop <;> cases hop
        show endedRun ⟨i, _, (act dg h.state env _).1⟩ = _
        rw [hreply]
        rfl
    · exact accounts_same hB hdb
  | begin index =>
    exact accounts_same hB ((act_db dg h.state env (.begin index)).resolve_right fun ⟨_, _, _, _, h, _⟩ => nomatch h)
  | _ => exact accounts_same hB rfl

end

section

variable {h : History} {i : Nat} {env : Environment} {c : Call} {runId : String}

theorem finalizeProviderJobResult_inactive {db db' : Db} {target : RunState} {detail : RunDetail}
    {release : WorkerRelease} {lease : HeldLease} {clock : Clock} {u : Unit}
    (hf : finalizeProviderJobResult db runId target detail release lease clock = .ok (u, db')) :
    ∃ run, db'.runs.get? runId = some run ∧ run.state.active = false := by
  obtain ⟨_, _, run, task, ho, _, _, hr, _, _, hg, rfl⟩ := finalizeProviderJobResult_ok hf
  have htarget : target.active = false := collectedObservation_inactive (by simp [ho])
  by_cases hwin : cancellationWins run task = true
  · have hcancelled : run.state = .cancelled := by
      simp only [cancellationWins, Bool.and_eq_true, decide_eq_true_eq] at hwin
      exact hwin.1
    refine ⟨run, ?_, by rw [hcancelled]; rfl⟩
    simp [finalizedRuns, hwin, hr]
  · have hlose : cancellationWins run task = false := by simpa using hwin
    cases hb : (finalizedRuns db runId run task target detail (timestamp clock.now)).get? runId with
    | some b => exact ⟨b, rfl, finalizedRuns_inactive hr hlose htarget hb⟩
    | none =>
      unfold finalizedRuns at hb
      split at hb <;> simp [hr] at hb

/-- What a call did that ended a run. -/
theorem endedRun_some {p : Nat × String} (he : endedRun (eventOf dg h i env c) = some p) : p.1 = i ∧
    ((∃ detail lease clock, c = .store (.transitionWorkerRun p.2 .failed detail lease clock)) ∨
      ∃ target detail release lease clock,
        c = .store (.finalizeProviderJobResult p.2 target detail release lease clock)) ∧
    ∃ run, (extended dg h i env c).state.db.runs.get? p.2 = some run ∧ run.state.active = false := by
  cases c with
  | store op =>
    change endedRun ⟨i, .store op, (act dg h.state env (.store op)).1⟩ = some p at he
    rcases act_store dg h.state env op with ⟨clk, uuid, r, hexec, hreply⟩ | ⟨⟨e, hreply⟩, _⟩
    · rw [hreply] at he
      cases op with
      | transitionWorkerRun id target detail lease clock =>
        cases target with
        | failed =>
          obtain rfl := Option.some.inj he
          refine ⟨rfl, Or.inl ⟨detail, lease, clock, rfl⟩, ?_⟩
          obtain ⟨run, hr, _, _, hdb⟩ := transitionWorkerRun_ok hexec
          refine ⟨run.transition .failed detail (timestamp clk.now), ?_, rfl⟩
          rw [extended_state, hdb, Table.get?_modify_self, hr]
          rfl
        | _ => cases he
      | finalizeProviderJobResult id target detail release lease clock =>
        obtain rfl := Option.some.inj he
        exact ⟨rfl, Or.inr ⟨target, detail, release, lease, clock, rfl⟩, finalizeProviderJobResult_inactive hexec⟩
      | _ => cases he
    · rw [hreply] at he
      cases op with
      | transitionWorkerRun id target => cases target <;> cases he
      | _ => cases he
  | _ => cases he

theorem step_fences (hc : c.accounted) : OwnerStep i h (extended dg h i env c) :=
  ⟨accounted_fences hc, c, _, rfl⟩

/-- The invariant after a call, once the worker that it may have taken or given back is accounted for. -/
theorem books_step (hB : Books h) (hfences : OwnerStep i h (extended dg h i env c))
    (haccounts : AccountsAfter dg h i env c)
    (hfail : ∀ p, failedRun (eventOf dg h i env c) = some p → Unreconciled p.2 h)
    (hend : ∀ p, endedRun (eventOf dg h i env c) = some p → Reconciles p.2 h ∨ p ∈ activations h.trace p.2)
    (hcreate : ∀ xs, c = .create xs → ∀ x ∈ xs, CoroutineOk h x)
    (hexcl : RegisteredOnce (extended dg h i env c).trace →
      Exclusive (extended dg h i env c).state.db (owed (extended dg h i env c).trace)) :
    Books (extended dg h i env c) where
  toActivatedOnce := hB.toActivatedOnce.step
  accounts := haccounts
  failed p hp := by
    refine unreconciled_mono hfences ?_
    rcases mem_failures_concat.mp hp with hp | hp
    · exact hB.failed p hp
    · exact hfail p hp
  ended p hp := by
    rcases mem_endings_concat.mp hp with hp | hp
    · obtain ⟨hwho, run, hr, hs⟩ := hB.ended p hp
      obtain ⟨run', hr', _, _, _, hs'⟩ := (act_kept dg h.state env c).runs p.2 run hr
      refine ⟨hwho.imp (reconciles_mono hfences) activations_mono, run', hr', ?_⟩
      rw [hs' hs]
      exact hs
    · obtain ⟨_, _, hrun⟩ := endedRun_some hp
      exact ⟨(hend p hp).imp (reconciles_mono hfences) activations_mono, hrun⟩
  registered w row hrow := by
    rw [extended_trace, registrations_concat, List.mem_append]
    cases hold : h.state.db.workers.get? w with
    | some old => exact Or.inl (hB.registered w old hold)
    | none =>
      rcases act_db dg h.state env c with hdb | ⟨op, clock, uuid, r, rfl, hexec⟩
      · rw [extended_state, hdb, hold] at hrow
        cases hrow
      · have hop := exec_workers_none hexec hold hrow
        cases op <;> simp only [stamp] at hop <;> cases hop
        exact Or.inr List.mem_cons_self
  coroutines k x hx := by
    refine coroutineOk_mono hfences ?_
    rcases act_coroutines hx with hx | ⟨xs, hcall, hx⟩
    · exact hB.coroutines k x hx
    · exact hcreate xs hcall x hx
  exclusive := hexcl

/-! ## Calls that need no argument of their own -/

/-- Calls that take a worker or give it back on what they find in the store; the runs `F` may be finalized. -/
def Call.tame (F : String → Prop) : Call → Prop
  | .store op => op.tame F
  | .create _ => False
  | _ => True

variable {F : String → Prop}

theorem Call.tame.accounted (hc : c.tame F) : c.accounted := by
  cases c with
  | store => exact StoreOp.tame.accounted hc
  | _ => trivial

variable {op : StoreOp}

theorem tame_stamp (ht : op.tame F) (clock : Clock) (uuid : String → String) :
    (stamp clock uuid op).tame F := by
  cases op <;> exact ht

theorem tame_quiet (hc : c.tame F) :
    failedRun (eventOf dg h i env c) = none ∧ freesWorker (eventOf dg h i env c) = false := by
  cases c with
  | store op =>
    cases op with
    | transitionWorkerRun id target =>
      obtain rfl : target = .waiting := hc
      exact ⟨rfl, rfl⟩
    | setWorkerState id state =>
      refine ⟨rfl, ?_⟩
      cases state with
      | idle => exact absurd rfl hc
      | _ => rfl
    | _ => exact ⟨rfl, rfl⟩
  | _ => exact ⟨rfl, rfl⟩

/-- Every tame call keeps the invariant, if no run that it may finalize was failed. -/
theorem tame_step (hB : Books h) (hc : c.tame F) (hF : ∀ runId, F runId → Reconciles runId h ∨ Mine i runId h) :
    Books (extended dg h i env c) := by
  obtain ⟨hnofail, hnofree⟩ : failedRun (eventOf dg h i env c) = none ∧ freesWorker (eventOf dg h i env c) = false :=
    tame_quiet hc
  have hopen : ∀ runId, F runId → ¬ ∃ k, (k, runId) ∈ failures h.trace := by
    intro runId hr
    rcases hF runId hr with hr | hm
    · exact hB.not_failed_of_reconciles hr
    · exact hB.not_failed_of_mine hm
  refine books_step hB (step_fences hc.accounted) (accounts_step hB hc.accounted) (fun p hp => ?_) (fun p hp => ?_)
    (fun xs hx => ?_) fun honce => ?_
  · rw [hnofail] at hp
    cases hp
  · obtain ⟨hthread, ⟨_, _, _, hcall⟩ | ⟨_, _, _, _, _, hcall⟩, _⟩ := endedRun_some hp
    · rw [hcall] at hc
      cases hc
    · rw [hcall] at hc
      refine (hF p.2 hc).imp_right fun hm => ?_
      rw [show p = (i, p.2) from Prod.ext hthread rfl]
      exact hm.1
  · rw [hx] at hc
    exact hc.elim
  · rw [extended_trace, owed_quiet hnofail hnofree]
    have hE := hB.exclusive honce.init
    rcases act_db dg h.state env c with hdb | ⟨op, clock, uuid, r, rfl, hexec⟩
    · rw [extended_state, hdb]
      exact hE
    · refine hE.step hB.accounts hexec (tame_stamp hc clock uuid) hopen ?_
      -- a second registration would show twice in the trace
      intro w row hop
      by_contra hne
      obtain ⟨old, hold⟩ := Option.ne_none_iff_exists'.mp hne
      cases op <;> simp only [stamp] at hop <;> cases hop
      rw [extended_trace, RegisteredOnce, registrations_concat] at honce
      exact List.disjoint_of_nodup_append honce (hB.registered w old hold) List.mem_cons_self

/-- Creating coroutines keeps the books. -/
theorem create_step {xs : List Coroutine} (hB : Books h) (hx : ∀ x ∈ xs, CoroutineOk h x) :
    Books (extended dg h i env (.create xs)) := by
  refine books_step hB (step_fences trivial) (accounts_step hB trivial) (fun p hp => nomatch hp)
    (fun p hp => nomatch hp) (fun ys hy => ?_) fun honce => ?_
  · cases hy
    exact hx
  · rw [extended_trace, owed_quiet rfl rfl]
    exact hB.exclusive honce.init

/-! ## Failing a run and giving its worker back -/

/-- A coroutine that fails its own run owes the worker. -/
theorem fail_step {detail : RunDetail} {lease : LeaseArgs} {clock : Clock} (hB : Books h) (hm : Mine i runId h)
    (hu : Unreconciled runId h) :
    Books (extended dg h i env (.store (.transitionWorkerRun runId .failed detail lease clock))) := by
  have hopen := hB.mine_open hm hu
  refine books_step hB (step_fences (Or.inr rfl)) (accounts_step hB (Or.inr rfl)) (fun p hp => ?_) (fun p hp => ?_)
    (nofun) fun honce => ?_
  · obtain ⟨_, ⟨_, _, _, hcall⟩ | ⟨_, _, _, _, _, hcall⟩, _⟩ := endedRun_some (failedRun_ended hp)
    · cases hcall
      exact hu
    · cases hcall
  · obtain ⟨hthread, ⟨_, _, _, hcall⟩ | ⟨_, _, _, _, _, hcall⟩, _⟩ := endedRun_some hp
    · cases hcall
      right
      rw [show p = (i, p.2) from Prod.ext hthread rfl]
      exact hm.1
    · cases hcall
  · have hE := hB.exclusive honce.init
    rw [extended_trace, owed_concat]
    change Exclusive _ (owedAfter _ ⟨i, _, (act dg h.state env _).1⟩)
    rcases act_store dg h.state env (.transitionWorkerRun runId .failed detail lease clock) with
      ⟨clk, uuid, r, hexec, hreply⟩ | ⟨⟨e, hreply⟩, hdb⟩
    · rw [hreply]
      obtain ⟨run, hr, _, hallow, _⟩ := transitionWorkerRun_ok hexec
      have hact : run.state.active = true := by
        -- a run that has ended already was ended by somebody
        by_contra hdead
        have hs := runTransitions_terminal (by simpa using hdead) hallow
        rcases hB.accounts.ended runId run hr (by simpa using hdead) with hi | ⟨k, hk⟩ | ⟨hcan, _⟩ | ⟨hk, _⟩
        · rw [hi] at hs
          cases hs
        · exact hopen ⟨k, failures_subset hk⟩
        · rw [hcan] at hs
          cases hs
        · exact hopen hk
      exact hE.fail hexec hr hact i
    · rw [hreply, extended_state, hdb]
      exact hE

def Owes (i : Nat) (workerId : String) (h : History) : Prop :=
  ∃ runId run, (i, runId) ∈ owed h.trace ∧ h.state.db.runs.get? runId = some run ∧ run.workerId = workerId

/-- Releasing a worker that is owed keeps the books. -/
theorem release_step {workerId : String} {resource : Option ResourceState} {model : Option String} {fence : WorkerFence}
    {clock : Clock} (hB : Books h) (ho : Owes i workerId h) :
    Books (extended dg h i env (.store (.setWorkerState workerId .idle resource model fence clock))) := by
  obtain ⟨runId, run, howed, hr, hw⟩ := ho
  refine books_step hB (step_fences trivial) (accounts_step hB trivial) (fun p hp => nomatch hp)
    (fun p hp => nomatch hp) (nofun) fun honce => ?_
  have hE := hB.exclusive honce.init
  rw [extended_trace, owed_concat]
  change Exclusive _ (owedAfter _ ⟨i, _, (act dg h.state env _).1⟩)
  rcases act_store dg h.state env (.setWorkerState workerId .idle resource model fence clock) with
    ⟨clk, uuid, r, hexec, hreply⟩ | ⟨⟨e, hreply⟩, hdb⟩
  · rw [hreply]
    exact hE.release hexec howed hr hw
  · rw [hreply, extended_state, hdb]
    exact hE


/-! ## Calls that are refused -/

theorem refused_event (hr : ∃ e, (act dg h.state env (.store op)).1 = .error e) :
    endedRun (eventOf dg h i env (.store op)) = none ∧ failedRun (eventOf dg h i env (.store op)) = none ∧
      freesWorker (eventOf dg h i env (.store op)) = false := by
  obtain ⟨e, he⟩ := hr
  change endedRun ⟨i, .store op, (act dg h.state env (.store op)).1⟩ = none ∧
    failedRun ⟨i, .store op, (act dg h.state env (.store op)).1⟩ = none ∧
    freesWorker ⟨i, .store op, (act dg h.state env (.store op)).1⟩ = false
  rw [he]
  cases op with
  | transitionWorkerRun id target => cases target <;> exact ⟨rfl, rfl, rfl⟩
  | setWorkerState id state => cases state <;> exact ⟨rfl, rfl, rfl⟩
  | _ => exact ⟨rfl, rfl, rfl⟩

theorem refused_db (hr : ∃ e, (act dg h.state env (.store op)).1 = .error e) :
    (extended dg h i env (.store op)).state.db = h.state.db := by
  obtain ⟨e, he⟩ := hr
  rcases act_store dg h.state env op with ⟨_, _, _, _, hok⟩ | ⟨_, hdb⟩
  · rw [he] at hok
    cases hok
  · exact hdb

theorem refused_fences (hr : ∃ e, (act dg h.state env (.store op)).1 = .error e) :
    OwnerStep i h (extended dg h i env (.store op)) := by
  refine ⟨⟨act_kept dg h.state env (.store op), fun t _ hc => Or.inl ?_⟩, .store op, _, rfl⟩
  rw [refused_db hr] at hc
  exact hc

/-- A refused transaction keeps the books. -/
theorem refused_step (hB : Books h) (hr : ∃ e, (act dg h.state env (.store op)).1 = .error e) :
    Books (extended dg h i env (.store op)) := by
  obtain ⟨hend, hfail, hfree⟩ := refused_event (i := i) hr
  refine books_step hB (refused_fences hr) (accounts_same hB (refused_db hr)) (fun p hp => ?_) (fun p hp => ?_)
    (nofun) fun honce => ?_
  · rw [hfail] at hp
    cases hp
  · rw [hend] at hp
    cases hp
  · rw [extended_trace, owed_quiet hfail hfree, refused_db hr]
    exact hB.exclusive honce.init

end

end AgentFabric.Runtime
