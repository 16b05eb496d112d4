import AgentFabric.Store.RunStates

/-!
# The collection of a result

Once the result of a job is collected, every writer of the job respects it but one: a job that is reported missing while
its run is active is written without a look at the collection.
-/

namespace AgentFabric.Store

open AgentFabric.Lib

variable {dg : Digests}

def JobRow.collected (job : JobRow) : Bool := decide (job.resultCollectionState = .collected)

/-- The run whose result an operation collects. -/
def StoreOp.collects : StoreOp → Option String
  | .markProviderJobResultCollected runId .. | .finalizeProviderJobResult runId .. => some runId
  | _ => none

/-- The run for which an operation appends `providerJobResultCollected`: once it has passed its checks, unless the job
is collected already. -/
def collectedBy (dg : Digests) (db : Db) (op : StoreOp) : Option String :=
  match exec dg op db with
  | .ok _ => op.collects.filter fun runId => (db.jobs.get? runId).any fun job => !job.collected
  | .error _ => none

/-- The collection events of a sequence of operations. -/
def collections (dg : Digests) (db : Db) : List StoreOp → List String
  | [] => []
  | op :: ops => (collectedBy dg db op).toList ++ collections dg (apply dg db op) ops

/-- A run that is still active is reported missing, although the result of its job is collected. -/
def Reopens (db : Db) (runId : String) : StoreOp → Prop
  | .interruptMissingProviderJob id lease clock => id = runId ∧ ∃ job run,
      db.jobs.get? runId = some job ∧ job.collected = true ∧ db.runs.get? runId = some run ∧ run.state.active = true ∧
        (∃ task, db.tasks.get? job.taskId = some task) ∧
        leaseCurrent db job.taskId lease.owner lease.generation (timestamp clock.lease) = true
  | _ => False

/-! ## One operation -/

section

variable {op : StoreOp} {db db' : Db} {r : op.Reply} {runId : String} {job : JobRow}

def CollectedTerminal (db : Db) : Prop :=
  ∀ runId job, db.jobs.get? runId = some job → job.collected = true → job.launchState = .terminal

theorem collected_iff : job.collected = true ↔ job.resultCollectionState = .collected := decide_eq_true_iff

/-- Every step but `Reopens` keeps the whole row of a collected job. -/
theorem exec_collectedRow (h : exec dg op db = .ok (r, db')) (hjob : db.jobs.get? runId = some job)
    (hc : job.collected = true) (ht : job.launchState = .terminal) (hkeep : ¬ Reopens db runId op) :
    db'.jobs.get? runId = some job := by
  have hcoll : job.resultCollectionState = .collected := collected_iff.mp hc
  by_cases hcancel : ∃ taskId now, op = .cancelTaskExecution taskId now
  · -- a cancellation looks for jobs that are not collected
    obtain ⟨taskId, now, rfl⟩ := hcancel
    obtain ⟨task, -, ⟨-, -, rfl⟩ | ⟨-, -, rfl⟩⟩ := cancelTaskExecution_ok h
    · exact hjob
    · simp [cancelJobs, Table.get?_updateWhere, hjob, hcoll]
  obtain ⟨job', hjob', hu⟩ := exec_jobs_some h hjob
  rw [hjob']
  cases hu with
  | same => rfl
  | launching lease clock hs =>
    rw [ht] at hs
    cases hs
  | bound adapterType adapterInstanceId handle lease clock hb =>
    simp [JobRow.bindable, ht] at hb
  | observed state lease clock hs => exact absurd hcoll hs
  | collected terminalState observation lease clock hs => exact absurd hcoll hs
  | finalized target observation detail release lease clock hs => exact absurd hcoll hs
  | cancelled taskId now => exact absurd ⟨taskId, now, rfl⟩ hcancel
  | missing lease clock run hr hact hl =>
    obtain ⟨job'', -, task, hjob'', -, -, htask, -⟩ := interruptMissingProviderJob_ok h
    obtain rfl : job = job'' := Option.some.inj (hjob.symm.trans hjob'')
    exact absurd ⟨rfl, job, run, hjob, hc, hr, hact, ⟨task, htask⟩, hl⟩ hkeep

/-- Every operation keeps collected jobs in TERMINAL. -/
theorem exec_collectedTerminal (h : exec dg op db = .ok (r, db')) (hold : CollectedTerminal db) :
    CollectedTerminal db' := by
  intro runId job' hjob' hc
  have hcoll : job'.resultCollectionState = .collected := collected_iff.mp hc
  cases hjob : db.jobs.get? runId with
  | none =>
    obtain ⟨_, _, _, _, _, _, _, _, _, _, rfl⟩ := exec_jobs_none h hjob hjob'
    cases hcoll
  | some job =>
    obtain ⟨job'', hjob'', hu⟩ := exec_jobs_some h hjob
    obtain rfl : job' = job'' := Option.some.inj (hjob'.symm.trans hjob'')
    cases hu with
    | same => exact hold runId job' hjob hc
    | launching lease clock hs =>
      have ht := hold runId job hjob (collected_iff.mpr hcoll)
      rw [hs] at ht
      cases ht
    | bound adapterType adapterInstanceId handle lease clock hb =>
      have ht := hold runId job hjob (collected_iff.mpr hcoll)
      simp [JobRow.bindable, ht] at hb
    | observed state lease clock hs => exact absurd hcoll hs
    | collected | finalized => rfl
    | cancelled =>
      revert hcoll
      show (if job.launchState = .prepared then CollectionState.notAvailable else .uncertain) = .collected → _
      split <;> exact fun h => nomatch h
    | missing => cases hcoll

/-- Every operation keeps the results. -/
theorem exec_results {values : ResultValues} (h : exec dg op db = .ok (r, db'))
    (hv : db.results.get? runId = some values) : db'.results.get? runId = some values := by
  by_cases hsave : op.writesResults = false
  · rw [(exec_frame h).results hsave]
    exact hv
  · cases op with
    | saveWorkerResult id =>
      obtain ⟨run, -, -, ⟨-, rfl⟩ | ⟨results, hins, rfl⟩⟩ := saveWorkerResult_ok h
      · exact hv
      · have hne : runId ≠ id := by
          rintro rfl
          rw [Table.insert?_fresh hins] at hv
          cases hv
        simp [Table.get?_insert hins, hne, hv]
    | _ => exact absurd rfl hsave

/-! ## Replays -/

theorem save_replay {values : ResultValues} (hv : db.results.get? runId = some values)
    (lease : LeaseArgs) (clock : Nat) :
    apply dg db (.saveWorkerResult runId values lease clock) = db := by
  rcases apply_cases dg db (.saveWorkerResult runId values lease clock) with h | ⟨_, h⟩
  · exact h
  · obtain ⟨run, -, -, ⟨-, hsame⟩ | ⟨results, hins, -⟩⟩ := saveWorkerResult_ok h
    · exact hsame
    · rw [Table.insert?_fresh hins] at hv
      cases hv

/-- The job is collected and its run has ended. -/
structure Finished (db : Db) (runId : String) : Prop where
  job : ∃ job, db.jobs.get? runId = some job ∧ job.collected = true
  run : ∃ run, db.runs.get? runId = some run ∧ run.state.active = false

theorem finalize_replay (hf : Finished db runId) (target : RunState) (detail : RunDetail) (release : WorkerRelease)
    (lease : HeldLease) (clock : Clock) :
    apply dg db (.finalizeProviderJobResult runId target detail release lease clock) = db := by
  obtain ⟨⟨job, hjob, hc⟩, run, hrun, hended⟩ := hf
  have hcoll : job.resultCollectionState = .collected := collected_iff.mp hc
  rcases apply_cases dg db (.finalizeProviderJobResult runId target detail release lease clock) with h | ⟨_, h⟩
  · exact h
  · obtain ⟨observation, job', run', task, -, hjob', -, hrun', -, -, hg, hdb⟩ := finalizeProviderJobResult_ok h
    obtain rfl : job = job' := Option.some.inj (hjob.symm.trans hjob')
    obtain rfl : run = run' := Option.some.inj (hrun.symm.trans hrun')
    have hruns : finalizedRuns db runId run task target detail (timestamp clock.now) = db.runs := by
      rcases hg with ⟨hact, -⟩ | hsame | hwins
      · rw [hended] at hact
        cases hact
      · exact if_neg fun hw => hw.1 hsame
      · exact if_neg fun hw => by rw [hw.2] at hwins; cases hwins
    rw [hdb, hruns]
    simp [finalizedWorkers, hcoll]

/-- A finalization finishes the job. -/
theorem finalize_finished {target : RunState} {detail : RunDetail} {release : WorkerRelease} {lease : HeldLease}
    {clock : Clock} {u : Unit}
    (h : exec dg (.finalizeProviderJobResult runId target detail release lease clock) db = .ok (u, db')) :
    Finished db' runId := by
  obtain ⟨observation, job, run, task, ho, hjob, -, hrun, -, -, hg, rfl⟩ := finalizeProviderJobResult_ok h
  have htarget : target.active = false := collectedObservation_inactive (by simp [ho])
  refine ⟨?_, ?_⟩
  · by_cases hc : job.resultCollectionState = .collected
    · exact ⟨job, by simp [hc, hjob], collected_iff.mpr hc⟩
    · exact ⟨job.collect observation (timestamp clock.now), by simp [hc, hjob], rfl⟩
  · unfold finalizedRuns
    split
    · exact ⟨run.finalize target detail (timestamp clock.now), by simp [hrun], htarget⟩
    · rename_i hkeep
      refine ⟨run, hrun, ?_⟩
      rcases hg with ⟨hact, -⟩ | hsame | hwins
      · by_cases hsame : run.state = target
        · rw [hsame]
          exact htarget
        · have hwins : cancellationWins run task = true := by
            by_contra hfalse
            exact hkeep ⟨hsame, by simpa using hfalse⟩
          simp only [cancellationWins, Bool.and_eq_true, decide_eq_true_eq] at hwins
          rw [hwins.1]
          rfl
      · rw [hsame]
        exact htarget
      · simp only [cancellationWins, Bool.and_eq_true, decide_eq_true_eq] at hwins
        rw [hwins.1]
        rfl

theorem exec_finished (h : exec dg op db = .ok (r, db')) (hold : CollectedTerminal db) (hf : Finished db runId) :
    Finished db' runId := by
  obtain ⟨⟨job, hjob, hc⟩, run, hrun, hended⟩ := hf
  have hkeep : ¬ Reopens db runId op := by
    intro hr
    cases op with
    | interruptMissingProviderJob =>
      obtain ⟨-, -, run', -, -, hrun', hact, -⟩ := hr
      obtain rfl : run = run' := Option.some.inj (hrun.symm.trans hrun')
      rw [hended] at hact
      cases hact
    | _ => exact hr
  obtain ⟨run', hrun', hu⟩ := exec_runs_some h hrun
  exact ⟨⟨job, exec_collectedRow h hjob hc (hold runId job hjob hc) hkeep, hc⟩,
    run', hrun', by rw [hu.ended hended]; exact hended⟩

theorem reopens_apply (h : Reopens db runId op) (hjob : db.jobs.get? runId = some job) (hc : job.collected = true) :
    (apply dg db op).jobs.get? runId ≠ some job := by
  cases op with
  | interruptMissingProviderJob id lease clock =>
    obtain ⟨rfl, job', run, hjob', -, hrun, hact, ⟨task, htask⟩, hl⟩ := h
    obtain rfl : job = job' := Option.some.inj (hjob.symm.trans hjob')
    have hf : fencedJob db id lease clock.lease = .ok job := fencedJob_ok.mpr ⟨hjob, hl⟩
    obtain ⟨u, db', hexec, hdb'⟩ : ∃ u db', interruptMissingProviderJob db id lease clock = .ok (u, db') ∧
        db'.jobs.get? id = some (job.missing (timestamp clock.now)) := by
      unfold interruptMissingProviderJob
      simp [hf, hrun, htask, hact, hjob, orRaise, Bind.bind, Except.bind, pure, Except.pure]
    have happly : apply dg db (.interruptMissingProviderJob id lease clock) = db' := by
      have : exec dg (.interruptMissingProviderJob id lease clock) db = .ok (u, db') := hexec
      simp [apply, this]
    rw [happly, hdb']
    intro hsame
    have hcoll : job.resultCollectionState = .collected := collected_iff.mp hc
    have hmissing := congrArg JobRow.resultCollectionState (Option.some.inj hsame)
    rw [hcoll] at hmissing
    cases hmissing
  | _ => cases h

end

/-! ## Sequences of operations -/

section

variable {runId : String}

/-- What is collected, ended or stored stays as it is. -/
structure Kept (runId : String) (db db' : Db) : Prop where
  job : ∀ job, db.jobs.get? runId = some job → job.collected = true → db'.jobs.get? runId = some job
  run : ∀ run, db.runs.get? runId = some run → run.state.active = false →
    ∃ run', db'.runs.get? runId = some run' ∧ run'.state = run.state
  result : ∀ values, db.results.get? runId = some values → db'.results.get? runId = some values

theorem Kept.refl (db : Db) : Kept runId db db := ⟨fun _ h _ => h, fun run h _ => ⟨run, h, rfl⟩, fun _ h => h⟩

theorem Kept.trans {a b c : Db} (h : Kept runId a b) (h' : Kept runId b c) : Kept runId a c where
  job job hjob hc := h'.job job (h.job job hjob hc) hc
  run run hrun hended := by
    obtain ⟨run', hrun', hstate⟩ := h.run run hrun hended
    obtain ⟨run'', hrun'', hstate'⟩ := h'.run run' hrun' (by rw [hstate]; exact hended)
    exact ⟨run'', hrun'', hstate'.trans hstate⟩
  result values hv := h'.result values (h.result values hv)

/-- No operation of the sequence reopens the job, in the state in which it runs. -/
def NeverReopened (dg : Digests) (db : Db) (runId : String) (ops : List StoreOp) : Prop :=
  ∀ pre op post, ops = pre ++ op :: post → ¬ Reopens (runOps dg db pre) runId op

/-- The replay of an operation of the sequence changes nothing at any later point. -/
def Replayable (dg : Digests) (ops : List StoreOp) (op : StoreOp) (replay : StoreOp) : Prop :=
  ∀ pre later post, ops = pre ++ op :: later ++ post → (∃ r db, exec dg op (runOps dg Db.initial pre) = .ok (r, db)) →
    apply dg (runOps dg Db.initial (pre ++ op :: later)) replay = runOps dg Db.initial (pre ++ op :: later)

/-- The collection of the result of a run is terminal along a sequence of operations. -/
structure CollectionTerminal (dg : Digests) (ops : List StoreOp) (runId : String) : Prop where
  kept : ∀ pre later post, ops = pre ++ later ++ post →
    Kept runId (runOps dg Db.initial pre) (runOps dg Db.initial (pre ++ later))
  once : (collections dg Db.initial ops).count runId ≤ 1
  saved : ∀ values lease clock lease' clock',
    Replayable dg ops (.saveWorkerResult runId values lease clock) (.saveWorkerResult runId values lease' clock')
  finalized : ∀ target detail release lease clock lease' clock',
    Replayable dg ops (.finalizeProviderJobResult runId target detail release lease clock)
      (.finalizeProviderJobResult runId target detail release lease' clock')

variable {db : Db}

theorem NeverReopened.tail {op : StoreOp} {ops : List StoreOp} (h : NeverReopened dg db runId (op :: ops)) :
    NeverReopened dg (apply dg db op) runId ops :=
  fun pre op' post e => h (op :: pre) op' post (by rw [e]; rfl)

theorem apply_collectedTerminal (h : CollectedTerminal db) (op : StoreOp) :
    CollectedTerminal (apply dg db op) := by
  rcases apply_cases dg db op with hsame | ⟨r, hexec⟩
  · rw [hsame]
    exact h
  · exact exec_collectedTerminal hexec h

theorem runOps_collectedTerminal (ops : List StoreOp) : CollectedTerminal (runOps dg Db.initial ops) :=
  runOps_invariant exec_collectedTerminal (fun _ _ h => by simp [Db.initial] at h) ops

/-- An operation that does not reopen the job keeps it. -/
theorem apply_kept {op : StoreOp} (h : CollectedTerminal db) (hkeep : ¬ Reopens db runId op) :
    Kept runId db (apply dg db op) := by
  rcases apply_cases dg db op with hsame | ⟨r, hexec⟩
  · rw [hsame]
    exact .refl db
  · refine ⟨fun job hjob hc => exec_collectedRow hexec hjob hc (h runId job hjob hc) hkeep, fun run hrun hended => ?_,
      fun values hv => exec_results hexec hv⟩
    obtain ⟨run', hrun', hu⟩ := exec_runs_some hexec hrun
    exact ⟨run', hrun', hu.ended hended⟩

/-- So does a sequence of them. -/
theorem runOps_kept (ops : List StoreOp) (h : CollectedTerminal db) (hkeep : NeverReopened dg db runId ops) :
    Kept runId db (runOps dg db ops) := by
  induction ops generalizing db with
  | nil => exact .refl db
  | cons op ops ih =>
    have hstep : Kept runId db (apply dg db op) := apply_kept h (hkeep [] op ops rfl)
    exact hstep.trans (ih (apply_collectedTerminal h op) hkeep.tail)

def hasCollected (db : Db) (runId : String) : Bool := (db.jobs.get? runId).any JobRow.collected

theorem hasCollected_iff :
    hasCollected db runId = true ↔ ∃ job, db.jobs.get? runId = some job ∧ job.collected = true := by
  simp [hasCollected, Option.any_eq_true]

/-- An event says that the result was not collected before, and is now. -/
theorem collectedBy_some {op : StoreOp} (h : collectedBy dg db op = some runId) :
    hasCollected db runId = false ∧ hasCollected (apply dg db op) runId = true := by
  unfold collectedBy at h
  split at h
  · rename_i result hexec
    obtain ⟨hcollects, hany⟩ := Option.filter_eq_some_iff.mp h
    have hbefore : hasCollected db runId = false := by
      obtain ⟨job, hjob, hc⟩ := (Option.any_eq_true _ _).mp hany
      simp only [Bool.not_eq_true'] at hc
      simp [hasCollected, hjob, hc]
    have happly : apply dg db op = result.2 := by simp [apply, hexec]
    rw [happly]
    refine ⟨hbefore, ?_⟩
    cases op with
    | markProviderJobResultCollected =>
      obtain rfl := Option.some.inj hcollects
      obtain ⟨old, observation, hold, -, ⟨hc, -, -⟩ | ⟨-, hjob, hdb⟩⟩ := markProviderJobResultCollected_ok hexec
      · simp [hasCollected, hold, collected_iff.mpr hc] at hbefore
      · rw [hdb, hjob]
        simp [hasCollected, writeJob, hold, JobRow.collected, JobRow.collect]
    | finalizeProviderJobResult =>
      obtain rfl := Option.some.inj hcollects
      exact hasCollected_iff.mpr (finalize_finished hexec).job
    | _ => cases hcollects
  · cases h

theorem collections_once (ops : List StoreOp) (h : CollectedTerminal db) (hkeep : NeverReopened dg db runId ops) :
    (collections dg db ops).count runId ≤ if hasCollected db runId = true then 0 else 1 := by
  induction ops generalizing db with
  | nil => simp [collections]
  | cons op ops ih =>
    have hrest := ih (apply_collectedTerminal h op) hkeep.tail
    have hstep : Kept runId db (apply dg db op) := apply_kept h (hkeep [] op ops rfl)
    have hstays : hasCollected db runId = true → hasCollected (apply dg db op) runId = true := by
      intro hc
      obtain ⟨job, hjob, hcoll⟩ := hasCollected_iff.mp hc
      exact hasCollected_iff.mpr ⟨job, hstep.job job hjob hcoll, hcoll⟩
    rw [collections, List.count_append]
    by_cases he : collectedBy dg db op = some runId
    · obtain ⟨hbefore, hafter⟩ := collectedBy_some he
      rw [if_pos hafter] at hrest
      rw [he, hbefore]
      simp
      omega
    · have hnone : (collectedBy dg db op).toList.count runId = 0 := by
        refine List.count_eq_zero.mpr fun hmem => he ?_
        exact Option.mem_toList.mp hmem
      rw [hnone, Nat.zero_add]
      split
      · rename_i hc
        rw [if_pos (hstays hc)] at hrest
        exact hrest
      · refine Nat.le_trans hrest ?_
        split <;> omega

theorem runOps_finished (ops : List StoreOp) (h : CollectedTerminal db) (hf : Finished db runId) :
    Finished (runOps dg db ops) runId := by
  induction ops generalizing db with
  | nil => exact hf
  | cons op ops ih =>
    refine ih (apply_collectedTerminal h op) ?_
    rcases apply_cases dg db op with hsame | ⟨r, hexec⟩
    · rw [hsame]
      exact hf
    · exact exec_finished hexec h hf

theorem runOps_results (ops : List StoreOp) {values : ResultValues} (hv : db.results.get? runId = some values) :
    (runOps dg db ops).results.get? runId = some values :=
  runOps_invariant (fun h hv => exec_results h hv) hv ops

theorem save_replayable (ops : List StoreOp) (values : ResultValues) (lease lease' : LeaseArgs) (clock clock' : Nat) :
    Replayable dg ops (.saveWorkerResult runId values lease clock) (.saveWorkerResult runId values lease' clock') := by
  rintro pre later post - ⟨u, db, hexec⟩
  have happly : apply dg (runOps dg Db.initial pre) (.saveWorkerResult runId values lease clock) = db := by
    simp [apply, hexec]
  rw [runOps_append, runOps_cons, happly]
  refine save_replay (runOps_results later ?_) lease' clock'
  obtain ⟨run, -, -, ⟨hv, rfl⟩ | ⟨results, hins, rfl⟩⟩ := saveWorkerResult_ok hexec
  · exact hv
  · simp [Table.get?_insert hins]

theorem finalize_replayable (ops : List StoreOp) (target : RunState) (detail : RunDetail) (release : WorkerRelease)
    (lease lease' : HeldLease) (clock clock' : Clock) :
    Replayable dg ops (.finalizeProviderJobResult runId target detail release lease clock)
      (.finalizeProviderJobResult runId target detail release lease' clock') := by
  rintro pre later post - ⟨u, db, hexec⟩
  have happly : apply dg (runOps dg Db.initial pre)
    (.finalizeProviderJobResult runId target detail release lease clock) =
      db := by simp [apply, hexec]
  rw [runOps_append, runOps_cons, happly]
  have hterminal : CollectedTerminal db := exec_collectedTerminal hexec (runOps_collectedTerminal pre)
  exact finalize_replay (runOps_finished later hterminal (finalize_finished hexec)) target detail release lease' clock'

/-- **Collection is terminal.**  Along every sequence of store operations by any callers, a collected job keeps its row,
an ended run its state and a stored result its values, at most one collection event is appended, and replays change
nothing, if and only if the run is never reported missing while it is active and its result collected. -/
theorem collection_terminal_iff (dg : Digests) (ops : List StoreOp) (runId : String) :
    CollectionTerminal dg ops runId ↔ NeverReopened dg Db.initial runId ops := by
  constructor
  · rintro h pre op post rfl hr
    have hjob : ∃ job, (runOps dg Db.initial pre).jobs.get? runId = some job ∧ job.collected = true := by
      cases op with
      | interruptMissingProviderJob id lease clock =>
        obtain ⟨-, job, -, hjob, hc, -⟩ := hr
        exact ⟨job, hjob, hc⟩
      | _ => cases hr
    obtain ⟨job, hjob, hc⟩ := hjob
    have hkept := (h.kept pre [op] post (by simp)).job job hjob hc
    rw [runOps_append] at hkept
    exact reopens_apply hr hjob hc hkept
  · intro hkeep
    refine ⟨fun pre later post e => ?_, ?_, fun values lease clock lease' clock' => ?_,
      fun target detail release lease clock lease' clock' => ?_⟩
    · rw [runOps_append]
      refine runOps_kept later (runOps_collectedTerminal pre) fun pre' op post' e' => ?_
      rw [← runOps_append]
      exact hkeep (pre ++ pre') op (post' ++ post) (by rw [e, e']; simp)
    · refine Nat.le_trans (collections_once ops (fun _ _ h => by simp [Db.initial] at h) hkeep) ?_
      split <;> omega
    · exact save_replayable ops values lease lease' clock clock'
    · exact finalize_replayable ops target detail release lease lease' clock clock'

end

/-- A run that is collected while it is active, and then reported missing and collected again. -/
def collectedTwice : List StoreOp :=
  claimedRun ++
    [.prepareProviderJob "run-1" "mock" "mock-1" {} ⟨"A", 1⟩ "1" ⟨0, 0⟩,
     .activateWorkerRun "run-1" (.held "A" 1) ⟨0, 0⟩,
     .markProviderJobResultCollected "run-1" .completed ⟨"A", 1⟩ ⟨0, 0⟩,
     .interruptMissingProviderJob "run-1" ⟨"A", 1⟩ ⟨0, 0⟩,
     .markProviderJobResultCollected "run-1" .completed ⟨"A", 1⟩ ⟨0, 0⟩]

private def jobState (ops : List StoreOp) : Option (CollectionState × ReconciliationState) :=
  ((runOps .trivial Db.initial ops).jobs.get? "run-1").map fun job =>
    (job.resultCollectionState, job.reconciliationState)

/-- The missing job gives its collected result up, and its collection is reported twice. -/
theorem collection_reopened :
    jobState (collectedTwice.take 6) = some (.collected, .knownCompleted) ∧
      jobState (collectedTwice.take 7) = some (.notAvailable, .providerNotFound) ∧
      (collections .trivial Db.initial collectedTwice).count "run-1" = 2 := by
  decide

end AgentFabric.Store
