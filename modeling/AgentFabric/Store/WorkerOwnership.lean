import AgentFabric.Store.Cancellation

/-!
# Who owns a worker

A worker is owned by its active run, or by a caller that has failed a run and has not given its worker back yet.
-/

namespace AgentFabric.Store

open AgentFabric.Lib

variable {dg : Digests}

/-- How a run that is not active has ended: `failed` and `ended` tell what callers have done on their own word. -/
structure Accounts (db : Db) (failed ended : String → Prop) : Prop where
  task : RunsHaveTasks db
  job : ∀ id job, db.jobs.get? id = some job → ∃ run, db.runs.get? id = some run ∧ job.taskId = run.taskId
  cancelled : ∀ id run, db.runs.get? id = some run → TaskCancelled db run.taskId → run.state.active = false
  ended : ∀ id run, db.runs.get? id = some run → run.state.active = false → run.state = .interrupted ∨ failed id ∨
    (run.state = .cancelled ∧ TaskCancelled db run.taskId) ∨
    (ended id ∧ ∃ job, db.jobs.get? id = some job ∧ job.resultCollectionState = .collected)

/-- Operations that end no run, or say so: a caller may fail a run or finalize it. -/
def StoreOp.accounted : StoreOp → Prop
  | .transitionTask _ target _ _ _ => target ≠ .cancelled
  | .transitionWorkerRun _ target _ _ _ => target = .waiting ∨ target = .failed
  | .createWorkerRun .. | .markProviderJobResultCollected .. => False
  | _ => True

variable {db db' : Db} {t id runId : String} {a : TaskRow}

/-- Only `cancelTaskExecution` cancels a task. -/
theorem exec_cancels {op : StoreOp} {r : op.Reply} (h : exec dg op db = .ok (r, db')) (hop : op.accounted)
    (ha : db.tasks.get? t = some a) (hs : a.state ≠ .cancelled) (hc : TaskCancelled db' t) :
    ∃ now, op = .cancelTaskExecution t now := by
  obtain ⟨b', hb', hcancelled⟩ := hc
  obtain ⟨b, hb, hu⟩ := exec_tasks_some h ha
  rw [hb'] at hb
  obtain rfl := Option.some.inj hb
  cases hu with
  | same => exact absurd hcancelled hs
  | dependency => exact absurd hcancelled hs
  | transition => exact absurd hcancelled hop
  | deferred => cases hcancelled
  | rescoped => exact absurd hcancelled hs
  | verified call criteria =>
    have htarget : verificationTarget call a criteria = .cancelled := hcancelled
    rcases verificationTarget_cases call a criteria with h | h | h <;> rw [h] at htarget <;> cases htarget
  | claimed => cases hcancelled
  | cancelled now => exact ⟨now, rfl⟩
  | counted => exact hop.elim
  | missing =>
    have hstate : (if a.state = .running then TaskState.interrupted else .ready) = .cancelled := hcancelled
    split at hstate <;> cases hstate
  | recovered => cases hcancelled

theorem exec_cancels_lease {op : StoreOp} {r : op.Reply} (h : exec dg op db = .ok (r, db')) (hop : op.accounted)
    (ha : db.tasks.get? t = some a) (hc : TaskCancelled db' t) :
    TaskCancelled db t ∨ ∀ lease, db'.leases.get? t = some lease → lease.state ≠ .active := by
  by_cases hs : a.state = .cancelled
  · exact Or.inl ⟨a, ha, hs⟩
  obtain ⟨now, rfl⟩ := exec_cancels h hop ha hs hc
  obtain ⟨_, _, ⟨_, _, rfl⟩ | ⟨_, _, rfl⟩⟩ := cancelTaskExecution_ok h
  · exact Or.inl hc
  · refine Or.inr fun lease hl => ?_
    rw [Table.get?_modify_self] at hl
    obtain ⟨old, _, rfl⟩ := Option.map_eq_some_iff.mp hl
    exact fun h => (by cases h)

variable {run : RunRow}

theorem cancelTaskExecution_inactive {now : Nat} {b : Bool} (h : cancelTaskExecution db t now = .ok (b, db'))
    (ha : db.tasks.get? t = some a) (hs : a.state ≠ .cancelled) (hc : TaskCancelled db' t)
    (hr : db'.runs.get? id = some run) (ht : run.taskId = t) :
    run.state.active = false := by
  obtain ⟨task, _, ⟨_, _, rfl⟩ | ⟨_, _, rfl⟩⟩ := cancelTaskExecution_ok h
  · obtain ⟨task', ht', hcancelled⟩ := hc
    rw [ha] at ht'
    exact absurd (Option.some.inj ht' ▸ hcancelled) hs
  · simp only [cancelRuns, Table.get?_updateWhere] at hr
    cases hold : db.runs.get? id with
    | none => simp [hold] at hr
    | some =>
      rw [hold, Option.map_some] at hr
      split at hr
      · obtain rfl := Option.some.inj hr
        rfl
      · rename_i hkept
        obtain rfl := Option.some.inj hr
        simpa [ht] using hkept

theorem cancelTaskExecution_cancels {now : Nat} {b : Bool} (h : cancelTaskExecution db t now = .ok (b, db'))
    (ha : db.tasks.get? t = some a) (hs : a.state.terminal = false) :
    TaskCancelled db' t := by
  obtain ⟨task, ht, ⟨_, hterm, _⟩ | ⟨_, _, rfl⟩⟩ := cancelTaskExecution_ok h
  · rw [ha] at ht
    rw [← Option.some.inj ht, hs] at hterm
    cases hterm
  · exact ⟨_, by simp [ha]; rfl, rfl⟩

theorem finalizeProviderJobResult_collected {target : RunState} {detail : RunDetail} {release : WorkerRelease}
    {lease : HeldLease} {clock : Clock} {u : Unit}
    (h : finalizeProviderJobResult db runId target detail release lease clock = .ok (u, db')) :
    ∃ job, db'.jobs.get? runId = some job ∧ job.resultCollectionState = .collected := by
  obtain ⟨_, job, _, _, _, hj, _, _, _, _, _, rfl⟩ := finalizeProviderJobResult_ok h
  by_cases hs : job.resultCollectionState ≠ .collected
  · exact ⟨_, by simp [hs, hj]; rfl, rfl⟩
  · exact ⟨job, by simp [hs, hj], not_not.mp hs⟩

theorem JobUpdate.collected_ended {a b : JobRow} {op : StoreOp} (h : JobUpdate db id a op b)
    (hc : a.resultCollectionState = .collected) (hr : db.runs.get? id = some run) (hs : run.state.active = false) :
    b.resultCollectionState = .collected := by
  cases h with
  | same => exact hc
  | launching => exact hc
  | bound => exact hc
  | observed => exact hc
  | collected => rfl
  | finalized => rfl
  | cancelled taskId now hact =>
    rw [isActiveRunOf, hr] at hact
    simp [hs] at hact
  | missing lease clock run' hr' hact =>
    rw [hr] at hr'
    rw [Option.some.inj hr', hact] at hs
    cases hs

section

variable {op : StoreOp} {db db' : Db} {r : op.Reply} {failed ended failed' ended' : String → Prop}

variable {id : String}

/-- A run was there before, or has just been claimed. -/
theorem exec_runs_cases (h : exec dg op db = .ok (r, db')) (hop : op.accounted) {run : RunRow}
    (hr : db'.runs.get? id = some run) :
    (∃ a, db.runs.get? id = some a ∧ RunUpdate db id a op run) ∨
    ∃ args task, op = .claimTaskDispatch args ∧ db.runs.get? id = none ∧ db.tasks.get? args.taskId = some task ∧
      task.state = .ready ∧ run.taskId = args.taskId ∧ run.state = .starting ∧ id = "run-" ++ args.uuid run.workerId ∧
      run.workerId ∈ fromKeys args.workerIds := by
  cases ha : db.runs.get? id with
  | some a =>
    obtain ⟨b, hb, hu⟩ := exec_runs_some h ha
    rw [hr] at hb
    obtain rfl := Option.some.inj hb
    exact Or.inl ⟨a, rfl, hu⟩
  | none =>
    rcases exec_runs_none h ha hr with ⟨args, task, rfl, ht, hs, hmem⟩ | ⟨_, _, _, _, _, _, _, rfl, _⟩
    · obtain ⟨w, hw, he⟩ := List.mem_map.mp hmem
      obtain ⟨rfl, rfl⟩ := Prod.mk.inj he
      exact Or.inr ⟨args, task, rfl, rfl, ht, hs, rfl, rfl, rfl, hw⟩
    · exact hop.elim

theorem Accounts.step_job (hA : Accounts db failed ended) (h : exec dg op db = .ok (r, db')) {job : JobRow}
    (hj : db'.jobs.get? id = some job) : ∃ run, db'.runs.get? id = some run ∧ job.taskId = run.taskId := by
  have kept : ∀ run, db.runs.get? id = some run → ∃ run', db'.runs.get? id = some run' ∧ run'.taskId = run.taskId := by
    intro run hr
    obtain ⟨b, hb, hu⟩ := exec_runs_some h hr
    exact ⟨b, hb, hu.ident.1⟩
  cases ha : db.jobs.get? id with
  | some a =>
    obtain ⟨b, hb, hu⟩ := exec_jobs_some h ha
    rw [hj] at hb
    obtain rfl := Option.some.inj hb
    obtain ⟨run, hr, ht⟩ := hA.job id a ha
    obtain ⟨run', hr', ht'⟩ := kept run hr
    exact ⟨run', hr', by rw [hu.intent.1, ht, ht']⟩
  | none =>
    obtain ⟨_, _, _, _, _, _, run, _, hr, _, rfl⟩ := exec_jobs_none h ha hj
    obtain ⟨run', hr', ht'⟩ := kept run hr
    exact ⟨run', hr', ht'.symm⟩

theorem Accounts.step_cancelled (hA : Accounts db failed ended) (h : exec dg op db = .ok (r, db'))
    (hop : op.accounted) {run : RunRow} (hr : db'.runs.get? id = some run) (hc : TaskCancelled db' run.taskId) :
    run.state.active = false := by
  rcases exec_runs_cases h hop hr with ⟨a, ha, hu⟩ | ⟨args, task, rfl, _, ht, hs, htask, _⟩
  · by_cases hbefore : TaskCancelled db a.taskId
    · have hended := hA.cancelled id a ha hbefore
      rw [hu.ended hended]
      exact hended
    · obtain ⟨task, ht⟩ := hA.task id a ha
      have hs : task.state ≠ .cancelled := fun hs => hbefore ⟨task, ht, hs⟩
      rw [hu.ident.1] at hc
      obtain ⟨now, rfl⟩ := exec_cancels h hop ht hs hc
      exact cancelTaskExecution_inactive h ht hs hc hr hu.ident.1
  · rw [htask] at hc
    obtain ⟨now, hnow⟩ := exec_cancels h hop ht (by rw [hs]; exact fun h => (by cases h)) hc
    cases hnow

theorem Accounts.step_ended (hA : Accounts db failed ended) (h : exec dg op db = .ok (r, db')) (hop : op.accounted)
    (hf : ∀ id, failed id → failed' id) (he : ∀ id, ended id → ended' id)
    (hfail : ∀ id detail lease clock, op = .transitionWorkerRun id .failed detail lease clock → failed' id)
    (hend : ∀ id target detail release lease clock,
      op = .finalizeProviderJobResult id target detail release lease clock → ended' id) {run : RunRow}
    (hr : db'.runs.get? id = some run) (hs : run.state.active = false) :
    run.state = .interrupted ∨ failed' id ∨ (run.state = .cancelled ∧ TaskCancelled db' run.taskId) ∨
      (ended' id ∧ ∃ job, db'.jobs.get? id = some job ∧ job.resultCollectionState = .collected) := by
  rcases exec_runs_cases h hop hr with ⟨a, ha, hu⟩ | ⟨_, _, _, _, _, _, _, hstart, _⟩
  · have hident := hu.ident.1
    by_cases hact : a.state.active = true
    · cases hu with
      | same => rw [hact] at hs; cases hs
      | activated => cases hs
      | cancelled task now _ ht hterm =>
        exact Or.inr (Or.inr (Or.inl ⟨rfl, cancelTaskExecution_cancels h ht hterm⟩))
      | transitioned =>
        rcases hop with rfl | rfl
        · cases hs
        · exact Or.inr (Or.inl (hfail _ _ _ _ rfl))
      | finalized =>
        exact Or.inr (Or.inr (Or.inr ⟨hend _ _ _ _ _ _ rfl, finalizeProviderJobResult_collected h⟩))
      | missing => exact Or.inl rfl
      | event =>
        have hsame : a.state.active = false := hs
        rw [hact] at hsame
        cases hsame
      | recovered => exact Or.inl rfl
    · have hended : a.state.active = false := by simpa using hact
      rw [hu.ended hended, hident]
      rcases hA.ended id a ha hended with hi | hfailed | ⟨hcancelled, htask⟩ | ⟨hdone, job, hj, hcol⟩
      · exact Or.inl hi
      · exact Or.inr (Or.inl (hf id hfailed))
      · refine Or.inr (Or.inr (Or.inl ⟨hcancelled, exec_cancelled h htask ?_⟩))
        -- a requeue needs an active run of the cancelled task
        intro hq
        cases op with
        | interruptMissingProviderJob runId =>
          obtain ⟨job, other, hj, htid, hother, hactive, _⟩ := hq
          obtain ⟨other', hother', hjt⟩ := hA.job runId job hj
          rw [hother] at hother'
          obtain rfl := Option.some.inj hother'
          have hdead := hA.cancelled runId other hother (by rw [← hjt, htid]; exact htask)
          rw [hactive] at hdead
          cases hdead
        | _ => exact hq.elim
      · obtain ⟨job', hj', hju⟩ := exec_jobs_some h hj
        exact Or.inr (Or.inr (Or.inr ⟨he id hdone, job', hj', hju.collected_ended hcol ha hended⟩))
  · rw [hstart] at hs
    cases hs

/-- An accounted operation keeps the accounts. -/
theorem Accounts.step (hA : Accounts db failed ended) (h : exec dg op db = .ok (r, db')) (hop : op.accounted)
    (hf : ∀ id, failed id → failed' id) (he : ∀ id, ended id → ended' id)
    (hfail : ∀ id detail lease clock, op = .transitionWorkerRun id .failed detail lease clock → failed' id)
    (hend : ∀ id target detail release lease clock,
      op = .finalizeProviderJobResult id target detail release lease clock → ended' id) :
    Accounts db' failed' ended' where
  task := exec_runsHaveTasks h hA.task
  job _ _ hj := hA.step_job h hj
  cancelled _ _ hr hc := hA.step_cancelled h hop hr hc
  ended _ _ hr hs := hA.step_ended h hop hf he hfail hend hr hs

end

/-! ## Ownership -/

/-- A worker with an active run, or with a failed run whose worker is still to be given back, is not idle and is nobody
else's. -/
structure Exclusive (db : Db) (pending : List (Nat × String)) : Prop where
  held : ∀ id run, db.runs.get? id = some run → run.state.active = true →
    ∃ row, db.workers.get? run.workerId = some row ∧ row.state ≠ .idle
  alone : ∀ id id' run run', db.runs.get? id = some run → db.runs.get? id' = some run' → run.state.active = true →
    run'.state.active = true → run.workerId = run'.workerId → id = id'
  owed : ∀ p ∈ pending, ∃ run, db.runs.get? p.2 = some run ∧ ¬ Occupied db.runs run.workerId ∧
    ∃ row, db.workers.get? run.workerId = some row ∧ row.state ≠ .idle
  owedAlone : ∀ p ∈ pending, ∀ p' ∈ pending, ∀ run run', db.runs.get? p.2 = some run → db.runs.get? p'.2 = some run' →
    run.workerId = run'.workerId → p = p'

/-- Operations that take a worker or give it back on what they find in the store; a finalization of the runs `F`. -/
def StoreOp.tame (F : String → Prop) : StoreOp → Prop
  | .setWorkerState _ state _ _ _ _ => state ≠ .idle
  | .transitionWorkerRun _ target _ _ _ => target = .waiting
  | .finalizeProviderJobResult runId _ _ _ _ _ => F runId
  | op => op.accounted

theorem StoreOp.tame.accounted {F : String → Prop} {op : StoreOp} (h : op.tame F) : op.accounted := by
  cases op with
  | transitionWorkerRun => exact Or.inl h
  | setWorkerState => trivial
  | finalizeProviderJobResult => trivial
  | _ => exact h

section

variable {op : StoreOp} {db db' : Db} {r : op.Reply} {failed ended F : String → Prop} {pending : List (Nat × String)}

theorem claim_worker {args : DispatchArgs} {reply : Option DispatchClaim}
    (h : exec dg (.claimTaskDispatch args) db = .ok (reply, db')) {id : String} {run : RunRow}
    (hnew : db.runs.get? id = none) (hr : db'.runs.get? id = some run) (hw : run.workerId ∈ fromKeys args.workerIds) :
    (∃ row, db.workers.get? run.workerId = some row ∧ row.state = .idle) ∧
      ∃ row', db'.workers.get? run.workerId = some row' ∧ row'.state ≠ .idle := by
  rcases claimTaskDispatch_ok h with ⟨_, rfl⟩ | ⟨_, _, _, _, _, _, _, hidle, _, _, _, rfl⟩
  · rw [hnew] at hr
    cases hr
  · have hrow : ∃ row, db.workers.get? run.workerId = some row ∧ row.state = .idle := by
      have hall := List.all_eq_true.mp hidle _ hw
      simpa [Option.any_eq_true] using hall
    obtain ⟨row, hrow, hs⟩ := hrow
    refine ⟨⟨row, hrow, hs⟩, row.withState .starting, ?_, fun h => (by cases h)⟩
    simp [reserveWorkers, Table.get?_updateWhere, hrow, hs, hw]

/-- A worker that is not idle stays so, unless its active run has just ended. -/
theorem Accounts.not_idle (hA : Accounts db failed ended) (h : exec dg op db = .ok (r, db')) (hop : op.tame F)
    (hF : ∀ id, F id → ¬ failed id) (hreg : ∀ w row, op = .upsertWorker w row → db.workers.get? w = none) {w : String}
    {row : WorkerRow} (hrow : db.workers.get? w = some row) (hs : row.state ≠ .idle) :
    ∃ row', db'.workers.get? w = some row' ∧
      (row'.state ≠ .idle ∨ (Occupied db.runs w ∧ ¬ Occupied db'.runs w)) := by
  obtain ⟨row', hrow', hu⟩ := exec_workers_some h hrow
  refine ⟨row', hrow', ?_⟩
  cases hu with
  | same => exact Or.inl hs
  | registered =>
    rw [hreg w row' rfl] at hrow
    cases hrow
  | set => exact Or.inl hop
  | claimed => exact Or.inl fun h => (by cases h)
  | reserved => exact Or.inl fun h => (by cases h)
  | activated => exact Or.inl fun h => (by cases h)
  | released _ hbusy hfree => exact Or.inr ⟨hbusy, hfree⟩
  | finalized runId target detail release lease clock run job task hr hw ht hwin hj hc ho hrun hfree =>
    refine Or.inr ⟨?_, hfree⟩
    by_cases hact : run.state.active = true
    · exact ⟨runId, run, hr, hw, hact⟩
    · -- the run had ended before: it was failed, cancelled with its task or collected
      exfalso
      have htarget : run.state = target := hrun.resolve_left hact
      rcases hA.ended runId run hr (by simpa using hact) with hi | hfailed | ⟨hcancelled, task', ht', hcan⟩ |
        ⟨_, job', hj', hcol⟩
      · rw [← htarget, hi] at ho
        cases ho
      · exact hF runId hop hfailed
      · rw [ht] at ht'
        obtain rfl := Option.some.inj ht'
        simp [cancellationWins, hcancelled, hcan] at hwin
      · rw [hj] at hj'
        exact hc (Option.some.inj hj' ▸ hcol)

/-- Every tame operation keeps the ownership of the workers. -/
theorem Exclusive.step (hE : Exclusive db pending) (hA : Accounts db failed ended) (h : exec dg op db = .ok (r, db'))
    (hop : op.tame F) (hF : ∀ id, F id → ¬ failed id)
    (hreg : ∀ w row, op = .upsertWorker w row → db.workers.get? w = none) : Exclusive db' pending := by
  -- an active run after the operation was active before, or is a new run on an idle worker
  have hcases : ∀ id run, db'.runs.get? id = some run → run.state.active = true →
      (∃ a, db.runs.get? id = some a ∧ a.state.active = true ∧ run.workerId = a.workerId) ∨
      ∃ args : DispatchArgs, id = "run-" ++ args.uuid run.workerId ∧ op = .claimTaskDispatch args ∧
        (∃ row, db.workers.get? run.workerId = some row ∧ row.state = .idle) ∧
        ∃ row', db'.workers.get? run.workerId = some row' ∧ row'.state ≠ .idle := by
    intro id run hr hact
    rcases exec_runs_cases h hop.accounted hr with ⟨a, ha, hu⟩ | ⟨args, _, rfl, hnew, _, _, _, _, hid, hw⟩
    · refine Or.inl ⟨a, ha, ?_, hu.ident.2.1⟩
      by_contra hdead
      rw [hu.ended (by simpa using hdead)] at hact
      exact hdead hact
    · exact Or.inr ⟨args, hid, rfl, claim_worker h hnew hr hw⟩
  constructor
  · intro id run hr hact
    rcases hcases id run hr hact with ⟨a, ha, hacta, hwk⟩ | ⟨_, _, _, _, hrow'⟩
    · obtain ⟨row, hrow, hs⟩ := hE.held id a ha hacta
      rw [← hwk] at hrow
      obtain ⟨row', hrow', hs' | ⟨_, hfree⟩⟩ := hA.not_idle h hop hF hreg hrow hs
      · exact ⟨row', hrow', hs'⟩
      · exact absurd ⟨id, run, hr, rfl, hact⟩ hfree
    · exact hrow'
  · intro id id' run run' hr hr' hact hact' hwk
    rcases hcases id run hr hact with ⟨a, ha, hacta, hwa⟩ | ⟨args, hid, hclaim, ⟨row, hrow, hidle⟩, _⟩ <;>
      rcases hcases id' run' hr' hact' with ⟨a', ha', hacta', hwa'⟩ | ⟨args', hid', hclaim', ⟨row', hrow', hidle'⟩, _⟩
    · exact hE.alone id id' a a' ha ha' hacta hacta' (by rw [← hwa, ← hwa', hwk])
    · obtain ⟨old, hold, hs⟩ := hE.held id a ha hacta
      rw [← hwa, hwk, hrow'] at hold
      exact absurd (Option.some.inj hold ▸ hidle') hs
    · obtain ⟨old, hold, hs⟩ := hE.held id' a' ha' hacta'
      rw [← hwa', ← hwk, hrow] at hold
      exact absurd (Option.some.inj hold ▸ hidle) hs
    · rw [hclaim] at hclaim'
      cases hclaim'
      rw [hid, hid', hwk]
  · intro p hp
    obtain ⟨run, hr, hfree, row, hrow, hs⟩ := hE.owed p hp
    obtain ⟨run', hr', hu⟩ := exec_runs_some h hr
    have hwk : run'.workerId = run.workerId := hu.ident.2.1
    refine ⟨run', hr', ?_, ?_⟩
    · rintro ⟨id, other, hother, hw, hact⟩
      rcases hcases id other hother hact with ⟨a, ha, hacta, hwa⟩ | ⟨_, _, _, ⟨old, hold, hidle⟩, _⟩
      · exact hfree ⟨id, a, ha, by rw [← hwa, hw, hwk], hacta⟩
      · rw [hw, hwk, hrow] at hold
        exact hs (Option.some.inj hold ▸ hidle)
    · rw [hwk]
      obtain ⟨row', hrow', hs' | ⟨hbusy, _⟩⟩ := hA.not_idle h hop hF hreg hrow hs
      · exact ⟨row', hrow', hs'⟩
      · exact absurd hbusy hfree
  · intro p hp p' hp' run run' hr hr' hwk
    obtain ⟨a, ha, _⟩ := hE.owed p hp
    obtain ⟨a', ha', _⟩ := hE.owed p' hp'
    obtain ⟨b, hb, hu⟩ := exec_runs_some h ha
    obtain ⟨b', hb', hu'⟩ := exec_runs_some h ha'
    rw [hr] at hb
    rw [hr'] at hb'
    obtain rfl := Option.some.inj hb
    obtain rfl := Option.some.inj hb'
    exact hE.owedAlone p hp p' hp' a a' ha ha' (by rw [← hu.ident.2.1, ← hu'.ident.2.1, hwk])

end

/-- A caller that fails an active run owes its worker. -/
theorem Exclusive.fail {pending : List (Nat × String)} {detail : RunDetail} {lease : LeaseArgs} {clock : Clock}
    {u : Unit} (hE : Exclusive db pending)
    (h : transitionWorkerRun db runId .failed detail lease clock = .ok (u, db'))
    (hrun : db.runs.get? runId = some run) (hact : run.state.active = true) (i : Nat) :
    Exclusive db' ((i, runId) :: pending) := by
  obtain ⟨run', hrun', _, _, rfl⟩ := transitionWorkerRun_ok h
  rw [hrun] at hrun'
  obtain rfl := Option.some.inj hrun'
  set failed := run.transition .failed detail (timestamp clock.now) with hfailed
  have hget : ∀ id, (db.runs.modify runId fun _ => failed).get? id =
      if id = runId then some failed else db.runs.get? id := by
    intro id
    by_cases hid : id = runId
    · subst hid
      simp [hrun]
    · simp [hid]
  -- the other active runs are as before
  have hother : ∀ id b, (db.runs.modify runId fun _ => failed).get? id = some b → b.state.active = true →
      id ≠ runId ∧ db.runs.get? id = some b := by
    intro id b hb hb'
    rw [hget] at hb
    split at hb
    · obtain rfl := Option.some.inj hb
      cases hb'
    · exact ⟨‹_›, hb⟩
  have hfree : ¬ Occupied (db.runs.modify runId fun _ => failed) run.workerId := by
    rintro ⟨id, b, hb, hw, hb'⟩
    obtain ⟨hne, hold⟩ := hother id b hb hb'
    exact hne (hE.alone id runId b run hold hrun hb' hact hw)
  constructor
  · intro id b hb hb'
    exact hE.held id b (hother id b hb hb').2 hb'
  · intro id id' b b' hb hb' hact hact' hw
    exact hE.alone id id' b b' (hother id b hb hact).2 (hother id' b' hb' hact').2 hact hact' hw
  · intro p hp
    rcases List.mem_cons.mp hp with rfl | hp
    · exact ⟨failed, by simp [hget], hfree, hE.held runId run hrun hact⟩
    · obtain ⟨a, ha, hfreea, hrow⟩ := hE.owed p hp
      have hne : p.2 ≠ runId := by
        rintro rfl
        rw [hrun] at ha
        obtain rfl := Option.some.inj ha
        exact hfreea ⟨p.2, run, hrun, rfl, hact⟩
      refine ⟨a, by rw [hget, if_neg hne]; exact ha, ?_, hrow⟩
      rintro ⟨id, b, hb, hw, hb'⟩
      exact hfreea ⟨id, b, (hother id b hb hb').2, hw, hb'⟩
  · -- a worker that was owed before had no active run
    have hclash : ∀ p ∈ pending, ∀ a, (db.runs.modify runId fun _ => failed).get? p.2 = some a →
        a.workerId ≠ run.workerId := by
      intro p hp a ha hw
      obtain ⟨a', ha', hfreea, _⟩ := hE.owed p hp
      rw [hget] at ha
      split at ha
      · rename_i hid
        rw [hid, hrun] at ha'
        obtain rfl := Option.some.inj ha'
        exact hfreea ⟨runId, run, hrun, rfl, hact⟩
      · rw [ha'] at ha
        obtain rfl := Option.some.inj ha
        exact hfreea ⟨runId, run, hrun, hw.symm, hact⟩
    have hself : ∀ a, (db.runs.modify runId fun _ => failed).get? runId = some a → a.workerId = run.workerId := by
      intro a ha
      rw [hget, if_pos rfl] at ha
      obtain rfl := Option.some.inj ha
      rfl
    intro p hp p' hp' a a' ha ha' hw
    rcases List.mem_cons.mp hp with rfl | hp <;> rcases List.mem_cons.mp hp' with rfl | hp'
    · rfl
    · exact absurd (hw.symm.trans (hself a ha)) (hclash p' hp' a' ha')
    · exact absurd (hw.trans (hself a' ha')) (hclash p hp a ha)
    · obtain ⟨b, hb, hfreeb, _⟩ := hE.owed p hp
      obtain ⟨b', hb', hfreeb', _⟩ := hE.owed p' hp'
      have hkeep : ∀ q : Nat × String, ∀ c, db.runs.get? q.2 = some c → ¬ Occupied db.runs c.workerId →
        q.2 ≠ runId := by
        rintro q c hc hfreec hq
        rw [hq, hrun] at hc
        obtain rfl := Option.some.inj hc
        exact hfreec ⟨runId, run, hrun, rfl, hact⟩
      rw [hget, if_neg (hkeep p b hb hfreeb)] at ha
      rw [hget, if_neg (hkeep p' b' hb' hfreeb')] at ha'
      exact hE.owedAlone p hp p' hp' a a' ha ha' hw

/-- The caller gives the worker back. -/
theorem Exclusive.release {pending : List (Nat × String)} {workerId : String} {resource : Option ResourceState}
    {model : Option String} {fence : WorkerFence} {clock : Clock} {u : Unit} (hE : Exclusive db pending)
    (h : setWorkerState db workerId .idle resource model fence clock = .ok (u, db')) {i : Nat}
    (howed : (i, runId) ∈ pending) (hrun : db.runs.get? runId = some run) (hw : run.workerId = workerId) :
    Exclusive db' (pending.filter fun p => decide (p.1 ≠ i)) := by
  obtain ⟨_, rfl⟩ := setWorkerState_ok h
  obtain ⟨run', hrun', hfree, _⟩ := hE.owed _ howed
  rw [hrun] at hrun'
  obtain rfl := Option.some.inj hrun'
  constructor
  · intro id b hb hact
    have hne : b.workerId ≠ workerId := by
      rintro hbw
      exact hfree ⟨id, b, hb, by rw [hbw, hw], hact⟩
    simpa [hne] using hE.held id b hb hact
  · exact hE.alone
  · intro p hp
    obtain ⟨hp, hne⟩ := List.mem_filter.mp hp
    obtain ⟨a, ha, hfreea, row, hrow, hs⟩ := hE.owed p hp
    have hother : a.workerId ≠ workerId := by
      intro haw
      have hsame := hE.owedAlone p hp _ howed a run ha hrun (haw.trans hw.symm)
      rw [hsame] at hne
      simp at hne
    exact ⟨a, ha, hfreea, row, by simpa [hother] using hrow, hs⟩
  · intro p hp p' hp'
    exact hE.owedAlone p (List.mem_of_mem_filter hp) p' (List.mem_of_mem_filter hp')

end AgentFabric.Store
