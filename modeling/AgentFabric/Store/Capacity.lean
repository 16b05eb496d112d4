import AgentFabric.Store.Changes

/-!
# Workers that nobody gives back

A worker is taken together with the run that it is for, and given back together with the last of its runs, by every
operation but two: a run is moved to its end on its own, and a worker is set to any state on its own.
-/

namespace AgentFabric.Store

open AgentFabric.Lib

variable {dg : Digests}

/-- The operations that set a worker whatever its runs are. -/
def StoreOp.givesBack (w : String) : StoreOp → Bool
  | .setWorkerState workerId .. | .upsertWorker workerId _ => decide (workerId = w)
  | _ => false

/-- No worker is taken without a run, and the worker of a finalized run is not kept busy. -/
def StoreOp.crewed : StoreOp → Bool
  | .claimWorkers _ | .markProviderJobResultCollected .. => false
  | .upsertWorker _ row => !row.state.busy
  | .finalizeProviderJobResult _ _ _ release _ _ => !release.state.busy
  | _ => true

/-- Every busy worker has an active run or is owed, and a run whose result was collected is not active. -/
structure Crewed (db : Db) (owed : String → Prop) : Prop where
  busy : ∀ w row, db.workers.get? w = some row → row.state.busy = true → Occupied db.runs w ∨ owed w
  collected : ∀ id job, db.jobs.get? id = some job → ∃ run, db.runs.get? id = some run ∧
    (job.resultCollectionState = .collected → run.state.active = false)

section

variable {op : StoreOp} {db db' : Db} {r : op.Reply} {w : String}

variable {a b : WorkerRow}

theorem claimTaskDispatch_occupies {args : DispatchArgs} {reply : Option DispatchClaim}
    (h : exec dg (.claimTaskDispatch args) db = .ok (reply, db')) (ha : db.workers.get? w = some a)
    (hb : db'.workers.get? w = some b) : b = a ∨ Occupied db'.runs w := by
  rcases claimTaskDispatch_ok h with ⟨_, rfl⟩ | ⟨task, runs, _, _, _, _, _, _, _, hi, _, rfl⟩
  · rw [ha] at hb
    exact Or.inl (Option.some.inj hb).symm
  · simp only [reserveWorkers, Table.get?_updateWhere, ha, Option.map_some, Option.some.injEq] at hb
    split at hb
    · rename_i hsel
      simp only [Bool.and_eq_true, decide_eq_true_eq] at hsel
      refine Or.inr ⟨_, _, (Table.get?_insertAll hi).mpr (Or.inr (List.mem_map.mpr ⟨w, hsel.1, rfl⟩)), rfl, rfl⟩
    · exact Or.inl hb.symm

theorem activateWorkerRun_occupies {runId : String} {lease : LeaseArgs} {clock : Clock} {reply : Bool}
    (h : exec dg (.activateWorkerRun runId lease clock) db = .ok (reply, db')) (ha : db.workers.get? w = some a)
    (hb : db'.workers.get? w = some b) : b = a ∨ Occupied db'.runs w := by
  obtain ⟨run, _, hr, _, _, ⟨_, rfl⟩ | ⟨_, _, _, _, rfl⟩⟩ := activateWorkerRun_ok h
  · rw [ha] at hb
    exact Or.inl (Option.some.inj hb).symm
  · by_cases hw : w = run.workerId
    · exact Or.inr ⟨runId, run.activate (timestamp clock.now), by simp [hr], hw.symm, rfl⟩
    · simp only [ne_eq, hw, not_false_eq_true, Table.get?_modify_ne, ha, Option.some.injEq] at hb
      exact Or.inl hb.symm

/-- A worker that is busy was busy before, has an active run, or was set so. -/
theorem exec_takes (h : exec dg op db = .ok (r, db')) (hop : op.crewed = true) (hb : db'.workers.get? w = some b)
    (hbusy : b.state.busy = true) :
    (∃ a, db.workers.get? w = some a ∧ a.state.busy = true ∧ op.givesBack w = false) ∨ Occupied db'.runs w ∨
      ∃ state resource model fence clock, op = .setWorkerState w state resource model fence clock ∧
        state.busy = true := by
  cases ha : db.workers.get? w with
  | none =>
    obtain rfl := exec_workers_none h ha hb
    simp [StoreOp.crewed, hbusy] at hop
  | some a =>
    -- an operation that sets no worker leaves the row, or gives it back idle
    have hkept : op.givesBack w = false → b = a ∨ b.state.busy = false →
        (∃ a', some a = some a' ∧ a'.state.busy = true ∧ op.givesBack w = false) := by
      rintro hg (rfl | hfree)
      · exact ⟨b, rfl, hbusy, hg⟩
      · rw [hbusy] at hfree
        cases hfree
    obtain ⟨b', hb', hu⟩ := exec_workers_some h ha
    rw [hb] at hb'
    obtain rfl := Option.some.inj hb'
    cases op with
    | setWorkerState workerId state resource model fence clock =>
      by_cases hw : workerId = w
      · subst hw
        obtain ⟨_, rfl⟩ := setWorkerState_ok h
        simp only [Table.get?_modify_self, ha, Option.map_some, Option.some.injEq] at hb
        subst hb
        exact Or.inr (Or.inr ⟨state, resource, model, fence, clock, rfl, hbusy⟩)
      · refine Or.inl (hkept (by simp [StoreOp.givesBack, hw]) (Or.inl ?_))
        cases hu with
        | same => rfl
        | set => exact absurd rfl hw
        | released _ hocc hfree =>
          obtain ⟨_, rfl⟩ := setWorkerState_ok h
          exact absurd hocc hfree
    | upsertWorker workerId =>
      by_cases hw : workerId = w
      · subst hw
        cases h
        simp only [Table.get?_upsert, if_true, Option.some.injEq] at hb
        subst hb
        simp [StoreOp.crewed, hbusy] at hop
      · refine Or.inl (hkept (by simp [StoreOp.givesBack, hw]) ?_)
        cases hu with
        | same => exact Or.inl rfl
        | registered => exact absurd rfl hw
        | released => exact Or.inr rfl
    | claimTaskDispatch =>
      rcases claimTaskDispatch_occupies h ha hb with hsame | hocc
      · exact Or.inl (hkept rfl (Or.inl hsame))
      · exact Or.inr (Or.inl hocc)
    | activateWorkerRun =>
      rcases activateWorkerRun_occupies h ha hb with hsame | hocc
      · exact Or.inl (hkept rfl (Or.inl hsame))
      · exact Or.inr (Or.inl hocc)
    | finalizeProviderJobResult runId target detail release =>
      refine Or.inl (hkept rfl ?_)
      cases hu with
      | same => exact Or.inl rfl
      | released => exact Or.inr rfl
      | finalized =>
        have hfree : release.state.busy = false := by simpa [StoreOp.crewed] using hop
        exact Or.inr hfree
    | claimWorkers => cases hop
    | _ =>
      refine Or.inl (hkept rfl ?_)
      cases hu with
      | same => exact Or.inl rfl
      | released => exact Or.inr rfl

theorem hasActiveRun_of_not_occupied {runs : Table String RunRow} {except : Option String} (h : ¬ Occupied runs w) :
    workerHasActiveRun runs w except = false := by
  refine workerHasActiveRun_eq_false.mpr fun id run hr hw _ => ?_
  by_contra hne
  exact h ⟨id, run, hr, hw, by simpa using hne⟩

theorem busy_releasable {s : WorkerState} (h : s.busy = true) : s.releasable = true := by
  cases s <;> first | rfl | cases h

/-- The worker of a run that ends is given back with its last run, unless the run was moved to its end on its own. -/
theorem exec_gives_back (hcol : ∀ id job, db.jobs.get? id = some job → ∃ run, db.runs.get? id = some run ∧
      (job.resultCollectionState = .collected → run.state.active = false)) (h : exec dg op db = .ok (r, db'))
    (hop : op.crewed = true) (hocc : Occupied db.runs w) (hfree : ¬ Occupied db'.runs w)
    (hb : db'.workers.get? w = some b) :
    b.state.busy = false ∨ ∃ id target detail lease clock run,
      op = .transitionWorkerRun id target detail lease clock ∧ target.active = false ∧ db.runs.get? id = some run ∧
      run.workerId = w := by
  obtain ⟨id, run, hr, hw, hact⟩ := hocc
  obtain ⟨run', hr', hu⟩ := exec_runs_some h hr
  have hend : run'.state.active = false := by
    by_contra hne
    exact hfree ⟨id, run', hr', hu.ident.2.1.trans hw, by simpa using hne⟩
  cases hu with
  | same => rw [hact] at hend; cases hend
  | activated => cases hend
  | cancelled task now _ ht hs =>
    left
    obtain ⟨task', ht', ⟨_, hterm, _⟩ | ⟨_, _, rfl⟩⟩ := cancelTaskExecution_ok h
    · rw [ht] at ht'
      rw [← Option.some.inj ht', hs] at hterm
      cases hterm
    · have hany : db.runs.any (fun _ x => decide (x.taskId = run.taskId) && x.state.active && decide (x.workerId = w)) =
          true := Table.any_eq_true.mpr ⟨id, run, hr, by simp [hact, hw]⟩
      have hno : workerHasActiveRun (cancelRuns db run.taskId (timestamp now)) w none = false :=
        hasActiveRun_of_not_occupied hfree
      cases ha : db.workers.get? w with
      | none => simp [cancelWorkers, Table.get?_updateWhere, ha] at hb
      | some a =>
        simp only [cancelWorkers, Table.get?_updateWhere, ha, Option.map_some, Option.some.injEq, hany, hno] at hb
        by_cases hrel : a.state.releasable = true
        · simp only [hrel, Bool.not_false, Bool.and_self, if_true] at hb
          rw [← hb]
          rfl
        · simp only [hrel, Bool.and_false, Bool.false_eq_true, if_false] at hb
          rw [← hb]
          by_contra hne
          exact hrel (busy_releasable (by simpa using hne))
  | transitioned target detail lease clock =>
    exact Or.inr ⟨id, target, detail, lease, clock, run, rfl, hend, hr, hw⟩
  | finalized target detail release lease clock job hj =>
    left
    obtain ⟨_, job', run', task, _, hj', _, hr'', _, _, _, rfl⟩ := finalizeProviderJobResult_ok h
    obtain rfl := Option.some.inj (hj.symm.trans hj')
    obtain rfl := Option.some.inj (hr.symm.trans hr'')
    have hnot : job.resultCollectionState ≠ .collected := by
      intro hc
      obtain ⟨x, hx, hxend⟩ := hcol id job hj
      rw [hr] at hx
      rw [← Option.some.inj hx, hact] at hxend
      cases hxend hc
    have hwin : cancellationWins run task = false := by
      cases hs : run.state <;> simp_all [cancellationWins, RunState.active]
    simp only [finalizedWorkers, hwin, hnot, ne_eq, not_false_eq_true, true_and] at hb
    rw [if_pos (by rw [hw]; exact hasActiveRun_of_not_occupied hfree), hw, Table.get?_modify_self] at hb
    obtain ⟨a, _, rfl⟩ := Option.map_eq_some_iff.mp hb
    show release.state.busy = false
    simpa [StoreOp.crewed] using hop
  | missing =>
    left
    obtain ⟨_, run', _, _, _, hr'', _, ⟨hno, rfl⟩ | ⟨_, rfl⟩⟩ := interruptMissingProviderJob_ok h
    · obtain rfl := Option.some.inj (hr.symm.trans hr'')
      rw [hact] at hno
      cases hno
    · obtain rfl := Option.some.inj (hr.symm.trans hr'')
      simp only [interruptedWorkers] at hb
      rw [if_pos (by rw [hw]; exact hasActiveRun_of_not_occupied hfree), hw, Table.get?_modify_self] at hb
      obtain ⟨a, _, rfl⟩ := Option.map_eq_some_iff.mp hb
      rfl
  | event =>
    have hsame : run.state.active = false := hend
    rw [hact] at hsame
    cases hsame
  | recovered taskIds now hi =>
    left
    cases h
    have hany : db.runs.any (fun id x => interruptibleRun db taskIds (timestamp now) id x && decide (x.workerId = w)) =
        true := Table.any_eq_true.mpr ⟨id, run, hr, by simp [hi, hw]⟩
    have hno : workerHasActiveRun (recoveredRuns db taskIds (timestamp now)) w none = false :=
      hasActiveRun_of_not_occupied hfree
    simp only [recoveredWorkers, Table.get?_updateWhere, hany, hno] at hb
    obtain ⟨a, _, rfl⟩ := Option.map_eq_some_iff.mp hb
    rfl

theorem finalizeProviderJobResult_ends {runId : String} {target : RunState} {detail : RunDetail}
    {release : WorkerRelease} {lease : HeldLease} {clock : Clock} {u : Unit}
    (h : finalizeProviderJobResult db runId target detail release lease clock = .ok (u, db')) {run : RunRow}
    (hr : db'.runs.get? runId = some run) : run.state.active = false := by
  obtain ⟨_, _, old, task, ho, _, _, hold, _, _, _, rfl⟩ := finalizeProviderJobResult_ok h
  cases hwin : cancellationWins old task with
  | false => exact finalizedRuns_inactive hold hwin (collectedObservation_inactive (by simp [ho])) hr
  | true =>
    simp only [finalizedRuns, hwin, Bool.true_eq_false, and_false, if_false, hold, Option.some.injEq] at hr
    simp only [cancellationWins, Bool.and_eq_true, decide_eq_true_eq] at hwin
    rw [← hr, hwin.1]
    rfl

/-- A run whose result is collected has ended with it. -/
theorem exec_collected (hcol : ∀ id job, db.jobs.get? id = some job → ∃ run, db.runs.get? id = some run ∧
      (job.resultCollectionState = .collected → run.state.active = false))
    (h : exec dg op db = .ok (r, db')) (hop : op.crewed = true) {id : String} {job : JobRow}
    (hj : db'.jobs.get? id = some job) : ∃ run, db'.runs.get? id = some run ∧
      (job.resultCollectionState = .collected → run.state.active = false) := by
  cases ha : db.jobs.get? id with
  | none =>
    obtain ⟨_, _, _, _, _, _, run, _, hr, _, rfl⟩ := exec_jobs_none h ha hj
    obtain ⟨run', hr', _⟩ := exec_runs_some h hr
    exact ⟨run', hr', fun hc => nomatch hc⟩
  | some a =>
    obtain ⟨run, hr, hend⟩ := hcol id a ha
    obtain ⟨run', hr', hu⟩ := exec_runs_some h hr
    obtain ⟨job', hj', hju⟩ := exec_jobs_some h ha
    rw [hj] at hj'
    obtain rfl := Option.some.inj hj'
    have hkept : a.resultCollectionState = .collected → run'.state.active = false := by
      intro hc
      rw [hu.ended (hend hc)]
      exact hend hc
    refine ⟨run', hr', fun hc => ?_⟩
    cases hju with
    | same => exact hkept hc
    | launching => exact hkept hc
    | bound => exact hkept hc
    | observed => exact hkept hc
    | collected => cases hop
    | finalized => exact finalizeProviderJobResult_ends h hr'
    | cancelled =>
      have hstate : (if a.launchState = .prepared then CollectionState.notAvailable else .uncertain) = .collected := hc
      split at hstate <;> cases hstate
    | missing => cases hc

end

/-- Every crewed operation leaves a busy worker with an active run, if a worker is set busy only for an active run; a
run that was moved to its end on its own owes its worker, until the worker is set. -/
theorem Crewed.step {op : StoreOp} {db db' : Db} {r : op.Reply} {owed owed' : String → Prop} (hC : Crewed db owed)
    (h : exec dg op db = .ok (r, db')) (hop : op.crewed = true)
    (hset : ∀ w state resource model fence clock, op = .setWorkerState w state resource model fence clock →
      state.busy = true → Occupied db.runs w)
    (hend : ∀ id target detail lease clock run, op = .transitionWorkerRun id target detail lease clock →
      target.active = false → db.runs.get? id = some run → owed' run.workerId)
    (howed : ∀ w, owed w → op.givesBack w = false → owed' w) : Crewed db' owed' where
  collected _ _ hj := exec_collected hC.collected h hop hj
  busy w b hb hbusy := by
    by_cases hfree : Occupied db'.runs w
    · exact Or.inl hfree
    right
    rcases exec_takes h hop hb hbusy with ⟨a, ha, habusy, hkeep⟩ | hocc |
      ⟨state, resource, model, fence, clock, rfl, hs⟩
    · rcases hC.busy w a ha habusy with hocc | hw
      · rcases exec_gives_back hC.collected h hop hocc hfree hb with hidle |
          ⟨id, target, _, _, _, run, rfl, ht, hr, rfl⟩
        · rw [hbusy] at hidle
          cases hidle
        · exact hend _ _ _ _ _ run rfl ht hr
      · exact howed w hw hkeep
    · exact absurd hocc hfree
    · obtain ⟨_, rfl⟩ := setWorkerState_ok h
      exact absurd (hset w state resource model fence clock rfl hs) hfree

end AgentFabric.Store
