import AgentFabric.Store.Cancellation

/-!
# What disturbs a task that has ended

The transition table gives SUCCEEDED, FAILED and CANCELLED no successor, but not every writer of a task row asks it.
-/

namespace AgentFabric.Store

open AgentFabric.Lib

variable {dg : Digests}

/-- The columns that a terminal state is about. -/
structure Settled (a b : TaskRow) : Prop where
  state : b.state = a.state
  finishedAt : b.finishedAt = a.finishedAt
  attemptCount : b.attemptCount = a.attemptCount

theorem Settled.refl (a : TaskRow) : Settled a a := ⟨rfl, rfl, rfl⟩

theorem Settled.trans {a b c : TaskRow} (h : Settled a b) (h' : Settled b c) : Settled a c :=
  ⟨h'.state.trans h.state, h'.finishedAt.trans h.finishedAt, h'.attemptCount.trans h.attemptCount⟩

theorem Settled.symm {a b : TaskRow} (h : Settled a b) : Settled b a :=
  ⟨h.state.symm, h.finishedAt.symm, h.attemptCount.symm⟩

/-- The operation, in this state, moves the task `t` with the row `a`: it writes the state again at another time, or
creates a run of a later attempt, or interrupts an active run of the task under a current lease. -/
def Disturbs (dg : Digests) (db : Db) (t : String) (a : TaskRow) : StoreOp → Prop
  | .transitionTask taskId target version lease clock =>
    taskId = t ∧ target = a.state ∧ requireLeaseArgs db t lease clock.lease = .ok () ∧
      version.all (fun v => decide (a.version = v)) = true ∧ a.finishedAt ≠ some (timestamp clock.now)
  | .createWorkerRun taskId workerId attempt _ uuid _ =>
    taskId = t ∧ a.attemptCount < attempt ∧ (∃ worker, db.workers.get? workerId = some worker) ∧
      (∃ snapshot, dispatchSnapshot dg db t a = .ok snapshot) ∧ attemptTaken db t workerId attempt = false ∧
      db.runs.get? ("run-" ++ uuid) = none
  | op => Requeues db t op

/-! ## One operation -/

section

variable {op : StoreOp} {db db' : Db} {r : op.Reply} {t : String} {a : TaskRow}

theorem transition_settled {target : TaskState} {version : Option Nat} {lease : LeaseArgs} {clock : Clock} {u : Unit}
    (h : transitionTask db t target version lease clock = .ok (u, db')) (ha : db.tasks.get? t = some a)
    (hs : a.state.terminal = true) (hd : ¬ Disturbs dg db t a (.transitionTask t target version lease clock)) :
    Settled a (a.transition target (timestamp clock.now)) := by
  simp only [transitionTask, bind_eq_ok, ensure_eq_ok, orRaise_eq_ok, require_eq_ok, pure_eq_ok] at h
  obtain ⟨row, hrow, ⟨⟩, hl, -, hallow, -, hv, -⟩ := h
  rw [ha] at hrow
  obtain rfl := Option.some.inj hrow
  have htarget : target = a.state := taskTransitions_terminal hs hallow
  have hfinish : a.finishedAt = some (timestamp clock.now) := by
    by_contra hne
    exact hd ⟨rfl, htarget, hl, hv, hne⟩
  refine ⟨htarget, ?_, rfl⟩
  show (if target.terminal = true then some (timestamp clock.now) else a.finishedAt) = a.finishedAt
  rw [htarget, if_pos hs, hfinish]

theorem counted_settled {workerId uuid : String} {attempt now : Nat} {timeoutAt : Option Nat} {id : String}
    (h : createWorkerRun dg db t workerId attempt timeoutAt uuid now = .ok (id, db')) (ha : db.tasks.get? t = some a)
    (hd : ¬ Disturbs dg db t a (.createWorkerRun t workerId attempt timeoutAt uuid now)) :
    Settled a { a with attemptCount := max a.attemptCount attempt, version := a.version + 1 } := by
  simp only [createWorkerRun, bind_eq_ok, ensure_eq_ok, orRaise_eq_ok, pure_eq_ok] at h
  obtain ⟨row, hrow, worker, hw, snapshot, hsnap, -, -, -, htaken, runs, hins, -⟩ := h
  rw [ha] at hrow
  obtain rfl := Option.some.inj hrow
  have hle : attempt ≤ a.attemptCount := by
    by_contra hlt
    exact hd ⟨rfl, by omega, ⟨worker, hw⟩, ⟨snapshot, hsnap⟩, htaken, Table.insert?_fresh hins⟩
  exact ⟨rfl, rfl, by show max a.attemptCount attempt = a.attemptCount; omega⟩

/-- Every operation that does not disturb a terminal task leaves it settled. -/
theorem exec_settled (h : exec dg op db = .ok (r, db')) (ha : db.tasks.get? t = some a) (hs : a.state.terminal = true)
    (hd : ¬ Disturbs dg db t a op) : ∃ b, db'.tasks.get? t = some b ∧ Settled a b := by
  obtain ⟨b, hb, hu⟩ := exec_tasks_some h ha
  refine ⟨b, hb, ?_⟩
  have hopen : ∀ s : TaskState, s.terminal = false → a.state ≠ s := by
    rintro s hfalse rfl
    rw [hs] at hfalse
    cases hfalse
  cases hu with
  | same => exact .refl a
  | dependency dependsOn hst =>
    rcases hst with hst | hst | hst
    · exact absurd hst (hopen .draft rfl)
    · exact absurd hst (hopen .queued rfl)
    · exact absurd hst (hopen .ready rfl)
  | transition => exact transition_settled h ha hs hd
  | deferred reason detail timeout now hst => exact absurd hst (hopen .ready rfl)
  | rescoped binding revision ht hst => rw [hs] at hst; cases hst
  | verified call criteria attempt ht hst => exact absurd hst (hopen .reviewing rfl)
  | claimed args ht hst => exact absurd hst (hopen .ready rfl)
  | cancelled now hst => rw [hs] at hst; cases hst
  | counted => exact counted_settled h ha hd
  | missing runId lease clock job run hj ht hr hact hl => exact absurd ⟨job, run, hj, ht, hr, hact, hl⟩ hd
  | recovered taskIds now hi =>
    simp only [interruptibleTask, Bool.and_eq_true, decide_eq_true_eq] at hi
    exact absurd hi.1.1.1 (hopen .running rfl)

/-- A disturbed task is not settled. -/
theorem disturbs_unsettles (ha : db.tasks.get? t = some a) (hs : a.state.terminal = true) (hd : Disturbs dg db t a op) :
    ∃ b, (apply dg db op).tasks.get? t = some b ∧ ¬ Settled a b := by
  cases op with
  | transitionTask taskId target version lease clock =>
    obtain ⟨rfl, rfl, hl, hv, hne⟩ := hd
    have hallow : taskTransitions.allows a.state a.state = true := by simp [TransitionTable.allows]
    have hexec : exec dg (.transitionTask taskId a.state version lease clock) db = .ok ((),
        { db with tasks := db.tasks.modify taskId fun _ => a.transition a.state (timestamp clock.now) }) := by
      show transitionTask db taskId a.state version lease clock = _
      simp only [transitionTask, bind_eq_ok, ensure_eq_ok, orRaise_eq_ok, require_eq_ok, pure_eq_ok]
      exact ⟨a, ha, (), hl, (), hallow, (), hv, rfl⟩
    refine ⟨a.transition a.state (timestamp clock.now), by simp [apply, hexec, ha], fun hset => hne ?_⟩
    have hfinish : (if a.state.terminal = true then some (timestamp clock.now) else a.finishedAt) = a.finishedAt :=
      hset.finishedAt
    rw [if_pos hs] at hfinish
    exact hfinish.symm
  | createWorkerRun taskId workerId attempt timeoutAt uuid now =>
    obtain ⟨rfl, hlt, ⟨worker, hw⟩, ⟨snapshot, hsnap⟩, htaken, hfresh⟩ := hd
    obtain ⟨runs, hins⟩ : ∃ runs, db.runs.insert? ("run-" ++ uuid) (startingRun taskId workerId attempt timeoutAt
        snapshot.1 snapshot.2 (timestamp now)) = some runs := by
      apply Option.ne_none_iff_exists'.mp
      intro hnone
      obtain ⟨row, hrow⟩ := Table.insert?_eq_none.mp hnone
      rw [hfresh] at hrow
      cases hrow
    have hexec : exec dg (.createWorkerRun taskId workerId attempt timeoutAt uuid now) db = .ok ("run-" ++ uuid,
        { db with
          runs := runs
          tasks := db.tasks.modify taskId fun row =>
            { row with attemptCount := max row.attemptCount attempt, version := row.version + 1 } }) := by
      show createWorkerRun dg db taskId workerId attempt timeoutAt uuid now = _
      simp only [createWorkerRun, bind_eq_ok, ensure_eq_ok, orRaise_eq_ok, pure_eq_ok]
      exact ⟨a, ha, worker, hw, snapshot, hsnap, (), by omega, (), htaken, runs, hins, rfl⟩
    refine ⟨{ a with attemptCount := max a.attemptCount attempt, version := a.version + 1 }, by simp [apply, hexec, ha],
      fun hset => ?_⟩
    have hcount : max a.attemptCount attempt = a.attemptCount := hset.attemptCount
    omega
  | interruptMissingProviderJob =>
    have hrun : a.state ≠ .running := by
      intro he
      rw [he] at hs
      cases hs
    refine ⟨a.withState .ready, requeues_ready dg ha hrun hd, fun hset => ?_⟩
    rw [← hset.state] at hs
    cases hs
  | _ => cases hd

end

/-! ## Every later sequence of operations -/

/-- No operation of the sequence disturbs the task in the state in which it runs. -/
def Undisturbed (dg : Digests) (db : Db) (t : String) (later : List StoreOp) : Prop :=
  ∀ pre op post, later = pre ++ op :: post → ∀ row, (runOps dg db pre).tasks.get? t = some row →
    ¬ Disturbs dg (runOps dg db pre) t row op

/-- A terminal task that nothing disturbs stays settled. -/
theorem Undisturbed.run {t : String} : ∀ {later : List StoreOp} {db : Db} {a : TaskRow}, db.tasks.get? t = some a →
    a.state.terminal = true → Undisturbed dg db t later →
    ∃ b, (runOps dg db later).tasks.get? t = some b ∧ Settled a b
  | [], _, a, ha, _, _ => ⟨a, ha, .refl a⟩
  | op :: later, db, a, ha, hs, hu => by
    rw [runOps_cons]
    obtain ⟨b, hb, hset⟩ : ∃ b, (apply dg db op).tasks.get? t = some b ∧ Settled a b := by
      rcases apply_cases dg db op with h | ⟨r, h⟩
      · exact ⟨a, by rw [h]; exact ha, .refl a⟩
      · exact exec_settled h ha hs (hu [] op later rfl a ha)
    have hlater : Undisturbed dg (apply dg db op) t later := fun pre op' post he =>
      hu (op :: pre) op' post (by rw [he]; rfl)
    obtain ⟨c, hc, hset'⟩ := hlater.run hb (by rw [hset.state]; exact hs)
    exact ⟨c, hc, hset.trans hset'⟩

/-- **Terminal states are absorbing, exactly until a disturbance.**  In every state reached by store operations and for
every task in a terminal state there: state, finish time and attempt count stay as they are along a later sequence of
operations if and only if no operation of it, in the state in which it runs, writes the terminal state again at another
time, creates a run of a later attempt, or interrupts an active run of the task under a current lease. -/
theorem terminal_absorbing_iff (dg : Digests) (ops : List StoreOp) (t : String) (a : TaskRow)
    (ha : (runOps dg Db.initial ops).tasks.get? t = some a) (hs : a.state.terminal = true) (later : List StoreOp) :
    (∀ pre, pre <+: later →
      ∃ b, (runOps dg (runOps dg Db.initial ops) pre).tasks.get? t = some b ∧ Settled a b) ↔
    Undisturbed dg (runOps dg Db.initial ops) t later := by
  constructor
  · intro hkept pre op post he row hrow hd
    obtain ⟨row', hrow', hset⟩ := hkept pre ⟨op :: post, he.symm⟩
    rw [hrow] at hrow'
    obtain rfl := Option.some.inj hrow'
    -- one operation later the task has moved, although the promise has it settled there too
    obtain ⟨b, hb, hmoved⟩ := disturbs_unsettles hrow (by rw [hset.state]; exact hs) hd
    obtain ⟨c, hc, hset'⟩ := hkept (pre ++ [op]) ⟨post, by rw [he]; simp⟩
    rw [runOps_append, runOps_cons, runOps_nil, hb] at hc
    obtain rfl := Option.some.inj hc
    exact hmoved (hset.symm.trans hset')
  · rintro hu pre ⟨rest, rfl⟩
    refine Undisturbed.run ha hs fun pre' op post he => ?_
    exact hu pre' op (post ++ rest) (by rw [he]; simp)

/-- An attempt that was launched and held, and whose task was then failed without a lease. -/
def failedAttempt : List StoreOp :=
  readyTask ++
    [.claimTaskDispatch ⟨"t", ["w"], 1, none, some "A", 30000000, none, fun _ => "1", 0⟩,
     .prepareProviderJob "run-1" "mock" "mock-1" {} ⟨"A", 1⟩ "1" ⟨0, 0⟩,
     .activateWorkerRun "run-1" (.held "A" 1) ⟨0, 0⟩,
     .transitionTask "t" .waiting none (.held "A" 1) ⟨0, 0⟩,
     .transitionTask "t" .failed none .absent ⟨0, 0⟩]

def failedTask : TaskRow := ⟨"p", "#0001", .failed, .single, 1, 4, 1, none, some 0, some 0⟩

/-- The provider no longer knows the job, and the failed task is READY again. -/
theorem failed_task_requeued :
    (runOps .trivial Db.initial failedAttempt).tasks.get? "t" = some failedTask ∧ failedTask.state.terminal = true ∧
    ∃ b, (runOps .trivial (runOps .trivial Db.initial failedAttempt)
        [.interruptMissingProviderJob "run-1" ⟨"A", 1⟩ ⟨0, 0⟩]).tasks.get? "t" = some b ∧
      b.state = .ready ∧ ¬ Settled failedTask b := by
  refine ⟨by decide, rfl, failedTask.withState .ready, by decide +kernel, rfl, fun h => ?_⟩
  have hstate : TaskState.ready = .failed := h.state
  cases hstate

/-- A recovery leaves the failed task as it is. -/
theorem terminal_absorbing_recovered :
    ∃ b, (runOps .trivial (runOps .trivial Db.initial failedAttempt) [.recoverInterrupted none 60000000]).tasks.get?
      "t" =
      some b ∧ Settled failedTask b := by
  refine (terminal_absorbing_iff .trivial failedAttempt "t" failedTask (by decide) rfl
    [.recoverInterrupted none 60000000]).mpr ?_ _ (List.prefix_refl _)
  intro pre op post he row _ hd
  have hmem : op ∈ [StoreOp.recoverInterrupted none 60000000] := by rw [he]; simp
  rw [List.mem_singleton.mp hmem] at hd
  exact hd

end AgentFabric.Store
