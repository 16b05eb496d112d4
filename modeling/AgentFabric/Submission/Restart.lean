import AgentFabric.Submission.Programs
import AgentFabric.Runtime.Histories

/-!
# Restarting a submission

The task identity is deterministic, so a caller that crashed asks again for the same task; the retry only asks whether
the task exists.
-/

namespace AgentFabric.Submission

open AgentFabric.Lib AgentFabric.Store

/-- Who submits tasks under deterministic identities. -/
inductive Caller where
  | dispatcher (projectId actionId : String) (action : PlannedAction)
  | driver (checkpoint : Checkpoint)

inductive Work where
  | attempt
  | other (request : Request)

section

variable (host : EngineHost)

def Caller.submission : Caller → Except Runtime.Raised TaskSubmission
  | .dispatcher projectId actionId action => dispatchSubmission host projectId actionId action
  | .driver checkpoint => .ok (decisionSubmission host checkpoint)

/-- `dispatch`, or `_ensure_task` and `_execute_task`. -/
def Caller.program : Caller → Program Unit
  | .dispatcher projectId actionId action => do let _ ← dispatch host projectId actionId action
  | .driver checkpoint => do
    ensureTask host checkpoint
    executeDecision host (decisionTaskId host checkpoint)

/-- The attempts of a caller, and any other program. -/
def attempts (g : String) (admitted : StoreOp → Bool) (caller : Caller) (i : Nat) : Work → Prog Call Call.Reply Unit
  | .attempt => (caller.program host).run.bind fun _ => .ret ()
  | .other request => serve host g admitted i request

end

/-! ## How far a submission has come -/

/-- Neither the task nor its reference is taken. -/
def Absent (sub : TaskSubmission) (w : Fabric) : Prop :=
  w.db.tasks.get? sub.taskId = none ∧
    w.db.tasks.any (fun _ row => decide (row.projectId = sub.projectId) && decide (row.reference = sub.reference)) =
      false

def InState (taskId : String) (state : TaskState) (w : Fabric) : Prop :=
  ∃ row, w.db.tasks.get? taskId = some row ∧ row.state = state

/-- The task is past DRAFT and QUEUED. -/
def Submitted (taskId : String) (w : Fabric) : Prop :=
  ∃ row, w.db.tasks.get? taskId = some row ∧ row.state ≠ .draft ∧ row.state ≠ .queued

/-- Where a submission ends. -/
def TaskSubmission.target (sub : TaskSubmission) : TaskState := if sub.awaitsApproval then .blocked else .ready

/-- The calls of a submission: the task is looked for, created and moved on. -/
def TaskSubmission.calls (sub : TaskSubmission) : Nat := if sub.awaitsApproval then 5 else 4

/-- After as many calls. -/
def Stage (sub : TaskSubmission) (n : Nat) (w : Fabric) : Prop :=
  if n ≤ 1 then Absent sub w
  else if n = 2 then InState sub.taskId .draft w
  else if n < sub.calls then InState sub.taskId .queued w
  else Submitted sub.taskId w

def madeBy (i : Nat) (trace : List (Event Nat Call Call.Reply)) : Nat := trace.countP fun e => decide (e.thread = i)

variable {dg : Digests} {host : EngineHost} {g : String} {admitted : StoreOp → Bool} {sub : TaskSubmission}
  {w : Fabric} {env : Environment}

theorem madeBy_concat {i : Nat} {trace : List (Event Nat Call Call.Reply)} {e : Event Nat Call Call.Reply} :
    madeBy i (trace ++ [e]) = madeBy i trace + if e.thread = i then 1 else 0 := by
  simp [madeBy, List.countP_append, List.countP_cons]

theorem calls_pos (sub : TaskSubmission) : 4 ≤ sub.calls := by
  unfold TaskSubmission.calls
  split <;> omega

/-! ## One call -/

theorem taskUpdate_submitted {db : Db} {a b : TaskRow} {op : StoreOp} (h : TaskUpdate dg db t a op b)
    (ha : a.state ≠ .draft ∧ a.state ≠ .queued) : b.state ≠ .draft ∧ b.state ≠ .queued := by
  cases h with
  | transition target version lease clock hl hallow =>
    obtain ⟨hdraft, hqueued⟩ := ha
    revert hallow
    show taskTransitions.allows a.state target = true → target ≠ .draft ∧ target ≠ .queued
    cases hs : a.state <;> cases target <;> simp_all [TransitionTable.allows, taskTransitions]
  | verified call criteria =>
    show verificationTarget call a criteria ≠ .draft ∧ verificationTarget call a criteria ≠ .queued
    unfold verificationTarget
    split
    · exact ⟨(fun h => (by cases h)), fun h => (by cases h)⟩
    · split <;> exact ⟨(fun h => (by cases h)), fun h => (by cases h)⟩
  | deferred | claimed | cancelled | recovered => exact ⟨(fun h => (by cases h)), fun h => (by cases h)⟩
  | missing =>
    show (if a.state = .running then TaskState.interrupted else .ready) ≠ .draft ∧
      (if a.state = .running then TaskState.interrupted else .ready) ≠ .queued
    split <;> exact ⟨(fun h => (by cases h)), fun h => (by cases h)⟩
  | same | dependency | rescoped | counted => exact ha

/-- What a call does to the tasks: nothing, or what one operation of the store does. -/
theorem act_tasks (dg : Digests) (w : Fabric) (env : Environment) (c : Call) :
    (act dg w env c).2.db.tasks = w.db.tasks ∨
      ∃ op r, exec dg op w.db = .ok (r, (act dg w env c).2.db) := by
  have hruntime : ∀ c : Runtime.Call, (Runtime.act dg w.runtime env.runtime c).2.db.tasks = w.db.tasks ∨
      ∃ op r, exec dg op w.db = .ok (r, (Runtime.act dg w.runtime env.runtime c).2.db) := by
    intro c
    rcases Runtime.act_db dg w.runtime env.runtime c with hdb | ⟨op, clock, uuid, r, _, hexec⟩
    · exact Or.inl (congrArg Db.tasks hdb)
    · exact Or.inr ⟨_, r, hexec⟩
  cases c with
  | runtime c => exact hruntime c
  | submit op => exact hruntime (.store op)
  | engine c =>
    cases c with
    | transact op =>
      cases hop : execGoal op w.db with
      | error => exact Or.inl (by simp [act, Autonomy.act, Autonomy.commit, hop])
      | ok result =>
        have hdb : (act dg w env (.engine (.transact op))).2.db = result.2 := by
          simp [act, Autonomy.act, Autonomy.commit, hop]
        exact Or.inr ⟨.goal op, result.1, by rw [hdb]; exact hop⟩
    | store op =>
      cases hop : exec dg op w.db with
      | error => exact Or.inl (by simp [act, Autonomy.act, Autonomy.commit, hop])
      | ok result =>
        have hdb : (act dg w env (.engine (.store op))).2.db = result.2 := by
          simp [act, Autonomy.act, Autonomy.commit, hop]
        exact Or.inr ⟨op, result.1, by rw [hdb]; exact hop⟩
    | _ => exact Or.inl rfl
  | record =>
    left
    simp only [act]
    split <;> rfl
  | _ => exact Or.inl rfl

/-- What is submitted stays submitted. -/
theorem submitted_step (c : Call) (h : Submitted t w) : Submitted t (act dg w env c).2 := by
  obtain ⟨row, hrow, hstate⟩ := h
  rcases act_tasks dg w env c with hsame | ⟨op, r, hexec⟩
  · exact ⟨row, by rw [hsame]; exact hrow, hstate⟩
  · obtain ⟨row', hrow', hupdate⟩ := exec_tasks_some hexec hrow
    exact ⟨row', hrow', taskUpdate_submitted hupdate hstate⟩

theorem act_submit (dg : Digests) (w : Fabric) (env : Environment) (op : StoreOp) :
    ∃ clock uuid, (act dg w env (.submit op)).1 = (Runtime.transaction dg w.db clock uuid op).1 ∧
      (act dg w env (.submit op)).2.db = (Runtime.transaction dg w.db clock uuid op).2 :=
  ⟨_, _, rfl, rfl⟩

theorem create_step (dg : Digests) (env : Environment) (h : Absent sub w) :
    (act dg w env (.submit (.createTask sub.newTask))).1 = .ok () ∧
      InState sub.taskId .draft (act dg w env (.submit (.createTask sub.newTask))).2 := by
  obtain ⟨hnone, hfree⟩ := h
  cases hins : w.db.tasks.insert? sub.taskId sub.newTask.row with
  | none =>
    obtain ⟨row, hrow⟩ := Table.insert?_eq_none.mp hins
    cases hnone.symm.trans hrow
  | some tasks =>
    have hcreate : createTask w.db sub.newTask = .ok ((), { w.db with tasks := tasks }) := by
      simp only [createTask, bind_eq_ok, ensure_eq_ok, orRaise_eq_ok, pure_eq_ok, Prod.mk.injEq]
      exact ⟨(), hfree, tasks, hins, trivial, rfl⟩
    have htransact : ∀ clock uuid, Runtime.transaction dg w.db clock uuid (.createTask sub.newTask) =
        (.ok (), { w.db with tasks := tasks }) := by
      intro clock uuid
      unfold Runtime.transaction
      rw [show exec dg (Runtime.stamp clock uuid (.createTask sub.newTask)) w.db = _ from hcreate]
    obtain ⟨clock, uuid, hreply, hdb⟩ := act_submit dg w env (.createTask sub.newTask)
    rw [htransact] at hreply hdb
    exact ⟨hreply, sub.newTask.row, by rw [hdb]; simp [Table.get?_insert hins], rfl⟩

theorem move_step (dg : Digests) (env : Environment) {s target : TaskState} (h : InState t s w)
    (hallow : taskTransitions.allows s target = true) :
    (act dg w env (.submit (.transitionTask t target none .absent Runtime.unstamped))).1 = .ok () ∧
      InState t target (act dg w env (.submit (.transitionTask t target none .absent Runtime.unstamped))).2 := by
  obtain ⟨row, hrow, rfl⟩ := h
  have hmove : ∀ clock, transitionTask w.db t target none .absent clock =
      .ok ((), { w.db with tasks := w.db.tasks.modify t fun _ => row.transition target (timestamp clock.now) }) := by
    intro clock
    simp only [transitionTask, bind_eq_ok, ensure_eq_ok, orRaise_eq_ok, require_eq_ok, pure_eq_ok, Prod.mk.injEq]
    exact ⟨row, hrow, (), rfl, (), hallow, (), rfl, trivial, rfl⟩
  have htransact : ∀ clock uuid, Runtime.transaction dg w.db clock uuid
      (.transitionTask t target none .absent Runtime.unstamped) =
        (.ok (), { w.db with tasks := w.db.tasks.modify t fun _ => row.transition target (timestamp clock.now) }) := by
    intro clock uuid
    unfold Runtime.transaction
    rw [show exec dg (Runtime.stamp clock uuid (.transitionTask t target none .absent Runtime.unstamped)) w.db = _
      from hmove clock]
  obtain ⟨clock, uuid, hreply, hdb⟩ := act_submit dg w env (.transitionTask t target none .absent Runtime.unstamped)
  rw [htransact] at hreply hdb
  exact ⟨hreply, row.transition target (timestamp clock.now), by rw [hdb]; simp [hrow], rfl⟩

theorem moved_of_reply {target : TaskState}
    (h : (act dg w env (.submit (.transitionTask t target none .absent Runtime.unstamped))).1 = .ok ()) :
    InState t target (act dg w env (.submit (.transitionTask t target none .absent Runtime.unstamped))).2 := by
  obtain ⟨clock, uuid, hreply, hdb⟩ := act_submit dg w env (.transitionTask t target none .absent Runtime.unstamped)
  rw [hreply] at h
  rcases Runtime.transaction_cases dg w.db clock uuid (.transitionTask t target none .absent Runtime.unstamped) with
    ⟨r, db', hexec, ht⟩ | ⟨e, ht⟩
  · obtain ⟨row, hrow, -, -, rfl⟩ := transitionTask_ok hexec
    exact ⟨row.transition target _, by rw [hdb, ht]; simp [hrow]; rfl, rfl⟩
  · rw [ht] at h
    cases h

/-! ## One attempt -/

/-- The last transaction of the submission. -/
def settling (sub : TaskSubmission) : Event Nat Call Call.Reply :=
  ⟨0, .submit (.transitionTask sub.taskId sub.target none .absent Runtime.unstamped), .ok ()⟩

/-- The submission has come as far as the calls of the attempt tell, which follow `base` earlier ones. -/
def Progress (sub : TaskSubmission) (base : Nat) (h : History) : Prop :=
  ∃ n, madeBy 0 h.trace = base + n ∧ Stage sub n h.state ∧ (sub.calls ≤ n → settling sub ∈ h.trace)

/-- The calls of the other programs are not counted. -/
def Beside (j : Nat) (h h' : History) : Prop := j ≠ 0 → madeBy 0 h'.trace = madeBy 0 h.trace

/-- The attempt has made so many calls. -/
def Reached (base n : Nat) (h : History) : Prop := madeBy 0 h.trace = base + n

/-- The attempt has made all calls of the submission. -/
def Done (sub : TaskSubmission) (base : Nat) (h : History) : Prop := base + sub.calls ≤ madeBy 0 h.trace

section

variable {base n : Nat} {h : History} {α : Type}

theorem Progress.at (hp : Progress sub base h) (hn : Reached base n h) :
    Stage sub n h.state ∧ (sub.calls ≤ n → settling sub ∈ h.trace) := by
  obtain ⟨n', hcount, hstage⟩ := hp
  obtain rfl : n' = n := by
    unfold Reached at hn
    omega
  exact hstage

theorem reached_stable : Stable (Progress sub base) Beside 0 (Reached base n) :=
  fun _ _ _ hj _ _ hbeside hn => (hbeside hj).trans hn

theorem done_stable : Stable (Progress sub base) Beside 0 (Done sub base) := by
  intro j h h' hj _ _ hbeside hn
  unfold Done
  rw [hbeside hj]
  exact hn

abbrev after (dg : Digests) (h : History) (env : Environment) (c : Call) : History :=
  ((machine dg).traced.act 0 h env c).2

theorem reached_after {c : Call} (hn : Reached base n h) : Reached base (n + 1) (after dg h env c) := by
  show madeBy 0 (h.trace ++ [⟨0, c, _⟩]) = _
  rw [madeBy_concat, show madeBy 0 h.trace = base + n from hn, if_pos rfl, Nat.add_assoc]

theorem progress_call (env : Environment) {c : Call} (hn : Reached base n h)
    (hstage : Stage sub (n + 1) (act dg h.state env c).2)
    (hset : sub.calls ≤ n + 1 → settling sub ∈ (after dg h env c).trace) :
    Progress sub base (after dg h env c) ∧ Beside 0 h (after dg h env c) ∧ Reached base (n + 1) (after dg h env c) :=
  ⟨⟨n + 1, reached_after hn, hstage, hset⟩, fun h => absurd rfl h, reached_after hn⟩

theorem stage_submitted (hn : sub.calls ≤ n) : Stage sub n w ↔ Submitted sub.taskId w := by
  have hcalls := calls_pos sub
  unfold Stage
  rw [if_neg (by omega), if_neg (by omega), if_neg (by omega)]

theorem stage_queued (hlow : 3 ≤ n) (hn : n < sub.calls) : Stage sub n w ↔ InState sub.taskId .queued w := by
  unfold Stage
  rw [if_neg (by omega), if_neg (by omega), if_pos hn]

theorem stage_absent (hn : n ≤ 1) : Stage sub n w ↔ Absent sub w := by
  unfold Stage
  rw [if_pos hn]

theorem stage_draft : Stage sub 2 w ↔ InState sub.taskId .draft w := by
  unfold Stage
  rw [if_neg (by omega), if_pos rfl]

theorem target_submitted (h : InState sub.taskId sub.target w) : Submitted sub.taskId w := by
  obtain ⟨row, hrow, hstate⟩ := h
  refine ⟨row, hrow, ?_⟩
  rw [hstate]
  unfold TaskSubmission.target
  split <;> exact ⟨(fun h => (by cases h)), fun h => (by cases h)⟩

theorem done_keeps (p : Prog Call Call.Reply α) :
    Outline (machine dg).traced (Progress sub base) Beside 0 (Done sub base) p fun _ => Done sub base := by
  refine Outline.always (P := fun _ => True) done_stable (Prog.all_true p) fun c h env _ hp hdone => ?_
  obtain ⟨n, hcount, hstage, hset⟩ := hp
  have hn : sub.calls ≤ n := by
    unfold Done at hdone
    omega
  have hsubmitted : Submitted sub.taskId (act dg h.state env c).2 := submitted_step c ((stage_submitted hn).mp hstage)
  obtain ⟨hprogress, hbeside, hreached⟩ := progress_call (c := c) env hcount
    ((stage_submitted (by omega)).mpr hsubmitted) fun _ => List.mem_append_left _ (hset hn)
  refine ⟨hprogress, hbeside, ?_⟩
  unfold Done
  rw [show madeBy 0 _ = _ from hreached]
  omega

theorem done_bind {β : Type} {φ : History → Prop} {p : Program α} {f : α → Program β}
    (hp : Outline (machine dg).traced (Progress sub base) Beside 0 φ p.run fun _ => Done sub base) :
    Outline (machine dg).traced (Progress sub base) Beside 0 φ (p >>= f).run fun _ => Done sub base :=
  Outline.bind hp fun _ => done_keeps _

theorem submit_bind {op : StoreOp} {β : Type} {f : op.Reply → Program β} {Q : Except Runtime.Raised β → History → Prop}
    {r : op.Reply} (hn : ∀ h env, Progress sub base h → Reached base n h →
      (act dg h.state env (.submit op)).1 = .ok r ∧ Stage sub (n + 1) (act dg h.state env (.submit op)).2 ∧
        (sub.calls ≤ n + 1 → settling sub ∈ (after dg h env (.submit op)).trace))
    (hf : Outline (machine dg).traced (Progress sub base) Beside 0 (Reached base (n + 1)) (f r).run Q) :
    Outline (machine dg).traced (Progress sub base) Beside 0 (Reached base n) (submit op >>= f).run Q := by
  refine Outline.ask_bind (c := .submit op) (f := fun x => Prog.result (x.mapError .store) >>= f)
    (Q := fun x h => Reached base (n + 1) h ∧ x = .ok r) (fun x => reached_stable.and (.const _))
    (fun h env hp hreached => ?_) fun x => Outline.of_const ?_
  · obtain ⟨hreply, hstage, hset⟩ := hn h env hp hreached
    obtain ⟨hprogress, hbeside, hnext⟩ := progress_call env hreached hstage hset
    exact ⟨hprogress, hbeside, hnext, hreply⟩
  · rintro rfl
    exact hf

theorem settling_mem {h : History}
    (hreply : (act dg h.state env (.submit (.transitionTask sub.taskId sub.target none .absent Runtime.unstamped))).1 =
      .ok ()) :
    settling sub ∈
      (after dg h env (.submit (.transitionTask sub.taskId sub.target none .absent Runtime.unstamped))).trace := by
  refine List.mem_append_right _ (List.mem_singleton.mpr ?_)
  rw [settling]
  exact congrArg _ hreply.symm

theorem settle_outline {target : TaskState} (htarget : target = sub.target) (hlow : 3 ≤ n) (hlast : n + 1 = sub.calls) :
    Outline (machine dg).traced (Progress sub base) Beside 0 (Reached base n) (moveTask sub.taskId target).run
      fun _ => Done sub base := by
  subst htarget
  have hallow : taskTransitions.allows .queued sub.target = true := by
    unfold TaskSubmission.target
    split <;> rfl
  have hop : moveTask sub.taskId sub.target =
      (ask (.submit (.transitionTask sub.taskId sub.target none .absent Runtime.unstamped)) >>= fun x =>
        Prog.result (x.mapError .store)) := rfl
  rw [hop]
  refine Outline.ask_bind (Q := fun _ => Reached base (n + 1)) (fun _ => reached_stable) (fun h env hp hreached => ?_)
    fun x => ?_
  · have hqueued := (stage_queued hlow (by omega)).mp (hp.at hreached).1
    obtain ⟨hreply, hmoved⟩ := move_step dg env hqueued hallow
    exact progress_call env hreached ((stage_submitted (by omega)).mpr (target_submitted hmoved)) fun _ =>
      settling_mem hreply
  · intro h _ hreached
    unfold Done
    rw [show madeBy 0 h.trace = _ from hreached]
    omega

theorem submitTask_outline :
    Outline (machine dg).traced (Progress sub base) Beside 0 (Reached base 1) (submitTask sub).run
      fun _ => Done sub base := by
  have hcalls := calls_pos sub
  refine submit_bind (r := ()) (fun h env hp hreached => ?_) (submit_bind (r := ()) (fun h env hp hreached => ?_) ?_)
  · obtain ⟨hreply, hdraft⟩ := create_step dg env ((stage_absent (by omega)).mp (hp.at hreached).1)
    exact ⟨hreply, stage_draft.mpr hdraft, fun hlow => absurd hlow (by omega)⟩
  · obtain ⟨hreply, hqueued⟩ := move_step dg env (stage_draft.mp (hp.at hreached).1)
      (show taskTransitions.allows .draft .queued = true from rfl)
    exact ⟨hreply, (stage_queued (by omega) (by omega)).mpr hqueued, fun hlow => absurd hlow (by omega)⟩
  · split
    · rename_i hawaits
      have hfive : sub.calls = 5 := by rw [TaskSubmission.calls, if_pos hawaits]
      refine Outline.ask_bind (c := .requestApproval sub.taskId) (Q := fun _ => Reached base 4)
        (fun _ => reached_stable)
        (fun h env hp hreached => ?_) fun _ => settle_outline ?_ (by omega) hfive.symm
      · have hqueued := (stage_queued (by omega) (by omega)).mp (hp.at hreached).1
        exact progress_call env hreached ((stage_queued (by omega) (by omega)).mpr hqueued) fun hlow =>
          absurd hlow (by omega)
      · rw [TaskSubmission.target, if_pos hawaits]
    · rename_i hfree
      refine settle_outline ?_ (by omega) ?_
      · rw [TaskSubmission.target, if_neg hfree]
      · rw [TaskSubmission.calls, if_neg hfree]

theorem absent_read_outline {β : Type} {f : Db → Program β}
    (hf : ∀ db : Db, db.tasks.get? sub.taskId = none →
      Outline (machine dg).traced (Progress sub base) Beside 0 (Reached base 1) (f db).run fun _ => Done sub base) :
    Outline (machine dg).traced (Progress sub base) Beside 0 (Reached base 0) (read >>= f).run
      fun _ => Done sub base := by
  have hcalls := calls_pos sub
  refine Outline.ask_bind (c := Call.runtime .read)
    (Q := fun (db : Db) h => Reached base 1 h ∧ db.tasks.get? sub.taskId = none)
    (fun db => reached_stable.and (.const _))
    (fun h env hp hreached => ?_) fun db => Outline.of_const (hf db)
  have habsent := (stage_absent (by omega)).mp (hp.at hreached).1
  obtain ⟨hprogress, hbeside, hnext⟩ := progress_call (c := .runtime .read) env hreached
    ((stage_absent (by omega)).mpr habsent) fun hlow => absurd hlow (by omega)
  exact ⟨hprogress, hbeside, hnext, habsent.1⟩

theorem dispatchSubmission_taskId {projectId actionId : String} {action : PlannedAction}
    (h : dispatchSubmission host projectId actionId action = .ok sub) :
    Autonomy.taskIdOf host.uuid5 actionId = sub.taskId := by
  unfold dispatchSubmission at h
  split at h
  · cases h
  · obtain rfl := Except.ok.inj h
    rfl

theorem attempt_outline {caller : Caller} (hsub : caller.submission host = .ok sub) :
    Outline (machine dg).traced (Progress sub base) Beside 0 (Reached base 0) (caller.program host).run
      fun _ => Done sub base := by
  cases caller with
  | dispatcher projectId actionId =>
    have htask : Autonomy.taskIdOf host.uuid5 actionId = sub.taskId := dispatchSubmission_taskId hsub
    refine done_bind (absent_read_outline fun db hnone => ?_)
    rw [htask, hnone]
    refine Outline.bind (Q := fun r h => Reached base 1 h ∧ r = .ok sub) (fun h _ hreached => ⟨hreached, ?_⟩)
      fun r => ?_
    · exact hsub
    · refine Outline.of_const ?_
      rintro rfl
      exact done_bind submitTask_outline
  | driver checkpoint =>
    obtain rfl : decisionSubmission host checkpoint = sub := Except.ok.inj hsub
    refine done_bind (absent_read_outline fun db hnone => ?_)
    rw [show db.tasks.get? (decisionTaskId host checkpoint) = none from hnone]
    exact done_bind submitTask_outline

end

/-! ## A task in DRAFT or QUEUED -/

/-- The states in which a crash leaves an unfinished submission. -/
def unfinished (s : TaskState) : Prop := s = .draft ∨ s = .queued

/-- The calls that move no task that is not RUNNING. -/
def idleCall : Runtime.Call → Prop
  | .store (.recoverInterrupted ..) => True
  | .store _ => False
  | _ => True

def Call.idle : Call → Prop
  | .runtime c => idleCall c
  | .engine _ | .submit _ => False
  | _ => True

section

variable {t : String} {s : TaskState} {α : Type}

/-- A call that is idle leaves an unfinished submission where it is. -/
theorem idle_step {c : Call} (hc : c.idle) (hs : unfinished s) (h : InState t s w) :
    InState t s (act dg w env c).2 := by
  obtain ⟨row, hrow, rfl⟩ := h
  cases c with
  | runtime c =>
    rcases Runtime.act_db dg w.runtime env.runtime c with hdb | ⟨op, clock, uuid, r, rfl, hexec⟩
    · exact ⟨row, (congrArg (fun db : Db => db.tasks.get? t) hdb).trans hrow, rfl⟩
    · cases op with
      | recoverInterrupted =>
        obtain ⟨row', hrow', hupdate⟩ := exec_tasks_some hexec hrow
        cases hupdate with
        | same => exact ⟨row, hrow', rfl⟩
        | recovered _ _ hi =>
          simp only [interruptibleTask, Bool.and_eq_true, decide_eq_true_eq] at hi
          rcases hs with hs | hs <;> rw [hs] at hi <;> cases hi.1.1.1
      | _ => cases hc
  | engine => cases hc
  | submit => cases hc
  | record =>
    refine ⟨row, ?_, rfl⟩
    simp only [act]
    split <;> exact hrow
  | _ => exact ⟨row, hrow, rfl⟩

/-- Whatever the program does, the task stays where it is. -/
abbrev Waits (dg : Digests) (t : String) (s : TaskState) (p : Program α) : Prop :=
  Keeps (machine dg).traced (fun h => InState t s h.state) (fun _ _ _ => True) 0 (fun _ => True) p

theorem waits_ask {c : Call} (hc : c.idle) (hs : unfinished s) : Waits dg t s (ask c) :=
  .ask .true fun _ _ hh _ => ⟨idle_step hc hs hh, trivial, trivial⟩

theorem idle_runtimeCall {c : Runtime.Call} (hc : idleCall c) : (runtimeCall c).All Call.idle := by
  unfold runtimeCall
  split
  · rename_i runId
    have haccount : Prog.Obeys Call.idle (accountInvocation runId) := by
      refine .bind (.ask trivial) fun ended => ?_
      split
      · refine .bind (.ask trivial) fun db => ?_
        split
        · refine .bind (.ask trivial) fun known => ?_
          split
          · exact .pure _
          · exact .bind (.ask trivial) fun _ => .bind (.ask trivial) fun _ => .result _
        · exact .pure _
      · exact .pure _
    refine Prog.All.bind haccount fun r => ?_
    cases r with
    | ok => exact ⟨trivial, fun _ => trivial⟩
    | error => trivial
  · cases hc
  · exact ⟨hc, fun _ => trivial⟩

theorem waits_ofRuntime {p : Runtime.Program α} (hp : Prog.Obeys idleCall p) (hs : unfinished s) :
    Waits dg t s (ofRuntime p) := by
  refine Outline.always (P := Call.idle) .true (Prog.All.interp hp fun _ hc => idle_runtimeCall hc) ?_
  exact fun c h env hc hh _ => ⟨idle_step hc hs hh, trivial, trivial⟩

theorem waits_query {c : Runtime.Call} {f : c.Reply → Runtime.Program α} {P : c.Reply → Prop}
    (hcall : runtimeCall c = .perform (Call.runtime c)) (hc : idleCall c) (hs : unfinished s)
    (hreply : ∀ (w : Fabric) (env : Environment), InState t s w → P (Runtime.act dg w.runtime env.runtime c).1)
    (hf : ∀ r, P r → Waits dg t s (ofRuntime (f r))) : Waits dg t s (ofRuntime (Runtime.ask c >>= f)) := by
  show Outline _ _ _ _ _ ((runtimeCall c).bind fun r => (f r).run.interp runtimeCall) _
  rw [hcall]
  refine Outline.bind (Q := fun r _ => P r) (Outline.perform (fun _ => .const _) fun h env hh _ =>
    ⟨idle_step (c := .runtime c) hc hs hh, trivial, hreply h.state env hh⟩) fun r => ?_
  exact (Outline.of_const (hf r)).weaken fun _ _ h => ⟨trivial, h⟩

theorem ofRuntime_bind {β : Type} (p : Runtime.Program α) (f : α → Runtime.Program β) :
    ofRuntime (p >>= f) = ofRuntime p >>= fun a => ofRuntime (f a) := by
  show ExceptT.mk ((Prog.bind p.run _).interp runtimeCall) = _
  rw [Prog.interp_bind]
  refine congrArg (fun k => ExceptT.mk (Prog.bind _ k)) (funext fun r => ?_)
  cases r <;> rfl

theorem waits_tasks {f : Db → Runtime.Program α} (hs : unfinished s)
    (hf : ∀ db : Db, (∀ e ∈ db.tasks.rows, e.1 = t → e.2.state = s) → Waits dg t s (ofRuntime (f db))) :
    Waits dg t s (ofRuntime (Runtime.ask .read >>= f)) := by
  refine waits_query (P := fun db : Db => ∀ e ∈ db.tasks.rows, e.1 = t → e.2.state = s) rfl trivial hs ?_ hf
  rintro w env ⟨row, hrow, rfl⟩ e he rfl
  have hget : w.db.tasks.get? e.1 = some e.2 := Table.mem_rows.mp he
  rw [Option.some.inj (hrow.symm.trans hget)]

theorem inScope_singleton {t' : String} (h : inScope (some [t]) t' = true) : t' = t := by
  simpa [inScope] using h

theorem dispatchReady_waits (supervisor : Runtime.Supervisor) (prior : String → String → Bool) (hs : unfinished s) :
    Waits dg t s (ofRuntime (Runtime.dispatchReady supervisor (some [t]) prior)) := by
  refine waits_tasks hs fun db hrows => waits_ofRuntime (.forM fun e he => ?_) hs
  have hmem : e ∈ db.tasks.rows := (List.mergeSort_perm _ _).subset he
  unfold Runtime.dispatchTask
  dsimp only
  split
  · exact .pure _
  rename_i hscope
  have hstate := hrows e hmem (inScope_singleton (by simpa using hscope))
  split
  · exact .pure _
  · rename_i hready
    rcases hs with rfl | rfl <;> exact absurd (fun h => (by cases hstate.symm.trans h)) hready

theorem reconcilableJobs_none {db : Db} {now : Nat} {row : TaskRow} (hrow : db.tasks.get? t = some row)
    (hs : unfinished row.state) {j : Runtime.RecoveredJob} (hj : j ∈ Runtime.reconcilableJobs db now) :
    j.job.taskId ≠ t := by
  rintro rfl
  obtain ⟨e, -, he⟩ := List.mem_filterMap.mp ((List.mergeSort_perm _ _).subset hj)
  unfold Runtime.reconcilable at he
  split at he
  · rename_i run task worker hrun htask hworker
    split at he
    · rename_i hopen
      obtain rfl := Option.some.inj he
      obtain rfl : row = task := Option.some.inj (hrow.symm.trans htask)
      rcases hs with hs | hs <;> simp [hs] at hopen
    · cases he
  · cases he

/-- A recovery finds nothing to do for the task. -/
theorem recover_waits (supervisor : Runtime.Supervisor) (hs : unfinished s) :
    Waits dg t s (ofRuntime (Runtime.recover supervisor (some [t]))) := by
  refine waits_tasks hs fun db hrows => ?_
  have hrepair : Prog.Obeys idleCall (db.tasks.rows.forM
      (Runtime.repairFinalizedProviderAttempt supervisor (some [t]))) := by
    refine .forM fun e he => ?_
    unfold Runtime.repairFinalizedProviderAttempt
    split
    · exact .pure _
    rename_i hscope
    have hstate := hrows e he (inScope_singleton (by simpa using hscope))
    refine .bind (.ask trivial) fun active => ?_
    rcases hs with rfl | rfl <;> rw [hstate] <;> simp <;> exact .pure _
  rw [ofRuntime_bind]
  refine .bind (waits_ofRuntime hrepair hs) fun _ => ?_
  rw [ofRuntime_bind]
  refine .bind (waits_query (c := .reconcilableJobs)
    (P := fun jobs => jobs.filter (fun j => inScope (some [t]) j.job.taskId) = []) rfl trivial hs ?_
      fun jobs hjobs => ?_)
    fun _ => ?_
  · rintro w env ⟨row, hrow, rfl⟩
    refine List.filter_eq_nil_iff.mpr fun j hj hscope => ?_
    exact reconcilableJobs_none hrow hs hj (inScope_singleton hscope)
  · dsimp only
    rw [hjobs]
    exact .result (.ok ())
  rw [ofRuntime_bind]
  refine .bind (waits_ofRuntime (.bind (.ask trivial) fun _ => .result _) hs) fun _ => ?_
  refine waits_tasks hs fun db _ => ?_
  rw [ofRuntime_bind]
  refine .bind (waits_ofRuntime (.forM fun e _ => .bind (.bind (.ask trivial) fun _ => .result _) fun _ => .pure _) hs)
    fun _ => ?_
  refine waits_tasks hs fun db hrows => waits_ofRuntime (.bind (.forM fun e he => ?_) fun _ => ?_) hs
  · unfold Runtime.requeueInterrupted
    split
    · rename_i hinterrupted
      have hstate := hrows e he (inScope_singleton hinterrupted.2)
      rcases hs with rfl | rfl <;> cases hstate.symm.trans hinterrupted.1
    · exact .pure _
  · refine .bind (.ask trivial) fun db => .forM fun e _ => ?_
    split
    · unfold Runtime.auditTaskTerminal
      split
      · exact .pure _
      refine .bind (.ask trivial) fun known => ?_
      split
      · exact .pure _
      · exact .bind (.ask trivial) fun _ => .bind (.ask trivial) fun _ => .result _
    · exact .pure _

theorem waits_read {f : Db → Program α}
    (hf : ∀ (db : Db) row, db.tasks.get? t = some row → row.state = s → Waits dg t s (f db)) :
    Waits dg t s (read >>= f) := by
  show Outline (machine dg).traced _ _ _ _ (read >>= f).run _
  refine Outline.ask_bind (c := Call.runtime .read)
    (Q := fun (db : Db) _ => ∃ row, db.tasks.get? t = some row ∧ row.state = s) (fun _ => .const _)
    (fun h env hh _ => ?_) fun db => ?_
  · exact ⟨hh, trivial, hh⟩
  · refine Outline.weaken (ψ := fun _ => True ∧ ∃ row, db.tasks.get? t = some row ∧ row.state = s) (Outline.of_const ?_)
      fun _ _ hrow => ⟨trivial, hrow⟩
    rintro ⟨row, hrow, hstate⟩
    exact hf db row hrow hstate

theorem getTask_waits (taskId : String) (hs : unfinished s) : Waits dg t s (getTask taskId) :=
  .bind (waits_ask trivial hs) fun _ => .result _

theorem pollTask_waits (hs : unfinished s) : ∀ polls, Waits dg t s (pollTask host t polls)
  | 0 => .result (.error _)
  | polls + 1 => by
    refine .bind (.bind (recover_waits _ hs) fun _ => dispatchReady_waits _ _ hs) fun _ =>
      .bind (getTask_waits _ hs) fun task => ?_
    split
    · exact pollTask_waits hs polls
    · exact .result (.ok task)

theorem executeDecision_waits (hs : unfinished s) : Waits dg t s (executeDecision host t) := by
  have hawait : Waits dg t s (awaitTask host t) := by
    refine .bind (getTask_waits _ hs) fun task => ?_
    split
    · exact .bind (recover_waits _ hs) fun _ => .bind (pollTask_waits hs _) fun _ => getTask_waits _ hs
    · exact .result (.ok task)
  refine .bind hawait fun task => ?_
  have hlast : Waits dg t s (do
      let db ← read
      if !db.runs.any fun runId run => decide (run.taskId = t) && (db.results.get? runId).isSome then
        throw (.runtimeError "decision Task has no Worker result")) := by
    refine .bind (waits_ask trivial hs) fun db => ?_
    split
    · exact .result (.error _)
    · exact .result (.ok ())
  dsimp only
  split
  · exact .bind (.result (.error _)) fun _ => hlast
  · exact hlast

/-- **Stuck.**  A caller that finds its task in DRAFT or QUEUED leaves it there. -/
theorem unfinished_stays {caller : Caller} (hsub : caller.submission host = .ok sub) (hs : unfinished s) :
    Waits dg sub.taskId s (caller.program host) := by
  cases caller with
  | dispatcher projectId actionId =>
    have htask : Autonomy.taskIdOf host.uuid5 actionId = sub.taskId := dispatchSubmission_taskId hsub
    refine .bind (waits_read fun db row hrow _ => ?_) fun _ => .result (.ok ())
    rw [htask, hrow]
    exact .bind (dispatchReady_waits _ _ hs) fun _ => .result (.ok _)
  | driver checkpoint =>
    obtain rfl : decisionSubmission host checkpoint = sub := Except.ok.inj hsub
    refine .bind (waits_read fun db row hrow _ => ?_) fun _ => executeDecision_waits hs
    rw [show db.tasks.get? (decisionTaskId host checkpoint) = some row from hrow]
    have hbind : Waits dg (decisionTaskId host checkpoint) s (do
        Prog.result ((← ask (.bindDecision (decisionTaskId host checkpoint) checkpoint.binding)).mapError
          Runtime.Raised.runtimeError)) := .bind (waits_ask trivial hs) fun _ => .result _
    dsimp only
    split
    · exact .bind (.result (.error _)) fun _ => hbind
    · exact hbind

end

/-! ## A crash and a retry -/

section

variable (dg : Digests) (host : EngineHost) (g : String) (admitted : StoreOp → Bool) (caller : Caller)

abbrev Attempting := Pool Nat History Call Call.Reply

def attemptRun (pool : Attempting) (moves : List (Move Nat Work Environment)) : Attempting :=
  pool.run (machine dg).traced (attempts host g admitted caller) moves

/-- The task and its reference are left alone until the task is submitted. -/
def LeavesAlone (sub : TaskSubmission) (w w' : Fabric) : Prop :=
  (Absent sub w → Absent sub w') ∧ ∀ s, unfinished s → InState sub.taskId s w → InState sub.taskId s w'

def OthersLeaveAlone (sub : TaskSubmission) (pool : Attempting) (moves : List (Move Nat Work Environment)) : Prop :=
  ∀ before m after, moves = before ++ m :: after → m.party ≠ 0 →
    LeavesAlone sub (attemptRun dg host g admitted caller pool before).shared.state
      (attemptRun dg host g admitted caller pool (before ++ [m])).shared.state

/-- The task was brought to the state of an uninterrupted submission, and is not left in DRAFT or QUEUED. -/
def Completed (sub : TaskSubmission) (pool : Attempting) (moves : List (Move Nat Work Environment)) : Prop :=
  (∃ before after, moves = before ++ after ∧
    InState sub.taskId sub.target (attemptRun dg host g admitted caller pool before).shared.state) ∧
  Submitted sub.taskId (attemptRun dg host g admitted caller pool moves).shared.state

/-- The attempt crashes, and another one is made. -/
def crashing (during : List (Move Nat Work Environment)) : List (Move Nat Work Environment) :=
  .start 0 .attempt :: during

def retrying (during again : List (Move Nat Work Environment)) : List (Move Nat Work Environment) :=
  crashing during ++ .drop 0 :: crashing again

/-- Every retry that comes to its end completes the submission. -/
def Restartable (sub : TaskSubmission) (pool : Attempting) (during : List (Move Nat Work Environment)) : Prop :=
  ∀ again, .drop 0 ∉ again → OthersLeaveAlone dg host g admitted caller sub pool (retrying during again) →
    (attemptRun dg host g admitted caller pool (retrying during again)).finished 0 = true →
      Completed dg host g admitted caller sub pool (retrying during again)

/-- The calls that the first attempt makes before it crashes. -/
def callsMade (pool : Attempting) (during : List (Move Nat Work Environment)) : Nat :=
  madeBy 0 (attemptRun dg host g admitted caller pool (crashing during)).shared.trace

end

/-- The submission has not begun. -/
structure Unsubmitted (sub : TaskSubmission) (pool : Attempting) : Prop where
  idle : pool.thread 0 = none
  fresh : pool.shared.trace = []
  absent : Absent sub pool.shared.state

/-- Whatever the outside is asked, it answers the same. -/
private def undisturbed : Environment where
  runtime := { Runtime.Environment.failing with decision := ⟨[], false⟩ }
  engine := .silent
  judged := none
  ended := false

/-- The caller runs alone. -/
private def calls (n : Nat) : List (Move Nat Work Environment) := List.replicate n (.step 0 undisturbed)

private theorem calls_alone (n : Nat) : .drop 0 ∉ calls n ∧ ∀ m ∈ crashing (calls n), m.party = 0 := by
  have hstep : ∀ m ∈ calls n, m = .step 0 undisturbed := fun m hm => List.eq_of_mem_replicate hm
  refine ⟨fun h => (by cases hstep _ h), fun m hm => ?_⟩
  rcases List.mem_cons.mp hm with rfl | hm
  · rfl
  · rw [hstep m hm]
    rfl

section

variable {caller : Caller} {pool : Attempting} {during : List (Move Nat Work Environment)}

theorem attemptRun_append (pool : Attempting) (moves moves' : List (Move Nat Work Environment)) :
    attemptRun dg host g admitted caller pool (moves ++ moves') =
      attemptRun dg host g admitted caller (attemptRun dg host g admitted caller pool moves) moves' :=
  Pool.run_append ..

variable {moves : List (Move Nat Work Environment)}

theorem othersLeaveAlone_append {moves' : List (Move Nat Work Environment)} :
    OthersLeaveAlone dg host g admitted caller sub pool (moves ++ moves') ↔
      OthersLeaveAlone dg host g admitted caller sub pool moves ∧
        OthersLeaveAlone dg host g admitted caller sub (attemptRun dg host g admitted caller pool moves) moves' := by
  constructor
  · refine fun h => ⟨fun before m after e => ?_, fun before m after e => ?_⟩
    · exact h before m (after ++ moves') (by rw [e]; simp)
    · have := h (moves ++ before) m after (by rw [e]; simp)
      rwa [List.append_assoc, attemptRun_append, attemptRun_append] at this
  · rintro ⟨hfirst, hsecond⟩ before m after e hparty
    rcases List.append_eq_append_iff.mp e with ⟨middle, rfl, e'⟩ | ⟨middle, rfl, e'⟩
    · rw [List.append_assoc, attemptRun_append, attemptRun_append]
      exact hsecond middle m after e' hparty
    · cases middle with
      | nil =>
        have := hsecond [] m after e'.symm hparty
        rw [List.append_nil] at this
        rw [attemptRun_append]
        exact this
      | cons m' middle =>
        obtain ⟨rfl, rfl⟩ := List.cons.inj e'
        exact hfirst before m middle rfl hparty

theorem othersLeaveAlone_alone (h : ∀ m ∈ moves, m.party = 0) :
    OthersLeaveAlone dg host g admitted caller sub pool moves := by
  rintro before m after rfl hparty
  exact absurd (h m (by simp)) hparty

/-- The last transaction of the submission is behind. -/
def Settled (sub : TaskSubmission) (h : History) : Prop := settling sub ∈ h.trace ∧ Submitted sub.taskId h.state

theorem settled_move {E : Type} {entry : Nat → E → Prog Call Call.Reply Unit} (h : Settled sub pool.shared)
    (m : Move Nat E Environment) :
    Settled sub (pool.move (machine dg).traced entry m).shared := by
  rcases Pool.move_shared_party (M := (machine dg).traced) entry pool m with hsame | ⟨env, c, hact⟩
  · rw [hsame]
    exact h
  · rw [hact]
    exact ⟨List.mem_append_left _ h.1, submitted_step c h.2⟩

/-- What is settled stays settled. -/
theorem settled_run (moves : List (Move Nat Work Environment)) (h : Settled sub pool.shared) :
    Settled sub (attemptRun dg host g admitted caller pool moves).shared := by
  induction moves using List.reverseRecOn with
  | nil => exact h
  | append_singleton moves m ih =>
    rw [attemptRun_append]
    exact settled_move ih m

theorem completed_of_settled (hfresh : pool.shared.trace = [])
    (h : Settled sub (attemptRun dg host g admitted caller pool moves).shared) :
    Completed dg host g admitted caller sub pool moves := by
  refine ⟨?_, h.2⟩
  obtain ⟨before, m, after, env, hmoves, hstep, hreply⟩ := Pool.event_at moves h.1 (by simp [hfresh])
  refine ⟨before ++ [m], after, by simp [hmoves], ?_⟩
  unfold attemptRun
  rw [hstep]
  exact moved_of_reply hreply.symm

/-- A move of another program keeps the submission where it is. -/
theorem progress_beside {base : Nat} {m : Move Nat Work Environment} (hp : Progress sub base pool.shared)
    (hm : m.party ≠ 0) (hleave : LeavesAlone sub pool.shared.state
      (pool.move (machine dg).traced (attempts host g admitted caller) m).shared.state) :
    Progress sub base (pool.move (machine dg).traced (attempts host g admitted caller) m).shared ∧
      Beside m.party pool.shared (pool.move (machine dg).traced (attempts host g admitted caller) m).shared := by
  obtain ⟨n, hcount, hstage, hset⟩ := hp
  rcases Pool.move_shared_party (M := (machine dg).traced) (attempts host g admitted caller) pool m with
    hsame | ⟨env, c, hact⟩
  · rw [hsame]
    exact ⟨⟨n, hcount, hstage, hset⟩, fun _ => rfl⟩
  · have hbeside : Beside m.party pool.shared
      (pool.move (machine dg).traced (attempts host g admitted caller) m).shared := by
      intro _
      rw [hact]
      show madeBy 0 (pool.shared.trace ++ [_]) = _
      rw [madeBy_concat, if_neg hm, Nat.add_zero]
    refine ⟨⟨n, (hbeside hm).trans hcount, ?_, fun hn => ?_⟩, hbeside⟩
    · rcases Nat.lt_or_ge n sub.calls with hlt | hge
      · rcases Nat.lt_or_ge 1 n with hlow | hlow
        · rcases Nat.lt_or_ge 2 n with hmid | hmid
          · exact (stage_queued hmid hlt).mpr (hleave.2 _ (Or.inr rfl) ((stage_queued hmid hlt).mp hstage))
          · obtain rfl : n = 2 := by omega
            exact stage_draft.mpr (hleave.2 _ (Or.inl rfl) (stage_draft.mp hstage))
        · exact (stage_absent hlow).mpr (hleave.1 ((stage_absent hlow).mp hstage))
      · rw [hact]
        exact (stage_submitted hge).mpr (submitted_step c ((stage_submitted hge).mp hstage))
    · rw [hact]
      exact List.mem_append_left _ (hset hn)

theorem crashing_run (hidle : pool.thread 0 = none) (moves : List (Move Nat Work Environment)) :
    attemptRun dg host g admitted caller pool (crashing moves) = attemptRun dg host g admitted caller
      (pool.set 0 (some (attempts host g admitted caller 0 .attempt))) moves := by
  have hstart : pool.move (machine dg).traced (attempts host g admitted caller) (.start 0 Work.attempt) =
      pool.set 0 (some (attempts host g admitted caller 0 .attempt)) := by
    simp only [Pool.move, hidle]
  exact congrArg (fun pool => attemptRun dg host g admitted caller pool moves) hstart

/-- An attempt among programs that leave its submission alone. -/
theorem attempt_among {I : History → Prop} {G : Nat → History → History → Prop} {φ Q : History → Prop}
    (hidle : pool.thread 0 = none) (hI : I pool.shared) (hst : Stable I G 0 φ) (hφ : φ pool.shared)
    (hout : Outline (machine dg).traced I G 0 φ (caller.program host).run fun _ => Q) (hkeep : .drop 0 ∉ during)
    (hleave : OthersLeaveAlone dg host g admitted caller sub pool (crashing during))
    (hothers : ∀ (pool : Attempting) m, m.party ≠ 0 → I pool.shared →
      LeavesAlone sub pool.shared.state
        (pool.move (machine dg).traced (attempts host g admitted caller) m).shared.state →
      I (pool.move (machine dg).traced (attempts host g admitted caller) m).shared ∧
        G m.party pool.shared (pool.move (machine dg).traced (attempts host g admitted caller) m).shared) :
    I (attemptRun dg host g admitted caller pool (crashing during)).shared ∧
      ((attemptRun dg host g admitted caller pool (crashing during)).finished 0 = true →
        Q (attemptRun dg host g admitted caller pool (crashing during)).shared) := by
  let start : Attempting := pool.set 0 (some (attempts host g admitted caller 0 .attempt))
  have hthread : start.thread 0 = some (attempts host g admitted caller 0 .attempt) := by simp [start, Pool.set]
  have hbeside : ∀ before m after, during = before ++ m :: after → m.party ≠ 0 →
      I (attemptRun dg host g admitted caller start before).shared →
      I (attemptRun dg host g admitted caller start (before ++ [m])).shared ∧
        G m.party (attemptRun dg host g admitted caller start before).shared
          (attemptRun dg host g admitted caller start (before ++ [m])).shared := by
    intro before m after e hparty hp
    have hmove := hleave (crashing before) m after (by rw [e]; rfl) hparty
    rw [attemptRun_append, crashing_run hidle] at hmove
    rw [attemptRun_append]
    exact hothers _ m hparty hp hmove
  have hwhole : Outline (machine dg).traced I G 0 φ (attempts host g admitted caller 0 .attempt) fun _ => Q :=
    Outline.bind hout fun _ _ _ h => h
  obtain ⟨q, ψ, hq, hI', hψ, hrest⟩ := Pool.run_among during hthread hI hst hφ hwhole hkeep hbeside
  rw [crashing_run hidle]
  refine ⟨hI', fun hend => ?_⟩
  obtain rfl : q = .ret () := Option.some.inj (hq.symm.trans (Pool.finished_iff.mp hend))
  exact hrest _ hI' hψ

/-- An attempt that finds nothing of the submission: it has come as far as its calls tell, and at its end all of them
are made. -/
theorem attempt_progress (hsub : caller.submission host = .ok sub) (hidle : pool.thread 0 = none)
    (habsent : Absent sub pool.shared.state) (hkeep : .drop 0 ∉ during)
    (hleave : OthersLeaveAlone dg host g admitted caller sub pool (crashing during)) :
    Progress sub (madeBy 0 pool.shared.trace) (attemptRun dg host g admitted caller pool (crashing during)).shared ∧
      ((attemptRun dg host g admitted caller pool (crashing during)).finished 0 = true →
        Settled sub (attemptRun dg host g admitted caller pool (crashing during)).shared) := by
  have hcalls := calls_pos sub
  have hbegin : Progress sub (madeBy 0 pool.shared.trace) pool.shared :=
    ⟨0, rfl, (stage_absent (by omega)).mpr habsent, fun h => absurd h (by omega)⟩
  obtain ⟨hprogress, hdone⟩ := attempt_among hidle hbegin reached_stable
    (show Reached _ 0 pool.shared from rfl) (attempt_outline hsub) hkeep hleave fun pool m hparty hp hmove =>
      progress_beside hp hparty hmove
  refine ⟨hprogress, fun hend => ?_⟩
  obtain ⟨n, hcount, hstage, hset⟩ := hprogress
  have hn : sub.calls ≤ n := by
    have := hdone hend
    unfold Done at this
    omega
  exact ⟨hset hn, (stage_submitted hn).mp hstage⟩

theorem attempt_stays {s : TaskState} (hsub : caller.submission host = .ok sub) (hidle : pool.thread 0 = none)
    (hs : unfinished s) (hstate : InState sub.taskId s pool.shared.state) (hkeep : .drop 0 ∉ during)
    (hleave : OthersLeaveAlone dg host g admitted caller sub pool (crashing during)) :
    InState sub.taskId s (attemptRun dg host g admitted caller pool (crashing during)).shared.state :=
  (attempt_among (φ := fun _ => True) hidle hstate .true trivial (unfinished_stays hsub hs) hkeep hleave
    fun _ _ _ h hmove => ⟨hmove.2 s hs h, trivial⟩).1

/-- After the crash. -/
def crashed (dg : Digests) (host : EngineHost) (g : String) (admitted : StoreOp → Bool) (caller : Caller)
    (pool : Attempting) (during : List (Move Nat Work Environment)) : Attempting :=
  (attemptRun dg host g admitted caller pool (crashing during)).set 0 none

theorem crashed_idle : (crashed dg host g admitted caller pool during).thread 0 = none := by simp [crashed, Pool.set]

theorem retrying_run (again : List (Move Nat Work Environment)) :
    attemptRun dg host g admitted caller pool (retrying during again) =
      attemptRun dg host g admitted caller (crashed dg host g admitted caller pool during) (crashing again) := by
  unfold retrying
  rw [attemptRun_append]
  rfl

theorem retrying_leaves {again : List (Move Nat Work Environment)} :
    OthersLeaveAlone dg host g admitted caller sub pool (retrying during again) ↔
      OthersLeaveAlone dg host g admitted caller sub pool (crashing during) ∧
        OthersLeaveAlone dg host g admitted caller sub (crashed dg host g admitted caller pool during)
          (crashing again) := by
  rw [show retrying during again = crashing during ++ ([.drop 0] ++ crashing again) from rfl, othersLeaveAlone_append,
    othersLeaveAlone_append]
  exact and_congr_right fun _ => and_iff_right (othersLeaveAlone_alone (by simp [Move.party]))

theorem crashed_stage (hsub : caller.submission host = .ok sub) (hpool : Unsubmitted sub pool)
    (hkeep : .drop 0 ∉ during)
    (hleave : OthersLeaveAlone dg host g admitted caller sub pool (crashing during)) :
    Stage sub (callsMade dg host g admitted caller pool during)
        (crashed dg host g admitted caller pool during).shared.state ∧
      (sub.calls ≤ callsMade dg host g admitted caller pool during →
        settling sub ∈ (crashed dg host g admitted caller pool during).shared.trace) := by
  obtain ⟨⟨n, hn, hrest⟩, -⟩ := attempt_progress hsub hpool.idle hpool.absent hkeep hleave
  rw [hpool.fresh, show madeBy 0 [] = 0 from rfl, Nat.zero_add] at hn
  unfold callsMade
  rw [hn]
  exact hrest

theorem restart_completes (hsub : caller.submission host = .ok sub) (hpool : Unsubmitted sub pool)
    (hkeep : .drop 0 ∉ during) (hcount : callsMade dg host g admitted caller pool during ≤ 1 ∨
      sub.calls ≤ callsMade dg host g admitted caller pool during) :
    Restartable dg host g admitted caller sub pool during := by
  intro again hagain hleave hend
  obtain ⟨hfirst, hsecond⟩ := retrying_leaves.mp hleave
  obtain ⟨hstage, hset⟩ := crashed_stage hsub hpool hkeep hfirst
  refine completed_of_settled hpool.fresh ?_
  rw [retrying_run] at hend ⊢
  rcases hcount with hbefore | hafter
  · exact (attempt_progress hsub crashed_idle ((stage_absent hbefore).mp hstage) hagain hsecond).2 hend
  · exact settled_run _ ⟨hset hafter, (stage_submitted hafter).mp hstage⟩

/-- A crash between the transactions. -/
theorem restart_stuck (hsub : caller.submission host = .ok sub) (hpool : Unsubmitted sub pool)
    (hkeep : .drop 0 ∉ during) (hleave : OthersLeaveAlone dg host g admitted caller sub pool (crashing during))
    (hlow : 1 < callsMade dg host g admitted caller pool during)
    (hhigh : callsMade dg host g admitted caller pool during < sub.calls) :
    ¬ Restartable dg host g admitted caller sub pool during := by
  intro hrestart
  obtain ⟨s, hs, hstate⟩ : ∃ s, unfinished s ∧
      InState sub.taskId s (crashed dg host g admitted caller pool during).shared.state := by
    have hstage := (crashed_stage hsub hpool hkeep hleave).1
    rcases Nat.lt_or_ge 2 (callsMade dg host g admitted caller pool during) with hmid | hmid
    · exact ⟨.queued, Or.inr rfl, (stage_queued hmid hhigh).mp hstage⟩
    · rw [show callsMade dg host g admitted caller pool during = 2 by omega] at hstage
      exact ⟨.draft, Or.inl rfl, stage_draft.mp hstage⟩
  -- the retry runs alone to its end
  have hthread : (attemptRun dg host g admitted caller (crashed dg host g admitted caller pool during)
      (crashing [])).thread 0 = some (attempts host g admitted caller 0 .attempt) := by
    rw [crashing_run crashed_idle]
    simp [attemptRun, Pool.run, Pool.set]
  obtain ⟨n, hend⟩ := Pool.ends (M := (machine dg).traced) (attempts host g admitted caller) undisturbed hthread
  obtain ⟨hagain, hparties⟩ := calls_alone n
  obtain ⟨-, row, hrow, hdraft, hqueued⟩ := hrestart _ hagain
    (retrying_leaves.mpr ⟨hleave, othersLeaveAlone_alone hparties⟩) (by rw [retrying_run]; exact hend)
  rw [retrying_run] at hrow
  obtain ⟨row', hrow', rfl⟩ := attempt_stays hsub crashed_idle hs hstate hagain (othersLeaveAlone_alone hparties)
  obtain rfl := Option.some.inj (hrow.symm.trans hrow')
  exact hs.elim hdraft hqueued

/-- **Restarting a submission.**  A crashed submission can be retried exactly when no transaction of it was committed,
or all of them were; the calls of an attempt are the look for the task and what `submit_task` does. -/
theorem submission_restartable_iff (hsub : caller.submission host = .ok sub) (hpool : Unsubmitted sub pool)
    (hkeep : .drop 0 ∉ during) (hleave : OthersLeaveAlone dg host g admitted caller sub pool (crashing during)) :
    Restartable dg host g admitted caller sub pool during ↔
      callsMade dg host g admitted caller pool during ≤ 1 ∨
        sub.calls ≤ callsMade dg host g admitted caller pool during := by
  refine ⟨fun hrestart => ?_, restart_completes hsub hpool hkeep⟩
  by_contra hbetween
  obtain ⟨hlow, hhigh⟩ := not_or.mp hbetween
  exact restart_stuck hsub hpool hkeep hleave (by omega) (by omega) hrestart

end

section

private def engineHost : EngineHost :=
  ⟨⟨"A", fun _ => some .legacy, 3, 1000000, 30000000, 1000000⟩, fun a b => decide (a ≤ b), 3, id, id,
    fun _ => some (.green, .single)⟩

private def planned : Caller :=
  .dispatcher "p" "action" ⟨"key", "title", "description", "role", "", rfl, rfl, rfl⟩

private def decision : Caller := .driver ⟨"g", "p", "itr", 1, 0, .evaluation⟩

private def unused : Attempting := Pool.quiet ⟨Fabric.initial, []⟩

-- the attempt crashes after `n` calls, and the retry makes `n'` calls
private def retried (caller : Caller) (n n' : Nat) : Attempting :=
  attemptRun .trivial engineHost "g" (fun _ => false) caller unused (retrying (calls n) (calls n'))

private def stateOf (pool : Attempting) (taskId : String) : Option TaskState :=
  (pool.shared.state.db.tasks.get? taskId).map TaskRow.state

-- the dispatcher crashes after `create_task`, the driver after the first transition
/-- The dispatcher crashes after the first one, the driver after the second. -/
theorem crashed_submission_stuck :
    (retried planned 2 2).finished 0 = true ∧ stateOf (retried planned 2 2) "tsk-action" = some .draft ∧
      (retried decision 3 20).finished 0 = true ∧
        stateOf (retried decision 3 20) "tsk-autonomy-decision/v1:g:evaluation:1:0" = some .queued := by
  decide +kernel

private def plannedTask : TaskSubmission := ⟨"tsk-action", "p", "AUTO-action", .single, .green, .notRequired⟩

theorem submission_restartable_iff_planned :
    Restartable .trivial engineHost "g" (fun _ => false) planned plannedTask unused (calls 1) ∧
      ¬ Restartable .trivial engineHost "g" (fun _ => false) planned plannedTask unused (calls 2) := by
  have hpool : Unsubmitted plannedTask unused := ⟨rfl, rfl, rfl, rfl⟩
  exact ⟨(submission_restartable_iff rfl hpool (calls_alone 1).1 (othersLeaveAlone_alone (calls_alone 1).2)).mpr
      (by decide +kernel),
    fun h => absurd ((submission_restartable_iff rfl hpool (calls_alone 2).1
      (othersLeaveAlone_alone (calls_alone 2).2)).mp h) (by decide +kernel)⟩

end

end AgentFabric.Submission
