import AgentFabric.Intake.Approvals

/-!
# References of submitted tasks

A submission without a reference counts the tasks of its project, and inserts its task under the next number later, in
another transaction; two tasks of a project may not have the same reference.
-/

namespace AgentFabric.Intake

open AgentFabric.Lib AgentFabric.Store AgentFabric.Resource Prog

theorem taskReference_number (n : Nat) : Nat.ofDigitChars 10 ((taskReference n).toList.drop 1) 0 = n := by
  have hlist : (taskReference n).toList.drop 1 =
      List.replicate (4 - (Nat.toDigits 10 n).length) '0' ++ Nat.toDigits 10 n := by
    simp [taskReference, String.toList_append]
  rw [hlist, Nat.ofDigitChars_append, Nat.ofDigitChars_replicate_zero, Nat.mul_zero, Nat.ofDigitChars_ten_toDigits]

variable {n j : Nat}

/-- Different numbers are different references. -/
theorem taskReference_injective {m : Nat} (h : taskReference n = taskReference m) : n = m := by
  rw [← taskReference_number n, h, taskReference_number]

/-! ## Submissions without a reference -/

/-- A submission to a project, without a reference. -/
structure NumberedSubmission where
  taskId : String
  topology : ExecutionTopology
  requirements : TaskRequirements

def NumberedSubmission.full (projectId : String) (sub : NumberedSubmission) : TaskSubmission where
  taskId := sub.taskId
  projectId := projectId
  reference := none
  topology := sub.topology
  requirements := sub.requirements

abbrev HistoryEvent := Event Nat Call Call.Reply

def lastCount (trace : List HistoryEvent) (i : Nat) : Option Nat :=
  trace.reverse.findSome? fun
    | ⟨j, .taskCount _, n⟩ => if j = i then some n else none
    | _ => none

/-- The task that the call has inserted. -/
def created : HistoryEvent → Option NewTask
  | ⟨_, .createTask task _, .ok _⟩ => some task
  | _ => none

def references (trace : List HistoryEvent) : List String := (trace.filterMap created).map (·.reference)

variable {trace : List HistoryEvent}

theorem lastCount_other {c : Call} {r : c.Reply} (h : j ≠ i) :
    lastCount (trace ++ [⟨j, c, r⟩]) i = lastCount trace i := by
  rw [lastCount, List.reverse_append]
  cases c <;> simp [lastCount, h]

theorem lastCount_uncounted {c : Call} {r : c.Reply} (h : ∀ projectId, c ≠ .taskCount projectId) :
    lastCount (trace ++ [⟨j, c, r⟩]) i = lastCount trace i := by
  rw [lastCount, List.reverse_append]
  cases c with
  | taskCount projectId => exact absurd rfl (h projectId)
  | _ => rfl

theorem lastCount_counted :
    lastCount (trace ++ [⟨i, .taskCount projectId, n⟩]) i = some n := by
  rw [lastCount, List.reverse_append]
  simp

theorem references_append (trace trace' : List HistoryEvent) :
    references (trace ++ trace') = references trace ++ references trace' := by
  simp [references]

/-- The programs and the database after a schedule of submissions to a project. -/
def submissions (dg : Digests) (projectId : String) (start : World)
    (moves : List (Move Nat NumberedSubmission Environment)) : Pool Nat History Call Call.Reply :=
  (Pool.quiet ⟨start, []⟩).run (machine dg).traced
    (fun _ sub => (submitTask (sub.full projectId)).run.bind fun _ => .ret ()) moves

/-! ## What a submission may do -/

/-- The thread has inserted the task. -/
def Owns (h : History) (i : Nat) (taskId : String) : Prop :=
  ∃ e ∈ h.trace, e.thread = i ∧ ∃ task, created e = some task ∧ task.id = taskId

/-- The transaction of `moveTask`. -/
abbrev moveCall (taskId : String) (target : TaskState) : Call :=
  .runtime (.store (.transitionTask taskId target none .absent Runtime.unstamped))

/-- The calls of a submission: it inserts its task under the number after its count, and then writes no other task. -/
inductive Permitted (projectId : String) (h : History) (i : Nat) : Call → Prop
  | count : Permitted projectId h i (.taskCount projectId)
  | create (task : NewTask) (requirements : TaskRequirements) (n : Nat) (hcount : lastCount h.trace i = some n)
      (hproject : task.projectId = projectId) (hreference : task.reference = taskReference (n + 1)) :
      Permitted projectId h i (.createTask task requirements)
  | move (taskId : String) (target : TaskState) (row : TaskRow) (howns : Owns h i taskId)
      (hrow : h.state.db.tasks.get? taskId = some row) (hallowed : taskTransitions.allows row.state target = true) :
      Permitted projectId h i (moveCall taskId target)
  | approval (request : ApprovalRequest) (taskId : String) (htask : request.taskId = some taskId)
      (howns : Owns h i taskId) : Permitted projectId h i (.requestApproval request)

/-- A task that was inserted is there, and one thread inserted it. -/
structure Owned (projectId : String) (h : History) : Prop where
  present : ∀ e ∈ h.trace, ∀ task, created e = some task → ∃ row, h.state.db.tasks.get? task.id = some row ∧
    row.projectId = projectId ∧ row.reference = task.reference
  unique : ∀ i j taskId, Owns h i taskId → Owns h j taskId → i = j

/-- A step of a submission. -/
def Submits (dg : Digests) (projectId : String) (i : Nat) (h h' : History) : Prop :=
  ∃ env c, Permitted projectId h i c ∧ h' = ((machine dg).traced.act i h env c).2

/-! ## Steps -/

section

variable {dg : Digests} {projectId : String} {h : History} {i : Nat}

theorem createTask_free {db : Db} {task : NewTask} : (∃ result, createTask db task = .ok result) ↔
    (∀ id row, db.tasks.get? id = some row → row.projectId = task.projectId → row.reference ≠ task.reference) ∧
      db.tasks.get? task.id = none := by
  have hfree : db.tasks.any (fun _ row => decide (row.projectId = task.projectId) &&
      decide (row.reference = task.reference)) = false ↔
      ∀ id row, db.tasks.get? id = some row → row.projectId = task.projectId → row.reference ≠ task.reference := by
    rw [← Bool.not_eq_true, Table.any_eq_true]
    simp only [Bool.and_eq_true, decide_eq_true_eq]
    constructor
    · intro hn id row hrow hproject hreference
      exact hn ⟨id, row, hrow, hproject, hreference⟩
    · rintro hall ⟨id, row, hrow, hproject, hreference⟩
      exact hall id row hrow hproject hreference
  constructor
  · rintro ⟨⟨u, db'⟩, hop⟩
    obtain ⟨tasks, hi, -⟩ := createTask_ok hop
    simp only [createTask, bind_eq_ok, ensure_eq_ok] at hop
    obtain ⟨-, hnone, -⟩ := hop
    exact ⟨hfree.mp hnone, Table.insert?_fresh hi⟩
  · rintro ⟨hreference, hid⟩
    obtain ⟨tasks, hi⟩ := Table.insert?_of_fresh task.row hid
    refine ⟨((), { db with tasks := tasks }), ?_⟩
    simp only [createTask, bind_eq_ok, ensure_eq_ok, orRaise_eq_ok, pure_eq_ok]
    exact ⟨(), hfree.mpr hreference, tasks, hi, rfl⟩

variable {taskId : String} {target state : TaskState}

theorem act_move (dg : Digests) {w : World} (env : Environment) {row : TaskRow}
    (hrow : w.db.tasks.get? taskId = some row) (hallowed : taskTransitions.allows row.state target = true) :
    ∃ now, (act dg w env (moveCall taskId target)).1 = .ok () ∧
      (act dg w env (moveCall taskId target)).2.db.tasks =
        w.db.tasks.modify taskId fun _ => row.transition target now := by
  let clock : Clock := ⟨w.runtime.clock + env.runtime.wait, w.runtime.clock + env.runtime.wait + env.runtime.lag⟩
  have hop : transitionTask w.runtime.db taskId target none .absent clock = .ok ((), { w.runtime.db with
      tasks := w.runtime.db.tasks.modify taskId fun _ => row.transition target (timestamp clock.now) }) := by
    simp only [transitionTask, bind_eq_ok, ensure_eq_ok, orRaise_eq_ok, require_eq_ok, pure_eq_ok]
    exact ⟨row, hrow, (), rfl, (), hallowed, (), rfl, rfl⟩
  refine ⟨timestamp clock.now, ?_, ?_⟩
  · simp only [act, Runtime.act, Runtime.transaction, Runtime.stamp, exec]
    rw [show transitionTask w.runtime.db taskId target none .absent _ = _ from hop]
  · simp only [act, Runtime.act, Runtime.transaction, Runtime.stamp, exec, World.db]
    rw [show transitionTask w.runtime.db taskId target none .absent _ = _ from hop]

variable {c : Call}

/-- An insertion that is answered `ok` has added the row of the task. -/
theorem act_created {w : World} {env : Environment} {task : NewTask}
    (hnew : created ⟨i, c, (act dg w env c).1⟩ = some task) :
    ∃ requirements tasks, c = .createTask task requirements ∧ (∃ result, createTask w.db task = .ok result) ∧
      w.db.tasks.insert? task.id task.row = some tasks ∧ (act dg w env c).2.db.tasks = tasks := by
  cases c with
  | createTask task' requirements =>
    rcases act_createTask dg w env task' requirements with ⟨tasks, world, hop, hi, hdb, hact⟩ | ⟨e, world, -, -, hact⟩
    · rw [hact] at hnew
      obtain rfl := Option.some.inj hnew
      refine ⟨requirements, tasks, rfl, ⟨_, hop⟩, hi, ?_⟩
      rw [hact]
      exact congrArg Db.tasks hdb
    · rw [hact] at hnew
      cases hnew
  | _ => cases hnew

/-- A submission keeps the rows, and writes those of its own tasks only. -/
theorem Permitted.keeps (hc : Permitted projectId h i c) (dg : Digests) (env : Environment) {id : String}
    {row : TaskRow} (hrow : h.state.db.tasks.get? id = some row) :
    ∃ row', (act dg h.state env c).2.db.tasks.get? id = some row' ∧ row'.projectId = row.projectId ∧
      row'.reference = row.reference ∧ (row' = row ∨ Owns h i id) := by
  cases hc with
  | count => exact ⟨row, hrow, rfl, rfl, Or.inl rfl⟩
  | approval => exact ⟨row, hrow, rfl, rfl, Or.inl rfl⟩
  | create task requirements =>
    refine ⟨row, ?_, rfl, rfl, Or.inl rfl⟩
    rcases act_createTask dg h.state env task requirements with
      ⟨tasks, world, -, hi, hdb, hact⟩ | ⟨e, world, -, hdb, hact⟩
    · have hne : id ≠ task.id := by
        rintro rfl
        rw [Table.insert?_fresh hi] at hrow
        cases hrow
      rw [hact, show World.db _ = world.db from rfl, hdb, Table.get?_insert hi, if_neg hne, hrow]
    · rw [hact, show World.db _ = world.db from rfl, hdb, hrow]
  | move taskId target old howns hold hallowed =>
    obtain ⟨now, -, htasks⟩ := act_move dg env hold hallowed
    rw [htasks]
    by_cases hid : id = taskId
    · subst hid
      obtain rfl := Option.some.inj (hold.symm.trans hrow)
      exact ⟨old.transition target now, by rw [Table.get?_modify_self, hold]; rfl, rfl, rfl, Or.inr howns⟩
    · exact ⟨row, by rw [Table.get?_modify_ne _ _ hid, hrow], rfl, rfl, Or.inl rfl⟩

theorem Permitted.counts (hc : Permitted projectId h i c) (dg : Digests) (env : Environment) :
    (act dg h.state env c).2.taskCount projectId = h.state.taskCount projectId +
      ((created ⟨i, c, (act dg h.state env c).1⟩).toList.length) := by
  cases hc with
  | count => rfl
  | approval => rfl
  | create task requirements n hcount hproject =>
    rcases act_createTask dg h.state env task requirements with
      ⟨tasks, world, -, hi, hdb, hact⟩ | ⟨e, world, -, hdb, hact⟩
    · rw [hact]
      have htasks : world.db.tasks = tasks := congrArg Db.tasks hdb
      simp only [World.taskCount, World.db, htasks, Table.insert?_rows hi, List.filter_append, List.length_append]
      simp [created, NewTask.row, hproject]
    · rw [hact]
      simp only [World.taskCount, World.db, hdb]
      rfl
  | move taskId target row howns hrow hallowed =>
    obtain ⟨now, -, htasks⟩ := act_move dg env hrow hallowed
    have hsame : h.state.db.tasks.modify taskId (fun _ => row.transition target now) =
        h.state.db.tasks.modify taskId (fun row => row.transition target now) := by
      refine Table.modify_congr fun v hv => ?_
      rw [Option.some.inj (hrow.symm.trans hv)]
    simp only [World.taskCount, htasks, hsame, ← List.countP_eq_length_filter]
    exact Table.countP_modify (p := fun row : TaskRow => decide (row.projectId = projectId)) fun _ => rfl

/-- A step keeps what was inserted, by whom. -/
theorem Owned.step (howned : Owned projectId h) (hc : Permitted projectId h i c) (env : Environment) :
    Owned projectId ((machine dg).traced.act i h env c).2 := by
  have hnone : ∀ {j task}, created ⟨i, c, (act dg h.state env c).1⟩ = some task → ¬ Owns h j task.id := by
    rintro j task hnew ⟨e, he, -, task', hcreated, hid⟩
    obtain ⟨requirements, tasks, -, -, hi, -⟩ := act_created hnew
    obtain ⟨row, hrow, -⟩ := howned.present e he task' hcreated
    rw [hid, Table.insert?_fresh hi] at hrow
    cases hrow
  constructor
  · intro e he task hcreated
    rcases List.mem_append.mp he with hold | hnew
    · obtain ⟨row, hrow, hproject, hreference⟩ := howned.present e hold task hcreated
      obtain ⟨row', hrow', hproject', hreference', -⟩ := hc.keeps dg env hrow
      exact ⟨row', hrow', hproject'.trans hproject, hreference'.trans hreference⟩
    · obtain rfl := List.mem_singleton.mp hnew
      obtain ⟨requirements, tasks, rfl, -, hi, htasks⟩ := act_created hcreated
      cases hc with
      | create task requirements n hcount hproject =>
        refine ⟨task.row, ?_, hproject, rfl⟩
        rw [show ((machine dg).traced.act i h env (.createTask task requirements)).2.state.db.tasks = tasks from htasks,
          Table.get?_insert hi, if_pos rfl]
  · rintro j k taskId ⟨e, he, hj, task, hcreated, hid⟩ ⟨e', he', hk, task', hcreated', hid'⟩
    rcases List.mem_append.mp he with hold | hnew <;> rcases List.mem_append.mp he' with hold' | hnew'
    · exact howned.unique j k taskId ⟨e, hold, hj, task, hcreated, hid⟩ ⟨e', hold', hk, task', hcreated', hid'⟩
    · obtain rfl := List.mem_singleton.mp hnew'
      exact absurd ⟨e, hold, hj, task, hcreated, hid.trans hid'.symm⟩ (hnone hcreated')
    · obtain rfl := List.mem_singleton.mp hnew
      exact absurd ⟨e', hold', hk, task', hcreated', hid'.trans hid.symm⟩ (hnone hcreated)
    · obtain rfl := List.mem_singleton.mp hnew
      obtain rfl := List.mem_singleton.mp hnew'
      exact hj.symm.trans hk

/-! ## One submission after another -/

/-- The thread has inserted the task, which is in this state. -/
def Holds (i : Nat) (taskId : String) (state : TaskState) (h : History) : Prop :=
  Owns h i taskId ∧ ∃ row, h.state.db.tasks.get? taskId = some row ∧ row.state = state

theorem Owns.grows (howns : Owns h i taskId) (j : Nat) (env : Environment) (c : Call) :
    Owns ((machine dg).traced.act j h env c).2 i taskId := by
  obtain ⟨e, he, hrest⟩ := howns
  exact ⟨e, List.mem_append_left _ he, hrest⟩

theorem counted_stable (n : Nat) :
    Stable (Owned projectId) (Submits dg projectId) i fun h => lastCount h.trace i = some n := by
  rintro j h h' hj - - ⟨env, c, -, rfl⟩ hcount
  exact (lastCount_other hj).trans hcount

theorem holds_stable (taskId : String) (state : TaskState) :
    Stable (Owned projectId) (Submits dg projectId) i (Holds i taskId state) := by
  rintro j h h' hj howned - ⟨env, c, hc, rfl⟩ ⟨howns, row, hrow, hstate⟩
  obtain ⟨row', hrow', -, -, hsame | hother⟩ := hc.keeps dg env hrow
  · exact ⟨howns.grows j env c, row', hrow', hsame ▸ hstate⟩
  · exact absurd (howned.unique j i taskId hother howns) hj

theorem Permitted.promise (howned : Owned projectId h) (hc : Permitted projectId h i c) (env : Environment) {q : Prop}
    (hq : q) : Owned projectId ((machine dg).traced.act i h env c).2 ∧
      Submits dg projectId i h ((machine dg).traced.act i h env c).2 ∧ q :=
  ⟨howned.step hc env, ⟨env, c, hc, rfl⟩, hq⟩

theorem moveTask_outline (hallowed : taskTransitions.allows state target = true) :
    Outline (machine dg).traced (Owned projectId) (Submits dg projectId) i (Holds i taskId state)
      (moveTask taskId target).run (onOk fun _ => Holds i taskId target) := by
  rintro h env howned ⟨howns, row, hrow, rfl⟩
  have hc : Permitted projectId h i _ := .move taskId target row howns hrow hallowed
  obtain ⟨now, -, htasks⟩ := act_move dg env hrow hallowed
  have hnext : Holds i taskId target ((machine dg).traced.act i h env (moveCall taskId target)).2 := by
    refine ⟨howns.grows i env _, row.transition target now, ?_, rfl⟩
    show (act dg h.state env (moveCall taskId target)).2.db.tasks.get? taskId = _
    rw [htasks, Table.get?_modify_self, hrow]
    rfl
  refine ⟨howned.step hc env, ⟨env, _, hc, rfl⟩, Holds i taskId target, holds_stable taskId target, hnext, ?_⟩
  intro h' _ hh
  cases ((machine dg).traced.act i h env (moveCall taskId target)).1 with
  | ok => exact hh
  | error => trivial

/-- What is known when a transaction was answered `ok`. -/
theorem answered_outline {α : Type} {φ : History → Prop} (x : Except StoreError α) :
    Outline (machine dg).traced (Owned projectId) (Submits dg projectId) i (fun h => (∃ a, x = .ok a) → φ h)
      (answered x).run (onOk fun _ => φ) := by
  refine Outline.result fun a h hx _ hφ => hφ ?_
  cases x with
  | ok b => exact ⟨b, rfl⟩
  | error => cases hx

theorem answered_stable {α : Type} (x : Except StoreError α) :
    Stable (Owned projectId) (Submits dg projectId) i fun h => (∃ a, x = .ok a) → Holds i taskId state h :=
  fun j h h' hj hi hi' hg hφ hx => holds_stable taskId state j h h' hj hi hi' hg (hφ hx)

theorem create_holds {task : NewTask} {requirements : TaskRequirements} (env : Environment)
    (hok : ∃ a, ((machine dg).traced.act i h env (.createTask task requirements)).1 = .ok a) :
    Holds i task.id task.state ((machine dg).traced.act i h env (.createTask task requirements)).2 := by
  obtain ⟨a, ha⟩ := hok
  have hreply : (act dg h.state env (.createTask task requirements)).1 = .ok a := ha
  have hcreated : created ⟨i, .createTask task requirements, (act dg h.state env (.createTask task requirements)).1⟩ =
      some task := by
    rw [hreply]
    rfl
  obtain ⟨_, tasks, -, -, hi, htasks⟩ := act_created hcreated
  refine ⟨⟨_, List.mem_append_right _ (List.mem_singleton.mpr rfl), rfl, task, hcreated, rfl⟩, task.row, ?_, rfl⟩
  show (act dg h.state env (.createTask task requirements)).2.db.tasks.get? task.id = _
  rw [htasks, Table.get?_insert hi, if_pos rfl]

/-- **A submission.** It counts, inserts its task under the next number, and moves it; every call of it is permitted. -/
theorem submit_outline (sub : NumberedSubmission) :
    Outline (machine dg).traced (Owned projectId) (Submits dg projectId) i (fun _ => True)
      (submitTask (sub.full projectId)).run fun _ _ => True := by
  have hready : Outline (machine dg).traced (Owned projectId) (Submits dg projectId) i (Holds i sub.taskId .queued)
      (moveTask sub.taskId .ready).run (onOk fun _ _ => True) :=
    (moveTask_outline (by decide)).post fun r _ _ => onOk_true r _
  have hblocked : Outline (machine dg).traced (Owned projectId) (Submits dg projectId) i (Holds i sub.taskId .queued)
      (moveTask sub.taskId .blocked).run (onOk fun _ _ => True) :=
    (moveTask_outline (by decide)).post fun r _ _ => onOk_true r _
  refine Outline.post (Q := onOk fun _ _ => True) ?_ fun _ _ _ => trivial
  refine Outline.ask_bind (Q := fun n h => lastCount h.trace i = some n) (fun n => counted_stable n) ?_ fun n => ?_
  · intro h env howned _
    exact Permitted.promise howned .count env lastCount_counted
  refine Outline.ask_bind (Q := fun r h => (∃ a, r = .ok a) → Holds i sub.taskId .draft h) (fun r => answered_stable r)
    ?_ fun r => ?_
  · intro h env howned hcount
    have hc : Permitted projectId h i (.createTask ((sub.full projectId).newTask (taskReference (n + 1)))
      (sub.full projectId).requirements) := .create _ _ n hcount rfl rfl
    refine hc.promise howned env fun hok => create_holds env hok
  refine Outline.raising_bind (answered_outline r) fun _ =>
    Outline.raising_bind (moveTask_outline (by decide)) fun _ => ?_
  split
  · refine Outline.ask_bind (Q := fun r h => (∃ a, r = .ok a) → Holds i sub.taskId .queued h)
      (fun r => answered_stable r) ?_ fun r => Outline.raising_bind (answered_outline r) fun _ => hblocked
    rintro h env howned ⟨howns, row, hrow, hstate⟩
    have hc : Permitted projectId h i (.requestApproval (sub.full projectId).approvalRequest) :=
      .approval _ sub.taskId rfl howns
    exact hc.promise howned env fun _ => ⟨howns.grows i env _, row, hrow, hstate⟩
  · exact hready

variable {start : World} {moves : List (Move Nat NumberedSubmission Environment)}

theorem serve_outline (i : Nat) (sub : NumberedSubmission) :
    Outline (machine dg).traced (Owned projectId) (Submits dg projectId) i (fun _ => True)
      ((submitTask (sub.full projectId)).run.bind fun _ => .ret ()) fun _ _ => True :=
  Outline.bind (submit_outline sub) fun _ _ _ _ => trivial

theorem submissions_sound (dg : Digests) (projectId : String) (start : World)
    (moves : List (Move Nat NumberedSubmission Environment)) :
    (submissions dg projectId start moves).Sound (machine dg).traced (Owned projectId) (Submits dg projectId) := by
  refine Pool.run_sound serve_outline (Pool.quiet_sound ⟨?_, ?_⟩) moves
  · rintro e ⟨⟩
  · rintro i j taskId ⟨e, ⟨⟩, -⟩

theorem submissions_permitted {next : c.Reply → Prog Call Call.Reply Unit}
    (hthread : (submissions dg projectId start moves).thread i = some (.call c next)) :
    Permitted projectId (submissions dg projectId start moves).shared i c := by
  obtain ⟨howned, hthreads⟩ := submissions_sound dg projectId start moves
  obtain ⟨φ, -, hφ, hout⟩ := hthreads i _ hthread
  obtain ⟨-, ⟨env, c', hc, hact⟩, -⟩ := hout _ readyDesk howned hφ
  -- the call is the last one of the trace
  have htrace := List.append_cancel_left (congrArg Traced.trace hact)
  injection (List.singleton_inj.mp htrace) with _ hcall _
  exact hcall ▸ hc

/-! ## Submissions that are not refused -/

/-- A transaction that raised. -/
def Failed : (c : Call) → c.Reply → Prop
  | .createTask .., reply => ∃ e, reply = .error e
  | .requestApproval _, reply => ∃ e, reply = .error e
  | .runtime (.store op), reply => ∃ e, (show Except StoreError op.Reply from reply) = .error e
  | _, _ => False

/-- After the tasks that were there at first, the tasks of the project are numbered one after another. -/
structure Numbered (projectId : String) (first : Nat) (h : History) : Prop where
  owned : Owned projectId h
  count : h.state.taskCount projectId = first + (references h.trace).length
  consecutive : references h.trace = (List.range' (first + 1) (references h.trace).length).map taskReference
  counted : ∀ i n, lastCount h.trace i = some n → first ≤ n ∧ n ≤ first + (references h.trace).length

/-- An insertion that is answered `ok` was made under the number after the current count. -/
theorem Numbered.current {first : Nat} (hnumbered : Numbered projectId first h) {n : Nat}
    (hcount : lastCount h.trace i = some n)
    (hfree : ∀ id row, h.state.db.tasks.get? id = some row → row.projectId = projectId →
      row.reference ≠ taskReference (n + 1)) : h.state.taskCount projectId = n := by
  obtain ⟨hfirst, hlast⟩ := hnumbered.counted i n hcount
  by_contra hne
  rw [hnumbered.count] at hne
  -- otherwise the number was given to a task before
  have hmem : taskReference (n + 1) ∈ references h.trace := by
    rw [hnumbered.consecutive]
    refine List.mem_map.mpr ⟨n + 1, ?_, rfl⟩
    rw [List.mem_range'_1]
    omega
  obtain ⟨task, htask, hreference⟩ := List.mem_map.mp hmem
  obtain ⟨e, he, hcreated⟩ := List.mem_filterMap.mp htask
  obtain ⟨row, hrow, hproject, hrow'⟩ := hnumbered.owned.present e he task hcreated
  exact hfree task.id row hrow hproject (hrow'.trans hreference)

/-- As long as nothing is refused, the numbering goes on. -/
theorem Numbered.step {first : Nat} (hnumbered : Numbered projectId first h) (hc : Permitted projectId h i c)
    (env : Environment) (hok : ¬ Failed c (act dg h.state env c).1) :
    Numbered projectId first ((machine dg).traced.act i h env c).2 := by
  have howned : Owned projectId ((machine dg).traced.act i h env c).2 := hnumbered.owned.step hc env
  have hcount := hc.counts dg env
  have hreferences : references ((machine dg).traced.act i h env c).2.trace =
      references h.trace ++ (created ⟨i, c, (act dg h.state env c).1⟩).toList.map (·.reference) := by
    rw [show ((machine dg).traced.act i h env c).2.trace = h.trace ++ [⟨i, c, (act dg h.state env c).1⟩] from rfl,
      references_append]
    cases hcreated : created ⟨i, c, (act dg h.state env c).1⟩ <;> simp [references, hcreated]
  -- a call that inserts nothing
  have hother : created ⟨i, c, (act dg h.state env c).1⟩ = none →
      (∀ j n, lastCount (h.trace ++ [⟨i, c, (act dg h.state env c).1⟩]) j = some n →
        first ≤ n ∧ n ≤ first + (references h.trace).length) →
      Numbered projectId first ((machine dg).traced.act i h env c).2 := by
    intro hnone hcounted
    rw [hnone, Option.toList_none, List.map_nil, List.append_nil] at hreferences
    rw [hnone, Option.toList_none, List.length_nil, Nat.add_zero, hnumbered.count] at hcount
    refine ⟨howned, ?_, ?_, ?_⟩
    · rw [hreferences]
      exact hcount
    · rw [hreferences]
      exact hnumbered.consecutive
    · rw [hreferences]
      exact hcounted
  cases hc with
  | count =>
    refine hother rfl fun j n hlast => ?_
    by_cases hj : i = j
    · subst hj
      rw [lastCount_counted] at hlast
      obtain rfl := Option.some.inj hlast
      rw [show (act dg h.state env (.taskCount projectId)).1 = h.state.taskCount projectId from rfl, hnumbered.count]
      omega
    · rw [lastCount_other hj] at hlast
      exact hnumbered.counted j n hlast
  | move =>
    refine hother rfl fun j n hlast => ?_
    rw [lastCount_uncounted (by rintro p ⟨⟩)] at hlast
    exact hnumbered.counted j n hlast
  | approval =>
    refine hother rfl fun j n hlast => ?_
    rw [lastCount_uncounted (by rintro p ⟨⟩)] at hlast
    exact hnumbered.counted j n hlast
  | create task requirements n hlast hproject hreference =>
    cases hreply : (act dg h.state env (.createTask task requirements)).1 with
    | error e => exact absurd ⟨e, hreply⟩ hok
    | ok =>
      have hcreated : created ⟨i, .createTask task requirements,
          (act dg h.state env (.createTask task requirements)).1⟩ = some task := by
        rw [hreply]
        rfl
      obtain ⟨_, tasks, -, hfree, -, -⟩ := act_created hcreated
      have hcurrent := hnumbered.current hlast (by
        rw [← hproject, ← hreference]
        exact (createTask_free.mp hfree).1)
      rw [hcreated, Option.toList_some, List.map_singleton, hreference] at hreferences
      rw [hcreated, Option.toList_some, List.length_singleton] at hcount
      have hlength : (references ((machine dg).traced.act i h env (.createTask task requirements)).2.trace).length =
          (references h.trace).length + 1 := by
        rw [hreferences, List.length_append, List.length_singleton]
      refine ⟨howned, ?_, ?_, fun j m hm => ?_⟩
      · rw [hlength]
        have := hnumbered.count
        exact hcount.trans (by omega)
      · rw [hlength, List.range'_concat, List.map_append, ← hnumbered.consecutive, hreferences, List.map_singleton,
          ← hcurrent, hnumbered.count]
        congr 3
        omega
      · rw [hlength]
        have hm' : lastCount h.trace j = some m := by
          rw [← hm]
          exact (lastCount_uncounted (by rintro p ⟨⟩)).symm
        obtain ⟨hlow, hhigh⟩ := hnumbered.counted j m hm'
        omega

end

section

variable {dg : Digests} {projectId : String} {start : World} {moves : List (Move Nat NumberedSubmission Environment)}

theorem accepted_numbered
    (h : ∀ e ∈ (submissions dg projectId start moves).shared.trace, ¬ Failed e.call e.reply) :
    Numbered projectId (start.taskCount projectId) (submissions dg projectId start moves).shared := by
  refine Pool.act_along (M := (machine dg).traced) ?_ ?_
  · refine ⟨⟨fun e he => (nomatch he), fun i j taskId => ?_⟩, rfl, rfl, fun i n hn => (nomatch hn)⟩
    rintro ⟨e, ⟨⟩, -⟩
  · rintro before i env after c next rfl hthread hnumbered
    exact hnumbered.step (submissions_permitted hthread) env (h _ (Pool.trace_step hthread))

end

/-! ## Exactly when submissions do not collide -/

section

variable (dg : Digests) (projectId : String) (start : World) (moves : List (Move Nat NumberedSubmission Environment))

/-- No transaction of a submission is refused, no submission raises, and no two tasks get the same reference. -/
structure Separate : Prop where
  accepted : ∀ e ∈ (submissions dg projectId start moves).shared.trace, ¬ Failed e.call e.reply
  returned : ∀ calls : List (Σ c : Call, c.Reply),
    (∀ c ∈ calls, ∃ i, (⟨i, c.1, c.2⟩ : HistoryEvent) ∈ (submissions dg projectId start moves).shared.trace) →
    ∀ (sub : NumberedSubmission) (x : Except Runtime.Raised Unit),
      (submitTask (sub.full projectId)).run.Executes calls x → ∃ u, x = .ok u
  distinct : (references (submissions dg projectId start moves).shared.trace).Nodup

/-- When a submission inserts its task, the number of tasks is still the one that it has counted, no task has the next
number as its reference, and its identifier is free; an approval that it requests gets a free identifier. -/
structure Undisturbed : Prop where
  numbers : ∀ before i env after task requirements next, moves = before ++ .step i env :: after →
    (submissions dg projectId start before).thread i = some (.call (.createTask task requirements) next) →
    lastCount (submissions dg projectId start before).shared.trace i =
        some ((submissions dg projectId start before).shared.state.taskCount projectId) ∧
      (∀ id row, (submissions dg projectId start before).shared.state.db.tasks.get? id = some row →
        row.projectId = projectId → row.reference ≠
          taskReference ((submissions dg projectId start before).shared.state.taskCount projectId + 1)) ∧
      (submissions dg projectId start before).shared.state.db.tasks.get? task.id = none
  approvals : ∀ before i env after request next, moves = before ++ .step i env :: after →
    (submissions dg projectId start before).thread i = some (.call (.requestApproval request) next) →
    (submissions dg projectId start before).shared.state.approvals.get? ("approval-" ++ env.approvalUuid) = none

end

theorem moveTask_candid (taskId : String) (target : TaskState) : Candid Failed (moveTask taskId target) := by
  rintro calls x ⟨⟩
  rename_i r calls hrest
  cases hrest
  simpa [Failed] using Candid.mapError_error

theorem submitTask_candid (sub : TaskSubmission) : Candid Failed (submitTask sub) := by
  have hreference : Candid Failed (chooseReference sub) := by
    unfold chooseReference
    split
    · exact Candid.pure _
    · exact Candid.bind (Candid.ask fun _ h => h) fun _ => Candid.pure _
  refine Candid.bind hreference fun reference => Candid.asked_bind (fun _ => Candid.mapError_error) fun _ =>
    Candid.bind (moveTask_candid _ _) fun _ => ?_
  split
  · exact Candid.asked_bind (fun _ => Candid.mapError_error) fun _ => moveTask_candid _ _
  · exact moveTask_candid _ _

/-- An undisturbed step is not refused. -/
theorem Undisturbed.accepts {dg : Digests} {start : World} (h : Undisturbed dg projectId start moves)
    {before after : List (Move Nat NumberedSubmission Environment)} {env : Environment} {c : Call}
    {next : c.Reply → Prog Call Call.Reply Unit} (hmoves : moves = before ++ .step i env :: after)
    (hthread : (submissions dg projectId start before).thread i = some (.call c next)) :
    ¬ Failed c (act dg (submissions dg projectId start before).shared.state env c).1 := by
  have howned := (submissions_sound dg projectId start before).1
  cases submissions_permitted hthread with
  | count => exact id
  | create task requirements n hcount hproject hreference =>
    rintro ⟨e, he⟩
    obtain ⟨hcurrent, hfree, hid⟩ := h.numbers before i env after task requirements next hmoves hthread
    have hn := Option.some.inj (hcount.symm.trans hcurrent)
    rcases act_createTask dg (submissions dg projectId start before).shared.state env task requirements with
      ⟨tasks, world, -, -, -, hact⟩ | ⟨e', world, hop, -, -⟩
    · rw [hact] at he
      cases he
    · obtain ⟨result, hok⟩ := createTask_free.mpr ⟨by rw [hproject, hreference, hn]; exact hfree, hid⟩
      rw [hop] at hok
      cases hok
  | move taskId target row howns hrow hallowed =>
    rintro ⟨e, he⟩
    obtain ⟨now, hok, -⟩ := act_move dg env hrow hallowed
    rw [hok] at he
    cases he
  | approval request taskId htask howns =>
    rintro ⟨e, he⟩
    obtain ⟨event, hevent, -, task, hcreated, rfl⟩ := howns
    obtain ⟨row, hrow, -⟩ := howned.present event hevent task hcreated
    obtain ⟨approvals, hi⟩ := Table.insert?_of_fresh ⟨request, .pending, none, request.reason⟩
      (h.approvals before i env after request next hmoves hthread)
    have hok : requestApproval (submissions dg projectId start before).shared.state.db
        (submissions dg projectId start before).shared.state.approvals ("approval-" ++ env.approvalUuid) request =
          .ok approvals := by
      simp only [requestApproval, bind_eq_ok, ensure_eq_ok, orRaise_eq_ok]
      refine ⟨(), ?_, hi⟩
      rw [htask, Option.all_some, hrow]
      rfl
    simp only [act, hok] at he
    cases he

/-- **When submissions do not collide.** Along every schedule of submissions without a reference to a project, from any
database: no submission is refused and the tasks get different references, if and only if no submission inserts between
the count of another and its insertion, and the number after the count, the identifier of the task and that of a
requested approval are free. -/
theorem submissions_separate_iff (dg : Digests) (projectId : String) (start : World)
    (moves : List (Move Nat NumberedSubmission Environment)) :
    Separate dg projectId start moves ↔ Undisturbed dg projectId start moves := by
  constructor
  · intro h
    have haccepted : ∀ before i env after c next, moves = before ++ .step i env :: after →
        (submissions dg projectId start before).thread i = some (.call c next) →
        ¬ Failed c (act dg (submissions dg projectId start before).shared.state env c).1 := by
      rintro before i env after c next rfl hthread
      exact h.accepted _ (Pool.trace_step hthread)
    constructor
    · intro before i env after task requirements next hmoves hthread
      have hprefix : ∀ e ∈ (submissions dg projectId start before).shared.trace, ¬ Failed e.call e.reply := by
        intro e he
        refine h.accepted e ?_
        rw [hmoves, submissions, Pool.run_append]
        exact (Pool.trace_grows _ _).subset he
      have hnumbered := accepted_numbered hprefix
      have hok := haccepted before i env after _ next hmoves hthread
      cases submissions_permitted hthread with
      | create task requirements n hcount hproject hreference =>
        rcases act_createTask dg (submissions dg projectId start before).shared.state env task requirements with
          ⟨tasks, world, hop, -, -, -⟩ | ⟨e, world, -, -, hact⟩
        · obtain ⟨hfree, hid⟩ := createTask_free.mp ⟨_, hop⟩
          rw [hproject, hreference] at hfree
          have hcurrent := hnumbered.current hcount hfree
          rw [hcurrent]
          exact ⟨hcount, hfree, hid⟩
        · rw [hact] at hok
          exact absurd ⟨e, rfl⟩ hok
    · intro before i env after request next hmoves hthread
      have hok := haccepted before i env after _ next hmoves hthread
      cases hop : requestApproval (submissions dg projectId start before).shared.state.db
          (submissions dg projectId start before).shared.state.approvals ("approval-" ++ env.approvalUuid) request with
      | error e =>
        simp only [act, hop] at hok
        exact absurd ⟨e, rfl⟩ hok
      | ok approvals =>
        simp only [requestApproval, bind_eq_ok, ensure_eq_ok, orRaise_eq_ok] at hop
        obtain ⟨-, -, hi⟩ := hop
        exact Table.insert?_fresh hi
  · intro h
    have haccepted : ∀ e ∈ (submissions dg projectId start moves).shared.trace, ¬ Failed e.call e.reply := by
      rintro ⟨i, c, r⟩ he
      obtain ⟨before, env, after, next, hmoves, hthread, hreply⟩ := Pool.trace_origin he
      rw [show r = _ from hreply]
      exact h.accepts hmoves hthread
    refine ⟨haccepted, ?_, ?_⟩
    · intro calls hcalls sub x hx
      cases x with
      | ok u => exact ⟨u, rfl⟩
      | error e =>
        obtain ⟨c, hc, hfailed⟩ := (submitTask_candid _ calls _ hx).mp ⟨e, rfl⟩
        obtain ⟨i, hi⟩ := hcalls c hc
        exact absurd hfailed (haccepted _ hi)
    · rw [(accepted_numbered haccepted).consecutive]
      exact (List.nodup_range' ..).map fun n m => taskReference_injective

/-! ## Submissions that collide -/

def numberedTask (taskId : String) : NumberedSubmission := ⟨taskId, .single, (redSubmission .approved).requirements⟩

/-- Two submissions count before either inserts. -/
def racingMoves : List (Move Nat NumberedSubmission Environment) :=
  [.start 0 (numberedTask "a"), .start 1 (numberedTask "b"), .step 0 readyDesk, .step 1 readyDesk, .step 0 readyDesk,
    .step 1 readyDesk]

/-- A project whose only task was given the reference of a second one. -/
def secondOnly : World :=
  (act .trivial World.initial readyDesk
    (.createTask ⟨"x", "p", "#0002", .draft, .single, 0⟩ (numberedTask "x").requirements)).2

def refusedInsertion : HistoryEvent → Bool
  | ⟨_, .createTask .., .error _⟩ => true
  | _ => false

theorem separate_insertions {dg : Digests} {start : World} (h : Separate dg projectId start moves) :
    (submissions dg projectId start moves).shared.trace.any refusedInsertion = false := by
  rw [List.any_eq_false]
  intro e he hrefused
  unfold refusedInsertion at hrefused
  split at hrefused
  · exact h.accepted _ he ⟨_, rfl⟩
  · cases hrefused

/-- Two submissions collide when both count before either inserts, and one alone collides with a reference that was
given explicitly. -/
theorem submissions_collide : ¬ Separate .trivial "p" World.initial racingMoves ∧
    ¬ Separate .trivial "p" secondOnly [.start 0 (numberedTask "a"), .step 0 readyDesk, .step 0 readyDesk] := by
  constructor
  · intro h
    have hnone := separate_insertions h
    revert hnone
    decide
  · intro h
    have hnone := separate_insertions h
    revert hnone
    decide

end AgentFabric.Intake
