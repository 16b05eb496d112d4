import AgentFabric.Store.Changes
import AgentFabric.Autonomy.Controls
import AgentFabric.Autonomy.Justified

/-!
# The tasks of a goal at its success

`SupervisorRuntimeDispatcher.dispatch` submits a task under an id derived from the action, and the engine links the task
to the action in a later transaction. The check before a success reads the linked tasks only.
-/

namespace AgentFabric.Autonomy

open AgentFabric.Lib AgentFabric.Store

/-- `active_task_states`. -/
def TaskState.live : TaskState → Bool
  | .draft | .queued | .ready | .running | .waiting | .reviewing | .interrupted => true
  | .blocked | .succeeded | .failed | .cancelled => false

/-- The task is live, or one of its runs is active. -/
def taskLive (db : Db) (taskId : String) : Bool :=
  (db.tasks.get? taskId).any (fun task => TaskState.live task.state) ||
    db.runs.any fun _ run => decide (run.taskId = taskId) && run.state.active

/-- Some task that is linked to an action of the goal is live. -/
def linkedLive (db : Db) (goalId : String) : Bool :=
  db.actions.any fun _ action => decide (action.goalId = goalId) && action.taskId.any (taskLive db)

/-- What the collaborators answer, and what a submission depends on besides the store. -/
structure TaskEnvironment where
  base : Environment
  requirementsParsed : Bool
  topology : ExecutionTopology

section

variable (dg : Digests) (uuid5 : String → String) (g : String)

def taskIdOf (actionId : String) : String := "tsk-" ++ uuid5 actionId

def taskHandle (actionId : String) : DispatchHandle := ⟨taskIdOf uuid5 actionId, some (taskIdOf uuid5 actionId), ""⟩

/-- `action_id[-12:]`. -/
def autoReference (actionId : String) : String :=
  "AUTO-" ++ String.ofList (actionId.toList.drop (actionId.length - 12))

/-- `SupervisorRuntimeDispatcher.dispatch`: the task is submitted unless it exists; whatever raises afterwards leaves
it submitted. -/
def dispatchTask (db : Db) (env : TaskEnvironment) (actionId : String) : Except String DispatchHandle × Db :=
  match db.tasks.get? (taskIdOf uuid5 actionId) with
  | some _ => (env.base.handle.map fun _ => taskHandle uuid5 actionId, db)
  | none =>
    if env.requirementsParsed then
      match getGoal db g with
      | .error e => (.error (StoreError.text e), db)
      | .ok goal =>
        match createTask db
          ⟨taskIdOf uuid5 actionId, goal.projectId, autoReference actionId, .draft, env.topology, 0⟩ with
        | .error e => (.error (StoreError.text e), db)
        | .ok (_, db') => (env.base.handle.map fun _ => taskHandle uuid5 actionId, db')
    else (.error "", db)

def taskAct (db : Db) (env : TaskEnvironment) : (c : Call) → c.Reply × Db
  | .dispatch _ actionId => dispatchTask uuid5 g db env actionId
  | .recover _ handle => (env.base.handle.map fun _ => handle, db)
  | .liveWork goalId => (linkedLive db goalId || env.base.liveWork, db)
  | c => act dg db env.base c

/-- The engine's calls with the tasks that its dispatcher submits, and the check answered from the store. -/
def taskMachine : Machine Slot Db Call Call.Reply TaskEnvironment where
  act _ db env c := taskAct dg uuid5 g db env c

/-- A schedule of the engines of one goal over the store with their tasks. -/
def taskRun (moves : List (Move Slot Request TaskEnvironment)) :
    Pool Slot (Traced Slot Db Call Call.Reply) Call Call.Reply :=
  (Pool.quiet ⟨Db.initial, []⟩).run (taskMachine dg uuid5 g).traced (serveGoal uuid5 g) moves

end

/-! ## Submissions and links -/

/-- The action that a call hands to the dispatcher. -/
def dispatchedBy : GoalEvent → Option String
  | ⟨_, .dispatch _ actionId, _⟩ => some actionId
  | _ => none

def dispatched (trace : List GoalEvent) : List String := trace.filterMap dispatchedBy

/-- The action whose task a call links. -/
def linkedBy (uuid5 : String → String) : GoalEvent → Option String
  | ⟨_, .transact (.setAction actionId _ (some handle) _ _), .ok _⟩ =>
    if handle.taskId = some (taskIdOf uuid5 actionId) then some actionId else none
  | _ => none

def linked (uuid5 : String → String) (trace : List GoalEvent) : List String := trace.filterMap (linkedBy uuid5)

/-- The task that a client creates. -/
def createdBy : GoalEvent → Option String
  | ⟨_, .store (.createTask task), _⟩ => some task.id
  | _ => none

section

variable {uuid5 : String → String} {g : String} {trace : List GoalEvent} {e : GoalEvent} {id : String}

theorem mem_dispatched_concat : id ∈ dispatched (trace ++ [e]) ↔ id ∈ dispatched trace ∨ dispatchedBy e = some id := by
  rw [dispatched, List.filterMap_append, List.mem_append]
  cases h : dispatchedBy e <;> simp [dispatched, h, eq_comm]

theorem mem_linked_concat : id ∈ linked uuid5 (trace ++ [e]) ↔ id ∈ linked uuid5 trace ∨
    linkedBy uuid5 e = some id := by
  rw [linked, List.filterMap_append, List.mem_append]
  cases h : linkedBy uuid5 e <;> simp [linked, h, eq_comm]

/-- No client creates a task under an id that belongs to an action. -/
def NoForeign (uuid5 : String → String) (trace : List GoalEvent) : Prop :=
  ∀ e ∈ trace, ∀ taskId, createdBy e = some taskId → ∀ id, taskId ≠ taskIdOf uuid5 id

/-- The actions of the goal, their handles and links, and where tasks come from. -/
structure TaskInv (uuid5 : String → String) (g : String) (w : Traced Slot Db Call Call.Reply) : Prop where
  actions : ∀ id action, w.state.actions.get? id = some action → action.goalId = g ∧
    ∀ handle, action.dispatchRef = some handle → handle.taskId = some (taskIdOf uuid5 id)
  links : ∀ id ∈ linked uuid5 w.trace, ∃ action, w.state.actions.get? id = some action ∧
    action.taskId = some (taskIdOf uuid5 id)
  tasks : NoForeign uuid5 w.trace → ∀ id task, w.state.tasks.get? (taskIdOf uuid5 id) = some task →
    ∃ id' ∈ dispatched w.trace, taskIdOf uuid5 id' = taskIdOf uuid5 id

/-- The replies that the engine relies on when it links: handles belong to their actions. -/
def Faithful (uuid5 : String → String) : (c : Call) → c.Reply → Prop
  | .listActions _, r => ∀ e ∈ r, ∀ handle, e.2.dispatchRef = some handle →
    handle.taskId = some (taskIdOf uuid5 e.1)
  | .dispatch _ actionId, r => ∀ handle, r = .ok handle → handle.taskId = some (taskIdOf uuid5 actionId)
  | .recover _ handle, r => ∀ handle', r = .ok handle' → handle' = handle
  | _, _ => True

/-- A call that links an action to the task of another, or that nobody in the system makes. -/
def Call.strays (uuid5 : String → String) (g : String) : Call → Prop
  | .transact (.setAction actionId _ (some handle) _ _) => handle.taskId ≠ some (taskIdOf uuid5 actionId)
  | c => ¬ (c.ofEngine g ∨ c.ofClient)

theorem legal_of_not_strays {c : Call} (h : ¬ c.strays uuid5 g) : c.ofEngine g ∨ c.ofClient := by
  by_contra hc
  refine h ?_
  unfold Call.strays
  split
  · exact absurd (Or.inl trivial) hc
  · exact hc

variable {w : Traced Slot Db Call Call.Reply}

variable {db db' : Db}

theorem TaskInv.quiet (h : TaskInv uuid5 g w) (ha : db.actions = w.state.actions) (ht : db.tasks = w.state.tasks)
    (hl : linkedBy uuid5 e = none) : TaskInv uuid5 g ⟨db, w.trace ++ [e]⟩ := by
  refine ⟨fun id action hrow => h.actions id action (ha ▸ hrow), fun id hid => ?_, fun hno id task hrow => ?_⟩
  · rcases mem_linked_concat.mp hid with hid | hid
    · obtain ⟨action, hrow, hlink⟩ := h.links id hid
      exact ⟨action, ha.symm ▸ hrow, hlink⟩
    · exact nomatch hl.symm.trans hid
  · obtain ⟨id', hid', heq⟩ := h.tasks (fun e he => hno e (List.mem_append_left _ he)) id task (ht ▸ hrow)
    exact ⟨id', mem_dispatched_concat.mpr (Or.inl hid'), heq⟩

theorem execGoal_actions_same {op : GoalOp} {r : op.Reply} (h : execGoal op db = .ok (r, db'))
    (hset : ∀ id state handle result error, op ≠ .setAction id state handle result error)
    (hplan : ∀ i k plan v f, op ≠ .recordPlan i k plan v f) : db'.actions = db.actions := by
  cases (execGoal_change h).actions with
  | same _ h => exact h
  | set id state handle result error _ => exact absurd rfl (hset _ _ _ _ _)
  | plan i k plan v f _ => exact absurd rfl (hplan _ _ _ _ _)

theorem execGoal_tasks {op : GoalOp} {r : op.Reply} (h : execGoal op db = .ok (r, db')) :
    db'.tasks = db.tasks ∧ db'.runs = db.runs := by
  obtain ⟨_, _, _, _, rfl⟩ := (execGoal_change h).frame
  exact ⟨rfl, rfl⟩

theorem plannedRows_fresh {goalId iterationId : String} {actionId : String → String} {actions : List PlannedAction}
    {row : String × ActionRow} (h : row ∈ plannedRows goalId iterationId actionId actions) :
    row.2.goalId = goalId ∧ row.2.dispatchRef = none := by
  obtain ⟨_, _, rfl⟩ := List.mem_map.mp h
  exact ⟨rfl, rfl⟩

theorem TaskInv.plan {rows : List (String × ActionRow)} (h : TaskInv uuid5 g w)
    (hins : w.state.actions.insertAll? rows = some db.actions)
    (hrows : ∀ row ∈ rows, row.2.goalId = g ∧ row.2.dispatchRef = none) (ht : db.tasks = w.state.tasks)
    (hl : linkedBy uuid5 e = none) : TaskInv uuid5 g ⟨db, w.trace ++ [e]⟩ := by
  have hquiet : TaskInv uuid5 g ⟨{ db with actions := w.state.actions }, w.trace ++ [e]⟩ := h.quiet rfl ht hl
  refine ⟨fun id action hrow => ?_, fun id hid => ?_, hquiet.tasks⟩
  · rcases (Table.get?_insertAll hins).mp hrow with hrow | hrow
    · exact h.actions id action hrow
    · obtain ⟨hgoal, href⟩ := hrows _ hrow
      exact ⟨hgoal, fun handle he => nomatch href.symm.trans he⟩
  · obtain ⟨action, hrow, hlink⟩ := hquiet.links id hid
    exact ⟨action, (Table.get?_insertAll hins).mpr (Or.inl hrow), hlink⟩

variable {actionId : String}

/-- An action is set with its own handle, if any. -/
theorem TaskInv.set {state : ActionState} {handle : Option DispatchHandle} {result : Option ActionResult}
    {error : Option String} (h : TaskInv uuid5 g w) (hexists : (w.state.actions.get? id).isSome = true)
    (ha : db.actions = w.state.actions.modify id (·.set state handle result error)) (ht : db.tasks = w.state.tasks)
    (hhandle : ∀ x, handle = some x → x.taskId = some (taskIdOf uuid5 id))
    (hl : ∀ k, linkedBy uuid5 e = some k → k = id ∧ ∃ x, handle = some x) : TaskInv uuid5 g ⟨db, w.trace ++ [e]⟩ := by
  have htask : ∀ action : ActionRow, ∀ x, handle = some x →
      (action.set state handle result error).taskId = some (taskIdOf uuid5 id) := by
    rintro action x rfl
    simp [ActionRow.set, hhandle x rfl]
  refine ⟨fun k action hrow => ?_, fun k hk => ?_, fun hno k task hrow => ?_⟩
  · rw [ha, Table.get?_modify] at hrow
    split at hrow
    · rename_i hk
      subst hk
      obtain ⟨action₀, hrow₀, rfl⟩ := Option.map_eq_some_iff.mp hrow
      obtain ⟨hgoal, href⟩ := h.actions k action₀ hrow₀
      refine ⟨hgoal, fun x hx => ?_⟩
      rcases Option.or_eq_some_iff.mp hx with hx | ⟨_, hx⟩
      · exact hhandle x hx
      · exact href x hx
    · exact h.actions k action hrow
  · rcases mem_linked_concat.mp hk with hk | hk
    · obtain ⟨action, hrow, hlink⟩ := h.links k hk
      by_cases hkid : k = id
      · subst hkid
        refine ⟨action.set state handle result error, by rw [ha, Table.get?_modify_self, hrow]; rfl, ?_⟩
        cases handle with
        | none => exact hlink
        | some x => exact htask action x rfl
      · exact ⟨action, by rw [ha, Table.get?_modify_ne _ _ hkid]; exact hrow, hlink⟩
    · obtain ⟨rfl, x, hx⟩ := hl k hk
      obtain ⟨action, hrow⟩ := Option.isSome_iff_exists.mp hexists
      exact ⟨_, by rw [ha, Table.get?_modify_self, hrow]; rfl, htask action x hx⟩
  · obtain ⟨k', hk', heq⟩ := h.tasks (fun e he => hno e (List.mem_append_left _ he)) k task (ht ▸ hrow)
    exact ⟨k', mem_dispatched_concat.mpr (Or.inl hk'), heq⟩

theorem setAction_exists {state : ActionState} {handle : Option DispatchHandle} {result : Option ActionResult}
    {error : Option String} {u : Unit} (h : setAction db id state handle result error = .ok (u, db')) :
    (db.actions.get? id).isSome = true := by
  simp only [setAction, bind_eq_ok, orRaise_eq_ok] at h
  obtain ⟨action, hrow, _⟩ := h
  rw [hrow]; rfl

theorem linkedBy_error (i : Slot) (op : GoalOp) (error : StoreError) :
    linkedBy uuid5 ⟨i, .transact op, .error error⟩ = none := by
  cases op with
  | setAction id state handle => cases handle <;> rfl
  | _ => rfl

theorem TaskInv.transact {op : GoalOp} {r : op.Reply} {i : Slot} (h : TaskInv uuid5 g w)
    (hop : execGoal op w.state = .ok (r, db)) (hc : ¬ (Call.transact op).strays uuid5 g) :
    TaskInv uuid5 g ⟨db, w.trace ++ [⟨i, .transact op, .ok r⟩]⟩ := by
  have ht := (execGoal_tasks hop).1
  cases op with
  | setAction id state handle result error =>
    refine h.set (setAction_exists hop) (by rw [setAction_ok hop]) ht (fun x hx => ?_) fun k hk => ?_
    · subst hx
      exact Classical.byContradiction hc
    · cases handle with
      | none => cases hk
      | some x =>
        simp only [linkedBy] at hk
        split at hk
        · exact ⟨(Option.some.inj hk).symm, x, rfl⟩
        · cases hk
  | recordPlan iterationId goalId plan expected actionId =>
    have hgoal : goalId = g := (legal_of_not_strays hc).resolve_right fun h => h
    rcases recordPlan_rows hop with ⟨_, hnew⟩ | ⟨_, actions, hins, hnew⟩
    · exact h.quiet (congrArg (·.actions) hnew) ht rfl
    · rw [show actions = _ from (congrArg (·.actions) hnew).symm] at hins
      exact h.plan hins (fun row hrow => hgoal ▸ plannedRows_fresh hrow) ht rfl
  | _ =>
    exact h.quiet (execGoal_actions_same hop (fun _ _ _ _ _ h => nomatch h) fun _ _ _ _ _ h => nomatch h) ht rfl

theorem dispatchTask_cases (db : Db) (env : TaskEnvironment) (actionId : String) :
    (dispatchTask uuid5 g db env actionId).2 = db ∨ ∃ task tasks, db.tasks.insert? (taskIdOf uuid5 actionId) task =
      some tasks ∧ (dispatchTask uuid5 g db env actionId).2 = { db with tasks := tasks } := by
  unfold dispatchTask
  split
  · exact Or.inl rfl
  · split
    · split
      · exact Or.inl rfl
      · split
        · exact Or.inl rfl
        · rename_i hcreate
          obtain ⟨tasks, hins, rfl⟩ := createTask_ok hcreate
          exact Or.inr ⟨_, tasks, hins, rfl⟩
    · exact Or.inl rfl

theorem TaskInv.dispatch (h : TaskInv uuid5 g w) (env : TaskEnvironment) (i : Slot) (action : PlannedAction)
    (actionId : String) : TaskInv uuid5 g ⟨(dispatchTask uuid5 g w.state env actionId).2,
      w.trace ++ [⟨i, .dispatch action actionId, (dispatchTask uuid5 g w.state env actionId).1⟩]⟩ := by
  rcases dispatchTask_cases w.state env actionId with hsame | ⟨task, tasks, hins, hnew⟩
  · exact h.quiet (by rw [hsame]) (by rw [hsame]) rfl
  · have hquiet : TaskInv uuid5 g ⟨w.state,
        w.trace ++ [⟨i, .dispatch action actionId, (dispatchTask uuid5 g w.state env actionId).1⟩]⟩ :=
      h.quiet rfl rfl rfl
    rw [hnew]
    refine ⟨hquiet.actions, hquiet.links, fun hno id row hrow => ?_⟩
    rw [Table.get?_insert hins] at hrow
    split at hrow
    · rename_i hid
      exact ⟨actionId, mem_dispatched_concat.mpr (Or.inr rfl), hid.symm⟩
    · exact hquiet.tasks hno id row hrow

theorem TaskInv.store {dg : Digests} {op : StoreOp} {r : op.Reply} {i : Slot} (h : TaskInv uuid5 g w)
    (hop : exec dg op w.state = .ok (r, db)) (hother : op.writesGoals = false) :
    TaskInv uuid5 g ⟨db, w.trace ++ [⟨i, .store op, .ok r⟩]⟩ := by
  have hquiet : TaskInv uuid5 g ⟨w.state, w.trace ++ [⟨i, .store op, .ok r⟩]⟩ := h.quiet rfl rfl rfl
  have ha := (exec_frame hop).actions hother
  refine ⟨fun id action hrow => hquiet.actions id action (ha ▸ hrow), fun id hid => ?_, fun hno id task hrow => ?_⟩
  · obtain ⟨action, hrow, hlink⟩ := hquiet.links id hid
    exact ⟨action, ha.symm ▸ hrow, hlink⟩
  · cases hold : w.state.tasks.get? (taskIdOf uuid5 id) with
    | some old => exact hquiet.tasks hno id old hold
    | none =>
      rcases exec_tasks_none hop hold with hnone | ⟨task', rfl, htask, _⟩
      · exact nomatch hnone.symm.trans hrow
      · exact absurd htask (hno _ (List.mem_append_right _ List.mem_cons_self) _ rfl id)

/-- A call that does not stray keeps the invariant of the tasks. -/
theorem taskInv_step {dg : Digests} (i : Slot) (w : Traced Slot Db Call Call.Reply) (env : TaskEnvironment) (c : Call)
    (h : TaskInv uuid5 g w) (hc : ¬ c.strays uuid5 g) :
    TaskInv uuid5 g ((taskMachine dg uuid5 g).traced.act i w env c).2 := by
  cases c with
  | transact op =>
    show TaskInv uuid5 g ⟨(commit w.state (execGoal op w.state)).2,
      w.trace ++ [⟨i, .transact op, (commit w.state (execGoal op w.state)).1⟩]⟩
    cases hop : execGoal op w.state with
    | error e => exact h.quiet rfl rfl (linkedBy_error i op e)
    | ok => exact h.transact hop hc
  | store op =>
    have hother : op.writesGoals = false := (legal_of_not_strays hc).resolve_left fun h => h
    show TaskInv uuid5 g ⟨(commit w.state (exec dg op w.state)).2,
      w.trace ++ [⟨i, .store op, (commit w.state (exec dg op w.state)).1⟩]⟩
    cases hop : exec dg op w.state with
    | error => exact h.quiet rfl rfl rfl
    | ok => exact h.store hop hother
  | dispatch action actionId => exact h.dispatch env i action actionId
  | _ => exact h.quiet rfl rfl rfl

/-- Handles belong to their actions in every reply. -/
theorem faithful_reply {dg : Digests} (i : Slot) (w : Traced Slot Db Call Call.Reply) (env : TaskEnvironment) (c : Call)
    (h : TaskInv uuid5 g w) : Faithful uuid5 c ((taskMachine dg uuid5 g).traced.act i w env c).1 := by
  cases c with
  | listActions =>
    intro row hrow handle hhandle
    have hmem : row ∈ w.state.actions.rows := List.mem_of_mem_filter ((List.mergeSort_perm _ _).subset hrow)
    exact (h.actions row.1 row.2 (Table.mem_rows.mp hmem)).2 handle hhandle
  | dispatch action actionId =>
    intro handle hhandle
    replace hhandle : (dispatchTask uuid5 g w.state env actionId).1 = .ok handle := hhandle
    have hreply : ∀ x : Except String DispatchHandle, x.map (fun _ => taskHandle uuid5 actionId) = .ok handle →
        handle.taskId = some (taskIdOf uuid5 actionId) := by
      rintro (_ | x) hx
      · cases hx
      · exact Except.ok.inj hx ▸ rfl
    unfold dispatchTask at hhandle
    split at hhandle
    · exact hreply _ hhandle
    · split at hhandle
      · split at hhandle
        · cases hhandle
        · split at hhandle
          · cases hhandle
          · exact hreply _ hhandle
      · cases hhandle
  | recover action handle =>
    intro handle' hhandle
    replace hhandle : env.base.handle.map (fun _ => handle) = .ok handle' := hhandle
    cases hh : env.base.handle with
    | error => rw [hh] at hhandle; cases hhandle
    | ok => rw [hh] at hhandle; exact (Except.ok.inj hhandle).symm
  | _ => trivial

/-! ## The engine links actions to their own tasks -/

/-- The program links no action to the task of another, as long as handles belong to their actions. -/
abbrev Abides (uuid5 : String → String) (g : String) {α : Type} (Q : α → Prop) (p : Engine α) : Prop :=
  Prog.Spares (Faithful uuid5) (Call.strays uuid5 g) Q p

theorem straight_advances (uuid5 : String → String) (g id : String) : Advances (fun c => ¬ c.strays uuid5 g) g id where
  query c hc h := by cases c <;> first | exact hc | exact h (Or.inl trivial)
  settles _ _ _ _ _ h := h (Or.inl trivial)
  terminates _ _ _ h := h (Or.inl rfl)
  evaluates _ _ h := h (Or.inl trivial)
  plans _ _ _ h := h (Or.inl rfl)
  interrupts h := h (Or.inl rfl)
  ends _ _ _ _ h := h (Or.inl rfl)
  moves _ h := h (Or.inl trivial)
  dispatches _ h := h (Or.inl trivial)

theorem straight_applies (uuid5 : String → String) (g id : String) : Applies (fun c => ¬ c.strays uuid5 g) g id where
  query := (straight_advances uuid5 g id).query
  current _ h := h (Or.inl rfl)
  moves _ h := h (Or.inl trivial)
  verifies _ _ h := h (Or.inl trivial)
  ends _ _ _ h := h (Or.inl rfl)
  replans _ _ h := h (Or.inl rfl)

/-- Every handle that a list of actions carries belongs to its action. -/
def HandlesMatch (uuid5 : String → String) (rows : List (String × ActionRow)) : Prop :=
  ∀ e ∈ rows, ∀ handle, e.2.dispatchRef = some handle → handle.taskId = some (taskIdOf uuid5 e.1)

theorem recordRunning_abides {handle : DispatchHandle} (h : handle.taskId = some (taskIdOf uuid5 actionId)) :
    Abides uuid5 g (fun _ => True) (recordRunning actionId handle) := by
  refine .of_obeys (.bind (.ask fun hs => hs h) fun r => ?_)
  split
  · exact .pure _
  · exact .bind (transact_obeys ((straight_advances uuid5 g "").settles _ _ _ _ (by decide))) fun _ => .pure _

theorem recordDispatch_abides {r : Except String DispatchHandle}
    (h : ∀ handle, r = .ok handle → handle.taskId = some (taskIdOf uuid5 actionId)) :
    Abides uuid5 g (fun _ => True) (recordDispatch actionId r) := by
  have hfail : ∀ message, Abides uuid5 g (fun _ => True)
      (do transact (.setAction actionId .failed none none (some message)); return false) := fun message =>
    .of_obeys (.bind (transact_obeys ((straight_advances uuid5 g "").settles _ _ _ _ (by decide))) fun _ => .pure _)
  cases r with
  | error error => exact hfail error
  | ok handle =>
    refine .bind (.ask ((straight_advances uuid5 g "").query _ trivial)) fun owned _ => ?_
    split
    · exact recordRunning_abides (h handle rfl)
    · exact hfail _

theorem dispatchAction_abides {row : ActionRow}
    (h : ∀ handle, row.dispatchRef = some handle → handle.taskId = some (taskIdOf uuid5 actionId)) :
    Abides uuid5 g (fun _ => True) (dispatchAction actionId row) := by
  refine .bind (.of_obeys (transact_obeys ((straight_advances uuid5 g "").dispatches _))) fun _ _ => ?_
  split
  · exact .bind (.ask ((straight_advances uuid5 g "").query _ trivial)) fun r hr => recordDispatch_abides hr
  · rename_i handle hhandle
    refine .bind (.ask ((straight_advances uuid5 g "").query _ trivial)) fun r hr => recordDispatch_abides ?_
    intro handle' hh
    rw [hr handle' hh]
    exact h handle hhandle

theorem dispatchActions_abides : ∀ rows : List (String × ActionRow), HandlesMatch uuid5 rows →
    Abides uuid5 g (fun _ => True) (dispatchActions g rows)
  | [], _ => .pure trivial
  | (actionId, row) :: rest, h => by
    have ih := dispatchActions_abides rest fun e he => h e (List.mem_cons_of_mem _ he)
    have hquery := (straight_advances uuid5 g "").query
    unfold dispatchActions
    split
    · exact ih
    refine .bind (.of_obeys (controlGate_obeys (hquery _ trivial))) fun gate _ => ?_
    split
    · exact .pure trivial
    exact .bind (.of_obeys (assertOwnership_obeys (hquery _ trivial))) fun _ _ =>
      .bind (dispatchAction_abides (h _ List.mem_cons_self)) fun started _ => .bind ih fun others _ => .pure trivial

theorem attachActions_abides (startedNow : List String) : ∀ rows : List (String × ActionRow), HandlesMatch uuid5 rows →
    Abides uuid5 g (fun _ => True) (attachActions startedNow rows)
  | [], _ => .pure trivial
  | (actionId, row) :: rest, h => by
    have ih := attachActions_abides startedNow rest fun e he => h e (List.mem_cons_of_mem _ he)
    have hfail : ∀ message, Abides uuid5 g (fun _ => True)
        (do transact (.setAction actionId .failed none none (some message)); attachActions startedNow rest) :=
      fun message => .bind (.of_obeys (transact_obeys ((straight_advances uuid5 g "").settles _ _ _ _ (by decide))))
        fun _ _ => ih
    unfold attachActions
    split
    · exact hfail _
    · rename_i handle hhandle
      split
      · exact .bind ih fun _ _ => .pure trivial
      refine .bind (.ask ((straight_advances uuid5 g "").query _ trivial)) fun r hr => ?_
      cases r with
      | error error => exact hfail error
      | ok handle' =>
        have hmatch : handle'.taskId = some (taskIdOf uuid5 actionId) := by
          rw [hr handle' rfl]
          exact h _ List.mem_cons_self handle hhandle
        refine .bind (recordRunning_abides hmatch) fun running _ => ?_
        split
        · exact .bind ih fun _ _ => .pure trivial
        · exact ih

variable {id : String}

theorem dispatchAndCollect_abides (polls : Nat) :
    Abides uuid5 g (fun _ => True) (dispatchAndCollect g id polls) := by
  have hquery := (straight_advances uuid5 g id).query
  have hmoves := (straight_advances uuid5 g id).moves
  refine .bind (.of_obeys (transact_obeys (hmoves _))) fun _ _ =>
    .bind (.of_obeys (fetchGoal_obeys (hquery _ trivial))) fun _ _ => .bind (.ask (hquery _ trivial)) fun rows hrows =>
    .bind (dispatchActions_abides rows hrows) fun startedNow _ => .bind (.ask (hquery _ trivial)) fun rows hrows => ?_
  dsimp only
  split
  · exact .pure trivial
  · exact .bind (.of_obeys (transact_obeys (hmoves _))) fun _ _ =>
      .bind (attachActions_abides startedNow _ fun e he => hrows e (List.mem_of_mem_filter he)) fun pending _ =>
        .of_obeys (collect_obeys (straight_advances uuid5 g id).toCollects polls pending)

theorem workPhase_abides (polls : Nat) : Abides uuid5 g (fun _ => True) (workPhase g id polls) := by
  have hquery := (straight_advances uuid5 g id).query
  refine .bind (.of_obeys (controlGate_obeys (hquery _ trivial))) fun gate _ => ?_
  split
  · exact .pure trivial
  refine .bind (dispatchAndCollect_abides polls) fun _ _ =>
    .bind (.of_obeys (assertOwnership_obeys (hquery _ trivial))) fun _ _ =>
    .bind (.of_obeys (fetchGoal_obeys (hquery _ trivial))) fun goal _ => ?_
  split
  · exact .pure trivial
  split
  · exact .bind (.of_obeys (transact_obeys ((straight_advances uuid5 g id).moves _))) fun _ _ => .pure trivial
  refine .bind (.ask (hquery _ trivial)) fun actions _ => ?_
  split
  · exact .pure trivial
  · exact .bind (.of_obeys (fetchGoal_obeys (hquery _ trivial))) fun goal _ =>
      .of_obeys (verifyPhase_obeys (straight_applies uuid5 g id) _ _ _)

theorem advanceIteration_abides (polls : Nat) :
    Abides uuid5 g (fun _ => True) (advanceIteration uuid5 g id polls) := by
  refine .bind (.of_obeys (evaluationPhase_obeys (straight_advances uuid5 g id))) fun r _ => ?_
  split
  · exact .pure trivial
  refine .bind (.of_obeys (transact_obeys ((straight_applies uuid5 g id).current _))) fun current _ => ?_
  split
  · exact .pure trivial
  have hends := (straight_applies uuid5 g id).ends
  split
  · exact .of_obeys (verifyPhase_obeys (straight_applies uuid5 g id) _ _ _)
  · exact .bind (.of_obeys (transact_obeys (hends _ _ _))) fun _ _ => .pure trivial
  · exact .throw _
  · refine .bind (.of_obeys (fetchGoal_obeys ((straight_advances uuid5 g id).query _ trivial))) fun goal _ => ?_
    split
    · exact .bind (.of_obeys (transact_obeys (hends _ _ _))) fun _ _ => .pure trivial
    refine .bind (.of_obeys (planPhase_obeys (straight_advances uuid5 g id) uuid5 _)) fun planned _ => ?_
    split
    · exact workPhase_abides polls
    · exact .pure trivial

theorem runOnce_abides (polls : Nat) : Abides uuid5 g (fun _ => True) (runOnce uuid5 g polls) := by
  have hquery := (straight_advances uuid5 g "").query
  refine .bind (.of_obeys (assertOwnership_obeys (hquery _ trivial))) fun _ _ =>
    .bind (.of_obeys (ensureStarted_obeys hquery fun _ h => h (Or.inl rfl))) fun goal _ => ?_
  split
  · exact .pure trivial
  refine .bind (.ask (hquery _ trivial)) fun active _ => ?_
  split
  · exact advanceIteration_abides polls
  refine .bind (.of_obeys ((budgetGuard_obeys goal).mono hquery)) fun limit _ => ?_
  split
  · exact .of_obeys (transact_obeys fun h => h (Or.inl rfl))
  · exact .bind (.ask (hquery _ trivial)) fun uuid _ =>
      .bind (.of_obeys (transact_obeys fun h => h (Or.inl rfl))) fun id _ => advanceIteration_abides polls

/-- An engine links no action to the task of another. -/
theorem run_abides (polls : Nat) : ∀ rounds : Nat, Abides uuid5 g (fun _ => True) (run uuid5 g polls rounds)
  | 0 => .pure trivial
  | rounds + 1 => by
    unfold run
    refine .bind (.of_obeys (fetchGoal_obeys ((straight_advances uuid5 g "").query _ trivial))) fun goal _ => ?_
    split
    · exact .pure trivial
    · exact .bind (runOnce_abides polls) fun _ _ => run_abides polls rounds

/-! ## The engine checks right before a success -/

/-- The calls that end a goal as a success. -/
def Call.succeeds : Call → Bool
  | .transact (.terminatePhaseIfCurrent _ _ .success _ _) | .transact (.terminate _ .success _) => true
  | _ => false

/-- The check, if it is made, finds live work. -/
def FindsLive (g : String) : (c : Call) → c.Reply → Prop
  | .liveWork g', r => g' = g → r = true
  | _, _ => True

/-- The program ends the goal as a success only right after a check that found no live work. -/
abbrev Watches (g : String) {α : Type} (p : Engine α) : Prop :=
  Prog.Watches (FindsLive g) (fun c => c.succeeds = true) p

theorem modest_advances (g id : String) : Advances (fun c => ¬ c.succeeds = true) g id where
  query c hc h := by cases c <;> first | exact hc | cases h
  settles _ _ _ _ _ h := nomatch h
  terminates reason _ hr h := by cases reason <;> first | exact hr rfl | cases h
  evaluates _ _ h := nomatch h
  plans _ _ _ h := nomatch h
  interrupts h := nomatch h
  ends reason _ _ hr h := by cases reason <;> first | exact hr rfl | cases h
  moves _ h := nomatch h
  dispatches _ h := nomatch h

theorem modest_attaches (g : String) : Attaches (fun c => ¬ c.succeeds = true) g :=
  ⟨(modest_advances g "").toCollects, nofun⟩

theorem modest_checkpoints (g id : String) : Checkpoints (fun c => ¬ c.succeeds = true) g id :=
  ⟨(modest_advances g id).query, nofun, nofun, nofun⟩

theorem check_watches (summary : String) (expected : Int) : Watches g (do
    if ← ask (.liveWork g) then return
    let _ ← transact (.terminatePhaseIfCurrent g id .success summary expected)
    return) := by
  refine ⟨?_, fun r => ?_⟩
  · rintro (h | ⟨r, hok, hr⟩)
    · cases h
    · obtain rfl := hok rfl
      exact hr
  · cases r with
    | true => exact ⟨fun _ h => h, trivial⟩
    | false =>
      refine ⟨fun hok => (nomatch hok rfl), fun r => ?_⟩
      cases r with
      | ok _ => exact ⟨fun _ h => h, trivial⟩
      | error _ => exact ⟨fun _ h => h, trivial⟩

theorem applyVerificationOutcome_watches (verification : GoalVerification) (failures : Nat) (expected : Int) :
    Watches g (applyVerificationOutcome g id verification failures expected) := by
  have hquery := (modest_advances g id).query
  unfold applyVerificationOutcome
  split
  · exact .bind (.of_obeys (fetchGoal_obeys (hquery _ trivial))) fun goal => check_watches _ _
  · rename_i hsat
    refine .of_obeys ?_
    have hreasoned := verification.reasoned
    rw [if_neg (by simpa using hsat)] at hreasoned
    split
    · rename_i reason hreason
      exact .bind (transact_obeys ((modest_advances g id).ends _ _ _ fun e => hreasoned (by rw [hreason, e])))
        fun _ => .pure _
    · refine .bind (transact_obeys fun h => nomatch h) fun current => ?_
      split
      · exact .pure _
      refine .bind (.ask (hquery _ trivial)) fun r => .bind (.result _) fun iteration => ?_
      dsimp only
      split
      · exact .bind (transact_obeys fun h => nomatch h) fun _ => transact_obeys fun h => nomatch h
      · exact transact_obeys fun h => nomatch h

theorem verifyPhase_watches (results : List ActionResult) (failures : Nat) (expected : Int) :
    Watches g (verifyPhase g id results failures expected) := by
  refine .bind (.of_obeys (verificationCheckpoint_obeys (modest_checkpoints g id) results expected))
    fun checkpoint => ?_
  split
  · exact .of_obeys (.pure _)
  · exact applyVerificationOutcome_watches _ failures _

theorem workPhase_watches (polls : Nat) : Watches g (workPhase g id polls) := by
  have hquery := (modest_advances g id).query
  refine .bind (.of_obeys (controlGate_obeys (hquery _ trivial))) fun gate => ?_
  split
  · exact .of_obeys (.pure _)
  refine .bind (.of_obeys (dispatchAndCollect_obeys (modest_attaches g) (modest_advances g id) polls)) fun _ =>
    .bind (.of_obeys (assertOwnership_obeys (hquery _ trivial))) fun _ =>
    .bind (.of_obeys (fetchGoal_obeys (hquery _ trivial))) fun goal => ?_
  split
  · exact .of_obeys (.pure _)
  split
  · exact .of_obeys (.bind (transact_obeys fun h => nomatch h) fun _ => .pure _)
  refine .bind (.of_obeys (.ask (hquery _ trivial))) fun actions => ?_
  split
  · exact .of_obeys (.pure _)
  · exact .bind (.of_obeys (fetchGoal_obeys (hquery _ trivial))) fun goal => verifyPhase_watches _ _ _

theorem advanceIteration_watches (uuid5 : String → String) (polls : Nat) :
    Watches g (advanceIteration uuid5 g id polls) := by
  refine .bind (.of_obeys (evaluationPhase_obeys (modest_advances g id))) fun r => ?_
  split
  · exact .of_obeys (.pure _)
  rename_i evaluation version
  refine .bind (.of_obeys (transact_obeys fun h => nomatch h)) fun current => ?_
  split
  · exact .of_obeys (.pure _)
  have hends := (modest_advances g id).ends
  have hreasoned := evaluation.reasoned
  split
  · exact verifyPhase_watches _ _ _
  · rename_i reason hdisposition hreason
    rw [if_pos hdisposition] at hreasoned
    exact .of_obeys (.bind (transact_obeys (hends _ _ _ fun e => hreasoned.2 (by rw [hreason, e]))) fun _ => .pure _)
  · exact .of_obeys (.throw _)
  · refine .bind (.of_obeys (fetchGoal_obeys ((modest_advances g id).query _ trivial))) fun goal => ?_
    split
    · exact .of_obeys (.bind (transact_obeys (hends _ _ _ (by decide))) fun _ => .pure _)
    refine .bind (.of_obeys (planPhase_obeys (modest_advances g id) uuid5 _)) fun planned => ?_
    split
    · exact workPhase_watches polls
    · exact .of_obeys (.pure _)

theorem runOnce_watches (uuid5 : String → String) (polls : Nat) : Watches g (runOnce uuid5 g polls) := by
  have hquery := (modest_advances g "").query
  refine .bind (.of_obeys (assertOwnership_obeys (hquery _ trivial))) fun _ =>
    .bind (.of_obeys (ensureStarted_obeys hquery nofun)) fun goal => ?_
  split
  · exact .of_obeys (.pure _)
  refine .bind (.of_obeys (.ask (hquery _ trivial))) fun active => ?_
  split
  · exact advanceIteration_watches uuid5 polls
  refine .bind_yields (.of_obeys ((budgetGuard_obeys goal).mono hquery)) (budgetGuard_yields goal)
    fun limit hlimit => ?_
  split
  · exact .of_obeys (transact_obeys ((modest_advances g "").terminates _ _ (hlimit _ _ rfl)))
  · exact .bind (.of_obeys (.ask (hquery _ trivial))) fun uuid =>
      .bind (.of_obeys (transact_obeys fun h => nomatch h)) fun id => advanceIteration_watches uuid5 polls

/-- An engine ends a goal as a success only after a check that found no live work. -/
theorem run_watches (uuid5 : String → String) (polls : Nat) : ∀ rounds : Nat, Watches g (run uuid5 g polls rounds)
  | 0 => .of_obeys (.pure _)
  | rounds + 1 => by
    unfold run
    refine .bind (.of_obeys (fetchGoal_obeys ((modest_advances g "").query _ trivial))) fun goal => ?_
    split
    · exact .of_obeys (.pure _)
    · exact .bind (runOnce_watches uuid5 polls) fun _ => run_watches uuid5 polls rounds

end

/-! ## Runs -/

section

variable {dg : Digests} {uuid5 : String → String} {g : String}

theorem serve_straight (i : Slot) (request : Request) :
    ¬ (serveGoal uuid5 g i request).Reaches (Faithful uuid5) (Call.strays uuid5 g) := by
  have hcontrol : ((control request).run.bind fun _ => .ret ()).All fun c => ¬ c.strays uuid5 g := by
    refine .bind ((control_client request).mono fun c hc h => ?_) fun _ => trivial
    cases c with
    | transact op => cases op <;> first | exact hc | exact h (Or.inr trivial)
    | _ => exact h (Or.inr hc)
  cases i with
  | engine =>
    cases request with
    | engine rounds polls => exact (Prog.Avoids.discard (run_abides polls rounds) ()).unreached
    | _ => exact (Prog.Avoids.of_all hcontrol).unreached
  | client => cases request <;> exact (Prog.Avoids.of_all hcontrol).unreached

theorem initial_taskInv : TaskInv uuid5 g ⟨Db.initial, []⟩ where
  actions := by rintro id action ⟨⟩
  links := by rintro id ⟨⟩
  tasks := by rintro - id task ⟨⟩

theorem taskRun_sound (moves : List (Move Slot Request TaskEnvironment)) :
    TaskInv uuid5 g (taskRun dg uuid5 g moves).shared ∧ ∀ i p, (taskRun dg uuid5 g moves).thread i = some p →
      ¬ p.Reaches (Faithful uuid5) (Call.strays uuid5 g) :=
  Pool.unreached_invariant initial_taskInv
    (fun i w env c h => faithful_reply i w env c h) (fun i w env c h hc => taskInv_step i w env c h hc) serve_straight
    moves

theorem control_modest (request : Request) :
    ((control request).run.bind fun _ => .ret ()).All fun c => ¬ c.succeeds = true := by
  refine .bind ((control_client request).mono fun c hc h => ?_) fun _ => trivial
  cases c with
  | transact op => cases op <;> first | exact hc | cases h
  | _ => cases h

theorem serve_guards (i : Slot) (request : Request) :
    (serveGoal uuid5 g i request).Guards (FindsLive g) fun c => c.succeeds = true := by
  cases i with
  | engine =>
    cases request with
    | engine rounds polls => exact .bind (run_watches uuid5 polls rounds) (Prog.yields_true _) fun _ _ => .ret ()
    | _ => exact .of_all (control_modest _)
  | client => cases request <;> exact .of_all (control_modest _)

theorem findsLive_reply {w : Traced Slot Db Call Call.Reply} (h : linkedLive w.state g = true) (i : Slot)
    (env : TaskEnvironment) (c : Call) : FindsLive g c ((taskMachine dg uuid5 g).traced.act i w env c).1 := by
  cases c with
  | liveWork g' =>
    rintro rfl
    show (linkedLive w.state g' || env.base.liveWork) = true
    rw [h]; rfl
  | _ => trivial

end

/-- No task that is linked to an action of the goal comes to life while an engine is about to end the goal as a
success. -/
def NoneRevived (dg : Digests) (uuid5 : String → String) (g : String)
    (moves : List (Move Slot Request TaskEnvironment)) : Prop :=
  ∀ before m after, moves = before ++ m :: after → linkedLive (taskRun dg uuid5 g before).shared.state g = false →
    linkedLive (taskRun dg uuid5 g (before ++ [m])).shared.state g = true →
      ∀ k p, (taskRun dg uuid5 g before).thread (.engine k) = some p → ¬ p.Poised fun c => c.succeeds = true

/-- Every task that a dispatch left in the store is linked to its action. -/
def SubmissionsLinked (uuid5 : String → String) (w : Traced Slot Db Call Call.Reply) : Prop :=
  ∀ id ∈ dispatched w.trace, (w.state.tasks.get? (taskIdOf uuid5 id)).isSome = true → id ∈ linked uuid5 w.trace

section

variable {dg : Digests} {uuid5 : String → String} {g : String}

variable {moves : List (Move Slot Request TaskEnvironment)} {p : Prog Call Call.Reply Unit}

theorem client_modest {n : Nat} (hp : (taskRun dg uuid5 g moves).thread (.client n) = some p) :
    p.All fun c => ¬ c.succeeds = true := by
  refine Pool.thread_property (K := fun i p => ∀ m, i = Slot.client m → p.All fun c => ¬ Call.succeeds c = true)
    (fun i request m hi => ?_) (fun i c next r h m hi => (h m hi).2 r) moves hp n rfl
  subst hi
  cases request <;> exact control_modest _

theorem taskRun_vigilant {i : Slot} (hp : (taskRun dg uuid5 g moves).thread i = some p) :
    p.Vigilant (FindsLive g) fun c => c.succeeds = true :=
  Pool.thread_property (K := fun _ p => p.Vigilant (FindsLive g) fun c => c.succeeds = true)
    (fun i request => (serve_guards i request).2) (fun _ _ _ r h => (h r).2) moves hp

theorem taskRun_guarded (hmoves : NoneRevived dg uuid5 g moves)
    (h : linkedLive (taskRun dg uuid5 g moves).shared.state g = true) {i : Slot}
    (hp : (taskRun dg uuid5 g moves).thread i = some p) : ¬ p.Reaches (FindsLive g) fun c => c.succeeds = true := by
  cases i with
  | client n => exact (Prog.Avoids.of_all (client_modest hp)).unreached
  | engine k =>
  refine Pool.unreached_while (H := fun w => linkedLive w.state g = true)
    (fun w env c hw => findsLive_reply hw _ env c) (fun e => (serve_guards (.engine k) e).1) moves
    (fun before m after e hbefore hafter q hq => ?_) h hp
  have hfalse : linkedLive (taskRun dg uuid5 g before).shared.state g = false := Bool.eq_false_iff.mpr hbefore
  have hidle := hmoves before m after e hfalse hafter k
  rw [Pool.run_snoc] at hq hafter
  rcases Pool.move_thread hq with hq | ⟨request, _, rfl⟩ | ⟨env, c, next, hnext, rfl, hs⟩
  · exact fun hr => hidle q hq ((taskRun_vigilant hq).poised hr)
  · exact (serve_guards (.engine k) request).1
  · -- the check leaves the store as it is, so the work came to life by another call of the engine
    refine (taskRun_vigilant hnext _).1 ?_
    cases c with
    | liveWork g' =>
      rw [hs] at hafter
      exact absurd hafter hbefore
    | _ => trivial

/-! ## The transaction that ends the goal as a success -/

theorem succeeded_of_modify {db db' : Db} {k : String} {f : GoalRow → GoalRow}
    (hgoals : db'.goals = db.goals.modify k f)
    (hf : ∀ goal, db.goals.get? k = some goal → Success (f goal) → Success goal) (h : Succeeded db' g) :
    Succeeded db g := by
  obtain ⟨goal, hrow, hs⟩ := h
  rw [hgoals, Table.get?_modify] at hrow
  split at hrow
  · rename_i hk
    subst hk
    obtain ⟨goal₀, hrow₀, rfl⟩ := Option.map_eq_some_iff.mp hrow
    exact ⟨goal₀, hrow₀, hf goal₀ hrow₀ hs⟩
  · exact ⟨goal, hrow, hs⟩

instance (db : Db) (g : String) : Decidable (Succeeded db g) :=
  decidable_of_iff ((db.goals.get? g).any (fun goal =>
    decide (goal.state = .terminated ∧ goal.terminationReason = some .success)) = true)
    (by simp [Succeeded, Success, Option.any_eq_true])

theorem succeeded_of_same {db db' : Db} (hgoals : db'.goals = db.goals) (h : Succeeded db' g) : Succeeded db g := by
  unfold Succeeded at h ⊢
  rwa [hgoals] at h

/-- A goal becomes a success by a transaction that says so. -/
theorem succeeds_of_execGoal {op : GoalOp} {r : op.Reply} {db db' : Db} (h : execGoal op db = .ok (r, db'))
    (hbefore : ¬ Succeeded db g) (hafter : Succeeded db' g) : (Call.transact op).succeeds = true := by
  have hsame : db'.goals = db.goals → (Call.transact op).succeeds = true :=
    fun hgoals => absurd (succeeded_of_same hgoals hafter) hbefore
  have hedit : ∀ {k : String} {f : GoalRow → GoalRow}, db'.goals = db.goals.modify k f →
      (∀ goal, db.goals.get? k = some goal → Success (f goal) → Success goal) → (Call.transact op).succeeds = true :=
    fun hgoals hf => absurd (succeeded_of_modify hgoals hf hafter) hbefore
  cases op with
  | createGoal =>
    obtain ⟨goal, goals, hs, _, hins, rfl⟩ := createGoal_ok h
    obtain ⟨goal', hrow, hgoal'⟩ := hafter
    replace hrow : goals.get? g = some goal' := hrow
    rw [Table.get?_insert hins] at hrow
    split at hrow
    · rw [← Option.some.inj hrow] at hgoal'
      exact nomatch hs.symm.trans hgoal'.1
    · exact absurd ⟨goal', hrow, hgoal'⟩ hbefore
  | pause k mode =>
    rcases pauseGoal_ok h with rfl | ⟨goal, _, _, rfl⟩
    · exact hsame rfl
    · exact hedit rfl fun goal _ hs => by cases mode <;> exact nomatch hs.1
  | resume =>
    obtain ⟨_, _, _, rfl⟩ := resumeGoal_ok h
    exact hedit rfl fun goal _ hs => nomatch hs.1
  | steer =>
    obtain ⟨_, _, _, _, rfl⟩ := steerGoal_ok h
    exact hedit rfl fun goal _ hs => hs
  | stop =>
    obtain ⟨_, _, _, rfl⟩ := stopGoal_ok h
    exact hedit rfl fun goal _ hs => nomatch hs.1
  | start =>
    rcases startGoal_ok h with rfl | ⟨_, _, _, rfl⟩
    · exact hsame rfl
    · exact hedit rfl fun goal _ hs => nomatch hs.1
  | beginIteration =>
    obtain ⟨_, hb⟩ := begun_of_ok h
    obtain ⟨goal', hrow, hs⟩ := hafter
    exact absurd (hb.succeeded hrow hs).1 hbefore
  | recordEvaluation =>
    obtain ⟨_, _, ⟨_, rfl⟩ | ⟨_, rfl⟩⟩ := recordEvaluation_ok h
    · exact hsame rfl
    · exact hedit rfl fun goal _ hs => hs
  | recordPlan =>
    rcases recordPlan_ok h with ⟨_, rfl⟩ | ⟨_, _, rfl⟩
    · exact hsame rfl
    · exact hedit rfl fun goal _ hs => hs
  | recordVerification =>
    rcases recordGoalVerification_ok h with ⟨_, rfl⟩ | ⟨_, rfl⟩ <;> exact hsame rfl
  | phaseIsCurrent => rcases phaseIsCurrent_ok h with ⟨_, rfl⟩ | ⟨_, rfl⟩ <;> exact hsame rfl
  | completeReplan =>
    obtain rfl := completeReplan_ok h
    exact hedit rfl fun goal _ hs => hs
  | terminate k reason =>
    rcases terminateGoal_ok h with rfl | ⟨_, _, _, rfl⟩
    · exact hsame rfl
    · cases reason with
      | success => rfl
      | _ => exact hedit rfl fun goal _ hs => nomatch hs.2
  | terminatePhaseIfCurrent k i reason =>
    rcases terminatePhaseIfCurrent_ok h with rfl | rfl | ⟨_, _, _, _, rfl⟩
    · exact hsame rfl
    · exact hsame rfl
    · cases reason with
      | success => rfl
      | _ => exact hedit rfl fun goal _ hs => nomatch hs.2
  | interruptForSteer =>
    obtain rfl := interruptForSteer_ok h
    exact hsame rfl
  | setIterationState =>
    cases h
    exact hsame rfl
  | setAction =>
    obtain rfl := setAction_ok h
    exact hsame rfl

/-- One call: a goal becomes a success by a transaction that says so, which leaves tasks and runs alone. -/
theorem succeeds_of_call {i : Slot} {env : TaskEnvironment} {c : Call} (hc : ¬ c.strays uuid5 g)
    (hbefore : ¬ Succeeded w.state g) (hafter : Succeeded ((taskMachine dg uuid5 g).traced.act i w env c).2.state g) :
    c.succeeds = true ∧ ((taskMachine dg uuid5 g).traced.act i w env c).2.state.tasks = w.state.tasks ∧
      ((taskMachine dg uuid5 g).traced.act i w env c).2.state.runs = w.state.runs := by
  have hstore : ((taskMachine dg uuid5 g).traced.act i w env c).2.state = (taskAct dg uuid5 g w.state env c).2 := rfl
  rw [hstore] at hafter ⊢
  cases c with
  | transact op =>
    simp only [taskAct, act, commit] at hafter ⊢
    cases hop : execGoal op w.state with
    | error => rw [hop] at hafter; exact absurd hafter hbefore
    | ok =>
      rw [hop] at hafter
      exact ⟨succeeds_of_execGoal hop hbefore hafter, execGoal_tasks hop⟩
  | store op =>
    have hother : op.writesGoals = false := (legal_of_not_strays hc).resolve_left fun h => h
    simp only [taskAct, act, commit] at hafter
    cases hop : exec dg op w.state with
    | error => rw [hop] at hafter; exact absurd hafter hbefore
    | ok =>
      rw [hop] at hafter
      exact absurd (succeeded_of_same ((exec_frame hop).goals hother) hafter) hbefore
  | dispatch action actionId =>
    refine absurd (succeeded_of_same ?_ hafter) hbefore
    rcases @dispatchTask_cases uuid5 g w.state env actionId with hsame | ⟨_, _, _, hnew⟩
    · exact congrArg Db.goals hsame
    · exact (congrArg Db.goals hnew).trans rfl
  | _ => exact absurd hafter hbefore

theorem TaskInv.none_live (h : TaskInv uuid5 g w) (hno : NoForeign uuid5 w.trace)
    (hlinked : SubmissionsLinked uuid5 w) (hlive : linkedLive w.state g = false) {id : String} {task : TaskRow}
    (htask : w.state.tasks.get? (taskIdOf uuid5 id) = some task) : taskLive w.state (taskIdOf uuid5 id) = false := by
  obtain ⟨id', hid', heq⟩ := h.tasks hno id task htask
  have hexists : (w.state.tasks.get? (taskIdOf uuid5 id')).isSome = true := by rw [heq, htask]; rfl
  obtain ⟨action, hrow, hlink⟩ := h.links id' (hlinked id' hid' hexists)
  have hnone := Table.any_eq_false.mp hlive id' action hrow
  rw [hlink, decide_eq_true (h.actions id' action hrow).1] at hnone
  rw [← heq]
  exact hnone

end

/-- **Success leaves no live work.** Along every schedule of the engines of a goal with their dispatcher, its controls,
other clients of the store, crashes and restarts: at the transaction that ends the goal as a success, the task of every
action id is settled and none of its runs is active, provided that every task that a dispatch left in the store has been
linked to its action, no client creates tasks under ids of actions, and no linked task comes to life between the
engine's check and that transaction. -/
theorem success_leaves_no_live_work (dg : Digests) (uuid5 : String → String) (g : String)
    (moves : List (Move Slot Request TaskEnvironment)) (m : Move Slot Request TaskEnvironment)
    (hforeign : NoForeign uuid5 (taskRun dg uuid5 g moves).shared.trace)
    (hlinked : SubmissionsLinked uuid5 (taskRun dg uuid5 g moves).shared) (hrevived : NoneRevived dg uuid5 g moves)
    (hbefore : ¬ Succeeded (taskRun dg uuid5 g moves).shared.state g)
    (hafter : Succeeded (taskRun dg uuid5 g (moves ++ [m])).shared.state g) (id : String) (task : TaskRow)
    (htask : (taskRun dg uuid5 g (moves ++ [m])).shared.state.tasks.get? (taskIdOf uuid5 id) = some task) :
    TaskState.live task.state = false ∧ ∀ runId run,
      (taskRun dg uuid5 g (moves ++ [m])).shared.state.runs.get? runId = some run → run.taskId = taskIdOf uuid5 id →
        run.state.active = false := by
  obtain ⟨hinv, hstraight⟩ := @taskRun_sound dg uuid5 g moves
  rw [show taskRun dg uuid5 g (moves ++ [m]) = (taskRun dg uuid5 g moves).move _ _ m from Pool.run_snoc ..] at *
  rcases Pool.move_shared (taskRun dg uuid5 g moves) m with h | ⟨i, env, c, next, hthread, h⟩
  · rw [h] at hafter
    exact absurd hafter hbefore
  rw [h] at hafter htask ⊢
  obtain ⟨hs, htasks, hruns⟩ := succeeds_of_call (fun hc => hstraight i _ hthread (Or.inl hc)) hbefore hafter
  have hlive : linkedLive (taskRun dg uuid5 g moves).shared.state g = false :=
    Bool.eq_false_iff.mpr fun ht => taskRun_guarded hrevived ht hthread (Or.inl hs)
  rw [htasks] at htask
  have hnone := hinv.none_live hforeign hlinked hlive htask
  rw [taskLive, Bool.or_eq_false_iff, htask] at hnone
  refine ⟨hnone.1, fun runId run hrun hid => ?_⟩
  rw [hruns] at hrun
  have hidle := Table.any_eq_false.mp hnone.2 runId run hrun
  rw [decide_eq_true hid] at hidle
  exact hidle

section

private theorem doneTexts : blank "done" = false ∧ blank "p" = false := by decide

private theorem verifiedTexts : blank "verified" = false ∧ blank "p" = false := by decide

private theorem incompleteReasoned : if EvaluationDisposition.incomplete = .terminate then
    (none : Option TerminationReason) ≠ none ∧ none ≠ some TerminationReason.success
      else (none : Option TerminationReason) = none := by
  decide

private theorem satisfiedReasoned : if EvaluationDisposition.satisfied = .terminate then
    (none : Option TerminationReason) ≠ none ∧ none ≠ some TerminationReason.success
      else (none : Option TerminationReason) = none := by
  decide

private theorem verifiedReasoned : if true = true then (none : Option TerminationReason) = none ∨
    none = some TerminationReason.success
    else none ≠ some TerminationReason.success := by
  decide

private def plannedAnswers : TaskEnvironment where
  base := { Environment.silent with
    evaluation := some ⟨.incomplete, "started", "p", none, by decide, incompleteReasoned⟩
    plan := some ⟨"plan", [⟨"a", "title", "description", "", "", by decide⟩], ""⟩
    verification := some ⟨true, "verified", "p", none, verifiedTexts, verifiedReasoned⟩
    handle := .ok ⟨"", none, ""⟩
    finished := [("act-iter-1:a", .ok ⟨true, "", "", false⟩)] }
  requirementsParsed := true
  topology := .single

private def doneAnswers : TaskEnvironment :=
  { plannedAnswers with base := { plannedAnswers.base with
      uuid := "2", evaluation := some ⟨.satisfied, "done", "p", none, doneTexts, satisfiedReasoned⟩ } }

private def working (steps : Nat) : List (Move Slot Request TaskEnvironment) :=
  [.start (.client 0) (.createGoal "g" "p" "intent" {}), .step (.client 0) plannedAnswers,
    .start (.engine "g") (.engine 1 1)] ++ List.replicate steps (.step (.engine "g") plannedAnswers)

-- the engine crashes between the submission and the link; a steer abandons the iteration; the next one is satisfied
private def abandoned : List (Move Slot Request TaskEnvironment) :=
  working 33 ++ [.drop (.engine "g"), .start (.client 1) (.steer "g" "another way" none),
    .step (.client 1) plannedAnswers, .start (.engine "g") (.engine 2 1)] ++
    List.replicate 30 (.step (.engine "g") doneAnswers)

private def abandonedSuccess : Db :=
  (taskRun Digests.trivial id "g" (abandoned ++ [.step (.engine "g") doneAnswers])).shared.state

theorem unlinked_task_live_at_success :
    ¬ Succeeded (taskRun Digests.trivial id "g" abandoned).shared.state "g" ∧ Succeeded abandonedSuccess "g" ∧
      (abandonedSuccess.actions.get? "act-iter-1:a").map ActionRow.goalId = some "g" ∧
      (abandonedSuccess.tasks.get? (taskIdOf id "act-iter-1:a")).map TaskRow.state = some .draft := by
  decide +kernel

-- the task is linked, its client cancels it, and the engine collects a result for it
private def settledRun : List (Move Slot Request TaskEnvironment) :=
  working 37 ++ [.start (.client 1) (.store (.cancelTaskExecution "tsk-act-iter-1:a" 0) rfl),
    .step (.client 1) plannedAnswers] ++ List.replicate 19 (.step (.engine "g") plannedAnswers)

private theorem settledRun_unrevived : NoneRevived Digests.trivial id "g" settledRun := by
  intro before m after e hbefore hafter k p hp
  have honset : ∀ n < 61, linkedLive (taskRun Digests.trivial id "g" (settledRun.take n)).shared.state "g" = false →
      linkedLive (taskRun Digests.trivial id "g" (settledRun.take (n + 1))).shared.state "g" = true → n = 37 := by
    decide +kernel
  have htake : settledRun.take before.length = before ∧ settledRun.take (before.length + 1) = before ++ [m] := by
    rw [e, List.take_left, List.take_length_add_append]
    exact ⟨rfl, rfl⟩
  have hlength : before.length < 61 := by
    have := congrArg List.length e
    simp only [List.length_append, List.length_cons] at this
    have hsettled : settledRun.length = 61 := rfl
    omega
  have hn : before.length = 37 := by
    refine honset _ hlength ?_ ?_
    · rw [htake.1]; exact hbefore
    · rw [htake.2]; exact hafter
  have hk : k = "g" := by
    obtain ⟨request, hstart⟩ := Pool.started_of_thread hp
    have hmem : .start (.engine k) request ∈ settledRun := e ▸ List.mem_append_left _ hstart
    simp [settledRun, working] at hmem
    exact hmem.1
  have hlinks : ((taskRun Digests.trivial id "g" (settledRun.take 37)).thread (.engine "g")).all
      (fun p => !decide (p.Poised fun c => c.succeeds = true)) = true := by decide +kernel
  rw [hk] at hp
  rw [← hn, htake.1, hp] at hlinks
  simpa using hlinks

private def settledTask : TaskRow := ⟨"p", "AUTO-act-iter-1:a", .cancelled, .single, 0, 2, 1, none, none, some 0⟩

private def settledSuccess : Db :=
  (taskRun Digests.trivial id "g" (settledRun ++ [.step (.engine "g") plannedAnswers])).shared.state

theorem success_leaves_no_live_work_settled :
    Succeeded settledSuccess "g" ∧ settledSuccess.tasks.get? (taskIdOf id "act-iter-1:a") = some settledTask ∧
      TaskState.live settledTask.state = false := by
  have hsuccess : Succeeded settledSuccess "g" := by decide +kernel
  have hbefore : ¬ Succeeded (taskRun Digests.trivial id "g" settledRun).shared.state "g" := by decide +kernel
  have htask : settledSuccess.tasks.get? (taskIdOf id "act-iter-1:a") = some settledTask := by decide +kernel
  have hcreated : ∀ e ∈ (taskRun Digests.trivial id "g" settledRun).shared.trace, createdBy e = none := by
    decide +kernel
  have hlinked : ∀ k ∈ dispatched (taskRun Digests.trivial id "g" settledRun).shared.trace,
      k ∈ linked id (taskRun Digests.trivial id "g" settledRun).shared.trace := by decide +kernel
  refine ⟨hsuccess, htask, ?_⟩
  unfold settledSuccess at hsuccess htask
  refine (success_leaves_no_live_work Digests.trivial id "g" settledRun (.step (.engine "g") plannedAnswers) ?_ ?_
    settledRun_unrevived hbefore hsuccess "act-iter-1:a" settledTask htask).1
  · intro e he taskId htaskId
    exact nomatch (hcreated e he).symm.trans htaskId
  · exact fun k hk _ => hlinked k hk

end

end AgentFabric.Autonomy
