import AgentFabric.Intake.Model
import AgentFabric.Runtime.Histories

/-!
# Approved work

The scheduler reads the approval column of a task, which is written once, when the task is submitted; the verdict of a
human is written to the approvals table, which the scheduler never reads.
-/

namespace AgentFabric.Intake

open AgentFabric.Lib AgentFabric.Store AgentFabric.Resource Prog
open AgentFabric.Submission (PermissionClass ApprovalState)

/-- RED work that was submitted without an approval. -/
def Withheld (r : TaskRequirements) : Prop := r.permissionClass = .red ∧ r.approvalState ≠ .approved

variable {r : TaskRequirements}

/-- The scheduler rejects every worker for work that is withheld, and for that reason only then. -/
theorem withheld_iff {w : WorkerSnapshot} :
    (∃ rejection ∈ hardConstraints r w, rejection.reasonCode = "HUMAN_APPROVAL_REQUIRED") ↔ Withheld r := by
  have hcontext : ∀ rejection ∈ contextConstraint r w, rejection.reasonCode ≠ "HUMAN_APPROVAL_REQUIRED" := by
    intro rejection h
    unfold contextConstraint at h
    split at h
    · cases h
    · rw [List.mem_singleton] at h
      simp [h]
    · unfold constraint at h
      split at h
      · rw [List.mem_singleton] at h
        simp [h]
      · cases h
  have hother : ∀ {violated code detail}, code ≠ "HUMAN_APPROVAL_REQUIRED" →
      ¬ ∃ rejection ∈ constraint violated w.id code detail, rejection.reasonCode = "HUMAN_APPROVAL_REQUIRED" := by
    rintro violated code detail hcode ⟨rejection, h, hreason⟩
    unfold constraint at h
    split at h
    · rw [List.mem_singleton] at h
      rw [h] at hreason
      exact hcode hreason
    · cases h
  constructor
  · rintro ⟨rejection, h, hreason⟩
    simp only [hardConstraints, List.mem_append] at h
    rcases h with ((((((h | h) | h) | h) | h) | h) | h) | h
    iterate 6 exact absurd ⟨rejection, h, hreason⟩ (hother (by decide))
    · exact absurd hreason (hcontext rejection h)
    · unfold constraint at h
      split at h
      · rename_i hviolated
        simpa [Withheld] using hviolated
      · cases h
  · rintro ⟨hred, happroval⟩
    refine ⟨⟨w.id, "HUMAN_APPROVAL_REQUIRED", "RED task lacks a durable approved record"⟩, ?_, rfl⟩
    simp [hardConstraints, constraint, hred, happroval]

theorem eligible_not_withheld {w : WorkerSnapshot} (h : eligible r w = true) : ¬ Withheld r := by
  intro hw
  obtain ⟨rejection, hmem, -⟩ := (withheld_iff (w := w)).mpr hw
  rw [List.isEmpty_iff.mp h] at hmem
  cases hmem

theorem chooseWorkers_withheld {score : Score} {ledger : Ledger} {now : Nat} {topology : ExecutionTopology}
    {candidates : List WorkerSnapshot} {decision : RoutingDecision} {transient : Bool}
    (h : chooseWorkers score ledger now r topology candidates = .ok (decision, transient))
    (hselected : decision.selectedWorkerIds.isEmpty = false) : ¬ Withheld r := by
  simp only [chooseWorkers, bind_eq_ok, pure_eq_ok, Prod.mk.injEq] at h
  obtain ⟨⟨kept, rejections, guard⟩, -, rfl, -⟩ := h
  obtain ⟨id, hid⟩ := List.exists_mem_of_ne_nil _ (List.isEmpty_eq_false_iff.mp hselected)
  obtain ⟨w, -, heligible, -⟩ := schedule_eligible hid
  exact eligible_not_withheld heligible

/-! ## What the programs call -/

/-- A call of a runtime for a task that satisfies `P`: it creates nothing, and claims no other task. -/
def Minds (P : String → Prop) : Runtime.Call → Prop
  | .store (.createTask _) => False
  | .store (.claimTaskDispatch args) => P args.taskId
  | _ => True

section

variable {P : String → Prop} {s : Runtime.Supervisor} {α : Type}

abbrev MindsAll (P : String → Prop) (p : Runtime.Program α) : Prop := Obeys (Minds P) p

theorem store_minds {op : StoreOp} (h : Minds P (.store op)) : MindsAll P (Runtime.store op) :=
  Obeys.bind (Obeys.ask h) fun _ => Obeys.result _

theorem getTask_minds (taskId : String) : MindsAll P (Runtime.getTask taskId) :=
  Obeys.bind (Obeys.ask trivial) fun _ => Obeys.result _

theorem auditTask_minds (taskId : String) : MindsAll P (Runtime.auditTask taskId) := by
  refine Obeys.bind (getTask_minds taskId) fun task => ?_
  unfold Runtime.auditTaskTerminal
  split
  · exact Obeys.pure _
  · refine Obeys.bind (Obeys.ask trivial) fun found => ?_
    split
    · exact Obeys.pure _
    · exact Obeys.bind (Obeys.ask trivial) fun _ => Obeys.bind (Obeys.ask trivial) fun _ => Obeys.result _

theorem exhaustAttempts_minds (taskId : String) (task : TaskRow) :
    MindsAll P (Runtime.exhaustAttempts taskId task) := by
  refine Obeys.bind (Obeys.attempt (store_minds trivial)) fun r => ?_
  split
  · exact auditTask_minds taskId
  · refine Obeys.bind (getTask_minds taskId) fun current => ?_
    split
    · exact Obeys.throw _
    · exact Obeys.pure _

theorem blockTask_minds (taskId : String) : MindsAll P (Runtime.blockTask taskId) := store_minds trivial

theorem deferDispatch_minds (taskId reasonCode detail : String) :
    MindsAll P (Runtime.deferDispatch s taskId reasonCode detail) :=
  Obeys.bind (store_minds trivial) fun _ => Obeys.pure _

theorem negotiateContracts_minds : ∀ workerIds, MindsAll P (Runtime.negotiateContracts s workerIds)
  | [] => Obeys.pure _
  | workerId :: rest => by
    refine Obeys.bind (Obeys.result _) fun _ => Obeys.bind (Obeys.ask trivial) fun r => ?_
    split
    · exact negotiateContracts_minds rest
    · exact negotiateContracts_minds rest
    · exact Obeys.pure _

theorem prepareRuns_minds (generation : Nat) : ∀ runs, MindsAll P (Runtime.prepareRuns s generation runs)
  | [] => Obeys.pure _
  | _ :: rest =>
    Obeys.bind (Obeys.result _) fun _ => Obeys.bind (Obeys.ask trivial) fun _ =>
      Obeys.bind (store_minds trivial) fun _ => prepareRuns_minds generation rest

theorem claimAndStart_minds {taskId : String} (task : TaskRow) (workerIds : List String) (h : P taskId) :
    MindsAll P (Runtime.claimAndStart s taskId task workerIds) := by
  refine Obeys.bind (store_minds h) fun claim => ?_
  split
  · refine Obeys.bind (getTask_minds taskId) fun current => ?_
    split
    · exact deferDispatch_minds _ _ _
    · exact Obeys.pure _
  · exact Obeys.bind (Obeys.result _) fun _ => Obeys.bind (prepareRuns_minds _ _) fun _ =>
      Obeys.bind (Obeys.ask trivial) fun _ => Obeys.pure _

end

/-- The rows that were listed satisfy `listed`. -/
def Listing (listed : TaskSnapshot → Prop) : (c : Call) → c.Reply → Prop
  | .listTasks, reply => ∀ task ∈ reply, listed task
  | _, _ => True

/-- The task is ready and not withheld, by the columns that were listed. -/
def Cleared (listed : TaskSnapshot → Prop) (taskId : String) : Prop :=
  ∃ task, listed task ∧ task.id = taskId ∧ task.row.state = .ready ∧ ¬ Withheld task.requirements

/-- A claim of a task that is not cleared, or a task that is created past the submission. -/
def Careless (listed : TaskSnapshot → Prop) : Call → Prop
  | .runtime c => ¬ Minds (Cleared listed) c
  | _ => False

section

variable {listed : TaskSnapshot → Prop} {score : Score}
  {s : Runtime.Supervisor} {α : Type}

/-- As long as what is listed satisfies `listed`, no call of the program is careless. -/
abbrev Careful (listed : TaskSnapshot → Prop) (Q : α → Prop) (p : Program α) : Prop :=
  Upholds (Listing listed) (Careless listed) Q (fun _ => True) p

theorem interp_careful {p : Prog Runtime.Call Runtime.Call.Reply α} {Q : α → Prop} (h : p.All (Minds (Cleared listed)))
    (hq : ∀ a, Q a) :
    (p.interp fun c => Prog.perform (Call.runtime c)).Avoids (Listing listed) (Careless listed) Q := by
  induction p with
  | ret a => exact hq a
  | call c next ih => exact ⟨fun hb => hb h.1, fun r _ => ih r (h.2 r)⟩

theorem ofRuntime_careful {p : Runtime.Program α} (h : MindsAll (Cleared listed) p) :
    Careful listed (fun _ => True) (ofRuntime p) := by
  refine interp_careful h fun r => ?_
  cases r <;> trivial

theorem ask_careful {c : Call} (h : ¬ Careless listed c) : Careful listed (Listing listed c) (ask c) := Upholds.ask h

theorem candidateWorkers_careful (taskId : String) (topology : ExecutionTopology) :
    Careful listed (fun _ => True) (candidateWorkers s taskId topology) := by
  refine Upholds.bind (ask_careful not_false) fun workers _ => ?_
  split
  · exact Upholds.bind (ofRuntime_careful (Obeys.bind (Obeys.ask trivial) fun _ => Obeys.pure _)) fun _ _ =>
      Upholds.pure trivial
  · exact Upholds.pure trivial

theorem dispatchTask_careful (taskIds : Option (List String)) {task : TaskSnapshot} (h : listed task) :
    Careful listed (fun _ => True) (dispatchTask score s taskIds task) := by
  have hread : ∀ c, Minds (Cleared listed) c → ¬ Careless listed (.runtime c) := fun c hc hb => hb hc
  unfold dispatchTask
  split
  · exact Upholds.pure trivial
  split
  · exact Upholds.pure trivial
  next hready =>
  refine Upholds.bind (ask_careful (hread _ trivial)) fun active _ => ?_
  split
  · exact Upholds.pure trivial
  split
  · exact ofRuntime_careful (exhaustAttempts_minds _ _)
  refine Upholds.bind (ask_careful (hread _ trivial)) fun db _ => ?_
  dsimp only
  split
  · exact ofRuntime_careful (blockTask_minds _)
  split
  · exact Upholds.pure trivial
  refine Upholds.bind (candidateWorkers_careful _ _) fun candidates _ =>
    Upholds.bind (ask_careful not_false) fun ⟨ledger, now⟩ _ => ?_
  refine Upholds.bind (Q := fun chosen => chosen.1.selectedWorkerIds.isEmpty = false → ¬ Withheld task.requirements)
    (Upholds.result ?_) fun ⟨decision, transient⟩ hchosen => ?_
  · cases hroute : chooseWorkers score ledger now task.requirements task.row.topology candidates with
    | error => trivial
    | ok => exact chooseWorkers_withheld hroute
  dsimp only at hchosen ⊢
  split
  · split
    · exact ofRuntime_careful (deferDispatch_minds _ _ _)
    · exact ofRuntime_careful (blockTask_minds _)
  · rename_i hselected
    have hcleared : Cleared listed task.id :=
      ⟨task, h, rfl, not_not.mp hready, hchosen (Bool.eq_false_of_not_eq_true hselected)⟩
    refine Upholds.bind (ofRuntime_careful (negotiateContracts_minds _)) fun negotiated _ => ?_
    split
    · exact ofRuntime_careful (claimAndStart_minds _ _ hcleared)
    · exact ofRuntime_careful (deferDispatch_minds _ _ _)

theorem dispatchReady_careful (taskIds : Option (List String)) (prior : String → String → Bool) :
    Careful listed (fun _ => True) (dispatchReady score s taskIds prior) := by
  refine Upholds.bind (ask_careful not_false) fun tasks htasks => Upholds.forM fun task hmem => ?_
  exact dispatchTask_careful taskIds (htasks task (List.mem_mergeSort.mp hmem))

theorem moveTask_careful (taskId : String) (target : TaskState) :
    Careful listed (fun _ => True) (moveTask taskId target) :=
  ofRuntime_careful (store_minds trivial)

theorem answered_careful (x : Except StoreError α) : Careful listed (fun _ => True) (answered x) := by
  refine Upholds.result ?_
  cases x <;> trivial

theorem submitTask_careful (sub : TaskSubmission) : Careful listed (fun _ => True) (submitTask sub) := by
  have hreference : Careful listed (fun _ => True) (chooseReference sub) := by
    unfold chooseReference
    split
    · exact Upholds.pure trivial
    · exact Upholds.bind (ask_careful not_false) fun _ _ => Upholds.pure trivial
  refine Upholds.bind hreference fun reference _ => Upholds.bind (ask_careful not_false) fun created _ =>
    Upholds.bind (answered_careful _) fun _ _ => Upholds.bind (moveTask_careful _ _) fun _ _ => ?_
  split
  · exact Upholds.bind (ask_careful not_false) fun _ _ => Upholds.bind (answered_careful _) fun _ _ =>
      moveTask_careful _ _
  · exact moveTask_careful _ _

theorem serve_careful (i : Nat) (request : Request) :
    (serve score i request).Avoids (Listing listed) (Careless listed) fun _ => True := by
  have hhandle : Careful listed (fun _ => True) (handle score request) := by
    cases request with
    | submit sub => exact submitTask_careful sub
    | requestApproval => exact Upholds.bind (ask_careful not_false) fun _ _ => answered_careful _
    | resolveApproval => exact Upholds.bind (ask_careful not_false) fun _ _ => answered_careful _
    | dispatch s taskIds prior => exact dispatchReady_careful taskIds prior
    | client op =>
      simp only [handle]
      split
      · rename_i hop
        refine Upholds.bind (ofRuntime_careful (store_minds ?_)) fun _ _ => Upholds.pure trivial
        cases op with
        | createTask => cases hop
        | claimTaskDispatch => cases hop
        | _ => trivial
      · exact Upholds.pure trivial
  exact Avoids.bind hhandle fun _ _ => trivial

end

/-! ## What stays of a task -/

section

variable {dg : Digests} {w : World} {env : Environment}

theorem act_createTask (dg : Digests) (w : World) (env : Environment) (task : NewTask)
    (requirements : TaskRequirements) :
    (∃ tasks world, createTask w.db task = .ok ((), { w.db with tasks := tasks }) ∧
      w.db.tasks.insert? task.id task.row = some tasks ∧ world.db = { w.db with tasks := tasks } ∧
      act dg w env (.createTask task requirements) = (.ok (), { w with
        runtime := world
        requirements := (w.requirements.insert? task.id requirements).getD w.requirements })) ∨
    ∃ e world, createTask w.db task = .error e ∧ world.db = w.db ∧
      act dg w env (.createTask task requirements) = (.error e, { w with runtime := world }) := by
  let later := w.runtime.clock + env.runtime.wait + env.runtime.lag
  cases hop : createTask w.db task with
  | ok result =>
    obtain ⟨u, db⟩ := result
    obtain ⟨tasks, hi, rfl⟩ := createTask_ok hop
    refine Or.inl ⟨tasks, { w.runtime with
      db := { w.db with tasks := tasks }
      clock := later }, rfl, hi, rfl, ?_⟩
    simp only [act, Runtime.act, Runtime.transaction, Runtime.stamp, exec]
    rw [show createTask w.runtime.db task = _ from hop]
  | error e =>
    refine Or.inr ⟨e, { w.runtime with clock := later }, rfl, rfl, ?_⟩
    simp only [act, Runtime.act, Runtime.transaction, Runtime.stamp, exec]
    rw [show createTask w.runtime.db task = _ from hop]

/-- The columns of a task stay. -/
theorem act_requirements (c : Call) {taskId : String} {r : TaskRequirements} (h : w.requirements.get? taskId = some r) :
    (act dg w env c).2.requirements.get? taskId = some r := by
  cases c with
  | createTask task requirements =>
    rcases act_createTask dg w env task requirements with
      ⟨tasks, world, -, -, -, hact⟩ | ⟨e, world, -, -, hact⟩
    · rw [hact]
      cases hi : w.requirements.insert? task.id requirements with
      | none => exact h
      | some =>
        have hne : taskId ≠ task.id := by
          rintro rfl
          rw [Table.insert?_fresh hi] at h
          cases h
        simp only [Option.getD_some, Table.get?_insert hi, hne, if_false, h]
    · rw [hact]
      exact h
  | _ => exact h

/-- The calls write the approvals that they say. -/
theorem act_approvals {c : Call} {id : String} {row : ApprovalRow}
    (h : (act dg w env c).2.approvals.get? id = some row) :
    w.approvals.get? id = some row ∨
      (∃ request, c = .requestApproval request ∧ row = ⟨request, .pending, none, request.reason⟩ ∧
        ∀ taskId, request.taskId = some taskId → (w.db.tasks.get? taskId).isSome = true) ∨
      ∃ verdict old, c = .resolveApproval verdict ∧ verdict.approvalId = id ∧ w.approvals.get? id = some old ∧
        old.state = .pending ∧ row = old.resolve verdict := by
  cases c with
  | requestApproval request =>
    cases hop : requestApproval w.db w.approvals ("approval-" ++ env.approvalUuid) request with
    | error =>
      simp only [act, hop] at h
      exact Or.inl h
    | ok =>
      simp only [act, hop] at h
      simp only [requestApproval, bind_eq_ok, ensure_eq_ok, orRaise_eq_ok] at hop
      obtain ⟨-, hforeign, hi⟩ := hop
      simp only [Except.toOption, Option.getD_some, Table.get?_insert hi] at h
      split at h
      · refine Or.inr (Or.inl ⟨request, rfl, (Option.some.inj h).symm, fun taskId ht => ?_⟩)
        rw [ht] at hforeign
        exact hforeign
      · exact Or.inl h
  | resolveApproval verdict =>
    cases hop : resolveApproval w.approvals verdict with
    | error =>
      simp only [act, hop] at h
      exact Or.inl h
    | ok =>
      simp only [act, hop] at h
      simp only [resolveApproval, bind_eq_ok, ensure_eq_ok, orRaise_eq_ok, pure_eq_ok] at hop
      obtain ⟨old, hold, -, hpending, rfl⟩ := hop
      by_cases hid : id = verdict.approvalId
      · simp only [Except.toOption, Option.getD_some, hid, Table.get?_modify_self, hold, Option.map_some] at h
        exact Or.inr (Or.inr ⟨verdict, old, rfl, hid.symm, hid ▸ hold, hpending, (Option.some.inj h).symm⟩)
      · simp only [Except.toOption, Option.getD_some, Table.get?_modify_ne _ _ hid] at h
        exact Or.inl h
  | createTask =>
    left
    simp only [act] at h
    split at h <;> exact h
  | _ => exact Or.inl h

theorem act_verdict {verdict : Verdict} {row : ApprovalRow} (hrow : w.approvals.get? verdict.approvalId = some row)
    (hpending : row.state = .pending) :
    (act dg w env (.resolveApproval verdict)).2.approvals =
      w.approvals.modify verdict.approvalId (·.resolve verdict) := by
  have hok : resolveApproval w.approvals verdict = .ok (w.approvals.modify verdict.approvalId (·.resolve verdict)) := by
    simp only [resolveApproval, bind_eq_ok, ensure_eq_ok, orRaise_eq_ok, pure_eq_ok]
    exact ⟨row, hrow, (), hpending, trivial⟩
  simp only [act, hok]
  rfl

/-- An approval stays, and is written only while it is pending. -/
theorem act_approval (c : Call) {id : String} {row : ApprovalRow} (h : w.approvals.get? id = some row) :
    ∃ row', (act dg w env c).2.approvals.get? id = some row' ∧ row'.request = row.request ∧
      (row.state ≠ .pending → row' = row) := by
  cases c with
  | requestApproval request =>
    cases hop : requestApproval w.db w.approvals ("approval-" ++ env.approvalUuid) request with
    | error =>
      simp only [act, hop]
      exact ⟨row, h, rfl, fun _ => rfl⟩
    | ok =>
      simp only [act, hop]
      simp only [requestApproval, bind_eq_ok, ensure_eq_ok, orRaise_eq_ok] at hop
      obtain ⟨-, -, hi⟩ := hop
      have hne : id ≠ "approval-" ++ env.approvalUuid := by
        rintro rfl
        rw [Table.insert?_fresh hi] at h
        cases h
      exact ⟨row, by simp [Except.toOption, Table.get?_insert hi, hne, h], rfl, fun _ => rfl⟩
  | resolveApproval verdict =>
    cases hop : resolveApproval w.approvals verdict with
    | error =>
      simp only [act, hop]
      exact ⟨row, h, rfl, fun _ => rfl⟩
    | ok =>
      simp only [act, hop]
      simp only [resolveApproval, bind_eq_ok, ensure_eq_ok, orRaise_eq_ok, pure_eq_ok] at hop
      obtain ⟨old, hold, -, hpending, rfl⟩ := hop
      by_cases hid : id = verdict.approvalId
      · subst hid
        rw [h] at hold
        cases hold
        exact ⟨row.resolve verdict, by simp [Except.toOption, h], rfl, fun hresolved => absurd hpending hresolved⟩
      · exact ⟨row, by simp [Except.toOption, hid, h], rfl, fun _ => rfl⟩
  | createTask =>
    refine ⟨row, ?_, rfl, fun _ => rfl⟩
    simp only [act]
    split <;> exact h
  | _ => exact ⟨row, h, rfl, fun _ => rfl⟩

def World.Approved (w : World) (taskId : String) : Prop :=
  ∃ id row, w.approvals.get? id = some row ∧ row.request.taskId = some taskId ∧ row.state = .approved

/-- What is approved stays approved. -/
theorem World.Approved.act {taskId : String} (h : w.Approved taskId) (c : Call) :
    (act dg w env c).2.Approved taskId := by
  obtain ⟨id, row, hrow, ht, hstate⟩ := h
  obtain ⟨row', hrow', hrequest, hsame⟩ : ∃ row', (Intake.act dg w env c).2.approvals.get? id = some row' ∧ _ :=
    act_approval c hrow
  obtain rfl := hsame (by simp [hstate])
  exact ⟨id, row', hrow', ht, hstate⟩

/-- A call that is not careless creates tasks together with their columns. -/
theorem act_tasks {c : Call} (hc : ∀ op, c = .runtime (.store op) → ∀ task, op ≠ .createTask task)
    (h : ∀ taskId, (w.db.tasks.get? taskId).isSome = true → (w.requirements.get? taskId).isSome = true)
    (taskId : String) (ht : ((act dg w env c).2.db.tasks.get? taskId).isSome = true) :
    ((act dg w env c).2.requirements.get? taskId).isSome = true := by
  have hkept : (w.requirements.get? taskId).isSome = true →
      ((act dg w env c).2.requirements.get? taskId).isSome = true := by
    intro hr
    obtain ⟨r, hr⟩ := Option.isSome_iff_exists.mp hr
    rw [act_requirements c hr]
    rfl
  by_cases hold : (w.db.tasks.get? taskId).isSome = true
  · exact hkept (h taskId hold)
  have hnone : w.db.tasks.get? taskId = none := by simpa using hold
  cases c with
  | createTask task requirements =>
    rcases act_createTask dg w env task requirements with
      ⟨tasks, world, -, hi, hdb, hact⟩ | ⟨e, world, -, hdb, hact⟩
    · rw [hact] at ht ⊢
      have hid : taskId = task.id := by
        by_contra hne
        have hget : world.db.tasks.get? taskId = none := by
          rw [hdb, Table.get?_insert hi, if_neg hne, hnone]
        rw [show World.db _ = world.db from rfl, hget] at ht
        cases ht
      cases hr : w.requirements.insert? task.id requirements with
      | none =>
        obtain ⟨r, hr⟩ := Table.insert?_eq_none.mp hr
        simp [hid, hr]
      | some => simp [hid, Table.get?_insert hr]
    · rw [hact, show World.db _ = world.db from rfl, hdb] at ht
      exact absurd ht hold
  | runtime c =>
    rcases Runtime.act_db dg w.runtime env.runtime c with hdb | ⟨op, clock, uuid, r, rfl, hexec⟩
    · rw [show (act dg w env (.runtime c)).2.db = w.db from hdb] at ht
      exact absurd ht hold
    · rcases exec_tasks_none hexec hnone with hnone | ⟨task, htask, -⟩
      · rw [show (act dg w env (.runtime (.store op))).2.db.tasks.get? taskId = none from hnone] at ht
        cases ht
      · refine absurd ?_ (hc op rfl task)
        cases op <;> cases htask
        rfl
  | _ => exact absurd ht hold

end

/-! ## Along a schedule -/

section

variable (score : Score) (dg : Digests)

/-- What holds of the rows as they are listed, and stays, holds of every row that has been listed. -/
theorem listed_step {dg : Digests} {listed : World → TaskSnapshot → Prop} {h : History} {i : Nat}
    {env : Environment} {c : Call}
    (stays : ∀ task, listed h.state task → listed (act dg h.state env c).2 task)
    (now : c = .listTasks → ∀ task ∈ h.state.snapshots, listed h.state task)
    (hlisted : ∀ e ∈ h.trace, Listing (listed h.state) e.call e.reply) :
    ∀ e ∈ ((machine dg).traced.act i h env c).2.trace,
      Listing (listed ((machine dg).traced.act i h env c).2.state) e.call e.reply := by
  intro e he
  rcases List.mem_append.mp he with hold | hnew
  · obtain ⟨j, c', reply⟩ := e
    have hbefore := hlisted _ hold
    cases c' with
    | listTasks => exact fun task htask => stays task (hbefore task htask)
    | _ => trivial
  · obtain rfl := List.mem_singleton.mp hnew
    cases c with
    | listTasks => exact fun task htask => now rfl task htask
    | _ => trivial

theorem snapshots_requirements {w : World} {task : TaskSnapshot} (h : task ∈ w.snapshots) :
    w.requirements.get? task.id = some task.requirements := by
  obtain ⟨e, -, hsome⟩ := List.mem_filterMap.mp h
  obtain ⟨r, hr, rfl⟩ := Option.map_eq_some_iff.mp hsome
  exact hr

/-- The columns of every task that was listed are those of the table. -/
theorem desks_listed (moves : List (Move Nat Request Environment)) :
    ∀ e ∈ (desks score dg moves).shared.trace,
      Listing (fun task => (intake score dg moves).requirements.get? task.id = some task.requirements)
        e.call e.reply := by
  refine Pool.act_invariant (J := fun h : History => ∀ e ∈ h.trace,
    Listing (fun task => h.state.requirements.get? task.id = some task.requirements) e.call e.reply) ?_ ?_ moves
  · rintro e ⟨⟩
  · exact fun i h env c => @listed_step dg (fun w task => w.requirements.get? task.id = some task.requirements)
      h i env c (fun _ => act_requirements c) fun _ _ => snapshots_requirements

variable {score dg} {moves : List (Move Nat Request Environment)}

theorem desks_careful {i : Nat} {c : Call} {next : c.Reply → Prog Call Call.Reply Unit}
    (h : (desks score dg moves).thread i = some (.call c next)) :
    ¬ Careless (fun task => (intake score dg moves).requirements.get? task.id = some task.requirements) c :=
  ((Pool.trace_avoids serve_careful moves (desks_listed score dg moves)).2 i _ h).1

/-- Every task has its columns, and every approval is of a task that has. -/
structure Filed (w : World) : Prop where
  columns : ∀ taskId, (w.db.tasks.get? taskId).isSome = true → (w.requirements.get? taskId).isSome = true
  approvals : ∀ id row, w.approvals.get? id = some row → ∀ taskId, row.request.taskId = some taskId →
    (w.requirements.get? taskId).isSome = true

/-- Every call that creates no bare task keeps the columns filed. -/
theorem Filed.step {w : World} (h : Filed w) {env : Environment} {c : Call}
    (hc : ∀ op, c = .runtime (.store op) → ∀ task, op ≠ .createTask task) : Filed (act dg w env c).2 := by
  have hkept : ∀ taskId, (w.requirements.get? taskId).isSome = true →
      ((act dg w env c).2.requirements.get? taskId).isSome = true := by
    intro taskId hr
    obtain ⟨r, hr⟩ := Option.isSome_iff_exists.mp hr
    rw [act_requirements c hr]
    rfl
  refine ⟨act_tasks hc h.columns, fun id row hrow taskId ht => hkept taskId ?_⟩
  rcases act_approvals hrow with hold | ⟨request, -, rfl, hforeign⟩ | ⟨verdict, old, -, -, hold, -, rfl⟩
  · exact h.approvals id row hold taskId ht
  · exact h.columns taskId (hforeign taskId ht)
  · exact h.approvals id old hold taskId ht

theorem desks_create {i : Nat} {c : Call} {next : c.Reply → Prog Call Call.Reply Unit}
    (h : (desks score dg moves).thread i = some (.call c next)) :
    ∀ op, c = .runtime (.store op) → ∀ task, op ≠ .createTask task := by
  rintro op rfl task rfl
  exact desks_careful h id

theorem initial_filed : Filed World.initial where
  columns := by rintro taskId ⟨⟩
  approvals := by rintro id row ⟨⟩

/-! ## The rule -/

variable (score dg) (moves)

/-- RED work is claimed only with an approval, and with an approval the scheduler rejects nobody for the lack of one. -/
structure RunsOnApproval : Prop where
  claimed : ∀ before i env after args claim next, moves = before ++ .step i env :: after →
    (desks score dg before).thread i = some (.call (.runtime (.store (.claimTaskDispatch args))) next) →
    (act dg (intake score dg before) env (.runtime (.store (.claimTaskDispatch args)))).1 = .ok (some claim) →
    ∀ r, (intake score dg before).requirements.get? args.taskId = some r → r.permissionClass = .red →
      (intake score dg before).Approved args.taskId
  released : ∀ before after, moves = before ++ after → ∀ taskId r,
    (intake score dg before).requirements.get? taskId = some r → r.permissionClass = .red →
    (intake score dg before).Approved taskId →
    ∀ worker, ∀ rejection ∈ hardConstraints r worker, rejection.reasonCode ≠ "HUMAN_APPROVAL_REQUIRED"

/-- A pass that lists a READY RED task that was submitted as approved finds an approval of it that is approved. -/
def ListsApproved : Prop := ∀ before i env after next, moves = before ++ .step i env :: after →
  (desks score dg before).thread i = some (.call .listTasks next) → ∀ task ∈ (intake score dg before).snapshots,
    task.row.state = .ready → task.requirements.permissionClass = .red → task.requirements.approvalState = .approved →
    (intake score dg before).Approved task.id

/-- No pending approval of RED work that was submitted otherwise is approved. -/
def ReleasesNothing : Prop := ∀ before i env after verdict next, moves = before ++ .step i env :: after →
  (desks score dg before).thread i = some (.call (.resolveApproval verdict) next) → verdict.approved = true →
  ∀ row, (intake score dg before).approvals.get? verdict.approvalId = some row → row.state = .pending →
  ∀ taskId r, row.request.taskId = some taskId → (intake score dg before).requirements.get? taskId = some r →
    ¬ Withheld r

variable {score dg} {moves}

/-- As long as no approval of withheld work is approved, no work with an approval is withheld. -/
theorem approved_not_withheld (h : ReleasesNothing score dg moves) {taskId : String} {r : TaskRequirements}
    (hr : (intake score dg moves).requirements.get? taskId = some r)
    (happroved : (intake score dg moves).Approved taskId) :
    ¬ Withheld r := by
  have hall : Filed (intake score dg moves) ∧ ∀ id row, (intake score dg moves).approvals.get? id = some row →
      row.state = .approved → ∀ taskId r, row.request.taskId = some taskId →
      (intake score dg moves).requirements.get? taskId = some r → ¬ Withheld r := by
    refine Pool.act_along (M := (machine dg).traced) (J := fun h : History => Filed h.state ∧ ∀ id row,
      h.state.approvals.get? id = some row → row.state = .approved → ∀ taskId r, row.request.taskId = some taskId →
      h.state.requirements.get? taskId = some r → ¬ Withheld r) ?_ ?_
    · exact ⟨initial_filed, fun id row h => (nomatch h)⟩
    · rintro before i env after c next hmoves hthread ⟨hfiled, hkept⟩
      refine ⟨hfiled.step (desks_create hthread), fun id row hrow happroved taskId r ht hr => ?_⟩
      -- the columns of the task were there before the call
      have hsame : ∀ {old : ApprovalRow}, (intake score dg before).approvals.get? id = some old →
          old.request.taskId = some taskId → (intake score dg before).requirements.get? taskId = some r := by
        intro old hold ht
        obtain ⟨r', hr'⟩ := Option.isSome_iff_exists.mp (hfiled.approvals id old hold taskId ht)
        have hnew : (act dg (intake score dg before) env c).2.requirements.get? taskId = some r' :=
          act_requirements c hr'
        obtain rfl := Option.some.inj (hnew.symm.trans hr)
        exact hr'
      rcases act_approvals hrow with hold | ⟨request, -, rfl, -⟩ | ⟨verdict, old, rfl, rfl, hold, hpending, rfl⟩
      · exact hkept id row hold happroved taskId r ht (hsame hold ht)
      · cases happroved
      · have hverdict : verdict.approved = true := by
          by_contra hn
          simp [ApprovalRow.resolve, hn] at happroved
        exact h before i env after verdict next hmoves hthread hverdict old hold hpending taskId r ht
          (hsame hold ht)
  obtain ⟨id, row, hrow, ht, hstate⟩ := happroved
  exact hall.2 id row hrow hstate taskId r ht hr

/-- The columns of a listed task, and the approval of it where the rule asks for one. -/
def Backed (w : World) (task : TaskSnapshot) : Prop :=
  w.requirements.get? task.id = some task.requirements ∧ (task.row.state = .ready →
    task.requirements.permissionClass = .red → task.requirements.approvalState = .approved → w.Approved task.id)

theorem Backed.act {w : World} {env : Environment} {task : TaskSnapshot} (h : Backed w task) (c : Call) :
    Backed (act dg w env c).2 task :=
  ⟨act_requirements c h.1, fun hready hred happroved => (h.2 hready hred happroved).act c⟩

theorem desks_backed (h : ListsApproved score dg moves) : ∀ e ∈ (desks score dg moves).shared.trace,
    Listing (Backed (intake score dg moves)) e.call e.reply := by
  refine Pool.act_along (M := (machine dg).traced) (J := fun h : History => ∀ e ∈ h.trace,
    Listing (Backed h.state) e.call e.reply) (by rintro e ⟨⟩) ?_
  intro before i env after c next hmoves hthread hbacked
  refine listed_step (fun task htask => htask.act c) (fun hc task htask => ?_) hbacked
  subst hc
  exact ⟨snapshots_requirements htask, h before i env after next hmoves hthread task htask⟩

/-- **RED work is claimed only with an approval**, if its passes list it with one: an approval that was given stays. -/
theorem claims_approved (h : ListsApproved score dg moves) {i : Nat} {args : DispatchArgs}
    {next : (Call.runtime (.store (.claimTaskDispatch args))).Reply → Prog Call Call.Reply Unit}
    (hthread : (desks score dg moves).thread i = some (.call (.runtime (.store (.claimTaskDispatch args))) next))
    {r : TaskRequirements} (hr : (intake score dg moves).requirements.get? args.taskId = some r)
    (hred : r.permissionClass = .red) : (intake score dg moves).Approved args.taskId := by
  obtain ⟨task, ⟨hr', happroved⟩, hid, hready, hcleared⟩ :=
    not_not.mp ((Pool.trace_avoids serve_careful moves (desks_backed h)).2 i _ hthread).1
  rw [hid, hr] at hr'
  obtain rfl := Option.some.inj hr'
  have hstate : task.requirements.approvalState = .approved := by
    by_contra hn
    exact hcleared ⟨hred, hn⟩
  exact hid ▸ happroved hready hred hstate

theorem intake_step {i : Nat} {c : Call} {next : c.Reply → Prog Call Call.Reply Unit}
    (h : (desks score dg moves).thread i = some (.call c next)) (env : Environment) :
    intake score dg (moves ++ [.step i env]) = (act dg (intake score dg moves) env c).2 := by
  rw [intake, desks, Pool.run_snoc]
  simp only [Pool.move]
  rw [show ((Pool.quiet ⟨World.initial, []⟩).run (machine dg).traced (serve score) moves).thread i = _ from h]
  rfl

end

def idleWorker : WorkerSnapshot where
  id := "w"
  provider := .local
  contextWindowTokens := none
  state := .idle
  nodeState := .online
  resourceState := .available
  capabilities := []
  codeWriteAllowed := false
  privacyAllowed := false
  qualityScore := 1
  reliabilityScore := 1
  expectedLatencySeconds := 0
  monetaryCostScore := 1

/-- **When RED work runs exactly on an approval.** Along every schedule of submissions, approvals, verdicts, dispatches
and other clients whose passes list READY RED work that was submitted as approved only with an approval: the rule holds
if and only if no pending approval of RED work that was submitted otherwise is approved. -/
theorem runs_on_approval_iff (score : Score) (dg : Digests)
    (moves : List (Move Nat Request Environment)) (hlists : ListsApproved score dg moves) :
    RunsOnApproval score dg moves ↔ ReleasesNothing score dg moves := by
  constructor
  · intro h
    rintro before i env after verdict next rfl hthread hverdict row hrow hpending taskId r ht hr hwithheld
    have hstep := intake_step hthread env
    have happroved : (intake score dg (before ++ [.step i env])).Approved taskId := by
      refine ⟨verdict.approvalId, row.resolve verdict, ?_, ht, by simp [ApprovalRow.resolve, hverdict]⟩
      rw [hstep, act_verdict hrow hpending, Table.get?_modify_self, hrow]
      rfl
    have hcolumns : (intake score dg (before ++ [.step i env])).requirements.get? taskId = some r := by
      rw [hstep]
      exact act_requirements _ hr
    obtain ⟨rejection, hmem, hreason⟩ := (withheld_iff (w := idleWorker)).mpr hwithheld
    exact h.released (before ++ [.step i env]) after (by simp) taskId r hcolumns hwithheld.1 happroved idleWorker
      rejection hmem hreason
  · intro h
    constructor
    · rintro before i env after args claim next rfl hthread - r hr hred
      have hbefore : ListsApproved score dg before :=
        fun p j env' rest next' hp => hlists p j env' (rest ++ .step i env :: after) next' (by simp [hp])
      exact claims_approved hbefore hthread hr hred
    · rintro before after rfl taskId r hr hred happroved worker rejection hmem hreason
      have hbefore : ReleasesNothing score dg before :=
        fun p i env rest verdict next hp => h p i env (rest ++ after) verdict next (by simp [hp])
      exact approved_not_withheld hbefore hr happroved (withheld_iff.mp ⟨rejection, hmem, hreason⟩)

/-! ## Two schedules that break the rule -/

def redSubmission (approvalState : ApprovalState) : TaskSubmission where
  taskId := "t"
  projectId := "p"
  reference := none
  topology := .single
  requirements := { permissionClass := .red, approvalState := approvalState, panelled := Nat.two_pos }

/-- One idle worker, and adapters that answer. -/
def readyDesk : Environment where
  runtime := { Runtime.Environment.failing with uuid := fun _ => "1", decision := ⟨[], false⟩ }
  approvalUuid := "1"
  workers := [idleWorker]
  ledger := ⟨.empty, .empty⟩
  now := 0

/-- One process with one plain adapter. -/
def deskSupervisor : Runtime.Supervisor :=
  ⟨"A", fun w => if w = "w" then some .legacy else none, 2, 1000000, 30000000, 1000000⟩

/-- A RED task is submitted, and its approval is approved. -/
def approvedMoves : List (Move Nat Request Environment) :=
  .start 0 (.submit (redSubmission .pending)) :: List.replicate 5 (.step 0 readyDesk) ++
    [.start 1 (.resolveApproval ⟨"approval-1", true, "operator", none⟩), .step 1 readyDesk]

/-- A RED task is submitted as approved, and dispatched up to its claim. -/
def assertedMoves : List (Move Nat Request Environment) :=
  .start 0 (.submit (redSubmission .approved)) :: List.replicate 4 (.step 0 readyDesk) ++
    [.start 1 (.client (.upsertWorker "w" ⟨.idle, .available, none⟩)), .step 1 readyDesk] ++
    .start 2 (.dispatch deskSupervisor none fun a b => decide (a ≤ b)) :: List.replicate 6 (.step 2 readyDesk)

/-- A RED task is submitted as approved, is approved by a human as well, and is then dispatched up to its claim. -/
def backedMoves : List (Move Nat Request Environment) :=
  .start 0 (.submit (redSubmission .approved)) :: List.replicate 4 (.step 0 readyDesk) ++
    [.start 1 (.client (.upsertWorker "w" ⟨.idle, .available, none⟩)), .step 1 readyDesk,
      .start 3 (.requestApproval ⟨"p", some "t", "red", "executeTask", "operator", none⟩), .step 3 readyDesk,
      .start 4 (.resolveApproval ⟨"approval-1", true, "operator", none⟩), .step 4 readyDesk] ++
    .start 2 (.dispatch deskSupervisor none fun a b => decide (a ≤ b)) :: List.replicate 7 (.step 2 readyDesk)

/-- Whether a program is about to list the tasks. -/
def lists : Option (Prog Call Call.Reply Unit) → Bool
  | some (.call .listTasks _) => true
  | _ => false

def verdictOf : Option (Prog Call Call.Reply Unit) → Option Verdict
  | some (.call (.resolveApproval verdict) _) => some verdict
  | _ => none

def approvedIn (w : World) (taskId : String) : Bool :=
  w.approvals.rows.any fun e => decide (e.2.request.taskId = some taskId) && decide (e.2.state = .approved)

theorem approvedIn_sound {w : World} {taskId : String} (h : approvedIn w taskId = true) : w.Approved taskId := by
  obtain ⟨⟨id, row⟩, hmem, hrow⟩ := List.any_eq_true.mp h
  simp only [Bool.and_eq_true, decide_eq_true_eq] at hrow
  exact ⟨id, row, Table.mem_rows.mp hmem, hrow⟩

/-- What the next program of a schedule is about to do keeps to both conditions of the rule. -/
def keepsRule (w : World) (p : Option (Prog Call Call.Reply Unit)) : Bool :=
  (!lists p || w.snapshots.all fun task => approvedIn w task.id) &&
    (verdictOf p).all fun _ => w.requirements.rows.all fun e => decide (e.2.approvalState = .approved)

def nextClaim : Option (Prog Call Call.Reply Unit) → Option DispatchArgs
  | some (.call (.runtime (.store (.claimTaskDispatch args))) _) => some args
  | _ => none

theorem nextClaim_eq {p : Option (Prog Call Call.Reply Unit)} {args : DispatchArgs} (h : nextClaim p = some args) :
    ∃ next, p = some (.call (.runtime (.store (.claimTaskDispatch args))) next) := by
  unfold nextClaim at h
  split at h
  · cases h
    exact ⟨_, rfl⟩
  · cases h

def granted : Except StoreError (Option DispatchClaim) → Bool
  | .ok (some _) => true
  | _ => false

theorem backedMoves_keep {before after : List (Move Nat Request Environment)} {i : Nat} {env : Environment}
    (h : backedMoves = before ++ .step i env :: after) :
    keepsRule (intake (fun _ _ _ => 0) .trivial before) ((desks (fun _ _ _ => 0) .trivial before).thread i) = true := by
  have hall : ∀ n < backedMoves.length, ∀ i < 5, keepsRule (intake (fun _ _ _ => 0) .trivial (backedMoves.take n))
      ((desks (fun _ _ _ => 0) .trivial (backedMoves.take n)).thread i) = true := by
    decide +kernel
  have hi : ∀ m ∈ backedMoves, ∀ i env, m = .step i env → i < 5 := by
    simp [backedMoves]
  have hbefore : backedMoves.take before.length = before := by simp [h]
  have hnext := hall before.length (by simp [h]) i (hi _ (by simp [h]) i env rfl)
  rwa [hbefore] at hnext

theorem backedMoves_listed : ListsApproved (fun _ _ _ => 0) .trivial backedMoves := by
  intro before i env after next hmoves hthread task htask _ _ _
  have h := backedMoves_keep hmoves
  rw [hthread] at h
  simp only [keepsRule, lists, Bool.not_true, Bool.false_or, Bool.and_eq_true, List.all_eq_true] at h
  exact approvedIn_sound (h.1 task htask)

/-- RED work that a human has approved is claimed by the schedule above, within the rule. -/
theorem runs_on_approval_backed : RunsOnApproval (fun _ _ _ => 0) .trivial backedMoves ∧
    (nextClaim ((desks (fun _ _ _ => 0) .trivial (backedMoves.take (backedMoves.length - 1))).thread 2)).isSome =
      true := by
  refine ⟨(runs_on_approval_iff (fun _ _ _ => 0) .trivial backedMoves backedMoves_listed).mpr ?_, by decide +kernel⟩
  intro before i env after verdict next hmoves hthread _ row _ _ taskId r _ hr hwithheld
  have h := backedMoves_keep hmoves
  rw [hthread] at h
  simp only [keepsRule, verdictOf, Option.all_some, Bool.and_eq_true, List.all_eq_true, decide_eq_true_eq] at h
  exact hwithheld.2 (h.2 (taskId, r) (Table.mem_rows.mpr hr))

theorem approved_still_rejected : ¬ RunsOnApproval (fun _ _ _ => 0) .trivial approvedMoves := by
  intro h
  have hr : (intake (fun _ _ _ => 0) .trivial approvedMoves).requirements.get? "t" =
      some (redSubmission .pending).requirements := rfl
  have happroved : (intake (fun _ _ _ => 0) .trivial approvedMoves).Approved "t" := ⟨"approval-1", _, rfl, rfl, rfl⟩
  obtain ⟨rejection, hmem, hreason⟩ := (withheld_iff (w := idleWorker)).mpr
    (show Withheld (redSubmission .pending).requirements from ⟨rfl, by decide⟩)
  exact h.released approvedMoves [] (by simp) "t" _ hr rfl happroved idleWorker rejection hmem hreason

theorem asserted_next : (nextClaim ((desks (fun _ _ _ => 0) .trivial assertedMoves).thread 2)).isSome = true := by
  decide +kernel

/-- The claim that the dispatcher of that schedule is about to make. -/
def assertedClaim : DispatchArgs := Option.get _ asserted_next

theorem asserted_claimed : ¬ RunsOnApproval (fun _ _ _ => 0) .trivial (assertedMoves ++ [.step 2 readyDesk]) := by
  intro h
  obtain ⟨next, hthread⟩ := nextClaim_eq (Option.some_get asserted_next).symm
  have hgranted : granted (act .trivial (intake (fun _ _ _ => 0) .trivial assertedMoves) readyDesk
      (.runtime (.store (.claimTaskDispatch assertedClaim)))).1 = true := by
    decide +kernel
  have hred : ((intake (fun _ _ _ => 0) .trivial assertedMoves).requirements.get? assertedClaim.taskId).map
      (·.permissionClass) = some .red := by
    decide +kernel
  have hnone : (intake (fun _ _ _ => 0) .trivial assertedMoves).approvals.rows = [] := by
    decide +kernel
  obtain ⟨r, hr, hclass⟩ := Option.map_eq_some_iff.mp hred
  obtain ⟨claim, hclaim⟩ : ∃ claim, (act .trivial (intake (fun _ _ _ => 0) .trivial assertedMoves) readyDesk
      (.runtime (.store (.claimTaskDispatch assertedClaim)))).1 = .ok (some claim) := by
    unfold granted at hgranted
    split at hgranted
    · rename_i claim heq
      exact ⟨claim, heq⟩
    · cases hgranted
  obtain ⟨id, row, hrow, -⟩ := h.claimed assertedMoves 2 readyDesk [] assertedClaim claim next rfl hthread hclaim r hr
    hclass
  have hmem := Table.mem_rows.mpr hrow
  rw [hnone] at hmem
  cases hmem

/-- Both halves of the rule are broken: an approval releases nothing, and none is needed for work that was submitted as
approved. -/
theorem approval_rule_broken : ¬ RunsOnApproval (fun _ _ _ => 0) .trivial approvedMoves ∧
    ¬ RunsOnApproval (fun _ _ _ => 0) .trivial (assertedMoves ++ [.step 2 readyDesk]) :=
  ⟨approved_still_rejected, asserted_claimed⟩

/-! ## Decisions -/

section

variable {dg : Digests} {w : World} {env : Environment}

/-- What no call takes back: the columns of a task, what an approval asks for, and how it was resolved. -/
structure Decided (w w' : World) : Prop where
  tasks : ∀ taskId row, w.db.tasks.get? taskId = some row → ∃ row', w'.db.tasks.get? taskId = some row' ∧
    row'.projectId = row.projectId ∧ row'.reference = row.reference ∧ row'.topology = row.topology
  requirements : ∀ taskId r, w.requirements.get? taskId = some r → w'.requirements.get? taskId = some r
  approvals : ∀ id row, w.approvals.get? id = some row → ∃ row', w'.approvals.get? id = some row' ∧
    row'.request = row.request ∧ (row.state ≠ .pending → row' = row)

theorem Decided.refl (w : World) : Decided w w :=
  ⟨fun _ row h => ⟨row, h, rfl, rfl, rfl⟩, fun _ _ h => h, fun _ row h => ⟨row, h, rfl, fun _ => rfl⟩⟩

theorem Decided.trans {a b c : World} (h : Decided a b) (h' : Decided b c) : Decided a c := by
  refine ⟨fun taskId row hrow => ?_, fun taskId r hr => h'.requirements taskId r (h.requirements taskId r hr),
    fun id row hrow => ?_⟩
  · obtain ⟨row', hrow', hproject, hreference, htopology⟩ := h.tasks taskId row hrow
    obtain ⟨row'', hrow'', hproject', hreference', htopology'⟩ := h'.tasks taskId row' hrow'
    exact ⟨row'', hrow'', hproject'.trans hproject, hreference'.trans hreference, htopology'.trans htopology⟩
  · obtain ⟨row', hrow', hrequest, hsame⟩ := h.approvals id row hrow
    obtain ⟨row'', hrow'', hrequest', hsame'⟩ := h'.approvals id row' hrow'
    refine ⟨row'', hrow'', hrequest'.trans hrequest, fun hresolved => ?_⟩
    obtain rfl := hsame hresolved
    exact hsame' hresolved

/-- No operation changes the project, the reference or the topology of a task. -/
theorem update_columns {db : Db} {t : String} {a b : TaskRow} {op : StoreOp} (h : TaskUpdate dg db t a op b) :
    b.projectId = a.projectId ∧ b.reference = a.reference ∧ b.topology = a.topology := by
  cases h <;> exact ⟨rfl, rfl, rfl⟩

/-- A task stays, in its project and with its topology. -/
theorem act_task (c : Call) {taskId : String} {row : TaskRow} (h : w.db.tasks.get? taskId = some row) :
    ∃ row', (act dg w env c).2.db.tasks.get? taskId = some row' ∧ row'.projectId = row.projectId ∧
      row'.reference = row.reference ∧ row'.topology = row.topology := by
  cases c with
  | createTask task requirements =>
    refine ⟨row, ?_, rfl, rfl, rfl⟩
    rcases act_createTask dg w env task requirements with ⟨tasks, world, -, hi, hdb, hact⟩ | ⟨e, world, -, hdb, hact⟩
    · have hne : taskId ≠ task.id := by
        rintro rfl
        rw [Table.insert?_fresh hi] at h
        cases h
      rw [hact]
      change world.db.tasks.get? taskId = some row
      rw [hdb, Table.get?_insert hi, if_neg hne, h]
    · rw [hact]
      change world.db.tasks.get? taskId = some row
      rw [hdb, h]
  | runtime c =>
    rcases Runtime.act_db dg w.runtime env.runtime c with hdb | ⟨op, clock, uuid, r, rfl, hexec⟩
    · exact ⟨row, (congrArg (fun db : Db => db.tasks.get? taskId) hdb).trans h, rfl, rfl, rfl⟩
    · obtain ⟨row', hrow', hu⟩ := exec_tasks_some hexec h
      exact ⟨row', hrow', update_columns hu⟩
  | _ => exact ⟨row, h, rfl, rfl, rfl⟩

/-- **Decisions are final.** Whatever is submitted, dispatched, requested and resolved later, a task stays in its
project, with its reference, its topology and its requirements, and an approval that was resolved stays as it was
resolved. -/
theorem decisions_final (score : Score) (dg : Digests)
    (moves later : List (Move Nat Request Environment)) :
    Decided (intake score dg moves) (intake score dg (moves ++ later)) := by
  unfold intake desks
  rw [Pool.run_append]
  generalize (Pool.quiet (⟨World.initial, []⟩ : History)).run (machine dg).traced (serve score) moves = pool
  refine Pool.act_invariant (J := fun h : History => Decided pool.shared.state h.state) (.refl _) ?_ later
  exact fun i s env c h => h.trans ⟨fun _ _ => act_task c, fun _ _ => act_requirements c, fun _ _ => act_approval c⟩

end

end AgentFabric.Intake
