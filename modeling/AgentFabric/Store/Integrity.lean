import AgentFabric.Store.Collection
import Mathlib.Data.List.Induction

/-!
# The integrity of the store

What every sequence of operations keeps between the rows of the store.
-/

namespace AgentFabric.Store

open AgentFabric.Lib

variable {dg : Digests} {op : StoreOp} {db db' : Db} {r : op.Reply} {t runId : String}

/-! ## Versions of tasks -/

/-- An operation that changes a task counts its version. -/
theorem TaskUpdate.version {a b : TaskRow} (h : TaskUpdate dg db t a op b) : b = a ∨ b.version = a.version + 1 := by
  cases h with
  | same => exact Or.inl rfl
  | _ => exact Or.inr rfl

theorem runOps_version {a : TaskRow} (later : List StoreOp) (ha : db.tasks.get? t = some a) :
    ∃ b, (runOps dg db later).tasks.get? t = some b ∧ a.version ≤ b.version ∧ (b.version = a.version → b = a) := by
  induction later generalizing db a with
  | nil => exact ⟨a, ha, le_rfl, fun _ => rfl⟩
  | cons op later ih =>
    have hstep : ∃ b, (apply dg db op).tasks.get? t = some b ∧ (b = a ∨ b.version = a.version + 1) := by
      rcases apply_cases dg db op with hsame | ⟨r, hexec⟩
      · rw [hsame]
        exact ⟨a, ha, Or.inl rfl⟩
      · obtain ⟨b, hb, hu⟩ := exec_tasks_some hexec ha
        exact ⟨b, hb, hu.version⟩
    obtain ⟨b, hb, hu⟩ := hstep
    obtain ⟨c, hc, hle, hsame⟩ := ih hb
    rcases hu with rfl | hcounted
    · exact ⟨c, hc, hle, hsame⟩
    · exact ⟨c, hc, by omega, fun h => by omega⟩

theorem transition_expected {a : TaskRow} {target : TaskState} {version : Nat} {lease : LeaseArgs}
    {clock : Clock} {u : Unit}
    (ha : db.tasks.get? t = some a) (h : transitionTask db t target (some version) lease clock = .ok (u, db')) :
    a.version = version ∧ db'.tasks.get? t = some (a.transition target (timestamp clock.now)) := by
  simp only [transitionTask, bind_eq_ok, ensure_eq_ok, orRaise_eq_ok, require_eq_ok, pure_eq_ok, Prod.mk.injEq] at h
  obtain ⟨row, hr, -, -, -, -, -, hversion, -, rfl⟩ := h
  rw [ha] at hr
  cases hr
  exact ⟨by simpa using hversion, by simp [ha]⟩

/-- **No update of a task is lost.** Whatever is done after a task was read, a transition or a dispatch that is
committed for the version that was read finds the row that was read. -/
theorem task_versions (dg : Digests) (db : Db) (t : String) (a : TaskRow) (ha : db.tasks.get? t = some a)
    (later : List StoreOp) : ∃ b, (runOps dg db later).tasks.get? t = some b ∧ a.version ≤ b.version ∧
      (b.version = a.version → b = a) ∧
      (∀ target lease clock u db', exec dg (.transitionTask t target (some a.version) lease clock)
        (runOps dg db later) =
        .ok (u, db') → b = a ∧ db'.tasks.get? t = some (a.transition target (timestamp clock.now))) ∧
      ∀ args claim db', args.taskId = t → args.expectedVersion = a.version →
        exec dg (.claimTaskDispatch args) (runOps dg db later) = .ok (some claim, db') →
        b = a ∧ db'.tasks.get? t = some (a.claim (timestamp args.now)) := by
  obtain ⟨b, hb, hle, hsame⟩ := runOps_version later ha
  refine ⟨b, hb, hle, hsame, fun target lease clock u db' hexec => ?_, fun args claim db' ht hv hexec => ?_⟩
  · obtain ⟨hversion, hrow⟩ := transition_expected hb hexec
    obtain rfl := hsame hversion
    exact ⟨rfl, hrow⟩
  · subst ht
    obtain ⟨hnone, -⟩ | ⟨task, _, htask, -, hversion, -, -, -, -, -, -, rfl⟩ := claimTaskDispatch_ok hexec
    · cases hnone
    · rw [hb] at htask
      cases htask
      obtain rfl := hsame (hversion.trans hv)
      exact ⟨rfl, by simp [hb]⟩

theorem task_versions_cancelled : ∃ b,
    (runOps .trivial (runOps .trivial Db.initial readyTask) [.cancelTaskExecution "t" 0]).tasks.get? "t" = some b ∧
      1 ≤ b.version := by
  obtain ⟨b, hb, hle, -⟩ := task_versions .trivial (runOps .trivial Db.initial readyTask) "t"
    ⟨"p", "#0001", .ready, .single, 0, 1, 1, none, none, none⟩ (by decide) [.cancelTaskExecution "t" 0]
  exact ⟨b, hb, hle⟩

/-! ## Provider jobs -/

/-- The job of a run; once it names a provider job it is never launched again. -/
structure JobOf (runId : String) (run : RunRow) (job : JobRow) : Prop where
  taskId : job.taskId = run.taskId
  workerId : job.workerId = run.workerId
  key : job.idempotencyKey = idempotencyKey runId
  identified : truthy job.handle.providerJobId = true → job.launchState ≠ .prepared ∧ job.launchState ≠ .launching

def JobsBelong (db : Db) : Prop :=
  ∀ id job, db.jobs.get? id = some job → ∃ run, db.runs.get? id = some run ∧ JobOf id run job

/-- What an operation keeps of a job that names a provider job. -/
theorem JobUpdate.identified {a b : JobRow} (h : JobUpdate db runId a op b)
    (ha : truthy a.handle.providerJobId = true → a.launchState ≠ .prepared ∧ a.launchState ≠ .launching) :
    (truthy b.handle.providerJobId = true → b.launchState ≠ .prepared ∧ b.launchState ≠ .launching) ∧
    (truthy a.handle.providerJobId = true → b.handle = a.handle) := by
  cases h with
  | same => exact ⟨ha, fun _ => rfl⟩
  | launching lease clock hs => exact ⟨fun h => absurd hs (ha h).1, fun _ => rfl⟩
  | bound adapterType adapterInstanceId handle lease clock hb =>
    refine ⟨fun _ => by simp [JobRow.bind], fun h => ?_⟩
    have hstate := ha h
    simp [JobRow.bindable, h, hstate] at hb
  | observed state =>
    refine ⟨fun h => ?_, fun _ => rfl⟩
    have hstate := ha h
    have hid : truthy a.handle.providerJobId = true := h
    cases state <;> simp [JobRow.observe, JobRow.observedLaunchState, hid, hstate]
  | collected | finalized => exact ⟨fun _ => by simp [JobRow.collect], fun _ => rfl⟩
  | cancelled =>
    refine ⟨fun _ => ?_, fun _ => rfl⟩
    unfold JobRow.cancel
    dsimp only
    split <;> simp
  | missing => exact ⟨fun _ => by simp [JobRow.missing], fun _ => rfl⟩

/-- Every operation keeps that jobs belong to runs. -/
theorem exec_jobsBelong (h : exec dg op db = .ok (r, db')) (hold : JobsBelong db) : JobsBelong db' := by
  intro id job hjob
  cases ha : db.jobs.get? id with
  | some a =>
    obtain ⟨run, hrun, hof⟩ := hold id a ha
    obtain ⟨b, hb, hu⟩ := exec_jobs_some h ha
    obtain ⟨run', hrun', hrunu⟩ := exec_runs_some h hrun
    rw [hjob] at hb
    cases hb
    obtain ⟨htask, hworker, -, -, -, hkey, -⟩ := hu.intent
    refine ⟨run', hrun', ?_, ?_, hkey.trans hof.key, (hu.identified hof.identified).1⟩
    · rw [htask, hof.taskId, hrunu.ident.1]
    · rw [hworker, hof.workerId, hrunu.ident.2.1]
  | none =>
    obtain ⟨_, _, _, _, _, _, run, rfl, hrun, -, rfl⟩ := exec_jobs_none h ha hjob
    obtain ⟨run', hrun', hrunu⟩ := exec_runs_some h hrun
    refine ⟨run', hrun', hrunu.ident.1.symm, hrunu.ident.2.1.symm, rfl, ?_⟩
    simp [preparedJob, JobHandle.unbound, truthy]

theorem runOps_jobsBelong (ops : List StoreOp) : JobsBelong (runOps dg Db.initial ops) :=
  runOps_invariant exec_jobsBelong (fun id job h => by simp [Db.initial] at h) ops

theorem runOps_identity {a : JobRow} (later : List StoreOp) (hold : JobsBelong db) (ha : db.jobs.get? runId = some a) :
    ∃ b, (runOps dg db later).jobs.get? runId = some b ∧ b.idempotencyKey = a.idempotencyKey ∧
      b.adapterInstanceId = a.adapterInstanceId ∧ b.capabilities = a.capabilities ∧
      (truthy a.handle.providerJobId = true → b.handle = a.handle ∧ b.launchState ≠ .prepared ∧
        b.launchState ≠ .launching) := by
  induction later generalizing db a with
  | nil =>
    obtain ⟨run, -, hof⟩ := hold runId a ha
    exact ⟨a, ha, rfl, rfl, rfl, fun h => ⟨rfl, hof.identified h⟩⟩
  | cons op later ih =>
    rcases apply_cases dg db op with hsame | ⟨r, hexec⟩
    · rw [runOps_cons, hsame]
      exact ih hold ha
    · obtain ⟨b, hb, hu⟩ := exec_jobs_some hexec ha
      obtain ⟨run, -, hof⟩ := hold runId a ha
      obtain ⟨c, hc, hkey, hinstance, hcapabilities, hhandle⟩ := ih (exec_jobsBelong hexec hold) hb
      obtain ⟨-, -, -, hinstance', -, hkey', hcapabilities'⟩ := hu.intent
      refine ⟨c, hc, hkey.trans hkey', hinstance.trans hinstance', hcapabilities.trans hcapabilities', fun h => ?_⟩
      have hsame := (hu.identified hof.identified).2 h
      rw [hsame] at hhandle
      exact hhandle h

/-- **Provider jobs.** In every state reached by store operations a provider job belongs to a run of its task and its
worker, no two share an idempotency key, and whatever is done later, a provider job that is named once stays named and
is never prepared or marked for launch again. -/
theorem provider_jobs (dg : Digests) (ops : List StoreOp) :
    JobsBelong (runOps dg Db.initial ops) ∧
    (∀ id id' job job', (runOps dg Db.initial ops).jobs.get? id = some job →
      (runOps dg Db.initial ops).jobs.get? id' = some job' → job.idempotencyKey = job'.idempotencyKey → id = id') ∧
    ∀ id job, (runOps dg Db.initial ops).jobs.get? id = some job → ∀ later,
      ∃ job', (runOps dg (runOps dg Db.initial ops) later).jobs.get? id = some job' ∧
        job'.idempotencyKey = job.idempotencyKey ∧ job'.adapterInstanceId = job.adapterInstanceId ∧
        job'.capabilities = job.capabilities ∧
        (truthy job.handle.providerJobId = true → job'.handle = job.handle ∧ job'.launchState ≠ .prepared ∧
          job'.launchState ≠ .launching) := by
  refine ⟨runOps_jobsBelong ops, fun id id' job job' h h' hkey => ?_, fun id job h later =>
    runOps_identity later (runOps_jobsBelong ops) h⟩
  obtain ⟨_, -, hof⟩ := runOps_jobsBelong ops id job h
  obtain ⟨_, -, hof'⟩ := runOps_jobsBelong ops id' job' h'
  exact (String.append_right_inj _).mp (hof.key.symm.trans (hkey.trans hof'.key))

/-! ## Escalations -/

def OpenEscalation (db : Db) (runId : String) : Prop :=
  ∃ id e, db.escalations.get? id = some e ∧ e.runId = runId ∧ e.state = .opened

/-- Every escalation belongs to the job of its run. -/
def Owned (db : Db) : Prop :=
  ∀ id e, db.escalations.get? id = some e → ∃ job, db.jobs.get? e.runId = some job ∧ e.providerJobId = job.id

theorem JobUpdate.id {id : String} {a b : JobRow} (h : JobUpdate db id a op b) : b.id = a.id := by
  cases h <;> rfl

theorem exec_jobId (h : exec dg op db = .ok (r, db')) {job : JobRow} (hjob : db.jobs.get? runId = some job) :
    ∃ job', db'.jobs.get? runId = some job' ∧ job'.id = job.id := by
  obtain ⟨job', hjob', hu⟩ := exec_jobs_some h hjob
  exact ⟨job', hjob', hu.id⟩

def newEscalation (job : JobRow) (runId : String) (code : EscalationCode) (clock : Clock) : EscalationRow :=
  { taskId := job.taskId, runId := runId, providerJobId := job.id, code := code, state := .opened,
    createdAt := timestamp clock.now }

theorem request_ok {uuid : String} {code : EscalationCode} {lease : HeldLease} {clock : Clock} {id : String}
    (h : requestExecutionEscalation db runId code lease uuid clock = .ok (id, db')) :
    ∃ job, db.jobs.get? runId = some job ∧
      leaseCurrent db job.taskId lease.owner lease.generation (timestamp clock.lease) = true ∧
      (db' = db ∨ ∃ escalations, db.escalations.insert? ("escalation-" ++ uuid) (newEscalation job runId code clock) =
        some escalations ∧ db' = { db with escalations := escalations }) := by
  simp only [requestExecutionEscalation, bind_eq_ok, fencedJob_ok] at h
  obtain ⟨job, ⟨hj, hl⟩, h⟩ := h
  refine ⟨job, hj, hl, ?_⟩
  split at h
  · cases h
    exact Or.inl rfl
  · simp only [bind_eq_ok, orRaise_eq_ok, pure_eq_ok, Prod.mk.injEq] at h
    obtain ⟨escalations, hinsert, -, rfl⟩ := h
    exact Or.inr ⟨escalations, hinsert, rfl⟩

theorem resolve_ok {codes : Option (List EscalationCode)} {lease : HeldLease} {clock n : Nat}
    (h : resolveExecutionEscalations db runId codes lease clock = .ok (n, db')) :
    ∃ job, db.jobs.get? runId = some job ∧ db' = { db with
      escalations := db.escalations.updateWhere
        (fun _ e => selectedEscalation job codes e) EscalationRow.resolve } := by
  simp only [resolveExecutionEscalations, bind_eq_ok, fencedJob_ok, pure_eq_ok, Prod.mk.injEq] at h
  obtain ⟨job, ⟨hj, -⟩, -, rfl⟩ := h
  exact ⟨job, hj, rfl⟩

theorem get?_resolve {job : JobRow} {codes : Option (List EscalationCode)} {id : String} {e : EscalationRow}
    (h : (db.escalations.updateWhere (fun _ e => selectedEscalation job codes e) EscalationRow.resolve).get? id =
      some e) :
    ∃ old, db.escalations.get? id = some old ∧ e.runId = old.runId ∧ e.providerJobId = old.providerJobId ∧
      (e.state = .opened → old.state = .opened ∧ selectedEscalation job codes old = false) := by
  rw [Table.get?_updateWhere] at h
  obtain ⟨old, hold, rfl⟩ := Option.map_eq_some_iff.mp h
  refine ⟨old, hold, ?_⟩
  cases hs : selectedEscalation job codes old with
  | true => simp [EscalationRow.resolve]
  | false => simp

/-- Every operation keeps that escalations belong to jobs. -/
theorem exec_owned (h : exec dg op db = .ok (r, db')) (hold : Owned db) : Owned db' := by
  -- an escalation that was there keeps its job
  have hkept : ∀ e : EscalationRow, (∃ job, db.jobs.get? e.runId = some job ∧ e.providerJobId = job.id) →
      ∃ job, db'.jobs.get? e.runId = some job ∧ e.providerJobId = job.id := by
    rintro e ⟨job, hjob, hid⟩
    obtain ⟨job', hjob', hid'⟩ := exec_jobId h hjob
    exact ⟨job', hjob', hid.trans hid'.symm⟩
  intro id e he
  by_cases hw : op.writesEscalations = false
  · rw [(exec_frame h).escalations hw] at he
    exact hkept e (hold id e he)
  · apply hkept e
    cases op with
    | requestExecutionEscalation k code lease uuid clock =>
      obtain ⟨job, hjob, -, rfl | ⟨escalations, hinsert, rfl⟩⟩ := request_ok h
      · exact hold id e he
      · rw [Table.get?_insert hinsert] at he
        split at he
        · obtain rfl := Option.some.inj he
          exact ⟨job, hjob, rfl⟩
        · exact hold id e he
    | resolveExecutionEscalations k codes lease clock =>
      obtain ⟨job, -, rfl⟩ := resolve_ok h
      obtain ⟨old, hold', hrun, hid, -⟩ := get?_resolve he
      rw [hrun, hid]
      exact hold id old hold'
    | _ => exact absurd rfl hw

/-- The operation requests an escalation of the run, under a lease that is current. -/
def RequestsEscalation (db : Db) (runId : String) (op : StoreOp) : Prop :=
  ∃ code lease uuid clock job, op = .requestExecutionEscalation runId code lease uuid clock ∧
    db.jobs.get? runId = some job ∧
    leaseCurrent db job.taskId lease.owner lease.generation (timestamp clock.lease) = true

/-- What is open after an operation was open before, or has just been requested. -/
theorem exec_open (h : exec dg op db = .ok (r, db')) (hopen : OpenEscalation db' runId) :
    OpenEscalation db runId ∨ RequestsEscalation db runId op := by
  obtain ⟨id, e, he, hrun, hstate⟩ := hopen
  by_cases hw : op.writesEscalations = false
  · left
    rw [(exec_frame h).escalations hw] at he
    exact ⟨id, e, he, hrun, hstate⟩
  · cases op with
    | requestExecutionEscalation k code lease uuid clock =>
      obtain ⟨job, hjob, hlease, rfl | ⟨escalations, hinsert, rfl⟩⟩ := request_ok h
      · exact Or.inl ⟨id, e, he, hrun, hstate⟩
      · rw [Table.get?_insert hinsert] at he
        split at he
        · obtain rfl := Option.some.inj he
          obtain rfl : k = runId := hrun
          exact Or.inr ⟨code, lease, uuid, clock, job, rfl, hjob, hlease⟩
        · exact Or.inl ⟨id, e, he, hrun, hstate⟩
    | resolveExecutionEscalations k codes lease clock =>
      obtain ⟨job, -, rfl⟩ := resolve_ok h
      obtain ⟨old, hold, hrun', -, hopened⟩ := get?_resolve he
      exact Or.inl ⟨id, old, hold, hrun'.symm.trans hrun, (hopened hstate).1⟩
    | _ => exact absurd rfl hw

theorem resolve_closes {lease : HeldLease} {clock : Nat} {n : Nat} (hold : Owned db)
    (h : exec dg (.resolveExecutionEscalations runId none lease clock) db = .ok (n, db')) :
    ¬ OpenEscalation db' runId := by
  rintro ⟨id, e, he, hrun, hstate⟩
  obtain ⟨job, hjob, rfl⟩ := resolve_ok h
  obtain ⟨old, hold', hrun', -, hopened⟩ := get?_resolve he
  obtain ⟨hstate', hunselected⟩ := hopened hstate
  obtain ⟨job', hjob', hid⟩ := hold id old hold'
  rw [← hrun', hrun] at hjob'
  obtain rfl := Option.some.inj (hjob.symm.trans hjob')
  simp [selectedEscalation, hid, hstate'] at hunselected

theorem runOps_owned (ops : List StoreOp) : Owned (runOps dg Db.initial ops) :=
  runOps_invariant exec_owned (fun id e h => by simp [Db.initial] at h) ops

/-- The operation commits a resolution of every escalation of the run. -/
def ResolvesAll (dg : Digests) (db : Db) (runId : String) (op : StoreOp) : Prop :=
  ∃ lease clock n db', op = .resolveExecutionEscalations runId none lease clock ∧
    exec dg (.resolveExecutionEscalations runId none lease clock) db = .ok (n, db')

theorem not_open_of_resolves (hold : Owned db) (h : ResolvesAll dg db runId op) :
    ¬ OpenEscalation (apply dg db op) runId := by
  obtain ⟨lease, clock, n, db', rfl, hexec⟩ := h
  have happly : apply dg db (.resolveExecutionEscalations runId none lease clock) = db' := by simp [apply, hexec]
  rw [happly]
  exact resolve_closes hold hexec

/-- An open escalation was requested, and no later operation has resolved all escalations of the run. -/
theorem open_requested (ops : List StoreOp) (hopen : OpenEscalation (runOps dg Db.initial ops) runId) :
    ∃ before op after, ops = before ++ op :: after ∧ RequestsEscalation (runOps dg Db.initial before) runId op ∧
      ∀ mid op' post, after = mid ++ op' :: post →
        ¬ ResolvesAll dg (runOps dg Db.initial (before ++ op :: mid)) runId op' := by
  induction ops using List.reverseRecOn with
  | nil =>
    obtain ⟨id, e, he, -⟩ := hopen
    simp [Db.initial] at he
  | append_singleton ops last ih =>
    rw [runOps_append, runOps_cons, runOps_nil] at hopen
    have hunresolved : ¬ ResolvesAll dg (runOps dg Db.initial ops) runId last :=
      fun h => not_open_of_resolves (runOps_owned ops) h hopen
    have hcases : OpenEscalation (runOps dg Db.initial ops) runId ∨
        RequestsEscalation (runOps dg Db.initial ops) runId last := by
      rcases apply_cases dg (runOps dg Db.initial ops) last with hsame | ⟨r, hexec⟩
      · rw [hsame] at hopen
        exact Or.inl hopen
      · exact exec_open hexec hopen
    rcases hcases with hbefore | hrequest
    · obtain ⟨before, op, after, rfl, hrequest, hkept⟩ := ih hbefore
      refine ⟨before, op, after ++ [last], by simp, hrequest, fun mid op' post hsplit => ?_⟩
      rcases List.eq_nil_or_concat post with rfl | ⟨post, x, rfl⟩
      · obtain ⟨rfl, hlast⟩ := List.append_inj' hsplit rfl
        cases hlast
        exact hunresolved
      · rw [List.concat_eq_append, ← List.cons_append, ← List.append_assoc] at hsplit
        exact hkept mid op' post (List.append_inj' hsplit rfl).1
    · exact ⟨ops, last, [], rfl, hrequest, fun mid _ _ hsplit => by cases mid <;> cases hsplit⟩

/-- **Escalations.** In every state reached by store operations, every escalation belongs to the provider job of its
run, and an open one was requested by an earlier operation under a lease that was current, with no later operation that
has resolved all escalations of the run. -/
theorem escalations_requested (dg : Digests) (ops : List StoreOp) : Owned (runOps dg Db.initial ops) ∧
    ∀ runId, OpenEscalation (runOps dg Db.initial ops) runId → ∃ before op after, ops = before ++ op :: after ∧
      RequestsEscalation (runOps dg Db.initial before) runId op ∧ ∀ mid op' post, after = mid ++ op' :: post →
        ¬ ResolvesAll dg (runOps dg Db.initial (before ++ op :: mid)) runId op' :=
  ⟨runOps_owned ops, fun _ => open_requested ops⟩

/-- A run whose provider job is escalated. -/
def escalatedRun : List StoreOp :=
  cancelledRun ++ [.requestExecutionEscalation "run-1" .externalJobUnreachable ⟨"A", 1⟩ "1" ⟨0, 0⟩]

theorem escalations_requested_once : ∃ before op after, escalatedRun = before ++ op :: after ∧
    RequestsEscalation (runOps .trivial Db.initial before) "run-1" op := by
  obtain ⟨before, op, after, hsplit, hrequest, -⟩ := (escalations_requested .trivial escalatedRun).2 "run-1"
    ⟨"escalation-1", _, rfl, by decide, by decide⟩
  exact ⟨before, op, after, hsplit, hrequest⟩

/-! ## Recovery -/

variable {taskIds : Option (List String)} {now : Nat} {id : String}

/-- The database after a recovery. -/
def recoveredDb (db : Db) (taskIds : Option (List String)) (now : Nat) : Db where
  __ := db
  runs := recoveredRuns db taskIds now
  workers := recoveredWorkers db taskIds now
  tasks := db.tasks.updateWhere (interruptibleTask db taskIds now) fun task => task.withState .interrupted
  leases := db.leases.updateWhere
    (fun taskId lease => recoveredTask db taskIds now taskId && decide (lease.state = .active)) LeaseRow.release

theorem recoveredTask_unleased (h : recoveredTask db taskIds now t = true) : leaseLive db t now = false := by
  simp only [recoveredTask, Bool.or_eq_true, Table.any_eq_true, Option.any_eq_true, interruptibleRun, interruptibleTask,
    Bool.and_eq_true, Bool.not_eq_true', decide_eq_true_eq] at h
  rcases h with ⟨_, run, -, ⟨⟨⟨⟨-, hlease⟩, -⟩, -⟩, rfl⟩⟩ | ⟨_, -, ⟨⟨-, hlease⟩, -⟩, -⟩
  · exact hlease
  · exact hlease

theorem leaseLive_recovered : leaseLive (recoveredDb db taskIds now) t now = leaseLive db t now := by
  cases hl : db.leases.get? t with
  | none => simp [leaseLive, recoveredDb, Table.get?_updateWhere, hl]
  | some lease =>
    cases hr : recoveredTask db taskIds now t with
    | false => simp [leaseLive, recoveredDb, Table.get?_updateWhere, hl, hr]
    | true =>
      rw [recoveredTask_unleased hr]
      have hunleased := recoveredTask_unleased hr
      simp only [leaseLive, hl, LeaseRow.live] at hunleased
      by_cases hs : lease.state = .active
      · simp [leaseLive, recoveredDb, Table.get?_updateWhere, hl, hr, hs, LeaseRow.live, LeaseRow.release]
      · simp [leaseLive, recoveredDb, Table.get?_updateWhere, hl, hr, hs, LeaseRow.live]

theorem interruptibleRun_recovered {run : RunRow} (h : (recoveredDb db taskIds now).runs.get? id = some run) :
    interruptibleRun (recoveredDb db taskIds now) taskIds now id run = false := by
  have hjob : hasLaunchedJob (recoveredDb db taskIds now) id = hasLaunchedJob db id := rfl
  simp only [recoveredDb, recoveredRuns, Table.get?_updateWhere, Option.map_eq_some_iff] at h
  obtain ⟨old, -, rfl⟩ := h
  rw [interruptibleRun, leaseLive_recovered, hjob]
  split
  · simp [RunRow.interrupt, RunState.active]
  · next hkept => simpa [interruptibleRun] using hkept

theorem hasProtectedRun_recovered (h : hasProtectedRun db t = true) :
    hasProtectedRun (recoveredDb db taskIds now) t = true := by
  obtain ⟨runId, run, hrun, hp⟩ := Table.any_eq_true.mp h
  refine Table.any_eq_true.mpr ⟨runId, run, ?_, hp⟩
  simp only [Bool.and_eq_true] at hp
  simp [recoveredDb, recoveredRuns, Table.get?_updateWhere, hrun, interruptibleRun, hp.2]

theorem interruptibleTask_recovered {task : TaskRow} (h : (recoveredDb db taskIds now).tasks.get? t = some task) :
    interruptibleTask (recoveredDb db taskIds now) taskIds now t task = false := by
  simp only [recoveredDb, Table.get?_updateWhere, Option.map_eq_some_iff] at h
  obtain ⟨old, -, rfl⟩ := h
  rw [interruptibleTask, leaseLive_recovered]
  split
  · simp [TaskRow.withState]
  · next hkept =>
    cases hp : hasProtectedRun db t with
    | true => simp [hasProtectedRun_recovered hp]
    | false =>
      simp only [interruptibleTask, hp, Bool.not_false, Bool.and_true, Bool.not_eq_true] at hkept
      rw [Bool.and_right_comm, hkept, Bool.false_and]

theorem recovered_again (db : Db) (taskIds : Option (List String)) (clock : Nat) :
    recoverInterrupted (recoveredDb db taskIds (timestamp clock)) taskIds clock =
      .ok ((0, 0), recoveredDb db taskIds (timestamp clock)) := by
  generalize hdb : recoveredDb db taskIds (timestamp clock) = db'
  have hruns : ∀ id run, db'.runs.get? id = some run →
    interruptibleRun db' taskIds (timestamp clock) id run = false := by
    subst hdb
    exact fun _ _ => interruptibleRun_recovered
  have htasks : ∀ t task, db'.tasks.get? t = some task →
      interruptibleTask db' taskIds (timestamp clock) t task = false := by
    subst hdb
    exact fun _ _ => interruptibleTask_recovered
  have hnone : ∀ p : RunRow → Bool,
      (db'.runs.any fun id run => interruptibleRun db' taskIds (timestamp clock) id run && p run) = false := fun p =>
    Table.any_eq_false.mpr fun id run hrun => by simp [hruns id run hrun]
  have hreleased : ∀ t lease, db'.leases.get? t = some lease →
      (recoveredTask db' taskIds (timestamp clock) t && decide (lease.state = .active)) = false := by
    intro t lease _
    have htask : ((db'.tasks.get? t).any fun task => interruptibleTask db' taskIds (timestamp clock) t task) =
      false := by
      cases ht : db'.tasks.get? t with
      | none => rfl
      | some task => exact htasks t task ht
    rw [recoveredTask, hnone fun run => decide (run.taskId = t), htask]
    rfl
  have hworkers : recoveredWorkers db' taskIds (timestamp clock) = db'.workers :=
    Table.updateWhere_of_none _ fun w _ _ => by rw [hnone fun run => decide (run.workerId = w), Bool.false_and]
  simp only [recoverInterrupted, recoveredRuns, hworkers, Table.updateWhere_of_none _ hruns,
    Table.updateWhere_of_none _ htasks, Table.updateWhere_of_none _ hreleased, Table.keysWhere_of_none hruns,
    Table.keysWhere_of_none htasks, List.length_nil]

/-- **Recovery.** A recovery leaves alone what is under a live lease or has a launched provider job, interrupts all
other active work in its scope, and finds nothing to do when it is repeated. -/
theorem recovery_settles (db : Db) (taskIds : Option (List String)) (clock : Nat) :
    ∃ counts db', recoverInterrupted db taskIds clock = .ok (counts, db') ∧
      (∀ id run, db.runs.get? id = some run →
        leaseLive db run.taskId (timestamp clock) = true ∨ hasLaunchedJob db id = true → db'.runs.get? id = some run) ∧
      (∀ t task, db.tasks.get? t = some task → leaseLive db t (timestamp clock) = true ∨ hasProtectedRun db t = true →
        db'.tasks.get? t = some task) ∧
      (∀ t, leaseLive db t (timestamp clock) = true → db'.leases.get? t = db.leases.get? t) ∧
      (∀ id run, db'.runs.get? id = some run → run.state.active = true → inScope taskIds run.taskId = true →
        leaseLive db' run.taskId (timestamp clock) = true ∨ hasLaunchedJob db' id = true) ∧
      (∀ t task, db'.tasks.get? t = some task → task.state = .running → inScope taskIds t = true →
        leaseLive db' t (timestamp clock) = true ∨ hasProtectedRun db' t = true) ∧
      recoverInterrupted db' taskIds clock = .ok ((0, 0), db') := by
  refine ⟨_, recoveredDb db taskIds (timestamp clock), rfl, fun id run hrun hkept => ?_, fun t task htask hkept => ?_,
    fun t hlive => ?_, fun id run hrun hactive hscope => ?_, fun t task htask hrunning hscope => ?_,
    recovered_again db taskIds clock⟩
  · rcases hkept with h | h <;> simp [recoveredDb, recoveredRuns, Table.get?_updateWhere, hrun, interruptibleRun, h]
  · rcases hkept with h | h <;> simp [recoveredDb, Table.get?_updateWhere, htask, interruptibleTask, h]
  · have hunselected : recoveredTask db taskIds (timestamp clock) t = false := by
      by_contra h
      rw [recoveredTask_unleased (Bool.not_eq_false _ ▸ h)] at hlive
      cases hlive
    simp [recoveredDb, Table.get?_updateWhere, hunselected]
  · have hrest := interruptibleRun_recovered hrun
    simp only [interruptibleRun, hactive, hscope, Bool.true_and, Bool.and_true] at hrest
    by_contra h
    simp only [not_or, Bool.not_eq_true] at h
    simp [h] at hrest
  · have hrest := interruptibleTask_recovered htask
    simp only [interruptibleTask, hrunning, hscope, decide_true, Bool.true_and, Bool.and_true] at hrest
    by_contra h
    simp only [not_or, Bool.not_eq_true] at h
    simp [h] at hrest

end AgentFabric.Store
