import AgentFabric.Lib.Avoidance
import AgentFabric.Runtime.Footprint
import AgentFabric.Store.Changes
import AgentFabric.Store.LeaseFencing

/-!
# Histories of the runtime

The state of the runtime together with every call made so far.
-/

namespace AgentFabric.Runtime

open AgentFabric.Lib AgentFabric.Store

abbrev RuntimeEvent := Event Nat Call Call.Reply

abbrev History := Traced Nat World Call Call.Reply

variable {dg : Digests}

/-! ## What one call does to the store -/

/-- What no call undoes. -/
structure Kept (w w' : World) : Prop where
  jobs : ∀ id a, w.db.jobs.get? id = some a → ∃ b, w'.db.jobs.get? id = some b ∧
    b.taskId = a.taskId ∧ b.idempotencyKey = a.idempotencyKey ∧ b.capabilities = a.capabilities
  runs : ∀ id a, w.db.runs.get? id = some a → ∃ b, w'.db.runs.get? id = some b ∧
    b.taskId = a.taskId ∧ b.workerId = a.workerId ∧ (a.state ≠ .starting → b.state ≠ .starting) ∧
    (a.state.active = false → b.state = a.state)
  tasks : ∀ id a, w.db.tasks.get? id = some a → ∃ b, w'.db.tasks.get? id = some b
  leases : ∀ id a, w.db.leases.get? id = some a → ∃ b, w'.db.leases.get? id = some b ∧
    (a.generation < b.generation ∨ b.generation = a.generation ∧ (b.state = .active → a.state = .active))

theorem Kept.of_db {w w' : World} (h : w'.db = w.db) : Kept w w' := by
  constructor <;> intro id a ha
  · exact ⟨a, by rw [h]; exact ha, rfl, rfl, rfl⟩
  · exact ⟨a, by rw [h]; exact ha, rfl, rfl, fun hs => hs, fun _ => rfl⟩
  · exact ⟨a, by rw [h]; exact ha⟩
  · exact ⟨a, by rw [h]; exact ha, Or.inr ⟨rfl, fun hs => hs⟩⟩

theorem runTransitions_starting {s : RunState} (h : runTransitions.allows s .starting = true) : s = .starting := by
  cases s <;> simp_all [TransitionTable.allows, runTransitions]

theorem RunUpdate.begun {db : Db} {id : String} {a b : RunRow} {op : StoreOp} (h : RunUpdate db id a op b)
    (ha : a.state ≠ .starting) : b.state ≠ .starting := by
  cases h with
  | same => exact ha
  | activated => exact fun h => nomatch h
  | cancelled => exact fun h => nomatch h
  | transitioned target detail lease clock hl hallow =>
    rintro rfl
    exact ha (runTransitions_starting hallow)
  | finalized target detail release lease clock job hj hl hact hallow =>
    rintro rfl
    exact ha (runTransitions_starting hallow)
  | missing => exact fun h => nomatch h
  | event => exact ha
  | recovered => exact fun h => nomatch h

theorem exec_leases_some {op : StoreOp} {db db' : Db} {r : op.Reply} (h : exec dg op db = .ok (r, db')) {t : String}
    {a : LeaseRow} (ha : db.leases.get? t = some a) : ∃ b, db'.leases.get? t = some b ∧
      (a.generation < b.generation ∨ b.generation = a.generation ∧ (b.state = .active → a.state = .active)) := by
  rcases exec_leases h t with ⟨owner, expiresAt, _, hl⟩ | ⟨_, hident, hactive⟩
  · refine ⟨_, hl, Or.inl ?_⟩
    show a.generation < nextGeneration db t
    rw [nextGeneration_of_some ha]
    omega
  · rw [ha] at hident hactive
    obtain ⟨b, hb, hsame⟩ := Option.map_eq_some_iff.mp hident
    refine ⟨b, hb, Or.inr ⟨congrArg Prod.snd hsame, fun hs => ?_⟩⟩
    obtain ⟨a', ha', hs'⟩ := hactive b hb hs
    exact Option.some.inj ha' ▸ hs'

/-- No store operation undoes what is kept. -/
theorem exec_kept {op : StoreOp} {w w' : World} {r : op.Reply} (h : exec dg op w.db = .ok (r, w'.db)) : Kept w w' := by
  constructor <;> intro id a ha
  · obtain ⟨b, hb, hu⟩ := exec_jobs_some h ha
    obtain ⟨htask, _, _, _, _, hkey, hcap⟩ := hu.intent
    exact ⟨b, hb, htask, hkey, hcap⟩
  · obtain ⟨b, hb, hu⟩ := exec_runs_some h ha
    obtain ⟨htask, hworker, _⟩ := hu.ident
    exact ⟨b, hb, htask, hworker, RunUpdate.begun hu, hu.ended⟩
  · obtain ⟨b, hb, _⟩ := exec_tasks_some h ha
    exact ⟨b, hb⟩
  · exact exec_leases_some h ha

theorem transaction_cases (dg : Digests) (db : Db) (clock : Clock) (uuid : String → String) (op : StoreOp) :
    (∃ r db', exec dg (stamp clock uuid op) db = .ok (r, db') ∧
      transaction dg db clock uuid op = (.ok (reply_stamp clock uuid op ▸ r), db')) ∨
      ∃ e, transaction dg db clock uuid op = (.error e, db) := by
  unfold transaction
  split
  · rename_i r db' h
    exact Or.inl ⟨r, db', h, rfl⟩
  · exact Or.inr ⟨_, rfl⟩

/-- A store call commits its operation or raises. -/
theorem act_store (dg : Digests) (w : World) (env : Environment) (op : StoreOp) :
    (∃ clock uuid r, exec dg (stamp clock uuid op) w.db = .ok (r, (act dg w env (.store op)).2.db) ∧
      (act dg w env (.store op)).1 = .ok (reply_stamp clock uuid op ▸ r)) ∨
    (∃ e, (act dg w env (.store op)).1 = .error e) ∧ (act dg w env (.store op)).2.db = w.db := by
  rcases transaction_cases dg w.db ⟨w.clock + env.wait, w.clock + env.wait + env.lag⟩ env.uuid op with
    ⟨r, db', hexec, ht⟩ | ⟨e, ht⟩
  · refine Or.inl ⟨_, _, r, ?_, ?_⟩
    · simp only [act, ht]
      exact hexec
    · simp only [act, ht]
  · refine Or.inr ⟨⟨e, ?_⟩, ?_⟩ <;> simp only [act, ht]

/-- The database changes only by a store operation. -/
theorem act_db (dg : Digests) (w : World) (env : Environment) (c : Call) : (act dg w env c).2.db = w.db ∨
    ∃ op clock uuid r, c = .store op ∧ exec dg (stamp clock uuid op) w.db = .ok (r, (act dg w env c).2.db) := by
  cases c with
  | store op =>
    rcases act_store dg w env op with ⟨clock, uuid, r, hexec, _⟩ | ⟨_, hdb⟩
    · exact Or.inr ⟨op, clock, uuid, r, rfl, hexec⟩
    · exact Or.inl hdb
  | begin =>
    left
    simp only [act]
    split <;> rfl
  | _ => exact Or.inl rfl

/-- No call undoes what is kept. -/
theorem act_kept (dg : Digests) (w : World) (env : Environment) (c : Call) : Kept w (act dg w env c).2 := by
  rcases act_db dg w env c with h | ⟨op, clock, uuid, r, _, h⟩
  · exact Kept.of_db h
  · exact exec_kept h

section

variable {h : History} {i : Nat} {env : Environment} {c : Call}

def extended (dg : Digests) (h : History) (i : Nat) (env : Environment) (c : Call) : History :=
  ((machine dg).traced.act i h env c).2

def eventOf (dg : Digests) (h : History) (i : Nat) (env : Environment) (c : Call) : RuntimeEvent :=
  ⟨i, c, (act dg h.state env c).1⟩

theorem extended_trace : (extended dg h i env c).trace = h.trace ++ [eventOf dg h i env c] := rfl

theorem extended_state : (extended dg h i env c).state = (act dg h.state env c).2 := rfl

/-- What a call of one coroutine means to the others. -/
abbrev RuntimeStep : Nat → History → History → Prop := Extends Kept

theorem step_extends : RuntimeStep i h (extended dg h i env c) := ⟨act_kept dg h.state env c, c, _, rfl⟩

end

/-! ## Schedules -/

/-- A schedule of runtimes, and of clients that are admitted to some of the operations, from an empty database. -/
def served (dg : Digests) (admitted : StoreOp → Bool) (moves : List (Move Nat Request Environment)) :
    Pool Nat History Call Call.Reply :=
  (Pool.quiet ⟨World.initial, []⟩).run (machine dg).traced (serve admitted) moves

theorem served_snoc (dg : Digests) (admitted : StoreOp → Bool) (moves : List (Move Nat Request Environment))
    (m : Move Nat Request Environment) :
    (served dg admitted (moves ++ [m])).shared = (served dg admitted moves).shared ∨
      ∃ i env c next, (served dg admitted moves).thread i = some (.call c next) ∧
        (served dg admitted (moves ++ [m])).shared = extended dg (served dg admitted moves).shared i env c := by
  rw [show served dg admitted (moves ++ [m]) = (served dg admitted moves).move _ _ m from Pool.run_snoc ..]
  exact Pool.move_shared (served dg admitted moves) m

/-! ## Activations -/

/-- A transaction that committed and answered yes. -/
def granted (reply : Except StoreError Bool) : Bool := decide (reply = .ok true)

/-- The run that a call activated, and by whom. -/
def activatedRun : RuntimeEvent → Option (Nat × String)
  | ⟨i, .store (.activateWorkerRun runId _ _), reply⟩ => if granted reply then some (i, runId) else none
  | _ => none

def activations (trace : List RuntimeEvent) (runId : String) : List (Nat × String) :=
  (trace.filterMap activatedRun).filter fun a => decide (a.2 = runId)

section

variable {trace : List RuntimeEvent} {e : RuntimeEvent} {runId : String}

theorem activations_concat : activations (trace ++ [e]) runId =
    activations trace runId ++ (activatedRun e).toList.filter fun a => decide (a.2 = runId) := by
  cases h : activatedRun e <;> simp [activations, List.filterMap_append, h]

theorem activations_mono {a : Nat × String} (ha : a ∈ activations trace runId) :
    a ∈ activations (trace ++ [e]) runId := by
  rw [activations_concat]
  exact List.mem_append_left _ ha

end

theorem activation_begins {w : World} {env : Environment} {runId : String} {lease : LeaseArgs} {clock : Clock}
    (h : (act dg w env (.store (.activateWorkerRun runId lease clock))).1 = .ok true) :
    (∃ a, w.db.runs.get? runId = some a ∧ a.state = .starting) ∧
      ∃ b, (act dg w env (.store (.activateWorkerRun runId lease clock))).2.db.runs.get? runId = some b ∧
        b.state ≠ .starting := by
  rcases transaction_cases dg w.db ⟨w.clock + env.wait, w.clock + env.wait + env.lag⟩ env.uuid
    (.activateWorkerRun runId lease clock) with ⟨r, db', hexec, ht⟩ | ⟨e, ht⟩
  · simp only [act, ht] at h ⊢
    obtain rfl : r = true := Except.ok.inj h
    obtain ⟨run, task, hr, _, _, ⟨hb, _⟩ | ⟨_, hs, _, _, rfl⟩⟩ := activateWorkerRun_ok hexec
    · cases hb
    · exact ⟨⟨run, hr, hs⟩, run.activate (timestamp (w.clock + env.wait + env.lag)), by simp [hr], fun h => nomatch h⟩
  · simp only [act, ht] at h
    cases h

/-- A run is activated once, and never starts again. -/
structure ActivatedOnce (h : History) : Prop where
  begun : ∀ runId, ∀ a ∈ activations h.trace runId, ∃ run, h.state.db.runs.get? runId = some run ∧ run.state ≠ .starting
  activations_le : ∀ runId, (activations h.trace runId).length ≤ 1

section

variable {h : History} {i : Nat} {env : Environment} {c : Call}

theorem activatedRun_some {a : Nat × String} (ha : activatedRun (eventOf dg h i env c) = some a) :
    a.1 = i ∧ ∃ lease clock, c = .store (.activateWorkerRun a.2 lease clock) ∧
      (act dg h.state env (.store (.activateWorkerRun a.2 lease clock))).1 = .ok true := by
  cases c with
  | store op =>
    cases op with
    | activateWorkerRun runId lease clock =>
      simp only [eventOf, activatedRun, Option.ite_none_right_eq_some, granted, decide_eq_true_eq] at ha
      obtain ⟨hreply, ha⟩ := ha
      cases ha
      exact ⟨rfl, lease, clock, rfl, hreply⟩
    | _ => cases ha
  | _ => cases ha

/-- Activations stay unique, and the activated runs stay begun. -/
theorem ActivatedOnce.step (hA : ActivatedOnce h) : ActivatedOnce (extended dg h i env c) := by
  have hold : ∀ runId, ∀ a ∈ activations h.trace runId,
      ∃ run, (extended dg h i env c).state.db.runs.get? runId = some run ∧ run.state ≠ .starting := by
    intro runId a ha
    obtain ⟨run, hrun, hs⟩ := hA.begun runId a ha
    obtain ⟨run', hrun', _, _, hs', _⟩ := (act_kept dg h.state env c).runs runId run hrun
    exact ⟨run', hrun', hs' hs⟩
  suffices hstep : ∀ runId, (activations (extended dg h i env c).trace runId).length ≤ 1 ∧
      ∀ a ∈ activations (extended dg h i env c).trace runId,
        ∃ run, (extended dg h i env c).state.db.runs.get? runId = some run ∧ run.state ≠ .starting from
    ⟨fun runId => (hstep runId).2, fun runId => (hstep runId).1⟩
  intro runId
  rw [extended_trace, activations_concat]
  cases ha : activatedRun (eventOf dg h i env c) with
  | none => exact ⟨by simpa using hA.activations_le runId, by simpa using hold runId⟩
  | some a =>
    obtain ⟨_, lease, clock, rfl, hreply⟩ := activatedRun_some ha
    by_cases hrun : a.2 = runId
    · subst hrun
      obtain ⟨⟨run, hr, hs⟩, hbegun⟩ := activation_begins hreply
      have hnil : activations h.trace a.2 = [] := by
        refine List.eq_nil_iff_forall_not_mem.mpr fun b hb => ?_
        obtain ⟨run', hr', hs'⟩ := hA.begun a.2 b hb
        rw [hr] at hr'
        exact hs' (Option.some.inj hr' ▸ hs)
      rw [hnil]
      refine ⟨by simp, fun b _ => hbegun⟩
    · have hother : ([a].filter fun b => decide (b.2 = runId)) = [] := by simp [hrun]
      rw [Option.toList_some, hother, List.append_nil]
      exact ⟨hA.activations_le runId, hold runId⟩

end

theorem unique_of_length_le_one {α : Type} {l : List α} (hl : l.length ≤ 1) {a b : α} (ha : a ∈ l) (hb : b ∈ l) :
    a = b := by
  match l, hl with
  | [x], _ => exact (List.mem_singleton.mp ha).trans (List.mem_singleton.mp hb).symm

theorem ActivatedOnce.unique {h : History} (hA : ActivatedOnce h) {i j : Nat} {runId : String}
    (hi : (i, runId) ∈ activations h.trace runId) (hj : (j, runId) ∈ activations h.trace runId) : i = j :=
  congrArg Prod.fst (unique_of_length_le_one (hA.activations_le runId) hi hj)

theorem initial_activatedOnce : ActivatedOnce ⟨World.initial, []⟩ := ⟨nofun, fun _ => Nat.zero_le 1⟩

/-! ## Rules -/

section

variable {I : History → Prop} {G : Nat → History → History → Prop} {i : Nat} {φ : History → Prop}

theorem present_outline {β : Type} {x : Option β} {key : String} {Q : β → History → Prop}
    (hQ : ∀ b h, x = some b → φ h → Q b h) :
    Outline (machine dg).traced I G i φ (present x key).run (onOk Q) := by
  refine Outline.result fun b h hb _ hh => ?_
  cases x with
  | some a =>
    obtain rfl := Except.ok.inj hb
    exact hQ a h rfl hh
  | none => cases hb

theorem store_outline {op : StoreOp} {Q : op.Reply → History → Prop} (stable : ∀ r, Stable I G i (Q r))
    (step : ∀ h env, I h → φ h → I (extended dg h i env (.store op)) ∧ G i h (extended dg h i env (.store op)) ∧
      ∀ r, (act dg h.state env (.store op)).1 = .ok r → Q r (extended dg h i env (.store op))) :
    Outline (machine dg).traced I G i φ (store op).run (onOk Q) := by
  refine Outline.raising_bind (Q := fun (x : Except StoreError op.Reply) h => ∀ r, x = .ok r → Q r h)
    (Outline.ask (fun x => ?_) step) fun x =>
    Outline.result fun r h hr _ hq => hq r ?_
  · exact fun j h h' hj hI hI' hg hq r hr => stable r j h h' hj hI hI' hg (hq r hr)
  · cases x with
    | ok => exact congrArg Except.ok (Except.ok.inj hr)
    | error => cases hr

end

/-! ## Recovered jobs -/

theorem reconcilableJobs_known {db : Db} {now : Nat} {j : RecoveredJob} (hj : j ∈ reconcilableJobs db now) :
    db.jobs.get? j.runId = some j.job := by
  unfold reconcilableJobs at hj
  rw [List.mem_mergeSort, List.mem_filterMap] at hj
  obtain ⟨⟨runId, job⟩, hrow, hrec⟩ := hj
  unfold reconcilable at hrec
  split at hrec
  · split at hrec
    · obtain rfl := Option.some.inj hrec
      exact Table.mem_rows.mp hrow
    · cases hrec
  · cases hrec

end AgentFabric.Runtime
