import AgentFabric.Lib.ChangeLog
import AgentFabric.Store.Changes

/-!
# The dispatch wait

A READY task that dispatch passes keep deferring is moved to BLOCKED after a limit.  The store keeps no start of the
wait: it is read off the latest deferral in the journal, which is not written again for the same reason and detail.
-/

namespace AgentFabric.Store

open AgentFabric.Lib

variable {dg : Digests} {t : String}

/-! ## The wait of a task -/

def isReady (db : Db) (t : String) : Bool := (db.tasks.get? t).any fun row => decide (row.state = .ready)

def isBlocked (db : Db) (t : String) : Bool := (db.tasks.get? t).any fun row => decide (row.state = .blocked)

/-- The database, and the clock reading of the first deferral since the task last became READY. -/
structure Wait where
  db : Db
  since : Option Nat

/-- The wait ends when the task leaves READY, and begins with a deferral. -/
def Wait.step (dg : Digests) (t : String) (w : Wait) (op : StoreOp) : Wait where
  db := apply dg w.db op
  since :=
    if isReady w.db t && isReady (apply dg w.db op) t then
      match op with
      | .recordDispatchDeferred taskId _ _ _ now => if taskId = t then w.since.or (some (timestamp now)) else w.since
      | _ => w.since
    else none

def waitOf (dg : Digests) (t : String) (ops : List StoreOp) : Wait := ops.foldl (Wait.step dg t) ⟨Db.initial, none⟩

theorem waitOf_snoc (ops : List StoreOp) (op : StoreOp) :
    waitOf dg t (ops ++ [op]) = (waitOf dg t ops).step dg t op := List.foldl_append

/-- The wait has lasted for the limit. -/
def Due (since : Option Nat) (limit now : Nat) : Prop :=
  ∃ s ∈ since, (limit : Int) ≤ ((timestamp now : Int) - s) * 1000000

/-! ## The journal of deferrals -/

theorem lastDeferral_cons (d : Event) (events : List Event) :
    lastDeferral t (d :: events) = (lastDeferral t events).or (lastDeferral t [d]) := by
  cases hfound : lastDeferral t events with
  | some => simp [lastDeferral, hfound]
  | none => cases d <;> simp [lastDeferral, hfound]

theorem lastDeferral_append (events : List Event) (e : Event) :
    lastDeferral t (events ++ [e]) = (lastDeferral t [e]).or (lastDeferral t events) := by
  induction events with
  | nil => rw [List.nil_append, lastDeferral, Option.or_none]
  | cons d events ih => rw [List.cons_append, lastDeferral_cons, ih, lastDeferral_cons d events, Option.or_assoc]

theorem lastDeferral_append_deferred (events : List Event) (reason detail : String) (at' : Nat) :
    lastDeferral t (events ++ [.dispatchDeferred t reason detail at']) = some (reason, detail, at') := by
  rw [lastDeferral_append]
  simp [lastDeferral]

/-- The journal of a task's deferrals is the same. -/
def Quiet (t : String) (db db' : Db) : Prop := lastDeferral t db'.events = lastDeferral t db.events

variable {db db' : Db}

theorem Quiet.append {e : Event} (h : db'.events = db.events ++ [e]) (he : lastDeferral t [e] = none) :
    Quiet t db db' := by
  unfold Quiet
  rw [h, lastDeferral_append, he, Option.none_or]

/-- Steering and a new iteration write other events. -/
theorem execGoal_quiet {op : GoalOp} {r : op.Reply} (h : execGoal op db = .ok (r, db')) : Quiet t db db' := by
  rcases (execGoal_change h).events with h | ⟨_, _, h⟩ | ⟨_, h⟩
  · rw [Quiet, h]
  · exact Quiet.append h rfl
  · exact Quiet.append h rfl

variable {reason detail : String}

theorem recordDispatchDeferred_quiet {t' : String} {limit now : Nat} {b : Bool} (ht : t' ≠ t)
    (h : recordDispatchDeferred db t' reason detail limit now = .ok (b, db')) : Quiet t db db' := by
  have hother : lastDeferral t [.dispatchDeferred t' reason detail (timestamp now)] = none := if_neg ht
  simp only [recordDispatchDeferred] at h
  repeat' split at h
  all_goals cases h
  all_goals first | rfl | exact Quiet.append rfl hother

/-- Only a deferral of the task writes its deferrals. -/
theorem exec_deferrals {op : StoreOp} {r : op.Reply} (h : exec dg op db = .ok (r, db')) :
    Quiet t db db' ∨ ∃ reason detail limit now, op = .recordDispatchDeferred t reason detail limit now := by
  cases op with
  | recordDispatchDeferred taskId reason detail limit now =>
    by_cases ht : taskId = t
    · exact Or.inr ⟨reason, detail, limit, now, by rw [ht]⟩
    · exact Or.inl (recordDispatchDeferred_quiet ht h)
  | goal => exact Or.inl (execGoal_quiet h)
  | createTask =>
    obtain ⟨_, _, rfl⟩ := createTask_ok h
    exact Or.inl rfl
  | addTaskDependency =>
    rcases addTaskDependency_ok h with rfl | ⟨_, _, _, _, _, _, rfl⟩ <;> exact Or.inl rfl
  | transitionTask =>
    obtain ⟨_, _, _, _, rfl⟩ := transitionTask_ok h
    exact Or.inl rfl
  | addAcceptanceCriterion =>
    obtain ⟨_, rfl⟩ := addAcceptanceCriterion_ok h
    exact Or.inl rfl
  | bindTaskVerificationScope =>
    obtain ⟨_, _, _, _, _, _, _, _, _, _, _, _, _, rfl⟩ := bindScope_ok dg h
    exact Or.inl rfl
  | recordVerification =>
    obtain ⟨_, _, rfl⟩ := recordVerification_ok h
    exact Or.inl rfl
  | applyTaskVerification =>
    obtain ⟨_, _, _, _, _, _, _, _, _, rfl⟩ := applyTaskVerification_ok dg h
    exact Or.inl rfl
  | upsertWorker =>
    cases h
    exact Or.inl rfl
  | setWorkerState =>
    obtain ⟨_, rfl⟩ := setWorkerState_ok h
    exact Or.inl rfl
  | claimWorkers => rcases claimWorkers_ok h with ⟨_, rfl⟩ | ⟨_, _, rfl⟩ <;> exact Or.inl rfl
  | claimTaskDispatch =>
    rcases claimTaskDispatch_ok h with ⟨_, rfl⟩ | ⟨_, _, _, _, _, _, _, _, _, _, _, rfl⟩ <;> exact Or.inl rfl
  | heartbeatTaskExecutionLease =>
    rcases heartbeat_ok h with ⟨_, rfl⟩ | ⟨_, _, rfl⟩ <;> exact Or.inl rfl
  | releaseTaskExecutionLease =>
    rcases release_ok h with ⟨_, rfl⟩ | ⟨_, _, rfl⟩ <;> exact Or.inl rfl
  | activateWorkerRun =>
    obtain ⟨_, _, _, _, _, ⟨_, rfl⟩ | ⟨_, _, _, _, rfl⟩⟩ := activateWorkerRun_ok h <;> exact Or.inl rfl
  | cancelTaskExecution =>
    obtain ⟨_, _, ⟨_, _, rfl⟩ | ⟨_, _, rfl⟩⟩ := cancelTaskExecution_ok h <;> exact Or.inl rfl
  | createWorkerRun =>
    obtain ⟨_, _, _, _, _, _, rfl⟩ := createWorkerRun_ok h
    exact Or.inl rfl
  | transitionWorkerRun =>
    obtain ⟨_, _, _, _, rfl⟩ := transitionWorkerRun_ok h
    exact Or.inl rfl
  | prepareProviderJob =>
    obtain ⟨_, _, _, ⟨_, _, _, rfl⟩ | ⟨_, _, _, _, rfl⟩⟩ := prepareProviderJob_ok h <;> exact Or.inl rfl
  | markProviderJobLaunching =>
    obtain ⟨_, _, _, ⟨_, _, rfl⟩ | ⟨_, _, rfl⟩⟩ := markProviderJobLaunching_ok h <;> exact Or.inl rfl
  | bindProviderJobHandle =>
    obtain ⟨_, _, _, ⟨_, _, rfl⟩ | ⟨_, _, _, rfl⟩⟩ := bindProviderJobHandle_ok h <;> exact Or.inl rfl
  | recordProviderJobObservation =>
    obtain ⟨_, _, _, ⟨_, _, rfl⟩ | ⟨_, _, rfl⟩⟩ := recordProviderJobObservation_ok h <;> exact Or.inl rfl
  | markProviderJobResultCollected =>
    obtain ⟨_, _, _, _, ⟨_, _, rfl⟩ | ⟨_, _, rfl⟩⟩ := markProviderJobResultCollected_ok h <;> exact Or.inl rfl
  | saveWorkerResult =>
    obtain ⟨_, _, _, ⟨_, rfl⟩ | ⟨_, _, rfl⟩⟩ := saveWorkerResult_ok h <;> exact Or.inl rfl
  | finalizeProviderJobResult =>
    obtain ⟨_, _, _, _, _, _, _, _, _, _, _, rfl⟩ := finalizeProviderJobResult_ok h
    exact Or.inl rfl
  | claimTaskReconciliation =>
    rcases claimTaskReconciliation_ok h with ⟨_, rfl⟩ | ⟨_, _, _, _, _, rfl⟩ <;> exact Or.inl rfl
  | interruptMissingProviderJob =>
    obtain ⟨_, _, _, _, _, _, _, ⟨_, rfl⟩ | ⟨_, rfl⟩⟩ := interruptMissingProviderJob_ok h <;> exact Or.inl rfl
  | requestExecutionEscalation =>
    obtain ⟨_, _, _, _, rfl⟩ := requestExecutionEscalation_ok h
    exact Or.inl rfl
  | resolveExecutionEscalations =>
    obtain ⟨_, _, _, _, rfl⟩ := resolveExecutionEscalations_ok h
    exact Or.inl rfl
  | recordAdapterEvent =>
    obtain ⟨_, _, _, rfl⟩ := recordAdapterEvent_ok h
    exact Or.inl rfl
  | recoverInterrupted =>
    cases h
    exact Or.inl rfl

/-! ## One deferral of a READY task -/

/-- The latest deferral in the journal gives the same reason and detail. -/
def Repeats (db : Db) (t reason detail : String) : Prop :=
  ∃ at', lastDeferral t db.events = some (reason, detail, at')

theorem deferred_new (limit now : Nat) (hnew : ¬ Repeats db t reason detail) :
    apply dg db (.recordDispatchDeferred t reason detail limit now) =
      { db with events := db.events ++ [.dispatchDeferred t reason detail (timestamp now)] } := by
  simp only [apply, exec, recordDispatchDeferred]
  cases hlast : lastDeferral t db.events with
  | none => rfl
  | some last =>
    have hne : last.1 ≠ reason ∨ last.2.1 ≠ detail := by
      by_contra hsame
      push Not at hsame
      exact hnew ⟨last.2.2, by rw [hlast, ← hsame.1, ← hsame.2]⟩
    simp only [if_pos hne]

theorem deferred_again {at' : Nat} (limit now : Nat) (hlast : lastDeferral t db.events = some (reason, detail, at'))
    (hready : isReady db t = true) :
    (apply dg db (.recordDispatchDeferred t reason detail limit now)).events = db.events ∧
      (isBlocked (apply dg db (.recordDispatchDeferred t reason detail limit now)) t = true ↔
        (limit : Int) ≤ ((timestamp now : Int) - at') * 1000000) := by
  simp only [isReady, Option.any_eq_true, decide_eq_true_eq] at hready
  obtain ⟨row, hrow, hs⟩ := hready
  have hblocked : isBlocked db t = false := by simp [isBlocked, hrow, hs]
  simp only [apply, exec, recordDispatchDeferred, hlast, ne_eq, not_true_eq_false, or_self, if_false, hrow, hs]
  by_cases hlt : ((timestamp now : Int) - at') * 1000000 < limit
  · simp only [if_pos hlt]
    refine ⟨trivial, ?_⟩
    rw [hblocked]
    simpa using hlt
  · simp only [if_neg hlt]
    refine ⟨trivial, fun _ => not_lt.mp hlt, fun _ => ?_⟩
    simp [isBlocked, hrow, TaskRow.withState]

/-! ## Runs -/

/-- A deferral with this reason blocks the task exactly if the wait has lasted for the limit. -/
def Timed (dg : Digests) (t : String) (w : Wait) (reason detail : String) (limit now : Nat) : Prop :=
  isBlocked (apply dg w.db (.recordDispatchDeferred t reason detail limit now)) t = true ↔ Due w.since limit now

/-- `P` holds of every deferral of the task while it is READY, in the state before it. -/
def EveryDeferral (dg : Digests) (t : String) (P : Wait → String → String → Nat → Nat → Prop) (ops : List StoreOp) :
    Prop :=
  ∀ pre op post, ops = pre ++ op :: post → ∀ reason detail limit now,
    op = .recordDispatchDeferred t reason detail limit now → isReady (waitOf dg t pre).db t = true →
    P (waitOf dg t pre) reason detail limit now

/-- Every deferral of the READY task is timed by the wait. -/
def TimesOut (dg : Digests) (t : String) (ops : List StoreOp) : Prop := EveryDeferral dg t (Timed dg t) ops

/-- Every deferral is timed by the wait, whatever its limit and its clock show. -/
def AlwaysTimesOut (dg : Digests) (t : String) (ops : List StoreOp) : Prop :=
  EveryDeferral dg t (fun w reason detail _ _ => ∀ limit now, Timed dg t w reason detail limit now) ops

/-- A deferral repeats the latest one in the journal exactly if the task has been deferred since it became READY. -/
def OneReason (dg : Digests) (t : String) (ops : List StoreOp) : Prop :=
  EveryDeferral dg t (fun w reason detail _ _ => w.since.isSome = true ↔ Repeats w.db t reason detail) ops

/-- The latest deferral in the journal is the one that began the wait. -/
def Began (t : String) (w : Wait) : Prop :=
  ∀ s ∈ w.since, ∃ reason detail, lastDeferral t w.db.events = some (reason, detail, s)

theorem Began.timed {w : Wait} (hw : Began t w) (hready : isReady w.db t = true)
    (hone : w.since.isSome = true ↔ Repeats w.db t reason detail) (limit now : Nat) :
    Timed dg t w reason detail limit now := by
  cases hsince : w.since with
  | none =>
    have hnew : ¬ Repeats w.db t reason detail := by simpa [hsince] using hone
    simp only [isReady, Option.any_eq_true, decide_eq_true_eq] at hready
    obtain ⟨row, hrow, hs⟩ := hready
    simp [Timed, Due, deferred_new limit now hnew, isBlocked, hrow, hs, hsince]
  | some s =>
    obtain ⟨at', hlast⟩ := hone.mp (by rw [hsince]; rfl)
    obtain ⟨_, _, hbegan⟩ := hw s hsince
    obtain rfl : at' = s := by simpa [hlast] using congrArg (Option.map fun last => last.2.2) hbegan
    simp only [Timed, Due, (deferred_again limit now hlast hready).2, hsince]
    simp

/-- What any operation makes of the wait. -/
theorem deferral_step {w : Wait} {op : StoreOp} (hw : Began t w)
    (hone : ∀ reason detail limit now, op = .recordDispatchDeferred t reason detail limit now →
      isReady w.db t = true → (w.since.isSome = true ↔ Repeats w.db t reason detail)) :
    Began t (w.step dg t op) := by
  intro s hs
  simp only [Wait.step] at hs
  split at hs
  · rename_i hready
    rw [Bool.and_eq_true] at hready
    obtain ⟨hbefore, -⟩ := hready
    by_cases hop : ∃ reason detail limit now, op = .recordDispatchDeferred t reason detail limit now
    · obtain ⟨reason, detail, limit, now, rfl⟩ := hop
      have hone := hone reason detail limit now rfl hbefore
      simp only [if_true] at hs
      cases hsince : w.since with
      | none =>
        -- the deferral begins the wait
        have hnew : ¬ Repeats w.db t reason detail := by simpa [hsince] using hone
        rw [hsince, Option.none_or] at hs
        obtain rfl := Option.some.inj hs
        refine ⟨reason, detail, ?_⟩
        simp only [Wait.step, deferred_new limit now hnew]
        exact lastDeferral_append_deferred _ _ _ _
      | some began =>
        obtain ⟨at', hlast⟩ := hone.mp (by rw [hsince]; rfl)
        rw [hsince, Option.some_or] at hs
        obtain rfl := Option.some.inj hs
        obtain ⟨_, _, hbegan⟩ := hw began hsince
        simp only [Wait.step, (deferred_again limit now hlast hbefore).1]
        exact ⟨_, _, hbegan⟩
    · have hsame : lastDeferral t (apply dg w.db op).events = lastDeferral t w.db.events := by
        rcases apply_cases dg w.db op with hdb | ⟨r, hexec⟩
        · rw [hdb]
        · exact (exec_deferrals hexec).resolve_right hop
      have hs : s ∈ w.since := by
        split at hs
        · rename_i taskId reason detail limit now
          have hne : taskId ≠ t := by
            rintro rfl
            exact hop ⟨_, _, _, _, rfl⟩
          rwa [if_neg hne] at hs
        · exact hs
      simp only [Wait.step, hsame]
      exact hw s hs
  · exact nomatch hs

theorem OneReason.began {ops : List StoreOp} (h : OneReason dg t ops) : Began t (waitOf dg t ops) := by
  induction ops using List.reverseRecOn with
  | nil => exact nofun
  | append_singleton ops op ih =>
    obtain ⟨hbefore, hlast⟩ := forall_splits_snoc.mp h
    rw [waitOf_snoc]
    exact deferral_step (ih hbefore) hlast

theorem one_reason_of_timed {w : Wait} (hready : isReady w.db t = true)
    (htimed : ∀ limit now, Timed dg t w reason detail limit now) :
    w.since.isSome = true ↔ Repeats w.db t reason detail := by
  constructor
  · intro hsome
    obtain ⟨s, hs⟩ := Option.isSome_iff_exists.mp hsome
    by_contra hnew
    have hdue : Due w.since 1 ((s + 1) * 1000000) := by
      refine ⟨s, hs, ?_⟩
      simp only [timestamp]
      omega
    have hblocked := (htimed 1 ((s + 1) * 1000000)).mpr hdue
    simp only [isReady, Option.any_eq_true, decide_eq_true_eq] at hready
    obtain ⟨row, hrow, hs⟩ := hready
    simp [deferred_new _ _ hnew, isBlocked, hrow, hs] at hblocked
  · rintro ⟨at', hlast⟩
    have hblocked : isBlocked
      (apply dg w.db (.recordDispatchDeferred t reason detail 1 ((at' + 1) * 1000000))) t = true := by
      rw [(deferred_again _ _ hlast hready).2]
      simp only [timestamp]
      omega
    obtain ⟨s, hs, -⟩ := (htimed 1 ((at' + 1) * 1000000)).mp hblocked
    rw [hs]
    rfl

/-- **The dispatch wait.** If every deferral of a READY task repeats the latest journalled one exactly if the task
has been deferred since it became READY, then the task is moved to BLOCKED exactly if that wait has lasted for the
limit; and only then whatever the limits and the clock readings are. -/
theorem dispatch_wait (dg : Digests) (t : String) (ops : List StoreOp) :
    (OneReason dg t ops → TimesOut dg t ops) ∧ (AlwaysTimesOut dg t ops ↔ OneReason dg t ops) := by
  have hall : OneReason dg t ops → AlwaysTimesOut dg t ops := by
    intro h pre op post hsplit reason detail limit now hop hready
    have hpre : OneReason dg t pre := fun pre' op' post' hpre =>
      h pre' op' (post' ++ op :: post) (by rw [hsplit, hpre, List.append_assoc, List.cons_append])
    exact hpre.began.timed hready (h pre op post hsplit reason detail limit now hop hready)
  refine ⟨?_, ?_, hall⟩
  · intro h pre op post hsplit reason detail limit now hop hready
    exact hall h pre op post hsplit reason detail limit now hop hready limit now
  · intro h pre op post hsplit reason detail limit now hop hready
    exact one_reason_of_timed hready (h pre op post hsplit reason detail limit now hop hready)

private def deferral (reason : String) (second : Nat) : StoreOp :=
  .recordDispatchDeferred "task" reason "" 60000000 (second * 1000000)

private def deferredTask : StoreOp := .createTask ⟨"task", "project", "", .ready, .single, 0⟩

/-- The reason changes half a minute before the limit. -/
private def reasonChanges : List StoreOp := [deferredTask, deferral "busy" 0, deferral "offline" 30]

/-- The task leaves READY and comes back. -/
private def readyAgain : List StoreOp :=
  [deferredTask, deferral "busy" 0, .transitionTask "task" .blocked none .absent ⟨0, 0⟩,
    .transitionTask "task" .ready none .absent ⟨0, 0⟩]

/-- A change of the reason starts the wait again, and a deferral of an earlier wait counts. -/
theorem reason_restarts_wait :
    ¬ TimesOut .trivial "task" (reasonChanges ++ [deferral "offline" 70]) ∧
      ¬ TimesOut .trivial "task" (readyAgain ++ [deferral "busy" 70]) := by
  constructor
  · intro h
    have hdue : Due (waitOf .trivial "task" reasonChanges).since 60000000 70000000 := ⟨0, rfl, by decide⟩
    exact absurd ((h reasonChanges _ [] rfl _ _ _ _ rfl (by decide)).mpr hdue) (by decide)
  · intro h
    obtain ⟨s, hs, -⟩ := (h readyAgain _ [] rfl _ _ _ _ rfl (by decide)).mp (by decide)
    exact nomatch (show s ∈ (none : Option Nat) from hs)

end AgentFabric.Store
