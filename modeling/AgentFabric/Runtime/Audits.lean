import AgentFabric.Runtime.Histories
import AgentFabric.Runtime.Requests

/-!
# Terminal usage audits

The audit of a terminal task is keyed by the version of its row, and a transition to the state that a task already has
is a transition too.
-/

namespace AgentFabric.Runtime

open AgentFabric.Lib AgentFabric.Store

/-! ## Keys -/

theorem last_colon_unique {a a' b b' : List Char} (h : a ++ ':' :: b = a' ++ ':' :: b') (hb : ':' ∉ b)
    (hb' : ':' ∉ b') :
    a = a' ∧ b = b' := by
  induction a generalizing a' with
  | nil =>
    cases a' with
    | nil => exact ⟨rfl, (List.cons.inj h).2⟩
    | cons c cs =>
      have htail := (List.cons.inj h).2
      exact absurd (htail ▸ List.mem_append_right cs List.mem_cons_self) hb
  | cons x xs ih =>
    cases a' with
    | nil =>
      have htail := (List.cons.inj h).2
      exact absurd (htail ▸ List.mem_append_right xs List.mem_cons_self) hb'
    | cons =>
      obtain ⟨rfl, htail⟩ := List.cons.inj h
      obtain ⟨rfl, rfl⟩ := ih htail
      exact ⟨rfl, rfl⟩

theorem value_no_colon (s : TaskState) : ':' ∉ s.value.toList := by
  cases s <;> decide

theorem value_inj {s s' : TaskState} (h : s.value.toList = s'.value.toList) : s = s' := by
  cases s <;> cases s' <;> first | rfl | exact absurd h (by decide)

theorem repr_no_colon (n : Nat) : ':' ∉ (toString n).toList := by
  rw [Nat.toString_eq_repr, Nat.toList_repr]
  intro h
  exact absurd (Nat.isDigit_of_mem_toDigits (by omega) (by omega) h) (by decide)

theorem repr_toList_inj {m n : Nat} (h : (toString m).toList = (toString n).toList) : m = n := by
  simp only [Nat.toString_eq_repr, Nat.toList_repr] at h
  rw [← Nat.ofDigitChars_ten_toDigits (n := m), h, Nat.ofDigitChars_ten_toDigits]

/-- The text of a key determines task, version and state. -/
theorem auditKey_inj {t t' : String} {v v' : Nat} {s s' : TaskState} (h : auditKey t v s = auditKey t' v' s') :
    t = t' ∧ v = v' ∧ s = s' := by
  have hsplit : ∀ (t : String) (v : Nat) (s : TaskState), (auditKey t v s).toList =
      ((("task:".toList ++ (t.toList ++ ":version".toList)) ++ ':' :: (toString v).toList) ++ ':' :: "state".toList) ++
        ':' :: s.value.toList := by
    intro t v s
    simp [auditKey]
  have hl := congrArg String.toList h
  rw [hsplit, hsplit] at hl
  obtain ⟨hl, hs⟩ := last_colon_unique hl (value_no_colon s) (value_no_colon s')
  obtain ⟨hl, _⟩ := last_colon_unique hl (by decide) (by decide)
  obtain ⟨hl, hv⟩ := last_colon_unique hl (repr_no_colon v) (repr_no_colon v')
  have ht := List.append_cancel_right (List.append_cancel_left hl)
  exact ⟨String.toList_inj.mp ht, repr_toList_inj hv, value_inj hs⟩

/-! ## Terminal rows -/

def terminalTask (db : Db) (taskId : String) : Bool := (db.tasks.get? taskId).any fun row => row.state.terminal

/-- The operations that rewrite the row of a terminal task. -/
def reopens (db : Db) : StoreOp → Bool
  | .transitionTask taskId _ _ _ _ | .createWorkerRun taskId _ _ _ _ _ => terminalTask db taskId
  | .interruptMissingProviderJob runId _ _ =>
    (db.runs.get? runId).any (fun run => run.state.active) && (db.jobs.get? runId).any fun job =>
      terminalTask db job.taskId
  | _ => false

theorem reopens_stamp (db : Db) (clock : Clock) (uuid : String → String) (op : StoreOp) :
    reopens db (stamp clock uuid op) = reopens db op := by
  cases op <;> rfl

/-- A terminal row stays under every operation that does not reopen it. -/
theorem exec_keeps_terminal {dg : Digests} {op : StoreOp} {db db' : Db} {r : op.Reply}
    (h : exec dg op db = .ok (r, db')) (hop : reopens db op = false) {t : String} {row : TaskRow}
    (hrow : db.tasks.get? t = some row) (hs : row.state.terminal = true) : db'.tasks.get? t = some row := by
  have hterm : terminalTask db t = true := by simp [terminalTask, hrow, hs]
  have hlive : ∀ {s : TaskState}, row.state = s → s.terminal = false → db'.tasks.get? t = some row := by
    intro s hst hf
    rw [hst, hf] at hs
    cases hs
  obtain ⟨b, hb, hu⟩ := exec_tasks_some h hrow
  cases hu with
  | same => exact hb
  | dependency dependsOn hst => rcases hst with hst | hst | hst <;> exact hlive hst rfl
  | transition =>
    rw [reopens, hterm] at hop
    cases hop
  | deferred reason detail timeout now hst => exact hlive hst rfl
  | rescoped binding revision ht hst =>
    rw [hs] at hst
    cases hst
  | verified call criteria attempt ht hst => exact hlive hst rfl
  | claimed args ht hst => exact hlive hst rfl
  | cancelled now hst =>
    rw [hs] at hst
    cases hst
  | counted =>
    rw [reopens, hterm] at hop
    cases hop
  | missing runId lease clock job run hj ht hr hact =>
    simp [reopens, hr, hact, hj, ht, hterm] at hop
  | recovered taskIds now hi =>
    have hst : row.state = .running := by
      simp only [interruptibleTask, Bool.and_eq_true, decide_eq_true_eq] at hi
      tauto
    exact hlive hst rfl

/-! ## Schedules that leave terminal rows alone -/

/-- A schedule of runtimes, auditors and clients from an empty database. -/
abbrev auditRun (dg : Digests) (moves : List (Move Nat Request Environment)) : Pool Nat History Call Call.Reply :=
  served dg (fun _ => true) moves

def committedOp : RuntimeEvent → Option StoreOp
  | ⟨_, .store op, .ok _⟩ => some op
  | _ => none

/-- No committed operation rewrites the row of a terminal task. -/
def TerminalKept (dg : Digests) (moves : List (Move Nat Request Environment)) : Prop :=
  ∀ before m after, moves = before ++ m :: after → ∀ e op,
    (auditRun dg (before ++ [m])).shared.trace = (auditRun dg before).shared.trace ++ [e] → committedOp e = some op →
    reopens (auditRun dg before).shared.state.db op = false

section

variable {dg : Digests}

theorem TerminalKept.init {moves : List (Move Nat Request Environment)} {m : Move Nat Request Environment}
    (h : TerminalKept dg (moves ++ [m])) : TerminalKept dg moves :=
  fun before m' after e => h before m' (after ++ [m]) (by simp [e])

theorem terminal_kept {moves before after : List (Move Nat Request Environment)} {m : Move Nat Request Environment}
    (hkept : TerminalKept dg moves) (e : moves = before ++ m :: after) {t : String} {row : TaskRow}
    (hrow : (auditRun dg before).shared.state.db.tasks.get? t = some row) (hs : row.state.terminal = true) :
    (auditRun dg (before ++ [m])).shared.state.db.tasks.get? t = some row := by
  rcases served_snoc dg (fun _ => true) before m with h | ⟨i, env, c, next, _, h⟩
  · rw [h]
    exact hrow
  have hop := hkept before m after e (eventOf dg (auditRun dg before).shared i env c)
  rw [h] at hop ⊢
  rcases act_db dg (auditRun dg before).shared.state env c with hdb | ⟨op, clock, uuid, r, rfl, _⟩
  · rw [extended_state, hdb]
    exact hrow
  · rcases act_store dg (auditRun dg before).shared.state env op with ⟨clock, uuid, r, hexec, hreply⟩ | ⟨_, hdb⟩
    · refine exec_keeps_terminal hexec ?_ hrow hs
      rw [reopens_stamp]
      refine hop op rfl ?_
      rw [eventOf, hreply]
      rfl
    · rw [extended_state, hdb]
      exact hrow

end

/-! ## Audits of the current row -/

/-- The task has this terminal row, and this is its key. -/
def CurrentKey (t : String) (s : TaskState) (key : String) (db : Db) : Prop :=
  ∃ row, db.tasks.get? t = some row ∧ row.state.terminal = true ∧ row.state = s ∧ auditKey t row.version row.state = key

/-- Every audit is of a terminal row as it stands now. -/
def AuditsCurrent (w : World) : Prop :=
  ∀ key audit, w.audits.get? key = some audit → CurrentKey audit.taskId audit.terminalState key w.db

def Call.records (t : String) (s : TaskState) (key : String) (c : Call) : Prop :=
  ∃ observations errors, c = .recordAudit key ⟨t, s, observations, errors⟩

/-- The replies that show no row with that key. -/
def Unseen (t : String) (s : TaskState) (key : String) : (c : Call) → c.Reply → Prop
  | .read, db => ¬ CurrentKey t s key db
  | _, _ => True

section

variable {dg : Digests} {t : String} {st : TaskState} {key : String}

theorem unrecorded_ordinary (c : Call) (h : c.ordinary = true) : ¬ c.records t st key := by
  rintro ⟨observations, errors, rfl⟩
  cases h

theorem sparing : Discipline fun p => Prog.Spares (Unseen t st key) (Call.records t st key) (fun _ => True) p where
  result x := .result fun _ _ => trivial
  bind hp hf := .bind hp fun a _ => hf a
  attempt hp := Prog.Avoids.bind hp fun _ _ _ _ => trivial
  ordinary c h := (Prog.Spares.ask (unrecorded_ordinary c h)).post fun _ _ => trivial
  audited hf := by
    refine .bind (.ask (unrecorded_ordinary .read rfl)) fun db hdb => hf db fun taskId row hrow => ?_
    unfold auditTaskTerminal
    split
    · exact .pure trivial
    rename_i hterm
    refine .bind (.ask (unrecorded_ordinary (.auditByKey _) rfl)) fun found _ => ?_
    split
    · exact .pure trivial
    refine .bind (.ask (unrecorded_ordinary (.observeUsage _) rfl)) fun usage _ => .bind (.ask ?_) fun _ _ =>
      .result fun _ _ => trivial
    rintro ⟨observations, errors, hcall⟩
    obtain ⟨hkey, haudit⟩ := Call.recordAudit.inj hcall
    obtain ⟨rfl, hstate, _⟩ := AuditRow.mk.inj haudit
    exact hdb ⟨row, hrow, by simpa using hterm, hstate, hkey⟩

theorem serve_unseen (i : Nat) (request : Request) :
    ¬ (serve (fun _ => true) i request).Reaches (Unseen t st key) (Call.records t st key) := by
  have hstore : ∀ op : StoreOp, Prog.Spares (Unseen t st key) (Call.records t st key) (fun _ => True)
      (ask (.store op)) := by
    intro op
    refine (Prog.Spares.ask ?_).post fun _ _ => trivial
    rintro ⟨observations, errors, h⟩
    cases h
  refine ((sparing.handle (fun c hc => ?_) (fun _ _ _ => hstore _) (fun op _ => hstore op) request).discard
    ()).unreached
  refine (Prog.Spares.ask ?_).post fun _ _ => trivial
  rintro ⟨observations, errors, rfl⟩
  cases hc

theorem recording_current {moves : List (Move Nat Request Environment)} (hkept : TerminalKept dg moves) {i : Nat}
    {p : Prog Call Call.Reply Unit} (hp : (auditRun dg moves).thread i = some p)
    (hr : p.Reaches (Unseen t st key) (Call.records t st key)) :
    CurrentKey t st key (auditRun dg moves).shared.state.db := by
  refine Pool.holds_within_reach (J := fun h : History => CurrentKey t st key h.state.db)
    (fun e => serve_unseen i e) moves
    (fun before m after e h => ?_) (fun before m after env c next e _ _ hs hok _ => ?_) hp hr
  · obtain ⟨row, hrow, hterm, hrest⟩ := h
    exact ⟨row, terminal_kept hkept e hrow hterm, hterm, hrest⟩
  · cases c with
    | read =>
      rw [hs]
      exact not_not.mp hok
    | _ => exact absurd trivial hok

/-- An audit is an old one, or the call has recorded it. -/
theorem act_audits {w : World} {env : Environment} {c : Call} {k : String} {a : AuditRow}
    (h : (act dg w env c).2.audits.get? k = some a) : w.audits.get? k = some a ∨ c = .recordAudit k a := by
  cases c with
  | recordAudit =>
    simp only [act, recordAudit] at h
    split at h
    · exact Or.inl h
    · rename_i audits hi
      split at h
      · replace h : audits.get? k = some a := h
        rw [Table.get?_insert hi] at h
        split at h
        · rename_i hk
          exact Or.inr (by rw [hk, Option.some.inj h])
        · exact Or.inl h
      · exact Or.inl h
  | begin =>
    left
    simp only [act] at h
    split at h <;> exact h
  | _ => exact Or.inl h

theorem auditRun_current (moves : List (Move Nat Request Environment)) (hkept : TerminalKept dg moves) :
    AuditsCurrent (auditRun dg moves).shared.state := by
  induction moves using List.reverseRecOn with
  | nil => rintro _ _ ⟨⟩
  | append_singleton moves m ih =>
    intro key audit haudit
    have hstep : CurrentKey audit.taskId audit.terminalState key (auditRun dg moves).shared.state.db := by
      rcases served_snoc dg (fun _ => true) moves m with h | ⟨i, env, c, next, hthread, h⟩
      · rw [h] at haudit
        exact ih hkept.init key audit haudit
      · rw [h] at haudit
        rcases act_audits haudit with hold | rfl
        · exact ih hkept.init key audit hold
        · exact recording_current hkept.init hthread (Or.inl ⟨audit.observations, audit.errors, rfl⟩)
    obtain ⟨row, hrow, hterm, hrest⟩ := hstep
    exact ⟨row, terminal_kept hkept rfl hrow hterm, hterm, hrest⟩

end

/-! ## One pass -/

/-- The terminal row of the task stays, no task vanishes, and no audit is lost. -/
structure Steady (t : String) (row : TaskRow) (h h' : History) : Prop where
  row : h.state.db.tasks.get? t = some row → h'.state.db.tasks.get? t = some row
  tasks : ∀ id a, h.state.db.tasks.get? id = some a → ∃ b, h'.state.db.tasks.get? id = some b
  audits : ∀ key a, h.state.audits.get? key = some a → h'.state.audits.get? key = some a

def Audited (key : String) (h : History) : Prop := ∃ a, h.state.audits.get? key = some a

section

variable {dg : Digests} {i : Nat} {t : String} {row : TaskRow}

theorem act_audits_mono {w : World} {env : Environment} {c : Call} {k : String} {a : AuditRow}
    (h : w.audits.get? k = some a) : (act dg w env c).2.audits.get? k = some a := by
  cases c with
  | recordAudit =>
    simp only [act, recordAudit]
    split
    · exact h
    · rename_i audits hi
      split
      · show audits.get? k = some a
        rw [Table.get?_insert hi, if_neg ?_]
        · exact h
        · rintro rfl
          rw [Table.insert?_fresh hi] at h
          cases h
      · exact h
  | begin =>
    simp only [act]
    split <;> exact h
  | _ => exact h

theorem recordAudit_audited {w : World} {env : Environment} {key : String} {audit : AuditRow} {b : TaskRow}
    (hb : w.db.tasks.get? audit.taskId = some b) : (act dg w env (.recordAudit key audit)).1 = .ok () ∧
      ∃ a, (act dg w env (.recordAudit key audit)).2.audits.get? key = some a := by
  simp only [act, recordAudit]
  cases hi : w.audits.insert? key audit with
  | none =>
    obtain ⟨a, ha⟩ := Table.insert?_eq_none.mp hi
    exact ⟨rfl, a, ha⟩
  | some =>
    simp only [hb, Option.isSome_some, if_true]
    exact ⟨rfl, audit, by simp [Except.toOption, Table.get?_insert hi]⟩

abbrev PassOutline (dg : Digests) (i : Nat) (t : String) (row : TaskRow) {α : Type} (φ : History → Prop)
    (p : Prog Call Call.Reply α) (Q : α → History → Prop) : Prop :=
  Outline (machine dg).traced (fun _ => True) (fun _ => Steady t row) i φ p Q

/-- What no steady step undoes. -/
def Lasts (t : String) (row : TaskRow) (φ : History → Prop) : Prop := ∀ h h', Steady t row h h' → φ h → φ h'

theorem Lasts.stable {φ : History → Prop} (hφ : Lasts t row φ) :
    Stable (fun _ => True) (fun _ : Nat => Steady t row) i φ := fun _ h h' _ _ _ hg hh => hφ h h' hg hh

theorem audited_lasts (key : String) : Lasts t row (Audited key) := fun _ _ hg ⟨a, ha⟩ => ⟨a, hg.audits key a ha⟩

theorem steady_call {h : History} {env : Environment} {c : Call} (hdb : (act dg h.state env c).2.db = h.state.db) :
    Steady t row h (extended dg h i env c) where
  row hr := by rw [extended_state, hdb]; exact hr
  tasks id a ha := ⟨a, by rw [extended_state, hdb]; exact ha⟩
  audits key a ha := act_audits_mono ha

/-- The audit of a task that exists raises nothing, and leaves the key of a terminal row recorded. -/
theorem auditTaskTerminal_audits {φ : History → Prop} (hφ : Lasts t row φ) {id : String} {r : TaskRow}
    (hex : ∀ h, φ h → ∃ b, h.state.db.tasks.get? id = some b) :
    PassOutline dg i t row φ (auditTaskTerminal id r).run fun x h =>
      x = .ok () ∧ φ h ∧ (r.state.terminal = true → Audited (auditKey id r.version r.state) h) := by
  unfold auditTaskTerminal
  cases hterm : r.state.terminal with
  | false => exact fun h _ hh => ⟨rfl, hh, fun ht => (by cases ht)⟩
  | true =>
    set key := auditKey id r.version r.state
    have hkey : Lasts t row (Audited key) := audited_lasts key
    refine Outline.ask_bind (Q := fun found h => φ h ∧ ∀ a, found = some a → Audited key h) (fun found => ?_)
      (fun h env _ hh => ⟨trivial, steady_call rfl, hφ _ _ (steady_call rfl) hh, fun a ha => ⟨a, ha⟩⟩) fun found => ?_
    · exact hφ.stable.and fun j h h' _ _ _ hg ha a hfound => hkey h h' hg (ha a hfound)
    · cases found with
      | some a => exact fun h _ hh => ⟨rfl, hh.1, fun _ => hh.2 a rfl⟩
      | none =>
        refine Outline.ask_bind (Q := fun _ => φ) (fun _ => hφ.stable)
          (fun h env _ hh => ⟨trivial, steady_call rfl, hφ _ _ (steady_call rfl) hh.1⟩) fun usage => ?_
        refine Outline.ask_bind (Q := fun reply h => reply = .ok () ∧ φ h ∧ Audited key h) (fun reply => ?_)
          (fun h env _ hh => ?_) fun reply => ?_
        · exact (Stable.const _).and (hφ.stable.and hkey.stable)
        · obtain ⟨b, hb⟩ := hex h hh
          obtain ⟨hreply, haudited⟩ := @recordAudit_audited dg h.state env key ⟨id, r.state, usage.1, usage.2⟩ b hb
          exact ⟨trivial, steady_call rfl, hreply, hφ _ _ (steady_call rfl) hh, haudited⟩
        · rintro h _ ⟨rfl, hh, ha⟩
          exact ⟨rfl, hh, fun _ => ha⟩

/-- The task is still to be audited by this pass, or its row is audited. -/
def Listed (t : String) (row : TaskRow) (tasks : List (String × TaskRow)) (h : History) : Prop :=
  (∀ e ∈ tasks, ∃ b, h.state.db.tasks.get? e.1 = some b) ∧
    ((t, row) ∈ tasks ∨ Audited (auditKey t row.version row.state) h)

theorem listed_lasts (tasks : List (String × TaskRow)) : Lasts t row (Listed t row tasks) := by
  rintro h h' hg ⟨hex, hleft⟩
  refine ⟨fun e he => ?_, hleft.imp id fun ha => audited_lasts _ h h' hg ha⟩
  obtain ⟨b, hb⟩ := hex e he
  exact hg.tasks e.1 b hb

/-- The pass audits the task when it comes to it. -/
theorem auditRows_audits {taskIds : Option (List String)} (hscope : inScope taskIds t = true)
    (hterm : row.state.terminal = true) (tasks : List (String × TaskRow)) :
    PassOutline dg i t row (Listed t row tasks) (tasks.forM fun task =>
      if inScope taskIds task.1 then auditTaskTerminal task.1 task.2 else return : Program PUnit).run fun _ h =>
        Audited (auditKey t row.version row.state) h := by
  induction tasks with
  | nil => exact fun h _ hh => hh.2.resolve_left List.not_mem_nil
  | cons e tasks ih =>
    -- the head is audited or skipped, and raises nothing
    have hhead : PassOutline dg i t row (Listed t row (e :: tasks))
        (if inScope taskIds e.1 then auditTaskTerminal e.1 e.2 else return : Program Unit).run
        fun x h => x = .ok () ∧ Listed t row tasks h := by
      have htail : ∀ h, Listed t row (e :: tasks) h →
          (e = (t, row) → Audited (auditKey t row.version row.state) h) → Listed t row tasks h := by
        rintro h ⟨hex, hmem | ha⟩ hhere
        · rcases List.mem_cons.mp hmem with he | hmem
          · exact ⟨fun x hx => hex x (List.mem_cons_of_mem e hx), Or.inr (hhere he.symm)⟩
          · exact ⟨fun x hx => hex x (List.mem_cons_of_mem e hx), Or.inl hmem⟩
        · exact ⟨fun x hx => hex x (List.mem_cons_of_mem e hx), Or.inr ha⟩
      split
      · refine Outline.post (auditTaskTerminal_audits (listed_lasts _) fun h hh => hh.1 e List.mem_cons_self) ?_
        rintro x h ⟨rfl, hh, ha⟩
        refine ⟨rfl, htail h hh ?_⟩
        rintro rfl
        exact ha hterm
      · rename_i hout
        refine fun h _ hh => ⟨rfl, htail h hh ?_⟩
        rintro rfl
        exact absurd hscope hout
    refine Outline.bind hhead fun x => ?_
    cases x with
    | ok => exact ih.weaken fun _ _ hh => hh.2
    | error => exact fun _ _ hh => (by cases hh.1)

theorem auditPending_audits {taskIds : Option (List String)} (hscope : inScope taskIds t = true)
    (hterm : row.state.terminal = true) :
    PassOutline dg i t row (fun h => h.state.db.tasks.get? t = some row)
      (serve (fun _ => true) i (.auditPending taskIds)) fun _ h => Audited (auditKey t row.version row.state) h := by
  refine Outline.bind (Outline.ask_bind (Q := fun (db : Db) h => Listed t row db.tasks.rows h)
    (fun db => (listed_lasts _).stable) (fun h env _ hh => ⟨trivial, steady_call rfl, ?_, ?_⟩) fun db =>
    auditRows_audits hscope hterm db.tasks.rows) fun _ _ _ hh => hh
  · exact fun e he => ⟨e.2, Table.mem_rows.mp he⟩
  · exact Or.inl (Table.mem_rows.mpr hh)

end

/-! ## Every schedule -/

/-- The audits of a task, and with them what it adds to the ledger. -/
def auditsOf (w : World) (t : String) : List (String × AuditRow) :=
  w.audits.rows.filter fun e => decide (e.2.taskId = t)

section

variable {dg : Digests} {moves before after : List (Move Nat Request Environment)} {t : String} {row : TaskRow}

/-- A move keeps the audits and the terminal row. -/
theorem steady_move {m : Move Nat Request Environment} (hkept : TerminalKept dg moves)
    (e : moves = before ++ m :: after)
    (hterm : row.state.terminal = true) :
    Steady t row (auditRun dg before).shared (auditRun dg (before ++ [m])).shared := by
  refine ⟨fun hrow => terminal_kept hkept e hrow hterm, fun id a ha => ?_, fun key a ha => ?_⟩
  · rcases served_snoc dg (fun _ => true) before m with h | ⟨i, env, c, next, _, h⟩
    · rw [h]
      exact ⟨a, ha⟩
    · rw [h]
      exact (act_kept dg _ env c).tasks id a ha
  · rcases served_snoc dg (fun _ => true) before m with h | ⟨i, env, c, next, _, h⟩
    · rw [h]
      exact ha
    · rw [h]
      exact act_audits_mono ha

/-- A pass that has come to its end has audited the terminal tasks of its scope. -/
theorem finished_pass_audits (hkept : TerminalKept dg moves) {i : Nat} {taskIds : Option (List String)}
    (e : moves = before ++ .start i (.auditPending taskIds) :: after) (hidle : (auditRun dg before).thread i = none)
    (hdrop : .drop i ∉ after) (hrow : (auditRun dg before).shared.state.db.tasks.get? t = some row)
    (hterm : row.state.terminal = true) (hscope : inScope taskIds t = true)
    (hend : (auditRun dg moves).thread i = some (.ret ())) :
    Audited (auditKey t row.version row.state) (auditRun dg moves).shared := by
  set m : Move Nat Request Environment := .start i (.auditPending taskIds)
  have hstart : auditRun dg (before ++ [m]) =
      (auditRun dg before).set i (some (serve (fun _ => true) i (.auditPending taskIds))) := by
    rw [auditRun, served, Pool.run_snoc]
    show Pool.move _ _ (auditRun dg before) m = _
    simp only [m, Pool.move, hidle]
  have hsplit : ∀ ms, auditRun dg (before ++ [m] ++ ms) =
      (auditRun dg (before ++ [m])).run (machine dg).traced (serve fun _ => true) ms :=
    fun ms => Pool.run_append ..
  have hall : moves = before ++ [m] ++ after := by rw [e]; simp
  have hthread : (auditRun dg (before ++ [m])).thread i = some (serve (fun _ => true) i (.auditPending taskIds)) := by
    rw [hstart]
    simp [Pool.set]
  have hsteady : ∀ b m' a, after = b ++ m' :: a → Steady t row
      ((auditRun dg (before ++ [m])).run (machine dg).traced (serve fun _ => true) b).shared
      ((auditRun dg (before ++ [m])).run (machine dg).traced (serve fun _ => true) (b ++ [m'])).shared := by
    intro b m' a ea
    have hfull : moves = (before ++ [m] ++ b) ++ m' :: a := by
      rw [hall, ea]
      simp
    rw [← hsplit, ← hsplit, ← List.append_assoc]
    exact steady_move hkept hfull hterm
  obtain ⟨q, ψ, hq, hψ, hout⟩ := Pool.run_follow after hthread (fun _ _ _ _ _ _ hg hh => hg.row hh)
    (by rw [hstart]; exact hrow) (auditPending_audits hscope hterm) hdrop hsteady
  rw [← hsplit, ← hall] at hq hψ
  rw [hend] at hq
  obtain rfl := Option.some.inj hq
  exact hout _ trivial hψ

theorem AuditsCurrent.le_one {w : World} (hw : AuditsCurrent w) (t : String) : (auditsOf w t).length ≤ 1 := by
  have hkey : ∀ e ∈ auditsOf w t, CurrentKey t e.2.terminalState e.1 w.db := by
    intro e he
    obtain ⟨hmem, htask⟩ := List.mem_filter.mp he
    have hcurrent := hw e.1 e.2 (Table.mem_rows.mp hmem)
    rw [of_decide_eq_true htask] at hcurrent
    exact hcurrent
  have hnodup : ((auditsOf w t).map Prod.fst).Nodup := w.audits.nodup.sublist (List.filter_sublist.map Prod.fst)
  match h : auditsOf w t with
  | [] => simp
  | [_] => simp
  | x :: y :: rest =>
    rw [h] at hkey hnodup
    obtain ⟨row, hrow, _, _, hx⟩ := hkey x List.mem_cons_self
    obtain ⟨row', hrow', _, _, hy⟩ := hkey y (List.mem_cons_of_mem x List.mem_cons_self)
    rw [hrow] at hrow'
    obtain rfl := Option.some.inj hrow'
    have hsame : x.1 = y.1 := hx.symm.trans hy
    simp [hsame] at hnodup

theorem AuditsCurrent.mem_auditsOf {w : World} (hw : AuditsCurrent w) {v : Nat} {s : TaskState} {a : AuditRow}
    (ha : w.audits.get? (auditKey t v s) = some a) : (auditKey t v s, a) ∈ auditsOf w t := by
  obtain ⟨_, _, _, _, hkey⟩ := hw _ a ha
  exact List.mem_filter.mpr ⟨Table.mem_rows.mpr ha, decide_eq_true (auditKey_inj hkey).1⟩

end

/-- **Terminal usage is audited once.**  Any number of processes dispatch, execute, recover, cancel and audit, any
number of clients use the store, calls interleave in every order and processes crash anywhere.  As long as no committed
operation rewrites the row of a task that is already terminal, every task has at most one audit, and a task that is
terminal when a pass over it starts has exactly one when the pass has come to its end. -/
theorem terminal_usage_audited_once (dg : Digests) (moves : List (Move Nat Request Environment))
    (hkept : TerminalKept dg moves) :
    (∀ t, (auditsOf (auditRun dg moves).shared.state t).length ≤ 1) ∧
    ∀ before i taskIds after t row, moves = before ++ .start i (.auditPending taskIds) :: after →
      (auditRun dg before).thread i = none → .drop i ∉ after →
      (auditRun dg before).shared.state.db.tasks.get? t = some row → row.state.terminal = true →
      inScope taskIds t = true → (auditRun dg moves).thread i = some (.ret ()) →
      (auditsOf (auditRun dg moves).shared.state t).length = 1 := by
  have hcurrent := auditRun_current moves hkept
  refine ⟨hcurrent.le_one, fun before i taskIds after t row e hidle hdrop hrow hterm hscope hend => ?_⟩
  obtain ⟨a, ha⟩ := finished_pass_audits hkept e hidle hdrop hrow hterm hscope hend
  have hmem := hcurrent.mem_auditsOf ha
  have hpos := List.length_pos_of_mem hmem
  have hle := hcurrent.le_one t
  omega

section

private def lastAttempt (runtimeId : String) : Supervisor :=
  ⟨runtimeId, fun _ => some .legacy, 1, 1000000, 30000000, 1000000⟩

private def meteredAdapter : Environment :=
  { Environment.failing with telemetry := [⟨"invocationTelemetry", "local:p:worker:w", "run-w"⟩] }

private def stepped (n i : Nat) (env : Environment) : List (Move Nat Request Environment) :=
  List.replicate n (.step i env)

-- a process claims the only task of one allowed attempt and crashes; after its lease has run out a recovery begins, and
-- makes `n` calls
private def recovering (n : Nat) : List (Move Nat Request Environment) :=
  [.start 0 (.client (.createTask ⟨"t", "p", "#0001", .ready, .single, 0⟩)), .step 0 meteredAdapter,
    .start 1 (.client (.upsertWorker "w" ⟨.idle, .available, none⟩)), .step 1 meteredAdapter,
    .start 2 (.dispatch (lastAttempt "A") none fun a b => decide (a ≤ b))] ++ stepped 6 2 meteredAdapter ++
  [.drop 2, .start 3 (.recover (lastAttempt "A") none)] ++ stepped n 3 { meteredAdapter with wait := 31000000 }

-- both recoveries have listed the INTERRUPTED task before either of them fails and audits it
private def recoveredTwice : List (Move Nat Request Environment) :=
  recovering 8 ++ [.start 4 (.recover (lastAttempt "B") none)] ++ stepped 7 4 meteredAdapter ++
    stepped 5 3 meteredAdapter ++ stepped 5 4 meteredAdapter

theorem concurrent_recoveries_audit_twice :
    (auditsOf (auditRun .trivial recoveredTwice).shared.state "t").map (fun e => (e.1, e.2.observations)) =
      [("task:t:version:4:state:failed", meteredAdapter.telemetry),
        ("task:t:version:5:state:failed", meteredAdapter.telemetry)] := by
  decide +kernel

-- one recovery comes to its end, then another process audits whatever is pending
private def recoveredThenAudited : List (Move Nat Request Environment) :=
  recovering 16 ++ .start 5 (.auditPending none) :: stepped 3 5 meteredAdapter

private def leftAlone (db : Db) (after : List RuntimeEvent) : Bool :=
  after.all fun e => (committedOp e).all fun op => !reopens db op

private theorem recoveredThenAudited_kept : TerminalKept .trivial recoveredThenAudited := by
  intro before m after e event op htrace hop
  have hkept : ∀ n < recoveredThenAudited.length,
      leftAlone (auditRun .trivial (recoveredThenAudited.take n)).shared.state.db
        ((auditRun .trivial (recoveredThenAudited.take (n + 1))).shared.trace.drop
          (auditRun .trivial (recoveredThenAudited.take n)).shared.trace.length) = true := by
    decide +kernel
  have hlength : before.length < recoveredThenAudited.length := by rw [e]; simp
  have hnext := hkept _ hlength
  have hbefore : recoveredThenAudited.take before.length = before := by rw [e]; simp
  have hafter : recoveredThenAudited.take (before.length + 1) = before ++ [m] := by
    rw [e, List.take_length_add_append]
    rfl
  rw [hbefore, hafter, htrace] at hnext
  simpa [leftAlone, hop] using hnext

theorem terminal_usage_audited_once_recovered :
    ((auditRun .trivial (recovering 16)).shared.state.db.tasks.get? "t").map TaskRow.state = some .failed ∧
      (auditsOf (auditRun .trivial recoveredThenAudited).shared.state "t").length = 1 := by
  have hfailed :
      ((auditRun .trivial (recovering 16)).shared.state.db.tasks.get? "t").map TaskRow.state = some .failed := by
    decide +kernel
  obtain ⟨row, hrow, hstate⟩ := Option.map_eq_some_iff.mp hfailed
  have hend : ((auditRun .trivial recoveredThenAudited).thread 5).any
      (fun p => decide (¬ p.Poised fun _ => True)) = true := by
    decide +kernel
  obtain ⟨p, hp, hreturned⟩ := (Option.any_eq_true ..).mp hend
  have hp' : (auditRun .trivial recoveredThenAudited).thread 5 = some (.ret ()) := by
    cases p with
    | ret u => exact hp
    | call c next => exact absurd trivial (of_decide_eq_true hreturned)
  refine ⟨hfailed, (terminal_usage_audited_once .trivial recoveredThenAudited recoveredThenAudited_kept).2
    (recovering 16) 5
    none (stepped 3 5 meteredAdapter) "t" row rfl (by decide +kernel) (fun h => ?_) hrow ?_ rfl hp'⟩
  · cases List.eq_of_mem_replicate h
  · rw [hstate]
    rfl

end

end AgentFabric.Runtime
