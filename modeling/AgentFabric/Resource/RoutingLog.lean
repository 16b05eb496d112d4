import AgentFabric.Lib.ChangeLog
import AgentFabric.Lib.JsonLeaves
import AgentFabric.Resource.Scheduler

/-!
# The log of routing decisions

The tables `routing_decisions` and `routing_candidates`, which `persist_routing_decision` appends to.  The newest row
of a task is found by its creation time, in whole seconds, and its random identifier.
-/

namespace AgentFabric.Resource

open AgentFabric.Lib AgentFabric.Store

variable {F : JsonFloats}

/-- A `CandidateScore` with the numbers that are stored. -/
structure ScoredCandidate (F : JsonFloats) where
  workerId : String
  score : F.Val
  components : List (Text × F.Val)

/-- A routing decision with what is recorded of it; its explanation is an object of JSON. -/
structure ExplainedDecision (F : JsonFloats) extends RoutingDecision where
  candidates : List (ScoredCandidate F)
  policyVersion : String
  explanation : List (Text × Value F.Val)
  readable : (Value.dict explanation).Readable
  written : (canonicalText F (.dict explanation)).isSome = true

/-- Equal decisions: the order of the entries of an explanation does not count. -/
def ExplainedDecision.Equal (d d' : ExplainedDecision F) : Prop :=
  d.topology = d'.topology ∧ d.policyVersion = d'.policyVersion ∧ d.selectedWorkerIds = d'.selectedWorkerIds ∧
    (Value.dict d.explanation).Same (.dict d'.explanation)

/-- The columns of a row that are compared. -/
structure RoutingContent where
  topology : ExecutionTopology
  policyVersion : String
  selectedWorkersJson : Text
  explanationJson : Text
deriving DecidableEq

/-- A row of `routing_decisions`; its identifier is its key. -/
structure RoutingRow extends RoutingContent where
  taskId : String
  createdAt : Nat
deriving DecidableEq

/-- A row of `routing_candidates`; its key is the decision, the worker and the code of the rejection. -/
structure CandidateRow (F : JsonFloats) where
  selected : Bool
  score : Option F.Val
  componentsJson : Option Text
  rejectionDetail : Option String

structure RoutingLog (F : JsonFloats) where
  decisions : Table String RoutingRow
  candidates : Table (String × String × String) (CandidateRow F)

def RoutingLog.empty : RoutingLog F := ⟨.empty, .empty⟩

/-- One call of `persist_routing_decision`, with the clock, the random identifier and the project of the task, if it
exists. -/
structure Persist (F : JsonFloats) where
  taskId : String
  decision : ExplainedDecision F
  uuid : String
  now : Nat
  project : Option String

/-! ## The transaction -/

def selectedJson (ids : List String) : Option Text := canonicalText F (.list (ids.map fun id => .str (lit id)))

def ExplainedDecision.content (d : ExplainedDecision F) : RoutingContent where
  topology := d.topology
  policyVersion := d.policyVersion
  selectedWorkersJson := (selectedJson (F := F) d.selectedWorkerIds).getD []
  explanationJson := (canonicalText F (.dict d.explanation)).getD []

def Persist.id (c : Persist F) : String := "rte-" ++ c.uuid

def Persist.row (c : Persist F) : RoutingRow where
  toRoutingContent := c.decision.content
  taskId := c.taskId
  createdAt := timestamp c.now

def Persist.entry (c : Persist F) : String × RoutingRow := (c.id, c.row)

/-- `(created_at, id)`. -/
def decisionAge (row : String × RoutingRow) : Nat ×ₗ String := toLex (row.2.createdAt, row.1)

def RoutingLog.rowsOf (log : RoutingLog F) (taskId : String) : List (String × RoutingRow) :=
  log.decisions.rows.filter fun row => decide (row.2.taskId = taskId)

/-- `WHERE task_id=? ORDER BY created_at DESC,id DESC LIMIT 1`. -/
def RoutingLog.latest (log : RoutingLog F) (taskId : String) : Option (String × RoutingRow) :=
  (log.rowsOf taskId).argmax decisionAge

/-- One row of a candidate, with one rejection of its worker or none. -/
def candidateRow (id : String) (selected : List String) (c : ScoredCandidate F) (rejection : Option Rejection) :
    Option ((String × String × String) × CandidateRow F) := do
  let components ← canonicalText F (.dict (c.components.map fun e => (e.1, .float e.2)))
  return ((id, c.workerId, (rejection.map (·.reasonCode)).getD ""),
    ⟨decide (c.workerId ∈ selected), some c.score, some components, rejection.map (·.detail)⟩)

/-- The rows of the candidates, each of which takes the rejections of its worker, and those of the other workers. -/
def candidateRows (id : String) (selected : List String) :
    List (ScoredCandidate F) → List Rejection → Option (List ((String × String × String) × CandidateRow F))
  | [], rejected =>
    some ((rejected.map (·.workerId)).eraseDups.flatMap fun worker =>
      (rejected.filter fun r => decide (r.workerId = worker)).map fun r =>
        ((id, worker, r.reasonCode), ⟨false, none, none, some r.detail⟩))
  | c :: candidates, rejected => do
    let mine := rejected.filter fun r => decide (r.workerId = c.workerId)
    let rows ← (if mine.isEmpty then [none] else mine.map some).mapM (candidateRow id selected c)
    let others ← candidateRows id selected candidates (rejected.filter fun r => !decide (r.workerId = c.workerId))
    return rows ++ others

/-- `persist_routing_decision`, which returns the identifier of the row that stands for the decision. -/
def persistRoutingDecision (log : RoutingLog F) (c : Persist F) : Except StoreError (String × RoutingLog F) := do
  let _ ← orRaise c.project (.keyError c.taskId)
  match (log.latest c.taskId).filter fun previous => decide (previous.2.toRoutingContent = c.decision.content) with
  | some previous => return (previous.1, log)
  | none =>
    let decisions ← orRaise (log.decisions.insert? c.id c.row)
      (.integrityError "UNIQUE constraint failed: routing_decisions.id")
    let rows ← orRaise (candidateRows c.id c.decision.selectedWorkerIds c.decision.candidates c.decision.rejected)
      (.valueError "Exceeds the limit for integer string conversion")
    let candidates ← orRaise (log.candidates.insertAll? rows)
      (.integrityError "UNIQUE constraint failed: routing_candidates")
    return (c.id, ⟨decisions, candidates⟩)

def listRoutingDecisions (log : RoutingLog F) (taskId : String) : List (String × RoutingRow) :=
  (log.rowsOf taskId).mergeSort fun a b => decide (decisionAge a ≤ decisionAge b)

/-- The log, and the calls that have persisted a decision; a call that raises changes nothing. -/
structure Session (F : JsonFloats) where
  log : RoutingLog F
  persisted : List (Persist F)

def Session.step (s : Session F) (c : Persist F) : Session F :=
  match persistRoutingDecision s.log c with
  | .ok (_, log) => ⟨log, s.persisted ++ [c]⟩
  | .error _ => s

/-- The session after some calls, from empty tables. -/
def session (calls : List (Persist F)) : Session F := calls.foldl Session.step ⟨.empty, []⟩

def Session.of (s : Session F) (taskId : String) : List (Persist F) :=
  s.persisted.filter fun c => decide (c.taskId = taskId)

/-! ## Equal decisions -/

theorem ch_val (c : Char) : (ch c).val = c.toNat :=
  Nat.mod_eq_of_lt (c.valid.elim (fun h => h.trans (by omega)) And.right)

theorem lit_injective {s t : String} (h : lit s = lit t) : s = t := by
  have hch : Function.Injective ch := by
    intro a b hab
    have hval := congrArg Fin.val hab
    rw [ch_val, ch_val] at hval
    exact Char.toNat_inj.mp hval
  exact String.ext (List.map_injective_iff.mpr hch h)

theorem lit_plain (s : String) : Plain (lit s) := by
  intro c hc
  obtain ⟨a, -, rfl⟩ := List.mem_map.mp hc
  simp only [CodePoint.surrogate, decide_eq_false_iff_not, ch_val]
  have hvalid : a.toNat < 0xD800 ∨ 0xDFFF < a.toNat ∧ a.toNat < 0x110000 := a.valid
  omega

section

variable (ids ids' : List String)

theorem selected_readable : (Value.list (ids.map fun id => .str (lit id)) : Value F.Val).Readable := by
  refine .list fun v hv => ?_
  obtain ⟨id, -, rfl⟩ := List.mem_map.mp hv
  exact .str (lit_plain id).joined

theorem selectedJson_isSome : (selectedJson (F := F) ids).isSome = true := by
  rw [selectedJson, canonicalText, Value.sorted, Value.sortedItems_eq_map, Spelling.renderBy, Option.isSome_map]
  refine renderItemsBy_isSome fun v hv => ?_
  rw [List.map_map] at hv
  obtain ⟨id, -, rfl⟩ := List.mem_map.mp hv
  rfl

theorem selectedJson_injective (h : selectedJson (F := F) ids = selectedJson (F := F) ids') : ids = ids' := by
  obtain ⟨t, ht⟩ := Option.isSome_iff_exists.mp (selectedJson_isSome (F := F) ids)
  have hsame := canonicalText_injective (selected_readable ids) (selected_readable ids') ht (h.symm.trans ht)
  have hitems : ∀ l : List String, ((l.map fun id => (.str (lit id) : Value F.Val)).map Value.sorted) =
      l.map fun id => .str (lit id) := fun l => by rw [List.map_map]; rfl
  rw [Value.Same, Value.sorted, Value.sorted, Value.sortedItems_eq_map, Value.sortedItems_eq_map, hitems,
    hitems] at hsame
  refine List.map_injective_iff.mpr ?_ (Value.list.inj hsame)
  intro a b hab
  exact lit_injective (Value.str.inj hab)

end

/-- **Two decisions are equal exactly if their columns are.** -/
theorem content_eq_iff {d d' : ExplainedDecision F} : d.content = d'.content ↔ d.Equal d' := by
  have hselected : (selectedJson (F := F) d.selectedWorkerIds).getD [] =
      (selectedJson (F := F) d'.selectedWorkerIds).getD [] ↔ d.selectedWorkerIds = d'.selectedWorkerIds := by
    obtain ⟨t, ht⟩ := Option.isSome_iff_exists.mp (selectedJson_isSome (F := F) d.selectedWorkerIds)
    obtain ⟨t', ht'⟩ := Option.isSome_iff_exists.mp (selectedJson_isSome (F := F) d'.selectedWorkerIds)
    refine ⟨fun h => selectedJson_injective (F := F) _ _ ?_, fun h => by rw [h]⟩
    rw [ht, ht'] at h ⊢
    exact congrArg some h
  have hexplanation : (canonicalText F (.dict d.explanation)).getD [] =
      (canonicalText F (.dict d'.explanation)).getD [] ↔ (Value.dict d.explanation).Same (.dict d'.explanation) := by
    obtain ⟨t, ht⟩ := Option.isSome_iff_exists.mp d.written
    obtain ⟨t', ht'⟩ := Option.isSome_iff_exists.mp d'.written
    refine ⟨fun h => canonicalText_injective d.readable d'.readable ht ?_, fun h => by rw [canonicalText_same h]⟩
    rw [ht, ht'] at h
    rw [ht']
    exact congrArg some h.symm
  simp only [ExplainedDecision.content, RoutingContent.mk.injEq, hselected, hexplanation, ExplainedDecision.Equal]

/-- A decision that is equal to one that was persisted before. -/
def Persist.Repeats (p c : Persist F) : Prop := p.decision.Equal c.decision

instance : DecidableRel (Persist.Repeats (F := F)) := fun p c =>
  decidable_of_iff (p.decision.content = c.decision.content) content_eq_iff

theorem repeats_equivalence : Equivalence (Persist.Repeats (F := F)) where
  refl _ := content_eq_iff.mp rfl
  symm h := content_eq_iff.mp (content_eq_iff.mpr h).symm
  trans h h' := content_eq_iff.mp ((content_eq_iff.mpr h).trans (content_eq_iff.mpr h'))

/-! ## The rows of a task -/

/-- The age of the row that would be written. -/
def Persist.age (c : Persist F) : Nat ×ₗ String := toLex (timestamp c.now, c.id)

/-- The entries that are kept of some persisted decisions. -/
def kept (persisted : List (Persist F)) : List (Persist F) :=
  persisted.foldl (record Persist.age Persist.Repeats) []

section

variable {log log' : RoutingLog F} {entries : List (Persist F)} {c : Persist F} {id : String}

theorem rowsOf_append {rows : List (String × RoutingRow)} {row : String × RoutingRow} {t : String}
    (h : log'.decisions.rows = rows ++ [row]) (hrows : rows = log.decisions.rows) :
    log'.rowsOf t = log.rowsOf t ++ if row.2.taskId = t then [row] else [] := by
  rw [RoutingLog.rowsOf, h, hrows, List.filter_append, RoutingLog.rowsOf, List.filter_singleton]
  by_cases ht : row.2.taskId = t <;> simp [ht]

theorem latest_eq (hrows : log.rowsOf c.taskId = entries.map Persist.entry) :
    log.latest c.taskId = (entries.argmax Persist.age).map Persist.entry := by
  rw [RoutingLog.latest, hrows, argmax_map]
  rfl

theorem listRoutingDecisions_getLast? (log : RoutingLog F) (t : String) :
    (listRoutingDecisions log t).getLast? = log.latest t := by
  refine getLast?_mergeSort fun a ha b hb hage => ?_
  have hid : a.1 = b.1 := congrArg (fun x : Nat ×ₗ String => (ofLex x).2) hage
  have hget := Table.mem_rows.mp (List.mem_filter.mp ha).1
  have hget' := Table.mem_rows.mp (List.mem_filter.mp hb).1
  rw [hid, hget'] at hget
  exact Prod.ext hid (Option.some.inj hget).symm

/-- What persisting a decision does: the newest row of the task stands for it, or a row is appended. -/
theorem persist_cases (hrows : log.rowsOf c.taskId = entries.map Persist.entry)
    (h : persistRoutingDecision log c = .ok (id, log')) :
    (∃ p ∈ entries.argmax Persist.age, p.Repeats c ∧ id = p.id ∧ log' = log) ∨
      ((∀ p ∈ entries.argmax Persist.age, ¬ p.Repeats c) ∧ id = c.id ∧
        log'.decisions.rows = log.decisions.rows ++ [c.entry]) := by
  obtain ⟨_, _, h⟩ := bind_eq_ok.mp h
  rw [latest_eq hrows] at h
  cases hmax : entries.argmax Persist.age with
  | none =>
    rw [hmax] at h
    simp only [Option.map_none, Option.filter_none, bind_eq_ok, orRaise_eq_ok, pure_eq_ok] at h
    obtain ⟨decisions, hdecisions, _, _, candidates, _, heq⟩ := h
    obtain ⟨rfl, rfl⟩ := Prod.mk.inj heq
    exact Or.inr ⟨(by rintro _ ⟨⟩), rfl, Table.insert?_rows hdecisions⟩
  | some p =>
    rw [hmax, Option.map_some] at h
    by_cases hrep : p.Repeats c
    · have hcontent : p.entry.2.toRoutingContent = c.decision.content := content_eq_iff.mpr hrep
      simp only [Option.filter_some, hcontent, decide_true, if_true, pure_eq_ok] at h
      obtain ⟨rfl, rfl⟩ := Prod.mk.inj h
      exact Or.inl ⟨p, rfl, hrep, rfl, rfl⟩
    · have hcontent : ¬ p.entry.2.toRoutingContent = c.decision.content := fun heq => hrep (content_eq_iff.mp heq)
      simp only [Option.filter_some, hcontent, decide_false, Bool.false_eq_true, if_false, bind_eq_ok, orRaise_eq_ok,
        pure_eq_ok] at h
      obtain ⟨decisions, hdecisions, _, _, candidates, _, heq⟩ := h
      obtain ⟨rfl, rfl⟩ := Prod.mk.inj heq
      refine Or.inr ⟨fun q hq => ?_, rfl, Table.insert?_rows hdecisions⟩
      rw [← Option.some.inj hq]
      exact hrep

theorem rowsOf_persist (hrows : log.rowsOf c.taskId = entries.map Persist.entry)
    (h : persistRoutingDecision log c = .ok (id, log')) :
    log'.rowsOf c.taskId = (record Persist.age Persist.Repeats entries c).map Persist.entry := by
  rcases persist_cases hrows h with ⟨p, hp, hrep, -, rfl⟩ | ⟨hnew, -, happend⟩
  · rw [record_repeated hp hrep, hrows]
  · rw [record_new hnew, rowsOf_append happend rfl, hrows, List.map_append]
    simp [Persist.entry, Persist.row]

theorem rowsOf_persist_other {t : String} (hrows : log.rowsOf c.taskId = entries.map Persist.entry)
    (h : persistRoutingDecision log c = .ok (id, log')) (ht : c.taskId ≠ t) : log'.rowsOf t = log.rowsOf t := by
  rcases persist_cases hrows h with ⟨p, _, _, -, rfl⟩ | ⟨-, -, happend⟩
  · rfl
  · rw [rowsOf_append happend rfl]
    simp [Persist.entry, Persist.row, ht]

end

/-! ## Sessions -/

theorem session_snoc (calls : List (Persist F)) (c : Persist F) :
    session (calls ++ [c]) = (session calls).step c := List.foldl_append

theorem step_ok {s : Session F} {c : Persist F} {id : String} {log : RoutingLog F}
    (h : persistRoutingDecision s.log c = .ok (id, log)) : s.step c = ⟨log, s.persisted ++ [c]⟩ := by
  simp only [Session.step, h]

theorem of_append (s : Session F) (log : RoutingLog F) (c : Persist F) (t : String) :
    Session.of ⟨log, s.persisted ++ [c]⟩ t = s.of t ++ if c.taskId = t then [c] else [] := by
  rw [Session.of, List.filter_append, List.filter_singleton]
  by_cases ht : c.taskId = t <;> simp [ht, Session.of]

/-- **The rows of a task are what is kept of its persisted decisions.** -/
theorem rowsOf_session (calls : List (Persist F)) (t : String) :
    (session calls).log.rowsOf t = (kept ((session calls).of t)).map Persist.entry := by
  induction calls using List.reverseRecOn generalizing t with
  | nil => rfl
  | append_singleton calls c ih =>
    rw [session_snoc]
    cases h : persistRoutingDecision (session calls).log c with
    | error => simpa only [Session.step, h] using ih t
    | ok result =>
      obtain ⟨id, log⟩ := result
      rw [step_ok h, of_append]
      by_cases ht : c.taskId = t
      · subst ht
        rw [if_pos rfl, kept, List.foldl_append]
        exact rowsOf_persist (ih c.taskId) h
      · rw [if_neg ht, List.append_nil, ← ih t]
        exact rowsOf_persist_other (ih c.taskId) h ht

/-! ## Deduplication -/

/-- What persisting a decision must do: one that is equal to the decision persisted last adds nothing, another one
adds exactly its row, and the row that is listed last is the one that stands for the decision. -/
structure Appends (log log' : RoutingLog F) (last : Option (Persist F)) (c : Persist F) (id : String) : Prop where
  repeated : ∀ p ∈ last, p.decision.Equal c.decision → log' = log
  new : (∀ p ∈ last, ¬ p.decision.Equal c.decision) → log'.decisions.rows = log.decisions.rows ++ [(id, c.row)]
  latest : ∃ row, (listRoutingDecisions log' c.taskId).getLast? = some (id, row) ∧
    row.toRoutingContent = c.decision.content

/-- Every decision of the task is persisted so. -/
def Deduplicated (t : String) (calls : List (Persist F)) : Prop :=
  ∀ pre c post, calls = pre ++ c :: post → c.taskId = t → ∀ id log',
    persistRoutingDecision (session pre).log c = .ok (id, log') →
      Appends (session pre).log log' ((session pre).of t).getLast? c id

theorem appends_iff {log log' : RoutingLog F} {entries : List (Persist F)} {c : Persist F} {id : String}
    {last : Option (Persist F)} (hrows : log.rowsOf c.taskId = entries.map Persist.entry)
    (h : persistRoutingDecision log c = .ok (id, log')) : Appends log log' last c id ↔
      Recorded Persist.age Persist.Repeats entries (record Persist.age Persist.Repeats entries c) last c := by
  have hlatest : (listRoutingDecisions log' c.taskId).getLast? =
      ((record Persist.age Persist.Repeats entries c).argmax Persist.age).map Persist.entry := by
    rw [listRoutingDecisions_getLast?, latest_eq (rowsOf_persist hrows h)]
  rcases persist_cases hrows h with ⟨p, hp, hrep, rfl, rfl⟩ | ⟨hnew, rfl, happend⟩
  · -- the newest row stands for the decision, so nothing was written
    have hsame : record Persist.age Persist.Repeats entries c = entries := record_repeated hp hrep
    rw [hsame] at hlatest ⊢
    have hstays : ∀ x : String × RoutingRow, log'.decisions.rows ≠ log'.decisions.rows ++ [x] := by simp
    have hkept : entries ≠ entries ++ [c] := by simp
    constructor
    · intro happ
      exact ⟨fun _ _ _ => rfl, fun hn => absurd (happ.new hn) (hstays _), p, hp, hrep⟩
    · intro hrec
      refine ⟨fun _ _ _ => rfl, fun hn => absurd (hrec.new hn) hkept, p.row, ?_, content_eq_iff.mpr hrep⟩
      rw [hlatest, hp]
      rfl
  · have hgrown : record Persist.age Persist.Repeats entries c = entries ++ [c] := record_new hnew
    rw [hgrown] at hlatest ⊢
    have hgrew : log' ≠ log := by
      rintro rfl
      simp at happend
    have hkept : entries ++ [c] ≠ entries := by simp
    constructor
    · intro happ
      obtain ⟨row, hrow, hcontent⟩ := happ.latest
      rw [hlatest] at hrow
      obtain ⟨b, hb, hentry⟩ := Option.map_eq_some_iff.mp hrow
      refine ⟨fun p hp hrep => absurd (happ.repeated p hp hrep) hgrew, fun _ => rfl, b, hb, content_eq_iff.mp ?_⟩
      rw [← hcontent, ← show b.row = row from congrArg Prod.snd hentry]
      rfl
    · intro hrec
      refine ⟨fun p hp hrep => absurd (hrec.repeated p hp hrep) hkept, fun _ => happend, c.row, ?_, rfl⟩
      obtain ⟨b, hb, hrep⟩ := hrec.latest
      rw [hlatest, hb]
      -- the newest entry is not the one that was newest before, which differs
      rw [List.argmax_concat] at hb
      cases hmax : entries.argmax Persist.age with
      | none =>
        rw [hmax] at hb
        rw [← Option.some.inj hb]
        rfl
      | some q =>
        rw [hmax] at hb
        dsimp only at hb
        split at hb
        · rw [← Option.some.inj hb]
          rfl
        · rw [← Option.some.inj hb] at hrep
          exact absurd hrep (hnew q hmax)

/-- **The log of routing decisions** of a task is deduplicated exactly if the decisions that differ from the one
persisted before them come at increasing pairs of a whole second and an identifier. -/
theorem routing_log_iff (t : String) (calls : List (Persist F)) :
    Deduplicated t calls ↔ Increasing Persist.age Persist.Repeats ((session calls).of t) := by
  induction calls using List.reverseRecOn with
  | nil =>
    refine ⟨fun _ => List.Pairwise.nil, fun _ pre c post h => ?_⟩
    exact absurd h.symm (by simp)
  | append_singleton calls c ih =>
    unfold Deduplicated at ih ⊢
    rw [forall_splits_snoc, ih, session_snoc]
    cases h : persistRoutingDecision (session calls).log c with
    | error e =>
      simp only [Session.step, h]
      exact ⟨fun hboth => hboth.1, fun hinc => ⟨hinc, fun _ _ _ => (by rintro ⟨⟩)⟩⟩
    | ok result =>
      obtain ⟨id, log⟩ := result
      rw [step_ok h, of_append]
      by_cases ht : c.taskId = t
      · subst ht
        rw [if_pos rfl]
        have hstep : Increasing Persist.age Persist.Repeats ((session calls).of c.taskId) →
            (Appends (session calls).log log ((session calls).of c.taskId).getLast? c id ↔
              Increasing Persist.age Persist.Repeats ((session calls).of c.taskId ++ [c])) := by
          intro hinc
          have hrows := rowsOf_session calls c.taskId
          rw [kept, foldl_record repeats_equivalence hinc] at hrows
          rw [appends_iff hrows h, recorded_iff_increasing repeats_equivalence hinc]
        constructor
        · rintro ⟨hinc, happ⟩
          exact (hstep hinc).mp (happ rfl id log rfl)
        · intro hinc
          refine ⟨hinc.of_snoc, fun _ id' log' heq => ?_⟩
          obtain ⟨rfl, rfl⟩ := Prod.mk.inj (Except.ok.inj heq)
          exact (hstep hinc.of_snoc).mpr hinc
      · rw [if_neg ht, List.append_nil]
        exact ⟨fun hboth => hboth.1, fun hinc => ⟨hinc, fun heq => absurd heq ht⟩⟩

/-! ## Three decisions within a second -/

/-- The choice of one worker, without candidates and without an explanation. -/
def choice (worker : String) : ExplainedDecision sampleFloats where
  topology := .single
  selectedWorkerIds := [worker]
  rejected := []
  candidates := []
  policyVersion := "policy-1"
  explanation := []
  readable := .dict List.nodup_nil nofun nofun
  written := rfl

/-- The choice changes and changes back within a second. -/
def alternating : List (Persist sampleFloats) :=
  [⟨"t", choice "a", "2", 0, some "p"⟩, ⟨"t", choice "b", "1", 0, some "p"⟩, ⟨"t", choice "a", "3", 0, some "p"⟩]

private def firstTwo : Session sampleFloats := session (alternating.take 2)

/-- The third decision differs from the second one, and still adds no row. -/
theorem alternating_lost : ¬ Deduplicated "t" alternating := by
  intro h
  have hpersist : persistRoutingDecision firstTwo.log ⟨"t", choice "a", "3", 0, some "p"⟩ =
      .ok ("rte-2", firstTwo.log) := rfl
  have hlast : (firstTwo.of "t").getLast? = some ⟨"t", choice "b", "1", 0, some "p"⟩ := rfl
  have hdiffer : (choice "b").content ≠ (choice "a").content := by decide +kernel
  have happ := h (alternating.take 2) _ [] rfl rfl _ _ hpersist
  have hrows := happ.new fun p hp heq => by
    obtain rfl := Option.some.inj (hlast.symm.trans hp)
    exact hdiffer (content_eq_iff.mpr heq)
  have hlength := congrArg List.length hrows
  rw [List.length_append, List.length_singleton] at hlength
  exact Nat.succ_ne_self _ hlength.symm

end AgentFabric.Resource
