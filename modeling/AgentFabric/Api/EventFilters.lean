import AgentFabric.Api.EventErrors

/-!
# The filters of an event query

Some filters are conditions in SQL on what is stored; they are meant for what is on the wire.
-/

namespace AgentFabric.Api

open AgentFabric.Lib

variable {P : Platform}

/-! ## What a filter says -/

/-- `search` occurs in a text, ignoring case. -/
def OccursIn (P : Platform) (search t : Text) : Prop := P.lower search <:+: P.lower t

/-- The event is as the filter says: the search text occurs in the message, or in a key or a text of the payload. -/
structure Satisfies (f : EventFilter) (minimum : EventSeverity) (v : WireEvent P) : Prop where
  node : isIn v.nodeID f.nodes = true
  harness : isIn v.harness f.harnesses = true
  task : isIn v.taskID f.tasks = true
  goal : isIn v.goalID f.goals = true
  kind : isIn (some v.kind) f.kinds = true
  severity : minimum.rank ≤ v.severity.rank
  search : ∀ search, f.search = some search → search ≠ [] →
    OccursIn P search v.message ∨ ∃ t, .inl t ∈ v.payload.leaves ∧ OccursIn P search t

open scoped Classical in
/-- On every log, a page holds the events in its window that satisfy the filter, in their order and up to the limit. -/
def FiltersAgree (P : Platform) (f : EventFilter) : Prop := ∀ (currentHigh : Nat) (log : EventLog P) (r : EventsRequest)
  (page : EventPage P), r.toEventFilter = f → events currentHigh log r = .ok page → ∃ w minimum,
    window P currentHigh r = .ok w ∧ severityNamed f.minimumSeverity = some minimum ∧
    page.events = (((if r.ascending then log.rows else log.rows.reverse).filter
      (inWindow r.afterSequence w.1 w.2)).map event |>.filter (Satisfies f minimum ·)).take r.limit

/-- No requested kind is a kind on the wire. -/
def EventFilter.NoKind (f : EventFilter) : Prop := f.kinds ≠ [] ∧ ∀ kind ∈ f.kinds, kind ∉ eventKinds

/-- The names of harnesses mean the same in the table and on the wire. -/
def EventFilter.HarnessesAgree (f : EventFilter) : Prop :=
  (lit "localWorker" ∈ f.harnesses → lit "lmStudio" ∈ f.harnesses) ∧
  (lit "mock" ∈ f.harnesses ↔ lit "codex" ∈ f.harnesses)

def EventFilter.NoHarness (f : EventFilter) : Prop := f.harnesses ≠ [] ∧ ∀ h : Harness, h.wire ∉ f.harnesses

/-- The query raises an error, unless its search is too long and it finds no row to compare with it. -/
def EventFilter.Refused (P : Platform) (f : EventFilter) : Prop :=
  severityNamed f.minimumSeverity = none ∨ ¬ f.Bindable P ∨
    (∃ minimum, severityNamed f.minimumSeverity = some minimum ∧ P.maxVariables < f.boundValues minimum) ∨
    f.tooLong P = true

/-! ## Rows -/

/-- The row is found, if it is in the window. -/
def finds (f : EventFilter) (minimum : EventSeverity) (row : EventRow P) : Bool :=
  selected f minimum row && isIn (some (wireKind row)) f.kinds

theorem isIn_some {v : Text} {values : List Text} : isIn (some v) values = true ↔ values = [] ∨ v ∈ values := by
  simp [isIn]

theorem isIn_head (values : List Text) : isIn values.head? values = true := by
  cases values <;> simp [isIn]

theorem found_eq (log : EventLog P) (r : EventsRequest) (minimum : EventSeverity) (before high : Int) :
    found log r minimum before high = (((if r.ascending then log.rows else log.rows.reverse).filter
      (inWindow r.afterSequence before high)).filter (finds r.toEventFilter minimum)).map event := by
  have hkinds : ∀ values : List (WireEvent P),
      (if r.kinds.isEmpty then values else values.filter fun v => decide (v.kind ∈ r.kinds)) =
        values.filter fun v => isIn (some v.kind) r.kinds := by
    intro values
    cases hk : r.kinds <;> simp [isIn]
  have hrows : (if r.ascending then log.rows.filter fun row => inWindow r.afterSequence before high row &&
        selected r.toEventFilter minimum row
      else (log.rows.filter fun row => inWindow r.afterSequence before high row &&
        selected r.toEventFilter minimum row).reverse) =
      (if r.ascending then log.rows else log.rows.reverse).filter fun row =>
        inWindow r.afterSequence before high row && selected r.toEventFilter minimum row := by
    split
    · rfl
    · rw [List.filter_reverse]
  unfold found
  simp only [hrows]
  rw [hkinds]
  simp only [List.filter_map, List.filter_filter]
  congr 2
  funext row
  simp only [Function.comp, event, finds]
  cases inWindow r.afterSequence before high row <;> simp [Bool.and_comm]

variable {log : EventLog P}

theorem events_ok {currentHigh : Nat} {r : EventsRequest} {page : EventPage P} :
    events currentHigh log r = .ok page ↔ ∃ w minimum cursor, parameters P currentHigh r = .ok (w, minimum) ∧
      ¬ (r.tooLong P = true ∧ compared log r minimum w.1 w.2 = true) ∧
        nextCursor r w.2 (found log r minimum w.1 w.2) = .ok cursor ∧
      page = ⟨(found log r minimum w.1 w.2).take r.limit, cursor,
        decide (r.limit < (found log r minimum w.1 w.2).length),
        currentHigh, (found log r minimum w.1 w.2).length⟩ := by
  simp only [events, bind_eq_ok, ensure_eq_ok, pure_eq_ok]
  constructor
  · rintro ⟨⟨w, minimum⟩, hp, -, hshort, cursor, hnext, rfl⟩
    exact ⟨w, minimum, cursor, hp, hshort, hnext, rfl⟩
  · rintro ⟨w, minimum, cursor, hp, hshort, hnext, rfl⟩
    exact ⟨(w, minimum), hp, (), hshort, cursor, hnext, rfl⟩

variable {f : EventFilter}

variable {minimum : EventSeverity}

/-- Where no row is compared, none in the window has the node, the task and the severity that are asked for. -/
theorem not_compared {r : EventsRequest} {before high : Int}
    (h : compared log r minimum before high = false) {row : EventRow P} (hrow : row ∈ log.rows)
    (hwindow : inWindow r.afterSequence before high row = true) (hnode : isIn row.nodeId r.nodes = true)
    (htask : isIn row.taskId r.tasks = true) : ¬ minimum.rank ≤ row.severity.rank := by
  intro hseverity
  have hrows : (log.rows.any fun row => inWindow r.afterSequence before high row && isIn row.taskId r.tasks &&
      decide (minimum.rank ≤ row.severity.rank)) = true :=
    List.any_eq_true.mpr ⟨row, hrow, by simp [hwindow, htask, hseverity]⟩
  have hnodes : (r.nodes.isEmpty || log.nodes.any fun id => decide (id ∈ r.nodes)) = true := by
    rcases Bool.or_eq_true _ _ |>.mp hnode with hempty | hany
    · rw [hempty, Bool.true_or]
    · obtain ⟨id, hid, hmem⟩ := (Option.any_eq_true _ _).mp hany
      rw [List.any_eq_true.mpr ⟨id, log.joined row hrow id hid, hmem⟩, Bool.or_true]
  rw [compared, hrows, Bool.and_true, Bool.or_right_comm, hnodes, Bool.true_or] at h
  cases h

theorem mem_window {ascending : Bool} {p : EventRow P → Bool} {row : EventRow P}
    (h : row ∈ (if ascending then log.rows else log.rows.reverse).filter p) : row ∈ log.rows ∧ p row = true := by
  obtain ⟨hrow, hp⟩ := List.mem_filter.mp h
  refine ⟨?_, hp⟩
  split at hrow
  · exact hrow
  · exact List.mem_reverse.mp hrow

theorem found_nil {r : EventsRequest} {before high : Int}
    (h : compared log r minimum before high = false) : found log r minimum before high = [] := by
  rw [found_eq, List.map_eq_nil_iff, List.filter_eq_nil_iff]
  intro row hrow hfinds
  obtain ⟨hmem, hwindow⟩ := mem_window hrow
  simp only [finds, selected, Bool.and_eq_true, decide_eq_true_eq] at hfinds
  exact not_compared h hmem hwindow hfinds.1.1.1.1.1.1 hfinds.1.1.1.1.2 hfinds.1.1.2

theorem FiltersAgree.of_tooLong (h : f.tooLong P = true) : FiltersAgree P f := by
  rintro currentHigh log r page rfl hpage
  obtain ⟨w, minimum, cursor, hp, hshort, -, rfl⟩ := events_ok.mp hpage
  obtain ⟨⟨hminimum, hw⟩, -⟩ := parameters_ok.mp hp
  have hnone : compared log r minimum w.1 w.2 = false := Bool.eq_false_of_not_eq_true fun htrue => hshort ⟨h, htrue⟩
  refine ⟨w, minimum, window_ok.mpr hw, hminimum, ?_⟩
  rw [found_nil hnone, List.take_nil, eq_comm, List.take_eq_nil_iff]
  refine Or.inr (List.filter_eq_nil_iff.mpr fun v hv hsat => ?_)
  obtain ⟨row, hrow, rfl⟩ := List.mem_map.mp hv
  obtain ⟨hmem, hwindow⟩ := mem_window hrow
  have hsat := (@decide_eq_true_iff _ (Classical.propDecidable _)).mp hsat
  exact not_compared hnone hmem hwindow hsat.node hsat.task hsat.severity

theorem FiltersAgree.of_refused (h : f.Refused P) : FiltersAgree P f := by
  rcases h with hnone | hunbound | ⟨minimum, hminimum, hmany⟩ | hlong
  · rintro currentHigh log r page rfl hpage
    obtain ⟨w, minimum, cursor, hp, -⟩ := events_ok.mp hpage
    obtain ⟨⟨hsome, -⟩, -⟩ := parameters_ok.mp hp
    rw [hnone] at hsome
    cases hsome
  · rintro currentHigh log r page rfl hpage
    obtain ⟨w, minimum, cursor, hp, -⟩ := events_ok.mp hpage
    exact absurd (parameters_ok.mp hp).2.2.2 hunbound
  · rintro currentHigh log r page rfl hpage
    obtain ⟨w, minimum', cursor, hp, -⟩ := events_ok.mp hpage
    obtain ⟨⟨hsome, -⟩, hvalues, -⟩ := parameters_ok.mp hp
    obtain rfl : minimum = minimum' := Option.some.inj (hminimum.symm.trans hsome)
    exact absurd hmany (Nat.not_lt.mpr hvalues)
  · exact .of_tooLong hlong

theorem filtersAgree_of_rows (hminimum : severityNamed f.minimumSeverity = some minimum)
    (hrows : ∀ row : EventRow P, finds f minimum row = true ↔ Satisfies f minimum (event row)) :
    FiltersAgree P f := by
  rintro currentHigh log r page rfl hpage
  obtain ⟨w, minimum', cursor, hp, -, -, rfl⟩ := events_ok.mp hpage
  obtain ⟨⟨hsome, hw⟩, -⟩ := parameters_ok.mp hp
  obtain rfl : minimum = minimum' := Option.some.inj (hminimum.symm.trans hsome)
  refine ⟨w, minimum, window_ok.mpr hw, hminimum, ?_⟩
  rw [found_eq, List.filter_map]
  have hpoint : ∀ row : EventRow P, finds r.toEventFilter minimum row =
      @decide (Satisfies r.toEventFilter minimum (event row)) (Classical.propDecidable _) := by
    intro row
    rw [Bool.eq_iff_iff, hrows row]
    exact (@decide_eq_true_iff _ (Classical.propDecidable _)).symm
  exact congrArg (fun rows => (rows.map event).take r.limit) (List.filter_congr fun row _ => hpoint row)

theorem filtersAgree_of
    (hrows : ∀ minimum (row : EventRow P), finds f minimum row = true ↔ Satisfies f minimum (event row)) :
    FiltersAgree P f := by
  cases hminimum : severityNamed f.minimumSeverity with
  | none => exact .of_refused (Or.inl hminimum)
  | some minimum => exact filtersAgree_of_rows hminimum (hrows minimum)

theorem FiltersAgree.row {f : EventFilter} (h : FiltersAgree P f)
    (hminimum : severityNamed f.minimumSeverity = some minimum) (hrefused : ¬ f.Refused P) (row : EventRow P)
    (hsmall : row.sequence = 1) : finds f minimum row = true ↔ Satisfies f minimum (event row) := by
  simp only [EventFilter.Refused, not_or, not_exists, not_and, not_not, Nat.not_lt] at hrefused
  obtain ⟨-, hbind, hvalues, hshort⟩ := hrefused
  let log : EventLog P := ⟨[row], row.nodeId.toList, List.pairwise_singleton _ _, by simp⟩
  have hparameters : parameters P 1 ⟨f, 1, none, 0, false⟩ = .ok ((2, 1), minimum) :=
    parameters_ok.mpr ⟨⟨hminimum, Or.inr ⟨Or.inl rfl, rfl⟩⟩, hvalues minimum hminimum, by
      simp [Storable, integerBound], hbind⟩
  have hwindow : inWindow 0 2 1 row = true := by simp [inWindow, hsmall]
  have hlength : (found log ⟨f, 1, none, 0, false⟩ minimum 2 1).length ≤ 1 := by
    rw [found_eq, List.length_map]
    exact (List.length_filter_le _ _).trans (List.length_filter_le _ _)
  obtain ⟨w, minimum', hw, hsome, hpage⟩ := h 1 log ⟨f, 1, none, 0, false⟩ _ rfl
    (events_ok.mpr ⟨(2, 1), minimum, none, hparameters, fun hlong => hshort hlong.1, if_pos hlength, rfl⟩)
  obtain rfl : minimum = minimum' := Option.some.inj (hminimum.symm.trans hsome)
  obtain rfl : ((2 : Int), (1 : Int)) = w := Except.ok.inj hw
  have hrows : log.rows = [row] := rfl
  rw [found_eq, hrows] at hpage
  simp only [Bool.false_eq_true, if_false, List.reverse_singleton, List.filter_cons_of_pos hwindow, List.filter_nil,
    List.map_cons, List.map_nil] at hpage
  cases hfind : finds f minimum row <;> by_cases hsat : Satisfies f minimum (event row) <;>
    simp_all

/-! ## Kinds and harnesses -/

theorem lookup_mem {α β : Type} [BEq α] {l : List (α × β)} {k : α} {d : β} {p : β → Prop} (hd : p d)
    (hl : ∀ e ∈ l, p e.2) : p ((l.lookup k).getD d) := by
  induction l with
  | nil => exact hd
  | cons e l ih =>
    rw [List.lookup_cons]
    split
    · exact hl e List.mem_cons_self
    · exact ih fun e' he => hl e' (List.mem_cons_of_mem e he)

theorem wireKind_mem (row : EventRow P) : wireKind row ∈ eventKinds := by
  have hall : ∀ l ∈ [kindAliases, targetKinds], l.all (fun e => decide (e.2 ∈ eventKinds)) = true := by decide
  have hmem : ∀ l ∈ [kindAliases, targetKinds], ∀ e ∈ l, e.2 ∈ eventKinds := fun l hl e he =>
    of_decide_eq_true (List.all_eq_true.mp (hall l hl) e he)
  have hphase : lit "phaseChanged" ∈ eventKinds := by decide
  unfold wireKind
  split
  · split
    · exact lookup_mem hphase (hmem _ (by simp))
    · exact hphase
  · split
    · assumption
    · exact lookup_mem (by decide) (hmem _ (by simp))

theorem storedHarness_mem {h : Harness} {names : List Text} : h.value ∈ names.map storedHarness ↔
    h.value ∈ names ∨ (h = .localWorker ∧ lit "lmStudio" ∈ names) := by
  have hother : ∀ name, name ≠ lit "lmStudio" → storedHarness name = name := fun name hname => if_neg hname
  have hvalue : h.value ≠ lit "lmStudio" := by cases h <;> decide
  constructor
  · intro hmem
    obtain ⟨name, hname, heq⟩ := List.mem_map.mp hmem
    by_cases hlm : name = lit "lmStudio"
    · subst hlm
      refine Or.inr ⟨?_, hname⟩
      revert heq
      cases h <;> decide
    · rw [hother name hlm] at heq
      exact Or.inl (heq ▸ hname)
  · rintro (hmem | ⟨rfl, hmem⟩)
    · exact List.mem_map.mpr ⟨h.value, hmem, hother _ hvalue⟩
    · exact List.mem_map.mpr ⟨_, hmem, rfl⟩

theorem harnessesAgree_iff : f.HarnessesAgree ↔
    ∀ h : Harness, h.value ∈ f.harnesses.map storedHarness ↔ h.wire ∈ f.harnesses := by
  simp only [storedHarness_mem, EventFilter.HarnessesAgree]
  constructor
  · intro ⟨hlocal, hmock⟩ h
    cases h <;> simp only [Harness.wire, Harness.value, reduceCtorEq, false_and, or_false, true_and]
    · exact ⟨fun hmem => hmem.elim hlocal id, Or.inr⟩
    · exact hmock
  · intro h
    have hlocal := h .localWorker
    have hmock := h .mock
    simp only [Harness.wire, Harness.value, reduceCtorEq, false_and, or_false, true_and] at hlocal hmock
    exact ⟨fun hmem => hlocal.mp (Or.inl hmem), hmock⟩

theorem harnesses_same (h : f.HarnessesAgree) (harness : Option Harness) :
    isIn (harness.map Harness.value) (f.harnesses.map storedHarness) = isIn (harness.map Harness.wire) f.harnesses := by
  cases harness with
  | none => simp [isIn]
  | some harness =>
    rw [Bool.eq_iff_iff, Option.map_some, Option.map_some, isIn_some, isIn_some, List.map_eq_nil_iff,
      harnessesAgree_iff.mp h harness]

theorem EventFilter.NoKind.not_asked (h : f.NoKind) (row : EventRow P) :
    ¬ isIn (some (wireKind row)) f.kinds = true := by
  intro hin
  rcases isIn_some.mp hin with hempty | hmem
  · exact h.1 hempty
  · exact h.2 _ hmem (wireKind_mem row)

/-! ## Patterns -/

theorem like_cons (c : CodePoint) (p t : Text) : like (c :: p) t =
    if c = ch '%' then t.tails.any (like p)
    else match t with
      | [] => false
      | d :: t => (c = ch '_' || folded c == folded d) && like p t := rfl

theorem like_chars {p t : Text} (h : like p t = true) : ∀ c ∈ p, c = ch '%' ∨ c = ch '_' ∨
    ∃ d ∈ t, folded c = folded d := by
  induction p generalizing t with
  | nil => rintro _ ⟨⟩
  | cons c p ih =>
    rw [like_cons] at h
    split at h
    · next hc =>
      obtain ⟨t', ht', hlike⟩ := List.any_eq_true.mp h
      intro d hd
      rcases List.mem_cons.mp hd with rfl | hd
      · exact Or.inl hc
      · exact (ih hlike d hd).imp_right
          (Or.imp_right fun ⟨x, hx, heq⟩ => ⟨x, ((List.mem_tails _ _).mp ht').subset hx, heq⟩)
    · cases t with
      | nil => cases h
      | cons x =>
        obtain ⟨hx, hlike⟩ := (Bool.and_eq_true _ _).mp h
        intro d hd
        rcases List.mem_cons.mp hd with rfl | hd
        · rcases Bool.or_eq_true _ _ |>.mp hx with hx | hx
          · exact Or.inr (Or.inl (of_decide_eq_true hx))
          · exact Or.inr (Or.inr ⟨x, List.mem_cons_self, beq_iff_eq.mp hx⟩)
        · exact (ih hlike d hd).imp_right (Or.imp_right fun ⟨y, hy, heq⟩ => ⟨y, List.mem_cons_of_mem x hy, heq⟩)

theorem lowerAscii_idem (c : CodePoint) :
    Store.Redaction.lowerAscii (Store.Redaction.lowerAscii c) = Store.Redaction.lowerAscii c := by
  have ha : (ch 'A').val = 0x41 := rfl
  have hz : (ch 'Z').val = 0x5A := rfl
  by_cases h : Store.Redaction.between 'A' 'Z' c = true
  · obtain ⟨hlow, hhigh⟩ := of_decide_eq_true h
    have hval : (codePoint (c.val + 32)).val = c.val + 32 := Nat.mod_eq_of_lt (by omega)
    have hlower : Store.Redaction.lowerAscii c = codePoint (c.val + 32) := if_pos h
    rw [hlower]
    exact if_neg (by simp only [Store.Redaction.between, decide_eq_true_eq]; omega)
  · have hsame : Store.Redaction.lowerAscii c = c := if_neg h
    rw [hsame, hsame]

theorem folded_lower (c : CodePoint) : folded (Store.Redaction.lowerAscii c) = folded c := by
  by_cases h : Store.Redaction.between 'A' 'Z' c = true
  · obtain ⟨-, hhigh⟩ := of_decide_eq_true h
    have hz : (ch 'Z').val = 0x5A := rfl
    have hval : (codePoint (c.val + 32)).val = c.val + 32 := Nat.mod_eq_of_lt (by omega)
    have hlower : Store.Redaction.lowerAscii c = codePoint (c.val + 32) := if_pos h
    have hsmall : ∀ d : CodePoint, d.val < 0xFFFE → folded d = Store.Redaction.lowerAscii d := fun d hd =>
      if_neg (by omega)
    rw [hsmall _ (by rw [hlower]; omega), hsmall c (by omega), lowerAscii_idem]
  · have hsame : Store.Redaction.lowerAscii c = c := if_neg h
    rw [hsame]

theorem lowerAscii_zero {c : CodePoint} : (Store.Redaction.lowerAscii c).val = 0 ↔ c.val = 0 := by
  unfold Store.Redaction.lowerAscii
  split
  · next hbetween =>
    have hz : (ch 'Z').val = 0x5A := rfl
    have ha : (ch 'A').val = 0x41 := rfl
    obtain ⟨hlow, hhigh⟩ := of_decide_eq_true hbetween
    have hval : (codePoint (c.val + 32)).val = c.val + 32 := Nat.mod_eq_of_lt (by omega)
    omega
  · exact Iff.rfl

theorem upToNul_cons {c : CodePoint} (h : c.val ≠ 0) (t : Text) : upToNul (c :: t) = c :: upToNul t :=
  List.takeWhile_cons_of_pos (bne_iff_ne.mpr h)

theorem upToNul_cons_nul {c : CodePoint} (h : c.val = 0) (t : Text) : upToNul (c :: t) = [] :=
  List.takeWhile_cons_of_neg (by simp [h])

theorem like_self (n : Text) : like (upToNul (n ++ [ch '%'])) (upToNul (n.map Store.Redaction.lowerAscii)) = true := by
  induction n with
  | nil => rfl
  | cons c n ih =>
    rw [List.cons_append, List.map_cons]
    by_cases hc : c.val = 0
    · rw [upToNul_cons_nul hc, upToNul_cons_nul (lowerAscii_zero.mpr hc)]
      rfl
    rw [upToNul_cons hc, upToNul_cons fun hzero => hc (lowerAscii_zero.mp hzero), like_cons]
    split
    · exact List.any_eq_true.mpr ⟨_, (List.mem_tails _ _).mpr (List.suffix_cons _ _), ih⟩
    · simp [folded_lower, ih]

theorem containsLike_self (n : Text) : containsLike n n = true := by
  rw [containsLike, upToNul_cons (by decide), like_cons, if_pos rfl]
  exact List.any_eq_true.mpr ⟨_, (List.mem_tails _ _).mpr List.suffix_rfl, like_self n⟩

/-! ## Rows that tell the filters apart -/

theorem payloadOf_empty : payloadOf P (lit "\x7b\x7d") = .dict [] := by
  have hread : loadsText P.floats.toFloatFormat keepLast (lit "\x7b\x7d") = .ok (.dict []) :=
    loadsText_canonical (v := .dict []) (fun pairs hnodup => by rw [keepLast, objectOf_nodup hnodup])
      (.dict .nil (by rintro _ ⟨⟩) (by rintro _ ⟨⟩)) rfl
  rw [payloadOf, hread]

theorem eventKinds_plain {kind : Text} (h : kind ∈ eventKinds) : Plain kind ∧ kind ≠ lit "taskStateChanged" := by
  have hall : eventKinds.all (fun k => asciiText k && decide (k ≠ lit "taskStateChanged")) = true := by
    decide +kernel
  obtain ⟨hascii, hne⟩ := (Bool.and_eq_true _ _).mp (List.all_eq_true.mp hall kind h)
  exact ⟨plain_of_ascii hascii, of_decide_eq_true hne⟩

/-- A row with an empty payload and with what a filter asks for, apart from the harness and the texts. -/
def probe (P : Platform) (f : EventFilter) (harness : Option Harness) (kind summary actor : Text)
    (hkind : kind ∈ eventKinds) (hsummary : Plain summary) (hactor : Plain actor) : EventRow P where
  sequence := 1
  eventId := none
  createdAt := []
  kind := kind
  severity := .critical
  summary := summary
  payloadJson := lit "\x7b\x7d"
  actor := actor
  taskId := f.tasks.head?
  workerId := none
  taskReference := none
  nodeId := f.nodes.head?
  hostname := none
  harness := harness
  provider := none
  goalId := f.goals.head?
  sessionId := none
  modelProvider := none
  modelIdentifier := none
  modelDisplayName := none
  contextVariant := none
  contextWindowTokens := none
  texts := by simp [(eventKinds_plain hkind).1, hsummary, hactor, plain_of_ascii (t := lit "\x7b\x7d") rfl]
  numbered := by decide
  shallow := P.tooDeep_flat _ (by decide)
  object := ⟨[], payloadOf_empty⟩
  scalar := by simp [payloadOf_empty, field, Scalar]

section Probes

variable {f : EventFilter} {minimum : EventSeverity} {harness : Option Harness} {kind summary actor : Text}
  {hkind : kind ∈ eventKinds} {hsummary : Plain summary} {hactor : Plain actor}

theorem rank_le_critical (s : EventSeverity) : s.rank ≤ EventSeverity.critical.rank := by
  cases s <;> decide

theorem wireKind_probe : wireKind (probe P f harness kind summary actor hkind hsummary hactor) = kind := by
  have hk : (probe P f harness kind summary actor hkind hsummary hactor).kind = kind := rfl
  rw [wireKind, hk, if_neg (eventKinds_plain hkind).2, if_pos hkind]

theorem finds_probe (hasked : isIn (some kind) f.kinds = true) :
    finds f minimum (probe P f harness kind summary actor hkind hsummary hactor) = true ↔
      isIn (harness.map Harness.value) (f.harnesses.map storedHarness) = true ∧
        ∀ needle ∈ f.needle P, containsLike needle summary = true ∨ containsLike needle (lit "\x7b\x7d") = true := by
  have hselected : selected f minimum (probe P f harness kind summary actor hkind hsummary hactor) =
      (isIn f.nodes.head? f.nodes && isIn (harness.map Harness.value) (f.harnesses.map storedHarness) &&
        isIn f.tasks.head? f.tasks && isIn f.goals.head? f.goals &&
        decide (minimum.rank ≤ EventSeverity.critical.rank) && (f.needle P).all fun needle =>
          containsLike needle summary || containsLike needle (lit "\x7b\x7d")) := rfl
  rw [finds, wireKind_probe, hselected, hasked]
  simp [isIn_head, rank_le_critical, Option.all_eq_true]

theorem satisfies_probe (hasked : isIn (some kind) f.kinds = true) :
    Satisfies f minimum (event (probe P f harness kind summary actor hkind hsummary hactor)) ↔
      isIn (harness.map Harness.wire) f.harnesses = true ∧ ∀ search, f.search = some search → search ≠ [] →
        ∃ t ∈ [summary, actor] ++ ["harness", "generic", "detail", "source", "text", "fields"].map lit,
          OccursIn P search t := by
  have hpayload : eventPayload (probe P f harness kind summary actor hkind hsummary hactor) =
      .dict [(lit "harness", .str (lit "generic")), (lit "detail", .dict [(lit "source", .str actor),
        (lit "text", .str summary), (lit "fields", .dict [])])] := by
    have hpayload : payloadOf P (probe P f harness kind summary actor hkind hsummary hactor).payloadJson = .dict [] :=
      payloadOf_empty
    simp [eventPayload, genericPayload, hpayload, field]
    exact ⟨rfl, rfl⟩
  have hleaves : ∀ t, .inl t ∈ (eventPayload (probe P f harness kind summary actor hkind hsummary hactor)).leaves ↔
      t ∈ [summary, actor] ++ ["harness", "generic", "detail", "source", "text", "fields"].map lit := by
    intro t
    rw [hpayload]
    simp [Value.leaves, Value.leavesEntries]
    grind
  constructor
  · intro h
    refine ⟨h.harness, fun search hsearch hne => ?_⟩
    rcases h.search search hsearch hne with hin | ⟨t, ht, hin⟩
    · exact ⟨summary, by simp, hin⟩
    · exact ⟨t, (hleaves t).mp ht, hin⟩
  · rintro ⟨hharness, hsearch⟩
    refine ⟨isIn_head _, hharness, isIn_head _, isIn_head _, ?_, rank_le_critical minimum, fun search hs hne => ?_⟩
    · have hk : (event (probe P f harness kind summary actor hkind hsummary hactor)).kind = kind := wireKind_probe
      rw [hk, hasked]
    · obtain ⟨t, ht, hin⟩ := hsearch search hs hne
      exact Or.inr ⟨t, (hleaves t).mpr ht, hin⟩

end Probes

/-- A pattern that fits an empty payload and the words of the wire have no character in common. -/
theorem not_occurs_of_like {search t : Text} (hne : search ≠ [])
    (hlike : containsLike (P.lower search) [] = true ∨ containsLike (P.lower search) (lit "\x7b\x7d") = true)
    (ht : t ∈ [[], []] ++ ["harness", "generic", "detail", "source", "text", "fields"].map lit) :
    ¬ OccursIn P search t := by
  let odd : CodePoint → Bool :=
    fun c => decide (c = ch '%') || decide (c = ch '_') || decide (folded c ∈ lit "\x7b\x7d")
  have hwords : ([[], []] ++ ["harness", "generic", "detail", "source", "text", "fields"].map lit).all (fun t =>
      asciiText t && (t.map Store.Redaction.lowerAscii).all fun c => !odd c && c.val != 0) = true := by decide
  obtain ⟨hascii, hplain⟩ := (Bool.and_eq_true _ _).mp (List.all_eq_true.mp hwords t ht)
  intro hoccurs
  rw [OccursIn, P.lower_ascii t hascii] at hoccurs
  have heven : ∀ c ∈ P.lower search, odd c = false ∧ c.val ≠ 0 := by
    intro c hc
    simpa using List.all_eq_true.mp hplain c (hoccurs.subset hc)
  have hpattern : upToNul (ch '%' :: (P.lower search ++ [ch '%'])) = ch '%' :: (P.lower search ++ [ch '%']) := by
    refine List.takeWhile_eq_self_iff.mpr fun c hc => bne_iff_ne.mpr ?_
    rcases List.mem_cons.mp hc with rfl | hc
    · decide
    rcases List.mem_append.mp hc with hc | hc
    · exact (heven c hc).2
    · obtain rfl := List.mem_singleton.mp hc
      decide
  have hodd : ∀ c ∈ P.lower search, odd c = true := by
    intro c hc
    have hfits : ∀ t, t ∈ [[], lit "\x7b\x7d"] → containsLike (P.lower search) t = true → odd c = true := by
      intro t ht hcontains
      rw [containsLike, hpattern] at hcontains
      have hchars := like_chars hcontains c (List.mem_cons_of_mem _ (List.mem_append_left _ hc))
      have hmap : [[], lit "\x7b\x7d"].all (fun t => (upToNul (t.map Store.Redaction.lowerAscii)).all fun d =>
          decide (folded d ∈ lit "\x7b\x7d")) = true := by decide
      rcases hchars with heq | heq | ⟨d, hd, heq⟩
      · simp [odd, heq]
      · simp [odd, heq]
      · simp [odd, heq, of_decide_eq_true (List.all_eq_true.mp (List.all_eq_true.mp hmap t ht) d hd)]
    rcases hlike with h | h
    · exact hfits _ (by simp) h
    · exact hfits _ (by simp) h
  obtain ⟨c, hc⟩ := List.exists_mem_of_ne_nil _ (P.lower_ne_nil search hne)
  exact Bool.false_ne_true ((heven c hc).1.symm.trans (hodd c hc))

section Agreement

variable {f : EventFilter} {s : Text}

theorem needle_eq_some {needle : Text} : f.needle P = some needle ↔
    ∃ search, f.search = some search ∧ search ≠ [] ∧ P.lower search = needle := by
  simp [EventFilter.needle, Option.filter_eq_some_iff, and_assoc]

/-- The two readings of a filter agree on its probes. -/
def Probed (P : Platform) (f : EventFilter) : Prop :=
  ∀ (harness : Option Harness) (summary actor : Text), Plain summary → Plain actor →
    ((isIn (harness.map Harness.value) (f.harnesses.map storedHarness) = true ∧
        ∀ needle ∈ f.needle P, containsLike needle summary = true ∨ containsLike needle (lit "\x7b\x7d") = true) ↔
      isIn (harness.map Harness.wire) f.harnesses = true ∧ ∀ search, f.search = some search → search ≠ [] →
        ∃ t ∈ [summary, actor] ++ ["harness", "generic", "detail", "source", "text", "fields"].map lit,
          OccursIn P search t)

theorem FiltersAgree.probed (h : FiltersAgree P f) (hrefused : ¬ f.Refused P) (hnone : ¬ f.NoKind) : Probed P f := by
  obtain ⟨minimum, hminimum⟩ := Option.ne_none_iff_exists'.mp (not_or.mp hrefused).1
  obtain ⟨kind, hkind, hasked⟩ : ∃ kind ∈ eventKinds, isIn (some kind) f.kinds = true := by
    by_cases hempty : f.kinds = []
    · exact ⟨lit "output", by decide, isIn_some.mpr (Or.inl hempty)⟩
    · by_contra hno
      push Not at hno
      exact hnone ⟨hempty, fun kind hmem hkind => hno kind hkind (isIn_some.mpr (Or.inr hmem))⟩
  intro harness summary actor hsummary hactor
  exact (finds_probe hasked).symm.trans ((h.row hminimum hrefused
    (probe P f harness kind summary actor hkind hsummary hactor) rfl).trans (satisfies_probe hasked))

/-- The text that is searched for, or any other. -/
theorem EventFilter.Bindable.searched (hbind : f.Bindable P) :
    ∃ s, Plain s ∧ ∀ search, f.search = some search → search ≠ [] → search = s := by
  by_cases hsearch : ∃ search, f.search = some search ∧ search ≠ []
  · obtain ⟨search, hsome, hne⟩ := hsearch
    refine ⟨search, (P.lower_plain search).mp (hbind.2 _ (needle_eq_some.mpr ⟨search, hsome, hne, rfl⟩)), ?_⟩
    intro search' hsome' _
    exact Option.some.inj (hsome'.symm.trans hsome)
  · exact ⟨[], List.forall_mem_nil _, fun search hsome hne => absurd ⟨search, hsome, hne⟩ hsearch⟩

/-- A probe with the search text as its summary, or as its actor, tells the names of a harness apart. -/
theorem Probed.harnesses (h : Probed P f) (hplain : Plain s)
    (hs : ∀ search, f.search = some search → search ≠ [] → search = s) : f.HarnessesAgree := by
  refine harnessesAgree_iff.mpr fun harness => ⟨fun hmem => ?_, fun hmem => ?_⟩
  · have hfound := (h (some harness) (P.lower s) [] ((P.lower_plain s).mpr hplain) (List.forall_mem_nil _)).mp
      ⟨isIn_some.mpr (Or.inr hmem), fun needle hn => ?_⟩
    · rcases isIn_some.mp hfound.1 with hempty | hmem'
      · rw [hempty] at hmem
        cases hmem
      · exact hmem'
    · obtain ⟨search, hsome, hne, rfl⟩ := needle_eq_some.mp hn
      rw [hs search hsome hne]
      exact Or.inl (containsLike_self _)
  · have hfound := (h (some harness) s [] hplain (List.forall_mem_nil _)).mpr
      ⟨isIn_some.mpr (Or.inr hmem), fun search hsome hne => ⟨s, by simp, ?_⟩⟩
    · rcases isIn_some.mp hfound.1 with hempty | hmem'
      · rw [List.map_eq_nil_iff.mp hempty] at hmem
        cases hmem
      · exact hmem'
    · rw [hs search hsome hne]
      exact List.infix_rfl

/-- A probe with the search text as its actor is found only by a pattern that fits the empty payload. -/
theorem Probed.searchless (h : Probed P f) (hplain : Plain s)
    (hs : ∀ search, f.search = some search → search ≠ [] → search = s) (hharnesses : f.HarnessesAgree) :
    (∀ search, f.search = some search → search = []) ∨ f.NoHarness := by
  by_contra hcon
  obtain ⟨hsearch, hsome⟩ := not_or.mp hcon
  push Not at hsearch
  obtain ⟨search, hsearch, hne⟩ := hsearch
  obtain rfl := hs search hsearch hne
  obtain ⟨harness, hwire, hvalue⟩ : ∃ harness : Option Harness, isIn (harness.map Harness.wire) f.harnesses = true ∧
      isIn (harness.map Harness.value) (f.harnesses.map storedHarness) = true := by
    by_cases hempty : f.harnesses = []
    · exact ⟨none, by simp [isIn, hempty], by simp [isIn, hempty]⟩
    · by_contra hno
      push Not at hno
      exact hsome ⟨hempty, fun harness hmem => hno (some harness) (isIn_some.mpr (Or.inr hmem))
        (isIn_some.mpr (Or.inr (harnessesAgree_iff.mp hharnesses harness |>.mpr hmem)))⟩
  have hnil : Plain ([] : Text) := List.forall_mem_nil _
  have hfound := (h harness [] search hnil hplain).mpr ⟨hwire, fun search' hsome' hne' =>
    ⟨search, by simp, by rw [hs search' hsome' hne']; exact List.infix_rfl⟩⟩
  obtain ⟨t, ht, hoccurs⟩ := ((h harness [] [] hnil hnil).mp hfound).2 search hsearch hne
  exact not_occurs_of_like hne (hfound.2 _ (needle_eq_some.mpr ⟨search, hsearch, hne, rfl⟩)) ht hoccurs

/-- Harnesses with one name, without a search or for no harness, mean the same to both. -/
theorem filtersAgree_of_harnesses (hharnesses : f.HarnessesAgree)
    (hrest : (∀ search, f.search = some search → search = []) ∨ f.NoHarness) : FiltersAgree P f := by
  refine filtersAgree_of fun minimum row => ?_
  have hsame := harnesses_same hharnesses row.harness
  rcases hrest with hsearch | hnone
  · have hneedle : f.needle P = none := by
      cases h : f.search with
      | none => simp [EventFilter.needle, h]
      | some search => simp [EventFilter.needle, h, hsearch search h]
    simp only [finds, selected, hneedle, Option.all_none, Bool.and_true, Bool.and_eq_true, decide_eq_true_eq, hsame]
    constructor
    · rintro ⟨⟨⟨⟨⟨hnode, hharness⟩, htask⟩, hgoal⟩, hrank⟩, hkind⟩
      exact ⟨hnode, hharness, htask, hgoal, hkind, hrank, fun search hs hne => absurd (hsearch search hs) hne⟩
    · intro h
      exact ⟨⟨⟨⟨⟨h.node, h.harness⟩, h.task⟩, h.goal⟩, h.severity⟩, h.kind⟩
  · have hfalse : ¬ isIn (row.harness.map Harness.wire) f.harnesses = true := by
      cases row.harness with
      | none => simp [isIn, hnone.1]
      | some h => exact fun hin => (isIn_some.mp hin).elim hnone.1 (hnone.2 h)
    refine iff_of_false (fun hfinds => hfalse ?_) fun hsat => hfalse hsat.harness
    simp only [finds, selected, Bool.and_eq_true] at hfinds
    rw [← hsame]
    exact hfinds.1.1.1.1.1.2

end Agreement

/-- **The filters that mean on the wire what they do in the table**: refused ones, those for no kind of the wire, and
those whose harnesses have one name, without a search or for no harness of the wire. -/
theorem filters_agree_iff (P : Platform) (f : EventFilter) : FiltersAgree P f ↔ f.Refused P ∨ f.NoKind ∨
    (f.HarnessesAgree ∧ ((∀ search, f.search = some search → search = []) ∨ f.NoHarness)) := by
  constructor
  · intro h
    by_cases hrefused : f.Refused P
    · exact Or.inl hrefused
    by_cases hnone : f.NoKind
    · exact Or.inr (Or.inl hnone)
    have hbind : f.Bindable P := not_not.mp (not_or.mp (not_or.mp hrefused).2).1
    obtain ⟨s, hplain, hs⟩ := hbind.searched
    have hprobed := h.probed hrefused hnone
    have hharnesses := hprobed.harnesses hplain hs
    exact Or.inr (Or.inr ⟨hharnesses, hprobed.searchless hplain hs hharnesses⟩)
  · rintro (hrefused | hnone | ⟨hharnesses, hrest⟩)
    · exact FiltersAgree.of_refused hrefused
    · refine filtersAgree_of fun minimum row => iff_of_false (fun hfinds => ?_) fun hsat => ?_
      · exact hnone.not_asked row ((Bool.and_eq_true _ _).mp hfinds).2
      · exact hnone.not_asked row hsat.kind
    · exact filtersAgree_of_harnesses hharnesses hrest

/-- A filter for the name that a harness has in the table only. -/
def tableFilter : EventFilter := ⟨[], [lit "localWorker"], [], [], [], lit "debug", none⟩

theorem filters_tableName : ¬ FiltersAgree smallPlatform tableFilter := by
  intro h
  have hnil : Plain ([] : Text) := List.forall_mem_nil _
  have hplain : Plain (lit "localWorker") := plain_of_ascii rfl
  have hrefused : ¬ tableFilter.Refused smallPlatform := by
    rintro (hnone | hunbound | ⟨minimum, -, hmany⟩ | hlong)
    · cases hnone
    · exact hunbound ⟨by simpa [tableFilter] using hplain, fun _ ht => (by cases ht)⟩
    · have hfew : tableFilter.boundValues minimum ≤ 10 := by
        simp only [EventFilter.boundValues, tableFilter, List.length_nil, List.length_singleton,
          Option.all_none, if_true]
        omega
      exact absurd (hfew.trans_lt' hmany) (by decide)
    · cases hlong
  have hkind : lit "output" ∈ eventKinds := by decide
  have hfinds : finds tableFilter .debug
      (probe smallPlatform tableFilter (some .localWorker) (lit "output") [] [] hkind hnil hnil) = true :=
    (finds_probe rfl).mpr ⟨by decide, fun _ ht => (by cases ht)⟩
  have hsat := (satisfies_probe rfl).mp ((h.row rfl hrefused _ rfl).mp hfinds)
  exact absurd hsat.1 (by decide)

end AgentFabric.Api
