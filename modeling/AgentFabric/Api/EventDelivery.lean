import AgentFabric.Api.EventFilters

/-!
# The delivery of events

A client follows the cursors of descending pages, or reads the frames of a stream, while the log grows.
-/

namespace AgentFabric.Api

open AgentFabric.Lib

variable {P : Platform}

/-! ## Reads -/

variable (P) in
/-- What one query reads: the log when it asks for the highest number, and the log when it asks for the rows. -/
structure LogView where
  before : EventLog P
  log : EventLog P

/-- Sequence numbers are assigned in commit order: from read to read the log grows at its end. -/
def Growing (views : List (LogView P)) (final : EventLog P) : Prop :=
  (views.flatMap (fun v => [v.before.rows, v.log.rows]) ++ [final.rows]).Pairwise (· <+: ·)

variable {views : List (LogView P)} {final log : EventLog P}

theorem Growing.tail {v : LogView P} (h : Growing (v :: views) final) :
    Growing views final := (List.pairwise_cons.mp (List.pairwise_cons.mp h).2).2

theorem Growing.head {v : LogView P} (h : Growing (v :: views) final) :
    v.before.rows <+: v.log.rows ∧ v.log.rows <+: final.rows ∧ ∀ v' ∈ views, v.before.rows <+: v'.log.rows := by
  obtain ⟨hfirst, h⟩ := List.pairwise_cons.mp h
  obtain ⟨hsecond, -⟩ := List.pairwise_cons.mp h
  refine ⟨hfirst _ (by simp), hsecond _ (by simp), fun v' hv => hfirst _ ?_⟩
  exact List.mem_cons_of_mem _ (List.mem_append_left _ (List.mem_flatMap.mpr ⟨v', hv, by simp⟩))

theorem Growing.upto (h : Growing views final) {v : LogView P} (hv : v ∈ views) : v.log.rows <+: final.rows := by
  refine (List.pairwise_append.mp h).2.2 _ ?_ _ (List.mem_singleton.mpr rfl)
  exact List.mem_flatMap.mpr ⟨v, hv, by simp⟩

theorem filter_of_longer (h : log.rows <+: final.rows) {p : EventRow P → Bool}
    (hp : ∀ row, p row = true → row.sequence ≤ log.highest) : final.rows.filter p = log.rows.filter p := by
  obtain ⟨more, hmore⟩ := h
  suffices hnil : more.filter p = [] by rw [← hmore, List.filter_append, hnil, List.append_nil]
  rw [List.filter_eq_nil_iff]
  intro row hrow hrp
  have hle := hp row hrp
  have hincreasing := final.increasing
  rw [← hmore] at hincreasing
  cases hlast : log.rows.getLast? with
  | none =>
    have := row.numbered
    simp only [EventLog.highest, hlast, Option.map_none, Option.getD_none] at hle
    omega
  | some last =>
    have := (List.pairwise_append.mp hincreasing).2.2 last (List.mem_of_getLast? hlast) row hrow
    simp only [EventLog.highest, hlast, Option.map_some, Option.getD_some] at hle
    omega

/-! ## Ordered lists -/

section Ordered

variable {α : Type} {R : α → α → Prop} {f : α → Nat} {l : List α} {n : Nat} {x : α}

theorem around_last (h : l.Pairwise R) (hx : (l.take n).getLast? = some x) :
    (∀ y ∈ l.take n, y = x ∨ R y x) ∧ ∀ y ∈ l.drop n, R x y := by
  obtain ⟨init, hinit⟩ := List.getLast?_eq_some_iff.mp hx
  rw [← List.take_append_drop n l, hinit] at h
  obtain ⟨hfirst, -, hcross⟩ := List.pairwise_append.mp h
  refine ⟨fun y hy => ?_, hcross x (by simp)⟩
  rw [hinit] at hy
  rcases List.mem_append.mp hy with hy | hy
  · exact Or.inr ((List.pairwise_append.mp hfirst).2.2 y hy x (List.mem_singleton.mpr rfl))
  · exact Or.inl (List.mem_singleton.mp hy)

theorem filter_eq_drop {p : α → Bool} (htake : ∀ y ∈ l.take n, p y = false) (hdrop : ∀ y ∈ l.drop n, p y = true) :
    l.filter p = l.drop n := by
  conv_lhs => rw [← List.take_append_drop n l, List.filter_append]
  rw [List.filter_eq_nil_iff.mpr fun y hy => by simp [htake y hy], List.filter_eq_self.mpr hdrop, List.nil_append]

theorem filter_below_last (h : l.Pairwise fun a b => f b < f a) (hx : (l.take n).getLast? = some x) :
    (l.filter fun y => decide (f y < f x)) = l.drop n := by
  obtain ⟨hfirst, hrest⟩ := around_last h hx
  refine filter_eq_drop (fun y hy => ?_) fun y hy => decide_eq_true (hrest y hy)
  rcases hfirst y hy with rfl | hlt
  · exact decide_eq_false (lt_irrefl _)
  · exact decide_eq_false (by omega)

theorem filter_above_last (h : l.Pairwise fun a b => f a < f b) (hx : (l.take n).getLast? = some x) :
    (l.filter fun y => decide (f x < f y)) = l.drop n := by
  obtain ⟨hfirst, hrest⟩ := around_last h hx
  refine filter_eq_drop (fun y hy => ?_) fun y hy => decide_eq_true (hrest y hy)
  rcases hfirst y hy with rfl | hlt
  · exact decide_eq_false (lt_irrefl _)
  · exact decide_eq_false (by omega)

theorem filter_upto_front (h : l.Pairwise fun a b => f a < f b) (k : Nat) :
    (l.filter fun y => decide (f y ≤ k)) <+: l := by
  induction l with
  | nil => exact List.prefix_rfl
  | cons y l ih =>
    obtain ⟨hfirst, hl⟩ := List.pairwise_cons.mp h
    by_cases hy : f y ≤ k
    · rw [List.filter_cons_of_pos (by simpa using hy)]
      exact List.cons_prefix_cons.mpr ⟨rfl, ih hl⟩
    · rw [List.filter_eq_nil_iff.mpr]
      · exact List.nil_prefix
      · intro z hz
        rcases List.mem_cons.mp hz with rfl | hz
        · simpa using hy
        · have := hfirst z hz
          simp only [decide_eq_true_eq]
          omega

end Ordered

/-! ## Descending pages -/

/-- The pages that a client gets when it follows a cursor, with the cursor that is left. -/
def pages (r : EventsRequest) : List (LogView P) → Option Text → Except EventsError (List (WireEvent P) × Option Text)
  | v :: views, some cursor => do
    let page ← events v.before.highest v.log { r with cursor := some cursor }
    let (rest, next) ← pages r views page.nextCursor
    return (page.events ++ rest, next)
  | _, next => .ok ([], next)

section Pages

variable {r : EventsRequest} {minimum : EventSeverity} {start log final : EventLog P} {before high : Nat}

theorem found_sequence {b h : Int} {v : WireEvent P} (hv : v ∈ found log r minimum b h) : r.afterSequence < v.sequence ∧
    1 ≤ v.sequence ∧ (v.sequence : Int) ≤ h ∧ (v.sequence : Int) < b ∧ (v.sequence : Int) < integerBound := by
  rw [found_eq] at hv
  obtain ⟨row, hrow, rfl⟩ := List.mem_map.mp hv
  have hwindow := of_decide_eq_true (List.mem_filter.mp (List.mem_filter.mp hrow).1).2
  exact ⟨hwindow.1, row.numbered.1, hwindow.2.1, hwindow.2.2, row.numbered.2⟩

theorem found_same (hstart : start.rows <+: log.rows) (hlog : log.rows <+: final.rows) (hhigh : high ≤ start.highest) :
    found log r minimum before high = found final r minimum before high := by
  have hle : ∀ row : EventRow P, inWindow r.afterSequence before high row = true → row.sequence ≤ start.highest := by
    intro row hrow
    have hwindow := of_decide_eq_true hrow
    omega
  rw [found_eq, found_eq]
  split
  · rw [filter_of_longer hstart hle, filter_of_longer (hstart.trans hlog) hle]
  · simp only [List.filter_reverse]
    rw [filter_of_longer hstart hle, filter_of_longer (hstart.trans hlog) hle]

theorem found_descending (hdesc : r.ascending = false) (before high : Int) :
    (found log r minimum before high).Pairwise fun a b => b.sequence < a.sequence := by
  rw [found_eq, hdesc]
  simp only [Bool.false_eq_true, if_false, List.pairwise_map]
  exact ((List.pairwise_reverse.mpr log.increasing).filter _).filter _

theorem found_before {b : Nat} (h : b ≤ before) (high : Int) : found log r minimum b high =
    (found log r minimum before high).filter fun v => decide (v.sequence < b) := by
  rw [found_eq, found_eq, List.filter_map, List.filter_filter, List.filter_filter, List.filter_filter]
  congr 2
  funext row
  have hiff : inWindow r.afterSequence b high row =
      (decide ((event row).sequence < b) && inWindow r.afterSequence before high row) := by
    rw [Bool.eq_iff_iff]
    simp [inWindow, event]
    omega
  rw [hiff, Function.comp_apply]
  cases decide ((event row).sequence < b) <;> simp [Bool.and_comm]

/-- What is left to be got with a cursor. -/
def Remains (final : EventLog P) (r : EventsRequest) (minimum : EventSeverity) (high : Nat) :
    Option Text → List (WireEvent P) → Prop
  | none, rest => rest = []
  | some cursor, rest => ∃ before : Nat, 1 ≤ before ∧ before ≤ high ∧ (before : Int) < integerBound ∧
      encodeCursor P before high = some cursor ∧ rest = found final r minimum before high

theorem spellable {n : Nat} (h : (n : Int) < integerBound) : Spellable n := by
  have hlt : n < 10 ^ 19 := by
    unfold integerBound at h
    omega
  have hlength := natText_length_le (by omega) hlt
  rw [Spellable, Int.natAbs_natCast]
  exact hlength.trans (by decide)

theorem nextCursor_remains (final : EventLog P) (minimum : EventSeverity) (window : Nat) (hdesc : r.ascending = false)
    (hlimit : 1 ≤ r.limit) (hhigh : (high : Int) < integerBound) :
    ∃ next, nextCursor r high (found final r minimum window high) = .ok next ∧
      Remains final r minimum high next ((found final r minimum window high).drop r.limit) ∧
      (next ≠ none → r.limit ≤ (found final r minimum window high).length) := by
  unfold nextCursor boundary
  simp only [hdesc, Bool.false_eq_true, if_false]
  split
  · next hle => exact ⟨none, rfl, List.drop_eq_nil_of_le hle, fun h => absurd rfl h⟩
  · next hmore =>
    cases hlast : ((found final r minimum window high).take r.limit).getLast? with
    | none =>
      rw [List.getLast?_eq_none_iff, List.take_eq_nil_iff] at hlast
      rcases hlast with hzero | hnil
      · omega
      · rw [hnil] at hmore
        exact absurd (Nat.zero_le _) hmore
    | some last =>
      have hmem : last ∈ found final r minimum window high := List.mem_of_mem_take (List.mem_of_getLast? hlast)
      obtain ⟨-, hone, hle, hlt, hbound⟩ := found_sequence hmem
      obtain ⟨cursor, hcursor⟩ := Option.isSome_iff_exists.mp
        (encodeCursor_isSome.mpr ⟨spellable hbound, spellable hhigh⟩ :
          (encodeCursor P last.sequence high).isSome = true)
      refine ⟨some cursor, by simp [hcursor, orRaise, Except.map],
        ⟨last.sequence, hone, by omega, hbound, hcursor, ?_⟩, fun _ => by omega⟩
      rw [← filter_below_last (found_descending hdesc _ _) hlast, ← found_before (by omega)]

variable (P r minimum) in
/-- A query of descending pages that the database takes, whatever its window. -/
structure Pageable : Prop where
  descending : r.ascending = false
  limit : 1 ≤ r.limit
  after : (r.afterSequence : Int) < integerBound
  severity : severityNamed r.minimumSeverity = some minimum
  values : r.boundValues minimum ≤ P.maxVariables
  bindable : r.Bindable P
  short : r.tooLong P = false

/-- The query with a cursor holds the first of what is left. -/
theorem events_remains (hr : Pageable P r minimum)
    (hhigh : (start.highest : Int) < integerBound) (hstart : start.rows <+: log.rows) (hlog : log.rows <+: final.rows)
    {cursor : Text} {rest : List (WireEvent P)} (h : Remains final r minimum start.highest (some cursor) rest)
    (currentHigh : Nat) : ∃ page, events currentHigh log { r with cursor := some cursor } = .ok page ∧
      page.events = rest.take r.limit ∧ Remains final r minimum start.highest page.nextCursor (rest.drop r.limit) ∧
      (page.nextCursor ≠ none → r.limit ≤ rest.length) := by
  obtain ⟨before, hone, hle, hbound, hcursor, rfl⟩ := h
  have hdecode : decodeCursor P cursor = .ok ((before : Int), (start.highest : Int)) :=
    decode_encode (by omega) (by omega) (by omega) hcursor
  have hne : cursor ≠ [] := by
    rintro rfl
    have hread : loadsText P.floats.toFloatFormat keepLast [] = .error .decode := rfl
    have htext : cursorText [] = some [] := rfl
    rw [decodeCursor, htext] at hdecode
    cases hdeep : P.tooDeep [] <;> simp [hdeep, hread] at hdecode
  have hparameters : parameters P currentHigh { r with cursor := some cursor } =
      .ok (((before : Int), (start.highest : Int)), minimum) :=
    parameters_ok.mpr ⟨⟨hr.severity, Or.inl ⟨cursor, hne, rfl, hdecode⟩⟩, hr.values,
      ⟨hr.after, hhigh, hbound⟩, hr.bindable⟩
  obtain ⟨next, hnext, hremains, hmore⟩ := nextCursor_remains final minimum before hr.descending hr.limit hhigh
  have hfound : found log { r with cursor := some cursor } minimum before start.highest =
      found final r minimum before start.highest := found_same hstart hlog le_rfl
  refine ⟨_, events_ok.mpr ⟨_, minimum, next, hparameters, ?_, ?_, rfl⟩, ?_, hremains, hmore⟩
  · exact fun hlong => Bool.false_ne_true (hr.short.symm.trans hlong.1)
  · rw [hfound]
    exact hnext
  · rw [hfound]

/-- The pages after a cursor hold the first of what is left, and all of it when no cursor is left. -/
theorem pages_remains (hr : Pageable P r minimum) (hhigh : (start.highest : Int) < integerBound)
    {views : List (LogView P)}
    (hviews : ∀ v ∈ views, start.rows <+: v.log.rows ∧ v.log.rows <+: final.rows) {next : Option Text}
    {rest : List (WireEvent P)} (h : Remains final r minimum start.highest next rest) :
    ∃ out left, pages r views next = .ok (out, left) ∧ (∃ more, rest = out ++ more ∧ (left = none → more = [])) ∧
      (left ≠ none → views.length ≤ out.length) := by
  induction views generalizing next rest with
  | nil =>
    refine ⟨[], next, rfl, ⟨rest, rfl, ?_⟩, fun _ => Nat.zero_le _⟩
    rintro rfl
    exact h
  | cons v views ih =>
    cases next with
    | none => exact ⟨[], none, rfl, ⟨[], h, fun _ => rfl⟩, fun hleft => absurd rfl hleft⟩
    | some =>
      obtain ⟨hstart, hfinal⟩ := hviews v List.mem_cons_self
      obtain ⟨page, hpage, hevents, hremains, hmore⟩ := events_remains hr hhigh hstart hfinal h v.before.highest
      obtain ⟨out, left, hout, ⟨more, hsplit, hdone⟩, hlength⟩ :=
        ih (fun v' hv => hviews v' (List.mem_cons_of_mem v hv))
        hremains
      refine ⟨page.events ++ out, left, ?_, ⟨more, ?_, hdone⟩, fun hleft => ?_⟩
      · simp only [pages, bind_eq_ok, pure_eq_ok]
        exact ⟨page, hpage, (out, left), hout, rfl⟩
      · rw [List.append_assoc, ← hsplit, hevents, List.take_append_drop]
      · have hcursor : page.nextCursor ≠ none := by
          intro hnone
          rw [hnone] at hout
          cases views <;> cases hout <;> exact hleft rfl
        have hle := hmore hcursor
        have hlimit := hr.limit
        have := hlength hleft
        simp only [List.length_append, List.length_cons, hevents, List.length_take]
        omega

end Pages

/-! ## The frames of a stream -/

/-- The query of a stream: all events after a number, in ascending order. -/
def streamRequest (limit after : Nat) : EventsRequest :=
  ⟨⟨[], [], [], [], [], lit "debug", none⟩, limit, none, after, true⟩

/-- `max(event["sequence"] for event in events)` -/
def lastSequence (after : Nat) (sent : List (WireEvent P)) : Nat := ((sent.map WireEvent.sequence).max?).getD after

/-- The frames with events that a stream sends; it ends when a query raises an error. -/
def frames (limit : Nat) : Nat → List (LogView P) → List (List (WireEvent P))
  | _, [] => []
  | after, v :: views =>
    (events v.before.highest v.log (streamRequest limit after)).toOption.elim [] fun page =>
      if page.events = [] then frames limit after views
      else page.events :: frames limit (lastSequence after page.events) views

theorem frames_cons (limit after : Nat) (v : LogView P) (views : List (LogView P)) : frames limit after (v :: views) =
    (events v.before.highest v.log (streamRequest limit after)).toOption.elim [] fun page =>
      if page.events = [] then frames limit after views
      else page.events :: frames limit (lastSequence after page.events) views := rfl

def rowsAfter (log : EventLog P) (after : Nat) : List (EventRow P) :=
  log.rows.filter fun row => decide (after < row.sequence)

theorem lastSequence_take {l : List (EventRow P)} (h : l.Pairwise fun a b => a.sequence < b.sequence) {n after : Nat}
    {x : EventRow P} (hx : (l.take n).getLast? = some x) : lastSequence after ((l.take n).map event) = x.sequence := by
  have hmax : ((l.take n).map event |>.map WireEvent.sequence).max? = some x.sequence := by
    rw [List.max?_eq_some_iff]
    refine ⟨?_, ?_⟩
    · exact List.mem_map.mpr ⟨event x, List.mem_map.mpr ⟨x, List.mem_of_getLast? hx, rfl⟩, rfl⟩
    · intro k hk
      obtain ⟨_, hv, rfl⟩ := List.mem_map.mp hk
      obtain ⟨row, hrow, rfl⟩ := List.mem_map.mp hv
      rcases (around_last h hx).1 row hrow with rfl | hlt
      · exact le_rfl
      · exact Nat.le_of_lt hlt
  rw [lastSequence, hmax, Option.getD_some]

/-- A query of a stream finds the first of the rows after its number. -/
theorem stream_events {v : LogView P} (hbefore : v.before.rows <+: v.log.rows) (hfinal : v.log.rows <+: final.rows)
    {limit after : Nat} {page : EventPage P}
    (h : events v.before.highest v.log (streamRequest limit after) = .ok page) :
    ∃ k, page.events = ((rowsAfter final after).take k).map event := by
  obtain ⟨w, minimum, cursor, hp, -, -, rfl⟩ := events_ok.mp h
  obtain ⟨⟨hminimum, hw⟩, -⟩ := parameters_ok.mp hp
  cases window_ok.mpr hw
  obtain rfl : EventSeverity.debug = minimum := Option.some.inj hminimum
  have hfinds : ∀ row : EventRow P, finds (streamRequest limit after).toEventFilter .debug row = true := by
    intro row
    simp [finds, selected, streamRequest, isIn, EventFilter.needle, EventSeverity.rank]
  have hwindow : ∀ row : EventRow P, inWindow after (v.before.highest + 1) v.before.highest row =
      (decide (row.sequence ≤ v.before.highest) && decide (after < row.sequence)) := by
    intro row
    rw [Bool.eq_iff_iff]
    simp [inWindow]
    omega
  have hle : ∀ row : EventRow P, inWindow after (v.before.highest + 1) v.before.highest row = true →
      row.sequence ≤ v.before.highest := by
    intro row hrow
    rw [hwindow] at hrow
    exact of_decide_eq_true ((Bool.and_eq_true _ _).mp hrow).1
  have hrows : v.log.rows.filter (inWindow after (v.before.highest + 1) v.before.highest) =
      (rowsAfter final after).filter fun row => decide (row.sequence ≤ v.before.highest) := by
    rw [filter_of_longer hbefore hle, ← filter_of_longer (hbefore.trans hfinal) hle, rowsAfter, List.filter_filter]
    exact List.filter_congr fun row _ => hwindow row
  have hprefix := filter_upto_front (f := EventRow.sequence) (l := rowsAfter final after) (final.increasing.filter _)
    v.before.highest
  obtain ⟨k, hk⟩ : ∃ k, (rowsAfter final after).filter (fun row => decide (row.sequence ≤ v.before.highest)) =
      (rowsAfter final after).take k := ⟨_, List.prefix_iff_eq_take.mp hprefix⟩
  have hfound : found v.log (streamRequest limit after) .debug (v.before.highest + 1) v.before.highest =
      ((rowsAfter final after).take k).map event := by
    rw [found_eq, List.filter_eq_self.mpr fun row _ => hfinds row]
    exact congrArg (List.map event) (hrows.trans hk)
  refine ⟨min limit k, ?_⟩
  rw [← List.take_take, List.map_take, ← hfound]
  rfl

/-- **What a stream has sent is the first of the events after its number.** -/
theorem frames_front {limit after : Nat} (h : Growing views final) :
    (frames limit after views).flatten <+: (rowsAfter final after).map event := by
  induction views generalizing after with
  | nil => exact List.nil_prefix
  | cons v views ih =>
    rw [frames_cons]
    cases hpage : events v.before.highest v.log (streamRequest limit after) with
    | error => exact List.nil_prefix
    | ok =>
      simp only [Except.toOption, Option.elim_some]
      split
      · exact ih h.tail
      · next hne =>
        obtain ⟨hbefore, hfinal, -⟩ := h.head
        obtain ⟨k, hk⟩ := stream_events hbefore hfinal hpage
        have hascending : (rowsAfter final after).Pairwise fun a b => a.sequence < b.sequence :=
          final.increasing.filter _
        cases hlast : ((rowsAfter final after).take k).getLast? with
        | none =>
          rw [hk, List.getLast?_eq_none_iff.mp hlast] at hne
          exact absurd rfl hne
        | some x =>
          have hrest : rowsAfter final x.sequence = (rowsAfter final after).drop k := by
            rw [← filter_above_last hascending hlast, rowsAfter, rowsAfter, List.filter_filter]
            have hx := of_decide_eq_true (List.mem_filter.mp (List.mem_of_mem_take (List.mem_of_getLast? hlast))).2
            refine List.filter_congr fun row _ => ?_
            rw [Bool.eq_iff_iff]
            simp
            omega
          have hsent : (frames limit x.sequence views).flatten <+: (rowsAfter final x.sequence).map event := ih h.tail
          rw [hrest] at hsent
          rw [List.flatten_cons, hk, lastSequence_take hascending hlast,
            ← List.take_append_drop k (rowsAfter final after),
            List.map_append, List.take_append_drop]
          exact (List.prefix_append_right_inj _).mpr hsent

/-! ## Delivery -/

/-- The events of a log after the number of a query and up to a high mark that match its filter, the latest first. -/
def matching (log : EventLog P) (r : EventsRequest) (minimum : EventSeverity) (high : Nat) : List (WireEvent P) :=
  (log.rows.filter fun row => decide (r.afterSequence < row.sequence ∧ row.sequence ≤ high) &&
    finds r.toEventFilter minimum row).reverse.map event

theorem found_matching {r : EventsRequest} {minimum : EventSeverity} {high : Nat} (hdesc : r.ascending = false) :
    found log r minimum (high + 1) high = matching log r minimum high := by
  rw [found_eq, hdesc, matching, ← List.filter_reverse]
  simp only [Bool.false_eq_true, if_false, List.filter_filter]
  congr 2
  funext row
  have hwindow : inWindow r.afterSequence (high + 1) high row =
      decide (r.afterSequence < row.sequence ∧ row.sequence ≤ high) := by
    simp only [inWindow]
    rw [decide_eq_decide]
    omega
  rw [hwindow, Bool.and_comm]

/-- **Events are delivered completely.** The pages from a first one on hold the events up to its high mark that match,
the latest first; all of them once no cursor is left, which is so after as many pages as there are events. What a stream
has sent is the first of the events after its number, each once and in order. -/
theorem event_delivery (P : Platform) :
    (∀ (first : LogView P) views final r page, Growing (first :: views) final → r.cursor = none → r.ascending = false →
      1 ≤ r.limit → events first.before.highest first.log r = .ok page →
      ∃ minimum out next more, severityNamed r.minimumSeverity = some minimum ∧
        pages r views page.nextCursor = .ok (out, next) ∧
        matching final r minimum first.before.highest = page.events ++ out ++ more ∧ (next = none → more = []) ∧
        (next ≠ none → views.length < (page.events ++ out).length)) ∧
    ∀ limit after (views : List (LogView P)) final, Growing views final →
      (frames limit after views).flatten <+: (rowsAfter final after).map event := by
  refine ⟨fun first views final r page hgrowing hcursor hdesc hlimit hpage => ?_, fun _ _ _ _ => frames_front⟩
  obtain ⟨hbefore, hfinal, hstart⟩ := hgrowing.head
  obtain ⟨w, minimum, next, hp, hshort, hnext, rfl⟩ := events_ok.mp hpage
  obtain ⟨⟨hminimum, hw⟩, hvalues, ⟨hafter, hhigh, -⟩, hbind⟩ := parameters_ok.mp hp
  replace hw := window_ok.mpr hw
  rw [window, hcursor] at hw
  cases hw
  have hfound : found first.log r minimum (first.before.highest + 1) first.before.highest =
      matching final r minimum first.before.highest :=
    (found_same hbefore hfinal le_rfl).trans (found_matching hdesc)
  by_cases hlong : r.tooLong P = true
  · -- a row that matches would have been compared with the pattern
    have hnil := found_nil (Bool.eq_false_of_not_eq_true fun hcompared => hshort ⟨hlong, hcompared⟩)
    have hend : nextCursor r ((first.before.highest : Nat) : Int) (found first.log r minimum (first.before.highest + 1)
        first.before.highest) = .ok none := if_pos (by rw [hnil]; exact Nat.zero_le _)
    cases hnext.symm.trans hend
    refine ⟨minimum, [], none, [], hminimum, by cases views <;> rfl, ?_, fun _ => rfl, fun hnone => absurd rfl hnone⟩
    rw [← hfound, hnil]
    simp
  obtain ⟨next', hnext', hremains, hmore⟩ := nextCursor_remains final minimum (first.before.highest + 1)
    hdesc hlimit hhigh
  have hsame : found first.log r minimum ((first.before.highest + 1 : Nat) : Int) first.before.highest =
      found final r minimum ((first.before.highest + 1 : Nat) : Int) first.before.highest :=
    found_same hbefore hfinal le_rfl
  simp only [Nat.cast_add, Nat.cast_one] at hnext' hremains hmore hsame
  rw [← hsame] at hnext' hremains hmore
  obtain rfl : next' = next := Except.ok.inj (hnext'.symm.trans hnext)
  rw [hsame, found_matching hdesc] at hremains hmore
  have hviews : ∀ v ∈ views, first.before.rows <+: v.log.rows ∧ v.log.rows <+: final.rows :=
    fun v hv => ⟨hstart v hv, hgrowing.upto (List.mem_cons_of_mem first hv)⟩
  obtain ⟨out, left, hout, ⟨more, hsplit, hdone⟩, hlength⟩ :=
    pages_remains ⟨hdesc, hlimit, hafter, hminimum, hvalues, hbind, Bool.eq_false_of_not_eq_true hlong⟩ hhigh hviews
      hremains
  refine ⟨minimum, out, left, more, hminimum, hout, ?_, hdone, fun hleft => ?_⟩
  · rw [hfound, List.append_assoc, ← hsplit, List.take_append_drop]
  · have hcursor : next' ≠ none := by
      rintro rfl
      cases views <;> cases hout <;> exact hleft rfl
    have hle := hmore hcursor
    have hviews := hlength hleft
    rw [hfound, List.length_append, List.length_take]
    omega

/-- An event without a task, a node or a goal. -/
def plainRow (sequence : Nat) (h : 1 ≤ sequence ∧ (sequence : Int) < integerBound) : EventRow smallPlatform :=
  { probe smallPlatform ⟨[], [], [], [], [], lit "debug", none⟩ none (lit "output") [] [] (by decide)
      (List.forall_mem_nil _) (List.forall_mem_nil _) with sequence := sequence, numbered := h }

theorem numbered_one : 1 ≤ 1 ∧ ((1 : Nat) : Int) < integerBound := by
  decide

theorem numbered_two : 1 ≤ 2 ∧ ((2 : Nat) : Int) < integerBound := by
  decide

def twoRows : List (EventRow smallPlatform) := [plainRow 1 numbered_one, plainRow 2 numbered_two]

theorem twoRows_increasing : twoRows.Pairwise fun a b => a.sequence < b.sequence := by
  simp [twoRows, plainRow]

theorem twoRows_joined : ∀ row ∈ twoRows, ∀ id ∈ row.nodeId, id ∈ ([] : List Text) := by
  simp [twoRows, plainRow, probe]

def twoEvents : EventLog smallPlatform := ⟨twoRows, [], twoRows_increasing, twoRows_joined⟩

def singlePages : EventsRequest := ⟨⟨[], [], [], [], [], lit "debug", none⟩, 1, none, 0, false⟩

theorem event_delivery_two : (∃ page out, events 2 twoEvents singlePages = .ok page ∧
      pages singlePages [⟨twoEvents, twoEvents⟩, ⟨twoEvents, twoEvents⟩] page.nextCursor = .ok (out, none) ∧
      (page.events ++ out).map WireEvent.sequence = [2, 1]) ∧
    (frames 1 0 [⟨twoEvents, twoEvents⟩]).flatten <+: twoEvents.rows.map event := by
  have hgrowing : Growing [⟨twoEvents, twoEvents⟩, ⟨twoEvents, twoEvents⟩, ⟨twoEvents, twoEvents⟩] twoEvents := by
    simp [Growing]
  obtain ⟨next, hnext, -, -⟩ := nextCursor_remains (r := singlePages) twoEvents .debug 3 rfl (by decide)
    (show ((2 : Nat) : Int) < integerBound by decide)
  have hparameters : parameters smallPlatform 2 singlePages = .ok ((3, 2), .debug) :=
    parameters_ok.mpr ⟨⟨rfl, Or.inr ⟨Or.inl rfl, rfl⟩⟩, by decide, by decide, by decide⟩
  have hshort : ¬ (singlePages.tooLong smallPlatform = true ∧ compared twoEvents singlePages .debug 3 2 = true) := by
    rintro ⟨hlong, -⟩
    cases hlong
  obtain ⟨page, hpage⟩ : ∃ page, events 2 twoEvents singlePages = .ok page :=
    ⟨_, events_ok.mpr ⟨_, .debug, next, hparameters, hshort, hnext, rfl⟩⟩
  obtain ⟨minimum, out, left, more, hminimum, hout, hsplit, hdone, hlength⟩ := (event_delivery smallPlatform).1
    ⟨twoEvents, twoEvents⟩ _ twoEvents singlePages page hgrowing rfl rfl (by decide) hpage
  obtain rfl : EventSeverity.debug = minimum := Option.some.inj hminimum
  replace hsplit : matching twoEvents singlePages .debug 2 = page.events ++ out ++ more := hsplit
  have hall : (matching twoEvents singlePages .debug 2).map WireEvent.sequence = [2, 1] := rfl
  have hleft : left = none := by
    by_contra hsome
    have hmore : 2 < (page.events ++ out).length := hlength hsome
    have htwo : (page.events ++ out ++ more).length = 2 := hsplit ▸ rfl
    rw [List.length_append] at htwo
    omega
  subst hleft
  rw [hsplit, hdone rfl, List.append_nil] at hall
  exact ⟨⟨page, out, hpage, hout, hall⟩, (event_delivery smallPlatform).2 1 0 _ twoEvents hgrowing.tail.tail⟩

end AgentFabric.Api
