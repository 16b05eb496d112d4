import AgentFabric.Api.Events

/-!
# The errors of an event query

The handler of the route catches `ValueError` only.
-/

namespace AgentFabric.Api

open AgentFabric.Lib

/-- What is raised is a `ValueError`. -/
def OnlyValueErrors {α : Type} (x : Except EventsError α) : Prop :=
  ∀ e, x = .error e → ∃ message, e = .valueError message

section Rules

variable {α β : Type} {x : Except EventsError α} {f : α → Except EventsError β} {a : α} {e : EventsError}

@[simp] theorem onlyValueErrors_ok : OnlyValueErrors (.ok a : Except EventsError α) := by
  intro e h
  cases h

@[simp] theorem onlyValueErrors_error : OnlyValueErrors (.error e : Except EventsError α) ↔
    ∃ message, e = .valueError message := by
  constructor
  · intro h
    exact h e rfl
  · rintro h e' he
    cases he
    exact h

theorem onlyValueErrors_bind : OnlyValueErrors (x >>= f) ↔ OnlyValueErrors x ∧ ∀ a, x = .ok a →
    OnlyValueErrors (f a) := by
  cases x with
  | error => simp [Bind.bind, Except.bind]
  | ok => simp [Bind.bind, Except.bind]

theorem onlyValueErrors_ite {p : Prop} [Decidable p] {y : Except EventsError α} :
    OnlyValueErrors (if p then x else y) ↔ (p → OnlyValueErrors x) ∧ (¬p → OnlyValueErrors y) := by
  split <;> simp [*]

theorem onlyValueErrors_orRaise {o : Option α} :
    OnlyValueErrors (orRaise o e) ↔ (o = none → OnlyValueErrors (.error e : Except EventsError α)) := by
  cases o <;> simp [orRaise]

theorem onlyValueErrors_ensure {c : Prop} [Decidable c] :
    OnlyValueErrors (ensure c e) ↔ (¬c → OnlyValueErrors (.error e : Except EventsError Unit)) := by
  unfold ensure
  split <;> simp [*]

end Rules

variable {P : Platform}

/-! ## Cursors -/

/-- The number of a member is infinite. -/
def InfiniteAt (P : Platform) (name : String) (value : Value P.floats.Val) : Prop :=
  ∃ x, member P name value = .ok (.float x) ∧ P.isInfinite x = true

/-- The text in a cursor is not too deep, and no number that is converted is infinite. -/
def Convertible (P : Platform) (cursor : Text) : Prop :=
  ∀ text, cursorText cursor = some text → P.tooDeep text = false ∧
    ∀ value, loadsText P.floats.toFloatFormat keepLast text = .ok value →
      ¬ InfiniteAt P "before" value ∧ ((∃ n, intMember P "before" value = .ok n) → ¬ InfiniteAt P "high" value)

theorem intOf_only {v : Value P.floats.Val} : OnlyValueErrors (intOf P v) ↔ ∀ x, v = .float x →
    P.isInfinite x = false := by
  cases v with
  | float x =>
    cases hx : P.isInfinite x with
    | true => simp [intOf, hx]
    | false => cases hn : P.floatInt x <;> simp [intOf, hx, hn, invalidCursor]
  | str t => cases hn : P.parseInt t <;> simp [intOf, hn, invalidCursor]
  | _ => simp [intOf, invalidCursor]

theorem member_only (name : String) (value : Value P.floats.Val) : OnlyValueErrors (member P name value) := by
  cases value with
  | dict entries => cases h : entries.lookup (lit name) <;> simp [member, h, invalidCursor]
  | _ => simp [member, invalidCursor]

theorem intMember_only {name : String} {value : Value P.floats.Val} :
    OnlyValueErrors (intMember P name value) ↔ ¬ InfiniteAt P name value := by
  rw [intMember, onlyValueErrors_bind, InfiniteAt]
  constructor
  · rintro ⟨-, h⟩ ⟨x, hx, hinf⟩
    rw [intOf_only.mp (h _ hx) x rfl] at hinf
    cases hinf
  · intro h
    refine ⟨member_only name value, fun v hv => intOf_only.mpr fun x hx => ?_⟩
    subst hx
    exact Bool.eq_false_of_not_eq_true fun hinf => h ⟨x, hv, hinf⟩

/-- **The cursors that are read or refused.** -/
theorem decodeCursor_only {cursor : Text} : OnlyValueErrors (decodeCursor P cursor) ↔ Convertible P cursor := by
  unfold decodeCursor Convertible
  cases cursorText cursor with
  | none => simp [invalidCursor]
  | some text =>
    cases hdeep : P.tooDeep text with
    | true => simp [hdeep]
    | false =>
      cases hread : loadsText P.floats.toFloatFormat keepLast text with
      | error => simp [hdeep, hread, invalidCursor]
      | ok => simp [hdeep, hread, onlyValueErrors_bind, onlyValueErrors_ite, intMember_only, invalidCursor]

/-! ## Queries -/

theorem nextCursor_only (r : EventsRequest) (high : Int) (values : List (WireEvent P)) :
    OnlyValueErrors (nextCursor r high values) := by
  unfold nextCursor
  split
  · exact onlyValueErrors_ok
  · split
    · exact onlyValueErrors_ok
    · cases h : encodeCursor P _ _ <;> simp [orRaise, Except.map]

/-- The two numbers and the severity of a request that is not refused before it reaches the database. -/
def Asks (P : Platform) (currentHigh : Nat) (r : EventsRequest) (w : Int × Int) (minimum : EventSeverity) : Prop :=
  severityNamed r.minimumSeverity = some minimum ∧
    ((∃ cursor, cursor ≠ [] ∧ r.cursor = some cursor ∧ decodeCursor P cursor = .ok w) ∨
      ((r.cursor = none ∨ r.cursor = some []) ∧ w = ((currentHigh : Int) + 1, (currentHigh : Int))))

/-- A query within the limits of the database: not too many values, no number too large, and no row that is compared
with too long a pattern. -/
structure Takes (log : EventLog P) (r : EventsRequest) (w : Int × Int) (minimum : EventSeverity) : Prop where
  values : r.boundValues minimum ≤ P.maxVariables
  storable : Storable r w
  pattern : r.Bindable P → r.tooLong P = true → compared log r minimum w.1 w.2 = false

variable {currentHigh : Nat} {r : EventsRequest} {w : Int × Int} {minimum : EventSeverity}

theorem window_ok : window P currentHigh r = .ok w ↔
    (∃ cursor, cursor ≠ [] ∧ r.cursor = some cursor ∧ decodeCursor P cursor = .ok w) ∨
      ((r.cursor = none ∨ r.cursor = some []) ∧ w = ((currentHigh : Int) + 1, (currentHigh : Int))) := by
  unfold window
  rcases r.cursor with _ | _ | ⟨c, t⟩ <;> simp [eq_comm]

theorem window_only : OnlyValueErrors (window P currentHigh r) ↔
    ∀ cursor, cursor ≠ [] → r.cursor = some cursor → Convertible P cursor := by
  unfold window
  rcases r.cursor with _ | _ | ⟨c, t⟩
  · simp
  · simp +contextual
  · rw [decodeCursor_only]
    constructor
    · rintro h cursor - ⟨⟩
      exact h
    · intro h
      exact h _ (List.cons_ne_nil c t) rfl

theorem parameters_ok : parameters P currentHigh r = .ok (w, minimum) ↔
    Asks P currentHigh r w minimum ∧ r.boundValues minimum ≤ P.maxVariables ∧ Storable r w ∧ r.Bindable P := by
  simp only [parameters, Asks, ← window_ok, bind_eq_ok, orRaise_eq_ok, ensure_eq_ok, pure_eq_ok, Prod.mk.injEq]
  constructor
  · rintro ⟨w, hw, minimum, hminimum, -, hvalues, -, hstore, -, hbind, rfl, rfl⟩
    exact ⟨⟨hminimum, hw⟩, hvalues, hstore, hbind⟩
  · rintro ⟨⟨hminimum, hw⟩, hvalues, hstore, hbind⟩
    exact ⟨w, hw, minimum, hminimum, (), hvalues, (), hstore, (), hbind, rfl, rfl⟩

theorem parameters_only : OnlyValueErrors (parameters P currentHigh r) ↔
    (∀ cursor, cursor ≠ [] → r.cursor = some cursor → Convertible P cursor) ∧
      ∀ w minimum, Asks P currentHigh r w minimum → r.boundValues minimum ≤ P.maxVariables ∧ Storable r w := by
  unfold parameters
  rw [← window_only, onlyValueErrors_bind]
  refine and_congr_right fun _ => forall_congr' fun w => ?_
  simp only [Asks, ← window_ok, onlyValueErrors_bind, onlyValueErrors_orRaise, onlyValueErrors_ensure, orRaise_eq_ok,
    ensure_eq_ok, onlyValueErrors_error]
  constructor
  · rintro h minimum ⟨hm, hw⟩
    obtain ⟨hcount, hrest⟩ := (h hw).2 minimum hm
    have hvalues : r.boundValues minimum ≤ P.maxVariables := by
      by_contra hmany
      obtain ⟨message, hmessage⟩ := hcount hmany
      cases hmessage
    refine ⟨hvalues, ?_⟩
    by_contra hstore
    obtain ⟨message, hmessage⟩ := (hrest () hvalues).1 hstore
    cases hmessage
  · intro h hw
    refine ⟨fun _ => ⟨_, rfl⟩, fun m hm => ?_⟩
    obtain ⟨hvalues, hstore⟩ := h m ⟨hm, hw⟩
    exact ⟨fun hmany => absurd hvalues hmany, fun _ _ => ⟨fun hlarge => absurd hstore hlarge,
      fun _ _ => ⟨fun _ => ⟨_, rfl⟩, fun _ _ => onlyValueErrors_ok⟩⟩⟩

/-- **The queries that are answered or refused with a `ValueError`.** -/
theorem events_only {log : EventLog P} : OnlyValueErrors (events currentHigh log r) ↔
    (∀ cursor, cursor ≠ [] → r.cursor = some cursor → Convertible P cursor) ∧
      ∀ w minimum, Asks P currentHigh r w minimum → Takes log r w minimum := by
  have hrest : ∀ (w : Int × Int) minimum,
    OnlyValueErrors (ensure (¬ (r.tooLong P = true ∧ compared log r minimum w.1 w.2 = true))
      .operationalError >>= fun _ => nextCursor r w.2 (found log r minimum w.1 w.2)) ↔
      (r.tooLong P = true → compared log r minimum w.1 w.2 = false) := by
    intro w minimum
    rw [onlyValueErrors_bind, onlyValueErrors_ensure, onlyValueErrors_error]
    simp [nextCursor_only]
  unfold events
  rw [onlyValueErrors_bind, parameters_only, and_assoc]
  refine and_congr_right fun _ => ?_
  constructor
  · rintro ⟨hlimits, hcompared⟩ w minimum hasks
    obtain ⟨hvalues, hstore⟩ := hlimits w minimum hasks
    refine ⟨hvalues, hstore, fun hbind => (hrest w minimum).mp ?_⟩
    have hevents := hcompared (w, minimum) (parameters_ok.mpr ⟨hasks, hvalues, hstore, hbind⟩)
    refine onlyValueErrors_bind.mpr ⟨(onlyValueErrors_bind.mp hevents).1, fun _ _ => nextCursor_only r w.2 _⟩
  · intro h
    refine ⟨fun w minimum hasks => ⟨(h w minimum hasks).values, (h w minimum hasks).storable⟩, fun p hp => ?_⟩
    obtain ⟨hasks, -, -, hbind⟩ := parameters_ok.mp hp
    have hfirst := onlyValueErrors_bind.mp ((hrest p.1 p.2).mpr ((h p.1 p.2 hasks).pattern hbind))
    refine onlyValueErrors_bind.mpr ⟨hfirst.1, fun _ _ => onlyValueErrors_bind.mpr ⟨nextCursor_only r p.1.2 _, ?_⟩⟩
    exact fun _ _ => onlyValueErrors_ok

/-- **A query is answered or refused with a `ValueError`, for a cursor that can be converted and within the limits of
the database; a pair survives the way through a cursor when both numbers can be written.** -/
theorem events_total_iff (currentHigh : Nat) (log : EventLog P) (r : EventsRequest) :
    (OnlyValueErrors (events currentHigh log r) ↔
      (∀ cursor, cursor ≠ [] → r.cursor = some cursor → Convertible P cursor) ∧
        ∀ w minimum, Asks P currentHigh r w minimum → Takes log r w minimum) ∧
    ∀ before high : Int, 1 ≤ before → 0 ≤ high → before ≤ high + 1 →
      ((∃ cursor, encodeCursor P before high = some cursor ∧ decodeCursor P cursor = .ok (before, high)) ↔
        Spellable before ∧ Spellable high) := by
  refine ⟨events_only, fun before high hbefore hhigh hle => ?_⟩
  rw [← encodeCursor_isSome (P := P), Option.isSome_iff_exists]
  exact exists_congr fun cursor => and_iff_left_of_imp (decode_encode hbefore hhigh hle)

/-! ## A number that is too large -/

theorem lowerAscii_surrogate (c : CodePoint) : (Store.Redaction.lowerAscii c).surrogate = c.surrogate := by
  unfold Store.Redaction.lowerAscii
  split
  · next hbetween =>
    have hz : (ch 'Z').val = 0x5A := rfl
    have hle := (of_decide_eq_true hbetween).2
    have hval : (codePoint (c.val + 32)).val = c.val + 32 := Nat.mod_eq_of_lt (by omega)
    have hsmall : ∀ d : CodePoint, d.val < 0xD800 → d.surrogate = false := fun d hd => decide_eq_false (by omega)
    rw [hsmall _ (by omega), hsmall _ (by omega)]
  · rfl

/-- A platform whose JSON has no numbers but NaN with a fraction or an exponent. -/
def smallPlatform : Platform where
  floats := sampleFloats
  isInfinite _ := false
  floatInt _ := none
  floatStr _ := lit "nan"
  parseInt _ := none
  tooDeep t := decide (900 < t.count (ch '\x7b') + t.count (ch '['))
  tooDeep_flat t h := decide_eq_false (by omega)
  lower t := t.map Store.Redaction.lowerAscii
  lower_ascii _ _ := rfl
  lower_plain t := by simp [Plain, lowerAscii_surrogate]
  lower_ne_nil t h := fun hnil => h (List.map_eq_nil_iff.mp hnil)
  maxVariables := 32766
  maxPattern := 50000
  nodesFirst nodes _ tasks _ := decide (nodes.length = 1 ∧ tasks = [])

/-- All events after a number that needs more than 63 bits. -/
def farRequest : EventsRequest := ⟨⟨[], [], [], [], [], lit "debug", none⟩, 100, none, 9223372036854775808, false⟩

theorem events_overflow :
    ¬ OnlyValueErrors (events (P := smallPlatform) 0 ⟨[], [], .nil, List.forall_mem_nil _⟩ farRequest) := by
  intro h
  obtain ⟨message, hmessage⟩ := h .overflowError rfl
  cases hmessage

end AgentFabric.Api
