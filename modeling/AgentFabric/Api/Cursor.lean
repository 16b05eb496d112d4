import AgentFabric.Lib.Base64
import AgentFabric.Lib.JsonEdits
import AgentFabric.Lib.JsonLeaves
import AgentFabric.Store.Redaction

/-!
# The cursor of a page of events

A page of events ends with a cursor for the next one: two numbers in a JSON object, in base64.
-/

namespace AgentFabric.Api

open AgentFabric.Lib

/-- What the projections take from the language and from the database. -/
structure Platform where
  floats : JsonFloats
  isInfinite : floats.Val → Bool
  /-- `int(x)` of a number that is not infinite; there is none for NaN. -/
  floatInt : floats.Val → Option Int
  floatStr : floats.Val → Text
  /-- `int(text)` -/
  parseInt : Text → Option Int
  /-- The reader of JSON gives up on the depth of a text. -/
  tooDeep : Text → Bool
  tooDeep_flat : ∀ t, t.count (ch '\x7b') + t.count (ch '[') ≤ 1 → tooDeep t = false
  /-- `str.lower` -/
  lower : Text → Text
  lower_ascii : ∀ t, asciiText t = true → lower t = t.map Store.Redaction.lowerAscii
  lower_plain : ∀ t, Plain (lower t) ↔ Plain t
  lower_ne_nil : ∀ t, t ≠ [] → lower t ≠ []
  /-- `SQLITE_LIMIT_VARIABLE_NUMBER` -/
  maxVariables : Nat
  /-- `SQLITE_LIMIT_LIKE_PATTERN_LENGTH`, in bytes. -/
  maxPattern : Nat
  /-- The plan of a query with these filters starts with the nodes and not with the events. -/
  nodesFirst : (nodes harnesses tasks goals : List Text) → Bool

inductive EventsError where
  | valueError (message : String)
  | overflowError
  | recursionError
  | operationalError
deriving DecidableEq

def invalidCursor : EventsError := .valueError "invalid event cursor"

variable (P : Platform)

/-- `int(v)`; of its errors the one for an infinite number is not caught. -/
def intOf : Value P.floats.Val → Except EventsError Int
  | .int n => .ok n
  | .bool b => .ok (if b then 1 else 0)
  | .str t =>
    match P.parseInt t with
    | some n => .ok n
    | none => .error invalidCursor
  | .float x =>
    if P.isInfinite x then .error .overflowError
    else match P.floatInt x with
      | some n => .ok n
      | none => .error invalidCursor
  | .none | .list _ | .dict _ | .foreign _ _ => .error invalidCursor

/-- `value[name]` -/
def member (name : String) : Value P.floats.Val → Except EventsError (Value P.floats.Val)
  | .dict entries =>
    match entries.lookup (lit name) with
    | some v => .ok v
    | none => .error invalidCursor
  | _ => .error invalidCursor

def intMember (name : String) (value : Value P.floats.Val) : Except EventsError Int :=
  member P name value >>= intOf P

def cursorText (cursor : Text) : Option Text := (base64Decode (fillUp cursor)).bind utf8Strict

def decodeCursor (cursor : Text) : Except EventsError (Int × Int) :=
  match cursorText cursor with
  | none => .error invalidCursor
  | some text =>
    if P.tooDeep text then .error .recursionError
    else match loadsText P.floats.toFloatFormat keepLast text with
      | .error _ => .error invalidCursor
      | .ok value =>
        intMember P "before" value >>= fun before =>
          intMember P "high" value >>= fun high =>
            if before < 1 ∨ high < 0 ∨ high + 1 < before then .error invalidCursor else .ok (before, high)

def cursorValue (before high : Int) : Value P.floats.Val := .dict [(lit "before", .int before), (lit "high", .int high)]

/-- `encode_cursor`; there is none when a number has too many digits to be written. -/
def encodeCursor (before high : Int) : Option Text :=
  (canonicalText P.floats (cursorValue P before high)).bind fun raw =>
    (utf8Encode raw).map fun bytes => unfill (base64Encode bytes)

variable {P} {before high : Int} {cursor raw : Text}

/-! ## What is written is read back -/

theorem cursorValue_sorted : (cursorValue P before high).sorted = cursorValue P before high := rfl

theorem cursorValue_readable : (cursorValue P before high).Readable := by
  refine .dict (show [lit "before", lit "high"].Nodup by decide) (fun e he => ?_) fun e he => ?_
  · simp only [List.mem_cons, List.not_mem_nil, or_false] at he
    rcases he with rfl | rfl <;> exact (plain_of_ascii rfl).joined
  · simp only [List.mem_cons, List.not_mem_nil, or_false] at he
    rcases he with rfl | rfl
    · exact .int before
    · exact .int high

theorem canonicalText_cursor : canonicalText P.floats (cursorValue P before high) = some raw ↔
    ∃ b h, intText before = some b ∧ intText high = some h ∧
      raw = lit "\x7b\"before\":" ++ (b ++ (lit ",\"high\":" ++ (h ++ lit "\x7d"))) := by
  have hbefore : (ascii P.floats).quoted (lit "before") = lit "\"before\"" := rfl
  have hhigh : (ascii P.floats).quoted (lit "high") = lit "\"high\"" := rfl
  rw [canonicalText, cursorValue_sorted, cursorValue]
  cases hb : intText before <;> cases hh : intText high <;>
    simp only [Spelling.renderBy, Spelling.renderEntriesBy, hbefore, hhigh, hb, hh] <;> simp [eq_comm, lit]

theorem intText_chars {n : Int} {t : Text} (h : intText n = some t) : ∀ c ∈ t, c = ch '-' ∨ isDigit c = true := by
  have hdigits : ∀ c ∈ natText n.natAbs, isDigit c = true := (natText_digits n.natAbs).2
  simp only [intText] at h
  split at h
  · obtain rfl := Option.some.inj h
    intro c hc
    split at hc
    · exact (List.mem_cons.mp hc).imp_right (hdigits c)
    · exact Or.inr (hdigits c hc)
  · cases h

theorem intText_count {n : Int} {t : Text} (h : intText n = some t) : t.count (ch '\x7b') = 0 ∧
    t.count (ch '[') = 0 := by
  have habsent : ∀ c, c ≠ ch '-' → isDigit c = false → t.count c = 0 := by
    intro c hminus hdigit
    refine List.count_eq_zero_of_not_mem fun hc => ?_
    rcases intText_chars h c hc with heq | htrue
    · exact hminus heq
    · rw [hdigit] at htrue
      cases htrue
  exact ⟨habsent _ (by decide) (by decide), habsent _ (by decide) (by decide)⟩

theorem cursorText_encode {bytes : List Byte}
    (hbytes : utf8Encode raw = some bytes) : cursorText (unfill (base64Encode bytes)) = some raw := by
  rw [cursorText, fillUp_unfill, base64Decode_encode]
  exact utf8Strict_of_encode hbytes

/-- **A cursor that is written is read back.** -/
theorem decode_encode (hbefore : 1 ≤ before) (hhigh : 0 ≤ high) (hle : before ≤ high + 1)
    (h : encodeCursor P before high = some cursor) : decodeCursor P cursor = .ok (before, high) := by
  obtain ⟨raw, hraw, h⟩ := Option.bind_eq_some_iff.mp h
  obtain ⟨bytes, hbytes, rfl⟩ := Option.map_eq_some_iff.mp h
  obtain ⟨b, d, hb, hd, hspelt⟩ := canonicalText_cursor.mp hraw
  have hshallow : P.tooDeep raw = false := by
    apply P.tooDeep_flat
    rw [hspelt]
    simp only [List.count_append, (intText_count hb).1, (intText_count hb).2, (intText_count hd).1,
      (intText_count hd).2]
    decide
  have hread : loadsText P.floats.toFloatFormat keepLast raw = .ok (cursorValue P before high) := by
    rw [← cursorValue_sorted]
    exact loadsText_canonical (fun pairs hnodup => by rw [keepLast, objectOf_nodup hnodup]) cursorValue_readable hraw
  have hfirst : intMember P "before" (cursorValue P before high) = .ok before := rfl
  have hsecond : intMember P "high" (cursorValue P before high) = .ok high := rfl
  unfold decodeCursor
  rw [cursorText_encode hbytes]
  simp only [hshallow, Bool.false_eq_true, if_false, hread, hfirst, hsecond, Bind.bind, Except.bind]
  rw [if_neg (by omega)]

/-- A number can be written when it has not too many digits. -/
def Spellable (n : Int) : Prop := (natText n.natAbs).length ≤ maxStrDigits

theorem intText_isSome {n : Int} : (∃ t, intText n = some t) ↔ Spellable n := by
  simp only [intText, Spellable]
  split <;> simp_all

/-- **The cursors that can be written.** -/
theorem encodeCursor_isSome : (encodeCursor P before high).isSome = true ↔ Spellable before ∧ Spellable high := by
  rw [← intText_isSome, ← intText_isSome, Option.isSome_iff_exists]
  constructor
  · rintro ⟨cursor, h⟩
    obtain ⟨raw, hraw, -⟩ := Option.bind_eq_some_iff.mp h
    obtain ⟨b, d, hb, hd, -⟩ := canonicalText_cursor.mp hraw
    exact ⟨⟨b, hb⟩, d, hd⟩
  · rintro ⟨⟨b, hb⟩, d, hd⟩
    have hraw := (canonicalText_cursor (P := P)).mpr ⟨b, d, hb, hd, rfl⟩
    have hplain : Plain (lit "\x7b\"before\":" ++ (b ++ (lit ",\"high\":" ++ (d ++ lit "\x7d")))) :=
      (plain_of_ascii rfl).append ((intText_plain hb).append
        ((plain_of_ascii rfl).append ((intText_plain hd).append (plain_of_ascii rfl))))
    obtain ⟨bytes, hbytes⟩ := Option.isSome_iff_exists.mp (utf8Encode_isSome.mpr hplain)
    exact ⟨_, Option.bind_eq_some_iff.mpr ⟨_, hraw, Option.map_eq_some_iff.mpr ⟨bytes, hbytes, rfl⟩⟩⟩

end AgentFabric.Api
