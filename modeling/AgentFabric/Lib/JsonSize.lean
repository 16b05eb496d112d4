import AgentFabric.Lib.JsonLeaves

/-!
# How long the text of a value is

The bytes of the canonical text of a value, counted without writing it: the order of entries does not change them.
-/

namespace AgentFabric.Lib

/-! ## Texts -/

/-- The number of bytes of a character in UTF-8. -/
def utf8Size (c : CodePoint) : Nat :=
  if c.val < 0x80 then 1 else if c.val < 0x800 then 2 else if c.val < 0x10000 then 3 else 4

/-- The number of bytes of a text in UTF-8. -/
def textSize (t : Text) : Nat := (t.map utf8Size).sum

@[simp] theorem textSize_nil : textSize [] = 0 := rfl

@[simp] theorem textSize_cons (c : CodePoint) (t : Text) : textSize (c :: t) = utf8Size c + textSize t := List.sum_cons

@[simp] theorem textSize_append (s t : Text) : textSize (s ++ t) = textSize s + textSize t := by
  simp [textSize]

theorem length_le_textSize (t : Text) : t.length ≤ textSize t := by
  induction t with
  | nil => exact Nat.le_refl 0
  | cons c =>
    have hpos : 1 ≤ utf8Size c := by
      unfold utf8Size
      repeat' split
      all_goals omega
    rw [textSize_cons, List.length_cons]
    omega

theorem utf8Char_length {c : CodePoint} {bytes : List Byte} (h : utf8Char c = some bytes) :
    bytes.length = utf8Size c := by
  simp only [utf8Char] at h
  unfold utf8Size
  split at h
  · next hlt =>
    cases h
    rw [if_pos hlt]
    rfl
  split at h
  · next hge hlt =>
    cases h
    rw [if_neg hge, if_pos hlt]
    rfl
  split at h
  · cases h
  split at h
  · next hge hge' _ hlt =>
    cases h
    rw [if_neg hge, if_neg hge', if_pos hlt]
    rfl
  · next hge hge' _ hge'' =>
    cases h
    rw [if_neg hge, if_neg hge', if_neg hge'']
    rfl

theorem utf8Encode_length {t : Text} {bytes : List Byte} (h : utf8Encode t = some bytes) :
    bytes.length = textSize t := by
  induction t generalizing bytes with
  | nil =>
    cases h
    rfl
  | cons c t ih =>
    simp only [utf8Encode, bind, Option.bind_eq_some_iff, pure, Option.some.injEq] at h
    obtain ⟨head, hhead, rest, hrest, rfl⟩ := h
    rw [List.length_append, utf8Char_length hhead, ih hrest, textSize_cons]

/-- The number of bytes of a string literal. -/
def strSize (s : Text) : Nat := textSize (s.flatMap escaped) + 2

theorem escaped_size_le (c : CodePoint) : textSize (escaped c) ≤ 6 := by
  have hhex : ∀ n < 16, utf8Size (hexDigit n) = 1 := by decide
  unfold escaped
  repeat' split
  all_goals try decide
  · next h =>
    rw [textSize_append, textSize_cons, textSize_cons, hhex _ (by omega), hhex _ (by omega)]
    decide
  · rw [textSize_cons, textSize_nil, utf8Size]
    repeat' split
    all_goals omega

theorem strSize_le (s : Text) : strSize s ≤ 6 * s.length + 2 := by
  rw [strSize]
  refine Nat.add_le_add_right ?_ 2
  induction s with
  | nil => exact Nat.le_refl 0
  | cons c =>
    have hc := escaped_size_le c
    rw [List.flatMap_cons, textSize_append, List.length_cons]
    omega

theorem textSize_ascii {t : Text} (h : ∀ c ∈ t, c.val < 0x80) : textSize t = t.length := by
  induction t with
  | nil => rfl
  | cons c t ih =>
    rw [textSize_cons, utf8Size, if_pos (h c List.mem_cons_self), ih fun d hd => h d (List.mem_cons_of_mem c hd),
      List.length_cons, Nat.add_comm]

/-- A number has a sign and at most `maxStrDigits` digits. -/
theorem intText_size_le {n : Int} {t : Text} (h : intText n = some t) : textSize t ≤ maxStrDigits + 1 := by
  have hdigit : ∀ c ∈ natText n.natAbs, c.val < 0x80 := fun c hc => isDigit_lt ((natText_digits n.natAbs).2 c hc)
  simp only [intText] at h
  split at h
  · next hlength =>
    obtain rfl := Option.some.inj h
    split
    · rw [textSize_cons, textSize_ascii hdigit, show utf8Size (ch '-') = 1 by decide]
      omega
    · rw [textSize_ascii hdigit]
      omega
  · cases h

/-! ## Values -/

section Sizes

variable (F : JsonFloats)

mutual

/-- The number of bytes of the canonical text of a value. -/
def jsonSize : Value F.Val → Nat
  | .none => 4
  | .bool b => if b then 4 else 5
  | .int n => textSize ((intText n).getD [])
  | .float x => textSize (if F.isFinite x then F.repr x else F.word x)
  | .str s => strSize s
  | .list items => itemsSize items + (items.length - 1) + 2
  | .dict entries => entriesSize entries + (entries.length - 1) + 2
  | .foreign _ _ => 0

/-- The items of an array, without the commas. -/
def itemsSize : List (Value F.Val) → Nat
  | [] => 0
  | v :: items => jsonSize v + itemsSize items

/-- The entries of an object, without the commas. -/
def entriesSize : List (Text × Value F.Val) → Nat
  | [] => 0
  | (key, v) :: entries => strSize key + 1 + jsonSize v + entriesSize entries

end

variable {F}

theorem entriesSize_eq (entries : List (Text × Value F.Val)) :
    entriesSize F entries = (entries.map fun e => strSize e.1 + 1 + jsonSize F e.2).sum := by
  induction entries with
  | nil => rfl
  | cons e entries ih => rw [entriesSize, ih, List.map_cons, List.sum_cons]

mutual

/-- The order of the entries does not count. -/
theorem jsonSize_sorted : (v : Value F.Val) → jsonSize F v.sorted = jsonSize F v
  | .none => rfl
  | .bool _ => rfl
  | .int _ => rfl
  | .float _ => rfl
  | .str _ => rfl
  | .list items => by
    have hlength : (Value.sortedItems items).length = items.length := by
      rw [Value.sortedItems_eq_map, List.length_map]
    rw [Value.sorted, jsonSize, jsonSize, itemsSize_sorted items, hlength]
  | .dict entries => by
    have hperm := List.perm_insertionSort Value.keyLe (Value.sortedEntries entries)
    have hlength : (Value.sortedEntries entries).length = entries.length := by
      rw [Value.sortedEntries_eq_map, List.length_map]
    rw [Value.sorted, jsonSize, jsonSize, entriesSize_eq, (hperm.map _).sum_eq, ← entriesSize_eq,
      entriesSize_sorted entries, hperm.length_eq, hlength]
  | .foreign _ _ => rfl

theorem itemsSize_sorted : (items : List (Value F.Val)) → itemsSize F (Value.sortedItems items) = itemsSize F items
  | [] => rfl
  | v :: items => by rw [Value.sortedItems, itemsSize, itemsSize, jsonSize_sorted v, itemsSize_sorted items]

theorem entriesSize_sorted : (entries : List (Text × Value F.Val)) →
    entriesSize F (Value.sortedEntries entries) = entriesSize F entries
  | [] => rfl
  | (key, v) :: entries => by
    rw [Value.sortedEntries, entriesSize, entriesSize, jsonSize_sorted v, entriesSize_sorted entries]

end

theorem textSize_quoted (s : Text) : textSize ((wide F).quoted s) = strSize s := by
  have hquote : utf8Size (ch '"') = 1 := by decide
  simp only [Spelling.quoted, List.cons_append, textSize_cons, textSize_append, textSize_nil, hquote, strSize, wide]
  omega

mutual

/-- What the writer makes of a value has that many bytes. -/
theorem renderBy_size : (v : Value F.Val) → v.Tree → ∀ {t : Text}, (wide F).renderBy v = some t →
    textSize t = jsonSize F v
  | .none, _, t, ht => by
    cases ht
    exact show textSize (lit "null") = 4 by decide
  | .bool b, _, t, ht => by
    cases ht
    cases b
    · exact show textSize (lit "false") = 5 by decide
    · exact show textSize (lit "true") = 4 by decide
  | .int n, _, t, ht => by
    rw [Spelling.renderBy] at ht
    rw [jsonSize, ht, Option.getD_some]
  | .float x, _, t, ht => by
    cases ht
    rfl
  | .str s, _, t, ht => by
    cases ht
    exact textSize_quoted s
  | .list items, htree, t, ht => by
    obtain ⟨u, hu, rfl⟩ := Option.map_eq_some_iff.mp ht
    have hbracket : utf8Size (ch '[') = 1 ∧ utf8Size (ch ']') = 1 := by decide
    rw [List.cons_append, textSize_cons, textSize_append, textSize_cons, textSize_nil, hbracket.1, hbracket.2, jsonSize,
      renderItemsBy_size items htree hu]
    omega
  | .dict entries, htree, t, ht => by
    obtain ⟨u, hu, rfl⟩ := Option.map_eq_some_iff.mp ht
    have hbrace : utf8Size (ch '{') = 1 ∧ utf8Size (ch '}') = 1 := by decide
    rw [List.cons_append, textSize_cons, textSize_append, textSize_cons, textSize_nil, hbrace.1, hbrace.2, jsonSize,
      renderEntriesBy_size entries htree.2 hu]
    omega
  | .foreign _ _, htree, _, _ => htree.elim

theorem renderItemsBy_size : (items : List (Value F.Val)) → Value.FormedItems False items → ∀ {t : Text},
    (wide F).renderItemsBy items = some t → textSize t = itemsSize F items + (items.length - 1)
  | [], _, t, ht => by
    cases ht
    rfl
  | [v], htree, t, ht => renderBy_size v htree.1 ht
  | v :: w :: items, htree, t, ht => by
    simp only [Spelling.renderItemsBy, bind, Option.bind_eq_some_iff, pure, Option.some.injEq] at ht
    obtain ⟨head, hhead, rest, hrest, rfl⟩ := ht
    have hcomma : utf8Size (ch ',') = 1 := by decide
    have hlast := renderItemsBy_size (w :: items) htree.2 hrest
    simp only [textSize_append, textSize_cons, hcomma, renderBy_size v htree.1 hhead, hlast, itemsSize,
      List.length_cons]
    omega

theorem renderEntriesBy_size : (entries : List (Text × Value F.Val)) → Value.FormedEntries False entries → ∀ {t : Text},
    (wide F).renderEntriesBy entries = some t → textSize t = entriesSize F entries + (entries.length - 1)
  | [], _, t, ht => by
    cases ht
    rfl
  | [(key, v)], htree, t, ht => by
    obtain ⟨u, hu, rfl⟩ := Option.map_eq_some_iff.mp ht
    have hcolon : utf8Size (ch ':') = 1 := by decide
    rw [textSize_append, textSize_cons, hcolon, textSize_quoted, renderBy_size v htree.1 hu, entriesSize, entriesSize,
      List.length_singleton]
    omega
  | (key, v) :: e :: entries, htree, t, ht => by
    simp only [Spelling.renderEntriesBy, bind, Option.bind_eq_some_iff, pure, Option.some.injEq] at ht
    obtain ⟨head, hhead, rest, hrest, rfl⟩ := ht
    have hmark : utf8Size (ch ':') = 1 ∧ utf8Size (ch ',') = 1 := by decide
    have hlast := renderEntriesBy_size (e :: entries) htree.2 hrest
    simp only [textSize_append, textSize_cons, hmark.1, hmark.2, textSize_quoted, renderBy_size v htree.1 hhead, hlast,
      entriesSize, List.length_cons]
    omega

end

/-- **The canonical text of a value** has `jsonSize` bytes. -/
theorem wideText_size {v : Value F.Val} (h : v.Tree) {t : Text} (ht : wideText F v = some t) :
    textSize t = jsonSize F v :=
  (renderBy_size v.sorted (Value.formed_sorted h) ht).trans (jsonSize_sorted v)

end Sizes

end AgentFabric.Lib
