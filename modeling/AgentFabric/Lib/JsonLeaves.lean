import AgentFabric.Lib.JsonAscii

/-!
# What a value of JSON is made of

A value can be written if its integers are not too long, and its text can be encoded if no key and no string has a lone
surrogate.
-/

namespace AgentFabric.Lib

/-! ## Texts that can be encoded -/

variable {t : Text}

theorem plain_of_lt (h : ∀ c ∈ t, c.val < 0x80) : Plain t :=
  plain_of_ascii (List.all_eq_true.mpr fun c hc => decide_eq_true (h c hc))

variable {c : CodePoint}

theorem lt_of_mem_ascii (h : asciiText t = true) (hc : c ∈ t) : c.val < 0x80 :=
  of_decide_eq_true (List.all_eq_true.mp h c hc)

theorem isDigit_lt (h : isDigit c = true) : c.val < 0x80 := by
  simp only [isDigit, decide_eq_true_eq] at h
  omega

theorem intText_plain {n : Int} (h : intText n = some t) : Plain t := by
  have hdigits : ∀ c ∈ natText n.natAbs, c.val < 0x80 := fun c hc => isDigit_lt ((natText_digits n.natAbs).2 c hc)
  unfold intText at h
  simp only at h
  split at h
  · obtain rfl := Option.some.inj h
    split
    · exact plain_of_lt (List.forall_mem_cons.mpr ⟨by decide, hdigits⟩)
    · exact plain_of_lt hdigits
  · cases h

theorem NumberText.Valid.plain {n : NumberText} (h : n.Valid) : Plain n.text := by
  have hdigits : ∀ {ds : Text}, Digits ds → Plain ds := fun hd => plain_of_lt fun c hc => isDigit_lt (hd.2 c hc)
  refine Plain.append (Plain.append (Plain.append ?_ ?_) ?_) ?_
  · rcases h.sign with hs | hs <;> rw [hs] <;> exact plain_of_ascii rfl
  · rcases h.int with hs | hs
    · rw [hs]
      exact plain_of_ascii rfl
    · exact hdigits hs.1
  · rcases h.frac with hs | ⟨ds, hs, hd⟩
    · rw [hs]
      exact plain_of_ascii rfl
    · rw [hs]
      exact Plain.append (s := [ch '.']) (plain_of_ascii rfl) (hdigits hd)
  · rcases h.exp with hs | ⟨e, s, ds, hs, he, hsign, hd⟩
    · rw [hs]
      exact plain_of_ascii rfl
    · rw [hs]
      refine Plain.append (s := e :: s) (Plain.append (s := [e]) ?_ ?_) (hdigits hd)
      · rcases he with rfl | rfl <;> exact plain_of_ascii rfl
      · rcases hsign with rfl | rfl | rfl <;> exact plain_of_ascii rfl

theorem utf8Char_isSome : (utf8Char c).isSome = true ↔ c.surrogate = false := by
  have hlow : c.val < 0x800 → c.surrogate = false := by
    intro h
    simp only [CodePoint.surrogate, decide_eq_false_iff_not]
    omega
  unfold utf8Char
  simp only
  split
  · next h => exact iff_of_true rfl (hlow (by omega))
  split
  · next h => exact iff_of_true rfl (hlow h)
  split
  · next h => simp [h]
  split
  · next h _ => exact iff_of_true rfl (by simpa using h)
  · next h _ => exact iff_of_true rfl (by simpa using h)

theorem utf8Encode_isSome : (utf8Encode t).isSome = true ↔ Plain t := by
  induction t with
  | nil => exact iff_of_true rfl fun c hc => (by cases hc)
  | cons c t ih =>
    have hcons : Plain (c :: t) ↔ c.surrogate = false ∧ Plain t := List.forall_mem_cons
    rw [hcons, ← utf8Char_isSome, ← ih]
    cases hc : utf8Char c <;> cases ht : utf8Encode t <;> simp [utf8Encode, hc, ht]

theorem utf8Strict_of_encode {bytes : List Byte} (h : utf8Encode t = some bytes) : utf8Strict bytes = some t := by
  have hplain := utf8Encode_isSome.mp (Option.isSome_of_mem h)
  refine Option.filter_eq_some_iff.mpr ⟨utf8Decode_encode h, List.all_eq_true.mpr fun c hc => ?_⟩
  rw [hplain c hc]
  rfl

/-! ## Leaves -/

namespace Value

variable {φ : Type}

mutual

/-- The keys, the strings and the integers of a value. -/
def leaves : Value φ → List (Text ⊕ Int)
  | .int n => [.inr n]
  | .str s => [.inl s]
  | .list items => leavesItems items
  | .dict entries => leavesEntries entries
  | _ => []

def leavesItems : List (Value φ) → List (Text ⊕ Int)
  | [] => []
  | v :: items => v.leaves ++ leavesItems items

def leavesEntries : List (Text × Value φ) → List (Text ⊕ Int)
  | [] => []
  | (k, v) :: entries => .inl k :: v.leaves ++ leavesEntries entries

end

theorem leavesItems_eq (items : List (Value φ)) : leavesItems items = items.flatMap leaves := by
  induction items with
  | nil => rfl
  | cons v items ih => rw [leavesItems, ih, List.flatMap_cons]

theorem leavesEntries_eq (entries : List (Text × Value φ)) :
    leavesEntries entries = entries.flatMap fun e => .inl e.1 :: e.2.leaves := by
  induction entries with
  | nil => rfl
  | cons e entries ih => rw [leavesEntries, ih, List.flatMap_cons]

mutual

theorem leaves_sorted : (v : Value φ) → ∀ {x : Text ⊕ Int}, x ∈ v.sorted.leaves ↔ x ∈ v.leaves
  | .none, _ => Iff.rfl
  | .bool _, _ => Iff.rfl
  | .int _, _ => Iff.rfl
  | .float _, _ => Iff.rfl
  | .str _, _ => Iff.rfl
  | .foreign _ _, _ => Iff.rfl
  | .list items, _ => leavesItems_sorted items
  | .dict entries, x => by
    simp only [sorted, leaves]
    rw [leavesEntries_eq, List.mem_flatMap, ← leavesEntries_sorted entries, leavesEntries_eq, List.mem_flatMap]
    simp only [(List.perm_insertionSort keyLe (sortedEntries entries)).mem_iff]

theorem leavesItems_sorted : (items : List (Value φ)) → ∀ {x : Text ⊕ Int},
    x ∈ leavesItems (sortedItems items) ↔ x ∈ leavesItems items
  | [], _ => Iff.rfl
  | v :: items, x => by
    rw [sortedItems, leavesItems, leavesItems, List.mem_append, List.mem_append, leaves_sorted v,
      leavesItems_sorted items]

theorem leavesEntries_sorted : (entries : List (Text × Value φ)) → ∀ {x : Text ⊕ Int},
    x ∈ leavesEntries (sortedEntries entries) ↔ x ∈ leavesEntries entries
  | [], _ => Iff.rfl
  | (k, v) :: entries, x => by
    rw [sortedEntries, leavesEntries, leavesEntries, List.cons_append, List.cons_append, List.mem_cons, List.mem_cons,
      List.mem_append, List.mem_append, leaves_sorted v, leavesEntries_sorted entries]

end

/-- No key and no string has a lone surrogate. -/
def Encodable (v : Value φ) : Prop := ∀ s, .inl s ∈ v.leaves → Plain s

/-- A value of JSON whose integers can be written. -/
structure Sized (v : Value φ) : Prop where
  tree : v.Tree
  ints : ∀ n, .inr n ∈ v.leaves → (intText n).isSome = true

theorem sized_none : (Value.none : Value φ).Sized := ⟨trivial, (by rintro _ ⟨⟩)⟩

theorem sized_bool (b : Bool) : (Value.bool b : Value φ).Sized := ⟨trivial, (by rintro _ ⟨⟩)⟩

theorem sized_float (x : φ) : (Value.float x).Sized := ⟨trivial, (by rintro _ ⟨⟩)⟩

theorem sized_str (s : Text) : (Value.str s : Value φ).Sized := ⟨trivial, fun _ h => (by cases List.mem_singleton.mp h)⟩

theorem sized_int {n : Int} (h : (intText n).isSome = true) : (Value.int n : Value φ).Sized where
  tree := trivial
  ints m hm := by
    cases List.mem_singleton.mp hm
    exact h

theorem encodable_str {s : Text} : (Value.str s : Value φ).Encodable ↔ Plain s := by
  refine ⟨fun h => h s List.mem_cons_self, fun h t ht => ?_⟩
  cases List.mem_singleton.mp ht
  exact h

variable {entries : List (Text × Value φ)}

theorem encodable_dict :
    (Value.dict entries).Encodable ↔ ∀ e ∈ entries, Plain e.1 ∧ e.2.Encodable := by
  simp only [Encodable, leaves, leavesEntries_eq, List.mem_flatMap, List.mem_cons]
  constructor
  · exact fun h e he => ⟨h e.1 ⟨e, he, Or.inl rfl⟩, fun s hs => h s ⟨e, he, Or.inr hs⟩⟩
  · rintro h s ⟨e, he, heq | hs⟩
    · cases heq
      exact (h e he).1
    · exact (h e he).2 s hs

theorem sized_list {items : List (Value φ)} (h : ∀ v ∈ items, v.Sized) : (Value.list items).Sized where
  tree := by
    show FormedItems False items
    induction items with
    | nil => trivial
    | cons v items ih =>
      exact ⟨(h v List.mem_cons_self).tree, ih fun w hw => h w (List.mem_cons_of_mem v hw)⟩
  ints n hn := by
    rw [leaves, leavesItems_eq, List.mem_flatMap] at hn
    obtain ⟨v, hv, hn⟩ := hn
    exact (h v hv).ints n hn

theorem sized_dict (hkeys : (entries.map Prod.fst).Nodup) (h : ∀ e ∈ entries, e.2.Sized) :
    (Value.dict entries).Sized where
  tree := ⟨hkeys, formedEntries_iff.mpr fun e he => (h e he).tree⟩
  ints n hn := by
    rw [leaves, leavesEntries_eq, List.mem_flatMap] at hn
    obtain ⟨e, he, hn⟩ := hn
    rcases List.mem_cons.mp hn with hkey | hn
    · cases hkey
    · exact (h e he).ints n hn

theorem sized_entry (h : (Value.dict entries).Sized) {e : Text × Value φ} (he : e ∈ entries) : e.2.Sized where
  tree := formedEntries_iff.mp h.tree.2 e he
  ints n hn := by
    refine h.ints n ?_
    rw [leaves, leavesEntries_eq, List.mem_flatMap]
    exact ⟨e, he, List.mem_cons_of_mem _ hn⟩

theorem sized_item {items : List (Value φ)} (h : (Value.list items).Sized) {v : Value φ}
    (hv : v ∈ items) : v.Sized where
  tree := by
    have htree : FormedItems False items := h.tree
    clear h
    induction items with
    | nil => cases hv
    | cons w items ih =>
      rcases List.mem_cons.mp hv with rfl | hv
      · exact htree.1
      · exact ih hv htree.2
  ints n hn := by
    refine h.ints n ?_
    rw [leaves, leavesItems_eq, List.mem_flatMap]
    exact ⟨v, hv, hn⟩

theorem sized_int_iff {n : Int} : (Value.int n : Value φ).Sized ↔ (intText n).isSome = true :=
  ⟨fun h => h.ints n List.mem_cons_self, sized_int⟩

/-- A value that can be written, and its text encoded. -/
structure Writable (v : Value φ) : Prop where
  sized : v.Sized
  encodable : v.Encodable

theorem writable_str {s : Text} : (Value.str s : Value φ).Writable ↔ Plain s :=
  ⟨fun h => encodable_str.mp h.encodable, fun h => ⟨sized_str s, encodable_str.mpr h⟩⟩

theorem writable_int {n : Int} : (Value.int n : Value φ).Writable ↔ (intText n).isSome = true :=
  ⟨fun h => sized_int_iff.mp h.sized, fun h => ⟨sized_int h, fun _ hs => (by cases List.mem_singleton.mp hs)⟩⟩

theorem writable_float (x : φ) : (Value.float x).Writable := ⟨sized_float x, (by rintro _ ⟨⟩)⟩

theorem writable_dict (hkeys : (entries.map Prod.fst).Nodup) (hplain : ∀ e ∈ entries, Plain e.1) :
    (Value.dict entries).Writable ↔ ∀ e ∈ entries, e.2.Writable := by
  constructor
  · exact fun h e he => ⟨sized_entry h.sized he, (encodable_dict.mp h.encodable e he).2⟩
  · exact fun h => ⟨sized_dict hkeys fun e he => (h e he).sized,
      encodable_dict.mpr fun e he => ⟨hplain e he, (h e he).encodable⟩⟩

end Value

section Objects

variable {F : JsonFloats}

theorem objectOf_sized {pairs : List (Text × Value F.Val)} (h : ∀ e ∈ pairs, e.2.Sized) : (objectOf pairs).Sized := by
  obtain ⟨entries, hobject, hkeys, hmem⟩ := objectOf_entries pairs
  rw [hobject]
  exact Value.sized_dict hkeys fun e he => h e (hmem e he)

theorem reads_sized (F : JsonFloats) (ε : Type) :
    Reads F.toFloatFormat (fun pairs => (.ok (objectOf pairs) : Except ε (Value F.Val))) (fun _ => True)
      (fun _ => True) Value.Sized where
  rest _ _ _ _ := trivial
  string _ _ _ _ _ := trivial
  none := Value.sized_none
  bool := Value.sized_bool
  int _ := Value.sized_int
  float := Value.sized_float
  str s _ := Value.sized_str s
  list _ := Value.sized_list
  hook _ _ heq h := Except.ok.inj heq ▸ objectOf_sized fun e he => (h e he).2

end Objects

/-! ## Writing -/

theorem plain_append_iff {s : Text} : Plain (s ++ t) ↔ Plain s ∧ Plain t := List.forall_mem_append

theorem plain_cons_iff : Plain (c :: t) ↔ c.surrogate = false ∧ Plain t :=
  List.forall_mem_cons

theorem renderEntriesBy_isSome {φ : Type} {S : Spelling φ} : ∀ {entries : List (Text × Value φ)},
    (∀ e ∈ entries, (S.renderBy e.2).isSome = true) → (S.renderEntriesBy entries).isSome = true
  | [], _ => rfl
  | [(k, v)], h => by
    obtain ⟨t, ht⟩ := Option.isSome_iff_exists.mp (h (k, v) List.mem_cons_self)
    simp only [Spelling.renderEntriesBy, ht, Option.map_some, Option.isSome_some]
  | (k, v) :: e :: entries, h => by
    obtain ⟨t, ht⟩ := Option.isSome_iff_exists.mp (h (k, v) List.mem_cons_self)
    have hrest : (S.renderEntriesBy (e :: entries)).isSome = true :=
      renderEntriesBy_isSome fun d hd => h d (List.mem_cons_of_mem _ hd)
    obtain ⟨u, hu⟩ := Option.isSome_iff_exists.mp hrest
    simp [Spelling.renderEntriesBy, ht, hu]

theorem renderItemsBy_isSome {φ : Type} {S : Spelling φ} : ∀ {items : List (Value φ)},
    (∀ v ∈ items, (S.renderBy v).isSome = true) → (S.renderItemsBy items).isSome = true
  | [], _ => rfl
  | [v], h => h v List.mem_cons_self
  | v :: w :: items, h => by
    obtain ⟨t, ht⟩ := Option.isSome_iff_exists.mp (h v List.mem_cons_self)
    have hrest : (S.renderItemsBy (w :: items)).isSome = true :=
      renderItemsBy_isSome fun d hd => h d (List.mem_cons_of_mem _ hd)
    obtain ⟨u, hu⟩ := Option.isSome_iff_exists.mp hrest
    simp [Spelling.renderItemsBy, ht, hu]

section Spelt

variable {φ : Type} {S : Spelling φ}

mutual

theorem renderBy_isSome (hfloat : ∀ x, (S.float x).isSome = true) : (v : Value φ) → v.Tree →
    (∀ n, .inr n ∈ v.leaves → (intText n).isSome = true) → (S.renderBy v).isSome = true
  | .none, _, _ => rfl
  | .bool _, _, _ => rfl
  | .int n, _, h => h n List.mem_cons_self
  | .float x, _, _ => hfloat x
  | .str _, _, _ => rfl
  | .list items, htree, h => by
    rw [Spelling.renderBy, Option.isSome_map]
    exact renderItemsBy_isSome (renderBy_items hfloat items htree h)
  | .dict entries, htree, h => by
    rw [Spelling.renderBy, Option.isSome_map]
    exact renderEntriesBy_isSome (renderBy_entries hfloat entries htree.2 h)
  | .foreign _ _, htree, _ => htree.elim

theorem renderBy_items (hfloat : ∀ x, (S.float x).isSome = true) : (items : List (Value φ)) →
    Value.FormedItems False items → (∀ n, .inr n ∈ Value.leavesItems items → (intText n).isSome = true) →
    ∀ v ∈ items, (S.renderBy v).isSome = true
  | [], _, _ => (by rintro _ ⟨⟩)
  | v :: items, htree, h => List.forall_mem_cons.mpr
    ⟨renderBy_isSome hfloat v htree.1 fun n hn => h n (List.mem_append_left _ hn),
      renderBy_items hfloat items htree.2 fun n hn => h n (List.mem_append_right _ hn)⟩

theorem renderBy_entries (hfloat : ∀ x, (S.float x).isSome = true) : (entries : List (Text × Value φ)) →
    Value.FormedEntries False entries → (∀ n, .inr n ∈ Value.leavesEntries entries → (intText n).isSome = true) →
    ∀ e ∈ entries, (S.renderBy e.2).isSome = true
  | [], _, _ => (by rintro _ ⟨⟩)
  | (_, v) :: entries, htree, h => List.forall_mem_cons.mpr
    ⟨renderBy_isSome hfloat v htree.1 fun n hn => h n (List.mem_cons_of_mem _ (List.mem_append_left _ hn)),
      renderBy_entries hfloat entries htree.2 fun n hn => h n (List.mem_cons_of_mem _ (List.mem_append_right _ hn))⟩

end

/-- What is written has a surrogate exactly where a key or a string has one. -/
structure Spelling.Faithful (S : Spelling φ) : Prop where
  string : ∀ s, Plain (S.string s) ↔ Plain s
  float : ∀ x t, S.float x = some t → Plain t

theorem quoted_plain (hS : S.Faithful) (s : Text) : Plain (S.quoted s) ↔ Plain s := by
  have hquote : (ch '"').surrogate = false := by decide
  have hlast : Plain [ch '"'] := plain_of_ascii rfl
  rw [Spelling.quoted, List.cons_append, plain_cons_iff, plain_append_iff, hS.string]
  exact ⟨fun h => h.2.1, fun h => ⟨hquote, h, hlast⟩⟩

theorem surrounded_plain {a b : CodePoint} (ha : a.surrogate = false) (hb : b.surrogate = false) {t : Text} :
    Plain (a :: t ++ [b]) ↔ Plain t := by
  have hlast : Plain [b] := plain_cons_iff.mpr ⟨hb, fun c hc => (by cases hc)⟩
  rw [List.cons_append, plain_cons_iff, plain_append_iff]
  exact ⟨fun h => h.2.1, fun h => ⟨ha, h, hlast⟩⟩

theorem encodable_append {xs ys : List (Text ⊕ Int)} : (∀ s, .inl s ∈ xs ++ ys → Plain s) ↔
    (∀ s, .inl s ∈ xs → Plain s) ∧ ∀ s, .inl s ∈ ys → Plain s := by
  constructor
  · exact fun h => ⟨fun s hs => h s (List.mem_append_left _ hs), fun s hs => h s (List.mem_append_right _ hs)⟩
  · rintro ⟨hx, hy⟩ s hs
    exact (List.mem_append.mp hs).elim (hx s) (hy s)

theorem encodable_cons {k : Text} {xs : List (Text ⊕ Int)} :
    (∀ s, .inl s ∈ (.inl k :: xs : List (Text ⊕ Int)) → Plain s) ↔
    Plain k ∧ ∀ s, .inl s ∈ xs → Plain s := by
  constructor
  · exact fun h => ⟨h k List.mem_cons_self, fun s hs => h s (List.mem_cons_of_mem _ hs)⟩
  · rintro ⟨hk, hx⟩ s hs
    rcases List.mem_cons.mp hs with heq | hs
    · cases heq
      exact hk
    · exact hx s hs

mutual

theorem renderBy_plain (hS : S.Faithful) : (v : Value φ) → v.Tree → ∀ {t : Text}, S.renderBy v = some t →
    (Plain t ↔ v.Encodable)
  | .none, _, t, ht => by
    cases ht
    exact iff_of_true (plain_of_ascii rfl) fun s hs => (by cases hs)
  | .bool b, _, t, ht => by
    cases ht
    exact iff_of_true (by cases b <;> exact plain_of_ascii rfl) fun s hs => (by cases hs)
  | .int n, _, t, ht => iff_of_true (intText_plain ht) fun s hs => (by cases List.mem_singleton.mp hs)
  | .float x, _, t, ht => iff_of_true (hS.float x t ht) fun s hs => (by cases hs)
  | .str u, _, t, ht => by
    cases ht
    rw [quoted_plain hS]
    refine ⟨fun h s hs => ?_, fun h => h u List.mem_cons_self⟩
    cases List.mem_singleton.mp hs
    exact h
  | .list items, htree, t, ht => by
    obtain ⟨u, hu, rfl⟩ := Option.map_eq_some_iff.mp ht
    exact (surrounded_plain (by decide) (by decide)).trans (renderItemsBy_plain hS items htree hu)
  | .dict entries, htree, t, ht => by
    obtain ⟨u, hu, rfl⟩ := Option.map_eq_some_iff.mp ht
    exact (surrounded_plain (by decide) (by decide)).trans (renderEntriesBy_plain hS entries htree.2 hu)
  | .foreign _ _, htree, _, _ => htree.elim

theorem renderItemsBy_plain (hS : S.Faithful) : (items : List (Value φ)) → Value.FormedItems False items →
    ∀ {t : Text}, S.renderItemsBy items = some t → (Plain t ↔ ∀ s, .inl s ∈ Value.leavesItems items → Plain s)
  | [], _, t, ht => by
    cases ht
    exact iff_of_true (fun c hc => (by cases hc)) fun s hs => (by cases hs)
  | [v], htree, t, ht => by
    rw [Value.leavesItems, Value.leavesItems, List.append_nil]
    exact renderBy_plain hS v htree.1 ht
  | v :: w :: items, htree, t, ht => by
    simp only [Spelling.renderItemsBy, bind, Option.bind_eq_some_iff, pure, Option.some.injEq] at ht
    obtain ⟨head, hhead, rest, hrest, rfl⟩ := ht
    have hcomma : (ch ',').surrogate = false := by decide
    rw [Value.leavesItems, encodable_append, plain_append_iff, plain_cons_iff, renderBy_plain hS v htree.1 hhead,
      renderItemsBy_plain hS (w :: items) htree.2 hrest]
    exact and_congr_right fun _ => ⟨fun h => h.2, fun h => ⟨hcomma, h⟩⟩

theorem renderEntriesBy_plain (hS : S.Faithful) : (entries : List (Text × Value φ)) →
    Value.FormedEntries False entries → ∀ {t : Text}, S.renderEntriesBy entries = some t →
    (Plain t ↔ ∀ s, .inl s ∈ Value.leavesEntries entries → Plain s)
  | [], _, t, ht => by
    cases ht
    exact iff_of_true (fun c hc => (by cases hc)) fun s hs => (by cases hs)
  | [(k, v)], htree, t, ht => by
    obtain ⟨u, hu, rfl⟩ := Option.map_eq_some_iff.mp ht
    have hcolon : (ch ':').surrogate = false := by decide
    rw [Value.leavesEntries, Value.leavesEntries, List.append_nil, encodable_cons, plain_append_iff, quoted_plain hS,
      plain_cons_iff, renderBy_plain hS v htree.1 hu]
    exact and_congr_right fun _ => ⟨fun h => h.2, fun h => ⟨hcolon, h⟩⟩
  | (k, v) :: e :: entries, htree, t, ht => by
    simp only [Spelling.renderEntriesBy, bind, Option.bind_eq_some_iff, pure, Option.some.injEq] at ht
    obtain ⟨head, hhead, rest, hrest, rfl⟩ := ht
    have hcolon : (ch ':').surrogate = false := by decide
    have hcomma : (ch ',').surrogate = false := by decide
    rw [Value.leavesEntries, List.cons_append, encodable_cons, encodable_append, plain_append_iff, plain_append_iff,
      quoted_plain hS, plain_cons_iff, plain_cons_iff, renderBy_plain hS v htree.1 hhead,
      renderEntriesBy_plain hS (e :: entries) htree.2 hrest]
    tauto

end

end Spelt

section Written

variable {φ : Type} {S : Spelling φ}

mutual

theorem ints_of_renderBy : (v : Value φ) → v.Tree → (S.renderBy v).isSome = true →
    ∀ n, .inr n ∈ v.leaves → (intText n).isSome = true
  | .none, _, _, _, hn => (by cases hn)
  | .bool _, _, _, _, hn => (by cases hn)
  | .int m, _, h, n, hn => by
    cases List.mem_singleton.mp hn
    exact h
  | .float _, _, _, _, hn => (by cases hn)
  | .str _, _, _, n, hn => (by cases List.mem_singleton.mp hn)
  | .list items, htree, h, n, hn => ints_of_renderItemsBy items htree (Option.isSome_map ▸ h) n hn
  | .dict entries, htree, h, n, hn => ints_of_renderEntriesBy entries htree.2 (Option.isSome_map ▸ h) n hn
  | .foreign _ _, htree, _, _, _ => htree.elim

theorem ints_of_renderItemsBy : (items : List (Value φ)) → Value.FormedItems False items →
    (S.renderItemsBy items).isSome = true → ∀ n, .inr n ∈ Value.leavesItems items → (intText n).isSome = true
  | [], _, _, _, hn => (by cases hn)
  | [v], htree, h, n, hn => by
    rw [Value.leavesItems, Value.leavesItems, List.append_nil] at hn
    exact ints_of_renderBy v htree.1 h n hn
  | v :: w :: items, htree, h, n, hn => by
    obtain ⟨t, ht⟩ := Option.isSome_iff_exists.mp h
    simp only [Spelling.renderItemsBy, bind, Option.bind_eq_some_iff] at ht
    obtain ⟨head, hhead, rest, hrest, -⟩ := ht
    rw [Value.leavesItems] at hn
    rcases List.mem_append.mp hn with hn | hn
    · exact ints_of_renderBy v htree.1 (Option.isSome_of_mem hhead) n hn
    · exact ints_of_renderItemsBy (w :: items) htree.2 (Option.isSome_of_mem hrest) n hn

theorem ints_of_renderEntriesBy : (entries : List (Text × Value φ)) → Value.FormedEntries False entries →
    (S.renderEntriesBy entries).isSome = true → ∀ n, .inr n ∈ Value.leavesEntries entries → (intText n).isSome = true
  | [], _, _, _, hn => (by cases hn)
  | [(k, v)], htree, h, n, hn => by
    rw [Value.leavesEntries, Value.leavesEntries, List.append_nil] at hn
    rcases List.mem_cons.mp hn with hkey | hn
    · cases hkey
    · exact ints_of_renderBy v htree.1 (Option.isSome_map ▸ h) n hn
  | (k, v) :: e :: entries, htree, h, n, hn => by
    obtain ⟨t, ht⟩ := Option.isSome_iff_exists.mp h
    simp only [Spelling.renderEntriesBy, bind, Option.bind_eq_some_iff] at ht
    obtain ⟨head, hhead, rest, hrest, -⟩ := ht
    rw [Value.leavesEntries, List.cons_append] at hn
    rcases List.mem_cons.mp hn with hkey | hn
    · cases hkey
    rcases List.mem_append.mp hn with hn | hn
    · exact ints_of_renderBy v htree.1 (Option.isSome_of_mem hhead) n hn
    · exact ints_of_renderEntriesBy (e :: entries) htree.2 (Option.isSome_of_mem hrest) n hn

end

end Written

/-! ## Values that cannot be written -/

namespace Value

section Mute

variable {φ : Type}

mutual

/-- The keys of an object are distinct; a foreign value cannot be written. -/
def Mute : Value φ → Prop
  | .list items => MuteItems items
  | .dict entries => (entries.map Prod.fst).Nodup ∧ MuteEntries entries
  | .foreign _ written => written = Option.none
  | _ => True

def MuteItems : List (Value φ) → Prop
  | [] => True
  | v :: items => v.Mute ∧ MuteItems items

def MuteEntries : List (Text × Value φ) → Prop
  | [] => True
  | (_, v) :: entries => v.Mute ∧ MuteEntries entries

end

theorem muteEntries_iff {entries : List (Text × Value φ)} : MuteEntries entries ↔ ∀ e ∈ entries, e.2.Mute := by
  induction entries with
  | nil => simp [MuteEntries]
  | cons e entries ih =>
    obtain ⟨k, v⟩ := e
    simp only [MuteEntries, ih, List.mem_cons, forall_eq_or_imp]

mutual

theorem mute_sorted : (v : Value φ) → (v.sorted.Mute ↔ v.Mute)
  | .none => Iff.rfl
  | .bool _ => Iff.rfl
  | .int _ => Iff.rfl
  | .float _ => Iff.rfl
  | .str _ => Iff.rfl
  | .list items => muteItems_sorted items
  | .dict entries => by
    have hperm := List.perm_insertionSort keyLe (sortedEntries entries)
    refine and_congr ?_ ?_
    · rw [(hperm.map Prod.fst).nodup_iff, sortedEntries_keys]
    · rw [← muteEntries_sorted entries, muteEntries_iff, muteEntries_iff]
      exact forall_congr' fun e => imp_congr_left hperm.mem_iff
  | .foreign _ _ => Iff.rfl

theorem muteItems_sorted : (items : List (Value φ)) → (MuteItems (sortedItems items) ↔ MuteItems items)
  | [] => Iff.rfl
  | v :: items => and_congr (mute_sorted v) (muteItems_sorted items)

theorem muteEntries_sorted : (entries : List (Text × Value φ)) →
    (MuteEntries (sortedEntries entries) ↔ MuteEntries entries)
  | [] => Iff.rfl
  | (_, v) :: entries => and_congr (mute_sorted v) (muteEntries_sorted entries)

end

theorem Mute.of_same {v w : Value φ} (h : v.Same w) (hw : w.Mute) : v.Mute := by
  rw [← mute_sorted, h, mute_sorted]
  exact hw

variable {S : Spelling φ}

mutual

theorem Mute.tree : {v : Value φ} → v.Mute → ∀ {t : Text}, S.renderBy v = some t → v.Tree
  | .none, _, _, _ => trivial
  | .bool _, _, _, _ => trivial
  | .int _, _, _, _ => trivial
  | .float _, _, _, _ => trivial
  | .str _, _, _, _ => trivial
  | .list items, h, t, ht => by
    obtain ⟨body, hbody, -⟩ := Option.map_eq_some_iff.mp ht
    exact muteItems_tree h (Option.isSome_of_mem hbody)
  | .dict entries, h, t, ht => by
    obtain ⟨body, hbody, -⟩ := Option.map_eq_some_iff.mp ht
    exact ⟨h.1, muteEntries_tree h.2 (Option.isSome_of_mem hbody)⟩
  | .foreign _ _, h, _, ht => (by cases ht.symm.trans h)

theorem muteItems_tree : {items : List (Value φ)} → MuteItems items → (S.renderItemsBy items).isSome = true →
    FormedItems False items
  | [], _, _ => trivial
  | [_], h, hitems => by
    obtain ⟨t, ht⟩ := Option.isSome_iff_exists.mp hitems
    exact ⟨Mute.tree h.1 ht, trivial⟩
  | v :: w :: items, h, hitems => by
    obtain ⟨t, ht⟩ := Option.isSome_iff_exists.mp hitems
    simp only [Spelling.renderItemsBy, bind, Option.bind_eq_some_iff] at ht
    obtain ⟨s, hs, u, hu, -⟩ := ht
    exact ⟨Mute.tree h.1 hs, muteItems_tree h.2 (Option.isSome_of_mem hu)⟩

theorem muteEntries_tree : {entries : List (Text × Value φ)} → MuteEntries entries →
    (S.renderEntriesBy entries).isSome = true → FormedEntries False entries
  | [], _, _ => trivial
  | [(k, v)], h, hentries => by
    obtain ⟨t, ht⟩ := Option.isSome_iff_exists.mp hentries
    obtain ⟨s, hs, -⟩ := Option.map_eq_some_iff.mp ht
    exact ⟨Mute.tree h.1 hs, trivial⟩
  | (k, v) :: e :: entries, h, hentries => by
    obtain ⟨t, ht⟩ := Option.isSome_iff_exists.mp hentries
    simp only [Spelling.renderEntriesBy, bind, Option.bind_eq_some_iff] at ht
    obtain ⟨s, hs, u, hu, -⟩ := ht
    exact ⟨Mute.tree h.1 hs, muteEntries_tree h.2 (Option.isSome_of_mem hu)⟩

end

end Mute

end Value

section Wide

variable (F : JsonFloats)

/-- The spelling of a writer that keeps characters above ASCII, with `allow_nan`. -/
def wide : Spelling F.Val where
  string s := s.flatMap escaped
  float x := some (if F.isFinite x then F.repr x else F.word x)

/-- `json.dumps` with `ensure_ascii=False`, `separators=(",", ":")` and `sort_keys=True`. -/
def wideText (v : Value F.Val) : Option Text := (wide F).renderBy v.sorted

variable {F}

theorem wide_legible : Spelling.Legible (F := F.toFloatFormat) (wide F) (fun _ => True) fun _ => True where
  string := (plain_legible F.toFloatFormat).string
  begins := (ascii_legible F).begins
  float := (ascii_legible F).float

theorem escaped_plain (c : CodePoint) : Plain (escaped c) ↔ c.surrogate = false := by
  unfold escaped
  repeat' split
  all_goals try (next h => subst h; exact iff_of_true (plain_of_ascii rfl) (by decide))
  · next h =>
    have hdigit : ∀ n < 16, (hexDigit n).surrogate = false := by decide
    have hlow : c.surrogate = false := by
      simp only [CodePoint.surrogate, decide_eq_false_iff_not]
      omega
    refine iff_of_true (Plain.append (plain_of_ascii rfl) ?_) hlow
    exact plain_cons_iff.mpr ⟨hdigit _ (by omega), plain_cons_iff.mpr ⟨hdigit _ (by omega), fun c hc => (by cases hc)⟩⟩
  · exact plain_cons_iff.trans ⟨fun h => h.1, fun h => ⟨h, fun c hc => (by cases hc)⟩⟩

theorem wide_faithful : (wide F).Faithful where
  string s := by
    have hall : Plain (s.flatMap escaped) ↔ ∀ c ∈ s, Plain (escaped c) := by
      constructor
      · exact fun h c hc d hd => h d (List.mem_flatMap.mpr ⟨c, hc, hd⟩)
      · intro h d hd
        obtain ⟨c, hc, hd⟩ := List.mem_flatMap.mp hd
        exact h c hc d hd
    exact hall.trans (forall₂_congr fun c _ => escaped_plain c)
  float x t ht := by
    obtain rfl := Option.some.inj ht
    split
    · next hx =>
      obtain ⟨m, hm, -, hrepr⟩ := F.repr_literal x hx
      exact hrepr ▸ hm.plain
    · next hx =>
      rcases F.word_cases x (by simpa using hx) with ⟨-, hw⟩ | ⟨-, hw⟩ | ⟨-, hw⟩ <;> rw [hw] <;>
        exact plain_of_ascii rfl

variable {v w : Value F.Val}

theorem wideText_isSome (h : v.Sized) : (wideText F v).isSome = true :=
  renderBy_isSome (fun _ => rfl) v.sorted (Value.formed_sorted h.tree) fun n hn => h.ints n (v.leaves_sorted.mp hn)

theorem Value.Sized.of_wideText (h : v.Tree) {t : Text} (ht : wideText F v = some t) : v.Sized where
  tree := h
  ints n hn := ints_of_renderBy v.sorted (Value.formed_sorted h) (Option.isSome_of_mem ht) n (v.leaves_sorted.mpr hn)

/-- **A value that can be written can be encoded** exactly when it is encodable. -/
theorem encode_wideText_isSome (h : v.Sized) :
    ((wideText F v).bind utf8Encode).isSome = true ↔ v.Encodable := by
  obtain ⟨t, ht⟩ := Option.isSome_iff_exists.mp (wideText_isSome h)
  rw [ht, Option.bind_some, utf8Encode_isSome, renderBy_plain wide_faithful v.sorted (Value.formed_sorted h.tree) ht]
  exact forall_congr' fun s => imp_congr_left v.leaves_sorted

/-- **A value is written and encoded** exactly when it is writable. -/
theorem encode_wideText_iff (h : v.Tree) :
    ((wideText F v).bind utf8Encode).isSome = true ↔ v.Writable := by
  refine ⟨fun hsome => ?_, fun hw => (encode_wideText_isSome hw.sized).mpr hw.encodable⟩
  obtain ⟨bytes, hbytes⟩ := Option.isSome_iff_exists.mp hsome
  obtain ⟨t, ht, -⟩ := Option.bind_eq_some_iff.mp hbytes
  have hsized := Value.Sized.of_wideText h ht
  exact ⟨hsized, (encode_wideText_isSome hsized).mp hsome⟩

theorem loadsText_wideText {ε : Type} {hook : List (Text × Value F.Val) → Except ε (Value F.Val)}
    (hhook : ∀ pairs, (pairs.map Prod.fst).Nodup → hook pairs = .ok (.dict pairs)) (hv : v.Tree) {s : Text}
    (hs : wideText F v = some s) : loadsText F.toFloatFormat hook s = .ok v.sorted :=
  loadsText_renderBy wide_legible hhook (Value.Tree.read (Value.formed_sorted hv)) hs

/-- **The canonical text determines the value**, but for the order of entries. -/
theorem wideText_injective (hv : v.Tree) (hw : w.Tree) {s : Text} (hs : wideText F v = some s)
    (hs' : wideText F w = some s) : v.Same w := by
  have hhook : ∀ pairs : List (Text × Value F.Val), (pairs.map Prod.fst).Nodup →
      (Except.ok (.dict pairs) : Except Empty (Value F.Val)) = .ok (.dict pairs) := fun _ _ => rfl
  have h := loadsText_wideText hhook hv hs
  have h' := loadsText_wideText hhook hw hs'
  exact Except.ok.inj (h.symm.trans h')

theorem wideText_same (h : v.Same w) : wideText F v = wideText F w := by
  rw [wideText, wideText, h]

end Wide

end AgentFabric.Lib
