import AgentFabric.Lib.Text
import Mathlib.Data.Nat.Digits.Lemmas
import Mathlib.Data.List.Lex
import Mathlib.Data.List.Sort

/-!
# JSON values and their canonical text

The values of a dynamically typed language that its JSON writer meets, and the canonical text of one: no blanks, the
entries of an object in the order of their keys, characters above ASCII as they are.
-/

namespace AgentFabric.Lib

/-- A number as JSON writes it: a sign, digits, a fraction, an exponent. -/
structure NumberText where
  sign : Text
  int : Text
  frac : Text
  exp : Text

def NumberText.text (n : NumberText) : Text := n.sign ++ n.int ++ n.frac ++ n.exp

def NumberText.isFloat (n : NumberText) : Bool := !n.frac.isEmpty || !n.exp.isEmpty

def isDigit (c : CodePoint) : Bool := decide (0x30 ≤ c.val ∧ c.val ≤ 0x39)

/-- A non-empty run of digits. -/
def Digits (t : Text) : Prop := t ≠ [] ∧ ∀ c ∈ t, isDigit c = true

structure NumberText.Valid (n : NumberText) : Prop where
  sign : n.sign = [] ∨ n.sign = lit "-"
  int : n.int = lit "0" ∨ (Digits n.int ∧ n.int.head? ≠ some (ch '0'))
  frac : n.frac = [] ∨ ∃ ds, n.frac = ch '.' :: ds ∧ Digits ds
  exp : n.exp = [] ∨ ∃ e s ds, n.exp = e :: s ++ ds ∧ (e = ch 'e' ∨ e = ch 'E') ∧
    (s = [] ∨ s = lit "+" ∨ s = lit "-") ∧ Digits ds

/-- Floating-point numbers: what the writer and the reader of JSON use of them, and that reading the text of a finite
number gives the number back. -/
structure FloatFormat where
  Val : Type
  isFinite : Val → Bool
  repr : Val → Text
  /-- The number that a text with a fraction or an exponent stands for. -/
  parse : Text → Val
  nan : Val
  infinity : Val
  negInfinity : Val
  repr_literal : ∀ x, isFinite x = true → ∃ n : NumberText, n.Valid ∧ n.isFloat = true ∧ n.text = repr x
  parse_repr : ∀ x, isFinite x = true → parse (repr x) = x

/-- The values that the writer meets. A `foreign` value is of another type, or an object with a key that is no text;
`written` is what the writer makes of it, as for a tuple, and `none` when it raises. -/
inductive Value (φ : Type) where
  | none
  | bool (b : Bool)
  | int (n : Int)
  | float (x : φ)
  | str (s : Text)
  | list (items : List (Value φ))
  | dict (entries : List (Text × Value φ))
  | foreign (type : Text) (written : Option Text)

namespace Value

variable {φ : Type}

mutual

/-- The keys of an object are distinct; a foreign value occurs only if `foreign`. -/
def Formed (foreign : Prop) : Value φ → Prop
  | .list items => FormedItems foreign items
  | .dict entries => (entries.map Prod.fst).Nodup ∧ FormedEntries foreign entries
  | .foreign _ _ => foreign
  | _ => True

def FormedItems (foreign : Prop) : List (Value φ) → Prop
  | [] => True
  | v :: items => v.Formed foreign ∧ FormedItems foreign items

def FormedEntries (foreign : Prop) : List (Text × Value φ) → Prop
  | [] => True
  | (_, v) :: entries => v.Formed foreign ∧ FormedEntries foreign entries

end

/-- Every object has distinct keys, as in the language. -/
abbrev Distinct : Value φ → Prop := Formed True

/-- A value of JSON. -/
abbrev Tree : Value φ → Prop := Formed False

/-- The order of the entries of an object: by their keys, which are compared by their code points. -/
def keyLe (a b : Text × Value φ) : Prop := a.1 ≤ b.1

instance : DecidableRel (keyLe (φ := φ)) := fun a b => inferInstanceAs (Decidable (a.1 ≤ b.1))

instance : Std.Total (keyLe (φ := φ)) := ⟨fun a b => le_total a.1 b.1⟩

instance : IsTrans (Text × Value φ) keyLe := ⟨fun _ _ _ h h' => le_trans h h'⟩

mutual

/-- The entries of every object in the order of their keys. -/
def sorted : Value φ → Value φ
  | .list items => .list (sortedItems items)
  | .dict entries => .dict ((sortedEntries entries).insertionSort keyLe)
  | v => v

def sortedItems : List (Value φ) → List (Value φ)
  | [] => []
  | v :: items => v.sorted :: sortedItems items

def sortedEntries : List (Text × Value φ) → List (Text × Value φ)
  | [] => []
  | (k, v) :: entries => (k, v.sorted) :: sortedEntries entries

end

variable {entries : List (Text × Value φ)}

theorem formedEntries_iff {foreign : Prop} :
    FormedEntries foreign entries ↔ ∀ e ∈ entries, e.2.Formed foreign := by
  induction entries with
  | nil => simp [FormedEntries]
  | cons e entries ih =>
    obtain ⟨k, v⟩ := e
    simp only [FormedEntries, ih, List.mem_cons, forall_eq_or_imp]

theorem sortedEntries_eq_map (entries : List (Text × Value φ)) :
    sortedEntries entries = entries.map fun e => (e.1, e.2.sorted) := by
  induction entries with
  | nil => rfl
  | cons e entries ih =>
    obtain ⟨k, v⟩ := e
    simp only [sortedEntries, ih, List.map_cons]

theorem sortedEntries_keys (entries : List (Text × Value φ)) :
    (sortedEntries entries).map Prod.fst = entries.map Prod.fst := by
  simp only [sortedEntries_eq_map, List.map_map, Function.comp_def]

section Formed

variable {foreign : Prop}

mutual

theorem formed_sorted : {v : Value φ} → v.Formed foreign → v.sorted.Formed foreign
  | .none, _ => trivial
  | .bool _, _ => trivial
  | .int _, _ => trivial
  | .float _, _ => trivial
  | .str _, _ => trivial
  | .list items, h => formedItems_sorted h
  | .dict entries, h => by
    have hperm := List.perm_insertionSort keyLe (sortedEntries entries)
    refine ⟨?_, formedEntries_iff.mpr fun e he =>
      formedEntries_iff.mp (formedEntries_sorted h.2) e (hperm.mem_iff.mp he)⟩
    rw [(hperm.map Prod.fst).nodup_iff, sortedEntries_keys]
    exact h.1
  | .foreign _ _, h => h

theorem formedItems_sorted : {items : List (Value φ)} → FormedItems foreign items →
    FormedItems foreign (sortedItems items)
  | [], _ => trivial
  | _ :: _, h => ⟨formed_sorted h.1, formedItems_sorted h.2⟩

theorem formedEntries_sorted : {entries : List (Text × Value φ)} → FormedEntries foreign entries →
    FormedEntries foreign (sortedEntries entries)
  | [], _ => trivial
  | (_, _) :: _, h => ⟨formed_sorted h.1, formedEntries_sorted h.2⟩

end

end Formed

theorem sortedEntries_sort (h : sortedEntries entries = entries) :
    sortedEntries (entries.insertionSort keyLe) = entries.insertionSort keyLe := by
  rw [sortedEntries_eq_map] at h ⊢
  have hid : entries.map (fun e => (e.1, e.2.sorted)) = entries.map id := h.trans (List.map_id entries).symm
  have hall := List.map_inj_left.mp hid
  calc (entries.insertionSort keyLe).map (fun e => (e.1, e.2.sorted))
      = (entries.insertionSort keyLe).map id :=
        List.map_congr_left fun e he => hall e ((List.perm_insertionSort keyLe entries).mem_iff.mp he)
    _ = entries.insertionSort keyLe := List.map_id _

mutual

theorem sorted_sorted : (v : Value φ) → v.sorted.sorted = v.sorted
  | .none => rfl
  | .bool _ => rfl
  | .int _ => rfl
  | .float _ => rfl
  | .str _ => rfl
  | .list items => congrArg Value.list (sortedItems_sorted items)
  | .dict entries => by
    simp only [sorted, sortedEntries_sort (sortedEntries_sorted entries)]
    rw [(List.pairwise_insertionSort keyLe _).insertionSort_eq]
  | .foreign _ _ => rfl

theorem sortedItems_sorted : (items : List (Value φ)) → sortedItems (sortedItems items) = sortedItems items
  | [] => rfl
  | v :: items => by simp only [sortedItems, sorted_sorted v, sortedItems_sorted items]

theorem sortedEntries_sorted : (entries : List (Text × Value φ)) →
    sortedEntries (sortedEntries entries) = sortedEntries entries
  | [] => rfl
  | (k, v) :: entries => by simp only [sortedEntries, sorted_sorted v, sortedEntries_sorted entries]

end

/-- A value of JSON whose strings satisfy `P` and whose floating-point numbers satisfy `Q`. -/
inductive Read (P : Text → Prop) (Q : φ → Prop) : Value φ → Prop where
  | none : Read P Q .none
  | bool (b : Bool) : Read P Q (.bool b)
  | int (n : Int) : Read P Q (.int n)
  | float {x : φ} (hx : Q x) : Read P Q (.float x)
  | str {s : Text} (hs : P s) : Read P Q (.str s)
  | list {items : List (Value φ)} (h : ∀ v ∈ items, Read P Q v) : Read P Q (.list items)
  | dict {entries : List (Text × Value φ)} (hkeys : (entries.map Prod.fst).Nodup) (hstr : ∀ e ∈ entries, P e.1)
    (h : ∀ e ∈ entries, Read P Q e.2) : Read P Q (.dict entries)

theorem sortedItems_eq_map (items : List (Value φ)) : sortedItems items = items.map sorted := by
  induction items with
  | nil => rfl
  | cons v items ih => simp only [sortedItems, ih, List.map_cons]

theorem Read.sorted {P : Text → Prop} {Q : φ → Prop} {v : Value φ} (h : v.Read P Q) : v.sorted.Read P Q := by
  induction h with
  | none => exact .none
  | bool b => exact .bool b
  | int n => exact .int n
  | float hx => exact .float hx
  | str hs => exact .str hs
  | list h ih =>
    refine .list fun w hw => ?_
    rw [sortedItems_eq_map] at hw
    obtain ⟨v, hv, rfl⟩ := List.mem_map.mp hw
    exact ih v hv
  | @dict entries hkeys hstr h ih =>
    have hperm := List.perm_insertionSort keyLe (sortedEntries entries)
    have hmem : ∀ e ∈ (sortedEntries entries).insertionSort keyLe, ∃ d ∈ entries, (d.1, d.2.sorted) = e := by
      intro e he
      rw [hperm.mem_iff, sortedEntries_eq_map] at he
      exact List.mem_map.mp he
    refine .dict ?_ (fun e he => ?_) fun e he => ?_
    · rw [(hperm.map Prod.fst).nodup_iff, sortedEntries_keys]
      exact hkeys
    · obtain ⟨d, hd, rfl⟩ := hmem e he
      exact hstr d hd
    · obtain ⟨d, hd, rfl⟩ := hmem e he
      exact ih d hd

mutual

theorem Tree.read : {v : Value φ} → v.Tree → v.Read (fun _ => True) fun _ => True
  | .none, _ => .none
  | .bool b, _ => .bool b
  | .int n, _ => .int n
  | .float _, _ => .float trivial
  | .str _, _ => .str trivial
  | .list _, h => .list (treeItems_read h)
  | .dict _, h => .dict h.1 (fun _ _ => trivial) (treeEntries_read h.2)
  | .foreign _ _, h => h.elim

theorem treeItems_read : {items : List (Value φ)} → FormedItems False items →
    ∀ v ∈ items, v.Read (fun _ => True) fun _ => True
  | [], _, _, hv => nomatch hv
  | _ :: _, h, _, .head _ => Tree.read h.1
  | _ :: _, h, _, .tail _ hv => treeItems_read h.2 _ hv

theorem treeEntries_read : {entries : List (Text × Value φ)} → FormedEntries False entries →
    ∀ e ∈ entries, e.2.Read (fun _ => True) fun _ => True
  | [], _, _, he => nomatch he
  | _ :: _, h, _, .head _ => Tree.read h.1
  | _ :: _, h, _, .tail _ he => treeEntries_read h.2 _ he

end

/-- The same value, as the language compares objects: the order of their entries does not count. -/
def Same (v w : Value φ) : Prop := v.sorted = w.sorted

theorem Same.sorted (v : Value φ) : Same v.sorted v := sorted_sorted v

theorem lookup_eq_some_iff (h : (entries.map Prod.fst).Nodup) {k : Text} {v : Value φ} :
    entries.lookup k = some v ↔ (k, v) ∈ entries := by
  induction entries with
  | nil => simp
  | cons e entries ih =>
    obtain ⟨k', v'⟩ := e
    rw [List.map_cons, List.nodup_cons] at h
    by_cases hk : k = k'
    · subst hk
      have hnot : (k, v) ∉ entries := fun hm => h.1 (List.mem_map.mpr ⟨(k, v), hm, rfl⟩)
      simp [hnot, eq_comm]
    · simp [List.lookup_cons, beq_false_of_ne hk, ih h.2, hk]

theorem lookup_sorted (h : (entries.map Prod.fst).Nodup) (k : Text) :
    ((sortedEntries entries).insertionSort keyLe).lookup k = (entries.lookup k).map sorted := by
  have hperm := List.perm_insertionSort keyLe (sortedEntries entries)
  have hnodup : (((sortedEntries entries).insertionSort keyLe).map Prod.fst).Nodup := by
    rw [(hperm.map Prod.fst).nodup_iff, sortedEntries_keys]
    exact h
  ext v
  rw [lookup_eq_some_iff hnodup, hperm.mem_iff, sortedEntries_eq_map, Option.map_eq_some_iff]
  simp only [List.mem_map, Prod.mk.injEq, Prod.exists, lookup_eq_some_iff h]
  constructor
  · rintro ⟨k', w, hw, rfl, rfl⟩
    exact ⟨w, hw, rfl⟩
  · rintro ⟨w, hw, rfl⟩
    exact ⟨k, w, hw, rfl, rfl⟩

end Value

/-- A value that the language can hold. -/
structure Datum (φ : Type) where
  value : Value φ
  distinct : value.Distinct

namespace Datum

variable {φ : Type}

def none : Datum φ := ⟨.none, trivial⟩

def str (s : Text) : Datum φ := ⟨.str s, trivial⟩

/-- An object of given entries. -/
def dict (entries : List (Text × Datum φ)) (h : (entries.map Prod.fst).Nodup) : Datum φ where
  value := .dict (entries.map fun e => (e.1, e.2.value))
  distinct := by
    constructor
    · rw [List.map_map]
      exact h
    · refine Value.formedEntries_iff.mpr fun e he => ?_
      obtain ⟨d, -, rfl⟩ := List.mem_map.mp he
      exact d.2.distinct

/-- The keys of an object. -/
def keys? (d : Datum φ) : Option (List Text) :=
  match d.value with
  | .dict entries => some (entries.map Prod.fst)
  | _ => Option.none

/-- What a key of an object stands for; the reader has checked that the object has the key. -/
def get (d : Datum φ) (key : Text) : Datum φ :=
  match d with
  | ⟨.dict entries, h⟩ =>
    match hlookup : entries.lookup key with
    | some v => ⟨v, Value.formedEntries_iff.mp h.2 _ ((Value.lookup_eq_some_iff h.1).mp hlookup)⟩
    | Option.none => none
  | _ => none

def sorted (d : Datum φ) : Datum φ := ⟨d.value.sorted, Value.formed_sorted d.distinct⟩

theorem ext_value {d d' : Datum φ} (h : d.value = d'.value) : d = d' := by
  cases d
  cases d'
  cases h
  rfl

theorem get_value {d : Datum φ} {entries : List (Text × Value φ)} (h : d.value = .dict entries) (key : Text) :
    (d.get key).value = (entries.lookup key).getD .none := by
  obtain ⟨v, hv⟩ := d
  cases h
  unfold get
  dsimp only
  split
  · next v hv => simp [hv]
  · next hv => simp [hv, none]

theorem get_sorted (d : Datum φ) (key : Text) : d.sorted.get key = (d.get key).sorted := by
  obtain ⟨v, h⟩ := d
  apply ext_value
  cases v with
  | dict entries =>
    show _ = Value.sorted _
    rw [get_value (d := sorted _) rfl, get_value rfl, Value.lookup_sorted h.1]
    cases entries.lookup key <;> rfl
  | _ => rfl

theorem keys?_sorted (d : Datum φ) (p : List Text → Bool) (hp : ∀ ks ks', ks.Perm ks' → p ks = p ks') :
    (d.sorted.keys?.map p) = d.keys?.map p := by
  obtain ⟨v, h⟩ := d
  cases v with
  | dict entries =>
    have hperm := (List.perm_insertionSort Value.keyLe (Value.sortedEntries entries)).map Prod.fst
    rw [Value.sortedEntries_keys] at hperm
    exact congrArg some (hp _ _ hperm)
  | _ => rfl

end Datum

/-! ## The writer -/

/-- Integers of more digits are not converted. -/
def maxStrDigits : Nat := 4300

/-- The decimal digits of a number. -/
def natText (n : Nat) : Text :=
  if n = 0 then lit "0" else (Nat.digits 10 n).reverse.map fun d => codePoint (0x30 + d)

/-- `int.__repr__`. -/
def intText (n : Int) : Option Text :=
  let digits := natText n.natAbs
  if digits.length ≤ maxStrDigits then some (if n < 0 then ch '-' :: digits else digits) else none

def hexDigit (n : Nat) : CodePoint := codePoint (if n < 10 then 0x30 + n else 0x57 + n)

/-- A character inside a string literal. -/
def escaped (c : CodePoint) : Text :=
  if c = ch '"' then lit "\\\""
  else if c = ch '\\' then lit "\\\\"
  else if c = ch '\n' then lit "\\n"
  else if c = ch '\r' then lit "\\r"
  else if c = ch '\t' then lit "\\t"
  else if c = codePoint 12 then lit "\\f"
  else if c = codePoint 8 then lit "\\b"
  else if c.val < 0x20 then lit "\\u00" ++ [hexDigit (c.val / 16), hexDigit (c.val % 16)]
  else [c]

def strText (s : Text) : Text := ch '"' :: s.flatMap escaped ++ [ch '"']

section Writer

variable (F : FloatFormat)

mutual

/-- The text of a value, its entries in the order they have. -/
def render : Value F.Val → Option Text
  | .none => some (lit "null")
  | .bool b => some (if b then lit "true" else lit "false")
  | .int n => intText n
  | .float x => if F.isFinite x then some (F.repr x) else none
  | .str s => some (strText s)
  | .list items => (renderItems items).map fun t => ch '[' :: t ++ [ch ']']
  | .dict entries => (renderEntries entries).map fun t => ch '{' :: t ++ [ch '}']
  | .foreign _ written => written

def renderItems : List (Value F.Val) → Option Text
  | [] => some []
  | [v] => render v
  | v :: w :: items => do
    let head ← render v
    let rest ← renderItems (w :: items)
    return head ++ ch ',' :: rest

def renderEntries : List (Text × Value F.Val) → Option Text
  | [] => some []
  | [(k, v)] => (render v).map fun t => strText k ++ ch ':' :: t
  | (k, v) :: e :: entries => do
    let head ← render v
    let rest ← renderEntries (e :: entries)
    return strText k ++ ch ':' :: head ++ ch ',' :: rest

end

end Writer

/-! ## Other spellings -/

/-- How a writer spells the inside of a string and a floating-point number. -/
structure Spelling (φ : Type) where
  string : Text → Text
  float : φ → Option Text

namespace Spelling

variable {φ : Type} (S : Spelling φ)

def quoted (s : Text) : Text := ch '"' :: S.string s ++ [ch '"']

mutual

/-- The text of a value, its entries in the order they have. -/
def renderBy : Value φ → Option Text
  | .none => some (lit "null")
  | .bool b => some (if b then lit "true" else lit "false")
  | .int n => intText n
  | .float x => S.float x
  | .str s => some (S.quoted s)
  | .list items => (renderItemsBy items).map fun t => ch '[' :: t ++ [ch ']']
  | .dict entries => (renderEntriesBy entries).map fun t => ch '{' :: t ++ [ch '}']
  | .foreign _ written => written

def renderItemsBy : List (Value φ) → Option Text
  | [] => some []
  | [v] => renderBy v
  | v :: w :: items => do
    let head ← renderBy v
    let rest ← renderItemsBy (w :: items)
    return head ++ ch ',' :: rest

def renderEntriesBy : List (Text × Value φ) → Option Text
  | [] => some []
  | [(k, v)] => (renderBy v).map fun t => S.quoted k ++ ch ':' :: t
  | (k, v) :: e :: entries => do
    let head ← renderBy v
    let rest ← renderEntriesBy (e :: entries)
    return S.quoted k ++ ch ':' :: head ++ ch ',' :: rest

end

end Spelling

section Writer

variable (F : FloatFormat)

/-- The spelling of `render`. -/
def plain : Spelling F.Val where
  string s := s.flatMap escaped
  float x := if F.isFinite x then some (F.repr x) else none

mutual

theorem render_plain : (v : Value F.Val) → render F v = (plain F).renderBy v
  | .none => rfl
  | .bool _ => rfl
  | .int _ => rfl
  | .float _ => rfl
  | .str _ => rfl
  | .list items => congrArg (Option.map _) (renderItems_plain items)
  | .dict entries => congrArg (Option.map _) (renderEntries_plain entries)
  | .foreign _ _ => rfl

theorem renderItems_plain : (items : List (Value F.Val)) → renderItems F items = (plain F).renderItemsBy items
  | [] => rfl
  | [v] => render_plain v
  | v :: w :: items => by
    simp only [renderItems, Spelling.renderItemsBy, render_plain v, renderItems_plain (w :: items)]

theorem renderEntries_plain :
    (entries : List (Text × Value F.Val)) → renderEntries F entries = (plain F).renderEntriesBy entries
  | [] => rfl
  | [(_, v)] => congrArg (Option.map _) (render_plain v)
  | (k, v) :: e :: entries => by
    simp only [renderEntries, Spelling.renderEntriesBy, render_plain v, renderEntries_plain (e :: entries)]
    rfl

end

/-- `json.dumps` with `allow_nan=False`, `ensure_ascii=False`, `separators=(",", ":")` and `sort_keys=True`. -/
def dumps (v : Value F.Val) : Option Text := render F v.sorted

end Writer

end AgentFabric.Lib
