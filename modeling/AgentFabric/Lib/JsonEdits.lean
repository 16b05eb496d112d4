import AgentFabric.Lib.JsonParallel
import Mathlib.Algebra.Order.BigOperators.Group.List
import Mathlib.Data.List.DropRight

/-!
# JSON texts that are edited inside of literals

Values of one structure that differ in strings only, and the texts that are read as such.
-/

namespace AgentFabric.Lib

variable {φ : Type} {t o : Text}

/-! ## The same structure -/

mutual

/-- Two values of one structure, the keys of their objects in the relation `K`: only strings may differ. -/
def Alike (K : Text → Text → Prop) : Value φ → Value φ → Prop
  | .str _, w => ∃ s, w = .str s
  | .list items, w => ∃ items', w = .list items' ∧ AlikeItems K items items'
  | .dict entries, w => ∃ entries', w = .dict entries' ∧ AlikeEntries K entries entries'
  | v, w => w = v

def AlikeItems (K : Text → Text → Prop) : List (Value φ) → List (Value φ) → Prop
  | [], items' => items' = []
  | v :: items, items' => ∃ w rest, items' = w :: rest ∧ Alike K v w ∧ AlikeItems K items rest

def AlikeEntries (K : Text → Text → Prop) : List (Text × Value φ) → List (Text × Value φ) → Prop
  | [], entries' => entries' = []
  | (key, v) :: entries, entries' =>
    ∃ key' w rest, entries' = (key', w) :: rest ∧ K key key' ∧ Alike K v w ∧ AlikeEntries K entries rest

end

section Alike

variable {K : Text → Text → Prop} {items items' : List (Value φ)} {entries entries' : List (Text × Value φ)}

theorem alikeItems_iff : AlikeItems K items items' ↔ List.Forall₂ (Alike K) items items' := by
  induction items generalizing items' with
  | nil => rw [AlikeItems, List.forall₂_nil_left_iff]
  | cons v items ih =>
    rw [AlikeItems, List.forall₂_cons_left_iff]
    constructor
    · rintro ⟨w, rest, rfl, hv, h⟩
      exact ⟨w, rest, hv, ih.mp h, rfl⟩
    · rintro ⟨w, rest, hv, h, rfl⟩
      exact ⟨w, rest, rfl, hv, ih.mpr h⟩

theorem alikeEntries_iff :
    AlikeEntries K entries entries' ↔ List.Forall₂ (fun e e' => K e.1 e'.1 ∧ Alike K e.2 e'.2) entries entries' := by
  induction entries generalizing entries' with
  | nil => rw [AlikeEntries, List.forall₂_nil_left_iff]
  | cons e entries ih =>
    obtain ⟨key, v⟩ := e
    rw [AlikeEntries, List.forall₂_cons_left_iff]
    constructor
    · rintro ⟨key', w, rest, rfl, hk, hv, h⟩
      exact ⟨(key', w), rest, ⟨hk, hv⟩, ih.mp h, rfl⟩
    · rintro ⟨⟨key', w⟩, rest, ⟨hk, hv⟩, h, rfl⟩
      exact ⟨key', w, rest, rfl, hk, hv, ih.mpr h⟩

mutual

theorem Alike.strings : (v : Value φ) → {w : Value φ} → Alike K v w → stringsOf w = stringsOf v
  | .str _, _, ⟨_, rfl⟩ => rfl
  | .list items, _, ⟨_, rfl, h⟩ => AlikeItems.strings items h
  | .dict entries, _, ⟨_, rfl, h⟩ => AlikeEntries.strings entries h
  | .none, _, rfl | .bool _, _, rfl | .int _, _, rfl | .float _, _, rfl | .foreign _ _, _, rfl => rfl

theorem AlikeItems.strings : (items : List (Value φ)) → {items' : List (Value φ)} → AlikeItems K items items' →
    stringsOfItems items' = stringsOfItems items
  | [], _, rfl => rfl
  | v :: items, _, ⟨_, _, rfl, hv, h⟩ => by
    rw [stringsOfItems, stringsOfItems, Alike.strings v hv, AlikeItems.strings items h]

theorem AlikeEntries.strings : (entries : List (Text × Value φ)) → {entries' : List (Text × Value φ)} →
    AlikeEntries K entries entries' → stringsOfEntries entries' = stringsOfEntries entries
  | [], _, rfl => rfl
  | (_, v) :: entries, _, ⟨_, _, _, rfl, _, hv, h⟩ => by
    rw [stringsOfEntries, stringsOfEntries, Alike.strings v hv, AlikeEntries.strings entries h]

end

mutual

theorem Alike.keys_length : (v : Value φ) → {w : Value φ} → Alike K v w → (keysOf w).length = (keysOf v).length
  | .str _, _, ⟨_, rfl⟩ => rfl
  | .list items, _, ⟨_, rfl, h⟩ => AlikeItems.keys_length items h
  | .dict entries, _, ⟨_, rfl, h⟩ => AlikeEntries.keys_length entries h
  | .none, _, rfl | .bool _, _, rfl | .int _, _, rfl | .float _, _, rfl | .foreign _ _, _, rfl => rfl

theorem AlikeItems.keys_length : (items : List (Value φ)) → {items' : List (Value φ)} → AlikeItems K items items' →
    (keysOfItems items').length = (keysOfItems items).length
  | [], _, rfl => rfl
  | v :: items, _, ⟨_, _, rfl, hv, h⟩ => by
    simp only [keysOfItems, List.length_append]
    rw [Alike.keys_length v hv, AlikeItems.keys_length items h]

theorem AlikeEntries.keys_length : (entries : List (Text × Value φ)) → {entries' : List (Text × Value φ)} →
    AlikeEntries K entries entries' → (keysOfEntries entries').length = (keysOfEntries entries).length
  | [], _, rfl => rfl
  | (_, v) :: entries, _, ⟨_, _, _, rfl, _, hv, h⟩ => by
    simp only [keysOfEntries, List.length_cons, List.length_append]
    rw [Alike.keys_length v hv, AlikeEntries.keys_length entries h]

end

mutual

theorem Alike.same_keys : (v : Value φ) → {w : Value φ} → Alike K v w → keysOf w = keysOf v → Alike Eq v w
  | .str _, _, h, _ => h
  | .list items, _, ⟨items', rfl, h⟩, heq => ⟨items', rfl, AlikeItems.same_keys items h heq⟩
  | .dict entries, _, ⟨entries', rfl, h⟩, heq => ⟨entries', rfl, AlikeEntries.same_keys entries h heq⟩
  | .none, _, rfl, _ | .bool _, _, rfl, _ | .int _, _, rfl, _ | .float _, _, rfl, _ | .foreign _ _, _, rfl, _ => rfl

theorem AlikeItems.same_keys : (items : List (Value φ)) → {items' : List (Value φ)} → AlikeItems K items items' →
    keysOfItems items' = keysOfItems items → AlikeItems Eq items items'
  | [], _, h, _ => h
  | v :: items, _, ⟨w, rest, rfl, hv, h⟩, heq => by
    obtain ⟨hfirst, hrest⟩ := List.append_inj heq (Alike.keys_length v hv)
    exact ⟨w, rest, rfl, Alike.same_keys v hv hfirst, AlikeItems.same_keys items h hrest⟩

theorem AlikeEntries.same_keys : (entries : List (Text × Value φ)) → {entries' : List (Text × Value φ)} →
    AlikeEntries K entries entries' → keysOfEntries entries' = keysOfEntries entries → AlikeEntries Eq entries entries'
  | [], _, h, _ => h
  | (key, v) :: entries, _, ⟨key', w, rest, rfl, _, hv, h⟩, heq => by
    obtain ⟨hkey, heq⟩ := List.cons.inj heq
    obtain ⟨hfirst, hrest⟩ := List.append_inj heq (Alike.keys_length v hv)
    exact ⟨key', w, rest, rfl, hkey.symm, Alike.same_keys v hv hfirst, AlikeEntries.same_keys entries h hrest⟩

end

mutual

theorem Alike.keys : (v : Value φ) → {w : Value φ} → Alike Eq v w → keysOf w = keysOf v
  | .str _, _, ⟨_, rfl⟩ => rfl
  | .list items, _, ⟨_, rfl, h⟩ => AlikeItems.keys items h
  | .dict entries, _, ⟨_, rfl, h⟩ => AlikeEntries.keys entries h
  | .none, _, rfl | .bool _, _, rfl | .int _, _, rfl | .float _, _, rfl | .foreign _ _, _, rfl => rfl

theorem AlikeItems.keys : (items : List (Value φ)) → {items' : List (Value φ)} → AlikeItems Eq items items' →
    keysOfItems items' = keysOfItems items
  | [], _, rfl => rfl
  | v :: items, _, ⟨_, _, rfl, hv, h⟩ => by rw [keysOfItems, keysOfItems, Alike.keys v hv, AlikeItems.keys items h]

theorem AlikeEntries.keys : (entries : List (Text × Value φ)) → {entries' : List (Text × Value φ)} →
    AlikeEntries Eq entries entries' → keysOfEntries entries' = keysOfEntries entries
  | [], _, rfl => rfl
  | (_, v) :: entries, _, ⟨_, _, _, rfl, rfl, hv, h⟩ => by
    rw [keysOfEntries, keysOfEntries, Alike.keys v hv, AlikeEntries.keys entries h]

end

end Alike

/-! ## Repeated keys -/

theorem keys_subset (entries : List (Text × Value φ)) : entries.map Prod.fst ⊆ keysOfEntries entries := by
  induction entries with
  | nil => exact fun _ h => h
  | cons e entries ih =>
    intro key hkey
    rcases List.mem_cons.mp hkey with rfl | hkey
    · exact List.mem_cons_self
    · exact List.mem_cons_of_mem _ (List.mem_append_right _ (ih hkey))

mutual

theorem distinct_of_keys : (v : Value φ) → (keysOf v).Nodup → v.Distinct
  | .list items, h => distinctItems_of_keys items h
  | .dict entries, h => distinctEntries_of_keys entries h
  | .str _, _ | .none, _ | .bool _, _ | .int _, _ | .float _, _ | .foreign _ _, _ => trivial

theorem distinctItems_of_keys : (items : List (Value φ)) → (keysOfItems items).Nodup → Value.FormedItems True items
  | [], _ => trivial
  | v :: items, h =>
    ⟨distinct_of_keys v (List.nodup_append.mp h).1, distinctItems_of_keys items (List.nodup_append.mp h).2.1⟩

theorem distinctEntries_of_keys : (entries : List (Text × Value φ)) → (keysOfEntries entries).Nodup →
    (entries.map Prod.fst).Nodup ∧ Value.FormedEntries True entries
  | [], _ => ⟨List.nodup_nil, trivial⟩
  | (key, v) :: entries, h => by
    obtain ⟨hkey, h⟩ := List.nodup_cons.mp h
    obtain ⟨hv, hrest, -⟩ := List.nodup_append.mp h
    obtain ⟨hkeys, hentries⟩ := distinctEntries_of_keys entries hrest
    refine ⟨List.nodup_cons.mpr ⟨fun hmem => hkey ?_, hkeys⟩, distinct_of_keys v hv, hentries⟩
    exact List.mem_append_right _ (keys_subset entries hmem)

end

mutual

/-- What a reader makes of a value whose objects have all the pairs of the text. -/
def tidy : Value φ → Value φ
  | .list items => .list (tidyItems items)
  | .dict pairs => objectOf (tidyPairs pairs)
  | v => v

def tidyItems : List (Value φ) → List (Value φ)
  | [] => []
  | v :: items => tidy v :: tidyItems items

def tidyPairs : List (Text × Value φ) → List (Text × Value φ)
  | [] => []
  | (key, v) :: pairs => (key, tidy v) :: tidyPairs pairs

end

/-- The hook of the standard library. -/
def keepLast (pairs : List (Text × Value φ)) : Except Empty (Value φ) := .ok (objectOf pairs)

theorem tidyPairs_keys (pairs : List (Text × Value φ)) : (tidyPairs pairs).map Prod.fst = pairs.map Prod.fst := by
  induction pairs with
  | nil => rfl
  | cons e pairs ih => rw [tidyPairs, List.map_cons, List.map_cons, ih]

theorem tidyPairs_length (pairs : List (Text × Value φ)) : (tidyPairs pairs).length = pairs.length := by
  rw [← List.length_map (f := Prod.fst), tidyPairs_keys, List.length_map]

section Objects

variable {F : JsonFloats}

theorem tidyItems_of_forall {items items' : List (Value F.Val)}
    (h : List.Forall₂ (fun v w => w = tidy v) items items') : items' = tidyItems items := by
  induction h with
  | nil => rfl
  | cons hv _ ih => rw [tidyItems, hv, ih]

theorem tidyPairs_of_forall {pairs pairs' : List (Text × Value F.Val)}
    (h : List.Forall₂ (fun e e' => e.1 = e'.1 ∧ e'.2 = tidy e.2) pairs pairs') : pairs' = tidyPairs pairs := by
  induction h with
  | nil => rfl
  | @cons e e' _ _ he _ ih =>
    obtain ⟨k, v⟩ := e
    obtain ⟨k', v'⟩ := e'
    obtain ⟨rfl, rfl⟩ := he
    rw [tidyPairs, ih]

theorem tracks_eq : Tracks Eq where
  nil _ h := h.symm
  head _ t _ h := ⟨t, h.symm, fun _ => rfl⟩

theorem keeping_parallel : Parallel (F := F.toFloatFormat) keepPairs keepLast Eq Eq fun v w => w = tidy v where
  toTracks := tracks_eq
  string t o s rest h hs := by
    obtain rfl := (List.cons.inj h).2
    exact ⟨s, rest, hs, rfl, rfl⟩
  none := rfl
  bool _ := rfl
  int _ := rfl
  float _ := rfl
  str s s' h := by rw [h]; rfl
  list items items' h := by rw [tidyItems_of_forall h, tidy]
  hook pairs pairs' v h hv := by
    obtain rfl := Except.ok.inj hv
    exact ⟨_, rfl, by rw [tidyPairs_of_forall h, tidy]⟩

theorem dropping_parallel : Parallel (F := F.toFloatFormat) keepLast keepPairs Eq Eq fun w v => w = tidy v where
  toTracks := tracks_eq
  string t o s rest h hs := by
    obtain rfl := (List.cons.inj h).2
    exact ⟨s, rest, hs, rfl, rfl⟩
  none := rfl
  bool _ := rfl
  int _ := rfl
  float _ := rfl
  str s s' h := by rw [h]; rfl
  list items items' h := by
    rw [tidyItems_of_forall h.flip, tidy]
  hook pairs pairs' v h hv := by
    obtain rfl := Except.ok.inj hv
    refine ⟨_, rfl, ?_⟩
    rw [tidyPairs_of_forall (h.flip.imp fun e e' he => ⟨he.1.symm, he.2⟩), tidy]

/-- The reader that drops repeated keys, by way of the one that keeps all pairs. -/
theorem loadsText_keepLast {w : Value F.Val} : loadsText F.toFloatFormat keepLast t = .ok w ↔
    ∃ v, loadsText F.toFloatFormat keepPairs t = .ok v ∧ w = tidy v := by
  constructor
  · exact dropping_parallel.loadsText rfl
  · rintro ⟨v, hv, rfl⟩
    obtain ⟨w, hw, rfl⟩ := keeping_parallel.loadsText rfl hv
    exact hw

theorem stringsOfEntries_eq_sum (entries : List (Text × Value φ)) :
    stringsOfEntries entries = (entries.map fun e => 1 + stringsOf e.2).sum := by
  induction entries with
  | nil => rfl
  | cons e entries ih => rw [stringsOfEntries, ih, List.map_cons, List.sum_cons, Nat.add_assoc]

theorem objectOf_subperm (pairs : List (Text × Value F.Val)) :
    ∃ entries, objectOf pairs = .dict entries ∧ (entries.map Prod.fst).Nodup ∧ entries.Subperm pairs := by
  obtain ⟨entries, hobject, hkeys, hmem⟩ := objectOf_entries pairs
  exact ⟨entries, hobject, hkeys, (List.Nodup.of_map _ hkeys).subperm hmem⟩

mutual

theorem strings_tidy_le : (v : Value F.Val) → stringsOf (tidy v) ≤ stringsOf v
  | .list items => stringsOfItems_tidy_le items
  | .dict pairs => by
    obtain ⟨entries, hobject, -, hsub⟩ := objectOf_subperm (tidyPairs pairs)
    rw [tidy, hobject, stringsOf, stringsOf]
    obtain ⟨kept, hperm, hsublist⟩ := hsub
    calc stringsOfEntries entries = stringsOfEntries kept := by
          rw [stringsOfEntries_eq_sum, stringsOfEntries_eq_sum, (hperm.map _).sum_eq]
      _ ≤ stringsOfEntries (tidyPairs pairs) := by
          rw [stringsOfEntries_eq_sum, stringsOfEntries_eq_sum]
          exact (hsublist.map _).sum_le_sum fun _ _ => Nat.zero_le _
      _ ≤ stringsOfEntries pairs := stringsOfEntries_tidy_le pairs
  | .str _ | .none | .bool _ | .int _ | .float _ | .foreign _ _ => Nat.le_refl _

theorem stringsOfItems_tidy_le : (items : List (Value F.Val)) → stringsOfItems (tidyItems items) ≤ stringsOfItems items
  | [] => Nat.le_refl _
  | v :: items => Nat.add_le_add (strings_tidy_le v) (stringsOfItems_tidy_le items)

theorem stringsOfEntries_tidy_le : (pairs : List (Text × Value F.Val)) →
    stringsOfEntries (tidyPairs pairs) ≤ stringsOfEntries pairs
  | [] => Nat.le_refl _
  | (_, v) :: pairs =>
    Nat.add_le_add_left (Nat.add_le_add (strings_tidy_le v) (stringsOfEntries_tidy_le pairs)) 1

end

mutual

theorem tidy_of_distinct : (v : Value F.Val) → v.Distinct → tidy v = v
  | .list items, h => congrArg Value.list (tidyItems_of_distinct items h)
  | .dict pairs, h => by
    rw [tidy, objectOf_nodup (by rw [tidyPairs_keys]; exact h.1), tidyPairs_of_distinct pairs h.2]
  | .str _, _ | .none, _ | .bool _, _ | .int _, _ | .float _, _ | .foreign _ _, _ => rfl

theorem tidyItems_of_distinct : (items : List (Value F.Val)) → Value.FormedItems True items → tidyItems items = items
  | [], _ => rfl
  | v :: items, h => by rw [tidyItems, tidy_of_distinct v h.1, tidyItems_of_distinct items h.2]

theorem tidyPairs_of_distinct : (pairs : List (Text × Value F.Val)) → Value.FormedEntries True pairs →
    tidyPairs pairs = pairs
  | [], _ => rfl
  | (_, v) :: pairs, h => by rw [tidyPairs, tidy_of_distinct v h.1, tidyPairs_of_distinct pairs h.2]

end

theorem AlikeEntries.length {K : Text → Text → Prop} {entries entries' : List (Text × Value φ)}
    (h : AlikeEntries K entries entries') : entries'.length = entries.length := (alikeEntries_iff.mp h).length_eq.symm

mutual

/-- Where dropping repeated keys keeps the structure, there are none. -/
theorem tidy_of_alike : (v : Value F.Val) → {w : Value F.Val} → Alike K v w →
    Alike Eq v (tidy w) → tidy w = w
  | .str _, _, ⟨_, rfl⟩, _ => rfl
  | .list items, _, ⟨items', rfl, h⟩, ⟨_, heq, htidy⟩ => by
    rw [tidy, Value.list.injEq] at heq
    subst heq
    rw [tidy, tidyItems_of_alike items h htidy]
  | .dict pairs, _, ⟨pairs', rfl, h⟩, ⟨entries, heq, htidy⟩ => by
    obtain ⟨kept, hobject, hkeys, hsub⟩ := objectOf_subperm (tidyPairs pairs')
    rw [tidy, hobject, Value.dict.injEq] at heq
    subst heq
    have hlength : kept.length = (tidyPairs pairs').length := by rw [htidy.length, tidyPairs_length, h.length]
    have hperm := hsub.perm_of_length_le (Nat.le_of_eq hlength.symm)
    have hnodup : ((tidyPairs pairs').map Prod.fst).Nodup := (hperm.map Prod.fst).nodup_iff.mp hkeys
    have hall := objectOf_nodup hnodup
    rw [hobject, Value.dict.injEq] at hall
    subst hall
    rw [tidy, hobject, tidyPairs_of_alike pairs h htidy]
  | .none, _, rfl, _ | .bool _, _, rfl, _ | .int _, _, rfl, _ | .float _, _, rfl, _ | .foreign _ _, _, rfl, _ => rfl

theorem tidyItems_of_alike : (items : List (Value F.Val)) → {items' : List (Value F.Val)} →
    AlikeItems K items items' → AlikeItems Eq items (tidyItems items') → tidyItems items' = items'
  | [], _, rfl, _ => rfl
  | v :: items, _, ⟨w, rest, rfl, hv, h⟩, ⟨w', rest', heq, hv', h'⟩ => by
    obtain ⟨rfl, rfl⟩ := List.cons.inj heq
    rw [tidyItems, tidy_of_alike v hv hv', tidyItems_of_alike items h h']

theorem tidyPairs_of_alike : (pairs : List (Text × Value F.Val)) →
    {pairs' : List (Text × Value F.Val)} → AlikeEntries K pairs pairs' → AlikeEntries Eq pairs (tidyPairs pairs') →
    tidyPairs pairs' = pairs'
  | [], _, rfl, _ => rfl
  | (key, v) :: pairs, _, ⟨key', w, rest, rfl, _, hv, h⟩, ⟨key'', w', rest', heq, _, hv', h'⟩ => by
    obtain ⟨hhead, rfl⟩ := List.cons.inj heq
    obtain ⟨rfl, rfl⟩ := Prod.mk.inj hhead
    rw [tidyPairs, tidy_of_alike v hv hv', tidyPairs_of_alike pairs h h']

end

/-- Entries that are put into two objects of one structure. -/
theorem foldl_putEntry_alike {pairs pairs' entries entries' : List (Text × Value φ)}
    (hpairs : List.Forall₂ (fun e e' => e.1 = e'.1 ∧ Alike Eq e.2 e'.2) pairs pairs')
    (hentries : List.Forall₂ (fun e e' => e.1 = e'.1 ∧ Alike Eq e.2 e'.2) entries entries') :
    List.Forall₂ (fun e e' => e.1 = e'.1 ∧ Alike Eq e.2 e'.2) (pairs.foldl putEntry entries)
      (pairs'.foldl putEntry entries') := by
  induction hpairs generalizing entries entries' with
  | nil => exact hentries
  | @cons pair pair' _ _ hpair _ ih =>
    rw [List.foldl_cons, List.foldl_cons]
    apply ih
    have hany : (entries'.any fun e => decide (e.1 = pair'.1)) = entries.any fun e => decide (e.1 = pair.1) := by
      clear ih
      induction hentries with
      | nil => rfl
      | cons he _ ih => rw [List.any_cons, List.any_cons, ih, he.1, hpair.1]
    unfold putEntry
    rw [hany]
    split
    · rw [List.forall₂_map_left_iff, List.forall₂_map_right_iff]
      refine hentries.imp fun e e' he => ?_
      rw [← he.1, ← hpair.1]
      split
      · exact hpair
      · exact he
    · exact List.rel_append hentries (.cons hpair .nil)

mutual

theorem tidy_alike : (v : Value F.Val) → {w : Value F.Val} → Alike Eq v w → Alike Eq (tidy v) (tidy w)
  | .str _, _, ⟨s, rfl⟩ => ⟨s, rfl⟩
  | .list items, _, ⟨items', rfl, h⟩ => ⟨tidyItems items', rfl, tidyItems_alike items h⟩
  | .dict pairs, _, ⟨pairs', rfl, h⟩ =>
    ⟨_, rfl, alikeEntries_iff.mpr (foldl_putEntry_alike (alikeEntries_iff.mp (tidyPairs_alike pairs h)) .nil)⟩
  | .none, _, rfl | .bool _, _, rfl | .int _, _, rfl | .float _, _, rfl | .foreign _ _, _, rfl => rfl

theorem tidyItems_alike : (items : List (Value F.Val)) → {items' : List (Value F.Val)} → AlikeItems Eq items items' →
    AlikeItems Eq (tidyItems items) (tidyItems items')
  | [], _, rfl => rfl
  | v :: items, _, ⟨w, rest, rfl, hv, h⟩ => ⟨tidy w, tidyItems rest, rfl, tidy_alike v hv, tidyItems_alike items h⟩

theorem tidyPairs_alike : (pairs : List (Text × Value F.Val)) → {pairs' : List (Text × Value F.Val)} →
    AlikeEntries Eq pairs pairs' → AlikeEntries Eq (tidyPairs pairs) (tidyPairs pairs')
  | [], _, rfl => rfl
  | (_, v) :: pairs, _, ⟨key', w, rest, rfl, hk, hv, h⟩ =>
    ⟨key', tidy w, tidyPairs rest, rfl, hk, tidy_alike v hv, tidyPairs_alike pairs h⟩

end

end Objects

/-! ## Edited literals -/

/-- Two texts that differ inside of their literals only, which `f` edits. -/
inductive Edited (f : Text → Text) : Text → Text → Prop where
  | nil : Edited f [] []
  | outside {c : CodePoint} {t o : Text} (hc : c ∈ outsideLetters) (h : Edited f t o) : Edited f (c :: t) (c :: o)
  | literal {b t o : Text} (hb : Body b) (hf : Body (f b)) (h : Edited f t o) :
    Edited f (ch '"' :: (b ++ ch '"' :: t)) (ch '"' :: (f b ++ ch '"' :: o))

section Edited

variable {F : JsonFloats} {f g : Text → Text} {u : Text}

theorem Edited.lexed (h : Edited f t o) : ∃ n, Lexed n t ∧ Lexed n o := by
  induction h with
  | nil => exact ⟨0, .nil, .nil⟩
  | outside hc _ ih =>
    obtain ⟨n, ht, ho⟩ := ih
    exact ⟨n, .outside hc ht, .outside hc ho⟩
  | literal hb hf _ ih =>
    obtain ⟨n, ht, ho⟩ := ih
    exact ⟨n + 1, .literal hb ht, .literal hf ho⟩

theorem Edited.eq_nil_iff (h : Edited f t o) : t = [] ↔ o = [] := by
  cases h <;> simp

theorem Body.unique {b b' : Text} (hb : Body b) (hb' : Body b') (h : b ++ ch '"' :: t = b' ++ ch '"' :: u) :
    b = b' ∧ t = u := by
  have hscan := hb.scanString t
  rw [h, hb'.scanString u] at hscan
  obtain ⟨-, rfl⟩ := Prod.mk.inj (Option.some.inj hscan)
  exact ⟨List.append_cancel_right h, rfl⟩

theorem Edited.comp (h : Edited f t o) (h' : Edited g o u) : Edited (g ∘ f) t u := by
  induction h generalizing u with
  | nil =>
    cases h'
    exact .nil
  | @outside c t o hc _ ih =>
    generalize ho : c :: o = o' at h'
    cases h' with
    | nil => exact nomatch ho
    | outside hc' h' =>
      obtain ⟨rfl, rfl⟩ := List.cons.inj ho
      exact .outside hc (ih h')
    | literal =>
      obtain ⟨rfl, -⟩ := List.cons.inj ho
      exact absurd rfl (outside_bare hc).1
  | @literal b t o hb hf _ ih =>
    generalize ho : ch '"' :: (f b ++ ch '"' :: o) = o' at h'
    cases h' with
    | nil => exact nomatch ho
    | outside hc =>
      obtain ⟨rfl, -⟩ := List.cons.inj ho
      exact absurd rfl (outside_bare hc).1
    | literal hb' hg h' =>
      obtain ⟨rfl, rfl⟩ := hf.unique hb' (List.cons.inj ho).2
      exact .literal hb hg (ih h')

/-- The keys are edited like every literal. -/
theorem Edited.keys (h : Edited f t o) : keySpellings o = (keySpellings t).map f := by
  have hall : ∀ m m', (m = .outside ∧ m' = .outside ∨ ∃ b, m = .behind b ∧ m' = .behind (f b)) →
      (keysFrom m' o).1 = (keysFrom m t).1.map f := by
    induction h with
    | nil =>
      rintro _ _ (⟨rfl, rfl⟩ | ⟨b, rfl, rfl⟩) <;> rfl
    | @outside c t o hc _ ih =>
      have hquote := (outside_bare hc).1
      rintro _ _ (⟨rfl, rfl⟩ | ⟨b, rfl, rfl⟩)
      · simp only [keysFrom, Mark.next, hquote, if_false, List.nil_append]
        exact ih _ _ (Or.inl ⟨rfl, rfl⟩)
      · by_cases hspace : c ∈ lit " \t\n\r"
        · simp only [keysFrom, Mark.next, hspace, if_true, List.nil_append]
          exact ih _ _ (Or.inr ⟨b, rfl, rfl⟩)
        · by_cases hcolon : c = ch ':'
          · subst hcolon
            have hnext : ∀ b, Mark.next (.behind b) (ch ':') = ([b], .outside) := fun _ => rfl
            simp only [keysFrom, hnext, List.singleton_append, List.map_cons]
            rw [ih _ _ (Or.inl ⟨rfl, rfl⟩)]
          · simp only [keysFrom, Mark.next, hspace, hcolon, hquote, if_false, List.nil_append]
            exact ih _ _ (Or.inl ⟨rfl, rfl⟩)
    | @literal b t o hb hf _ ih =>
      intro m m' hm
      have hsettled : m.Settled ∧ m'.Settled := by
        rcases hm with ⟨rfl, rfl⟩ | ⟨b, rfl, rfl⟩ <;> exact ⟨trivial, trivial⟩
      simp only [keysFrom, hsettled.1.quote, hsettled.2.quote, keysFrom_body hb, keysFrom_body hf, List.nil_append]
      exact ih _ _ (Or.inr ⟨b, rfl, rfl⟩)
  exact hall _ _ (Or.inl ⟨rfl, rfl⟩)

/-! ## White space around a text -/

theorem Edited.dropSpace (h : Edited f t o) : Edited f (t.dropWhile isSpace) (o.dropWhile isSpace) := by
  induction h with
  | nil => exact .nil
  | @outside c t o hc h ih =>
    by_cases hspace : isSpace c = true
    · rw [List.dropWhile_cons_of_pos hspace, List.dropWhile_cons_of_pos hspace]
      exact ih
    · rw [List.dropWhile_cons_of_neg hspace, List.dropWhile_cons_of_neg hspace]
      exact .outside hc h
  | literal hb hf h =>
    rw [List.dropWhile_cons_of_neg (by decide), List.dropWhile_cons_of_neg (by decide)]
    exact .literal hb hf h

theorem rdropSpace_append {c : CodePoint} (hc : isSpace c = false) (s t : Text) :
    (s ++ c :: t).rdropWhile isSpace = s ++ c :: t.rdropWhile isSpace := by
  have hreverse : (s ++ c :: t).reverse = t.reverse ++ c :: s.reverse := by simp
  unfold List.rdropWhile
  rw [hreverse, List.dropWhile_append, List.dropWhile_cons_of_neg (by simp [hc])]
  split
  · next hempty =>
    rw [List.isEmpty_iff.mp hempty]
    simp
  · simp

theorem rdropSpace_cons {c : CodePoint} (hc : isSpace c = true) (t : Text) :
    (c :: t).rdropWhile isSpace = if t.rdropWhile isSpace = [] then [] else c :: t.rdropWhile isSpace := by
  unfold List.rdropWhile
  rw [List.reverse_cons, List.dropWhile_append]
  cases t.reverse.dropWhile isSpace with
  | nil => simp [hc]
  | cons => simp

theorem Edited.rdropSpace (h : Edited f t o) : Edited f (t.rdropWhile isSpace) (o.rdropWhile isSpace) := by
  induction h with
  | nil => exact .nil
  | @outside c t o hc h ih =>
    by_cases hspace : isSpace c = true
    · rw [rdropSpace_cons hspace, rdropSpace_cons hspace]
      have hnil : t.rdropWhile isSpace = [] ↔ o.rdropWhile isSpace = [] := ih.eq_nil_iff
      by_cases hempty : t.rdropWhile isSpace = []
      · rw [if_pos hempty, if_pos (hnil.mp hempty)]
        exact .nil
      · rw [if_neg hempty, if_neg fun heq => hempty (hnil.mpr heq)]
        exact .outside hc ih
    · have hnot := Bool.eq_false_of_not_eq_true hspace
      have hleft := rdropSpace_append hnot [] t
      have hright := rdropSpace_append hnot [] o
      rw [List.nil_append, List.nil_append] at hleft hright
      rw [hleft, hright]
      exact .outside hc ih
  | @literal b t o hb hf h ih =>
    have hquote : isSpace (ch '"') = false := by decide
    have hend : ∀ (b t : Text), (ch '"' :: (b ++ ch '"' :: t)).rdropWhile isSpace =
        ch '"' :: (b ++ ch '"' :: t.rdropWhile isSpace) := by
      intro b t
      exact rdropSpace_append hquote (ch '"' :: b) t
    rw [hend, hend]
    exact .literal hb hf ih

theorem strip_eq (t : Text) : strip t = (t.dropWhile isSpace).rdropWhile isSpace := rfl

theorem Edited.strip (h : Edited f t o) : Edited f (Lib.strip t) (Lib.strip o) := by
  rw [strip_eq, strip_eq]
  exact h.dropSpace.rdropSpace

/-- A text is what `strip` leaves of it, with white space around it. -/
theorem strip_split (t : Text) : ∃ x y, t = x ++ (strip t ++ y) ∧ (∀ c ∈ x, isSpace c = true) ∧
    ∀ c ∈ y, isSpace c = true := by
  refine ⟨t.takeWhile isSpace, ((t.dropWhile isSpace).reverse.takeWhile isSpace).reverse, ?_, fun c hc => ?_,
    fun c hc => ?_⟩
  · have hback : strip t ++ ((t.dropWhile isSpace).reverse.takeWhile isSpace).reverse = t.dropWhile isSpace := by
      rw [strip, ← List.reverse_append, List.takeWhile_append_dropWhile, List.reverse_reverse]
    rw [hback, List.takeWhile_append_dropWhile]
  · exact List.mem_takeWhile_imp hc
  · exact List.mem_takeWhile_imp (List.mem_reverse.mp hc)

theorem quotes_strip (t : Text) : quotes false (strip t) = quotes false t := by
  obtain ⟨x, y, ht, hx, hy⟩ := strip_split t
  have hbare : ∀ c, isSpace c = true → Bare c := fun c hc => outside_bare (isSpace_outside hc)
  have hend : ∀ escaped, quotes escaped y = 0 := by
    intro escaped
    cases y with
    | nil => rfl
    | cons c y =>
      have h := quotes_behind (fun d hd => hbare d (hy d hd)) (List.cons_ne_nil c y) escaped []
      rwa [List.append_nil] at h
  conv_rhs => rw [ht, quotes_bare fun c hc => hbare c (hx c hc), quotes_append, hend, Nat.add_zero]

theorem Lexed.of_strip {n : Nat} (h : Lexed n (Lib.strip t)) : Lexed n t := by
  obtain ⟨x, y, ht, hx, hy⟩ := strip_split t
  have hall := (lexed_outside fun c hc => isSpace_outside (hx c hc)).append
    (h.append (lexed_outside fun c hc => isSpace_outside (hy c hc)))
  rwa [← ht, Nat.zero_add, Nat.add_zero] at hall

/-! ## Reading an edited text -/

theorem edited_parallel (f : Text → Text) : Parallel (F := F.toFloatFormat) keepPairs keepPairs (Edited f)
    (fun _ _ => True) (Alike fun _ _ => True) where
  nil o h := by
    cases h
    rfl
  head c t o h := by
    cases h with
    | outside hc h => exact ⟨_, rfl, fun _ => h⟩
    | literal => exact ⟨_, rfl, fun hne => absurd rfl hne⟩
  string t o s rest h hs := by
    generalize ht : ch '"' :: t = t' at h
    generalize ho : ch '"' :: o = o' at h
    cases h with
    | nil => exact nomatch ht
    | outside hc =>
      obtain ⟨rfl, -⟩ := List.cons.inj ht
      exact absurd rfl (outside_bare hc).1
    | literal hb hf h =>
      obtain ⟨-, rfl⟩ := List.cons.inj ht
      obtain ⟨-, rfl⟩ := List.cons.inj ho
      rw [hb.scanString] at hs
      obtain ⟨rfl, rfl⟩ := Prod.mk.inj (Option.some.inj hs)
      exact ⟨_, _, hf.scanString _, trivial, h⟩
  none := rfl
  bool _ := rfl
  int _ := rfl
  float _ := rfl
  str s s' _ := ⟨s', rfl⟩
  list items items' h := ⟨items', rfl, alikeItems_iff.mpr h⟩
  hook pairs pairs' v h hv := by
    obtain rfl := Except.ok.inj hv
    exact ⟨_, rfl, pairs', rfl, alikeEntries_iff.mpr h⟩

variable {v : Value F.Val}

theorem Edited.loadsText (h : Edited f t o) (hv : Lib.loadsText F.toFloatFormat keepPairs t = .ok v) :
    ∃ w, Lib.loadsText F.toFloatFormat keepPairs o = .ok w ∧ Alike (fun _ _ => True) v w ∧
      keysOf v = (keySpellings t).map decode ∧ keysOf w = (keySpellings t).map (decode ∘ f) := by
  obtain ⟨w, hw, hvw⟩ := (edited_parallel f).loadsText h hv
  refine ⟨w, hw, hvw, (loadsText_spells hv).2.symm, ?_⟩
  rw [← (loadsText_spells hw).2, h.keys, List.map_map]

/-- Both texts are read, as values of one structure with the same keys. -/
def ReadAlike (F : JsonFloats) (t o : Text) : Prop :=
  ∃ v w, Lib.loadsText F.toFloatFormat keepLast t = .ok v ∧
    Lib.loadsText F.toFloatFormat keepLast o = .ok w ∧ Alike Eq v w

theorem Edited.readAlike (h : Edited f t o) (hv : Lib.loadsText F.toFloatFormat keepPairs t = .ok v)
    (hkeys : ∀ k ∈ keySpellings t, decode (f k) = decode k) : ReadAlike F t o := by
  obtain ⟨w, hw, hvw, hv', hw'⟩ := h.loadsText hv
  have hsame : keysOf w = keysOf v := by
    rw [hw', hv']
    exact List.map_congr_left hkeys
  exact ⟨tidy v, tidy w, loadsText_keepLast.mpr ⟨v, hv, rfl⟩, loadsText_keepLast.mpr ⟨w, hw, rfl⟩,
    tidy_alike v (hvw.same_keys v hsame)⟩

theorem ReadAlike.quotes_le (h : ReadAlike F t o) (hv : Lib.loadsText F.toFloatFormat keepPairs t = .ok v)
    (hd : v.Distinct) : quotes false t ≤ quotes false o := by
  obtain ⟨_, _, ht, ho, halike⟩ := h
  obtain ⟨v', hv', rfl⟩ := loadsText_keepLast.mp ht
  obtain ⟨w, hw, rfl⟩ := loadsText_keepLast.mp ho
  rw [hv] at hv'
  obtain rfl := Except.ok.inj hv'
  rw [tidy_of_distinct v hd] at halike
  have hle := strings_tidy_le w
  rw [halike.strings v] at hle
  rw [(loadsText_spells hv).1.quotes, (loadsText_spells hw).1.quotes]
  omega

theorem ReadAlike.keys (h : ReadAlike F t o) (hedit : Edited f t o)
    (hv : Lib.loadsText F.toFloatFormat keepPairs t = .ok v) (hd : v.Distinct) :
    ∀ k ∈ keySpellings t, decode (f k) = decode k := by
  obtain ⟨_, _, ht, ho, halike⟩ := h
  obtain ⟨v', hv', rfl⟩ := loadsText_keepLast.mp ht
  obtain ⟨w', hw', rfl⟩ := loadsText_keepLast.mp ho
  obtain ⟨w, hw, hvw, hkeys, hkeys'⟩ := hedit.loadsText hv
  rw [hv] at hv'
  rw [hw] at hw'
  obtain rfl := Except.ok.inj hv'
  obtain rfl := Except.ok.inj hw'
  rw [tidy_of_distinct v hd] at halike
  rw [tidy_of_alike v hvw halike] at halike
  have hsame := halike.keys v
  rw [hkeys, hkeys'] at hsame
  exact List.map_inj_left.mp hsame

end Edited

end AgentFabric.Lib
