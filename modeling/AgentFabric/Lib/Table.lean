import Mathlib.Data.List.Basic
import Mathlib.Data.List.Nodup

/-!
# Keyed tables

A table is a list of keyed rows in insertion order; the primary key is unique by construction.
-/

namespace AgentFabric.Lib

/-- Rows under unique keys, in insertion order. -/
structure Table (κ : Type) (α : Type) where
  rows : List (κ × α)
  nodup : (rows.map Prod.fst).Nodup
deriving DecidableEq

namespace Table

variable {κ α : Type} [DecidableEq κ]

/-- The table without rows. -/
def empty : Table κ α := ⟨[], List.nodup_nil⟩

/-- The row under a key. -/
def get? (t : Table κ α) (k : κ) : Option α := (t.rows.find? fun e => decide (e.1 = k)).map Prod.snd

/-- Some row satisfies the condition. -/
def any (t : Table κ α) (p : κ → α → Bool) : Bool := t.rows.any fun e => p e.1 e.2

/-- The keys of the rows that satisfy the condition, in insertion order. -/
def keysWhere (t : Table κ α) (p : κ → α → Bool) : List κ := (t.rows.filter fun e => p e.1 e.2).map Prod.fst

/-- One row rewritten when the condition selects it. -/
def rewrite (p : κ → α → Bool) (f : α → α) (e : κ × α) : κ × α := (e.1, if p e.1 e.2 then f e.2 else e.2)

/-- Every selected row is rewritten. -/
def updateWhere (t : Table κ α) (p : κ → α → Bool) (f : α → α) : Table κ α :=
  ⟨t.rows.map (rewrite p f), by
    have h : (t.rows.map (rewrite p f)).map Prod.fst = t.rows.map Prod.fst := by
      simp [rewrite, Function.comp_def]
    rw [h]
    exact t.nodup⟩

/-- The row under a key is rewritten. -/
def modify (t : Table κ α) (k : κ) (f : α → α) : Table κ α := t.updateWhere (fun k' _ => decide (k' = k)) f

/-- A new row; none when the key is taken. -/
def insert? (t : Table κ α) (k : κ) (v : α) : Option (Table κ α) :=
  if h : k ∈ t.rows.map Prod.fst then none
  else some ⟨t.rows ++ [(k, v)], by
    rw [List.map_append, List.nodup_append]
    refine ⟨t.nodup, by simp, ?_⟩
    intro a ha b hb
    simp only [List.map_cons, List.map_nil, List.mem_singleton] at hb
    rintro rfl
    exact h (hb ▸ ha)⟩

/-- New rows, one after another; none when a key is taken. -/
def insertAll? (t : Table κ α) : List (κ × α) → Option (Table κ α)
  | [] => some t
  | e :: es => (t.insert? e.1 e.2).bind fun t' => t'.insertAll? es

/-- The row under a key is replaced, or added when there is none. -/
def upsert (t : Table κ α) (k : κ) (v : α) : Table κ α :=
  (t.insert? k v).getD (t.modify k fun _ => v)

/-- Every row seen through a function. -/
def mapRows {β : Type} (t : Table κ α) (f : α → β) : Table κ β :=
  ⟨t.rows.map fun e => (e.1, f e.2), by
    rw [List.map_map]
    exact t.nodup⟩

/-! ## Reading -/

@[simp] theorem get?_empty (k : κ) : (empty : Table κ α).get? k = none := rfl

variable {t t' : Table κ α} {k : κ} {v : α}

/-- Under unique keys, the rows are exactly what the keys return. -/
theorem mem_rows : (k, v) ∈ t.rows ↔ t.get? k = some v := by
  obtain ⟨rows, nodup⟩ := t
  simp only [get?]
  induction rows with
  | nil => simp
  | cons e es ih =>
    rw [List.map_cons, List.nodup_cons] at nodup
    by_cases he : e.1 = k
    · have hes : (k, v) ∉ es := fun h => nodup.1 (List.mem_map.mpr ⟨(k, v), h, he.symm⟩)
      simp only [List.mem_cons, hes, or_false, List.find?_cons, he, decide_true, Option.map_some,
        Option.some.injEq]
      constructor
      · rintro rfl; rfl
      · rintro rfl; rw [← he]
    · have hk : (k, v) ≠ e := fun h => he (by rw [← h])
      simp only [List.mem_cons, hk, false_or, List.find?_cons, he, decide_false]
      exact ih nodup.2

theorem mem_keys : k ∈ t.rows.map Prod.fst ↔ ∃ v, t.get? k = some v := by
  simp only [List.mem_map]
  constructor
  · rintro ⟨⟨k', v⟩, hm, rfl⟩
    exact ⟨v, mem_rows.mp hm⟩
  · rintro ⟨v, hv⟩
    exact ⟨(k, v), mem_rows.mpr hv, rfl⟩

variable {p : κ → α → Bool}

theorem any_eq_true :
    t.any p = true ↔ ∃ k v, t.get? k = some v ∧ p k v = true := by
  simp only [any, List.any_eq_true]
  constructor
  · rintro ⟨⟨k, v⟩, hm, hp⟩
    exact ⟨k, v, mem_rows.mp hm, hp⟩
  · rintro ⟨k, v, hg, hp⟩
    exact ⟨(k, v), mem_rows.mpr hg, hp⟩

theorem any_eq_false :
    t.any p = false ↔ ∀ k v, t.get? k = some v → p k v = false := by
  rw [← Bool.not_eq_true, any_eq_true]
  simp

/-! ## Writing -/

theorem get?_updateWhere (t : Table κ α) (p : κ → α → Bool) (f : α → α) (k : κ) :
    (t.updateWhere p f).get? k = (t.get? k).map fun v => if p k v then f v else v := by
  simp only [get?, updateWhere]
  induction t.rows with
  | nil => rfl
  | cons e es ih =>
    by_cases he : e.1 = k
    · subst he
      simp [rewrite]
    · simp only [List.map_cons, List.find?_cons, rewrite, he, decide_false]
      exact ih

@[simp] theorem get?_modify (t : Table κ α) (k k' : κ) (f : α → α) :
    (t.modify k f).get? k' = if k' = k then (t.get? k').map f else t.get? k' := by
  rw [modify, get?_updateWhere]
  by_cases h : k' = k
  · simp [h]
  · simp [h]

theorem get?_modify_self (t : Table κ α) (k : κ) (f : α → α) : (t.modify k f).get? k = (t.get? k).map f := by
  simp

theorem get?_modify_ne (t : Table κ α) {k' : κ} (f : α → α) (h : k' ≠ k) :
    (t.modify k f).get? k' = t.get? k' := by
  simp [h]

theorem insert?_eq_none : t.insert? k v = none ↔ ∃ w, t.get? k = some w := by
  rw [← mem_keys, insert?]
  split <;> simp_all

theorem insert?_fresh (h : t.insert? k v = some t') : t.get? k = none := by
  cases hg : t.get? k with
  | none => rfl
  | some w =>
    rw [insert?_eq_none.mpr ⟨w, hg⟩] at h
    cases h

theorem insert?_of_fresh (v : α) (h : t.get? k = none) : ∃ t', t.insert? k v = some t' := by
  refine Option.ne_none_iff_exists'.mp fun hnone => ?_
  obtain ⟨w, hw⟩ := insert?_eq_none.mp hnone
  rw [h] at hw
  cases hw

theorem insert?_rows (h : t.insert? k v = some t') :
    t'.rows = t.rows ++ [(k, v)] := by
  unfold insert? at h
  split at h
  · cases h
  · cases h
    rfl

theorem get?_insert (h : t.insert? k v = some t') (k' : κ) :
    t'.get? k' = if k' = k then some v else t.get? k' := by
  have hfresh := insert?_fresh h
  have hrows := insert?_rows h
  by_cases hk : k' = k
  · subst hk
    rw [if_pos rfl, ← mem_rows, hrows]
    simp
  · rw [if_neg hk]
    unfold get?
    rw [hrows, List.find?_append]
    have hne : ¬ k = k' := fun e => hk e.symm
    simp [hne]

theorem get?_upsert (t : Table κ α) (k k' : κ) (v : α) :
    (t.upsert k v).get? k' = if k' = k then some v else t.get? k' := by
  unfold upsert
  cases h : t.insert? k v with
  | some => exact get?_insert h k'
  | none =>
    obtain ⟨w, hw⟩ := insert?_eq_none.mp h
    by_cases hk : k' = k
    · subst hk
      simp [hw]
    · simp [hk]

variable {es : List (κ × α)}

theorem insertAll?_rows (h : t.insertAll? es = some t') :
    t'.rows = t.rows ++ es := by
  induction es generalizing t with
  | nil =>
    cases h
    simp
  | cons e es ih =>
    obtain ⟨t₁, h₁, h₂⟩ := Option.bind_eq_some_iff.mp h
    rw [ih h₂, insert?_rows h₁, List.append_assoc]
    rfl

theorem insertAll?_of_fresh (hn : (es.map Prod.fst).Nodup) (h : ∀ e ∈ es, t.get? e.1 = none) :
    ∃ t', t.insertAll? es = some t' := by
  induction es generalizing t with
  | nil => exact ⟨t, rfl⟩
  | cons e es ih =>
    obtain ⟨hne, hn⟩ := List.nodup_cons.mp hn
    obtain ⟨t₁, h₁⟩ := insert?_of_fresh e.2 (h e List.mem_cons_self)
    have hrest : ∀ e' ∈ es, t₁.get? e'.1 = none := by
      intro e' he'
      have hk : e'.1 ≠ e.1 := fun hk => hne (hk ▸ List.mem_map_of_mem he')
      rw [get?_insert h₁, if_neg hk]
      exact h e' (List.mem_cons_of_mem _ he')
    obtain ⟨t₂, h₂⟩ := ih hn hrest
    exact ⟨t₂, Option.bind_eq_some_iff.mpr ⟨t₁, h₁, h₂⟩⟩

theorem get?_insertAll (h : t.insertAll? es = some t') :
    t'.get? k = some v ↔ t.get? k = some v ∨ (k, v) ∈ es := by
  rw [← mem_rows, ← mem_rows, insertAll?_rows h, List.mem_append]

omit [DecidableEq κ] in
theorem ext_rows (h : t.rows = t'.rows) : t = t' := by
  cases t
  cases t'
  cases h
  rfl

theorem get?_mapRows {β : Type} (t : Table κ α) (f : α → β) (k : κ) : (t.mapRows f).get? k = (t.get? k).map f := by
  simp only [get?, mapRows]
  induction t.rows with
  | nil => rfl
  | cons e es ih =>
    by_cases he : e.1 = k
    · simp [he]
    · simpa [he] using ih

theorem mapRows_modify {β : Type} {f : α → β} {g : α → α} {g' : β → β} (h : ∀ v, f (g v) = g' (f v)) :
    (t.modify k g).mapRows f = (t.mapRows f).modify k g' := by
  apply ext_rows
  simp only [modify, updateWhere, mapRows, List.map_map]
  refine List.map_congr_left fun e _ => ?_
  by_cases he : e.1 = k
  · simp [rewrite, he, h]
  · simp [rewrite, he]

theorem mapRows_upsert {β : Type} (t : Table κ α) (f : α → β) (k : κ) (v : α) :
    (t.upsert k v).mapRows f = (t.mapRows f).upsert k (f v) := by
  unfold upsert
  cases h : t.insert? k v with
  | none =>
    obtain ⟨w, hw⟩ := insert?_eq_none.mp h
    have h' : (t.mapRows f).insert? k (f v) = none := insert?_eq_none.mpr ⟨f w, by rw [get?_mapRows, hw]; rfl⟩
    rw [h', Option.getD_none, Option.getD_none]
    exact mapRows_modify fun _ => rfl
  | some t' =>
    have hfresh : (t.mapRows f).get? k = none := by rw [get?_mapRows, insert?_fresh h]; rfl
    cases h' : (t.mapRows f).insert? k (f v) with
    | none =>
      obtain ⟨w, hw⟩ := insert?_eq_none.mp h'
      rw [hfresh] at hw
      cases hw
    | some t'' =>
      apply ext_rows
      show t'.rows.map _ = t''.rows
      rw [insert?_rows h, insert?_rows h', List.map_append]
      rfl

theorem modify_congr {f g : α → α} (h : ∀ v, t.get? k = some v → f v = g v) :
    t.modify k f = t.modify k g := by
  apply ext_rows
  simp only [modify, updateWhere]
  refine List.map_congr_left fun e he => ?_
  simp only [rewrite, decide_eq_true_eq]
  split
  · rename_i hk
    rw [h e.2 (mem_rows.mp (hk ▸ he))]
  · rfl

theorem countP_modify {f : α → α} {p : α → Bool} (hp : ∀ v, p (f v) = p v) :
    (t.modify k f).rows.countP (fun e => p e.2) = t.rows.countP fun e => p e.2 := by
  simp only [modify, updateWhere, List.countP_map]
  refine List.countP_congr fun e _ => ?_
  simp only [Function.comp_apply, rewrite]
  split
  · rw [hp]
  · rfl

theorem countP_eq_of_get? {p : κ × α → Bool} (h : ∀ k v, p (k, v) = true → (t'.get? k = some v ↔ t.get? k = some v)) :
    t'.rows.countP p = t.rows.countP p := by
  rw [List.countP_eq_length_filter, List.countP_eq_length_filter]
  refine List.Perm.length_eq ((List.perm_ext_iff_of_nodup (t'.nodup.of_map.filter _) (t.nodup.of_map.filter _)).mpr ?_)
  rintro ⟨k, v⟩
  simp only [List.mem_filter, mem_rows]
  exact and_congr_left fun hp => h k v hp

theorem updateWhere_of_none {t : Table κ α} (f : α → α)
    (h : ∀ k v, t.get? k = some v → p k v = false) :
    t.updateWhere p f = t := by
  refine ext_rows ((List.map_congr_left fun e he => ?_).trans (List.map_id _))
  rw [rewrite, h e.1 e.2 (mem_rows.mp he)]
  rfl

theorem keysWhere_of_none {t : Table κ α} (h : ∀ k v, t.get? k = some v → p k v = false) :
    t.keysWhere p = [] := by
  rw [keysWhere, List.filter_eq_nil_iff.mpr fun e he => ?_, List.map_nil]
  simp [h e.1 e.2 (mem_rows.mp he)]

end Table

end AgentFabric.Lib
