import AgentFabric.Domain
import AgentFabric.Bridge.Model

/-!
# The round trip of an envelope

A receiver checks the whole envelope against the limits, of which the sender has checked the content of the payload
alone: inside the envelope the content lies two levels deeper, among eleven more items.
-/

namespace AgentFabric.Bridge

open AgentFabric.Lib

variable {F : FloatFormat}

/-! ## What is measured -/

mutual

/-- How many levels of containers a value has. -/
def depth {φ : Type} : Value φ → Nat
  | .list items => depthItems items
  | .dict entries => depthEntries entries
  | _ => 0

def depthItems {φ : Type} : List (Value φ) → Nat
  | [] => 0
  | v :: items => max (depth v + 1) (depthItems items)

def depthEntries {φ : Type} : List (Text × Value φ) → Nat
  | [] => 0
  | (_, v) :: entries => max (depth v + 1) (depthEntries entries)

end

mutual

/-- How many items the containers of a value hold. -/
def items {φ : Type} : Value φ → Nat
  | .list vs => vs.length + innerItems vs
  | .dict entries => entries.length + innerEntries entries
  | _ => 0

def innerItems {φ : Type} : List (Value φ) → Nat
  | [] => 0
  | v :: vs => items v + innerItems vs

def innerEntries {φ : Type} : List (Text × Value φ) → Nat
  | [] => 0
  | (_, v) :: entries => items v + innerEntries entries

end

/-- A text that is sent in at most `maxStringBytes`. -/
def Short (limits : BridgeLimits) (s : Text) : Prop :=
  ∃ bytes, utf8Encode s = some bytes ∧ bytes.length ≤ limits.maxStringBytes

section Leaves

variable (F) (limits : BridgeLimits)

mutual

/-- The strings of a value are short, its numbers finite, and nothing in it is foreign. -/
def Leaves : Value F.Val → Prop
  | .str s => Short limits s
  | .float x => F.isFinite x = true
  | .list vs => LeavesItems vs
  | .dict entries => LeavesEntries entries
  | .foreign _ _ => False
  | _ => True

def LeavesItems : List (Value F.Val) → Prop
  | [] => True
  | v :: vs => Leaves v ∧ LeavesItems vs

def LeavesEntries : List (Text × Value F.Val) → Prop
  | [] => True
  | (_, v) :: entries => Leaves v ∧ LeavesEntries entries

end

end Leaves

section Visit

variable {limits : BridgeLimits}

mutual

/-- When `visit` accepts a value below `d` levels and after `count` items. -/
theorem visit_ok : (v : Value F.Val) → ∀ {d count n : Nat}, count ≤ limits.maxContainerItems →
    (visit limits v d count = .ok n ↔ d + depth v ≤ limits.maxDepth ∧
      count + items v ≤ limits.maxContainerItems ∧ Leaves F limits v ∧ n = count + items v)
  | .none, d, count, n, hc => by
    by_cases hd : limits.maxDepth < d
    · simp [visit, depth, items, Leaves, hd]
    · simp [visit, depth, items, Leaves, hd, hc, Nat.le_of_not_lt hd, eq_comm]
  | .bool _, d, count, n, hc => by
    by_cases hd : limits.maxDepth < d
    · simp [visit, depth, items, Leaves, hd]
    · simp [visit, depth, items, Leaves, hd, hc, Nat.le_of_not_lt hd, eq_comm]
  | .int _, d, count, n, hc => by
    by_cases hd : limits.maxDepth < d
    · simp [visit, depth, items, Leaves, hd]
    · simp [visit, depth, items, Leaves, hd, hc, Nat.le_of_not_lt hd, eq_comm]
  | .float x, d, count, n, hc => by
    by_cases hd : limits.maxDepth < d
    · simp [visit, depth, items, Leaves, hd]
    · by_cases hx : F.isFinite x = true
      · simp [visit, depth, items, Leaves, hd, hc, hx, Nat.le_of_not_lt hd, eq_comm]
      · simp [visit, Leaves, hd, hx]
  | .str s, d, count, n, hc => by
    by_cases hd : limits.maxDepth < d
    · simp [visit, depth, items, Leaves, hd]
    · cases hs : utf8Encode s with
      | none => simp [visit, Leaves, Short, hd, hs]
      | some bytes =>
        by_cases hlen : limits.maxStringBytes < bytes.length
        · simp [visit, Leaves, Short, hd, hs, hlen]
        · simp [visit, depth, items, Leaves, Short, hd, hs, hlen, hc, Nat.le_of_not_lt hd,
            Nat.le_of_not_lt hlen, eq_comm]
  | .list vs, d, count, n, hc => by
    by_cases hd : limits.maxDepth < d
    · simp [visit, hd]
      omega
    · by_cases hlen : limits.maxContainerItems < count + vs.length
      · simp [visit, items, hd, hlen]
        omega
      · simp only [visit, if_neg hd, if_neg hlen, depth, items, Leaves]
        rw [visitItems_ok vs (Nat.le_of_not_lt hd) (Nat.le_of_not_lt hlen), Nat.add_assoc]
  | .dict entries, d, count, n, hc => by
    by_cases hd : limits.maxDepth < d
    · simp [visit, hd]
      omega
    · by_cases hlen : limits.maxContainerItems < count + entries.length
      · simp [visit, items, hd, hlen]
        omega
      · simp only [visit, if_neg hd, if_neg hlen, depth, items, Leaves]
        rw [visitEntries_ok entries (Nat.le_of_not_lt hd) (Nat.le_of_not_lt hlen), Nat.add_assoc]
  | .foreign _ _, d, count, n, hc => by
    by_cases hd : limits.maxDepth < d <;> simp [visit, Leaves, hd]

theorem visitItems_ok : (vs : List (Value F.Val)) → ∀ {d count n : Nat}, d ≤ limits.maxDepth →
    count ≤ limits.maxContainerItems →
    (visitItems limits vs (d + 1) count = .ok n ↔ d + depthItems vs ≤ limits.maxDepth ∧
      count + innerItems vs ≤ limits.maxContainerItems ∧ LeavesItems F limits vs ∧ n = count + innerItems vs)
  | [], d, count, n, hd, hc => by
    simp [visitItems, depthItems, innerItems, LeavesItems, hd, hc, eq_comm]
  | v :: vs, d, count, n, hd, hc => by
    simp only [visitItems, depthItems, innerItems, LeavesItems, bind, Except.bind]
    cases h : visit limits v (d + 1) count with
    | error =>
      have hno : ∀ m, ¬ visit limits v (d + 1) count = .ok m := fun m hm => by rw [h] at hm; cases hm
      have := mt (visit_ok v hc).mpr (hno (count + items v))
      simp only [reduceCtorEq, false_iff]
      rintro ⟨h₁, h₂, h₃, h₄⟩
      exact this ⟨by omega, by omega, h₃.1, rfl⟩
    | ok =>
      obtain ⟨h₁, h₂, h₃, rfl⟩ := (visit_ok v hc).mp h
      simp only [visitItems_ok vs hd h₂]
      constructor
      · rintro ⟨g₁, g₂, g₃, rfl⟩
        exact ⟨by omega, by omega, ⟨h₃, g₃⟩, by omega⟩
      · rintro ⟨g₁, g₂, g₃, rfl⟩
        exact ⟨by omega, by omega, g₃.2, by omega⟩

theorem visitEntries_ok : (entries : List (Text × Value F.Val)) → ∀ {d count n : Nat}, d ≤ limits.maxDepth →
    count ≤ limits.maxContainerItems →
    (visitEntries limits entries (d + 1) count = .ok n ↔ d + depthEntries entries ≤ limits.maxDepth ∧
      count + innerEntries entries ≤ limits.maxContainerItems ∧ LeavesEntries F limits entries ∧
      n = count + innerEntries entries)
  | [], d, count, n, hd, hc => by
    simp [visitEntries, depthEntries, innerEntries, LeavesEntries, hd, hc, eq_comm]
  | (k, v) :: entries, d, count, n, hd, hc => by
    simp only [visitEntries, depthEntries, innerEntries, LeavesEntries, bind, Except.bind]
    cases h : visit limits v (d + 1) count with
    | error =>
      have hno : ∀ m, ¬ visit limits v (d + 1) count = .ok m := fun m hm => by rw [h] at hm; cases hm
      have := mt (visit_ok v hc).mpr (hno (count + items v))
      simp only [reduceCtorEq, false_iff]
      rintro ⟨h₁, h₂, h₃, h₄⟩
      exact this ⟨by omega, by omega, h₃.1, rfl⟩
    | ok =>
      obtain ⟨h₁, h₂, h₃, rfl⟩ := (visit_ok v hc).mp h
      simp only [visitEntries_ok entries hd h₂]
      constructor
      · rintro ⟨g₁, g₂, g₃, rfl⟩
        exact ⟨by omega, by omega, ⟨h₃, g₃⟩, by omega⟩
      · rintro ⟨g₁, g₂, g₃, rfl⟩
        exact ⟨by omega, by omega, g₃.2, by omega⟩

end

end Visit

/-! ## Sorting keeps it -/

section Sorted

variable {φ : Type}

theorem depthEntries_le {entries : List (Text × Value φ)} {n : Nat} :
    depthEntries entries ≤ n ↔ ∀ e ∈ entries, depth e.2 + 1 ≤ n := by
  induction entries with
  | nil => simp [depthEntries]
  | cons e entries ih =>
    obtain ⟨k, v⟩ := e
    simp only [depthEntries, List.mem_cons, forall_eq_or_imp, ← ih]
    omega

theorem innerEntries_eq_sum (entries : List (Text × Value φ)) :
    innerEntries entries = (entries.map fun e => items e.2).sum := by
  induction entries with
  | nil => rfl
  | cons e entries ih =>
    obtain ⟨k, v⟩ := e
    simp only [innerEntries, ih, List.map_cons, List.sum_cons]

theorem leavesEntries_iff {limits : BridgeLimits} {entries : List (Text × Value F.Val)} :
    LeavesEntries F limits entries ↔ ∀ e ∈ entries, Leaves F limits e.2 := by
  induction entries with
  | nil => simp [LeavesEntries]
  | cons e entries ih =>
    obtain ⟨k, v⟩ := e
    simp only [LeavesEntries, ih, List.mem_cons, forall_eq_or_imp]

theorem depthEntries_perm {es es' : List (Text × Value φ)} (h : es.Perm es') : depthEntries es = depthEntries es' := by
  have hle : ∀ {es es' : List (Text × Value φ)}, es.Perm es' → depthEntries es ≤ depthEntries es' := fun h =>
    depthEntries_le.mpr fun e he => depthEntries_le.mp (Nat.le_refl _) e (h.mem_iff.mp he)
  exact Nat.le_antisymm (hle h) (hle h.symm)

theorem innerEntries_perm {es es' : List (Text × Value φ)} (h : es.Perm es') : innerEntries es = innerEntries es' := by
  rw [innerEntries_eq_sum, innerEntries_eq_sum]
  exact (h.map _).sum_nat

mutual

theorem depth_sorted : (v : Value φ) → depth v.sorted = depth v
  | .none => rfl
  | .bool _ => rfl
  | .int _ => rfl
  | .float _ => rfl
  | .str _ => rfl
  | .list vs => depthItems_sorted vs
  | .dict entries => (depthEntries_perm (List.perm_insertionSort Value.keyLe _)).trans (depthEntries_sorted entries)
  | .foreign _ _ => rfl

theorem depthItems_sorted : (vs : List (Value φ)) → depthItems (Value.sortedItems vs) = depthItems vs
  | [] => rfl
  | v :: vs => by simp only [Value.sortedItems, depthItems, depth_sorted v, depthItems_sorted vs]

theorem depthEntries_sorted : (entries : List (Text × Value φ)) →
    depthEntries (Value.sortedEntries entries) = depthEntries entries
  | [] => rfl
  | (_, v) :: entries => by
    simp only [Value.sortedEntries, depthEntries, depth_sorted v, depthEntries_sorted entries]

end

theorem sortedItems_length (vs : List (Value φ)) : (Value.sortedItems vs).length = vs.length := by
  induction vs with
  | nil => rfl
  | cons v vs ih => simp only [Value.sortedItems, List.length_cons, ih]

theorem sort_length (entries : List (Text × Value φ)) :
    ((Value.sortedEntries entries).insertionSort Value.keyLe).length = entries.length := by
  rw [List.length_insertionSort, Value.sortedEntries_eq_map, List.length_map]

mutual

theorem items_sorted : (v : Value φ) → items v.sorted = items v
  | .none => rfl
  | .bool _ => rfl
  | .int _ => rfl
  | .float _ => rfl
  | .str _ => rfl
  | .list vs => by simp only [Value.sorted, items, sortedItems_length, innerItems_sorted vs]
  | .dict entries => by
    simp only [Value.sorted, items, sort_length]
    rw [innerEntries_perm (List.perm_insertionSort Value.keyLe _), innerEntries_sorted entries]
  | .foreign _ _ => rfl

theorem innerItems_sorted : (vs : List (Value φ)) → innerItems (Value.sortedItems vs) = innerItems vs
  | [] => rfl
  | v :: vs => by simp only [Value.sortedItems, innerItems, items_sorted v, innerItems_sorted vs]

theorem innerEntries_sorted : (entries : List (Text × Value φ)) →
    innerEntries (Value.sortedEntries entries) = innerEntries entries
  | [] => rfl
  | (_, v) :: entries => by
    simp only [Value.sortedEntries, innerEntries, items_sorted v, innerEntries_sorted entries]

end

end Sorted

section Leaves

variable {limits : BridgeLimits}

mutual

theorem leaves_sorted : (v : Value F.Val) → (Leaves F limits v.sorted ↔ Leaves F limits v)
  | .none => Iff.rfl
  | .bool _ => Iff.rfl
  | .int _ => Iff.rfl
  | .float _ => Iff.rfl
  | .str _ => Iff.rfl
  | .list vs => leavesItems_sorted vs
  | .dict entries => by
    simp only [Value.sorted, Leaves]
    rw [leavesEntries_iff, ← leavesEntries_sorted entries, leavesEntries_iff]
    exact forall_congr' fun e => by rw [(List.perm_insertionSort Value.keyLe _).mem_iff]
  | .foreign _ _ => Iff.rfl

theorem leavesItems_sorted : (vs : List (Value F.Val)) →
    (LeavesItems F limits (Value.sortedItems vs) ↔ LeavesItems F limits vs)
  | [] => Iff.rfl
  | v :: vs => by simp only [Value.sortedItems, LeavesItems, leaves_sorted v, leavesItems_sorted vs]

theorem leavesEntries_sorted : (entries : List (Text × Value F.Val)) →
    (LeavesEntries F limits (Value.sortedEntries entries) ↔ LeavesEntries F limits entries)
  | [] => Iff.rfl
  | (_, v) :: entries => by
    simp only [Value.sortedEntries, LeavesEntries, leaves_sorted v, leavesEntries_sorted entries]

end

end Leaves

/-! ## Sending and receiving -/

section Receive

variable {limits : BridgeLimits}

variable {d d' : Datum F.Val} {bytes : List Byte}

theorem canonicalJsonBytes_ok :
    canonicalJsonBytes d = .ok bytes ↔ ∃ s, dumps F d.value = some s ∧ utf8Encode s = some bytes := by
  unfold canonicalJsonBytes
  cases hs : dumps F d.value with
  | none => simp
  | some s => cases hb : utf8Encode s <;> simp [hb]

theorem canonicalJsonBytes_same (h : d.value.Same d'.value) :
    canonicalJsonBytes d = canonicalJsonBytes d' := by
  have hdumps : dumps F d.value = dumps F d'.value := congrArg (render F) h
  rw [canonicalJsonBytes, canonicalJsonBytes, hdumps]

mutual

theorem tree_of_leaves : (v : Value F.Val) → v.Distinct → Leaves F limits v → v.Tree
  | .none, _, _ => trivial
  | .bool _, _, _ => trivial
  | .int _, _, _ => trivial
  | .float _, _, _ => trivial
  | .str _, _, _ => trivial
  | .list vs, hd, hl => treeItems_of_leaves vs hd hl
  | .dict entries, hd, hl => ⟨hd.1, treeEntries_of_leaves entries hd.2 hl⟩
  | .foreign _ _, _, hl => hl.elim

theorem treeItems_of_leaves : (vs : List (Value F.Val)) → Value.FormedItems True vs → LeavesItems F limits vs →
    Value.FormedItems False vs
  | [], _, _ => trivial
  | v :: vs, hd, hl => ⟨tree_of_leaves v hd.1 hl.1, treeItems_of_leaves vs hd.2 hl.2⟩

theorem treeEntries_of_leaves : (entries : List (Text × Value F.Val)) → Value.FormedEntries True entries →
    LeavesEntries F limits entries → Value.FormedEntries False entries
  | [], _, _ => trivial
  | (_, v) :: entries, hd, hl => ⟨tree_of_leaves v hd.1 hl.1, treeEntries_of_leaves entries hd.2 hl.2⟩

end

theorem validateJson_payload :
    validateJson limits d true = .ok d' ↔ d' = d ∧ depth d.value ≤ limits.maxDepth ∧
      items d.value ≤ limits.maxContainerItems ∧ Leaves F limits d.value ∧
      ∃ bytes, canonicalJsonBytes d = .ok bytes ∧ bytes.length ≤ limits.maxPayloadBytes := by
  simp only [validateJson, bind_eq_ok, visit_ok d.value (Nat.zero_le _), Nat.zero_add, if_true]
  constructor
  · rintro ⟨n, ⟨h₁, h₂, h₃, -⟩, bytes, hbytes, h⟩
    split at h
    · cases h
    · next hlen =>
      cases h
      exact ⟨rfl, h₁, h₂, h₃, bytes, hbytes, Nat.le_of_not_lt hlen⟩
  · rintro ⟨rfl, h₁, h₂, h₃, bytes, hbytes, hlen⟩
    exact ⟨_, ⟨h₁, h₂, h₃, rfl⟩, bytes, hbytes, by rw [if_neg (Nat.not_lt_of_le hlen)]⟩

theorem validateJson_whole :
    validateJson limits d false = .ok d' ↔ d' = d ∧ depth d.value ≤ limits.maxDepth ∧
      items d.value ≤ limits.maxContainerItems ∧ Leaves F limits d.value := by
  simp only [validateJson, bind_eq_ok, visit_ok d.value (Nat.zero_le _), Nat.zero_add, Bool.false_eq_true, if_false,
    Except.ok.injEq]
  constructor
  · rintro ⟨n, ⟨h₁, h₂, h₃, -⟩, rfl⟩
    exact ⟨rfl, h₁, h₂, h₃⟩
  · rintro ⟨rfl, h₁, h₂, h₃⟩
    exact ⟨_, ⟨h₁, h₂, h₃, rfl⟩, rfl⟩

theorem nonEmpty_str {s : Text} {field : String} {x : NonEmpty} :
    nonEmpty (F := F) (.str s) field = .ok x ↔ x.val = s := by
  obtain ⟨t, ht⟩ := x
  simp only [nonEmpty, Datum.str]
  split
  · next h =>
    simp only [Except.ok.injEq, Subtype.mk.injEq]
    exact eq_comm
  · next h =>
    simp only [reduceCtorEq, false_iff]
    rintro rfl
    exact h ht

variable {a a' : StructuredArtifact F}

/-- What `fromProtocol` accepts, and what it returns. -/
theorem fromProtocol_ok :
    StructuredArtifact.fromProtocol d limits = .ok a ↔
      (d.keys?.map (sameKeys · artifactFields)) = some true ∧
      validateJson limits (d.get (lit "content")) true = .ok a.content ∧
      nonEmpty (d.get (lit "artifactID")) "artifactID" = .ok a.artifactId ∧
      nonEmpty (d.get (lit "artifactType")) "artifactType" = .ok a.artifactType := by
  unfold StructuredArtifact.fromProtocol
  split
  · next entries heq =>
    have hk : d.keys? = some (entries.map Prod.fst) := by simp only [Datum.keys?, heq]
    rw [hk, Option.map_some, Option.some.injEq]
    split
    · next hkeys =>
      simp only [bind_eq_ok, hkeys, true_and, Except.ok.injEq]
      constructor
      · rintro ⟨content, hc, i, hi, t, ht, rfl⟩
        exact ⟨hc, hi, ht⟩
      · rintro ⟨hc, hi, ht⟩
        exact ⟨_, hc, _, hi, _, ht, rfl⟩
    · next hkeys => simp [hkeys]
  · next heq =>
    have hk : d.keys? = none := by simp only [Datum.keys?, heq]
    simp [hk]
  · next hno hno' =>
    have hk : d.keys? = none := by
      unfold Datum.keys?
      split
      · next entries heq => exact absurd heq (hno entries)
      · rfl
    simp [hk]

theorem fromProtocol_toProtocol :
    StructuredArtifact.fromProtocol a.toProtocol limits = .ok a' ↔ a' = a ∧
      validateJson limits a.content true = .ok a.content := by
  have hkeys : (a.toProtocol.keys?.map (sameKeys · artifactFields)) = some true := rfl
  have hcontent : a.toProtocol.get (lit "content") = a.content := rfl
  have hid : a.toProtocol.get (lit "artifactID") = .str a.artifactId.val := rfl
  have htype : a.toProtocol.get (lit "artifactType") = .str a.artifactType.val := rfl
  rw [fromProtocol_ok, hcontent, hid, htype, nonEmpty_str, nonEmpty_str]
  constructor
  · rintro ⟨-, hc, hi, ht⟩
    have hc' := (validateJson_payload.mp hc).1
    obtain ⟨i, t, c⟩ := a
    obtain ⟨i', t', c'⟩ := a'
    obtain rfl : i' = i := Subtype.ext hi
    obtain rfl : t' = t := Subtype.ext ht
    obtain rfl : c' = c := hc'
    exact ⟨rfl, hc⟩
  · rintro ⟨rfl, hc⟩
    exact ⟨hkeys, hc, rfl, rfl⟩

/-- The texts that name the parties of an envelope, under their keys. -/
def BridgeEnvelope.identifiers (e : BridgeEnvelope F) : List (Text × Text) :=
  [(lit "bridgeVersion", e.bridgeVersion), (lit "codecID", e.codecId), (lit "messageID", e.messageId),
    (lit "senderID", e.senderId), (lit "receiverID", e.receiverId), (lit "taskID", e.taskId)]

theorem nonEmpty_ok {field : String} {x : NonEmpty} :
    nonEmpty d field = .ok x ↔ d.value = .str x.val := by
  constructor
  · intro h
    unfold nonEmpty at h
    split at h
    · next s hs =>
      split at h
      · cases h
        exact hs
      · cases h
    · cases h
  · intro h
    have hd : d = .str x.val := Datum.ext_value h
    rw [hd, nonEmpty_str]

variable {sha256Hex : List Byte → Text}

/-- What a receiver accepts, and what it returns. -/
theorem fromBytes_ok {encoded : List Byte} {e : BridgeEnvelope F} :
    BridgeEnvelope.fromBytes sha256Hex encoded limits = .ok e ↔
      encoded.length ≤ limits.maxEnvelopeBytes ∧ ∃ raw, BridgeEnvelope.parse encoded = .ok raw ∧
        (raw.keys?.map (sameKeys · envelopeFields)) = some true ∧ validateJson limits raw false = .ok raw ∧
        (∀ p ∈ e.identifiers, (raw.get p.1).value = .str p.2 ∧ strip p.2 ≠ []) ∧
        StructuredArtifact.fromProtocol (raw.get (lit "payload")) limits = .ok e.payload ∧
        ∃ hash, (raw.get (lit "envelopeSha256")).value = .str hash ∧ e.envelopeSha256 sha256Hex = .ok hash := by
  simp only [BridgeEnvelope.identifiers, List.forall_mem_cons, List.not_mem_nil, false_implies, implies_true, and_true]
  unfold BridgeEnvelope.fromBytes
  by_cases hlen : limits.maxEnvelopeBytes < encoded.length
  · simp [hlen]
  rw [if_neg hlen]
  simp only [Nat.le_of_not_lt hlen, true_and, bind_eq_ok]
  refine exists_congr fun raw => and_congr_right fun _ => ?_
  cases hkeys : raw.keys?.map (sameKeys · envelopeFields) with
  | none => simp
  | some b =>
    cases b with
    | false => simp
    | true =>
      simp only [Option.getD_some, Bool.true_eq_false, if_false, bind_eq_ok, nonEmpty_ok, true_and]
      constructor
      · rintro ⟨raw', hvalid, v, hv, c, hc, m, hm, s, hs, r, hr, t, ht, payload, hpayload, h⟩
        obtain rfl := (validateJson_whole.mp hvalid).1
        split at h
        · next supplied hsupplied =>
          obtain ⟨hash, hhash, h⟩ := bind_eq_ok.mp h
          split at h
          · next heq =>
            cases h
            exact ⟨hvalid, ⟨⟨hv, v.2⟩, ⟨hc, c.2⟩, ⟨hm, m.2⟩, ⟨hs, s.2⟩, ⟨hr, r.2⟩, ht, t.2⟩, hpayload, hash,
              by rw [hsupplied, heq], hhash⟩
          · cases h
        · cases h
      · rintro ⟨hvalid, ⟨hv, hc, hm, hs, hr, ht⟩, hpayload, hash, hsupplied, hhash⟩
        refine ⟨raw, hvalid, ⟨_, hv.2⟩, hv.1, ⟨_, hc.2⟩, hc.1, ⟨_, hm.2⟩, hm.1, ⟨_, hs.2⟩, hs.1, ⟨_, hr.2⟩, hr.1,
          ⟨_, ht.2⟩, ht.1, e.payload, hpayload, ?_⟩
        rw [hsupplied]
        exact bind_eq_ok.mpr ⟨hash, hhash, if_pos rfl⟩

theorem parse_canonicalJsonBytes {entries : List (Text × Value F.Val)} (hd : d.value = .dict entries)
    (htree : d.value.Tree) (h : canonicalJsonBytes d = .ok bytes) :
    BridgeEnvelope.parse bytes = .ok d.sorted := by
  obtain ⟨s, hs, hb⟩ := canonicalJsonBytes_ok.mp h
  rw [hd] at htree hs
  have hloads : loads F BridgeEnvelope.strictObject bytes = .ok (Value.dict entries).sorted :=
    loads_dumps BridgeEnvelope.strictObject_nodup htree hs hb
  unfold BridgeEnvelope.parse
  split
  · next v hv =>
    rw [hloads] at hv
    refine congrArg Except.ok (Datum.ext_value ?_)
    show v = d.value.sorted
    rw [hd]
    exact (Except.ok.inj hv).symm
  all_goals
    next hv =>
      rw [hloads] at hv
      cases hv

/-! ## The order of entries -/

theorem sameKeys_perm {expected ks ks' : List Text} (h : ks.Perm ks') :
    sameKeys ks expected = sameKeys ks' expected := by
  have hall : ks.all (· ∈ expected) = ks'.all (· ∈ expected) := by
    rw [Bool.eq_iff_iff, List.all_eq_true, List.all_eq_true]
    exact forall_congr' fun k => by rw [h.mem_iff]
  have hmem : expected.all (· ∈ ks) = expected.all (· ∈ ks') := by
    rw [Bool.eq_iff_iff, List.all_eq_true, List.all_eq_true]
    exact forall_congr' fun k => by simp only [decide_eq_true_eq, h.mem_iff]
  rw [sameKeys, sameKeys, hall, hmem]

def StructuredArtifact.sorted (a : StructuredArtifact F) : StructuredArtifact F :=
  { a with content := a.content.sorted }

def BridgeEnvelope.sorted (e : BridgeEnvelope F) : BridgeEnvelope F := { e with payload := e.payload.sorted }

/-- The same envelope: the order of entries does not count. -/
def BridgeEnvelope.Same (e e' : BridgeEnvelope F) : Prop := e.sorted = e'.sorted

theorem validateJson_sorted :
    validateJson limits d.sorted true = .ok d.sorted ↔ validateJson limits d true = .ok d := by
  rw [validateJson_payload, validateJson_payload]
  show _ ∧ depth d.value.sorted ≤ _ ∧ items d.value.sorted ≤ _ ∧ Leaves F limits d.value.sorted ∧ _ ↔ _
  rw [depth_sorted, items_sorted, leaves_sorted, canonicalJsonBytes_same (d := d.sorted) (Value.Same.sorted d.value)]
  simp only [true_and]

theorem fromProtocol_sorted :
    StructuredArtifact.fromProtocol a.toProtocol.sorted limits = .ok a' ↔ a' = a.sorted ∧
      validateJson limits a.content true = .ok a.content := by
  have hkeys : (a.toProtocol.keys?.map (sameKeys · artifactFields)) = some true := rfl
  have hcontent : a.toProtocol.sorted.get (lit "content") = a.content.sorted := Datum.get_sorted _ _
  have hid : a.toProtocol.sorted.get (lit "artifactID") = .str a.artifactId.val := Datum.get_sorted _ _
  have htype : a.toProtocol.sorted.get (lit "artifactType") = .str a.artifactType.val := Datum.get_sorted _ _
  rw [← validateJson_sorted]
  have h := @fromProtocol_toProtocol F limits a.sorted a'
  rw [fromProtocol_ok] at h ⊢
  rw [Datum.keys?_sorted _ _ fun ks ks' => sameKeys_perm, hcontent, hid, htype]
  exact h

/-! ## The envelope as a whole -/

variable (sha256Hex limits)

/-- The envelope is within the limits of a receiver, and its identifiers are not blank. -/
structure Fits (e : BridgeEnvelope F) : Prop where
  depth : depth e.payload.content.value + 2 ≤ limits.maxDepth
  items : items e.payload.content.value + 11 ≤ limits.maxContainerItems
  identifiers : ∀ p ∈ e.identifiers, Short limits p.2 ∧ strip p.2 ≠ []
  artifactId : Short limits e.payload.artifactId.val
  artifactType : Short limits e.payload.artifactType.val
  hash : ∀ hash, e.envelopeSha256 sha256Hex = .ok hash → Short limits hash

variable {sha256Hex limits}

theorem toBytes_ok {e : BridgeEnvelope F} (h : e.toBytes sha256Hex limits = .ok bytes) :
    ∃ hash hn, e.envelopeSha256 sha256Hex = .ok hash ∧
      canonicalJsonBytes (Datum.dict (e.entries hash) hn) = .ok bytes ∧ bytes.length ≤ limits.maxEnvelopeBytes := by
  obtain ⟨protocol, hprotocol, h⟩ := bind_eq_ok.mp h
  obtain ⟨hash, hhash, hd⟩ := bind_eq_ok.mp hprotocol
  cases hd
  obtain ⟨encoded, hencoded, h⟩ := bind_eq_ok.mp h
  split at h
  · cases h
  · next hlen =>
    cases h
    exact ⟨hash, _, hhash, hencoded, Nat.le_of_not_lt hlen⟩

theorem envelopeSha256_sorted (e : BridgeEnvelope F) :
    e.sorted.envelopeSha256 sha256Hex = e.envelopeSha256 sha256Hex := by
  have hsame : e.sorted.bodyProtocol.value.Same e.bodyProtocol.value := by
    simp [Value.Same, BridgeEnvelope.bodyProtocol, BridgeEnvelope.bodyEntries, BridgeEnvelope.sorted, Datum.dict,
      StructuredArtifact.toProtocol, StructuredArtifact.sorted, Datum.sorted, Datum.str, Value.sorted,
      Value.sortedEntries, Value.sorted_sorted]
  rw [BridgeEnvelope.envelopeSha256, BridgeEnvelope.envelopeSha256, canonicalJsonBytes_same hsame]

section Envelope

variable {e : BridgeEnvelope F} {hash : Text} {hn : ((e.entries hash).map Prod.fst).Nodup}

theorem envelope_depth : depth (Datum.dict (e.entries hash) hn).value = depth e.payload.content.value + 2 := by
  simp [BridgeEnvelope.entries, BridgeEnvelope.bodyEntries, StructuredArtifact.toProtocol, Datum.dict, Datum.str, depth,
    depthEntries]

theorem envelope_items : items (Datum.dict (e.entries hash) hn).value = items e.payload.content.value + 11 := by
  simp [BridgeEnvelope.entries, BridgeEnvelope.bodyEntries, StructuredArtifact.toProtocol, Datum.dict, Datum.str, items,
    innerEntries]
  omega

theorem envelope_leaves : Leaves F limits (Datum.dict (e.entries hash) hn).value ↔
    (∀ p ∈ e.identifiers, Short limits p.2) ∧ Short limits e.payload.artifactId.val ∧
      Short limits e.payload.artifactType.val ∧ Leaves F limits e.payload.content.value ∧ Short limits hash := by
  simp [BridgeEnvelope.entries, BridgeEnvelope.bodyEntries, BridgeEnvelope.identifiers, StructuredArtifact.toProtocol,
    Datum.dict, Datum.str, Leaves, LeavesEntries, and_assoc]

theorem envelope_tree (h : Leaves F limits e.payload.content.value) : (Datum.dict (e.entries hash) hn).value.Tree := by
  have hcontent := tree_of_leaves e.payload.content.value e.payload.content.distinct h
  refine ⟨by rw [List.map_map]; exact hn, ?_⟩
  simp only [BridgeEnvelope.entries, BridgeEnvelope.bodyEntries, List.cons_append, List.nil_append, List.map_cons,
    List.map_nil, Value.FormedEntries, Datum.str, Value.Formed, true_and, and_true]
  exact ⟨artifactFields_nodup, trivial, trivial, hcontent, trivial⟩

/-- What a receiver makes of the bytes of an envelope. -/
theorem fromBytes_sent {bytes : List Byte} (hvalid : validateJson limits e.payload.content true = .ok e.payload.content)
    (hsent : e.toBytes sha256Hex limits = .ok bytes) {e' : BridgeEnvelope F} :
    BridgeEnvelope.fromBytes sha256Hex bytes limits = .ok e' ↔ Fits limits sha256Hex e ∧ e' = e.sorted := by
  obtain ⟨hash, hn, hhash, hbytes, hlen⟩ := toBytes_ok hsent
  obtain ⟨-, -, -, hleaves, -⟩ := validateJson_payload.mp hvalid
  have htree : (Datum.dict (e.entries hash) hn).value.Tree := envelope_tree hleaves
  have hparse := parse_canonicalJsonBytes rfl htree hbytes
  have hkeys : ((Datum.dict (e.entries hash) hn).sorted.keys?.map (sameKeys · envelopeFields)) = some true :=
    (Datum.keys?_sorted _ _ fun ks ks' => sameKeys_perm).trans rfl
  have hget : ∀ key, (Datum.dict (e.entries hash) hn).sorted.get key =
      ((Datum.dict (e.entries hash) hn).get key).sorted := Datum.get_sorted _
  have hwhole : validateJson limits (Datum.dict (e.entries hash) hn).sorted false =
      .ok (Datum.dict (e.entries hash) hn).sorted ↔ depth e.payload.content.value + 2 ≤ limits.maxDepth ∧
        items e.payload.content.value + 11 ≤ limits.maxContainerItems ∧
        (∀ p ∈ e.identifiers, Short limits p.2) ∧ Short limits e.payload.artifactId.val ∧
          Short limits e.payload.artifactType.val ∧ Short limits hash := by
    rw [validateJson_whole]
    show _ ∧ depth (Value.sorted _) ≤ _ ∧ items (Value.sorted _) ≤ _ ∧ Leaves F limits (Value.sorted _) ↔ _
    rw [depth_sorted, items_sorted, leaves_sorted, envelope_depth, envelope_items, envelope_leaves]
    simp only [true_and, hleaves]
  rw [fromBytes_ok]
  constructor
  · rintro ⟨-, raw, hraw, -, hall, hids, hpayload, -⟩
    obtain rfl : (Datum.dict (e.entries hash) hn).sorted = raw := Except.ok.inj (hparse.symm.trans hraw)
    obtain ⟨hdepth, hitems, hshort, hid, htype, hhash'⟩ := hwhole.mp hall
    simp only [hget] at hids hpayload
    obtain ⟨hp, -⟩ := fromProtocol_sorted.mp hpayload
    simp only [BridgeEnvelope.identifiers, List.forall_mem_cons, List.not_mem_nil, false_implies, implies_true,
      and_true] at hids
    obtain ⟨⟨hv, hv'⟩, ⟨hc, hc'⟩, ⟨hm, hm'⟩, ⟨hs, hs'⟩, ⟨hr, hr'⟩, ht, ht'⟩ := hids
    have he : e' = e.sorted := by
      obtain ⟨v, c, m, s, r, t, p⟩ := e'
      obtain rfl : e.bridgeVersion = v := Value.str.inj hv
      obtain rfl : e.codecId = c := Value.str.inj hc
      obtain rfl : e.messageId = m := Value.str.inj hm
      obtain rfl : e.senderId = s := Value.str.inj hs
      obtain rfl : e.receiverId = r := Value.str.inj hr
      obtain rfl : e.taskId = t := Value.str.inj ht
      obtain rfl : p = e.payload.sorted := hp
      rfl
    subst he
    refine ⟨⟨hdepth, hitems, fun p hp => ⟨hshort p hp, ?_⟩, hid, htype, fun h hh => ?_⟩, rfl⟩
    · simp only [BridgeEnvelope.identifiers, List.mem_cons, List.not_mem_nil, or_false] at hp
      rcases hp with rfl | rfl | rfl | rfl | rfl | rfl
      · exact hv'
      · exact hc'
      · exact hm'
      · exact hs'
      · exact hr'
      · exact ht'
    · obtain rfl : hash = h := Except.ok.inj (hhash.symm.trans hh)
      exact hhash'
  · rintro ⟨hfits, rfl⟩
    refine ⟨hlen, _, hparse, hkeys, hwhole.mpr ⟨hfits.depth, hfits.items, fun p hp => (hfits.identifiers p hp).1,
      hfits.artifactId, hfits.artifactType, hfits.hash hash hhash⟩, ?_, ?_, hash, ?_, ?_⟩
    · intro p hp
      refine ⟨?_, (hfits.identifiers p hp).2⟩
      rw [hget]
      simp only [BridgeEnvelope.identifiers, BridgeEnvelope.sorted, List.mem_cons, List.not_mem_nil, or_false] at hp
      rcases hp with rfl | rfl | rfl | rfl | rfl | rfl <;> rfl
    · rw [hget]
      exact fromProtocol_sorted.mpr ⟨rfl, hvalid⟩
    · rw [hget]
      rfl
    · rw [envelopeSha256_sorted]
      exact hhash

end Envelope

/-- **Round trip.** The bytes of an envelope whose payload is valid come back as the same envelope exactly when the
envelope as a whole is within the limits; and what a receiver accepts from anywhere has the hash that it carried. -/
theorem envelope_round_trip :
    (∀ (e : BridgeEnvelope F) (payload : StructuredArtifact F) (bytes : List Byte),
      StructuredArtifact.fromProtocol e.payload.toProtocol limits = .ok payload →
      e.toBytes sha256Hex limits = .ok bytes →
      ((∃ e', BridgeEnvelope.fromBytes sha256Hex bytes limits = .ok e' ∧ e'.Same e) ↔ Fits limits sha256Hex e) ∧
        (¬ Fits limits sha256Hex e → ∃ r, BridgeEnvelope.fromBytes (F := F) sha256Hex bytes limits = .error r)) ∧
    ∀ (encoded : List Byte) (e' : BridgeEnvelope F), BridgeEnvelope.fromBytes sha256Hex encoded limits = .ok e' →
      ∃ (raw : Datum F.Val) (hash : Text), BridgeEnvelope.parse encoded = .ok raw ∧
        (raw.get (lit "envelopeSha256")).value = .str hash ∧ e'.envelopeSha256 sha256Hex = .ok hash := by
  constructor
  · intro e payload bytes hvalid hsent
    obtain ⟨-, hcontent⟩ := fromProtocol_toProtocol.mp hvalid
    refine ⟨⟨?_, ?_⟩, ?_⟩
    · rintro ⟨e', he', -⟩
      exact ((fromBytes_sent hcontent hsent).mp he').1
    · intro hfits
      refine ⟨e.sorted, (fromBytes_sent hcontent hsent).mpr ⟨hfits, rfl⟩, ?_⟩
      have hsorted : e.payload.content.sorted.sorted = e.payload.content.sorted :=
        Datum.ext_value (Value.sorted_sorted e.payload.content.value)
      simp only [BridgeEnvelope.Same, BridgeEnvelope.sorted, StructuredArtifact.sorted, hsorted]
    · intro hno
      cases h : BridgeEnvelope.fromBytes sha256Hex bytes limits with
      | error r => exact ⟨r, rfl⟩
      | ok e' => exact absurd ((fromBytes_sent hcontent hsent).mp h).1 hno
  · intro encoded e' he'
    obtain ⟨-, raw, hraw, -, -, -, -, hash, hcarried, hhash⟩ := fromBytes_ok.mp he'
    exact ⟨raw, hash, hraw, hcarried, hhash⟩

end Receive

/-! ## An envelope -/

def wholeText (n : Int) : NumberText := ⟨signText n, natText n.natAbs, lit ".0", []⟩

theorem wholeText_valid (n : Int) : (wholeText n).Valid where
  sign := signText_valid n
  int := natText_int _
  frac := .inr ⟨lit "0", rfl, (natText_digits 0)⟩
  exp := .inl rfl

/-- Floating-point numbers that are whole, and one that is not finite. -/
def wholeFloats : FloatFormat where
  Val := Option Int
  isFinite := Option.isSome
  repr
    | some n => (wholeText n).text
    | none => lit "nan"
  parse t := match scanNumber t with
    | some (m, []) => some (ofInt m)
    | _ => none
  nan := none
  infinity := none
  negInfinity := none
  repr_literal
    | some n, _ => ⟨wholeText n, wholeText_valid n, rfl, rfl⟩
  parse_repr
    | some n, _ => by
      have hscan := scanNumber_text (wholeText_valid n) (t := []) (fun c hc => by cases hc)
      rw [List.append_nil] at hscan
      simp only [hscan]
      exact congrArg some (ofInt_signText n _ _)

/-- The envelope of an artifact with a given content. -/
def note (content : Datum wholeFloats.Val) : BridgeEnvelope wholeFloats where
  bridgeVersion := lit "fabric-bridge/1.0"
  codecId := lit "identity-json/1.0"
  messageId := lit "m1"
  senderId := lit "a"
  receiverId := lit "b"
  taskId := lit "t1"
  payload := { artifactId := ⟨lit "a1", by decide⟩, artifactType := ⟨lit "note", by decide⟩, content := content }

/-- The digest of the body of a `note`. -/
def noteHash (hex : String) : List Byte → Text := fun _ => lit hex

instance {limits : BridgeLimits} {s : Text} : Decidable (Short limits s) :=
  decidable_of_iff ((utf8Encode s).any (·.length ≤ limits.maxStringBytes) = true) (by
    unfold Short
    cases utf8Encode s <;> simp)

theorem exists_of_isOk {ε α : Type} {x : Except ε α} (h : x.isOk = true) : ∃ a, x = .ok a := by
  cases x with
  | error => cases h
  | ok a => exact ⟨a, rfl⟩

def finding : Datum wholeFloats.Val where
  value := .dict [(lit "z", .list [.int 1, .float (some (2 : Int)), .str (lit "é\n")]), (lit "a", .none)]
  distinct := ⟨by decide, ⟨trivial, trivial, trivial, trivial⟩, trivial, trivial⟩

theorem envelope_round_trip_finding : ∃ bytes e',
    (note finding).toBytes (noteHash "2cbab6dfafb705d030021b252f3da0e10280134356eb5814000b7beaedab8591") {} =
      .ok bytes ∧
    BridgeEnvelope.fromBytes (noteHash "2cbab6dfafb705d030021b252f3da0e10280134356eb5814000b7beaedab8591") bytes {} =
      .ok e' ∧ e'.Same (note finding) := by
  obtain ⟨payload, hvalid⟩ := exists_of_isOk
    (x := StructuredArtifact.fromProtocol (note finding).payload.toProtocol {}) (by decide +kernel)
  obtain ⟨bytes, hsent⟩ := exists_of_isOk (x := (note finding).toBytes
    (noteHash "2cbab6dfafb705d030021b252f3da0e10280134356eb5814000b7beaedab8591") {}) (by decide +kernel)
  have hfits : Fits {} (noteHash "2cbab6dfafb705d030021b252f3da0e10280134356eb5814000b7beaedab8591") (note finding) :=
    { depth := by decide
      items := by decide
      identifiers := by decide +kernel
      artifactId := by decide
      artifactType := by decide
      hash := fun h hh => by
        obtain ⟨_, -, hh⟩ := bind_eq_ok.mp hh
        cases hh
        exact (by decide : Short {} (lit "2cbab6dfafb705d030021b252f3da0e10280134356eb5814000b7beaedab8591")) }
  obtain ⟨e', he', hsame⟩ := (envelope_round_trip.1 _ payload bytes hvalid hsent).1.mpr hfits
  exact ⟨bytes, e', hsent, he', hsame⟩

/-- Lists nested so deep. -/
def nested : Nat → Value wholeFloats.Val
  | 0 => .list []
  | n + 1 => .list [nested n]

theorem nested_distinct (n : Nat) : (nested n).Distinct := by
  induction n with
  | zero => trivial
  | succ n ih => exact ⟨ih, trivial⟩

def deepContent : Datum wholeFloats.Val := ⟨nested 15, nested_distinct 15⟩

/-- A content of fifteen levels is valid as a payload, and sent; inside the envelope it is too deep. -/
theorem deep_envelope_not_received : ∃ payload bytes,
    StructuredArtifact.fromProtocol (note deepContent).payload.toProtocol {} = .ok payload ∧
    (note deepContent).toBytes (noteHash "b2a9fbfe356ed61afb571c922ef681f787928eac95c00b55aab7f74eb366a34d") {} =
      .ok bytes ∧
    ¬ ∃ e', BridgeEnvelope.fromBytes (noteHash "b2a9fbfe356ed61afb571c922ef681f787928eac95c00b55aab7f74eb366a34d")
      bytes {} = .ok e' ∧ e'.Same (note deepContent) := by
  obtain ⟨payload, hvalid⟩ := exists_of_isOk
    (x := StructuredArtifact.fromProtocol (note deepContent).payload.toProtocol {}) (by decide +kernel)
  obtain ⟨bytes, hsent⟩ := exists_of_isOk (x := (note deepContent).toBytes
    (noteHash "b2a9fbfe356ed61afb571c922ef681f787928eac95c00b55aab7f74eb366a34d") {}) (by decide +kernel)
  refine ⟨payload, bytes, hvalid, hsent, ?_⟩
  rintro ⟨e', he', -⟩
  have hfits := ((fromBytes_sent (fromProtocol_toProtocol.mp hvalid).2 hsent).mp he').1
  exact absurd hfits.depth (by decide)

end AgentFabric.Bridge
