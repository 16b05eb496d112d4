import AgentFabric.Bootstrap.Reconcile
import AgentFabric.Lib.HashChain
import AgentFabric.Lib.JsonLeaves
import AgentFabric.Domain

/-!
# The audit log

Every row of the log is read back as the event that wrote it, and an insertion never meets an identifier in use.
-/

namespace AgentFabric.Bootstrap

open AgentFabric.Lib

variable {P : Platform}

/-! ## Texts -/

section Texts

/-- The digits of a hash. -/
def isHex (c : CodePoint) : Bool := isDigit c || decide (0x61 ≤ c.val ∧ c.val ≤ 0x66)

def Hex (t : Text) : Prop := ∀ c ∈ t, isHex c = true

variable {t : Text}

theorem Hex.not_mem (h : Hex t) {c : CodePoint} (hc : isHex c = false) : c ∉ t := by
  intro hmem
  rw [h c hmem] at hc
  cases hc

theorem Hex.plain (h : Hex t) : Plain t := by
  refine plain_of_lt fun c hc => ?_
  have hhex := h c hc
  simp only [isHex, Bool.or_eq_true, decide_eq_true_eq] at hhex
  rcases hhex with hd | hd
  · exact isDigit_lt hd
  · omega

theorem zeroHash_hex : Hex zeroHash := by
  intro c hc
  obtain rfl := List.eq_of_mem_replicate hc
  decide

theorem asciiAlnum_lt {c : CodePoint} (h : asciiAlnum c = true) : c.val < 0x80 := by
  simp only [asciiAlnum, asciiUpper, asciiLower, Bool.or_eq_true, decide_eq_true_eq] at h
  rcases h with (h | h) | h
  · omega
  · omega
  · exact isDigit_lt h

theorem isIdentifier_plain (h : isIdentifier t = true) : Plain t := by
  cases t with
  | nil => exact nofun
  | cons =>
    simp only [isIdentifier, Bool.and_eq_true, List.all_eq_true, Bool.or_eq_true, decide_eq_true_eq] at h
    obtain ⟨⟨hd, ht⟩, -⟩ := h
    refine plain_of_lt fun c hc => ?_
    rcases List.mem_cons.mp hc with rfl | hc
    · exact asciiAlnum_lt hd
    · rcases ht c hc with h | h
      · exact asciiAlnum_lt h
      · exact lt_of_mem_ascii rfl h

theorem capabilityRest_lt {separated : Bool} (h : capabilityRest separated t = true) :
    ∀ c ∈ t, c.val < 0x80 := by
  have hlower : ∀ {c : CodePoint}, (asciiLower c || isDigit c) = true → c.val < 0x80 := by
    intro c hc
    simp only [asciiLower, Bool.or_eq_true, decide_eq_true_eq] at hc
    rcases hc with hc | hc
    · omega
    · exact isDigit_lt hc
  fun_induction capabilityRest separated t with
  | case1 => exact nofun
  | case2 separated c =>
    rw [Bool.and_eq_true] at h
    intro d hd
    obtain rfl := List.mem_singleton.mp hd
    exact hlower h.2
  | case3 separated c d t hc ih => exact List.forall_mem_cons.mpr ⟨hlower hc, ih h⟩
  | case4 separated c d t hc ih =>
    simp only [Bool.and_eq_true, decide_eq_true_eq] at h
    obtain ⟨⟨hseparator, hd⟩, hrest⟩ := h
    refine List.forall_mem_cons.mpr ⟨lt_of_mem_ascii rfl hseparator, List.forall_mem_cons.mpr ⟨hlower hd, ih hrest⟩⟩

theorem isCapability_plain (h : isCapability t = true) : Plain t := by
  cases t with
  | nil => exact nofun
  | cons =>
    simp only [isCapability, asciiLower, Bool.and_eq_true, decide_eq_true_eq] at h
    exact plain_of_lt (List.forall_mem_cons.mpr ⟨by omega, capabilityRest_lt h.2⟩)

theorem Stamp.plain (now : Stamp) : Plain now.text := by
  refine plain_of_lt fun c hc => ?_
  rcases now.chars c hc with h | h
  · exact isDigit_lt h
  · exact lt_of_mem_ascii rfl h

theorem textColumn_plain {v : P.Json} (h : textColumn P v = .ok t) : Plain t := by
  cases v with
  | str =>
    simp only [textColumn] at h
    split at h
    · cases h
    · next hnone =>
      obtain rfl := Except.ok.inj h
      intro c hc
      simp only [List.any_eq_true, not_exists, not_and, Bool.not_eq_true] at hnone
      exact hnone c hc
  | int n =>
    simp only [textColumn] at h
    split at h
    · obtain rfl := Except.ok.inj h
      cases htext : intText n with
      | none => exact nofun
      | some => exact intText_plain htext
    · cases h
  | bool b =>
    obtain rfl := Except.ok.inj h
    cases b <;> exact plain_of_ascii rfl
  | float x =>
    simp only [textColumn] at h
    split at h
    · next t hcolumn =>
      obtain rfl := Except.ok.inj h
      exact P.floatColumn_plain x t hcolumn
    · cases h
  | none => cases h
  | list => cases h
  | dict => cases h
  | foreign => cases h

theorem nullableColumn_plain {v : P.Json} {o : Option Text} (h : nullableColumn P v = .ok o) : ∀ t ∈ o, Plain t := by
  intro t ht
  unfold nullableColumn at h
  split at h
  · obtain rfl := Except.ok.inj h
    cases ht
  · simp only [bind_eq_ok, pure_eq_ok] at h
    obtain ⟨s, hs, rfl⟩ := h
    obtain rfl := Option.some.inj ht
    exact textColumn_plain hs

end Texts

/-! ## The rows of the steps -/

/-- The columns of a step that reach an event have no surrogates. -/
structure StepRow.Stored (s : StepRow P) : Prop where
  stepId : Plain s.stepId
  phase : Plain s.phase
  action : Plain s.action
  requiredCapability : ∀ c ∈ s.requiredCapability, Plain c

theorem stepRow_stored {step : P.Json} {ordinal : Nat} {now : Stamp} {row : StepRow P}
    (h : stepRow P step ordinal now = .ok row) : row.Stored := by
  unfold stepRow at h
  split at h
  · simp only [bind_eq_ok, pure_eq_ok] at h
    obtain ⟨_, hid, _, hphase, _, haction, _, -, _, -, _, hcap, _, -, rfl⟩ := h
    exact ⟨textColumn_plain hid, textColumn_plain hphase, textColumn_plain haction, nullableColumn_plain hcap⟩
  · cases h

theorem stepRows_stored {now : Stamp} {steps : List P.Json} : ∀ {ordinal : Nat} {rows rows' : List (StepRow P)},
    stepRows P now ordinal rows steps = .ok rows' → (∀ s ∈ rows, s.Stored) → ∀ s ∈ rows', s.Stored := by
  induction steps with
  | nil =>
    intro ordinal rows rows' h hrows
    obtain rfl := Except.ok.inj h
    exact hrows
  | cons step steps ih =>
    intro ordinal rows rows' h hrows
    simp only [stepRows, bind_eq_ok] at h
    obtain ⟨row, hrow, h⟩ := h
    split at h
    · cases h
    · refine ih h fun s hs => ?_
      rcases List.mem_append.mp hs with hs | hs
      · exact hrows s hs
      · exact List.mem_singleton.mp hs ▸ stepRow_stored hrow

theorem SamePlan.stored {s t : StepRow P} (h : SamePlan s t) (hs : s.Stored) : t.Stored where
  stepId := h.stepId ▸ hs.stepId
  phase := h.phase ▸ hs.phase
  action := h.action ▸ hs.action
  requiredCapability := h.requiredCapability ▸ hs.requiredCapability

/-! ## Bodies -/

section Bodies

theorem canonicalText_dict_isSome {F : JsonFloats} {entries : List (Text × Value F.Val)}
    (h : ∀ e ∈ entries, (canonicalText F e.2).isSome = true) : (canonicalText F (.dict entries)).isSome = true := by
  show (((ascii F).renderEntriesBy _).map _).isSome = true
  rw [Option.isSome_map]
  refine renderEntriesBy_isSome fun e he => ?_
  rw [(List.perm_insertionSort _ _).mem_iff, Value.sortedEntries_eq_map] at he
  obtain ⟨d, hd, rfl⟩ := List.mem_map.mp he
  exact h d hd

theorem canonicalText_dict_brace {F : JsonFloats} {entries : List (Text × Value F.Val)} {t : Text}
    (h : canonicalText F (.dict entries) = some t) : ∃ u, t = ch '{' :: u := by
  obtain ⟨u, -, rfl⟩ := Option.map_eq_some_iff.mp h
  exact ⟨_, rfl⟩

/-- The text of an object that an event hashes. -/
def Braced (t : Text) : Prop := ∃ u, t = ch '{' :: u

theorem canonical_dict_braced {entries : List (Text × P.Json)} {t : Text} (h : canonical P (.dict entries) = some t) :
    Braced t := by
  obtain ⟨u, hu, rfl⟩ := Option.map_eq_some_iff.mp h
  obtain ⟨w, rfl⟩ := canonicalText_dict_brace hu
  exact ⟨_, rfl⟩

theorem append_cons_inj {c : CodePoint} {p q s t : Text} (hp : c ∉ p) (hq : c ∉ q) (h : p ++ c :: s = q ++ c :: t) :
    p = q ∧ s = t := by
  induction p generalizing q with
  | nil =>
    cases q with
    | nil => exact ⟨rfl, (List.cons.inj h).2⟩
    | cons =>
      obtain rfl := (List.cons.inj h).1
      exact absurd List.mem_cons_self hq
  | cons d p ih =>
    cases q with
    | nil =>
      obtain rfl := (List.cons.inj h).1
      exact absurd List.mem_cons_self hp
    | cons =>
      rw [List.cons_append, List.cons_append] at h
      obtain ⟨rfl, htail⟩ := List.cons.inj h
      obtain ⟨rfl, rfl⟩ :=
        ih (fun hc => hp (List.mem_cons_of_mem _ hc)) (fun hc => hq (List.mem_cons_of_mem _ hc)) htail
      exact ⟨rfl, rfl⟩

theorem hex_append_inj {p q b c : Text} (hp : Hex p) (hq : Hex q) (hb : Braced b) (hc : Braced c)
    (h : p ++ b = q ++ c) : p = q ∧ b = c := by
  obtain ⟨b, rfl⟩ := hb
  obtain ⟨c, rfl⟩ := hc
  have hbrace : isHex (ch '{') = false := by decide
  obtain ⟨rfl, rfl⟩ := append_cons_inj (hp.not_mem hbrace) (hq.not_mem hbrace) h
  exact ⟨rfl, rfl⟩

theorem colon_append_inj {a b p q : Text} (hp : Hex p) (hq : Hex q) (h : a ++ ch ':' :: p = b ++ ch ':' :: q) :
    a = b ∧ p = q := by
  have hcolon : isHex (ch ':') = false := by decide
  have hrev : p.reverse ++ ch ':' :: a.reverse = q.reverse ++ ch ':' :: b.reverse := by
    simpa using congrArg List.reverse h
  obtain ⟨hpq, hab⟩ := append_cons_inj (fun hc => hp.not_mem hcolon (List.mem_reverse.mp hc))
    (fun hc => hq.not_mem hcolon (List.mem_reverse.mp hc)) hrev
  exact ⟨List.reverse_injective hab, List.reverse_injective hpq⟩

theorem lookup_of_same {φ : Type} {a b : List (Text × Value φ)} (ha : (a.map Prod.fst).Nodup)
    (hb : (b.map Prod.fst).Nodup)
    (h : (Value.dict a).Same (.dict b)) (key : Text) :
    (a.lookup key).map Value.sorted = (b.lookup key).map Value.sorted := by
  have hsorted : (Value.sortedEntries a).insertionSort Value.keyLe =
    (Value.sortedEntries b).insertionSort Value.keyLe :=
    Value.dict.inj h
  rw [← Value.lookup_sorted ha, ← Value.lookup_sorted hb, hsorted]

end Bodies

/-! ## Events -/

/-- The whole digest and the shortened one are injective, they are written in hexadecimal digits, and none is zero. -/
structure Platform.Hashing (P : Platform) : Prop where
  digest_inj : Function.Injective P.hexdigest
  prefix_inj : Function.Injective P.hexprefix
  digest_hex : ∀ t, Hex (P.hexdigest t)
  prefix_hex : ∀ t, Hex (P.hexprefix t)
  digest_ne_zero : ∀ t, P.hexdigest t ≠ zeroHash

theorem Platform.Hashing.laws (hP : P.Hashing) :
    DigestLaws (fun p b => P.hexdigest (p ++ b)) Hex Braced zeroHash where
  zero_mem := zeroHash_hex
  closed _ _ := hP.digest_hex _
  ne_zero _ _ := hP.digest_ne_zero _
  inj _ _ _ _ hp hq hb hc h := hex_append_inj hp hq hb hc (hP.digest_inj h)

/-- What the recorder tells in an event: texts without surrogates, and a payload that is written and read again. -/
structure EventContent.Proper (e : EventContent P) : Prop where
  stepId : ∀ s ∈ e.stepId, Plain s
  kind : Plain e.kind
  actor : Plain e.actor
  summary : Plain e.summary
  createdAt : Plain e.createdAt
  payload : e.payload.Readable
  written : (canonicalText P.floats e.payload).isSome = true

/-- The event that a run begins with. -/
structure EventContent.Initial (e : EventContent P) : Prop where
  kind : e.kind = lit "bootstrapRunInitialized"
  stepId : e.stepId = none
  createdAt : e.createdAt.length = 20

section Row

variable {audit : List AuditEvent} {runId : Text} {e : EventContent P} {row : AuditEvent}

/-- The columns of the next event. -/
structure RowOf (audit : List AuditEvent) (runId : Text) (e : EventContent P) (row : AuditEvent) : Prop where
  owner : row.runId = runId
  stepId : row.stepId = e.stepId
  kind : row.kind = e.kind
  actor : row.actor = e.actor
  summary : row.summary = e.summary
  createdAt : row.createdAt = e.createdAt
  previousHash : row.previousHash = previousHash audit runId
  eventId : row.eventId =
    lit "bootstrap-event-" ++ P.hexprefix
      (eventSeed runId e.kind e.createdAt e.stepId (Bootstrap.previousHash audit runId))
  payload : canonicalText P.floats e.payload = some row.payloadJson
  body : ∃ b, canonical P
    (eventBody P row.eventId runId e.stepId e.kind e.actor e.summary e.payload e.createdAt) = some b ∧
    row.eventHash = P.hexdigest (Bootstrap.previousHash audit runId ++ b)

theorem auditRow_some (h : auditRow audit runId e = some row) : RowOf audit runId e row := by
  simp only [auditRow] at h
  split at h
  · next b payloadJson hbody hpayload =>
    obtain rfl := Option.some.inj h
    exact ⟨rfl, rfl, rfl, rfl, rfl, rfl, rfl, rfl, hpayload, b, hbody, rfl⟩
  · cases h

theorem bodyKeys : [lit "eventID", lit "runID", lit "stepID", lit "kind", lit "actor", lit "summary", lit "payload",
    lit "createdAt"].Nodup := of_decide_eq_true rfl

theorem optionText_readable {F : JsonFloats} : ∀ {o : Option Text}, (∀ s ∈ o, Plain s) →
    Value.Readable (F := F) (match o with
      | some s => .str s
      | none => .none)
  | none, _ => .none
  | some s, h => .str (h s rfl).joined

theorem eventBody_readable {eventId runId kind actor summary createdAt : Text} {stepId : Option Text} {payload : P.Json}
    (heventId : Plain eventId) (hrunId : Plain runId) (hstepId : ∀ s ∈ stepId, Plain s) (hkind : Plain kind)
    (hactor : Plain actor) (hsummary : Plain summary) (hpayload : payload.Readable) (hcreatedAt : Plain createdAt) :
    (eventBody P eventId runId stepId kind actor summary payload createdAt).Readable := by
  refine .dict bodyKeys (fun e he => ?_) fun e he => ?_
  · have hkeys : ∀ key ∈ [lit "eventID", lit "runID", lit "stepID", lit "kind", lit "actor",
      lit "summary", lit "payload",
        lit "createdAt"], asciiText key = true := by
      simp only [List.forall_mem_cons]
      exact ⟨rfl, rfl, rfl, rfl, rfl, rfl, rfl, rfl, nofun⟩
    exact (plain_of_ascii (hkeys e.1 (List.mem_map_of_mem he))).joined
  · simp only [List.mem_cons, List.not_mem_nil, or_false] at he
    rcases he with rfl | rfl | rfl | rfl | rfl | rfl | rfl | rfl
    · exact .str heventId.joined
    · exact .str hrunId.joined
    · exact optionText_readable hstepId
    · exact .str hkind.joined
    · exact .str hactor.joined
    · exact .str hsummary.joined
    · exact hpayload
    · exact .str hcreatedAt.joined

theorem Platform.Hashing.eventId_plain (hP : P.Hashing) (seed : Text) :
    Plain (lit "bootstrap-event-" ++ P.hexprefix seed) := (plain_of_ascii rfl).append (hP.prefix_hex seed).plain

theorem RowOf.readable (h : RowOf audit runId e row) (hP : P.Hashing) (hrun : isIdentifier runId = true)
    (he : e.Proper) :
    (eventBody P row.eventId runId e.stepId e.kind e.actor e.summary e.payload e.createdAt).Readable :=
  eventBody_readable (h.eventId ▸ hP.eventId_plain _) (isIdentifier_plain hrun) he.stepId he.kind he.actor he.summary
    he.payload he.createdAt

theorem auditRow_isSome (audit : List AuditEvent) (runId : Text) {e : EventContent P} (he : e.Proper) :
    ∃ row, auditRow audit runId e = some row := by
  obtain ⟨payloadJson, hpayload⟩ := Option.isSome_iff_exists.mp he.written
  have hbody : ∀ eventId, (canonical P (eventBody P eventId runId e.stepId e.kind e.actor e.summary e.payload
      e.createdAt)).isSome = true := by
    intro eventId
    rw [canonical, Option.isSome_map]
    refine canonicalText_dict_isSome fun d hd => ?_
    simp only [List.mem_cons, List.not_mem_nil, or_false] at hd
    rcases hd with rfl | rfl | rfl | rfl | rfl | rfl | rfl | rfl
    · rfl
    · rfl
    · show (canonicalText P.floats (match e.stepId with
        | some s => .str s
        | none => .none)).isSome = true
      cases e.stepId <;> rfl
    · rfl
    · rfl
    · rfl
    · exact he.written
    · rfl
  obtain ⟨b, hb⟩ := Option.isSome_iff_exists.mp (hbody (lit "bootstrap-event-" ++
    P.hexprefix (eventSeed runId e.kind e.createdAt e.stepId (previousHash audit runId))))
  exact ⟨_, by simp only [auditRow, hb, hpayload]; rfl⟩

end Row

/-! ## The log -/

/-- An event as the recorder has written it. -/
def Genuine (P : Platform) (o : AuditEvent) : Prop :=
  ∃ (audit : List AuditEvent) (e : EventContent P), isIdentifier o.runId = true ∧ e.Proper ∧
    Hex (previousHash audit o.runId) ∧ (previousHash audit o.runId = zeroHash → e.Initial) ∧ RowOf audit o.runId e o

/-- The chains of all runs, as the recorder writes them. -/
structure Log (P : Platform) (audit : List AuditEvent) : Prop where
  chained : ChainLog AuditEvent.runId AuditEvent.previousHash AuditEvent.eventHash zeroHash audit
  genuine : ∀ o ∈ audit, Genuine P o

section Log

variable {audit : List AuditEvent} {runId : Text} {e : EventContent P} {row : AuditEvent}

theorem Log.nil : Log P [] := ⟨.nil, nofun⟩

theorem Genuine.eventHash_hex {o : AuditEvent} (hP : P.Hashing) (h : Genuine P o) : Hex o.eventHash := by
  obtain ⟨_, _, -, -, -, -, hrow⟩ := h
  obtain ⟨b, -, hhash⟩ := hrow.body
  exact hhash ▸ hP.digest_hex _

theorem previousHash_cases (audit : List AuditEvent) (runId : Text) :
    ((∀ o ∈ audit, o.runId ≠ runId) ∧ previousHash audit runId = zeroHash) ∨
      ∃ o ∈ audit, o.runId = runId ∧ previousHash audit runId = o.eventHash :=
  lastHash_cases AuditEvent.runId AuditEvent.eventHash zeroHash audit runId

theorem Log.previousHash_hex (hP : P.Hashing) (h : Log P audit) (runId : Text) : Hex (previousHash audit runId) := by
  rcases previousHash_cases audit runId with ⟨-, heq⟩ | ⟨o, ho, -, heq⟩
  · exact heq ▸ zeroHash_hex
  · exact heq ▸ (h.genuine o ho).eventHash_hex hP

theorem Log.previousHash_zero (h : Log P audit) (hzero : previousHash audit runId = zeroHash) :
    ∀ o ∈ audit, o.runId ≠ runId := by
  rcases previousHash_cases audit runId with ⟨hnone, -⟩ | ⟨o, ho, -, heq⟩
  · exact hnone
  · exact absurd (heq.symm.trans hzero) (h.chained.hash_ne_zero ho)

theorem eventBody_runId
    {eventId eventId' runId runId' kind kind' actor actor' summary summary' createdAt createdAt' : Text}
    {stepId stepId' : Option Text} {payload payload' : P.Json}
    (h : (eventBody P eventId runId stepId kind actor summary payload createdAt).Same
      (eventBody P eventId' runId' stepId' kind' actor' summary' payload' createdAt')) : runId = runId' := by
  have hlookup := lookup_of_same (by exact bodyKeys) (by exact bodyKeys) h (lit "runID")
  exact Value.str.inj (Option.some.inj hlookup)

/-- **The next event of a run is new**: no event has its identifier or its hash. -/
theorem Log.unused (hP : P.Hashing) (h : Log P audit) (hrun : isIdentifier runId = true) (he : e.Proper)
    (hfirst : (∀ o ∈ audit, o.runId ≠ runId) → e.Initial) (hrow : RowOf audit runId e row) : Unused audit row := by
  intro o ho
  obtain ⟨before, d, horun, hd, hhex, hinitial, horow⟩ := h.genuine o ho
  -- only an event of another run that has just begun could name the same hash
  have hnone : o.previousHash = previousHash audit runId → (∀ o ∈ audit, o.runId ≠ runId) ∧ o.previousHash = zeroHash :=
    fun heq => h.chained.prev_eq_last ho heq
  rw [horow.previousHash] at hnone
  refine ⟨fun heq => ?_, fun heq => ?_⟩
  · rw [horow.eventId, hrow.eventId] at heq
    have hseed := hP.prefix_inj (List.append_cancel_left heq)
    obtain ⟨hseed, hprev⟩ := colon_append_inj hhex (h.previousHash_hex hP runId) hseed
    obtain ⟨hnone, hzero⟩ := hnone hprev
    have hd := hinitial hzero
    have he := hfirst hnone
    rw [hd.kind, hd.stepId, he.kind, he.stepId] at hseed
    obtain ⟨hseed, -⟩ := List.append_inj' hseed rfl
    obtain ⟨hseed, -⟩ := List.append_inj' hseed (by simp [hd.createdAt, he.createdAt])
    exact hnone o ho (List.append_inj' hseed rfl).1
  · obtain ⟨b, hb, hhash⟩ := horow.body
    obtain ⟨c, hc, hhash'⟩ := hrow.body
    rw [hhash, hhash'] at heq
    obtain ⟨hprev, rfl⟩ := hex_append_inj hhex (h.previousHash_hex hP runId) (canonical_dict_braced hb)
      (canonical_dict_braced hc) (hP.digest_inj heq)
    obtain ⟨s, hs, hsb⟩ := Option.map_eq_some_iff.mp hb
    obtain ⟨t, ht, htb⟩ := Option.map_eq_some_iff.mp hc
    obtain rfl := List.append_cancel_right (hsb.trans htb.symm)
    have hsame := canonicalText_injective (horow.readable hP horun hd) (hrow.readable hP hrun he) hs ht
    exact (hnone hprev).1 o ho (eventBody_runId hsame)

theorem Log.snoc (hP : P.Hashing) (h : Log P audit) (hrun : isIdentifier runId = true) (he : e.Proper)
    (hfirst : (∀ o ∈ audit, o.runId ≠ runId) → e.Initial) (hrow : RowOf audit runId e row) :
    Log P (audit ++ [row]) := by
  have hunused := h.unused hP hrun he hfirst hrow
  obtain ⟨b, -, hhash⟩ := hrow.body
  refine ⟨.snoc h.chained ?_ (hhash ▸ hP.digest_ne_zero _) fun o ho => (hunused o ho).2, fun o ho => ?_⟩
  · rw [hrow.previousHash, hrow.owner]
    rfl
  · rcases List.mem_append.mp ho with ho | ho
    · exact h.genuine o ho
    · obtain rfl := List.mem_singleton.mp ho
      have hid := hrow.owner
      subst hid
      exact ⟨audit, e, hrun, he, h.previousHash_hex hP _, fun hzero => hfirst (h.previousHash_zero hzero), hrow⟩

end Log

/-! ## Insertions do not fail -/

section Success

variable {db : Db P} {runId actor createdAt : Text}

/-- **No insertion fails.** -/
theorem appendAudit_succeeds (hP : P.Hashing) (db : Db P) {e : EventContent P} (hlog : Log P db.audit)
    (hrun : isIdentifier runId = true)
    (he : e.Proper) (hfirst : (∀ o ∈ db.audit, o.runId ≠ runId) → e.Initial) :
    ∃ row, appendAudit db runId e = .ok { db with audit := db.audit ++ [row] } ∧ RowOf db.audit runId e row ∧
      Log P (db.audit ++ [row]) := by
  obtain ⟨row, hsome⟩ := auditRow_isSome db.audit runId he
  have hrow := auditRow_some hsome
  have hunused := hlog.unused hP hrun he hfirst hrow
  refine ⟨row, ?_, hrow, hlog.snoc hP hrun he hfirst hrow⟩
  simp only [auditRow] at hsome
  split at hsome
  · next b payloadJson hbody hpayload =>
    obtain rfl := Option.some.inj hsome
    simp only [appendAudit, hbody, hpayload]
    rw [if_neg]
    intro hany
    obtain ⟨o, ho, heq⟩ := List.any_eq_true.mp hany
    simp only [Bool.or_eq_true, decide_eq_true_eq] at heq
    exact heq.elim (hunused o ho).1 (hunused o ho).2
  · cases hsome

/-- What is kept while the events of a run are appended. -/
structure Appendable (runId : Text) (db : Db P) : Prop where
  log : Log P db.audit
  begun : ∃ o ∈ db.audit, o.runId = runId
  stored : ∀ s ∈ db.stepsOf runId, s.Stored

theorem Appendable.append (hP : P.Hashing) {e : EventContent P} (h : Appendable runId db)
    (hrun : isIdentifier runId = true)
    (he : e.Proper) : ∃ row, appendAudit db runId e = .ok { db with audit := db.audit ++ [row] } ∧
      Appendable runId { db with audit := db.audit ++ [row] } := by
  obtain ⟨o, ho, hid⟩ := h.begun
  obtain ⟨row, happend, -, hlog⟩ := appendAudit_succeeds hP db h.log hrun he fun hnone => absurd hid (hnone o ho)
  exact ⟨row, happend, hlog, ⟨o, List.mem_append_left _ ho, hid⟩, h.stored⟩

theorem Appendable.update (h : Appendable runId db) (stepId : Text) (f : StepRow P → StepRow P)
    (hf : ∀ s, SamePlan s (f s)) :
    Appendable runId (db.updateSteps runId (updateStep stepId f)) := by
  refine ⟨h.log, h.begun, fun s hs => ?_⟩
  cases hget : db.runs.get? runId with
  | none => simp [Db.stepsOf, Db.updateSteps, hget] at hs
  | some =>
    rw [stepsOf_updateSteps hget] at hs
    obtain ⟨t, ht, rfl⟩ := mem_updateStep.mp hs
    split
    · exact (hf t).stored (h.stored t ht)
    · exact h.stored t ht

theorem nextState_value_plain (s : StepState) : Plain s.value := by
  cases s <;> exact plain_of_ascii rfl

theorem promotionEvent_proper {s : StepRow P} (hactor : Plain actor) (hcreatedAt : Plain createdAt) (hs : s.Stored) :
    (promotionEvent actor createdAt s).Proper where
  stepId t ht := Option.some.inj ht ▸ hs.stepId
  kind := by
    show Plain s.eventKind
    unfold StepRow.eventKind
    split <;> exact plain_of_ascii rfl
  actor := hactor
  summary := (plain_of_ascii rfl).append (nextState_value_plain _)
  createdAt := hcreatedAt
  payload := by
    refine .dict (of_decide_eq_true rfl) (fun e he => ?_) fun e he => ?_
    · simp only [List.mem_cons, List.not_mem_nil, or_false] at he
      rcases he with rfl | rfl | rfl <;> exact (plain_of_ascii rfl).joined
    · simp only [List.mem_cons, List.not_mem_nil, or_false] at he
      rcases he with rfl | rfl | rfl
      · exact .str hs.phase.joined
      · exact .str hs.action.joined
      · exact optionText_readable hs.requiredCapability
  written := by
    refine canonicalText_dict_isSome fun e he => ?_
    simp only [List.mem_cons, List.not_mem_nil, or_false] at he
    rcases he with rfl | rfl | rfl
    · rfl
    · rfl
    · show (canonicalText P.floats (match s.requiredCapability with
        | some c => .str c
        | none => .none)).isSome = true
      cases s.requiredCapability <;> rfl

theorem promote_succeeds (hP : P.Hashing) (hrun : isIdentifier runId = true) (hactor : Plain actor)
    (hcreatedAt : Plain createdAt) {acc : Db P × Bool} (h : Appendable runId acc.1) {s : StepRow P} (hs : s.Stored) :
    ∃ acc', promote runId actor createdAt acc s = .ok acc' ∧ Appendable runId acc'.1 := by
  unfold promote
  split
  · exact ⟨acc, rfl, h⟩
  split
  · exact ⟨acc, rfl, h⟩
  · obtain ⟨row, happend, h'⟩ := (h.update s.stepId
      (fun t => { t with state := s.nextState, updatedAt := createdAt })
      fun t => ⟨rfl, rfl, rfl, rfl, rfl, rfl, rfl, rfl⟩).append hP hrun (promotionEvent_proper hactor hcreatedAt hs)
    exact ⟨_, by simp only [bind, Except.bind, happend]; rfl, h'⟩

theorem promoteRows_succeeds (hP : P.Hashing) (hrun : isIdentifier runId = true) (hactor : Plain actor)
    (hcreatedAt : Plain createdAt) {rows : List (StepRow P)} : ∀ (acc : Db P × Bool), Appendable runId acc.1 →
    (∀ s ∈ rows, s.Stored) →
    ∃ acc', rows.foldlM (promote runId actor createdAt) acc = .ok acc' ∧ Appendable runId acc'.1 := by
  induction rows with
  | nil => exact fun _ h _ => ⟨_, rfl, h⟩
  | cons s rows ih =>
    intro acc h hrows
    obtain ⟨mid, hmid, h'⟩ := promote_succeeds hP hrun hactor hcreatedAt h (hrows s List.mem_cons_self)
    obtain ⟨acc', hrest, h''⟩ := ih mid h' fun t ht => hrows t (List.mem_cons_of_mem s ht)
    exact ⟨acc', by simp only [List.foldlM_cons, bind, Except.bind, hmid]; exact hrest, h''⟩

theorem promoteLoop_succeeds (hP : P.Hashing) (hrun : isIdentifier runId = true) (hactor : Plain actor)
    (hcreatedAt : Plain createdAt) (n : Nat) : ∀ {db : Db P}, Appendable runId db →
    ∃ db', promoteLoop runId actor createdAt n db = .ok db' ∧ Appendable runId db' := by
  induction n with
  | zero => exact fun h => ⟨_, rfl, h⟩
  | succ n ih =>
    intro db h
    obtain ⟨⟨mid, changed⟩, hpass, h'⟩ := promoteRows_succeeds hP hrun hactor hcreatedAt (db, false) h h.stored
    simp only [promoteLoop, promotePass, bind, Except.bind, hpass]
    cases changed with
    | true => exact ih h'
    | false => exact ⟨mid, rfl, h'⟩

theorem reconcile_succeeds (hP : P.Hashing) (hrun : isIdentifier runId = true) (hactor : Plain actor)
    (hcreatedAt : Plain createdAt) (h : Appendable runId db) :
    ∃ db', reconcile runId actor createdAt db = .ok db' ∧ Log P db'.audit := by
  obtain ⟨mid, hloop, h'⟩ := promoteLoop_succeeds hP hrun hactor hcreatedAt ((db.stepsOf runId).length + 1) h
  simp only [reconcile, bind, Except.bind, hloop]
  exact ⟨_, rfl, h'.log⟩

end Success

end AgentFabric.Bootstrap
