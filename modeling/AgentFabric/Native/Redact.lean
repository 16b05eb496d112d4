import AgentFabric.Store.Redaction
import AgentFabric.Lib.JsonLeaves
import AgentFabric.Lib.JsonEdits

/-!
# Redaction of the output of a worker

What the native adapters keep of the output of a process: the texts with the credentials cut out, at every depth.
-/

namespace AgentFabric.Native

open AgentFabric.Lib AgentFabric.Store.Redaction

/-! ## The patterns -/

/-- `[_-]?` -/
def joiner : Regex CodePoint := .opt (.one fun c => decide (c = ch '_' ∨ c = ch '-'))

/-- The names that the second pattern knows. -/
def secretName : Regex CodePoint := .choice [
  named "token",
  .seq (named "api") (.seq joiner (named "key")),
  .seq (named "access") (.seq joiner (named "token")),
  .seq (named "refresh") (.seq joiner (named "token")),
  named "password",
  named "secret"]

def secretLabel : Regex CodePoint := .seq secretName (.seq spaces (.seq (.one isSeparator) spaces))

def secretRule : Rule CodePoint := ⟨secretLabel, value⟩

/-- The ends of the keys whose values are never kept. -/
def sensitiveKey : Regex CodePoint := .choice [
  named "token",
  .seq (named "api") (.seq joiner (named "key")),
  .seq (named "access") (.seq joiner (named "token")),
  .seq (named "refresh") (.seq joiner (named "token")),
  named "oauth",
  named "authorization",
  named "cookie",
  named "credential",
  named "password",
  named "secret",
  named "signature"]

/-- `_SENSITIVE_KEY.search`; its end of the text is also in front of a last line feed. -/
def isSensitiveKey (key : Text) : Bool :=
  key.tails.any fun s => (sensitiveKey.ways none s).any fun m => decide (m.2 = [] ∨ m.2 = lit "\n")

def redactText (u : UnicodeTables) (text : Text) : Text :=
  (keyRule u).substitute redacted (secretRule.substitute redacted (authorizationRule.substitute redacted text))

mutual

def redact {φ : Type} (u : UnicodeTables) : Value φ → Value φ
  | .dict entries => .dict (redactEntries u entries)
  | .list items => .list (redactItems u items)
  | .str text => .str (redactText u text)
  | v => v

def redactItems {φ : Type} (u : UnicodeTables) : List (Value φ) → List (Value φ)
  | [] => []
  | v :: items => redact u v :: redactItems u items

def redactEntries {φ : Type} (u : UnicodeTables) : List (Text × Value φ) → List (Text × Value φ)
  | [] => []
  | (key, v) :: entries => (key, if isSensitiveKey key then .str redacted else redact u v) :: redactEntries u entries

end

/-! ## White space around a text -/

variable {rule : Rule CodePoint} {before : Option CodePoint} {s out kept removed rest : Text} {u : UnicodeTables}

/-- A pattern whose matches begin with a letter, remove letters, and have a separator or a hyphen in them. -/
structure Inner (rule : Rule CodePoint) : Prop where
  consumes : rule.Consumes
  head : ∀ {before s kept removed rest}, rule.first before s = some (kept, removed, rest) →
    ∀ c ∈ s.head?, Lib.isSpace c = false
  letters : ∀ {before s kept removed rest}, rule.first before s = some (kept, removed, rest) →
    ∀ c ∈ removed, Lib.isSpace c = false
  marked : ∀ {before s kept removed rest}, rule.first before s = some (kept, removed, rest) → ∃ c ∈ s, c ∈ lit ":=-"

/-- The same text, or one that differs behind the same white space. -/
def SameLead (s out : Text) : Prop :=
  out = s ∨ ∃ x c t c' t', s = x ++ c :: t ∧ out = x ++ c' :: t' ∧ (∀ d ∈ x, Lib.isSpace d = true) ∧
    Lib.isSpace c = false ∧ Lib.isSpace c' = false

/-- The same text, or one that differs in front of the same white space. -/
def SameTrail (s out : Text) : Prop :=
  out = s ∨ ∃ t c t' c' y, s = t ++ c :: y ∧ out = t' ++ c' :: y ∧ (∀ d ∈ y, Lib.isSpace d = true) ∧
    Lib.isSpace c = false ∧ Lib.isSpace c' = false

theorem takeWhile_space {x t : Text} {c : CodePoint} (hx : ∀ d ∈ x, Lib.isSpace d = true) (hc : Lib.isSpace c = false) :
    (x ++ c :: t).takeWhile Lib.isSpace = x := by
  rw [List.takeWhile_append_of_pos hx, List.takeWhile_cons, hc]
  simp

theorem SameLead.takeWhile (h : SameLead s out) : out.takeWhile Lib.isSpace = s.takeWhile Lib.isSpace := by
  rcases h with rfl | ⟨x, c, t, c', t', rfl, rfl, hx, hc, hc'⟩
  · rfl
  · rw [takeWhile_space hx hc, takeWhile_space hx hc']

theorem SameTrail.takeWhile (h : SameTrail s out) :
    out.reverse.takeWhile Lib.isSpace = s.reverse.takeWhile Lib.isSpace := by
  rcases h with rfl | ⟨t, c, t', c', y, rfl, rfl, hy, hc, hc'⟩
  · rfl
  · have hback : ∀ d ∈ y.reverse, Lib.isSpace d = true := fun d hd => hy d (List.mem_reverse.mp hd)
    simp only [List.reverse_append, List.reverse_cons, List.append_assoc, List.singleton_append]
    rw [takeWhile_space hback hc, takeWhile_space hback hc']

theorem blank_or_last (s : Text) : (∀ d ∈ s, Lib.isSpace d = true) ∨
    ∃ t c y, s = t ++ c :: y ∧ Lib.isSpace c = false ∧ ∀ d ∈ y, Lib.isSpace d = true := by
  induction s with
  | nil => exact Or.inl (by rintro _ ⟨⟩)
  | cons c s ih =>
    rcases ih with hall | ⟨t, d, y, rfl, hd, hy⟩
    · cases hc : Lib.isSpace c with
      | true => exact Or.inl (List.forall_mem_cons.mpr ⟨hc, hall⟩)
      | false => exact Or.inr ⟨[], c, s, rfl, hc, hall⟩
    · exact Or.inr ⟨c :: t, d, y, rfl, hd, hy⟩

theorem redacted_head : ∃ t, redacted = ch '[' :: t := ⟨_, rfl⟩

theorem redacted_last : redacted = lit "[REDACTED" ++ [ch ']'] := rfl

theorem Inner.lead (hrule : Inner rule) (h : Rewritten rule redacted before s out) : SameLead s out := by
  induction h with
  | done => exact Or.inl rfl
  | @keep before c s out _ _ ih =>
    cases hc : Lib.isSpace c with
    | false => exact Or.inr ⟨[], c, s, c, out, rfl, rfl, (by rintro _ ⟨⟩), hc, hc⟩
    | true =>
      rcases ih with rfl | ⟨x, d, t, d', t', rfl, rfl, hx, hd⟩
      · exact Or.inl rfl
      · exact Or.inr ⟨c :: x, d, t, d', t', rfl, rfl, List.forall_mem_cons.mpr ⟨hc, hx⟩, hd⟩
  | @hit before kept removed rest out hfirst _ _ =>
    have hhead := hrule.head hfirst
    cases kept with
    | cons c =>
      have hc := hhead c rfl
      exact Or.inr ⟨[], c, _, c, _, rfl, rfl, (by rintro _ ⟨⟩), hc, hc⟩
    | nil =>
      obtain ⟨c, removed, rfl⟩ := List.exists_cons_of_ne_nil (hrule.consumes _ _ _ _ _ hfirst)
      exact Or.inr ⟨[], c, _, ch '[', _, rfl, rfl, (by rintro _ ⟨⟩), hhead c rfl, by decide⟩

theorem Inner.trail (hrule : Inner rule) (h : Rewritten rule redacted before s out) : SameTrail s out := by
  induction h with
  | done => exact Or.inl rfl
  | @keep before c s out _ _ ih =>
    rcases ih with rfl | ⟨t, d, t', d', y, rfl, rfl, hy⟩
    · exact Or.inl rfl
    · exact Or.inr ⟨c :: t, d, c :: t', d', y, rfl, rfl, hy⟩
  | @hit before kept removed rest out hfirst _ ih =>
    right
    rcases ih with rfl | ⟨t, d, t', d', y, rfl, rfl, hy⟩
    · rcases blank_or_last out with hall | ⟨t, c, y, rfl, hc, hy⟩
      · -- the match is the last word of the text
        rcases List.eq_nil_or_concat removed with rfl | ⟨removed, c, rfl⟩
        · exact absurd rfl (hrule.consumes _ _ _ _ _ hfirst)
        · have hc := hrule.letters hfirst c (by simp)
          refine ⟨kept ++ removed, c, kept ++ lit "[REDACTED", ch ']', out, by simp, ?_, hall, hc, by decide⟩
          rw [redacted_last]
          simp
      · exact ⟨kept ++ (removed ++ t), c, kept ++ (redacted ++ t), c, y, by simp, by simp, hy, hc, hc⟩
    · exact ⟨kept ++ (removed ++ t), d, kept ++ (redacted ++ t'), d', y, by simp, by simp, hy⟩

theorem Inner.ends (hrule : Inner rule) (s : Text) :
    (rule.substitute redacted s).takeWhile Lib.isSpace = s.takeWhile Lib.isSpace ∧
      (rule.substitute redacted s).reverse.takeWhile Lib.isSpace = s.reverse.takeWhile Lib.isSpace := by
  have h := Rule.substitute_rewritten hrule.consumes redacted s
  exact ⟨(hrule.lead h).takeWhile, (hrule.trail h).takeWhile⟩

/-- A text is the white space around it and what `strip` leaves. -/
theorem eq_strip (hs : strip s ≠ []) :
    s = s.takeWhile Lib.isSpace ++ (strip s ++ (s.reverse.takeWhile Lib.isSpace).reverse) := by
  have hback : (s.dropWhile Lib.isSpace).reverse.takeWhile Lib.isSpace = s.reverse.takeWhile Lib.isSpace := by
    have hsplit : s.reverse = (s.dropWhile Lib.isSpace).reverse ++ (s.takeWhile Lib.isSpace).reverse := by
      rw [← List.reverse_append, List.takeWhile_append_dropWhile]
    rw [hsplit, List.takeWhile_append, if_neg]
    intro hlen
    have hall := (List.takeWhile_prefix Lib.isSpace).eq_of_length hlen
    apply hs
    rw [strip, List.dropWhile_eq_nil_iff.mpr fun c hc => List.mem_takeWhile_imp (hall ▸ hc)]
    rfl
  have hmiddle : strip s ++ (s.reverse.takeWhile Lib.isSpace).reverse = s.dropWhile Lib.isSpace := by
    rw [← hback, strip, ← List.reverse_append, List.takeWhile_append_dropWhile, List.reverse_reverse]
  rw [hmiddle, List.takeWhile_append_dropWhile]

/-! ## The three patterns -/

theorem isSpace_of_isDelimiter {c : CodePoint} (h : isDelimiter c = false) : Lib.isSpace c = false := by
  simp only [isDelimiter, Bool.or_eq_false_iff] at h
  exact h.1

/-- A label that begins with a name, and has a separator in it. -/
theorem inner_of_label {label : Regex CodePoint} (hnull : label.nullable = false)
    (hheads : ∀ c, label.heads c = true → ∃ letter ∈ ['t', 'a', 'r', 'o', 'b', 's', 'c', 'p'],
      ignoreCase letter c = true)
    (hmark : ∀ {before s x r}, (x, r) ∈ label.ways before s → ∃ c ∈ x, isSeparator c = true) :
    Inner ⟨label, value⟩ where
  consumes before s kept removed rest h := by
    obtain ⟨t, -, hhead⟩ := Rule.mem_of_first h
    exact value_ne_nil hhead
  head {before s kept removed rest} h c hc := by
    obtain ⟨t, hkept, -⟩ := Rule.mem_of_first h
    rw [← Rule.first_append h] at hc
    cases kept with
    | nil =>
      have hnil := Regex.nullable_of_ways hkept
      rw [hnull] at hnil
      cases hnil
    | cons d =>
      obtain rfl := Option.some.inj hc
      obtain ⟨letter, hl, hletter⟩ := hheads d (Regex.heads_of_ways hkept)
      exact isSpace_of_isDelimiter (ignoreCase_isDelimiter hl hletter)
  letters {before s kept removed rest} h c hc := by
    obtain ⟨t, -, hhead⟩ := Rule.mem_of_first h
    have hletter := (Regex.mem_many.mp (List.mem_of_mem_head? hhead)).2.1 c hc
    exact isSpace_of_isDelimiter (by simpa using hletter)
  marked {before s kept removed rest} h := by
    obtain ⟨t, hkept, -⟩ := Rule.mem_of_first h
    obtain ⟨c, hc, hsep⟩ := hmark hkept
    rw [isSeparator, decide_eq_true_eq] at hsep
    refine ⟨c, ?_, ?_⟩
    · rw [← Rule.first_append h]
      exact List.mem_append_left _ hc
    · rcases hsep with rfl | rfl <;> decide

theorem secretRule_inner : Inner secretRule := by
  refine inner_of_label (by decide) (fun c h => ?_) fun h => ?_
  · simp [secretLabel, secretName, named, Regex.choice, Regex.literal, Regex.heads, Regex.nullable] at h
    simp only [List.mem_cons]
    grind
  · obtain ⟨name, _, _, -, hrest, rfl⟩ := Regex.mem_seq.mp h
    obtain ⟨gap, _, _, -, hlast, rfl⟩ := Regex.mem_seq.mp hrest
    obtain ⟨_, _, back, hsep, -, rfl⟩ := Regex.mem_seq.mp hlast
    obtain ⟨c, hc, rfl, -⟩ := Regex.mem_one.mp hsep
    exact ⟨c, by simp, hc⟩

theorem authorizationRule_inner : Inner authorizationRule := by
  refine inner_of_label (by decide) (fun c h => ?_) fun h => ?_
  · simp [named, Regex.literal, Regex.heads, Regex.nullable] at h
    exact ⟨'a', by simp, h⟩
  · obtain ⟨name, _, _, -, hrest, rfl⟩ := Regex.mem_seq.mp h
    obtain ⟨gap, _, _, -, hlast, rfl⟩ := Regex.mem_seq.mp hrest
    obtain ⟨_, _, back, hsep, -, rfl⟩ := Regex.mem_seq.mp hlast
    obtain ⟨c, hc, rfl, -⟩ := Regex.mem_one.mp hsep
    exact ⟨c, by simp, hc⟩

theorem isSpace_of_isKeyLetter {c : CodePoint} (h : isKeyLetter c = true) : Lib.isSpace c = false := by
  simp only [isKeyLetter, isAlnum, between, Bool.or_eq_true, decide_eq_true_eq] at h
  simp only [Lib.isSpace, decide_eq_false_iff_not]
  rcases h with ((h | h) | h) | (rfl | rfl)
  · have : 65 ≤ c.val ∧ c.val ≤ 90 := h
    omega
  · have : 97 ≤ c.val ∧ c.val ≤ 122 := h
    omega
  · have : 48 ≤ c.val ∧ c.val ≤ 57 := h
    omega
  · decide
  · decide

theorem keyRule_inner (u : UnicodeTables) : Inner (keyRule u) where
  consumes := keyRule_consumes
  head h c hc := by
    obtain ⟨-, ⟨letters, rfl, -⟩, -, -, rfl⟩ := keyRule_first h
    obtain rfl := Option.some.inj hc
    decide
  letters h c hc := by
    obtain ⟨-, ⟨letters, rfl, hletters, -⟩, -⟩ := keyRule_first h
    rcases List.mem_append.mp hc with hc | hc
    · have hall : (lit "sk-").all (fun c => !Lib.isSpace c) = true := rfl
      simpa using List.all_eq_true.mp hall c hc
    · exact isSpace_of_isKeyLetter (hletters c hc)
  marked h := by
    obtain ⟨-, ⟨letters, rfl, -⟩, -, -, rfl⟩ := keyRule_first h
    exact ⟨ch '-', by simp [lit], by decide⟩

theorem mark_of_rewritten (h : Rewritten rule redacted before s out) : out = s ∨ ch '[' ∈ out := by
  induction h with
  | done => exact Or.inl rfl
  | @keep before c s out _ _ ih =>
    rcases ih with rfl | hmark
    · exact Or.inl rfl
    · exact Or.inr (List.mem_cons_of_mem _ hmark)
  | hit =>
    obtain ⟨t, ht⟩ := redacted_head
    exact Or.inr (by simp [ht])

theorem Inner.unmarked (hrule : Inner rule) (h : ∀ c ∈ s, c ∉ lit ":=-") : rule.substitute redacted s = s := by
  refine (Rule.substitute_rewritten hrule.consumes redacted s).eq_self ?_
  intro pre kept removed rest hs hfirst
  obtain ⟨c, hc, hmark⟩ := hrule.marked hfirst
  exact absurd hmark (h c (by rw [hs]; exact List.mem_append_right _ hc))

theorem redactText_unmarked (h : ∀ c ∈ s, c ∉ lit ":=-") : redactText u s = s := by
  rw [redactText, authorizationRule_inner.unmarked h, secretRule_inner.unmarked h, (keyRule_inner u).unmarked h]

theorem redactText_blank (h : ∀ c ∈ s, Lib.isSpace c = true) : redactText u s = s := by
  refine redactText_unmarked fun c hc hmark => ?_
  have hall : (lit ":=-").all (fun c => !Lib.isSpace c) = true := rfl
  have hspace := List.all_eq_true.mp hall c hmark
  rw [h c hc] at hspace
  cases hspace

theorem redactText_mark (u : UnicodeTables) (s : Text) : redactText u s = s ∨ ch '[' ∈ redactText u s := by
  have hstep : ∀ {rule : Rule CodePoint} {t : Text}, Inner rule → (t = s ∨ ch '[' ∈ t) →
      (rule.substitute redacted t = s ∨ ch '[' ∈ rule.substitute redacted t) := by
    intro rule t hrule ht
    rcases mark_of_rewritten (Rule.substitute_rewritten hrule.consumes redacted t) with heq | hmark
    · rwa [heq]
    · exact Or.inr hmark
  exact hstep (keyRule_inner u) (hstep secretRule_inner (hstep authorizationRule_inner (Or.inl rfl)))

theorem redactText_eq_name {name : Text} (h : ∀ c ∈ name, c ∉ lit "[:=-") : redactText u s = name ↔ s = name := by
  constructor
  · intro heq
    rcases redactText_mark u s with hsame | hmark
    · rw [← hsame, heq]
    · exact absurd (by decide) (h _ (heq ▸ hmark))
  · rintro rfl
    exact redactText_unmarked fun c hc hmark => h c hc (List.mem_cons_of_mem _ hmark)

theorem redactText_ends (u : UnicodeTables) (s : Text) :
    (redactText u s).takeWhile Lib.isSpace = s.takeWhile Lib.isSpace ∧
      (redactText u s).reverse.takeWhile Lib.isSpace = s.reverse.takeWhile Lib.isSpace := by
  have h := authorizationRule_inner.ends s
  have h' := secretRule_inner.ends (authorizationRule.substitute redacted s)
  have h'' := (keyRule_inner u).ends (secretRule.substitute redacted (authorizationRule.substitute redacted s))
  exact ⟨h''.1.trans (h'.1.trans h.1), h''.2.trans (h'.2.trans h.2)⟩

theorem strip_redactText_ne_nil (hs : strip s ≠ []) : strip (redactText u s) ≠ [] := by
  rcases redactText_mark u s with heq | hmark
  · rwa [heq]
  · intro hnil
    exact absurd (strip_eq_nil.mp hnil _ hmark) (by decide)

/-- **Between its first and its last letter** redaction changes a text if it changes it at all. -/
theorem strip_redactText (hs : strip s ≠ []) : strip (redactText u s) = strip s ↔ redactText u s = s := by
  refine ⟨fun heq => ?_, fun heq => by rw [heq]⟩
  obtain ⟨hlead, htrail⟩ := redactText_ends u s
  calc redactText u s
      = (redactText u s).takeWhile Lib.isSpace ++
          (strip (redactText u s) ++ ((redactText u s).reverse.takeWhile Lib.isSpace).reverse) :=
        eq_strip (strip_redactText_ne_nil hs)
    _ = s.takeWhile Lib.isSpace ++ (strip s ++ (s.reverse.takeWhile Lib.isSpace).reverse) := by
        rw [hlead, htrail, heq]
    _ = s := (eq_strip hs).symm

/-! ## Nested values -/

variable {φ : Type}

theorem redactEntries_eq_map (entries : List (Text × Value φ)) : redactEntries u entries =
    entries.map fun e => (e.1, if isSensitiveKey e.1 then .str redacted else redact u e.2) := by
  induction entries with
  | nil => rfl
  | cons e entries ih => rw [redactEntries, ih, List.map_cons]

theorem lookup_redactEntries (entries : List (Text × Value φ)) {key : Text} (hkey : isSensitiveKey key = false) :
    (redactEntries u entries).lookup key = (entries.lookup key).map (redact u) := by
  induction entries with
  | nil => rfl
  | cons e entries ih =>
    obtain ⟨k, v⟩ := e
    by_cases hk : key = k
    · subst hk
      simp [redactEntries, hkey]
    · simp [redactEntries, List.lookup_cons, beq_false_of_ne hk, ih]

mutual

theorem redact_sized : (v : Value φ) → v.Sized → (redact u v).Sized
  | .dict entries, h => by
    rw [redact]
    refine Value.sized_dict ?_ (redactEntries_sized entries fun e he => Value.sized_entry h he)
    rw [redactEntries_eq_map, List.map_map]
    exact h.tree.1
  | .list items, h => Value.sized_list (redactItems_sized items fun v hv => Value.sized_item h hv)
  | .str s, _ => Value.sized_str _
  | .none, h => h
  | .bool _, h => h
  | .int _, h => h
  | .float _, h => h
  | .foreign _ _, h => h

theorem redactItems_sized : (items : List (Value φ)) → (∀ v ∈ items, v.Sized) → ∀ v ∈ redactItems u items, v.Sized
  | [], _, _, hv => (by cases hv)
  | v :: items, h, w, hw => by
    rcases List.mem_cons.mp hw with rfl | hw
    · exact redact_sized v (h v List.mem_cons_self)
    · exact redactItems_sized items (fun v hv => h v (List.mem_cons_of_mem _ hv)) w hw

theorem redactEntries_sized : (entries : List (Text × Value φ)) → (∀ e ∈ entries, e.2.Sized) →
    ∀ e ∈ redactEntries u entries, e.2.Sized
  | [], _, _, he => (by cases he)
  | (key, v) :: entries, h, e, he => by
    rcases List.mem_cons.mp he with rfl | he
    · cases hkey : isSensitiveKey key with
      | true => exact Value.sized_str _
      | false => exact redact_sized v (h (key, v) List.mem_cons_self)
    · exact redactEntries_sized entries (fun e he => h e (List.mem_cons_of_mem _ he)) e he

end

end AgentFabric.Native
