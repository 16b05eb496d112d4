import AgentFabric.Lib.JsonRoundTrip

/-!
# The ASCII text of a value

The writer of JSON with its default settings: characters above ASCII are escaped, two escapes for one above the basic
plane, and the floating-point numbers that are not finite are written as words.
-/

namespace AgentFabric.Lib

/-- Floating-point numbers with the words for those that are not finite. -/
structure JsonFloats extends FloatFormat where
  word : Val → Text
  word_cases : ∀ x, isFinite x = false → (x = nan ∧ word x = lit "NaN") ∨ (x = infinity ∧ word x = lit "Infinity") ∨
    (x = negInfinity ∧ word x = lit "-Infinity")

/-- Floating-point numbers of which only NaN occurs. -/
def sampleFloats : JsonFloats where
  Val := Unit
  isFinite _ := false
  repr _ := []
  parse _ := ()
  nan := ()
  infinity := ()
  negInfinity := ()
  repr_literal _ h := nomatch h
  parse_repr _ h := nomatch h
  word _ := lit "NaN"
  word_cases _ _ := Or.inl ⟨rfl, rfl⟩

/-- `\u` and four digits. -/
def unicodeEscape (n : Nat) : Text :=
  [ch '\\', ch 'u', hexDigit (n / 4096), hexDigit (n / 256 % 16), hexDigit (n / 16 % 16), hexDigit (n % 16)]

/-- A character inside a string literal of ASCII characters. -/
def asciiEscaped (c : CodePoint) : Text :=
  if c.val < 0x7F then escaped c
  else if c.val < 0x10000 then unicodeEscape c.val
  else unicodeEscape (0xD800 + (c.val - 0x10000) / 0x400) ++ unicodeEscape (0xDC00 + (c.val - 0x10000) % 0x400)

section Writer

variable (F : JsonFloats)

/-- The spelling of a writer with `ensure_ascii` and `allow_nan`. -/
def ascii : Spelling F.Val where
  string s := s.flatMap asciiEscaped
  float x := some (if F.isFinite x then F.repr x else F.word x)

/-- `json.dumps` with `separators=(",", ":")` and `sort_keys=True`. -/
def canonicalText (v : Value F.Val) : Option Text := (ascii F).renderBy v.sorted

end Writer

/-! ## Objects -/

section Objects

variable {φ : Type}

/-- One more pair of an object: a key that is there already gets the new value. -/
def putEntry (entries : List (Text × Value φ)) (pair : Text × Value φ) : List (Text × Value φ) :=
  if entries.any fun e => decide (e.1 = pair.1) then entries.map fun e => if e.1 = pair.1 then pair else e
  else entries ++ [pair]

/-- The object that the reader builds from the pairs of a text: the last pair of a key counts. -/
def objectOf (pairs : List (Text × Value φ)) : Value φ := .dict (pairs.foldl putEntry [])

end Objects

/-! ## Strings -/

/-- How the scanner meets a character that the writer wrote. -/
def unitsOf (c : CodePoint) : List StrUnit :=
  if c.val < 0x7F then [unitOf c]
  else if c.val < 0x10000 then [.escape c.val]
  else [.escape (0xD800 + (c.val - 0x10000) / 0x400), .escape (0xDC00 + (c.val - 0x10000) % 0x400)]

/-- No two surrogates of the string would be read as one character. -/
def Joined (s : Text) : Prop := s.IsChain fun a b => ¬ (highSurrogate a.val = true ∧ lowSurrogate b.val = true)

theorem scanUnits_unicodeEscape {n : Nat} (hn : n < 0x10000) (t : Text) :
    scanUnits (unicodeEscape n ++ t) = (scanUnits t).map fun p => (.escape n :: p.1, p.2) := by
  have hhex : hex4 (hexDigit (n / 4096)) (hexDigit (n / 256 % 16)) (hexDigit (n / 16 % 16))
    (hexDigit (n % 16)) = some n := by
    simp only [hex4, hexValue_digit (show n / 4096 < 16 by omega), hexValue_digit (show n / 256 % 16 < 16 by omega),
      hexValue_digit (show n / 16 % 16 < 16 by omega), hexValue_digit (show n % 16 < 16 by omega), bind,
        Option.bind, pure,
      Option.some.injEq]
    omega
  have hu : unescape (ch 'u') = none := by decide
  simp only [unicodeEscape, List.cons_append, List.nil_append]
  simp [scanUnits, show ch '\\' ≠ ch '"' by decide, hu, hhex]

theorem scanUnits_asciiEscaped (c : CodePoint) (t : Text) :
    scanUnits (asciiEscaped c ++ t) = (scanUnits t).map fun p => (unitsOf c ++ p.1, p.2) := by
  unfold asciiEscaped unitsOf
  split
  · exact scanUnits_escaped c t
  split
  · next h => exact scanUnits_unicodeEscape h t
  · have hc := c.isLt
    rw [List.append_assoc, scanUnits_unicodeEscape (by omega), scanUnits_unicodeEscape (by omega), Option.map_map]
    rfl

theorem scanUnits_ascii (s t : Text) :
    scanUnits (s.flatMap asciiEscaped ++ ch '"' :: t) = some (s.flatMap unitsOf, t) := by
  induction s with
  | nil =>
    show scanUnits (ch '"' :: t) = some ([], t)
    rw [scanUnits.eq_def]
    simp
  | cons c s ih =>
    rw [List.flatMap_cons, List.append_assoc, scanUnits_asciiEscaped, ih]
    rfl

variable {units us : List StrUnit}

theorem joinUnits_escape {n : Nat}
    (h : ∀ low rest, units = .escape low :: rest → ¬ (highSurrogate n = true ∧ lowSurrogate low = true)) :
    joinUnits (.escape n :: units) = codePoint n :: joinUnits units := by
  cases units with
  | nil => rfl
  | cons u units =>
    cases u with
    | plain => rfl
    | escape low => simp only [joinUnits, if_neg (h low units rfl)]

theorem joinUnits_pair {v : Nat} (hv : v < 0x100000) (units : List StrUnit) :
    joinUnits (.escape (0xD800 + v / 0x400) :: .escape (0xDC00 + v % 0x400) :: units) =
      codePoint (0x10000 + v) :: joinUnits units := by
  have hhigh : highSurrogate (0xD800 + v / 0x400) = true := by
    simp only [highSurrogate, decide_eq_true_eq]
    omega
  have hlow : lowSurrogate (0xDC00 + v % 0x400) = true := by
    simp only [lowSurrogate, decide_eq_true_eq]
    omega
  have hjoined : 0x10000 + (0xD800 + v / 0x400 - 0xD800) * 0x400 + (0xDC00 + v % 0x400 - 0xDC00) = 0x10000 + v := by
    omega
  simp only [joinUnits, hhigh, hlow, and_self, if_true, joined, hjoined]

/-- Only a low surrogate is met first as the escape of one. -/
theorem unitsOf_low {d : CodePoint} {low : Nat} {rest : List StrUnit} (h : unitsOf d ++ units = .escape low :: rest)
    (hlow : lowSurrogate low = true) : lowSurrogate d.val = true := by
  simp only [lowSurrogate, decide_eq_true_eq] at hlow
  unfold unitsOf at h
  split at h
  · unfold unitOf at h
    split at h
    · injection h with h
      injection h with h
      omega
    · injection h with h
      cases h
  split at h
  · injection h with h
    injection h with h
    simp only [lowSurrogate, decide_eq_true_eq]
    omega
  · injection h with h
    injection h with h
    have := d.isLt
    omega

variable {s t : Text}

theorem joinUnits_ascii (hs : Joined s) : joinUnits (s.flatMap unitsOf) = s := by
  induction s with
  | nil => rfl
  | cons c s ih =>
    have ih := ih (List.IsChain.tail hs)
    -- an escape of `c` alone is not taken together with the next one
    have halone : ∀ low rest, s.flatMap unitsOf = .escape low :: rest →
        ¬ (highSurrogate c.val = true ∧ lowSurrogate low = true) := by
      rintro low rest heq ⟨hhigh, hlow⟩
      cases s with
      | nil => cases heq
      | cons => exact (List.isChain_cons_cons.mp hs).1 ⟨hhigh, unitsOf_low heq hlow⟩
    rw [List.flatMap_cons]
    by_cases hc : c.val < 0x7F
    · simp only [unitsOf, if_pos hc, unitOf]
      split
      · rw [List.singleton_append, joinUnits_escape halone, ih, codePoint_val]
      · rw [List.singleton_append, joinUnits, ih]
    · by_cases hc' : c.val < 0x10000
      · simp only [unitsOf, if_neg hc, if_pos hc']
        rw [List.singleton_append, joinUnits_escape halone, ih, codePoint_val]
      · have hlt := c.isLt
        have hval : 0x10000 + (c.val - 0x10000) = c.val := by omega
        simp only [unitsOf, if_neg hc, if_neg hc']
        rw [List.cons_append, List.singleton_append, joinUnits_pair (by omega), ih, hval, codePoint_val]

theorem scanString_ascii (hs : Joined s) (t : Text) :
    scanString (s.flatMap asciiEscaped ++ ch '"' :: t) = some (s, t) := by
  simp [scanString, scanUnits_ascii, joinUnits_ascii hs]

/-! ## Values -/

section Values

variable {F : JsonFloats} {ε : Type} {hook : List (Text × Value F.Val) → Except ε (Value F.Val)}

theorem scanOnce_word (x : F.Val) (hx : F.isFinite x = false) (t : Text) (n : Nat) :
    scanOnce F.toFloatFormat hook (n + 1) (F.word x ++ t) = .ok (.float x, t) := by
  rcases F.word_cases x hx with ⟨rfl, hw⟩ | ⟨rfl, hw⟩ | ⟨rfl, hw⟩ <;> rw [hw] <;> rfl

theorem ascii_legible (F : JsonFloats) :
    Spelling.Legible (F := F.toFloatFormat) (ascii F) Joined fun _ => True where
  string _ hs t := scanString_ascii hs t
  begins x _ s hs := by
    obtain rfl := Option.some.inj hs
    split
    · next hx =>
      obtain ⟨m, hm, -, hrepr⟩ := F.repr_literal x hx
      exact hrepr ▸ hm.begins
    · next hx =>
      rcases F.word_cases x (by simpa using hx) with ⟨-, hw⟩ | ⟨-, hw⟩ | ⟨-, hw⟩ <;> rw [hw] <;>
        exact ⟨_, _, rfl, by decide, by decide⟩
  float x _ s hs ε hook t ht n := by
    obtain rfl := Option.some.inj hs
    split
    · next hx =>
      obtain ⟨m, hm, hfloat, hrepr⟩ := F.repr_literal x hx
      rw [← hrepr]
      exact scanOnce_number hm (by simp [numberValue, hfloat, hrepr, F.parse_repr x hx]) ht n
    · next hx => exact scanOnce_word x (by simpa using hx) t n

/-- A value of JSON as the reader of JSON returns it. -/
abbrev Value.Readable (v : Value F.Val) : Prop := v.Read Joined fun _ => True

variable {v w : Value F.Val}

theorem loadsText_canonical (hhook : ∀ pairs, (pairs.map Prod.fst).Nodup → hook pairs = .ok (.dict pairs))
    (hv : v.Readable) {s : Text} (hs : canonicalText F v = some s) :
    loadsText F.toFloatFormat hook s = .ok v.sorted :=
  loadsText_renderBy (ascii_legible F) hhook (Value.Read.sorted hv) hs

/-- **The canonical text determines the value.** -/
theorem canonicalText_injective (hv : v.Readable) (hw : w.Readable) {s : Text} (hs : canonicalText F v = some s)
    (hs' : canonicalText F w = some s) : v.Same w := by
  have hhook : ∀ pairs : List (Text × Value F.Val), (pairs.map Prod.fst).Nodup →
      (Except.ok (.dict pairs) : Except Empty (Value F.Val)) = .ok (.dict pairs) := fun _ _ => rfl
  have h := loadsText_canonical hhook hv hs
  have h' := loadsText_canonical hhook hw hs'
  exact Except.ok.inj (h.symm.trans h')

theorem canonicalText_same (h : v.Same w) : canonicalText F v = canonicalText F w := by
  rw [canonicalText, canonicalText, h]

end Values

/-! ## What the reader returns -/

/-- A text without surrogates, as a file or a database holds it. -/
def Plain (t : Text) : Prop := ∀ c ∈ t, c.surrogate = false

def asciiText (t : Text) : Bool := t.all fun c => decide (c.val < 0x80)

theorem plain_of_ascii (h : asciiText t = true) : Plain t := by
  intro c hc
  have hlt := of_decide_eq_true (List.all_eq_true.mp h c hc)
  simp only [CodePoint.surrogate, decide_eq_false_iff_not]
  omega

theorem Plain.append (hs : Plain s) (ht : Plain t) : Plain (s ++ t) := by
  intro c hc
  rcases List.mem_append.mp hc with hc | hc
  · exact hs c hc
  · exact ht c hc

theorem Plain.joined (h : Plain s) : Joined s := by
  induction s with
  | nil => exact .nil
  | cons c s ih =>
    have ih := ih fun d hd => h d (List.mem_cons_of_mem c hd)
    cases s with
    | nil => exact .singleton c
    | cons =>
      refine .cons_cons ?_ ih
      rintro ⟨hhigh, -⟩
      have hc := h c List.mem_cons_self
      simp only [CodePoint.surrogate, highSurrogate, decide_eq_false_iff_not, decide_eq_true_eq] at hc hhigh
      omega

/-- The units of a string literal in a text without surrogates. -/
def StrUnit.Plain : StrUnit → Prop
  | .plain c => c.surrogate = false
  | .escape n => n < 0x10000

theorem hex4_lt {a b c d : CodePoint} {n : Nat} (h : hex4 a b c d = some n) : n < 0x10000 := by
  have hdigit : ∀ {c : CodePoint} {n : Nat}, hexValue c = some n → n < 16 := by
    intro c n h
    unfold hexValue at h
    simp only at h
    repeat' split at h
    all_goals cases h
    all_goals omega
  simp only [hex4, bind, Option.bind_eq_some_iff, pure, Option.some.injEq] at h
  obtain ⟨w, hw, x, hx, y, hy, z, hz, rfl⟩ := h
  have := hdigit hw
  have := hdigit hx
  have := hdigit hy
  have := hdigit hz
  omega

theorem unescape_plain {e c : CodePoint} (h : unescape e = some c) : c.surrogate = false := by
  unfold unescape at h
  split at h
  · next hquote =>
    cases h
    rcases hquote with rfl | rfl | rfl <;> decide
  · repeat' split at h
    all_goals cases h
    all_goals decide

theorem scanUnits_plain (t : Text) : ∀ {us : List StrUnit} {rest : Text}, scanUnits t = some (us, rest) → Plain t →
    ∀ u ∈ us, u.Plain := by
  fun_induction scanUnits t <;> intro us rest h ht
  all_goals try cases h
  all_goals try simp only [Option.map_eq_some_iff, Prod.mk.injEq, Prod.exists] at h
  · rintro _ ⟨⟩
  · next hc _ ih =>
    obtain ⟨us', rest', hrec, rfl, rfl⟩ := h
    refine List.forall_mem_cons.mpr ⟨unescape_plain hc, ih hrec fun d hd => ht d ?_⟩
    exact List.mem_cons_of_mem _ (List.mem_cons_of_mem _ hd)
  · next hn _ _ ih =>
    obtain ⟨us', rest', hrec, rfl, rfl⟩ := h
    refine List.forall_mem_cons.mpr ⟨hex4_lt hn, ih hrec fun d hd => ht d ?_⟩
    simp [hd]
  · next ih =>
    obtain ⟨us', rest', hrec, rfl, rfl⟩ := h
    exact List.forall_mem_cons.mpr ⟨ht _ List.mem_cons_self, ih hrec fun d hd => ht d (List.mem_cons_of_mem _ hd)⟩

theorem codePoint_of_lt {n : Nat} (h : n < 0x110000) : (codePoint n).val = n := by
  simp [codePoint, h]

/-- Only a low surrogate that is escaped is read as the first character. -/
theorem joinUnits_head_low (hus : ∀ u ∈ us, u.Plain) {d : CodePoint} (h : joinUnits us = d :: s)
    (hlow : lowSurrogate d.val = true) :
    ∃ low rest, us = .escape low :: rest ∧ lowSurrogate low = true := by
  simp only [lowSurrogate, decide_eq_true_eq] at hlow
  cases us with
  | nil => cases h
  | cons u us =>
    have hu := hus u List.mem_cons_self
    cases u with
    | plain =>
      rw [joinUnits] at h
      obtain rfl := (List.cons.inj h).1
      simp only [StrUnit.Plain, CodePoint.surrogate, decide_eq_false_iff_not] at hu
      omega
    | escape n =>
      have hval : (codePoint n).val = n := codePoint_of_lt (Nat.lt_trans hu (by decide))
      have hsingle : ∀ {t : Text}, codePoint n :: t = d :: s → lowSurrogate n = true := by
        intro t heq
        obtain rfl := (List.cons.inj heq).1
        simp only [lowSurrogate, decide_eq_true_eq]
        omega
      refine ⟨n, us, rfl, ?_⟩
      cases us with
      | nil => exact hsingle h
      | cons v =>
        cases v with
        | plain => exact hsingle h
        | escape =>
          simp only [joinUnits] at h
          split at h
          · next hpair =>
            -- the character of a pair is above the basic plane
            simp only [highSurrogate, Lib.lowSurrogate, decide_eq_true_eq] at hpair
            obtain rfl := (List.cons.inj h).1
            rw [joined, codePoint_of_lt (by omega)] at hlow
            omega
          · exact hsingle h

theorem joinUnits_joined (hus : ∀ u ∈ us, u.Plain) : Joined (joinUnits us) := by
  have hcons : ∀ {c : CodePoint} {s : Text}, Joined s →
      (∀ d t, s = d :: t → ¬ (highSurrogate c.val = true ∧ lowSurrogate d.val = true)) → Joined (c :: s) := by
    intro c s hs h
    cases s with
    | nil => exact .singleton c
    | cons d t => exact .cons_cons (h d t rfl) hs
  fun_induction joinUnits us with
  | case1 => exact .nil
  | case2 c us ih =>
    refine hcons (ih fun u hu => hus u (List.mem_cons_of_mem _ hu)) ?_
    rintro d t - ⟨hhigh, -⟩
    have hc := hus _ List.mem_cons_self
    simp only [StrUnit.Plain, CodePoint.surrogate, highSurrogate, decide_eq_false_iff_not,
      decide_eq_true_eq] at hc hhigh
    omega
  | case3 high low us hpair ih =>
    simp only [highSurrogate, Lib.lowSurrogate, decide_eq_true_eq] at hpair
    refine hcons (ih fun u hu => hus u (by simp [hu])) ?_
    rintro d t - ⟨hhigh, -⟩
    simp only [highSurrogate, decide_eq_true_eq] at hhigh
    rw [joined, codePoint_of_lt (by omega)] at hhigh
    omega
  | case4 high low us hpair ih =>
    have htail : ∀ u ∈ StrUnit.escape low :: us, u.Plain := fun u hu => hus u (List.mem_cons_of_mem _ hu)
    refine hcons (ih htail) ?_
    rintro d t heq ⟨hhigh, hlow⟩
    obtain ⟨low', rest, hcase, hlow'⟩ := joinUnits_head_low htail heq hlow
    cases hcase
    have hval : (codePoint high).val = high := codePoint_of_lt (Nat.lt_trans (hus _ List.mem_cons_self) (by decide))
    rw [hval] at hhigh
    exact hpair ⟨hhigh, hlow'⟩
  | case5 n us hne ih =>
    have htail : ∀ u ∈ us, u.Plain := fun u hu => hus u (List.mem_cons_of_mem _ hu)
    refine hcons (ih htail) ?_
    rintro d t heq ⟨-, hlow⟩
    obtain ⟨low', rest, rfl, -⟩ := joinUnits_head_low htail heq hlow
    exact hne low' rest rfl

section Objects

variable {F : JsonFloats}

variable {entries pairs : List (Text × Value F.Val)}

theorem mem_putEntry {pair e : Text × Value F.Val} (h : e ∈ putEntry entries pair) :
    e ∈ entries ∨ e = pair := by
  unfold putEntry at h
  split at h
  · obtain ⟨d, hd, rfl⟩ := List.mem_map.mp h
    split
    · exact Or.inr rfl
    · exact Or.inl hd
  · rcases List.mem_append.mp h with h | h
    · exact Or.inl h
    · exact Or.inr (List.mem_singleton.mp h)

theorem putEntry_keys (h : (entries.map Prod.fst).Nodup) (pair : Text × Value F.Val) :
    ((putEntry entries pair).map Prod.fst).Nodup := by
  unfold putEntry
  split
  · rw [List.map_map, List.map_congr_left (g := Prod.fst)]
    · exact h
    · intro e _
      simp only [Function.comp_apply]
      split
      · next heq => exact heq.symm
      · rfl
  · next hnew =>
    rw [List.map_append]
    refine List.nodup_append.mpr ⟨h, List.nodup_singleton _, fun a ha b hb heq => hnew ?_⟩
    obtain rfl := List.mem_singleton.mp hb
    obtain ⟨e, he, rfl⟩ := List.mem_map.mp ha
    exact List.any_eq_true.mpr ⟨e, he, decide_eq_true heq⟩

/-- The entries of an object are pairs of its text, with distinct keys. -/
theorem objectOf_entries (pairs : List (Text × Value F.Val)) :
    ∃ entries, objectOf pairs = .dict entries ∧ (entries.map Prod.fst).Nodup ∧ ∀ e ∈ entries, e ∈ pairs := by
  have hall : ∀ {pairs entries : List (Text × Value F.Val)}, (entries.map Prod.fst).Nodup →
      ((pairs.foldl putEntry entries).map Prod.fst).Nodup ∧
      ∀ e ∈ pairs.foldl putEntry entries, e ∈ entries ∨ e ∈ pairs := by
    intro pairs
    induction pairs with
    | nil => exact fun hkeys => ⟨hkeys, fun _ he => Or.inl he⟩
    | cons pair pairs ih =>
      intro entries hkeys
      obtain ⟨hnodup, hmem⟩ := ih (putEntry_keys hkeys pair)
      refine ⟨hnodup, fun e he => ?_⟩
      rcases hmem e he with hput | htail
      · rcases mem_putEntry hput with hold | rfl
        · exact Or.inl hold
        · exact Or.inr List.mem_cons_self
      · exact Or.inr (List.mem_cons_of_mem pair htail)
  obtain ⟨hnodup, hmem⟩ := @hall pairs [] List.nodup_nil
  exact ⟨_, rfl, hnodup, fun e he => (hmem e he).resolve_left fun h => (by cases h)⟩

theorem objectOf_readable (h : ∀ e ∈ pairs, Joined e.1 ∧ e.2.Readable) :
    (objectOf pairs).Readable := by
  obtain ⟨entries, hobject, hkeys, hmem⟩ := objectOf_entries pairs
  rw [hobject]
  exact .dict hkeys (fun e he => (h e (hmem e he)).1) fun e he => (h e (hmem e he)).2

theorem reads_objects (F : JsonFloats) :
    Reads F.toFloatFormat (fun pairs => (.ok (objectOf pairs) : Except Empty (Value F.Val))) Plain Joined
      Value.Readable where
  rest _ _ ht hu c hc := ht c (hu.subset hc)
  string t s rest ht hs := by
    simp only [scanString, Option.map_eq_some_iff, Prod.mk.injEq, Prod.exists] at hs
    obtain ⟨us, _, hus, rfl, -⟩ := hs
    exact joinUnits_joined (scanUnits_plain t hus ht)
  none := .none
  bool := .bool
  int n _ := .int n
  float _ := .float trivial
  str _ := .str
  list _ := .list
  hook pairs v heq h := Except.ok.inj heq ▸ objectOf_readable h

/-- Entries with different keys are read as they are. -/
theorem objectOf_nodup (h : (pairs.map Prod.fst).Nodup) :
    objectOf pairs = .dict pairs := by
  have hall : ∀ {pairs : List (Text × Value F.Val)} (entries : List (Text × Value F.Val)),
      ((entries ++ pairs).map Prod.fst).Nodup → pairs.foldl putEntry entries = entries ++ pairs := by
    intro pairs
    induction pairs with
    | nil => exact fun _ _ => (List.append_nil _).symm
    | cons pair pairs ih =>
      intro entries hnodup
      have hput : putEntry entries pair = entries ++ [pair] := by
        unfold putEntry
        rw [if_neg]
        intro hany
        obtain ⟨e, he, heq⟩ := List.any_eq_true.mp hany
        rw [List.map_append] at hnodup
        exact (List.nodup_append.mp hnodup).2.2 e.1 (List.mem_map_of_mem he) pair.1 (by simp) (of_decide_eq_true heq)
      rw [List.foldl_cons, hput, ih _ (by simpa using hnodup), List.append_assoc, List.singleton_append]
  exact congrArg Value.dict (hall [] h)

end Objects

end AgentFabric.Lib
