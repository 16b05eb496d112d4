import AgentFabric.Lib.Json

/-!
# Reading JSON

The reader of JSON texts as a standard library has it: strict strings, the constants `NaN` and `Infinity`, numbers that
are split into integers and floats by their text, and a hook that builds the value of each object from its pairs.
-/

namespace AgentFabric.Lib

/-- Why a text is not read: bad syntax or a bad encoding, an integer that is too long, or the hook raised. -/
inductive LoadError (ε : Type) where
  | decode
  | digits
  | hook (error : ε)
  | exhausted
deriving DecidableEq

/-! ## Tokens -/

def skipSpace : Text → Text
  | [] => []
  | c :: t => if c ∈ lit " \t\n\r" then skipSpace t else c :: t

/-- The maximal run of digits and what follows it. -/
def spanDigits : Text → Text × Text
  | [] => ([], [])
  | c :: t => if isDigit c then (c :: (spanDigits t).1, (spanDigits t).2) else ([], c :: t)

def scanSign : Text → Text × Text
  | [] => ([], [])
  | c :: t => if c = ch '-' then ([c], t) else ([], c :: t)

def scanInt : Text → Option (Text × Text)
  | [] => none
  | c :: t =>
    if c = ch '0' then some ([c], t)
    else if isDigit c then some (c :: (spanDigits t).1, (spanDigits t).2)
    else none

def scanFrac : Text → Text × Text
  | [] => ([], [])
  | p :: t => if p = ch '.' ∧ (spanDigits t).1 ≠ [] then (p :: (spanDigits t).1, (spanDigits t).2) else ([], p :: t)

def scanExpSign : Text → Text × Text
  | [] => ([], [])
  | c :: t => if c = ch '+' ∨ c = ch '-' then ([c], t) else ([], c :: t)

/-- An exponent, or nothing when no digit follows its sign. -/
def scanExp : Text → Text × Text
  | [] => ([], [])
  | e :: t =>
    let (sign, u) := scanExpSign t
    if (e = ch 'e' ∨ e = ch 'E') ∧ (spanDigits u).1 ≠ [] then (e :: sign ++ (spanDigits u).1, (spanDigits u).2)
    else ([], e :: t)

def scanNumber (t : Text) : Option (NumberText × Text) := do
  let (sign, t₁) := scanSign t
  let (int, t₂) ← scanInt t₁
  let (frac, t₃) := scanFrac t₂
  let (exp, t₄) := scanExp t₃
  return (⟨sign, int, frac, exp⟩, t₄)

/-- `int` of a run of digits. -/
def ofDigits (t : Text) : Nat := t.foldl (fun n c => n * 10 + (c.val - 0x30)) 0

def ofInt (n : NumberText) : Int := if n.sign = [] then ofDigits n.int else -ofDigits n.int

/-- A character of a string literal: as it is, or from `\u` and four digits. -/
inductive StrUnit where
  | plain (c : CodePoint)
  | escape (n : Nat)

def hexValue (c : CodePoint) : Option Nat :=
  let n := c.val
  if 0x30 ≤ n ∧ n ≤ 0x39 then some (n - 0x30)
  else if 0x61 ≤ n ∧ n ≤ 0x66 then some (n - 0x57)
  else if 0x41 ≤ n ∧ n ≤ 0x46 then some (n - 0x37)
  else none

def hex4 (a b c d : CodePoint) : Option Nat := do
  return (((← hexValue a) * 16 + (← hexValue b)) * 16 + (← hexValue c)) * 16 + (← hexValue d)

/-- The escapes of one character. -/
def unescape (c : CodePoint) : Option CodePoint :=
  if c = ch '"' ∨ c = ch '\\' ∨ c = ch '/' then some c
  else if c = ch 'b' then some (codePoint 8)
  else if c = ch 'f' then some (codePoint 12)
  else if c = ch 'n' then some (ch '\n')
  else if c = ch 'r' then some (ch '\r')
  else if c = ch 't' then some (ch '\t')
  else none

/-- A string literal after its opening quote: its characters, and the text after the closing quote. -/
def scanUnits : Text → Option (List StrUnit × Text)
  | [] => none
  | c :: t =>
    if c = ch '"' then some ([], t)
    else if c = ch '\\' then
      match t with
      | [] => none
      | e :: t =>
        match unescape e with
        | some c => (scanUnits t).map fun p => (.plain c :: p.1, p.2)
        | none =>
          if e = ch 'u' then
            match t with
            | h₁ :: h₂ :: h₃ :: h₄ :: t =>
              match hex4 h₁ h₂ h₃ h₄ with
              | some n => (scanUnits t).map fun p => (.escape n :: p.1, p.2)
              | none => none
            | _ => none
          else none
    else if c.val < 0x20 then none
    else (scanUnits t).map fun p => (.plain c :: p.1, p.2)

/-- Two escapes in a row that are a surrogate pair are one character. -/
def joinUnits : List StrUnit → Text
  | [] => []
  | .plain c :: units => c :: joinUnits units
  | .escape high :: .escape low :: units =>
    if highSurrogate high ∧ lowSurrogate low then joined high low :: joinUnits units
    else codePoint high :: joinUnits (.escape low :: units)
  | .escape n :: units => codePoint n :: joinUnits units

def scanString (t : Text) : Option (Text × Text) := (scanUnits t).map fun p => (joinUnits p.1, p.2)

/-- The text after a given word. -/
def scanWord (word t : Text) : Option Text := if word.isPrefixOf t then some (t.drop word.length) else none

/-! ## Values -/

section Scanner

variable (F : FloatFormat) {ε : Type}

/-- A number: `float` of its text if it has a fraction or an exponent, else `int`. -/
def numberValue (n : NumberText) : Except (LoadError ε) (Value F.Val) :=
  if n.isFloat then .ok (.float (F.parse n.text))
  else if n.int.length ≤ maxStrDigits then .ok (.int (ofInt n))
  else .error .digits

/-- The words of JSON, and those that stand for the numbers that are not finite. -/
def scanConstant (t : Text) : Option (Value F.Val × Text) :=
  ((scanWord (lit "null") t).map (.none, ·)) <|> ((scanWord (lit "true") t).map (.bool true, ·)) <|>
    ((scanWord (lit "false") t).map (.bool false, ·)) <|> ((scanWord (lit "NaN") t).map (.float F.nan, ·)) <|>
    ((scanWord (lit "Infinity") t).map (.float F.infinity, ·)) <|>
    ((scanWord (lit "-Infinity") t).map (.float F.negInfinity, ·))

variable (hook : List (Text × Value F.Val) → Except ε (Value F.Val))

mutual

/-- The value that a text begins with, and the rest of the text. -/
def scanOnce : Nat → Text → Except (LoadError ε) (Value F.Val × Text)
  | 0, _ => .error .exhausted
  | _ + 1, [] => .error .decode
  | n + 1, c :: t =>
    if c = ch '"' then
      match scanString t with
      | some (s, t) => .ok (.str s, t)
      | none => .error .decode
    else if c = ch '{' then
      match skipSpace t with
      | [] => .error .decode
      | d :: u => do
        let (pairs, rest) ← if d = ch '}' then .ok ([], u) else scanPairs n (d :: u)
        match hook pairs with
        | .ok v => .ok (v, rest)
        | .error e => .error (.hook e)
    else if c = ch '[' then
      match skipSpace t with
      | [] => .error .decode
      | d :: u => do
        let (items, rest) ← if d = ch ']' then .ok ([], u) else scanItems n (d :: u)
        .ok (.list items, rest)
    else
      match scanConstant F (c :: t) with
      | some p => .ok p
      | none =>
        match scanNumber (c :: t) with
        | some (m, rest) => do
          let v ← numberValue F m
          .ok (v, rest)
        | none => .error .decode

/-- The items of an array, up to its bracket. -/
def scanItems : Nat → Text → Except (LoadError ε) (List (Value F.Val) × Text)
  | 0, _ => .error .exhausted
  | n + 1, t => do
    let (v, t) ← scanOnce n t
    match skipSpace t with
    | [] => .error .decode
    | c :: t =>
      if c = ch ']' then .ok ([v], t)
      else if c = ch ',' then do
        let (items, rest) ← scanItems n (skipSpace t)
        .ok (v :: items, rest)
      else .error .decode

/-- The pairs of an object, up to its brace. -/
def scanPairs : Nat → Text → Except (LoadError ε) (List (Text × Value F.Val) × Text)
  | 0, _ => .error .exhausted
  | _ + 1, [] => .error .decode
  | n + 1, q :: t =>
    if q = ch '"' then
      match scanString t with
      | none => .error .decode
      | some (key, t) =>
        match skipSpace t with
        | [] => .error .decode
        | colon :: t =>
          if colon = ch ':' then do
            let (v, t) ← scanOnce n (skipSpace t)
            match skipSpace t with
            | [] => .error .decode
            | c :: t =>
              if c = ch '}' then .ok ([(key, v)], t)
              else if c = ch ',' then do
                let (pairs, rest) ← scanPairs n (skipSpace t)
                .ok ((key, v) :: pairs, rest)
              else .error .decode
          else .error .decode
    else .error .decode

end

/-- `JSONDecoder.decode`: one value with white space around it. -/
def loadsText (t : Text) : Except (LoadError ε) (Value F.Val) := do
  let (v, rest) ← scanOnce F hook (2 * t.length + 2) (skipSpace t)
  if skipSpace rest = [] then .ok v else .error .decode

/-- The text of a message: `json.detect_encoding`, then `bytes.decode` with `surrogatepass`. -/
def decodeBytes (b : List Byte) : Option Text :=
  let zero (i : Nat) : Bool := decide (b[i]? = some (byte 0))
  if [byte 0, byte 0, byte 0xFE, byte 0xFF].isPrefixOf b then utf32Decode true (b.drop 4)
  else if [byte 0xFF, byte 0xFE, byte 0, byte 0].isPrefixOf b then utf32Decode false (b.drop 4)
  else if [byte 0xFE, byte 0xFF].isPrefixOf b then utf16Decode true (b.drop 2)
  else if [byte 0xFF, byte 0xFE].isPrefixOf b then utf16Decode false (b.drop 2)
  else if [byte 0xEF, byte 0xBB, byte 0xBF].isPrefixOf b then utf8Decode (b.drop 3)
  else if 4 ≤ b.length then
    if zero 0 then if zero 1 then utf32Decode true b else utf16Decode true b
    else if zero 1 then if zero 2 && zero 3 then utf32Decode false b else utf16Decode false b
    else utf8Decode b
  else if b.length = 2 then
    if zero 0 then utf16Decode true b
    else if zero 1 then utf16Decode false b
    else utf8Decode b
  else utf8Decode b

/-- `json.loads` of a message. -/
def loads (b : List Byte) : Except (LoadError ε) (Value F.Val) :=
  match decodeBytes b with
  | some t => loadsText F hook t
  | none => .error .decode

end Scanner

/-! ## What is left of the text -/

section Rest

variable {F : FloatFormat}

theorem skipSpace_suffix (t : Text) : skipSpace t <:+ t := by
  induction t with
  | nil => exact List.suffix_refl _
  | cons c t ih =>
    simp only [skipSpace]
    split
    · exact ih.trans (List.suffix_cons c t)
    · exact List.suffix_refl _

theorem spanDigits_suffix (t : Text) : (spanDigits t).2 <:+ t := by
  induction t with
  | nil => exact List.suffix_refl _
  | cons c t ih =>
    simp only [spanDigits]
    split
    · exact ih.trans (List.suffix_cons c t)
    · exact List.suffix_refl _

/-- A number takes a character at least. -/
theorem scanNumber_rest {t rest : Text} {n : NumberText} (h : scanNumber t = some (n, rest)) :
    rest <:+ t ∧ rest.length < t.length := by
  have hsign : ∀ t, (scanSign t).2 <:+ t := by
    intro t
    unfold scanSign
    split
    · exact List.suffix_refl _
    · split <;> simp
  have hint : ∀ {t u ds : Text}, scanInt t = some (ds, u) → u <:+ t ∧ u.length < t.length := by
    intro t u ds h
    unfold scanInt at h
    split at h
    · cases h
    · next c t =>
      split at h
      · cases h
        exact ⟨List.suffix_cons c _, Nat.lt_succ_self _⟩
      split at h
      · cases h
        have hdigits := spanDigits_suffix t
        exact ⟨hdigits.trans (List.suffix_cons c t), Nat.lt_succ_of_le hdigits.length_le⟩
      · cases h
  have hfrac : ∀ t, (scanFrac t).2 <:+ t := by
    intro t
    unfold scanFrac
    split
    · exact List.suffix_refl _
    · next p t =>
      split
      · exact (spanDigits_suffix t).trans (List.suffix_cons p t)
      · exact List.suffix_refl _
  have hexpSign : ∀ t, (scanExpSign t).2 <:+ t := by
    intro t
    unfold scanExpSign
    split
    · exact List.suffix_refl _
    · split <;> simp
  have hexp : ∀ t, (scanExp t).2 <:+ t := by
    intro t
    unfold scanExp
    split
    · exact List.suffix_refl _
    · next e t =>
      simp only
      split
      · exact ((spanDigits_suffix _).trans (hexpSign t)).trans (List.suffix_cons e t)
      · exact List.suffix_refl _
  simp only [scanNumber, bind, Option.bind_eq_some_iff, pure, Option.some.injEq, Prod.mk.injEq] at h
  obtain ⟨⟨ds, u⟩, hu, -, rfl⟩ := h
  have htail := (hexp (scanFrac u).2).trans (hfrac u)
  exact ⟨(htail.trans (hint hu).1).trans (hsign t),
    (htail.length_le.trans_lt (hint hu).2).trans_le (hsign t).length_le⟩

theorem scanUnits_rest (t : Text) : ∀ {us : List StrUnit} {rest : Text}, scanUnits t = some (us, rest) →
    rest <:+ t ∧ rest.length < t.length := by
  fun_induction scanUnits t <;> intro us rest h
  all_goals try cases h
  all_goals try simp only [Option.map_eq_some_iff, Prod.mk.injEq, Prod.exists] at h
  all_goals first
    | (obtain ⟨us', rest', hrec, -, rfl⟩ := h; rename_i ih; have := ih hrec; grind [List.suffix_cons_iff])
    | simp

theorem scanString_rest {t s rest : Text} (h : scanString t = some (s, rest)) : rest <:+ t ∧
    rest.length < t.length := by
  simp only [scanString, Option.map_eq_some_iff, Prod.mk.injEq, Prod.exists] at h
  obtain ⟨us, rest', hus, -, rfl⟩ := h
  exact scanUnits_rest t hus

theorem scanConstant_cases {t rest : Text} {v : Value F.Val} (h : scanConstant F t = some (v, rest)) :
    (rest <:+ t ∧ rest.length < t.length) ∧ (v = .none ∨ (∃ b, v = .bool b) ∨ ∃ x, v = .float x) := by
  have hword : ∀ {word rest : Text}, word ≠ [] → scanWord word t = some rest → rest <:+ t ∧ rest.length < t.length := by
    intro word rest hne h
    unfold scanWord at h
    split at h
    · next hp =>
      cases h
      have hle := (List.isPrefixOf_iff_prefix.mp hp).length_le
      have hpos := List.length_pos_iff.mpr hne
      exact ⟨List.drop_suffix _ t, by rw [List.length_drop]; omega⟩
    · cases h
  simp only [scanConstant, Option.orElse_eq_orElse, Option.orElse_eq_or,
    Option.or_eq_some_iff, Option.map_eq_some_iff, Prod.mk.injEq] at h
  rcases h with ⟨_, h, rfl, rfl⟩ | ⟨-, ⟨_, h, rfl, rfl⟩ | ⟨-, ⟨_, h, rfl, rfl⟩ | ⟨-, ⟨_, h, rfl, rfl⟩ |
    ⟨-, ⟨_, h, rfl, rfl⟩ | ⟨-, _, h, rfl, rfl⟩⟩⟩⟩⟩
  all_goals exact ⟨hword (by decide) h, by simp⟩

end Rest

/-! ## The bound of the scanner -/

section Bound

variable {F : FloatFormat} {ε : Type} {hook : List (Text × Value F.Val) → Except ε (Value F.Val)} {n : Nat}

/-- A scan of `t` that does not run out of its bound, and takes a character at least. -/
def Consumes {α : Type} (t : Text) : Except (LoadError ε) (α × Text) → Prop
  | .ok (_, rest) => rest.length < t.length
  | .error e => e ≠ .exhausted

theorem Consumes.error {α : Type} {t : Text} {e : LoadError ε} (h : e ≠ .exhausted) :
    Consumes (α := α) t (.error e) := h

theorem Consumes.bind {α β : Type} {t u : Text} {r : Except (LoadError ε) (α × Text)}
    {f : α × Text → Except (LoadError ε) (β × Text)} (hr : Consumes u r)
    (hf : ∀ a rest, rest.length < u.length → Consumes t (f (a, rest))) : Consumes t (r.bind f) := by
  cases r with
  | error => exact hr
  | ok p => exact hf p.1 p.2 hr

theorem numberValue_consumes {t rest : Text} (h : rest.length < t.length) (n : NumberText) :
    Consumes t ((numberValue (ε := ε) F n).bind fun v => .ok (v, rest)) := by
  unfold numberValue
  split
  · exact h
  split
  · exact h
  · exact Consumes.error nofun

/-- With twice the length of a text, and one or two to spare, its scan takes a character in every round. -/
structure Suffices (F : FloatFormat) (hook : List (Text × Value F.Val) → Except ε (Value F.Val)) (n : Nat) : Prop where
  value : ∀ t, 2 * t.length + 1 ≤ n → Consumes t (scanOnce F hook n t)
  items : ∀ t, 2 * t.length + 2 ≤ n → Consumes t (scanItems F hook n t)
  pairs : ∀ t, 2 * t.length + 2 ≤ n → Consumes t (scanPairs F hook n t)

theorem Suffices.scanOnce_succ (h : Suffices F hook n) (t : Text) (ht : 2 * t.length + 1 ≤ n + 1) :
    Consumes t (scanOnce F hook (n + 1) t) := by
  cases t with
  | nil => exact Consumes.error nofun
  | cons c t =>
    rw [List.length_cons] at ht
    have hskip := (skipSpace_suffix t).length_le
    simp only [scanOnce]
    split
    · split
      · next s rest heq => exact Nat.lt_succ_of_lt ((scanString_rest heq).2)
      · exact Consumes.error nofun
    split
    · split
      · exact Consumes.error nofun
      · next d u heq =>
        rw [heq, List.length_cons] at hskip
        split
        · simp only [bind, Except.bind]
          split
          · show u.length < t.length + 1
            omega
          · exact Consumes.error nofun
        · refine (h.pairs (d :: u) (by rw [List.length_cons]; omega)).bind fun pairs rest hrest => ?_
          rw [List.length_cons] at hrest
          simp only
          split
          · show rest.length < t.length + 1
            omega
          · exact Consumes.error nofun
    split
    · split
      · exact Consumes.error nofun
      · next d u heq =>
        rw [heq, List.length_cons] at hskip
        split
        · show u.length < t.length + 1
          omega
        · refine (h.items (d :: u) (by rw [List.length_cons]; omega)).bind fun items rest hrest => ?_
          rw [List.length_cons] at hrest
          show rest.length < t.length + 1
          omega
    split
    · next p heq => exact (scanConstant_cases heq).1.2
    · split
      · next m rest heq => exact numberValue_consumes (scanNumber_rest heq).2 m
      · exact Consumes.error nofun

theorem Suffices.scanItems_succ (h : Suffices F hook n) (t : Text) (ht : 2 * t.length + 2 ≤ n + 1) :
    Consumes t (scanItems F hook (n + 1) t) := by
  simp only [scanItems, bind]
  refine (h.value t (by omega)).bind fun v rest hrest => ?_
  have hskip := (skipSpace_suffix rest).length_le
  simp only
  split
  · exact Consumes.error nofun
  · next c u heq =>
    rw [heq, List.length_cons] at hskip
    split
    · show u.length < t.length
      omega
    split
    · have hspace := (skipSpace_suffix u).length_le
      refine (h.items (skipSpace u) (by omega)).bind fun items rest hrest => ?_
      show rest.length < t.length
      omega
    · exact Consumes.error nofun

theorem Suffices.scanPairs_succ (h : Suffices F hook n) (t : Text) (ht : 2 * t.length + 2 ≤ n + 1) :
    Consumes t (scanPairs F hook (n + 1) t) := by
  cases t with
  | nil => exact Consumes.error nofun
  | cons q t =>
    rw [List.length_cons] at ht
    simp only [scanPairs]
    split
    · split
      · exact Consumes.error nofun
      · next key u heq =>
        have hkey := (scanString_rest heq).2
        have hskip := (skipSpace_suffix u).length_le
        split
        · exact Consumes.error nofun
        · next colon w heq =>
          rw [heq, List.length_cons] at hskip
          split
          · have hspace := (skipSpace_suffix w).length_le
            refine (h.value (skipSpace w) (by omega)).bind fun v rest hrest => ?_
            have hskip' := (skipSpace_suffix rest).length_le
            simp only
            split
            · exact Consumes.error nofun
            · next c x heq =>
              rw [heq, List.length_cons] at hskip'
              split
              · show x.length < t.length + 1
                omega
              split
              · have hspace' := (skipSpace_suffix x).length_le
                refine (h.pairs (skipSpace x) (by omega)).bind fun pairs rest hrest => ?_
                show rest.length < t.length + 1
                omega
              · exact Consumes.error nofun
          · exact Consumes.error nofun
    · exact Consumes.error nofun

theorem scan_consumes : ∀ n : Nat, Suffices F hook n
  | 0 => ⟨fun t h => absurd h (by omega), fun t h => absurd h (by omega), fun t h => absurd h (by omega)⟩
  | n + 1 => ⟨(scan_consumes n).scanOnce_succ, (scan_consumes n).scanItems_succ, (scan_consumes n).scanPairs_succ⟩

theorem loadsText_ne_exhausted (t : Text) : loadsText F hook t ≠ .error .exhausted := by
  have hlen := (skipSpace_suffix t).length_le
  have hscan : Consumes (skipSpace t) (scanOnce F hook (2 * t.length + 2) (skipSpace t)) :=
    (scan_consumes (2 * t.length + 2)).1 (skipSpace t) (by omega)
  unfold loadsText
  cases h : scanOnce F hook (2 * t.length + 2) (skipSpace t) with
  | error =>
    rw [h] at hscan
    exact fun heq => hscan (Except.error.inj heq)
  | ok =>
    simp only [bind, Except.bind]
    split <;> exact nofun

end Bound

/-! ## The integers that are read -/

theorem ofDigits_lt {t : Text} (h : ∀ c ∈ t, isDigit c = true) : ofDigits t < 10 ^ t.length := by
  induction t using List.reverseRecOn with
  | nil => exact Nat.one_pos
  | append_singleton t c ih =>
    have hdigit := h c (List.mem_append_right _ List.mem_cons_self)
    simp only [isDigit, decide_eq_true_eq] at hdigit
    have hbound := ih fun d hd => h d (List.mem_append_left _ hd)
    simp only [ofDigits, List.foldl_append, List.foldl_cons, List.foldl_nil, List.length_append, List.length_singleton,
      Nat.pow_succ] at hbound ⊢
    omega

theorem natText_length_le {n k : Nat} (hk : 0 < k) (h : n < 10 ^ k) : (natText n).length ≤ k := by
  unfold natText
  split
  · exact hk
  · rw [List.length_map, List.length_reverse]
    exact (Nat.digits_length_le_iff (by omega) n).mpr h

theorem spanDigits_all (t : Text) : ∀ c ∈ (spanDigits t).1, isDigit c = true := by
  induction t with
  | nil => exact fun c hc => nomatch hc
  | cons d t ih =>
    simp only [spanDigits]
    split
    · next hd => exact List.forall_mem_cons.mpr ⟨hd, ih⟩
    · exact fun c hc => nomatch hc

theorem scanInt_digits {t ds rest : Text} (h : scanInt t = some (ds, rest)) : Digits ds := by
  unfold scanInt at h
  split at h
  · cases h
  · split at h
    · next hzero =>
      cases h
      exact ⟨List.cons_ne_nil _ _, fun c hc => by rw [List.mem_singleton.mp hc, hzero]; decide⟩
    · split at h
      · next hd =>
        cases h
        exact ⟨List.cons_ne_nil _ _, List.forall_mem_cons.mpr ⟨hd, spanDigits_all _⟩⟩
      · cases h

theorem scanNumber_int {t rest : Text} {m : NumberText} (h : scanNumber t = some (m, rest))
    (hlen : m.int.length ≤ maxStrDigits) : (intText (ofInt m)).isSome = true := by
  simp only [scanNumber, bind, Option.bind_eq_some_iff, pure, Option.some.injEq, Prod.mk.injEq, Prod.exists] at h
  obtain ⟨ds, u, hint, rfl, -⟩ := h
  have hdigits := scanInt_digits hint
  have hnat : (ofInt ⟨(scanSign t).1, ds, (scanFrac u).1, (scanExp (scanFrac u).2).1⟩).natAbs = ofDigits ds := by
    unfold ofInt
    split <;> simp
  have hbound := natText_length_le (List.length_pos_of_ne_nil hdigits.1) (ofDigits_lt hdigits.2)
  simp only [intText]
  rw [hnat, if_pos (Nat.le_trans hbound hlen)]
  rfl

/-! ## What is read is well formed -/

section Yields

variable {F : FloatFormat} {ε : Type} {hook : List (Text × Value F.Val) → Except ε (Value F.Val)}
  {T S : Text → Prop} {V : Value F.Val → Prop} {n : Nat}

/-- What a scan returns, if it returns, satisfies `P`, and the rest of the text satisfies `T`. -/
def Yields {α : Type} (T : Text → Prop) (P : α → Prop) (r : Except (LoadError ε) (α × Text)) : Prop :=
  ∀ a rest, r = .ok (a, rest) → P a ∧ T rest

theorem Yields.ok {α : Type} {P : α → Prop} {a : α} {rest : Text} (h : P a) (ht : T rest) :
    Yields T P (.ok (a, rest) : Except (LoadError ε) (α × Text)) := by
  intro b rest' heq
  cases heq
  exact ⟨h, ht⟩

theorem Yields.error {α : Type} {P : α → Prop} (e : LoadError ε) :
    Yields T P (.error e : Except (LoadError ε) (α × Text)) := by
  intro a rest heq
  cases heq

theorem Yields.bind {α β : Type} {P : α → Prop} {Q : β → Prop} {r : Except (LoadError ε) (α × Text)}
    {f : α × Text → Except (LoadError ε) (β × Text)} (hr : Yields T P r)
    (hf : ∀ a rest, P a → T rest → Yields T Q (f (a, rest))) : Yields T Q (r.bind f) := by
  cases r with
  | error e => exact Yields.error e
  | ok p => exact hf p.1 p.2 (hr p.1 p.2 rfl).1 (hr p.1 p.2 rfl).2

/-- The values that are read from texts in `T` satisfy `V`, and their keys satisfy `S`. -/
structure Reads (F : FloatFormat) (hook : List (Text × Value F.Val) → Except ε (Value F.Val)) (T S : Text → Prop)
    (V : Value F.Val → Prop) : Prop where
  rest : ∀ t u, T t → u <:+ t → T u
  string : ∀ t s rest, T t → scanString t = some (s, rest) → S s
  none : V .none
  bool : ∀ b, V (.bool b)
  int : ∀ n, (intText n).isSome = true → V (.int n)
  float : ∀ x, V (.float x)
  str : ∀ s, S s → V (.str s)
  list : ∀ items, (∀ v ∈ items, V v) → V (.list items)
  hook : ∀ pairs v, hook pairs = .ok v → (∀ e ∈ pairs, S e.1 ∧ V e.2) → V v

theorem Reads.number (h : Reads F hook T S V) {t rest : Text} {n : NumberText} (hn : scanNumber t = some (n, rest))
    (ht : T rest) : Yields T V ((numberValue (ε := ε) F n).bind fun v => .ok (v, rest)) := by
  unfold numberValue
  split
  · exact Yields.ok (h.float _) ht
  split
  · next hlen => exact Yields.ok (h.int _ (scanNumber_int hn hlen)) ht
  · exact Yields.error _

theorem Reads.skip (h : Reads F hook T S V) {t u : Text} {c : CodePoint} (ht : T t) (heq : skipSpace t = c :: u) :
    T (c :: u) ∧ T u := by
  have hsuffix := skipSpace_suffix t
  rw [heq] at hsuffix
  exact ⟨h.rest t _ ht hsuffix, h.rest t _ ht ((List.suffix_cons c u).trans hsuffix)⟩

theorem Reads.built (h : Reads F hook T S V) (pairs : List (Text × Value F.Val)) (rest : Text)
    (hformed : ∀ e ∈ pairs, S e.1 ∧ V e.2) (hrest : T rest) : Yields T V (match hook pairs with
      | .ok v => .ok (v, rest)
      | .error e => .error (.hook e) : Except (LoadError ε) (Value F.Val × Text)) := by
  split
  · next v heq => exact Yields.ok (h.hook pairs v heq hformed) hrest
  · exact Yields.error _

/-- What a scan of `n` rounds reads. -/
structure Scans (F : FloatFormat) (hook : List (Text × Value F.Val) → Except ε (Value F.Val)) (T S : Text → Prop)
    (V : Value F.Val → Prop) (n : Nat) : Prop where
  value : ∀ t, T t → Yields T V (scanOnce F hook n t)
  items : ∀ t, T t → Yields T (fun items => ∀ v ∈ items, V v) (scanItems F hook n t)
  pairs : ∀ t, T t → Yields T (fun pairs => ∀ e ∈ pairs, S e.1 ∧ V e.2) (scanPairs F hook n t)

theorem Reads.scanOnce_succ (h : Reads F hook T S V) (ih : Scans F hook T S V n) (t : Text) (ht : T t) :
    Yields T V (scanOnce F hook (n + 1) t) := by
  cases t with
  | nil => exact Yields.error _
  | cons c t =>
    have ht' := h.rest _ t ht (List.suffix_cons c t)
    simp only [scanOnce]
    split
    · split
      · next s rest heq =>
        exact Yields.ok (h.str s (h.string t s rest ht' heq)) (h.rest t rest ht' (scanString_rest heq).1)
      · exact Yields.error _
    split
    · split
      · exact Yields.error _
      · next d u heq =>
        split
        · exact h.built [] _ (nofun) (h.skip ht' heq).2
        · exact (ih.pairs _ (h.skip ht' heq).1).bind h.built
    split
    · split
      · exact Yields.error _
      · next d u heq =>
        split
        · exact Yields.ok (h.list [] nofun) (h.skip ht' heq).2
        · exact (ih.items _ (h.skip ht' heq).1).bind fun items rest hformed hrest =>
            Yields.ok (h.list items hformed) hrest
    split
    · next p heq =>
      obtain ⟨v, rest⟩ := p
      obtain ⟨⟨hsuffix, -⟩, rfl | ⟨b, rfl⟩ | ⟨x, rfl⟩⟩ := scanConstant_cases heq
      · exact Yields.ok h.none (h.rest _ rest ht hsuffix)
      · exact Yields.ok (h.bool b) (h.rest _ rest ht hsuffix)
      · exact Yields.ok (h.float x) (h.rest _ rest ht hsuffix)
    · split
      · next m rest heq => exact h.number heq (h.rest _ rest ht (scanNumber_rest heq).1)
      · exact Yields.error _

theorem Reads.scanItems_succ (h : Reads F hook T S V) (ih : Scans F hook T S V n) (t : Text) (ht : T t) :
    Yields T (fun items => ∀ v ∈ items, V v) (scanItems F hook (n + 1) t) := by
  simp only [scanItems, bind]
  refine (ih.value t ht).bind fun v rest hv hrest => ?_
  simp only
  split
  · exact Yields.error _
  · next c u heq =>
    have hu := (h.skip hrest heq).2
    split
    · exact Yields.ok (fun w hw => List.mem_singleton.mp hw ▸ hv) hu
    split
    · refine (ih.items _ (h.rest u _ hu (skipSpace_suffix u))).bind fun items rest hformed hrest =>
        Yields.ok (fun w hw => ?_) hrest
      rcases List.mem_cons.mp hw with rfl | hw
      · exact hv
      · exact hformed w hw
    · exact Yields.error _

theorem Reads.scanPairs_succ (h : Reads F hook T S V) (ih : Scans F hook T S V n) (t : Text) (ht : T t) :
    Yields T (fun pairs => ∀ e ∈ pairs, S e.1 ∧ V e.2) (scanPairs F hook (n + 1) t) := by
  cases t with
  | nil => exact Yields.error _
  | cons q t =>
    have ht' := h.rest _ t ht (List.suffix_cons q t)
    simp only [scanPairs]
    split
    · split
      · exact Yields.error _
      · next key u heq =>
        have hkey := h.string t key u ht' heq
        have hu := h.rest t u ht' (scanString_rest heq).1
        split
        · exact Yields.error _
        · next d w hw =>
          split
          · refine (ih.value _ (h.rest w _ (h.skip hu hw).2 (skipSpace_suffix w))).bind fun v rest hv hrest => ?_
            simp only
            split
            · exact Yields.error _
            · next c x hx =>
              have hx' := (h.skip hrest hx).2
              split
              · exact Yields.ok (fun e he => List.mem_singleton.mp he ▸ ⟨hkey, hv⟩) hx'
              split
              · refine (ih.pairs _ (h.rest x _ hx' (skipSpace_suffix x))).bind fun pairs rest hformed hrest =>
                  Yields.ok (fun e he => ?_) hrest
                rcases List.mem_cons.mp he with rfl | he
                · exact ⟨hkey, hv⟩
                · exact hformed e he
              · exact Yields.error _
          · exact Yields.error _
    · exact Yields.error _

theorem Reads.scan (h : Reads F hook T S V) : ∀ n : Nat, Scans F hook T S V n
  | 0 => ⟨fun _ _ => Yields.error _, fun _ _ => Yields.error _, fun _ _ => Yields.error _⟩
  | n + 1 => ⟨h.scanOnce_succ (h.scan n), h.scanItems_succ (h.scan n), h.scanPairs_succ (h.scan n)⟩

theorem Reads.loadsText (h : Reads F hook T S V) {t : Text} (ht : T t) {v : Value F.Val}
    (hv : loadsText F hook t = .ok v) : V v := by
  unfold Lib.loadsText at hv
  cases hs : scanOnce F hook (2 * t.length + 2) (skipSpace t) with
  | error => simp [hs, bind, Except.bind] at hv
  | ok p =>
    simp only [hs, bind, Except.bind] at hv
    split at hv
    · cases hv
      exact ((h.scan _).1 _ (h.rest t _ ht (skipSpace_suffix t)) p.1 p.2 hs).1
    · cases hv

theorem formedItems_of_forall {items : List (Value F.Val)} (h : ∀ v ∈ items, v.Distinct) :
    Value.FormedItems True items := by
  induction items with
  | nil => trivial
  | cons v items ih =>
    exact ⟨h v List.mem_cons_self, ih fun w hw => h w (List.mem_cons_of_mem v hw)⟩

theorem loads_distinct (hhook : ∀ pairs v, hook pairs = .ok v → Value.FormedEntries True pairs → v.Distinct)
    {b : List Byte} {v : Value F.Val} (h : loads F hook b = .ok v) : v.Distinct := by
  have hreads : Reads F hook (fun _ => True) (fun _ => True) Value.Distinct := {
    rest := fun _ _ _ _ => trivial
    string := fun _ _ _ _ _ => trivial
    none := trivial
    bool := fun _ => trivial
    int := fun _ _ => trivial
    float := fun _ => trivial
    str := fun _ _ => trivial
    list := fun _ h => formedItems_of_forall h
    hook := fun pairs v heq h => hhook pairs v heq (Value.formedEntries_iff.mpr fun e he => (h e he).2) }
  unfold loads at h
  split at h
  · exact hreads.loadsText trivial h
  · cases h

end Yields

end AgentFabric.Lib
