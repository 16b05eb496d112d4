import AgentFabric.Lib.Json
import AgentFabric.Lib.Regex

/-!
# Redaction

What the store writes of a text or of a nested value: credentials in a text are cut out by three patterns, and the
values under the keys that name a credential are replaced.
-/

namespace AgentFabric.Store.Redaction

open AgentFabric.Lib

/-! ## Texts -/

/-- The tables of the standard library above ASCII: the letters of words, and case folding. -/
structure UnicodeTables where
  isWord : CodePoint → Bool
  casefold : CodePoint → Text

/-- No letter beyond ASCII is known. -/
def asciiTables : UnicodeTables := ⟨fun _ => false, fun c => [c]⟩

def between (first last : Char) (c : CodePoint) : Bool := decide ((ch first).val ≤ c.val ∧ c.val ≤ (ch last).val)

def isAlnum (c : CodePoint) : Bool := between 'A' 'Z' c || between 'a' 'z' c || between '0' '9' c

/-- `\w` -/
def UnicodeTables.word (u : UnicodeTables) (c : CodePoint) : Bool :=
  if c.val < 128 then isAlnum c || decide (c = ch '_') else u.isWord c

/-- A small letter under `(?i)`: also the dotted and the dotless i, the Kelvin sign and the long s. -/
def ignoreCase (letter : Char) (c : CodePoint) : Bool :=
  decide (c = ch letter ∨ c = ch letter.toUpper ∨ (letter = 'i' ∧ (c.val = 0x130 ∨ c.val = 0x131)) ∨
    (letter = 'k' ∧ c.val = 0x212A) ∨ (letter = 's' ∧ c.val = 0x17F))

def named (name : String) : Regex CodePoint := .literal (name.toList.map ignoreCase)

/-- `[ _-]?` -/
def blank? : Regex CodePoint := .opt (.one fun c => decide (c = ch ' ' ∨ c = ch '_' ∨ c = ch '-'))

def spaces : Regex CodePoint := .many Lib.isSpace 0

def isSeparator (c : CodePoint) : Bool := decide (c = ch ':' ∨ c = ch '=')

def isDelimiter (c : CodePoint) : Bool := Lib.isSpace c || decide (c = ch ',' ∨ c = ch ';')

/-- `[^\s,;]+` -/
def value : Regex CodePoint := .many (fun c => !isDelimiter c) 1

def authorizationRule : Rule CodePoint where
  kept := .seq (named "authorization") (.seq spaces (.seq (.one isSeparator) (.seq spaces
    (.seq (named "bearer") (.many Lib.isSpace 1)))))
  removed := value

def credentialName : Regex CodePoint := .choice [
  named "token",
  .seq (named "api") (.seq blank? (named "key")),
  .seq (named "access") (.seq blank? (named "token")),
  .seq (named "refresh") (.seq blank? (named "token")),
  .seq (named "oauth") (.seq blank? (named "token")),
  .seq (named "bearer") (.seq blank? (named "token")),
  .seq (named "auth") (.seq blank? (.choice [named "header", named "token"])),
  .seq (named "authorization") (.opt (.seq blank? (named "header"))),
  .seq (named "session") (.seq blank? (named "cookie")),
  .seq (named "client") (.seq blank? (named "secret")),
  .seq (named "private") (.seq blank? (named "key")),
  named "password",
  named "secret",
  named "signature",
  named "cookie"]

/-- A credential's name and what separates it from the value. -/
def credentialLabel : Regex CodePoint := .seq credentialName (.seq spaces (.seq (.one isSeparator) spaces))

def credentialRule : Rule CodePoint := ⟨credentialLabel, value⟩

def isKeyLetter (c : CodePoint) : Bool := isAlnum c || decide (c = ch '_' ∨ c = ch '-')

def exactly (text : String) : Regex CodePoint := .literal ((lit text).map fun letter c => decide (c = letter))

def keyRule (u : UnicodeTables) : Rule CodePoint where
  kept := .empty
  removed := .seq (.boundary u.word) (.seq (exactly "sk-") (.seq (.many isKeyLetter 12) (.boundary u.word)))

def redacted : Text := lit "[REDACTED]"

def redactText (u : UnicodeTables) (text : Text) : Text :=
  (keyRule u).substitute redacted (credentialRule.substitute redacted (authorizationRule.substitute redacted text))

/-! ## Nested values -/

def benignAccountingKeyIdentities : List Text := [
  "cachedtokens", "cachecreationtokens", "cachereadtokens", "cachetokens", "cachewritetokens", "inputtokens",
  "outputtokens", "reasoningtokens", "remainingtokens", "tokencount", "tokens", "totaltokens", "usedtokens"].map lit

def credentialKeyIdentities : List Text := [
  "accesskey", "accesskeyid", "accesstoken", "apikey", "apisecret", "auth", "authheader", "authheaders",
  "authorization", "authorizationheader", "authtoken", "bearer", "bearertoken", "clientcredential",
  "clientcredentials", "clientkey", "clientsecret", "clienttoken", "cookie", "credential", "credentials", "oauth",
  "oauthcredential", "oauthcredentials", "oauthsecret", "oauthtoken", "password", "passwd", "privatekey",
  "privatetoken", "refreshtoken", "secret", "sessioncookie", "sessiontoken", "signature", "token"].map lit

def credentialKeySuffixes : List Text := [
  "accesskey", "accesskeyid", "accesstoken", "apikey", "apisecret", "authheader", "authheaders", "authorization",
  "authorizationheader", "authtoken", "bearertoken", "clientcredential", "clientcredentials", "clientkey",
  "clientsecret", "clienttoken", "cookie", "credential", "credentials", "oauthcredential", "oauthcredentials",
  "oauthsecret", "oauthtoken", "password", "passwd", "privatekey", "privatetoken", "refreshtoken", "secret",
  "sessiontoken", "signature", "token"].map lit

def lowerAscii (c : CodePoint) : CodePoint := if between 'A' 'Z' c then codePoint (c.val + 32) else c

/-- `str.casefold` of one code point. -/
def UnicodeTables.fold (u : UnicodeTables) (c : CodePoint) : Text :=
  if c.val < 128 then [lowerAscii c] else u.casefold c

def compactKeyIdentity (u : UnicodeTables) (key : Text) : Text :=
  (key.flatMap u.fold).filter fun c => between 'a' 'z' c || between '0' '9' c

def isSensitiveKey (u : UnicodeTables) (key : Text) : Bool :=
  let identity := compactKeyIdentity u key
  if identity ∈ benignAccountingKeyIdentities then false
  else decide (identity ∈ credentialKeyIdentities) || credentialKeySuffixes.any (·.isSuffixOf identity)

mutual

def redactSensitive {φ : Type} (u : UnicodeTables) : Value φ → Value φ
  | .dict entries => .dict (redactEntries u entries)
  | .list items => .list (redactItems u items)
  | .str text => .str (redactText u text)
  | v => v

def redactItems {φ : Type} (u : UnicodeTables) : List (Value φ) → List (Value φ)
  | [] => []
  | v :: items => redactSensitive u v :: redactItems u items

def redactEntries {φ : Type} (u : UnicodeTables) : List (Text × Value φ) → List (Text × Value φ)
  | [] => []
  | (key, v) :: entries =>
    (key, if isSensitiveKey u key then .str redacted else redactSensitive u v) :: redactEntries u entries

end

/-! ## What the patterns match -/

variable {k : Text}

variable {c : CodePoint}

theorem ignoreCase_isDelimiter {letter : Char} (hl : letter ∈ ['t', 'a', 'r', 'o', 'b', 's', 'c', 'p'])
    (h : ignoreCase letter c = true) : isDelimiter c = false := by
  have hall : ['t', 'a', 'r', 'o', 'b', 's', 'c', 'p'].all (fun letter =>
      !isDelimiter (ch letter) && !isDelimiter (ch letter.toUpper)) = true := rfl
  have hletter := List.all_eq_true.mp hall letter hl
  simp only [Bool.and_eq_true, Bool.not_eq_true'] at hletter
  simp only [ignoreCase, decide_eq_true_eq] at h
  rcases h with rfl | rfl | ⟨-, h⟩ | ⟨-, h⟩ | ⟨-, h⟩
  · exact hletter.1
  · exact hletter.2
  all_goals
    simp only [isDelimiter, Lib.isSpace, Bool.or_eq_false_iff, decide_eq_false_iff_not, ch, codePoint, Fin.ext_iff]
    constructor
    · omega
    · intro hc
      simp at hc
      omega

theorem credentialLabel_local : credentialLabel.Local := by
  simp [credentialLabel, credentialName, named, spaces, blank?, Regex.choice, Regex.opt, Regex.literal, Regex.Local]

theorem credentialLabel_shape (h : credentialLabel.Accepts k) : ∃ front c back, k = front ++ c :: back ∧
    isSeparator c = true ∧ (∀ x ∈ front, isSeparator x = false) ∧ ∀ x ∈ back, Lib.isSpace x = true := by
  obtain ⟨name, _, _, hname, hrest, rfl⟩ := Regex.mem_seq.mp h
  obtain ⟨gap, _, _, hgap, hlast, rfl⟩ := Regex.mem_seq.mp hrest
  obtain ⟨_, _, back, hsep, hback, rfl⟩ := Regex.mem_seq.mp hlast
  obtain ⟨c, hc, rfl, -⟩ := Regex.mem_one.mp hsep
  refine ⟨name ++ gap, c, back, by simp, hc, fun x hx => ?_, (Regex.mem_many.mp hback).2.1⟩
  by_contra hsep
  rw [Bool.not_eq_false, isSeparator, decide_eq_true_eq] at hsep
  rcases List.mem_append.mp hx with hx | hx
  · have hletter := Regex.letters_of_ways hname x hx
    rcases hsep with rfl | rfl <;> exact absurd hletter (by decide)
  · have hspace := (Regex.mem_many.mp hgap).2.1 x hx
    rcases hsep with rfl | rfl <;> exact absurd hspace (by decide)

theorem credentialLabel_no_mark (h : credentialLabel.Accepts k) : ch '[' ∉ k := by
  intro hm
  exact absurd (Regex.letters_of_ways h _ hm) (by decide)

theorem credentialLabel_heads (h : credentialLabel.heads c = true) :
    ∃ letter ∈ ['t', 'a', 'r', 'o', 'b', 's', 'c', 'p'], ignoreCase letter c = true := by
  simp [credentialLabel, credentialName, named, Regex.choice, Regex.literal, Regex.heads, Regex.nullable] at h
  simp only [List.mem_cons]
  grind

theorem credentialLabel_head (h : credentialLabel.Accepts k) : ∃ c k', k = c :: k' ∧ isDelimiter c = false := by
  cases k with
  | nil => exact absurd (Regex.nullable_of_ways h) (by decide)
  | cons c k' =>
    obtain ⟨letter, hl, hc⟩ := credentialLabel_heads (Regex.heads_of_ways h)
    exact ⟨c, k', rfl, ignoreCase_isDelimiter hl hc⟩

theorem no_label_in_redacted (n : Nat) (hn : n < 10) (s : Text) :
    credentialLabel.ways none (redacted.drop n ++ s) = [] := by
  interval_cases n <;> rfl

/-! ## Texts without a credential -/

/-- The longest run of letters of a value. -/
def Run (d r : Text) : Prop := d ≠ [] ∧ (∀ c ∈ d, isDelimiter c = false) ∧ ∀ c ∈ r.head?, isDelimiter c = true

/-- Every value after a credential's name is the replacement. -/
def Clean (s : Text) : Prop :=
  ∀ pre k d r, s = pre ++ (k ++ (d ++ r)) → credentialLabel.Accepts k → Run d r → d = redacted

variable {before : Option CodePoint} {s out pre k d r : Text}

theorem Clean.of_append {x : Text} (h : Clean (x ++ s)) : Clean s := by
  intro pre k d r hs
  exact h (x ++ pre) k d r (by rw [hs, List.append_assoc])

theorem run_takeWhile (hne : s.takeWhile (fun c => !isDelimiter c) ≠ []) :
    Run (s.takeWhile fun c => !isDelimiter c) (s.dropWhile fun c => !isDelimiter c) := by
  refine ⟨hne, fun x hx => by simpa using List.mem_takeWhile_imp hx, fun x hx => ?_⟩
  have hhead := List.head?_dropWhile_not (fun c => !isDelimiter c) s
  rw [Option.mem_def.mp hx] at hhead
  simpa using hhead

theorem Run.cons (s : Text) (hc : isDelimiter c = false) : ∃ d r, c :: s = d ++ r ∧ Run d r :=
  ⟨_, _, List.takeWhile_append_dropWhile.symm, run_takeWhile (by simp [hc])⟩

theorem Run.unique {d' r' : Text} (h : Run d r) (h' : Run d' r') (heq : d ++ r = d' ++ r') : d = d' ∧ r = r' := by
  rcases List.append_eq_append_iff.mp heq with ⟨y, rfl, rfl⟩ | ⟨y, rfl, rfl⟩
  · cases y with
    | nil => simp
    | cons c =>
      have hdelim := h.2.2 c rfl
      rw [h'.2.1 c (by simp)] at hdelim
      cases hdelim
  · cases y with
    | nil => simp
    | cons c =>
      have hdelim := h'.2.2 c rfl
      rw [h.2.1 c (by simp)] at hdelim
      cases hdelim

theorem redacted_run (h : ∀ c ∈ r.head?, isDelimiter c = true) : Run redacted r := by
  have hall : redacted.all (fun c => !isDelimiter c) = true := rfl
  exact ⟨List.cons_ne_nil _ _, fun c hc => by simpa using List.all_eq_true.mp hall c hc, h⟩

theorem label_behind_redacted (h : pre ++ (k ++ s) = redacted ++ out) (hk : credentialLabel.Accepts k) :
    ∃ pre', pre = redacted ++ pre' ∧ pre' ++ (k ++ s) = out := by
  rcases List.append_eq_append_iff.mp h with ⟨y, hy, hks⟩ | ⟨pre', rfl, hpre⟩
  · by_cases hn : pre.length < 10
    · have hway := hk.ways credentialLabel_local none s
      have hdrop : y = redacted.drop pre.length := by rw [hy, List.drop_left]
      rw [hks, hdrop, no_label_in_redacted _ hn] at hway
      cases hway
    · have hlen : pre.length + y.length = 10 := by
        rw [← List.length_append, ← hy]
        rfl
      obtain rfl : y = [] := List.length_eq_zero_iff.mp (by omega)
      refine ⟨[], by simpa using hy.symm, by simpa using hks⟩
  · exact ⟨pre', rfl, hpre.symm⟩

theorem redacted_eq : redacted = ch '[' :: lit "REDACTED]" := rfl

theorem common_to_mark {rule : Rule CodePoint} {x out' : Text} (h : Rewritten rule redacted before s out)
    (hx : ch '[' ∉ x) (hout : out = x ++ out') :
    ∃ s', s = x ++ s' ∧ (s'.head? = out'.head? ∨ ∃ pre kept removed rest, x = pre ++ kept ∧ s' = removed ++ rest ∧
      rule.first (Regex.lastOr before pre) (kept ++ (removed ++ rest)) = some (kept, removed, rest)) := by
  rw [redacted_eq] at h
  exact h.common hx hout

theorem split_at_mark {rule : Rule CodePoint} {x out' : Text} (h : Rewritten rule redacted before s out)
    (hkept : rule.kept = .empty) (hx : ch '[' ∉ x) (hout : out = x ++ out') :
    ∃ s', s = x ++ s' ∧ Rewritten rule redacted (Regex.lastOr before x) s' out' := by
  rw [redacted_eq] at h ⊢
  exact h.split hkept hx hout

/-! ## The second pattern -/

theorem credentialRule_first {kept removed rest : Text}
    (h : credentialRule.first before s = some (kept, removed, rest)) :
    credentialLabel.Accepts kept ∧ Run removed rest ∧ kept ++ (removed ++ rest) = s := by
  obtain ⟨t, hkept, hhead⟩ := Rule.mem_of_first h
  have hmem := Regex.mem_many.mp (List.mem_of_mem_head? hhead)
  obtain ⟨rfl, rfl⟩ := Regex.head_many hhead
  refine ⟨credentialLabel_local.accepts hkept, run_takeWhile ?_, Rule.first_append h⟩
  exact List.ne_nil_of_length_pos hmem.2.2

theorem credentialRule_found (hk : credentialLabel.Accepts k) (hc : isDelimiter c = false) :
    credentialRule.first before (k ++ c :: s) ≠ none := by
  have hvalue : ([c], s) ∈ credentialRule.removed.ways (Regex.lastOr before k) (c :: s) :=
    Regex.mem_many.mpr ⟨rfl, by simpa using hc, by simp⟩
  exact Rule.first_ne_none (hk.ways credentialLabel_local before (c :: s)) hvalue

theorem credentialRule_consumes : credentialRule.Consumes := by
  intro before s kept removed rest h
  exact (credentialRule_first h).2.1.1

theorem split_unique {a b a' b' : Text} {c c' : CodePoint} (h : a ++ c :: b = a' ++ c' :: b')
    (hc : isSeparator c = true) (ha : ∀ x ∈ a', isSeparator x = false) (hb : ∀ x ∈ b', isSeparator x = false) :
    b = b' := by
  rcases List.append_eq_append_iff.mp h with ⟨y, rfl, hy⟩ | ⟨y, rfl, hy⟩
  · cases y with
    | nil => exact (List.cons.inj hy).2
    | cons =>
      obtain ⟨rfl, -⟩ := List.cons.inj hy
      rw [ha c (by simp)] at hc
      cases hc
  · cases y with
    | nil => exact (List.cons.inj hy).2.symm
    | cons =>
      obtain ⟨-, rfl⟩ := List.cons.inj hy
      rw [hb c (by simp)] at hc
      cases hc

theorem space_not_separator (h : Lib.isSpace c = true) : isSeparator c = false := by
  by_contra hsep
  rw [Bool.not_eq_false, isSeparator, decide_eq_true_eq] at hsep
  rcases hsep with rfl | rfl <;> exact absurd h (by decide)

theorem label_within {pre k2 : Text} (h : credentialLabel.Accepts (pre ++ (k ++ k2)))
    (hk : credentialLabel.Accepts k) : ∀ c ∈ k2, Lib.isSpace c = true := by
  obtain ⟨front, c, back, hshape, -, hfront, hback⟩ := credentialLabel_shape h
  obtain ⟨front', c', back', rfl, hc', -, -⟩ := credentialLabel_shape hk
  have hsame : (pre ++ front') ++ c' :: (back' ++ k2) = front ++ c :: back := by simpa using hshape
  have hrest := split_unique hsame hc' hfront fun x hx => space_not_separator (hback x hx)
  intro x hx
  exact hback x (hrest ▸ List.mem_append_right _ hx)

theorem credentialRule_delimiter (h : Rewritten credentialRule redacted before s out)
    (hs : ∀ c ∈ s.head?, isDelimiter c = true) : ∀ c ∈ out.head?, isDelimiter c = true := by
  cases h with
  | done => exact hs
  | keep => exact hs
  | hit hc =>
    obtain ⟨c, kept', rfl, hdelim⟩ := credentialLabel_head (credentialRule_first hc).1
    rw [hs c rfl] at hdelim
    cases hdelim

/-- After the second pattern every value behind a credential's name is the replacement. -/
theorem credentialRule_clean (h : Rewritten credentialRule redacted before s out) : Clean out := by
  induction h with
  | done =>
    intro pre k d r hs hk hd
    simp only [List.nil_eq, List.append_eq_nil_iff] at hs
    exact absurd hs.2.2.1 hd.1
  | @keep before c s out hc h ih =>
    intro pre k d r hs hk hd
    cases pre with
    | cons x pre => exact ih pre k d r (List.cons.inj hs).2 hk hd
    | nil =>
      -- the same name stands in the text before, with a value behind it, and would have been found
      obtain ⟨s', hs', hhead⟩ := common_to_mark (.keep hc h) (credentialLabel_no_mark hk) hs
      have hvalue : ∃ e t, s' = e :: t ∧ isDelimiter e = false := by
        obtain ⟨hne, hnot, -⟩ := hd
        obtain ⟨e, d, rfl⟩ := List.exists_cons_of_ne_nil hne
        rcases hhead with hhead | ⟨_, kept, removed, rest, -, rfl, hfirst⟩
        · obtain ⟨t, rfl⟩ := List.head?_eq_some_iff.mp (hhead.trans rfl)
          exact ⟨e, t, rfl, hnot e List.mem_cons_self⟩
        · obtain ⟨hne', hnot', -⟩ := (credentialRule_first hfirst).2.1
          obtain ⟨e', removed, rfl⟩ := List.exists_cons_of_ne_nil hne'
          exact ⟨e', removed ++ rest, rfl, hnot' e' List.mem_cons_self⟩
      obtain ⟨e, t, rfl, he⟩ := hvalue
      rw [hs'] at hc
      exact absurd hc (credentialRule_found hk he)
  | @hit before kept removed rest out hc h ih =>
    intro pre k d r hs hk hd
    obtain ⟨hkept, hrun, -⟩ := credentialRule_first hc
    rcases List.append_eq_append_iff.mp hs with ⟨y, rfl, hy⟩ | ⟨y, rfl, hy⟩
    · -- the name begins behind the kept one
      obtain ⟨pre', -, hpre'⟩ := label_behind_redacted hy.symm hk
      exact ih pre' k d r hpre'.symm hk hd
    · -- it begins within the kept one, and ends there
      have hwithin : ∃ k2, y = k ++ k2 ∧ d ++ r = k2 ++ (redacted ++ out) := by
        rcases List.append_eq_append_iff.mp hy with ⟨k2, rfl, hk2⟩ | ⟨k2, rfl, hk2⟩
        · exact ⟨k2, rfl, hk2⟩
        · cases k2 with
          | nil => exact ⟨[], by simp, hk2.symm⟩
          | cons =>
            obtain ⟨rfl, -⟩ := List.cons.inj hk2
            exact absurd (List.mem_append_right y List.mem_cons_self) (credentialLabel_no_mark hk)
      obtain ⟨k2, rfl, hk2⟩ := hwithin
      cases k2 with
      | nil => exact (hd.unique (redacted_run (credentialRule_delimiter h hrun.2.2)) hk2).1
      | cons =>
        obtain ⟨e', d, rfl⟩ := List.exists_cons_of_ne_nil hd.1
        obtain ⟨rfl, -⟩ := List.cons.inj hk2
        have hspace := label_within hkept hk e' List.mem_cons_self
        have hdelim := hd.2.1 e' List.mem_cons_self
        simp [isDelimiter, hspace] at hdelim

/-! ## The third pattern -/

variable {u : UnicodeTables}

/-- A match: `sk-` and key letters, with a boundary at each end. -/
theorem keyRule_first {kept removed rest : Text} (h : (keyRule u).first before s = some (kept, removed, rest)) :
    kept = [] ∧ (∃ letters, removed = lit "sk-" ++ letters ∧ (∀ c ∈ letters, isKeyLetter c = true) ∧
      12 ≤ letters.length) ∧ Regex.isBoundary u.word before s = true ∧
      Regex.isBoundary u.word (Regex.lastOr before removed) rest = true ∧ removed ++ rest = s := by
  obtain ⟨t, hkept, hhead⟩ := Rule.mem_of_first h
  obtain ⟨rfl, rfl⟩ := Regex.mem_empty.mp hkept
  have hmem := List.mem_of_mem_head? hhead
  obtain ⟨_, _, _, hstart, hkey, rfl⟩ := Regex.mem_seq.mp hmem
  obtain ⟨hbefore, rfl, rfl⟩ := Regex.mem_boundary.mp hstart
  obtain ⟨_, _, _, hsk, hletters, rfl⟩ := Regex.mem_seq.mp hkey
  obtain ⟨letters, _, _, hletters, hend, rfl⟩ := Regex.mem_seq.mp hletters
  obtain ⟨hbehind, rfl, rfl⟩ := Regex.mem_boundary.mp hend
  obtain ⟨rfl, hsk⟩ := Regex.mem_literal_eq.mp hsk
  obtain ⟨rfl, hall, hlen⟩ := Regex.mem_many.mp hletters
  refine ⟨rfl, ⟨letters, by simp, hall, hlen⟩, hbefore, ?_, by simpa using hsk⟩
  simpa [Regex.lastOr_append] using hbehind

theorem keyRule_found {letters rest : Text} (hletters : ∀ c ∈ letters, isKeyLetter c = true)
    (hlen : 12 ≤ letters.length)
    (hstart : Regex.isBoundary u.word before (lit "sk-" ++ (letters ++ rest)) = true)
    (hend : Regex.isBoundary u.word (Regex.lastOr before (lit "sk-" ++ letters)) rest = true) :
    (keyRule u).first before (lit "sk-" ++ (letters ++ rest)) ≠ none := by
  have hkey : (lit "sk-" ++ letters, rest) ∈ (keyRule u).removed.ways before (lit "sk-" ++ (letters ++ rest)) := by
    refine Regex.mem_seq.mpr ⟨[], _, _, Regex.mem_boundary.mpr ⟨hstart, rfl, rfl⟩, ?_, rfl⟩
    refine Regex.mem_seq.mpr ⟨lit "sk-", letters ++ rest, letters, Regex.mem_literal_eq.mpr ⟨rfl, rfl⟩, ?_, rfl⟩
    refine Regex.mem_seq.mpr ⟨letters, rest, [], Regex.mem_many.mpr ⟨rfl, hletters, hlen⟩, ?_, by simp⟩
    refine Regex.mem_boundary.mpr ⟨?_, rfl, rfl⟩
    rwa [Regex.lastOr_nil, ← Regex.lastOr_append]
  exact Rule.first_ne_none (Regex.mem_empty.mpr ⟨rfl, rfl⟩) hkey

theorem keyRule_none (hc : c ≠ ch 's') (before : Option CodePoint) (t : Text) :
    (keyRule u).first before (c :: t) = none := by
  cases hfirst : (keyRule u).first before (c :: t) with
  | none => rfl
  | some m =>
    obtain ⟨kept, removed, rest⟩ := m
    obtain ⟨-, ⟨letters, rfl, -, -⟩, -, -, heq⟩ := keyRule_first hfirst
    exact absurd (List.cons.inj heq).1.symm hc

theorem keyRule_none_nil (before : Option CodePoint) : (keyRule u).first before [] = none := by
  cases hfirst : (keyRule u).first before [] with
  | none => rfl
  | some m =>
    obtain ⟨kept, removed, rest⟩ := m
    obtain ⟨-, ⟨letters, rfl, -, -⟩, -, -, heq⟩ := keyRule_first hfirst
    cases heq

theorem keyRule_consumes : (keyRule u).Consumes := by
  intro before s kept removed rest h
  obtain ⟨-, ⟨letters, rfl, -⟩, -⟩ := keyRule_first h
  exact List.cons_ne_nil _ _

theorem redacted_no_s : ∀ c ∈ redacted, c ≠ ch 's' := by
  have hall : redacted.all (fun c => decide (c ≠ ch 's')) = true := rfl
  intro c hc
  simpa using List.all_eq_true.mp hall c hc

theorem delimiter_ne_s (h : isDelimiter c = true) : c ≠ ch 's' := by
  rintro rfl
  exact absurd h (by decide)

theorem keyRule_delimiter (h : Rewritten (keyRule u) redacted before s out)
    (hs : ∀ c ∈ s.head?, isDelimiter c = true) : ∀ c ∈ out.head?, isDelimiter c = true := by
  cases h with
  | done => exact hs
  | keep => exact hs
  | hit hc =>
    obtain ⟨rfl, ⟨letters, rfl, -⟩, -⟩ := keyRule_first hc
    exact absurd rfl (delimiter_ne_s (hs _ rfl))

/-- The third pattern leaves the values behind the names of credentials. -/
theorem keyRule_clean (h : Rewritten (keyRule u) redacted before s out) (hclean : Clean s) : Clean out := by
  induction h with
  | done => exact hclean
  | @keep before c s out hc h ih =>
    intro pre k d r hs hk hd
    cases pre with
    | cons x pre => exact ih (Clean.of_append (x := [c]) hclean) pre k d r (List.cons.inj hs).2 hk hd
    | nil =>
      obtain ⟨s', hs', hrest⟩ := split_at_mark (.keep hc h) rfl (credentialLabel_no_mark hk) hs
      rw [hs'] at hclean
      -- the value in the text before is the replacement, which is copied
      have hvalue : ∃ d' r', s' = d' ++ r' ∧ Run d' r' := by
        obtain ⟨e, d, rfl⟩ := List.exists_cons_of_ne_nil hd.1
        generalize ht : e :: d ++ r = t at hrest
        cases hrest with
        | done => cases ht
        | keep =>
          obtain ⟨rfl, -⟩ := List.cons.inj ht
          exact Run.cons _ (hd.2.1 e List.mem_cons_self)
        | hit hc' =>
          obtain ⟨rfl, ⟨letters, rfl, -⟩, -⟩ := keyRule_first hc'
          exact Run.cons _ (by decide)
      obtain ⟨d', r', rfl, hd'⟩ := hvalue
      obtain rfl := hclean [] k d' r' rfl hk hd'
      obtain ⟨out', hout', hrest'⟩ := hrest.copy fun c hc => keyRule_none (redacted_no_s c hc)
      exact (hd.unique (redacted_run (keyRule_delimiter hrest' hd'.2.2)) hout').1
  | @hit before kept removed rest out hc h ih =>
    intro pre k d r hs hk hd
    obtain ⟨rfl, -⟩ := keyRule_first hc
    obtain ⟨pre', -, hpre'⟩ := label_behind_redacted hs.symm hk
    have hrest : Clean rest := Clean.of_append (x := [] ++ removed) (by rwa [List.append_assoc])
    exact ih hrest pre' k d r hpre'.symm hk hd

theorem isBoundary_word (hc : u.word c = true) :
    Regex.isBoundary u.word before (c :: s) = true ↔ before.any u.word = false := by
  simp [Regex.isBoundary, hc]

theorem keyRule_boundary (h : Rewritten (keyRule u) redacted before s out)
    (hb : Regex.isBoundary u.word before out = true) : Regex.isBoundary u.word before s = true := by
  cases h with
  | done => exact hb
  | keep => exact hb
  | hit hc => exact (keyRule_first hc).2.2.1

/-- After the third pattern it finds nothing, also behind a replacement. -/
theorem keyRule_found_nothing {before' : Option CodePoint} (h : Rewritten (keyRule u) redacted before s out)
    (hbefore : ∀ c ∈ s.head?, u.word c = true → before'.any u.word = false → before.any u.word = false) :
    ∀ pre t, out = pre ++ t → (keyRule u).first (Regex.lastOr before' pre) t = none := by
  induction h generalizing before' with
  | done =>
    intro pre t ht
    obtain ⟨rfl, rfl⟩ := List.append_eq_nil_iff.mp ht.symm
    exact keyRule_none_nil _
  | @keep before c s out hc h ih =>
    intro pre t ht
    cases pre with
    | cons d pre =>
      obtain ⟨rfl, rfl⟩ := List.cons.inj ht
      rw [Regex.lastOr_cons]
      exact ih (fun _ _ _ hb => hb) pre t rfl
    | nil =>
      obtain rfl : c :: out = t := ht
      cases hfirst : (keyRule u).first before' (c :: out) with
      | none => exact hfirst
      | some m =>
        obtain ⟨kept, removed, rest⟩ := m
        obtain ⟨-, ⟨letters, rfl, hletters, hlen⟩, hstart, hend, heq⟩ := keyRule_first hfirst
        have hmark : ch '[' ∉ lit "sk-" ++ letters := by
          intro hm
          rcases List.mem_append.mp hm with hm | hm
          · exact absurd hm (by decide)
          · exact absurd (hletters _ hm) (by decide)
        obtain ⟨s', hs', hrest⟩ := split_at_mark (.keep hc h) rfl hmark heq.symm
        -- the same key stands in the text before, and would have been found
        obtain rfl : c = ch 's' := (List.cons.inj heq).1.symm
        have hword : u.word (ch 's') = true := by
          rw [UnicodeTables.word, if_pos (by decide)]
          decide
        have hbound := hbefore _ rfl hword ((isBoundary_word hword).mp hstart)
        rw [hs', List.append_assoc] at hc
        refine absurd hc (keyRule_found hletters hlen ?_ (keyRule_boundary hrest ?_))
        · exact (isBoundary_word hword).mpr hbound
        · exact hend
  | @hit before kept removed rest out hc h ih =>
    intro pre t ht
    obtain ⟨rfl, -, -, hend, -⟩ := keyRule_first hc
    have hnext : ∀ c ∈ rest.head?, u.word c = true → (Regex.lastOr before' redacted).any u.word = false →
        (Regex.lastOr before ([] ++ removed)).any u.word = false := by
      intro c hc hword _
      obtain ⟨rest, rfl⟩ := List.head?_eq_some_iff.mp (Option.mem_def.mp hc)
      exact (isBoundary_word hword).mp hend
    rcases List.append_eq_append_iff.mp (show redacted ++ out = pre ++ t from ht) with ⟨p, rfl, rfl⟩ | ⟨y, hy, rfl⟩
    · rw [Regex.lastOr_append]
      exact ih hnext p t rfl
    · cases y with
      | nil =>
        rw [List.append_nil] at hy
        rw [← hy]
        exact ih hnext [] out rfl
      | cons c => exact keyRule_none (redacted_no_s c (by simp [hy])) _ _

/-! ## The three patterns -/

theorem value_ne_nil {removed rest t : Text} (h : (value.ways before t).head? = some (removed, rest)) :
    removed ≠ [] :=
  List.ne_nil_of_length_pos (Regex.mem_many.mp (List.mem_of_mem_head? h)).2.2

theorem authorizationRule_consumes : authorizationRule.Consumes := by
  intro before s kept removed rest h
  obtain ⟨t, -, hhead⟩ := Rule.mem_of_first h
  exact value_ne_nil hhead

theorem authorizationRule_first {kept removed rest : Text}
    (h : authorizationRule.first before s = some (kept, removed, rest)) :
    ∃ k c t, s = k ++ c :: t ∧ credentialLabel.Accepts k ∧ ignoreCase 'b' c = true := by
  obtain ⟨t, hkept, -⟩ := Rule.mem_of_first h
  obtain ⟨name, t₁, _, hname, hgap', rfl⟩ := Regex.mem_seq.mp hkept
  obtain ⟨gap, t₂, _, hgap, hsep', rfl⟩ := Regex.mem_seq.mp hgap'
  obtain ⟨sep, t₃, _, hsep, hback', rfl⟩ := Regex.mem_seq.mp hsep'
  obtain ⟨back, t₄, _, hback, hbearer', rfl⟩ := Regex.mem_seq.mp hback'
  obtain ⟨bearer, t₅, _, hbearer, -, rfl⟩ := Regex.mem_seq.mp hbearer'
  have hcredential : (name ++ [], t₁) ∈ credentialName.ways before s :=
    Regex.mem_choice (List.mem_of_getElem? (i := 7) rfl)
      (Regex.mem_seq.mpr ⟨name, t₁, [], hname, Regex.mem_alt.mpr (Or.inr (Regex.mem_empty.mpr ⟨rfl, rfl⟩)), rfl⟩)
  rw [List.append_nil] at hcredential
  have hlabel : (name ++ (gap ++ (sep ++ back)), t₄) ∈ credentialLabel.ways before s :=
    Regex.mem_seq.mpr ⟨name, t₁, _, hcredential,
      Regex.mem_seq.mpr ⟨gap, t₂, _, hgap, Regex.mem_seq.mpr ⟨sep, t₃, back, hsep, hback, rfl⟩, rfl⟩, rfl⟩
  obtain ⟨hletters, hfollows⟩ := Regex.mem_literal.mp hbearer
  obtain ⟨c, rest', hc, -, rfl⟩ := List.forall₂_cons_left_iff.mp hletters
  exact ⟨_, c, rest' ++ t₅, by rw [← Regex.ways_append hlabel, ← hfollows, List.cons_append],
    credentialLabel_local.accepts hlabel, hc⟩

theorem Clean.authorizationRule (h : Clean s) : authorizationRule.substitute redacted s = s := by
  refine (Rule.substitute_rewritten authorizationRule_consumes redacted s).eq_self ?_
  intro pre kept removed rest hs hfirst
  obtain ⟨k, c, t, hk, hlabel, hb⟩ := authorizationRule_first hfirst
  obtain ⟨d, r, hd, hrun⟩ := Run.cons t (ignoreCase_isDelimiter (by simp) hb)
  have hred := h pre k d r (by rw [hs, hk, hd]) hlabel hrun
  rw [hred, redacted_eq, List.cons_append] at hd
  obtain ⟨rfl, -⟩ := List.cons.inj hd
  exact absurd hb (by decide)

theorem Clean.credentialRule (h : Clean s) : credentialRule.substitute redacted s = s := by
  refine (Rule.substitute_rewritten credentialRule_consumes redacted s).eq_self ?_
  intro pre kept removed rest hs hfirst
  obtain ⟨hk, hrun, -⟩ := credentialRule_first hfirst
  exact h pre kept removed rest hs hk hrun

theorem keyRule_substitute (u : UnicodeTables) (s : Text) :
    (keyRule u).substitute redacted ((keyRule u).substitute redacted s) = (keyRule u).substitute redacted s := by
  have hfirst := Rule.substitute_rewritten (keyRule_consumes (u := u)) redacted s
  refine (Rule.substitute_rewritten keyRule_consumes redacted _).eq_self ?_
  intro pre kept removed rest hs hfound
  rw [keyRule_found_nothing hfirst (fun _ _ _ hb => hb) pre _ hs] at hfound
  cases hfound

theorem redactText_redactText (u : UnicodeTables) (text : Text) :
    redactText u (redactText u text) = redactText u text := by
  have hclean : Clean (credentialRule.substitute redacted (authorizationRule.substitute redacted text)) :=
    credentialRule_clean (Rule.substitute_rewritten credentialRule_consumes redacted _)
  have hred : Clean (redactText u text) :=
    keyRule_clean (Rule.substitute_rewritten keyRule_consumes redacted _) hclean
  conv_lhs => rw [redactText, hred.authorizationRule, hred.credentialRule]
  exact keyRule_substitute u _

/-! ## Places in a value -/

variable {φ : Type}

/-- A step into a value. -/
inductive Step where
  | key (key : Text)
  | index (i : Nat)

/-- The value at a place. -/
def descend : List Step → Value φ → Option (Value φ)
  | [], v => some v
  | .key key :: path, .dict entries => (entries.lookup key).bind (descend path)
  | .index i :: path, .list items => items[i]?.bind (descend path)
  | _ :: _, _ => none

def Open (u : UnicodeTables) (path : List Step) : Prop := ∀ key, .key key ∈ path → isSensitiveKey u key = false

mutual

/-- A value without what its sensitive keys hold. -/
def conceal (u : UnicodeTables) : Value φ → Value φ
  | .dict entries => .dict (concealEntries u entries)
  | .list items => .list (concealItems u items)
  | v => v

def concealItems (u : UnicodeTables) : List (Value φ) → List (Value φ)
  | [] => []
  | v :: items => conceal u v :: concealItems u items

def concealEntries (u : UnicodeTables) : List (Text × Value φ) → List (Text × Value φ)
  | [] => []
  | (key, v) :: entries => (key, if isSensitiveKey u key then .none else conceal u v) :: concealEntries u entries

end

theorem redactItems_eq_map (items : List (Value φ)) : redactItems u items = items.map (redactSensitive u) := by
  induction items with
  | nil => rfl
  | cons v items ih => rw [redactItems, ih, List.map_cons]

theorem redactEntries_keys (entries : List (Text × Value φ)) :
    (redactEntries u entries).map Prod.fst = entries.map Prod.fst := by
  induction entries with
  | nil => rfl
  | cons e entries ih => rw [redactEntries, List.map_cons, List.map_cons, ih]

theorem lookup_redactEntries (entries : List (Text × Value φ)) (key : Text) :
    (redactEntries u entries).lookup key =
      (entries.lookup key).map fun v => if isSensitiveKey u key then .str redacted else redactSensitive u v := by
  induction entries with
  | nil => rfl
  | cons e entries ih =>
    obtain ⟨k, v⟩ := e
    by_cases hk : key = k
    · subst hk
      simp [redactEntries]
    · simp [redactEntries, List.lookup_cons, beq_false_of_ne hk, ih]

theorem descend_redactSensitive {path : List Step} (h : Open u path) (v : Value φ) :
    descend path (redactSensitive u v) = (descend path v).map (redactSensitive u) := by
  induction path generalizing v with
  | nil => rfl
  | cons step path ih =>
    have hpath : Open u path := fun key hkey => h key (List.mem_cons_of_mem _ hkey)
    cases step with
    | key key =>
      have hkey := h key List.mem_cons_self
      cases v with
      | dict entries =>
        simp only [redactSensitive, descend, lookup_redactEntries, hkey]
        cases entries.lookup key with
        | none => rfl
        | some w => exact ih hpath w
      | _ => rfl
    | index i =>
      cases v with
      | list items =>
        simp only [redactSensitive, descend, redactItems_eq_map, List.getElem?_map]
        cases items[i]? with
        | none => rfl
        | some w => exact ih hpath w
      | _ => rfl

/-- Under a sensitive key there is the replacement, wherever the key stands. -/
theorem descend_sensitive {key : Text} (hkey : isSensitiveKey u key = true) {path rest : List Step} {v w : Value φ}
    (h : descend (path ++ .key key :: rest) (redactSensitive u v) = some w) : rest = [] ∧ w = .str redacted := by
  induction path generalizing v with
  | nil =>
    cases v with
    | dict =>
      simp only [List.nil_append, redactSensitive, descend, lookup_redactEntries, hkey, if_true,
        Option.bind_eq_some_iff, Option.map_eq_some_iff] at h
      obtain ⟨_, ⟨_, _, rfl⟩, h⟩ := h
      cases rest with
      | nil => exact ⟨rfl, (Option.some.inj h).symm⟩
      | cons step => cases step <;> cases h
    | _ => cases h
  | cons step path ih =>
    cases step with
    | key =>
      cases v with
      | dict =>
        simp only [List.cons_append, redactSensitive, descend, lookup_redactEntries,
          Option.bind_eq_some_iff, Option.map_eq_some_iff] at h
        obtain ⟨_, ⟨w', _, rfl⟩, h⟩ := h
        split at h
        · cases path with
          | nil => cases h
          | cons step => cases step <;> cases h
        · exact ih h
      | _ => cases h
    | index =>
      cases v with
      | list =>
        simp only [List.cons_append, redactSensitive, descend, redactItems_eq_map, List.getElem?_map,
          Option.bind_eq_some_iff, Option.map_eq_some_iff] at h
        obtain ⟨_, ⟨w', _, rfl⟩, h⟩ := h
        exact ih h
      | _ => cases h

mutual

theorem redactSensitive_twice : (v : Value φ) → redactSensitive u (redactSensitive u v) = redactSensitive u v
  | .dict entries => congrArg Value.dict (redactEntries_twice entries)
  | .list items => congrArg Value.list (redactItems_twice items)
  | .str text => congrArg Value.str (redactText_redactText u text)
  | .none | .bool _ | .int _ | .float _ | .foreign _ _ => rfl

theorem redactItems_twice : (items : List (Value φ)) → redactItems u (redactItems u items) = redactItems u items
  | [] => rfl
  | v :: items => by rw [redactItems, redactItems, redactSensitive_twice v, redactItems_twice items]

theorem redactEntries_twice : (entries : List (Text × Value φ)) →
    redactEntries u (redactEntries u entries) = redactEntries u entries
  | [] => rfl
  | (key, v) :: entries => by
    rw [redactEntries, redactEntries, redactEntries_twice entries]
    cases isSensitiveKey u key with
    | true => rfl
    | false => rw [if_neg Bool.false_ne_true, if_neg Bool.false_ne_true, redactSensitive_twice v]

end

mutual

theorem redactSensitive_conceal : (v : Value φ) → redactSensitive u (conceal u v) = redactSensitive u v
  | .dict entries => congrArg Value.dict (redactEntries_conceal entries)
  | .list items => congrArg Value.list (redactItems_conceal items)
  | .none | .bool _ | .int _ | .float _ | .str _ | .foreign _ _ => rfl

theorem redactItems_conceal : (items : List (Value φ)) → redactItems u (concealItems u items) = redactItems u items
  | [] => rfl
  | v :: items => by
    rw [concealItems, redactItems, redactItems, redactSensitive_conceal v, redactItems_conceal items]

theorem redactEntries_conceal : (entries : List (Text × Value φ)) →
    redactEntries u (concealEntries u entries) = redactEntries u entries
  | [] => rfl
  | (key, v) :: entries => by
    rw [concealEntries, redactEntries, redactEntries, redactEntries_conceal entries]
    cases isSensitiveKey u key with
    | true => rfl
    | false =>
      rw [if_neg Bool.false_ne_true, if_neg Bool.false_ne_true, if_neg Bool.false_ne_true, redactSensitive_conceal v]

end

/-- **Redaction of nested values.** A second pass changes nothing; outside of sensitive keys every object keeps its
keys and every list its length; under a sensitive key at any depth there is the replacement, and the outcome does not
depend on what was there. -/
theorem redact_nested (u : UnicodeTables) (v : Value φ) :
    redactSensitive u (redactSensitive u v) = redactSensitive u v ∧
      (∀ path entries, Open u path → descend path v = some (.dict entries) →
        ∃ entries', descend path (redactSensitive u v) = some (.dict entries') ∧
          entries'.map Prod.fst = entries.map Prod.fst) ∧
      (∀ path items, Open u path → descend path v = some (.list items) →
        ∃ items', descend path (redactSensitive u v) = some (.list items') ∧ items'.length = items.length) ∧
      (∀ path key rest w, isSensitiveKey u key = true →
        descend (path ++ .key key :: rest) (redactSensitive u v) = some w → rest = [] ∧ w = .str redacted) ∧
      redactSensitive u (conceal u v) = redactSensitive u v := by
  refine ⟨redactSensitive_twice v, fun path entries hopen hv => ?_, fun path items hopen hv => ?_,
    fun path key rest w hkey hw => descend_sensitive hkey hw, redactSensitive_conceal v⟩
  · refine ⟨redactEntries u entries, ?_, redactEntries_keys entries⟩
    rw [descend_redactSensitive hopen, hv]
    rfl
  · refine ⟨redactItems u items, ?_, by rw [redactItems_eq_map, List.length_map]⟩
    rw [descend_redactSensitive hopen, hv]
    rfl

end AgentFabric.Store.Redaction
