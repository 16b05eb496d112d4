import AgentFabric.Lib.JsonAscii

/-!
# The string literals of a JSON text

A text that can be read is a sequence of string literals and of letters outside of them. What is read of it has a string
or a key for every literal, and where the literals alone are edited, the structure of what is read stays.
-/

namespace AgentFabric.Lib

/-! ## Quotation marks -/

/-- The quotation marks that no backslash escapes; the first letter may be escaped. -/
def quotes : Bool → Text → Nat
  | _, [] => 0
  | true, _ :: t => quotes false t
  | false, c :: t => if c = ch '"' then quotes false t + 1 else quotes (decide (c = ch '\\')) t

/-- The text ends in a backslash that escapes what follows. -/
def pending : Bool → Text → Bool
  | escaped, [] => escaped
  | true, _ :: t => pending false t
  | false, c :: t => pending (decide (c = ch '\\')) t

/-- Neither a quotation mark nor a backslash. -/
def Bare (c : CodePoint) : Prop := c ≠ ch '"' ∧ c ≠ ch '\\'

instance (c : CodePoint) : Decidable (Bare c) := inferInstanceAs (Decidable (_ ∧ _))

variable {escaped : Bool} {b s t u x : Text} {c : CodePoint}

theorem quotes_append (escaped : Bool) (s t : Text) :
    quotes escaped (s ++ t) = quotes escaped s + quotes (pending escaped s) t := by
  induction s generalizing escaped with
  | nil => simp [quotes, pending]
  | cons c s ih =>
    cases escaped with
    | true => simp [quotes, pending, ih]
    | false =>
      by_cases hc : c = ch '"'
      · subst hc
        have hpending : pending false (ch '"' :: s) = pending false s := rfl
        rw [hpending, List.cons_append, quotes, if_pos rfl, quotes, if_pos rfl, ih]
        omega
      · simp [quotes, pending, hc, ih]

theorem pending_append (escaped : Bool) (s t : Text) : pending escaped (s ++ t) = pending (pending escaped s) t := by
  induction s generalizing escaped with
  | nil => rfl
  | cons c s ih => cases escaped <;> simp [pending, ih]

theorem quotes_cons (hc : Bare c) (escaped : Bool) (t : Text) : quotes escaped (c :: t) = quotes false t := by
  cases escaped with
  | true => rfl
  | false => simp [quotes, hc.1, hc.2]

theorem pending_cons (hc : c ≠ ch '\\') (escaped : Bool) (t : Text) : pending escaped (c :: t) = pending false t := by
  cases escaped with
  | true => rfl
  | false => simp [pending, hc]

theorem quotes_bare (hx : ∀ c ∈ x, Bare c) (t : Text) : quotes false (x ++ t) = quotes false t := by
  induction x with
  | nil => rfl
  | cons c x ih =>
    rw [List.cons_append, quotes_cons (hx c List.mem_cons_self)]
    exact ih fun d hd => hx d (List.mem_cons_of_mem c hd)

theorem quotes_behind (hx : ∀ c ∈ x, Bare c) (hne : x ≠ []) (escaped : Bool) (t : Text) :
    quotes escaped (x ++ t) = quotes false t := by
  obtain ⟨c, x, rfl⟩ := List.exists_cons_of_ne_nil hne
  rw [List.cons_append, quotes_cons (hx c List.mem_cons_self)]
  exact quotes_bare (fun d hd => hx d (List.mem_cons_of_mem c hd)) t

/-! ## Literals -/

/-- The inside of a string literal. -/
inductive Body : Text → Prop where
  | nil : Body []
  | plain {c : CodePoint} {b : Text} (hc : Bare c) (hlow : 0x20 ≤ c.val) (h : Body b) : Body (c :: b)
  | escape {e : CodePoint} {b : Text} (he : (unescape e).isSome = true) (h : Body b) : Body (ch '\\' :: e :: b)
  | unicode {h₁ h₂ h₃ h₄ : CodePoint} {b : Text} (hx : (hex4 h₁ h₂ h₃ h₄).isSome = true) (h : Body b) :
    Body (ch '\\' :: ch 'u' :: h₁ :: h₂ :: h₃ :: h₄ :: b)

/-- The string that the inside of a literal stands for. -/
def decode (b : Text) : Text := ((scanString (b ++ [ch '"'])).map Prod.fst).getD []

theorem unescape_u : unescape (ch 'u') = none := rfl

theorem hex4_isSome {a b c d : CodePoint} (h : (hex4 a b c d).isSome = true) :
    ∀ x ∈ [a, b, c, d], (hexValue x).isSome = true := by
  obtain ⟨n, h⟩ := Option.isSome_iff_exists.mp h
  simp only [hex4, bind, Option.bind_eq_some_iff, pure, Option.some.injEq] at h
  obtain ⟨p, hp, q, hq, r, hr, s, hs, -⟩ := h
  simp [hp, hq, hr, hs]

theorem hexValue_bare (h : (hexValue c).isSome = true) : Bare c := by
  constructor <;> rintro rfl <;> cases h

theorem scanUnits_end (t : Text) : scanUnits (ch '"' :: t) = some ([], t) := by
  rw [scanUnits.eq_def]
  simp

theorem scanUnits_bare (hc : Bare c) (hlow : 0x20 ≤ c.val) (t : Text) :
    scanUnits (c :: t) = (scanUnits t).map fun p => (.plain c :: p.1, p.2) := by
  rw [scanUnits.eq_def]
  simp only [if_neg hc.1, if_neg hc.2, if_neg (Nat.not_lt.mpr hlow)]

theorem scanUnits_escape {e : CodePoint} (he : unescape e = some c) (t : Text) :
    scanUnits (ch '\\' :: e :: t) = (scanUnits t).map fun p => (.plain c :: p.1, p.2) := by
  rw [scanUnits.eq_def]
  simp [show ch '\\' ≠ ch '"' by decide, he]

theorem scanUnits_unicode {h₁ h₂ h₃ h₄ : CodePoint} {n : Nat} (hn : hex4 h₁ h₂ h₃ h₄ = some n) (t : Text) :
    scanUnits (ch '\\' :: ch 'u' :: h₁ :: h₂ :: h₃ :: h₄ :: t) =
      (scanUnits t).map fun p => (.escape n :: p.1, p.2) := by
  simp [scanUnits, show ch '\\' ≠ ch '"' by decide, unescape_u, hn]

theorem Body.scanUnits (h : Body b) : ∃ us, ∀ t, Lib.scanUnits (b ++ ch '"' :: t) = some (us, t) := by
  induction h with
  | nil => exact ⟨[], scanUnits_end⟩
  | @plain c b hc hlow _ ih =>
    obtain ⟨us, hus⟩ := ih
    refine ⟨.plain c :: us, fun t => ?_⟩
    rw [List.cons_append, scanUnits_bare hc hlow, hus]
    rfl
  | escape he _ ih =>
    obtain ⟨us, hus⟩ := ih
    obtain ⟨d, hd⟩ := Option.isSome_iff_exists.mp he
    refine ⟨.plain d :: us, fun t => ?_⟩
    rw [List.cons_append, List.cons_append, scanUnits_escape hd, hus]
    rfl
  | unicode hx _ ih =>
    obtain ⟨us, hus⟩ := ih
    obtain ⟨n, hn⟩ := Option.isSome_iff_exists.mp hx
    refine ⟨.escape n :: us, fun t => ?_⟩
    simp only [List.cons_append]
    rw [scanUnits_unicode hn, hus]
    rfl

theorem Body.of_scanUnits (t : Text) : ∀ {us : List StrUnit} {rest : Text}, Lib.scanUnits t = some (us, rest) →
    ∃ b, Body b ∧ t = b ++ ch '"' :: rest := by
  fun_induction Lib.scanUnits t <;> intro us rest h
  all_goals try cases h
  all_goals try obtain ⟨⟨us', rest'⟩, hrec, heq⟩ := Option.map_eq_some_iff.mp h
  case case2.refl => exact ⟨[], .nil, rfl⟩
  case case4 e t c he hquote ih =>
    obtain ⟨-, rfl⟩ := Prod.mk.inj heq
    obtain ⟨b, hb, rfl⟩ := ih hrec
    exact ⟨_, .escape (by rw [he]; rfl) hb, rfl⟩
  case case5 h₁ h₂ h₃ h₄ t n hn hquote hu ih =>
    obtain ⟨-, rfl⟩ := Prod.mk.inj heq
    obtain ⟨b, hb, rfl⟩ := ih hrec
    exact ⟨_, .unicode (by rw [hn]; rfl) hb, rfl⟩
  case case10 c t hquote hslash hlow ih =>
    obtain ⟨-, rfl⟩ := Prod.mk.inj heq
    obtain ⟨b, hb, rfl⟩ := ih hrec
    exact ⟨_, .plain ⟨hquote, hslash⟩ (Nat.not_lt.mp hlow) hb, rfl⟩

theorem Body.scanString (h : Body b) (t : Text) : Lib.scanString (b ++ ch '"' :: t) = some (decode b, t) := by
  obtain ⟨us, hus⟩ := h.scanUnits
  simp [decode, Lib.scanString, hus]

variable {rest : Text}

theorem Body.of_scanString (h : Lib.scanString t = some (s, rest)) :
    ∃ b, Body b ∧ decode b = s ∧ t = b ++ ch '"' :: rest := by
  have hunits := h
  simp only [Lib.scanString, Option.map_eq_some_iff, Prod.mk.injEq, Prod.exists] at hunits
  obtain ⟨us, _, hus, -, rfl⟩ := hunits
  obtain ⟨b, hb, rfl⟩ := Body.of_scanUnits t hus
  rw [hb.scanString] at h
  obtain ⟨rfl, -⟩ := Prod.mk.inj (Option.some.inj h)
  exact ⟨b, hb, rfl, rfl⟩

theorem Body.append (h : Body b) (hx : Body x) : Body (b ++ x) := by
  induction h with
  | nil => exact hx
  | plain hc hlow _ ih => exact .plain hc hlow ih
  | escape he _ ih => exact .escape he ih
  | unicode hh _ ih => exact .unicode hh ih

theorem Body.quotes (h : Body b) (t : Text) : Lib.quotes false (b ++ t) = Lib.quotes false t := by
  induction h with
  | nil => rfl
  | plain hc _ _ ih => rw [List.cons_append, quotes_cons hc, ih]
  | escape he _ ih =>
    simp only [List.cons_append, Lib.quotes]
    rw [if_neg (by decide)]
    exact ih
  | @unicode h₁ h₂ h₃ h₄ b hh _ ih =>
    have hhex := fun x hx => hexValue_bare (hex4_isSome hh x hx)
    simp only [List.cons_append, Lib.quotes]
    rw [if_neg (by decide)]
    exact (quotes_bare (x := [h₁, h₂, h₃, h₄]) hhex _).trans ih

theorem Body.pending (h : Body b) : Lib.pending false b = false := by
  induction h with
  | nil => rfl
  | plain hc _ _ ih => rw [pending_cons hc.2, ih]
  | escape he _ ih => exact ih
  | @unicode h₁ h₂ h₃ h₄ b hh _ ih =>
    have hhex := fun x hx => hexValue_bare (hex4_isSome hh x hx)
    have h1 := (hhex h₁ (by simp)).2
    have h2 := (hhex h₂ (by simp)).2
    have h3 := (hhex h₃ (by simp)).2
    have h4 := (hhex h₄ (by simp)).2
    rw [show Lib.pending false (ch '\\' :: ch 'u' :: h₁ :: h₂ :: h₃ :: h₄ :: b) =
      Lib.pending false (h₁ :: h₂ :: h₃ :: h₄ :: b) from rfl, pending_cons h1, pending_cons h2, pending_cons h3,
      pending_cons h4, ih]

/-- A letter that is no part of an escape. -/
def Joint (c : CodePoint) : Prop := c ≠ ch '\\' ∧ c ≠ ch 'u' ∧ unescape c = none ∧ hexValue c = none

/-- The inside of a literal falls apart at such a letter. -/
theorem Body.split (hc : Joint c) (h : Body (s ++ c :: t)) : Body s ∧ Body [c] ∧ Body t := by
  generalize hw : s ++ c :: t = w at h
  induction h generalizing s with
  | nil => exact absurd hw (by simp)
  | @plain d b hd hlow h ih =>
    cases s with
    | nil =>
      obtain ⟨rfl, rfl⟩ := List.cons.inj hw
      exact ⟨.nil, .plain hd hlow .nil, h⟩
    | cons =>
      obtain ⟨rfl, htail⟩ := List.cons.inj hw
      obtain ⟨hleft, hletter, hright⟩ := ih htail
      exact ⟨.plain hd hlow hleft, hletter, hright⟩
  | @escape e b he h ih =>
    rcases s with _ | ⟨s₁, _ | ⟨s₂, s⟩⟩ <;>
      simp only [List.nil_append, List.cons_append, List.cons.injEq] at hw
    · exact absurd hw.1 hc.1
    · obtain ⟨-, rfl, -⟩ := hw
      rw [hc.2.2.1] at he
      cases he
    · obtain ⟨rfl, rfl, hw⟩ := hw
      obtain ⟨hleft, hletter, hright⟩ := ih hw
      exact ⟨.escape he hleft, hletter, hright⟩
  | @unicode h₁ h₂ h₃ h₄ b hh h ih =>
    have hnot : ∀ x ∈ [h₁, h₂, h₃, h₄], c ≠ x := by
      rintro x hx rfl
      have hsome := hex4_isSome hh c hx
      rw [hc.2.2.2] at hsome
      cases hsome
    simp only [List.mem_cons, List.not_mem_nil, or_false, forall_eq_or_imp, forall_eq] at hnot
    rcases s with _ | ⟨s₁, _ | ⟨s₂, _ | ⟨s₃, _ | ⟨s₄, _ | ⟨s₅, _ | ⟨s₆, s⟩⟩⟩⟩⟩⟩ <;>
      simp only [List.nil_append, List.cons_append, List.cons.injEq] at hw
    · exact absurd hw.1 hc.1
    · exact absurd hw.2.1 hc.2.1
    · exact absurd hw.2.2.1 hnot.1
    · exact absurd hw.2.2.2.1 hnot.2.1
    · exact absurd hw.2.2.2.2.1 hnot.2.2.1
    · exact absurd hw.2.2.2.2.2.1 hnot.2.2.2
    · obtain ⟨rfl, rfl, rfl, rfl, rfl, rfl, hw⟩ := hw
      obtain ⟨hleft, hletter, hright⟩ := ih hw
      exact ⟨.unicode hh hleft, hletter, hright⟩

theorem Body.drop (hs : ∀ c ∈ s, c ≠ ch '\\') (h : Body (s ++ t)) : Body t := by
  induction s with
  | nil => exact h
  | cons c s ih =>
    have hc := hs c List.mem_cons_self
    generalize hw : c :: s ++ t = w at h
    cases h with
    | nil => cases hw
    | plain _ _ h =>
      obtain ⟨rfl, rfl⟩ := List.cons.inj hw
      exact ih (fun d hd => hs d (List.mem_cons_of_mem c hd)) h
    | escape => exact absurd (List.cons.inj hw).1 hc
    | unicode => exact absurd (List.cons.inj hw).1 hc

/-! ## Texts of literals -/

/-- The letters outside of literals; around a text also white space that JSON does not know. -/
def outsideLetters : Text :=
  lit "{}[]:,0123456789+-.EINaefilnrstuy" ++ ([9, 10, 11, 12, 13, 28, 29, 30, 31, 32, 0x85, 0xA0, 0x1680, 0x2000,
    0x2001, 0x2002, 0x2003, 0x2004, 0x2005, 0x2006, 0x2007, 0x2008, 0x2009, 0x200A, 0x2028, 0x2029, 0x202F, 0x205F,
    0x3000].map codePoint)

/-- A text of `n` literals, with other letters between them. -/
inductive Lexed : Nat → Text → Prop where
  | nil : Lexed 0 []
  | outside {n : Nat} {c : CodePoint} {t : Text} (hc : c ∈ outsideLetters) (h : Lexed n t) : Lexed n (c :: t)
  | literal {n : Nat} {b t : Text} (hb : Body b) (h : Lexed n t) : Lexed (n + 1) (ch '"' :: (b ++ ch '"' :: t))

theorem outside_bare (hc : c ∈ outsideLetters) : Bare c := by
  have hall : outsideLetters.all (fun c => decide (Bare c)) = true := by decide
  exact of_decide_eq_true (List.all_eq_true.mp hall c hc)

theorem outsideLetters_val : outsideLetters.map Fin.val =
    [123, 125, 91, 93, 58, 44, 48, 49, 50, 51, 52, 53, 54, 55, 56, 57, 43, 45, 46, 69, 73, 78, 97, 101, 102,
    105, 108, 110, 114, 115, 116, 117, 121, 9, 10, 11, 12, 13, 28, 29, 30, 31, 32, 133, 160, 5760, 8192, 8193,
    8194, 8195, 8196, 8197, 8198, 8199, 8200, 8201, 8202, 8232, 8233, 8239, 8287, 12288] := rfl

theorem mem_outside (h : c.val ∈ outsideLetters.map Fin.val) : c ∈ outsideLetters := by
  obtain ⟨d, hd, heq⟩ := List.mem_map.mp h
  rwa [← Fin.ext heq]

def spaceNumbers : List Nat :=
  List.range' 9 5 ++ List.range' 28 5 ++ List.range' 0x2000 11 ++
    [0x85, 0xA0, 0x1680, 0x2028, 0x2029, 0x202F, 0x205F, 0x3000]

theorem spaceNumbers_outside : ∀ n ∈ spaceNumbers, n ∈ outsideLetters.map Fin.val := by decide

theorem isSpace_outside (h : isSpace c = true) : c ∈ outsideLetters := by
  simp only [isSpace, decide_eq_true_eq] at h
  apply mem_outside
  apply spaceNumbers_outside
  simp only [spaceNumbers, List.mem_append, List.mem_range'_1, List.mem_cons, List.not_mem_nil, or_false]
  omega

theorem Lexed.append {m n : Nat} (hs : Lexed m s) (ht : Lexed n t) : Lexed (m + n) (s ++ t) := by
  induction hs with
  | nil => rwa [Nat.zero_add]
  | outside hc _ ih => exact .outside hc ih
  | @literal m b s hb _ ih =>
    rw [List.cons_append, List.append_assoc, List.cons_append, Nat.add_right_comm]
    exact .literal hb ih

theorem lexed_outside (hx : ∀ c ∈ x, c ∈ outsideLetters) : Lexed 0 x := by
  induction x with
  | nil => exact .nil
  | cons c x ih => exact .outside (hx c List.mem_cons_self) (ih fun d hd => hx d (List.mem_cons_of_mem c hd))

theorem Lexed.quotes {n : Nat} (h : Lexed n t) : Lib.quotes false t = 2 * n := by
  induction h with
  | nil => rfl
  | outside hc _ ih => rw [quotes_cons (outside_bare hc), ih]
  | @literal n b t hb =>
    simp only [Lib.quotes, if_true]
    rw [hb.quotes]
    simp only [Lib.quotes, if_true]
    omega

/-! ## The spelling of keys -/

/-- A place in a text: outside of literals, in one behind some of its letters, or behind one. -/
inductive Mark where
  | outside
  | body (b : Text)
  | escape (b : Text)
  | behind (b : Text)

/-- A literal with a colon behind it is a key. -/
def Mark.next : Mark → CodePoint → List Text × Mark
  | .outside, c => ([], if c = ch '"' then .body [] else .outside)
  | .body b, c => ([], if c = ch '"' then .behind b else if c = ch '\\' then .escape (b ++ [c]) else .body (b ++ [c]))
  | .escape b, c => ([], .body (b ++ [c]))
  | .behind b, c =>
    if c ∈ lit " \t\n\r" then ([], .behind b)
    else if c = ch ':' then ([b], .outside)
    else ([], if c = ch '"' then .body [] else .outside)

/-- The keys of a text from a place on, as they are spelled, and the place at its end. -/
def keysFrom : Mark → Text → List Text × Mark
  | mark, [] => ([], mark)
  | mark, c :: t => ((mark.next c).1 ++ (keysFrom (mark.next c).2 t).1, (keysFrom (mark.next c).2 t).2)

def keySpellings (t : Text) : List Text := (keysFrom .outside t).1

/-- A place outside of literals. -/
def Mark.Settled : Mark → Prop
  | .outside | .behind _ => True
  | _ => False

theorem keysFrom_append (mark : Mark) (s t : Text) : keysFrom mark (s ++ t) =
    ((keysFrom mark s).1 ++ (keysFrom (keysFrom mark s).2 t).1, (keysFrom (keysFrom mark s).2 t).2) := by
  induction s generalizing mark with
  | nil => rfl
  | cons c s ih => simp [keysFrom, ih]

theorem keysFrom_body (hb : Body b) (x t : Text) :
    keysFrom (.body x) (b ++ ch '"' :: t) = keysFrom (.behind (x ++ b)) t := by
  have hplain : ∀ {c : CodePoint} (x t : Text), Bare c →
    keysFrom (.body x) (c :: t) = keysFrom (.body (x ++ [c])) t := by
    intro c x t hc
    simp [keysFrom, Mark.next, hc.1, hc.2]
  have hescape : ∀ {e : CodePoint} (x t : Text),
      keysFrom (.body x) (ch '\\' :: e :: t) = keysFrom (.body (x ++ [ch '\\', e])) t := by
    intro e x t
    have hquote : ch '\\' ≠ ch '"' := by decide
    simp [keysFrom, Mark.next, hquote]
  induction hb generalizing x with
  | nil => simp [keysFrom, Mark.next]
  | plain hc _ _ ih => rw [List.cons_append, hplain x _ hc, ih, List.append_assoc, List.singleton_append]
  | escape he _ ih => rw [List.cons_append, List.cons_append, hescape, ih, List.append_assoc]; rfl
  | @unicode h₁ h₂ h₃ h₄ b hh _ ih =>
    have hhex := fun x hx => hexValue_bare (hex4_isSome hh x hx)
    simp only [List.cons_append]
    rw [hescape, hplain _ _ (hhex h₁ (by simp)), hplain _ _ (hhex h₂ (by simp)), hplain _ _ (hhex h₃ (by simp)),
      hplain _ _ (hhex h₄ (by simp)), ih]
    simp

theorem Mark.Settled.next {mark : Mark} (h : mark.Settled) (hc : c ≠ ch '"') : (mark.next c).2.Settled := by
  cases mark with
  | outside => simp [Mark.next, hc, Settled]
  | behind =>
    simp only [Mark.next, hc, if_false]
    split
    · trivial
    · split <;> trivial
  | body => exact h.elim
  | escape => exact h.elim

theorem Mark.Settled.quote {mark : Mark} (h : mark.Settled) : mark.next (ch '"') = ([], .body []) := by
  cases mark with
  | outside => rfl
  | behind => rfl
  | body => exact h.elim
  | escape => exact h.elim

/-! ## The pairs of a text -/

section Reading

variable {φ : Type}

/-- The pairs of an object as they stand in the text. -/
def keepPairs (pairs : List (Text × Value φ)) : Except Empty (Value φ) := .ok (.dict pairs)

mutual

def stringsOf : Value φ → Nat
  | .str _ => 1
  | .list items => stringsOfItems items
  | .dict entries => stringsOfEntries entries
  | _ => 0

def stringsOfItems : List (Value φ) → Nat
  | [] => 0
  | v :: items => stringsOf v + stringsOfItems items

def stringsOfEntries : List (Text × Value φ) → Nat
  | [] => 0
  | (_, v) :: entries => 1 + (stringsOf v + stringsOfEntries entries)

end

mutual

/-- The keys of a value, one object after the other. -/
def keysOf : Value φ → List Text
  | .list items => keysOfItems items
  | .dict entries => keysOfEntries entries
  | _ => []

def keysOfItems : List (Value φ) → List Text
  | [] => []
  | v :: items => keysOf v ++ keysOfItems items

def keysOfEntries : List (Text × Value φ) → List Text
  | [] => []
  | (key, v) :: entries => key :: (keysOf v ++ keysOfEntries entries)

end

/-- From one rest of a text to another one there are so many literals and these keys. -/
def Spells (t rest : Text) (n : Nat) (keys : List Text) : Prop :=
  ∀ mark : Mark, mark.Settled → ∃ p spelled mark', t = p ++ rest ∧ Lexed n p ∧ keysFrom mark p = (spelled, mark') ∧
    mark'.Settled ∧ spelled.map decode = keys

theorem Spells.refl (t : Text) : Spells t t 0 [] := fun mark h => ⟨[], [], mark, rfl, .nil, rfl, h, rfl⟩

theorem Spells.trans {m n : Nat} {keys keys' : List Text} (h : Spells s t m keys) (h' : Spells t u n keys') :
    Spells s u (m + n) (keys ++ keys') := by
  intro mark hmark
  obtain ⟨p, spelled, mark₁, rfl, hp, hkeys, hmark₁, rfl⟩ := h mark hmark
  obtain ⟨q, spelled', mark₂, rfl, hq, hkeys', hmark₂, rfl⟩ := h' mark₁ hmark₁
  refine ⟨p ++ q, spelled ++ spelled', mark₂, (List.append_assoc _ _ _).symm, hp.append hq, ?_, hmark₂, List.map_append⟩
  rw [keysFrom_append, hkeys, hkeys']

theorem Spells.letter (hc : c ∈ outsideLetters) (hcolon : c ≠ ch ':') (t : Text) : Spells (c :: t) t 0 [] := by
  intro mark hmark
  have hquote := (outside_bare hc).1
  have hnone : (mark.next c).1 = [] := by
    cases mark with
    | outside => rfl
    | behind =>
      simp only [Mark.next, hcolon, if_false]
      split <;> rfl
    | body => exact hmark.elim
    | escape => exact hmark.elim
  refine ⟨[c], [], (mark.next c).2, rfl, .outside hc .nil, ?_, hmark.next hquote, rfl⟩
  simp [keysFrom, hnone]

theorem Spells.letters (hx : ∀ c ∈ x, c ∈ outsideLetters ∧ c ≠ ch ':') (t : Text) : Spells (x ++ t) t 0 [] := by
  induction x with
  | nil => exact .refl t
  | cons c x ih =>
    obtain ⟨hc, hcolon⟩ := hx c List.mem_cons_self
    exact (Spells.letter hc hcolon (x ++ t)).trans (ih fun d hd => hx d (List.mem_cons_of_mem c hd))

theorem skipSpace_split (t : Text) : ∃ x, t = x ++ skipSpace t ∧ ∀ c ∈ x, c ∈ lit " \t\n\r" := by
  induction t with
  | nil => exact ⟨[], rfl, fun c hc => (by cases hc)⟩
  | cons c t ih =>
    by_cases hc : c ∈ lit " \t\n\r"
    · obtain ⟨x, hx, hall⟩ := ih
      refine ⟨c :: x, ?_, List.forall_mem_cons.mpr ⟨hc, hall⟩⟩
      rw [skipSpace, if_pos hc, List.cons_append, ← hx]
    · exact ⟨[], by rw [skipSpace, if_neg hc]; rfl, fun d hd => (by cases hd)⟩

theorem space_outside (hc : c ∈ lit " \t\n\r") : c ∈ outsideLetters ∧ c ≠ ch ':' := by
  have hall : (lit " \t\n\r").all (fun c => decide (c ∈ outsideLetters ∧ c ≠ ch ':')) = true := by decide
  exact of_decide_eq_true (List.all_eq_true.mp hall c hc)

theorem Spells.space (t : Text) : Spells t (skipSpace t) 0 [] := by
  obtain ⟨x, hx, hall⟩ := skipSpace_split t
  have h := Spells.letters (fun c hc => space_outside (hall c hc)) (skipSpace t)
  rwa [← hx] at h

theorem Spells.string (h : scanString t = some (s, rest)) : Spells (ch '"' :: t) rest 1 [] := by
  intro mark hmark
  obtain ⟨b, hb, -, rfl⟩ := Body.of_scanString h
  refine ⟨ch '"' :: (b ++ [ch '"']), [], .behind b, by simp, .literal hb .nil, ?_, trivial, rfl⟩
  simp [keysFrom, hmark.quote, keysFrom_body hb]

theorem Spells.key {key : Text} (h : scanString t = some (key, u)) (hcolon : skipSpace u = ch ':' :: s) :
    Spells (ch '"' :: t) s 1 [key] := by
  intro mark hmark
  obtain ⟨b, hb, rfl, rfl⟩ := Body.of_scanString h
  obtain ⟨x, hx, hall⟩ := skipSpace_split u
  have hspaces : ∀ {x : Text} (w : Text), (∀ c ∈ x, c ∈ lit " \t\n\r") →
    keysFrom (.behind b) (x ++ w) = keysFrom (.behind b) w := by
    intro x w hall
    induction x with
    | nil => rfl
    | cons c x ih =>
      simp only [List.cons_append, keysFrom, Mark.next, if_pos (hall c List.mem_cons_self), List.nil_append]
      exact ih fun d hd => hall d (List.mem_cons_of_mem c hd)
  have hlexed : Lexed (0 + 0) (x ++ [ch ':']) :=
    (lexed_outside fun c hc => (space_outside (hall c hc)).1).append (.outside (by decide) .nil)
  refine ⟨ch '"' :: (b ++ ch '"' :: (x ++ [ch ':'])), [b], .outside, ?_, .literal hb hlexed, ?_, trivial, rfl⟩
  · rw [hx, hcolon]
    simp
  · simp only [keysFrom, hmark.quote, keysFrom_body hb, List.nil_append, hspaces _ hall]
    rfl

theorem digit_outside (h : isDigit c = true) : c ∈ outsideLetters ∧ c ≠ ch ':' := by
  simp only [isDigit, decide_eq_true_eq] at h
  constructor
  · apply mem_outside
    rw [outsideLetters_val]
    simp only [List.mem_cons]
    omega
  · rintro rfl
    exact absurd h (by decide)

theorem spanDigits_spells (t : Text) : Spells t (spanDigits t).2 0 [] := by
  induction t with
  | nil => exact .refl []
  | cons c t ih =>
    by_cases hc : isDigit c = true
    · rw [spanDigits, if_pos hc]
      obtain ⟨houtside, hcolon⟩ := digit_outside hc
      exact (Spells.letter houtside hcolon t).trans ih
    · rw [spanDigits, if_neg hc]
      exact .refl _

theorem scanNumber_spells {m : NumberText} (h : scanNumber t = some (m, rest)) : Spells t rest 0 [] := by
  have hletter : ∀ {c : CodePoint} (t : Text), c ∈ lit "+-.eE" → Spells (c :: t) t 0 [] := by
    intro c t hc
    have hall : (lit "+-.eE").all (fun c => decide (c ∈ outsideLetters ∧ c ≠ ch ':')) = true := by decide
    obtain ⟨houtside, hcolon⟩ := of_decide_eq_true (List.all_eq_true.mp hall c hc)
    exact .letter houtside hcolon t
  have hsign : Spells t (scanSign t).2 0 [] := by
    unfold scanSign
    split
    · exact .refl []
    · next c t =>
      split
      · next hc => exact hletter t (by rw [hc]; decide)
      · exact .refl _
  have hint : ∀ {t u ds : Text}, scanInt t = some (ds, u) → Spells t u 0 [] := by
    intro t u ds h
    unfold scanInt at h
    split at h
    · cases h
    · next c t =>
      split at h
      · next hc =>
        cases h
        obtain ⟨houtside, hcolon⟩ := digit_outside (c := c) (by rw [hc]; rfl)
        exact .letter houtside hcolon _
      split at h
      · next hc =>
        cases h
        obtain ⟨houtside, hcolon⟩ := digit_outside hc
        exact (Spells.letter houtside hcolon _).trans (spanDigits_spells _)
      · cases h
  have hfrac : ∀ t, Spells t (scanFrac t).2 0 [] := by
    intro t
    unfold scanFrac
    split
    · exact .refl []
    · next p t =>
      split
      · next hp => exact (hletter t (by rw [hp.1]; decide)).trans (spanDigits_spells t)
      · exact .refl _
  have hexpSign : ∀ t, Spells t (scanExpSign t).2 0 [] := by
    intro t
    unfold scanExpSign
    split
    · exact .refl []
    · next c t =>
      split
      · next hc => exact hletter t (by rcases hc with rfl | rfl <;> decide)
      · exact .refl _
  have hexp : ∀ t, Spells t (scanExp t).2 0 [] := by
    intro t
    unfold scanExp
    split
    · exact .refl []
    · next e t =>
      simp only
      split
      · next he =>
        have hfirst := hletter t (c := e) (by rcases he.1 with rfl | rfl <;> decide)
        exact (hfirst.trans (hexpSign t)).trans (spanDigits_spells _)
      · exact .refl _
  simp only [scanNumber, bind, Option.bind_eq_some_iff, pure, Option.some.injEq, Prod.mk.injEq] at h
  obtain ⟨⟨ds, u⟩, hu, -, rfl⟩ := h
  exact ((hsign.trans (hint hu)).trans (hfrac u)).trans (hexp _)

variable {F : FloatFormat}

theorem scanConstant_spells {v : Value F.Val} (h : scanConstant F t = some (v, rest)) :
    Spells t rest 0 [] ∧ stringsOf v = 0 ∧ keysOf v = [] := by
  have hword : ∀ {word rest : Text}, word.all (fun c => decide (c ∈ outsideLetters ∧ c ≠ ch ':')) = true →
      scanWord word t = some rest → Spells t rest 0 [] := by
    intro word rest hall h
    unfold scanWord at h
    split at h
    · next hp =>
      cases h
      obtain ⟨u, rfl⟩ := List.isPrefixOf_iff_prefix.mp hp
      rw [List.drop_left]
      exact .letters (fun c hc => of_decide_eq_true (List.all_eq_true.mp hall c hc)) u
    · cases h
  simp only [scanConstant, Option.orElse_eq_orElse, Option.orElse_eq_or,
    Option.or_eq_some_iff, Option.map_eq_some_iff, Prod.mk.injEq] at h
  rcases h with ⟨_, h, rfl, rfl⟩ | ⟨-, ⟨_, h, rfl, rfl⟩ | ⟨-, ⟨_, h, rfl, rfl⟩ | ⟨-, ⟨_, h, rfl, rfl⟩ |
    ⟨-, ⟨_, h, rfl, rfl⟩ | ⟨-, _, h, rfl, rfl⟩⟩⟩⟩⟩
  all_goals exact ⟨hword (by decide) h, rfl, rfl⟩

/-- What a scan gives, if it gives something. -/
def Gives {ε α : Type} (P : α → Text → Prop) (r : Except (LoadError ε) (α × Text)) : Prop :=
  ∀ a rest, r = .ok (a, rest) → P a rest

theorem Gives.ok {ε α : Type} {P : α → Text → Prop} {a : α} (h : P a rest) :
    Gives P (.ok (a, rest) : Except (LoadError ε) (α × Text)) := by
  intro a' rest' heq
  obtain ⟨rfl, rfl⟩ := Prod.mk.inj (Except.ok.inj heq)
  exact h

theorem Gives.error {ε α : Type} {P : α → Text → Prop} (e : LoadError ε) :
    Gives P (.error e : Except (LoadError ε) (α × Text)) := (by rintro _ _ ⟨⟩)

theorem Gives.bind {ε α β : Type} {P : α → Text → Prop} {Q : β → Text → Prop} {r : Except (LoadError ε) (α × Text)}
    {f : α × Text → Except (LoadError ε) (β × Text)} (hr : Gives P r)
    (hf : ∀ a rest, P a rest → Gives Q (f (a, rest))) :
    Gives Q (r.bind f) := by
  cases r with
  | error e => exact .error e
  | ok p => exact hf p.1 p.2 (hr p.1 p.2 rfl)

theorem Spells.mark {mark : Char} (hmark : mark ∈ ['{', '}', '[', ']', ',']) (t : Text) :
    Spells (ch mark :: t) t 0 [] := by
  have hall : ['{', '}', '[', ']', ','].all
    (fun mark => decide (ch mark ∈ outsideLetters ∧ ch mark ≠ ch ':')) = true := by
    decide
  obtain ⟨houtside, hcolon⟩ := of_decide_eq_true (List.all_eq_true.mp hall mark hmark)
  exact .letter houtside hcolon t

theorem spells_skip {t u : Text} {c : CodePoint} (heq : skipSpace t = c :: u) : Spells t (c :: u) 0 [] := by
  rw [← heq]
  exact .space t

/-- The literals and the keys of what a scan reads. -/
structure SpelledBy (F : FloatFormat) (n : Nat) : Prop where
  value : ∀ t, Gives (fun v rest => Spells t rest (stringsOf v) (keysOf v)) (scanOnce F keepPairs n t)
  items : ∀ t, Gives (fun items rest => Spells t rest (stringsOfItems items) (keysOfItems items))
    (scanItems F keepPairs n t)
  pairs : ∀ t, Gives (fun pairs rest => Spells t rest (stringsOfEntries pairs) (keysOfEntries pairs))
    (scanPairs F keepPairs n t)

variable {n : Nat}

theorem SpelledBy.scanOnce_succ (h : SpelledBy F n) (t : Text) :
    Gives (fun v rest => Spells t rest (stringsOf v) (keysOf v)) (scanOnce F keepPairs (n + 1) t) := by
  cases t with
  | nil => exact .error _
  | cons c t =>
    simp only [scanOnce]
    split
    · next hc =>
      subst hc
      split
      · next s rest heq => exact .ok (.string heq)
      · exact .error _
    split
    · next hc =>
      subst hc
      split
      · exact .error _
      · next d u heq =>
        have hopen : Spells (ch '{' :: t) (d :: u) 0 [] := (Spells.mark (by simp) t).trans (spells_skip heq)
        split
        · next hd =>
          subst hd
          exact .ok (hopen.trans (.mark (by simp) u))
        · refine (h.pairs (d :: u)).bind fun pairs rest hp => ?_
          exact .ok (by simpa [stringsOf, keysOf] using hopen.trans hp)
    split
    · next hc =>
      subst hc
      split
      · exact .error _
      · next d u heq =>
        have hopen : Spells (ch '[' :: t) (d :: u) 0 [] := (Spells.mark (by simp) t).trans (spells_skip heq)
        split
        · next hd =>
          subst hd
          exact .ok (hopen.trans (.mark (by simp) u))
        · refine (h.items (d :: u)).bind fun items rest hp => ?_
          exact .ok (by simpa [stringsOf, keysOf] using hopen.trans hp)
    split
    · next p heq =>
      obtain ⟨v, rest⟩ := p
      obtain ⟨hspells, hn, hk⟩ := scanConstant_spells heq
      exact .ok (by rwa [hn, hk])
    · split
      · next m rest heq =>
        unfold numberValue
        split
        · exact .ok (scanNumber_spells heq)
        split
        · exact .ok (scanNumber_spells heq)
        · exact .error _
      · exact .error _

theorem SpelledBy.scanItems_succ (h : SpelledBy F n) (t : Text) :
    Gives (fun items rest => Spells t rest (stringsOfItems items) (keysOfItems items))
      (scanItems F keepPairs (n + 1) t) := by
  simp only [scanItems, bind]
  refine (h.value t).bind fun v rest hv => ?_
  simp only
  split
  · exact .error _
  · next c u heq =>
    have hnext := hv.trans (spells_skip heq)
    split
    · next hc =>
      subst hc
      have hall := hnext.trans (.mark (by simp) u)
      exact .ok (by simpa [stringsOfItems, keysOfItems] using hall)
    split
    · next hc =>
      subst hc
      have hcomma := (hnext.trans (.mark (by simp) u)).trans (.space u)
      refine (h.items (skipSpace u)).bind fun items rest hp => .ok ?_
      simpa [stringsOfItems, keysOfItems] using hcomma.trans hp
    · exact .error _

theorem SpelledBy.scanPairs_succ (h : SpelledBy F n) (t : Text) :
    Gives (fun pairs rest => Spells t rest (stringsOfEntries pairs) (keysOfEntries pairs))
      (scanPairs F keepPairs (n + 1) t) := by
  cases t with
  | nil => exact .error _
  | cons =>
    simp only [scanPairs]
    split
    · next hq =>
      subst hq
      split
      · exact .error _
      · next key u heq =>
        split
        · exact .error _
        · next colon w hw =>
          split
          · next hcolon =>
            subst hcolon
            have hkey := (Spells.key heq hw).trans (.space w)
            refine (h.value _).bind fun v rest hv => ?_
            simp only
            split
            · exact .error _
            · next c x hx =>
              have hnext := (hkey.trans hv).trans (spells_skip hx)
              split
              · next hc =>
                subst hc
                have hall := hnext.trans (.mark (by simp) x)
                exact .ok (by simpa [stringsOfEntries, keysOfEntries] using hall)
              split
              · next hc =>
                subst hc
                have hcomma := (hnext.trans (.mark (by simp) x)).trans (.space x)
                refine (h.pairs _).bind fun pairs rest hp => .ok ?_
                simpa [stringsOfEntries, keysOfEntries, Nat.add_assoc] using hcomma.trans hp
              · exact .error _
          · exact .error _
    · exact .error _

theorem scan_spells : ∀ n : Nat, SpelledBy F n
  | 0 => ⟨fun _ => .error _, fun _ => .error _, fun _ => .error _⟩
  | n + 1 => ⟨(scan_spells n).scanOnce_succ, (scan_spells n).scanItems_succ, (scan_spells n).scanPairs_succ⟩

/-- **The literals of a text.** A text that is read has a literal for every string and for every key, and its keys are
those of what is read. -/
theorem loadsText_spells {v : Value F.Val} (h : loadsText F keepPairs t = .ok v) :
    Lexed (stringsOf v) t ∧ (keySpellings t).map decode = keysOf v := by
  unfold loadsText at h
  cases hs : scanOnce F keepPairs (2 * t.length + 2) (skipSpace t) with
  | error => simp [hs, bind, Except.bind] at h
  | ok p =>
    obtain ⟨w, rest⟩ := p
    simp only [hs, bind, Except.bind] at h
    split at h
    · next hrest =>
      obtain rfl := Except.ok.inj h
      have hall := ((Spells.space t).trans ((scan_spells _).1 _ _ _ hs)).trans (.space rest)
      rw [hrest] at hall
      obtain ⟨p, spelled, mark, hp, hlexed, hkeys, -, hdecode⟩ := hall .outside trivial
      rw [List.append_nil] at hp
      subst hp
      refine ⟨by simpa using hlexed, ?_⟩
      rw [keySpellings, hkeys, hdecode]
      simp
    · cases h

end Reading

end AgentFabric.Lib
