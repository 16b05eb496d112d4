import AgentFabric.Lib.JsonScan

/-!
# What is written is read back

The scanner reads back what the writer wrote, followed by anything that cannot be read on.
-/

namespace AgentFabric.Lib

/-- The text does not begin with a character that satisfies `p`. -/
def Stops (p : CodePoint → Prop) (t : Text) : Prop := ∀ c ∈ t.head?, ¬ p c

variable {p : CodePoint → Prop}

theorem Stops.nil : Stops p [] := by
  intro c hc
  cases hc

variable {c : CodePoint}

theorem Stops.cons (h : ¬ p c) (t : Text) : Stops p (c :: t) := by
  intro d hd
  cases hd
  exact h

variable {s t : Text}

theorem Stops.append (hs : Stops p s) (ht : Stops p t) : Stops p (s ++ t) := by
  cases s with
  | nil => exact ht
  | cons =>
    intro d hd
    exact hs d hd

variable {t : Text}

theorem Stops.mono {p q : CodePoint → Prop} (h : Stops p t) (hpq : ∀ c, q c → p c) : Stops q t :=
  fun c hc hq => h c hc (hpq c hq)

/-- What ends a value inside an array or an object. -/
def Ends (t : Text) : Prop := ∀ c ∈ t.head?, c = ch ',' ∨ c = ch ']' ∨ c = ch '}'

theorem Ends.stops (h : Ends t) (hcomma : ¬ p (ch ',')) (hlist : ¬ p (ch ']'))
    (hdict : ¬ p (ch '}')) : Stops p t := by
  intro c hc hp
  rcases h c hc with rfl | rfl | rfl
  · exact hcomma hp
  · exact hlist hp
  · exact hdict hp

/-! ## Numbers -/

theorem spanDigits_append {ds t : Text} (hd : ∀ c ∈ ds, isDigit c = true) (ht : Stops (isDigit · = true) t) :
    spanDigits (ds ++ t) = (ds, t) := by
  induction ds with
  | nil =>
    cases t with
    | nil => rfl
    | cons c =>
      have hc : ¬ isDigit c = true := ht c rfl
      simp [spanDigits, hc]
  | cons c ds ih =>
    have hc : isDigit c = true := hd c List.mem_cons_self
    have ih := ih fun d hd' => hd d (List.mem_cons_of_mem c hd')
    simp [spanDigits, hc, ih]

theorem scanInt_append {ds t : Text} (hd : ds = lit "0" ∨ (Digits ds ∧ ds.head? ≠ some (ch '0')))
    (ht : Stops (isDigit · = true) t) : scanInt (ds ++ t) = some (ds, t) := by
  obtain rfl | ⟨⟨hne, hall⟩, hhead⟩ := hd
  · rfl
  · cases ds with
    | nil => exact absurd rfl hne
    | cons c =>
      have hzero : c ≠ ch '0' := fun h => hhead (congrArg some h)
      have hc : isDigit c = true := hall c List.mem_cons_self
      have hspan := spanDigits_append (fun d hd' => hall d (List.mem_cons_of_mem c hd')) ht
      simp [scanInt, hzero, hc, hspan]

theorem scanFrac_append {f t : Text} (hf : f = [] ∨ ∃ ds, f = ch '.' :: ds ∧ Digits ds)
    (ht : Stops (fun c => isDigit c = true ∨ c = ch '.') t) : scanFrac (f ++ t) = (f, t) := by
  obtain rfl | ⟨ds, rfl, hne, hall⟩ := hf
  · cases t with
    | nil => rfl
    | cons c =>
      have hdot : c ≠ ch '.' := fun h => ht c rfl (.inr h)
      simp [scanFrac, hdot]
  · have hspan := spanDigits_append hall (ht.mono fun c hc => Or.inl hc)
    simp [scanFrac, hspan, hne]

theorem scanExpSign_append (hs : s = [] ∨ s = lit "+" ∨ s = lit "-")
    (ht : Stops (fun c => c = ch '+' ∨ c = ch '-') t) : scanExpSign (s ++ t) = (s, t) := by
  obtain rfl | rfl | rfl := hs
  · cases t with
    | nil => rfl
    | cons c =>
      have hc : ¬ (c = ch '+' ∨ c = ch '-') := ht c rfl
      simp [scanExpSign, hc]
  · rfl
  · rfl

theorem isDigit_ne {c d : CodePoint} (hc : isDigit c = true) (hd : isDigit d = false) : c ≠ d := by
  rintro rfl
  exact absurd hc (by simp [hd])

theorem Digits.stops {ds : Text} (h : Digits ds)
    (hp : ∀ c, isDigit c = true → ¬ p c) (t : Text) :
    Stops p (ds ++ t) := by
  cases ds with
  | nil => exact absurd rfl h.1
  | cons c => exact Stops.cons (hp c (h.2 c List.mem_cons_self)) _

theorem scanExp_append {x t : Text} (hx : x = [] ∨ ∃ e s ds, x = e :: s ++ ds ∧ (e = ch 'e' ∨ e = ch 'E') ∧
    (s = [] ∨ s = lit "+" ∨ s = lit "-") ∧ Digits ds)
    (ht : Stops (fun c => isDigit c = true ∨ c = ch 'e' ∨ c = ch 'E') t) : scanExp (x ++ t) = (x, t) := by
  obtain rfl | ⟨e, s, ds, rfl, he, hs, hds⟩ := hx
  · cases t with
    | nil => rfl
    | cons c =>
      have hc : ¬ (c = ch 'e' ∨ c = ch 'E') := fun h => ht c rfl (.inr h)
      simp [scanExp, hc]
  · have hsign : scanExpSign (s ++ (ds ++ t)) = (s, ds ++ t) :=
      scanExpSign_append hs (hds.stops (fun c hc h => by
        rcases h with rfl | rfl
        · exact absurd hc (by decide)
        · exact absurd hc (by decide)) t)
    have hspan := spanDigits_append hds.2 (ht.mono fun c hc => Or.inl hc)
    simp [scanExp, hsign, hspan, he, hds.1]

theorem scanSign_append (hs : s = [] ∨ s = lit "-") (ht : Stops (· = ch '-') t) :
    scanSign (s ++ t) = (s, t) := by
  obtain rfl | rfl := hs
  · cases t with
    | nil => rfl
    | cons c =>
      have hc : c ≠ ch '-' := ht c rfl
      simp [scanSign, hc]
  · rfl

theorem NumberText.Valid.digits {n : NumberText} (h : n.Valid) : Digits n.int := by
  obtain hz | ⟨hd, -⟩ := h.int
  · rw [hz]
    refine ⟨by decide, fun c hc => ?_⟩
    obtain rfl : c = ch '0' := List.mem_singleton.mp hc
    decide
  · exact hd

/-- The text of a number is read as that number. -/
theorem scanNumber_text {n : NumberText} (h : n.Valid) (ht : Ends t) :
    scanNumber (n.text ++ t) = some (n, t) := by
  have hexp : ∀ p : CodePoint → Prop, (¬ p (ch ',')) → (¬ p (ch ']')) → (¬ p (ch '}')) → (¬ p (ch 'e')) →
      (¬ p (ch 'E')) → Stops p (n.exp ++ t) := by
    intro p h₁ h₂ h₃ h₄ h₅
    refine Stops.append ?_ (ht.stops h₁ h₂ h₃)
    obtain hx | ⟨e, s, ds, hx, he, -, -⟩ := h.exp <;> rw [hx]
    · exact Stops.nil
    · rcases he with rfl | rfl
      · exact Stops.cons h₄ _
      · exact Stops.cons h₅ _
  have hfrac : Stops (isDigit · = true) (n.frac ++ (n.exp ++ t)) := by
    refine Stops.append ?_ (hexp _ (by decide) (by decide) (by decide) (by decide) (by decide))
    obtain hx | ⟨ds, hx, -⟩ := h.frac <;> rw [hx]
    · exact Stops.nil
    · exact Stops.cons (by decide) _
  have hint : Stops (· = ch '-') (n.int ++ (n.frac ++ (n.exp ++ t))) :=
    h.digits.stops (fun c hc hm => absurd (hm ▸ hc) (by decide)) _
  simp only [NumberText.text, List.append_assoc, scanNumber, scanSign_append h.sign hint,
    scanInt_append h.int hfrac, bind, Option.bind,
    scanFrac_append h.frac (hexp _ (by decide) (by decide) (by decide) (by decide) (by decide)),
    scanExp_append h.exp (ht.stops (by decide) (by decide) (by decide)), pure]

theorem scanWord_head {w : Char} {word : Text} (hne : ch w ≠ c) (t : Text) :
    scanWord (ch w :: word) (c :: t) = none := by
  simp [scanWord, List.isPrefixOf, hne]

theorem scanConstant_digit (F : FloatFormat) (hc : isDigit c = true) (t : Text) :
    scanConstant F (c :: t) = none := by
  have hne : ∀ d, isDigit d = false → d ≠ c := fun d hd => (isDigit_ne hc hd).symm
  have h₁ : scanWord (lit "null") (c :: t) = none := scanWord_head (hne _ (by decide)) t
  have h₂ : scanWord (lit "true") (c :: t) = none := scanWord_head (hne _ (by decide)) t
  have h₃ : scanWord (lit "false") (c :: t) = none := scanWord_head (hne _ (by decide)) t
  have h₄ : scanWord (lit "NaN") (c :: t) = none := scanWord_head (hne _ (by decide)) t
  have h₅ : scanWord (lit "Infinity") (c :: t) = none := scanWord_head (hne _ (by decide)) t
  have h₆ : scanWord (lit "-Infinity") (c :: t) = none := scanWord_head (hne _ (by decide)) t
  simp [scanConstant, h₁, h₂, h₃, h₄, h₅, h₆]

/-- After a minus sign a digit, not the `I` of `-Infinity`. -/
theorem scanConstant_minus (F : FloatFormat) (hc : isDigit c = true) (t : Text) :
    scanConstant F (ch '-' :: c :: t) = none := by
  have hi : ch 'I' ≠ c := (isDigit_ne hc (by decide)).symm
  have h₁ : scanWord (lit "null") (ch '-' :: c :: t) = none := scanWord_head (by decide) _
  have h₂ : scanWord (lit "true") (ch '-' :: c :: t) = none := scanWord_head (by decide) _
  have h₃ : scanWord (lit "false") (ch '-' :: c :: t) = none := scanWord_head (by decide) _
  have h₄ : scanWord (lit "NaN") (ch '-' :: c :: t) = none := scanWord_head (by decide) _
  have h₅ : scanWord (lit "Infinity") (ch '-' :: c :: t) = none := scanWord_head (by decide) _
  have h₆ : scanWord (lit "-Infinity") (ch '-' :: c :: t) = none := by simp [scanWord, lit, List.isPrefixOf, hi]
  simp [scanConstant, h₁, h₂, h₃, h₄, h₅, h₆]

theorem NumberText.Valid.head {n : NumberText} (h : n.Valid) (t : Text) :
    ∃ c u, isDigit c = true ∧ (n.text ++ t = c :: u ∨ n.text ++ t = ch '-' :: c :: u) := by
  obtain ⟨hne, hall⟩ := h.digits
  cases hint : n.int with
  | nil => exact absurd hint hne
  | cons c ds =>
    refine ⟨c, ds ++ n.frac ++ n.exp ++ t, hall c (hint ▸ List.mem_cons_self), ?_⟩
    obtain hs | hs := h.sign
    · left
      rw [NumberText.text, hs, hint]
      rfl
    · right
      rw [NumberText.text, hs, hint]
      rfl

section Scanner

variable {F : FloatFormat} {ε : Type} {hook : List (Text × Value F.Val) → Except ε (Value F.Val)}

theorem scanOnce_number {m : NumberText} (h : m.Valid) {v : Value F.Val} (hv : numberValue (ε := ε) F m = .ok v)
    (ht : Ends t) (n : Nat) : scanOnce F hook (n + 1) (m.text ++ t) = .ok (v, t) := by
  have hnum := scanNumber_text h ht
  obtain ⟨c, u, hc, heq | heq⟩ := h.head t
  · have hne : ∀ d, isDigit d = false → c ≠ d := fun d hd => isDigit_ne hc hd
    rw [heq] at hnum ⊢
    simp [scanOnce, hne (ch '"') (by decide), hne (ch '{') (by decide), hne (ch '[') (by decide),
      scanConstant_digit F hc, hnum, hv, bind, Except.bind]
  · have h₁ : ch '-' ≠ ch '"' := by decide
    have h₂ : ch '-' ≠ ch '{' := by decide
    have h₃ : ch '-' ≠ ch '[' := by decide
    rw [heq] at hnum ⊢
    simp [scanOnce, h₁, h₂, h₃, scanConstant_minus F hc, hnum, hv, bind, Except.bind]

end Scanner

/-! ## Integers -/

theorem isDigit_codePoint {d : Nat} (h : d < 10) : isDigit (codePoint (0x30 + d)) = true := by
  have hval : (codePoint (0x30 + d)).val = 0x30 + d := Nat.mod_eq_of_lt (by omega)
  simp only [isDigit, hval, decide_eq_true_eq]
  omega

theorem natText_digits (n : Nat) : Digits (natText n) := by
  unfold natText
  split
  · refine ⟨by decide, fun c hc => ?_⟩
    obtain rfl : c = ch '0' := List.mem_singleton.mp hc
    decide
  · next hn =>
    refine ⟨by simpa using Nat.digits_ne_nil_iff_ne_zero.mpr hn, fun c hc => ?_⟩
    obtain ⟨d, hd, rfl⟩ := List.mem_map.mp hc
    exact isDigit_codePoint (Nat.digits_lt_base (by omega) (List.mem_reverse.mp hd))

variable {n : Nat}

theorem natText_head (hn : n ≠ 0) : (natText n).head? ≠ some (ch '0') := by
  have hne : Nat.digits 10 n ≠ [] := Nat.digits_ne_nil_iff_ne_zero.mpr hn
  have hlast := Nat.getLast_digit_ne_zero 10 hn
  have hlt : (Nat.digits 10 n).getLast hne < 10 := Nat.digits_lt_base (by omega) (List.getLast_mem hne)
  intro h
  simp only [natText, if_neg hn, List.head?_map, List.head?_reverse, List.getLast?_eq_some_getLast hne,
    Option.map_some, Option.some.injEq] at h
  have hval := congrArg Fin.val h
  have h₁ : (codePoint (0x30 + (Nat.digits 10 n).getLast hne)).val = 0x30 + (Nat.digits 10 n).getLast hne :=
    Nat.mod_eq_of_lt (by omega)
  have h₂ : (ch '0').val = 0x30 := rfl
  omega

theorem ofDigits_natText (n : Nat) : ofDigits (natText n) = n := by
  unfold natText
  split
  · next hn => rw [hn]; rfl
  · have hfold : ∀ ds : List Nat, (∀ d ∈ ds, d < 10) →
        ofDigits (ds.reverse.map fun d => codePoint (0x30 + d)) = Nat.ofDigits 10 ds := by
      intro ds hds
      induction ds with
      | nil => rfl
      | cons d ds ih =>
        have ih := ih fun x hx => hds x (List.mem_cons_of_mem d hx)
        have hd : d < 10 := hds d List.mem_cons_self
        have hval : (codePoint (0x30 + d)).val = 0x30 + d := Nat.mod_eq_of_lt (by omega)
        simp only [ofDigits, List.reverse_cons, List.map_append, List.map_cons, List.map_nil, List.foldl_append,
          List.foldl_cons, List.foldl_nil, Nat.ofDigits_cons, hval] at ih ⊢
        rw [ih]
        omega
    rw [hfold _ fun d hd => Nat.digits_lt_base (by omega) hd, Nat.ofDigits_digits]

theorem natText_int (n : Nat) : natText n = lit "0" ∨ (Digits (natText n) ∧ (natText n).head? ≠ some (ch '0')) := by
  by_cases hn : n = 0
  · left
    rw [hn]
    rfl
  · exact .inr ⟨natText_digits n, natText_head hn⟩

/-- The sign of an integer, as it is written. -/
def signText (n : Int) : Text := if n < 0 then lit "-" else []

theorem signText_valid (n : Int) : signText n = [] ∨ signText n = lit "-" := by
  unfold signText
  split
  · exact .inr rfl
  · exact .inl rfl

theorem ofInt_signText (n : Int) (frac exp : Text) : ofInt ⟨signText n, natText n.natAbs, frac, exp⟩ = n := by
  have hs : lit "-" ≠ [] := by decide
  by_cases hneg : n < 0
  · simp only [ofInt, signText, if_pos hneg, if_neg hs, ofDigits_natText]
    omega
  · simp only [ofInt, signText, if_neg hneg, if_true, ofDigits_natText]
    omega

theorem intText_number {n : Int} (h : intText n = some t) :
    ∃ m : NumberText, m.Valid ∧ m.text = t ∧ m.isFloat = false ∧ m.int.length ≤ maxStrDigits ∧ ofInt m = n := by
  simp only [intText] at h
  split at h
  · next hlen =>
    refine ⟨⟨signText n, natText n.natAbs, [], []⟩,
      ⟨signText_valid n, natText_int _, .inl rfl, .inl rfl⟩, ?_, rfl, hlen,
      ofInt_signText n [] []⟩
    rw [← Option.some.inj h]
    unfold signText
    split <;> simp [NumberText.text, lit]
  · cases h

/-! ## Strings -/

/-- A character is escaped with four digits. -/
def byNumber (c : CodePoint) : Bool :=
  decide (c.val < 0x20) && decide (c ∉ [codePoint 8, ch '\t', ch '\n', codePoint 12, ch '\r'])

/-- How the scanner meets a character that the writer wrote. -/
def unitOf (c : CodePoint) : StrUnit := if byNumber c then .escape c.val else .plain c

theorem hexValue_digit (h : n < 16) : hexValue (hexDigit n) = some n := by
  have hall : ∀ n : Fin 16, hexValue (hexDigit n.val) = some n.val := by decide
  exact hall ⟨n, h⟩

theorem scanUnits_escaped (c : CodePoint) (t : Text) :
    scanUnits (escaped c ++ t) = (scanUnits t).map fun p => (unitOf c :: p.1, p.2) := by
  unfold escaped
  split
  · next h => subst h; rfl
  split
  · next h => subst h; rfl
  split
  · next h => subst h; rfl
  split
  · next h => subst h; rfl
  split
  · next h => subst h; rfl
  split
  · next h => subst h; rfl
  split
  · next h => subst h; rfl
  next h₁ h₂ h₃ h₄ h₅ h₆ h₇ =>
  split
  · next hlt =>
    have hnum : byNumber c = true := by simp [byNumber, hlt, h₃, h₄, h₅, h₆, h₇]
    have hhex : hex4 (ch '0') (ch '0') (hexDigit (c.val / 16)) (hexDigit (c.val % 16)) = some c.val := by
      have hz : hexValue (ch '0') = some 0 := rfl
      simp only [hex4, hz, hexValue_digit (show c.val / 16 < 16 by omega),
        hexValue_digit (show c.val % 16 < 16 by omega),
        bind, Option.bind, pure, Option.some.injEq]
      omega
    have hu : unescape (ch 'u') = none := by decide
    show scanUnits (ch '\\' :: ch 'u' :: ch '0' :: ch '0' :: hexDigit (c.val / 16) :: hexDigit (c.val % 16) :: t) = _
    simp [scanUnits, show ch '\\' ≠ ch '"' by decide, hu, hhex, unitOf, hnum]
  · next hge =>
    have hnum : byNumber c = false := by simp [byNumber, hge]
    have hstep : scanUnits (c :: t) = (scanUnits t).map fun p => (.plain c :: p.1, p.2) := by
      rw [scanUnits.eq_def]
      simp only [if_neg h₁, if_neg h₂, if_neg hge]
    simpa [unitOf, hnum] using hstep

theorem scanUnits_flatMap (s t : Text) :
    scanUnits (s.flatMap escaped ++ ch '"' :: t) = some (s.map unitOf, t) := by
  induction s with
  | nil =>
    show scanUnits (ch '"' :: t) = some ([], t)
    rw [scanUnits.eq_def]
    simp
  | cons c s ih =>
    rw [List.flatMap_cons, List.append_assoc, scanUnits_escaped, ih]
    rfl

theorem joinUnits_map (s : Text) : joinUnits (s.map unitOf) = s := by
  have hlow : ∀ c, byNumber c = true → highSurrogate c.val = false := fun c hc => by
    simp only [byNumber, Bool.and_eq_true, decide_eq_true_eq] at hc
    simp only [highSurrogate, decide_eq_false_iff_not]
    omega
  induction s with
  | nil => rfl
  | cons c s ih =>
    by_cases hc : byNumber c = true
    · simp only [List.map_cons, unitOf, if_pos hc]
      cases s with
      | nil => simp [joinUnits, codePoint_val]
      | cons d =>
        by_cases hd : byNumber d = true
        · simp only [List.map_cons, unitOf, if_pos hd, joinUnits, hlow c hc, codePoint_val] at ih ⊢
          simpa using ih
        · simp only [List.map_cons, unitOf, if_neg hd, joinUnits, codePoint_val] at ih ⊢
          simpa using ih
    · simp only [List.map_cons, unitOf, if_neg hc, joinUnits, ih]

theorem scanString_text (s t : Text) : scanString (s.flatMap escaped ++ ch '"' :: t) = some (s, t) := by
  simp [scanString, scanUnits_flatMap, joinUnits_map]

/-! ## Values -/

section Values

variable {F : FloatFormat} {ε : Type} {hook : List (Text × Value F.Val) → Except ε (Value F.Val)}

/-- A text that begins a value: neither with white space nor with a closing bracket. -/
def Begins (s : Text) : Prop := ∃ c u, s = c :: u ∧ c ∉ lit " \t\n\r" ∧ c ≠ ch ']'

variable {s : Text}

theorem Begins.skip (h : Begins s) (t : Text) : skipSpace (s ++ t) = s ++ t := by
  obtain ⟨c, u, rfl, hc, -⟩ := h
  simp [skipSpace, hc]

theorem skipSpace_cons (hc : c ∉ lit " \t\n\r") (t : Text) : skipSpace (c :: t) = c :: t := by
  simp [skipSpace, hc]

theorem isDigit_not_space (hc : isDigit c = true) : c ∉ lit " \t\n\r" := by
  intro h
  have hall : (lit " \t\n\r").all (fun d => !isDigit d) = true := by decide
  have hno := List.all_eq_true.mp hall c h
  simp [hc] at hno

theorem NumberText.Valid.begins {n : NumberText} (h : n.Valid) : Begins n.text := by
  obtain ⟨c, u, hc, heq | heq⟩ := h.head []
  · rw [List.append_nil] at heq
    exact ⟨c, u, heq, isDigit_not_space hc, isDigit_ne hc (by decide)⟩
  · rw [List.append_nil] at heq
    exact ⟨ch '-', c :: u, heq, by decide, by decide⟩

/-- How the scanner meets what a writer spells: a string that satisfies `P` is scanned up to its closing quote, and a
number that satisfies `Q` is scanned whole. -/
structure Spelling.Legible (S : Spelling F.Val) (P : Text → Prop) (Q : F.Val → Prop) : Prop where
  string : ∀ s, P s → ∀ t, scanString (S.string s ++ ch '"' :: t) = some (s, t)
  begins : ∀ x, Q x → ∀ s, S.float x = some s → Begins s
  float : ∀ x, Q x → ∀ s, S.float x = some s →
    ∀ {ε : Type} (hook : List (Text × Value F.Val) → Except ε (Value F.Val)) t,
    Ends t → ∀ n, scanOnce F hook (n + 1) (s ++ t) = .ok (.float x, t)

variable {S : Spelling F.Val} {P : Text → Prop} {Q : F.Val → Prop}

variable {v : Value F.Val}

theorem renderBy_begins (hS : S.Legible P Q) (hv : v.Read P Q)
    (hs : S.renderBy v = some s) : Begins s := by
  cases hv with
  | none =>
    cases hs
    exact ⟨ch 'n', lit "ull", rfl, by decide, by decide⟩
  | bool b =>
    cases hs
    cases b
    · exact ⟨ch 'f', lit "alse", rfl, by decide, by decide⟩
    · exact ⟨ch 't', lit "rue", rfl, by decide, by decide⟩
  | int =>
    obtain ⟨m, hm, rfl, -⟩ := intText_number hs
    exact hm.begins
  | float hx => exact hS.begins _ hx s hs
  | str _ =>
    cases hs
    exact ⟨ch '"', _, rfl, by decide, by decide⟩
  | list _ =>
    simp only [Spelling.renderBy, Option.map_eq_some_iff] at hs
    obtain ⟨u, -, rfl⟩ := hs
    exact ⟨ch '[', _, rfl, by decide, by decide⟩
  | dict _ _ _ =>
    simp only [Spelling.renderBy, Option.map_eq_some_iff] at hs
    obtain ⟨u, -, rfl⟩ := hs
    exact ⟨ch '{', _, rfl, by decide, by decide⟩

theorem Ends.comma (t : Text) : Ends (ch ',' :: t) := by
  intro c hc
  cases hc
  exact .inl rfl

theorem Ends.bracket (t : Text) : Ends (ch ']' :: t) := by
  intro c hc
  cases hc
  exact .inr (.inl rfl)

theorem Ends.brace (t : Text) : Ends (ch '}' :: t) := by
  intro c hc
  cases hc
  exact .inr (.inr rfl)

theorem scanOnce_quoted (hS : S.Legible P Q) (hs : P s) (t : Text) (n : Nat) :
    scanOnce F hook (n + 1) (S.quoted s ++ t) = .ok (.str s, t) := by
  have hscan := hS.string s hs t
  simp only [Spelling.quoted, List.cons_append, List.append_assoc, List.nil_append] at hscan ⊢
  simp [scanOnce, hscan]

variable {items : List (Value F.Val)}

theorem scanOnce_list (hs : Begins s)
    (h : scanItems F hook n (s ++ ch ']' :: t) = .ok (items, t)) :
    scanOnce F hook (n + 1) (ch '[' :: (s ++ ch ']' :: t)) = .ok (.list items, t) := by
  obtain ⟨c, u, rfl, hc, hne⟩ := hs
  have hskip := skipSpace_cons hc (u ++ ch ']' :: t)
  have h₁ : ch '[' ≠ ch '"' := by decide
  have h₂ : ch '[' ≠ ch '{' := by decide
  simp only [List.cons_append] at h ⊢
  simp [scanOnce, h₁, h₂, hskip, hne, h, bind, Except.bind]

theorem scanOnce_dict {pairs : List (Text × Value F.Val)}
    (hhook : hook pairs = .ok v)
    (h : scanPairs F hook n (ch '"' :: (s ++ ch '}' :: t)) = .ok (pairs, t)) :
    scanOnce F hook (n + 1) (ch '{' :: ch '"' :: (s ++ ch '}' :: t)) = .ok (v, t) := by
  have hskip := skipSpace_cons (c := ch '"') (by decide) (s ++ ch '}' :: t)
  have h₁ : ch '{' ≠ ch '"' := by decide
  have h₂ : ch '"' ≠ ch '}' := by decide
  simp [scanOnce, h₁, hskip, h₂, h, hhook, bind, Except.bind]

theorem scanItems_last
    (h : scanOnce F hook n (s ++ ch ']' :: t) = .ok (v, ch ']' :: t)) :
    scanItems F hook (n + 1) (s ++ ch ']' :: t) = .ok ([v], t) := by
  have hskip := skipSpace_cons (c := ch ']') (by decide) t
  simp [scanItems, h, hskip, bind, Except.bind]

theorem scanItems_more {s u t : Text} (hu : Begins u)
    (h : scanOnce F hook n (s ++ ch ',' :: (u ++ ch ']' :: t)) = .ok (v, ch ',' :: (u ++ ch ']' :: t)))
    (hrest : scanItems F hook n (u ++ ch ']' :: t) = .ok (items, t)) :
    scanItems F hook (n + 1) (s ++ ch ',' :: (u ++ ch ']' :: t)) = .ok (v :: items, t) := by
  have hskip := skipSpace_cons (c := ch ',') (by decide) (u ++ ch ']' :: t)
  have hne : ch ',' ≠ ch ']' := by decide
  simp [scanItems, h, hskip, hne, hu.skip, hrest, bind, Except.bind]

theorem scanPairs_last (hS : S.Legible P Q) {k s t : Text} (hk : P k) (hs : Begins s)
    (h : scanOnce F hook n (s ++ ch '}' :: t) = .ok (v, ch '}' :: t)) :
    scanPairs F hook (n + 1) (S.quoted k ++ ch ':' :: (s ++ ch '}' :: t)) = .ok ([(k, v)], t) := by
  have hk := hS.string k hk (ch ':' :: (s ++ ch '}' :: t))
  have hcolon := skipSpace_cons (c := ch ':') (by decide) (s ++ ch '}' :: t)
  have hbrace := skipSpace_cons (c := ch '}') (by decide) t
  simp only [Spelling.quoted, List.cons_append, List.append_assoc, List.nil_append] at hk ⊢
  simp [scanPairs, hk, hcolon, hs.skip, h, hbrace, bind, Except.bind]

theorem scanPairs_more (hS : S.Legible P Q) {k s u t : Text} (hk : P k)
    {pairs : List (Text × Value F.Val)} (hs : Begins s) (hu : ∃ u', u = ch '"' :: u')
    (h : scanOnce F hook n (s ++ ch ',' :: (u ++ ch '}' :: t)) = .ok (v, ch ',' :: (u ++ ch '}' :: t)))
    (hrest : scanPairs F hook n (u ++ ch '}' :: t) = .ok (pairs, t)) :
    scanPairs F hook (n + 1) (S.quoted k ++ ch ':' :: (s ++ ch ',' :: (u ++ ch '}' :: t))) =
      .ok ((k, v) :: pairs, t) := by
  obtain ⟨u', rfl⟩ := hu
  have hk := hS.string k hk (ch ':' :: (s ++ ch ',' :: (ch '"' :: u' ++ ch '}' :: t)))
  have hcolon := skipSpace_cons (c := ch ':') (by decide) (s ++ ch ',' :: (ch '"' :: u' ++ ch '}' :: t))
  have hcomma := skipSpace_cons (c := ch ',') (by decide) (ch '"' :: u' ++ ch '}' :: t)
  have hquote := skipSpace_cons (c := ch '"') (by decide) (u' ++ ch '}' :: t)
  have hne : ch ',' ≠ ch '}' := by decide
  simp only [Spelling.quoted, List.cons_append, List.append_assoc, List.nil_append] at hk hcolon hcomma h hrest ⊢
  simp [scanPairs, hk, hcolon, hs.skip, h, hcomma, hne, hquote, hrest, bind, Except.bind]

theorem renderItemsBy_begins (hS : S.Legible P Q) (hne : items ≠ [])
    (hv : ∀ v ∈ items, v.Read P Q) (hs : S.renderItemsBy items = some s) : Begins s := by
  match items, hne with
  | [v], _ => exact renderBy_begins hS (hv v List.mem_cons_self) hs
  | v :: w :: items, _ =>
    simp only [Spelling.renderItemsBy, bind, Option.bind_eq_some_iff, pure, Option.some.injEq] at hs
    obtain ⟨head, hhead, rest, -, rfl⟩ := hs
    obtain ⟨c, u, rfl, hc, hne⟩ := renderBy_begins hS (hv v List.mem_cons_self) hhead
    exact ⟨c, u ++ ch ',' :: rest, rfl, hc, hne⟩

variable {entries : List (Text × Value F.Val)}

theorem renderEntriesBy_begins (hne : entries ≠ [])
    (hs : S.renderEntriesBy entries = some s) : ∃ u, s = ch '"' :: u := by
  match entries, hne with
  | [(k, v)], _ =>
    simp only [Spelling.renderEntriesBy, Option.map_eq_some_iff] at hs
    obtain ⟨t, -, rfl⟩ := hs
    exact ⟨_, rfl⟩
  | (k, v) :: e :: entries, _ =>
    simp only [Spelling.renderEntriesBy, bind, Option.bind_eq_some_iff, pure, Option.some.injEq] at hs
    obtain ⟨head, -, rest, -, rfl⟩ := hs
    exact ⟨_, rfl⟩

mutual

/-- The text of a value is scanned to the value, when the hook builds objects from pairs with distinct keys. -/
theorem scanOnce_renderBy (hS : S.Legible P Q)
    (hhook : ∀ pairs, (pairs.map Prod.fst).Nodup → hook pairs = .ok (.dict pairs)) :
    (v : Value F.Val) → v.Read P Q → ∀ {s : Text}, S.renderBy v = some s → ∀ {t : Text}, Ends t → ∀ {n : Nat},
      2 * s.length + 1 ≤ n → scanOnce F hook n (s ++ t) = .ok (v, t)
  | v, hv, s, hs, t, ht, 0, hn => absurd hn (by omega)
  | .none, _, s, hs, t, ht, n + 1, hn => by
    cases hs
    rfl
  | .bool b, _, s, hs, t, ht, n + 1, hn => by
    cases hs
    cases b <;> rfl
  | .int i, _, s, hs, t, ht, n + 1, hn => by
    obtain ⟨m, hm, rfl, hfloat, hlen, hval⟩ := intText_number hs
    exact scanOnce_number hm (by simp [numberValue, hfloat, hlen, hval]) ht n
  | .float x, .float hx, s, hs, t, ht, n + 1, hn => hS.float x hx s hs hook t ht n
  | .str u, .str hu, s, hs, t, ht, n + 1, hn => by
    cases hs
    exact scanOnce_quoted hS hu t n
  | .list [], _, s, hs, t, ht, n + 1, hn => by
    cases hs
    rfl
  | .list (v :: items), .list hv, s, hs, t, ht, n + 1, hn => by
    simp only [Spelling.renderBy, Option.map_eq_some_iff] at hs
    obtain ⟨u, hu, rfl⟩ := hs
    simp only [List.cons_append, List.length_cons, List.length_append, List.append_assoc, List.nil_append,
      List.length_nil] at hn ⊢
    exact scanOnce_list (renderItemsBy_begins hS (List.cons_ne_nil v items) hv hu)
      (scanItems_renderBy hS hhook (v :: items) hv (List.cons_ne_nil v items) hu t (by omega))
  | .dict [], _, s, hs, t, ht, n + 1, hn => by
    cases hs
    have hnil : hook [] = .ok (.dict []) := hhook [] List.nodup_nil
    show scanOnce F hook (n + 1) (ch '{' :: ch '}' :: t) = _
    have h₁ : ch '{' ≠ ch '"' := by decide
    have hskip := skipSpace_cons (c := ch '}') (by decide) t
    simp [scanOnce, h₁, hskip, hnil, bind, Except.bind]
  | .dict (e :: entries), .dict hkeys hstr hv, s, hs, t, ht, n + 1, hn => by
    simp only [Spelling.renderBy, Option.map_eq_some_iff] at hs
    obtain ⟨u, hu, rfl⟩ := hs
    obtain ⟨u', rfl⟩ := renderEntriesBy_begins (List.cons_ne_nil e entries) hu
    simp only [List.cons_append, List.length_cons, List.length_append, List.append_assoc, List.nil_append,
      List.length_nil] at hn ⊢
    exact scanOnce_dict (hhook _ hkeys)
      (scanPairs_renderBy hS hhook (e :: entries) hstr hv (List.cons_ne_nil e entries) hu t
        (by simp only [List.length_cons]; omega))

theorem scanItems_renderBy (hS : S.Legible P Q)
    (hhook : ∀ pairs, (pairs.map Prod.fst).Nodup → hook pairs = .ok (.dict pairs)) :
    (items : List (Value F.Val)) → (∀ v ∈ items, v.Read P Q) → items ≠ [] → ∀ {s : Text},
      S.renderItemsBy items = some s → ∀ (t : Text) {n : Nat}, 2 * s.length + 2 ≤ n →
      scanItems F hook n (s ++ ch ']' :: t) = .ok (items, t)
  | [], _, hne, s, hs, t, n, hn => absurd rfl hne
  | v :: items, hv, _, s, hs, t, 0, hn => absurd hn (by omega)
  | [v], hv, _, s, hs, t, n + 1, hn =>
    scanItems_last (scanOnce_renderBy hS hhook v (hv v List.mem_cons_self) hs (Ends.bracket t) (by omega))
  | v :: w :: items, hv, _, s, hs, t, n + 1, hn => by
    have hrest := fun x hx => hv x (List.mem_cons_of_mem v hx)
    simp only [Spelling.renderItemsBy, bind, Option.bind_eq_some_iff, pure, Option.some.injEq] at hs
    obtain ⟨head, hhead, rest, htail, rfl⟩ := hs
    simp only [List.length_append, List.length_cons, List.append_assoc, List.cons_append] at hn ⊢
    exact scanItems_more (renderItemsBy_begins hS (List.cons_ne_nil w items) hrest htail)
      (scanOnce_renderBy hS hhook v (hv v List.mem_cons_self) hhead (Ends.comma _) (by omega))
      (scanItems_renderBy hS hhook (w :: items) hrest (List.cons_ne_nil w items) htail t (by omega))

theorem scanPairs_renderBy (hS : S.Legible P Q)
    (hhook : ∀ pairs, (pairs.map Prod.fst).Nodup → hook pairs = .ok (.dict pairs)) :
    (entries : List (Text × Value F.Val)) → (∀ e ∈ entries, P e.1) → (∀ e ∈ entries, e.2.Read P Q) → entries ≠ [] →
      ∀ {s : Text}, S.renderEntriesBy entries = some s → ∀ (t : Text) {n : Nat}, 2 * s.length + 2 ≤ n →
      scanPairs F hook n (s ++ ch '}' :: t) = .ok (entries, t)
  | [], _, _, hne, s, hs, t, n, hn => absurd rfl hne
  | (k, v) :: entries, _, hv, _, s, hs, t, 0, hn => absurd hn (by omega)
  | [(k, v)], hstr, hv, _, s, hs, t, n + 1, hn => by
    have hv := hv _ List.mem_cons_self
    simp only [Spelling.renderEntriesBy, Option.map_eq_some_iff] at hs
    obtain ⟨u, hu, rfl⟩ := hs
    simp only [List.length_append, List.length_cons, List.append_assoc, List.cons_append] at hn ⊢
    exact scanPairs_last hS (hstr _ List.mem_cons_self) (renderBy_begins hS hv hu)
      (scanOnce_renderBy hS hhook v hv hu (Ends.brace t) (by omega))
  | (k, v) :: e :: entries, hstr, hv, _, s, hs, t, n + 1, hn => by
    have hhead := hv _ List.mem_cons_self
    simp only [Spelling.renderEntriesBy, bind, Option.bind_eq_some_iff, pure, Option.some.injEq] at hs
    obtain ⟨head, hs, rest, hrest, rfl⟩ := hs
    simp only [List.length_append, List.length_cons, List.append_assoc, List.cons_append] at hn ⊢
    exact scanPairs_more hS (hstr _ List.mem_cons_self) (renderBy_begins hS hhead hs)
      (renderEntriesBy_begins (List.cons_ne_nil e entries) hrest)
      (scanOnce_renderBy hS hhook v hhead hs (Ends.comma _) (by omega))
      (scanPairs_renderBy hS hhook (e :: entries) (fun d hd => hstr d (List.mem_cons_of_mem _ hd))
        (fun d hd => hv d (List.mem_cons_of_mem _ hd)) (List.cons_ne_nil e entries) hrest t (by omega))

end

/-- **The text of a value is read as the value**, its entries in order, whatever the spelling. -/
theorem loadsText_renderBy (hS : S.Legible P Q)
    (hhook : ∀ pairs, (pairs.map Prod.fst).Nodup → hook pairs = .ok (.dict pairs))
    (hv : v.Read P Q) (hs : S.renderBy v = some s) : loadsText F hook s = .ok v := by
  have hskip := (renderBy_begins hS hv hs).skip []
  have hends : Ends [] := fun c hc => by cases hc
  have hscan := scanOnce_renderBy hS hhook v hv hs hends (n := 2 * s.length + 2) (by omega)
  rw [List.append_nil] at hskip hscan
  simp [loadsText, hskip, hscan, skipSpace, bind, Except.bind]

theorem plain_legible (F : FloatFormat) : (plain F).Legible (fun _ => True) fun _ => True where
  string s _ t := scanString_text s t
  begins x _ s hs := by
    simp only [plain, Option.ite_none_right_eq_some] at hs
    obtain ⟨hx, hs⟩ := hs
    cases hs
    obtain ⟨m, hm, -, hrepr⟩ := F.repr_literal x hx
    exact hrepr ▸ hm.begins
  float x _ s hs ε hook t ht n := by
    simp only [plain, Option.ite_none_right_eq_some] at hs
    obtain ⟨hx, hs⟩ := hs
    cases hs
    obtain ⟨m, hm, hfloat, hrepr⟩ := F.repr_literal x hx
    rw [← hrepr]
    exact scanOnce_number hm (by simp [numberValue, hfloat, hrepr, F.parse_repr x hx]) ht n

theorem loadsText_dumps (hhook : ∀ pairs, (pairs.map Prod.fst).Nodup → hook pairs = .ok (.dict pairs))
    (hv : v.Tree) (hs : dumps F v = some s) : loadsText F hook s = .ok v.sorted := by
  have hread : v.sorted.Read (fun _ => True) fun _ => True :=
    Value.Tree.read (Value.formed_sorted hv)
  rw [dumps, render_plain] at hs
  exact loadsText_renderBy (plain_legible F) hhook hread hs

/-- **The canonical text determines the value.** Two values of JSON with the same text differ in the order of entries at
most. -/
theorem dumps_injective {v w : Value F.Val} (hv : v.Tree) (hw : w.Tree) (hs : dumps F v = some s)
    (hs' : dumps F w = some s) : v.Same w := by
  have hhook : ∀ pairs : List (Text × Value F.Val), (pairs.map Prod.fst).Nodup →
      (Except.ok (.dict pairs) : Except Empty (Value F.Val)) = .ok (.dict pairs) := fun _ _ => rfl
  have h := loadsText_dumps hhook hv hs
  have h' := loadsText_dumps hhook hw hs'
  exact Except.ok.inj (h.symm.trans h')

theorem utf8Char_ascii (h : c.val < 0x80) : utf8Char c = some [byte c.val] := by
  simp [utf8Char, h]

/-- A message whose text begins with two ASCII characters is taken for UTF-8. -/
theorem decodeBytes_encode {a c : CodePoint} {b : List Byte} (h : utf8Encode (a :: c :: t) = some b)
    (ha : 0 < a.val ∧ a.val < 0x80) (hc : 0 < c.val ∧ c.val < 0x80) : decodeBytes b = some (a :: c :: t) := by
  have hdecode := utf8Decode_encode h
  simp only [utf8Encode, utf8Char_ascii ha.2, utf8Char_ascii hc.2, bind, Option.bind_some, pure,
    Option.bind_eq_some_iff, Option.some.injEq] at h
  obtain ⟨_, ⟨rest, -, rfl⟩, rfl⟩ := h
  have hne : ∀ n, n = 0 ∨ 0x80 ≤ n → n < 256 → byte n ≠ byte a.val := by
    intro n hn hlt heq
    have hval := congrArg Fin.val heq
    rw [byte_val hlt, byte_val (by omega)] at hval
    omega
  have hzero : ∀ c : CodePoint, 0 < c.val ∧ c.val < 0x80 → byte c.val ≠ byte 0 := by
    intro c hc heq
    have hval := congrArg Fin.val heq
    rw [byte_val (by omega), byte_val (by omega)] at hval
    omega
  simp [decodeBytes, List.isPrefixOf, hne 0 (by omega) (by omega), hne 0xFE (by omega) (by omega),
    hne 0xFF (by omega) (by omega), hne 0xEF (by omega) (by omega), hzero a ha, hzero c hc]
  simpa using hdecode

theorem renderEntries_text (hs : renderEntries F entries = some s) :
    ∃ c t, s ++ [ch '}'] = c :: t ∧ 0 < c.val ∧ c.val < 0x80 := by
  rw [renderEntries_plain] at hs
  cases entries with
  | nil =>
    cases hs
    exact ⟨ch '}', [], rfl, by decide, by decide⟩
  | cons e entries =>
    obtain ⟨u, rfl⟩ := renderEntriesBy_begins (List.cons_ne_nil e entries) hs
    exact ⟨ch '"', u ++ [ch '}'], rfl, by decide, by decide⟩

/-- **Round trip.** The message of an object, read again, gives the object with its entries in order. -/
theorem loads_dumps (hhook : ∀ pairs, (pairs.map Prod.fst).Nodup → hook pairs = .ok (.dict pairs))
    (hv : (Value.dict entries).Tree)
    (hs : dumps F (.dict entries) = some s) {b : List Byte} (hb : utf8Encode s = some b) :
    loads F hook b = .ok (Value.dict entries).sorted := by
  have hrender := hs
  simp only [dumps, Value.sorted, render, Option.map_eq_some_iff] at hrender
  obtain ⟨u, hu, rfl⟩ := hrender
  obtain ⟨c, t, heq, hc⟩ := renderEntries_text hu
  have hdecode : decodeBytes b = some (ch '{' :: u ++ [ch '}']) := by
    rw [List.cons_append, heq] at hb ⊢
    exact decodeBytes_encode hb (by decide) hc
  simp only [loads, hdecode]
  exact loadsText_dumps hhook hv hs

end Values

end AgentFabric.Lib
