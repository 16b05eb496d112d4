import AgentFabric.Lib.JsonLiterals

/-!
# Two readers of JSON side by side

Two texts that are the same but for what stands in their literals are read alike, whatever the hooks make of objects.
-/

namespace AgentFabric.Lib

variable {s t u : Text} {c : CodePoint}

/-! ## Two scans side by side -/

section Parallel

variable {F : FloatFormat} {ε ε' : Type} {hook : List (Text × Value F.Val) → Except ε (Value F.Val)}
  {hook' : List (Text × Value F.Val) → Except ε' (Value F.Val)} {T K : Text → Text → Prop}
  {V : Value F.Val → Value F.Val → Prop} {o : Text}

/-- Two texts that are the same letter by letter up to their next literals. -/
structure Tracks (T : Text → Text → Prop) : Prop where
  nil : ∀ o, T [] o → o = []
  head : ∀ c t o, T (c :: t) o → ∃ o', o = c :: o' ∧ (c ≠ ch '"' → T t o')

/-- Two readers that make of such texts values of one kind. -/
structure Parallel (hook : List (Text × Value F.Val) → Except ε (Value F.Val))
    (hook' : List (Text × Value F.Val) → Except ε' (Value F.Val)) (T K : Text → Text → Prop)
    (V : Value F.Val → Value F.Val → Prop) : Prop extends Tracks T where
  string : ∀ t o s rest, T (ch '"' :: t) (ch '"' :: o) → scanString t = some (s, rest) →
    ∃ s' rest', scanString o = some (s', rest') ∧ K s s' ∧ T rest rest'
  none : V .none .none
  bool : ∀ b, V (.bool b) (.bool b)
  int : ∀ n, V (.int n) (.int n)
  float : ∀ x, V (.float x) (.float x)
  str : ∀ s s', K s s' → V (.str s) (.str s')
  list : ∀ items items', List.Forall₂ V items items' → V (.list items) (.list items')
  hook : ∀ pairs pairs' v, List.Forall₂ (fun e e' => K e.1 e'.1 ∧ V e.2 e'.2) pairs pairs' → hook pairs = .ok v →
    ∃ v', hook' pairs' = .ok v' ∧ V v v'

theorem Tracks.skipSpace (h : Tracks T) (ht : T t o) : T (skipSpace t) (Lib.skipSpace o) := by
  induction t generalizing o with
  | nil =>
    obtain rfl := h.nil o ht
    exact ht
  | cons c t ih =>
    obtain ⟨o, rfl, htail⟩ := h.head c t o ht
    by_cases hc : c ∈ lit " \t\n\r"
    · rw [Lib.skipSpace, Lib.skipSpace, if_pos hc, if_pos hc]
      exact ih (htail (outside_bare (space_outside hc).1).1)
    · rw [Lib.skipSpace, Lib.skipSpace, if_neg hc, if_neg hc]
      exact ht

theorem isDigit_not_quote (hc : isDigit c = true) : c ≠ ch '"' := (outside_bare (digit_outside hc).1).1

theorem Tracks.spanDigits (h : Tracks T) (ht : T t o) :
    (Lib.spanDigits o).1 = (Lib.spanDigits t).1 ∧ T (Lib.spanDigits t).2 (Lib.spanDigits o).2 := by
  induction t generalizing o with
  | nil =>
    obtain rfl := h.nil o ht
    exact ⟨rfl, ht⟩
  | cons c t ih =>
    obtain ⟨o, rfl, htail⟩ := h.head c t o ht
    by_cases hc : isDigit c = true
    · obtain ⟨hds, hrest⟩ := ih (htail (isDigit_not_quote hc))
      rw [Lib.spanDigits, Lib.spanDigits, if_pos hc, if_pos hc]
      exact ⟨congrArg (c :: ·) hds, hrest⟩
    · rw [Lib.spanDigits, Lib.spanDigits, if_neg hc, if_neg hc]
      exact ⟨rfl, ht⟩

theorem Tracks.scanInt (h : Tracks T) (ht : T t o) {ds : Text} (hint : Lib.scanInt t = some (ds, u)) :
    ∃ u', Lib.scanInt o = some (ds, u') ∧ T u u' := by
  cases t with
  | nil => cases hint
  | cons c t =>
    obtain ⟨o, rfl, htail⟩ := h.head c t o ht
    simp only [Lib.scanInt] at hint ⊢
    by_cases hzero : c = ch '0'
    · rw [if_pos hzero] at hint ⊢
      obtain ⟨rfl, rfl⟩ := Prod.mk.inj (Option.some.inj hint)
      exact ⟨o, rfl, htail (isDigit_not_quote (by rw [hzero]; rfl))⟩
    · rw [if_neg hzero] at hint ⊢
      by_cases hc : isDigit c = true
      · rw [if_pos hc] at hint ⊢
        obtain ⟨rfl, rfl⟩ := Prod.mk.inj (Option.some.inj hint)
        obtain ⟨hds, hrest⟩ := h.spanDigits (htail (isDigit_not_quote hc))
        exact ⟨_, by rw [hds], hrest⟩
      · rw [if_neg hc] at hint
        cases hint

/-- A part of a number that may be missing. -/
def SameStep (T : Text → Text → Prop) (step : Text → Text × Text) : Prop :=
  ∀ t o, T t o → (step o).1 = (step t).1 ∧ T (step t).2 (step o).2

theorem Tracks.sameStep (h : Tracks T) {step : Text → Text × Text} (hnil : step [] = ([], []))
    (hcons : ∀ c t o, T (c :: t) (c :: o) → (c ≠ ch '"' → T t o) →
      (step (c :: o)).1 = (step (c :: t)).1 ∧ T (step (c :: t)).2 (step (c :: o)).2) : SameStep T step := by
  intro t o ht
  cases t with
  | nil =>
    obtain rfl := h.nil o ht
    rw [hnil]
    exact ⟨rfl, ht⟩
  | cons c t =>
    obtain ⟨o, rfl, htail⟩ := h.head c t o ht
    exact hcons c t o ht htail

theorem Tracks.scanSign (h : Tracks T) : SameStep T Lib.scanSign := by
  refine h.sameStep rfl fun c t o ht htail => ?_
  simp only [Lib.scanSign]
  split
  · next hc => exact ⟨rfl, htail (by rw [hc]; decide)⟩
  · exact ⟨rfl, ht⟩

theorem Tracks.scanFrac (h : Tracks T) : SameStep T Lib.scanFrac := by
  refine h.sameStep rfl fun c t o ht htail => ?_
  simp only [Lib.scanFrac]
  by_cases hc : c = ch '.'
  · obtain ⟨hds, hrest⟩ := h.spanDigits (htail (by rw [hc]; decide))
    rw [hds]
    split
    · exact ⟨rfl, hrest⟩
    · exact ⟨rfl, ht⟩
  · rw [if_neg fun hp => hc hp.1, if_neg fun hp => hc hp.1]
    exact ⟨rfl, ht⟩

theorem Tracks.scanExpSign (h : Tracks T) : SameStep T Lib.scanExpSign := by
  refine h.sameStep rfl fun c t o ht htail => ?_
  simp only [Lib.scanExpSign]
  split
  · next hc => exact ⟨rfl, htail (by rcases hc with rfl | rfl <;> decide)⟩
  · exact ⟨rfl, ht⟩

theorem Tracks.scanExp (h : Tracks T) : SameStep T Lib.scanExp := by
  refine h.sameStep rfl fun c t o ht htail => ?_
  simp only [Lib.scanExp]
  by_cases hc : c = ch 'e' ∨ c = ch 'E'
  · obtain ⟨hsign, hu⟩ := h.scanExpSign t o (htail (by rcases hc with rfl | rfl <;> decide))
    obtain ⟨hds, hrest⟩ := h.spanDigits hu
    rw [hds, hsign]
    split
    · exact ⟨rfl, hrest⟩
    · exact ⟨rfl, ht⟩
  · rw [if_neg fun hp => hc hp.1, if_neg fun hp => hc hp.1]
    exact ⟨rfl, ht⟩

theorem Tracks.scanNumber (h : Tracks T) (ht : T t o) {rest : Text} {m : NumberText}
    (hm : Lib.scanNumber t = some (m, rest)) : ∃ rest', Lib.scanNumber o = some (m, rest') ∧ T rest rest' := by
  obtain ⟨hsign, h₁⟩ := h.scanSign t o ht
  simp only [Lib.scanNumber, bind, Option.bind_eq_some_iff, pure, Option.some.injEq, Prod.mk.injEq] at hm
  obtain ⟨⟨ds, u⟩, hu, rfl, rfl⟩ := hm
  obtain ⟨u', hu', h₂⟩ := h.scanInt h₁ hu
  obtain ⟨hfrac, h₃⟩ := h.scanFrac u u' h₂
  obtain ⟨hexp, h₄⟩ := h.scanExp _ _ h₃
  refine ⟨_, ?_, h₄⟩
  simp [Lib.scanNumber, hu', hsign, hfrac, hexp]

theorem Tracks.scanWord (h : Tracks T) {word : Text} (hword : ch '"' ∉ word) (ht : T t o) :
    Option.Rel T (Lib.scanWord word t) (Lib.scanWord word o) := by
  have hall : word.isPrefixOf o = word.isPrefixOf t ∧
      (word.isPrefixOf t = true → T (t.drop word.length) (o.drop word.length)) := by
    induction word generalizing t o with
    | nil => exact ⟨rfl, fun _ => ht⟩
    | cons w word ih =>
      cases t with
      | nil =>
        obtain rfl := h.nil o ht
        exact ⟨rfl, fun hp => (by cases hp)⟩
      | cons c t =>
        obtain ⟨o, rfl, htail⟩ := h.head c t o ht
        by_cases hc : w = c
        · subst hc
          have hquote : w ≠ ch '"' := fun heq => hword (heq ▸ List.mem_cons_self)
          obtain ⟨hsame, hdrop⟩ := ih (fun hm => hword (List.mem_cons_of_mem w hm)) (htail hquote)
          simp only [List.isPrefixOf_cons_cons, beq_self_eq_true, Bool.true_and, List.length_cons, List.drop_succ_cons]
          exact ⟨hsame, hdrop⟩
        · simp [List.isPrefixOf_cons_cons, beq_false_of_ne hc]
  unfold Lib.scanWord
  rw [hall.1]
  split
  · next hp => exact .some (hall.2 hp)
  · exact .none

theorem Tracks.scanConstant (h : Tracks T) (ht : T t o) :
    Option.Rel (fun p q => p.1 = q.1 ∧ T p.2 q.2) (Lib.scanConstant F t) (Lib.scanConstant F o) := by
  have hmap : ∀ {word : Text} (v : Value F.Val), ch '"' ∉ word →
      Option.Rel (fun p q => p.1 = q.1 ∧ T p.2 q.2) ((Lib.scanWord word t).map (v, ·))
        ((Lib.scanWord word o).map (v, ·)) := by
    intro word v hword
    have hrel := h.scanWord hword ht
    generalize Lib.scanWord word t = a at hrel ⊢
    generalize Lib.scanWord word o = b at hrel ⊢
    cases hrel with
    | some hab => exact .some ⟨rfl, hab⟩
    | none => exact .none
  have hor : ∀ {a b a' b' : Option (Value F.Val × Text)}, Option.Rel (fun p q => p.1 = q.1 ∧ T p.2 q.2) a a' →
      Option.Rel (fun p q => p.1 = q.1 ∧ T p.2 q.2) b b' →
      Option.Rel (fun p q => p.1 = q.1 ∧ T p.2 q.2) (a <|> b) (a' <|> b') := by
    intro a b a' b' ha hb
    cases ha with
    | some hab => exact .some hab
    | none => exact hb
  unfold Lib.scanConstant
  refine hor ?_ (hor ?_ (hor ?_ (hor ?_ (hor ?_ ?_))))
  all_goals exact hmap _ (by decide +kernel)

/-- Where the first scan gives something, so does the second one, of the same kind. -/
def Follows {α α' : Type} (P : α → α' → Prop) (T : Text → Text → Prop) (r : Except (LoadError ε) (α × Text))
    (r' : Except (LoadError ε') (α' × Text)) : Prop :=
  ∀ a rest, r = .ok (a, rest) → ∃ a' rest', r' = .ok (a', rest') ∧ P a a' ∧ T rest rest'

section Follows

variable {α α' β β' : Type} {P : α → α' → Prop} {Q : β → β' → Prop}

theorem Follows.ok {a : α} {a' : α'} {rest rest' : Text} (h : P a a') (ht : T rest rest') :
    Follows P T (.ok (a, rest) : Except (LoadError ε) (α × Text))
      (.ok (a', rest') : Except (LoadError ε') (α' × Text)) := by
  intro b rest hb
  obtain ⟨rfl, rfl⟩ := Prod.mk.inj (Except.ok.inj hb)
  exact ⟨a', rest', rfl, h, ht⟩

theorem Follows.error (e : LoadError ε) (r' : Except (LoadError ε') (α' × Text)) :
    Follows P T (.error e : Except (LoadError ε) (α × Text)) r' := (by rintro _ _ ⟨⟩)

theorem Follows.bind {r : Except (LoadError ε) (α × Text)} {r' : Except (LoadError ε') (α' × Text)}
    {f : α × Text → Except (LoadError ε) (β × Text)} {f' : α' × Text → Except (LoadError ε') (β' × Text)}
    (hr : Follows P T r r')
    (hf : ∀ a a' rest rest', P a a' → T rest rest' → Follows Q T (f (a, rest)) (f' (a', rest'))) :
    Follows Q T (r.bind f) (r'.bind f') := by
  cases r with
  | error e => exact .error e _
  | ok p =>
    obtain ⟨a', rest', rfl, hP, hT⟩ := hr p.1 p.2 rfl
    exact hf p.1 a' p.2 rest' hP hT

end Follows

theorem Parallel.built (h : Parallel hook hook' T K V) {pairs pairs' : List (Text × Value F.Val)} {rest rest' : Text}
    (hpairs : List.Forall₂ (fun e e' => K e.1 e'.1 ∧ V e.2 e'.2) pairs pairs') (ht : T rest rest') :
    Follows V T (match hook pairs with
      | .ok v => .ok (v, rest)
      | .error e => .error (.hook e) : Except (LoadError ε) (Value F.Val × Text))
      (match hook' pairs' with
      | .ok v => .ok (v, rest')
      | .error e => .error (.hook e) : Except (LoadError ε') (Value F.Val × Text)) := by
  cases hv : hook pairs with
  | error => exact .error _ _
  | ok v =>
    obtain ⟨v', hv', hV⟩ := h.hook pairs pairs' v hpairs hv
    rw [hv']
    exact .ok hV ht

/-! ### One step -/

section Step

variable {n : Nat} {c : CodePoint}

theorem Parallel.scanQuoted (h : Parallel hook hook' T K V) (ht : T (ch '"' :: t) (ch '"' :: o)) :
    Follows V T (scanOnce F hook (n + 1) (ch '"' :: t)) (scanOnce F hook' (n + 1) (ch '"' :: o)) := by
  simp only [scanOnce, if_true]
  cases hs : scanString t with
  | none => exact .error _ _
  | some p =>
    obtain ⟨s', rest', ho, hK, hrest⟩ := h.string t o p.1 p.2 ht hs
    rw [ho]
    exact .ok (h.str p.1 s' hK) hrest

theorem Parallel.scanObject (h : Parallel hook hook' T K V)
    (hpairs : ∀ t o, T t o → Follows (List.Forall₂ fun e e' => K e.1 e'.1 ∧ V e.2 e'.2) T (scanPairs F hook n t)
      (scanPairs F hook' n o)) (ht : T (ch '\x7b' :: t) (ch '\x7b' :: o)) :
    Follows V T (scanOnce F hook (n + 1) (ch '\x7b' :: t)) (scanOnce F hook' (n + 1) (ch '\x7b' :: o)) := by
  obtain ⟨o', ho, htail⟩ := h.head _ t _ ht
  obtain rfl := (List.cons.inj ho).2
  have hquote : ch '\x7b' ≠ ch '"' := by decide
  have hskip := h.skipSpace (htail hquote)
  simp only [scanOnce, if_neg hquote, if_true]
  cases hs : skipSpace t with
  | nil => exact .error _ _
  | cons d u =>
    rw [hs] at hskip
    obtain ⟨u', hu', hnext⟩ := h.head d u _ hskip
    rw [hu'] at hskip ⊢
    simp only
    split
    · next hd => exact h.built .nil (hnext (by rw [hd]; decide))
    · exact (hpairs _ _ hskip).bind fun pairs pairs' rest rest' hp hrest => h.built hp hrest

theorem Parallel.scanArray (h : Parallel hook hook' T K V)
    (hitems : ∀ t o, T t o → Follows (List.Forall₂ V) T (scanItems F hook n t) (scanItems F hook' n o))
    (ht : T (ch '[' :: t) (ch '[' :: o)) :
    Follows V T (scanOnce F hook (n + 1) (ch '[' :: t)) (scanOnce F hook' (n + 1) (ch '[' :: o)) := by
  obtain ⟨o', ho, htail⟩ := h.head _ t _ ht
  obtain rfl := (List.cons.inj ho).2
  have hquote : ch '[' ≠ ch '"' := by decide
  have hbrace : ch '[' ≠ ch '\x7b' := by decide
  have hskip := h.skipSpace (htail hquote)
  simp only [scanOnce, if_neg hquote, if_neg hbrace, if_true]
  cases hs : skipSpace t with
  | nil => exact .error _ _
  | cons d u =>
    rw [hs] at hskip
    obtain ⟨u', hu', hnext⟩ := h.head d u _ hskip
    rw [hu'] at hskip ⊢
    simp only
    split
    · next hd => exact .ok (h.list [] [] .nil) (hnext (by rw [hd]; decide))
    · exact (hitems _ _ hskip).bind fun items items' rest rest' hp hrest => .ok (h.list _ _ hp) hrest

/-- A word or a number. -/
theorem Parallel.scanAtom (h : Parallel hook hook' T K V) (hquote : c ≠ ch '"') (hbrace : c ≠ ch '\x7b')
    (hbracket : c ≠ ch '[') (ht : T (c :: t) (c :: o)) :
    Follows V T (scanOnce F hook (n + 1) (c :: t)) (scanOnce F hook' (n + 1) (c :: o)) := by
  have hconstant := h.scanConstant (F := F) ht
  simp only [scanOnce, if_neg hquote, if_neg hbrace, if_neg hbracket]
  cases hv : scanConstant F (c :: t) with
  | some p =>
    rw [hv] at hconstant
    generalize ho : scanConstant F (c :: o) = q at hconstant
    cases hconstant with
    | @some _ q hpq =>
      obtain ⟨v, rest⟩ := p
      obtain ⟨v', rest'⟩ := q
      obtain ⟨rfl, hrest⟩ : v = v' ∧ T rest rest' := hpq
      refine .ok ?_ hrest
      obtain ⟨-, rfl | ⟨b, rfl⟩ | ⟨x, rfl⟩⟩ := scanConstant_cases hv
      · exact h.none
      · exact h.bool b
      · exact h.float x
  | none =>
    rw [hv] at hconstant
    generalize ho : scanConstant F (c :: o) = q at hconstant
    cases hconstant
    cases hm : scanNumber (c :: t) with
    | none => exact .error _ _
    | some =>
      obtain ⟨rest', ho', hrest⟩ := h.scanNumber ht hm
      rw [ho']
      unfold numberValue
      simp only
      split
      · exact .ok (h.float _) hrest
      split
      · exact .ok (h.int _) hrest
      · exact .error _ _

theorem Parallel.scanNext (h : Parallel hook hook' T K V)
    (hitems : ∀ t o, T t o → Follows (List.Forall₂ V) T (scanItems F hook n t) (scanItems F hook' n o))
    (hpairs : ∀ t o, T t o → Follows (List.Forall₂ fun e e' => K e.1 e'.1 ∧ V e.2 e'.2) T (scanPairs F hook n t)
      (scanPairs F hook' n o)) (ht : T t o) : Follows V T (scanOnce F hook (n + 1) t) (scanOnce F hook' (n + 1) o) := by
  cases t with
  | nil => exact .error _ _
  | cons c t =>
    obtain ⟨o, rfl, -⟩ := h.head c t o ht
    by_cases hquote : c = ch '"'
    · subst hquote
      exact h.scanQuoted ht
    by_cases hbrace : c = ch '\x7b'
    · subst hbrace
      exact h.scanObject hpairs ht
    by_cases hbracket : c = ch '['
    · subst hbracket
      exact h.scanArray hitems ht
    exact h.scanAtom hquote hbrace hbracket ht

theorem Parallel.scanItem (h : Parallel hook hook' T K V)
    (hvalue : ∀ t o, T t o → Follows V T (scanOnce F hook n t) (scanOnce F hook' n o))
    (hitems : ∀ t o, T t o → Follows (List.Forall₂ V) T (scanItems F hook n t) (scanItems F hook' n o)) (ht : T t o) :
    Follows (List.Forall₂ V) T (scanItems F hook (n + 1) t) (scanItems F hook' (n + 1) o) := by
  simp only [scanItems, bind]
  refine (hvalue t o ht).bind fun v v' rest rest' hv hrest => ?_
  have hskip := h.skipSpace hrest
  simp only
  cases hs : skipSpace rest with
  | nil => exact .error _ _
  | cons c u =>
    rw [hs] at hskip
    obtain ⟨u', hu', hnext⟩ := h.head c u _ hskip
    rw [hu']
    simp only
    split
    · next hc => exact .ok (.cons hv .nil) (hnext (by rw [hc]; decide))
    split
    · next hc =>
      refine (hitems _ _ (h.skipSpace (hnext (by rw [hc]; decide)))).bind fun items items' rest rest' hp hrest => ?_
      exact .ok (.cons hv hp) hrest
    · exact .error _ _

theorem Parallel.scanPair (h : Parallel hook hook' T K V)
    (hvalue : ∀ t o, T t o → Follows V T (scanOnce F hook n t) (scanOnce F hook' n o))
    (hpairs : ∀ t o, T t o → Follows (List.Forall₂ fun e e' => K e.1 e'.1 ∧ V e.2 e'.2) T (scanPairs F hook n t)
      (scanPairs F hook' n o)) (ht : T t o) : Follows (List.Forall₂ fun e e' => K e.1 e'.1 ∧ V e.2 e'.2) T
      (scanPairs F hook (n + 1) t) (scanPairs F hook' (n + 1) o) := by
  cases t with
  | nil => exact .error _ _
  | cons q t =>
    obtain ⟨o, rfl, -⟩ := h.head q t o ht
    simp only [scanPairs]
    split
    swap
    · exact .error _ _
    next hq =>
    subst hq
    cases hs : scanString t with
    | none => exact .error _ _
    | some p =>
      obtain ⟨key', rest', ho, hK, hrest⟩ := h.string t o p.1 p.2 ht hs
      rw [ho]
      have hskip := h.skipSpace hrest
      simp only
      cases hs : skipSpace p.2 with
      | nil => exact .error _ _
      | cons d u =>
        rw [hs] at hskip
        obtain ⟨u', hu', hnext⟩ := h.head d u _ hskip
        rw [hu']
        simp only
        split
        swap
        · exact .error _ _
        next hd =>
        refine (hvalue _ _ (h.skipSpace (hnext (by rw [hd]; decide)))).bind fun v v' rest rest' hv hrest => ?_
        have hskip := h.skipSpace hrest
        simp only
        cases hs : skipSpace rest with
        | nil => exact .error _ _
        | cons c x =>
          rw [hs] at hskip
          obtain ⟨x', hx', hnext⟩ := h.head c x _ hskip
          rw [hx']
          simp only
          split
          · next hc => exact .ok (.cons ⟨hK, hv⟩ .nil) (hnext (by rw [hc]; decide))
          split
          · next hc =>
            refine (hpairs _ _ (h.skipSpace (hnext (by rw [hc]; decide)))).bind
              fun pairs pairs' rest rest' hp hrest => ?_
            exact .ok (.cons ⟨hK, hv⟩ hp) hrest
          · exact .error _ _

end Step

/-- Step for step the second reader follows the first one. -/
theorem Parallel.scan (h : Parallel hook hook' T K V) (n : Nat) :
    (∀ t o, T t o → Follows V T (scanOnce F hook n t) (scanOnce F hook' n o)) ∧
    (∀ t o, T t o → Follows (List.Forall₂ V) T (scanItems F hook n t) (scanItems F hook' n o)) ∧
    (∀ t o, T t o → Follows (List.Forall₂ fun e e' => K e.1 e'.1 ∧ V e.2 e'.2) T (scanPairs F hook n t)
      (scanPairs F hook' n o)) := by
  induction n with
  | zero => exact ⟨fun t o _ => .error _ _, fun t o _ => .error _ _, fun t o _ => .error _ _⟩
  | succ n ih =>
    obtain ⟨hvalue, hitems, hpairs⟩ := ih
    exact ⟨fun _ _ => h.scanNext hitems hpairs, fun _ _ => h.scanItem hvalue hitems,
      fun _ _ => h.scanPair hvalue hpairs⟩

end Parallel

/-! ## The bound of a scan -/

section Bound

variable {F : FloatFormat} {ε : Type} {hook : List (Text × Value F.Val) → Except ε (Value F.Val)}

theorem bind_stable {α β : Type} {r r' : Except (LoadError ε) α} {f f' : α → Except (LoadError ε) β}
    (h : r.bind f ≠ .error .exhausted) (hr : r ≠ .error .exhausted → r' = r)
    (hf : ∀ a, f a ≠ .error .exhausted → f' a = f a) : r'.bind f' = r.bind f := by
  cases r with
  | error =>
    rw [hr fun heq => h (by rw [heq]; rfl)]
    rfl
  | ok a =>
    rw [hr (by rintro ⟨⟩)]
    exact hf a h

/-- A scan that does not meet its bound gives the same with one more to spare. -/
structure Roomy (F : FloatFormat) (hook : List (Text × Value F.Val) → Except ε (Value F.Val)) (n : Nat) : Prop where
  value : ∀ t, scanOnce F hook n t ≠ .error .exhausted → scanOnce F hook (n + 1) t = scanOnce F hook n t
  items : ∀ t, scanItems F hook n t ≠ .error .exhausted → scanItems F hook (n + 1) t = scanItems F hook n t
  pairs : ∀ t, scanPairs F hook n t ≠ .error .exhausted → scanPairs F hook (n + 1) t = scanPairs F hook n t

variable {n : Nat} {t : Text}

theorem Roomy.scanOnce_succ (hn : Roomy F hook n) (h : scanOnce F hook (n + 1) t ≠ .error .exhausted) :
    scanOnce F hook (n + 2) t = scanOnce F hook (n + 1) t := by
  cases t with
  | nil => rfl
  | cons c t =>
    rw [scanOnce] at h
    rw [scanOnce, scanOnce]
    by_cases hquote : c = ch '"'
    · rw [if_pos hquote, if_pos hquote]
    by_cases hbrace : c = ch '{'
    · rw [if_neg hquote, if_pos hbrace] at h ⊢
      rw [if_neg hquote, if_pos hbrace]
      cases hs : skipSpace t with
      | nil => rfl
      | cons d =>
        simp only [hs] at h ⊢
        by_cases hd : d = ch '}'
        · rw [if_pos hd, if_pos hd]
        · rw [if_neg hd] at h ⊢
          rw [if_neg hd]
          exact bind_stable h (hn.pairs _) fun _ _ => rfl
    by_cases hbracket : c = ch '['
    · rw [if_neg hquote, if_neg hbrace, if_pos hbracket] at h ⊢
      rw [if_neg hquote, if_neg hbrace, if_pos hbracket]
      cases hs : skipSpace t with
      | nil => rfl
      | cons d =>
        simp only [hs] at h ⊢
        by_cases hd : d = ch ']'
        · rw [if_pos hd, if_pos hd]
        · rw [if_neg hd] at h ⊢
          rw [if_neg hd]
          exact bind_stable h (hn.items _) fun _ _ => rfl
    · rw [if_neg hquote, if_neg hbrace, if_neg hbracket, if_neg hquote, if_neg hbrace, if_neg hbracket]

theorem Roomy.scanItems_succ (hn : Roomy F hook n) (h : scanItems F hook (n + 1) t ≠ .error .exhausted) :
    scanItems F hook (n + 2) t = scanItems F hook (n + 1) t := by
  rw [scanItems] at h
  rw [scanItems, scanItems]
  refine bind_stable h (hn.value t) fun p hp => ?_
  obtain ⟨v, rest⟩ := p
  simp only at hp ⊢
  cases hs : skipSpace rest with
  | nil => rfl
  | cons c =>
    simp only [hs] at hp ⊢
    by_cases hc : c = ch ']'
    · rw [if_pos hc, if_pos hc]
    by_cases hcomma : c = ch ','
    · rw [if_neg hc, if_pos hcomma] at hp ⊢
      rw [if_neg hc, if_pos hcomma]
      exact bind_stable hp (hn.items _) fun _ _ => rfl
    · rw [if_neg hc, if_neg hcomma, if_neg hc, if_neg hcomma]

theorem Roomy.scanPairs_succ (hn : Roomy F hook n) (h : scanPairs F hook (n + 1) t ≠ .error .exhausted) :
    scanPairs F hook (n + 2) t = scanPairs F hook (n + 1) t := by
  cases t with
  | nil => rfl
  | cons q t =>
    rw [scanPairs] at h
    rw [scanPairs, scanPairs]
    by_cases hq : q = ch '"'
    · rw [if_pos hq] at h ⊢
      rw [if_pos hq]
      cases hs : scanString t with
      | none => rfl
      | some p =>
        obtain ⟨key, rest⟩ := p
        simp only [hs] at h ⊢
        cases hw : skipSpace rest with
        | nil => rfl
        | cons colon =>
          simp only [hw] at h ⊢
          by_cases hcolon : colon = ch ':'
          · rw [if_pos hcolon] at h ⊢
            rw [if_pos hcolon]
            refine bind_stable h (hn.value _) fun p hp => ?_
            obtain ⟨v, rest⟩ := p
            simp only at hp ⊢
            cases hx : skipSpace rest with
            | nil => rfl
            | cons c =>
              simp only [hx] at hp ⊢
              by_cases hc : c = ch '}'
              · rw [if_pos hc, if_pos hc]
              by_cases hcomma : c = ch ','
              · rw [if_neg hc, if_pos hcomma] at hp ⊢
                rw [if_neg hc, if_pos hcomma]
                exact bind_stable hp (hn.pairs _) fun _ _ => rfl
              · rw [if_neg hc, if_neg hcomma, if_neg hc, if_neg hcomma]
          · rw [if_neg hcolon, if_neg hcolon]
    · rw [if_neg hq, if_neg hq]

theorem scan_roomy : ∀ n : Nat, Roomy F hook n
  | 0 => ⟨fun _ h => absurd rfl h, fun _ h => absurd rfl h, fun _ h => absurd rfl h⟩
  | n + 1 => ⟨fun _ => (scan_roomy n).scanOnce_succ, fun _ => (scan_roomy n).scanItems_succ,
    fun _ => (scan_roomy n).scanPairs_succ⟩

theorem scanOnce_more {n m : Nat} {t : Text} (h : scanOnce F hook n t ≠ .error .exhausted) (hle : n ≤ m) :
    scanOnce F hook m t = scanOnce F hook n t := by
  induction m, hle using Nat.le_induction with
  | base => rfl
  | succ m hle ih => rw [(scan_roomy m).value t (by rwa [ih]), ih]

end Bound

/-- What is read of the first text has its like in the second one. -/
theorem Parallel.loadsText {F : FloatFormat} {ε ε' : Type} {hook : List (Text × Value F.Val) → Except ε (Value F.Val)}
    {hook' : List (Text × Value F.Val) → Except ε' (Value F.Val)} {T K : Text → Text → Prop}
    {V : Value F.Val → Value F.Val → Prop} (h : Parallel hook hook' T K V) {t o : Text} (ht : T t o) {v : Value F.Val}
    (hv : Lib.loadsText F hook t = .ok v) : ∃ v', Lib.loadsText F hook' o = .ok v' ∧ V v v' := by
  unfold Lib.loadsText at hv
  cases hs : scanOnce F hook (2 * t.length + 2) (Lib.skipSpace t) with
  | error => simp [hs, bind, Except.bind] at hv
  | ok p =>
    obtain ⟨w, rest⟩ := p
    simp only [hs, bind, Except.bind] at hv
    split at hv
    · next hrest =>
      obtain rfl := Except.ok.inj hv
      obtain ⟨v', rest', ho, hV, hT⟩ := (h.scan _).1 _ _ (h.skipSpace ht) w rest hs
      have hend := h.skipSpace hT
      rw [hrest] at hend
      have hbound : scanOnce F hook' (2 * o.length + 2) (Lib.skipSpace o) ≠ .error .exhausted := by
        have hlen := (skipSpace_suffix o).length_le
        have hscan : Consumes (Lib.skipSpace o) (scanOnce F hook' (2 * o.length + 2) (Lib.skipSpace o)) :=
          (scan_consumes _).1 _ (by omega)
        intro heq
        rw [heq] at hscan
        exact hscan rfl
      have hsame : scanOnce F hook' (2 * o.length + 2) (Lib.skipSpace o) = .ok (v', rest') := by
        rcases Nat.le_total (2 * o.length + 2) (2 * t.length + 2) with hle | hle
        · rw [← scanOnce_more hbound hle, ho]
        · rw [scanOnce_more (by rw [ho]; rintro ⟨⟩) hle, ho]
      refine ⟨v', ?_, hV⟩
      simp only [Lib.loadsText, hsame, bind, Except.bind, h.nil _ hend, if_true]
    · cases hv


end AgentFabric.Lib
