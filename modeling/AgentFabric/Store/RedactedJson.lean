import AgentFabric.Store.Redaction
import AgentFabric.Lib.JsonEdits

/-!
# The redaction of a JSON text

`redact_sensitive` rewrites a text by patterns that know nothing of quotation marks, and the text may be JSON.
-/

namespace AgentFabric.Store.Redaction

open AgentFabric.Lib

variable {rule : Rule CodePoint} {before before' : Option CodePoint} {s t kept removed rest x y : Text}
    {u : UnicodeTables}

/-! ## Matches inside of literals -/

/-- Behind every letter that is no backslash the text has no more quotation marks, and ends outside of an escape. -/
def Sealed (s : Text) : Prop :=
  ∀ x c w, s = x ++ c :: w → c ≠ ch '\\' → quotes false w = 0 ∧ pending false w = false

theorem Sealed.of_append (h : Sealed (x ++ s)) : Sealed s := by
  intro z c w hs
  exact h (x ++ z) c w (by rw [hs, List.append_assoc])

theorem sealed_body {b : Text} (hb : Body b) : Sealed b := by
  intro x c w hw hc
  have hquotes := hb.quotes []
  have hpending := hb.pending
  have hmiddle : pending false (x ++ [c]) = false := by rw [pending_append, pending_cons hc, pending]
  have hsplit : x ++ c :: w = (x ++ [c]) ++ w := by simp
  rw [List.append_nil, hw, hsplit, quotes_append, hmiddle, quotes] at hquotes
  rw [hw, hsplit, pending_append, hmiddle] at hpending
  exact ⟨by omega, hpending⟩

/-- In a literal, whose text goes on behind its quotation mark, and by itself. -/
def Beside (before before' : Option CodePoint) : Prop := before = before' ∨ before = some (ch '"') ∧ before' = none

/-- A rule whose matches begin in literals. -/
structure Inward (rule : Rule CodePoint) : Prop where
  consumes : rule.Consumes
  reach : ∀ {before s kept removed rest}, rule.first before s = some (kept, removed, rest) →
    ∃ m w, s = m ++ w ∧ ch '"' ∉ m ∧ ∃ c ∈ m, c ∉ outsideLetters
  count : ∀ {before s kept removed rest} (escaped : Bool), rule.first before s = some (kept, removed, rest) →
    quotes escaped s = quotes false removed + quotes false rest ∧
      ∀ w, quotes escaped (kept ++ (redacted ++ w)) = quotes false w
  missed : ∀ {before before' s} (y : Text), Beside before before' → Sealed s →
    rule.first before (s ++ ch '"' :: y) = none → rule.first before' s = none
  met : ∀ {before before' s y kept removed rest}, Beside before before' → Sealed s →
    rule.first before (s ++ ch '"' :: y) = some (kept, removed, rest) → quotes false removed = 0 →
    ∃ rest', rest = rest' ++ ch '"' :: y ∧ rule.first before' s = some (kept, removed, rest')
  body : ∀ {before s kept removed rest} (x : Text), rule.first before s = some (kept, removed, rest) → Body (x ++ s) →
    Body (x ++ (kept ++ (redacted ++ rest)))

theorem lastOr_congr (hx : x ≠ []) (before before' : Option CodePoint) :
    Regex.lastOr before x = Regex.lastOr before' x := by
  obtain ⟨c, x, rfl⟩ := List.exists_cons_of_ne_nil hx
  rw [Regex.lastOr_cons, Regex.lastOr_cons]

/-- A substitution that removes no quotation mark edits the inside of a literal as it edits it by itself. -/
theorem Inward.scan_inside (hrule : Inward rule) (t : Text) (n : Nat) :
    ∀ {s : Text} {before before' : Option CodePoint},
    s.length = n → Beside before before' → Sealed s →
    (∀ removed ∈ rule.removals before 0 (s ++ ch '"' :: t), quotes false removed = 0) →
    ∃ behind, rule.scan redacted before 0 (s ++ ch '"' :: t) =
        rule.scan redacted before' 0 s ++ rule.scan redacted behind 0 (ch '"' :: t) ∧
      rule.removals before 0 (s ++ ch '"' :: t) =
        rule.removals before' 0 s ++ rule.removals behind 0 (ch '"' :: t) := by
  induction n using Nat.strong_induction_on with
  | _ n ih =>
    intro s before before' hn hbeside hsealed hspared
    cases s with
    | nil => exact ⟨before, rfl, rfl⟩
    | cons c s =>
      rw [List.cons_append] at hspared ⊢
      cases hfirst : rule.first before (c :: (s ++ ch '"' :: t)) with
      | none =>
        obtain ⟨hscan, hremovals⟩ := Rule.scan_keep redacted hfirst
        obtain ⟨hscan', hremovals'⟩ := Rule.scan_keep redacted (hrule.missed t hbeside hsealed hfirst)
        rw [hremovals] at hspared
        have hlt : s.length < n := by
          rw [← hn]
          exact Nat.lt_succ_self _
        obtain ⟨behind, hs, hr⟩ := ih s.length hlt rfl (Or.inl rfl) (Sealed.of_append (x := [c]) hsealed) hspared
        exact ⟨behind, by rw [hscan, hscan', hs, List.cons_append], by rw [hremovals, hremovals', hr]⟩
      | some m =>
        obtain ⟨kept, removed, rest⟩ := m
        obtain ⟨hscan, hremovals⟩ := Rule.scan_hit hrule.consumes redacted hfirst
        have hquotes := hspared removed (by rw [hremovals]; exact List.mem_cons_self)
        obtain ⟨rest', rfl, hfirst'⟩ := hrule.met hbeside hsealed hfirst hquotes
        obtain ⟨hscan', hremovals'⟩ := Rule.scan_hit hrule.consumes redacted hfirst'
        have hne := hrule.consumes _ _ _ _ _ hfirst'
        have hs := Rule.first_append hfirst'
        have hlt : rest'.length < n := by
          have hpos := List.length_pos_of_ne_nil hne
          rw [← hn, ← hs, List.length_append, List.length_append]
          omega
        have hlast := lastOr_congr (x := kept ++ removed) (by simp [hne]) before before'
        have hsealed' : Sealed rest' := by
          rw [← hs, ← List.append_assoc] at hsealed
          exact hsealed.of_append
        obtain ⟨behind, hs, hr⟩ := ih rest'.length hlt rfl (Or.inl hlast) hsealed' fun r hr =>
          hspared r (by rw [hremovals]; exact List.mem_cons_of_mem _ hr)
        refine ⟨behind, ?_, ?_⟩
        · rw [hscan, hscan', hs]
          simp only [List.append_assoc]
        · rw [hremovals, hremovals', hr, List.cons_append]

theorem Inward.substitute_body (hrule : Inward rule) {b : Text} (hb : Body b) : Body (rule.substitute redacted b) := by
  have hall : ∀ x, Body (x ++ b) → Body (x ++ rule.substitute redacted b) := by
    refine Rule.scan_induction hrule.consumes redacted
      (motive := fun _ s out _ => ∀ x, Body (x ++ s) → Body (x ++ out)) ?_ ?_ ?_ none b
    · exact fun _ x hx => hx
    · intro before c s out _ _ ih x hx
      have hnext := ih (x ++ [c]) (by simpa using hx)
      simpa using hnext
    · intro before kept removed rest out _ hfirst ih x hx
      have hnext := ih (x ++ (kept ++ redacted)) (by simpa using hrule.body x hfirst hx)
      simpa using hnext
  exact hall [] hb

theorem lexed_front {n : Nat} (h : Lexed n t) {m w : Text} (ht : t = m ++ w) (hm : ch '"' ∉ m) :
    ∀ c ∈ m, c ∈ outsideLetters := by
  induction h generalizing m with
  | nil =>
    obtain ⟨rfl, -⟩ := List.append_eq_nil_iff.mp ht.symm
    exact List.forall_mem_nil _
  | @outside n c t hc _ ih =>
    cases m with
    | nil => exact List.forall_mem_nil _
    | cons =>
      obtain ⟨rfl, htail⟩ := List.cons.inj ht
      exact List.forall_mem_cons.mpr ⟨hc, ih htail fun hq => hm (List.mem_cons_of_mem _ hq)⟩
  | literal hb _ _ =>
    cases m with
    | nil => exact List.forall_mem_nil _
    | cons =>
      obtain ⟨rfl, -⟩ := List.cons.inj ht
      exact absurd List.mem_cons_self hm

theorem Inward.outside_none (hrule : Inward rule) {n : Nat} (h : Lexed n t) (before : Option CodePoint) :
    rule.first before t = none := by
  cases hfirst : rule.first before t with
  | none => rfl
  | some m =>
    obtain ⟨kept, removed, rest⟩ := m
    obtain ⟨m, w, ht, hm, c, hc, hnot⟩ := hrule.reach hfirst
    exact absurd (lexed_front h ht hm c hc) hnot

/-- **One pass.** Where no match removes a quotation mark, a substitution edits every literal by itself. -/
theorem Inward.substitute_edited (hrule : Inward rule) {n : Nat} (h : Lexed n t)
    (hspared : ∀ removed ∈ rule.removals none 0 t, quotes false removed = 0) :
    Edited (rule.substitute redacted) t (rule.substitute redacted t) := by
  have hall : ∀ before, (∀ removed ∈ rule.removals before 0 t, quotes false removed = 0) →
      Edited (rule.substitute redacted) t (rule.scan redacted before 0 t) := by
    clear hspared
    induction h with
    | nil => exact fun _ _ => .nil
    | @outside n c t hc h ih =>
      intro before hspared
      obtain ⟨hscan, hremovals⟩ := Rule.scan_keep redacted (hrule.outside_none (.outside hc h) before)
      rw [hremovals] at hspared
      rw [hscan]
      exact .outside hc (ih _ hspared)
    | @literal n b t hb h ih =>
      intro before hspared
      have hend : ∀ before, rule.first before (ch '"' :: t) = none := by
        intro before
        cases hfirst : rule.first before (ch '"' :: t) with
        | none => rfl
        | some m =>
          obtain ⟨kept, removed, rest⟩ := m
          obtain ⟨m, w, ht, hm, c, hc, -⟩ := hrule.reach hfirst
          cases m with
          | nil => cases hc
          | cons =>
            obtain ⟨rfl, -⟩ := List.cons.inj ht
            exact absurd List.mem_cons_self hm
      obtain ⟨hscan, hremovals⟩ := Rule.scan_keep redacted (hrule.outside_none (.literal hb h) before)
      rw [hremovals] at hspared
      obtain ⟨behind, hinside, hfound⟩ :=
        hrule.scan_inside t b.length rfl (Or.inr ⟨rfl, rfl⟩) (sealed_body hb) hspared
      obtain ⟨hquote, hrest⟩ := Rule.scan_keep redacted (hend behind)
      rw [hscan, hinside, hquote]
      refine .literal hb (hrule.substitute_body hb) (ih _ fun r hr => hspared r ?_)
      rw [hfound, hrest]
      exact List.mem_append_right _ hr
  exact hall none hspared

theorem Inward.substitute_quotes (hrule : Inward rule) (t : Text) :
    quotes false (rule.substitute redacted t) + ((rule.removals none 0 t).map (quotes false)).sum = quotes false t := by
  have hall : ∀ escaped, quotes escaped (rule.substitute redacted t) +
      ((rule.removals none 0 t).map (quotes false)).sum = quotes escaped t := by
    refine Rule.scan_induction hrule.consumes redacted (motive := fun _ s out found =>
      ∀ escaped, quotes escaped out + (found.map (quotes false)).sum = quotes escaped s) ?_ ?_ ?_ none t
    · exact fun _ _ => rfl
    · intro before c s out found _ ih escaped
      cases escaped with
      | true => exact ih false
      | false =>
        simp only [quotes]
        split
        · have := ih false
          omega
        · exact ih _
    · intro before kept removed rest out found hfirst ih escaped
      obtain ⟨hbefore, hbehind⟩ := hrule.count escaped hfirst
      have := ih false
      rw [hbefore, hbehind, List.map_cons, List.sum_cons]
      omega
  exact hall false

/-! ## The three patterns -/

variable {c : CodePoint}

def escapeLetters : Text := lit "\"\\/bfnrtu0123456789abcdefABCDEF"

theorem joint_of_not_mem (h : c ∉ escapeLetters) : Joint c := by
  have hne : ∀ x, ch x ∈ escapeLetters → c ≠ ch x := by
    rintro x hx rfl
    exact h hx
  have hval : c.val ∉ escapeLetters.map Fin.val := by
    intro hm
    obtain ⟨d, hd, heq⟩ := List.mem_map.mp hm
    exact h (Fin.ext heq ▸ hd)
  rw [show escapeLetters.map Fin.val = [34, 92, 47, 98, 102, 110, 114, 116, 117, 48, 49, 50, 51, 52, 53, 54, 55, 56, 57,
    97, 98, 99, 100, 101, 102, 65, 66, 67, 68, 69, 70] from rfl] at hval
  simp only [List.mem_cons, not_or] at hval
  refine ⟨hne _ (by decide), hne _ (by decide +kernel), ?_, ?_⟩
  · simp [unescape, hne '"' (by decide), hne '\\' (by decide +kernel), hne '/' (by decide +kernel),
      hne 'b' (by decide), hne 'f' (by decide +kernel), hne 'n' (by decide +kernel), hne 'r' (by decide +kernel),
      hne 't' (by decide)]
  · unfold hexValue
    simp only
    rw [if_neg (by omega), if_neg (by omega), if_neg (by omega)]

theorem joint_of_class {p : CodePoint → Bool} (hp : escapeLetters.all (fun d => !p d) = true)
    (h : p c = true) : Joint c := by
  apply joint_of_not_mem
  intro hm
  have hnot := List.all_eq_true.mp hp c hm
  rw [h] at hnot
  cases hnot

theorem bare_of_class {p : CodePoint → Bool} (hp : escapeLetters.all (fun d => !p d) = true)
    (h : p c = true) : Bare c := by
  have hne : ∀ d ∈ escapeLetters, c ≠ d := by
    rintro d hd rfl
    have hnot := List.all_eq_true.mp hp c hd
    rw [h] at hnot
    cases hnot
  exact ⟨hne _ (by decide), hne _ (by decide +kernel)⟩

theorem delimiter_class : escapeLetters.all (fun d => !isDelimiter d) = true := by decide

theorem redacted_bare : ∀ c ∈ redacted, Bare c := by
  have hall : redacted.all (fun c => decide (Bare c)) = true := by decide
  exact fun c hc => of_decide_eq_true (List.all_eq_true.mp hall c hc)

theorem redacted_body : Body redacted := by
  have hall : redacted.all (fun c => decide (Bare c ∧ 0x20 ≤ c.val)) = true := by decide
  generalize redacted = text at hall
  induction text with
  | nil => exact .nil
  | cons c text ih =>
    rw [List.all_cons, Bool.and_eq_true, decide_eq_true_eq] at hall
    exact .plain hall.1.1 hall.1.2 (ih hall.2)

/-- What stands in front of a value: no quotation mark, no backslash, letters that stand in literals only, and a
separator or white space at the end. -/
structure Label (kept : Regex CodePoint) : Prop where
  quote : kept.blind (ch '"') = true
  slash : kept.blind (ch '\\') = true
  outside : kept.within outsideLetters = false
  ends : ∀ {before s x r}, (x, r) ∈ kept.ways before s →
    ∃ x' c, x = x' ++ [c] ∧ (isSeparator c = true ∨ Lib.isSpace c = true)

/-- The value behind a label. -/
def run (m : Text × Text) : Option (Text × Text × Text) :=
  if m.2.takeWhile (fun c => !isDelimiter c) = [] then none
  else some (m.1, m.2.takeWhile fun c => !isDelimiter c, m.2.dropWhile fun c => !isDelimiter c)

theorem value_head (before : Option CodePoint) (s : Text) : (value.ways before s).head? =
    if s.takeWhile (fun c => !isDelimiter c) = [] then none
    else some (s.takeWhile fun c => !isDelimiter c, s.dropWhile fun c => !isDelimiter c) := by
  cases hhead : (value.ways before s).head? with
  | none =>
    rw [if_pos]
    by_contra hne
    have hmem : (s.takeWhile (fun c => !isDelimiter c), s.dropWhile fun c => !isDelimiter c) ∈ value.ways before s :=
      Regex.mem_many.mpr ⟨List.takeWhile_append_dropWhile, fun c hc => (List.mem_takeWhile_imp hc :),
        List.length_pos_of_ne_nil hne⟩
    rw [List.head?_eq_none_iff.mp hhead] at hmem
    cases hmem
  | some n =>
    obtain ⟨x, r⟩ := n
    have hmem := Regex.mem_many.mp (List.mem_of_mem_head? hhead)
    obtain ⟨rfl, rfl⟩ := Regex.head_many hhead
    rw [if_neg (List.ne_nil_of_length_pos hmem.2.2)]

theorem first_eq_run (kept : Regex CodePoint) (before : Option CodePoint) (s : Text) :
    (Rule.mk kept value).first before s = (kept.ways before s).findSome? run := by
  unfold Rule.first
  rw [List.head?_flatMap]
  congr 1
  funext m
  rw [List.head?_map, value_head]
  unfold run
  split <;> rfl

/-- A value in a literal, whose text goes on behind its quotation mark, and by itself. -/
theorem run_inside {m : Text × Text} (hquotes : quotes false m.2 = 0)
    (hpending : pending false m.2 = false) (y : Text) :
    (run (m.1, m.2 ++ ch '"' :: y) = none → run m = none) ∧
    ∀ kept removed rest, run (m.1, m.2 ++ ch '"' :: y) = some (kept, removed, rest) → quotes false removed = 0 →
      ∃ rest', rest = rest' ++ ch '"' :: y ∧ run m = some (kept, removed, rest') := by
  obtain ⟨k, s⟩ := m
  have hquote : isDelimiter (ch '"') = false := by decide
  simp only at hquotes hpending
  by_cases hall : ∀ c ∈ s, (!isDelimiter c) = true
  · -- the value reaches the quotation mark
    have htake : (s ++ ch '"' :: y).takeWhile (fun c => !isDelimiter c) =
        s ++ ch '"' :: y.takeWhile fun c => !isDelimiter c := by
      rw [List.takeWhile_append_of_pos hall, List.takeWhile_cons_of_pos (by simp [hquote])]
    constructor
    · intro hnone
      simp [run, htake] at hnone
    · intro kept removed rest hrun hzero
      simp only [run, htake] at hrun
      rw [if_neg (by simp)] at hrun
      obtain ⟨-, rfl, -⟩ : k = kept ∧ _ = removed ∧ _ = rest := by simpa using hrun
      rw [quotes_append, hpending] at hzero
      simp [quotes] at hzero
  · push Not at hall
    obtain ⟨d, hd, hnot⟩ := hall
    have hlt : (s.takeWhile fun c => !isDelimiter c).length ≠ s.length := by
      intro heq
      have hsame := (List.takeWhile_prefix (fun c => !isDelimiter c)).eq_of_length heq
      rw [← hsame] at hd
      have hin : (!isDelimiter d) = true := List.mem_takeWhile_imp (p := fun c => !isDelimiter c) hd
      exact hnot hin
    have htake : (s ++ ch '"' :: y).takeWhile (fun c => !isDelimiter c) = s.takeWhile fun c => !isDelimiter c := by
      rw [List.takeWhile_append, if_neg hlt]
    have hdrop : (s ++ ch '"' :: y).dropWhile (fun c => !isDelimiter c) =
        (s.dropWhile fun c => !isDelimiter c) ++ ch '"' :: y := by
      rw [List.dropWhile_append, if_neg]
      intro hempty
      have hnil := List.isEmpty_iff.mp hempty
      have happ : s.takeWhile (fun c => !isDelimiter c) ++ s.dropWhile (fun c => !isDelimiter c) = s :=
        List.takeWhile_append_dropWhile
      rw [hnil, List.append_nil] at happ
      exact hlt (by rw [happ])
    constructor
    · intro hnone
      simpa [run, htake] using hnone
    · intro kept removed rest hrun _
      simp only [run, htake, hdrop] at hrun
      by_cases hempty : s.takeWhile (fun c => !isDelimiter c) = []
      · rw [if_pos hempty] at hrun
        cases hrun
      · rw [if_neg hempty] at hrun
        obtain ⟨rfl, rfl, rfl⟩ : k = kept ∧ _ = removed ∧ _ = rest := by simpa using hrun
        exact ⟨_, rfl, by simp [run, hempty]⟩

theorem findSome_inside {ways : List (Text × Text)}
    (hways : ∀ m ∈ ways, quotes false m.2 = 0 ∧ pending false m.2 = false) (y : Text) :
    ((ways.map fun m => (m.1, m.2 ++ ch '"' :: y)).findSome? run = none → ways.findSome? run = none) ∧
    ∀ kept removed rest, (ways.map fun m => (m.1, m.2 ++ ch '"' :: y)).findSome? run = some (kept, removed, rest) →
      quotes false removed = 0 → ∃ rest', rest = rest' ++ ch '"' :: y ∧
        ways.findSome? run = some (kept, removed, rest') := by
  induction ways with
  | nil => exact ⟨fun _ => rfl, by rintro _ _ _ ⟨⟩⟩
  | cons m ways ih =>
    obtain ⟨hnone, hsome⟩ := ih fun m hm => hways m (List.mem_cons_of_mem _ hm)
    obtain ⟨hquotes, hpending⟩ := hways m List.mem_cons_self
    obtain ⟨hrunNone, hrunSome⟩ := run_inside hquotes hpending y
    rw [List.map_cons, List.findSome?_cons, List.findSome?_cons]
    cases hrun : run (m.1, m.2 ++ ch '"' :: y) with
    | none =>
      rw [hrunNone hrun]
      exact ⟨hnone, hsome⟩
    | some =>
      refine ⟨(fun h => by cases h), fun kept removed rest h hzero => ?_⟩
      obtain rfl := Option.some.inj h
      obtain ⟨rest', rfl, hfound⟩ := hrunSome _ _ _ hrun hzero
      exact ⟨rest', rfl, by rw [hfound]⟩

theorem Label.inward {kept : Regex CodePoint} (hlabel : Label kept) : Inward ⟨kept, value⟩ := by
  have hbare : ∀ {before s x r}, (x, r) ∈ kept.ways before s → ∀ c ∈ x, Bare c := by
    intro before s x r h c hc
    constructor <;> rintro rfl
    · exact Regex.blind_of_ways hlabel.quote h hc
    · exact Regex.blind_of_ways hlabel.slash h hc
  have hways : ∀ {before s}, Sealed s → ∀ m ∈ kept.ways before s, quotes false m.2 = 0 ∧ pending false m.2 = false := by
    rintro before s hsealed ⟨x, r⟩ hm
    obtain ⟨x', c, rfl, -⟩ := hlabel.ends hm
    refine hsealed x' c r ?_ (hbare hm c (by simp)).2
    rw [← Regex.ways_append hm, List.append_assoc, List.singleton_append]
  have hfirst : ∀ {before s kept' removed rest}, (Rule.mk kept value).first before s = some (kept', removed, rest) →
      (∃ t, (kept', t) ∈ kept.ways before s) ∧ Run removed rest ∧ kept' ++ (removed ++ rest) = s := by
    intro before s kept' removed rest h
    obtain ⟨t, hway, hhead⟩ := Rule.mem_of_first h
    have hmem := Regex.mem_many.mp (List.mem_of_mem_head? hhead)
    obtain ⟨rfl, rfl⟩ := Regex.head_many hhead
    exact ⟨⟨t, hway⟩, run_takeWhile (List.ne_nil_of_length_pos hmem.2.2), Rule.first_append h⟩
  constructor
  · intro before s kept' removed rest h
    exact (hfirst h).2.1.1
  · intro before s kept' removed rest h
    obtain ⟨⟨t, hway⟩, -, rfl⟩ := hfirst h
    refine ⟨kept', removed ++ rest, rfl, Regex.blind_of_ways hlabel.quote hway, ?_⟩
    by_contra hnot
    push Not at hnot
    have hwithin := Regex.within_of_ways hway hnot
    rw [hlabel.outside] at hwithin
    cases hwithin
  · intro before s kept' removed rest escaped h
    obtain ⟨⟨t, hway⟩, hrun, rfl⟩ := hfirst h
    obtain ⟨x', c, rfl, -⟩ := hlabel.ends hway
    have hkept := hbare hway
    constructor
    · rw [quotes_behind hkept (by simp), quotes_append]
      congr 1
      -- what follows a value is no quotation mark, and no backslash
      cases rest with
      | nil => rfl
      | cons d =>
        have hd := bare_of_class delimiter_class (hrun.2.2 d rfl)
        rw [quotes_cons hd, quotes_cons hd]
    · intro w
      rw [quotes_behind hkept (by simp)]
      exact quotes_bare redacted_bare w
  · intro before before' s y hbeside hsealed h
    rw [first_eq_run, Regex.ways_of_blind hlabel.quote hbeside] at h
    rw [first_eq_run]
    exact (findSome_inside (hways hsealed) y).1 h
  · intro before before' s y kept' removed rest hbeside hsealed h hzero
    rw [first_eq_run, Regex.ways_of_blind hlabel.quote hbeside] at h
    rw [first_eq_run]
    exact (findSome_inside (hways hsealed) y).2 _ _ _ h hzero
  · intro before s kept' removed rest x h hbody
    obtain ⟨⟨t, hway⟩, hrun, rfl⟩ := hfirst h
    obtain ⟨x', c, rfl, hc⟩ := hlabel.ends hway
    have hjoint : Joint c := hc.elim (joint_of_class (p := isSeparator) (by decide))
      (joint_of_class (p := Lib.isSpace) (by decide))
    have hsplit : x ++ (x' ++ [c] ++ (removed ++ rest)) = (x ++ x') ++ c :: (removed ++ rest) := by simp
    rw [hsplit] at hbody
    obtain ⟨hfront, hletter, hback⟩ := hbody.split hjoint
    have hrest : Body rest := by
      cases rest with
      | nil => exact .nil
      | cons d =>
        obtain ⟨-, hd, hrest⟩ := hback.split (joint_of_class delimiter_class (hrun.2.2 d rfl))
        exact hd.append hrest
    have hall := hfront.append (hletter.append (redacted_body.append hrest))
    simpa using hall

theorem credentialLabel_label : Label credentialLabel where
  quote := by decide
  slash := by decide
  outside := by decide
  ends h := by
    obtain ⟨name, _, _, -, hrest, rfl⟩ := Regex.mem_seq.mp h
    obtain ⟨gap, _, _, -, hlast, rfl⟩ := Regex.mem_seq.mp hrest
    obtain ⟨_, _, back, hsep, hback, rfl⟩ := Regex.mem_seq.mp hlast
    obtain ⟨c, hc, rfl, -⟩ := Regex.mem_one.mp hsep
    rcases List.eq_nil_or_concat back with rfl | ⟨back', d, rfl⟩
    · exact ⟨name ++ gap, c, by simp, Or.inl hc⟩
    · exact ⟨name ++ (gap ++ c :: back'), d, by simp, Or.inr ((Regex.mem_many.mp hback).2.1 d (by simp))⟩

theorem authorizationLabel : Label authorizationRule.kept where
  quote := by decide
  slash := by decide
  outside := by decide
  ends h := by
    obtain ⟨name, _, _, -, hgap, rfl⟩ := Regex.mem_seq.mp h
    obtain ⟨gap, _, _, -, hsep, rfl⟩ := Regex.mem_seq.mp hgap
    obtain ⟨sep, _, _, -, hback, rfl⟩ := Regex.mem_seq.mp hsep
    obtain ⟨back, _, _, -, hbearer, rfl⟩ := Regex.mem_seq.mp hback
    obtain ⟨bearer, _, spaces, -, hspaces, rfl⟩ := Regex.mem_seq.mp hbearer
    obtain ⟨-, hall, hleast⟩ := Regex.mem_many.mp hspaces
    rcases List.eq_nil_or_concat spaces with rfl | ⟨spaces', d, rfl⟩
    · exact absurd hleast (by decide)
    · exact ⟨name ++ (gap ++ (sep ++ (back ++ (bearer ++ spaces')))), d, by simp, Or.inr (hall d (by simp))⟩

theorem authorizationRule_inward : Inward authorizationRule := authorizationLabel.inward

theorem credentialRule_inward : Inward credentialRule := credentialLabel_label.inward

theorem keyRule_blind (u : UnicodeTables) : (keyRule u).removed.blind (ch '"') = true := by
  have hword : u.word (ch '"') = false := by
    rw [UnicodeTables.word, if_pos (by decide)]
    decide
  have hkey : (Regex.seq (exactly "sk-") (.many isKeyLetter 12)).blind (ch '"') = true := by decide
  simp only [Regex.blind, Bool.and_eq_true] at hkey
  simp [keyRule, Regex.blind, hword, hkey]

theorem key_bare {letters : Text} (hletters : ∀ c ∈ letters, isKeyLetter c = true) :
    ∀ c ∈ lit "sk-" ++ letters, Bare c := by
  intro c hc
  rcases List.mem_append.mp hc with hc | hc
  · have hall : (lit "sk-").all (fun c => decide (Bare c)) = true := by decide
    exact of_decide_eq_true (List.all_eq_true.mp hall c hc)
  · constructor <;> rintro rfl <;> exact absurd (hletters _ hc) (by decide)

theorem quotes_key {letters : Text} (hletters : ∀ c ∈ letters, isKeyLetter c = true) :
    quotes false (lit "sk-" ++ letters) = 0 := by
  have hbare := quotes_bare (key_bare hletters) []
  rwa [List.append_nil] at hbare

theorem keyRule_inward (u : UnicodeTables) : Inward (keyRule u) := by
  have hbeside : ∀ {before before' : Option CodePoint} (s y : Text), Beside before before' →
      (keyRule u).first before (s ++ ch '"' :: y) =
        ((keyRule u).first before' s).map fun m => (m.1, m.2.1, m.2.2 ++ ch '"' :: y) := by
    intro before before' s y hb
    have hfirst : ∀ before s, (keyRule u).first before s =
        ((keyRule u).removed.ways before s).head?.map fun n => ([], n.1, n.2) := by
      intro before s
      unfold Rule.first
      rw [show (keyRule u).kept.ways before s = [([], s)] from rfl, List.flatMap_cons, List.flatMap_nil,
        List.append_nil, List.head?_map, Regex.lastOr_nil]
    rw [hfirst, hfirst, Regex.ways_of_blind (keyRule_blind u) hb, List.head?_map, Option.map_map, Option.map_map]
    rfl
  constructor
  · exact keyRule_consumes
  · intro before s kept removed rest h
    obtain ⟨rfl, ⟨letters, rfl, hletters, -⟩, -, -, rfl⟩ := keyRule_first h
    refine ⟨_, rest, rfl, fun hq => (key_bare hletters _ hq).1 rfl, ch 'k', by simp [lit], by decide⟩
  · intro before s kept removed rest escaped h
    obtain ⟨rfl, ⟨letters, rfl, hletters, -⟩, -, -, rfl⟩ := keyRule_first h
    constructor
    · rw [quotes_behind (key_bare hletters) (by simp [lit]), quotes_key hletters, Nat.zero_add]
    · intro w
      exact quotes_behind redacted_bare (by simp [redacted, lit]) escaped w
  · intro before before' s y hb _ h
    rw [hbeside s y hb, Option.map_eq_none_iff] at h
    exact h
  · intro before before' s y kept removed rest hb _ h _
    rw [hbeside s y hb, Option.map_eq_some_iff] at h
    obtain ⟨⟨k, r, rest'⟩, hfirst, heq⟩ := h
    obtain ⟨rfl, rfl, rfl⟩ : k = kept ∧ r = removed ∧ rest' ++ ch '"' :: y = rest := by simpa using heq
    exact ⟨rest', rfl, hfirst⟩
  · intro before s kept removed rest x h hbody
    obtain ⟨rfl, ⟨letters, rfl, hletters, -⟩, -, -, rfl⟩ := keyRule_first h
    have hbare := key_bare hletters
    have hsplit : x ++ (lit "sk-" ++ letters ++ rest) = x ++ ch 's' :: (lit "k-" ++ letters ++ rest) := by simp [lit]
    rw [hsplit] at hbody
    obtain ⟨hfront, -, hback⟩ := hbody.split (joint_of_not_mem (by decide))
    have hrest : Body rest := hback.drop fun c hc => (hbare c (by simp [lit] at hc ⊢; tauto)).2
    simpa using hfront.append (redacted_body.append hrest)

/-! ## The three passes -/

theorem keyRule_removals (u : UnicodeTables) (t : Text) :
    ∀ removed ∈ (keyRule u).removals none 0 t, quotes false removed = 0 := by
  refine Rule.scan_induction keyRule_consumes redacted
    (motive := fun _ _ _ found => ∀ removed ∈ found, quotes false removed = 0) ?_ ?_ ?_ none t
  · rintro _ removed ⟨⟩
  · exact fun _ _ _ _ _ _ ih => ih
  · intro before kept removed rest out found hfirst ih
    obtain ⟨_, ⟨letters, hremoved, hletters, -⟩, -, -, -⟩ := keyRule_first hfirst
    rw [List.forall_mem_cons]
    exact ⟨hremoved ▸ quotes_key hletters, ih⟩

/-- No value that the labels' patterns remove reaches beyond the literal it begins in. -/
structure Contained (t : Text) : Prop where
  authorization : ∀ removed ∈ authorizationRule.removals none 0 t, quotes false removed = 0
  credential : ∀ removed ∈ credentialRule.removals none 0 (authorizationRule.substitute redacted t),
    quotes false removed = 0

theorem Contained.edited (h : Contained t) {n : Nat} (ht : Lexed n t) (u : UnicodeTables) :
    Edited (redactText u) t (redactText u t) := by
  have hfirst := authorizationRule_inward.substitute_edited ht h.authorization
  obtain ⟨_, -, hlexed⟩ := hfirst.lexed
  have hsecond := credentialRule_inward.substitute_edited hlexed h.credential
  obtain ⟨_, -, hlexed'⟩ := hsecond.lexed
  exact (hfirst.comp hsecond).comp ((keyRule_inward u).substitute_edited hlexed' (keyRule_removals u _))

theorem contained_of_quotes (h : quotes false t ≤ quotes false (redactText u t)) : Contained t := by
  have hfirst := authorizationRule_inward.substitute_quotes t
  have hsecond := credentialRule_inward.substitute_quotes (authorizationRule.substitute redacted t)
  have hthird := (keyRule_inward u).substitute_quotes
    (credentialRule.substitute redacted (authorizationRule.substitute redacted t))
  unfold redactText at h
  have hzero : ∀ {found : List Text}, (found.map (quotes false)).sum = 0 →
    ∀ removed ∈ found, quotes false removed = 0 := by
    intro found hsum removed hmem
    exact List.sum_eq_zero_iff.mp hsum _ (List.mem_map_of_mem hmem)
  exact ⟨hzero (by omega), hzero (by omega)⟩

end AgentFabric.Store.Redaction
