import AgentFabric.Lib.Text

/-!
# Base64 with the alphabet for URLs

What is written is read back, with and without the filling.
-/

namespace AgentFabric.Lib

/-- A digit of six bits. -/
def base64Digit (n : Nat) : CodePoint :=
  codePoint (if n < 26 then 0x41 + n else if n < 52 then 0x61 + (n - 26) else if n < 62 then 0x30 + (n - 52)
    else if n = 62 then 0x2D else 0x5F)

/-- The six bits of a digit; the digits of the other alphabet count as well. -/
def sextet (c : CodePoint) : Option Nat :=
  let n := c.val
  if 0x41 ≤ n ∧ n ≤ 0x5A then some (n - 0x41)
  else if 0x61 ≤ n ∧ n ≤ 0x7A then some (n - 0x61 + 26)
  else if 0x30 ≤ n ∧ n ≤ 0x39 then some (n - 0x30 + 52)
  else if n = 0x2D ∨ n = 0x2B then some 62
  else if n = 0x5F ∨ n = 0x2F then some 63
  else none

/-- `base64.urlsafe_b64encode` -/
def base64Encode : List Byte → Text
  | a :: b :: c :: rest =>
    base64Digit (a.val / 4) :: base64Digit (a.val % 4 * 16 + b.val / 16) ::
      base64Digit (b.val % 16 * 4 + c.val / 64) :: base64Digit (c.val % 64) :: base64Encode rest
  | [a, b] =>
    [base64Digit (a.val / 4), base64Digit (a.val % 4 * 16 + b.val / 16), base64Digit (b.val % 16 * 4), ch '=']
  | [a] => [base64Digit (a.val / 4), base64Digit (a.val % 4 * 16), ch '=', ch '=']
  | [] => []

/-- The reader at a place in a group of four digits, with the bits that are left over and the number of fillings. -/
def base64From (place rest fillings : Nat) : Text → Option (List Byte)
  | [] => if place = 0 then some [] else none
  | c :: t =>
    if c = ch '=' then
      if place < 2 then base64From place rest fillings t
      else if 4 ≤ place + (fillings + 1) then some []
      else base64From place rest (fillings + 1) t
    else match sextet c with
      | none => base64From place rest fillings t
      | some n =>
        match place with
        | 0 => base64From 1 n 0 t
        | 1 => (base64From 2 (n % 16) 0 t).map (byte (rest * 4 + n / 16) :: ·)
        | 2 => (base64From 3 (n % 4) 0 t).map (byte (rest * 16 + n / 4) :: ·)
        | _ => (base64From 0 0 0 t).map (byte (rest * 64 + n) :: ·)

/-- `base64.urlsafe_b64decode` of a text; other characters than those of ASCII are no base64 at all. -/
def base64Decode (t : Text) : Option (List Byte) :=
  if t.all (fun c => decide (c.val < 0x80)) then base64From 0 0 0 t else none

/-! ## Digits -/

variable {n place rest fillings : Nat} {t : Text}

theorem base64Digit_val (h : n < 64) : (base64Digit n).val =
    if n < 26 then 0x41 + n else if n < 52 then 0x61 + (n - 26) else if n < 62 then 0x30 + (n - 52)
    else if n = 62 then 0x2D else 0x5F := by
  rw [base64Digit, codePoint, Fin.val_ofNat]
  apply Nat.mod_eq_of_lt
  split_ifs <;> omega

theorem base64Digit_ne (h : n < 64) : base64Digit n ≠ ch '=' := by
  intro heq
  have hval := congrArg Fin.val heq
  rw [base64Digit_val h] at hval
  have hmark : (ch '=').val = 0x3D := rfl
  split_ifs at hval <;> omega

theorem base64Digit_lt (h : n < 64) : (base64Digit n).val < 0x80 := by
  rw [base64Digit_val h]
  split_ifs <;> omega

theorem sextet_base64Digit (h : n < 64) : sextet (base64Digit n) = some n := by
  simp only [sextet, base64Digit_val h]
  split_ifs <;> first | omega | (simp only [Option.some.injEq]; omega)

theorem base64From_digit (h : n < 64) : base64From place rest fillings (base64Digit n :: t) =
    match place with
    | 0 => base64From 1 n 0 t
    | 1 => (base64From 2 (n % 16) 0 t).map (byte (rest * 4 + n / 16) :: ·)
    | 2 => (base64From 3 (n % 4) 0 t).map (byte (rest * 16 + n / 4) :: ·)
    | _ => (base64From 0 0 0 t).map (byte (rest * 64 + n) :: ·) := by
  rw [base64From, if_neg (base64Digit_ne h), sextet_base64Digit h]

theorem byte_eq {b : Byte} (h : n = b.val) : byte n = b := by
  subst h
  exact Fin.ofNat_val_eq_self b

/-! ## What is written is read back -/

theorem base64From_two {a b : Byte} : base64From 0 rest fillings
    (base64Digit (a.val / 4) :: base64Digit (a.val % 4 * 16 + b.val / 16) :: t) =
      (base64From 2 (b.val / 16) 0 t).map (a :: ·) := by
  have ha := a.isLt
  have hb := b.isLt
  rw [base64From_digit (by omega)]
  simp only
  rw [base64From_digit (by omega)]
  simp only
  have hfirst : byte (a.val / 4 * 4 + (a.val % 4 * 16 + b.val / 16) / 16) = a := byte_eq (by omega)
  have hrest : (a.val % 4 * 16 + b.val / 16) % 16 = b.val / 16 := by omega
  rw [hfirst, hrest]

theorem base64From_three {b c : Byte} : base64From 2 (b.val / 16) fillings
    (base64Digit (b.val % 16 * 4 + c.val / 64) :: t) = (base64From 3 (c.val / 64) 0 t).map (b :: ·) := by
  have hb := b.isLt
  have hc := c.isLt
  rw [base64From_digit (by omega)]
  simp only
  have hsecond : byte (b.val / 16 * 16 + (b.val % 16 * 4 + c.val / 64) / 4) = b := byte_eq (by omega)
  have hrest : (b.val % 16 * 4 + c.val / 64) % 4 = c.val / 64 := by omega
  rw [hsecond, hrest]

theorem base64From_four {c : Byte} : base64From 3 (c.val / 64) fillings (base64Digit (c.val % 64) :: t) =
    (base64From 0 0 0 t).map (c :: ·) := by
  rw [base64From_digit (by omega)]
  simp only
  have hthird : byte (c.val / 64 * 64 + c.val % 64) = c := byte_eq (by omega)
  rw [hthird]

theorem base64From_encode (bytes : List Byte) : base64From 0 0 0 (base64Encode bytes) = some bytes := by
  have hzero : ∀ a : Byte, a.val % 4 * 16 = a.val % 4 * 16 + (byte 0).val / 16 := fun _ => rfl
  have hzero' : ∀ b : Byte, b.val % 16 * 4 = b.val % 16 * 4 + (byte 0).val / 64 := fun _ => rfl
  induction bytes using base64Encode.induct with
  | case1 a b c more ih =>
    rw [base64Encode, base64From_two, base64From_three, base64From_four, ih]
    rfl
  | case2 =>
    rw [base64Encode, base64From_two, hzero', base64From_three]
    rfl
  | case3 =>
    rw [base64Encode, hzero, base64From_two]
    rfl
  | case4 => rfl

theorem base64Encode_ascii (bytes : List Byte) : ∀ c ∈ base64Encode bytes, c.val < 0x80 := by
  have hmark : (ch '=').val < 0x80 := by decide
  induction bytes using base64Encode.induct with
  | case1 a b c more ih =>
    have ha := a.isLt
    have hb := b.isLt
    have hc := c.isLt
    simp only [base64Encode, List.forall_mem_cons]
    exact ⟨base64Digit_lt (by omega), base64Digit_lt (by omega), base64Digit_lt (by omega),
      base64Digit_lt (by omega), ih⟩
  | case2 a b =>
    have ha := a.isLt
    have hb := b.isLt
    simp only [base64Encode, List.forall_mem_cons]
    exact ⟨base64Digit_lt (by omega), base64Digit_lt (by omega), base64Digit_lt (by omega), hmark, nofun⟩
  | case3 a =>
    have ha := a.isLt
    simp only [base64Encode, List.forall_mem_cons]
    exact ⟨base64Digit_lt (by omega), base64Digit_lt (by omega), hmark, hmark, nofun⟩
  | case4 => exact nofun

/-- **What is written is read back.** -/
theorem base64Decode_encode (bytes : List Byte) : base64Decode (base64Encode bytes) = some bytes := by
  have hall : (base64Encode bytes).all (fun c => decide (c.val < 0x80)) = true :=
    List.all_eq_true.mpr fun c hc => decide_eq_true (base64Encode_ascii bytes c hc)
  rw [base64Decode, if_pos hall, base64From_encode]

/-! ## Without the filling -/

/-- `rstrip("=")` -/
def unfill (t : Text) : Text := (t.reverse.dropWhile fun c => decide (c = ch '=')).reverse

/-- `t + "=" * (-len(t) % 4)` -/
def fillUp (t : Text) : Text := t ++ List.replicate ((4 - t.length % 4) % 4) (ch '=')

theorem fillUp_of_split {u : Text} {k : Nat} (hk : k < 4) (hlength : (u ++ List.replicate k (ch '=')).length % 4 = 0) :
    fillUp u = u ++ List.replicate k (ch '=') := by
  have hcount : (4 - u.length % 4) % 4 = k := by
    rw [List.length_append, List.length_replicate] at hlength
    omega
  rw [fillUp, hcount]

theorem unfill_append {u : Text} {k : Nat} (hu : ∀ c ∈ u.getLast?, c ≠ ch '=') :
    unfill (u ++ List.replicate k (ch '=')) = u := by
  rw [unfill, List.reverse_append, List.reverse_replicate, List.dropWhile_append_of_pos (by simp)]
  cases hrev : u.reverse with
  | nil => simpa using hrev
  | cons c =>
    have hlast : u.getLast? = some c := by rw [← List.head?_reverse, hrev]; rfl
    rw [List.dropWhile_cons_of_neg (by simpa using hu c hlast), ← hrev, List.reverse_reverse]

/-- The text in two parts: digits, and less than four fillings. -/
theorem base64Encode_split (bytes : List Byte) : ∃ u k, k < 4 ∧ base64Encode bytes = u ++ List.replicate k (ch '=') ∧
    (∀ c ∈ u.getLast?, c ≠ ch '=') ∧ (base64Encode bytes).length % 4 = 0 := by
  induction bytes using base64Encode.induct with
  | case1 a b c more ih =>
    have ha := a.isLt
    have hb := b.isLt
    have hc := c.isLt
    obtain ⟨u, k, hk, hsplit, hu, hlength⟩ := ih
    refine ⟨base64Digit (a.val / 4) :: base64Digit (a.val % 4 * 16 + b.val / 16) ::
      base64Digit (b.val % 16 * 4 + c.val / 64) :: base64Digit (c.val % 64) :: u, k, hk, ?_, ?_, ?_⟩
    · rw [base64Encode, hsplit]
      rfl
    · cases u with
      | nil =>
        intro d hd
        obtain rfl := Option.some.inj hd
        exact base64Digit_ne (by omega)
      | cons => simpa using hu
    · simp only [base64Encode, List.length_cons]
      omega
  | case2 a b =>
    have hb := b.isLt
    refine ⟨[_, _, _], 1, by omega, rfl, fun d hd => ?_, by simp [base64Encode]⟩
    obtain rfl := Option.some.inj hd
    exact base64Digit_ne (by omega)
  | case3 a =>
    have ha := a.isLt
    refine ⟨[_, _], 2, by omega, rfl, fun d hd => ?_, by simp [base64Encode]⟩
    obtain rfl := Option.some.inj hd
    exact base64Digit_ne (by omega)
  | case4 => exact ⟨[], 0, by omega, rfl, nofun, rfl⟩

theorem fillUp_unfill (bytes : List Byte) : fillUp (unfill (base64Encode bytes)) = base64Encode bytes := by
  obtain ⟨u, k, hk, hsplit, hu, hlength⟩ := base64Encode_split bytes
  rw [hsplit] at hlength ⊢
  rw [unfill_append hu, fillUp_of_split hk hlength]

end AgentFabric.Lib
