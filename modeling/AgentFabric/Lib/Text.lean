import Mathlib.Data.List.Basic
import Mathlib.Data.List.TakeWhile
import Mathlib.Tactic.Ring

/-!
# Text and its encodings

A text is a list of code points, lone surrogates included; a file or a message is a list of bytes.
-/

namespace AgentFabric.Lib

abbrev CodePoint := Fin 0x110000

abbrev Text := List CodePoint

-- membership in a list of texts rests on these two
instance : LawfulBEq CodePoint := inferInstance

instance : LawfulBEq Text := inferInstance

abbrev Byte := Fin 256

def codePoint (n : Nat) : CodePoint := Fin.ofNat _ n

def byte (n : Nat) : Byte := Fin.ofNat _ n

def ch (c : Char) : CodePoint := codePoint c.toNat

def lit (s : String) : Text := s.toList.map ch

def CodePoint.surrogate (c : CodePoint) : Bool := decide (0xD800 ≤ c.val ∧ c.val < 0xE000)

theorem codePoint_val (c : CodePoint) : codePoint c.val = c := by
  ext
  exact Nat.mod_eq_of_lt c.isLt

theorem byte_val {n : Nat} (h : n < 256) : (byte n).val = n := Nat.mod_eq_of_lt h

/-! ## UTF-8 -/

def utf8Char (c : CodePoint) : Option (List Byte) :=
  let n := c.val
  if n < 0x80 then some [byte n]
  else if n < 0x800 then some [byte (0xC0 + n / 64), byte (0x80 + n % 64)]
  else if c.surrogate then none
  else if n < 0x10000 then some [byte (0xE0 + n / 4096), byte (0x80 + n / 64 % 64), byte (0x80 + n % 64)]
  else some [byte (0xF0 + n / 262144), byte (0x80 + n / 4096 % 64), byte (0x80 + n / 64 % 64), byte (0x80 + n % 64)]

/-- UTF-8, which refuses a surrogate. -/
def utf8Encode : Text → Option (List Byte)
  | [] => some []
  | c :: t => do
    let bytes ← utf8Char c
    let rest ← utf8Encode t
    return bytes ++ rest

/-- A continuation byte. -/
def utf8Tail (b : Byte) : Bool := decide (0x80 ≤ b.val ∧ b.val < 0xC0)

/-- The number that a first byte and its continuation bytes stand for. -/
def utf8Value (first : Nat) (tail : List Byte) : Nat := tail.foldl (fun n b => n * 64 + (b.val - 0x80)) first

/-- UTF-8 with `surrogatepass`: an encoded surrogate is read as such, an overlong form is refused. -/
def utf8Decode : List Byte → Option Text
  | [] => some []
  | a :: rest =>
    if a.val < 0x80 then (utf8Decode rest).map (codePoint a.val :: ·)
    else match rest with
    | [] => none
    | b :: rest =>
      if 0xC2 ≤ a.val ∧ a.val < 0xE0 ∧ utf8Tail b then
        (utf8Decode rest).map (codePoint (utf8Value (a.val - 0xC0) [b]) :: ·)
      else match rest with
      | [] => none
      | c :: rest =>
        if 0xE0 ≤ a.val ∧ a.val < 0xF0 ∧ utf8Tail b ∧ utf8Tail c ∧ 0x800 ≤ utf8Value (a.val - 0xE0) [b, c] then
          (utf8Decode rest).map (codePoint (utf8Value (a.val - 0xE0) [b, c]) :: ·)
        else match rest with
        | [] => none
        | d :: rest =>
          if 0xF0 ≤ a.val ∧ utf8Tail b ∧ utf8Tail c ∧ utf8Tail d ∧ 0x10000 ≤ utf8Value (a.val - 0xF0) [b, c, d] ∧
              utf8Value (a.val - 0xF0) [b, c, d] < 0x110000 then
            (utf8Decode rest).map (codePoint (utf8Value (a.val - 0xF0) [b, c, d]) :: ·)
          else none

theorem utf8Tail_byte (n : Nat) : utf8Tail (byte (0x80 + n % 64)) = true := by
  simp only [utf8Tail, decide_eq_true_eq]
  rw [byte_val (by omega)]
  omega

variable {bytes : List Byte}

theorem utf8Value_two {n : Nat} (h : n < 0x800) : utf8Value (0xC0 + n / 64 - 0xC0) [byte (0x80 + n % 64)] = n := by
  simp only [utf8Value, List.foldl]
  rw [byte_val (by omega)]
  omega

theorem utf8Value_three {n : Nat} (h : n < 0x10000) :
    utf8Value (0xE0 + n / 4096 - 0xE0) [byte (0x80 + n / 64 % 64), byte (0x80 + n % 64)] = n := by
  simp only [utf8Value, List.foldl]
  rw [byte_val (by omega), byte_val (by omega)]
  omega

theorem utf8Value_four {n : Nat} (h : n < 0x110000) :
    utf8Value (0xF0 + n / 262144 - 0xF0)
      [byte (0x80 + n / 4096 % 64), byte (0x80 + n / 64 % 64), byte (0x80 + n % 64)] = n := by
  simp only [utf8Value, List.foldl]
  rw [byte_val (by omega), byte_val (by omega), byte_val (by omega)]
  omega

/-- One encoded character is read back, whatever follows it. -/
theorem utf8Decode_char {c : CodePoint} (h : utf8Char c = some bytes) (rest : List Byte) :
    utf8Decode (bytes ++ rest) = (utf8Decode rest).map (c :: ·) := by
  have hlt := c.isLt
  have hc := codePoint_val c
  unfold utf8Char at h
  simp only at h
  split at h
  · next h1 =>
    cases h
    rw [utf8Decode.eq_def]
    simp only [List.cons_append, List.nil_append]
    rw [byte_val (by omega), if_pos h1, hc]
  split at h
  · next h1 h2 =>
    cases h
    have hv := utf8Value_two h2
    rw [utf8Decode.eq_def]
    simp only [List.cons_append, List.nil_append]
    rw [byte_val (by omega), if_neg (by omega), if_pos ⟨by omega, by omega, utf8Tail_byte _⟩, hv, hc]
  split at h
  · exact absurd h (by simp)
  split at h
  · next h1 h2 h3 h4 =>
    cases h
    have hv := utf8Value_three (n := c.val) (by omega)
    rw [utf8Decode.eq_def]
    simp only [List.cons_append, List.nil_append]
    rw [byte_val (by omega), if_neg (by omega), if_neg (by omega),
      if_pos ⟨by omega, by omega, utf8Tail_byte _, utf8Tail_byte _, by rw [hv]; omega⟩, hv, hc]
  · next h1 h2 h3 h4 =>
    cases h
    have hv := utf8Value_four hlt
    rw [utf8Decode.eq_def]
    simp only [List.cons_append, List.nil_append]
    rw [byte_val (by omega), if_neg (by omega), if_neg (by omega), if_neg (by omega),
      if_pos ⟨by omega, utf8Tail_byte _, utf8Tail_byte _, utf8Tail_byte _, by rw [hv]; omega, by rw [hv]; omega⟩, hv,
        hc]

theorem utf8Decode_encode {t : Text} (h : utf8Encode t = some bytes) :
    utf8Decode bytes = some t := by
  induction t generalizing bytes with
  | nil =>
    cases h
    rfl
  | cons c t ih =>
    simp only [utf8Encode, bind, Option.bind_eq_some_iff, pure, Option.some.injEq] at h
    obtain ⟨head, hhead, rest, hrest, rfl⟩ := h
    rw [utf8Decode_char hhead, ih hrest, Option.map_some]

theorem utf8Encode_injective {s t : Text} (hs : utf8Encode s = some bytes) (ht : utf8Encode t = some bytes) : s = t :=
  Option.some.inj ((utf8Decode_encode hs).symm.trans (utf8Decode_encode ht))

/-- UTF-8 as it is read without `surrogatepass`. -/
def utf8Strict (bytes : List Byte) : Option Text := (utf8Decode bytes).filter fun t => t.all fun c => !c.surrogate

theorem utf8Strict_encode {text text' : Text} (h : utf8Encode text = some bytes) (h' : utf8Strict bytes = some text') :
    text' = text := by
  obtain ⟨hdecode, -⟩ := Option.filter_eq_some_iff.mp h'
  exact Option.some.inj (hdecode.symm.trans (utf8Decode_encode h))

/-! ## UTF-16 and UTF-32 -/

/-- The number of a group of bytes, most significant first in `big` order. -/
def unit (big : Bool) (bytes : List Byte) : Nat :=
  (if big then bytes else bytes.reverse).foldl (fun n b => n * 256 + b.val) 0

def utf16Units (big : Bool) : List Byte → Option (List Nat)
  | [] => some []
  | [_] => none
  | a :: b :: rest => (utf16Units big rest).map (unit big [a, b] :: ·)

def highSurrogate (n : Nat) : Bool := decide (0xD800 ≤ n ∧ n < 0xDC00)

def lowSurrogate (n : Nat) : Bool := decide (0xDC00 ≤ n ∧ n < 0xE000)

/-- The code point of a surrogate pair. -/
def joined (high low : Nat) : CodePoint := codePoint (0x10000 + (high - 0xD800) * 0x400 + (low - 0xDC00))

/-- UTF-16 with `surrogatepass`: a surrogate that is not half of a pair stands for itself. -/
def joinPairs : List Nat → Text
  | [] => []
  | [n] => [codePoint n]
  | high :: low :: rest =>
    if highSurrogate high ∧ lowSurrogate low then joined high low :: joinPairs rest
    else codePoint high :: joinPairs (low :: rest)

def utf16Decode (big : Bool) (bytes : List Byte) : Option Text := (utf16Units big bytes).map joinPairs

def utf32Decode (big : Bool) : List Byte → Option Text
  | [] => some []
  | a :: b :: c :: d :: rest =>
    if unit big [a, b, c, d] < 0x110000 then
      (utf32Decode big rest).map (codePoint (unit big [a, b, c, d]) :: ·)
    else none
  | _ => none

/-! ## White space -/

/-- `str.isspace` for one code point. -/
def isSpace (c : CodePoint) : Bool :=
  let n := c.val
  decide ((9 ≤ n ∧ n ≤ 13) ∨ (28 ≤ n ∧ n ≤ 32) ∨ n = 0x85 ∨ n = 0xA0 ∨ n = 0x1680 ∨ (0x2000 ≤ n ∧ n ≤ 0x200A) ∨
    n = 0x2028 ∨ n = 0x2029 ∨ n = 0x202F ∨ n = 0x205F ∨ n = 0x3000)

def strip (t : Text) : Text := ((t.dropWhile isSpace).reverse.dropWhile isSpace).reverse

theorem strip_eq_nil {t : Text} : strip t = [] ↔ ∀ c ∈ t, isSpace c = true := by
  unfold strip
  rw [List.reverse_eq_nil_iff, List.dropWhile_eq_nil_iff]
  constructor
  · intro h
    rw [← List.dropWhile_eq_nil_iff]
    by_contra hne
    have hhead := List.head_dropWhile_not isSpace hne
    rw [h _ (List.mem_reverse.mpr (List.head_mem hne))] at hhead
    cases hhead
  · intro h c hc
    exact h c ((List.dropWhile_sublist _).subset (List.mem_reverse.mp hc))

end AgentFabric.Lib
