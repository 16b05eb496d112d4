import AgentFabric.Lib.JsonLeaves

/-!
# A reader of JSON with limits

The reader as a handler calls it: the words for numbers that are not finite raise, and so does nesting that is deeper
than the interpreter can follow. Where neither is met it is the plain reader.
-/

namespace AgentFabric.Lib

/-- What a text meets besides bad syntax. -/
inductive Fault where
  | constant
  | depth
deriving DecidableEq

section Scanner

variable (F : FloatFormat)

/-- The words of JSON; the words for numbers that are not finite raise. -/
def strictConstant (t : Text) : Option (Except (LoadError Fault) (Value F.Val × Text)) :=
  (scanConstant F t).map fun p =>
    match p.1 with
    | .float _ => .error (.hook .constant)
    | _ => .ok p

mutual

def strictOnce : Nat → Nat → Text → Except (LoadError Fault) (Value F.Val × Text)
  | 0, _, _ => .error .exhausted
  | _ + 1, _, [] => .error .decode
  | n + 1, limit, c :: t =>
    if c = ch '"' then
      match scanString t with
      | some (s, t) => .ok (.str s, t)
      | none => .error .decode
    else if c = ch '{' then
      if limit = 0 then .error (.hook .depth)
      else match skipSpace t with
      | [] => .error .decode
      | d :: u => do
        let (pairs, rest) ← if d = ch '}' then .ok ([], u) else strictPairs n (limit - 1) (d :: u)
        .ok (objectOf pairs, rest)
    else if c = ch '[' then
      if limit = 0 then .error (.hook .depth)
      else match skipSpace t with
      | [] => .error .decode
      | d :: u => do
        let (items, rest) ← if d = ch ']' then .ok ([], u) else strictItems n (limit - 1) (d :: u)
        .ok (.list items, rest)
    else
      match strictConstant F (c :: t) with
      | some p => p
      | none =>
        match scanNumber (c :: t) with
        | some (m, rest) => do
          let v ← numberValue F m
          .ok (v, rest)
        | none => .error .decode

/-- The items of an array, up to its bracket. -/
def strictItems : Nat → Nat → Text → Except (LoadError Fault) (List (Value F.Val) × Text)
  | 0, _, _ => .error .exhausted
  | n + 1, limit, t => do
    let (v, t) ← strictOnce n limit t
    match skipSpace t with
    | [] => .error .decode
    | c :: t =>
      if c = ch ']' then .ok ([v], t)
      else if c = ch ',' then do
        let (items, rest) ← strictItems n limit (skipSpace t)
        .ok (v :: items, rest)
      else .error .decode

/-- The pairs of an object, up to its brace. -/
def strictPairs : Nat → Nat → Text → Except (LoadError Fault) (List (Text × Value F.Val) × Text)
  | 0, _, _ => .error .exhausted
  | _ + 1, _, [] => .error .decode
  | n + 1, limit, q :: t =>
    if q = ch '"' then
      match scanString t with
      | none => .error .decode
      | some (key, t) =>
        match skipSpace t with
        | [] => .error .decode
        | colon :: t =>
          if colon = ch ':' then do
            let (v, t) ← strictOnce n limit (skipSpace t)
            match skipSpace t with
            | [] => .error .decode
            | c :: t =>
              if c = ch '}' then .ok ([(key, v)], t)
              else if c = ch ',' then do
                let (pairs, rest) ← strictPairs n limit (skipSpace t)
                .ok ((key, v) :: pairs, rest)
              else .error .decode
          else .error .decode
    else .error .decode

end

/-- `json.loads` of a text, with a `parse_constant` that raises, `limit` brackets deep at most. -/
def strictLoads (limit : Nat) (t : Text) : Except (LoadError Fault) (Value F.Val) := do
  let (v, rest) ← strictOnce F (2 * t.length + 2) limit (skipSpace t)
  if skipSpace rest = [] then .ok v else .error .decode

end Scanner

/-! ## The plain reader -/

section Agreement

variable {F : FloatFormat} {α β : Type}

/-- The hook of the plain reader. -/
def objectHook (pairs : List (Text × Value F.Val)) : Except Fault (Value F.Val) := .ok (objectOf pairs)

/-- The same, but for the faults of the first. -/
def Agrees (r r' : Except (LoadError Fault) α) : Prop := (∃ f, r = .error (.hook f)) ∨ r = r'

theorem Agrees.same (r : Except (LoadError Fault) α) : Agrees r r := Or.inr rfl

theorem Agrees.bind {r r' : Except (LoadError Fault) α} {f f' : α → Except (LoadError Fault) β} (h : Agrees r r')
    (hf : ∀ a, Agrees (f a) (f' a)) : Agrees (r >>= f) (r' >>= f') := by
  rcases h with ⟨e, rfl⟩ | rfl
  · exact Or.inl ⟨e, rfl⟩
  · cases r with
    | error => exact Agrees.same _
    | ok a => exact hf a

/-- One scan with limits agrees with that of the plain reader. -/
structure StrictAgrees (F : FloatFormat) (n : Nat) : Prop where
  value : ∀ limit t, Agrees (strictOnce F n limit t) (scanOnce F objectHook n t)
  items : ∀ limit t, Agrees (strictItems F n limit t) (scanItems F objectHook n t)
  pairs : ∀ limit t, Agrees (strictPairs F n limit t) (scanPairs F objectHook n t)

variable {n : Nat}

theorem StrictAgrees.scanOnce_succ (h : StrictAgrees F n) (limit : Nat) (t : Text) :
    Agrees (strictOnce F (n + 1) limit t) (scanOnce F objectHook (n + 1) t) := by
  cases t with
  | nil =>
    simp only [strictOnce, scanOnce]
    exact Agrees.same _
  | cons c t =>
    simp only [strictOnce, scanOnce]
    split
    · exact Agrees.same _
    split
    · split
      · exact Or.inl ⟨_, rfl⟩
      · cases skipSpace t with
        | nil => exact Agrees.same _
        | cons =>
          dsimp only
          split
          · exact Agrees.same _
          · exact Agrees.bind (h.pairs _ _) fun p => Agrees.same _
    split
    · split
      · exact Or.inl ⟨_, rfl⟩
      · cases skipSpace t with
        | nil => exact Agrees.same _
        | cons =>
          dsimp only
          split
          · exact Agrees.same _
          · exact Agrees.bind (h.items _ _) fun p => Agrees.same _
    · rw [strictConstant]
      cases scanConstant F (c :: t) with
      | none => exact Agrees.same _
      | some p =>
        obtain ⟨v, rest⟩ := p
        cases v with
        | float => exact Or.inl ⟨_, rfl⟩
        | _ => exact Agrees.same _

theorem StrictAgrees.scanItems_succ (h : StrictAgrees F n) (limit : Nat) (t : Text) :
    Agrees (strictItems F (n + 1) limit t) (scanItems F objectHook (n + 1) t) := by
  simp only [strictItems, scanItems]
  refine Agrees.bind (h.value _ _) fun p => ?_
  cases skipSpace p.2 with
  | nil => exact Agrees.same _
  | cons =>
    dsimp only
    split
    · exact Agrees.same _
    split
    · exact Agrees.bind (h.items _ _) fun p => Agrees.same _
    · exact Agrees.same _

theorem StrictAgrees.scanPairs_succ (h : StrictAgrees F n) (limit : Nat) (t : Text) :
    Agrees (strictPairs F (n + 1) limit t) (scanPairs F objectHook (n + 1) t) := by
  cases t with
  | nil =>
    simp only [strictPairs, scanPairs]
    exact Agrees.same _
  | cons q t =>
    simp only [strictPairs, scanPairs]
    split
    · cases scanString t with
      | none => exact Agrees.same _
      | some p =>
        obtain ⟨key, u⟩ := p
        dsimp only
        cases skipSpace u with
        | nil => exact Agrees.same _
        | cons =>
          dsimp only
          split
          · refine Agrees.bind (h.value _ _) fun p => ?_
            cases skipSpace p.2 with
            | nil => exact Agrees.same _
            | cons =>
              dsimp only
              split
              · exact Agrees.same _
              split
              · exact Agrees.bind (h.pairs _ _) fun p => Agrees.same _
              · exact Agrees.same _
          · exact Agrees.same _
    · exact Agrees.same _

theorem strict_agrees (n : Nat) : StrictAgrees F n := by
  induction n with
  | zero =>
    refine ⟨fun limit t => ?_, fun limit t => ?_, fun limit t => ?_⟩
    · simp only [strictOnce, scanOnce]
      exact Agrees.same _
    · simp only [strictItems, scanItems]
      exact Agrees.same _
    · simp only [strictPairs, scanPairs]
      exact Agrees.same _
  | succ n ih => exact ⟨ih.scanOnce_succ, ih.scanItems_succ, ih.scanPairs_succ⟩

/-- **The reader with limits** fails by one of its faults, or reads what the plain reader reads. -/
theorem strictLoads_agrees (limit : Nat) (t : Text) : Agrees (strictLoads F limit t) (loadsText F objectHook t) :=
  Agrees.bind ((strict_agrees _).value _ _) fun _ => Agrees.same _

theorem strictLoads_ok {limit : Nat} {t : Text} {v : Value F.Val} (h : strictLoads F limit t = .ok v) :
    loadsText F objectHook t = .ok v := by
  rcases strictLoads_agrees limit t with ⟨f, hf⟩ | hsame
  · rw [hf] at h
    cases h
  · rw [← hsame, h]

end Agreement

theorem strictLoads_sized {F : JsonFloats} {limit : Nat} {t : Text} {v : Value F.Val}
    (h : strictLoads F.toFloatFormat limit t = .ok v) : v.Sized :=
  (reads_sized F Fault).loadsText trivial (strictLoads_ok h)

end AgentFabric.Lib
