import AgentFabric.Native.Redact
import AgentFabric.Domain

/-!
# Supervision of a native process

What a native adapter makes of the output of its process, line by line, and of the way in which the process ends.
-/

namespace AgentFabric.Native

open AgentFabric.Lib AgentFabric.Store.Redaction

/-! ## Decoding -/

/-- The replacement character. -/
def replacement : CodePoint := codePoint 0xFFFD

/-- The second bytes that may follow a first one. -/
def secondByte (a b : Byte) : Bool :=
  utf8Tail b && (decide (a.val ≠ 0xE0) || decide (0xA0 ≤ b.val)) && (decide (a.val ≠ 0xED) || decide (b.val < 0xA0)) &&
    (decide (a.val ≠ 0xF0) || decide (0x90 ≤ b.val)) && (decide (a.val ≠ 0xF4) || decide (b.val < 0x90))

/-- `bytes.decode("utf-8", errors="replace")`: the longest beginning of a character is replaced as one. -/
def utf8Replace : List Byte → Text
  | [] => []
  | a :: rest =>
    if a.val < 0x80 then codePoint a.val :: utf8Replace rest
    else if a.val < 0xC2 ∨ 0xF5 ≤ a.val then replacement :: utf8Replace rest
    else match rest with
    | [] => [replacement]
    | b :: rest =>
      if secondByte a b = false then replacement :: utf8Replace (b :: rest)
      else if a.val < 0xE0 then codePoint (utf8Value (a.val - 0xC0) [b]) :: utf8Replace rest
      else match rest with
      | [] => [replacement]
      | c :: rest =>
        if utf8Tail c = false then replacement :: utf8Replace (c :: rest)
        else if a.val < 0xF0 then codePoint (utf8Value (a.val - 0xE0) [b, c]) :: utf8Replace rest
        else match rest with
        | [] => [replacement]
        | d :: rest =>
          if utf8Tail d = false then replacement :: utf8Replace (d :: rest)
          else codePoint (utf8Value (a.val - 0xF0) [b, c, d]) :: utf8Replace rest

/-- An encoded character is read as such. -/
theorem utf8Replace_char {c : CodePoint} {bytes : List Byte} (h : utf8Char c = some bytes) (rest : List Byte) :
    utf8Replace (bytes ++ rest) = c :: utf8Replace rest := by
  have hlt := c.isLt
  have hc := codePoint_val c
  unfold utf8Char at h
  simp only at h
  split at h
  · next h1 =>
    cases h
    rw [List.singleton_append, utf8Replace.eq_def]
    simp only
    rw [byte_val (by omega), if_pos h1, hc]
  split at h
  · next h1 h2 =>
    cases h
    have hv := utf8Value_two h2
    have hsecond : secondByte (byte (0xC0 + c.val / 64)) (byte (0x80 + c.val % 64)) = true := by
      simp only [secondByte, utf8Tail_byte]
      rw [byte_val (by omega), byte_val (by omega)]
      simp
      omega
    rw [utf8Replace.eq_def]
    simp only [List.cons_append, List.nil_append]
    rw [hsecond, byte_val (by omega), if_neg (by omega), if_neg (by omega), if_neg (by simp), if_pos (by omega), hv, hc]
  split at h
  · cases h
  split at h
  · next h1 h2 hsurrogate h3 =>
    cases h
    simp only [CodePoint.surrogate, decide_eq_true_eq] at hsurrogate
    have hv := utf8Value_three (n := c.val) (by omega)
    have hsecond : secondByte (byte (0xE0 + c.val / 4096)) (byte (0x80 + c.val / 64 % 64)) = true := by
      simp only [secondByte, utf8Tail_byte]
      rw [byte_val (by omega), byte_val (by omega)]
      simp
      omega
    rw [utf8Replace.eq_def]
    simp only [List.cons_append, List.nil_append]
    rw [hsecond, utf8Tail_byte, byte_val (by omega), if_neg (by omega), if_neg (by omega), if_neg (by simp),
      if_neg (by omega), if_neg (by simp), if_pos (by omega), hv, hc]
  · next h1 h2 h3 h4 =>
    cases h
    have hv := utf8Value_four hlt
    have hsecond : secondByte (byte (0xF0 + c.val / 262144)) (byte (0x80 + c.val / 4096 % 64)) = true := by
      simp only [secondByte, utf8Tail_byte]
      rw [byte_val (by omega), byte_val (by omega)]
      simp
      omega
    rw [utf8Replace.eq_def]
    simp only [List.cons_append, List.nil_append]
    rw [hsecond, utf8Tail_byte, utf8Tail_byte, byte_val (by omega), if_neg (by omega), if_neg (by omega),
      if_neg (by simp), if_neg (by omega), if_neg (by simp), if_neg (by omega), if_neg (by simp), hv, hc]

theorem utf8Replace_encode {text : Text} {bytes : List Byte} (h : utf8Encode text = some bytes) :
    utf8Replace bytes = text := by
  induction text generalizing bytes with
  | nil =>
    cases h
    rfl
  | cons c text ih =>
    simp only [utf8Encode, bind, Option.bind_eq_some_iff, pure, Option.some.injEq] at h
    obtain ⟨head, hhead, rest, hrest, rfl⟩ := h
    rw [utf8Replace_char hhead, ih hrest]

/-! ## Lines -/

/-- `rstrip("\r\n")` -/
def chomp (text : Text) : Text := text.rdropWhile fun c => decide (c = ch '\r' ∨ c = ch '\n')

/-- The line as it is kept; bad JSON is redacted as a text, and what else the reader of JSON raises is passed on. -/
def redactOutputLine (F : JsonFloats) (u : UnicodeTables) (text : Text) : Except (LoadError Empty) Text :=
  let ending := if text.getLast? = some (ch '\n') then lit "\n" else []
  let candidate := chomp text
  match loadsText F.toFloatFormat keepLast candidate with
  | .ok parsed =>
    match (wide F).renderBy (redact u parsed) with
    | some written => .ok (written ++ ending)
    | none => .error .digits
  | .error .decode => .ok (redactText u candidate ++ ending)
  | .error e => .error e

variable {F : JsonFloats} {u : UnicodeTables} {text : Text}

theorem chomp_append {s : Text} {c : CodePoint} (hc : c ≠ ch '\r' ∧ c ≠ ch '\n') (ending : Text)
    (hending : ending = [] ∨ ending = lit "\n") : chomp (s ++ [c] ++ ending) = s ++ [c] := by
  have hlast : chomp (s ++ [c]) = s ++ [c] := List.rdropWhile_concat_neg _ _ _ (by simpa using hc)
  rcases hending with rfl | rfl
  · rwa [List.append_nil]
  · exact (List.rdropWhile_concat_pos _ _ _ (by decide)).trans hlast

theorem chomp_subset (text : Text) : ∀ c ∈ chomp text, c ∈ text := fun _ hc => (List.rdropWhile_prefix _ _).subset hc

/-- White space is no value of JSON. -/
theorem loadsText_blank {ε : Type} {G : FloatFormat} {hook : List (Text × Value G.Val) → Except ε (Value G.Val)}
    (h : ∀ c ∈ text, Lib.isSpace c = true) : loadsText G hook text = .error .decode := by
  have hskip : ∀ c ∈ skipSpace text, Lib.isSpace c = true := by
    induction text with
    | nil => rintro _ ⟨⟩
    | cons c text ih =>
      rw [skipSpace]
      split
      · exact ih fun d hd => h d (List.mem_cons_of_mem _ hd)
      · exact h
  unfold loadsText
  cases hs : skipSpace text with
  | nil => simp [scanOnce, bind, Except.bind]
  | cons c t =>
    have hc := hskip c (by rw [hs]; exact List.mem_cons_self)
    have hne : ∀ d, Lib.isSpace d = false → c ≠ d := by
      rintro d hd rfl
      rw [hc] at hd
      cases hd
    have hdigit : isDigit c = false := by
      simp only [Lib.isSpace, decide_eq_true_eq] at hc
      simp only [isDigit, decide_eq_false_iff_not]
      omega
    have hword : ∀ (w : Char) (word : Text), Lib.isSpace (ch w) = false → scanWord (ch w :: word) (c :: t) = none :=
      fun w word hw => scanWord_head (hne (ch w) hw).symm t
    have h₁ : scanWord (lit "null") (c :: t) = none := hword 'n' _ (by decide)
    have h₂ : scanWord (lit "true") (c :: t) = none := hword 't' _ (by decide)
    have h₃ : scanWord (lit "false") (c :: t) = none := hword 'f' _ (by decide)
    have h₄ : scanWord (lit "NaN") (c :: t) = none := hword 'N' _ (by decide)
    have h₅ : scanWord (lit "Infinity") (c :: t) = none := hword 'I' _ (by decide)
    have h₆ : scanWord (lit "-Infinity") (c :: t) = none := hword '-' _ (by decide)
    simp [scanOnce, scanConstant, scanNumber, scanSign, scanInt, h₁, h₂, h₃, h₄, h₅, h₆, hdigit,
      hne (ch '"') (by decide), hne (ch '{') (by decide), hne (ch '[') (by decide), hne (ch '-') (by decide),
      hne (ch '0') (by decide), bind, Except.bind]

theorem renderBy_redact {v : Value F.Val} (h : loadsText F.toFloatFormat keepLast text = .ok v) :
    ∃ written, (wide F).renderBy (redact u v) = some written ∧
      loadsText F.toFloatFormat keepLast written = .ok (redact u v) := by
  have hsized : (redact u v).Sized := redact_sized v ((reads_sized F Empty).loadsText trivial h)
  obtain ⟨written, hw⟩ :=
    Option.isSome_iff_exists.mp (renderBy_isSome (S := wide F) (fun _ => rfl) _ hsized.tree hsized.ints)
  refine ⟨written, hw, loadsText_renderBy wide_legible (fun pairs hpairs => ?_) hsized.tree.read hw⟩
  rw [keepLast, objectOf_nodup hpairs]

theorem redactOutputLine_event {event : List (Text × Value F.Val)}
    (h : loadsText F.toFloatFormat keepLast (chomp text) = .ok (.dict event)) : ∃ line,
      redactOutputLine F u text = .ok line ∧ strip (chomp line) ≠ [] ∧
      loadsText F.toFloatFormat keepLast (chomp line) = .ok (.dict (redactEntries u event)) := by
  obtain ⟨written, hw, hread⟩ := renderBy_redact (u := u) h
  obtain ⟨inside, -, hinside⟩ :=
    Option.map_eq_some_iff.mp (show ((wide F).renderEntriesBy _).map _ = some written from hw)
  have hchomp : ∀ ending, ending = [] ∨ ending = lit "\n" → chomp (written ++ ending) = written := by
    intro ending hending
    rw [← hinside]
    exact chomp_append (by decide) ending hending
  refine ⟨written ++ if text.getLast? = some (ch '\n') then lit "\n" else [], ?_, ?_, ?_⟩
  · simp only [redactOutputLine, h, hw]
  · rw [hchomp _ (by split <;> simp)]
    intro hnil
    rw [← hinside] at hnil
    exact absurd (strip_eq_nil.mp hnil (ch '\x7b') (by simp)) (by decide)
  · rw [hchomp _ (by split <;> simp)]
    exact hread

theorem redactOutputLine_blank (h : ∀ c ∈ text, Lib.isSpace c = true) : ∃ line,
    redactOutputLine F u text = .ok line ∧ strip (chomp line) = [] := by
  have hchomp : ∀ c ∈ chomp text, Lib.isSpace c = true := fun c hc => h c (chomp_subset text c hc)
  refine ⟨chomp text ++ if text.getLast? = some (ch '\n') then lit "\n" else [], ?_, ?_⟩
  · simp only [redactOutputLine, loadsText_blank hchomp, redactText_blank hchomp]
  · rw [strip_eq_nil]
    intro c hc
    rcases List.mem_append.mp (chomp_subset _ c hc) with hc | hc
    · exact hchomp c hc
    · split at hc
      · rcases List.mem_singleton.mp hc with rfl
        decide
      · cases hc

theorem redactOutputLine_ok_iff : (∃ line, redactOutputLine F u text = .ok line) ↔
    loadsText F.toFloatFormat keepLast (chomp text) ≠ .error .digits := by
  cases hread : loadsText F.toFloatFormat keepLast (chomp text) with
  | ok =>
    obtain ⟨written, hw, -⟩ := renderBy_redact (u := u) hread
    simp [redactOutputLine, hread, hw]
  | error e =>
    cases e with
    | decode => simp [redactOutputLine, hread]
    | digits => simp [redactOutputLine, hread]
    | hook e => cases e
    | exhausted => exact absurd hread (loadsText_ne_exhausted _)

/-! ## The readers -/

structure Usage (F : JsonFloats) where
  inputTokens : Option Int
  outputTokens : Option Int
  cacheCreationTokens : Option Int
  cacheReadTokens : Option Int
  reasoningTokens : Option Int
  totalTokens : Option Int
  raw : List (Text × Value F.Val)

/-- `eventTypes` has the type of every event; `provider_event_counts` counts in it. -/
structure ParsedOutput (F : JsonFloats) where
  textFragments : List Text
  finalText : Option Text
  sessionId : Option Text
  usage : Usage F
  eventTypes : List Text
  terminalEventCount : Nat
  terminalError : Option String

def ParsedOutput.empty : ParsedOutput F where
  textFragments := []
  finalText := none
  sessionId := none
  usage := ⟨none, none, none, none, none, none, []⟩
  eventTypes := []
  terminalEventCount := 0
  terminalError := none

inductive Stream where
  | stdout | stderr
deriving DecidableEq

def Stream.name : Stream → String
  | .stdout => "stdout"
  | .stderr => "stderr"

structure Limits where
  maxStdoutBytes : Nat
  maxStderrBytes : Nat
  maxLineBytes : Nat
  maxOutputLines : Nat
  maxOutputEvents : Nat
  positive : 0 < maxStdoutBytes ∧ 0 < maxStderrBytes ∧ 0 < maxLineBytes ∧ 0 < maxOutputLines ∧ 0 < maxOutputEvents

def defaultLimits : Limits where
  maxStdoutBytes := 4 * 1024 * 1024
  maxStderrBytes := 1024 * 1024
  maxLineBytes := 64 * 1024
  maxOutputLines := 20000
  maxOutputEvents := 20000
  positive := by decide

def Limits.bytes (limits : Limits) : Stream → Nat
  | .stdout => limits.maxStdoutBytes
  | .stderr => limits.maxStderrBytes

/-- What a line of standard output is not read for. -/
inductive LineError where
  | json (error : LoadError Empty)
  | type (message : String)

def loadErrorName : LoadError Empty → String
  | .decode => "JSONDecodeError"
  | .digits => "ValueError"
  | _ => "RecursionError"

def LineError.name : LineError → String
  | .json e => loadErrorName e
  | .type _ => "TypeError"

/-- Why the output is rejected, with the text of `reject_output`. -/
def lineLimit (stream : Stream) (limits : Limits) : String :=
  "OUTPUT_LIMIT: " ++ stream.name ++ " line exceeded " ++ toString limits.maxLineBytes ++ " bytes"

def streamLimit (stream : Stream) (limits : Limits) : String :=
  "OUTPUT_LIMIT: " ++ stream.name ++ " exceeded " ++ toString (limits.bytes stream) ++ " captured bytes"

def linesLimit (limits : Limits) : String :=
  "OUTPUT_LIMIT: Worker emitted more than " ++ toString limits.maxOutputLines ++ " lines"

def eventsLimit (limits : Limits) : String :=
  "OUTPUT_LIMIT: Worker emitted more than " ++ toString limits.maxOutputEvents ++ " output events"

def captureFailed (stream : Stream) (error : LoadError Empty) : String :=
  "RESULT_INVALID: " ++ stream.name ++ " capture failed (" ++ loadErrorName error ++ ")"

def protocolFailed (error : LineError) : String :=
  "RESULT_INVALID: stdout did not match the registered adapter protocol (" ++ error.name ++ ")"

/-- What both readers share; a stream in `closed` is drained only. -/
structure Capture (F : JsonFloats) where
  parsed : ParsedOutput F
  stdout : Text
  stderr : Text
  bytes : Stream → Nat
  lines : Nat
  events : Nat
  closed : Stream → Bool
  failure : Option String

def Capture.start : Capture F where
  parsed := .empty
  stdout := []
  stderr := []
  bytes _ := 0
  lines := 0
  events := 0
  closed _ := false
  failure := none

/-- `reject_output` of a reader, which keeps the first failure. -/
def Capture.reject (st : Capture F) (stream : Stream) (failure : String) : Capture F where
  __ := st
  closed := Function.update st.closed stream true
  failure := st.failure.or (some failure)

def Capture.append (st : Capture F) (stream : Stream) (line : Text) : Capture F :=
  match stream with
  | .stdout => { st with stdout := st.stdout ++ line }
  | .stderr => { st with stderr := st.stderr ++ line }

/-- The adapter's `consume_stdout_line`; what it has counted before it raises is read no more. -/
abbrev Consumer (F : JsonFloats) := Text → ParsedOutput F → Except LineError (ParsedOutput F)

variable (u) in
/-- One line of a stream, as `read_stream` reads it. -/
def receive (limits : Limits) (consume : Consumer F) (st : Capture F) (received : Stream × List Byte) : Capture F :=
  let (stream, raw) := received
  if st.closed stream = true then st
  else if limits.maxLineBytes < raw.length then st.reject stream (lineLimit stream limits)
  else
    let st := { st with bytes := Function.update st.bytes stream (st.bytes stream + raw.length) }
    if limits.bytes stream < st.bytes stream then st.reject stream (streamLimit stream limits)
    else
      let st := { st with lines := st.lines + 1 }
      if limits.maxOutputLines < st.lines then st.reject stream (linesLimit limits)
      else
        match redactOutputLine F u (utf8Replace raw) with
        | .error e => st.reject stream (captureFailed stream e)
        | .ok line =>
          let st := st.append stream line
          match (if stream = .stdout then consume (chomp line) st.parsed else .ok st.parsed) with
          | .error e => st.reject stream (protocolFailed e)
          | .ok parsed =>
            let st := { st with parsed := parsed, events := st.events + 1 }
            if limits.maxOutputEvents < st.events then st.reject stream (eventsLimit limits) else st

def linesOf (stream : Stream) (received : List (Stream × List Byte)) : List (List Byte) :=
  received.filterMap fun l => if l.1 = stream then some l.2 else none

/-- The captured output is within the limits. -/
structure Fits (limits : Limits) (received : List (Stream × List Byte)) : Prop where
  line : ∀ l ∈ received, l.2.length ≤ limits.maxLineBytes
  bytes : ∀ stream, ((linesOf stream received).map List.length).sum ≤ limits.bytes stream
  lines : received.length ≤ limits.maxOutputLines
  events : received.length ≤ limits.maxOutputEvents

/-- The adapter reads the lines of standard output one after the other. -/
def consumeAll (F : JsonFloats) (u : UnicodeTables) (consume : Consumer F) (parsed : ParsedOutput F) :
    List (List Byte) → Option (ParsedOutput F)
  | [] => some parsed
  | raw :: rest =>
    match redactOutputLine F u (utf8Replace raw) with
    | .error _ => none
    | .ok line =>
      match consume (chomp line) parsed with
      | .error _ => none
      | .ok next => consumeAll F u consume next rest

/-- A line that can be kept. -/
def Kept (F : JsonFloats) (raw : List Byte) : Prop :=
  loadsText F.toFloatFormat keepLast (chomp (utf8Replace raw)) ≠ .error .digits

/-- What is left to the readers. -/
structure Capture.Room (st : Capture F) (limits : Limits) (received : List (Stream × List Byte)) : Prop where
  opened : ∀ stream, st.closed stream = false
  failure : st.failure = none
  line : ∀ l ∈ received, l.2.length ≤ limits.maxLineBytes
  bytes : ∀ stream, st.bytes stream + ((linesOf stream received).map List.length).sum ≤ limits.bytes stream
  lines : st.lines + received.length ≤ limits.maxOutputLines
  events : st.events + received.length ≤ limits.maxOutputEvents

variable {limits : Limits} {consume : Consumer F} {st : Capture F} {l : Stream × List Byte}
  {received : List (Stream × List Byte)}

theorem Capture.reject_failure (st : Capture F) (stream : Stream) (failure : String) :
    (st.reject stream failure).failure ≠ none := by
  cases h : st.failure <;> simp [reject, h]

theorem receive_failure (h : st.failure ≠ none) : (receive u limits consume st l).failure ≠ none := by
  obtain ⟨stream, raw⟩ := l
  have happend : ∀ (st : Capture F) (line : Text), (st.append stream line).failure = st.failure := by
    intro st line
    cases stream <;> rfl
  unfold receive
  simp only
  repeat' split
  all_goals first | exact Capture.reject_failure _ _ _ | simpa only [happend] using h

theorem foldl_failure (h : st.failure ≠ none) : (received.foldl (receive u limits consume) st).failure ≠ none := by
  induction received generalizing st with
  | nil => exact h
  | cons l received ih => exact ih (receive_failure h)

theorem linesOf_cons (stream : Stream) (l : Stream × List Byte) (received : List (Stream × List Byte)) : linesOf
    stream (l :: received) = if l.1 = stream then l.2 :: linesOf stream received else linesOf stream received := by
  by_cases h : l.1 = stream <;> simp [linesOf, h]

theorem Capture.Room.checks (h : st.Room limits (l :: received)) : l.2.length ≤ limits.maxLineBytes ∧
    st.bytes l.1 + l.2.length ≤ limits.bytes l.1 ∧ st.lines + 1 ≤ limits.maxOutputLines ∧
    st.events + 1 ≤ limits.maxOutputEvents := by
  have hbytes := h.bytes l.1
  have hlines := h.lines
  have hevents := h.events
  simp only [linesOf_cons, if_true, List.map_cons, List.sum_cons, List.length_cons] at hbytes hlines hevents
  exact ⟨h.line l List.mem_cons_self, by omega, by omega, by omega⟩

/-- A line that is kept, and of standard output is understood. -/
theorem receive_room (h : st.Room limits (l :: received)) {line : Text} {parsed : ParsedOutput F}
    (hline : redactOutputLine F u (utf8Replace l.2) = .ok line)
    (hparsed : (if l.1 = .stdout then consume (chomp line) st.parsed else .ok st.parsed) = .ok parsed) :
    (receive u limits consume st l).Room limits received ∧ (receive u limits consume st l).parsed = parsed := by
  obtain ⟨hlen, hbytes, hlines, hevents⟩ := h.checks
  have happend : ∀ st : Capture F, (st.append l.1 line).parsed = st.parsed ∧ (st.append l.1 line).events = st.events ∧
      (st.append l.1 line).closed = st.closed ∧ (st.append l.1 line).failure = st.failure ∧
      (st.append l.1 line).bytes = st.bytes ∧ (st.append l.1 line).lines = st.lines := by
    intro st
    cases l.1 <;> exact ⟨rfl, rfl, rfl, rfl, rfl, rfl⟩
  have hreceive : receive u limits consume st l = { st.append l.1 line with
      bytes := Function.update st.bytes l.1 (st.bytes l.1 + l.2.length)
      lines := st.lines + 1
      parsed := parsed
      events := st.events + 1 } := by
    obtain ⟨stream, raw⟩ := l
    simp only at *
    simp only [receive, h.opened, Bool.false_eq_true, if_false, Function.update_self, hline]
    rw [if_neg (by omega), if_neg (by omega), if_neg (by omega)]
    simp only [happend, hparsed]
    rw [if_neg (by omega)]
    cases stream <;> rfl
  rw [hreceive]
  refine ⟨⟨?_, ?_, fun m hm => h.line m (List.mem_cons_of_mem _ hm), fun stream => ?_, ?_, ?_⟩, rfl⟩
  · simpa only [happend] using h.opened
  · simpa only [happend] using h.failure
  · have hstream := h.bytes stream
    rw [linesOf_cons] at hstream
    by_cases hl : l.1 = stream
    · subst hl
      simp only [if_true, List.map_cons, List.sum_cons] at hstream
      simp only [Function.update_self]
      omega
    · rw [if_neg hl] at hstream
      simpa only [Function.update_of_ne (Ne.symm hl)] using hstream
  · have := h.lines
    simp only [List.length_cons] at this
    show st.lines + 1 + received.length ≤ _
    omega
  · have := h.events
    simp only [List.length_cons] at this
    show st.events + 1 + received.length ≤ _
    omega

theorem receive_lost (h : st.Room limits (l :: received)) {e : LoadError Empty}
    (hline : redactOutputLine F u (utf8Replace l.2) = .error e) : (receive u limits consume st l).failure ≠ none := by
  obtain ⟨hlen, hbytes, hlines, -⟩ := h.checks
  obtain ⟨stream, raw⟩ := l
  simp only at *
  simp only [receive, h.opened, Bool.false_eq_true, if_false, Function.update_self, hline]
  rw [if_neg (by omega), if_neg (by omega), if_neg (by omega)]
  exact Capture.reject_failure _ _ _

/-- **Both readers, in any order of the lines.** When the adapter understands standard output, the capture fails
exactly when a line of standard error cannot be kept, and else has what the adapter read. -/
theorem receive_run {parsed : ParsedOutput F} (h : st.Room limits received)
    (hout : consumeAll F u consume st.parsed (linesOf .stdout received) = some parsed) :
    ((received.foldl (receive u limits consume) st).failure = none ↔ ∀ raw ∈ linesOf .stderr received, Kept F raw) ∧
      ((received.foldl (receive u limits consume) st).failure = none →
        (received.foldl (receive u limits consume) st).parsed = parsed) := by
  induction received generalizing st with
  | nil => exact ⟨iff_of_true h.failure (by rintro _ ⟨⟩), fun _ => Option.some.inj hout⟩
  | cons l received ih =>
    obtain ⟨stream, raw⟩ := l
    rw [List.foldl_cons]
    cases stream with
    | stdout =>
      rw [linesOf_cons, if_pos rfl, consumeAll] at hout
      rw [linesOf_cons, if_neg (by simp)]
      split at hout
      · cases hout
      · next line hline =>
        split at hout
        · cases hout
        · next next hnext =>
          obtain ⟨hroom, hparsed⟩ := receive_room h hline ((if_pos rfl).trans hnext)
          rw [← hparsed] at hout
          exact ih hroom hout
    | stderr =>
      rw [linesOf_cons, if_neg (by simp)] at hout
      rw [linesOf_cons, if_pos rfl, List.forall_mem_cons]
      cases hline : redactOutputLine F u (utf8Replace raw) with
      | ok line =>
        have hkept : Kept F raw := redactOutputLine_ok_iff.mp ⟨line, hline⟩
        have hparsed : (if (Stream.stderr, raw).1 = .stdout then consume (chomp line) st.parsed else .ok st.parsed) =
            .ok st.parsed := if_neg (by simp)
        obtain ⟨hroom, hparsed⟩ := receive_room h hline hparsed
        rw [← hparsed] at hout
        simpa only [hkept, true_and] using ih hroom hout
      | error =>
        have hlost : (receive u limits consume st (Stream.stderr, raw)).failure ≠ none := receive_lost h hline
        have hfailure : (received.foldl (receive u limits consume) _).failure ≠ none := foldl_failure hlost
        refine ⟨iff_of_false hfailure fun hall => ?_, fun hnone => absurd hnone hfailure⟩
        obtain ⟨line, hok⟩ : ∃ line, redactOutputLine F u (utf8Replace raw) = .ok line :=
          redactOutputLine_ok_iff.mpr hall.1
        rw [hline] at hok
        cases hok

/-! ## The result -/

/-- How the process ends: `:g` of the timeout, whether descendants keep the pipes open, or stay alive. -/
structure Process where
  exitCode : Int
  timedOut : Bool
  cancelled : Bool
  timeout : String
  keptPipes : Bool
  liveGroup : Bool

def pipesLost : String := "PROCESS_LOST: Worker process tree kept output pipes open after leader exit"

def groupLost : String := "PROCESS_LOST: Worker left a live process in its execution group"

def validationFailed (error : String) : String :=
  "RESULT_INVALID: terminal output validation failed (" ++ error ++ ")"

structure WorkerResult (F : JsonFloats) where
  state : RunState
  exitCode : Int
  stdout : Text
  stderr : Text
  finalText : Text
  sessionId : Option Text
  usage : Usage F
  error : Option Text

/-- The adapter's `finalize_output` and `validate_output`: the output behind them, and the type of what they raise. -/
abbrev Finisher (F : JsonFloats) := ParsedOutput F → ParsedOutput F × Option String

variable (u) in
/-- `execute`, from the lines in the order in which they are read. -/
def execute (limits : Limits) (consume : Consumer F) (finish : Finisher F) (received : List (Stream × List Byte))
    (process : Process) : WorkerResult F :=
  let st := received.foldl (receive u limits consume) .start
  let failure := if process.keptPipes = true then st.failure.or (some pipesLost) else st.failure
  let failure := if process.liveGroup = true then failure.or (some groupLost) else failure
  let (parsed, raised) :=
    if failure = none ∧ process.exitCode = 0 ∧ process.timedOut = false ∧ process.cancelled = false then
      finish st.parsed
    else (st.parsed, none)
  let failure := failure.or (raised.map validationFailed)
  let (state, error) :=
    if process.timedOut = true then
      (RunState.timedOut, some (lit ("worker exceeded " ++ process.timeout ++ " second timeout")))
    else if process.cancelled = true then (.cancelled, some (lit "worker was cancelled"))
    else match failure with
    | some failure => (.failed, some (lit failure))
    | none =>
      if process.exitCode = 0 then (.completed, none)
      else if strip st.stderr = [] then
        (.failed, some (lit ("worker exited with status " ++ toString process.exitCode)))
      else (.failed, some (strip st.stderr))
  { state
    exitCode := process.exitCode
    stdout := st.stdout
    stderr := st.stderr
    finalText := parsed.finalText.getD []
    sessionId := parsed.sessionId
    usage := parsed.usage
    error := error.map (redactText u) }

/-- The process ends by itself, with exit code 0. -/
structure Process.Clean (process : Process) : Prop where
  exitCode : process.exitCode = 0
  timedOut : process.timedOut = false
  cancelled : process.cancelled = false
  keptPipes : process.keptPipes = false
  liveGroup : process.liveGroup = false

theorem execute_completed {finish : Finisher F} {process : Process} (h : process.Clean) :
    ((execute u limits consume finish received process).state = .completed ↔
      (received.foldl (receive u limits consume) .start).failure = none ∧
        (finish (received.foldl (receive u limits consume) .start).parsed).2 = none) ∧
    ((execute u limits consume finish received process).state = .completed →
      (execute u limits consume finish received process).finalText =
        (finish (received.foldl (receive u limits consume) .start).parsed).1.finalText.getD []) := by
  generalize hst : received.foldl (receive u limits consume) Capture.start = st
  simp only [execute, hst, h.keptPipes, h.liveGroup, h.exitCode, h.timedOut, h.cancelled, Bool.false_eq_true, if_false]
  cases hf : st.failure with
  | some => simp
  | none =>
    cases hfinish : finish st.parsed with
    | mk parsed raised => cases raised <;> simp

end AgentFabric.Native
