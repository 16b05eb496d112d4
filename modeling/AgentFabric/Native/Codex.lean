import AgentFabric.Native.Capture

/-!
# Codex agreement

The adapter of the Codex CLI reads a stream of JSON events and a file with the last message, and compares the two.
-/

namespace AgentFabric.Native.Codex

open AgentFabric.Lib AgentFabric.Store.Redaction AgentFabric.Native

/-! ## The adapter -/

variable {φ : Type} {F : JsonFloats} {u : UnicodeTables}

def integer (mapping : List (Text × Value φ)) (key : String) : Option Int :=
  match mapping.lookup (lit key) with
  | some (.int n) => if 0 ≤ n then some n else none
  | _ => none

/-- A string that is not blank. -/
def words : Option (Value φ) → Option Text
  | some (.str s) => if strip s = [] then none else some s
  | _ => none

def itemEvents : List Text := [lit "item.started", lit "item.updated", lit "item.completed"]

def consumeItem (eventType : Text) (item : Option (Value F.Val)) (parsed : ParsedOutput F) :
    Except LineError (ParsedOutput F) :=
  match item with
  | some (.dict item) =>
    match words (item.lookup (lit "id")) with
    | none => .error (.type "Codex item event requires an item id")
    | some _ =>
      match words (item.lookup (lit "type")) with
      | none => .error (.type "Codex item event requires an item type")
      | some itemType =>
        if eventType = lit "item.completed" ∧ itemType = lit "agent_message" then
          match words (item.lookup (lit "text")) with
          | none => .error (.type "Codex agent_message requires non-empty text")
          | some text => .ok { parsed with textFragments := parsed.textFragments ++ [text] }
        else if eventType = lit "item.completed" ∧ itemType = lit "error" then
          .ok { parsed with terminalError := some "Codex reported an error item" }
        else .ok parsed
  | _ => .error (.type "Codex item event requires an item object")

def consumeUsage (u : UnicodeTables) (usage : Option (Value F.Val)) (parsed : ParsedOutput F) :
    Except LineError (ParsedOutput F) :=
  match usage with
  | none | some .none => .ok parsed
  | some (.dict usage) =>
    let inputTokens := integer usage "input_tokens"
    let outputTokens := integer usage "output_tokens"
    .ok { parsed with usage := {
      inputTokens := inputTokens
      outputTokens := outputTokens
      cacheCreationTokens := integer usage "cache_write_input_tokens"
      cacheReadTokens := integer usage "cached_input_tokens"
      reasoningTokens := integer usage "reasoning_output_tokens"
      totalTokens := inputTokens.bind fun i => outputTokens.map fun o => i + o
      raw := [(lit "executionSource", .str (lit "codex-cli")), (lit "accountSource", .str (lit "unknown")),
        (lit "usage", .dict (redactEntries u usage))] } }
  | _ => .error (.type "Codex turn.completed usage must be an object")

def consumeEvent (u : UnicodeTables) (event : Value F.Val) (parsed : ParsedOutput F) :
    Except LineError (ParsedOutput F) :=
  match event with
  | .dict event =>
    match words (event.lookup (lit "type")) with
    | none => .error (.type "Codex event type must be a non-empty string")
    | some eventType =>
      let parsed := { parsed with eventTypes := parsed.eventTypes ++ [eventType] }
      if eventType = lit "thread.started" then
        match words (event.lookup (lit "thread_id")) with
        | none => .error (.type "Codex thread.started requires a thread_id")
        | some threadId => .ok { parsed with sessionId := some threadId }
      else if eventType ∈ itemEvents then consumeItem eventType (event.lookup (lit "item")) parsed
      else if eventType = lit "turn.completed" then
        consumeUsage u (event.lookup (lit "usage"))
          { parsed with terminalEventCount := parsed.terminalEventCount + 1 }
      else if eventType = lit "turn.failed" ∨ eventType = lit "error" then
        .ok { parsed with terminalError := some "Codex reported a terminal execution error" }
      else .ok parsed
  | _ => .error (.type "Codex event must be a JSON object")

def consumeStdoutLine (F : JsonFloats) (u : UnicodeTables) : Consumer F := fun line parsed =>
  if strip line = [] then .ok parsed
  else match loadsText F.toFloatFormat keepLast line with
  | .error e => .error (.json e)
  | .ok event => consumeEvent u event parsed

/-- The file of the last message, as it is found. -/
inductive ResultFile where
  | unavailable
  | missing
  | unreadable (error : String)
  | irregular
  | exposed
  | content (bytes : List Byte)

/-- The validator of a response schema, and the type of what it raises. -/
abbrev Schema := Text → Except String Unit

def finalizeOutput (maxFinalMessageBytes : Nat) (schema : Option Schema) (file : ResultFile) (parsed : ParsedOutput F) :
    Except String (ParsedOutput F) :=
  match file with
  | .unavailable => .error "Codex terminal result path is unavailable"
  | .irregular => .error "Codex terminal result is not a regular file"
  | .exposed => .error "Codex terminal result has unsafe ownership or mode"
  | .missing => .error "Codex terminal result is missing"
  | .unreadable e => .error ("Codex terminal result cannot be read (" ++ e ++ ")")
  | .content raw =>
    if maxFinalMessageBytes < raw.length then .error "Codex terminal result exceeds its capture limit"
    else match utf8Strict raw with
    | none => .error "Codex terminal result is not UTF-8"
    | some finalText =>
      if strip finalText = [] then .error "Codex terminal result is empty"
      else match schema.elim (.ok ()) fun validate => validate finalText with
      | .error e => .error ("Codex structured result validation failed (" ++ e ++ ")")
      | .ok () => .ok { parsed with finalText := some (strip finalText) }

def validateOutput (parsed : ParsedOutput F) : Except String Unit :=
  match parsed.terminalError with
  | some e => .error e
  | none =>
    if parsed.eventTypes.count (lit "thread.started") ≠ 1 then
      .error "Codex output requires exactly one thread.started event"
    else if parsed.eventTypes.count (lit "turn.started") ≠ 1 then
      .error "Codex output requires exactly one turn.started event"
    else if parsed.terminalEventCount ≠ 1 then .error "Codex output requires exactly one turn.completed event"
    else match parsed.textFragments with
    | [fragment] =>
      if strip fragment ≠ strip (parsed.finalText.getD []) then .error "Codex JSONL and terminal result disagree"
      else if strip (parsed.finalText.getD []) = [] then .error "Codex terminal result is empty"
      else .ok ()
    | _ => .error "Codex output requires exactly one completed agent_message item"

/-- What both of them raise is a `WorkerProtocolError`. -/
def finish (maxFinalMessageBytes : Nat) (schema : Option Schema) (file : ResultFile) : Finisher F := fun parsed =>
  match finalizeOutput maxFinalMessageBytes schema file parsed with
  | .error _ => (parsed, some "WorkerProtocolError")
  | .ok parsed =>
    match validateOutput parsed with
    | .error _ => (parsed, some "WorkerProtocolError")
    | .ok () => (parsed, none)

/-- What a run of the CLI gives the adapter; the lines are in the order in which they are read. -/
structure Call where
  limits : Limits
  maxFinalMessageBytes : Nat
  schema : Option Schema
  received : List (Stream × List Byte)
  process : Process
  file : ResultFile

def Call.result (F : JsonFloats) (u : UnicodeTables) (call : Call) : WorkerResult F :=
  execute u call.limits (consumeStdoutLine F u) (finish call.maxFinalMessageBytes call.schema call.file) call.received
    call.process

/-- What the readers have at the end. -/
def Call.capture (F : JsonFloats) (u : UnicodeTables) (call : Call) : Capture F :=
  call.received.foldl (receive u call.limits (consumeStdoutLine F u)) .start

/-! ## Streams of events -/

def eventType : Value φ → Option Text
  | .dict event => words (event.lookup (lit "type"))
  | _ => none

def completedMessage : Value φ → Option Text
  | .dict event =>
    match event.lookup (lit "item") with
    | some (.dict item) =>
      if words (event.lookup (lit "type")) = some (lit "item.completed") ∧
          words (item.lookup (lit "type")) = some (lit "agent_message") then words (item.lookup (lit "text"))
      else none
    | _ => none
  | _ => none

/-- The item of an event, which reports no error; a completed message has a text. -/
structure WellFormedItem (type : Text) (item : List (Text × Value φ)) : Prop where
  id : (words (item.lookup (lit "id"))).isSome = true
  typed : (words (item.lookup (lit "type"))).isSome = true
  error : type = lit "item.completed" → words (item.lookup (lit "type")) ≠ some (lit "error")
  text : type = lit "item.completed" → words (item.lookup (lit "type")) = some (lit "agent_message") →
    (words (item.lookup (lit "text"))).isSome = true

/-- An event that reports no failure. -/
structure WellFormedFields (type : Text) (event : List (Text × Value φ)) : Prop where
  typed : words (event.lookup (lit "type")) = some type
  succeeds : type ≠ lit "turn.failed" ∧ type ≠ lit "error"
  thread : type = lit "thread.started" → (words (event.lookup (lit "thread_id"))).isSome = true
  item : type ∈ itemEvents → ∃ item, event.lookup (lit "item") = some (.dict item) ∧ WellFormedItem type item
  usage : type = lit "turn.completed" → event.lookup (lit "usage") = none ∨ event.lookup (lit "usage") = some .none ∨
    ∃ usage, event.lookup (lit "usage") = some (.dict usage)

def WellFormed (v : Value φ) : Prop := ∃ type event, v = .dict event ∧ WellFormedFields type event

/-- The lines of a stream of events, blank ones among them. -/
inductive Emits (F : JsonFloats) : List (List Byte) → List (Value F.Val) → Prop where
  | nil : Emits F [] []
  | blank {raw : List Byte} {lines : List (List Byte)} {events : List (Value F.Val)}
      (h : ∀ c ∈ utf8Replace raw, Lib.isSpace c = true) (rest : Emits F lines events) : Emits F (raw :: lines) events
  | event {raw : List Byte} {lines : List (List Byte)} {v : Value F.Val} {events : List (Value F.Val)}
      (h : loadsText F.toFloatFormat keepLast (chomp (utf8Replace raw)) = .ok v) (rest : Emits F lines events) :
      Emits F (raw :: lines) (v :: events)

/-- The CLI succeeds with a message: a well-formed stream with one completed message of this text, within the limits,
the same text in the file of the last message, and exit code 0. -/
structure Agrees (call : Call) (text : Text) (events : List (Value F.Val)) : Prop where
  clean : call.process.Clean
  fits : Fits call.limits call.received
  emits : Emits F (linesOf .stdout call.received) events
  wellFormed : ∀ v ∈ events, WellFormed v
  threadStarted : (events.filterMap eventType).count (lit "thread.started") = 1
  turnStarted : (events.filterMap eventType).count (lit "turn.started") = 1
  turnCompleted : (events.filterMap eventType).count (lit "turn.completed") = 1
  message : events.filterMap completedMessage = [text]
  file : ∃ bytes, call.file = .content bytes ∧ utf8Encode text = some bytes ∧
    bytes.length ≤ call.maxFinalMessageBytes

/-! ## Events after redaction -/

variable {s name type : Text}

theorem words_str (h : strip s ≠ []) : words (some (.str s) : Option (Value φ)) = some s := if_neg h

theorem words_redact (v : Option (Value φ)) : words (v.map (redact u)) = (words v).map (redactText u) := by
  cases v with
  | none => rfl
  | some v =>
    cases v with
    | str s =>
      rw [Option.map_some, redact]
      by_cases hs : strip s = []
      · rw [redactText_blank (strip_eq_nil.mp hs)]
        simp [words, hs]
      · rw [words_str hs, words_str (strip_redactText_ne_nil hs), Option.map_some]
    | _ => rfl

def readKeys : List Text := [lit "type", lit "thread_id", lit "item", lit "id", lit "text", lit "usage"]

theorem readKeys_open : readKeys.all (fun key => !isSensitiveKey key) = true := by decide

theorem lookup_redact {k : Text} (hk : k ∈ readKeys) (fields : List (Text × Value φ)) :
    (redactEntries u fields).lookup k = (fields.lookup k).map (redact u) :=
  lookup_redactEntries fields (by simpa using List.all_eq_true.mp readKeys_open k hk)

/-- The names of events and items that the adapter knows. -/
def knownNames : List Text := [lit "thread.started", lit "turn.started", lit "turn.completed", lit "turn.failed",
  lit "error", lit "item.started", lit "item.updated", lit "item.completed", lit "agent_message"]

theorem knownNames_plain : knownNames.all (fun name => name.all fun c => decide (c ∉ lit "[:=-")) = true := by
  decide

theorem redactText_known (hname : name ∈ knownNames) : redactText u s = name ↔ s = name := by
  have hplain := List.all_eq_true.mp knownNames_plain name hname
  exact redactText_eq_name fun c hc => by simpa using List.all_eq_true.mp hplain c hc

theorem redactText_item : redactText u s ∈ itemEvents ↔ s ∈ itemEvents := by
  simp only [itemEvents, List.mem_cons, List.not_mem_nil, or_false]
  rw [redactText_known (by decide), redactText_known (by decide +kernel), redactText_known (by decide +kernel)]

/-- What an event adds to what the adapter knows. -/
structure Adds (u : UnicodeTables) (v : Value F.Val) (before after : ParsedOutput F) : Prop where
  eventTypes : after.eventTypes = before.eventTypes ++ ((eventType v).map (redactText u)).toList
  terminalEventCount : after.terminalEventCount =
    before.terminalEventCount + if eventType v = some (lit "turn.completed") then 1 else 0
  textFragments : after.textFragments = before.textFragments ++ ((completedMessage v).map (redactText u)).toList
  terminalError : after.terminalError = before.terminalError

variable {v : Value F.Val} {parsed : ParsedOutput F}

/-- The message of an item, when its event completes it. -/
def itemMessage (type : Text) (item : List (Text × Value φ)) : Option Text :=
  if type = lit "item.completed" ∧ words (item.lookup (lit "type")) = some (lit "agent_message") then
    words (item.lookup (lit "text"))
  else none

theorem consumeItem_redact {item : List (Text × Value F.Val)} (h : WellFormedItem type item) (parsed : ParsedOutput F) :
    consumeItem (redactText u type) (some (.dict (redactEntries u item))) parsed =
      .ok { parsed with
        textFragments := parsed.textFragments ++ ((itemMessage type item).map (redactText u)).toList } := by
  obtain ⟨id, hid⟩ := Option.isSome_iff_exists.mp h.id
  obtain ⟨itemType, htype⟩ := Option.isSome_iff_exists.mp h.typed
  have hcompleted : redactText u type = lit "item.completed" ↔ type = lit "item.completed" :=
    redactText_known (by decide)
  have hmessage : redactText u itemType = lit "agent_message" ↔ itemType = lit "agent_message" :=
    redactText_known (by decide)
  have herror : redactText u itemType = lit "error" ↔ itemType = lit "error" := redactText_known (by decide)
  simp only [consumeItem, lookup_redact (k := lit "id") (by decide),
    lookup_redact (k := lit "type") (by decide), lookup_redact (k := lit "text") (by decide +kernel),
    words_redact, hid, htype, Option.map_some, hcompleted, hmessage, herror, itemMessage, Option.some.injEq]
  split
  · next hboth =>
    obtain ⟨text, htext⟩ := Option.isSome_iff_exists.mp (h.text hboth.1 (by rw [htype, hboth.2]))
    simp [htext]
  · split
    · next hboth => exact absurd (by rw [htype, hboth.2]) (h.error hboth.1)
    · simp

theorem itemMessage_eq_none (h : type ∉ itemEvents) (item : List (Text × Value φ)) :
    itemMessage type item = none := by
  refine if_neg fun hboth => h ?_
  rw [hboth.1]
  decide

theorem completedMessage_dict {event : List (Text × Value φ)} (htype : words (event.lookup (lit "type")) = some type) :
    completedMessage (.dict event) =
      match event.lookup (lit "item") with
      | some (.dict item) => itemMessage type item
      | _ => none := by
  simp only [completedMessage, htype, itemMessage, Option.some.injEq]

/-- **One event.** What the adapter takes from a well-formed event behind its redaction. -/
theorem consumeEvent_redact (h : WellFormed v) (parsed : ParsedOutput F) :
    ∃ after, consumeEvent u (redact u v) parsed = .ok after ∧ Adds u v parsed after := by
  obtain ⟨type, event, rfl, h⟩ := h
  have htype : eventType (.dict event) = some type := h.typed
  have hknown : ∀ name ∈ knownNames, (redactText u type = name ↔ type = name) := fun _ => redactText_known
  have hstarted := hknown (lit "thread.started") (by decide)
  have hcompleted := hknown (lit "turn.completed") (by decide)
  have hfailed := hknown (lit "turn.failed") (by decide)
  have herror := hknown (lit "error") (by decide)
  simp only [redact, consumeEvent, lookup_redact (k := lit "type") (by decide),
    lookup_redact (k := lit "thread_id") (by decide), lookup_redact (k := lit "item") (by decide +kernel),
    lookup_redact (k := lit "usage") (by decide), words_redact, h.typed, Option.map_some, hstarted, hcompleted,
    hfailed, herror, redactText_item]
  -- the events without an item have no message
  have hmessage : type ∉ itemEvents → completedMessage (.dict event) = none := by
    intro hitem
    rw [completedMessage_dict h.typed]
    split
    · exact itemMessage_eq_none hitem _
    · rfl
  split
  · next hname =>
    obtain ⟨id, hid⟩ := Option.isSome_iff_exists.mp (h.thread hname)
    have hitem : type ∉ itemEvents := by
      rw [hname]
      decide
    have hturn : type ≠ lit "turn.completed" := by
      rw [hname]
      decide
    simp only [hid, Option.map_some]
    refine ⟨_, rfl, ?_, ?_, ?_, rfl⟩
    · simp [htype]
    · simp [htype, hturn]
    · simp [hmessage hitem]
  · split
    · next hname hitem =>
      obtain ⟨item, hlookup, hwell⟩ := h.item hitem
      have hturn : type ≠ lit "turn.completed" := by
        rintro rfl
        exact absurd hitem (by decide)
      rw [hlookup, Option.map_some, redact, consumeItem_redact hwell]
      refine ⟨_, rfl, ?_, ?_, ?_, rfl⟩
      · simp [htype]
      · simp [htype, hturn]
      · simp [completedMessage_dict h.typed, hlookup]
    · next hname hitem =>
      split
      · next hturn =>
        rcases h.usage hturn with hlookup | hlookup | ⟨usage, hlookup⟩ <;>
        · rw [hlookup]
          refine ⟨_, rfl, ?_, ?_, ?_, rfl⟩
          · simp [htype]
          · simp [htype, hturn]
          · simp [hmessage hitem]
      · next hturn =>
        rw [if_neg (by simpa using h.succeeds)]
        refine ⟨_, rfl, ?_, ?_, ?_, rfl⟩
        · simp [htype]
        · simp [htype, hturn]
        · simp [hmessage hitem]

/-! ## Streams after redaction -/

/-- What the adapter knows after some events. -/
structure Summary (u : UnicodeTables) (events : List (Value F.Val)) (parsed : ParsedOutput F) : Prop where
  eventTypes : parsed.eventTypes = (events.filterMap eventType).map (redactText u)
  terminalEventCount : parsed.terminalEventCount = (events.filterMap eventType).count (lit "turn.completed")
  textFragments : parsed.textFragments = (events.filterMap completedMessage).map (redactText u)
  terminalError : parsed.terminalError = none

theorem Summary.start : Summary u [] (.empty : ParsedOutput F) where
  eventTypes := rfl
  terminalEventCount := rfl
  textFragments := rfl
  terminalError := rfl

theorem Summary.add {events : List (Value F.Val)} {after : ParsedOutput F} (h : Summary u events parsed)
    (hadds : Adds u v parsed after) : Summary u (events ++ [v]) after where
  eventTypes := by
    rw [hadds.eventTypes, h.eventTypes, List.filterMap_append, List.map_append]
    cases hv : eventType v <;> simp [hv]
  terminalEventCount := by
    rw [hadds.terminalEventCount, h.terminalEventCount, List.filterMap_append, List.count_append]
    cases hv : eventType v with
    | none => simp [hv]
    | some type => by_cases htype : type = lit "turn.completed" <;> simp [hv, htype]
  textFragments := by
    rw [hadds.textFragments, h.textFragments, List.filterMap_append, List.map_append]
    cases hv : completedMessage v <;> simp [hv]
  terminalError := hadds.terminalError.trans h.terminalError

/-- **A stream.** The adapter understands every line of a well-formed stream behind its redaction. -/
theorem consumeAll_summary {lines : List (List Byte)} {events : List (Value F.Val)} (h : Emits F lines events)
    (hwell : ∀ v ∈ events, WellFormed v) {before : List (Value F.Val)} (hbefore : Summary u before parsed) : ∃ after,
    consumeAll F u (consumeStdoutLine F u) parsed lines = some after ∧ Summary u (before ++ events) after := by
  induction h generalizing parsed before with
  | nil => exact ⟨parsed, rfl, by rwa [List.append_nil]⟩
  | blank hblank _ ih =>
    obtain ⟨line, hline, hstrip⟩ := redactOutputLine_blank (F := F) (u := u) hblank
    obtain ⟨after, hafter, hsummary⟩ := ih hwell hbefore
    refine ⟨after, ?_, hsummary⟩
    rw [consumeAll, hline]
    simp only [consumeStdoutLine, hstrip, if_true]
    exact hafter
  | @event raw lines v events hread _ ih =>
    obtain ⟨type, event, rfl, hfields⟩ := hwell v List.mem_cons_self
    obtain ⟨line, hline, hstrip, hloads⟩ := redactOutputLine_event (u := u) hread
    obtain ⟨next, hnext, hadds⟩ := consumeEvent_redact (u := u) ⟨type, event, rfl, hfields⟩ parsed
    obtain ⟨after, hafter, hsummary⟩ := ih (fun w hw => hwell w (List.mem_cons_of_mem _ hw)) (hbefore.add hadds)
    refine ⟨after, ?_, by simpa using hsummary⟩
    rw [redact] at hnext
    rw [consumeAll, hline]
    simp only [consumeStdoutLine, hstrip, if_false, hloads, hnext]
    exact hafter

theorem count_redact (hname : name ∈ knownNames) (types : List Text) :
    (types.map (redactText u)).count name = types.count name := by
  induction types with
  | nil => rfl
  | cons type types ih =>
    rw [List.map_cons, List.count_cons, List.count_cons, ih]
    simp only [beq_iff_eq, redactText_known hname]

/-! ## Agreement -/

variable {call : Call} {text : Text} {events : List (Value F.Val)}

theorem strip_strip (text : Text) : strip (strip text) = strip text := by
  rw [strip_eq, strip_eq]
  have hkeep : ((text.dropWhile Lib.isSpace).rdropWhile Lib.isSpace).dropWhile Lib.isSpace =
      (text.dropWhile Lib.isSpace).rdropWhile Lib.isSpace := by
    cases hstrip : (text.dropWhile Lib.isSpace).rdropWhile Lib.isSpace with
    | nil => rfl
    | cons =>
      obtain ⟨back, hback⟩ := List.rdropWhile_prefix Lib.isSpace (text.dropWhile Lib.isSpace)
      have hhead := List.head?_dropWhile_not Lib.isSpace text
      rw [hstrip, List.cons_append] at hback
      rw [← hback, List.head?_cons] at hhead
      exact List.dropWhile_cons_of_neg (by simpa using hhead)
  rw [hkeep, List.rdropWhile_idempotent]

theorem words_eq_some {v : Option (Value φ)} (h : words v = some s) : strip s ≠ [] := by
  unfold words at h
  split at h
  · split at h
    · cases h
    · next hs => exact Option.some.inj h ▸ hs
  · cases h

theorem completedMessage_not_blank (h : completedMessage v = some text) : strip text ≠ [] := by
  unfold completedMessage at h
  split at h
  · split at h
    · split at h
      · exact words_eq_some h
      · cases h
    · cases h
  · cases h

/-- The schema of the request accepts the message. -/
def Accepted (call : Call) (text : Text) : Prop := ∀ validate ∈ call.schema, validate text = .ok ()

theorem finish_iff (h : Agrees call text events) (hsummary : Summary u events parsed) :
    ((finish call.maxFinalMessageBytes call.schema call.file parsed).2 = none ↔
      redactText u text = text ∧ Accepted call text) ∧
    ((finish call.maxFinalMessageBytes call.schema call.file parsed).2 = none →
      (finish call.maxFinalMessageBytes call.schema call.file parsed).1.finalText.getD [] = strip text) := by
  obtain ⟨bytes, hfile, hbytes, hlen⟩ := h.file
  have hblank : strip text ≠ [] := by
    have hmem : text ∈ events.filterMap completedMessage := by rw [h.message]; exact List.mem_singleton_self text
    obtain ⟨v, -, hv⟩ := List.mem_filterMap.mp hmem
    exact completedMessage_not_blank hv
  have hread := utf8Strict_of_encode hbytes
  have hstarted : parsed.eventTypes.count (lit "thread.started") = 1 := by
    rw [hsummary.eventTypes, count_redact (by decide), h.threadStarted]
  have hturn : parsed.eventTypes.count (lit "turn.started") = 1 := by
    rw [hsummary.eventTypes, count_redact (by decide), h.turnStarted]
  have hcompleted : parsed.terminalEventCount = 1 := hsummary.terminalEventCount.trans h.turnCompleted
  have hfragments : parsed.textFragments = [redactText u text] := by
    rw [hsummary.textFragments, h.message]
    rfl
  obtain ⟨validated, hvalidated⟩ : ∃ x, x = { parsed with finalText := some (strip text) } := ⟨_, rfl⟩
  have hvalidate : validateOutput validated = .ok () ↔ redactText u text = text := by
    rw [hvalidated]
    simp only [validateOutput, hsummary.terminalError, hstarted, hturn, hcompleted, hfragments, Option.getD_some,
      strip_strip, hblank, ne_eq, not_true_eq_false, if_false]
    rw [← strip_redactText hblank]
    split <;> simp_all
  have hschema : (call.schema.elim (.ok ()) fun validate => validate text) = .ok () ↔ Accepted call text := by
    cases hs : call.schema <;> simp [Accepted, hs]
  rw [hfile]
  simp only [finish, finalizeOutput, hread, hblank, if_false, if_neg (Nat.not_lt.mpr hlen), ← hvalidated]
  cases hs : call.schema.elim (.ok ()) fun validate => validate text with
  | error =>
    rw [hs] at hschema
    simp only [reduceCtorEq, false_iff] at hschema
    simp [hschema]
  | ok _ =>
    have haccepted : Accepted call text := hschema.mp hs
    cases hv : validateOutput validated with
    | error =>
      rw [hv] at hvalidate
      simp only [reduceCtorEq, false_iff] at hvalidate
      simp [hv, hvalidate]
    | ok =>
      have hfinal : validated.finalText = some (strip text) := by rw [hvalidated]
      simp [hv, hvalidate.mp hv, haccepted, hfinal]

theorem start_room {limits : Limits} {received : List (Stream × List Byte)} (h : Fits limits received) :
    (Capture.start : Capture F).Room limits received where
  opened _ := rfl
  failure := rfl
  line := h.line
  bytes stream := by simpa [Capture.start] using h.bytes stream
  lines := by simpa [Capture.start] using h.lines
  events := by simpa [Capture.start] using h.events

theorem result_completed (h : call.process.Clean) :
    ((call.result F u).state = .completed ↔ (call.capture F u).failure = none ∧
      (finish call.maxFinalMessageBytes call.schema call.file (call.capture F u).parsed).2 = none) ∧
    ((call.result F u).state = .completed → (call.result F u).finalText =
      (finish call.maxFinalMessageBytes call.schema call.file (call.capture F u).parsed).1.finalText.getD []) :=
  execute_completed h

theorem completed_iff (h : Agrees call text events) :
    ((call.result F u).state = .completed ↔ redactText u text = text ∧ Accepted call text ∧
      ∀ raw ∈ linesOf .stderr call.received, Kept F raw) ∧
    ((call.result F u).state = .completed → (call.result F u).finalText = strip text) := by
  obtain ⟨after, hconsume, hsummary⟩ := consumeAll_summary (u := u) h.emits h.wellFormed .start
  obtain ⟨hcapture, hparsed⟩ := receive_run (u := u) (start_room h.fits) hconsume
  obtain ⟨hstate, htext⟩ := result_completed (F := F) (u := u) h.clean
  obtain ⟨hfinish, hfinal⟩ := finish_iff h hsummary
  have hboth : (call.result F u).state = .completed ↔ (∀ raw ∈ linesOf .stderr call.received, Kept F raw) ∧
      redactText u text = text ∧ Accepted call text := by
    rw [hstate, ← hcapture]
    refine and_congr_right fun hnone => ?_
    rw [Call.capture, hparsed hnone]
    exact hfinish
  have hstated : (call.result F u).state = .completed ↔ redactText u text = text ∧ Accepted call text ∧
      ∀ raw ∈ linesOf .stderr call.received, Kept F raw := by
    rw [hboth, and_comm, and_assoc]
  refine ⟨hstated, fun hcompleted => ?_⟩
  have hnone := hcapture.mpr (hboth.mp hcompleted).1
  rw [htext hcompleted, Call.capture, hparsed hnone]
  exact hfinal (hfinish.mpr (hboth.mp hcompleted).2)

/-- **Codex agreement.** When the CLI succeeds with a message, the result is completed exactly when redaction leaves the
text as it is, the schema accepts it, and every line of standard error can be kept; it then has the text without the
white space around it. -/
theorem codex_agreement (u : UnicodeTables) (h : Agrees call text events) :
    ((call.result F u).state = .completed ∧ (call.result F u).finalText = text ↔
      redactText u text = text ∧ strip text = text ∧ Accepted call text ∧
        ∀ raw ∈ linesOf .stderr call.received, Kept F raw) ∧
    ((call.result F u).state = .completed ↔ redactText u text = text ∧ Accepted call text ∧
      ∀ raw ∈ linesOf .stderr call.received, Kept F raw) := by
  obtain ⟨hstate, htext⟩ := completed_iff (u := u) h
  refine ⟨⟨fun ⟨hcompleted, hfinal⟩ => ?_, fun ⟨hredact, hstrip, hrest⟩ => ?_⟩, hstate⟩
  · obtain ⟨hredact, hrest⟩ := hstate.mp hcompleted
    exact ⟨hredact, (htext hcompleted).symm.trans hfinal, hrest⟩
  · have hcompleted := hstate.mpr ⟨hredact, hrest⟩
    exact ⟨hcompleted, (htext hcompleted).trans hstrip⟩

/-! ## A reply of the CLI -/

/-- A line of the stream. -/
def eventLine (F : JsonFloats) (v : Value F.Val) : List Byte :=
  (((wide F).renderBy v).bind fun s => utf8Encode (s ++ lit "\n")).getD []

theorem loads_eventLine {event : List (Text × Value F.Val)} (hsized : (Value.dict event).Sized)
    (hencodable : (Value.dict event).Encodable) :
    loadsText F.toFloatFormat keepLast (chomp (utf8Replace (eventLine F (.dict event)))) = .ok (.dict event) := by
  obtain ⟨s, hs⟩ := Option.isSome_iff_exists.mp (renderBy_isSome (S := wide F) (fun _ => rfl) _ hsized.tree hsized.ints)
  have hplain : Plain (s ++ lit "\n") :=
    plain_append_iff.mpr ⟨(renderBy_plain wide_faithful _ hsized.tree hs).mpr hencodable, plain_of_ascii rfl⟩
  obtain ⟨bytes, hbytes⟩ := Option.isSome_iff_exists.mp (utf8Encode_isSome.mpr hplain)
  obtain ⟨inside, -, hinside⟩ := Option.map_eq_some_iff.mp (show ((wide F).renderEntriesBy _).map _ = some s from hs)
  have hchomp : chomp (s ++ lit "\n") = s := by
    rw [← hinside]
    exact chomp_append (by decide) _ (Or.inr rfl)
  have hline : eventLine F (.dict event) = bytes := by
    simp only [eventLine, hs, Option.bind_some, hbytes, Option.getD_some]
  rw [hline, utf8Replace_encode hbytes, hchomp]
  refine loadsText_renderBy wide_legible (fun pairs hpairs => ?_) hsized.tree.read hs
  rw [keepLast, objectOf_nodup hpairs]

def threadStarted : List (Text × Value F.Val) :=
  [(lit "type", .str (lit "thread.started")), (lit "thread_id", .str (lit "t"))]

def turnStarted : List (Text × Value F.Val) := [(lit "type", .str (lit "turn.started"))]

def message (text : Text) : List (Text × Value F.Val) := [(lit "id", .str (lit "i")),
  (lit "type", .str (lit "agent_message")), (lit "text", .str text)]

def messageCompleted (text : Text) : List (Text × Value F.Val) :=
  [(lit "type", .str (lit "item.completed")), (lit "item", .dict (message text))]

def turnCompleted : List (Text × Value F.Val) := [(lit "type", .str (lit "turn.completed"))]

/-- The events of a thread with one message. -/
def replyEvents (F : JsonFloats) (text : Text) : List (Value F.Val) :=
  [.dict threadStarted, .dict turnStarted, .dict (messageCompleted text), .dict turnCompleted]

def reply (F : JsonFloats) (text : Text) : Call where
  limits := defaultLimits
  maxFinalMessageBytes := 256 * 1024
  schema := none
  received := (replyEvents F text).map fun v => (.stdout, eventLine F v)
  process := ⟨0, false, false, "60", false, false⟩
  file := .content ((utf8Encode text).getD [])

theorem encodable_of_ascii {v : Value φ} (h : v.leaves.all (fun x => x.elim asciiText fun _ => true) = true) :
    v.Encodable := fun s hs => plain_of_ascii (List.all_eq_true.mp h (.inl s) hs)

theorem reply_emits (hascii : asciiText text = true) :
    Emits F ((replyEvents F text).map (eventLine F)) (replyEvents F text) := by
  have hmessage : (Value.dict (message text) : Value F.Val).Sized := by
    refine Value.sized_dict (by simp only [message, List.map_cons, List.map_nil]; decide) ?_
    simp only [message, List.forall_mem_cons, Value.sized_str, true_and]
    rintro e hmem
    cases hmem
  have hone : ∀ {event : List (Text × Value F.Val)}, (event.map Prod.fst).Nodup → (∀ e ∈ event, e.2.Sized) →
      (Value.dict event).leaves.all (fun x => x.elim asciiText fun _ => true) = true →
      loadsText F.toFloatFormat keepLast (chomp (utf8Replace (eventLine F (.dict event)))) = .ok (.dict event) :=
    fun hkeys hsized hleaves => loads_eventLine (Value.sized_dict hkeys hsized) (encodable_of_ascii hleaves)
  have hstr : ∀ (fields : List (Text × Text)),
    ∀ e ∈ fields.map (fun f => (f.1, (.str f.2 : Value F.Val))), e.2.Sized := by
    intro fields e he
    obtain ⟨f, -, rfl⟩ := List.mem_map.mp he
    exact Value.sized_str f.2
  refine .event (hone ?_ ?_ rfl) (.event (hone ?_ ?_ rfl) (.event (hone ?_ ?_ ?_) (.event (hone ?_ ?_ rfl) .nil)))
  · simp only [threadStarted, List.map_cons, List.map_nil]
    decide
  · exact hstr [(lit "type", lit "thread.started"), (lit "thread_id", lit "t")]
  · simp [turnStarted]
  · exact hstr [(lit "type", lit "turn.started")]
  · simp only [messageCompleted, List.map_cons, List.map_nil]
    decide
  · exact List.forall_mem_cons.mpr ⟨Value.sized_str _, List.forall_mem_singleton.mpr hmessage⟩
  · simp only [messageCompleted, message, Value.leaves, Value.leavesEntries, List.cons_append, List.nil_append,
      List.append_nil, List.all_cons, List.all_nil, Sum.elim_inl, hascii, Bool.and_true]
    decide
  · simp [turnCompleted]
  · exact hstr [(lit "type", lit "turn.completed")]

theorem message_text (text : Text) : (message text : List (Text × Value F.Val)).lookup (lit "text") = some (.str text)
    := by
  have hid : (lit "text" == lit "id") = false := by decide
  have htype : (lit "text" == lit "type") = false := by decide
  simp [message, List.lookup_cons, hid, htype]

theorem reply_wellFormed (hs : strip text ≠ []) : ∀ v ∈ replyEvents F text, WellFormed v := by
  simp only [replyEvents, List.forall_mem_cons]
  refine ⟨⟨lit "thread.started", _, rfl, rfl, by decide, fun _ => rfl, fun h => ?_, fun h => ?_⟩,
    ⟨lit "turn.started", _, rfl, rfl, by decide, fun h => ?_, fun h => ?_, fun h => ?_⟩,
    ⟨lit "item.completed", _, rfl, rfl, by decide, fun h => ?_,
      fun _ => ⟨message text, rfl, rfl, rfl, fun _ => ?_, fun _ _ => ?_⟩, fun h => ?_⟩,
    ⟨lit "turn.completed", _, rfl, rfl, by decide, fun h => ?_, fun h => ?_, fun _ => Or.inl rfl⟩,
    by rintro _ ⟨⟩⟩
  all_goals first | exact absurd h (by decide) | skip
  · have htype : words ((message text : List (Text × Value F.Val)).lookup (lit "type")) =
        some (lit "agent_message") := rfl
    rw [htype]
    decide
  · rw [message_text, words_str hs]
    rfl

theorem reply_lines (text : Text) : linesOf .stdout (reply F text).received = (replyEvents F text).map (eventLine F)
    := by
  simp [linesOf, reply, replyEvents]

theorem reply_agrees (hascii : asciiText text = true) (hs : strip text ≠ [])
    (hfits : Fits defaultLimits (reply F text).received)
    (hlen : ((utf8Encode text).getD []).length ≤ 256 * 1024) : Agrees (reply F text) text (replyEvents F text) where
  clean := ⟨rfl, rfl, rfl, rfl, rfl⟩
  fits := hfits
  emits := by
    rw [reply_lines]
    exact reply_emits hascii
  wellFormed := reply_wellFormed hs
  threadStarted := rfl
  turnStarted := rfl
  turnCompleted := rfl
  message := by
    have hitem : completedMessage (.dict (messageCompleted text) : Value F.Val) =
        itemMessage (lit "item.completed") (message text : List (Text × Value F.Val)) := completedMessage_dict rfl
    have hmessage : itemMessage (lit "item.completed") (message text : List (Text × Value F.Val)) = some text := by
      rw [itemMessage, message_text, words_str hs]
      exact if_pos ⟨rfl, rfl⟩
    have hother : ∀ event ∈ [(threadStarted : List (Text × Value F.Val)), turnStarted, turnCompleted],
        completedMessage (.dict event) = none := by
      simp only [List.forall_mem_cons]
      exact ⟨rfl, rfl, rfl, by rintro _ ⟨⟩⟩
    simp only [replyEvents, List.filterMap_cons, hitem, hmessage, hother _ List.mem_cons_self,
      hother turnStarted (by simp),
      hother turnCompleted (by simp), List.filterMap_nil]
  file := by
    obtain ⟨bytes, hbytes⟩ := Option.isSome_iff_exists.mp (utf8Encode_isSome.mpr (plain_of_ascii hascii))
    refine ⟨bytes, ?_, hbytes, ?_⟩
    · simp only [reply, hbytes, Option.getD_some]
    · rw [hbytes] at hlen
      exact hlen

theorem reply_fits (h : ((replyEvents F text).map fun v => (eventLine F v).length).sum ≤ 1000) :
    Fits defaultLimits (reply F text).received where
  line l hl := by
    obtain ⟨v, hv, rfl⟩ := List.mem_map.mp hl
    have hmem : (eventLine F v).length ∈ (replyEvents F text).map fun v => (eventLine F v).length :=
      List.mem_map_of_mem hv
    have hline : (eventLine F v).length ≤ 1000 := (List.single_le_sum (fun _ _ => Nat.zero_le _) _ hmem).trans h
    exact hline.trans (by decide)
  bytes stream := by
    cases stream with
    | stdout =>
      rw [reply_lines, List.map_map]
      exact h.trans (by decide)
    | stderr => exact Nat.zero_le _
  lines := by
    show 4 ≤ 20000
    omega
  events := by
    show 4 ≤ 20000
    omega

theorem codex_agreement_done :
    ((reply sampleFloats (lit "done")).result sampleFloats asciiTables).state = .completed ∧
      ((reply sampleFloats (lit "done")).result sampleFloats asciiTables).finalText = lit "done" := by
  have h : Agrees (reply sampleFloats (lit "done")) (lit "done") (replyEvents sampleFloats (lit "done")) :=
    reply_agrees rfl (by decide) (reply_fits (by decide +kernel)) (by decide +kernel)
  refine (codex_agreement asciiTables h).1.mpr ⟨by decide, by decide +kernel, ?_, ?_⟩
  · rintro _ ⟨⟩
  · rintro _ ⟨⟩

/-- A message with a name in front of a colon succeeds in the CLI and is refused by the adapter. -/
theorem codex_disagreement : ¬ ∀ (F : JsonFloats) (u : UnicodeTables) (call : Call) (text : Text)
    (events : List (Value F.Val)), Agrees call text events → strip text ≠ [] →
      (call.result F u).state = .completed ∧ (call.result F u).finalText = text := by
  intro hall
  let text := lit "token: abc"
  have h : Agrees (reply sampleFloats text) text (replyEvents sampleFloats text) :=
    reply_agrees rfl (by decide) (reply_fits (by decide +kernel)) (by decide +kernel)
  have hcompleted := (hall sampleFloats asciiTables _ _ _ h (by decide)).1
  exact absurd ((completed_iff h).1.mp hcompleted).1 (by decide)

end AgentFabric.Native.Codex
