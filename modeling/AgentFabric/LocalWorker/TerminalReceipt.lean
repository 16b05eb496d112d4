import AgentFabric.LocalWorker.NativeSpec

/-!
# The terminal receipt of a native run

What the runner makes of the result of a provider, the receipt that it publishes, and what the daemon reads of it.
-/

namespace AgentFabric.LocalWorker.Wire

open AgentFabric.Lib

/-! ## Results -/

structure Usage (F : JsonFloats) where
  inputTokens : Option Int
  outputTokens : Option Int
  cacheCreationTokens : Option Int
  cacheReadTokens : Option Int
  reasoningTokens : Option Int
  totalTokens : Option Int
  costUsd : Option F.Val

/-- What the runner reads of an event of a provider. -/
structure ProviderEvent where
  kind : Text
  malformed : Bool
  providerEventType : Option Text

/-- The exit code of a process. -/
structure ExitCode where
  value : Int
  bounded : value.natAbs < 2 ^ 32
deriving DecidableEq

def ExitCode.success : ExitCode := ⟨0, by decide⟩

structure WorkerResult (F : JsonFloats) where
  state : RunState
  exitCode : Option ExitCode
  finalText : Text
  model : Option Text
  sessionId : Option Text
  usage : Usage F
  error : Option Text
  events : List ProviderEvent

def maxResultBytes : Nat := 40 * 1024

def maxTerminalBytes : Nat := 60 * 1024

def maxReceiptBytes : Nat := 65536

/-- The text whose encoding `errors="replace"` makes. -/
def replaced (text : Text) : Text := text.map fun c => if c.surrogate then ch '?' else c

/-- The characters that end within the first bytes of a text: what `errors="ignore"` keeps of a text that is cut. -/
def cut : Nat → Text → Text
  | _, [] => []
  | n, c :: text => if utf8Size c ≤ n then c :: cut (n - utf8Size c) text else []

/-- `bool(value)` of a text that may be missing. -/
def truthy : Option Text → Option Text
  | some [] => none
  | value => value

namespace NativeRunner

section

variable {F : JsonFloats}

def boundedText (text : Text) (maximum : Nat) : Text :=
  if textSize (replaced text) ≤ maximum then text
  else cut (maximum - (lit "\n[TRUNCATED]").length) (replaced text) ++ lit "\n[TRUNCATED]"

/-- The metrics under their names; a number that is not finite is not known. -/
def metrics (usage : Usage F) : List (String × Option (Value F.Val)) :=
  [("input_tokens", usage.inputTokens.map .int), ("output_tokens", usage.outputTokens.map .int),
    ("cache_creation_tokens", usage.cacheCreationTokens.map .int),
    ("cache_read_tokens", usage.cacheReadTokens.map .int),
    ("reasoning_tokens", usage.reasoningTokens.map .int), ("total_tokens", usage.totalTokens.map .int),
    ("cost_usd", (usage.costUsd.filter F.isFinite).map .float)]

def known (fields : List (String × Option (Value F.Val))) : Entries F :=
  fields.filterMap fun field => field.2.map fun value => (lit field.1, value)

def usage (usage : Usage F) : Entries F := known (metrics usage)

/-- The provider says that it has completed, and exited with 0. -/
def completed (result : WorkerResult F) : Bool :=
  decide (result.state = .completed) && decide (result.exitCode = some .success)

/-- `_validate_provider_result` raises unless this holds. -/
def validateProviderResult (driverType : DriverType) (result : WorkerResult F) : Bool :=
  if !completed result then true
  else
    let outputs := result.events.filter fun event => event.kind = lit "workerOutput"
    let types := (outputs.filterMap ProviderEvent.providerEventType).filter fun t => t ≠ lit "blank"
    let among (names : List String) : Bool := types ≠ [] && types.all fun t => decide (t ∈ names.map lit)
    if outputs.any ProviderEvent.malformed then false
    else match driverType with
    | .claude => among ["system", "assistant", "result"] && decide (lit "result" ∈ types)
    | .grok =>
      among ["text", "result", "end", "completed"] &&
        types.any fun t => decide (t ∈ ["result", "end", "completed"].map lit)
    | .codex =>
      strip result.finalText ≠ [] && !outputs.any fun event =>
        decide (event.providerEventType ∈ ["turn.failed", "error"].map fun name => some (lit name))
    | _ => strip result.finalText ≠ []

def failureCode (result : WorkerResult F) : String :=
  let begins (mark : String) : Bool := (lit mark).isPrefixOf (result.error.getD [])
  match result.state with
  | .cancelled => "PROVIDER_CANCELLED"
  | .timedOut => "PROVIDER_TIMEOUT"
  | .authRequired => "PROVIDER_AUTH_REQUIRED"
  | .rateLimited => "PROVIDER_RATE_LIMITED"
  | _ =>
    if begins "OUTPUT_LIMIT:" then "PROVIDER_OUTPUT_LIMIT"
    else if begins "RESULT_INVALID:" then "PROVIDER_RESULT_INVALID"
    else if result.exitCode ∉ [none, some .success] then "PROVIDER_EXIT_NONZERO"
    else "PROVIDER_EXECUTION_FAILED"

/-- The state of the launch, the one that is reported of the provider, and the exit code of the runner. -/
def outcome (result : WorkerResult F) : LaunchState × String × ExitCode :=
  if completed result then (.completed, "SUCCEEDED", .success)
  else if result.state = .cancelled then (.cancelled, "CANCELLED", ⟨143, by decide⟩)
  else (.failed, "FAILED", (result.exitCode.filter (· ≠ .success)).getD ⟨1, by decide⟩)

/-- The model and the session, bounded. -/
def selectedModel (redact : Text → Text) (result : WorkerResult F) : Option Text :=
  (truthy result.model).map fun model => boundedText (redact model) 512

def session (redact : Text → Text) (result : WorkerResult F) : Option Text :=
  (truthy result.sessionId).map fun sessionId => boundedText (redact sessionId) 1024

def content (redact : Text → Text) (result : WorkerResult F) : Text :=
  boundedText (redact result.finalText) maxResultBytes

/-- The fields of what a result adds to the receipt, with the values that are known. -/
def resultFields (redact : Text → Text) (result : WorkerResult F) : List (String × Option (Value F.Val)) :=
  let model := (selectedModel redact result).map Value.str
  [("state", some (.str (lit (outcome result).2.1))),
    ("result", some (.dict (known [("content", some (.str (content redact result))), ("model", model)]))),
    ("metrics", some (.dict (usage result.usage))), ("selected_model", model),
    ("session_id", (session redact result).map .str),
    ("error", if (outcome result).1 = .completed then none else some (.str (lit (failureCode result))))]

/-- What a run adds to the receipt. -/
structure Projection (F : JsonFloats) where
  state : LaunchState
  exitCode : ExitCode
  result : Entries F

def resultProjection (redact : Text → Text) (result : WorkerResult F) : Projection F where
  state := (outcome result).1
  exitCode := (outcome result).2.2
  result := known (resultFields redact result)

/-- What is recorded of a run without a result. -/
def emptyResult (state error : String) : Entries F :=
  [(lit "state", .str (lit state)), (lit "result", .dict [(lit "content", .str [])]), (lit "metrics", .dict []),
    (lit "error", .str (lit error))]

/-- What is recorded of a run whose execution or validation has raised. -/
def raisedProjection (cancelled : Bool) : Projection F :=
  if cancelled then ⟨.cancelled, ⟨143, by decide⟩, emptyResult "CANCELLED" "PROVIDER_CANCELLED"⟩
  else ⟨.failed, ⟨1, by decide⟩, emptyResult "FAILED" "PROVIDER_RESULT_INVALID"⟩

/-- The result that the run has extracted, if neither its execution nor its validation has raised. -/
def extracted (driverType : DriverType) (execution : Option (WorkerResult F)) : Option (WorkerResult F) :=
  execution.filter (validateProviderResult driverType)

/-- The guarded part of `run`. -/
def projection (redact : Text → Text) (driverType : DriverType) (cancelled : Bool)
    (execution : Option (WorkerResult F)) : Projection F :=
  match extracted driverType execution with
  | some result => resultProjection redact result
  | none => raisedProjection cancelled

/-- What replaces a receipt that is too long. -/
def overflow : Projection F :=
  ⟨.failed, ⟨1, by decide⟩, emptyResult "FAILED" "native result projection exceeded the durable receipt limit"⟩

end

end NativeRunner

/-! ## Receipts -/

/-- What every receipt of a run begins with: the identities that its specification named, and its process. -/
structure ReceiptBase where
  launch : Claimed
  driverId : Name
  driverType : DriverType
  profileRevision : Int
  profileFingerprint : Name
  executableSha256 : Name
  pid : Nat
  birthIdentity : Name
  revision_written : (intText profileRevision).isSome = true
  pid_written : (intText pid).isSome = true

section

variable {F : JsonFloats}

def baseFields : List String :=
  launchFields ++ ["driver_id", "driver_type", "driver_profile_revision", "driver_profile_fingerprint",
    "driver_executable_sha256", "pid", "process_birth_identity"]

def ReceiptBase.entries (base : ReceiptBase) : Entries F :=
  launchPart base.launch ++
    [(lit "driver_id", .str base.driverId.text), (lit "driver_type", .str (lit base.driverType.value)),
      (lit "driver_profile_revision", .int base.profileRevision),
      (lit "driver_profile_fingerprint", .str base.profileFingerprint.text),
      (lit "driver_executable_sha256", .str base.executableSha256.text), (lit "pid", .int base.pid),
      (lit "process_birth_identity", .str base.birthIdentity.text)]

namespace NativeRunner

def terminalEntries (base : ReceiptBase) (projection : Projection F) : Entries F :=
  base.entries ++ [(lit "launch_state", .str (lit projection.state.value)),
    (lit "exit_code", .int projection.exitCode.value), (lit "result", .dict projection.result)]

def terminal (base : ReceiptBase) (projection : Projection F) : Value F.Val := .dict (terminalEntries base projection)

/-- The bytes of `terminal.json`, unless writing them raises. -/
def publish (base : ReceiptBase) (projection : Projection F) : Stage (List Byte) := do
  let encoded ← encodedDocument (terminal base projection)
  if maxTerminalBytes < encoded.length then encodedDocument (terminal base (overflow : Projection F)) else .ok encoded

end NativeRunner

/-- `read_json_receipt`. Reading the file as text makes line feeds of its carriage returns, which JSON takes for the
same white space and refuses in a string like them. -/
def readJsonReceipt (bytes : List Byte) : Option (Entries F) :=
  if maxReceiptBytes < bytes.length then none
  else match utf8Strict bytes with
  | none => none
  | some text =>
    match loadsText F.toFloatFormat (fun pairs => (.ok (objectOf pairs) : Except Empty (Value F.Val))) text with
    | .ok (.dict entries) => some entries
    | _ => none

end

/-! ## Bounded texts -/

theorem replaced_plain (t : Text) : Plain (replaced t) := by
  intro c hc
  obtain ⟨d, -, rfl⟩ := List.mem_map.mp hc
  split
  · decide
  · next h => exact Bool.eq_false_iff.mpr h

theorem cut_subset (n : Nat) (t : Text) : ∀ c ∈ cut n t, c ∈ t := by
  induction t generalizing n with
  | nil => exact fun c hc => hc
  | cons d t ih =>
    rw [cut]
    split
    · exact fun c hc => (List.mem_cons.mp hc).elim (fun h => h ▸ List.mem_cons_self) fun h =>
        List.mem_cons_of_mem d (ih _ c h)
    · exact fun c hc => (by cases hc)

namespace NativeRunner

theorem boundedText_short {t : Text} {n : Nat} (h : textSize (replaced t) ≤ n) : boundedText t n = t := if_pos h

theorem boundedText_plain {t : Text} {n : Nat} : Plain (boundedText t n) ↔ n < textSize (replaced t) ∨ Plain t := by
  unfold boundedText
  split
  · next h => exact ⟨Or.inr, fun h' => h'.resolve_left (Nat.not_lt.mpr h)⟩
  · next h =>
    refine iff_of_true (Plain.append (fun c hc => ?_) (plain_of_ascii rfl)) (Or.inl (Nat.not_le.mp h))
    exact replaced_plain t c (cut_subset _ _ c hc)

section Known

variable {F : JsonFloats} {fields : List (String × Option (Value F.Val))}

theorem mem_known {e : Text × Value F.Val} : e ∈ known fields ↔ ∃ field ∈ fields, field.2 = some e.2 ∧
    lit field.1 = e.1 := by
  obtain ⟨key, value⟩ := e
  simp only [known, List.mem_filterMap, Option.map_eq_some_iff, Prod.mk.injEq]
  constructor
  · rintro ⟨field, hmem, value', hvalue, hkey, rfl⟩
    exact ⟨field, hmem, hvalue, hkey⟩
  · rintro ⟨field, hmem, hvalue, hkey⟩
    exact ⟨field, hmem, value, hvalue, hkey, rfl⟩

theorem known_keys (fields : List (String × Option (Value F.Val))) :
    ((known fields).map Prod.fst).Sublist ((fields.map Prod.fst).map lit) := by
  induction fields with
  | nil => exact List.Sublist.refl []
  | cons field fields ih =>
    obtain ⟨name, value⟩ := field
    cases value with
    | none => exact ih.cons _
    | some => exact ih.cons_cons _

theorem known_writable (names : List String) (hnames : fields.map Prod.fst = names) (hkeys : (names.map lit).Nodup)
    (hascii : ∀ name ∈ names, asciiText (lit name) = true) :
    (Value.dict (known fields)).Writable ↔ ∀ field ∈ fields, ∀ value, field.2 = some value → value.Writable := by
  subst hnames
  have hplain : ∀ e ∈ known fields, Plain e.1 := by
    intro e he
    obtain ⟨field, hmem, -, hkey⟩ := mem_known.mp he
    exact hkey ▸ plain_of_ascii (hascii field.1 (List.mem_map_of_mem hmem))
  rw [Value.writable_dict ((known_keys fields).nodup hkeys) hplain]
  constructor
  · exact fun h field hmem value hvalue => h (lit field.1, value) (mem_known.mpr ⟨field, hmem, hvalue, rfl⟩)
  · intro h e he
    obtain ⟨field, hmem, hvalue, -⟩ := mem_known.mp he
    exact h field hmem e.2 hvalue

theorem known_tree (names : List String) (hnames : fields.map Prod.fst = names) (hkeys : (names.map lit).Nodup)
    (h : ∀ field ∈ fields, ∀ value, field.2 = some value → value.Tree) : (Value.dict (known fields)).Tree := by
  subst hnames
  refine ⟨(known_keys fields).nodup hkeys, Value.formedEntries_iff.mpr fun e he => ?_⟩
  obtain ⟨field, hmem, hvalue, -⟩ := mem_known.mp he
  exact h field hmem e.2 hvalue

end Known

section Results

variable {F : JsonFloats} {redact : Text → Text} {result : WorkerResult F}

def counts (usage : Usage F) : List Int :=
  [usage.inputTokens, usage.outputTokens, usage.cacheCreationTokens, usage.cacheReadTokens, usage.reasoningTokens,
    usage.totalTokens].filterMap id

def metricNames : List String :=
  ["input_tokens", "output_tokens", "cache_creation_tokens", "cache_read_tokens", "reasoning_tokens", "total_tokens",
    "cost_usd"]

theorem usage_writable {reported : Usage F} :
    (Value.dict (usage reported)).Writable ↔ ∀ n ∈ counts reported, (intText n).isSome = true := by
  rw [usage, known_writable metricNames rfl (by decide) (by decide)]
  simp only [metrics, List.mem_cons, List.not_mem_nil, or_false, or_imp, forall_and, forall_eq, Option.map_eq_some_iff,
    forall_exists_index, and_imp, forall_apply_eq_imp_iff₂, Value.writable_int,
      Option.filter_eq_some_iff, counts, id_eq,
    List.mem_filterMap, ↓existsAndEq, @eq_comm _ (some _), and_true, and_congr_right_iff, and_iff_left_iff_imp]
  rintro - - - - - - value x - - rfl
  exact Value.writable_float x

/-- What a result reports can be written: a text that is not cut has no lone surrogate, and every count can be spelt. -/
structure Written (redact : Text → Text) (result : WorkerResult F) : Prop where
  content : maxResultBytes < textSize (replaced (redact result.finalText)) ∨ Plain (redact result.finalText)
  model : ∀ model, truthy result.model = some model → 512 < textSize (replaced (redact model)) ∨ Plain (redact model)
  session : ∀ session, truthy result.sessionId = some session →
    1024 < textSize (replaced (redact session)) ∨ Plain (redact session)
  counts : ∀ n ∈ counts result.usage, (intText n).isSome = true

theorem outcome_cases (result : WorkerResult F) :
    (completed result = true ∧ outcome result = (.completed, "SUCCEEDED", .success)) ∨
    completed result = false ∧ (outcome result).1 ≠ .completed ∧
      ((outcome result).2.1 = "CANCELLED" ∨ (outcome result).2.1 = "FAILED") := by
  unfold outcome
  cases completed result with
  | true => exact Or.inl ⟨rfl, rfl⟩
  | false =>
    refine Or.inr ⟨rfl, ?_⟩
    rw [if_neg Bool.false_ne_true]
    split
    · exact ⟨(by rintro ⟨⟩), Or.inl rfl⟩
    · exact ⟨(by rintro ⟨⟩), Or.inr rfl⟩

theorem outcome_plain (result : WorkerResult F) : Plain (lit (outcome result).2.1) := by
  rcases outcome_cases result with ⟨-, h⟩ | ⟨-, -, h | h⟩ <;> rw [h] <;> exact plain_of_ascii rfl

theorem failureCode_plain (result : WorkerResult F) : Plain (lit (failureCode result)) := by
  unfold failureCode
  dsimp only
  split
  · exact plain_of_ascii rfl
  · exact plain_of_ascii rfl
  · exact plain_of_ascii rfl
  · exact plain_of_ascii rfl
  · split
    · exact plain_of_ascii rfl
    split
    · exact plain_of_ascii rfl
    split
    · exact plain_of_ascii rfl
    · exact plain_of_ascii rfl

theorem selectedModel_writable : (∀ model, selectedModel redact result = some model → Plain model) ↔
    ∀ model, truthy result.model = some model → 512 < textSize (replaced (redact model)) ∨ Plain (redact model) := by
  simp only [selectedModel, Option.map_eq_some_iff, forall_exists_index, and_imp, forall_apply_eq_imp_iff₂,
    boundedText_plain]

theorem session_writable : (∀ session, NativeRunner.session redact result = some session → Plain session) ↔
    ∀ session, truthy result.sessionId = some session →
      1024 < textSize (replaced (redact session)) ∨ Plain (redact session) := by
  simp only [session, Option.map_eq_some_iff, forall_exists_index, and_imp, forall_apply_eq_imp_iff₂, boundedText_plain]

def resultNames : List String := ["state", "result", "metrics", "selected_model", "session_id", "error"]

theorem resultProjection_tree : (Value.dict (resultProjection redact result).result).Tree := by
  have hstr : ∀ (t : Option Text) (value : Value F.Val), t.map Value.str = some value → value.Tree := by
    intro t value hvalue
    obtain ⟨s, -, rfl⟩ := Option.map_eq_some_iff.mp hvalue
    trivial
  have hmetrics : (Value.dict (usage result.usage)).Tree := by
    refine known_tree metricNames rfl (by decide) fun field hmem value hvalue => ?_
    simp only [metrics, List.mem_cons, List.not_mem_nil, or_false] at hmem
    rcases hmem with rfl | rfl | rfl | rfl | rfl | rfl | rfl <;>
      (obtain ⟨n, -, rfl⟩ := Option.map_eq_some_iff.mp hvalue; trivial)
  have hinner : (Value.dict (known [("content", some (.str (content redact result))),
      ("model", (selectedModel redact result).map Value.str)]) : Value F.Val).Tree := by
    refine known_tree ["content", "model"] rfl (by decide) fun field hmem value hvalue => ?_
    simp only [List.mem_cons, List.not_mem_nil, or_false] at hmem
    rcases hmem with rfl | rfl
    · exact Option.some.inj hvalue ▸ trivial
    · exact hstr _ value hvalue
  refine known_tree resultNames rfl (by decide) fun field hmem value hvalue => ?_
  simp only [resultFields, List.mem_cons, List.not_mem_nil, or_false] at hmem
  rcases hmem with rfl | rfl | rfl | rfl | rfl | rfl
  · exact Option.some.inj hvalue ▸ trivial
  · exact Option.some.inj hvalue ▸ hinner
  · exact Option.some.inj hvalue ▸ hmetrics
  · exact hstr _ value hvalue
  · exact hstr _ value hvalue
  · split at hvalue
    · cases hvalue
    · exact Option.some.inj hvalue ▸ trivial

/-- **What a result adds to the receipt** is written exactly when the result can be. -/
theorem resultProjection_writable :
    (Value.dict (resultProjection redact result).result).Writable ↔ Written redact result := by
  have herror : ∀ value : Value F.Val, (if (outcome result).1 = .completed then none
      else some (.str (lit (failureCode result)))) = some value → value.Writable := by
    intro value hvalue
    split at hvalue
    · cases hvalue
    · cases hvalue
      exact Value.writable_str.mpr (failureCode_plain result)
  have hinner : (Value.dict (known [("content", some (.str (content redact result))),
      ("model", (selectedModel redact result).map Value.str)]) : Value F.Val).Writable ↔
      Plain (content redact result) ∧ ∀ model, selectedModel redact result = some model → Plain model := by
    rw [known_writable ["content", "model"] rfl (by decide) (by decide)]
    simp [Value.writable_str]
  rw [show (resultProjection redact result).result = known (resultFields redact result) from rfl,
    known_writable resultNames rfl (by decide) (by decide)]
  simp only [resultFields, List.forall_mem_cons, Option.some.injEq, forall_eq', Option.map_eq_some_iff,
    forall_exists_index, and_imp, forall_apply_eq_imp_iff₂, hinner, usage_writable, Value.writable_str,
    outcome_plain, true_and, List.not_mem_nil, false_implies, implies_true, and_true]
  rw [selectedModel_writable, session_writable, content, boundedText_plain]
  exact ⟨fun h => ⟨h.1.1, h.1.2, h.2.2.2.1, h.2.1⟩, fun h =>
    ⟨⟨h.content, h.model⟩, h.counts, h.model, h.session, herror⟩⟩

end Results

end NativeRunner

/-! ## Published receipts -/

section Receipts

variable {F : JsonFloats} {base : ReceiptBase}

theorem Claimed.entry_writable {record : Claimed} {e : Text × Value F.Val} (he : e ∈ launchPart record) :
    e.2.Writable := by
  have hversion : (Value.int protocolVersion : Value F.Val).Writable :=
    Value.writable_int.mpr (Option.isSome_of_mem intText_two)
  have hname : ∀ name : Name, (Value.str name.text : Value F.Val).Writable :=
    fun name => Value.writable_str.mpr name.plain
  revert e
  simp [launchPart, hversion, hname]

theorem ReceiptBase.entry_writable {e : Text × Value F.Val} (he : e ∈ base.entries) : e.2.Writable := by
  have hname : ∀ name : Name, (Value.str name.text : Value F.Val).Writable :=
    fun name => Value.writable_str.mpr name.plain
  have htype : (Value.str (lit base.driverType.value) : Value F.Val).Writable := by
    cases base.driverType <;> exact Value.writable_str.mpr (plain_of_ascii rfl)
  have hrevision : (Value.int base.profileRevision : Value F.Val).Writable :=
    Value.writable_int.mpr base.revision_written
  have hpid : (Value.int base.pid : Value F.Val).Writable := Value.writable_int.mpr base.pid_written
  rcases List.mem_append.mp he with hlaunch | hown
  · exact Claimed.entry_writable hlaunch
  · clear he
    revert e
    simp [hname, htype, hrevision, hpid]

theorem intText_small {n : Int} (h : n.natAbs < 10 ^ 10) : (intText n).isSome = true := by
  have hlength := natText_length_le (k := 10) (by omega) h
  simp only [intText]
  rw [if_pos (hlength.trans (by decide))]
  rfl

theorem ExitCode.written (code : ExitCode) : (intText code.value).isSome = true :=
  intText_small (code.bounded.trans (by decide))

namespace NativeRunner

def terminalFields : List String := baseFields ++ ["launch_state", "exit_code", "result"]

theorem terminalEntries_keys (base : ReceiptBase) (projection : Projection F) :
    ((terminalEntries base projection).map Prod.fst).Nodup :=
  keys_nodup terminalFields rfl (by decide)

theorem terminal_writable {projection : Projection F} :
    (terminal base projection).Writable ↔ (Value.dict projection.result).Writable := by
  have hstate : (Value.str (lit projection.state.value) : Value F.Val).Writable := by
    cases projection.state <;> exact Value.writable_str.mpr (plain_of_ascii rfl)
  have hexit : (Value.int projection.exitCode.value : Value F.Val).Writable :=
    Value.writable_int.mpr projection.exitCode.written
  rw [terminal, Value.writable_dict (terminalEntries_keys base projection) fun e he =>
    keys_plain terminalFields rfl (by decide) he]
  simp only [terminalEntries, List.forall_mem_append, List.forall_mem_cons, hstate, hexit, true_and]
  exact ⟨fun h => h.2.1, fun h => ⟨fun e he => ReceiptBase.entry_writable he, h, (by rintro _ ⟨⟩)⟩⟩

theorem terminal_tree {projection : Projection F} (h : (Value.dict projection.result).Tree) :
    (terminal base projection).Tree := by
  refine ⟨terminalEntries_keys base projection, Value.formedEntries_iff.mpr fun e he => ?_⟩
  rcases List.mem_append.mp he with he | he
  · exact (ReceiptBase.entry_writable he).sized.tree
  · simp only [List.mem_cons, List.not_mem_nil, or_false] at he
    rcases he with rfl | rfl | rfl
    · trivial
    · trivial
    · exact h

theorem emptyResult_writable {state error : String} (hstate : asciiText (lit state) = true)
    (herror : asciiText (lit error) = true) : (Value.dict (emptyResult state error) : Value F.Val).Writable := by
  have hstr : ∀ s : String, asciiText (lit s) = true → (Value.str (lit s) : Value F.Val).Writable := fun s hs =>
    Value.writable_str.mpr (plain_of_ascii hs)
  have hdict : ∀ (entries : Entries F) (names : List String), entries.map Prod.fst = names.map lit →
      (names.map lit).Nodup → (∀ name ∈ names, asciiText (lit name) = true) → (∀ e ∈ entries, e.2.Writable) →
      (Value.dict entries).Writable := fun entries names hnames hkeys hascii =>
    (Value.writable_dict (keys_nodup names hnames hkeys) fun e he => keys_plain names hnames hascii he).mpr
  have hcontent : (Value.dict [(lit "content", .str [])] : Value F.Val).Writable :=
    hdict _ ["content"] rfl (by decide) (by decide) (by
    simpa using show (Value.str [] : Value F.Val).Writable from hstr "" rfl)
  have hmetrics : (Value.dict [] : Value F.Val).Writable := hdict _ [] rfl (by decide) (by decide) (by rintro _ ⟨⟩)
  refine hdict _ ["state", "result", "metrics", "error"] rfl (by decide) (by decide) ?_
  simp [emptyResult, hcontent, hmetrics, hstr _ hstate, hstr _ herror]

theorem raisedProjection_writable (cancelled : Bool) :
    (Value.dict (raisedProjection (F := F) cancelled).result).Writable := by
  cases cancelled
  · exact emptyResult_writable rfl rfl
  · exact emptyResult_writable rfl rfl

theorem overflow_writable : (Value.dict (overflow (F := F)).result).Writable := emptyResult_writable rfl rfl

end NativeRunner

/-- The bytes of what every receipt of a run begins with. -/
def ReceiptBase.size (F : JsonFloats) (base : ReceiptBase) : Nat :=
  base.launch.size + strSize base.driverId.text + strSize (lit base.driverType.value) +
    jsonSize F (.int base.profileRevision) + strSize base.profileFingerprint.text + strSize base.executableSha256.text +
    jsonSize F (.int base.pid) + strSize base.birthIdentity.text

/-- The bytes of the names and the punctuation. -/
def terminalOverhead : Nat := 325

namespace NativeRunner

theorem jsonSize_terminal (projection : Projection F) : jsonSize F (terminal base projection) =
    base.size F + strSize (lit projection.state.value) + jsonSize F (.int projection.exitCode.value) +
      jsonSize F (.dict projection.result) + terminalOverhead := by
  have hnames : terminalFields.map (fun name => strSize (lit name)) =
      [18, 8, 17, 14, 16, 23, 28, 11, 13, 25, 28, 26, 5, 24, 14, 11, 8] := by decide
  have hversion : jsonSize F (.int protocolVersion) = 1 := by
    rw [jsonSize, show protocolVersion = 2 from rfl, intText_two]
    decide
  simp only [terminalFields, baseFields, launchFields, identityFields, List.cons_append, List.nil_append,
    List.map_cons, List.map_nil, List.cons.injEq, and_true] at hnames
  rw [terminal, jsonSize]
  simp only [terminalEntries, ReceiptBase.entries, launchPart, List.cons_append, List.nil_append, entriesSize,
    List.length_cons, List.length_nil, ReceiptBase.size, Claimed.size, terminalOverhead, jsonSize, hnames]
    at hversion ⊢
  omega

theorem nameSize_le (name : Name) : strSize name.text ≤ 1538 := by
  have hsize := strSize_le name.text
  have hshort := name.short
  omega

theorem jsonSize_int_le {n : Int} (h : (intText n).isSome = true) : jsonSize F (.int n) ≤ 4301 := by
  obtain ⟨t, ht⟩ := Option.isSome_iff_exists.mp h
  rw [jsonSize, ht]
  exact intText_size_le ht

theorem baseSize_le (base : ReceiptBase) : base.size F ≤ 24000 := by
  have hlaunch : base.launch.size ≤ 6 * 1538 := by
    have h1 := nameSize_le base.launch.jobId
    have h2 := nameSize_le base.launch.idempotencyKey
    have h3 := nameSize_le base.launch.launchNonce
    have h4 := nameSize_le base.launch.requestDigest
    have h5 := nameSize_le base.launch.processHostIdentity
    have h6 := nameSize_le base.launch.launchRuntimeInstanceId
    unfold Claimed.size
    omega
  have hid := nameSize_le base.driverId
  have hprint := nameSize_le base.profileFingerprint
  have hsha := nameSize_le base.executableSha256
  have hbirth := nameSize_le base.birthIdentity
  have hrevision := jsonSize_int_le (F := F) base.revision_written
  have hpid := jsonSize_int_le (F := F) base.pid_written
  have htype : strSize (lit base.driverType.value) ≤ 8 := by
    cases base.driverType <;> decide
  unfold ReceiptBase.size
  omega

theorem overflow_fits : jsonSize F (terminal base overflow) ≤ maxReceiptBytes := by
  have hbase := baseSize_le (F := F) base
  have hexit := jsonSize_int_le (F := F) (overflow (F := F)).exitCode.written
  have hresult : jsonSize F (.dict (overflow (F := F)).result) ≤ 200 := by
    have hnames : (["state", "FAILED", "result", "content", "", "metrics", "error",
        "native result projection exceeded the durable receipt limit"].map fun name => strSize (lit name)) =
        [7, 8, 8, 9, 2, 9, 7, 61] := by decide
    simp only [List.map_cons, List.map_nil, List.cons.injEq, and_true] at hnames
    simp only [overflow, emptyResult, jsonSize, entriesSize, List.length_cons, List.length_nil, hnames,
      show strSize ([] : Text) = 2 from rfl]
    omega
  have hstate : strSize (lit (overflow (F := F)).state.value) = 8 := show strSize (lit "FAILED") = 8 by decide
  rw [jsonSize_terminal, hstate, terminalOverhead, maxReceiptBytes]
  omega

variable {bytes : List Byte}

theorem readJsonReceipt_written {entries : Entries F} (h : (Value.dict entries).Writable)
    (hbytes : encodedDocument (.dict entries) = .ok bytes) (hshort : bytes.length ≤ maxReceiptBytes) :
    readJsonReceipt bytes = some (ordered entries) := by
  have hhook : ∀ pairs : List (Text × Value F.Val), (pairs.map Prod.fst).Nodup →
      (Except.ok (objectOf pairs) : Except Empty (Value F.Val)) = .ok (.dict pairs) := fun pairs hpairs =>
    congrArg Except.ok (objectOf_nodup hpairs)
  obtain ⟨text, bytes', htext, hencoded, -, hwritten⟩ := encodedDocument_written h
  obtain rfl : bytes' = bytes := Except.ok.inj (hwritten.symm.trans hbytes)
  rw [readJsonReceipt, if_neg (Nat.not_lt.mpr hshort), utf8Strict_of_encode hencoded]
  dsimp only
  rw [loadsText_wideText hhook h.sized.tree htext]
  rfl

/-- **What is published can be read**: the receipt, or what replaces it. -/
theorem publish_read (base : ReceiptBase) {projection : Projection F}
    (h : (Value.dict projection.result).Writable) : ∃ bytes,
    publish base projection = .ok bytes ∧ readJsonReceipt bytes = some (ordered (terminalEntries base
      (if jsonSize F (terminal base projection) ≤ maxTerminalBytes then projection else overflow))) := by
  have hwritable : (terminal base projection).Writable := terminal_writable.mpr h
  have hoverflow : (terminal base (overflow : Projection F)).Writable := terminal_writable.mpr overflow_writable
  obtain ⟨-, bytes, -, -, hlength, hdocument⟩ := encodedDocument_written hwritable
  obtain ⟨-, other, -, -, hother, hdocument'⟩ := encodedDocument_written hoverflow
  have hpublish : publish base projection =
      if maxTerminalBytes < bytes.length then encodedDocument (terminal base (overflow : Projection F))
        else .ok bytes := by
    rw [publish, hdocument]
    rfl
  by_cases hshort : jsonSize F (terminal base projection) ≤ maxTerminalBytes
  · rw [if_neg (by omega)] at hpublish
    rw [if_pos hshort]
    exact ⟨bytes, hpublish, readJsonReceipt_written hwritable hdocument (hlength ▸ hshort.trans (by decide))⟩
  · rw [if_pos (by omega)] at hpublish
    rw [if_neg hshort]
    exact ⟨other, hpublish.trans hdocument', readJsonReceipt_written hoverflow hdocument' (hother ▸ overflow_fits)⟩

theorem encodedDocument_writable {v : Value F.Val} (h : v.Tree) (hbytes : encodedDocument v = .ok bytes) :
    v.Writable := by
  refine (encode_wideText_iff h).mp ?_
  unfold encodedDocument at hbytes
  split at hbytes
  · cases hbytes
  · next text htext =>
    split at hbytes
    · cases hbytes
    · next bytes' hencoded =>
      rw [htext, Option.bind_some, hencoded]
      rfl

theorem publish_writable {projection : Projection F} (htree : (Value.dict projection.result).Tree)
    (h : publish base projection = .ok bytes) : (Value.dict projection.result).Writable := by
  obtain ⟨encoded, hencoded, -⟩ := bind_eq_ok.mp h
  exact terminal_writable.mp (encodedDocument_writable (terminal_tree htree) hencoded)

end NativeRunner

end Receipts

/-! ## Recorded runs -/

section Recorded

open NativeRunner

variable {F : JsonFloats} {redact : Text → Text}

/-- The object under a key. -/
def inner (entries : Entries F) (name : String) : Entries F :=
  match field entries name with
  | .dict entries => entries
  | _ => []

/-- The bytes of the names, the punctuation, the states and the exit code. -/
def completedOverhead : Nat := 391

def completedSize (redact : Text → Text) (base : ReceiptBase) (result : WorkerResult F) : Nat :=
  base.size F + strSize (redact result.finalText) + jsonSize F (.dict (usage result.usage)) +
    ((selectedModel redact result).map fun model => 2 * strSize model + 27).getD 0 +
    ((session redact result).map fun session => strSize session + 14).getD 0 + completedOverhead

theorem jsonSize_completed (base : ReceiptBase) {result : WorkerResult F} (hcompleted : completed result = true)
    (hshort : textSize (replaced (redact result.finalText)) ≤ maxResultBytes) :
    jsonSize F (terminal base (resultProjection redact result)) = completedSize redact base result := by
  have houtcome : outcome result = (.completed, "SUCCEEDED", .success) := if_pos hcompleted
  have hnames : ["state", "SUCCEEDED", "result", "content", "model", "metrics", "selected_model", "session_id",
      "COMPLETED"].map (fun name => strSize (lit name)) = [7, 11, 8, 9, 7, 9, 16, 12, 11] := by decide
  have hexit : jsonSize F (.int ExitCode.success.value) = 1 := show textSize ((intText 0).getD []) = 1 by decide
  simp only [List.map_cons, List.map_nil, List.cons.injEq, and_true] at hnames
  rw [jsonSize_terminal]
  simp only [resultProjection, resultFields, houtcome, LaunchState.value, hexit, hnames, content,
    boundedText_short hshort, completedSize]
  cases selectedModel redact result <;> cases session redact result <;>
    simp only [known, jsonSize, entriesSize, List.filterMap_cons, List.filterMap_nil, Option.map_some, Option.map_none,
      hnames, List.length_cons, List.length_nil, Option.getD_some, Option.getD_none, if_true, terminalOverhead,
        completedOverhead] <;>
    omega

/-- A started run leaves a receipt that the daemon can read; of a completed one whose content is not cut, it is the
receipt of a completed launch with that content. -/
def Recorded (redact : Text → Text) (base : ReceiptBase) (driverType : DriverType) (cancelled : Bool)
    (execution : Option (WorkerResult F)) : Prop :=
  ∃ bytes, ∃ receipt : Entries F, publish base (projection redact driverType cancelled execution) = .ok bytes ∧
    readJsonReceipt bytes = some receipt ∧
    ∀ result, extracted driverType execution = some result → completed result = true →
      textSize (replaced (redact result.finalText)) ≤ maxResultBytes →
      field receipt "launch_state" = .str (lit "COMPLETED") ∧
        field (inner (inner receipt "result") "result") "content" = .str (redact result.finalText)

/-- What a result reports can be written, and leaves the receipt of a completed run short enough. -/
def Reportable (redact : Text → Text) (base : ReceiptBase) (result : WorkerResult F) : Prop :=
  NativeRunner.Written redact result ∧
    (completed result = true → textSize (replaced (redact result.finalText)) ≤ maxResultBytes →
      completedSize redact base result ≤ maxTerminalBytes)

theorem inner_ordered {entries : Entries F} (h : (entries.map Prod.fst).Nodup) (name : String) :
    inner (ordered entries) name = ordered (inner entries name) := by
  rw [inner, field_ordered h, inner]
  cases field entries name <;> rfl

theorem inner_keys {entries : Entries F} (h : (Value.dict entries).Tree) (name : String) :
    ((inner entries name).map Prod.fst).Nodup := by
  have htree := field_tree h name
  unfold inner
  split
  · next heq => exact (heq ▸ htree : (Value.dict _ : Value F.Val).Tree).1
  · exact List.nodup_nil

theorem receipt_read (base : ReceiptBase) {p : Projection F} (h : (Value.dict p.result).Tree) :
    field (ordered (terminalEntries base p)) "launch_state" = .str (lit p.state.value) ∧
      field (inner (inner (ordered (terminalEntries base p)) "result") "result") "content" =
        (field (inner p.result "result") "content").sorted := by
  have hkeys := terminalEntries_keys base p
  have hinner : inner (terminalEntries base p) "result" = p.result := rfl
  refine ⟨field_ordered hkeys "launch_state", ?_⟩
  rw [inner_ordered hkeys, hinner, inner_ordered h.1, field_ordered (inner_keys h "result")]

theorem resultProjection_content (redact : Text → Text) (result : WorkerResult F) :
    field (inner (resultProjection redact result).result "result") "content" = .str (content redact result) := by
  have hentries : (resultProjection redact result).result = (lit "state", .str (lit (outcome result).2.1)) ::
      (lit "result", .dict ((lit "content", .str (content redact result)) ::
        known [("model", (selectedModel redact result).map Value.str)])) ::
      known ((resultFields redact result).drop 2) := rfl
  rw [hentries]
  rfl

theorem Recorded.reportable {base : ReceiptBase} {driverType : DriverType} {cancelled : Bool}
    {execution : Option (WorkerResult F)} (h : Recorded redact base driverType cancelled execution)
    {result : WorkerResult F} (hresult : extracted driverType execution = some result) :
    Reportable redact base result := by
  obtain ⟨bytes, receipt, hpublish, hread, hrecorded⟩ := h
  have hprojection : projection redact driverType cancelled execution = resultProjection redact result := by
    rw [projection, hresult]
  rw [hprojection] at hpublish
  have hwritable := publish_writable resultProjection_tree hpublish
  refine ⟨resultProjection_writable.mp hwritable, fun hcompleted hshort => ?_⟩
  obtain ⟨bytes', hpublish', hread'⟩ := publish_read base hwritable
  by_contra hlong
  rw [if_neg fun hfits => hlong (jsonSize_completed base hcompleted hshort ▸ hfits)] at hread'
  have hbytes : bytes = bytes' := Except.ok.inj (hpublish.symm.trans hpublish')
  have hreceipt : receipt = ordered (terminalEntries base overflow) :=
    Option.some.inj (hread.symm.trans ((congrArg readJsonReceipt hbytes).trans hread'))
  have hstate := (hrecorded result hresult hcompleted hshort).1
  rw [hreceipt, (receipt_read base overflow_writable.sized.tree).1] at hstate
  have hne : lit "FAILED" ≠ lit "COMPLETED" := by decide
  exact hne (Value.str.inj hstate)

/-- **A started run always leaves a readable receipt**, with the content of a completed one, exactly when what it has
reported can be written and leaves the receipt short enough. -/
theorem recorded_iff (redact : Text → Text) (base : ReceiptBase) (driverType : DriverType) (cancelled : Bool)
    (execution : Option (WorkerResult F)) : Recorded redact base driverType cancelled execution ↔
      ∀ result, extracted driverType execution = some result → Reportable redact base result := by
  refine ⟨fun h result => h.reportable, fun h => ?_⟩
  have hwritable : (Value.dict (projection redact driverType cancelled execution).result).Writable := by
    unfold projection
    split
    · next result hresult => exact resultProjection_writable.mpr (h result hresult).1
    · exact raisedProjection_writable cancelled
  obtain ⟨bytes, hpublish, hread⟩ := publish_read base hwritable
  refine ⟨bytes, _, hpublish, hread, fun result hresult hcompleted hshort => ?_⟩
  have hprojection : projection redact driverType cancelled execution = resultProjection redact result := by
    rw [projection, hresult]
  have hfits := (h result hresult).2 hcompleted hshort
  rw [hprojection, if_pos (jsonSize_completed base hcompleted hshort ▸ hfits)]
  have houtcome : outcome result = (.completed, "SUCCEEDED", .success) := if_pos hcompleted
  obtain ⟨hstate, hcontent⟩ := receipt_read base (@resultProjection_tree _ redact result)
  refine ⟨hstate.trans ?_, hcontent.trans ?_⟩
  · rw [resultProjection, houtcome]
    rfl
  · rw [resultProjection_content, content, boundedText_short hshort]
    rfl

end Recorded

/-! ## A lone surrogate -/

section Surrogate

open NativeRunner

def sampleBase : ReceiptBase where
  launch := sampleRecord
  driverId := sampleName
  driverType := .claude
  profileRevision := 1
  profileFingerprint := sampleName
  executableSha256 := sampleName
  pid := 1
  birthIdentity := sampleName
  revision_written := intText_small (by decide)
  pid_written := intText_small (by decide)

/-- A run of Claude that has completed with one lone surrogate. -/
def surrogateResult : WorkerResult sampleFloats where
  state := .completed
  exitCode := some .success
  finalText := [codePoint 0xD800]
  model := none
  sessionId := none
  usage := ⟨none, none, none, none, none, none, none⟩
  error := none
  events := [⟨lit "workerOutput", false, some (lit "result")⟩]

/-- The bound counts a question mark in its place; the receipt cannot be encoded with it. -/
theorem surrogate_receipt_lost : extracted .claude (some surrogateResult) = some surrogateResult ∧
    completed surrogateResult = true ∧ textSize (replaced (id surrogateResult.finalText)) ≤ maxResultBytes ∧
    (∀ bytes, publish sampleBase (projection id .claude false (some surrogateResult)) ≠ .ok bytes) ∧
    ¬ Recorded id sampleBase .claude false (some surrogateResult) := by
  have hextracted : extracted .claude (some surrogateResult) = some surrogateResult :=
    Option.filter_some_pos (show validateProviderResult .claude surrogateResult = true by decide +kernel)
  have hshort : textSize (replaced (id surrogateResult.finalText)) ≤ maxResultBytes := by decide
  have hlost : ∀ bytes, publish sampleBase (projection id .claude false (some surrogateResult)) ≠ .ok bytes := by
    intro bytes hpublish
    rw [projection, hextracted] at hpublish
    have hwritten := resultProjection_writable.mp (publish_writable resultProjection_tree hpublish)
    rcases hwritten.content with hcut | hplain
    · exact absurd hcut (Nat.not_lt.mpr hshort)
    have hsurrogate : (codePoint 0xD800).surrogate = true := by decide
    exact Bool.false_ne_true ((hplain _ List.mem_cons_self).symm.trans hsurrogate)
  refine ⟨hextracted, rfl, hshort, hlost, ?_⟩
  rintro ⟨bytes, -, hpublish, -⟩
  exact hlost bytes hpublish

end Surrogate

end AgentFabric.LocalWorker.Wire
