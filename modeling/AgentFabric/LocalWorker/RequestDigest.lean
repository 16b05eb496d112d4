import AgentFabric.LocalWorker.RequestBody

/-!
# The digest of a request, on both ends

The adapter digests the request that it is about to post; the daemon digests the launch document that it has read. The
two agree, and a digest stands for one request document.
-/

namespace AgentFabric.LocalWorker.Wire

open AgentFabric.Lib

/-! ## Requests -/

/-- A value of the metadata of a request. A key of a mapping is its text `str(key)`, which two keys may share; a value
of another type has the items that iterating over it gives, if it can be iterated. -/
inductive Item (φ : Type) where
  | none
  | bool (b : Bool)
  | int (n : Int)
  | float (x : φ)
  | str (s : Text)
  | list (items : List (Item φ))
  | tuple (items : List (Item φ))
  | mapping (entries : List (Text × Item φ))
  | other (type : Text) (items : Option (List (Item φ)))

/-- What the adapter uses of the interpreter's library: the regular expressions of `redact`, the text of a value that
is none itself, and lower case. -/
structure Library (φ : Type) where
  sensitiveKey : Text → Bool
  redactText : Text → Text
  str : Item φ → Text
  lower : Text → Text

structure WorkerRequest (φ : Type) where
  runId : Text
  prompt : Text
  taskId : Option Text
  codeWriteRequired : Bool
  model : Option Text
  metadata : List (Text × Item φ)
  runId_ne : strip runId ≠ []
  prompt_ne : prompt ≠ []

/-- `metadata.get(key, default)`. -/
def WorkerRequest.get {φ : Type} (request : WorkerRequest φ) (key : String) (default : Item φ) : Item φ :=
  (request.metadata.lookup (lit key)).getD default

/-- Why no request is sent. -/
inductive Refusal where
  | unsafeWorkerRequest (message : String)
  | workerProtocolError (message : String)
  | raised (error : PyError)
deriving DecidableEq

section Payload

variable {F : JsonFloats} (P : Library F.Val)

mutual

/-- `redact`; a value of another type stays what it is, and the writers of JSON refuse it. -/
def redact : Item F.Val → Value F.Val
  | .none => .none
  | .bool b => .bool b
  | .int n => .int n
  | .float x => .float x
  | .str s => .str (P.redactText s)
  | .list items => .list (redactItems items)
  | .tuple items => .list (redactItems items)
  | .mapping entries => objectOf (redactEntries entries)
  | .other type _ => .foreign type none

def redactItems : List (Item F.Val) → List (Value F.Val)
  | [] => []
  | v :: items => redact v :: redactItems items

def redactEntries : List (Text × Item F.Val) → List (Text × Value F.Val)
  | [] => []
  | (key, v) :: entries =>
    (key, if P.sensitiveKey key then .str (lit "[REDACTED]") else redact v) :: redactEntries entries

end

/-- `str(value)`. -/
def Library.text {φ : Type} (P : Library φ) : Item φ → Text
  | .str s => s
  | v => P.str v

/-- `[str(item) for item in value]`, unless iterating raises. -/
def Library.texts {φ : Type} (P : Library φ) : Item φ → Option (List Text)
  | .str s => some (s.map fun c => [c])
  | .list items | .tuple items => some (items.map P.text)
  | .mapping entries => some (entries.map Prod.fst)
  | .other _ items => items.map fun items => items.map P.text
  | _ => none

/-- `value is True`. -/
def isTrue {φ : Type} : Item φ → Bool
  | .bool b => b
  | _ => false

def codeWriteCapabilities : List String := ["code_write", "file_write", "source_edit", "patch"]

def requestRequiresCodeWrite (request : WorkerRequest F.Val) : Except Refusal Bool :=
  if request.codeWriteRequired then .ok true
  else if isTrue (request.get "code_write" .none) || isTrue (request.get "codeWriteRequired" .none) then .ok true
  else
    let requested := match request.get "requested_capabilities" (.tuple []) with
      | .str s => .tuple [.str s]
      | v => v
    match P.texts requested with
    | some texts => .ok (texts.any fun text => decide (P.lower text ∈ codeWriteCapabilities.map lit))
    | none => .error (.raised .typeError)

/-- The role that the metadata ask for, or else that their labels do. -/
def workerRole (request : WorkerRequest F.Val) : Except Refusal Text :=
  match request.get "worker_role" .none with
  | .none =>
    match P.texts (request.get "labels" (.list [])) with
    | some labels => .ok (if lit "fastRouting" ∈ labels then lit "FAST_ROUTER" else lit "GENERAL_REASONING")
    | none => .error (.raised .typeError)
  | .str role =>
    if role ∈ roles.map lit then .ok role
    else .error (.unsafeWorkerRequest "Local Worker role is not authorized")
  | .list _ | .mapping _ => .error (.raised .typeError)
  | _ => .error (.unsafeWorkerRequest "Local Worker role is not authorized")

def buildJobPayload (request : WorkerRequest F.Val) : Except Refusal (Entries F) := do
  if ← requestRequiresCodeWrite P request then
    .error (.unsafeWorkerRequest "Local AI is not authorized for code-write tasks")
  else if request.model.isSome then
    .error (.unsafeWorkerRequest "Local model selection must remain server-side")
  else
    let role ← workerRole P request
    match request.get "response_schema" .none with
    | .none =>
      .ok [(lit "job_type", .str (lit "inference.chat")), (lit "role", .str role), (lit "prompt", .str request.prompt)]
    | .mapping entries =>
      .ok [(lit "job_type", .str (lit "inference.structured")), (lit "role", .str role),
        (lit "prompt", .str request.prompt), (lit "schema", redact P (.mapping entries))]
    | _ => .error (.workerProtocolError "Local Worker response_schema must be an object")

def buildV2JobPayload (driverId : Option Text) (request : WorkerRequest F.Val) : Except Refusal (Entries F) := do
  let payload ← buildJobPayload P request
  match driverId with
  | some driverId => .ok ((lit "driver_id", .str driverId) :: payload)
  | none => .ok payload

variable (hexdigest : List Byte → Text)

/-- The digest of immutable execution input, as the adapter computes it. -/
def LocalWorkerAdapter.requestDigest (driverId : Option Text) (request : WorkerRequest F.Val) :
    Except Refusal Text := do
  let payload ← buildJobPayload P request
  let job ← match driverId with
    | none => .ok payload
    | some driverId =>
      if identifier 127 driverId then .ok ((lit "driver_id", .str driverId) :: payload)
      else .error (.raised .valueError)
  let document : Value F.Val := .dict [(lit "protocol_version", .int 2),
    (lit "execution", .dict [(lit "run_id", .str request.runId), (lit "task_id", taskValue request.taskId)]),
    (lit "job", .dict job)]
  match wideText F document with
  -- a value that JSON has no text for, or an integer with too many digits
  | none => .error (.raised .typeError)
  | some text =>
    match utf8Encode text with
    | none => .error (.raised .unicodeEncodeError)
    | some bytes => .ok (lit "sha256:" ++ hexdigest bytes)

/-- The registry that the adapter has agreed on with the daemon. -/
structure Contract where
  authorityId : Text
  registryId : Text

/-- The body that `_start_job_v2` posts. -/
def launchDocument (contract : Contract) (driverId : Option Text) (key : Text) (request : WorkerRequest F.Val) :
    Except Refusal (Value F.Val) := do
  let payload ← buildV2JobPayload P driverId request
  let digest ← LocalWorkerAdapter.requestDigest P hexdigest driverId request
  .ok (.dict [(lit "protocol_version", .int 2), (lit "authority_id", .str contract.authorityId),
    (lit "registry_id", .str contract.registryId), (lit "idempotency_key", .str key),
    (lit "request_digest", .str digest),
    (lit "execution", .dict [(lit "run_id", .str request.runId), (lit "task_id", taskValue request.taskId)]),
    (lit "job", .dict payload)])

end Payload

/-! ## The same entries -/

section Same

variable {F : JsonFloats} {entries entries' : Entries F}

theorem field_same (h : (entries.map Prod.fst).Nodup) (h' : (entries'.map Prod.fst).Nodup)
    (hsame : (Value.dict entries).Same (.dict entries')) (name : String) :
    (field entries name).Same (field entries' name) := by
  have hsorted : ordered entries = ordered entries' := Value.dict.inj hsame
  rw [Value.Same, ← field_ordered h, ← field_ordered h', hsorted]

theorem eq_of_same_str {v : Value F.Val} {s : Text} (h : v.Same (.str s)) : v = .str s := by
  cases v with
  | str => exact h
  | _ => cases h

theorem eq_of_same_taskValue {v : Value F.Val} {taskId : Option Text} (h : v.Same (taskValue taskId)) :
    v = taskValue taskId := by
  cases taskId with
  | some => exact eq_of_same_str h
  | none =>
    cases v with
    | none => rfl
    | _ => cases h

theorem taskValue_injective {taskId taskId' : Option Text} (h : (taskValue taskId : Value F.Val) = taskValue taskId') :
    taskId = taskId' := by
  cases taskId <;> cases taskId' <;> cases h <;> rfl

theorem canonicalRequestDocument_same (runId : Text) (taskId : Option Text)
    (h : (Value.dict entries).Same (.dict entries')) :
    (canonicalRequestDocument runId taskId entries).Same (canonicalRequestDocument runId taskId entries') := by
  have hjob : (Value.dict entries).sorted = (Value.dict entries').sorted := h
  simp only [Value.Same, canonicalRequestDocument, Value.sorted, Value.sortedEntries] at hjob ⊢
  rw [hjob]

end Same

/-! ## What is posted -/

section Posted

variable {F : JsonFloats} {P : Library F.Val} {hexdigest : List Byte → Text} {π : Type}

mutual

theorem mute_redact (P : Library F.Val) : (v : Item F.Val) → (redact P v).Mute
  | .none => trivial
  | .bool _ => trivial
  | .int _ => trivial
  | .float _ => trivial
  | .str _ => trivial
  | .list items => mute_redactItems P items
  | .tuple items => mute_redactItems P items
  | .mapping entries => by
    obtain ⟨pairs, hobject, hkeys, hmem⟩ := objectOf_entries (redactEntries P entries)
    rw [redact, hobject]
    exact ⟨hkeys, Value.muteEntries_iff.mpr fun e he => mute_redactEntries P entries e (hmem e he)⟩
  | .other _ _ => rfl

theorem mute_redactItems (P : Library F.Val) : (items : List (Item F.Val)) → Value.MuteItems (redactItems P items)
  | [] => trivial
  | v :: items => ⟨mute_redact P v, mute_redactItems P items⟩

theorem mute_redactEntries (P : Library F.Val) : (entries : List (Text × Item F.Val)) →
    ∀ e ∈ redactEntries P entries, e.2.Mute
  | [], _, he => nomatch he
  | (key, v) :: entries, e, he => by
    rcases List.mem_cons.mp he with rfl | he
    · dsimp only
      split
      · exact trivial
      · exact mute_redact P v
    · exact mute_redactEntries P entries e he

end

/-- What is known of every payload. -/
structure Payload (payload : Entries F) : Prop where
  keys : (payload.map Prod.fst).Nodup
  mute : ∀ e ∈ payload, e.2.Mute

variable {request : WorkerRequest F.Val}

theorem buildJobPayload_payload {payload : Entries F} (h : buildJobPayload P request = .ok payload) :
    Payload payload ∧ lit "driver_id" ∉ payload.map Prod.fst := by
  unfold buildJobPayload at h
  cases hwrite : requestRequiresCodeWrite P request with
  | error =>
    rw [hwrite] at h
    cases h
  | ok =>
    rw [hwrite] at h
    simp only [bind, Except.bind] at h
    split at h
    · cases h
    split at h
    · cases h
    cases hrole : workerRole P request with
    | error =>
      rw [hrole] at h
      cases h
    | ok role =>
      rw [hrole] at h
      dsimp only at h
      split at h
      · cases h
        refine ⟨⟨show [lit "job_type", lit "role", lit "prompt"].Nodup by decide, ?_⟩,
          show lit "driver_id" ∉ [lit "job_type", lit "role", lit "prompt"] by decide⟩
        simp [Value.Mute]
      · next entries _ =>
        cases h
        refine ⟨⟨show [lit "job_type", lit "role", lit "prompt", lit "schema"].Nodup by decide, ?_⟩,
          show lit "driver_id" ∉ [lit "job_type", lit "role", lit "prompt", lit "schema"] by decide⟩
        simp [Value.Mute, mute_redact]
      · cases h

theorem buildV2JobPayload_payload {driverId : Option Text} {payload : Entries F}
    (h : buildV2JobPayload P driverId request = .ok payload) : Payload payload := by
  unfold buildV2JobPayload at h
  cases hbase : buildJobPayload P request with
  | error =>
    rw [hbase] at h
    cases h
  | ok =>
    rw [hbase] at h
    obtain ⟨hpayload, hfresh⟩ := buildJobPayload_payload hbase
    cases driverId with
    | none =>
      cases h
      exact hpayload
    | some =>
      cases h
      refine ⟨List.nodup_cons.mpr ⟨hfresh, hpayload.keys⟩, fun e he => ?_⟩
      rcases List.mem_cons.mp he with rfl | he
      · trivial
      · exact hpayload.mute e he

/-- The adapter digests the request document of what it posts. -/
theorem LocalWorkerAdapter.requestDigest_ok {driverId : Option Text} {digest : Text}
    (h : LocalWorkerAdapter.requestDigest P hexdigest driverId request = .ok digest) :
    ∃ payload bytes, buildV2JobPayload P driverId request = .ok payload ∧
      encodedDocument (canonicalRequestDocument request.runId request.taskId payload) = .ok bytes ∧
      digest = lit "sha256:" ++ hexdigest bytes := by
  have hwritten : ∀ payload : Entries F,
    (match wideText F (canonicalRequestDocument request.runId request.taskId payload) with
      | none => .error (.raised .typeError)
      | some text =>
        match utf8Encode text with
        | none => .error (.raised .unicodeEncodeError)
        | some bytes => .ok (lit "sha256:" ++ hexdigest bytes) : Except Refusal Text) = .ok digest →
      ∃ bytes, encodedDocument (canonicalRequestDocument request.runId request.taskId payload) = .ok bytes ∧
        digest = lit "sha256:" ++ hexdigest bytes := by
    intro payload h
    unfold encodedDocument
    cases htext : wideText F (canonicalRequestDocument request.runId request.taskId payload) with
    | none =>
      rw [htext] at h
      cases h
    | some text =>
      rw [htext] at h
      dsimp only at h ⊢
      cases hbytes : utf8Encode text with
      | none =>
        rw [hbytes] at h
        cases h
      | some bytes =>
        rw [hbytes] at h
        cases h
        exact ⟨bytes, rfl, rfl⟩
  unfold LocalWorkerAdapter.requestDigest at h
  unfold buildV2JobPayload
  cases hbase : buildJobPayload P request with
  | error =>
    rw [hbase] at h
    cases h
  | ok base =>
    rw [hbase] at h
    cases driverId with
    | none =>
      obtain ⟨bytes, hbytes, hdigest⟩ := hwritten base h
      exact ⟨base, bytes, rfl, hbytes, hdigest⟩
    | some driverId =>
      simp only [bind, Except.bind] at h
      split at h
      · obtain ⟨bytes, hbytes, hdigest⟩ := hwritten ((lit "driver_id", .str driverId) :: base) h
        exact ⟨_, bytes, rfl, hbytes, hdigest⟩
      · cases h

end Posted

/-! ## The two digests -/

section Agreement

variable {F : JsonFloats} {P : Library F.Val} {hexdigest : List Byte → Text} {π : Type}

/-- The entries of the body that the adapter posts. -/
def launchEntries (contract : Contract) (key digest : Text) (request : WorkerRequest F.Val) (payload : Entries F) :
    Entries F :=
  [(lit "protocol_version", .int 2), (lit "authority_id", .str contract.authorityId),
    (lit "registry_id", .str contract.registryId), (lit "idempotency_key", .str key),
    (lit "request_digest", .str digest),
    (lit "execution", .dict [(lit "run_id", .str request.runId), (lit "task_id", taskValue request.taskId)]),
    (lit "job", .dict payload)]

theorem launchEntries_keys (contract : Contract) (key digest : Text) (request : WorkerRequest F.Val)
    (payload : Entries F) : ((launchEntries contract key digest request payload).map Prod.fst).Nodup :=
  show [lit "protocol_version", lit "authority_id", lit "registry_id", lit "idempotency_key", lit "request_digest",
    lit "execution", lit "job"].Nodup by decide

theorem launchDocument_ok {contract : Contract} {driverId : Option Text} {key : Text} {request : WorkerRequest F.Val}
    {body : Value F.Val} (h : launchDocument P hexdigest contract driverId key request = .ok body) :
    ∃ payload digest, buildV2JobPayload P driverId request = .ok payload ∧
      LocalWorkerAdapter.requestDigest P hexdigest driverId request = .ok digest ∧
      body = .dict (launchEntries contract key digest request payload) := by
  unfold launchDocument at h
  cases hpayload : buildV2JobPayload P driverId request with
  | error =>
    rw [hpayload] at h
    cases h
  | ok payload =>
    rw [hpayload] at h
    cases hdigest : LocalWorkerAdapter.requestDigest P hexdigest driverId request with
    | error =>
      rw [hdigest] at h
      cases h
    | ok digest =>
      rw [hdigest] at h
      cases h
      exact ⟨payload, digest, rfl, rfl, rfl⟩

variable {payload job : Entries F}

theorem launchEntries_mute (contract : Contract) (key digest : Text) (request : WorkerRequest F.Val)
    (h : Payload payload) :
    (Value.dict (launchEntries contract key digest request payload)).Mute := by
  have htask : (taskValue request.taskId : Value F.Val).Mute := by
    cases request.taskId <;> trivial
  refine ⟨launchEntries_keys contract key digest request payload, Value.muteEntries_iff.mpr fun e he => ?_⟩
  simp only [launchEntries, List.mem_cons, List.not_mem_nil, or_false] at he
  rcases he with rfl | rfl | rfl | rfl | rfl | rfl | rfl
  · trivial
  · trivial
  · trivial
  · trivial
  · trivial
  · exact ⟨show [lit "run_id", lit "task_id"].Nodup by decide, trivial, htask, trivial⟩
  · exact ⟨h.keys, Value.muteEntries_iff.mpr h.mute⟩

variable {host : Host F π}

theorem jsonBody_written {S : Spelling F.Val}
    (hS : Spelling.Legible (F := F.toFloatFormat) S (fun _ => True) fun _ => True) {document : Value F.Val}
    (htree : document.Tree) {text : Text} (htext : S.renderBy document = some text) {bytes : List Byte}
    (hbytes : utf8Encode text = some bytes) (h : jsonBody host bytes = .ok entries) :
    document = .dict entries := by
  have hhook : ∀ pairs : List (Text × Value F.Val), (pairs.map Prod.fst).Nodup → objectHook pairs = .ok (.dict pairs) :=
    fun pairs hpairs => congrArg Except.ok (objectOf_nodup hpairs)
  have hwritten := loadsText_renderBy hS hhook htree.read htext
  unfold jsonBody at h
  split at h
  · cases h
  split at h
  · cases h
  · next text' hdecoded =>
    obtain rfl := utf8Strict_encode hbytes hdecoded
    split at h
    · cases h
    · cases h
    · next hread =>
      split at h
      · cases h
        exact Except.ok.inj (hwritten.symm.trans (strictLoads_ok hread))
      · cases h
    · cases h

theorem requestDigest_ok {runId : Text} {taskId : Option Text} {digest : Text}
    (h : requestDigest host runId taskId job = .ok digest) :
    ∃ text bytes, wideText F (canonicalRequestDocument runId taskId job) = some text ∧ utf8Encode text = some bytes ∧
      digest = lit "sha256:" ++ host.hexdigest bytes := by
  unfold requestDigest encodedDocument at h
  cases htext : wideText F (canonicalRequestDocument runId taskId job) with
  | none =>
    rw [htext] at h
    cases h
  | some text =>
    rw [htext] at h
    dsimp only at h
    cases hbytes : utf8Encode text with
    | none =>
      rw [hbytes] at h
      cases h
    | some bytes =>
      rw [hbytes] at h
      cases h
      exact ⟨text, bytes, rfl, hbytes, rfl⟩

theorem canonicalRequestDocument_tree (runId : Text) (taskId : Option Text) (h : (Value.dict job).Tree) :
    (canonicalRequestDocument runId taskId job).Tree := by
  have htask : (taskValue taskId : Value F.Val).Tree := by
    cases taskId <;> trivial
  exact ⟨show [lit "protocol_version", lit "execution", lit "job"].Nodup by decide, trivial,
    ⟨show [lit "run_id", lit "task_id"].Nodup by decide, trivial, htask, trivial⟩, h, trivial⟩

theorem launchHeader_same {contract : Contract} {key digest : Text} {request : WorkerRequest F.Val}
    {header : Header F} (htree : (Value.dict entries).Tree)
    (hsame : (Value.dict entries).Same (.dict (launchEntries contract key digest request payload)))
    (h : launchHeader host entries = .ok header) :
    header.runId = request.runId ∧ header.taskId = request.taskId ∧ (Value.dict header.job).Same (.dict payload) ∧
      field entries "request_digest" = .str digest := by
  have hof := launchHeader_of h
  have hfield := field_same htree.1 (launchEntries_keys contract key digest request payload) hsame
  have hexecution : (Value.dict header.execution).Same
      (.dict [(lit "run_id", .str request.runId), (lit "task_id", taskValue request.taskId)]) :=
    hof.execution ▸ hfield "execution"
  have hnested := field_tree htree "execution"
  rw [hof.execution] at hnested
  have hkeys : ([(lit "run_id", .str request.runId), (lit "task_id", taskValue request.taskId)] :
    Entries F).map Prod.fst
      |>.Nodup := show [lit "run_id", lit "task_id"].Nodup by decide
  have hmember := field_same hnested.1 hkeys hexecution
  have hrun := eq_of_same_str (hmember "run_id")
  have htask := eq_of_same_taskValue (hmember "task_id")
  have hjob := hfield "job"
  rw [hof.runId] at hrun
  rw [hof.taskId] at htask
  rw [hof.job] at hjob
  exact ⟨Value.str.inj hrun, taskValue_injective htask, hjob, eq_of_same_str (hfield "request_digest")⟩

/-- **The two ends agree on digests**: whatever spelling the body of a launch is posted in and in whatever order its
members come, the daemon computes the digest that the adapter has computed and sent. A digest stands for one request
document when the hash function is injective. -/
theorem digests_agree (P : Library F.Val) (host : Host F π) :
    (∀ (S : Spelling F.Val), Spelling.Legible (F := F.toFloatFormat) S (fun _ => True) (fun _ => True) →
      ∀ contract driverId key request body, launchDocument P host.hexdigest contract driverId key request = .ok body →
      ∃ digest, LocalWorkerAdapter.requestDigest P host.hexdigest driverId request = .ok digest ∧
        ∀ document text bytes entries header, document.Same body → S.renderBy document = some text →
          utf8Encode text = some bytes → jsonBody host bytes = .ok entries → launchHeader host entries = .ok header →
          document = .dict entries ∧ field entries "request_digest" = .str digest ∧
            requestDigest host header.runId header.taskId header.job = .ok digest) ∧
    (Function.Injective host.hexdigest → ∀ runId runId' taskId taskId' (job job' : Entries F) digest,
      (Value.dict job).Tree → (Value.dict job').Tree → requestDigest host runId taskId job = .ok digest →
      requestDigest host runId' taskId' job' = .ok digest →
      (canonicalRequestDocument runId taskId job).Same (canonicalRequestDocument runId' taskId' job')) := by
  constructor
  · intro S hS contract driverId key request body hbody
    obtain ⟨payload, digest, hpayload, hdigest, rfl⟩ := launchDocument_ok hbody
    refine ⟨digest, hdigest, ?_⟩
    intro document text bytes entries header hsame htext hbytes hread hheader
    have hmute := launchEntries_mute contract key digest request (buildV2JobPayload_payload hpayload)
    have htree := (Value.Mute.of_same hsame hmute).tree htext
    obtain rfl := jsonBody_written hS htree htext hbytes hread
    obtain ⟨hrun, htask, hjob, hsent⟩ := launchHeader_same htree hsame hheader
    refine ⟨rfl, hsent, ?_⟩
    obtain ⟨payload', encoded, hpayload', hencoded, rfl⟩ := LocalWorkerAdapter.requestDigest_ok hdigest
    obtain rfl := Except.ok.inj (hpayload.symm.trans hpayload')
    have hwide := wideText_same (canonicalRequestDocument_same header.runId header.taskId hjob)
    rw [requestDigest, encodedDocument, hwide, hrun, htask, ← encodedDocument, hencoded]
    rfl
  · intro hinjective runId runId' taskId taskId' job job' digest hjob hjob' hdigest hdigest'
    obtain ⟨text, bytes, htext, hbytes, rfl⟩ := requestDigest_ok hdigest
    obtain ⟨text', bytes', htext', hbytes', hsame⟩ := requestDigest_ok hdigest'
    obtain rfl := hinjective (List.append_cancel_left hsame)
    obtain rfl := utf8Encode_injective hbytes hbytes'
    exact wideText_injective (canonicalRequestDocument_tree runId taskId hjob)
      (canonicalRequestDocument_tree runId' taskId' hjob') htext htext'

end Agreement

/-! ## A request that is posted -/

/-- Regular expressions that match nothing. -/
def quietLibrary : Library sampleFloats.Val where
  sensitiveKey _ := false
  redactText s := s
  str _ := []
  lower s := s

/-- A request without metadata. -/
def plainRequest : WorkerRequest sampleFloats.Val where
  runId := lit "run"
  prompt := lit "p"
  taskId := none
  codeWriteRequired := false
  model := none
  metadata := []
  runId_ne := by decide
  prompt_ne := by decide

/-- Its job. -/
def plainPayload : Entries sampleFloats :=
  [(lit "driver_id", .str (lit "d")), (lit "job_type", .str (lit "inference.chat")),
    (lit "role", .str (lit "GENERAL_REASONING")), (lit "prompt", .str (lit "p"))]

def plainDocument : Value sampleFloats.Val :=
  .dict (launchEntries ⟨lit "a", lit "r"⟩ (lit "k") (lit "sha256:0") plainRequest plainPayload)

theorem plainPayload_built : buildV2JobPayload quietLibrary (some (lit "d")) plainRequest = .ok plainPayload := by
  rfl

theorem plainWritten : ∃ text bytes, wideText sampleFloats (canonicalRequestDocument plainRequest.runId
    plainRequest.taskId plainPayload) = some text ∧ utf8Encode text = some bytes := by
  have hplain : ∀ s ∈ [lit "driver_id", lit "d", lit "job_type", lit "inference.chat", lit "role",
      lit "GENERAL_REASONING", lit "prompt", lit "p"], Plain s := by
    intro s hs
    refine plain_of_ascii ?_
    revert s
    decide +kernel
  have hsized : (Value.dict plainPayload).Sized := by
    refine Value.sized_dict (show [lit "driver_id", lit "job_type", lit "role", lit "prompt"].Nodup by decide) ?_
    intro e he
    simp only [plainPayload, List.mem_cons, List.not_mem_nil, or_false] at he
    rcases he with rfl | rfl | rfl | rfl <;> exact ⟨trivial, fun n hn => nomatch List.mem_singleton.mp hn⟩
  have hencodable : EncodableRequest (F := sampleFloats) plainRequest.runId plainRequest.taskId plainPayload := by
    refine ⟨plain_of_ascii rfl, nofun, fun s hs => hplain s ?_⟩
    simpa [plainPayload, Value.leaves, Value.leavesEntries] using hs
  have hwritten := (encode_wideText_isSome (document_sized hsized)).mpr (document_encodable.mpr hencodable)
  obtain ⟨bytes, hbytes⟩ := Option.isSome_iff_exists.mp hwritten
  obtain ⟨text, htext, hencoded⟩ := Option.bind_eq_some_iff.mp hbytes
  exact ⟨text, bytes, htext, hencoded⟩

theorem plainDigest : LocalWorkerAdapter.requestDigest quietLibrary sampleHost.hexdigest (some (lit "d")) plainRequest =
    .ok (lit "sha256:0") := by
  obtain ⟨text, bytes, htext, hencoded⟩ := plainWritten
  have hbuilt : buildJobPayload quietLibrary plainRequest = .ok plainPayload.tail := rfl
  have hid : identifier 127 (lit "d") = true := by decide
  have hdocument : (Value.dict [(lit "protocol_version", .int 2),
      (lit "execution", .dict
        [(lit "run_id", .str plainRequest.runId), (lit "task_id", taskValue plainRequest.taskId)]),
      (lit "job", .dict ((lit "driver_id", .str (lit "d")) :: plainPayload.tail))] : Value sampleFloats.Val) =
      canonicalRequestDocument plainRequest.runId plainRequest.taskId plainPayload := rfl
  unfold LocalWorkerAdapter.requestDigest
  rw [hbuilt]
  simp only [bind, Except.bind, hid, if_true]
  rw [hdocument, htext]
  dsimp only
  rw [hencoded]
  rfl

def plainBody : Text :=
  lit "\x7b\"protocol_version\":2,\"authority_id\":\"a\",\"registry_id\":\"r\",\"idempotency_key\":\"k\"," ++
    lit "\"request_digest\":\"sha256:0\",\"execution\":\x7b\"run_id\":\"run\",\"task_id\":null\x7d,\"job\":" ++
    lit "\x7b\"driver_id\":\"d\",\"job_type\":\"inference.chat\",\"role\":\"GENERAL_REASONING\"," ++
    lit "\"prompt\":\"p\"\x7d\x7d"

def plainBytes : List Byte := plainBody.map fun c => byte c.val

theorem plainText : (wide sampleFloats).renderBy plainDocument = some plainBody := by
  simp only [plainDocument, launchEntries, plainRequest, plainPayload, taskValue, Spelling.renderBy,
    Spelling.renderEntriesBy, intText_two, bind, Option.bind, pure, Option.map]
  decide +kernel

/-- A daemon whose digests are the bytes. -/
def verbatimHost : Host sampleFloats Unit where
  recursionLimit := 1000
  equalsInt _ _ := false
  hexdigest bytes := bytes.map fun b => codePoint b.val
  authorityId := lit "a"
  registryId := lit "r"
  available := true
  find _ := some ()
  default := ()
  supportsExecution _ := true

theorem verbatimHost_injective : Function.Injective verbatimHost.hexdigest := by
  refine List.map_injective_iff.mpr fun a b h => ?_
  have hval : a.val % 0x110000 = b.val % 0x110000 := congrArg Fin.val h
  have ha := a.isLt
  have hb := b.isLt
  exact Fin.ext (by omega)

/-- A launch that is posted, and two orders of its job. -/
theorem digests_agree_plain :
    (∃ digest entries, ∃ header : Header sampleFloats,
      LocalWorkerAdapter.requestDigest quietLibrary sampleHost.hexdigest (some (lit "d")) plainRequest = .ok digest ∧
        plainDocument = .dict entries ∧ field entries "request_digest" = .str digest ∧
          requestDigest sampleHost header.runId header.taskId header.job = .ok digest) ∧
    (canonicalRequestDocument plainRequest.runId plainRequest.taskId plainPayload).Same
      (canonicalRequestDocument plainRequest.runId plainRequest.taskId plainPayload.reverse) := by
  constructor
  · have hbody : launchDocument quietLibrary sampleHost.hexdigest ⟨lit "a", lit "r"⟩ (some (lit "d"))
      (lit "k") plainRequest =
        .ok plainDocument := by
      rw [launchDocument, plainPayload_built, plainDigest]
      rfl
    obtain ⟨digest, hdigest, hagree⟩ :=
      (digests_agree quietLibrary sampleHost).1 (wide sampleFloats) wide_legible _ _ _ _ _ hbody
    have hread : (jsonBody sampleHost plainBytes >>= launchHeader sampleHost).toOption.isSome = true := by
      decide +kernel
    have hencoded : utf8Encode plainBody = some plainBytes := by decide +kernel
    cases hentries : jsonBody sampleHost plainBytes with
    | error stop =>
      rw [hentries] at hread
      cases hread
    | ok entries =>
      have hheader : (launchHeader sampleHost entries).toOption.isSome = true := by
        rw [hentries] at hread
        exact hread
      cases hstart : launchHeader sampleHost entries with
      | error stop =>
        rw [hstart] at hheader
        cases hheader
      | ok header =>
        exact ⟨digest, entries, header, hdigest, hagree plainDocument plainBody plainBytes entries header
          rfl plainText hencoded hentries hstart⟩
  · have hsame : (Value.dict plainPayload).Same (.dict plainPayload.reverse) := rfl
    have hdocument := canonicalRequestDocument_same plainRequest.runId plainRequest.taskId hsame
    obtain ⟨text, bytes, htext, hencoded⟩ := plainWritten
    have hfirst : requestDigest verbatimHost plainRequest.runId plainRequest.taskId plainPayload =
        .ok (lit "sha256:" ++ verbatimHost.hexdigest bytes) := by
      rw [requestDigest, encodedDocument, htext]
      dsimp only
      rw [hencoded]
      rfl
    have hsecond : requestDigest verbatimHost plainRequest.runId plainRequest.taskId plainPayload.reverse =
        .ok (lit "sha256:" ++ verbatimHost.hexdigest bytes) := by
      rw [requestDigest, encodedDocument, ← wideText_same hdocument, htext]
      dsimp only
      rw [hencoded]
      rfl
    have htree : ∀ payload : Entries sampleFloats, (payload.map Prod.fst).Nodup → (∀ e ∈ payload, e.2.Tree) →
        (Value.dict payload).Tree := fun payload hkeys h => ⟨hkeys, Value.formedEntries_iff.mpr h⟩
    have hkeys : [lit "driver_id", lit "job_type", lit "role", lit "prompt"].Nodup := by decide
    have hkeys' : [lit "prompt", lit "role", lit "job_type", lit "driver_id"].Nodup := by decide
    exact (digests_agree quietLibrary verbatimHost).2 verbatimHost_injective _ _ _ _ _ _ _
      (htree _ hkeys (by simp [plainPayload, Value.Formed])) (htree _ hkeys' (by simp [plainPayload, Value.Formed]))
      hfirst hsecond

end AgentFabric.LocalWorker.Wire
