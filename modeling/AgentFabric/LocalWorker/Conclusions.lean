import AgentFabric.LocalWorker.Network

/-!
# What the adapter sends and concludes

The requests and the conclusions of the adapter are sound for what its daemons have answered.
-/

namespace AgentFabric.LocalWorker

open AgentFabric.Lib Prog

/-- The identity under which a call sends the launch request of a run. -/
def launchOf : NetCall → Option (String × LaunchIdentity)
  | .send (.launchV2 runId under _) | .send (.launchV1 runId under _) => some (runId, under)
  | _ => none

/-- What is known of messages, and the identity that is expected of a run's launch. -/
structure Evidence where
  sent : HttpRequest → Nat → Prop
  given : Nat → WireResponse → Prop
  expects : String → LaunchIdentity → Prop

/-- Nothing is known. -/
def Evidence.trivial : Evidence := ⟨fun _ _ => True, fun _ _ => True, fun _ _ => True⟩

/-- The messages of a state. -/
def Network.evidence (s : Network) (expects : String → LaunchIdentity → Prop) : Evidence where
  sent request conn := ∃ registries, s.exchanges[conn]? = some ⟨request, registries⟩
  given conn w := ∃ source, ⟨conn, source, w⟩ ∈ s.answers
  expects := expects

namespace Evidence

variable (ev : Evidence)

def Answered (request : HttpRequest) (conn : Nat) (w : WireResponse) : Prop := ev.sent request conn ∧ ev.given conn w

/-- A 404 to a question about the job of a handle. -/
def Denied (handle : Handle) (conn : Nat) : Prop :=
  ∃ w, w.status = 404 ∧ (ev.Answered (.status handle.adapterType handle.jobId) conn w ∨
    ev.Answered (.cancel handle.adapterType handle.jobId) conn w)

end Evidence

/-- A receipt that says a launch was rejected before it began. -/
def WireResponse.Rejects (w : WireResponse) (key : String) : Prop :=
  ∃ data, w.data = some data ∧ data.launchState = .rejectedPreLaunch ∧ data.idempotencyKey = some key

/-- A launch under an identity that is expected of the run, a conclusion that an answer bears out, or another call. -/
def Sound (ev : Evidence) (c : NetCall) : Prop :=
  (∀ runId under, launchOf c = some (runId, under) → ev.expects runId under) ∧
    match c with
    | .rejected _ key conn w => w.Rejects key ∧ ev.given conn w
    | .notFound handle conn | .timedOut handle conn => ev.Denied handle conn
    | _ => True

/-- The replies that make the adapter's calls sound: messages as they were sent, and contracts as expected. -/
def Expected (ev : Evidence) : (c : NetCall) → c.Reply → Prop
  | .openLaunch runId, c => ev.expects runId (Contract.launchIdentity c)
  | .send request, conn => ev.sent request conn
  | .receive conn, r => ∀ w, r = .ok w → ev.given conn w
  | _, _ => True

/-- The calls that the adapter makes, and no daemon. -/
def NetCall.ofAdapter : NetCall → Prop
  | .take .. | .respond .. | .intrude .. | .daemon .. => False
  | _ => True

section

variable {digest : String → String} {cfg : AdapterConfig} {s : Network} {ev : Evidence}

/-! ## What stays -/

theorem netAct_exchanges (i : Nat) (s : Network) (env : NetEnvironment) (c : NetCall) :
    s.exchanges <+: (netAct digest cfg i s env c).2.exchanges := by
  cases c with
  | send request => exact List.prefix_append _ _
  | prepare runId =>
    simp only [netAct]
    split <;> exact List.prefix_refl _
  | _ => exact List.prefix_refl _

theorem netAct_answers (i : Nat) (s : Network) (env : NetEnvironment) (c : NetCall) :
    s.answers <+: (netAct digest cfg i s env c).2.answers := by
  cases c with
  | respond conn d response => exact List.prefix_append _ _
  | intrude conn response => exact List.prefix_append _ _
  | prepare runId =>
    simp only [netAct]
    split <;> exact List.prefix_refl _
  | _ => exact List.prefix_refl _

theorem getElem?_of_prefix {α : Type} {l l' : List α} (h : l <+: l') {n : Nat} {a : α} (ha : l[n]? = some a) :
    l'[n]? = some a := by
  obtain ⟨t, rfl⟩ := h
  rw [List.getElem?_append_left (List.getElem?_eq_some_iff.mp ha).1]
  exact ha

variable {expects : String → LaunchIdentity → Prop} {c : NetCall}

theorem Expected.mono {s' : Network} (he : s.exchanges <+: s'.exchanges) (ha : s.answers <+: s'.answers) {r : c.Reply}
    (h : Expected (s.evidence expects) c r) :
    Expected (s'.evidence expects) c r := by
  cases c with
  | send request =>
    obtain ⟨registries, h⟩ := h
    exact ⟨registries, getElem?_of_prefix he h⟩
  | receive conn =>
    intro w hw
    obtain ⟨source, h⟩ := h w hw
    exact ⟨source, ha.subset h⟩
  | openLaunch runId => exact h
  | _ => trivial

theorem netAct_expected (i : Nat) (s : Network) (env : NetEnvironment) (c : NetCall)
    (hopen : ∀ runId, c = .openLaunch runId → expects runId s.adapter.contract.launchIdentity) :
    Expected ((netAct digest cfg i s env c).2.evidence expects) c (netAct digest cfg i s env c).1 := by
  cases c with
  | openLaunch runId => exact hopen runId rfl
  | send request =>
    refine ⟨fun k => (s.worlds k).state, ?_⟩
    show (s.exchanges ++ [_])[s.exchanges.length]? = _
    simp
  | receive conn =>
    intro w hw
    replace hw : s.deliver env conn = .ok w := hw
    unfold Network.deliver at hw
    split at hw
    next a ha =>
      obtain ⟨n, -, hn⟩ := Option.bind_eq_some_iff.mp ha
      obtain ⟨hmem, hconn⟩ := List.mem_filter.mp (List.mem_of_getElem? hn)
      have hconn' : a.conn = conn := of_decide_eq_true hconn
      obtain rfl : a.response = w := Except.ok.inj hw
      exact ⟨a.source, by rw [← hconn']; exact hmem⟩
    · cases hw
  | _ => trivial

/-! ## The programs of the adapter -/

variable {α : Type}

/-- An adapter program whose calls are sound; the result satisfies `Q` and the error `E`. -/
abbrev AdapterUpholds (ev : Evidence) (Q : α → Prop) (E : AdapterError → Prop) (p : AdapterProg α) : Prop :=
  Upholds (Expected ev) (fun c => ¬ (c.ofAdapter ∧ Sound ev c)) Q E p

/-- Calls of the adapter that neither launch nor conclude. -/
def NetCall.plain : NetCall → Prop
  | .send (.launchV2 ..) | .send (.launchV1 ..) | .rejected .. | .notFound .. | .timedOut .. => False
  | c => c.ofAdapter

theorem NetCall.plain.sound (h : c.plain) : c.ofAdapter ∧ Sound ev c := by
  cases c with
  | send request =>
    refine ⟨True.intro, fun runId under hlaunch => ?_, True.intro⟩
    cases request with
    | launchV2 => exact h.elim
    | launchV1 => exact h.elim
    | _ => cases hlaunch
  | rejected => exact h.elim
  | notFound => exact h.elim
  | timedOut => exact h.elim
  | _ => exact ⟨h, fun _ _ hlaunch => (by cases hlaunch), True.intro⟩

theorem ask_sound {E : AdapterError → Prop} (h : c.ofAdapter ∧ Sound ev c) :
    AdapterUpholds ev (Expected ev c) E (askNet c) := Upholds.ask fun hn => hn h

theorem ask_plain {E : AdapterError → Prop} (h : c.plain) :
    AdapterUpholds ev (fun _ => True) E (askNet c) := (ask_sound h.sound).post (fun _ _ => trivial) fun _ h => h

theorem raising_plain {x : Except AdapterError α} : AdapterUpholds ev (fun _ => True) (fun _ => True) (raising x) := by
  refine Upholds.result ?_
  cases x <;> trivial

theorem throw_plain {e : AdapterError} {Q : α → Prop} : AdapterUpholds ev Q (fun _ => True) (throw e) :=
  Upholds.throw trivial

theorem exchange_sound {request : HttpRequest} (h : Sound ev (.send request)) :
    AdapterUpholds ev (fun r => ev.Answered request r.1 r.2) (fun e => ∀ status conn, e ≠ .httpStatus status conn)
      (exchange request) := by
  unfold exchange
  refine Upholds.bind (ask_sound ⟨trivial, h⟩) fun conn hconn =>
    Upholds.bind (ask_sound (NetCall.plain.sound (by trivial))) fun r hr => ?_
  refine Upholds.bind (Q := fun w => r = .ok w) (Upholds.result ?_) fun w hw => Upholds.pure ⟨hconn, hr w hw⟩
  cases r with
  | ok w => rfl
  | error f => cases f <;> exact fun _ _ h => (by cases h)

theorem negotiate_sound : AdapterUpholds ev (fun _ => True) (fun _ => True) negotiateJobContract := by
  unfold negotiateJobContract
  exact Upholds.bind (ask_plain trivial) fun _ _ => Upholds.bind (ask_plain trivial) fun _ _ =>
    Upholds.bind raising_plain fun _ _ => ask_plain trivial

def LaunchObservation.Borne (ev : Evidence) (key : String) (o : LaunchObservation) : Prop :=
  ∀ conn w, o.source = some (conn, w) →
    (o.state = .rejectedPreLaunch → w.Rejects key) ∧ ev.given conn w

theorem launchObservation_rejects {conn : Nat} {w : WireResponse} {request : WorkerRequest} {key digest : String}
    {expected : AuthoritySnapshot} {driver : Option DriverChoice} {allow : Bool} {o : LaunchObservation}
    (h : launchObservation conn w request key digest expected driver allow = .ok o) :
    o.source = some (conn, w) ∧ (o.state = .rejectedPreLaunch → w.Rejects key) := by
  unfold launchObservation at h
  simp only [bind_eq_ok, orRaise_eq_ok, ensure_eq_ok] at h
  obtain ⟨data, hdata, -, -, -, -, -, -, -, -, -, hkey, -, -, disposition, -, h⟩ := h
  have hmade : ∃ state d handle receiptId, o = ⟨state, d, handle, receiptId, some (conn, w)⟩ ∧
      state = data.launchState := by
    split at h
    · simp only [bind_eq_ok, ensure_eq_ok, exists_const, pure_eq_ok] at h
      obtain ⟨-, -, rfl⟩ := h
      exact ⟨_, _, _, _, rfl, rfl⟩
    · simp only [bind_eq_ok, ensure_eq_ok, exists_const] at h
      obtain ⟨-, -, -, h⟩ := h
      split at h
      · simp only [bind_eq_ok, ensure_eq_ok, exists_const, pure_eq_ok] at h
        obtain ⟨-, -, rfl⟩ := h
        exact ⟨_, _, _, _, rfl, rfl⟩
      · simp only [bind_eq_ok, ensure_eq_ok, exists_const, pure_eq_ok] at h
        obtain ⟨-, -, rfl⟩ := h
        exact ⟨_, _, _, _, rfl, rfl⟩
  obtain ⟨state, d, handle, receiptId, rfl, rfl⟩ := hmade
  exact ⟨rfl, fun hs => ⟨data, hdata, hs, hkey⟩⟩

variable {requestDigest : RequestDigest}

theorem observe_sound {request : HttpRequest} (h : Sound ev (.send request)) (ctx : LaunchContext) (allow : Bool) :
    AdapterUpholds ev (LaunchObservation.Borne ev ctx.key) (fun _ => True) (do
      let (conn, response) ← exchange request
      let c ← askNet .contract
      raising (launchObservation conn response ctx.request ctx.key ctx.digest ctx.expected c.driver allow)) := by
  refine Upholds.bind ((exchange_sound h).post (fun _ h => h) fun _ _ => trivial) ?_
  rintro ⟨conn, w⟩ hw
  refine Upholds.bind (ask_plain trivial) fun c _ => Upholds.result ?_
  cases ho : launchObservation conn w ctx.request ctx.key ctx.digest ctx.expected c.driver allow with
  | error e => trivial
  | ok o =>
    intro conn' w' hsource
    obtain ⟨hmade, hrejects⟩ := launchObservation_rejects ho
    rw [hmade] at hsource
    cases hsource
    exact ⟨hrejects, hw.2⟩

theorem unknown_borne (key : String) : unknownLaunchObservation.Borne ev key := fun _ _ h => (by cases h)

theorem lookupLaunchV2_sound (ctx : LaunchContext) (driverId : Option String) :
    AdapterUpholds ev (LaunchObservation.Borne ev ctx.key) (fun _ => True) (lookupLaunchV2 ctx driverId) := by
  unfold lookupLaunchV2
  have hlookup : (NetCall.send (.lookup ctx.key driverId)).plain := trivial
  refine Upholds.rescue (observe_sound hlookup.sound.2 ctx true) fun e _ => ?_
  split
  · exact throw_plain
  · exact Upholds.pure (unknown_borne _)
  · exact Upholds.pure (unknown_borne _)
  · exact Upholds.pure (unknown_borne _)
  · exact throw_plain

theorem launchOrLookup_sound (ctx : LaunchContext) (job : Object)
    (h : ev.expects ctx.request.runId ⟨.httpV2, ctx.expected.adapterInstanceId⟩) :
    AdapterUpholds ev (LaunchObservation.Borne ev ctx.key) (fun _ => True) (launchOrLookup cfg ctx job) := by
  unfold launchOrLookup
  have hlookup : AdapterUpholds ev (LaunchObservation.Borne ev ctx.key) (fun _ => True) (do
      let c ← askNet .contract
      lookupLaunchV2 ctx (c.driverId cfg)) :=
    Upholds.bind (ask_plain trivial) fun _ _ => lookupLaunchV2_sound ctx _
  refine Upholds.rescue (observe_sound ⟨?_, trivial⟩ ctx false) fun e _ => ?_
  · rintro runId under hlaunch
    cases hlaunch
    exact h
  · split
    · exact throw_plain
    · exact hlookup
    · exact hlookup
    · exact hlookup
    · exact throw_plain

theorem concludeLaunch_sound (ctx : LaunchContext) {o : LaunchObservation} (h : o.Borne ev ctx.key) :
    AdapterUpholds ev (fun _ => True) (fun _ => True) (concludeLaunch ctx o) := by
  unfold concludeLaunch
  split
  next conn w hstate hsource =>
    have hborne := h conn w hsource
    have hsound : Sound ev (.rejected ctx.request.runId ctx.key conn w) :=
      ⟨fun _ _ hlaunch => (by cases hlaunch), hborne.1 hstate, hborne.2⟩
    exact Upholds.bind (ask_sound ⟨trivial, hsound⟩) fun _ _ => throw_plain
  · exact Upholds.pure trivial

theorem postLaunch_sound (ctx : LaunchContext) (job : Object)
    (h : ev.expects ctx.request.runId ⟨.httpV2, ctx.expected.adapterInstanceId⟩) (replays : Nat) :
    AdapterUpholds ev (fun _ => True) (fun _ => True) (postLaunch cfg ctx job replays) := by
  induction replays with
  | zero => exact throw_plain
  | succ replays ih =>
    unfold postLaunch
    refine Upholds.bind (launchOrLookup_sound ctx job h) fun o ho =>
      Upholds.bind (concludeLaunch_sound ctx ho) fun handle _ => ?_
    split
    · exact Upholds.pure trivial
    · split
      · exact ih
      · exact throw_plain

theorem v2ContractIdentity_ok {c : Contract} {expected : AuthoritySnapshot} (h : v2ContractIdentity c = .ok expected) :
    c.launchIdentity = ⟨.httpV2, expected.adapterInstanceId⟩ := by
  unfold v2ContractIdentity at h
  split at h
  next hversion _ _ =>
    cases h
    simp [Contract.launchIdentity, Contract.adapterType, of_decide_eq_true hversion]
  · cases h

theorem startJobV2_sound (request : WorkerRequest) (key : String) (c : Contract) (job : Object)
    (h : ev.expects request.runId c.launchIdentity) :
    AdapterUpholds ev (fun _ => True) (fun _ => True) (startJobV2 cfg requestDigest request key c job) := by
  unfold startJobV2
  refine Upholds.bind (Q := fun expected => v2ContractIdentity c = .ok expected) (Upholds.result ?_)
    fun expected hc => ?_
  · cases v2ContractIdentity c <;> trivial
  rw [v2ContractIdentity_ok hc] at h
  refine Upholds.bind (lookupLaunchV2_sound _ _) fun o ho => Upholds.bind (concludeLaunch_sound _ ho) fun handle _ => ?_
  split
  · exact Upholds.pure trivial
  · split
    · exact postLaunch_sound _ _ h _
    · exact throw_plain

theorem startJobV1_sound (request : WorkerRequest) (c : Contract) (job : Object)
    (h : ev.expects request.runId c.launchIdentity) :
    AdapterUpholds ev (fun _ => True) (fun _ => True) (startJobV1 request c job) := by
  unfold startJobV1
  have hsend : Sound ev (.send (.launchV1 request.runId c.launchIdentity job)) := by
    refine ⟨fun runId under hlaunch => ?_, trivial⟩
    cases hlaunch
    exact h
  refine Upholds.bind ((exchange_sound hsend).post (fun _ _ => trivial) fun _ _ => trivial) ?_
  rintro ⟨conn, w⟩ -
  dsimp only
  split
  on_goal 1 => refine Upholds.bind (Q := fun _ => True) throw_plain fun _ _ => ?_
  all_goals
    refine Upholds.bind raising_plain fun data _ => ?_
    split
    · exact throw_plain
    · exact Upholds.bind (ask_plain trivial) fun _ _ => Upholds.pure trivial

/-- **A launch is sent under the contract that was open for it.** -/
theorem startJob_sound (request : WorkerRequest) (key : String) :
    AdapterUpholds ev (fun _ => True) (fun _ => True) (startJob cfg requestDigest request key) := by
  unfold startJob
  refine Upholds.bind raising_plain fun payload _ => Upholds.bind raising_plain fun _ _ =>
    Upholds.bind (ask_plain trivial) fun ⟨pending, observed⟩ _ => Upholds.bind raising_plain fun _ _ => ?_
  have hopen : AdapterUpholds ev (fun _ => True) (fun _ => True) (do
      let c ← askNet (.openLaunch request.runId)
      let handle ←
        if c.protocolVersion = 2 then do
          raising (ensure (validAdapterKey key = true)
            (.valueError "Local Worker v2 idempotency key must be 1-200 safe ASCII characters"))
          startJobV2 cfg requestDigest request key c (payload (c.driverId cfg))
        else startJobV1 request c (payload none)
      askNet (.remember handle)
      return handle) := by
    refine Upholds.bind (ask_sound (NetCall.plain.sound (by trivial))) fun c hc => ?_
    have hkeep : ∀ handle, AdapterUpholds ev (fun _ => True) (fun _ => True) (do
        askNet (.remember handle)
        return handle) :=
      fun handle => Upholds.bind (ask_plain trivial) fun _ _ => Upholds.pure trivial
    dsimp only
    split
    · exact Upholds.bind raising_plain fun _ _ =>
        Upholds.bind (startJobV2_sound request key c _ hc) fun handle _ => hkeep handle
    · exact Upholds.bind (startJobV1_sound request c _ hc) fun handle _ => hkeep handle
  dsimp only
  split
  · refine Upholds.bind (ask_plain trivial) fun _ _ => Upholds.bind raising_plain fun _ _ => hopen
  · exact hopen

theorem lookupLaunchOperation_sound (request : WorkerRequest) (key : String) :
    AdapterUpholds ev (fun _ => True) (fun _ => True) (lookupLaunchOperation cfg requestDigest request key) := by
  unfold lookupLaunchOperation
  refine Upholds.bind raising_plain fun payload _ => Upholds.bind raising_plain fun _ _ =>
    Upholds.bind (ask_plain trivial) fun r _ => ?_
  split
  · exact Upholds.pure trivial
  · refine Upholds.bind (ask_plain trivial) fun c _ => ?_
    have hlookup : AdapterUpholds ev (fun _ => True) (fun _ => True) (do
        let expected ← raising (v2ContractIdentity c)
        lookupLaunchV2 ⟨request, key, expected,
          requestDigest request.runId request.taskId (payload (c.driverId cfg)).canonical⟩ (c.driverId cfg)) :=
      Upholds.bind raising_plain fun _ _ => (lookupLaunchV2_sound _ _).post (fun _ _ => trivial) fun _ h => h
    split
    · exact Upholds.pure trivial
    · exact hlookup

/-! ## Handles -/

/-- The HTTP status that ends a question about a job was the answer to it. -/
def StatusBorne (ev : Evidence) (handle : Handle) (e : AdapterError) : Prop :=
  ∀ status conn, e = .httpStatus status conn →
    ∃ w, w.status = status ∧ ev.Answered (.status handle.adapterType handle.jobId) conn w

theorem jobStatus_sound (handle : Handle) :
    AdapterUpholds ev (fun _ => True) (StatusBorne ev handle) (jobStatus handle) := by
  unfold jobStatus
  have hask : (NetCall.send (.status handle.adapterType handle.jobId)).plain := trivial
  refine Upholds.bind ((exchange_sound hask.sound.2).post (fun _ h => h)
    fun e he status conn h => absurd h (he status conn)) ?_
  rintro ⟨conn, w⟩ hw
  have hnone : ∀ {β : Type} {x : Except AdapterError β}, (∀ status conn, x ≠ .error (.httpStatus status conn)) →
      AdapterUpholds ev (fun _ => True) (StatusBorne ev handle) (raising x) := by
    intro β x hx
    refine Upholds.result ?_
    cases x with
    | ok a => trivial
    | error e => exact fun status conn h => absurd (congrArg Except.error h) (hx status conn)
  have hrest : AdapterUpholds ev (fun _ => True) (StatusBorne ev handle) (do
      let data ← raising (orRaise w.data (.protocol "Local Worker job status response must be an object"))
      let c ← askNet .contract
      if handle.adapterType = .httpV2 ∧ c.driver ≠ none then
        let expected ← raising (v2ContractIdentity c)
        raising (validateV2Authority expected data
          "Local Worker job status authority does not match the negotiated registry")
        raising (validateV2DriverReceipt c.driver data)
      return data) := by
    refine Upholds.bind (hnone ?_) fun data _ => Upholds.bind (ask_plain trivial) fun c _ => ?_
    · cases w.data <;> exact fun _ _ h => (by cases h)
    dsimp only
    split
    · refine Upholds.bind (hnone ?_) fun expected _ => Upholds.bind (hnone ?_) fun _ _ =>
        Upholds.bind (hnone ?_) fun _ _ => Upholds.pure trivial
      · unfold v2ContractIdentity
        split <;> exact fun _ _ h => (by cases h)
      · unfold validateV2Authority ensure
        split <;> exact fun _ _ h => (by cases h)
      · intro status conn h
        unfold validateV2DriverReceipt ensure at h
        split at h
        · cases h
        · split at h
          · split at h
            · cases h
            · cases h
          · cases h
    · exact Upholds.pure trivial
  dsimp only
  split
  · refine Upholds.bind (Q := fun _ => True) (Upholds.throw ?_) fun _ _ => hrest
    rintro status conn' h
    cases h
    exact ⟨w, rfl, hw⟩
  · exact hrest

theorem reconcileJob_sound (handle : Handle) :
    AdapterUpholds ev (fun _ => True) (fun _ => True) (reconcileJob digest cfg handle) := by
  unfold reconcileJob
  dsimp only
  split
  on_goal 1 =>
    refine Upholds.bind negotiate_sound.attempt fun contract _ => ?_
    split
    · exact Upholds.pure trivial
  on_goal 2 =>
    refine Upholds.bind (Q := fun r => r = .ok ()) (Upholds.pure rfl) fun contract h => ?_
    subst h
  all_goals
    refine Upholds.bind (ask_plain trivial) fun c _ => ?_
    split
    · exact Upholds.pure trivial
    · refine Upholds.bind (jobStatus_sound handle).attempt fun answer hanswer => ?_
      split
      · exact Upholds.pure trivial
      next status conn =>
        split
        next h404 =>
          obtain ⟨w, hw, hans⟩ := hanswer status conn rfl
          have hdenied : ev.Denied handle conn := ⟨w, hw.trans h404, Or.inl hans⟩
          exact Upholds.bind (ask_sound ⟨trivial, fun _ _ hlaunch => (by cases hlaunch), hdenied⟩) fun _ _ =>
            Upholds.pure trivial
        · exact Upholds.pure trivial
      · exact Upholds.pure trivial
      · exact Upholds.pure trivial
      · exact throw_plain

theorem settleTimeout_sound (handle : Handle) :
    AdapterUpholds ev (fun _ => True) (fun _ => True) (settleTimeout handle) := by
  unfold settleTimeout
  have hask : (NetCall.send (.cancel handle.adapterType handle.jobId)).plain := trivial
  refine Upholds.bind (exchange_sound hask.sound.2).attempt fun answer hanswer => ?_
  split
  · exact throw_plain
  · exact throw_plain
  next conn w =>
    split
    next h404 =>
      have hdenied : ev.Denied handle conn := ⟨w, h404, Or.inr hanswer⟩
      exact Upholds.bind (ask_sound ⟨trivial, fun _ _ hlaunch => (by cases hlaunch), hdenied⟩) fun _ _ =>
        Upholds.pure trivial
    · split
      · exact throw_plain
      · refine Upholds.bind (jobStatus_sound handle).attempt fun answer hanswer => ?_
        split
        next status conn =>
          split
          next h404 =>
            obtain ⟨w, hw, hans⟩ := hanswer status conn rfl
            have hdenied : ev.Denied handle conn := ⟨w, hw.trans h404, Or.inl hans⟩
            exact Upholds.bind (ask_sound ⟨trivial, fun _ _ hlaunch => (by cases hlaunch), hdenied⟩) fun _ _ =>
              Upholds.pure trivial
          · exact throw_plain
        · exact throw_plain
        · exact throw_plain
        · exact throw_plain
        · split
          · exact throw_plain
          · exact raising_plain

theorem jobStatus_plain (handle : Handle) : AdapterUpholds ev (fun _ => True) (fun _ => True) (jobStatus handle) :=
  (jobStatus_sound handle).post (fun _ h => h) fun _ _ => trivial

theorem pollJob_sound (handle : Handle) (polls : Nat) :
    AdapterUpholds ev (fun _ => True) (fun _ => True) (pollJob handle polls) := by
  induction polls with
  | zero => exact Upholds.pure trivial
  | succ polls ih =>
    have hpoll : AdapterUpholds ev (fun _ => True) (fun _ => True) (do
        if ← askNet .expired then return some (← settleTimeout handle)
        let data ← jobStatus handle
        if data.state = .knownRunning then pollJob handle polls
        else return some (← raising (terminalRunState data))) := by
      refine Upholds.bind (ask_plain trivial) fun expired _ => ?_
      split
      · exact Upholds.bind (settleTimeout_sound handle) fun _ _ => Upholds.pure trivial
      · refine Upholds.bind (jobStatus_plain handle) fun data _ => ?_
        split
        · exact ih
        · exact Upholds.bind raising_plain fun _ _ => Upholds.pure trivial
    unfold pollJob
    dsimp only
    split
    · exact Upholds.bind (Q := fun c => c = false) (Upholds.pure rfl) fun cancelled h => by subst h; exact hpoll
    · refine Upholds.bind (ask_plain trivial) fun cancelled _ => ?_
      split
      · exact Upholds.pure trivial
      · exact hpoll

theorem requireHandle_sound (runId : String) (handle : Handle) :
    AdapterUpholds ev (fun _ => True) (fun _ => True) (requireHandle digest cfg runId handle) := by
  unfold requireHandle
  refine Upholds.bind (ask_plain trivial) fun c _ => ?_
  split
  · exact throw_plain
  · exact raising_plain

theorem negotiated_sound {handle : Handle} {p : AdapterProg α}
    (hp : AdapterUpholds ev (fun _ => True) (fun _ => True) p) :
    AdapterUpholds ev (fun _ => True) (fun _ => True) (do
      if handle.adapterType = .httpV2 then negotiateJobContract
      p) := by
  dsimp only
  split
  · exact Upholds.bind negotiate_sound fun _ _ => hp
  · exact hp

theorem resumeJob_sound (runId : String) (handle : Handle) (polls : Nat) :
    AdapterUpholds ev (fun _ => True) (fun _ => True) (resumeJob digest cfg runId handle polls) := by
  refine negotiated_sound (Upholds.bind (requireHandle_sound runId handle) fun _ _ =>
    Upholds.bind (ask_plain trivial) fun _ _ => ?_)
  exact Upholds.bind ((pollJob_sound handle polls).attempt) fun _ _ => Upholds.bind (ask_plain trivial) fun _ _ =>
    raising_plain

theorem collectJob_sound (runId : String) (handle : Handle) :
    AdapterUpholds ev (fun _ => True) (fun _ => True) (collectJob digest cfg runId handle) :=
  negotiated_sound (Upholds.bind (requireHandle_sound runId handle) fun _ _ =>
    Upholds.bind (jobStatus_plain handle) fun _ _ => Upholds.bind raising_plain fun _ _ =>
      Upholds.bind (ask_plain trivial) fun _ _ => Upholds.pure trivial)

theorem cancelJob_sound (handle : Handle) :
    AdapterUpholds ev (fun _ => True) (fun _ => True) (cancelJob digest cfg handle) := by
  refine negotiated_sound (Upholds.bind (ask_plain trivial) fun c _ => Upholds.bind raising_plain fun expected _ =>
    Upholds.bind raising_plain fun _ _ => ?_)
  have hask : (NetCall.send (.cancel handle.adapterType handle.jobId)).plain := trivial
  refine Upholds.bind ((exchange_sound hask.sound.2).post (fun _ _ => trivial) fun _ _ => trivial) fun ⟨conn, w⟩ _ => ?_
  dsimp only
  split
  · exact Upholds.pure trivial
  · refine Upholds.bind raising_plain fun data _ => ?_
    split
    · exact Upholds.bind raising_plain fun _ _ => Upholds.bind raising_plain fun _ _ =>
        Upholds.bind (ask_plain trivial) fun _ _ => Upholds.bind raising_plain fun _ _ => raising_plain
    · split
      · exact Upholds.bind (ask_plain trivial) fun _ _ => Upholds.pure trivial
      · exact Upholds.pure trivial

theorem cancelRun_sound (runId : String) :
    AdapterUpholds ev (fun _ => True) (fun _ => True) (cancelRun digest cfg runId) := by
  unfold cancelRun
  refine Upholds.bind (ask_plain trivial) fun handle _ => ?_
  split
  · exact Upholds.pure trivial
  · exact cancelJob_sound _

theorem discard_sound {p : AdapterProg α} (hp : AdapterUpholds ev (fun _ => True) (fun _ => True) p) :
    AdapterUpholds ev (fun _ => True) (fun _ => True) (discard p) :=
  Upholds.bind hp fun _ _ => Upholds.pure trivial

theorem startIf_sound {ready : AdapterProg Bool} (hready : AdapterUpholds ev (fun _ => True) (fun _ => True) ready)
    (request : WorkerRequest) (key : String) :
    AdapterUpholds ev (fun _ => True) (fun _ => True) (do
      negotiateJobContract
      if ← ready then discard (startJob cfg requestDigest request key)) := by
  refine Upholds.bind negotiate_sound fun _ _ => Upholds.bind hready fun ready _ => ?_
  split
  · exact discard_sound (startJob_sound request key)
  · exact Upholds.pure trivial

theorem operate_sound (request : AdapterRequest) :
    AdapterUpholds ev (fun _ => True) (fun _ => True) (operate digest cfg requestDigest request) := by
  cases request with
  | negotiate => exact negotiate_sound
  | dispatch request key =>
    have hask : (NetCall.prepare request.runId).plain := trivial
    exact startIf_sound (ask_plain hask) request key
  | recoverLaunch request key =>
    have hask : (NetCall.recheck request.runId).plain := trivial
    exact startIf_sound (ask_plain hask) request key
  | lookupLaunch request key => exact discard_sound (lookupLaunchOperation_sound request key)
  | reconcile handle => exact discard_sound (reconcileJob_sound handle)
  | resume runId handle polls => exact discard_sound (resumeJob_sound runId handle polls)
  | collect runId handle => exact discard_sound (collectJob_sound runId handle)
  | cancelJob handle => exact discard_sound (cancelJob_sound handle)
  | cancelRun runId => exact discard_sound (cancelRun_sound runId)

/-! ## Schedules -/

theorem sound_of_daemon (h : ¬ c.ofAdapter) : Sound ev c := by
  cases c with
  | take | respond | intrude | daemon => exact ⟨fun _ _ hlaunch => (by cases hlaunch), trivial⟩
  | _ => exact absurd trivial h

theorem onDaemon_sound (d : Daemon) (p : Prog Call Call.Reply α) :
    (onDaemon d p).Avoids (Expected ev) (fun c => ¬ Sound ev c) fun _ => True := by
  unfold onDaemon
  induction p with
  | ret a => trivial
  | call c next ih => exact ⟨fun h => h (sound_of_daemon id), fun r _ => ih r⟩

theorem serveNet_sound (request : NetRequest) :
    (serveNet digest cfg requestDigest request).Avoids (Expected ev) (fun c => ¬ Sound ev c) fun _ => True := by
  cases request with
  | adapter request =>
    exact Avoids.bind ((operate_sound request).of_bad fun c h hsound => h hsound.2) fun _ _ => trivial
  | answer d conn identity polls =>
    refine ⟨fun h => h (sound_of_daemon id), fun e _ => ?_⟩
    cases e with
    | none => trivial
    | some e =>
      refine Avoids.bind (onDaemon_sound d _) fun response _ => ?_
      cases response <;> exact ⟨fun h => h (sound_of_daemon id), fun _ _ => trivial⟩
  | client request => exact onDaemon_sound request.daemon _
  | stranger conn response => exact ⟨fun h => h (sound_of_daemon id), fun _ _ => trivial⟩

theorem operate_ofAdapter (request : AdapterRequest) :
    Obeys NetCall.ofAdapter (operate digest cfg requestDigest request) := by
  have hall : ∀ (c : NetCall) (r : c.Reply), Expected .trivial c r := by
    intro c r
    cases c <;> first | trivial | exact fun _ _ => trivial
  exact Obeys.mono ((operate_sound request).all hall) fun c h => (not_not.mp h).1

/-- **What the adapter sends and concludes is sound**, as long as the contracts that launches are opened with are
expected. -/
theorem netRun_sound (moves : List (Move Nat NetRequest NetEnvironment))
    (hopen : ∀ i runId c, ⟨i, .openLaunch runId, c⟩ ∈ (netRun digest cfg requestDigest moves).trace →
      expects runId c.launchIdentity) :
    ∀ e ∈ (netRun digest cfg requestDigest moves).trace,
      Sound ((netRun digest cfg requestDigest moves).state.evidence expects) e.call := by
  have hexpected : ∀ e ∈ (netRun digest cfg requestDigest moves).trace, (∀ runId, e.call ≠ .openLaunch runId) →
      Expected ((netRun digest cfg requestDigest moves).state.evidence expects) e.call e.reply := by
    refine Pool.act_invariant (J := fun w : NetWorld => ∀ e ∈ w.trace, (∀ runId, e.call ≠ .openLaunch runId) →
      Expected (w.state.evidence expects) e.call e.reply) ?_ ?_ moves
    · exact fun _ h => (by cases h)
    · intro i w env c h e he hne
      rcases List.mem_append.mp he with hold | hnew
      · exact (h e hold hne).mono (netAct_exchanges i w.state env c) (netAct_answers i w.state env c)
      · obtain rfl := List.mem_singleton.mp hnew
        exact netAct_expected i w.state env c fun runId h => absurd h (hne runId)
  have hstart : ∀ (_ : Nat) (request : NetRequest), (serveNet digest cfg requestDigest request).Avoids
      (Expected ((netRun digest cfg requestDigest moves).state.evidence expects))
      (fun c => ¬ Sound ((netRun digest cfg requestDigest moves).state.evidence expects) c) fun _ => True :=
    fun _ request => serveNet_sound request
  intro e he
  refine not_not.mp ((Pool.trace_avoids hstart moves ?_).1 e he)
  rintro ⟨i, c, r⟩ hmem
  by_cases hc : ∃ runId, c = .openLaunch runId
  · obtain ⟨runId, rfl⟩ := hc
    exact hopen i runId r hmem
  · exact hexpected _ hmem fun runId h => hc ⟨runId, h⟩

end

end AgentFabric.LocalWorker
