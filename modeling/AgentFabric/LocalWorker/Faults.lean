import AgentFabric.LocalWorker.Receipts

/-!
# When `reconcile` raises

`reconcile` decides from a record that it read earlier, and then writes. The registry refuses a write that does not fit
what other handlers have made of the record meanwhile.
-/

namespace AgentFabric.LocalWorker

open AgentFabric.Lib Prog

/-- The states of the registry in which a write of `reconcile` is accepted. -/
def Fits (reg : Registry) : Call → Prop
  | .recordStarted scope key _ pid birth host => ∃ r, reg.byKey scope key = some r ∧
      (r.launchState = .launching ∨ (r.launchState = .running ∧ r.processPid = some pid ∧
        r.processBirthIdentity = some birth ∧ r.processHostIdentity = some host))
  | .recordTerminal scope key _ state result exitCode => state.ended = true ∧ ∃ r, reg.byKey scope key = some r ∧
      (r.launchState.ended = false ∨
        (r.launchState = state ∧ r.resultJson = some result ∧ r.exitCode = exitCode))
  | _ => True

/-- The reply of a write that was refused. -/
def Refused : (c : Call) → c.Reply → Prop
  | .recordStarted .., reply => ∃ e, reply = .error e
  | .recordTerminal .., reply => ∃ e, reply = .error e
  | .recordLaunchError .., reply => ∃ e, reply = .error e
  | _, _ => False

/-! ## What `reconcile` raises -/

section

variable {d : Daemon}

abbrev CandidHandler {α : Type} (p : Handler α) : Prop := Candid Refused p

theorem recordError_candid (record : LaunchRecord) (detail : String) : CandidHandler (recordError d record detail) :=
  Candid.asked fun _ => Candid.mapError_error

theorem validateRecordProfile_candid (record : LaunchRecord) : CandidHandler (validateRecordProfile d record) := by
  unfold validateRecordProfile
  split
  · exact Candid.pure _
  · exact Candid.asked_bind (fun _ => Candid.mapError_error) fun _ => Candid.pure _

theorem reconcileTerminal_candid (record : LaunchRecord) (jobId nonce : String) (terminal : Document) :
    CandidHandler (reconcileTerminal d record jobId nonce terminal) := by
  unfold reconcileTerminal
  dsimp only
  split
  · exact recordError_candid _ _
  · split
    · exact Candid.asked fun _ => Candid.mapError_error
    · exact recordError_candid _ _

theorem reconcileStarted_candid (record : LaunchRecord) (jobId nonce : String) (started : Document) :
    CandidHandler (reconcileStarted d record jobId nonce started) := by
  unfold reconcileStarted
  split
  · split
    · exact recordError_candid _ _
    · refine Candid.bind (Candid.ask fun _ h => h) fun _ => Candid.bind (Candid.ask fun _ h => h) fun _ =>
        Candid.asked_bind (fun _ => Candid.mapError_error) fun _ => ?_
      split
      · exact Candid.pure _
      · exact recordError_candid _ _
  · exact recordError_candid _ _

/-- `reconcile` raises exactly when one of its writes is refused. -/
theorem reconcile_candid (record : LaunchRecord) : CandidHandler (reconcile d record) := by
  unfold reconcile
  refine Candid.bind (validateRecordProfile_candid record) fun ⟨record, profile⟩ => ?_
  dsimp only
  split
  · refine Candid.bind (Candid.ask fun _ h => h) fun _ => ?_
    split
    · exact reconcileTerminal_candid _ _ _ _
    · refine Candid.bind (Candid.ask fun _ h => h) fun _ => ?_
      split
      · exact reconcileStarted_candid _ _ _ _
      · exact Candid.pure _
  · exact Candid.pure _

end

/-! ## What handlers have been shown -/

/-- What the reply shows is on record, in this or a later version. -/
def Told (w : World) : (c : Call) → c.Reply → Prop
  | .getJob scope _, reply => ∀ r, reply = .ok (some r) → Kept scope w r
  | .listLaunches scope, reply => ∀ rs, reply = .ok rs → ∀ r ∈ rs, Kept scope w r
  | c, reply => ∀ scope r, Shows scope c reply r → Kept scope w r

variable {w : World}

theorem Told.mono {w' : World} {c : Call} {reply : c.Reply} (h : Told w c reply) (hle : RegistryLe w.state w'.state) :
    Told w' c reply := by
  cases c with
  | getJob => exact fun r hr => (h r hr).mono hle
  | listLaunches => exact fun rs hrs r hr => (h rs hrs r hr).mono hle
  | _ => exact fun scope r hr => Kept.mono (h scope r hr) hle

variable {reg' : Registry} {env : Environment}

theorem act_told {c : Call} (hw : w.state = (act reg env c).2) :
    Told w c (act reg env c).1 := by
  have hlearnt : ∀ scope r, Learns scope c (act reg env c).1 r → Kept scope w r := by
    intro scope r hr
    obtain ⟨hmem, hscope⟩ := act_learns hr
    exact ⟨hscope, r, by rw [hw]; exact hmem, .refl r⟩
  cases c with
  | getJob scope => exact fun r hr => hlearnt scope r ⟨rfl, hr⟩
  | listLaunches scope => exact fun rs hrs r hr => hlearnt scope r ⟨rfl, rs, hrs, hr⟩
  | _ => exact hlearnt

/-- Every record has a well-formed key. -/
def Registry.KeysValid (reg : Registry) : Prop := ∀ r ∈ reg.rows, validIdempotencyKey r.idempotencyKey = true

theorem Rewrites.keysValid (h : Rewrites reg reg') (hv : reg.KeysValid) : reg'.KeysValid := by
  rcases h with rfl | ⟨r, r', hmem, hstep, hrows⟩
  · exact hv
  · intro x hx
    rcases (hrows x).mp hx with rfl | ⟨hx, _⟩
    · have hr := hv r hmem
      cases hstep <;> exact hr
    · exact hv x hx

theorem Bound.keysValid {scope key digest : String} {r : LaunchRecord} {b : Bool}
    (h : Bound reg reg' scope key digest r b) (hkey : validIdempotencyKey key = true) (hv : reg.KeysValid) :
    reg'.KeysValid := by
  cases b with
  | false =>
    rw [h.old rfl]
    exact hv
  | true =>
    intro x hx
    rw [(h.new rfl).2, List.mem_append, List.mem_singleton] at hx
    rcases hx with hx | rfl
    · exact hv x hx
    · rw [(Registry.byKey_eq_some.mp h.here).2.2]
      exact hkey

/-- Every call keeps the keys valid. -/
theorem act_keysValid (env : Environment) (c : Call) (hv : reg.KeysValid) :
    (act reg env c).2.KeysValid := by
  have hother : boundRecord ⟨0, c, (act reg env c).1⟩ = none → (act reg env c).2.KeysValid := by
    intro hnone
    cases act_effect reg env 0 c with
    | bound fresh shown =>
      rw [hnone] at shown
      cases shown
    | claimed r₀ nonce rid unbound shown mem reserved rows =>
      exact Rewrites.keysValid (Or.inr ⟨r₀, _, mem, .launch nonce rid reserved, rows⟩) hv
    | other unbound unclaimed step => exact step.keysValid hv
  cases c with
  | reserve scope key digest driver =>
    rcases transact_cases env reg (reserve reg scope key digest driver env.draw) with ⟨⟨r, b⟩, reg', hop, h⟩ | ⟨_, h⟩
    · simp only [act, h]
      have hbound := reserve_ok hop
      simp only [reserve, bind_eq_ok, validateIdempotencyKey, ensure_eq_ok] at hop
      obtain ⟨_, hkey, _⟩ := hop
      exact hbound.keysValid hkey hv
    · simp only [act, h]
      exact hv
  | rejectPreLaunch scope key digest reason driver =>
    rcases transact_cases env reg (rejectPreLaunch reg scope key digest reason driver env.draw) with
      ⟨⟨r, b⟩, reg', hop, h⟩ | ⟨_, h⟩
    · simp only [act, h]
      have hbound := rejectPreLaunch_ok hop
      simp only [rejectPreLaunch, bind_eq_ok, validateIdempotencyKey, ensure_eq_ok] at hop
      obtain ⟨_, hkey, _⟩ := hop
      exact hbound.keysValid hkey hv
    · simp only [act, h]
      exact hv
  | _ => exact hother rfl

/-- What every call of a handler keeps. -/
structure Informed (w : World) : Prop where
  issued : w.state.Issued
  keys : w.state.KeysValid
  told : ∀ e ∈ w.trace, Told w e.call e.reply

/-- Every call keeps handlers informed. -/
theorem Informed.step (h : Informed w) (i : Nat) (env : Environment) (c : Call) :
    Informed (extended w i env c) := by
  have hstep : RegistryStep w.state (act w.state env c).2 := (act_effect w.state env i c).step
  refine ⟨hstep.issued h.issued, act_keysValid env c h.keys, fun e he => ?_⟩
  rw [extended_trace] at he
  rcases List.mem_append.mp he with hold | hnew
  · exact (h.told e hold).mono (hstep.le h.issued)
  · obtain rfl := List.mem_singleton.mp hnew
    exact act_told rfl

/-- The handlers and the registry after a schedule over an empty registry. -/
def handlers (requestDigest : RequestDigest) (moves : List (Move Nat Request Environment)) :
    Pool Nat World Call Call.Reply :=
  (Pool.quiet ⟨Registry.empty, []⟩).run machine.traced (fun _ => serve requestDigest) moves

theorem history_informed (requestDigest : RequestDigest)
    (moves : List (Move Nat Request Environment)) : Informed (history requestDigest moves) :=
  Pool.act_invariant (J := Informed) ⟨by rintro r ⟨⟩, by rintro r ⟨⟩, by rintro e ⟨⟩⟩
    (fun i w env c h => h.step i env c) moves

theorem handlers_names (requestDigest : RequestDigest)
    (moves : List (Move Nat Request Environment)) {i : Nat} {c : Call} {next : c.Reply → Prog Call Call.Reply Unit}
    (h : (handlers requestDigest moves).thread i = some (.call c next)) :
    Names (fun scope => Kept scope (history requestDigest moves)) c := by
  have hattends : ∀ d, Attends d (Told (history requestDigest moves))
      (fun c => ¬ Names (fun scope => Kept scope (history requestDigest moves)) c)
      fun scope => Kept scope (history requestDigest moves) := by
    refine fun d => ⟨fun c reply hok scope r hr => ?_, fun c hn hb => hb hn.names⟩
    cases c with
    | getJob => exact hr.elim
    | listLaunches => exact hr.elim
    | _ => exact hok scope r hr
  have hstart : ∀ (_ : Nat) (request : Request), (serve requestDigest request).Avoids
      (Told (history requestDigest moves))
      (fun c => ¬ Names (fun scope => Kept scope (history requestDigest moves)) c) fun _ => True :=
    fun _ request => serve_attends hattends (fun scope jobId r hok => hok r rfl)
      (fun scope rs hok r hr => hok rs rfl r hr) request
  have havoids := (Pool.trace_avoids hstart moves (history_informed requestDigest moves).told).2 i _ h
  exact not_not.mp havoids.1

/-! ## Which writes are refused -/

section

variable {reg : Registry} {scope key : String} {r : LaunchRecord}

theorem Registry.update_accepted {f : LaunchRecord → LaunchRecord} (hr : r ∈ reg.rows)
    (hid : (f r).launchRecordId = r.launchRecordId) (hscope : (f r).authorityScope = r.authorityScope)
    (hkey : (f r).idempotencyKey = r.idempotencyKey) (hjob : (f r).jobId = r.jobId)
    (hreceipt : (f r).receiptId = r.receiptId) (hnonce : (f r).launchNonce = r.launchNonce) :
    ∃ reg', reg.update r.launchRecordId f = .ok reg' := by
  have hdistinct : (reg.rows.map fun x => if x.launchRecordId = r.launchRecordId then f x else x).Pairwise
      LaunchRecord.distinct := by
    rw [List.pairwise_map]
    refine reg.unique.imp_of_mem fun {x y} hx hy hxy => ?_
    have hsame : ∀ z ∈ reg.rows, z.launchRecordId = r.launchRecordId → z = r :=
      fun z hz he => Registry.eq_of_id hz hr he
    -- the rewritten row has the unique columns of the old one
    by_cases hxr : x.launchRecordId = r.launchRecordId
    · obtain rfl := hsame x hx hxr
      have hyr : y.launchRecordId ≠ x.launchRecordId := fun he => hxy.1 he.symm
      simp only [if_true, hyr, if_false]
      simpa only [LaunchRecord.distinct, hid, hscope, hkey, hjob, hreceipt, hnonce] using hxy
    · by_cases hyr : y.launchRecordId = r.launchRecordId
      · obtain rfl := hsame y hy hyr
        simp only [hxr, if_false, if_true]
        simpa only [LaunchRecord.distinct, hid, hscope, hkey, hjob, hreceipt, hnonce] using hxy
      · simp only [hxr, hyr, if_false]
        exact hxy
  exact ⟨⟨_, hdistinct⟩, dif_pos hdistinct⟩

theorem ensure_of {ε : Type} {c : Prop} [Decidable c] {e : ε} (h : c) : ensure c e = .ok () := if_pos h

theorem ensure_refused {ε : Type} {c : Prop} [Decidable c] {e : ε} (h : ¬ c) : ensure c e = .error e := if_neg h

theorem requireKey_of (h : reg.byKey scope key = some r) : requireKey reg scope key = .ok r := by
  rw [requireKey, h]
  rfl

theorem recordLaunchError_accepted {detail : String} (hk : validIdempotencyKey key = true)
    (hr : reg.byKey scope key = some r) : ∃ a, recordLaunchError reg scope key detail = .ok a := by
  obtain ⟨reg', hup⟩ :=
    Registry.update_accepted (f := (·.withError detail)) (Registry.byKey_eq_some.mp hr).1 rfl rfl rfl
    rfl rfl rfl
  refine ⟨(r.withError detail, reg'), ?_⟩
  simp only [recordLaunchError, validateIdempotencyKey, ensure_of hk, requireKey_of hr]
  exact congrArg (· >>= fun reg => Except.ok (r.withError detail, reg)) hup

theorem recordStarted_accepted {receipt : Receipt} {pid : Int} {birth host : String}
    (hk : validIdempotencyKey key = true) (hp : 0 < pid) (hr : reg.byKey scope key = some r)
    (hn : r.names receipt = true) :
    (∃ a, recordStarted reg scope key receipt pid birth host = .ok a) ↔
      (r.launchState = .launching ∨ (r.launchState = .running ∧ r.processPid = some pid ∧
        r.processBirthIdentity = some birth ∧ r.processHostIdentity = some host)) := by
  simp only [recordStarted, validateIdempotencyKey, bind_eq_ok, ensure_eq_ok]
  constructor
  · rintro ⟨a, -, -, -, -, r', hr', -, -, h⟩
    rw [requireKey_of hr] at hr'
    cases hr'
    split at h
    · rename_i hs
      simp only [bind_eq_ok, ensure_eq_ok] at h
      obtain ⟨-, hsame, -⟩ := h
      exact Or.inr ⟨hs, hsame⟩
    · rename_i hs
      exact Or.inl hs
    · cases h
  · intro h
    rcases h with hs | ⟨hs, hsame⟩
    · obtain ⟨reg', hup⟩ := Registry.update_accepted (f := (·.start pid birth host)) (Registry.byKey_eq_some.mp hr).1
        rfl rfl rfl rfl rfl rfl
      refine ⟨(r.start pid birth host, reg'), (), hk, (), hp, r, requireKey_of hr, (), hn, ?_⟩
      rw [hs]
      exact congrArg (· >>= fun reg => Except.ok (r.start pid birth host, reg)) hup
    · refine ⟨(r, reg), (), hk, (), hp, r, requireKey_of hr, (), hn, ?_⟩
      rw [hs]
      simp only [bind_eq_ok, ensure_eq_ok]
      exact ⟨(), hsame, rfl⟩

theorem recordTerminal_accepted {receipt : Receipt} {state : LaunchState} {result : String} {exitCode : Option Int}
    (hk : validIdempotencyKey key = true) (hr : reg.byKey scope key = some r) (hn : r.names receipt = true) :
    (∃ a, recordTerminal reg scope key receipt state result exitCode = .ok a) ↔ state.ended = true ∧
      (r.launchState.ended = false ∨ (r.launchState = state ∧ r.resultJson = some result ∧ r.exitCode = exitCode)) := by
  simp only [recordTerminal, validateIdempotencyKey, bind_eq_ok, ensure_eq_ok]
  constructor
  · rintro ⟨a, -, hended, -, -, r', hr', -, -, h⟩
    rw [requireKey_of hr] at hr'
    cases hr'
    refine ⟨hended, ?_⟩
    split at h
    · simp only [bind_eq_ok, ensure_eq_ok] at h
      obtain ⟨-, hsame, -⟩ := h
      exact Or.inr hsame
    · rename_i hs
      exact Or.inl (by simpa using hs)
  · rintro ⟨hended, h⟩
    by_cases hs : r.launchState.ended = true
    · obtain hsame := h.resolve_left (by rw [hs]; decide)
      refine ⟨(r, reg), (), hended, (), hk, r, requireKey_of hr, (), hn, ?_⟩
      rw [if_pos hs]
      simp only [bind_eq_ok, ensure_eq_ok]
      exact ⟨(), hsame, rfl⟩
    · obtain ⟨reg', hup⟩ := Registry.update_accepted (f := (·.finish state result exitCode))
        (Registry.byKey_eq_some.mp hr).1 rfl rfl rfl rfl rfl rfl
      refine ⟨(r.finish state result exitCode, reg'), (), hended, (), hk, r, requireKey_of hr, (), hn, ?_⟩
      rw [if_neg hs]
      exact congrArg (· >>= fun reg => Except.ok (r.finish state result exitCode, reg)) hup

theorem transact_refused {α : Type} {env : Environment} {op : Except RegistryError (α × Registry)}
    (h : env.registryAvailable = true) : (∃ e, (transact env reg op).1 = .error e) ↔ ¬ ∃ a, op = .ok a := by
  cases op <;> simp [transact, h]

end

theorem Kept.found {scope : String} {r : LaunchRecord} (h : Kept scope w r) :
    ∃ r', w.state.byKey scope r.idempotencyKey = some r' ∧ ∀ receipt, r.names receipt = true →
      r'.names receipt = true := by
  obtain ⟨rfl, r', hmem, hle⟩ := h
  refine ⟨r', Registry.byKey_eq_some.mpr ⟨hmem, hle.scope, hle.key⟩, fun receipt hn => ?_⟩
  have hnonce := hle.nonce (names_nonce hn)
  simpa only [LaunchRecord.names, hle.job, hle.digest, hnonce] using hn

/-- A write about a record that was shown is refused exactly when it does not fit. -/
theorem refused_iff (hw : Informed w) (havailable : env.registryAvailable = true) {c : Call}
    (hnames : Names (fun scope => Kept scope w) c) :
    Refused c (act w.state env c).1 ↔ ¬ Fits w.state c := by
  have hkeys : ∀ {scope key r}, w.state.byKey scope key = some r → validIdempotencyKey key = true := by
    intro scope key r hr
    obtain ⟨hmem, -, rfl⟩ := Registry.byKey_eq_some.mp hr
    exact hw.keys r hmem
  cases c with
  | recordStarted scope key receipt =>
    obtain ⟨hp, r, hkept, rfl, hn⟩ := hnames
    obtain ⟨r', hr', hsame⟩ := hkept.found
    rw [show Refused _ _ ↔ ∃ e, _ from Iff.rfl, act, transact_refused havailable,
      recordStarted_accepted (hkeys hr') hp hr' (hsame receipt hn)]
    simp only [Fits, hr', Option.some.injEq, exists_eq_left']
  | recordTerminal scope key receipt =>
    obtain ⟨r, hkept, rfl, hn⟩ := hnames
    obtain ⟨r', hr', hsame⟩ := hkept.found
    rw [show Refused _ _ ↔ ∃ e, _ from Iff.rfl, act, transact_refused havailable,
      recordTerminal_accepted (hkeys hr') hr' (hsame receipt hn)]
    simp only [Fits, hr', Option.some.injEq, exists_eq_left']
  | recordLaunchError =>
    obtain ⟨r, hkept, rfl⟩ := hnames
    obtain ⟨r', hr', -⟩ := hkept.found
    rw [show Refused _ _ ↔ ∃ e, _ from Iff.rfl, act, transact_refused havailable]
    simp only [recordLaunchError_accepted (hkeys hr') hr', Fits]
  | _ => simp [Refused, Fits]

/-! ## Whole schedules -/

/-- What a query raises is answered by the routes. -/
def Answerable : (c : Call) → c.Reply → Prop
  | .getJob .., reply => ∀ e, reply = .error e → e = .unavailable ∨ ∃ message, e = .valueError message
  | .getLaunch .., reply => ∀ e, reply = .error e → e = .unavailable ∨ ∃ message, e = .valueError message
  | _, _ => True

theorem query_answerable {α : Type} {op : Except RegistryError α} {e : RegistryError}
    (hop : ∀ e, op = .error e → ∃ message, e = .valueError message) (h : (query env reg op).1 = .error e) :
    e = .unavailable ∨ ∃ message, e = .valueError message := by
  simp only [query] at h
  split at h
  · exact Or.inr (hop e h)
  · cases h
    exact Or.inl rfl

theorem act_answerable (reg : Registry) (env : Environment) (c : Call) : Answerable c (act reg env c).1 := by
  cases c with
  | getJob scope jobId =>
    refine fun e he => query_answerable (fun e he => ?_) he
    by_cases hj : blank jobId = false ∧ jobId.length ≤ 256
    · rw [getJob, ensure_of hj] at he
      cases he
    · rw [getJob, ensure_refused hj] at he
      cases he
      exact ⟨_, rfl⟩
  | getLaunch scope key =>
    refine fun e he => query_answerable (fun e he => ?_) he
    by_cases hk : validIdempotencyKey key = true
    · rw [getLaunch, validateIdempotencyKey, ensure_of hk] at he
      cases he
    · rw [getLaunch, validateIdempotencyKey, ensure_refused hk] at he
      cases he
      exact ⟨_, rfl⟩
  | _ => trivial

/-- Without a refused write, requests for a status and lookups get a response. -/
theorem requests_answered (d : Daemon) {calls : List (Σ c : Call, c.Reply)}
    (hcalls : ∀ c ∈ calls, ¬ Refused c.1 c.2 ∧ Answerable c.1 c.2) :
    (∀ jobId x, (getJobV2 d jobId).run.Executes calls x → ∃ response, x = .ok response) ∧
      ∀ key driverId x, (lookupLaunch d key driverId).run.Executes calls x → ∃ response, x = .ok response := by
  have hattends : Attends d (fun c reply => ¬ Refused c reply ∧ Answerable c reply) (fun _ => False) fun _ _ => True :=
    ⟨fun _ _ _ _ _ _ => trivial, fun _ _ => not_false⟩
  have hraises : Raises (fun c reply => ¬ Refused c reply ∧ Answerable c reply)
      fun e => e = .registry .unavailable ∨ ∃ message, e = .registry (.valueError message) :=
    ⟨fun _ _ _ _ _ _ e h => absurd ⟨e, rfl⟩ h.1, fun _ _ _ _ _ _ e h => absurd ⟨e, rfl⟩ h.1,
      fun _ _ _ e h => absurd ⟨e, rfl⟩ h.1⟩
  have hhandled : ∀ e : RegistryError, (e = .unavailable ∨ ∃ message, e = .valueError message) →
      Raised.registry e = .registry .unavailable ∨ ∃ message, Raised.registry e = .registry (.valueError message) := by
    rintro e (rfl | ⟨message, rfl⟩)
    · exact Or.inl rfl
    · exact Or.inr ⟨message, rfl⟩
  have hdone : ∀ {p : Handler Response} {Q : Response → Prop} {x : Except Raised Response},
      Upholds (fun c reply => ¬ Refused c reply ∧ Answerable c reply) (fun _ => False) Q (fun _ => False) p →
      p.run.Executes calls x → ∃ response, x = .ok response := by
    intro p Q x hp hx
    have hresult := Avoids.executes hp hx hcalls
    cases x with
    | ok response => exact ⟨response, rfl⟩
    | error => exact hresult.elim
  constructor
  · intro jobId x hx
    exact hdone (getJobV2_attends hattends hraises (fun _ _ _ _ => trivial) (fun _ _ e h => hhandled e (h.2 e rfl))
      (fun _ he => Or.inl he) jobId) hx
  · intro key driverId x hx
    exact hdone (lookupLaunch_attends hattends hraises (fun _ _ e h => hhandled e (h.2 e rfl)) (fun _ he => Or.inl he)
      key driverId) hx

/-- **`reconcile` fails exactly where a write no longer fits.** Along every schedule over an available registry: no
write of a handler is refused if and only if every write fits the registry where it happens. `reconcile` raises exactly
when one of its writes is refused; and requests for a status and lookups whose writes are accepted get a response. -/
theorem reconcile_never_fails_iff (requestDigest : RequestDigest)
    (moves : List (Move Nat Request Environment))
    (available : ∀ i env, Move.step i env ∈ moves → env.registryAvailable = true) :
    ((∀ e ∈ (history requestDigest moves).trace, ¬ Refused e.call e.reply) ↔
      ∀ before i env after c next, moves = before ++ .step i env :: after →
        (handlers requestDigest before).thread i = some (.call c next) → Fits (history requestDigest before).state c) ∧
    (∀ d record calls x, (reconcile d record).run.Executes calls x →
      ((∃ e, x = .error e) ↔ ∃ c ∈ calls, Refused c.1 c.2)) ∧
    ∀ d calls, (∀ c ∈ calls, ¬ Refused c.1 c.2 ∧ ∃ i, ⟨i, c.1, c.2⟩ ∈ (history requestDigest moves).trace) →
      (∀ jobId x, (getJobV2 d jobId).run.Executes calls x → ∃ response, x = .ok response) ∧
        ∀ key driverId x, (lookupLaunch d key driverId).run.Executes calls x → ∃ response, x = .ok response := by
  refine ⟨⟨?_, ?_⟩, fun d record calls x hx => reconcile_candid record calls x hx, fun d calls hcalls => ?_⟩
  · rintro haccepted before i env after c next rfl hthread
    have hmem : (⟨i, c, _⟩ : HandlerEvent) ∈ (history requestDigest (before ++ .step i env :: after)).trace :=
      Pool.trace_step hthread
    have hiff := refused_iff (history_informed requestDigest before)
      (available i env (List.mem_append_right _ List.mem_cons_self)) (handlers_names requestDigest before hthread)
    by_contra hfits
    exact haccepted _ hmem (hiff.mpr hfits)
  · intro hfits e he hrefused
    obtain ⟨before, env, after, next, rfl, hthread, hreply⟩ := Pool.trace_origin he
    have hiff := refused_iff (history_informed requestDigest before)
      (available e.thread env (List.mem_append_right _ List.mem_cons_self))
      (handlers_names requestDigest before hthread)
    rw [hreply] at hrefused
    exact hiff.mp hrefused (hfits before e.thread env after e.call next rfl hthread)
  · refine requests_answered d fun c hc => ?_
    obtain ⟨haccepted, i, hmem⟩ := hcalls c hc
    obtain ⟨before, env, after, next, -, -, hreply⟩ := Pool.trace_origin hmem
    refine ⟨haccepted, ?_⟩
    rw [show c.2 = _ from hreply]
    exact act_answerable _ env c.1

/-! ## A schedule that raises -/

def digestOf (c : Char) : String := "sha256:" ++ String.ofList (List.replicate 64 c)

def helloProfile : DriverProfile := ⟨"test", .test, 1, digestOf 'a', none, true⟩

def loopbackDaemon : Daemon :=
  ⟨"local-loopback", "authority", "registry", "host", "one", [helloProfile], helloProfile, rfl⟩

/-- A well-formed launch request for the driver `test`. -/
def helloBody : LaunchBody where
  top := ⟨topFields, fun
    | "idempotency_key" => .text "supervisor-execution:run"
    | "protocol_version" => .int 2
    | "authority_id" => .text "authority"
    | "registry_id" => .text "registry"
    | "request_digest" => .text (digestOf 'b')
    | _ => .array, ""⟩
  execution := some ⟨executionFields, fun
    | "run_id" => .text "run"
    | _ => .null, ""⟩
  job := some ⟨["driver_id", "job_type", "role", "prompt"], fun
    | "driver_id" => .text "test"
    | "job_type" => .text "inference.chat"
    | "role" => .text "RAG"
    | "prompt" => .text "hello"
    | _ => .null, ""⟩

/-- Both receipts of its job: the identity of the launch, the process, and how it ended. -/
def jobReceipt : Document
  | "protocol_version" => .int 2
  | "job_id" => .text "local-job-j"
  | "idempotency_key" => .text "supervisor-execution:run"
  | "launch_nonce" => .text "nonce-n"
  | "request_digest" => .text (digestOf 'b')
  | "process_host_identity" => .text "host"
  | "pid" => .int 4711
  | "process_birth_identity" => .text "birth"
  | "launch_state" => .text "COMPLETED"
  | "result" => .object "\x7b\x7d"
  | "exit_code" => .int 0
  | _ => .null

/-- A host on which the job has written some of its receipts. -/
def hostWith (written : SpoolFile → Bool) : Environment where
  registryAvailable := true
  draw := ⟨"r", "j", "c", "n", "t"⟩
  isCurrent _ := true
  writable := true
  spawned := .created
  receipt _ file := if written file then some jobReceipt else none
  birthMatches := true
  lockHeld := true
  signalled := true

def startedHost : Environment := hostWith fun file => file = .started

def endedHost : Environment := hostWith fun _ => true

/-- The request is answered with the job spawned. -/
def spawnedMoves : List (Move Nat Request Environment) :=
  .start 0 (.createLaunch loopbackDaemon helloBody 0) :: List.replicate 7 (.step 0 startedHost) ++ [.drop 0]

/-- A status request reads the record and the started receipt; the job ends and a second request settles it; then the
first one goes on. -/
def racedMoves : List (Move Nat Request Environment) :=
  spawnedMoves ++
    .start 1 (.getJob loopbackDaemon "local-job-j") :: List.replicate 5 (.step 1 startedHost) ++
    .start 2 (.getJob loopbackDaemon "local-job-j") :: List.replicate 3 (.step 2 endedHost) ++ [.step 1 endedHost]

/-- The record that the first request reads. -/
def launchingRecord : LaunchRecord where
  launchRecordId := "launch-r"
  authorityScope := "local-loopback"
  idempotencyKey := "supervisor-execution:run"
  requestDigest := digestOf 'b'
  driver := some helloProfile.binding
  launchRuntimeInstanceId := some "one"
  launchState := .launching
  jobId := some "local-job-j"
  receiptId := "receipt-c"
  launchNonce := some "nonce-n"
  processPid := none
  processBirthIdentity := none
  processHostIdentity := none
  createdAt := "t"
  launchError := none
  resultJson := none
  exitCode := none

/-- What the first request does with it. -/
def overtakenCalls : List (Σ c : Call, c.Reply) :=
  [⟨.readReceipt "local-job-j" .terminal, (none : Option Document)⟩,
   ⟨.readReceipt "local-job-j" .started, some jobReceipt⟩,
   ⟨.processIdentityMatches 4711 "birth", true⟩,
   ⟨.jobLockIsHeld "local-job-j" "nonce-n", true⟩,
   ⟨.recordStarted "local-loopback" "supervisor-execution:run" ⟨"local-job-j", "nonce-n", digestOf 'b'⟩ 4711 "birth"
      "host", .error (.runtimeError "cannot attach process to COMPLETED")⟩]

set_option maxRecDepth 100000 in
theorem raced_calls : ((history (fun _ _ _ => digestOf 'b') racedMoves).trace.filter fun e => e.thread = 1) =
    ⟨1, .getJob "local-loopback" "local-job-j", .ok (some launchingRecord)⟩ ::
      overtakenCalls.map fun c => ⟨1, c.1, c.2⟩ := rfl

theorem raced_mem {c : Σ c : Call, c.Reply} (h : c ∈ overtakenCalls) :
    (⟨1, c.1, c.2⟩ : HandlerEvent) ∈ (history (fun _ _ _ => digestOf 'b') racedMoves).trace := by
  refine List.mem_of_mem_filter (p := fun e => e.thread = 1) ?_
  rw [raced_calls]
  exact List.mem_cons_of_mem _ (List.mem_map_of_mem h)

/-- A write of that schedule does not fit. -/
theorem reconcile_never_fails_iff_raced : ¬ ∀ before i env after c next, racedMoves = before ++ .step i env :: after →
    (handlers (fun _ _ _ => digestOf 'b') before).thread i = some (.call c next) →
    Fits (history (fun _ _ _ => digestOf 'b') before).state c := by
  intro hfits
  have havailable : ∀ m ∈ racedMoves, ∀ i env, m = .step i env → env.registryAvailable = true := by
    simp [racedMoves, spawnedMoves, List.replicate, startedHost, endedHost, hostWith]
  have haccepted := (reconcile_never_fails_iff (fun _ _ _ => digestOf 'b') racedMoves
    fun i env h => havailable _ h i env rfl).1.mpr hfits
  exact haccepted _ (raced_mem (List.mem_of_getLast? rfl)) ⟨_, rfl⟩

/-- The status request of a known job ends in an exception that nothing handles: it attaches the process to a record
that the other request has settled meanwhile. -/
theorem status_request_fails :
    (∀ c ∈ overtakenCalls, (⟨1, c.1, c.2⟩ : HandlerEvent) ∈ (history (fun _ _ _ => digestOf 'b') racedMoves).trace) ∧
      (reconcile loopbackDaemon launchingRecord).run.Executes overtakenCalls
        (.error (.registry (.runtimeError "cannot attach process to COMPLETED"))) ∧
      (getJobV2 loopbackDaemon "local-job-j").run.Executes
        (⟨.getJob "local-loopback" "local-job-j", .ok (some launchingRecord)⟩ :: overtakenCalls)
        (.error (.registry (.runtimeError "cannot attach process to COMPLETED"))) := by
  refine ⟨fun c h => raced_mem h, ?_, ?_⟩
  · exact .step _ _ _ _ _ (.step _ _ _ _ _ (.step _ _ _ _ _ (.step _ _ _ _ _ (.step _ _ _ _ _ (.done _)))))
  · exact .step _ _ _ _ _ (.step _ _ _ _ _ (.step _ _ _ _ _ (.step _ _ _ _ _ (.step _ _ _ _ _
      (.step _ _ _ _ _ (.done _))))))

end AgentFabric.LocalWorker
