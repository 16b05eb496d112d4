import AgentFabric.Lib.Replies
import AgentFabric.LocalWorker.SpawnOnce

/-!
# What a handler is shown and what it writes about

A handler writes about records that a registry call has shown to it, and every such record is on record.
-/

namespace AgentFabric.LocalWorker

open AgentFabric.Lib Prog

def Shows (scope : String) : (c : Call) → c.Reply → LaunchRecord → Prop
  | .reserve s .., reply, r => s = scope ∧ ∃ created, reply = .ok (r, created)
  | .rejectPreLaunch s .., reply, r => s = scope ∧ ∃ created, reply = .ok (r, created)
  | .claimSpawn s .., reply, r => s = scope ∧ ∃ owns, reply = .ok (r, owns)
  | .recordStarted s .., reply, r => s = scope ∧ reply = .ok r
  | .recordLaunchError s .., reply, r => s = scope ∧ reply = .ok r
  | .recordTerminal s .., reply, r => s = scope ∧ reply = .ok r
  | .getLaunch s _, reply, r => s = scope ∧ reply = .ok (some r)
  | _, _, _ => False

/-! ## Records that are shown are on record -/

section

variable {reg reg' : Registry} {scope key : String} {r v : LaunchRecord}

def OnRecord (reg : Registry) (scope : String) (r : LaunchRecord) : Prop := r ∈ reg.rows ∧ r.authorityScope = scope

theorem byKey_onRecord (h : reg.byKey scope key = some r) : OnRecord reg scope r :=
  have h := Registry.byKey_eq_some.mp h
  ⟨h.1, h.2.1⟩

theorem Records.onRecord {f : LaunchRecord → LaunchRecord} (h : Records reg reg' scope key v f)
    (hf : ∀ r, (f r).authorityScope = r.authorityScope) : OnRecord reg' scope v := by
  obtain ⟨r, hr, ⟨rfl, rfl⟩ | ⟨rfl, -, hup⟩⟩ := h
  · exact byKey_onRecord hr
  · obtain ⟨hmem, hscope⟩ := byKey_onRecord hr
    exact ⟨(Registry.mem_update hup hmem).mpr (Or.inl rfl), (hf r).trans hscope⟩

theorem claimSpawn_onRecord {rid : String} {draw : Draw} {b : Bool}
    (h : claimSpawn reg scope key rid draw = .ok ((v, b), reg')) : OnRecord reg' scope v := by
  obtain ⟨r, hr, ⟨_, rfl, _, rfl⟩ | ⟨_, _, ⟨nonce, rfl⟩, hrows⟩⟩ := claimSpawn_ok h
  · exact byKey_onRecord hr
  · exact ⟨(hrows _).mpr (Or.inl rfl), (byKey_onRecord hr).2⟩

variable {env : Environment}

theorem transact_onRecord {α : Type} {op : Except RegistryError (α × Registry)} {a : α}
    (h : (transact env reg op).1 = .ok a) (hop : ∀ reg', op = .ok (a, reg') → OnRecord reg' scope v) :
    OnRecord (transact env reg op).2 scope v := by
  obtain ⟨a', reg', hok, ht⟩ | ⟨e, ht⟩ := transact_cases env reg op
  · rw [ht] at h ⊢
    obtain rfl := Except.ok.inj h
    exact hop reg' hok
  · rw [ht] at h
    cases h

/-- A record that a reply shows is on record. -/
theorem act_shows {c : Call} (h : Shows scope c (act reg env c).1 v) :
    OnRecord (act reg env c).2 scope v := by
  cases c with
  | reserve s key digest driver =>
    obtain ⟨rfl, created, h⟩ := h
    exact transact_onRecord h fun reg' hop => byKey_onRecord (reserve_ok hop).here
  | rejectPreLaunch s key digest reason driver =>
    obtain ⟨rfl, created, h⟩ := h
    exact transact_onRecord h fun reg' hop => byKey_onRecord (rejectPreLaunch_ok hop).here
  | claimSpawn s key rid =>
    obtain ⟨rfl, owns, h⟩ := h
    exact transact_onRecord h fun reg' hop => claimSpawn_onRecord hop
  | recordStarted s key receipt pid birth host =>
    obtain ⟨rfl, h⟩ := h
    exact transact_onRecord h fun reg' hop => (recordStarted_ok hop).onRecord fun _ => rfl
  | recordLaunchError s key detail =>
    obtain ⟨rfl, h⟩ := h
    exact transact_onRecord h fun reg' hop => (recordLaunchError_ok hop).onRecord fun _ => rfl
  | recordTerminal s key receipt state result exitCode =>
    obtain ⟨rfl, h⟩ := h
    exact transact_onRecord h fun reg' hop => (recordTerminal_ok hop).onRecord fun _ => rfl
  | getLaunch s key =>
    obtain ⟨rfl, h⟩ := h
    simp only [act, query] at h ⊢
    split at h
    · simp only [getLaunch, bind_eq_ok, pure_eq_ok] at h
      obtain ⟨_, _, h⟩ := h
      exact byKey_onRecord h
    · cases h
  | _ => exact h.elim

/-- The reply of a call under the scope shows the record, possibly by its job or in a list. -/
def Learns (scope : String) : (c : Call) → c.Reply → LaunchRecord → Prop
  | .getJob s _, reply, r => s = scope ∧ reply = .ok (some r)
  | .listLaunches s, reply, r => s = scope ∧ ∃ rs, reply = .ok rs ∧ r ∈ rs
  | c, reply, r => Shows scope c reply r

theorem act_learns {c : Call} (h : Learns scope c (act reg env c).1 v) :
    OnRecord (act reg env c).2 scope v := by
  cases c with
  | getJob s jobId =>
    obtain ⟨rfl, h⟩ := h
    simp only [act, query] at h ⊢
    split at h
    · simp only [getJob, bind_eq_ok, pure_eq_ok] at h
      obtain ⟨_, _, h⟩ := h
      have hp := List.find?_some h
      rw [decide_eq_true_eq] at hp
      exact ⟨List.mem_of_find?_eq_some h, hp.1⟩
    · cases h
  | listLaunches s =>
    obtain ⟨rfl, rs, h, hmem⟩ := h
    simp only [act, query] at h ⊢
    split at h
    · cases h
      rw [listLaunches, List.mem_mergeSort, List.mem_filter, decide_eq_true_eq] at hmem
      exact hmem
    · cases h
  | _ => exact act_shows h

end

/-! ## Writes about what was shown -/

/-- The reasons of a rejection before the launch. -/
def rejectionReasons : List String :=
  ["UNSUPPORTED_REQUEST_FIELDS", "UNSUPPORTED_EXECUTION_FIELDS", "UNSUPPORTED_JOB_FIELDS", "REQUEST_DIGEST_MISMATCH",
    "DRIVER_NOT_REGISTERED", "DRIVER_UNAVAILABLE", "UNSUPPORTED_JOB_TYPE", "UNSUPPORTED_WORKER_ROLE",
    "INVALID_PROMPT", "PROMPT_TOO_LARGE", "INVALID_RESPONSE_SCHEMA"]

/-- The write names a record that satisfies `S` in its scope, or one of the reasons of a rejection. -/
def Names (S : String → LaunchRecord → Prop) : Call → Prop
  | .rejectPreLaunch _ _ _ reason _ => reason ∈ rejectionReasons
  | .recordStarted scope key receipt pid _ _ =>
    0 < pid ∧ ∃ r, S scope r ∧ r.idempotencyKey = key ∧ r.names receipt = true
  | .recordTerminal scope key receipt _ _ _ => ∃ r, S scope r ∧ r.idempotencyKey = key ∧ r.names receipt = true
  | .recordLaunchError scope key _ => ∃ r, S scope r ∧ r.idempotencyKey = key
  | _ => True

/-- A receipt that the reply to a read gave, and that matches the record under the profile of its driver. -/
structure ReceiptFor (d : Daemon) (ok : (c : Call) → c.Reply → Prop) (file : SpoolFile) (r : LaunchRecord)
    (receipt : Receipt) (document : Document) : Prop where
  read : ok (.readReceipt receipt.jobId file) (some document)
  names : r.names receipt = true
  matched : ∃ profile, profileForRecord d r = some profile ∧ receiptMatches d r profile document = true

/-- The write names a record that satisfies `S`, and what it observes is in a receipt for this record. -/
def Vouched (d : Daemon) (ok : (c : Call) → c.Reply → Prop) (S : String → LaunchRecord → Prop) : Call → Prop
  | .recordStarted scope key receipt pid birth host =>
    scope = d.authorityScope ∧ host = d.processHostIdentity ∧ 0 < pid ∧ ∃ r document, S scope r ∧
      r.idempotencyKey = key ∧ ReceiptFor d ok .started r receipt document ∧ document "pid" = .int pid ∧
      document "process_birth_identity" = .text birth
  | .recordTerminal scope key receipt state result exitCode =>
    scope = d.authorityScope ∧ ∃ r document value, S scope r ∧ r.idempotencyKey = key ∧
      ReceiptFor d ok .terminal r receipt document ∧ document "launch_state" = .text value ∧
      LaunchState.ofValue value = some state ∧ document "result" = .object result ∧
      ∀ code, exitCode = some code → document "exit_code" = .int code
  | c => Names S c

theorem Vouched.names {d : Daemon} {ok : (c : Call) → c.Reply → Prop} {S : String → LaunchRecord → Prop} {c : Call}
    (h : Vouched d ok S c) : Names S c := by
  cases c with
  | recordStarted scope key receipt pid birth host =>
    obtain ⟨-, -, hpid, r, document, hs, hkey, hreceipt, -, -⟩ := h
    exact ⟨hpid, r, hs, hkey, hreceipt.names⟩
  | recordTerminal scope key receipt state result exitCode =>
    obtain ⟨-, r, document, value, hs, hkey, hreceipt, -⟩ := h
    exact ⟨r, hs, hkey, hreceipt.names⟩
  | _ => exact h

/-- Replies that are `ok` show records that satisfy `S`, and a call that is vouched for is not bad. -/
structure Attends (d : Daemon) (ok : (c : Call) → c.Reply → Prop) (bad : Call → Prop)
    (S : String → LaunchRecord → Prop) : Prop where
  shown : ∀ c reply, ok c reply → ∀ scope r, Shows scope c reply r → S scope r
  named : ∀ c, Vouched d ok S c → ¬ bad c

/-- What the writes of `reconcile` raise satisfies `E`. -/
structure Raises (ok : (c : Call) → c.Reply → Prop) (E : Raised → Prop) : Prop where
  started : ∀ scope key receipt pid birth host e, ok (.recordStarted scope key receipt pid birth host) (.error e) →
    E (.registry e)
  terminal : ∀ scope key receipt state result exitCode e,
    ok (.recordTerminal scope key receipt state result exitCode) (.error e) → E (.registry e)
  launchError : ∀ scope key detail e, ok (.recordLaunchError scope key detail) (.error e) → E (.registry e)

/-- The response shows records that satisfy `S` only. -/
def Response.Relays (S : LaunchRecord → Prop) (response : Response) : Prop := ∀ r, response.record = some r → S r

section

variable {S : LaunchRecord → Prop}

theorem error_relays {status : Nat} {code : String} : (Response.error status code).Relays S := fun _ h => (by cases h)

theorem norecord_relays {response : Response} (h : response.record = none) : response.Relays S := by
  intro r hr
  rw [h] at hr
  cases hr

theorem some_relays {r : LaunchRecord} (h : S r) {status : Nat} {code : Option String} {replayed : Bool} :
    Response.Relays S ⟨status, code, some r, replayed⟩ := by
  rintro r' ⟨⟩
  exact h

end

section

variable {requestDigest : RequestDigest} {α : Type} {d : Daemon}
  {ok : (c : Call) → c.Reply → Prop} {bad : Call → Prop} {S : String → LaunchRecord → Prop} {E : Raised → Prop}

theorem Raises.always : Raises ok fun _ => True := ⟨by simp, by simp, by simp⟩

theorem ask_attends (h : Attends d ok bad S) {c : Call} (hc : Vouched d ok S c) :
    Upholds ok bad (fun reply => ok c reply) E (ask c) :=
  Upholds.ask (h.named c hc)

theorem answered_attends {x : Except RegistryError α} {Q : α → Prop} (h : ∀ a, x = .ok a → Q a)
    (he : ∀ e, x = .error e → E (.registry e)) : Upholds ok bad Q E (answered x) := by
  refine Upholds.result ?_
  cases x with
  | ok a => exact h a rfl
  | error e => exact he e rfl

variable {record claimed : LaunchRecord} {jobId nonce reason : String}

theorem names_own (hj : record.jobId = some jobId) (hn : record.launchNonce = some nonce) :
    record.names ⟨jobId, nonce, record.requestDigest⟩ = true := by
  simp [LaunchRecord.names, hj, hn]

theorem recordError_attends (h : Attends d ok bad S) (hr : Raises ok E) (hs : S d.authorityScope record)
    (detail : String) :
    Upholds ok bad (S d.authorityScope) E (recordError d record detail) := by
  refine Upholds.bind (ask_attends h ⟨record, hs, rfl⟩) fun reply hok => answered_attends ?_ ?_
  · rintro r rfl
    exact h.shown _ _ hok _ r ⟨rfl, rfl⟩
  · rintro e rfl
    exact hr.launchError _ _ _ e hok

theorem validateRecordProfile_attends (h : Attends d ok bad S) (hr : Raises ok E) (hs : S d.authorityScope record) :
    Upholds ok bad (fun a => S d.authorityScope a.1 ∧ ∀ profile, a.2 = some profile →
      profileForRecord d a.1 = some profile) E (validateRecordProfile d record) := by
  unfold validateRecordProfile
  split
  · rename_i profile hprofile
    refine Upholds.pure ⟨hs, ?_⟩
    rintro _ ⟨⟩
    exact hprofile
  · refine Upholds.bind (ask_attends h ⟨record, hs, rfl⟩) fun reply hok =>
      Upholds.bind (answered_attends (Q := S d.authorityScope) ?_ ?_) fun _ hs =>
        Upholds.pure ⟨hs, fun _ h => (by cases h)⟩
    · rintro r rfl
      exact h.shown _ _ hok _ r ⟨rfl, rfl⟩
    · rintro e rfl
      exact hr.launchError _ _ _ e hok

theorem reconcileTerminal_attends (h : Attends d ok bad S) (hr : Raises ok E) {terminal : Document}
    (hs : S d.authorityScope record)
    (hreceipt : ReceiptFor d ok .terminal record ⟨jobId, nonce, record.requestDigest⟩ terminal) :
    Upholds ok bad (S d.authorityScope) E (reconcileTerminal d record jobId nonce terminal) := by
  unfold reconcileTerminal
  dsimp only
  split
  · exact recordError_attends h hr hs _
  · rename_i state hstate
    split
    · rename_i result hresult
      obtain ⟨value, hvalue, hspelt⟩ : ∃ value, terminal "launch_state" = .text value ∧
          LaunchState.ofValue value = some state := by
        split at hstate
        · exact ⟨_, ‹_›, hstate⟩
        · cases hstate
      refine Upholds.bind (ask_attends h ⟨rfl, record, terminal, value, hs, rfl, hreceipt, hvalue, hspelt, hresult,
        fun code hcode => ?_⟩) fun reply hok => answered_attends ?_ ?_
      · split at hcode
        · obtain rfl := Option.some.inj hcode
          assumption
        · cases hcode
      · rintro r rfl
        exact h.shown _ _ hok _ r ⟨rfl, rfl⟩
      · rintro e rfl
        exact hr.terminal _ _ _ _ _ _ e hok
    · exact recordError_attends h hr hs _

theorem reconcileStarted_attends (h : Attends d ok bad S) (hr : Raises ok E) {started : Document}
    (hs : S d.authorityScope record)
    (hreceipt : ReceiptFor d ok .started record ⟨jobId, nonce, record.requestDigest⟩ started) :
    Upholds ok bad (S d.authorityScope) E (reconcileStarted d record jobId nonce started) := by
  unfold reconcileStarted
  split
  · rename_i pid birth hpidRead hbirthRead
    split
    · exact recordError_attends h hr hs _
    · rename_i hvalid
      have hpid : 0 < pid := by
        rw [not_or] at hvalid
        omega
      refine Upholds.bind (ask_attends h trivial) fun _ _ => Upholds.bind (ask_attends h trivial) fun _ _ =>
        Upholds.bind (ask_attends h ⟨rfl, rfl, hpid, record, started, hs, rfl, hreceipt, hpidRead, hbirthRead⟩)
          fun reply hok =>
        Upholds.bind (answered_attends (Q := S d.authorityScope) ?_ ?_) fun attached hattached => ?_
      · rintro r rfl
        exact h.shown _ _ hok _ r ⟨rfl, rfl⟩
      · rintro e rfl
        exact hr.started _ _ _ _ _ _ e hok
      · split
        · exact Upholds.pure hattached
        · exact recordError_attends h hr hs _
  · exact recordError_attends h hr hs _

/-- `reconcile` writes about the record that it was given, and returns one that it was given or shown. -/
theorem reconcile_attends (h : Attends d ok bad S) (hr : Raises ok E) (hs : S d.authorityScope record) :
    Upholds ok bad (S d.authorityScope) E (reconcile d record) := by
  unfold reconcile
  refine Upholds.bind (validateRecordProfile_attends h hr hs) fun ⟨record, profile⟩ ⟨hs, hprofile⟩ => ?_
  dsimp only at hs hprofile ⊢
  split
  · rename_i profile jobId nonce hj hn _
    have hreceipt : ∀ file {found : Option Document} {document : Document}, ok (.readReceipt jobId file) found →
        found.filter (receiptMatches d record profile) = some document →
        ReceiptFor d ok file record ⟨jobId, nonce, record.requestDigest⟩ document := by
      intro file found document hread hfilter
      obtain ⟨hfound, hmatched⟩ := Option.filter_eq_some_iff.mp hfilter
      rw [hfound] at hread
      exact ⟨hread, names_own hj hn, profile, hprofile profile rfl, hmatched⟩
    refine Upholds.bind (ask_attends h trivial) fun _ hterminal => ?_
    split
    · rename_i hfilter
      exact reconcileTerminal_attends h hr hs (hreceipt .terminal hterminal hfilter)
    · refine Upholds.bind (ask_attends h trivial) fun _ hstarted => ?_
      split
      · rename_i hfilter
        exact reconcileStarted_attends h hr hs (hreceipt .started hstarted hfilter)
      · exact Upholds.pure hs
  · exact Upholds.pure hs

/-! ## The other handlers -/

theorem awaitStarted_attends (h : Attends d ok bad S) (hr : Raises ok E) (hs : S d.authorityScope claimed)
    (profile : DriverProfile) (jobId : String) (polls : Nat) :
    Upholds ok bad (S d.authorityScope) E (awaitStarted d claimed profile jobId polls) := by
  induction polls with
  | zero => exact recordError_attends h hr hs _
  | succ polls ih =>
    unfold awaitStarted
    refine Upholds.bind (ask_attends h trivial) fun _ _ => ?_
    split
    · exact reconcile_attends h hr hs
    · exact ih

theorem spawnClaimed_attends (h : Attends d ok bad S) (hs : S d.authorityScope claimed) (profile : DriverProfile)
    (request : LaunchRequestSpec) (polls : Nat) :
    Upholds ok bad (S d.authorityScope) (fun _ => True) (spawnClaimed d claimed profile request polls) := by
  unfold spawnClaimed
  split
  · refine Upholds.bind (ask_attends h trivial) fun written _ => ?_
    split
    · exact Upholds.throw trivial
    · refine Upholds.bind (ask_attends h trivial) fun outcome _ => ?_
      split
      · exact Upholds.throw trivial
      · exact recordError_attends h .always hs _
      · exact awaitStarted_attends h .always hs ..
  · exact Upholds.throw trivial

theorem launch_attends (h : Attends d ok bad S) (hs : S d.authorityScope record) (request : LaunchRequestSpec)
    (polls : Nat) :
    Upholds ok bad (S d.authorityScope) (fun _ => True) (launch d record request polls) := by
  unfold launch
  split
  · exact reconcile_attends h .always hs
  · refine Upholds.bind (validateRecordProfile_attends h .always hs) fun ⟨record, profile⟩ ⟨hs, _⟩ => ?_
    dsimp only at hs ⊢
    cases profile with
    | none => exact Upholds.pure hs
    | some profile =>
      refine Upholds.bind (ask_attends h trivial) fun current _ => ?_
      split
      · exact recordError_attends h .always hs _
      · split
        · exact recordError_attends h .always hs _
        · refine Upholds.bind (ask_attends h trivial) fun reply hok => Upholds.bind
            (answered_attends (Q := fun claim => S d.authorityScope claim.1) ?_ fun _ _ => trivial)
            fun ⟨claimed, ownsSpawn⟩ hclaimed => ?_
          · rintro ⟨claimed, ownsSpawn⟩ rfl
            exact h.shown _ _ hok _ claimed ⟨rfl, ownsSpawn, rfl⟩
          · dsimp only at hclaimed ⊢
            split
            · exact reconcile_attends h .always hclaimed
            · exact spawnClaimed_attends h hclaimed ..

theorem supportsExecution_attends (h : Attends d ok bad S) (profile : DriverProfile) :
    Upholds ok bad (fun _ => True) E (supportsExecution profile) := by
  unfold supportsExecution
  split
  · exact (ask_attends h (c := .isCurrent profile) trivial).post (fun _ _ => trivial) fun _ he => he
  · exact Upholds.pure trivial

theorem recover_attends (h : Attends d ok bad S)
    (listed : ∀ scope rs, ok (.listLaunches scope) (.ok rs) → ∀ r ∈ rs, S scope r) :
    Upholds ok bad (fun _ => True) (fun _ => True) (recover d) := by
  unfold recover
  refine Upholds.bind (ask_attends h trivial) fun reply hok =>
    Upholds.bind (answered_attends (Q := fun rs => ∀ r ∈ rs, S d.authorityScope r) ?_ fun _ _ => trivial)
      fun records hrecords => ?_
  · rintro rs rfl
    exact listed _ rs hok
  · refine Upholds.forM fun record hmem => ?_
    split
    · exact Upholds.bind (reconcile_attends h .always (hrecords record hmem)) fun _ _ => Upholds.pure trivial
    · exact Upholds.pure trivial

theorem job_attends (h : Attends d ok bad S) (hr : Raises ok E)
    (found : ∀ scope jobId r, ok (.getJob scope jobId) (.ok (some r)) → S scope r)
    (failed : ∀ scope jobId e, ok (.getJob scope jobId) (.error e) → E (.registry e)) (jobId : String) :
    Upholds ok bad (fun found => ∀ r, found = some r → S d.authorityScope r) E (job d jobId) := by
  unfold job
  refine Upholds.bind (ask_attends h trivial) fun reply hok =>
    Upholds.bind (answered_attends (Q := fun found => ∀ r, found = some r → S d.authorityScope r) ?_ ?_)
      fun record hrecord => ?_
  · rintro _ rfl r rfl
    exact found _ _ r hok
  · rintro e rfl
    exact failed _ _ e hok
  · split
    · rename_i record
      refine Upholds.bind (reconcile_attends h hr (hrecord record rfl)) fun r hs => Upholds.pure ?_
      rintro _ ⟨⟩
      exact hs
    · exact Upholds.pure fun r h => (by cases h)

variable {E' : Raised → Prop}

theorem getJobRecord_attends (h : Attends d ok bad S) (hr : Raises ok E)
    (found : ∀ scope jobId r, ok (.getJob scope jobId) (.ok (some r)) → S scope r)
    (failed : ∀ scope jobId e, ok (.getJob scope jobId) (.error e) → E (.registry e))
    (handled : ∀ e, E e → (e = .registry .unavailable ∨ ∃ message, e = .registry (.valueError message)) ∨ E' e)
    (jobId : String) :
    Upholds ok bad (fun parsed => (∀ response, parsed = .inl response → response.record = none) ∧
      ∀ r, parsed = .inr r → S d.authorityScope r) E' (getJobRecord d jobId) := by
  have refused : ∀ status code, (∀ response, (Sum.inl (Response.error status code) : Response ⊕ LaunchRecord) =
      .inl response → response.record = none) ∧
      ∀ r, (Sum.inl (Response.error status code) : Response ⊕ LaunchRecord) = .inr r → S d.authorityScope r := by
    refine fun status code => ⟨?_, fun r h => (by cases h)⟩
    rintro _ ⟨⟩
    rfl
  unfold getJobRecord
  refine Upholds.rescue (Upholds.bind (job_attends h hr found failed jobId) fun record hrecord => ?_) fun e he => ?_
  · cases record with
    | none => exact Upholds.pure (refused _ _)
    | some record =>
      refine Upholds.pure ⟨fun _ h => (by cases h), ?_⟩
      rintro _ ⟨⟩
      exact hrecord record rfl
  · split
    · exact Upholds.pure (refused _ _)
    · exact Upholds.pure (refused _ _)
    · rename_i hunavailable hvalue
      rcases handled e he with (rfl | ⟨message, rfl⟩) | he'
      · exact absurd rfl hunavailable
      · exact absurd rfl (hvalue message)
      · exact Upholds.throw he'

theorem getJobV2_attends (h : Attends d ok bad S) (hr : Raises ok E)
    (found : ∀ scope jobId r, ok (.getJob scope jobId) (.ok (some r)) → S scope r)
    (failed : ∀ scope jobId e, ok (.getJob scope jobId) (.error e) → E (.registry e))
    (handled : ∀ e, E e → (e = .registry .unavailable ∨ ∃ message, e = .registry (.valueError message)) ∨ E' e)
    (jobId : String) :
    Upholds ok bad (Response.Relays (S d.authorityScope)) E' (getJobV2 d jobId) := by
  unfold getJobV2
  refine Upholds.bind (getJobRecord_attends h hr found failed handled jobId) fun parsed hparsed => ?_
  split
  · exact Upholds.pure (norecord_relays (hparsed.1 _ rfl))
  · exact Upholds.pure (some_relays (hparsed.2 _ rfl))

theorem cancel_attends (h : Attends d ok bad S) (hs : S d.authorityScope record) :
    Upholds ok bad (fun a => S d.authorityScope a.1) (fun _ => True) (cancel d record) := by
  unfold cancel
  refine Upholds.bind (reconcile_attends h .always hs) fun record hs => ?_
  split
  · exact Upholds.pure hs
  · split
    · exact Upholds.pure hs
    · refine Upholds.bind (supportsExecution_attends h _) fun _ _ => ?_
      split
      · exact Upholds.pure hs
      · split
        · split
          · exact Upholds.pure hs
          · refine Upholds.bind (ask_attends h trivial) fun birthMatches _ =>
              Upholds.bind (ask_attends h trivial) fun lockHeld _ => ?_
            split
            · exact Upholds.bind (reconcile_attends h .always hs) fun _ hs => Upholds.pure hs
            · refine Upholds.bind (ask_attends h trivial) fun signalled _ => ?_
              split
              · exact Upholds.bind (reconcile_attends h .always hs) fun _ hs => Upholds.pure hs
              · exact Upholds.pure hs
        · exact Upholds.pure hs

theorem cancelJobV2_attends (h : Attends d ok bad S)
    (found : ∀ scope jobId r, ok (.getJob scope jobId) (.ok (some r)) → S scope r) (jobId : String) :
    Upholds ok bad (Response.Relays (S d.authorityScope)) (fun _ => True) (cancelJobV2 d jobId) := by
  unfold cancelJobV2
  refine Upholds.bind (getJobRecord_attends h .always found (fun _ _ _ _ => trivial) (fun _ _ => Or.inr trivial) jobId)
    fun parsed hparsed => ?_
  split
  · exact Upholds.pure (norecord_relays (hparsed.1 _ rfl))
  · exact Upholds.bind (cancel_attends h (hparsed.2 _ rfl)) fun _ hs => Upholds.pure (some_relays hs)

/-- What a lookup raises is handled, or was raised by a write. -/
theorem lookupLaunch_attends (h : Attends d ok bad S) (hr : Raises ok E)
    (failed : ∀ scope key e, ok (.getLaunch scope key) (.error e) → E (.registry e))
    (handled : ∀ e, E e → (e = .registry .unavailable ∨ ∃ message, e = .registry (.valueError message)) ∨ E' e)
    (key : String) (driverId : Option String) :
    Upholds ok bad (Response.Relays (S d.authorityScope)) E' (lookupLaunch d key driverId) := by
  unfold lookupLaunch
  dsimp only
  split
  · exact Upholds.pure error_relays
  · split
    · exact Upholds.pure error_relays
    · refine Upholds.rescue (E := E) (Upholds.bind (ask_attends h trivial) fun reply hok => Upholds.bind
        (answered_attends (Q := fun found => ∀ r, found = some r → S d.authorityScope r) ?_ ?_)
          fun found hfound => ?_) fun e he => ?_
      · rintro _ rfl r rfl
        exact h.shown _ _ hok _ r ⟨rfl, rfl⟩
      · rintro e rfl
        exact failed _ _ e hok
      · split
        · exact Upholds.pure error_relays
        · split
          · exact Upholds.pure error_relays
          · exact Upholds.bind (reconcile_attends h hr (hfound _ rfl)) fun _ hs => Upholds.pure (some_relays hs)
      · split
        · exact Upholds.pure error_relays
        · exact Upholds.pure error_relays
        · rename_i hvalue hunavailable
          rcases handled e he with (rfl | ⟨message, rfl⟩) | he'
          · exact absurd rfl hunavailable
          · exact absurd rfl (hvalue message)
          · exact Upholds.throw he'

theorem durableRejection_attends (h : Attends d ok bad S) (key digest : String) (hreason : reason ∈ rejectionReasons)
    (profile : Option DriverProfile) :
    Upholds ok bad (Response.Relays (S d.authorityScope)) (fun _ => True)
      (durableRejection d key digest reason profile) := by
  unfold durableRejection
  refine Upholds.bind (ask_attends h hreason) fun reply hok => ?_
  split
  · exact Upholds.pure (some_relays (h.shown _ _ hok _ _ ⟨rfl, _, rfl⟩))
  · exact Upholds.pure error_relays
  · exact Upholds.pure error_relays
  · exact Upholds.throw trivial

theorem promptReason_listed {job : Object} (h : promptReason job = some reason) :
    reason ∈ rejectionReasons := by
  unfold promptReason at h
  split at h
  · split at h
    · cases h
      decide
    · split at h
      · cases h
        decide
      · cases h
  · cases h
    decide

theorem schemaReason_listed {job : Object} (h : schemaReason job = some reason) :
    reason ∈ rejectionReasons := by
  unfold schemaReason at h
  split at h
  · split at h
    · cases h
    · cases h
      decide
  · cases h

theorem isMember_attends (value : Json) (names : List String) :
    Upholds ok bad (fun _ => True) (fun _ => True) (value.isMember names) := by
  unfold Json.isMember
  split
  · exact Upholds.throw trivial
  · exact Upholds.throw trivial
  · exact Upholds.pure trivial

theorem rejectionReason_attends (h : Attends d ok bad S) (body : LaunchBody) (execution job : Object) (digest : String)
    (profile : Option DriverProfile) :
    Upholds ok bad (fun reason => ∀ r, reason = some r → r ∈ rejectionReasons) (fun _ => True)
      (rejectionReason body execution job digest profile) := by
  have hlisted : ∀ reason, reason ∈ rejectionReasons → Upholds ok bad
      (fun reason => ∀ r, reason = some r → r ∈ rejectionReasons) (fun _ => True)
      (pure (some reason) : Handler (Option String)) := by
    refine fun reason hr => Upholds.pure ?_
    rintro _ ⟨⟩
    exact hr
  unfold rejectionReason
  split
  · exact hlisted _ (by decide)
  · split
    · exact hlisted _ (by decide)
    · split
      · exact hlisted _ (by decide)
      · split
        · exact hlisted _ (by decide)
        · split
          · exact hlisted _ (by decide)
          · refine Upholds.bind (supportsExecution_attends h _) fun _ _ => ?_
            split
            · exact hlisted _ (by decide)
            · refine Upholds.bind (isMember_attends _ _) fun _ _ => ?_
              split
              · exact hlisted _ (by decide)
              · refine Upholds.bind (isMember_attends _ _) fun _ _ => ?_
                split
                · exact hlisted _ (by decide)
                · refine Upholds.pure fun reason hreason => ?_
                  cases hp : promptReason job with
                  | some r =>
                    rw [hp] at hreason
                    cases hreason
                    exact promptReason_listed hp
                  | none =>
                    rw [hp] at hreason
                    exact schemaReason_listed hreason

theorem parseLaunch_attends (h : Attends d ok bad S) (body : LaunchBody) :
    Upholds ok bad (fun parsed => ∀ response, parsed = .inl response → response.Relays (S d.authorityScope))
      (fun _ => True) (parseLaunch requestDigest d body) := by
  have hleft : ∀ {response : Response}, response.Relays (S d.authorityScope) →
      Upholds ok bad (fun parsed => ∀ response, parsed = .inl response → response.Relays (S d.authorityScope))
        (fun _ => True) (pure (.inl response) : Handler (Response ⊕ String × String × LaunchRequestSpec)) := by
    refine fun h => Upholds.pure ?_
    rintro _ ⟨⟩
    exact h
  unfold parseLaunch
  split
  · split
    · exact hleft error_relays
    · split
      · exact hleft error_relays
      · refine Upholds.bind (ask_attends h trivial) fun _ _ => ?_
        split
        · exact hleft error_relays
        · split
          · exact hleft error_relays
          · split
            · split
              · exact hleft error_relays
              · dsimp only
                split
                · exact hleft error_relays
                · refine Upholds.bind (rejectionReason_attends h ..) fun reason hreason => ?_
                  split
                  · exact Upholds.pure fun _ h => (by cases h)
                  · exact Upholds.throw trivial
                  · exact Upholds.bind (durableRejection_attends h _ _ (hreason _ rfl) _) fun _ h => hleft h
            · exact hleft error_relays
  · exact hleft error_relays

theorem reserveKey_attends (h : Attends d ok bad S) (key digest : String) (driver : DriverBinding) :
    Upholds ok bad (fun claim => S d.authorityScope claim.1) (fun _ => True) (reserveKey d key digest driver) := by
  unfold reserveKey
  refine Upholds.bind (ask_attends h trivial) fun reply hok => answered_attends ?_ fun _ _ => trivial
  rintro ⟨record, created⟩ rfl
  exact h.shown _ _ hok _ record ⟨rfl, created, rfl⟩

theorem submit_attends (h : Attends d ok bad S) (key digest : String) (request : LaunchRequestSpec) (polls : Nat) :
    Upholds ok bad (Response.Relays (S d.authorityScope)) (fun _ => True) (submit d key digest request polls) := by
  unfold submit
  refine Upholds.bind (reserveKey_attends h ..) fun ⟨record, created⟩ hs => ?_
  dsimp only at hs ⊢
  split
  · exact Upholds.pure (some_relays hs)
  · exact Upholds.bind (launch_attends h hs ..) fun _ hs => Upholds.pure (some_relays hs)

theorem createLaunch_attends (h : Attends d ok bad S) (body : LaunchBody) (polls : Nat) :
    Upholds ok bad (Response.Relays (S d.authorityScope)) (fun _ => True)
      (createLaunch requestDigest d body polls) := by
  unfold createLaunch
  refine Upholds.bind (parseLaunch_attends h body) fun parsed hparsed => ?_
  split
  · exact Upholds.pure (hparsed _ rfl)
  · refine Upholds.rescue (submit_attends h ..) fun e _ => ?_
    unfold submitFailure
    split
    · exact Upholds.pure error_relays
    · exact Upholds.pure error_relays
    · exact Upholds.throw trivial

theorem createJobV1_attends (h : Attends d ok bad S) (identity : String) (body : Object) (polls : Nat) :
    Upholds ok bad (Response.Relays (S d.authorityScope)) (fun _ => True)
      (createJobV1 requestDigest d identity body polls) := by
  unfold createJobV1
  dsimp only
  split
  · exact Upholds.pure error_relays
  refine Upholds.bind (isMember_attends _ _) fun known _ => ?_
  split
  · exact Upholds.pure error_relays
  refine Upholds.bind (isMember_attends _ _) fun known _ => ?_
  split
  · exact Upholds.pure error_relays
  split
  · exact Upholds.pure error_relays
  refine Upholds.bind (supportsExecution_attends h _) fun supported _ => ?_
  split
  · exact Upholds.pure error_relays
  refine Upholds.rescue (E := fun _ => True) (Upholds.bind (reserveKey_attends h ..) fun ⟨record, created⟩ hs =>
    Upholds.bind (launch_attends h hs ..) fun _ hs => Upholds.pure (some_relays hs)) fun e _ => ?_
  split
  · exact Upholds.pure error_relays
  · exact Upholds.throw trivial

/-- **Every handler writes about what it was shown.** -/
theorem serve_attends (h : ∀ d, Attends d ok bad S)
    (found : ∀ scope jobId r, ok (.getJob scope jobId) (.ok (some r)) → S scope r)
    (listed : ∀ scope rs, ok (.listLaunches scope) (.ok rs) → ∀ r ∈ rs, S scope r) (request : Request) :
    (serve requestDigest request).Avoids ok bad fun _ => True := by
  cases request with
  | startUp d => exact (recover_attends (h d) listed).discard _
  | createLaunch d body polls => exact (createLaunch_attends (h d) body polls).discard _
  | createJobV1 d identity body polls => exact (createJobV1_attends (h d) identity body polls).discard _
  | lookupLaunch d key driverId =>
    exact (lookupLaunch_attends (h d) .always (fun _ _ _ _ => trivial) (fun _ _ => Or.inr trivial) key driverId).discard
      _
  | getJob d jobId =>
    exact (getJobV2_attends (h d) .always found (fun _ _ _ _ => trivial) (fun _ _ => Or.inr trivial) jobId).discard _
  | cancelJob d jobId => exact (cancelJobV2_attends (h d) found jobId).discard _

end

end AgentFabric.LocalWorker
