import AgentFabric.Lib.Conduct
import AgentFabric.LocalWorker.Faults

/-!
# What is observed of a process, and which process is signalled

The receipts of a job may have been written by anyone, and the process table may hold anything.
-/

namespace AgentFabric.LocalWorker

open AgentFabric.Lib Prog

/-! ## Later versions of a launch -/

/-- A later version of a record: the same launch, and the same process once it runs. -/
structure LaunchLe (r r' : LaunchRecord) : Prop extends RecordLe r r' where
  runtime : r.launchNonce ≠ none → r'.launchRuntimeInstanceId = r.launchRuntimeInstanceId
  process : 2 ≤ r.launchState.rank → r'.processPid = r.processPid ∧
    r'.processBirthIdentity = r.processBirthIdentity ∧ r'.processHostIdentity = r.processHostIdentity

theorem LaunchLe.refl (r : LaunchRecord) : LaunchLe r r := ⟨RecordLe.refl r, fun _ => rfl, fun _ => ⟨rfl, rfl, rfl⟩⟩

theorem LaunchLe.trans {a b c : LaunchRecord} (h : LaunchLe a b) (h' : LaunchLe b c) : LaunchLe a c where
  toRecordLe := h.toRecordLe.trans h'.toRecordLe
  runtime hn := (h'.runtime (by rw [h.nonce hn]; exact hn)).trans (h.runtime hn)
  process hr := by
    obtain ⟨hp, hb, hh⟩ := h.process hr
    obtain ⟨hp', hb', hh'⟩ := h'.process (Nat.le_trans hr h.rank)
    exact ⟨hp'.trans hp, hb'.trans hb, hh'.trans hh⟩

variable {r r' : LaunchRecord}

theorem RecordStep.launchLe (h : RecordStep r r') (hi : r.Issued) : LaunchLe r r' := by
  refine ⟨h.le hi, ?_, ?_⟩
  · cases h with
    | launch nonce rid hs => exact fun hn => absurd (hi.mpr (Or.inl hs)) hn
    | _ => exact fun _ => rfl
  · cases h with
    | launch nonce rid hs => exact fun hr => by rw [hs] at hr; exact absurd hr (by decide)
    | start receipt pid birth host hs => exact fun hr => by rw [hs] at hr; exact absurd hr (by decide)
    | _ => exact fun _ => ⟨rfl, rfl, rfl⟩

/-- The record is one of the scope, and a later version of its launch is on record. -/
def Ongoing (reg : Registry) (scope : String) (r : LaunchRecord) : Prop :=
  r.authorityScope = scope ∧ ∃ r' ∈ reg.rows, LaunchLe r r'

theorem RegistryStep.ongoing {reg reg' : Registry} (h : RegistryStep reg reg') (hi : reg.Issued) {scope : String}
    (hr : Ongoing reg scope r) : Ongoing reg' scope r := by
  obtain ⟨hscope, r', hmem, hle⟩ := hr
  refine ⟨hscope, ?_⟩
  cases h with
  | rewrite h =>
    rcases h with rfl | ⟨old, new, hold, hstep, hrows⟩
    · exact ⟨r', hmem, hle⟩
    · by_cases hr' : r' = old
      · subst hr'
        exact ⟨new, (hrows new).mpr (Or.inl rfl), hle.trans (hstep.launchLe (hi r' hold))⟩
      · exact ⟨r', (hrows r').mpr (Or.inr ⟨hmem, hr'⟩), hle⟩
  | insert fresh unused state nonce rows =>
    exact ⟨r', by rw [rows]; exact List.mem_append_left _ hmem, hle⟩

/-- A launch that has its nonce has the daemon that made it. -/
def Registry.Launched (reg : Registry) : Prop :=
  ∀ r ∈ reg.rows, r.launchNonce ≠ none → r.launchRuntimeInstanceId ≠ none

theorem RegistryStep.launched {reg reg' : Registry} (h : RegistryStep reg reg') (hl : reg.Launched) :
    reg'.Launched := by
  cases h with
  | rewrite h =>
    rcases h with rfl | ⟨old, new, hold, hstep, hrows⟩
    · exact hl
    · intro x hx
      rcases (hrows x).mp hx with rfl | ⟨hx, -⟩
      · have hr := hl old hold
        cases hstep with
        | launch nonce rid => exact fun _ => Option.some_ne_none rid
        | _ => exact hr
      · exact hl x hx
  | insert fresh unused state nonce rows =>
    intro x hx
    rw [rows, List.mem_append, List.mem_singleton] at hx
    rcases hx with hx | rfl
    · exact hl x hx
    · exact fun hn => absurd nonce hn

/-- Every record that was shown is ongoing. -/
structure Observed (w : World) : Prop where
  issued : w.state.Issued
  launched : w.state.Launched
  ongoing : ∀ e ∈ w.trace, ∀ scope r, Learns scope e.call e.reply r → Ongoing w.state scope r

/-- Every call keeps what was observed on record. -/
theorem Observed.step {w : World} (h : Observed w) (i : Nat) (env : Environment) (c : Call) :
    Observed (extended w i env c) := by
  have hstep : RegistryStep w.state (act w.state env c).2 := (act_effect w.state env i c).step
  refine ⟨hstep.issued h.issued, hstep.launched h.launched, fun e he scope r hr => ?_⟩
  rw [extended_trace] at he
  rcases List.mem_append.mp he with hold | hnew
  · exact hstep.ongoing h.issued (h.ongoing e hold scope r hr)
  · obtain rfl := List.mem_singleton.mp hnew
    obtain ⟨hmem, hscope⟩ := act_learns hr
    exact ⟨hscope, r, hmem, .refl r⟩

theorem history_observed (requestDigest : RequestDigest)
    (moves : List (Move Nat Request Environment)) : Observed (history requestDigest moves) :=
  Pool.act_invariant (J := Observed) ⟨by rintro r ⟨⟩, by rintro r ⟨⟩, by rintro e ⟨⟩⟩
    (fun i w env c h => h.step i env c) moves

/-! ## What a daemon relies on -/

def Learnt (past : List (Σ c : Call, c.Reply)) (scope : String) (r : LaunchRecord) : Prop :=
  ∃ e ∈ past, Learns scope e.1 e.2 r

theorem Learnt.mono {past past' : List (Σ c : Call, c.Reply)} {scope : String} (h : Learnt past scope r)
    (hsub : past ⊆ past') : Learnt past' scope r := by
  obtain ⟨e, he, hr⟩ := h
  exact ⟨e, hsub he, hr⟩

/-- The process is that of a running record of this host, and the last two calls found it and its lock. -/
structure MaySignal (d : Daemon) (past : List (Σ c : Call, c.Reply)) (r : LaunchRecord) (pid : Int)
    (birth jobId nonce : String) : Prop where
  learnt : Learnt past d.authorityScope r
  running : r.launchState = .running
  process : r.processPid = some pid ∧ r.processBirthIdentity = some birth ∧
    r.processHostIdentity = some d.processHostIdentity
  launch : r.jobId = some jobId ∧ r.launchNonce = some nonce
  checked : ∃ earlier, past = earlier ++ [⟨.processIdentityMatches pid birth, true⟩, ⟨.jobLockIsHeld jobId nonce, true⟩]

/-- The reasons, in the past of a handler, for a call that observes or signals a process. -/
def Warranted (d : Daemon) (past : List (Σ c : Call, c.Reply)) : Call → Prop
  | .kill pid => ∃ r birth jobId nonce, MaySignal d past r pid birth jobId nonce
  | c => Vouched d (fun c reply => ⟨c, reply⟩ ∈ past) (Learnt past) c

section

variable {requestDigest : RequestDigest} {d : Daemon} {α : Type}
  {past : List (Σ c : Call, c.Reply)}

theorem learnt_attends (d : Daemon) (final : List (Σ c : Call, c.Reply)) :
    Attends d (fun c reply => ⟨c, reply⟩ ∈ final)
      (fun c => ¬ Vouched d (fun c reply => ⟨c, reply⟩ ∈ final) (Learnt final) c) (Learnt final) where
  shown c reply h scope r hr := by
    refine ⟨⟨c, reply⟩, h, ?_⟩
    cases c with
    | getJob => exact hr.elim
    | listLaunches => exact hr.elim
    | _ => exact hr
  named _ h hb := hb h

theorem heeds_of_attends {p : Handler α} {Q : List (Σ c : Call, c.Reply) → α → Prop}
    (hp : ∀ final, past ⊆ final → Upholds (fun c reply => ⟨c, reply⟩ ∈ final)
      (fun c => ¬ Vouched d (fun c reply => ⟨c, reply⟩ ∈ final) (Learnt final) c) (Q final) (fun _ => True) p)
    (hquiet : Obeys (fun c => ∀ pid, c ≠ .kill pid) p) :
    Heeds (Warranted d) (fun past x => ∀ a, x = .ok a → Q past a) past p.run := by
  refine Heeds.of_avoids fun final hfinal => ?_
  have hbad : ∀ c, ¬ ¬ Vouched d (fun c reply => ⟨c, reply⟩ ∈ final) (Learnt final) c → (∀ pid, c ≠ .kill pid) →
      ¬ ¬ Warranted d final c := by
    intro c hc hkill
    refine not_not.mpr ?_
    cases c with
    | kill pid => exact absurd rfl (hkill pid)
    | _ => exact not_not.mp hc
  refine ((hp final hfinal).and_all hquiet hbad).mono fun x hx => ?_
  rintro a rfl
  exact hx

theorem not_kill_of_plain {c : Call} (hc : c.plain) (pid : Int) : c ≠ .kill pid := by
  rintro rfl
  exact hc

variable {record : LaunchRecord}

theorem reconcile_heeds (hr : Learnt past d.authorityScope record) :
    Heeds (Warranted d) (fun past x => ∀ r, x = .ok r → Learnt past d.authorityScope r) past (reconcile d record).run :=
  heeds_of_attends
    (fun final hfinal => reconcile_attends (learnt_attends d final) .always (hr.mono hfinal))
    (reconcile_obeys (fun _ => not_kill_of_plain) d record)

theorem supportsExecution_heeds (hr : Learnt past d.authorityScope record) (profile : DriverProfile) :
    Heeds (Warranted d) (fun past x => ∀ a, x = .ok a → Learnt past d.authorityScope record) past
      (supportsExecution profile).run :=
  heeds_of_attends (Q := fun past _ => Learnt past d.authorityScope record)
    (fun final hfinal => (supportsExecution_attends (learnt_attends d final) profile).post
      (fun _ _ => hr.mono hfinal) fun _ h => h)
    (supportsExecution_obeys (fun _ => not_kill_of_plain) profile)

/-- `cancel` signals a process only after it checked the process and its lock. -/
theorem cancel_heeds (hr : Learnt past d.authorityScope record) :
    Heeds (Warranted d) (fun _ _ => True) past (cancel d record).run := by
  have hpure : ∀ {past : List (Σ c : Call, c.Reply)} (a : LaunchRecord × Bool),
      Heeds (Warranted d) (fun _ _ => True) past (pure a : Handler (LaunchRecord × Bool)).run := fun _ => trivial
  have hagain : ∀ {past : List (Σ c : Call, c.Reply)} {record : LaunchRecord}, Learnt past d.authorityScope record →
      Heeds (Warranted d) (fun _ _ => True) past
        (do return (← reconcile d record, false) : Handler (LaunchRecord × Bool)).run :=
    fun hr => (reconcile_heeds hr).raising_bind (fun _ _ _ => trivial) fun _ _ _ => trivial
  unfold cancel
  refine (reconcile_heeds hr).raising_bind (fun past record hrecord => ?_) fun _ _ _ => trivial
  replace hrecord := hrecord record rfl
  split
  · exact hpure _
  · split
    · exact hpure _
    · refine (supportsExecution_heeds hrecord _).raising_bind (fun past _ hlearnt => ?_) fun _ _ _ => trivial
      replace hlearnt := hlearnt _ rfl
      split
      · exact hpure _
      · split
        · rename_i pid birth nonce jobId hpid hbirth hnonce hjob
          split
          · exact hpure _
          · rename_i hguard
            rw [not_or, not_not, not_not] at hguard
            refine ⟨trivial, fun birthMatches => ⟨trivial, fun lockHeld => ?_⟩⟩
            have hkept : Learnt (past ++ [⟨.processIdentityMatches pid birth, birthMatches⟩] ++
                [⟨.jobLockIsHeld jobId nonce, lockHeld⟩]) d.authorityScope record :=
              hlearnt.mono fun e he => List.mem_append_left _ (List.mem_append_left _ he)
            cases birthMatches with
            | false => exact hagain hkept
            | true =>
              cases lockHeld with
              | false => exact hagain hkept
              | true =>
                refine ⟨⟨record, birth, jobId, nonce, hkept, hguard.1, ⟨hpid, hbirth, hguard.2⟩, ⟨hjob, hnonce⟩, past,
                  by simp⟩, fun signalled => ?_⟩
                cases signalled with
                | false => exact hagain (hkept.mono fun e he => List.mem_append_left _ he)
                | true => trivial
        · exact hpure _

theorem cancelJobV2_heeds (jobId : String) :
    Heeds (Warranted d) (fun _ _ => True) past (cancelJobV2 d jobId).run := by
  have hrecord : Heeds (Warranted d) (fun past x => ∀ parsed, x = .ok parsed → ∀ r, parsed = .inr r →
      Learnt past d.authorityScope r) past (getJobRecord d jobId).run :=
    heeds_of_attends (Q := fun past parsed => ∀ r, parsed = .inr r → Learnt past d.authorityScope r)
      (fun final _ => (getJobRecord_attends (learnt_attends d final) .always
        (fun scope jobId r h => ⟨_, h, rfl, rfl⟩) (fun _ _ _ _ => trivial) (fun _ _ => Or.inr trivial) jobId).post
        (fun _ h => h.2) fun _ h => h)
      (getJobRecord_obeys (fun _ => not_kill_of_plain) d jobId)
  unfold cancelJobV2
  refine hrecord.raising_bind (fun past parsed hparsed => ?_) fun _ _ _ => trivial
  split
  · trivial
  · exact (cancel_heeds (hparsed _ rfl _ rfl)).raising_bind (fun _ _ _ => trivial) fun _ _ _ => trivial

/-- **Every handler observes and signals for a reason** that is in what it has read. -/
theorem serve_heeds (request : Request) :
    Heeds (Warranted request.daemon) (fun _ _ => True) [] (serve requestDigest request) := by
  have hdone : ∀ {α : Type} {p : Handler α}, Heeds (Warranted request.daemon) (fun _ _ => True) [] p.run →
      Heeds (Warranted request.daemon) (fun _ _ => True) [] (p.run.bind fun _ => .ret ()) :=
    fun h => Heeds.bind h fun _ _ _ => trivial
  have hquiet : ∀ {α : Type} {p : Handler α}, Obeys (fun c => ∀ pid, c ≠ .kill pid) p →
      (∀ final, Upholds (fun c reply => ⟨c, reply⟩ ∈ final)
        (fun c => ¬ Vouched request.daemon (fun c reply => ⟨c, reply⟩ ∈ final) (Learnt final) c) (fun _ => True)
        (fun _ => True) p) →
      Heeds (Warranted request.daemon) (fun _ _ => True) [] (p.run.bind fun _ => .ret ()) :=
    fun ho hp => hdone ((heeds_of_attends (fun final _ => hp final) ho).mono fun _ _ _ => trivial)
  have hspawns : ∀ record request (pid : Int), Call.spawn record request ≠ .kill pid := by
    rintro record request pid ⟨⟩
  have hrejects : ∀ scope key digest reason driver (pid : Int),
      Call.rejectPreLaunch scope key digest reason driver ≠ .kill pid := by
    rintro scope key digest reason driver pid ⟨⟩
  cases request with
  | startUp d =>
    exact hquiet (recover_obeys (fun _ => not_kill_of_plain) d) fun final =>
      recover_attends (learnt_attends d final) fun scope rs h r hr => ⟨_, h, rfl, rs, rfl, hr⟩
  | createLaunch d body polls =>
    exact hquiet (createLaunch_obeys (fun _ => not_kill_of_plain) hspawns hrejects d body polls) fun final =>
      (createLaunch_attends (learnt_attends d final) body polls).post (fun _ _ => trivial) fun _ h => h
  | createJobV1 d identity body polls =>
    exact hquiet (createJobV1_obeys (fun _ => not_kill_of_plain) hspawns d identity body polls) fun final =>
      (createJobV1_attends (learnt_attends d final) identity body polls).post (fun _ _ => trivial) fun _ h => h
  | lookupLaunch d key driverId =>
    exact hquiet (lookupLaunch_obeys (fun _ => not_kill_of_plain) d key driverId) fun final =>
      (lookupLaunch_attends (learnt_attends d final) .always (fun _ _ _ _ => trivial) (fun _ _ => Or.inr trivial) key
        driverId).post (fun _ _ => trivial) fun _ h => h
  | getJob d jobId =>
    exact hquiet (getJobV2_obeys (fun _ => not_kill_of_plain) d jobId) fun final =>
      (getJobV2_attends (learnt_attends d final) .always (fun scope jobId r h => ⟨_, h, rfl, rfl⟩)
        (fun _ _ _ _ => trivial) (fun _ _ => Or.inr trivial) jobId).post (fun _ _ => trivial) fun _ h => h
  | cancelJob d jobId => exact hdone (cancelJobV2_heeds jobId)

end

/-! ## Whole schedules -/

/-- The document is a receipt for the launch of the record: it names its job, key, nonce, digest and this host, and
under a native driver also the profile of the record and the daemon that launched it. -/
structure Testifies (d : Daemon) (document : Document) (r : LaunchRecord) : Prop where
  job : ∃ jobId, r.jobId = some jobId ∧ document "job_id" = .text jobId
  key : document "idempotency_key" = .text r.idempotencyKey
  nonce : ∃ nonce, r.launchNonce = some nonce ∧ document "launch_nonce" = .text nonce
  digest : document "request_digest" = .text r.requestDigest
  host : document "process_host_identity" = .text d.processHostIdentity
  native : ∃ profile, profileForRecord d r = some profile ∧ (profile.driverType ≠ .test →
    document "driver_id" = .text profile.driverId ∧ document "driver_type" = .text profile.driverType.value ∧
      (document "driver_profile_revision").isInt profile.profileRevision = true ∧
      document "driver_profile_fingerprint" = .text profile.profileFingerprint ∧
      document "driver_executable_sha256" = .ofOption profile.executableSha256 ∧
      ∃ id, r.launchRuntimeInstanceId = some id ∧ document "launch_runtime_instance_id" = .text id)

/-- What the registry and the past of a handler say about a call that observes or signals a process: a receipt that
testifies to the launch on record says what is recorded, and the process that is signalled is that on record, which was
running when it was shown and whose birth and lock the last two calls found. -/
def Warrant (d : Daemon) (reg : Registry) (past : List (Σ c : Call, c.Reply)) : Call → Prop
  | .recordStarted scope key receipt pid birth host =>
    scope = d.authorityScope ∧ host = d.processHostIdentity ∧ ∃ r document, reg.byKey scope key = some r ∧
      r.names receipt = true ∧ ⟨.readReceipt receipt.jobId .started, some document⟩ ∈ past ∧ Testifies d document r ∧
      0 < pid ∧ document "pid" = .int pid ∧ document "process_birth_identity" = .text birth
  | .recordTerminal scope key receipt state result exitCode =>
    scope = d.authorityScope ∧ ∃ r document value, reg.byKey scope key = some r ∧
      r.names receipt = true ∧ ⟨.readReceipt receipt.jobId .terminal, some document⟩ ∈ past ∧ Testifies d document r ∧
      document "launch_state" = .text value ∧ LaunchState.ofValue value = some state ∧
      document "result" = .object result ∧ ∀ code, exitCode = some code → document "exit_code" = .int code
  | .kill pid =>
    ∃ shown r birth jobId nonce, Learnt past d.authorityScope shown ∧ shown.launchState = .running ∧ r ∈ reg.rows ∧
      LaunchLe shown r ∧ r.authorityScope = d.authorityScope ∧ r.processPid = some pid ∧
      r.processBirthIdentity = some birth ∧ r.processHostIdentity = some d.processHostIdentity ∧
      r.jobId = some jobId ∧ r.launchNonce = some nonce ∧
      ∃ earlier, past = earlier ++ [⟨.processIdentityMatches pid birth, true⟩, ⟨.jobLockIsHeld jobId nonce, true⟩]
  | _ => True

theorem profileForRecord_binding {d : Daemon} {profile : DriverProfile} (h : profileForRecord d r = some profile) :
    r.driver = some profile.binding := by
  unfold profileForRecord at h
  cases hd : r.driver with
  | none =>
    rw [hd] at h
    cases h
  | some driver =>
    rw [hd] at h
    cases hf : d.find driver.driverId with
    | none => simp [hf] at h
    | some =>
      simp only [hf, Option.bind_eq_bind, Option.bind_some] at h
      split at h
      · rename_i hb
        cases h
        rw [hb]
      · cases h

theorem ReceiptFor.testifies {d : Daemon} {ok : (c : Call) → c.Reply → Prop} {file : SpoolFile} {receipt : Receipt}
    {document : Document} (h : ReceiptFor d ok file r receipt document) (hle : LaunchLe r r')
    (hruntime : r'.launchNonce ≠ none → r'.launchRuntimeInstanceId ≠ none) :
    r'.names receipt = true ∧ Testifies d document r' := by
  obtain ⟨profile, hprofile, hmatched⟩ := h.matched
  have hnonce : r'.launchNonce = r.launchNonce := hle.nonce (names_nonce h.names)
  have hrid : r'.launchRuntimeInstanceId = r.launchRuntimeInstanceId := hle.runtime (names_nonce h.names)
  have hnames := h.names
  simp only [LaunchRecord.names, Bool.and_eq_true, decide_eq_true_eq] at hnames
  obtain ⟨⟨hjob, hissued⟩, hdigest⟩ := hnames
  simp only [receiptMatches, Bool.and_eq_true, Bool.or_eq_true, decide_eq_true_eq, hjob, hissued, Json.ofOption_some,
    profileForRecord_binding hprofile, Option.map_some] at hmatched
  obtain ⟨⟨⟨⟨⟨⟨⟨-, hj⟩, hk⟩, hn⟩, hd⟩, hh⟩, -⟩, hnative⟩ := hmatched
  refine ⟨by simp [LaunchRecord.names, hle.job, hnonce, hle.digest, hjob, hissued, hdigest],
    ⟨_, hle.job.trans hjob, hj⟩, by rw [hle.key]; exact hk, ⟨_, hnonce.trans hissued, hn⟩, by rw [hle.digest]; exact hd,
    hh, profile, ?_, fun hne => ?_⟩
  · rw [← hprofile]
    simp only [profileForRecord, hle.driver]
  · obtain ⟨⟨⟨⟨⟨hid, htype⟩, hrevision⟩, hfingerprint⟩, hlaunched⟩, hexecutable⟩ := hnative.resolve_left hne
    refine ⟨hid, htype, hrevision, hfingerprint, hexecutable, ?_⟩
    obtain ⟨id, hsome⟩ :=
      Option.ne_none_iff_exists'.mp (hruntime (by rw [hnonce, hissued]; exact Option.some_ne_none _))
    refine ⟨id, hsome, ?_⟩
    rw [hlaunched, ← hrid, hsome, Json.ofOption_some]

/-- What a handler relies on is what the registry says now. -/
theorem Observed.warrant {w : World} (hw : Observed w) {d : Daemon} {past : List (Σ c : Call, c.Reply)} {i : Nat}
    (hpast : ∀ e ∈ past, ⟨i, e.1, e.2⟩ ∈ w.trace) {c : Call} (h : Warranted d past c) : Warrant d w.state past c := by
  have hongoing : ∀ {scope r}, Learnt past scope r → Ongoing w.state scope r := by
    rintro scope r ⟨e, he, hr⟩
    exact hw.ongoing _ (hpast e he) scope r hr
  have hfound : ∀ {scope r}, Learnt past scope r → ∃ r', w.state.byKey scope r.idempotencyKey = some r' ∧
      LaunchLe r r' ∧ (r'.launchNonce ≠ none → r'.launchRuntimeInstanceId ≠ none) := by
    intro scope r hr
    obtain ⟨rfl, r', hmem, hle⟩ := hongoing hr
    exact ⟨r', Registry.byKey_eq_some.mpr ⟨hmem, hle.scope, hle.key⟩, hle, hw.launched r' hmem⟩
  cases c with
  | recordStarted =>
    obtain ⟨hscope, hhost, hpid, r, document, hr, rfl, hreceipt, hp, hb⟩ := h
    obtain ⟨r', hrow, hle, hruntime⟩ := hfound hr
    obtain ⟨hnames, htestifies⟩ := hreceipt.testifies hle hruntime
    exact ⟨hscope, hhost, r', document, hrow, hnames, hreceipt.read, htestifies, hpid, hp, hb⟩
  | recordTerminal =>
    obtain ⟨hscope, r, document, value, hr, rfl, hreceipt, hvalue, hstate, hresult, hexit⟩ := h
    obtain ⟨r', hrow, hle, hruntime⟩ := hfound hr
    obtain ⟨hnames, htestifies⟩ := hreceipt.testifies hle hruntime
    exact ⟨hscope, r', document, value, hrow, hnames, hreceipt.read, htestifies, hvalue, hstate, hresult, hexit⟩
  | kill =>
    obtain ⟨shown, birth, jobId, nonce, hmay⟩ := h
    obtain ⟨hscope, r, hmem, hle⟩ := hongoing hmay.learnt
    obtain ⟨hp, hb, hh⟩ := hmay.process
    obtain ⟨hp', hb', hh'⟩ := hle.process (by rw [hmay.running]; decide)
    exact ⟨shown, r, birth, jobId, nonce, hmay.learnt, hmay.running, hmem, hle, hle.scope.trans hscope, hp'.trans hp,
      hb'.trans hb, hh'.trans hh, hle.job.trans hmay.launch.1,
      (hle.nonce (by rw [hmay.launch.2]; exact Option.some_ne_none _)).trans hmay.launch.2, hmay.checked⟩
  | _ => trivial

/-- **Only the right process is observed or signalled.** Whatever the receipts say and the process table holds, along
every schedule: a handler that is about to record an observation has read a receipt that testifies to the launch on
record, and one that is about to signal a process has just checked that of the record. -/
theorem observations_warranted (requestDigest : RequestDigest)
    (moves : List (Move Nat Request Environment)) {i : Nat} {c : Call} {next : c.Reply → Prog Call Call.Reply Unit}
    (h : (handlers requestDigest moves).thread i = some (.call c next)) :
    ∃ request past, Serving machine (fun _ => serve requestDigest) Registry.empty moves i request past ∧
      Warrant request.daemon (history requestDigest moves).state past c := by
  obtain ⟨request, past, hserving, hleads⟩ := Pool.thread_leads h
  refine ⟨request, past, hserving, ?_⟩
  have hpast : ∀ e ∈ past, ⟨i, e.1, e.2⟩ ∈ (history requestDigest moves).trace := by
    obtain ⟨before, after, -, -, hcalls⟩ := hserving
    intro e he
    refine mem_trace_of_callsOf ?_
    rw [history, hcalls]
    exact List.mem_append_right _ he
  have hheeds := (serve_heeds request).leads hleads
  rw [List.nil_append] at hheeds
  exact (history_observed requestDigest moves).warrant hpast hheeds.1

/-- The request to cancel the job that was spawned, up to its signal. -/
def cancellingMoves : List (Move Nat Request Environment) :=
  spawnedMoves ++ .start 1 (.cancelJob loopbackDaemon "local-job-j") :: List.replicate 14 (.step 1 startedHost)

set_option maxRecDepth 100000 in
/-- The process of that job is about to be signalled. -/
theorem observations_warranted_cancelling :
    ∃ request past, Serving machine (fun _ => serve fun _ _ _ => digestOf 'b') Registry.empty cancellingMoves
      1 request past ∧
      Warrant request.daemon (history (fun _ _ _ => digestOf 'b') cancellingMoves).state past (.kill 4711) :=
  observations_warranted (fun _ _ _ => digestOf 'b') cancellingMoves rfl

end AgentFabric.LocalWorker
