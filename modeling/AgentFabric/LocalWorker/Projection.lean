import AgentFabric.LocalWorker.Faults

/-!
# How a settled record is projected

A note of an unknown outcome hides the state of a record. `record_terminal` clears the note when it settles the record,
but a note written later stays: a replay of the terminal receipt returns the record as it is.
-/

namespace AgentFabric.LocalWorker

open AgentFabric.Lib Prog

/-- The daemon shows the state and the result of `r`, in the version `shown` of it. -/
structure Projects (d : Daemon) (r shown : LaunchRecord) : Prop where
  launchState : (launchData d shown).launchState = r.launchState.wire
  disposition : (launchData d shown).disposition = some r.disposition
  jobState : ∀ version accepted, (jobData d version shown accepted).state = r.launchState.jobState
  result : shown.resultJson = r.resultJson

theorem LaunchState.wire_ne_unknown (s : LaunchState) : s.wire ≠ .unknown := by
  cases s <;> simp [wire]

variable {r shown : LaunchRecord}

theorem RecordLe.disposition (hle : RecordLe r shown) (hr : r.launchState.terminal = true) :
    shown.disposition = r.disposition := by
  simp only [LaunchRecord.disposition, (hle.terminal hr).1]
  cases hs : r.launchState <;> simp [hs, LaunchState.terminal, LaunchState.ended] at hr ⊢

theorem projects_iff {d : Daemon} (hle : RecordLe r shown) (hr : r.launchState.terminal = true) :
    Projects d r shown ↔ shown.unknownOutcome = false := by
  constructor
  · intro h
    by_contra hu
    have hunknown : shown.unknownOutcome = true := by simpa using hu
    have hshown := h.launchState
    simp only [launchData, hunknown, if_true] at hshown
    exact r.launchState.wire_ne_unknown hshown.symm
  · intro hu
    obtain ⟨hstate, hresult, -⟩ := hle.terminal hr
    refine ⟨?_, ?_, fun version accepted => ?_, hresult⟩
    · simp [launchData, hu, hstate]
    · simp [launchData, hu, hle.disposition hr]
    · simp [jobData, hu, hstate]

def LaunchRecord.Served (r : LaunchRecord) : Prop := ∃ profile : DriverProfile, r.driver = some profile.binding

theorem profileForRecord_served {d : Daemon} (h : (profileForRecord d r).isSome = true) :
    r.Served := by
  simp only [profileForRecord, Option.isSome_iff_exists, Option.bind_eq_bind, Option.bind_eq_some_iff] at h
  obtain ⟨profile, driver, hdriver, found, -, h⟩ := h
  split at h
  · rename_i hbinding
    exact ⟨found, by rw [hdriver, hbinding]⟩
  · cases h

/-- A daemon whose catalog holds one profile. -/
def daemonOf (profile : DriverProfile) : Daemon where
  authorityScope := "local-loopback"
  authorityId := "authority"
  registryId := "registry"
  processHostIdentity := "host"
  runtimeInstanceId := "one"
  profiles := [profile]
  default := profile
  registered := by simp

theorem daemonOf_matches {profile : DriverProfile} (h : r.driver = some profile.binding) :
    profileForRecord (daemonOf profile) r = some profile := by
  simp [profileForRecord, h, Daemon.find, daemonOf, DriverProfile.binding]

/-- A settled record whose driver some profile serves carries no note of an unknown outcome. -/
def LaunchRecord.Clear (r : LaunchRecord) : Prop :=
  r.launchState.terminal = true → r.Served → r.unknownOutcome = false

/-! ## What a call writes -/

/-- What a call can leave in a row that was not there before. -/
def Written (reg : Registry) : Call → LaunchRecord → Prop
  | .reserve .., r => r.launchState = .reserved
  | .rejectPreLaunch _ _ _ reason _, r => r.launchError = some (String.ofList (reason.toList.take 1000))
  | .claimSpawn .., r => r.launchState = .launching
  | .recordStarted .., r => r.launchError = none
  | .recordTerminal .., r => r.launchError = none
  | .recordLaunchError scope key detail, r => ∃ old, reg.byKey scope key = some old ∧ r = old.withError detail
  | _, _ => False

section

variable {reg reg' : Registry} {scope key digest : String} {draw : Draw} {v x : LaunchRecord} {b : Bool}

theorem bindKey_written {fresh : LaunchRecord} (h : bindKey reg scope key digest fresh = .ok ((v, b), reg'))
    (hx : x ∈ reg'.rows) : x ∈ reg.rows ∨ x = fresh := by
  rcases bindKey_ok h with ⟨-, rfl, -⟩ | ⟨-, -, -, hrows⟩
  · exact Or.inl hx
  · rwa [hrows, List.mem_append, List.mem_singleton] at hx

theorem transact_written {α : Type} {env : Environment} {op : Except RegistryError (α × Registry)} {P : Prop}
    (hx : x ∈ (transact env reg op).2.rows)
    (hop : ∀ a reg', op = .ok (a, reg') → x ∈ reg'.rows → x ∈ reg.rows ∨ P) :
    x ∈ reg.rows ∨ (env.registryAvailable = true ∧ P) := by
  cases havailable : env.registryAvailable with
  | false =>
    simp only [transact, havailable] at hx
    exact Or.inl hx
  | true =>
    obtain ⟨a, reg', hok, ht⟩ | ⟨e, ht⟩ := transact_cases env reg op
    · rw [ht] at hx
      exact (hop a reg' hok hx).imp_right fun h => ⟨rfl, h⟩
    · rw [ht] at hx
      exact Or.inl hx

/-- A row after a call was there before, or was written by it. -/
theorem act_written {env : Environment} {c : Call} (hx : x ∈ (act reg env c).2.rows) :
    x ∈ reg.rows ∨ (env.registryAvailable = true ∧ Written reg c x) := by
  cases c with
  | reserve =>
    refine transact_written hx fun a reg' hop hx => ?_
    simp only [reserve, bind_eq_ok] at hop
    obtain ⟨_, _, _, _, _, _, hop⟩ := hop
    refine (bindKey_written hop hx).imp_right ?_
    rintro rfl
    rfl
  | rejectPreLaunch =>
    refine transact_written hx fun a reg' hop hx => ?_
    simp only [rejectPreLaunch, bind_eq_ok] at hop
    obtain ⟨_, _, _, _, _, _, hop⟩ := hop
    refine (bindKey_written hop hx).imp_right ?_
    rintro rfl
    rfl
  | claimSpawn =>
    refine transact_written hx ?_
    rintro ⟨v, b⟩ reg' hop hx
    obtain ⟨r, -, ⟨-, -, -, hsame⟩ | ⟨-, -, ⟨nonce, rfl⟩, hrows⟩⟩ := claimSpawn_ok hop
    · rw [hsame] at hx
      exact Or.inl hx
    · rcases (hrows x).mp hx with rfl | ⟨hold, -⟩
      · exact Or.inr rfl
      · exact Or.inl hold
  | recordStarted =>
    exact transact_written hx fun v reg' hop hx =>
      ((recordStarted_ok hop).written hx).imp_right (by rintro ⟨_, _, rfl⟩; rfl)
  | recordLaunchError =>
    exact transact_written hx fun v reg' hop hx => (recordLaunchError_ok hop).written hx
  | recordTerminal =>
    exact transact_written hx fun v reg' hop hx =>
      ((recordTerminal_ok hop).written hx).imp_right (by rintro ⟨_, _, rfl⟩; rfl)
  | _ => exact Or.inl hx

end

/-! ## Notes on settled records -/

theorem note_listed {detail : String} :
    String.ofList (detail.toList.take 1000) ∈ unknownLaunchErrors ↔ detail ∈ unknownLaunchErrors := by
  have hshort : ∀ note ∈ unknownLaunchErrors, note.toList.length < 1000 := by decide +kernel
  have hkept : detail.toList.length < 1000 → String.ofList (detail.toList.take 1000) = detail := fun h => by
    rw [List.take_of_length_le (by omega), String.ofList_toList]
  constructor
  · intro h
    have hlength := hshort _ h
    rw [String.toList_ofList, List.length_take] at hlength
    rwa [hkept (by omega)] at h
  · intro h
    rwa [hkept (hshort detail h)]

theorem rejection_not_listed {reason : String} (h : reason ∈ rejectionReasons) : reason ∉ unknownLaunchErrors := by
  have hapart : ∀ reason ∈ rejectionReasons, reason ∉ unknownLaunchErrors := by decide
  exact hapart reason h

theorem unknownOutcome_of {detail : String} (h : r.launchError = some (String.ofList (detail.toList.take 1000))) :
    r.unknownOutcome = true ↔ detail ∈ unknownLaunchErrors := by
  rw [← note_listed, LaunchRecord.unknownOutcome, h, Option.any_some, decide_eq_true_eq]

/-- The call writes no note of an unknown outcome on a settled record whose driver some profile serves. -/
def Untroubled (reg : Registry) : Call → Prop
  | .recordLaunchError scope key detail => detail ∈ unknownLaunchErrors →
      ∀ r, reg.byKey scope key = some r → r.launchState.terminal = true → ¬ r.Served
  | _ => True

variable {env : Environment}

/-- An untroubled call leaves the rows clear. -/
theorem act_clear {w : World} {c : Call} (hclear : ∀ r ∈ w.state.rows, r.Clear)
    (hnames : Names (fun scope => Kept scope w) c) (h : env.registryAvailable = true → Untroubled w.state c) :
    ∀ r ∈ (act w.state env c).2.rows, r.Clear := by
  intro r hr hterminal hserved
  rcases act_written hr with hold | ⟨havailable, hwritten⟩
  · exact hclear r hold hterminal hserved
  · cases c with
    | reserve =>
      rw [show r.launchState = .reserved from hwritten] at hterminal
      cases hterminal
    | claimSpawn =>
      rw [show r.launchState = .launching from hwritten] at hterminal
      cases hterminal
    | rejectPreLaunch =>
      rw [← Bool.not_eq_true, unknownOutcome_of hwritten]
      exact rejection_not_listed hnames
    | recordStarted =>
      rw [LaunchRecord.unknownOutcome, show r.launchError = none from hwritten, Option.any_none]
    | recordTerminal =>
      rw [LaunchRecord.unknownOutcome, show r.launchError = none from hwritten, Option.any_none]
    | recordLaunchError =>
      obtain ⟨old, hold, rfl⟩ := hwritten
      rw [← Bool.not_eq_true, unknownOutcome_of rfl]
      exact fun hlisted => h havailable hlisted old hold hterminal hserved
    | _ => exact hwritten.elim

theorem troubled_hides {reg : Registry} {scope key detail : String} (hvalid : reg.KeysValid)
    (havailable : env.registryAvailable = true) (hlisted : detail ∈ unknownLaunchErrors)
    (hr : reg.byKey scope key = some r) :
    ∃ hidden ∈ (act reg env (.recordLaunchError scope key detail)).2.rows,
      hidden.launchRecordId = r.launchRecordId ∧ hidden.unknownOutcome = true := by
  obtain ⟨hmem, -, rfl⟩ := Registry.byKey_eq_some.mp hr
  obtain ⟨⟨v, reg'⟩, hok⟩ :
      ∃ a, recordLaunchError reg scope r.idempotencyKey detail = .ok a := recordLaunchError_accepted (hvalid r hmem) hr
  have hstate : (act reg env (.recordLaunchError scope r.idempotencyKey detail)).2 = reg' := by
    simp [act, transact, havailable, hok]
  rw [hstate]
  refine ⟨v, (recordLaunchError_ok hok |>.onRecord fun _ => rfl).1, ?_⟩
  simp only [recordLaunchError, bind_eq_ok, pure_eq_ok, Prod.mk.injEq] at hok
  obtain ⟨_, _, r', hr', reg₁, hup, rfl, rfl⟩ := hok
  rw [requireKey_of hr] at hr'
  cases hr'
  exact ⟨rfl, (unknownOutcome_of rfl).mpr hlisted⟩

/-! ## What a response shows -/

/-- A request to the daemon, executed with these calls and answered. -/
inductive Responds (requestDigest : RequestDigest) (d : Daemon)
    (calls : List (Σ c : Call, c.Reply)) (response : Response) : Prop
  | job (jobId : String) (h : (getJobV2 d jobId).run.Executes calls (.ok response))
  | cancel (jobId : String) (h : (cancelJobV2 d jobId).run.Executes calls (.ok response))
  | lookup (key : String) (driverId : Option String)
      (h : (lookupLaunch d key driverId).run.Executes calls (.ok response))
  | launch (body : LaunchBody) (polls : Nat)
      (h : (createLaunch requestDigest d body polls).run.Executes calls (.ok response))

def Reveals : (c : Call) → c.Reply → LaunchRecord → Prop
  | .getJob _ _, reply, r => reply = .ok (some r)
  | c, reply, r => ∃ scope, Shows scope c reply r

theorem act_reveals {reg : Registry} {c : Call} (h : Reveals c (act reg env c).1 r) : r ∈ (act reg env c).2.rows := by
  have hshown : (∃ scope, Shows scope c (act reg env c).1 r) → r ∈ (act reg env c).2.rows :=
    fun ⟨scope, hr⟩ => (act_shows hr).1
  cases c with
  | getJob scope jobId =>
    have h : (query env reg (getJob reg scope jobId)).1 = .ok (some r) := h
    simp only [act, query] at h ⊢
    split at h
    · simp only [getJob, bind_eq_ok, pure_eq_ok] at h
      obtain ⟨_, _, h⟩ := h
      exact List.mem_of_find?_eq_some h
    · cases h
  | _ => exact hshown h

theorem Responds.shows {requestDigest : RequestDigest} {d : Daemon} {S : LaunchRecord → Prop}
    {calls : List (Σ c : Call, c.Reply)} {response : Response} (h : Responds requestDigest d calls response)
    (hcalls : ∀ c ∈ calls, ∀ r, Reveals c.1 c.2 r → S r) : response.Relays S := by
  have hattends : Attends d (fun c reply => ∀ r, Reveals c reply r → S r) (fun _ => False) fun _ => S := by
    refine ⟨fun c reply hok scope r hr => ?_, fun _ _ => not_false⟩
    cases c with
    | getJob => exact hr.elim
    | _ => exact hok r ⟨scope, hr⟩
  have hfound : ∀ scope jobId r, (∀ v, Reveals (.getJob scope jobId) (.ok (some r)) v → S v) → S r :=
    fun scope jobId r hok => hok r rfl
  have hdone : ∀ {p : Handler Response}, Upholds (fun c reply => ∀ r, Reveals c reply r → S r) (fun _ => False)
      (Response.Relays S) (fun _ => True) p → p.run.Executes calls (.ok response) → response.Relays S :=
    fun hp hx => Avoids.executes (Q := either (Response.Relays S) fun _ => True) hp hx hcalls
  cases h with
  | job jobId h =>
    exact hdone (getJobV2_attends hattends .always hfound (fun _ _ _ _ => trivial) (fun _ _ => Or.inr trivial) jobId) h
  | cancel jobId h => exact hdone (cancelJobV2_attends hattends hfound jobId) h
  | lookup key driverId h =>
    exact hdone (lookupLaunch_attends hattends .always (fun _ _ _ _ => trivial) (fun _ _ => Or.inr trivial) key
      driverId) h
  | launch body polls h => exact hdone (createLaunch_attends hattends body polls) h

/-! ## Whole schedules -/

section

variable (requestDigest : RequestDigest)

/-- The steps of the schedule make no troubled call. -/
def UntroubledRun (moves : List (Move Nat Request Environment)) : Prop :=
  ∀ before i env after c next, moves = before ++ .step i env :: after →
    (handlers requestDigest before).thread i = some (.call c next) → env.registryAvailable = true →
    Untroubled (history requestDigest before).state c

variable {requestDigest} {moves : List (Move Nat Request Environment)}

theorem history_clear (h : UntroubledRun requestDigest moves) :
    ∀ r ∈ (history requestDigest moves).state.rows, r.Clear := by
  have hinitial : ∀ r ∈ (⟨Registry.empty, []⟩ : World).state.rows, r.Clear := by
    rintro r ⟨⟩
  refine Pool.act_along (M := machine.traced) (J := fun w => ∀ r ∈ w.state.rows, r.Clear) hinitial ?_
  intro before i env after c next hmoves hthread hclear
  exact act_clear hclear (handlers_names requestDigest before hthread)
    fun havailable => h before i env after c next hmoves hthread havailable

theorem UntroubledRun.of_append {after : List (Move Nat Request Environment)}
    (h : UntroubledRun requestDigest (moves ++ after)) : UntroubledRun requestDigest moves := by
  rintro before i env rest c next rfl hthread
  exact h before i env (rest ++ after) c next (by simp) hthread

theorem clear_projects {d : Daemon} {r shown : LaunchRecord} (hclear : shown.Clear) (hle : RecordLe r shown)
    (hr : r.launchState.terminal = true) (hmatches : (profileForRecord d r).isSome = true) : Projects d r shown := by
  refine (projects_iff hle hr).mpr (hclear ?_ ?_)
  · rw [(hle.terminal hr).1]
    exact hr
  · obtain ⟨profile, hprofile⟩ := profileForRecord_served hmatches
    exact ⟨profile, hle.driver.trans hprofile⟩

/-- What is shown after a record was in the registry is a later version of it, and clear. -/
theorem revealed_later {before middle : List (Move Nat Request Environment)} {later : List HandlerEvent}
    (h : UntroubledRun requestDigest (before ++ middle))
    (hlater : (history requestDigest (before ++ middle)).trace = (history requestDigest before).trace ++ later)
    {e : HandlerEvent} (he : e ∈ later) {v : LaunchRecord} (hv : Reveals e.call e.reply v) {r : LaunchRecord}
    (hr : r ∈ (history requestDigest before).state.rows) (hid : v.launchRecordId = r.launchRecordId) :
    RecordLe r v ∧ v.Clear := by
  rw [history, Pool.run_append] at hlater
  obtain ⟨moves, env, rest, next, rfl, hthread, hreply⟩ := Pool.trace_since hlater he
  have hstep : history requestDigest (before ++ (moves ++ [.step e.thread env])) =
      (machine.traced.act e.thread (history requestDigest (before ++ moves)) env e.call).2 := by
    rw [history, ← List.append_assoc, Pool.run_snoc, Pool.run_append]
    simp only [Pool.move, hthread]
    rw [history, Pool.run_append]
    rfl
  have hmem : v ∈ (history requestDigest (before ++ (moves ++ [.step e.thread env]))).state.rows := by
    rw [hstep]
    rw [hreply] at hv
    apply act_reveals
    rw [history, Pool.run_append]
    exact hv
  obtain ⟨r', hr', hle⟩ := history_le requestDigest before (moves ++ [.step e.thread env]) r hr
  obtain rfl := Registry.eq_of_id hmem hr' (hid.trans hle.recordId.symm)
  have huntroubled : UntroubledRun requestDigest (before ++ (moves ++ [.step e.thread env]) ++ rest) := by
    simpa using h
  exact ⟨hle, history_clear huntroubled.of_append v hmem⟩

end

/-- From the time a record is settled on, every daemon whose current profile is that of the record projects it with its
recorded state and result: from the registry, and in the response to every request that was handled since. -/
def ProjectsSettled (requestDigest : RequestDigest)
    (moves : List (Move Nat Request Environment)) : Prop :=
  ∀ before middle after, moves = before ++ middle ++ after → ∀ r ∈ (history requestDigest before).state.rows,
    r.launchState.terminal = true → ∀ d, (profileForRecord d r).isSome = true →
      (∃ shown ∈ (history requestDigest (before ++ middle)).state.rows, RecordLe r shown ∧ Projects d r shown) ∧
      ∀ later, (history requestDigest (before ++ middle)).trace = (history requestDigest before).trace ++ later →
        ∀ calls, (∀ c ∈ calls, ∃ i, (⟨i, c.1, c.2⟩ : HandlerEvent) ∈ later) →
          ∀ response, Responds requestDigest d calls response →
            ∀ shown, response.record = some shown → shown.launchRecordId = r.launchRecordId → Projects d r shown

/-- **Settled records are projected as long as no note is written on them.** Along a schedule settled records are
projected with their state and result if and only if no step writes a note of an unknown outcome on a settled record
whose driver some profile serves. -/
theorem settled_projected_iff (requestDigest : RequestDigest)
    (moves : List (Move Nat Request Environment)) :
    ProjectsSettled requestDigest moves ↔ UntroubledRun requestDigest moves := by
  constructor
  · rintro hprojected before i env after c next rfl hthread havailable
    cases c with
    | recordLaunchError scope key detail =>
      intro hlisted r hr hterminal ⟨profile, hprofile⟩
      have hinformed := history_informed requestDigest before
      have hstate : (history requestDigest (before ++ [.step i env])).state =
          (act (history requestDigest before).state env (.recordLaunchError scope key detail)).2 := by
        rw [history, Pool.run_snoc]
        simp only [Pool.move, show ((Pool.quiet ⟨Registry.empty, []⟩).run machine.traced (fun _ => serve requestDigest)
          before).thread i = some (.call (.recordLaunchError scope key detail) next) from hthread]
        rfl
      obtain ⟨hidden, hmem, hid, hunknown⟩ := troubled_hides hinformed.keys havailable hlisted hr
      rw [← hstate] at hmem
      obtain ⟨⟨shown, hshown, hle, hprojects⟩, -⟩ := hprojected before [.step i env] after (by simp) r
        (Registry.byKey_eq_some.mp hr).1 hterminal (daemonOf profile) (by rw [daemonOf_matches hprofile]; rfl)
      obtain rfl := Registry.eq_of_id hmem hshown (hid.trans hle.recordId.symm)
      rw [(projects_iff hle hterminal).mp hprojects] at hunknown
      cases hunknown
    | _ => trivial
  · rintro h before middle after rfl r hr hterminal d hmatches
    have h' : UntroubledRun requestDigest (before ++ middle) := h.of_append
    constructor
    · obtain ⟨shown, hshown, hle⟩ := history_le requestDigest before middle r hr
      exact ⟨shown, hshown, hle, clear_projects (history_clear h' shown hshown) hle hterminal hmatches⟩
    · intro later hlater calls hcalls response hresponse shown hshown hid
      have hrelays := hresponse.shows (S := fun v => v.launchRecordId = r.launchRecordId → RecordLe r v ∧ v.Clear)
        fun c hc v hv hsame => by
          obtain ⟨i, hmem⟩ := hcalls c hc
          exact revealed_later h' hlater hmem hv hr hsame
      obtain ⟨hle, hclear⟩ := hrelays shown hshown hid
      exact clear_projects hclear hle hterminal hmatches

/-! ## A schedule that hides a settled record -/

/-- The same driver after a change of the catalog. -/
def revisedProfile : DriverProfile := { helloProfile with profileRevision := 2 }

/-- The job is spawned and ends, and a request settles its record. -/
def settledMoves : List (Move Nat Request Environment) :=
  spawnedMoves ++ .start 1 (.getJob loopbackDaemon "local-job-j") :: List.replicate 3 (.step 1 endedHost)

/-- One request is served while the catalog is changed, and the next one with the old catalog again. -/
def revisedMoves : List (Move Nat Request Environment) :=
  .start 2 (.getJob (daemonOf revisedProfile) "local-job-j") :: List.replicate 2 (.step 2 endedHost) ++
    .start 3 (.getJob loopbackDaemon "local-job-j") :: List.replicate 3 (.step 3 endedHost)

def settledRecord : LaunchRecord := launchingRecord.finish .completed "\x7b\x7d" (some 0)

theorem settled_rows : (history (fun _ _ _ => digestOf 'b') settledMoves).state.rows = [settledRecord] := by
  decide +kernel

theorem revised_rows : (history (fun _ _ _ => digestOf 'b') (settledMoves ++ revisedMoves)).state.rows =
    [settledRecord.withError "DRIVER_PROFILE_MISMATCH"] := by
  decide +kernel

/-- The settled record of a job stays hidden when the catalog is as before: the daemon that has its profile shows it as
unknown. -/
theorem settled_hidden :
    (profileForRecord loopbackDaemon settledRecord).isSome = true ∧
      ¬ ProjectsSettled (fun _ _ _ => digestOf 'b') (settledMoves ++ revisedMoves) := by
  have hmatches : (profileForRecord loopbackDaemon settledRecord).isSome = true := rfl
  refine ⟨hmatches, fun h => ?_⟩
  obtain ⟨⟨shown, hshown, hle, hprojects⟩, -⟩ := h settledMoves revisedMoves [] (by simp) settledRecord
    (by rw [settled_rows]; exact List.mem_singleton.mpr rfl) rfl loopbackDaemon hmatches
  rw [revised_rows] at hshown
  obtain rfl := List.mem_singleton.mp hshown
  have hclear := (projects_iff hle rfl).mp hprojects
  rw [← Bool.not_eq_true, unknownOutcome_of rfl] at hclear
  exact hclear (by decide)

end AgentFabric.LocalWorker
