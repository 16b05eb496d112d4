import AgentFabric.Lib.Interference
import AgentFabric.LocalWorker.Faults

/-!
# Rejections before the launch

A request with a fault is bound to its key by `reject_pre_launch`, which returns the record that the key has already, in
whatever state it is. The answer is a rejection either way.
-/

namespace AgentFabric.LocalWorker

open AgentFabric.Lib Prog

/-- Any call of any handler. -/
def OtherCall (reg reg' : Registry) : Prop := ∃ env c, reg' = (act reg env c).2

/-- The registry after some calls. -/
def Registry.Reached (reg : Registry) : Prop := Relation.ReflTransGen OtherCall Registry.empty reg

abbrev LaunchStage : Type := Stage Registry Environment Call

/-- The launch request is answered: its calls meet the registry in these stages, amid calls of other handlers. -/
structure Answers (requestDigest : RequestDigest) (d : Daemon) (body : LaunchBody)
    (polls : Nat) (reg : Registry) (stages : List LaunchStage) (reg' : Registry) (response : Response) : Prop where
  executes : (createLaunch requestDigest d body polls).run.Executes (stages.map (Stage.reply act)) (.ok response)
  amid : Amid act OtherCall reg stages reg'

def Response.rejected (response : Response) : Prop := response.code = some "PRE_LAUNCH_REJECTED"

/-- A rejection is answered only if the record of the key is rejected afterwards, and never for a key whose record was
launched before. -/
structure RejectionRecorded (d : Daemon) (body : LaunchBody) (reg reg' : Registry) (response : Response) : Prop where
  recorded : response.rejected → ∃ key r, body.top.get "idempotency_key" = .text key ∧
    reg'.byKey d.authorityScope key = some r ∧ r.launchState = .rejectedPreLaunch
  unlaunched : ∀ key r, body.top.get "idempotency_key" = .text key → reg.byKey d.authorityScope key = some r →
    r.launchState = .launching ∨ r.launchState = .running ∨ r.launchState.ended = true → ¬ response.rejected

/-- When a fault is recorded, the key has no record, one with another digest, or a rejected one. -/
def FaultUnbound (stage : LaunchStage) : Prop :=
  ∀ scope key digest reason driver, stage.call = .rejectPreLaunch scope key digest reason driver →
    stage.outcome.registryAvailable = true → ∀ r, stage.before.byKey scope key = some r → r.requestDigest = digest →
      r.launchState = .rejectedPreLaunch

/-! ## The registry -/

theorem act_kept {reg : Registry} (hi : reg.Issued) (env : Environment) (c : Call) :
    (act reg env c).2.Issued ∧ RegistryLe reg (act reg env c).2 :=
  have hstep := (act_effect reg env 0 c).step
  ⟨hstep.issued hi, hstep.le hi⟩

theorem otherCall_kept {reg reg' : Registry} (hi : reg.Issued) (h : OtherCall reg reg') :
    reg'.Issued ∧ RegistryLe reg reg' := by
  obtain ⟨env, c, rfl⟩ := h
  exact act_kept hi env c

theorem Registry.Reached.issued {reg : Registry} (h : reg.Reached) : reg.Issued := by
  have hempty : Registry.empty.Issued := fun r hr => nomatch hr
  exact (keeps_others RegistryLe.refl RegistryLe.trans otherCall_kept hempty h).1

/-! ## The answer -/

def Call.rejects : Call → Prop
  | .rejectPreLaunch .. => True
  | _ => False

/-- Once a fault is recorded, the request is answered with the rejection, unless the key is bound to another digest or
the registry is unavailable. -/
def Concludes {α : Type} (rejected : α → Prop) : (c : Call) → c.Reply → Except Raised α → Prop
  | .rejectPreLaunch .., .ok _, x => ∃ a, x = .ok a ∧ rejected a
  | .rejectPreLaunch .., .error (.idempotencyConflict _), _ => True
  | .rejectPreLaunch .., .error .unavailable, _ => True
  | .rejectPreLaunch .., .error _, x => ∃ e, x = .error e
  | _, _, _ => True

section

variable {α β : Type} {rejected : α → Prop} {rejected' : β → Prop} {c : Call} {reply : c.Reply}

theorem Concludes.map {x : Except Raised α} {y : Except Raised β} (h : Concludes rejected c reply x)
    (hok : ∀ a, x = .ok a → rejected a → ∃ b, y = .ok b ∧ rejected' b)
    (herror : ∀ e, x = .error e → ∃ e', y = .error e') : Concludes rejected' c reply y := by
  cases c with
  | rejectPreLaunch scope key digest reason driver =>
    cases reply with
    | ok claim =>
      obtain ⟨a, hx, ha⟩ := h
      exact hok a hx ha
    | error e =>
      cases e with
      | unavailable => trivial
      | idempotencyConflict existing => trivial
      | _ => exact herror h.choose h.choose_spec
  | _ => trivial

end

section

variable {requestDigest : RequestDigest} {d : Daemon}

theorem durableRejection_decides (key digest reason : String) (profile : Option DriverProfile) :
    (durableRejection d key digest reason profile).run.Decides Call.rejects (Concludes Response.rejected) := by
  unfold durableRejection
  refine fun reply => ⟨fun _ => ?_, ?_⟩
  · cases reply with
    | ok a => exact ⟨_, rfl, rfl⟩
    | error e =>
      cases e with
      | unavailable => trivial
      | idempotencyConflict existing => trivial
      | _ => exact ⟨_, rfl⟩
  · cases reply with
    | ok a => trivial
    | error e => cases e <;> trivial

theorem not_rejects_of_plain {c : Call} (h : c.plain) : ¬ c.rejects := by
  cases c <;> first | exact h.elim | exact not_false

theorem parseLaunch_decides (body : LaunchBody) :
    (parseLaunch requestDigest d body).run.Decides Call.rejects
      (Concludes fun parsed => ∃ response : Response, parsed = .inl response ∧ response.rejected) := by
  unfold parseLaunch
  split
  · split
    · trivial
    · split
      · trivial
      · refine Decides.after (.ask not_false) fun available => ?_
        split
        · trivial
        · split
          · trivial
          · split
            · split
              · trivial
              · dsimp only
                split
                · trivial
                · refine Decides.after (rejectionReason_obeys @not_rejects_of_plain ..) fun reason => ?_
                  split
                  · trivial
                  · trivial
                  · refine Decides.through (durableRejection_decides _ _ _ _) (fun c reply response _ hq => ?_)
                      (fun c reply e _ hq => hq.map (fun _ h => nomatch h) fun e' _ => ⟨e, rfl⟩) fun response => trivial
                    refine hq.map (fun _ h hrejected => ?_) fun _ h => nomatch h
                    cases h
                    exact ⟨_, rfl, response, rfl, hrejected⟩
            · trivial
  · trivial

theorem createLaunch_decides (body : LaunchBody) (polls : Nat) :
    (createLaunch requestDigest d body polls).run.Decides Call.rejects (Concludes Response.rejected) := by
  have hsubmit : ∀ key digest request, Obeys (fun c : Call => ¬ c.rejects)
      (tryCatch (submit d key digest request polls) submitFailure) := by
    refine fun key digest request => .rescue (submit_obeys @not_rejects_of_plain (fun _ _ => not_false) ..) fun e => ?_
    unfold submitFailure
    split
    · exact .pure _
    · exact .pure _
    · exact .throw _
  unfold createLaunch
  refine Decides.through (parseLaunch_decides body) (fun c reply parsed _ hq => ?_)
    (fun c reply e _ hq => hq.map (fun _ h => nomatch h) fun e' _ => ⟨e, rfl⟩) fun parsed => ?_
  · cases parsed with
    | inl response =>
      refine hq.map (fun _ h hrejected => ?_) fun _ h => nomatch h
      cases h
      obtain ⟨_, ⟨⟩, hrejected⟩ := hrejected
      exact ⟨response, rfl, hrejected⟩
    | inr parsed =>
      -- a recorded rejection ends the parse with a response
      refine (Avoids.of_all (hsubmit _ _ _)).mono fun x _ => hq.map (fun _ h hrejected => ?_) fun _ h => nomatch h
      cases h
      obtain ⟨_, ⟨⟩, -⟩ := hrejected
  · cases parsed with
    | inl response => trivial
    | inr parsed => exact .of_all (hsubmit _ _ _)

def Daemon.Keyed (d : Daemon) (body : LaunchBody) (scope key : String) : Prop :=
  scope = d.authorityScope ∧ body.top.get "idempotency_key" = .text key

/-- What a rejection is answered for: a fault was recorded under the key, or its record is rejected. -/
def Grounds (d : Daemon) (body : LaunchBody) (ground : Prop) : (c : Call) → c.Reply → Prop
  | .rejectPreLaunch scope key _ _ _, reply => d.Keyed body scope key → (∃ a, reply = .ok a) → ground
  | .reserve scope key _ _, reply => d.Keyed body scope key →
      ∀ r created, reply = .ok (r, created) → r.launchState = .rejectedPreLaunch → ground
  | _, _ => True

theorem grounds_of_true {body : LaunchBody} (c : Call) (reply : c.Reply) : Grounds d body True c reply := by
  cases c with
  | rejectPreLaunch scope key digest reason driver => exact fun _ _ => trivial
  | reserve scope key digest driver => exact fun _ _ _ _ _ => trivial
  | _ => trivial

/-- The call records a fault under another key than that of the request. -/
def Strays (d : Daemon) (body : LaunchBody) : Call → Prop
  | .rejectPreLaunch scope key _ _ _ => ¬ d.Keyed body scope key
  | _ => False

theorem not_strays {body : LaunchBody} {c : Call} (h : ¬ c.rejects) : ¬ Strays d body c := by
  cases c <;> first | exact absurd trivial h | exact not_false

theorem parseLaunch_grounds (body : LaunchBody) (ground : Prop) :
    Upholds (Grounds d body ground) (Strays d body)
      (fun parsed => (∀ response : Response, parsed = .inl response → response.rejected → ground) ∧
        ∀ key digest request, parsed = .inr (key, digest, request) → body.top.get "idempotency_key" = .text key)
      (fun _ => True) (parseLaunch requestDigest d body) := by
  have hleft : ∀ {response : Response}, (response.rejected → ground) →
      Upholds (Grounds d body ground) (Strays d body)
        (fun parsed => (∀ response : Response, parsed = .inl response → response.rejected → ground) ∧
          ∀ key digest request, parsed = .inr (key, digest, request) → body.top.get "idempotency_key" = .text key)
        (fun _ => True) (pure (.inl response) : Handler (Response ⊕ String × String × LaunchRequestSpec)) := by
    refine fun h => Upholds.pure ⟨?_, fun _ _ _ h => nomatch h⟩
    rintro _ ⟨⟩
    exact h
  have hother : ∀ {status code}, code ≠ "PRE_LAUNCH_REJECTED" → (Response.error status code).rejected → ground :=
    fun hne h => absurd (Option.some.inj h) hne
  unfold parseLaunch
  split
  · rename_i key hkey
    split
    · exact hleft (hother (by decide))
    · split
      · exact hleft (hother (by decide))
      · refine Upholds.bind (Upholds.ask not_false) fun _ _ => ?_
        split
        · exact hleft (hother (by decide))
        · split
          · exact hleft (hother (by decide))
          · split
            · split
              · exact hleft (hother (by decide))
              · dsimp only
                split
                · exact hleft (hother (by decide))
                · refine Upholds.bind (Q := fun _ => True) ((Upholds.of_obeys ((rejectionReason_obeys
                    @not_rejects_of_plain ..).mono fun c h => not_strays h)).post (fun _ _ => trivial)
                      fun _ _ => trivial) fun reason _ => ?_
                  split
                  · refine Upholds.pure ⟨(fun _ h => nomatch h), ?_⟩
                    rintro _ _ _ ⟨⟩
                    exact hkey
                  · exact Upholds.throw trivial
                  · refine Upholds.bind (Q := fun response : Response => response.rejected → ground) ?_
                      fun response h => hleft h
                    unfold durableRejection
                    have hkeyed : d.Keyed body d.authorityScope key := ⟨rfl, hkey⟩
                    refine Upholds.bind (Upholds.ask (not_not.mpr hkeyed)) fun reply hreply => ?_
                    split
                    · exact Upholds.pure fun _ => hreply hkeyed ⟨_, rfl⟩
                    · exact Upholds.pure (hother (by decide))
                    · exact Upholds.pure (hother (by decide))
                    · exact Upholds.throw trivial
            · exact hleft (hother (by decide))
  · exact hleft (hother (by decide))

theorem createLaunch_grounds (body : LaunchBody) (polls : Nat) (ground : Prop) :
    Upholds (Grounds d body ground) (Strays d body) (fun response => response.rejected → ground) (fun _ => True)
      (createLaunch requestDigest d body polls) := by
  have hother : ∀ {status code}, code ≠ "PRE_LAUNCH_REJECTED" → (Response.error status code).rejected → ground :=
    fun hne h => absurd (Option.some.inj h) hne
  unfold createLaunch
  refine Upholds.bind (parseLaunch_grounds body ground) fun parsed hparsed => ?_
  split
  · exact Upholds.pure (hparsed.1 _ rfl)
  · rename_i key digest request
    refine Upholds.rescue (E := fun _ => True) ?_ fun e _ => ?_
    · unfold submit reserveKey
      refine Upholds.bind (Q := fun claim => claim.1.launchState = .rejectedPreLaunch → ground)
        (Upholds.bind (Upholds.ask not_false) fun reply hreply => Upholds.result ?_) fun ⟨record, created⟩ hclaim => ?_
      · cases reply with
        | ok claim => exact hreply ⟨rfl, hparsed.2 _ _ _ rfl⟩ claim.1 claim.2 rfl
        | error e => trivial
      · dsimp only at hclaim ⊢
        split
        · rename_i hrejected
          exact Upholds.pure fun _ => hclaim hrejected
        · refine Upholds.bind
            (Upholds.of_obeys ((launch_obeys @not_rejects_of_plain (fun _ _ => not_false) ..).mono fun c h =>
            not_strays h))
            fun record _ => Upholds.pure fun h => nomatch h
    · unfold submitFailure
      split
      · exact Upholds.pure (hother (by decide))
      · exact Upholds.pure (hother (by decide))
      · exact Upholds.throw trivial

end

/-! ## The answer and the record -/

section

variable {requestDigest : RequestDigest} {d : Daemon} {body : LaunchBody} {polls : Nat}
  {reg reg' : Registry} {stages : List LaunchStage} {response : Response}

theorem transact_available {α : Type} {env : Environment} {op : Except RegistryError (α × Registry)} {a : α}
    (h : transact env reg op = (.ok a, reg')) : env.registryAvailable = true := by
  unfold transact at h
  split at h
  · assumption
  · cases h

variable {scope key digest reason : String} {driver : DriverArgs} {r : LaunchRecord}

theorem rejectPreLaunch_state {draw : Draw} {created : Bool}
    (h : rejectPreLaunch reg scope key digest reason driver draw = .ok ((r, created), reg')) :
    (reg.byKey scope key = some r ∧ r.requestDigest = digest) ∨ r.launchState = .rejectedPreLaunch := by
  simp only [rejectPreLaunch, bind_eq_ok] at h
  obtain ⟨_, _, _, _, _, _, h⟩ := h
  rcases bindKey_ok h with ⟨-, -, hkey, hdigest⟩ | ⟨-, rfl, -, -⟩
  · exact Or.inl ⟨hkey, hdigest⟩
  · exact Or.inr rfl

theorem complete_error {e : RegistryError} (h : driver.complete = .error e) :
    ∃ message, e = .valueError message := by
  unfold DriverArgs.complete at h
  split at h
  · cases h
  · rename_i driverId driverType revision fingerprint
    dsimp only at h
    cases hv : validateDriverBinding ⟨driverId, driverType, revision, fingerprint⟩ with
    | ok u =>
      rw [hv] at h
      cases h
    | error message =>
      rw [hv] at h
      cases h
      exact ⟨message, rfl⟩
  · cases h
    exact ⟨_, rfl⟩

/-- A bound key of the same digest returns its record. -/
theorem rejectPreLaunch_bound (hr : reg.byKey scope key = some r) (hdigest : r.requestDigest = digest)
    (reason : String) (driver : DriverArgs) (draw : Draw) :
    rejectPreLaunch reg scope key digest reason driver draw = .ok ((r, false), reg) ∨
      ∃ message, rejectPreLaunch reg scope key digest reason driver draw = .error (.valueError message) := by
  have hbind : ∀ fresh, bindKey reg scope key digest fresh = .ok ((r, false), reg) := by
    intro fresh
    simp [bindKey, hr, hdigest]
  by_cases hkey : validIdempotencyKey key = true
  · by_cases hsha : isDigest digest = true
    · cases hcomplete : driver.complete with
      | ok binding =>
        left
        simp only [rejectPreLaunch, validateIdempotencyKey, validateDigest, ensure, hkey, hsha, hcomplete, hbind]
        rfl
      | error e =>
        right
        obtain ⟨message, rfl⟩ := complete_error hcomplete
        refine ⟨message, ?_⟩
        simp only [rejectPreLaunch, validateIdempotencyKey, validateDigest, ensure, hkey, hsha, hcomplete]
        rfl
    · right
      refine ⟨"request_digest must be a sha256 digest", ?_⟩
      simp only [rejectPreLaunch, validateIdempotencyKey, validateDigest, ensure, hkey, hsha]
      rfl
  · right
    refine ⟨"idempotency_key must be 1-256 characters using letters, digits, '.', '_', ':', or '-'", ?_⟩
    simp only [rejectPreLaunch, validateIdempotencyKey, ensure, hkey]
    rfl

theorem rejected_later (hle : RegistryLe reg reg') (hr : reg.byKey scope key = some r)
    (hs : r.launchState = .rejectedPreLaunch) :
    ∃ r', reg'.byKey scope key = some r' ∧ r'.launchState = .rejectedPreLaunch := by
  obtain ⟨r', hr', hrr'⟩ := hle.byKey hr
  exact ⟨r', hr', ((hrr'.terminal (by rw [hs]; rfl)).1).trans hs⟩

theorem unrejected_later {r' : LaunchRecord} (hle : RegistryLe reg reg') (hr : reg.byKey scope key = some r)
    (hr' : reg'.byKey scope key = some r') (hs : r'.launchState = .rejectedPreLaunch) :
    r.launchState = .rejectedPreLaunch := by
  obtain ⟨r'', hr'', hrr''⟩ := hle.byKey hr
  obtain rfl := Option.some.inj (hr'.symm.trans hr'')
  exact hrr''.rejected hs

/-- An unbound stage that records a fault, or binds a rejected record, leaves a rejected record. -/
theorem FaultUnbound.grounds {stage : LaunchStage} (h : FaultUnbound stage)
    (hle : RegistryLe (stage.after act) reg') :
    Grounds d body (∃ key r, body.top.get "idempotency_key" = .text key ∧ reg'.byKey d.authorityScope key = some r ∧
      r.launchState = .rejectedPreLaunch) stage.call (act stage.before stage.outcome stage.call).1 := by
  obtain ⟨before, env, c⟩ := stage
  cases c with
  | rejectPreLaunch scope key digest reason driver =>
    rintro ⟨rfl, hkey⟩ ⟨⟨r, created⟩, hok⟩
    rcases transact_cases env before (rejectPreLaunch before d.authorityScope key digest reason driver env.draw) with
      ⟨⟨r₀, created₀⟩, after, hop, ht⟩ | ⟨e, ht⟩
    · simp only [act, ht] at hok
      cases hok
      have hafter : Stage.after act (⟨before, env, .rejectPreLaunch d.authorityScope key digest reason driver⟩ :
          LaunchStage) = after := by simp only [Stage.after, act, ht]
      rw [hafter] at hle
      have hrejected : r.launchState = .rejectedPreLaunch := by
        rcases rejectPreLaunch_state hop with ⟨hbound, hdigest⟩ | hfresh
        · exact h d.authorityScope key digest reason driver rfl (transact_available ht) r hbound hdigest
        · exact hfresh
      obtain ⟨r', hr', hs⟩ := rejected_later hle (rejectPreLaunch_ok hop).here hrejected
      exact ⟨key, r', hkey, hr', hs⟩
    · simp only [act, ht] at hok
      cases hok
  | reserve scope key digest driver =>
    rintro ⟨rfl, hkey⟩ r created hok hrejected
    rcases transact_cases env before (reserve before d.authorityScope key digest driver env.draw) with
      ⟨⟨r₀, created₀⟩, after, hop, ht⟩ | ⟨e, ht⟩
    · simp only [act, ht] at hok
      cases hok
      have hafter : Stage.after act (⟨before, env, .reserve d.authorityScope key digest driver⟩ : LaunchStage) =
          after := by simp only [Stage.after, act, ht]
      rw [hafter] at hle
      obtain ⟨r', hr', hs⟩ := rejected_later hle (reserve_ok hop).here hrejected
      exact ⟨key, r', hkey, hr', hs⟩
    · simp only [act, ht] at hok
      cases hok
  | _ => trivial

/-- A fault that is recorded for a key with the digest is answered with the rejection. -/
theorem Answers.rejected (h : Answers requestDigest d body polls reg stages reg' response) {stage : LaunchStage}
    (hstage : stage ∈ stages) (hcall : stage.call = .rejectPreLaunch scope key digest reason driver)
    (havailable : stage.outcome.registryAvailable = true) (hr : stage.before.byKey scope key = some r)
    (hdigest : r.requestDigest = digest) :
    response.rejected ∧ d.Keyed body scope key := by
  obtain ⟨before, env, c⟩ := stage
  obtain rfl : c = _ := hcall
  have hmem := List.mem_map_of_mem (f := Stage.reply act) hstage
  have hconcludes : Concludes Response.rejected (.rejectPreLaunch scope key digest reason driver)
      (act before env (.rejectPreLaunch scope key digest reason driver)).1 (.ok response) :=
    (createLaunch_decides body polls).executes h.executes _ hmem trivial
  have hkeyed := Prog.Avoids.executed (createLaunch_grounds body polls True) h.executes
    (fun e _ => grounds_of_true e.1 e.2) _ hmem
  refine ⟨?_, not_not.mp hkeyed⟩
  dsimp only at havailable hr
  rcases rejectPreLaunch_bound hr hdigest reason driver env.draw with hop | ⟨message, hop⟩
  · have hreply : (act before env (.rejectPreLaunch scope key digest reason driver)).1 = .ok (r, false) := by
      simp only [act, transact, havailable, hop]
      rfl
    rw [hreply] at hconcludes
    obtain ⟨_, ⟨⟩, hrejected⟩ := hconcludes
    exact hrejected
  · have hreply : (act before env (.rejectPreLaunch scope key digest reason driver)).1 =
        .error (.valueError message) := by
      simp only [act, transact, havailable, hop]
      rfl
    rw [hreply] at hconcludes
    obtain ⟨e, ⟨⟩⟩ := hconcludes

/-- **A rejection is answered for the record of the key.** While the other handlers of all daemons run, a launch request
is answered with a rejection only if the record of its key is rejected, and not if the key was launched before, exactly
when a fault is never recorded for a key that is bound to the same digest by a record that is not rejected. -/
theorem rejection_recorded_iff (hreg : reg.Reached) (h : Answers requestDigest d body polls reg stages reg' response) :
    RejectionRecorded d body reg reg' response ↔ ∀ stage ∈ stages, FaultUnbound stage := by
  obtain ⟨⟨-, hle⟩, hstages⟩ := h.amid.kept RegistryLe.refl RegistryLe.trans (fun hi env c => act_kept hi env c)
    otherCall_kept hreg.issued
  constructor
  · intro hrecorded stage hstage scope key digest reason driver hcall havailable r hr hdigest
    obtain ⟨hrejected, rfl, hkey⟩ := h.rejected hstage hcall havailable hr hdigest
    obtain ⟨key', r', hkey', hr', hs⟩ := hrecorded.recorded hrejected
    obtain rfl : key' = key := by
      rw [hkey] at hkey'
      cases hkey'
      rfl
    obtain ⟨hi, -, hafter⟩ := hstages stage hstage
    exact unrejected_later ((act_kept hi stage.outcome stage.call).2.trans hafter) hr hr' hs
  · intro hunbound
    have hrecorded : response.rejected → ∃ key r, body.top.get "idempotency_key" = .text key ∧
        reg'.byKey d.authorityScope key = some r ∧ r.launchState = .rejectedPreLaunch := by
      refine Avoids.executes (createLaunch_grounds body polls _) h.executes fun e he => ?_
      obtain ⟨stage, hstage, rfl⟩ := List.mem_map.mp he
      exact (hunbound stage hstage).grounds (hstages stage hstage).2.2
    refine ⟨hrecorded, fun key r hkey hr hlaunched hrejected => ?_⟩
    obtain ⟨key', r', hkey', hr', hs⟩ := hrecorded hrejected
    obtain rfl : key' = key := by
      rw [hkey] at hkey'
      cases hkey'
      rfl
    have hs' := unrejected_later hle hr hr' hs
    rw [hs'] at hlaunched
    rcases hlaunched with h | h | h <;> cases h

end

/-! ## A launched job whose launch is rejected -/

/-- The registry once the job is spawned. -/
def launchedRegistry : Registry := ⟨[launchingRecord], List.pairwise_singleton _ _⟩

/-- The launch request of that job, with one more field. -/
def widenedBody : LaunchBody := { helloBody with top := { helloBody.top with fields := "priority" :: topFields } }

/-- It is checked, and its fault is recorded. -/
def widenedStages : List LaunchStage :=
  [⟨launchedRegistry, startedHost, .checkAvailable⟩,
   ⟨launchedRegistry, startedHost, .rejectPreLaunch "local-loopback" "supervisor-execution:run" (digestOf 'b')
      "UNSUPPORTED_REQUEST_FIELDS" ⟨some "test", some "test", some 1, some (digestOf 'a')⟩⟩]

/-- The answer shows the record of the launched job. -/
def widenedResponse : Response := ⟨422, some "PRE_LAUNCH_REJECTED", some launchingRecord, true⟩

theorem launchedRegistry_reached : launchedRegistry.Reached := by
  have hreserved : OtherCall Registry.empty (act Registry.empty startedHost (.reserve "local-loopback"
      "supervisor-execution:run" (digestOf 'b') helloProfile.binding)).2 := ⟨_, _, rfl⟩
  refine .tail (.single hreserved) ⟨startedHost, .claimSpawn "local-loopback" "supervisor-execution:run" "one", ?_⟩
  rfl

theorem widened_answers :
    Answers (fun _ _ _ => digestOf 'b') loopbackDaemon widenedBody 0 launchedRegistry widenedStages
    launchedRegistry widenedResponse where
  executes := .step _ _ _ _ _ (.step _ _ _ _ _ (.done _))
  amid := .step _ .refl (.step _ .refl (.done .refl))

/-- Its fault is recorded for a bound key. -/
theorem rejection_recorded_iff_widened :
    RejectionRecorded loopbackDaemon widenedBody launchedRegistry launchedRegistry widenedResponse ↔
      ∀ stage ∈ widenedStages, FaultUnbound stage :=
  rejection_recorded_iff launchedRegistry_reached widened_answers

/-- A job was launched under the key, and the request is answered as rejected before any external execution. -/
theorem launched_rejected : launchedRegistry.Reached ∧
    Answers (fun _ _ _ => digestOf 'b') loopbackDaemon widenedBody 0 launchedRegistry widenedStages launchedRegistry
      widenedResponse ∧
    ¬ RejectionRecorded loopbackDaemon widenedBody launchedRegistry launchedRegistry widenedResponse := by
  refine ⟨launchedRegistry_reached, widened_answers, fun h => ?_⟩
  exact h.unlaunched "supervisor-execution:run" launchingRecord rfl rfl (Or.inl rfl) rfl

end AgentFabric.LocalWorker
