import AgentFabric.LocalWorker.Conclusions
import AgentFabric.LocalWorker.Shown

/-!
# What a daemon's answers bear out

A handler answers about records of its registry only, and says of them what the registry says.
-/

namespace AgentFabric.LocalWorker

open AgentFabric.Lib Prog

/-! ## The launch handlers show nothing else -/

section

variable {requestDigest : RequestDigest} {α : Type} {S : LaunchRecord → Prop} {d : Daemon}

/-- As long as every record that it is shown satisfies `S`, the result of the handler satisfies `Q`. -/
abbrev Relayed (d : Daemon) (S : LaunchRecord → Prop) (Q : α → Prop) (p : Handler α) : Prop :=
  Upholds (fun c reply => ∀ r, Shows d.authorityScope c reply r → S r) (fun _ => False) Q (fun _ => True) p

theorem relayed_attends : Attends d (fun c reply => ∀ r, Shows d.authorityScope c reply r → S r) (fun _ => False)
    fun scope r => scope = d.authorityScope → S r where
  shown _ _ hok _ r hr hscope := hok r (hscope ▸ hr)
  named _ _ := not_false

theorem createLaunch_relayed (body : LaunchBody) (polls : Nat) :
    Relayed d S (Response.Relays S) (createLaunch requestDigest d body polls) :=
  (createLaunch_attends relayed_attends body polls).post (fun _ h r hr => h r hr rfl) fun _ _ => trivial

theorem lookupLaunch_relayed (key : String) (driverId : Option String) :
    Relayed d S (Response.Relays S) (lookupLaunch d key driverId) :=
  (lookupLaunch_attends relayed_attends .always (fun _ _ _ _ => trivial) (fun _ _ => Or.inr trivial) key driverId).post
    (fun _ h r hr => h r hr rfl) fun _ _ => trivial

end

/-! ## What an answer bears out -/

/-- The record is one of the scope, and on record in this or a later version. -/
def Kept (scope : String) (w : World) (r : LaunchRecord) : Prop :=
  r.authorityScope = scope ∧ ∃ r' ∈ w.state.rows, RecordLe r r'

def Registry.Lacks (reg : Registry) (scope jobId : String) : Prop :=
  ∀ r ∈ reg.rows, ¬ (r.authorityScope = scope ∧ r.jobId = some jobId)

theorem Registry.Lacks.of_le {reg reg' : Registry} {scope jobId : String} (h : reg'.Lacks scope jobId)
    (hle : RegistryLe reg reg') : reg.Lacks scope jobId := by
  rintro r hr ⟨hscope, hjob⟩
  obtain ⟨r', hr', hlater⟩ := hle r hr
  exact h r' hr' ⟨hlater.scope.trans hscope, hlater.job.trans hjob⟩

/-- What an answer of a daemon bears out: a rejection is on record, and a job that was not found had no record when the
request was sent. -/
structure Bears (d : Daemon) (request : HttpRequest) (sent : Registry) (response : WireResponse)
    (w : World) : Prop where
  rejected : ∀ key, response.Rejects key → ∃ r ∈ w.state.rows, r.authorityScope = d.authorityScope ∧
    r.idempotencyKey = key ∧ r.launchState = .rejectedPreLaunch
  absent : ∀ version jobId, request = .status version jobId ∨ request = .cancel version jobId →
    response.status = 404 → sent.Lacks d.authorityScope jobId

section

variable {requestDigest : RequestDigest} {α : Type} {i : Nat} {φ : World → Prop} {d : Daemon}

variable {w w' : World}

theorem Kept.mono {scope : String} {r : LaunchRecord} (h : Kept scope w r) (hle : RegistryLe w.state w'.state) :
    Kept scope w' r := by
  obtain ⟨hscope, r', hr', hlater⟩ := h
  obtain ⟨r'', hr'', hlater'⟩ := hle r' hr'
  exact ⟨hscope, r'', hr'', hlater.trans hlater'⟩

variable {request : HttpRequest} {sent : Registry}

theorem Bears.mono {response : WireResponse} (h : Bears d request sent response w) (hle : RegistryLe w.state w'.state) :
    Bears d request sent response w' := by
  refine ⟨fun key hkey => ?_, h.absent⟩
  obtain ⟨r, hr, hscope, hk, hstate⟩ := h.rejected key hkey
  obtain ⟨r', hr', hlater⟩ := hle r hr
  have hterminal : r.launchState.terminal = true := by rw [hstate]; rfl
  exact ⟨r', hr', hlater.scope.trans hscope, hlater.key.trans hk, (hlater.terminal hterminal).1.trans hstate⟩

theorem relayed_outline {p : Handler Response} (h : HandlerOutline requestDigest i φ p fun _ _ => True)
    (hp : ∀ S, Relayed d S (Response.Relays S) p) :
    HandlerOutline requestDigest i φ p fun response w => response.Relays (Kept d.authorityScope w) := by
  have hrelays : Relays (Shows d.authorityScope) (fun (x : Except Raised Response) r =>
      ∃ response, x = .ok response ∧ response.record = some r) (fun _ => False) p.run := by
    refine fun S _ => (hp S).mono fun x hx r => ?_
    rintro ⟨response, rfl, hr⟩
    exact hx r hr
  have hknown : ∀ (w : World) (env : Environment) (c : Call), SpawnInv requestDigest w →
      SpawnInv requestDigest (extended w i env c) → ∀ r, Shows d.authorityScope c (act w.state env c).1 r →
        Kept d.authorityScope (extended w i env c) r := by
    intro w env c _ _ r hr
    obtain ⟨hmem, hscope⟩ := act_shows hr
    exact ⟨hscope, r, hmem, RecordLe.refl r⟩
  refine ((Outline.relays hknown (fun j w w' _ _ hg r hr => hr.mono hg.1) h hrelays).weaken
    fun w _ hw => ⟨hw, fun _ hf => hf.elim⟩).post fun x w hx => ?_
  cases x with
  | ok response => exact fun r hr => hx.2 r ⟨response, rfl, hr⟩
  | error e => trivial

/-- A job is not found only where it is not on record. -/
theorem getJobRecord_outline (jobId : String) (sent : Registry) :
    HandlerOutline requestDigest i (fun w => RegistryLe sent w.state) (getJobRecord d jobId) fun parsed _ =>
      ∀ response, parsed = .inl response → response.status = 404 → sent.Lacks d.authorityScope jobId := by
  have hjob : HandlerOutline requestDigest i (fun w => RegistryLe sent w.state) (job d jobId) fun found _ =>
      found = none → sent.Lacks d.authorityScope jobId := by
    unfold job
    refine Outline.raising_bind (Q := fun reply _ => reply = .ok none → sent.Lacks d.authorityScope jobId)
      (ask_outline trivial (fun _ => Stable.const _) fun w env _ hw _ _ hr => ?_) fun reply => ?_
    · simp only [act, query] at hr
      split at hr
      · simp only [getJob, bind_eq_ok, pure_eq_ok] at hr
        obtain ⟨_, _, hr⟩ := hr
        have hlacks : w.state.Lacks d.authorityScope jobId := fun r hmem h =>
          List.find?_eq_none.mp hr r hmem (decide_eq_true h)
        exact hlacks.of_le hw
      · cases hr
    · refine Outline.raising_bind (Q := fun found _ => found = none → sent.Lacks d.authorityScope jobId)
        (answered_outline fun found w hreply _ h hnone => h (by rw [hreply, hnone])) fun found => ?_
      cases found with
      | none => exact fun _ _ h => h
      | some record =>
        exact Outline.raising_bind (harmless_outline (reconcile_obeys @Call.harmless_of_plain d record))
          fun _ _ _ _ h => (by cases h)
  unfold getJobRecord
  refine Outline.raising_catch (Outline.raising_bind hjob fun found => ?_) fun e => ?_
  · cases found with
    | none =>
      rintro w _ h response ⟨⟩ _
      exact h rfl
    | some record => exact fun _ _ _ _ h => (by cases h)
  · split
    · rintro w _ _ response ⟨⟩ h
      exact absurd h (by decide)
    · rintro w _ _ response ⟨⟩ h
      exact absurd h (by decide)
    · exact fun _ _ _ => trivial

variable {response : Response}

theorem launchWire_rejects {profile : Option DriverProfile} {k : Option String} {key : String}
    (h : (launchWire d profile k response).Rejects key) :
    ∃ r, response.record = some r ∧ r.idempotencyKey = key ∧ r.launchState = .rejectedPreLaunch := by
  obtain ⟨data, hdata, hstate, hkey⟩ := h
  simp only [launchWire, Option.some.injEq] at hdata
  split at hdata
  next r hr =>
    subst hdata
    refine ⟨r, hr, Option.some.inj hkey, ?_⟩
    simp only [launchData] at hstate
    split at hstate
    · cases hstate
    · revert hstate
      cases r.launchState <;> simp [LaunchState.wire]
  · subst hdata
    unfold refusalData at hstate
    split at hstate <;> cases hstate

theorem launchWire_bears {profile : Option DriverProfile} {k : Option String}
    (h : response.Relays (Kept d.authorityScope w))
    (hrequest : ∀ version jobId, ¬ (request = .status version jobId ∨ request = .cancel version jobId)) :
    Bears d request sent (launchWire d profile k response) w := by
  refine ⟨fun key hkey => ?_, fun version jobId h => absurd h (hrequest version jobId)⟩
  obtain ⟨r, hr, hk, hstate⟩ := launchWire_rejects hkey
  obtain ⟨hscope, r', hr', hlater⟩ := h r hr
  have hterminal : r.launchState.terminal = true := by rw [hstate]; rfl
  exact ⟨r', hr', hlater.scope.trans hscope, hlater.key.trans hk, (hlater.terminal hterminal).1.trans hstate⟩

theorem not_rejects {response : WireResponse} (h : ∀ data, response.data = some data → data.idempotencyKey = none)
    (key : String) : ¬ response.Rejects key := by
  rintro ⟨data, hdata, -, hkey⟩
  rw [h data hdata] at hkey
  cases hkey

theorem jobWire_keyless {version : AdapterType} {cancelled : Bool} :
    ∀ data, (jobWire d version cancelled response).data = some data → data.idempotencyKey = none := by
  rintro data ⟨⟩
  split <;> rfl

theorem creationWire_keyless :
    ∀ data, (creationWire response).data = some data → data.idempotencyKey = none := by
  rintro data ⟨⟩
  split <;> rfl

theorem jobWire_bears {version : AdapterType} {jobId : String} {cancelled : Bool}
    (h : response.status = 404 → sent.Lacks d.authorityScope jobId)
    (hrequest : request = .status version jobId ∨ request = .cancel version jobId) :
    Bears d request sent (jobWire d version cancelled response) w := by
  refine ⟨fun key hkey => absurd hkey (not_rejects jobWire_keyless key), fun version' jobId' heq hstatus => ?_⟩
  obtain rfl : jobId = jobId' := by
    rcases hrequest with rfl | rfl <;> rcases heq with heq | heq <;> cases heq <;> rfl
  exact h hstatus

/-- **An answer bears out what it says.** -/
theorem respondTo_outline (identity : String) (polls : Nat) (request : HttpRequest) (sent : Registry) :
    HandlerOutline requestDigest i (fun w => RegistryLe sent w.state)
      (respondTo requestDigest d identity polls request) (Bears d request sent) := by
  cases request with
  | lookup key driverId =>
    refine Outline.raising_bind
      (relayed_outline (harmless_outline (lookupLaunch_obeys @Call.harmless_of_plain d key driverId))
      fun S => lookupLaunch_relayed key driverId) fun response w _ h => ?_
    exact launchWire_bears h fun _ _ h => h.elim (fun h => (by cases h)) fun h => (by cases h)
  | launchV2 runId under body =>
    refine Outline.raising_bind (relayed_outline (createLaunch_outline d body polls)
      fun S => createLaunch_relayed body polls) fun response w _ h => ?_
    exact launchWire_bears h fun _ _ h => h.elim (fun h => (by cases h)) fun h => (by cases h)
  | launchV1 runId under body =>
    refine Outline.raising_bind (createJobV1_outline d identity body polls) fun response w _ _ => ?_
    exact ⟨fun key hkey => absurd hkey (not_rejects creationWire_keyless key),
      fun _ _ h => h.elim (fun h => (by cases h)) fun h => (by cases h)⟩
  | status version jobId =>
    refine Outline.raising_bind (Q := fun response _ => response.status = 404 → sent.Lacks d.authorityScope jobId) ?_
      fun response w _ h => jobWire_bears h (Or.inl rfl)
    unfold getJobV2
    refine Outline.raising_bind (getJobRecord_outline jobId sent) fun parsed => ?_
    cases parsed with
    | inl response => exact fun w _ h => h response rfl
    | inr record => exact fun _ _ _ (h : 200 = 404) => (by cases h)
  | cancel version jobId =>
    refine Outline.raising_bind (Q := fun response _ => response.status = 404 → sent.Lacks d.authorityScope jobId) ?_
      fun response w _ h => jobWire_bears h (Or.inr rfl)
    unfold cancelJobV2
    refine Outline.raising_bind (getJobRecord_outline jobId sent) fun parsed => ?_
    cases parsed with
    | inl response => exact fun w _ h => h response rfl
    | inr record =>
      refine Outline.raising_bind (harmless_outline (cancel_harmless d record)) fun ⟨record, accepted⟩ w _ _ h => ?_
      replace h : (if accepted then 202 else 200) = 404 := h
      split at h <;> cases h

end

end AgentFabric.LocalWorker
