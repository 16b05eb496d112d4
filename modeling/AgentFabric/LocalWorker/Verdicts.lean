import AgentFabric.LocalWorker.Fabric
import AgentFabric.LocalWorker.LaunchContract

/-!
# Rejections and absences

What the adapter concludes, against the registries.
-/

namespace AgentFabric.LocalWorker

open AgentFabric.Lib

/-- The rejections that the start path raised: the key, and the response that says so. -/
def NetWorld.rejections (w : NetWorld) : List (String × Nat × WireResponse) := w.trace.filterMap fun
  | ⟨_, .rejected _ key conn response, _⟩ => some (key, conn, response)
  | _ => none

/-- The jobs that were concluded to be absent, each with the exchange that said so. -/
def NetWorld.absences (w : NetWorld) : List (Handle × Nat) := w.trace.filterMap fun
  | ⟨_, .notFound handle conn, _⟩ => some (handle, conn)
  | ⟨_, .timedOut handle conn, _⟩ => some (handle, conn)
  | _ => none

section

variable {digest : String → String} {cfg : AdapterConfig} {requestDigest : RequestDigest}

variable {moves : List (Move Nat NetRequest NetEnvironment)}

theorem rejection_given {key : String} {conn : Nat} {response : WireResponse}
    (h : (key, conn, response) ∈ (netRun digest cfg requestDigest moves).rejections) :
    response.Rejects key ∧
      ∃ source, ⟨conn, source, response⟩ ∈ (netRun digest cfg requestDigest moves).state.answers := by
  obtain ⟨e, he, hevent⟩ := List.mem_filterMap.mp h
  have hsound : Sound ((netRun digest cfg requestDigest moves).state.evidence fun _ _ => True) e.call :=
    netRun_sound moves (fun _ _ _ _ => trivial) e he
  split at hevent
  · cases hevent
    exact hsound.2
  · cases hevent

/-- **Rejection is proof.** If the start path raises on the rejection of a key and a daemon gave the receipt, no process
was spawned for the key, and none is spawned afterwards. -/
theorem rejection_is_proof {moves : List (Move Nat NetRequest NetEnvironment)} {key : String} {conn : Nat}
    {response : WireResponse} {d : Daemon}
    (h : (key, conn, response) ∈ (netRun digest cfg requestDigest moves).rejections)
    (hd : ⟨conn, some d, response⟩ ∈ (netRun digest cfg requestDigest moves).state.answers)
    (later : List (Move Nat NetRequest NetEnvironment)) :
    spawns ((netRun digest cfg requestDigest (moves ++ later)).state.worlds d.key).trace d.authorityScope key = [] := by
  obtain ⟨e, -, hbears⟩ := (netRun_inv moves).answers _ hd d rfl
  obtain ⟨r, hr, hscope, rfl, hstate⟩ :=
    (hbears.mono (netRun_le moves later d.key)).rejected key (rejection_given h).1
  rw [← hscope]
  exact ((netRun_inv (moves ++ later)).worlds d.key).rejected_unspawned hr hstate

/-! ## Absences -/

/-- The registries that the adapter instance of a handle stands for. -/
def Identifies (digest : String → String) (cfg : AdapterConfig) (handle : Handle) (key : RegistryKey) : Prop :=
  ∃ driver, handle.adapterInstanceId = v2InstanceId digest cfg key.authorityId key.registryId driver

/-- The scope under which the daemon opens its registry. -/
def defaultScope : String := "local-loopback"

/-- A v2 job is concluded to be absent only from a registry that had no record of it when the adapter asked. -/
def NetWorld.AbsencesAuthoritative (digest : String → String) (cfg : AdapterConfig) (w : NetWorld) : Prop :=
  ∀ c ∈ w.absences, c.1.adapterType = .httpV2 → ∀ key, Identifies digest cfg c.1 key →
    ∀ e, w.state.exchanges[c.2]? = some e → (e.registries key).Lacks defaultScope c.1.jobId

/-- The 404 that a conclusion stands on is the answer of a daemon over the registry of the handle. -/
def NetWorld.AnsweredByOwner (digest : String → String) (cfg : AdapterConfig) (w : NetWorld) : Prop :=
  ∀ c ∈ w.absences, c.1.adapterType = .httpV2 → ∀ a ∈ w.state.answers, a.conn = c.2 → a.response.status = 404 →
    ∃ d, a.source = some d ∧ d.authorityScope = defaultScope ∧ ∀ key, Identifies digest cfg c.1 key → key = d.key

theorem absence_denied {handle : Handle} {conn : Nat}
    (h : (handle, conn) ∈ (netRun digest cfg requestDigest moves).absences) :
    ((netRun digest cfg requestDigest moves).state.evidence fun _ _ => True).Denied handle conn := by
  obtain ⟨e, he, hevent⟩ := List.mem_filterMap.mp h
  have hsound : Sound ((netRun digest cfg requestDigest moves).state.evidence fun _ _ => True) e.call :=
    netRun_sound moves (fun _ _ _ _ => trivial) e he
  split at hevent
  · cases hevent
    exact hsound.2
  · cases hevent
    exact hsound.2
  · cases hevent

/-- **Absence is authoritative** where the registry of the handle has answered. -/
theorem absence_is_authoritative (moves : List (Move Nat NetRequest NetEnvironment))
    (h : (netRun digest cfg requestDigest moves).AnsweredByOwner digest cfg) :
    (netRun digest cfg requestDigest moves).AbsencesAuthoritative digest cfg := by
  rintro ⟨handle, conn⟩ hc hv2 key hkey e he
  obtain ⟨w, hstatus, hanswered⟩ := absence_denied hc
  have hquestion : ∃ source, ⟨conn, source, w⟩ ∈ (netRun digest cfg requestDigest moves).state.answers ∧
      (e.request = .status handle.adapterType handle.jobId ∨ e.request = .cancel handle.adapterType handle.jobId) := by
    rcases hanswered with ⟨⟨registries, hsent⟩, source, hgiven⟩ | ⟨⟨registries, hsent⟩, source, hgiven⟩
    · obtain rfl := Option.some.inj (he.symm.trans hsent)
      exact ⟨source, hgiven, Or.inl rfl⟩
    · obtain rfl := Option.some.inj (he.symm.trans hsent)
      exact ⟨source, hgiven, Or.inr rfl⟩
  obtain ⟨source, hgiven, hrequest⟩ := hquestion
  obtain ⟨d, rfl, hscope, howner⟩ := h _ hc hv2 _ hgiven rfl hstatus
  obtain ⟨e', he', hbears⟩ := (netRun_inv moves).answers _ hgiven d rfl
  obtain rfl := Option.some.inj (he.symm.trans he')
  rw [howner key hkey, ← hscope]
  exact hbears.absent _ _ hrequest hstatus

theorem identifies_unique (hdigest : Function.Injective digest) {handle : Handle} {key key' : RegistryKey}
    (h : handle.adapterInstanceId = v2InstanceId digest cfg key.authorityId key.registryId none)
    (hauthority : '\x00' ∉ key.authorityId.toList) (hregistry : '\x00' ∉ key.registryId.toList)
    (h' : Identifies digest cfg handle key') : key' = key := by
  obtain ⟨driver, hinstance⟩ := h'
  have hparts := congrArg String.toList (hdigest (hinstance.symm.trans h))
  have hheads : ∃ rest, key'.authorityId.toList ++ '\x00' :: (key'.registryId.toList ++ rest) =
      key.authorityId.toList ++ '\x00' :: key.registryId.toList ∧ (rest = [] ∨ '\x00' ∈ rest) := by
    cases driver with
    | none => exact ⟨[], by simpa using hparts, Or.inl rfl⟩
    | some =>
      rw [String.intercalate_append_of_ne_nil (by simp) (by simp)] at hparts
      exact ⟨'\x00' :: _, by simpa using hparts, Or.inr List.mem_cons_self⟩
  obtain ⟨rest, heq, hrest⟩ := hheads
  obtain ⟨hfst, -, hsnd⟩ := (List.append_cons_inj_of_notMem hauthority hregistry).mp heq.symm
  have hnil : rest = [] := by
    refine hrest.resolve_right fun hmem => hregistry ?_
    rw [hsnd]
    exact List.mem_append_right _ hmem
  rw [hnil, List.append_nil] at hsnd
  obtain ⟨authorityId, registryId⟩ := key
  obtain ⟨authorityId', registryId'⟩ := key'
  rw [RegistryKey.mk.injEq]
  exact ⟨String.toList_inj.mp hfst.symm, String.toList_inj.mp hsnd.symm⟩

end

/-! ## A daemon, and another one over a new registry -/

section

deriving instance DecidableEq for Daemon

deriving instance DecidableEq for Answer

private def localProfile : DriverProfile :=
  ⟨"test", .test, 1, "sha256:" ++ String.ofList (List.replicate 64 'a'), none, true⟩

private def localDaemon (registryId : String) : Daemon :=
  ⟨defaultScope, "authority", registryId, "host", "instance", [localProfile], localProfile, rfl⟩

private def jobDigest : String := "sha256:" ++ String.ofList (List.replicate 64 'b')

private def reading : NetEnvironment := { (hearing [1, 2]) with delivered := some 0 }

private def localRun (moves : List (Move Nat NetRequest NetEnvironment)) : NetWorld :=
  netRun ("sha256:" ++ ·) localConfig (fun _ _ _ => jobDigest) moves

/-- A launch that its daemon rejects for the fields of its job. -/
private def rejectedLaunch : List (Move Nat NetRequest NetEnvironment) :=
  .start 0 (.adapter (.dispatch runRequest "key")) :: List.replicate 7 (.step 0 (hearing [1, 2])) ++
    .start 1 (.answer (localDaemon "registry") 0 "" 0) :: List.replicate 3 (.step 1 (hearing [])) ++
    List.replicate 3 (.step 0 reading) ++
    .start 2 (.answer (localDaemon "registry") 1 "" 0) :: List.replicate 4 (.step 2 (hearing [])) ++
    List.replicate 3 (.step 0 reading)

private def rejectionReceipt : WireResponse where
  status := 422
  code := some "PRE_LAUNCH_REJECTED"
  data := some {
    protocolVersion := some 2
    authorityId := some "authority"
    registryId := some "registry"
    idempotencyKey := some "key"
    launchState := .rejectedPreLaunch
    disposition := some .definitelyNotLaunched
    accepted := some false
    requestDigest := some jobDigest
    launchRecordId := some "launch-r"
    receiptId := some "receipt-c" }

theorem rejection_is_proof_unsupported : ("key", 1, rejectionReceipt) ∈ (localRun rejectedLaunch).rejections ∧
    ∀ later, spawns ((localRun (rejectedLaunch ++ later)).state.worlds (localDaemon "registry").key).trace
      (localDaemon "registry").authorityScope "key" = [] :=
  have h : ("key", 1, rejectionReceipt) ∈ (localRun rejectedLaunch).rejections := by decide +kernel
  have hd : ⟨1, some (localDaemon "registry"), rejectionReceipt⟩ ∈ (localRun rejectedLaunch).state.answers := by
    decide +kernel
  ⟨h, fun later => rejection_is_proof h hd later⟩

private def jobBody : LaunchBody where
  top := ⟨topFields, fun
    | "idempotency_key" => .text "key"
    | "protocol_version" => .int 2
    | "authority_id" => .text "authority"
    | "registry_id" => .text "registry"
    | "request_digest" => .text jobDigest
    | _ => .array, ""⟩
  execution := some ⟨executionFields, fun
    | "run_id" => .text "run"
    | _ => .null, ""⟩
  job := some ⟨["driver_id", "job_type", "role", "prompt"], fun
    | "driver_id" => .text "test"
    | "job_type" => .text "inference.chat"
    | "role" => .text "RAG"
    | "prompt" => .text "hello"
    | _ => .null, ""⟩

private def jobHandle (jobId : String) : Handle :=
  ⟨"run", .httpV2, v2InstanceId ("sha256:" ++ ·) localConfig "authority" "registry" none, jobId⟩

/-- A job is reserved; then its handle is reconciled, and the daemon over the given registry answers. -/
private def reconciled (jobId registryId : String) : NetWorld :=
  localRun (.start 1 (.client (.createLaunch (localDaemon "registry") jobBody 0)) ::
    List.replicate 3 (.step 1 (hearing [])) ++
    .start 0 (.adapter (.reconcile (jobHandle jobId))) :: List.replicate 5 (.step 0 (hearing [1, 2])) ++
    .start 2 (.answer (localDaemon registryId) 0 "" 0) :: List.replicate 3 (.step 2 (hearing [])) ++
    List.replicate 2 (.step 0 reading))

private theorem reconciled_absences : (reconciled "local-job-x" "registry").absences = [(jobHandle "local-job-x", 0)] ∧
    ∀ a ∈ (reconciled "local-job-x" "registry").state.answers, a.source = some (localDaemon "registry") := by
  decide +kernel

theorem absence_is_authoritative_owner : (reconciled "local-job-x" "registry").absences ≠ [] ∧
    (reconciled "local-job-x" "registry").AbsencesAuthoritative ("sha256:" ++ ·) localConfig := by
  refine ⟨by simp [reconciled_absences.1], absence_is_authoritative _ ?_⟩
  intro c hc _ a ha _ _
  have hhandle := (List.mem_singleton.mp (reconciled_absences.1 ▸ hc)).symm
  subst hhandle
  refine ⟨localDaemon "registry", reconciled_absences.2 a ha, rfl, fun key hkey => ?_⟩
  exact identifies_unique (fun _ _ h => by simpa using h) rfl (by decide) (by decide) hkey

/-- Between the health answer and the question another daemon has taken over, and a job that is on record is concluded
to be absent. -/
theorem absent_elsewhere :
    ¬ (reconciled "local-job-j" "other").AbsencesAuthoritative ("sha256:" ++ ·) localConfig := by
  intro h
  have hmem : (jobHandle "local-job-j", 0) ∈ (reconciled "local-job-j" "other").absences := by decide +kernel
  have hrecord : ((reconciled "local-job-j" "other").state.exchanges[0]?).map (fun e =>
      (e.registries ⟨"authority", "registry"⟩).rows.any fun r =>
        r.authorityScope = defaultScope ∧ r.jobId = some "local-job-j") = some true := by decide +kernel
  obtain ⟨e, he, hany⟩ := Option.map_eq_some_iff.mp hrecord
  obtain ⟨r, hr, hjob⟩ := List.any_eq_true.mp hany
  exact h _ hmem rfl ⟨"authority", "registry"⟩ ⟨none, rfl⟩ e he r hr (of_decide_eq_true hjob)

end

end AgentFabric.LocalWorker
