import AgentFabric.LocalWorker.Conclusions

/-!
# The launch contract of a run

All runs share the fields of one adapter. `start_job` reads them after the event of its connection, and sends the launch
under what it read then.
-/

namespace AgentFabric.LocalWorker

open AgentFabric.Lib

/-- The launch requests, each with the identity that it was sent under. -/
def NetWorld.launches (w : NetWorld) : List (String × LaunchIdentity) := w.trace.filterMap fun e => launchOf e.call

/-- What `start_job` found in the fields of the adapter, where it goes on to the launch. -/
def NetWorld.openings (w : NetWorld) : List (String × LaunchIdentity) := w.trace.filterMap fun
  | ⟨_, .openLaunch runId, c⟩ => some (runId, Contract.launchIdentity c)
  | _ => none

/-- Every launch request of a run is sent under the adapter type and the instance that its job was prepared under. -/
def NetWorld.LaunchesAsPrepared (w : NetWorld) : Prop := ∀ l ∈ w.launches, w.state.prepared l.1 = some l.2

/-- Whenever `start_job` of a run reads the fields of the adapter, they are what its job was prepared under. -/
def NetWorld.OpensAsPrepared (w : NetWorld) : Prop := ∀ o ∈ w.openings, w.state.prepared o.1 = some o.2

instance (w : NetWorld) : Decidable w.LaunchesAsPrepared := inferInstanceAs (Decidable (∀ l ∈ _, _))

instance (w : NetWorld) : Decidable w.OpensAsPrepared := inferInstanceAs (Decidable (∀ o ∈ _, _))

section

variable {digest : String → String} {cfg : AdapterConfig} {requestDigest : RequestDigest}

/-- **The launch contract.** A run that is opened with the contract it was prepared under is launched under it. -/
theorem launches_as_prepared (moves : List (Move Nat NetRequest NetEnvironment))
    (h : (netRun digest cfg requestDigest moves).OpensAsPrepared) :
    (netRun digest cfg requestDigest moves).LaunchesAsPrepared := by
  have hsound : ∀ e ∈ (netRun digest cfg requestDigest moves).trace, Sound
      ((netRun digest cfg requestDigest moves).state.evidence fun runId under =>
        (netRun digest cfg requestDigest moves).state.prepared runId = some under) e.call :=
    netRun_sound moves fun i runId c hmem => h (runId, c.launchIdentity) (List.mem_filterMap.mpr ⟨_, hmem, rfl⟩)
  rintro ⟨runId, under⟩ hl
  obtain ⟨e, he, hlaunch⟩ := List.mem_filterMap.mp hl
  exact (hsound e he).1 runId under hlaunch

end

/-! ## Two runs of one adapter -/

section

def localConfig : AdapterConfig := ⟨"http://127.0.0.1:8765", none⟩

/-- A daemon that serves the complete registry, or protocol v1 only. -/
def healthOf (versions : List Nat) : Health :=
  ⟨200, some ⟨versions, [.reconcile, .resume, .repeatableCollect, .providerIdempotency, .idempotentLaunchLookup,
    .durableLaunchRegistry, .cancel], some "authority", some "registry", none, none, none, none⟩⟩

/-- Where the health answer is such, and nothing is delivered. -/
def hearing (versions : List Nat) : NetEnvironment :=
  ⟨.ok (healthOf versions), none, .http, false,
    ⟨true, ⟨"r", "j", "c", "n", "t"⟩, fun _ => true, true, .created, fun _ _ => none, true, true, true⟩⟩

/-- A request whose job has no field at all. -/
def runRequest : WorkerRequest := ⟨"run", none, some fun _ => ⟨[], fun _ => .null, "job"⟩⟩

/-- The registry has not seen the launch that is looked up. -/
private def notSeen : WireResponse where
  status := 404
  code := some "LAUNCH_NOT_SEEN"
  data := some {
    protocolVersion := some 2
    authorityId := some "authority"
    registryId := some "registry"
    idempotencyKey := some "key"
    launchState := .notSeen
    disposition := some .definitelyNotLaunched
    accepted := some false }

/-- The run is prepared under protocol v2 and goes on to its launch after the moves between. -/
private def dispatchAround (between : List (Move Nat NetRequest NetEnvironment)) : NetWorld :=
  netRun ("sha256:" ++ ·) localConfig (fun _ _ _ => "sha256:job")
    (.start 0 (.adapter (.dispatch runRequest "key")) :: List.replicate 4 (.step 0 (hearing [1, 2])) ++ between ++
      List.replicate 3 (.step 0 (hearing [1, 2])) ++ [.start 2 (.stranger 0 notSeen), .step 2 (hearing [])] ++
      List.replicate 4 (.step 0 { (hearing [1, 2]) with delivered := some 0 }))

theorem launches_as_prepared_v2 : (dispatchAround []).LaunchesAsPrepared ∧
    (dispatchAround []).launches.map (·.1) = ["run"] :=
  ⟨launches_as_prepared _ (by decide), by decide +kernel⟩

/-- Another operation hears of protocol v1 only. -/
theorem switched_launch : ¬ (dispatchAround (.start 1 (.adapter .negotiate) ::
    List.replicate 3 (.step 1 (hearing [1])))).LaunchesAsPrepared := by
  decide

end

end AgentFabric.LocalWorker
