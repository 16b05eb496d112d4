import AgentFabric.Lib.Avoidance
import AgentFabric.LocalWorker.Server

/-!
# Which calls a handler makes

Every handler makes calls that are plain, but for a few places: `launch` creates the process, `cancel` signals it, and a
rejection records the fault. One lemma for each handler says that all its calls satisfy `P`, if plain calls do and the
others that it makes.
-/

namespace AgentFabric.LocalWorker

open AgentFabric.Lib

/-- Calls that neither create nor signal a process, nor reject a request. -/
def Call.plain : Call → Prop
  | .spawn .. | .kill .. | .rejectPreLaunch .. => False
  | _ => True

section

variable {requestDigest : RequestDigest} {P : Call → Prop}

theorem answered_obeys {α : Type} (x : Except RegistryError α) : Prog.Obeys P (answered x) := .result _

theorem recordError_obeys (hP : ∀ c : Call, c.plain → P c) (d : Daemon) (record : LaunchRecord) (detail : String) :
    Prog.Obeys P (recordError d record detail) :=
  .bind (.ask (hP _ trivial)) fun _ => answered_obeys _

theorem validateRecordProfile_obeys (hP : ∀ c : Call, c.plain → P c) (d : Daemon) (record : LaunchRecord) :
    Prog.Obeys P (validateRecordProfile d record) := by
  unfold validateRecordProfile
  split
  · exact .pure _
  · exact .bind (.ask (hP _ trivial)) fun _ => .bind (answered_obeys _) fun _ => .pure _

theorem reconcileTerminal_obeys (hP : ∀ c : Call, c.plain → P c) (d : Daemon) (record : LaunchRecord)
    (jobId nonce : String) (terminal : Document) : Prog.Obeys P (reconcileTerminal d record jobId nonce terminal) :=
    by
  unfold reconcileTerminal
  dsimp only
  split
  · exact recordError_obeys hP ..
  · split
    · exact .bind (.ask (hP _ trivial)) fun _ => answered_obeys _
    · exact recordError_obeys hP ..

theorem reconcileStarted_obeys (hP : ∀ c : Call, c.plain → P c) (d : Daemon) (record : LaunchRecord)
    (jobId nonce : String) (started : Document) : Prog.Obeys P (reconcileStarted d record jobId nonce started) := by
  unfold reconcileStarted
  split
  · split
    · exact recordError_obeys hP ..
    · refine .bind (.ask (hP _ trivial)) fun _ => .bind (.ask (hP _ trivial)) fun _ =>
        .bind (.ask (hP _ trivial)) fun _ =>
        .bind (answered_obeys _) fun _ => ?_
      split
      · exact .pure _
      · exact recordError_obeys hP ..
  · exact recordError_obeys hP ..

theorem reconcile_obeys (hP : ∀ c : Call, c.plain → P c) (d : Daemon) (record : LaunchRecord) : Prog.Obeys P
    (reconcile d record) := by
  unfold reconcile
  refine .bind (validateRecordProfile_obeys hP d record) fun ⟨record, profile⟩ => ?_
  dsimp only
  split
  · refine .bind (.ask (hP _ trivial)) fun _ => ?_
    split
    · exact reconcileTerminal_obeys hP ..
    · refine .bind (.ask (hP _ trivial)) fun _ => ?_
      split
      · exact reconcileStarted_obeys hP ..
      · exact .pure _
  · exact .pure _

theorem awaitStarted_obeys (hP : ∀ c : Call, c.plain → P c) (d : Daemon) (claimed : LaunchRecord)
    (profile : DriverProfile) (jobId : String) :
    ∀ polls, Prog.Obeys P (awaitStarted d claimed profile jobId polls)
  | 0 => recordError_obeys hP ..
  | polls + 1 => by
    unfold awaitStarted
    refine .bind (.ask (hP _ trivial)) fun _ => ?_
    split
    · exact reconcile_obeys hP ..
    · exact awaitStarted_obeys hP d claimed profile jobId polls

theorem supportsExecution_obeys (hP : ∀ c : Call, c.plain → P c) (profile : DriverProfile) : Prog.Obeys P
    (supportsExecution profile) := by
  unfold supportsExecution
  split
  · exact .ask (hP _ trivial)
  · exact .pure _

theorem recover_obeys (hP : ∀ c : Call, c.plain → P c) (d : Daemon) : Prog.Obeys P (recover d) := by
  unfold recover
  refine .bind (.ask (hP _ trivial)) fun _ => .bind (answered_obeys _) fun records => .forM fun record _ => ?_
  split
  · exact .bind (reconcile_obeys hP d record) fun _ => .pure _
  · exact .pure _

theorem getJobRecord_obeys (hP : ∀ c : Call, c.plain → P c) (d : Daemon) (jobId : String) : Prog.Obeys P
    (getJobRecord d jobId) := by
  have hjob : Prog.Obeys P (job d jobId) := by
    unfold job
    refine .bind (.ask (hP _ trivial)) fun _ => .bind (answered_obeys _) fun _ => ?_
    split
    · exact .bind (reconcile_obeys hP ..) fun _ => .pure _
    · exact .pure _
  unfold getJobRecord
  refine .rescue (.bind hjob fun _ => ?_) fun e => ?_
  · split <;> exact .pure _
  · split
    · exact .pure _
    · exact .pure _
    · exact .throw _

theorem getJobV2_obeys (hP : ∀ c : Call, c.plain → P c) (d : Daemon) (jobId : String) : Prog.Obeys P
    (getJobV2 d jobId) := by
  unfold getJobV2
  refine .bind (getJobRecord_obeys hP d jobId) fun _ => ?_
  split <;> exact .pure _

theorem lookupLaunch_obeys (hP : ∀ c : Call, c.plain → P c) (d : Daemon) (key : String) (driverId : Option String) :
    Prog.Obeys P (lookupLaunch d key driverId) := by
  unfold lookupLaunch
  dsimp only
  split
  · exact .pure _
  · split
    · exact .pure _
    · refine .rescue (.bind (.ask (hP _ trivial)) fun _ => .bind (answered_obeys _) fun _ => ?_) fun e => ?_
      · split
        · exact .pure _
        · split
          · exact .pure _
          · exact .bind (reconcile_obeys hP ..) fun _ => .pure _
      · split
        · exact .pure _
        · exact .pure _
        · exact .throw _

theorem isMember_obeys (value : Json) (names : List String) : Prog.Obeys P (value.isMember names) := by
  unfold Json.isMember
  split
  · exact .throw _
  · exact .throw _
  · exact .pure _

theorem rejectionReason_obeys (hP : ∀ c : Call, c.plain → P c) (body : LaunchBody) (execution job : Object)
    (digest : String) (profile : Option DriverProfile) : Prog.Obeys P
    (rejectionReason body execution job digest profile) := by
  unfold rejectionReason
  split
  · exact .pure _
  · split
    · exact .pure _
    · split
      · exact .pure _
      · split
        · exact .pure _
        · split
          · exact .pure _
          · refine .bind (supportsExecution_obeys hP _) fun _ => ?_
            split
            · exact .pure _
            · refine .bind (isMember_obeys _ _) fun _ => ?_
              split
              · exact .pure _
              · exact .bind (isMember_obeys _ _) fun _ => by split <;> exact .pure _

theorem durableRejection_obeys
    (hrejects : ∀ scope key digest reason driver, P (.rejectPreLaunch scope key digest reason driver)) (d : Daemon)
    (key digest reason : String) (profile : Option DriverProfile) : Prog.Obeys P
    (durableRejection d key digest reason profile) := by
  unfold durableRejection
  refine .bind (.ask (hrejects ..)) fun _ => ?_
  split
  · exact .pure _
  · exact .pure _
  · exact .pure _
  · exact .throw _

theorem parseLaunch_obeys (hP : ∀ c : Call, c.plain → P c)
    (hrejects : ∀ scope key digest reason driver, P (.rejectPreLaunch scope key digest reason driver)) (d : Daemon)
    (body : LaunchBody) : Prog.Obeys P (parseLaunch requestDigest d body) := by
  unfold parseLaunch
  split
  · split
    · exact .pure _
    · split
      · exact .pure _
      · refine .bind (.ask (hP _ trivial)) fun _ => ?_
        split
        · exact .pure _
        · split
          · exact .pure _
          · split
            · split
              · exact .pure _
              · dsimp only
                split
                · exact .pure _
                · refine .bind (rejectionReason_obeys hP ..) fun _ => ?_
                  split
                  · exact .pure _
                  · exact .throw _
                  · exact .bind (durableRejection_obeys hrejects ..) fun _ => .pure _
            · exact .pure _
  · exact .pure _

theorem spawnClaimed_obeys (hP : ∀ c : Call, c.plain → P c) (hspawns : ∀ record request, P (.spawn record request))
    (d : Daemon) (claimed : LaunchRecord) (profile : DriverProfile) (request : LaunchRequestSpec) (polls : Nat) :
    Prog.Obeys P (spawnClaimed d claimed profile request polls) := by
  unfold spawnClaimed
  split
  · refine .bind (.ask (hP _ trivial)) fun _ => ?_
    split
    · exact .throw _
    · refine .bind (.ask (hspawns ..)) fun _ => ?_
      split
      · exact .throw _
      · exact recordError_obeys hP ..
      · exact awaitStarted_obeys hP ..
  · exact .throw _

theorem launch_obeys (hP : ∀ c : Call, c.plain → P c) (hspawns : ∀ record request, P (.spawn record request))
    (d : Daemon) (record : LaunchRecord) (request : LaunchRequestSpec) (polls : Nat) :
    Prog.Obeys P (launch d record request polls) := by
  unfold launch
  split
  · exact reconcile_obeys hP ..
  · refine .bind (validateRecordProfile_obeys hP ..) fun ⟨record, profile⟩ => ?_
    dsimp only
    split
    · exact .pure _
    · refine .bind (.ask (hP _ trivial)) fun _ => ?_
      split
      · exact recordError_obeys hP ..
      · split
        · exact recordError_obeys hP ..
        · refine .bind (.ask (hP _ trivial)) fun _ => .bind (answered_obeys _) fun ⟨claimed, ownsSpawn⟩ => ?_
          dsimp only
          split
          · exact reconcile_obeys hP ..
          · exact spawnClaimed_obeys hP hspawns ..

theorem submit_obeys (hP : ∀ c : Call, c.plain → P c) (hspawns : ∀ record request, P (.spawn record request))
    (d : Daemon) (key digest : String) (request : LaunchRequestSpec) (polls : Nat) :
    Prog.Obeys P (submit d key digest request polls) := by
  unfold submit
  refine .bind (.bind (.ask (hP _ trivial)) fun _ => answered_obeys _) fun ⟨record, created⟩ => ?_
  dsimp only
  split
  · exact .pure _
  · exact .bind (launch_obeys hP hspawns ..) fun _ => .pure _

theorem createLaunch_obeys (hP : ∀ c : Call, c.plain → P c) (hspawns : ∀ record request, P (.spawn record request))
    (hrejects : ∀ scope key digest reason driver, P (.rejectPreLaunch scope key digest reason driver)) (d : Daemon)
    (body : LaunchBody) (polls : Nat) : Prog.Obeys P (createLaunch requestDigest d body polls) := by
  unfold createLaunch
  refine .bind (parseLaunch_obeys hP hrejects ..) fun parsed => ?_
  split
  · exact .pure _
  · refine .rescue (submit_obeys hP hspawns ..) fun e => ?_
    unfold submitFailure
    split
    · exact .pure _
    · exact .pure _
    · exact .throw _

theorem createJobV1_obeys (hP : ∀ c : Call, c.plain → P c) (hspawns : ∀ record request, P (.spawn record request))
    (d : Daemon) (identity : String) (body : Object) (polls : Nat) :
    Prog.Obeys P (createJobV1 requestDigest d identity body polls) := by
  unfold createJobV1
  dsimp only
  split
  · exact .pure _
  refine .bind (isMember_obeys _ _) fun known => ?_
  split
  · exact .pure _
  refine .bind (isMember_obeys _ _) fun known => ?_
  split
  · exact .pure _
  split
  · exact .pure _
  refine .bind (supportsExecution_obeys hP _) fun supported => ?_
  split
  · exact .pure _
  refine .rescue (.bind (.bind (.ask (hP _ trivial)) fun _ => answered_obeys _) fun ⟨record, created⟩ =>
    .bind (launch_obeys hP hspawns ..) fun _ => .pure _) fun e => ?_
  split
  · exact .pure _
  · exact .throw _

end

end AgentFabric.LocalWorker
