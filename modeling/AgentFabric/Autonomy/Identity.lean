import AgentFabric.Autonomy.GoalFencing

/-!
# Identities of hosts and monitors

A process registers under a host or monitor identity and keeps its row alive by heartbeats; a second process takes the
identity over once the heartbeat is stale. The row is addressed by the identity alone, a goal lease by its generation.
-/

namespace AgentFabric.Autonomy.Identity

open AgentFabric.Lib AgentFabric.Store

/-- A row of `autonomous_hosts` or of `node_runtime_recovery_monitors`; the counters of a host stay at zero. Monitors
have the states of hosts. -/
structure IdentityRow where
  processId : Nat
  state : AutonomousHostState
  startedAt : Nat
  heartbeatAt : Nat
  stoppedAt : Option Nat := none
  activeCount : Nat := 0
  observationCount : Nat := 0
  recoveryCount : Nat := 0
  staleTakeoverCount : Nat := 0
  lastError : Option String := none
  metadata : String
deriving DecidableEq

abbrev Identities := Table String IdentityRow

/-- A live row whose last heartbeat is not stale at `now`. -/
def IdentityRow.inUse (row : IdentityRow) (staleAfter now : Nat) : Bool :=
  row.state.live && decide (now < row.heartbeatAt + staleAfter)

/-- A new row, or the old one restarted; `inUse` is the error for an identity with a live heartbeat. -/
def registerIdentity (t : Identities) (id : String) (processId staleAfter : Nat) (metadata : String) (now : Nat)
    (inUse : StoreError) : Except StoreError Identities := do
  ensure (((t.get? id).any (·.inUse staleAfter now)) = false) inUse
  let row : IdentityRow :=
    match t.get? id with
    | none => { processId := processId, state := .starting, startedAt := now, heartbeatAt := now, metadata := metadata }
    | some row =>
      { row with processId := processId, state := .starting, startedAt := now, heartbeatAt := now, stoppedAt := none,
                 activeCount := 0, lastError := none, metadata := metadata }
  return t.upsert id row

/-- What a heartbeat says. -/
structure Beat where
  state : AutonomousHostState := .running
  activeCount : Nat
  observations : Nat := 0
  recoveries : Nat := 0
  staleTakeovers : Nat := 0
  lastError : Option String := none

def IdentityRow.beat (row : IdentityRow) (b : Beat) (now : Nat) : IdentityRow :=
  { row with state := b.state, heartbeatAt := now, activeCount := b.activeCount,
             observationCount := row.observationCount + b.observations,
             recoveryCount := row.recoveryCount + b.recoveries,
             staleTakeoverCount := row.staleTakeoverCount + b.staleTakeovers,
             lastError := b.lastError <|> row.lastError }

def stoppedState (failed : Bool) : AutonomousHostState := if failed then .failed else .stopped

def IdentityRow.stop (row : IdentityRow) (failed : Bool) (error : Option String) (now : Nat) : IdentityRow :=
  { row with state := stoppedState failed, heartbeatAt := now, stoppedAt := some now, activeCount := 0,
             lastError := error <|> row.lastError }

/-- `WHERE host_id=?`, without the process that has registered. -/
def heartbeatIdentity (t : Identities) (id : String) (b : Beat) (now : Nat) : Identities := t.modify id (·.beat b now)

def stopIdentity (t : Identities) (id : String) (failed : Bool) (error : Option String) (now : Nat) : Identities :=
  t.modify id (·.stop failed error now)

/-! ## Hosts and monitors -/

inductive Kind where
  | host | monitor
deriving DecidableEq

structure IdentityDb where
  db : Db
  hosts : Identities
  monitors : Identities
  leases : Table String GoalLease

def IdentityDb.initial : IdentityDb := ⟨Db.initial, .empty, .empty, .empty⟩

def IdentityDb.table (w : IdentityDb) : Kind → Identities
  | .host => w.hosts
  | .monitor => w.monitors

def IdentityDb.setTable (w : IdentityDb) (t : Identities) : Kind → IdentityDb
  | .host => { w with hosts := t }
  | .monitor => { w with monitors := t }

def registerHost (t : Identities) (hostId : String) (processId staleAfter : Nat) (metadata : String) (now : Nat) :
    Except StoreError Identities := do
  ensure (blank hostId = false) (.valueError "host_id is required")
  ensure (0 < processId) (.valueError "process_id must be positive")
  ensure (0 < staleAfter) (.valueError "stale_after_seconds must be positive")
  registerIdentity t hostId processId staleAfter metadata now
    (.runtimeError ("autonomous host identity " ++ hostId ++ " has a live heartbeat"))

def asciiLetter (c : Char) : Bool := decide ('a' ≤ c ∧ c ≤ 'z' ∨ 'A' ≤ c ∧ c ≤ 'Z')

/-- `_MONITOR_ID`: a letter, then at most 119 letters, digits and signs. -/
def validMonitorId (id : String) : Bool :=
  match id.toList with
  | [] => false
  | c :: cs =>
    asciiLetter c && decide (cs.length ≤ 119) &&
      cs.all fun c => asciiLetter c || decide ('0' ≤ c ∧ c ≤ '9') || decide (c ∈ ['.', '_', ':', '@', '/', '-'])

def registerMonitor (t : Identities) (monitorId : String) (processId staleAfter : Nat)
    (metadata : String) (now : Nat) : Except StoreError Identities := do
  ensure (validMonitorId monitorId = true ∧ 0 < processId)
    (.valueError "monitor_id and a positive process_id are required")
  registerIdentity t monitorId processId staleAfter metadata now
    (.runtimeError ("runtime recovery monitor identity " ++ monitorId ++ " has a live heartbeat"))

def heartbeatHost (t : Identities) (hostId : String) (activeGoalCount : Nat) (state : AutonomousHostState)
    (lastError : Option String) (now : Nat) : Identities :=
  heartbeatIdentity t hostId { state := state, activeCount := activeGoalCount, lastError := lastError } now

def heartbeatMonitor (t : Identities) (monitorId : String) (b : Beat) (now : Nat) : Identities :=
  heartbeatIdentity t monitorId b now

def stopHost (t : Identities) (hostId : String) (failed : Bool) (lastError : Option String) (now : Nat) : Identities :=
  stopIdentity t hostId failed lastError now

def stopMonitor (t : Identities) (monitorId : String) (failed : Bool) (lastError : Option String) (now : Nat) :
    Identities :=
  stopIdentity t monitorId failed lastError now

/-! ## The columns that leases depend on -/

def IdentityRow.host (row : IdentityRow) : HostRow := ⟨row.processId, row.state, row.heartbeatAt⟩

/-- The store as the leases of goals see it. -/
def IdentityDb.view (w : IdentityDb) : HostDb := ⟨w.db, w.hosts.mapRows IdentityRow.host, w.leases⟩

/-- The registration of `Host.lean` is this one, seen through `view`. -/
theorem registerHost_view {w : IdentityDb} {hostId : String} {processId staleAfter : Nat}
    {metadata : String} {now : Nat}
    {t : Identities} (h : registerHost w.hosts hostId processId staleAfter metadata now = .ok t) :
    Autonomy.registerHost w.view hostId processId staleAfter now = .ok ((), { w with hosts := t }.view) := by
  simp only [registerHost, registerIdentity, bind_eq_ok, ensure_eq_ok, exists_const, pure_eq_ok] at h
  obtain ⟨hid, hpid, hstale, huse, rfl⟩ := h
  have huse' : ((w.view.hosts.get? hostId).any fun h => h.state.live && decide (now < h.heartbeatAt + staleAfter)) =
      false := by
    show (((w.hosts.mapRows IdentityRow.host).get? hostId).any _) = false
    rw [Table.get?_mapRows, Option.any_map]
    exact huse
  have hrow : ∀ row : IdentityRow, row.processId = processId → row.state = .starting → row.heartbeatAt = now →
      row.host = ⟨processId, .starting, now⟩ := by
    rintro row rfl hs rfl
    simp only [IdentityRow.host, hs]
  simp only [Autonomy.registerHost, bind_eq_ok, ensure_eq_ok, exists_const, pure_eq_ok, Prod.mk.injEq, true_and]
  refine ⟨hid, hpid, hstale, huse', ?_⟩
  simp only [IdentityDb.view, Table.mapRows_upsert]
  cases w.hosts.get? hostId <;> rw [hrow _ rfl rfl rfl]

theorem heartbeatHost_view (w : IdentityDb) (hostId : String) (activeGoalCount : Nat) (state : AutonomousHostState)
    (lastError : Option String) (now : Nat) :
    { w with hosts := heartbeatHost w.hosts hostId activeGoalCount state lastError now }.view =
      setHost w.view hostId state now := by
  simp only [IdentityDb.view, heartbeatHost, heartbeatIdentity, setHost]
  rw [Table.mapRows_modify]
  exact fun _ => rfl

theorem stopHost_view (w : IdentityDb) (hostId : String) (failed : Bool) (lastError : Option String) (now : Nat) :
    { w with hosts := stopHost w.hosts hostId failed lastError now }.view =
      setHost w.view hostId (stoppedState failed) now := by
  simp only [IdentityDb.view, stopHost, stopIdentity, setHost]
  rw [Table.mapRows_modify]
  exact fun _ => rfl

/-! ## Processes -/

/-- What a process asks of the repositories. A claim is one of those that it was granted, by its place among them;
`work` stands for every transaction on other tables. -/
inductive Op where
  | register (kind : Kind) (id : String) (staleAfter : Nat) (metadata : String)
  | heartbeatHost (hostId : String) (activeGoalCount : Nat) (state : AutonomousHostState) (lastError : Option String)
  | heartbeatMonitor (monitorId : String) (b : Beat)
  | stop (kind : Kind) (id : String) (failed : Bool) (lastError : Option String)
  | acquireGoal (goalId hostId : String) (ttl : Nat)
  | heartbeatGoal (claim ttl : Nat)
  | releaseGoal (claim : Nat) (lost : Bool)
  | work (db : Db)

structure Step where
  process : Nat
  op : Op
  now : Nat

/-- The store, and the claims that each process was granted. -/
structure World where
  store : IdentityDb
  claims : Nat → List GoalLeaseClaim

def World.initial : World := ⟨.initial, fun _ => []⟩

def World.setTable (w : World) (kind : Kind) (t : Identities) : World := { w with store := w.store.setTable t kind }

def World.setLeases (w : World) (leases : Table String GoalLease) : World :=
  { w with store := { w.store with leases := leases } }

def World.grant (w : World) (process : Nat) (claim : GoalLeaseClaim) : World :=
  { w with claims := fun p => if p = process then w.claims p ++ [claim] else w.claims p }

/-- A transaction that raises commits nothing. -/
def step (w : World) (s : Step) : World :=
  match s.op with
  | .register .host id staleAfter metadata =>
    match registerHost w.store.hosts id s.process staleAfter metadata s.now with
    | .ok t => w.setTable .host t
    | .error _ => w
  | .register .monitor id staleAfter metadata =>
    match registerMonitor w.store.monitors id s.process staleAfter metadata s.now with
    | .ok t => w.setTable .monitor t
    | .error _ => w
  | .heartbeatHost hostId activeGoalCount state lastError =>
    w.setTable .host (heartbeatHost w.store.hosts hostId activeGoalCount state lastError s.now)
  | .heartbeatMonitor monitorId b => w.setTable .monitor (heartbeatMonitor w.store.monitors monitorId b s.now)
  | .stop .host id failed lastError => w.setTable .host (stopHost w.store.hosts id failed lastError s.now)
  | .stop .monitor id failed lastError => w.setTable .monitor (stopMonitor w.store.monitors id failed lastError s.now)
  | .acquireGoal goalId hostId ttl =>
    match tryAcquireGoal w.store.view goalId hostId ttl s.now with
    | .ok (some claim, v) => (w.setLeases v.leases).grant s.process claim
    | _ => w
  | .heartbeatGoal i ttl =>
    match (w.claims s.process)[i]? with
    | some claim => w.setLeases (heartbeatGoal w.store.view claim ttl s.now).2.leases
    | none => w
  | .releaseGoal i lost =>
    match (w.claims s.process)[i]? with
    | some claim => w.setLeases (releaseGoal w.store.view claim lost s.now).2.leases
    | none => w
  | .work db => { w with store := { w.store with db := db } }

def runOf (steps : List Step) : World := steps.foldl step .initial

theorem runOf_append (steps : List Step) (s : Step) : runOf (steps ++ [s]) = step (runOf steps) s := by
  simp [runOf, List.foldl_append]

/-! ## Leases -/

/-- Claims are of granted generations, and no two processes have the same one. -/
structure Granted (w : World) : Prop where
  reached : ∀ p, ∀ c ∈ w.claims p, c.generation ≤ w.store.view.generation c.goalId
  exclusive : ∀ p q, ∀ c ∈ w.claims p, ∀ d ∈ w.claims q, c.goalId = d.goalId → c.generation = d.generation → p = q

theorem Granted.congr {w w' : World} (hw : Granted w) (hc : w'.claims = w.claims)
    (hg : ∀ g, w'.store.view.generation g = w.store.view.generation g) : Granted w' := by
  constructor
  · intro p c hm
    rw [hc] at hm
    rw [hg]
    exact hw.reached p c hm
  · intro p q c hp d hq
    rw [hc] at hp hq
    exact hw.exclusive p q c hp d hq

/-- A new claim is of a later generation than all the others of its goal. -/
theorem Granted.grant {w w' : World} {p : Nat} {claim : GoalLeaseClaim} (hw : Granted w)
    (hc : w'.claims = (w.grant p claim).claims)
    (hnew : claim.generation = w.store.view.generation claim.goalId + 1)
    (hgen : w'.store.view.generation claim.goalId = claim.generation)
    (hother : ∀ g, g ≠ claim.goalId → w'.store.view.generation g = w.store.view.generation g) : Granted w' := by
  have hmem : ∀ q, ∀ c ∈ w'.claims q, c ∈ w.claims q ∨ q = p ∧ c = claim := by
    intro q c hm
    rw [hc] at hm
    simp only [World.grant] at hm
    split at hm
    · rcases List.mem_append.mp hm with hold | hclaim
      · exact Or.inl hold
      · exact Or.inr ⟨‹q = p›, List.mem_singleton.mp hclaim⟩
    · exact Or.inl hm
  have hlater : ∀ q, ∀ c ∈ w.claims q, c.goalId = claim.goalId → c.generation ≠ claim.generation := by
    intro q c hm hgoal
    have hle := hw.reached q c hm
    rw [hgoal] at hle
    omega
  constructor
  · intro q c hm
    rcases hmem q c hm with hold | ⟨-, rfl⟩
    · have hle := hw.reached q c hold
      by_cases hgoal : c.goalId = claim.goalId
      · rw [hgoal] at hle ⊢
        omega
      · rw [hother _ hgoal]
        exact hle
    · exact hgen.ge
  · intro q r c hq d hr hgoal hgeneration
    rcases hmem q c hq with hcold | ⟨rfl, rfl⟩ <;> rcases hmem r d hr with hdold | ⟨rfl, rfl⟩
    · exact hw.exclusive q r c hcold d hdold hgoal hgeneration
    · exact absurd hgeneration (hlater q c hcold hgoal)
    · exact absurd hgeneration.symm (hlater r d hdold hgoal.symm)
    · rfl

theorem heartbeatGoal_generation (w : HostDb) (claim : GoalLeaseClaim) (ttl now : Nat) (g : String) :
    (heartbeatGoal w claim ttl now).2.generation g = w.generation g := by
  unfold heartbeatGoal
  split
  · exact generation_modify (f := GoalLease.renew (now + ttl)) (fun _ => rfl) rfl
  · rfl

theorem releaseGoal_generation (w : HostDb) (claim : GoalLeaseClaim) (lost : Bool) (now : Nat) (g : String) :
    (releaseGoal w claim lost now).2.generation g = w.generation g := by
  unfold releaseGoal
  split
  · exact generation_modify (f := GoalLease.close (if lost then .lost else .released) now) (fun _ => rfl) rfl
  · rfl

/-- Every step keeps claims granted, and each to one process. -/
theorem step_granted {w : World} (hw : Granted w) (s : Step) : Granted (step w s) := by
  obtain ⟨p, op, now⟩ := s
  cases op with
  | register kind =>
    cases kind with
    | host =>
      simp only [step]
      split
      · exact hw.congr rfl fun _ => rfl
      · exact hw
    | monitor =>
      simp only [step]
      split
      · exact hw.congr rfl fun _ => rfl
      · exact hw
  | heartbeatHost => exact hw.congr rfl fun _ => rfl
  | heartbeatMonitor => exact hw.congr rfl fun _ => rfl
  | stop kind => cases kind <;> exact hw.congr rfl fun _ => rfl
  | acquireGoal =>
    simp only [step]
    split
    next claim v heq =>
      obtain ⟨h, -⟩ | ⟨claim', h, hgoal, hgen, -, hself, hother⟩ := tryAcquireGoal_ok heq
      · cases h
      · cases h
        refine hw.grant rfl (by rw [hgoal]; exact hgen) ?_ fun g hg => ?_
        · rw [hgoal, hgen]
          exact hself
        · rw [hgoal] at hg
          exact hother g hg
    · exact hw
  | heartbeatGoal =>
    simp only [step]
    split
    · exact hw.congr rfl fun g => heartbeatGoal_generation _ _ _ _ g
    · exact hw
  | releaseGoal =>
    simp only [step]
    split
    · exact hw.congr rfl fun g => releaseGoal_generation _ _ _ _ g
    · exact hw
  | work => exact hw.congr rfl fun _ => rfl

theorem runOf_granted (steps : List Step) : Granted (runOf steps) := by
  induction steps using List.reverseRecOn with
  | nil => exact ⟨nofun, nofun⟩
  | append_singleton steps s ih =>
    rw [runOf_append]
    exact step_granted ih s

/-- The process has been granted the lease that the goal has now. -/
def World.Holds (w : World) (q : Nat) (goalId : String) (lease : GoalLease) : Prop :=
  w.store.leases.get? goalId = some lease ∧ ∃ d ∈ w.claims q, d.goalId = goalId ∧ d.holds lease = true

/-- **A claim of one process never touches a lease that another process holds.** -/
theorem lease_untouched {w : World} (hw : Granted w) {p q : Nat} (hpq : p ≠ q) {c : GoalLeaseClaim}
    (hc : c ∈ w.claims p)
    {goalId : String} {lease : GoalLease} (hq : w.Holds q goalId lease) (ttl now : Nat) :
    (heartbeatGoal w.store.view c ttl now).2.leases.get? goalId = some lease := by
  obtain ⟨hlease, d, hd, hgoal, hholds⟩ := hq
  unfold heartbeatGoal
  split
  next hclaimed =>
    have hne : goalId ≠ c.goalId := by
      rintro rfl
      have hc' : c.holds lease = true := by
        have h : (w.store.leases.get? c.goalId).any c.holds = true := hclaimed
        rw [hlease] at h
        exact h
      simp only [GoalLeaseClaim.holds, decide_eq_true_eq] at hc' hholds
      exact hpq (hw.exclusive p q c hc d hd hgoal.symm (hc'.2.1.symm.trans hholds.2.1))
    show (w.store.leases.modify c.goalId _).get? goalId = some lease
    rw [Table.get?_modify_ne _ _ hne]
    exact hlease
  · exact hlease

/-! ## Takeovers -/

/-- A registration of `q` takes the identity over from `p`, whose row is live but stale. -/
structure TakesOver (w : World) (s : Step) (p q : Nat) (kind : Kind) (id : String) : Prop where
  process : s.process = q
  registers : ∃ staleAfter metadata, s.op = .register kind id staleAfter metadata
  stale : ∃ row, (w.store.table kind).get? id = some row ∧ row.processId = p ∧ row.state.live = true
  taken : ∃ row, ((step w s).store.table kind).get? id = some row ∧ row.processId = q

/-- `q` has taken the identity over from `p`, which has not registered under it again. -/
def Replaced (p q : Nat) (kind : Kind) (id : String) (steps : List Step) : Prop :=
  ∃ earlier t later, steps = earlier ++ t :: later ∧ TakesOver (runOf earlier) t p q kind id ∧
    ∀ s ∈ later, s.process = p → ∀ staleAfter metadata, s.op ≠ .register kind id staleAfter metadata

/-- A heartbeat, a stop or a heartbeat of a goal lease. -/
def Op.Beats : Op → Prop
  | .heartbeatHost .. | .heartbeatMonitor .. | .stop .. | .heartbeatGoal .. => True
  | _ => False

/-- After a takeover by `q`, no heartbeat or stop of `p` changes the row or a lease that `q` holds. -/
def IdentityFenced (moves : List Step) (p q : Nat) (kind : Kind) (id : String) : Prop :=
  ∀ before s after, moves = before ++ s :: after → Replaced p q kind id before → s.process = p → s.op.Beats →
    ((step (runOf before) s).store.table kind).get? id = ((runOf before).store.table kind).get? id ∧
    ∀ goalId lease, (runOf before).Holds q goalId lease →
      (step (runOf before) s).store.leases.get? goalId = some lease

/-- The heartbeat says what the row says. -/
structure Beat.Says (b : Beat) (now : Nat) (row : IdentityRow) : Prop where
  state : b.state = row.state
  time : now = row.heartbeatAt
  activeCount : b.activeCount = row.activeCount
  observations : b.observations = 0
  recoveries : b.recoveries = 0
  staleTakeovers : b.staleTakeovers = 0
  lastError : b.lastError = none ∨ b.lastError = row.lastError

/-- The stop says what the row says. -/
structure StopSays (failed : Bool) (error : Option String) (now : Nat) (row : IdentityRow) : Prop where
  state : stoppedState failed = row.state
  time : now = row.heartbeatAt
  stoppedAt : row.stoppedAt = some now
  activeCount : row.activeCount = 0
  lastError : error = none ∨ error = row.lastError

/-- The step repeats what the row of the identity says, or does not write it. -/
def Repeats (w : World) (kind : Kind) (id : String) (s : Step) : Prop :=
  ∀ row, (w.store.table kind).get? id = some row →
    match s.op with
    | .heartbeatHost hostId activeGoalCount state lastError => kind = .host → hostId = id →
      Beat.Says { state := state, activeCount := activeGoalCount, lastError := lastError } s.now row
    | .heartbeatMonitor monitorId b => kind = .monitor → monitorId = id → b.Says s.now row
    | .stop kind' id' failed lastError => kind' = kind → id' = id → StopSays failed lastError s.now row
    | _ => True

theorem orElse_eq_right {a b : Option String} : (a <|> b) = b ↔ a = none ∨ a = b := by
  cases a <;> simp

theorem beat_eq_iff {row : IdentityRow} {b : Beat} {now : Nat} : row.beat b now = row ↔ b.Says now row := by
  obtain ⟨processId, state, startedAt, heartbeatAt, stoppedAt, active, observations, recoveries, takeovers, error, m⟩ :=
    row
  simp only [IdentityRow.beat, IdentityRow.mk.injEq, true_and, and_true, orElse_eq_right, Nat.add_eq_left]
  constructor
  · rintro ⟨hstate, htime, hactive, hobs, hrec, hstale, herror⟩
    exact ⟨hstate, htime, hactive, hobs, hrec, hstale, herror⟩
  · rintro ⟨hstate, htime, hactive, hobs, hrec, hstale, herror⟩
    exact ⟨hstate, htime, hactive, hobs, hrec, hstale, herror⟩

theorem stop_eq_iff {row : IdentityRow} {failed : Bool} {error : Option String} {now : Nat} :
    row.stop failed error now = row ↔ StopSays failed error now row := by
  obtain ⟨processId, state, startedAt, heartbeatAt, stoppedAt, active, observations, recoveries, takeovers, last, m⟩ :=
    row
  simp only [IdentityRow.stop, IdentityRow.mk.injEq, true_and, and_true, orElse_eq_right]
  constructor
  · rintro ⟨hstate, htime, hstopped, hactive, herror⟩
    exact ⟨hstate, htime, hstopped.symm, hactive.symm, herror⟩
  · rintro ⟨hstate, htime, hstopped, hactive, herror⟩
    exact ⟨hstate, htime, hstopped.symm, hactive.symm, herror⟩

theorem modify_same_iff {t : Identities} {key id : String} {f : IdentityRow → IdentityRow} :
    (t.modify key f).get? id = t.get? id ↔ ∀ row, t.get? id = some row → key = id → f row = row := by
  by_cases hkey : key = id
  · subst hkey
    rw [Table.get?_modify_self]
    cases t.get? key with
    | none => simp
    | some => simp
  · rw [Table.get?_modify_ne t f (Ne.symm hkey)]
    simp [hkey]

@[simp] theorem table_setTable (w : IdentityDb) (t : Identities) (kind kind' : Kind) :
    (w.setTable t kind).table kind' = if kind' = kind then t else w.table kind' := by
  cases kind <;> cases kind' <;> rfl

/-- A heartbeat or a stop leaves the row as it is just when it repeats what the row says. -/
theorem row_same_iff {w : World} {s : Step} (hs : s.op.Beats) (kind : Kind) (id : String) :
    ((step w s).store.table kind).get? id = (w.store.table kind).get? id ↔ Repeats w kind id s := by
  obtain ⟨p, op, now⟩ := s
  cases op with
  | heartbeatHost =>
    simp only [step, World.setTable, table_setTable, Repeats]
    by_cases hkind : kind = .host
    · subst hkind
      simp only [if_true, heartbeatHost, heartbeatIdentity, true_imp_iff, ← beat_eq_iff]
      exact modify_same_iff
    · simp [hkind]
  | heartbeatMonitor =>
    simp only [step, World.setTable, table_setTable, Repeats]
    by_cases hkind : kind = .monitor
    · subst hkind
      simp only [if_true, heartbeatMonitor, heartbeatIdentity, true_imp_iff, ← beat_eq_iff]
      exact modify_same_iff
    · simp [hkind]
  | stop kind' id' failed lastError =>
    have hstep : ((step w ⟨p, .stop kind' id' failed lastError, now⟩).store.table kind) =
        if kind = kind' then stopIdentity (w.store.table kind') id' failed lastError now else w.store.table kind := by
      cases kind' <;> simp only [step, World.setTable, table_setTable] <;> rfl
    rw [hstep]
    simp only [Repeats, eq_comm (a := kind')]
    by_cases hkind : kind = kind'
    · subst hkind
      simp only [if_true, stopIdentity, true_imp_iff, ← stop_eq_iff]
      exact modify_same_iff
    · simp [hkind]
  | heartbeatGoal i ttl =>
    have hstep : (step w ⟨p, .heartbeatGoal i ttl, now⟩).store.table kind = w.store.table kind := by
      simp only [step]
      split <;> cases kind <;> rfl
    rw [hstep]
    exact iff_of_true rfl fun _ _ => trivial
  | register => exact absurd hs (fun h => h)
  | acquireGoal => exact absurd hs (fun h => h)
  | releaseGoal => exact absurd hs (fun h => h)
  | work => exact absurd hs (fun h => h)

theorem held_lease_kept {w : World} (hw : Granted w) {s : Step} (hs : s.op.Beats) {q : Nat} (hpq : s.process ≠ q)
    {goalId : String} {lease : GoalLease} (hq : w.Holds q goalId lease) :
    (step w s).store.leases.get? goalId = some lease := by
  obtain ⟨p, op, now⟩ := s
  cases op with
  | heartbeatHost => exact hq.1
  | heartbeatMonitor => exact hq.1
  | stop kind => cases kind <;> exact hq.1
  | heartbeatGoal i ttl =>
    simp only [step]
    split
    next claim heq => exact lease_untouched hw hpq (List.mem_of_getElem? heq) hq ttl now
    · exact hq.1
  | register => exact absurd hs (fun h => h)
  | acquireGoal => exact absurd hs (fun h => h)
  | releaseGoal => exact absurd hs (fun h => h)
  | work => exact absurd hs (fun h => h)

/-- **After a takeover, the row is safe from the first process just as long as its heartbeats and stops repeat what the
row says.** The leases are safe in any case. -/
theorem identity_fenced_iff {moves : List Step} {p q : Nat} (hpq : p ≠ q) (kind : Kind) (id : String) :
    IdentityFenced moves p q kind id ↔ ∀ before s after, moves = before ++ s :: after →
      Replaced p q kind id before → s.process = p → s.op.Beats → Repeats (runOf before) kind id s := by
  constructor
  · intro h before s after hm hr hp hs
    exact (row_same_iff hs kind id).mp (h before s after hm hr hp hs).1
  · intro h before s after hm hr hp hs
    refine ⟨(row_same_iff hs kind id).mpr (h before s after hm hr hp hs), fun goalId lease hq => ?_⟩
    exact held_lease_kept (runOf_granted before) hs (by rw [hp]; exact hpq) hq

/-! ## A paused process -/

/-- Process 2 takes the identity over at 20, and process 1 goes on. -/
def resumedHost : List Step :=
  [⟨1, .register .host "host-1" 10 "", 0⟩, ⟨2, .register .host "host-1" 10 "", 20⟩,
    ⟨1, .heartbeatHost "host-1" 3 .running none, 21⟩]

theorem resumedHost_replaced : Replaced 1 2 .host "host-1" (resumedHost.take 2) :=
  ⟨resumedHost.take 1, ⟨2, .register .host "host-1" 10 "", 20⟩, [], rfl,
    ⟨rfl, ⟨10, "", rfl⟩, ⟨_, rfl, rfl, rfl⟩, ⟨_, rfl, rfl⟩⟩, nofun⟩

theorem identity_fenced_paused : (1 : Nat) ≠ 2 ∧ (IdentityFenced (resumedHost.take 2) 1 2 .host "host-1" ↔
    ∀ before s after, resumedHost.take 2 = before ++ s :: after → Replaced 1 2 .host "host-1" before → s.process = 1 →
      s.op.Beats → Repeats (runOf before) .host "host-1" s) :=
  ⟨by decide, identity_fenced_iff (by decide) .host "host-1"⟩

theorem resumed_host_overwrites : ¬ IdentityFenced resumedHost 1 2 .host "host-1" := by
  intro h
  have hrow := (h (resumedHost.take 2) ⟨1, .heartbeatHost "host-1" 3 .running none, 21⟩ [] rfl resumedHost_replaced rfl
    trivial).1
  have hstate : (((runOf (resumedHost.take 2)).store.hosts.get? "host-1").map (·.state)) = some .starting := by decide
  have hlater : (((runOf resumedHost).store.hosts.get? "host-1").map (·.state)) = some .running := by decide
  have hsame : (runOf resumedHost).store.hosts.get? "host-1" =
      (runOf (resumedHost.take 2)).store.hosts.get? "host-1" := hrow
  rw [hsame, hstate] at hlater
  cases hlater

/-! ## Refinement -/

/-- A move of the store that `Host.lean` sees: a call at some time, or a transaction on other tables. -/
inductive HostMove where
  | call (now : Nat) (c : HostCall)
  | work (db : Db)

/-- The move that a step makes; monitors make none. -/
def moveOf (w : World) (s : Step) : Option HostMove :=
  match s.op with
  | .register .host id staleAfter _ => some (.call s.now (.register id s.process staleAfter))
  | .heartbeatHost hostId _ state _ => some (.call s.now (.setHost hostId state))
  | .stop .host id failed _ => some (.call s.now (.setHost id (stoppedState failed)))
  | .acquireGoal goalId hostId ttl => some (.call s.now (.tryAcquire goalId hostId ttl))
  | .heartbeatGoal i ttl => (w.claims s.process)[i]?.map fun claim => .call s.now (.heartbeat claim ttl)
  | .releaseGoal i lost => (w.claims s.process)[i]?.map fun claim => .call s.now (.release claim lost)
  | .work db => some (.work db)
  | .register .monitor .. | .heartbeatMonitor .. | .stop .monitor .. => none

def movesOf (w : World) : List Step → List HostMove
  | [] => []
  | s :: steps => (moveOf w s).toList ++ movesOf (step w s) steps

variable (dg : Digests) (env : Environment)

def HostMove.apply (w : HostDb) : HostMove → HostDb
  | .call now c => (hostAct dg w { env with now := now } c).2
  | .work db => { w with db := db }

theorem registerHost_error {w : IdentityDb} {hostId : String} {processId staleAfter : Nat}
    {metadata : String} {now : Nat}
    {e : StoreError} (h : registerHost w.hosts hostId processId staleAfter metadata now = .error e) :
    ∃ e', Autonomy.registerHost w.view hostId processId staleAfter now = .error e' := by
  cases hop : Autonomy.registerHost w.view hostId processId staleAfter now with
  | error e' => exact ⟨e', rfl⟩
  | ok p =>
    simp only [Autonomy.registerHost, bind_eq_ok, ensure_eq_ok, exists_const, pure_eq_ok] at hop
    obtain ⟨hid, hpid, hstale, huse, -⟩ := hop
    have huse' : ((w.hosts.get? hostId).any (·.inUse staleAfter now)) = false := by
      have hview : w.view.hosts.get? hostId = (w.hosts.get? hostId).map IdentityRow.host := Table.get?_mapRows _ _ _
      rw [hview, Option.any_map] at huse
      exact huse
    obtain ⟨t, ht⟩ : ∃ t, registerHost w.hosts hostId processId staleAfter metadata now = .ok t := by
      simp only [registerHost, registerIdentity, bind_eq_ok, ensure_eq_ok, exists_const, pure_eq_ok]
      exact ⟨_, hid, hpid, hstale, huse', rfl⟩
    rw [h] at ht
    cases ht

/-- A granted lease is written, and nothing else. -/
theorem tryAcquireGoal_leases {w w' : HostDb} {goalId hostId : String} {ttl now : Nat} {claim : GoalLeaseClaim}
    (h : tryAcquireGoal w goalId hostId ttl now = .ok (some claim, w')) : w' = { w with leases := w'.leases } := by
  simp only [tryAcquireGoal, bind_eq_ok, orRaise_eq_ok] at h
  obtain ⟨goal, -, h⟩ := h
  split at h
  · cases h
  simp only [bind_eq_ok, ensure_eq_ok] at h
  obtain ⟨-, -, h⟩ := h
  split at h
  · cases h
  · cases h
    rfl

/-- **One step.** What `view` shows of a step is the move that it makes. -/
theorem step_view (w : World) (s : Step) :
    (step w s).store.view = (moveOf w s).elim w.store.view (HostMove.apply dg env w.store.view) := by
  obtain ⟨p, op, now⟩ := s
  cases op with
  | register kind id staleAfter metadata =>
    cases kind with
    | monitor =>
      simp only [step, moveOf]
      split <;> rfl
    | host =>
      simp only [step, moveOf, Option.elim_some, HostMove.apply, hostAct]
      cases h : registerHost w.store.hosts id p staleAfter metadata now with
      | ok t =>
        rw [registerHost_view h]
        rfl
      | error e =>
        obtain ⟨e', he'⟩ := registerHost_error h
        rw [he']
        rfl
  | heartbeatHost hostId count state lastError => exact heartbeatHost_view w.store hostId count state lastError now
  | heartbeatMonitor => rfl
  | stop kind id failed lastError =>
    cases kind with
    | host => exact stopHost_view w.store id failed lastError now
    | monitor => rfl
  | acquireGoal goalId hostId ttl =>
    simp only [step, moveOf, Option.elim_some, HostMove.apply, hostAct]
    cases h : tryAcquireGoal w.store.view goalId hostId ttl now with
    | error e => rfl
    | ok r =>
      obtain ⟨claim, v⟩ := r
      cases claim with
      | none =>
        obtain ⟨-, hv⟩ | ⟨_, hclaim, -⟩ := tryAcquireGoal_ok h
        · rw [hv]
          rfl
        · cases hclaim
      | some claim => exact (tryAcquireGoal_leases h).symm
  | heartbeatGoal i ttl =>
    simp only [step, moveOf]
    cases (w.claims p)[i]? with
    | none => rfl
    | some claim =>
      simp only [Option.map_some, Option.elim_some, HostMove.apply, hostAct, heartbeatGoal]
      split <;> rfl
  | releaseGoal i lost =>
    simp only [step, moveOf]
    cases (w.claims p)[i]? with
    | none => rfl
    | some claim =>
      simp only [Option.map_some, Option.elim_some, HostMove.apply, hostAct, releaseGoal]
      split <;> rfl
  | work => rfl

/-- **The identities refine the hosts.** Seen through `view`, every run of processes under host and monitor identities
is a run of the calls of `Host.lean`: the bookkeeping columns and the monitors change nothing about hosts and leases. -/
theorem identities_refine_hosts (steps : List Step) :
    (runOf steps).store.view = (movesOf .initial steps).foldl (HostMove.apply dg env) HostDb.initial := by
  have hrun : ∀ (steps : List Step) (w : World), (steps.foldl step w).store.view =
      (movesOf w steps).foldl (HostMove.apply dg env) w.store.view := by
    intro steps
    induction steps with
    | nil => exact fun _ => rfl
    | cons s steps ih =>
      intro w
      rw [List.foldl_cons, ih, step_view, movesOf, List.foldl_append]
      cases moveOf w s <;> rfl
  exact hrun steps .initial

end AgentFabric.Autonomy.Identity
