import L0Worker.Supervisor.Sweeps

/-!
# One entry through a step

The account of a step from the point of view of one id: what becomes of the entry of
the id, and what is announced about it.  `EntryStep` lists the ways, with the guard of
each, and `step_entry` says that there are no others, so a property of one entry over
a run needs only the account.

The children of the entries rest on `Placed`: an entry's child is a process with the id
of the entry, so no two entries share one.
-/

namespace L0Worker.Supervisor

/-- The id an API call gives to the worker it starts. -/
def Action.newId? : Action → Option WorkerId
  | .spawnNewWorker newId _ | .restartWorker _ newId _ => some newId
  | _ => none

/-- What a step makes of the entry of `id`, and what it announces about `id`. -/
inductive EntryStep (config : PoolConfig) (id : WorkerId) (w : World) :
    Action → Option ManagedWorker → List PoolEvent → Prop where
  | untouched (a : Action) : EntryStep config id w a (w.workers.lookup id) []
  | ready {now : Instant} {source : Pid} {port : Port} {rest : List Posted}
      (hq : w.eventRx = ⟨source, .ready port id⟩ :: rest) :
      EntryStep config id w (.tryRecvEvent now)
        ((w.workers.lookup id).map fun m =>
          { m with state := .healthy, consecutiveFailures := 0, lastHealthy := some now })
        [.workerHealthy id port]
  | draining {now : Instant} {source : Pid} {rest : List Posted}
      (hq : w.eventRx = ⟨source, .draining id⟩ :: rest) :
      EntryStep config id w (.tryRecvEvent now)
        ((w.workers.lookup id).map fun m => { m with state := .draining }) [.workerDraining id]
  | drained {now : Instant} {source : Pid} {rest : List Posted}
      (hq : w.eventRx = ⟨source, .drained id⟩ :: rest) :
      EntryStep config id w (.tryRecvEvent now) (w.workers.lookup id) [.workerDrained id]
  | exited {now : Instant} {source : Pid} {code : Option Int} {rest : List Posted}
      {m : ManagedWorker} (hq : w.eventRx = ⟨source, .exited id code⟩ :: rest)
      (hm : w.workers.lookup id = some m) :
      EntryStep config id w (.tryRecvEvent now) (some (m.onExited config now id code).1)
        (m.onExited config now id code).2
  /-- A health sweep looks at entries that are starting or healthy. -/
  | checked {env : HealthEnv} {order : List WorkerId} {m : ManagedWorker} {c : Checked}
      (hm : w.workers.lookup id = some m) (hs : m.state = .healthy ∨ m.state = .starting)
      (hc : c = m.check config (env.now id) id m.worker.port (env.result id)
        (w.isRunning m.worker.child)) :
      EntryStep config id w (.checkAllHealth env order) (some c.entry) c.events
  | respawned {now : Instant} {order : List WorkerId} {spawned : WorkerId → Except String Unit}
      {m : ManagedWorker} (pid : Pid) (hm : w.workers.lookup id = some m)
      (hdue : m.isDue config now = true) (hs : spawned id = .ok ()) :
      EntryStep config id w (.processRestarts now order spawned)
        (some ⟨⟨id, m.worker.port, pid⟩, .starting, m.consecutiveFailures, 0, none⟩)
        [.workerSpawned id m.worker.port]
  /-- The spawn of a due entry failed, and the entry is gone. -/
  | lost {now : Instant} {order : List WorkerId} {spawned : WorkerId → Except String Unit}
      {m : ManagedWorker} {e : String} (hm : w.workers.lookup id = some m)
      (hdue : m.isDue config now = true) (hs : spawned id = .error e) :
      EntryStep config id w (.processRestarts now order spawned) none []
  /-- The API started a worker under the id. -/
  | added {a : Action} (port : Port) (pid : Pid) (hf : w.Fresh id) (ha : a.newId? = some id) :
      EntryStep config id w a (some ⟨⟨id, port, pid⟩, .starting, 0, 0, none⟩)
        [.workerSpawned id port]
  | drainedByApi {m : ManagedWorker} (hm : w.workers.lookup id = some m) :
      EntryStep config id w (.drainWorker id)
        (some { m with state := if w.isRunning m.worker.child then .draining else .stopped }) []
  | killedByApi {m : ManagedWorker} {killed : Bool} (hm : w.workers.lookup id = some m) :
      EntryStep config id w (.killWorker id killed) (some { m with state := .stopped }) []
  | replaced {m : ManagedWorker} {newId : WorkerId} {env : RestartEnv}
      (hm : w.workers.lookup id = some m) :
      EntryStep config id w (.restartWorker id newId env) none []
  | restartFailed {m : ManagedWorker} {newId : WorkerId} {env : RestartEnv}
      (hm : w.workers.lookup id = some m) :
      EntryStep config id w (.restartWorker id newId env)
        (some { m with
          state := .failed (env.now + config.restartDelay)
          consecutiveFailures := m.consecutiveFailures + 1 }) []

/-! ## The outcomes of an exit and of a check -/

/-- The outcomes of the `Exited` arm. -/
inductive ExitOutcome (config : PoolConfig) (now : Instant) (id : WorkerId) (code : Option Int)
    (m : ManagedWorker) : ManagedWorker × List PoolEvent → Prop where
  | settled (hp : m.exitPending = false) : ExitOutcome config now id code m (m, [])
  | stopped (hp : m.exitPending = true) : ExitOutcome config now id code m
      ({ m with state := .stopped }, [])
  | crashed (hc : code ≠ some 0) (hp : m.exitPending = true) (hs : m.state ≠ .draining)
      (reason : String) :
      ExitOutcome config now id code m
        ({ m with
            consecutiveFailures := m.consecutiveFailures + 1
            state :=
              .failed (now + calculateRestartDelay config (m.consecutiveFailures + 1).toNat) },
          [.workerUnhealthy id reason, restartingOrFailed config id (m.consecutiveFailures + 1)])

theorem ManagedWorker.onExited_outcome (config : PoolConfig) (now : Instant) (id : WorkerId)
    (code : Option Int) (m : ManagedWorker) :
    ExitOutcome config now id code m (m.onExited config now id code) := by
  unfold ManagedWorker.onExited
  cases hp : m.exitPending with
  | false => exact .settled hp
  | true =>
      rw [if_pos rfl]
      by_cases hclean : code = some 0 ∨ m.state = .draining
      · rw [if_pos hclean]
        exact .stopped hp
      · rw [if_neg hclean]
        exact .crashed (fun hc => hclean (.inl hc)) hp (fun hs => hclean (.inr hs)) _

/-- A check with this result counts a failure: the process has exited, or is to be killed. -/
structure ManagedWorker.CheckCounts (config : PoolConfig) (result : HealthCheckResult)
    (isRunning : Bool) (m : ManagedWorker) : Prop where
  failed : ∀ status, result ≠ .healthy status
  cause : isRunning = false ∧ m.exitPending = true ∨
    m.state = .healthy ∧ m.consecutiveUnhealthy + 1 ≥ config.maxUnhealthyChecks

/-- The outcomes of a health check. -/
inductive CheckOutcome (config : PoolConfig) (now : Instant) (id : WorkerId) (port : Port)
    (result : HealthCheckResult) (isRunning : Bool) (m : ManagedWorker) : Checked → Prop where
  | passed : CheckOutcome config now id port result isRunning m (m.checkHealthy now id port)
  /-- The check failed, and the entry is left to itself. -/
  | tolerated (n : Nat) : CheckOutcome config now id port result isRunning m
      ⟨{ m with consecutiveUnhealthy := n }, [], false⟩
  /-- The check failed, and the worker is to be restarted or given up. -/
  | failed (hcounts : m.CheckCounts config result isRunning) (reason : String) (kill : Bool) :
      CheckOutcome config now id port result isRunning m
        ⟨(m.scheduleRestart config now id reason).1, (m.scheduleRestart config now id reason).2,
          kill⟩

theorem ManagedWorker.checkFailed_outcome (config : PoolConfig) (now : Instant) (id : WorkerId)
    (port : Port) {result : HealthCheckResult} (hfailed : ∀ status, result ≠ .healthy status)
    (isRunning : Bool) (reason : String) (m : ManagedWorker) :
    CheckOutcome config now id port result isRunning m
      (m.checkFailed config now id isRunning reason) := by
  unfold ManagedWorker.checkFailed
  split
  next hexited =>
    rw [Bool.and_eq_true, Bool.not_eq_true'] at hexited
    exact .failed ⟨hfailed, .inl hexited⟩ _ false
  next =>
    split
    next hhealthy =>
      rw [Bool.and_eq_true, beq_iff_eq] at hhealthy
      dsimp only
      split
      next hmany => exact .failed ⟨hfailed, .inr ⟨hhealthy.2, hmany⟩⟩ _ true
      next => exact .tolerated _
    next => exact .tolerated m.consecutiveUnhealthy

theorem ManagedWorker.check_outcome (config : PoolConfig) (now : Instant) (id : WorkerId)
    (port : Port) (result : HealthCheckResult) (isRunning : Bool) (m : ManagedWorker) :
    CheckOutcome config now id port result isRunning m
      (m.check config now id port result isRunning) := by
  cases result with
  | healthy status => exact .passed
  | unhealthy reason =>
      refine m.checkFailed_outcome config now id port (fun _ => ?_) isRunning reason
      exact HealthCheckResult.noConfusion
  | unreachable reason =>
      refine m.checkFailed_outcome config now id port (fun _ => ?_) isRunning reason
      exact HealthCheckResult.noConfusion

theorem CheckOutcome.of_check {config : PoolConfig} {now : Instant} {id : WorkerId} {port : Port}
    {result : HealthCheckResult} {isRunning : Bool} {m : ManagedWorker} {c : Checked}
    (h : c = m.check config now id port result isRunning) :
    CheckOutcome config now id port result isRunning m c :=
  h ▸ m.check_outcome config now id port result isRunning

/-! ## Entries and their processes -/

/-- The child of an entry is a process with the id of the entry. -/
def Placed (w : World) : Prop :=
  ∀ id k, w.workerOf id = some k → ∃ p, w.procs[k.child]? = some p ∧ p.workerId = id

namespace Placed

variable {config : PoolConfig} {w w' : World}

/-- Entries have different children. -/
theorem child_ne (h : Placed w) {id id' : WorkerId} {k k' : Worker} (hk : w.workerOf id = some k)
    (hk' : w.workerOf id' = some k') (hne : id ≠ id') : k.child ≠ k'.child := by
  intro hc
  obtain ⟨p, hp, hid⟩ := h id k hk
  obtain ⟨p', hp', hid'⟩ := h id' k' hk'
  rw [hc, hp'] at hp
  obtain rfl := Option.some.inj hp
  exact hne (hid.symm.trans hid')

theorem ownChildren (h : Placed w) : OwnChildren w where
  spawned hk := by
    obtain ⟨p, hp, -⟩ := h _ _ hk
    exact (List.getElem?_eq_some_iff.mp hp).1
  distinct hk hk' hc := by
    by_contra hne
    exact h.child_ne hk hk' hne hc

theorem keeps (h : Placed w) (hk : Keeps w w') : Placed w' := by
  intro id k hid
  rw [hk.workerOf] at hid
  obtain ⟨p, hp, hpid⟩ := h id k hid
  obtain ⟨p', hp', hages⟩ := hk.proc_exists' hp
  exact ⟨p', hp', hages.workerId.trans hpid⟩

theorem erase (h : Placed w) (id : WorkerId) :
    Placed { w with workers := w.workers.erase id } := by
  intro id' k hk
  exact h id' k (World.workerOf_of_erase rfl hk)

/-- A spawn puts the new process where the new entry points to. -/
theorem spawn (h : Placed w) (id : WorkerId) (port : Port) {m : ManagedWorker}
    (hm : m.worker.child = w.procs.length) :
    Placed { w with
      procs := w.procs ++ [⟨id, port, .running, []⟩]
      workers := w.workers.insert id m } := by
  intro id' k hk
  rcases World.workerOf_of_insert (w := w) rfl hk with ⟨rfl, rfl⟩ | hk
  · exact ⟨⟨id', port, .running, []⟩, by simp [hm], rfl⟩
  · obtain ⟨p, hp, hpid⟩ := h id' k hk
    have hlt := (List.getElem?_eq_some_iff.mp hp).1
    exact ⟨p, (List.getElem?_append_left hlt).trans hp, hpid⟩

theorem change (h : Placed w) (hc : Change w w') : Placed w' := by
  cases hc with
  | keeps hk => exact h.keeps hk
  | erase id => exact h.erase id
  | spawn id port hm => exact h.spawn id port (congrArg Worker.child hm)

theorem step {a : Action} {out : List PoolEvent} (h : Placed w)
    (hstep : (system config).step w a = some (w', out)) : Placed w' :=
  (step_changes hstep).invariant (fun _ _ hu hc => hu.change hc) h

end Placed

theorem World.startOne_placed {config : PoolConfig} {w : World} (h : Placed w)
    (next : WorkerId × Nat) : Placed (w.startOne config next).1 :=
  h.spawn next.1 (config.basePort + UInt16.ofNat next.2) rfl

theorem World.start_placed (config : PoolConfig) {w₀ : World} (hnew : World.new config = some w₀)
    (ids : List WorkerId) : Placed (w₀.start config ids).1 := by
  obtain rfl := World.new_eq_some hnew
  exact forEach_rec (I := fun _ u => Placed u) (fun next _ u hu => World.startOne_placed hu next)
    fun _ _ h => by simp [World.workerOf] at h

theorem Reachable.placed {config : PoolConfig} {w : World} (h : Reachable config w) : Placed w := by
  obtain ⟨w₁, as, out, ⟨w₀, ids, hnew, -, -, rfl⟩, hrun⟩ := h
  exact (system config).run_invariant (fun _ _ _ _ hu hs => hu.step hs)
    (World.start_placed config hnew ids) hrun

/-! ## Events that name an id -/

theorem named_append (id : WorkerId) (out out' : List PoolEvent) :
    named id (out ++ out') = named id out ++ named id out' :=
  outputsOf_append id out out'

theorem named_eq_self {id : WorkerId} {out : List PoolEvent}
    (h : ∀ e ∈ out, e.workerId? = some id) : named id out = out :=
  outputsOf_eq_self h

theorem named_eq_nil {id : WorkerId} {out : List PoolEvent}
    (h : ∀ e ∈ out, e.workerId? ≠ some id) : named id out = [] :=
  outputsOf_eq_nil h

theorem Untouched.named {id : WorkerId} {w w' : World} {out : List PoolEvent}
    (h : Untouched id w w' out) : Supervisor.named id out = [] :=
  named_eq_nil h.events

theorem Untouched.entryStep {config : PoolConfig} {id : WorkerId} {w w' : World}
    {out : List PoolEvent} (h : Untouched id w w' out) (a : Action) :
    EntryStep config id w a (w'.workers.lookup id) (Supervisor.named id out) := by
  rw [h.lookup, h.named]
  exact .untouched a

/-! ## The account of a step -/

/-- A health sweep does at an entry what one check does. -/
theorem World.checkAllHealth_at (config : PoolConfig) (env : HealthEnv) {order : List WorkerId}
    {w : World} (hp : Placed w) (hl : w.workers.Lists order) {id : WorkerId} {m : ManagedWorker}
    (hm : w.workers.lookup id = some m) (hs : m.state = .healthy ∨ m.state = .starting) :
    (w.checkAllHealth config env order).1.workers.lookup id =
        some (m.check config (env.now id) id m.worker.port (env.result id)
          (w.isRunning m.worker.child)).entry ∧
      named id (w.checkAllHealth config env order).2 =
        (m.check config (env.now id) id m.worker.port (env.result id)
          (w.isRunning m.worker.child)).events := by
  obtain ⟨hentry, hevents⟩ := World.checkAllHealth_entryOf config env hp.ownChildren hl hm hs
  rw [World.lookup_eq_entryOf, hentry, hevents, World.isRunning_eq_any]
  exact ⟨rfl, rfl⟩

theorem World.checkAllHealth_untouched_of_inactive {config : PoolConfig} (env : HealthEnv)
    (order : List WorkerId) {w : World} {id : WorkerId}
    (h : ¬ ∃ m, w.workers.lookup id = some m ∧ (m.state = .healthy ∨ m.state = .starting)) :
    Untouched id w (w.checkAllHealth config env order).1 (w.checkAllHealth config env order).2 := by
  refine World.checkAllHealth_untouched config env order ?_
  intro m hm
  exact ⟨fun hs => h ⟨m, hm, .inl hs⟩, fun hs => h ⟨m, hm, .inr hs⟩⟩

theorem World.checkAllHealth_entryStep {config : PoolConfig} (env : HealthEnv)
    {order : List WorkerId} {w : World} (hp : Placed w) (hl : w.workers.Lists order)
    (id : WorkerId) :
    EntryStep config id w (.checkAllHealth env order)
      ((w.checkAllHealth config env order).1.workers.lookup id)
      (named id (w.checkAllHealth config env order).2) := by
  by_cases hactive : ∃ m, w.workers.lookup id = some m ∧ (m.state = .healthy ∨ m.state = .starting)
  · obtain ⟨m, hm, hs⟩ := hactive
    obtain ⟨hentry, hevents⟩ := World.checkAllHealth_at config env hp hl hm hs
    rw [hentry, hevents]
    exact .checked hm hs rfl
  · exact (World.checkAllHealth_untouched_of_inactive env order hactive).entryStep _

theorem World.processRestarts_entryStep (config : PoolConfig) (now : Instant)
    {order : List WorkerId} (spawned : WorkerId → Except String Unit) {w : World}
    (hl : w.workers.Lists order) (id : WorkerId) :
    EntryStep config id w (.processRestarts now order spawned)
      ((w.processRestarts config now order spawned).1.workers.lookup id)
      (named id (w.processRestarts config now order spawned).2) := by
  by_cases hdue : w.DueAt config now id
  case neg => exact (World.processRestarts_untouched hdue).entryStep _
  obtain ⟨m, hm, hd⟩ := hdue
  obtain ⟨w₁, hentry, hevents⟩ := World.processRestarts_at spawned hl hm hd
  rw [hentry, hevents]
  cases hs : spawned id with
  | error e =>
      rw [World.restartOne_error hs, Finmap.lookup_erase]
      exact .lost hm hd hs
  | ok u =>
      rw [World.restartOne_ok hs, Finmap.lookup_modify, Finmap.lookup_insert]
      exact .respawned w₁.procs.length hm hd hs

/-- A worker event is about the entry it names. -/
theorem World.tryRecvEvent_entryStep (config : PoolConfig) (now : Instant) (w : World)
    (id : WorkerId) :
    EntryStep config id w (.tryRecvEvent now) ((w.tryRecvEvent config now).1.workers.lookup id)
      (named id (w.tryRecvEvent config now).2) := by
  unfold World.tryRecvEvent
  cases hq : w.eventRx with
  | nil => exact (Untouched.refl id w).entryStep _
  | cons e rest =>
      obtain ⟨source, event⟩ := e
      dsimp only
      by_cases hid : event.workerId? = some id
      case neg =>
        have hu := World.handleWorkerEvent_untouched config now { w with eventRx := rest } hid
        rw [hu.lookup, hu.named]
        exact .untouched _
      cases event with
      | ready port id' =>
          obtain rfl := Option.some.inj hid
          simp only [World.handleWorkerEvent, Finmap.lookup_modify]
          have hnamed : ∀ all : Bool, named id' (.workerHealthy id' port ::
              if all then [.allWorkersHealthy] else []) = [.workerHealthy id' port] := by
            intro all
            cases all <;> simp [named, outputsOf, PoolEvent.workerId?]
          rw [hnamed]
          exact .ready hq
      | draining id' =>
          obtain rfl := Option.some.inj hid
          simp only [World.handleWorkerEvent, Finmap.lookup_modify]
          rw [named_eq_self (List.forall_mem_singleton.mpr rfl)]
          exact .draining hq
      | drained id' =>
          obtain rfl := Option.some.inj hid
          simp only [World.handleWorkerEvent]
          rw [named_eq_self (List.forall_mem_singleton.mpr rfl)]
          exact .drained hq
      | exited id' code =>
          obtain rfl := Option.some.inj hid
          simp only [World.handleWorkerEvent]
          cases hm : w.workers.lookup id' with
          | none =>
              dsimp only
              rw [hm]
              have hnone : EntryStep config id' w (.tryRecvEvent now) (w.workers.lookup id') [] :=
                .untouched (.tryRecvEvent now)
              rwa [hm] at hnone
          | some m =>
              dsimp only
              rw [Finmap.lookup_insert, named_eq_self ManagedWorker.onExited_events]
              exact .exited hq hm
      | stdout line => cases hid
      | stderr line => cases hid

theorem World.Fresh.lookup {w : World} {id : WorkerId} (h : w.Fresh id) :
    w.workers.lookup id = none :=
  Finmap.lookup_eq_none.mpr h.1

theorem World.spawnNewWorker_entryStep (config : PoolConfig) {w : World} {newId : WorkerId}
    (hf : w.Fresh newId) (outcome : Except String Unit) (id : WorkerId) :
    EntryStep config id w (.spawnNewWorker newId outcome)
      ((w.spawnNewWorker config newId outcome).2.1.workers.lookup id)
      (named id (w.spawnNewWorker config newId outcome).2.2) := by
  by_cases hid : id = newId
  case neg => exact (World.spawnNewWorker_untouched hid).entryStep _
  subst hid
  rcases w.spawnNewWorker_cases config id outcome with heq | ⟨port, -, heq⟩
  · rw [heq]
    exact (Untouched.refl id w).entryStep _
  · rw [heq, Finmap.lookup_insert, named_eq_self (List.forall_mem_singleton.mpr rfl)]
    exact .added port w.procs.length hf rfl

theorem World.drainWorker_entryStep (config : PoolConfig) (w : World) (id' id : WorkerId) :
    EntryStep config id w (.drainWorker id') ((w.drainWorker id').2.workers.lookup id) [] := by
  by_cases hid : id = id'
  case neg => exact (World.drainWorker_untouched hid).entryStep _
  subst hid
  unfold World.drainWorker
  cases hm : w.workers.lookup id with
  | none => exact (Untouched.refl id w).entryStep _
  | some m =>
      dsimp only
      rw [Finmap.lookup_insert]
      exact .drainedByApi hm

theorem World.killWorker_entryStep (config : PoolConfig) (w : World) (id' : WorkerId)
    (killed : Bool) (id : WorkerId) :
    EntryStep config id w (.killWorker id' killed) ((w.killWorker id' killed).2.workers.lookup id)
      [] := by
  by_cases hid : id = id'
  case neg => exact (World.killWorker_untouched hid).entryStep _
  subst hid
  unfold World.killWorker
  cases hm : w.workers.lookup id with
  | none => exact (Untouched.refl id w).entryStep _
  | some m =>
      dsimp only
      rw [Finmap.lookup_insert]
      exact .killedByApi hm

theorem World.restartWorker_entryStep (config : PoolConfig) {w : World} (id' : WorkerId)
    {newId : WorkerId} (hf : w.Fresh newId) (env : RestartEnv) (id : WorkerId) :
    EntryStep config id w (.restartWorker id' newId env)
      ((w.restartWorker config id' newId env).2.1.workers.lookup id)
      (named id (w.restartWorker config id' newId env).2.2) := by
  by_cases hid : id = id' ∨ id = newId
  case neg =>
    rw [not_or] at hid
    exact (World.restartWorker_untouched hid.1 hid.2).entryStep _
  cases w.restartWorker_cases config id' newId env with
  | notFound hm heq =>
      rw [heq]
      exact (Untouched.refl id w).entryStep _
  | @failed m w₁ e hm hw₁ heq =>
      rw [heq]
      by_cases hid' : id = id'
      · subst hid'
        rw [Finmap.lookup_modify, hw₁.workers, hm]
        exact .restartFailed hm
      · rw [Finmap.lookup_modify_of_ne _ _ hid', hw₁.workers]
        exact .untouched _
  | @replaced m w₁ hm hw₁ heq =>
      rw [heq]
      have hne : newId ≠ id' := by
        rintro rfl
        rw [hf.lookup] at hm
        cases hm
      by_cases hid' : id = id'
      · subst hid'
        have hnamed : named id [.workerSpawned newId m.worker.port] = [] :=
          named_eq_nil (List.forall_mem_singleton.mpr fun h => hne (Option.some.inj h))
        rw [Finmap.lookup_erase, hnamed]
        exact .replaced hm
      · obtain rfl := hid.resolve_left hid'
        rw [Finmap.lookup_erase_ne hid', Finmap.lookup_insert,
          named_eq_self (List.forall_mem_singleton.mpr rfl)]
        exact .added m.worker.port w₁.procs.length hf rfl

/-- What a step does to the entry of an id and announces about it. -/
theorem step_entry {config : PoolConfig} {w w' : World} {a : Action} {out : List PoolEvent}
    (hp : Placed w) (hstep : (system config).step w a = some (w', out)) (id : WorkerId) :
    EntryStep config id w a (w'.workers.lookup id) (named id out) := by
  cases poolStep hstep with
  | tryRecvEvent now => exact World.tryRecvEvent_entryStep config now w id
  | checkAllHealth env hl => exact World.checkAllHealth_entryStep env hp hl id
  | processRestarts now spawned hl =>
      exact World.processRestarts_entryStep config now spawned hl id
  | spawnNewWorker spawned hf => exact World.spawnNewWorker_entryStep config hf spawned id
  | drainWorker id' => exact World.drainWorker_entryStep config w id' id
  | killWorker id' killed => exact World.killWorker_entryStep config w id' killed id
  | restartWorker id' env hf => exact World.restartWorker_entryStep config id' hf env id
  | outside ha hk hworkers =>
      rw [hworkers]
      exact .untouched a

end L0Worker.Supervisor
