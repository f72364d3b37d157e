import L0Worker.Lib.Loop
import L0Worker.Supervisor.Basic

/-!
# The pool

The functions of `WorkerPool` in `pool.rs`, one definition each.  What a
function awaits and cannot decide itself is an argument: whether a process
spawn succeeds, what a health check returns, how a wait ends, what the clock
says, in which order the hash map is iterated.  A function returns the new
world together with the pool events it sends, in order.

Every function runs under the write lock of the pool, so it is one step of the
system.  What processes and reader tasks do meanwhile commutes with it: a
function looks at each process once, and only appends to the event channel.
-/

namespace L0Worker.Supervisor

/-! ## Processes -/

/-- `Worker::is_running`. -/
def World.isRunning (w : World) (pid : Pid) : Bool :=
  match w.procs[pid]? with
  | some p => decide p.Running
  | none => false

/-- The process ends with the given code, if it runs. -/
def World.endProcess (w : World) (pid : Pid) (code : Option Int) : World :=
  { w with procs := w.procs.modify pid (Process.ended code) }

/-- Post an event, if the channel has a place for it. -/
def World.post (w : World) (e : Posted) : World :=
  if w.eventRx.length < eventCapacity then { w with eventRx := w.eventRx ++ [e] } else w

/-- `Worker::kill`: when it succeeds, the process was ended by a signal. -/
def World.kill (w : World) (pid : Pid) (killed : Bool) : World :=
  if killed then w.endProcess pid none else w

/-! ## Creating the pool -/

/-- `WorkerPool::new`.  `none` is a panic. -/
def World.new (config : PoolConfig) : Option World :=
  let pool : World := { workers := ∅, eventRx := [], procs := [] }
  if config.workerCount > 0 then
    match checkedAdd config.basePort (UInt16.ofNat (config.workerCount - 1)) with
    | none => none
    | some highestPort => if highestPort ≤ config.maxPort then some pool else none
  else if config.basePort ≤ config.maxPort then some pool else none

/-- `WorkerPool::spawn_worker`.  The argument `spawned` is the outcome of
`Worker::spawn`, an error text where it fails. -/
def World.spawnWorker (w : World) (workerId : WorkerId) (port : Port)
    (spawned : Except String Unit) : Except String (World × List PoolEvent) :=
  match spawned with
  | .error e => .error e
  | .ok () =>
      let pid := w.procs.length
      .ok ({ w with
              procs := w.procs ++ [⟨workerId, port, .running, []⟩]
              workers := w.workers.insert workerId
                { worker := ⟨workerId, port, pid⟩
                  state := .starting
                  consecutiveFailures := 0
                  consecutiveUnhealthy := 0
                  lastHealthy := none } },
        [.workerSpawned workerId port])

/-- One iteration of the loop of `WorkerPool::start`, with an id the UUID
generator yields and the index `i`.  The addition is `u16` and wraps, as in a
release build. -/
def World.startOne (config : PoolConfig) (w : World) (next : WorkerId × Nat) :
    World × List PoolEvent :=
  match w.spawnWorker next.1 (config.basePort + UInt16.ofNat next.2) (.ok ()) with
  | .error _ => (w, [])
  | .ok r => r

/-- `WorkerPool::start` where every spawn succeeds.  Where one fails, the
supervisor exits. -/
def World.start (config : PoolConfig) (w : World) (workerIds : List WorkerId) :
    World × List PoolEvent :=
  forEach (World.startOne config) w workerIds.zipIdx

/-! ## Restart delay -/

/-- `WorkerPool::calculate_restart_delay_static`. -/
def calculateRestartDelay (config : PoolConfig) (failures : Nat) : Nat :=
  let baseMs := config.restartDelay % 2 ^ 64
  let maxMs := config.maxRestartDelay % 2 ^ 64
  let delayMs := ((checkedPow 2 (failures - 1)).bind (checkedMul baseMs)).getD maxMs
  min delayMs maxMs

/-! ## Worker events -/

/-- `WorkerPool::all_workers_healthy`. -/
def World.allWorkersHealthy (w : World) : Bool :=
  decide (∀ id ∈ w.workers.keys, ∀ m ∈ w.workers.lookup id, m.state = .healthy)

/-- `{:?}` of an exit code. -/
def debugExitCode : Option Int → String
  | some code => "Some(" ++ toString code ++ ")"
  | none => "None"

/-- What the pool announces after a failure was counted. -/
def restartingOrFailed (config : PoolConfig) (workerId : WorkerId) (failures : UInt32) :
    PoolEvent :=
  if failures ≤ config.maxConsecutiveFailures then .workerRestarting workerId failures
  else .workerFailed workerId

/-- The entry is still to be processed when its process is seen to have exited. -/
def ManagedWorker.exitPending (m : ManagedWorker) : Bool :=
  m.state != .stopped && !m.state.isFailed

/-- The `Exited` arm of `handle_worker_event` for the entry found: the new entry
and the events to send. -/
def ManagedWorker.onExited (config : PoolConfig) (now : Instant) (workerId : WorkerId)
    (exitCode : Option Int) (m : ManagedWorker) : ManagedWorker × List PoolEvent :=
  if m.exitPending then
    -- a clean exit, or the exit of a draining worker
    if exitCode = some 0 ∨ m.state = .draining then
      ({ m with state := .stopped }, [])
    else
      let failures := m.consecutiveFailures + 1
      let delay := calculateRestartDelay config failures.toNat
      ({ m with consecutiveFailures := failures, state := .failed (now + delay) },
        [.workerUnhealthy workerId ("Exit code: " ++ debugExitCode exitCode),
          restartingOrFailed config workerId failures])
  else (m, [])

/-- `WorkerPool::handle_worker_event`. -/
def World.handleWorkerEvent (config : PoolConfig) (now : Instant) (w : World) :
    WorkerEvent → World × List PoolEvent
  | .ready port workerId =>
      let w' := { w with workers := w.workers.modify workerId fun m =>
        { m with state := .healthy, consecutiveFailures := 0, lastHealthy := some now } }
      (w', .workerHealthy workerId port ::
        if w'.allWorkersHealthy then [.allWorkersHealthy] else [])
  | .draining workerId =>
      ({ w with workers := w.workers.modify workerId fun m => { m with state := .draining } },
        [.workerDraining workerId])
  | .drained workerId => (w, [.workerDrained workerId])
  | .exited workerId exitCode =>
      match w.workers.lookup workerId with
      | some m =>
          let r := m.onExited config now workerId exitCode
          ({ w with workers := w.workers.insert workerId r.1 }, r.2)
      | none => (w, [])
  | .stdout _ | .stderr _ => (w, [])

/-- `WorkerPool::try_recv_event`. -/
def World.tryRecvEvent (config : PoolConfig) (now : Instant) (w : World) :
    World × List PoolEvent :=
  match w.eventRx with
  | [] => (w, [])
  | e :: rest => { w with eventRx := rest }.handleWorkerEvent config now e.event

/-! ## Health checks -/

/-- What a health sweep meets: the result of each check, the clock at each
worker, and whether a kill succeeds. -/
structure HealthEnv where
  /-- The result of the check of a worker's port. -/
  result : WorkerId → HealthCheckResult
  /-- The clock when a worker is looked at. -/
  now : WorkerId → Instant
  /-- Whether killing a worker succeeds. -/
  killed : WorkerId → Bool

/-- What a failed check that counts as a failure does to the entry, and what it
announces: restart with a delay, or give up.  The two branches of
`check_all_health` that schedule a restart share this code. -/
def ManagedWorker.scheduleRestart (config : PoolConfig) (now : Instant) (workerId : WorkerId)
    (reason : String) (m : ManagedWorker) : ManagedWorker × List PoolEvent :=
  let failures := m.consecutiveFailures + 1
  let delay := calculateRestartDelay config failures.toNat
  let state :=
    if failures ≤ config.maxConsecutiveFailures then .failed (now + delay) else .stopped
  ({ m with consecutiveFailures := failures, consecutiveUnhealthy := 0, state := state },
    [.workerUnhealthy workerId reason, restartingOrFailed config workerId failures])

/-- The outcome of one iteration of the health sweep. -/
structure Checked where
  entry : ManagedWorker
  events : List PoolEvent
  /-- Whether the process is to be killed. -/
  kill : Bool

/-- A successful check. -/
def ManagedWorker.checkHealthy (now : Instant) (workerId : WorkerId) (port : Port)
    (m : ManagedWorker) : Checked :=
  if m.state = .starting then
    ⟨{ m with consecutiveUnhealthy := 0, state := .healthy, lastHealthy := some now },
      [.workerHealthy workerId port], false⟩
  else
    ⟨{ m with consecutiveUnhealthy := 0, lastHealthy := some now }, [], false⟩

section Healthy

variable (now : Instant) (workerId : WorkerId) (port : Port) (m : ManagedWorker)

@[simp] theorem ManagedWorker.checkHealthy_worker :
    (m.checkHealthy now workerId port).entry.worker = m.worker := by
  unfold ManagedWorker.checkHealthy
  split <;> rfl

@[simp] theorem ManagedWorker.checkHealthy_consecutiveFailures :
    (m.checkHealthy now workerId port).entry.consecutiveFailures = m.consecutiveFailures := by
  unfold ManagedWorker.checkHealthy
  split <;> rfl

@[simp] theorem ManagedWorker.checkHealthy_consecutiveUnhealthy :
    (m.checkHealthy now workerId port).entry.consecutiveUnhealthy = 0 := by
  unfold ManagedWorker.checkHealthy
  split <;> rfl

@[simp] theorem ManagedWorker.checkHealthy_kill :
    (m.checkHealthy now workerId port).kill = false := by
  unfold ManagedWorker.checkHealthy
  split <;> rfl

theorem ManagedWorker.checkHealthy_events :
    (m.checkHealthy now workerId port).events =
      if m.state = .starting then [.workerHealthy workerId port] else [] := by
  unfold ManagedWorker.checkHealthy
  split <;> rfl

/-- A worker that a sweep looks at is healthy afterwards. -/
theorem ManagedWorker.checkHealthy_state (h : m.state = .healthy ∨ m.state = .starting) :
    (m.checkHealthy now workerId port).entry.state = .healthy := by
  unfold ManagedWorker.checkHealthy
  split
  · rfl
  · next hstart => exact h.resolve_right hstart

end Healthy

/-- A failed check. -/
def ManagedWorker.checkFailed (config : PoolConfig) (now : Instant) (workerId : WorkerId)
    (isRunning : Bool) (reason : String) (m : ManagedWorker) : Checked :=
  if !isRunning && m.exitPending then
    let r := m.scheduleRestart config now workerId "Process exited unexpectedly"
    ⟨r.1, r.2, false⟩
  else if isRunning && m.state == .healthy then
    let m' := { m with consecutiveUnhealthy := m.consecutiveUnhealthy + 1 }
    if m'.consecutiveUnhealthy ≥ config.maxUnhealthyChecks then
      let r := m'.scheduleRestart config now workerId
        ("Exceeded " ++ toString config.maxUnhealthyChecks ++ " consecutive unhealthy checks: "
          ++ reason)
      ⟨r.1, r.2, true⟩
    else ⟨m', [], false⟩
  else ⟨m, [], false⟩

/-- One iteration of the health sweep for the entry found. -/
def ManagedWorker.check (config : PoolConfig) (now : Instant) (workerId : WorkerId)
    (port : Port) (result : HealthCheckResult) (isRunning : Bool) (m : ManagedWorker) : Checked :=
  match result with
  | .healthy _ => m.checkHealthy now workerId port
  | .unhealthy reason | .unreachable reason =>
      m.checkFailed config now workerId isRunning reason

/-- One iteration of `check_all_health`. -/
def World.checkOne (config : PoolConfig) (env : HealthEnv) (w : World)
    (target : WorkerId × Port) : World × List PoolEvent :=
  match w.workers.lookup target.1 with
  | none => (w, [])
  | some m =>
      let c := m.check config (env.now target.1) target.1 target.2 (env.result target.1)
        (w.isRunning m.worker.child)
      let w' := if c.kill then w.kill m.worker.child (env.killed target.1) else w
      ({ w' with workers := w'.workers.insert target.1 c.entry }, c.events)

/-- The workers a health sweep looks at, in the order of the map. -/
def World.checkTargets (w : World) (order : List WorkerId) : List (WorkerId × Port) :=
  order.filterMap fun id =>
    match w.workers.lookup id with
    | some m =>
        if m.state = .healthy ∨ m.state = .starting then some (id, m.worker.port) else none
    | none => none

/-- `WorkerPool::check_all_health`. -/
def World.checkAllHealth (config : PoolConfig) (env : HealthEnv) (order : List WorkerId)
    (w : World) : World × List PoolEvent :=
  forEach (World.checkOne config env) w (w.checkTargets order)

/-! ## Restarts -/

/-- The entry is due for its restart. -/
def ManagedWorker.isDue (config : PoolConfig) (now : Instant) (m : ManagedWorker) : Bool :=
  match m.state with
  | .failed restartAt =>
      decide (restartAt ≤ now) && decide (m.consecutiveFailures ≤ config.maxConsecutiveFailures)
  | _ => false

/-- The workers due for restart, with port and failure count, in the order of
the map. -/
def World.dueRestarts (config : PoolConfig) (now : Instant) (w : World)
    (order : List WorkerId) : List (WorkerId × Port × UInt32) :=
  order.filterMap fun id =>
    match w.workers.lookup id with
    | some m =>
        if m.isDue config now then some (id, m.worker.port, m.consecutiveFailures) else none
    | none => none

/-- One iteration of the second loop of `process_restarts`. -/
def World.restartOne (spawned : WorkerId → Except String Unit) (w : World)
    (due : WorkerId × Port × UInt32) : World × List PoolEvent :=
  let removed := { w with workers := w.workers.erase due.1 }
  match removed.spawnWorker due.1 due.2.1 (spawned due.1) with
  | .error _ => (removed, [])
  | .ok (w', events) =>
      ({ w' with workers := w'.workers.modify due.1 fun m =>
          { m with consecutiveFailures := due.2.2 } }, events)

/-- `WorkerPool::process_restarts`. -/
def World.processRestarts (config : PoolConfig) (now : Instant) (order : List WorkerId)
    (spawned : WorkerId → Except String Unit) (w : World) : World × List PoolEvent :=
  forEach (World.restartOne spawned) w (w.dueRestarts config now order)

/-- `WorkerPool::do_health_check`, with the orders in which its two sweeps iterate the map. -/
def World.doHealthCheck (config : PoolConfig) (env : HealthEnv) (now : Instant)
    (spawned : WorkerId → Except String Unit) (order order' : List WorkerId) (w : World) :
    World × List PoolEvent :=
  let (w', out) := w.checkAllHealth config env order
  let (w'', out') := w'.processRestarts config now order' spawned
  (w'', out ++ out')

/-! ## Operations of the API -/

/-- The ports of all entries. -/
def World.usedPorts (w : World) : Finset Port := w.workers.image fun m => m.worker.port

/-- The error where all ports of the range are used. -/
def noAvailablePorts (config : PoolConfig) (usedPorts : Finset Port) : PoolError :=
  .internal ("No available ports: all ports from " ++ toString config.basePort.toNat
    ++ " to " ++ toString config.maxPort.toNat ++ " are in use ("
    ++ toString usedPorts.card ++ " workers)")

/-- The loop of `next_available_port` at its head: the condition, then the body. -/
def portLoop (config : PoolConfig) (usedPorts : Finset Port) (port : Port) :
    Port ⊕ Except PoolError Port :=
  if port ∈ usedPorts then
    if config.maxPort ≤ port then .inr (.error (noAvailablePorts config usedPorts))
    else
      match checkedAdd port 1 with
      | none => .inr (.error (.internal "Port number overflow"))
      | some port' => .inl port'
  else .inr (.ok port)

theorem checkedAdd_one_lt {port port' : Port} (h : checkedAdd port 1 = some port') :
    port.toNat < port'.toNat := by
  obtain ⟨hlt, h⟩ := Option.ite_none_right_eq_some.mp h
  rw [← Option.some.inj h, UInt16.toNat_add, Nat.mod_eq_of_lt hlt]
  exact Nat.lt_succ_self _

/-- The loop goes on with a higher port. -/
theorem portLoop_lt {config : PoolConfig} {usedPorts : Finset Port} {port port' : Port}
    (h : portLoop config usedPorts port = .inl port') : port.toNat < port'.toNat := by
  unfold portLoop at h
  split at h
  · split at h
    · cases h
    · split at h
      · cases h
      · next hadd => exact Sum.inl.inj h ▸ checkedAdd_one_lt hadd
  · cases h

/-- The loop of `next_available_port` from `port` on. -/
def nextFreePort (config : PoolConfig) (usedPorts : Finset Port) (port : Port) :
    Except PoolError Port :=
  match _h : portLoop config usedPorts port with
  | .inl port' => nextFreePort config usedPorts port'
  | .inr result => result
termination_by 2 ^ 16 - port.toNat
decreasing_by
  have hlt := portLoop_lt _h
  have hport := port'.toNat_lt
  omega

/-- `WorkerPool::next_available_port`. -/
def World.nextAvailablePort (config : PoolConfig) (w : World) : Except PoolError Port :=
  match nextFreePort config w.usedPorts config.basePort with
  | .error e => .error e
  | .ok port =>
      if config.maxPort < port then
        .error (.internal ("Port " ++ toString port.toNat ++ " exceeds max_port ("
          ++ toString config.maxPort.toNat ++ ")"))
      else .ok port

/-- `WorkerPool::spawn_new_worker`. -/
def World.spawnNewWorker (config : PoolConfig) (w : World) (workerId : WorkerId)
    (spawned : Except String Unit) : Except PoolError (WorkerId × Port) × World × List PoolEvent :=
  match w.nextAvailablePort config with
  | .error e => (.error e, w, [])
  | .ok port =>
      match w.spawnWorker workerId port spawned with
      | .error e => (.error (.internal e), w, [])
      | .ok (w', events) => (.ok (workerId, port), w', events)

/-- The error of an operation on an unknown worker. -/
def workerNotFound (workerId : WorkerId) : PoolError :=
  .notFound ("Worker " ++ workerId ++ " not found")

/-- `WorkerPool::drain_worker`.  `Worker::terminate` only asks the process to
end, so it changes nothing here. -/
def World.drainWorker (w : World) (workerId : WorkerId) : Except PoolError Unit × World :=
  match w.workers.lookup workerId with
  | none => (.error (workerNotFound workerId), w)
  | some m =>
      let state := if w.isRunning m.worker.child then .draining else .stopped
      (.ok (), { w with workers := w.workers.insert workerId { m with state := state } })

/-- `WorkerPool::kill_worker`. -/
def World.killWorker (w : World) (workerId : WorkerId) (killed : Bool) :
    Except PoolError Unit × World :=
  match w.workers.lookup workerId with
  | none => (.error (workerNotFound workerId), w)
  | some m =>
      let w' := if w.isRunning m.worker.child then w.kill m.worker.child killed else w
      (.ok (), { w' with workers := w'.workers.insert workerId { m with state := .stopped } })

/-- How `Worker::wait` under its timeout ends. -/
inductive WaitOutcome where
  /-- The process exited with this code. -/
  | exited (code : Option Int)
  | failed
  | timedOut
deriving Repr, DecidableEq

/-- `Worker::wait` under the timeout of `restart_worker`: the `Exited` event is
posted if the channel has a place for it before the timeout. -/
def World.wait (w : World) (worker : Worker) : WaitOutcome → World
  | .exited code =>
      (w.endProcess worker.child code).post ⟨worker.child, .exited worker.workerId code⟩
  | .failed => w.post ⟨worker.child, .exited worker.workerId none⟩
  | .timedOut => w

/-- What `restart_worker` meets. -/
structure RestartEnv where
  /-- How the wait for the old process ends. -/
  wait : WaitOutcome
  spawned : Except String Unit
  /-- The clock when the old entry is marked failed. -/
  now : Instant

/-- `WorkerPool::restart_worker`. -/
def World.restartWorker (config : PoolConfig) (w : World) (workerId newWorkerId : WorkerId)
    (env : RestartEnv) : Except PoolError (WorkerId × Port) × World × List PoolEvent :=
  match w.workers.lookup workerId with
  | none => (.error (workerNotFound workerId), w, [])
  | some m =>
      let w₁ := if w.isRunning m.worker.child then w.wait m.worker env.wait else w
      match w₁.spawnWorker newWorkerId m.worker.port env.spawned with
      | .ok (w₂, events) =>
          (.ok (newWorkerId, m.worker.port),
            { w₂ with workers := w₂.workers.erase workerId }, events)
      | .error e =>
          (.error (.internal ("Failed to spawn replacement worker: " ++ e)),
            { w₁ with workers := w₁.workers.modify workerId fun m =>
                { m with
                  state := .failed (env.now + config.restartDelay)
                  consecutiveFailures := m.consecutiveFailures + 1 } },
            [])

end L0Worker.Supervisor
