import L0Worker.Supervisor.System

/-!
# Two ways to notice a crash

The exit of a process that starts or is healthy is processed by the `Exited` arm of
`handle_worker_event` or by a failed health check, whichever comes first.  Both count the
failure and announce the same.  They differ in what they leave behind: only the health
check clears the count of unhealthy checks, and only it stops an entry that has failed too
often; the `Exited` arm marks such an entry failed like any other.
-/

namespace L0Worker.Supervisor

/-! ## Comparing the two -/

/-- The states agree, up to the instant of a restart. -/
def WorkerState.Alike (s t : WorkerState) : Prop :=
  s = t ∨ (s.isFailed = true ∧ t.isFailed = true)

/-- The entries agree, up to the instant of a restart. -/
structure ManagedWorker.Alike (m m' : ManagedWorker) : Prop where
  worker : m.worker = m'.worker
  state : m.state.Alike m'.state
  consecutiveFailures : m.consecutiveFailures = m'.consecutiveFailures
  consecutiveUnhealthy : m.consecutiveUnhealthy = m'.consecutiveUnhealthy
  lastHealthy : m.lastHealthy = m'.lastHealthy

/-- The event without the text of a reason. -/
def PoolEvent.withoutReason : PoolEvent → PoolEvent
  | .workerUnhealthy id _ => .workerUnhealthy id ""
  | e => e

/-- The process of an entry that starts or is healthy has crashed. -/
structure Crashed (w : World) (id : WorkerId) (m : ManagedWorker) (code : Option Int) :
    Prop where
  entry : w.workers.lookup id = some m
  active : m.state = .starting ∨ m.state = .healthy
  exited : ∃ p, w.procs[m.worker.child]? = some p ∧ p.status = .exited code
  /-- The exit was not a clean one. -/
  code_ne : code ≠ some 0

/-- Handling `Exited` for the entry and a health check of it do the same. -/
structure PathsAgree (config : PoolConfig) (now : Instant) (env : HealthEnv) (w : World)
    (id : WorkerId) (port : Port) (code : Option Int) : Prop where
  entry : ∃ m₁ m₂,
    (w.handleWorkerEvent config now (.exited id code)).1.workers.lookup id = some m₁ ∧
      (w.checkOne config env (id, port)).1.workers.lookup id = some m₂ ∧ m₁.Alike m₂
  events : (w.handleWorkerEvent config now (.exited id code)).2.map PoolEvent.withoutReason =
    (w.checkOne config env (id, port)).2.map PoolEvent.withoutReason

/-! ## What each path does -/

variable {w : World} {id : WorkerId} {m : ManagedWorker} {code : Option Int}

theorem Crashed.isRunning (h : Crashed w id m code) : w.isRunning m.worker.child = false := by
  obtain ⟨p, hp, hstatus⟩ := h.exited
  simp [World.isRunning, hp, Process.Running, hstatus]

theorem Crashed.exitPending (h : Crashed w id m code) : m.exitPending = true :=
  ManagedWorker.exitPending_of_active h.active.symm

/-- The `Exited` arm counts a failure and marks the entry failed. -/
theorem Crashed.onExited (h : Crashed w id m code) (config : PoolConfig) (now : Instant) :
    m.onExited config now id code =
      ({ m with
          consecutiveFailures := m.consecutiveFailures + 1
          state := .failed (now + calculateRestartDelay config (m.consecutiveFailures + 1).toNat) },
        [.workerUnhealthy id ("Exit code: " ++ debugExitCode code),
          restartingOrFailed config id (m.consecutiveFailures + 1)]) := by
  have hcrash : ¬ (code = some 0 ∨ m.state = .draining) := by
    rintro (hcode | hs)
    · exact h.code_ne hcode
    · rcases h.active with hs' | hs' <;> rw [hs] at hs' <;> cases hs'
  unfold ManagedWorker.onExited
  rw [if_pos h.exitPending, if_neg hcrash]

/-- A failed check of an exited process schedules a restart or gives up. -/
theorem ManagedWorker.check_exited (hp : m.exitPending = true) (config : PoolConfig)
    (now : Instant) (port : Port) {result : HealthCheckResult}
    (hresult : ∀ status, result ≠ .healthy status) :
    m.check config now id port result false =
      ⟨(m.scheduleRestart config now id "Process exited unexpectedly").1,
        (m.scheduleRestart config now id "Process exited unexpectedly").2, false⟩ := by
  have hfailed : ∀ reason, m.checkFailed config now id false reason =
      ⟨(m.scheduleRestart config now id "Process exited unexpectedly").1,
        (m.scheduleRestart config now id "Process exited unexpectedly").2, false⟩ := by
    intro reason
    unfold ManagedWorker.checkFailed
    rw [hp]
    rfl
  cases result with
  | healthy status => exact absurd rfl (hresult status)
  | unhealthy reason => exact hfailed reason
  | unreachable reason => exact hfailed reason

/-- What the two paths make of an entry agrees, unless the check clears a count of
unhealthy checks or gives the worker up. -/
theorem alike_scheduleRestart_iff {config : PoolConfig} {t : Instant} (now : Instant)
    (reason : String) :
    ManagedWorker.Alike
        { m with consecutiveFailures := m.consecutiveFailures + 1, state := .failed t }
        (m.scheduleRestart config now id reason).1 ↔
      m.consecutiveUnhealthy = 0 ∧ m.consecutiveFailures + 1 ≤ config.maxConsecutiveFailures := by
  unfold ManagedWorker.scheduleRestart
  dsimp only
  constructor
  · intro h
    refine ⟨h.consecutiveUnhealthy, ?_⟩
    by_contra hgt
    have hstate := h.state
    rw [if_neg hgt] at hstate
    rcases hstate with hs | ⟨-, hs⟩ <;> cases hs
  · rintro ⟨hunhealthy, hlt⟩
    rw [if_pos hlt]
    exact ⟨rfl, .inr ⟨rfl, rfl⟩, rfl, hunhealthy, rfl⟩

/-! ## When they agree -/

/-- It does not matter which path notices a crash exactly when no unhealthy check is
counted and the next failure does not exceed the limit.  The count of failures wraps: after
`u32::MAX` failures the next one is counted as none. -/
theorem crash_paths_agree_iff (config : PoolConfig) (now : Instant) {env : HealthEnv}
    (h : Crashed w id m code) (hfailed : ∀ status, env.result id ≠ .healthy status) :
    PathsAgree config now env w id m.worker.port code ↔
      m.consecutiveUnhealthy = 0 ∧ m.consecutiveFailures + 1 ≤ config.maxConsecutiveFailures := by
  have hexit : w.handleWorkerEvent config now (.exited id code) =
      ({ w with workers := w.workers.insert id (m.onExited config now id code).1 },
        (m.onExited config now id code).2) := by
    simp only [World.handleWorkerEvent, h.entry]
  have hcheck : w.checkOne config env (id, m.worker.port) =
      ({ w with
          workers := w.workers.insert id
            (m.scheduleRestart config (env.now id) id "Process exited unexpectedly").1 },
        (m.scheduleRestart config (env.now id) id "Process exited unexpectedly").2) := by
    simp only [World.checkOne, h.entry, h.isRunning,
      ManagedWorker.check_exited h.exitPending config _ _ hfailed]
    rfl
  rw [h.onExited] at hexit
  rw [← alike_scheduleRestart_iff (env.now id) "Process exited unexpectedly"]
  constructor
  · rintro ⟨⟨m₁, m₂, hm₁, hm₂, halike⟩, -⟩
    rw [hexit, Finmap.lookup_insert] at hm₁
    rw [hcheck, Finmap.lookup_insert] at hm₂
    rw [← Option.some.inj hm₁, ← Option.some.inj hm₂] at halike
    exact halike
  · intro halike
    refine ⟨⟨_, _, ?_, ?_, halike⟩, ?_⟩
    · rw [hexit, Finmap.lookup_insert]
    · rw [hcheck, Finmap.lookup_insert]
    · rw [hexit, hcheck]
      rfl

/-- The one worker after a crash, with a number of earlier failures. -/
def crashedWorker (failures : UInt32) : World :=
  { oneWorkerStarted.endProcess 0 (some 1) with
    workers := oneWorkerStarted.workers.modify "l0-1" fun m =>
      { m with consecutiveFailures := failures } }

theorem crashedWorker_crashed (failures : UInt32) :
    Crashed (crashedWorker failures) "l0-1" ⟨⟨"l0-1", 3001, 0⟩, .starting, failures, 0, none⟩
      (some 1) where
  entry := by
    have hentry : oneWorkerStarted.workers.lookup "l0-1" =
        some ⟨⟨"l0-1", 3001, 0⟩, .starting, 0, 0, none⟩ := by decide
    rw [crashedWorker, Finmap.lookup_modify, hentry]
    rfl
  active := .inl rfl
  exited := ⟨⟨"l0-1", 3001, .exited (some 1), []⟩, rfl, rfl⟩
  code_ne := by decide

theorem crash_paths_agree_iff_first :
    PathsAgree oneWorker 1000 (unreachableAt 1000) (crashedWorker 0) "l0-1" 3001 (some 1) ↔
      0 = 0 ∧ (0 : UInt32) + 1 ≤ 5 :=
  crash_paths_agree_iff oneWorker 1000 (crashedWorker_crashed 0) (fun _ h => nomatch h)

/-- At the sixth crash the `Exited` arm leaves the entry failed, and the check stops it. -/
theorem sixth_crash_differs :
    ¬ ∀ (config : PoolConfig) (now : Instant) (env : HealthEnv) (w : World) (id : WorkerId)
        (m : ManagedWorker) (code : Option Int), Crashed w id m code →
        (∀ status, env.result id ≠ .healthy status) →
        PathsAgree config now env w id m.worker.port code := by
  intro claim
  obtain ⟨⟨m₁, m₂, hm₁, hm₂, halike⟩, -⟩ := claim oneWorker 1000 (unreachableAt 1000) _ _ _ _
    (crashedWorker_crashed 5) (fun _ h => nomatch h)
  have hexit : ((crashedWorker 5).handleWorkerEvent oneWorker 1000
      (.exited "l0-1" (some 1))).1.workers.lookup "l0-1" =
      some ⟨⟨"l0-1", 3001, 0⟩, .failed 17000, 6, 0, none⟩ := by decide
  have hcheck : ((crashedWorker 5).checkOne oneWorker (unreachableAt 1000)
      ("l0-1", 3001)).1.workers.lookup "l0-1" =
      some ⟨⟨"l0-1", 3001, 0⟩, .stopped, 6, 0, none⟩ := by decide
  obtain rfl := Option.some.inj (hm₁.symm.trans hexit)
  obtain rfl := Option.some.inj (hm₂.symm.trans hcheck)
  rcases halike.state with h | ⟨-, h⟩ <;> cases h

end L0Worker.Supervisor
