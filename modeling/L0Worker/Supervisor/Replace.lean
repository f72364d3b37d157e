import L0Worker.Supervisor.Entry

/-!
# Replacing a worker by the API

`restart_worker` spawns the replacement before it drops the old entry, so a spawn that
fails loses no id and no port.  It then marks the entry failed, to be retried by the
restart sweep, and counts the failure.  The sweep leaves alone what has failed too often,
so an entry that has reached the limit before is not retried any more.
-/

namespace L0Worker.Supervisor

/-- A restart sweep at this time tries to spawn the worker: when its process starts, it
is announced. -/
def Retried (config : PoolConfig) (now : Instant) (w : World) (id : WorkerId) : Prop :=
  ∀ order spawned, w.workers.Lists order → spawned id = .ok () →
    ∃ port, .workerSpawned id port ∈ (w.processRestarts config now order spawned).2

/-- `restart_worker` does all it should or nothing. -/
structure RestartAtomic (config : PoolConfig) (w : World) (id newId : WorkerId)
    (env : RestartEnv) : Prop where
  notFound : w.workers.lookup id = none →
    w.restartWorker config id newId env = (.error (workerNotFound id), w, [])
  /-- The entry makes way for a new one with a process of its own, on the same port. -/
  replaced : ∀ m, w.workers.lookup id = some m → env.spawned = .ok () →
    (w.restartWorker config id newId env).1 = .ok (newId, m.worker.port) ∧
      (w.restartWorker config id newId env).2.1.workers.lookup id = none ∧
      ∃ pid, w.procs.length ≤ pid ∧
        (w.restartWorker config id newId env).2.1.workers.lookup newId =
          some ⟨⟨newId, m.worker.port, pid⟩, .starting, 0, 0, none⟩
  /-- The ids and ports stay, and the entry is failed and will be retried. -/
  failed : ∀ m e, w.workers.lookup id = some m → env.spawned = .error e →
    (∀ id', (w.restartWorker config id newId env).2.1.portOf id' = w.portOf id') ∧
      ∃ m' restartAt, (w.restartWorker config id newId env).2.1.workers.lookup id = some m' ∧
        m'.state = .failed restartAt ∧
        ∀ now, restartAt ≤ now → Retried config now (w.restartWorker config id newId env).2.1 id
  others : ∀ id', id' ≠ id → id' ≠ newId →
    (w.restartWorker config id newId env).2.1.workers.lookup id' = w.workers.lookup id'

/-- If the spawn fails, the failure that it is counted as does not exceed the limit.  The
count wraps: the failure after `u32::MAX` is counted as none. -/
def BelowLimit (config : PoolConfig) (w : World) (id : WorkerId) (env : RestartEnv) : Prop :=
  ∀ m e, w.workers.lookup id = some m → env.spawned = .error e →
    m.consecutiveFailures + 1 ≤ config.maxConsecutiveFailures

/-- The restarts by the API in this step are atomic. -/
def RestartsAtomic (config : PoolConfig) (w : World) (a : Action) : Prop :=
  ∀ id newId env, a = .restartWorker id newId env → RestartAtomic config w id newId env

/-- The restarts by the API in this step that fail are of entries below the limit. -/
def RestartsBelowLimit (config : PoolConfig) (w : World) (a : Action) : Prop :=
  ∀ id newId env, a = .restartWorker id newId env → BelowLimit config w id env

variable {config : PoolConfig} {w : World} {id newId : WorkerId} {env : RestartEnv}

/-! ## Which entries are retried -/

/-- Every map has an enumeration. -/
theorem exists_lists (workers : Workers) : ∃ order, workers.Lists order :=
  ⟨workers.keys.toList, workers.keys.nodup_toList, Finset.toList_toFinset _⟩

/-- A sweep retries the entries that are due. -/
theorem retried_iff_dueAt {now : Instant} :
    Retried config now w id ↔ w.DueAt config now id := by
  constructor
  · intro h
    by_contra hdue
    obtain ⟨order, hl⟩ := exists_lists w.workers
    obtain ⟨port, hmem⟩ := h order (fun _ => .ok ()) hl rfl
    exact (World.processRestarts_untouched hdue).events _ hmem rfl
  · rintro ⟨m, hm, hdue⟩ order spawned hl hs
    obtain ⟨w₁, -, hnamed⟩ := World.processRestarts_at spawned hl hm hdue
    refine ⟨m.worker.port, List.mem_of_mem_filter ?_ (p := fun e => decide (e.workerId? = some id))⟩
    show PoolEvent.workerSpawned id m.worker.port ∈ named id _
    rw [hnamed, World.restartOne_ok hs]
    exact List.mem_singleton_self _

theorem ManagedWorker.isDue_failed_iff {m : ManagedWorker} {restartAt now : Instant}
    (hs : m.state = .failed restartAt) :
    m.isDue config now = true ↔
      restartAt ≤ now ∧ m.consecutiveFailures ≤ config.maxConsecutiveFailures := by
  unfold ManagedWorker.isDue
  rw [hs]
  simp

/-! ## One call -/

/-- What a call for an entry of the pool does, by the outcome of its spawn. -/
theorem World.restartWorker_of_lookup (config : PoolConfig) (newId : WorkerId) (env : RestartEnv)
    {m : ManagedWorker} (hm : w.workers.lookup id = some m) :
    ∃ w₁, Awaited w m.worker env.wait w₁ ∧
      (∀ e, env.spawned = .error e → w.restartWorker config id newId env =
        (.error (.internal ("Failed to spawn replacement worker: " ++ e)),
          { w₁ with workers := w₁.workers.modify id fun m =>
              { m with
                state := .failed (env.now + config.restartDelay)
                consecutiveFailures := m.consecutiveFailures + 1 } },
          [])) ∧
      (env.spawned = .ok () → w.restartWorker config id newId env =
        (.ok (newId, m.worker.port),
          { w₁ with
            procs := w₁.procs ++ [⟨newId, m.worker.port, .running, []⟩]
            workers := (w₁.workers.insert newId
              ⟨⟨newId, m.worker.port, w₁.procs.length⟩, .starting, 0, 0, none⟩).erase id },
          [.workerSpawned newId m.worker.port])) := by
  refine ⟨_, w.awaited m.worker env.wait, ?_, ?_⟩
  · intro e hs
    simp only [World.restartWorker, hm, hs, World.spawnWorker_error]
  · intro hs
    simp only [World.restartWorker, hm, hs, World.spawnWorker_ok]

theorem World.restartWorker_of_none (hm : w.workers.lookup id = none) :
    w.restartWorker config id newId env = (.error (workerNotFound id), w, []) := by
  simp only [World.restartWorker, hm]

/-- An entry that is marked failed is retried exactly when it was below the limit. -/
theorem retried_iff_of_failed {m : ManagedWorker} (hm : w.workers.lookup id = some m)
    (now : Instant) :
    (∃ m' restartAt,
        (w.workers.modify id fun m =>
          { m with
            state := .failed now
            consecutiveFailures := m.consecutiveFailures + 1 }).lookup id = some m' ∧
          m'.state = .failed restartAt ∧
          ∀ later, restartAt ≤ later → Retried config later
            { w with workers := w.workers.modify id fun m =>
              { m with
                state := .failed now
                consecutiveFailures := m.consecutiveFailures + 1 } } id) ↔
      m.consecutiveFailures + 1 ≤ config.maxConsecutiveFailures := by
  simp only [retried_iff_dueAt, World.DueAt, Finmap.lookup_modify, hm, Option.map_some,
    Option.some.injEq]
  constructor
  · rintro ⟨m', restartAt, rfl, hs, hdue⟩
    obtain ⟨m'', rfl, hdue⟩ := hdue restartAt (le_refl _)
    exact ((ManagedWorker.isDue_failed_iff hs).mp hdue).2
  · intro hlt
    refine ⟨_, _, rfl, rfl, fun later hlater => ⟨_, rfl, ?_⟩⟩
    exact (ManagedWorker.isDue_failed_iff rfl).mpr ⟨hlater, hlt⟩

/-- A restart by the API is atomic exactly when the entry of a failed one was below the
limit. -/
theorem restartAtomic_iff (hf : w.Fresh newId) :
    RestartAtomic config w id newId env ↔ BelowLimit config w id env := by
  constructor
  · intro h m e hm hs
    obtain ⟨w₁, hw₁, hfailed, -⟩ :=
      World.restartWorker_of_lookup config newId env hm
    have hretried := (h.failed m e hm hs).2
    rw [hfailed e hs] at hretried
    exact (retried_iff_of_failed (hw₁.workers.symm ▸ hm) _).mp hretried
  · intro h
    refine ⟨World.restartWorker_of_none, ?_, ?_, ?_⟩
    · intro m hm hs
      obtain ⟨w₁, hw₁, -, hreplaced⟩ :=
        World.restartWorker_of_lookup config newId env hm
      rw [hreplaced hs]
      have hne : newId ≠ id := by
        rintro rfl
        rw [hf.lookup] at hm
        cases hm
      refine ⟨rfl, Finmap.lookup_erase _ _, w₁.procs.length, Nat.le_of_eq hw₁.keeps.length.symm, ?_⟩
      exact (Finmap.lookup_erase_ne hne).trans (Finmap.lookup_insert _)
    · intro m e hm hs
      obtain ⟨w₁, hw₁, hfailed, -⟩ :=
        World.restartWorker_of_lookup config newId env hm
      rw [hfailed e hs]
      refine ⟨?_, (retried_iff_of_failed (hw₁.workers.symm ▸ hm) _).mpr (h m e hm hs)⟩
      intro id'
      refine (hw₁.keeps.trans ?_).portOf id'
      exact Keeps.modify w₁ id fun _ => rfl
    · intro id' hid hnew
      exact (World.restartWorker_untouched hid hnew).lookup

/-! ## Runs -/

/-- Along a run, restarts by the API are atomic and strand no worker exactly when no spawn
fails for an entry that has reached the limit of failures. -/
theorem restart_atomic_iff (config : PoolConfig) (w₀ : World) (as : List Action) :
    (system config).Along (fun w a _ _ => RestartsAtomic config w a) w₀ as ↔
      (system config).Along (fun w a _ _ => RestartsBelowLimit config w a) w₀ as := by
  refine Machine.Along.congr (I := fun _ => True) ?_ (fun _ _ _ _ _ _ _ => trivial) trivial
  intro w a w' out _ hstep
  constructor
  · rintro h id newId env rfl
    obtain ⟨hf, -⟩ := Option.ite_none_right_eq_some.mp hstep
    exact (restartAtomic_iff hf).mp (h id newId env rfl)
  · rintro h id newId env rfl
    obtain ⟨hf, -⟩ := Option.ite_none_right_eq_some.mp hstep
    exact (restartAtomic_iff hf).mpr (h id newId env rfl)

/-- Six restarts by the API whose spawns fail, of the one worker. -/
def sixFailedRestarts : List Action :=
  List.replicate 6 (.restartWorker "l0-1" "l0-2" ⟨.timedOut, .error "Too many open files", 0⟩)

/-- After the sixth the worker is failed for good. -/
theorem sixth_restart_strands_worker :
    ¬ ∀ (w₀ : World) (as : List Action) (w : World) (out : List PoolEvent),
        Started oneWorker w₀ → (system oneWorker).run w₀ as = some (w, out) →
        (system oneWorker).Along (fun w a _ _ => RestartsAtomic oneWorker w a) w₀ as := by
  intro claim
  obtain ⟨⟨w, out⟩, hrun⟩ :
      ∃ r, (system oneWorker).run oneWorkerStarted sixFailedRestarts = some r :=
    Option.isSome_iff_exists.mp (by decide)
  have hfifth : ((system oneWorker).run oneWorkerStarted (sixFailedRestarts.take 5)).map
      (fun r => (r.1.workers.lookup "l0-1").map ManagedWorker.consecutiveFailures) =
      some (some 5) := by decide
  obtain ⟨u, o, v, o', hu, hv, -, hatomic⟩ :=
    (claim _ (sixFailedRestarts.take 5 ++ [sixFailedRestarts.getLast (by decide)]) w out
      oneWorker_started hrun).last
  rw [hu] at hfifth
  obtain ⟨m, hm, hfailures⟩ := Option.map_eq_some_iff.mp (Option.some.inj hfifth)
  obtain ⟨hf, -⟩ := Option.ite_none_right_eq_some.mp hv
  have hlt := (restartAtomic_iff hf).mp (hatomic _ _ _ rfl) m _ hm rfl
  rw [hfailures] at hlt
  exact absurd hlt (by decide)

end L0Worker.Supervisor
