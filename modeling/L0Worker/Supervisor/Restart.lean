import L0Worker.Supervisor.System

/-!
# Restarts and the set of workers

`process_restarts` removes a due entry before it spawns the replacement, so an
entry whose spawn fails is gone.  `restart_worker` spawns first and removes
the old entry only when that succeeded.

`processRestarts_spec` says what a restart sweep does to each id and to the
list of processes, and `restartWorker_cases` how a restart by the API can go.
`step_changes` takes a step apart into elementary changes of the world, so that
an invariant of the world needs one lemma for each kind of change.

`no_worker_lost_iff` concludes: along a run, the restart sweeps keep all ids
with their ports, and an id leaves the pool only through a successful
`restart_worker`, exactly when every spawn a restart sweep attempts succeeds.
-/

namespace L0Worker.Supervisor

/-! ## One spawn -/

theorem World.spawnWorker_ok (w : World) (id : WorkerId) (port : Port) :
    w.spawnWorker id port (.ok ()) =
      .ok ({ w with
              procs := w.procs ++ [⟨id, port, .running, []⟩]
              workers := w.workers.insert id
                ⟨⟨id, port, w.procs.length⟩, .starting, 0, 0, none⟩ },
        [.workerSpawned id port]) := rfl

theorem World.spawnWorker_error (w : World) (id : WorkerId) (port : Port) (e : String) :
    w.spawnWorker id port (.error e) = .error e := rfl

/-- `spawn_new_worker` fails and changes nothing, or starts a process on a free port. -/
theorem World.spawnNewWorker_cases (config : PoolConfig) (w : World) (newId : WorkerId)
    (outcome : Except String Unit) :
    (w.spawnNewWorker config newId outcome).2 = (w, []) ∨
      ∃ port, w.nextAvailablePort config = .ok port ∧
        (w.spawnNewWorker config newId outcome).2 =
          ({ w with
              procs := w.procs ++ [⟨newId, port, .running, []⟩]
              workers := w.workers.insert newId
                ⟨⟨newId, port, w.procs.length⟩, .starting, 0, 0, none⟩ },
            [.workerSpawned newId port]) := by
  unfold World.spawnNewWorker
  cases w.nextAvailablePort config with
  | error e => exact .inl rfl
  | ok port =>
      cases outcome with
      | error e => exact .inl rfl
      | ok u => exact .inr ⟨port, rfl, rfl⟩

/-! ## One restart -/

variable {spawned : WorkerId → Except String Unit}

theorem World.restartOne_error {w : World} {due : WorkerId × Port × UInt32} {e : String}
    (h : spawned due.1 = .error e) :
    w.restartOne spawned due = ({ w with workers := w.workers.erase due.1 }, []) := by
  simp only [World.restartOne, h, World.spawnWorker_error]

theorem World.restartOne_ok {w : World} {due : WorkerId × Port × UInt32}
    (h : spawned due.1 = .ok ()) :
    w.restartOne spawned due =
      ({ w with
          procs := w.procs ++ [⟨due.1, due.2.1, .running, []⟩]
          workers := ((w.workers.erase due.1).insert due.1
            ⟨⟨due.1, due.2.1, w.procs.length⟩, .starting, 0, 0, none⟩).modify due.1
              fun m => { m with consecutiveFailures := due.2.2 } },
        [.workerSpawned due.1 due.2.1]) := by
  simp only [World.restartOne, h, World.spawnWorker_ok]

/-- A restart touches only the entry it restarts. -/
theorem World.restartOne_workerOf_of_ne (w : World) (due : WorkerId × Port × UInt32) {id : WorkerId}
    (h : id ≠ due.1) : (w.restartOne spawned due).1.workerOf id = w.workerOf id := by
  unfold World.workerOf
  cases hs : spawned due.1 with
  | error e => rw [World.restartOne_error hs, Finmap.lookup_erase_ne h]
  | ok u =>
      rw [World.restartOne_ok hs]
      simp only [Finmap.lookup_modify_of_ne _ _ h, Finmap.lookup_insert_of_ne _ h,
        Finmap.lookup_erase_ne h]

/-- The worker an id has after the attempt to respawn it, with the first process
id that was free before the sweep. -/
def Respawned (spawned : WorkerId → Except String Unit) (due : WorkerId × Port × UInt32)
    (free : Pid) (w : World) : Prop :=
  match spawned due.1 with
  | .error _ => w.workerOf due.1 = none
  | .ok _ => ∃ pid, free ≤ pid ∧ w.workerOf due.1 = some ⟨due.1, due.2.1, pid⟩

theorem World.restartOne_respawned (spawned : WorkerId → Except String Unit) (w : World)
    (due : WorkerId × Port × UInt32) :
    Respawned spawned due w.procs.length (w.restartOne spawned due).1 := by
  unfold Respawned World.workerOf
  cases hs : spawned due.1 with
  | error e =>
      rw [World.restartOne_error hs]
      simp
  | ok u =>
      rw [World.restartOne_ok hs]
      exact ⟨w.procs.length, le_refl _, by simp⟩

/-- A restart only adds processes. -/
theorem World.restartOne_procs (spawned : WorkerId → Except String Unit) (w : World)
    (due : WorkerId × Port × UInt32) :
    w.procs <+: (w.restartOne spawned due).1.procs := by
  cases hs : spawned due.1 with
  | error e => rw [World.restartOne_error hs]
  | ok u =>
      rw [World.restartOne_ok hs]
      exact List.prefix_append _ _

/-! ## A sweep of restarts -/

theorem Respawned.mono {due : WorkerId × Port × UInt32} {free free' : Pid} {w : World}
    (h : Respawned spawned due free w) (hle : free' ≤ free) : Respawned spawned due free' w := by
  unfold Respawned at *
  split
  · next heq => simpa only [heq] using h
  · next heq =>
    simp only [heq] at h
    obtain ⟨pid, hpid, hw⟩ := h
    exact ⟨pid, hle.trans hpid, hw⟩

theorem Respawned.congr {due : WorkerId × Port × UInt32} {free : Pid} {w w' : World}
    (h : Respawned spawned due free w) (hw : w'.workerOf due.1 = w.workerOf due.1) :
    Respawned spawned due free w' := by
  unfold Respawned at *
  rwa [hw]

/-- What restarting a list of distinct ids does: other ids keep their worker,
each listed id is respawned or gone, and processes are only added. -/
theorem World.forEach_restartOne (spawned : WorkerId → Except String Unit)
    (dues : List (WorkerId × Port × UInt32)) (hnd : (dues.map Prod.fst).Nodup) (w : World) :
    (∀ id, id ∉ dues.map Prod.fst →
        (forEach (World.restartOne spawned) w dues).1.workerOf id = w.workerOf id) ∧
      (∀ due ∈ dues,
        Respawned spawned due w.procs.length (forEach (World.restartOne spawned) w dues).1) ∧
      w.procs <+: (forEach (World.restartOne spawned) w dues).1.procs := by
  induction dues generalizing w with
  | nil => simp
  | cons due dues ih =>
      rw [List.map_cons, List.nodup_cons] at hnd
      have hfirst := World.restartOne_respawned spawned w due
      have hprocs := World.restartOne_procs spawned w due
      obtain ⟨hother, hlisted, hgrow⟩ := ih hnd.2 (w.restartOne spawned due).1
      rw [forEach_cons]
      refine ⟨?_, ?_, hprocs.trans hgrow⟩
      · intro id hid
        rw [List.map_cons, List.mem_cons, not_or] at hid
        rw [hother id hid.2, World.restartOne_workerOf_of_ne w due hid.1]
      · intro d hd
        rcases List.mem_cons.mp hd with rfl | hd
        · exact hfirst.congr (hother d.1 hnd.1)
        · exact (hlisted d hd).mono hprocs.length_le

/-- The entry of `id` is due for its restart. -/
def World.DueAt (config : PoolConfig) (now : Instant) (w : World) (id : WorkerId) : Prop :=
  ∃ m, w.workers.lookup id = some m ∧ m.isDue config now = true

theorem World.mem_dueRestarts {config : PoolConfig} {now : Instant} {w : World}
    {order : List WorkerId} {due : WorkerId × Port × UInt32} :
    due ∈ w.dueRestarts config now order ↔
      due.1 ∈ order ∧ ∃ m, w.workers.lookup due.1 = some m ∧ m.isDue config now = true ∧
        due.2 = (m.worker.port, m.consecutiveFailures) := by
  obtain ⟨id, port, count⟩ := due
  simp only [World.dueRestarts, List.mem_filterMap]
  constructor
  · rintro ⟨id', hmem, h⟩
    cases hm : w.workers.lookup id' with
    | none => simp [hm] at h
    | some m =>
        simp only [hm] at h
        split at h
        · next hdue =>
          simp only [Option.some.injEq, Prod.mk.injEq] at h
          obtain ⟨rfl, rfl, rfl⟩ := h
          exact ⟨hmem, m, hm, hdue, rfl⟩
        · cases h
  · rintro ⟨hmem, m, hm, hdue, heq⟩
    simp only [Prod.mk.injEq] at heq
    obtain ⟨rfl, rfl⟩ := heq
    exact ⟨id, hmem, by simp only [hm]; rw [if_pos hdue]⟩

/-- A sweep restarts each id once. -/
theorem World.dueRestarts_nodup {config : PoolConfig} {now : Instant} {w : World}
    {order : List WorkerId} (h : order.Nodup) :
    ((w.dueRestarts config now order).map Prod.fst).Nodup := by
  refine List.Nodup.sublist (map_filterMap_sublist ?_ order) h
  intro id due hdue
  split at hdue
  · obtain ⟨-, hdue⟩ := Option.ite_none_right_eq_some.mp hdue
    exact congrArg Prod.fst (Option.some.inj hdue).symm
  · cases hdue

/-- What `process_restarts` does to the workers and the processes. -/
theorem World.processRestarts_spec (config : PoolConfig) (now : Instant)
    (spawned : WorkerId → Except String Unit) {w : World} {order : List WorkerId}
    (hl : w.workers.Lists order) :
    (∀ id, ¬ w.DueAt config now id →
        (w.processRestarts config now order spawned).1.workerOf id = w.workerOf id) ∧
      (∀ id m, w.workers.lookup id = some m → m.isDue config now = true →
        Respawned spawned (id, m.worker.port, m.consecutiveFailures) w.procs.length
          (w.processRestarts config now order spawned).1) ∧
      w.procs <+: (w.processRestarts config now order spawned).1.procs := by
  obtain ⟨hother, hlisted, hgrow⟩ := World.forEach_restartOne spawned
    (w.dueRestarts config now order) (World.dueRestarts_nodup hl.1) w
  refine ⟨?_, ?_, hgrow⟩
  · intro id hid
    refine hother id ?_
    intro hmem
    obtain ⟨due, hdue, rfl⟩ := List.mem_map.mp hmem
    obtain ⟨-, m, hm, hd, -⟩ := World.mem_dueRestarts.mp hdue
    exact hid ⟨m, hm, hd⟩
  · intro id m hm hdue
    refine hlisted _ (World.mem_dueRestarts.mpr ⟨?_, m, hm, hdue, rfl⟩)
    exact hl.mem_iff.mpr (Finmap.mem_of_lookup_eq_some hm)

/-! ## One call of `restart_worker` -/

theorem World.isRunning_endProcess {w : World} {pid : Pid} {code : Option Int} :
    (w.endProcess pid code).isRunning pid = false := by
  rw [Bool.eq_false_iff]
  intro h
  obtain ⟨p, hp, hr⟩ := World.isRunning_iff.mp h
  rw [World.endProcess, List.getElem?_modify] at hp
  obtain ⟨q, -, rfl⟩ := Option.map_eq_some_iff.mp hp
  rw [if_pos rfl] at hr
  exact q.not_running_ended code hr

theorem World.isRunning_post {w : World} {e : Posted} {pid : Pid} :
    (w.post e).isRunning pid = w.isRunning pid := by
  unfold World.post
  split <;> rfl

theorem World.wait_workers (w : World) (k : Worker) (outcome : WaitOutcome) :
    (w.wait k outcome).workers = w.workers := by
  unfold World.wait World.post
  cases outcome with
  | exited code => dsimp only; split <;> rfl
  | failed => dsimp only; split <;> rfl
  | timedOut => rfl

/-- The wait for an old process is over in the second world. -/
structure Awaited (w : World) (old : Worker) (outcome : WaitOutcome) (w₁ : World) : Prop where
  keeps : Keeps w w₁
  workers : w₁.workers = w.workers
  /-- A process that was seen to exit does not run. -/
  stopped : ∀ code, outcome = .exited code → w₁.isRunning old.child = false

theorem World.awaited (w : World) (old : Worker) (outcome : WaitOutcome) :
    Awaited w old outcome (if w.isRunning old.child then w.wait old outcome else w) := by
  split
  · refine ⟨Keeps.wait w old outcome, w.wait_workers old outcome, ?_⟩
    rintro code rfl
    exact World.isRunning_post.trans World.isRunning_endProcess
  · next hrun => exact ⟨Keeps.refl w, rfl, fun _ _ => by simpa using hrun⟩

/-- The ways `restart_worker` can go: there is no such worker, the replacement does not
start and the entry is marked failed, or the replacement takes the place of the entry. -/
inductive RestartedWorker (config : PoolConfig) (w : World) (id newId : WorkerId)
    (env : RestartEnv) (r : Except PoolError (WorkerId × Port) × World × List PoolEvent) :
    Prop where
  | notFound (hm : w.workers.lookup id = none) (heq : r = (.error (workerNotFound id), w, []))
  | failed {m : ManagedWorker} {w₁ : World} {e : String} (hm : w.workers.lookup id = some m)
      (hw₁ : Awaited w m.worker env.wait w₁)
      (heq : r = (.error (.internal ("Failed to spawn replacement worker: " ++ e)),
        { w₁ with workers := w₁.workers.modify id fun m =>
            { m with
              state := .failed (env.now + config.restartDelay)
              consecutiveFailures := m.consecutiveFailures + 1 } },
        []))
  | replaced {m : ManagedWorker} {w₁ : World} (hm : w.workers.lookup id = some m)
      (hw₁ : Awaited w m.worker env.wait w₁)
      (heq : r = (.ok (newId, m.worker.port),
        { w₁ with
          procs := w₁.procs ++ [⟨newId, m.worker.port, .running, []⟩]
          workers := (w₁.workers.insert newId
            ⟨⟨newId, m.worker.port, w₁.procs.length⟩, .starting, 0, 0, none⟩).erase id },
        [.workerSpawned newId m.worker.port]))

theorem World.restartWorker_cases (config : PoolConfig) (w : World) (id newId : WorkerId)
    (env : RestartEnv) :
    RestartedWorker config w id newId env (w.restartWorker config id newId env) := by
  unfold World.restartWorker
  cases hm : w.workers.lookup id with
  | none => exact .notFound hm rfl
  | some m =>
      have hw₁ := w.awaited m.worker env.wait
      cases hs : env.spawned with
      | error e => exact .failed hm hw₁ rfl
      | ok u => exact .replaced hm hw₁ rfl

/-! ## Changes -/

/-- The elementary changes of the world: every entry keeps its worker, an entry is removed, or
a new process becomes the child of an entry. -/
inductive Change (w : World) : World → Prop where
  | keeps {w' : World} (h : Keeps w w') : Change w w'
  | erase (id : WorkerId) : Change w { w with workers := w.workers.erase id }
  | spawn (id : WorkerId) (port : Port) {m : ManagedWorker}
      (hm : m.worker = ⟨id, port, w.procs.length⟩) :
      Change w { w with
        procs := w.procs ++ [⟨id, port, .running, []⟩]
        workers := w.workers.insert id m }

/-- A sequence of changes. -/
abbrev Changes : World → World → Prop := Relation.ReflTransGen Change

/-- What every change keeps, a sequence of changes keeps. -/
theorem Changes.invariant {I : World → Prop} {w w' : World} (h : Changes w w')
    (hchange : ∀ u v, I u → Change u v → I v) (hw : I w) : I w' := by
  induction h with
  | refl => exact hw
  | tail _ hc ih => exact hchange _ _ ih hc

theorem World.restartOne_changes (w : World) (spawned : WorkerId → Except String Unit)
    (due : WorkerId × Port × UInt32) : Changes w (w.restartOne spawned due).1 := by
  have herase : Changes w { w with workers := w.workers.erase due.1 } := .single (.erase due.1)
  cases hs : spawned due.1 with
  | error e =>
      rw [World.restartOne_error hs]
      exact herase
  | ok u =>
      rw [World.restartOne_ok hs]
      exact (herase.tail (.spawn due.1 due.2.1 rfl)).tail
        (.keeps (Keeps.modify _ due.1 fun _ => rfl))

/-- A step is a sequence of changes. -/
theorem step_changes {config : PoolConfig} {w w' : World} {a : Action} {out : List PoolEvent}
    (hstep : (system config).step w a = some (w', out)) : Changes w w' := by
  obtain ⟨hk, -⟩ | ⟨now, order, spawned, rfl, -, heq⟩ | ⟨newId, outcome, rfl, -, heq⟩ |
    ⟨id, newId, env, rfl, -, heq⟩ := step_cases hstep
  · exact .single (.keeps hk)
  · obtain ⟨rfl, -⟩ := Prod.ext_iff.mp heq
    exact forEach_rec (I := fun _ u => Changes w u)
      (fun due _ u hu => hu.trans (u.restartOne_changes spawned due)) .refl
  · obtain ⟨rfl, -⟩ := Prod.ext_iff.mp heq
    rcases w.spawnNewWorker_cases config newId outcome with hno | ⟨port, -, hyes⟩
    · rw [hno]
    · rw [hyes]
      exact .single (.spawn newId port rfl)
  · obtain ⟨rfl, -⟩ := Prod.ext_iff.mp heq
    cases w.restartWorker_cases config id newId env with
    | notFound hm hr => rw [hr]
    | @failed m w₁ e hm hw₁ hr =>
        rw [hr]
        have hwait : Changes w w₁ := .single (.keeps hw₁.keeps)
        exact hwait.tail (.keeps (Keeps.modify w₁ id fun _ => rfl))
    | @replaced m w₁ hm hw₁ hr =>
        rw [hr]
        have hwait : Changes w w₁ := .single (.keeps hw₁.keeps)
        exact (hwait.tail (.spawn newId m.worker.port rfl)).tail (.erase id)

/-! ## Which ids leave the pool -/

/-- Every spawn a restart sweep attempts succeeds. -/
def SweepSpawns (config : PoolConfig) (w : World) : Action → Prop
  | .processRestarts now _ spawned => ∀ id, w.DueAt config now id → spawned id = .ok ()
  | _ => True

/-- The step loses no worker: a restart sweep keeps every id with its port, and an
id leaves the pool only when `restart_worker` replaced it. -/
structure NoWorkerLost (config : PoolConfig) (w : World) (a : Action) (w' : World) : Prop where
  /-- Restart sweeps keep the ids and ports. -/
  sweep : ∀ now order spawned, a = .processRestarts now order spawned →
    ∀ id, w'.portOf id = w.portOf id
  /-- An id that leaves was replaced. -/
  leaves : ∀ id, id ∈ w.workers → id ∉ w'.workers →
    ∃ newId env port, a = .restartWorker id newId env ∧
      (w.restartWorker config id newId env).1 = .ok (newId, port)

/-- A restart sweep keeps ids and ports exactly when its spawns succeed. -/
theorem World.processRestarts_portOf_iff (config : PoolConfig) (now : Instant)
    (spawned : WorkerId → Except String Unit) {w : World} {order : List WorkerId}
    (hl : w.workers.Lists order) :
    (∀ id, (w.processRestarts config now order spawned).1.portOf id = w.portOf id) ↔
      ∀ id, w.DueAt config now id → spawned id = .ok () := by
  obtain ⟨hother, hdue, -⟩ := World.processRestarts_spec config now spawned hl
  constructor
  · rintro h id ⟨m, hm, hd⟩
    have hr := hdue id m hm hd
    unfold Respawned at hr
    cases hs : spawned id with
    | ok u => rfl
    | error e =>
        -- the entry is gone, so its port cannot have stayed
        simp only [hs] at hr
        have hp := h id
        rw [World.portOf_of_workerOf (World.workerOf_of_lookup hm), World.portOf, hr] at hp
        cases hp
  · intro h id
    by_cases hid : w.DueAt config now id
    · have hok := h id hid
      obtain ⟨m, hm, hd⟩ := hid
      have hr := hdue id m hm hd
      unfold Respawned at hr
      simp only [hok] at hr
      obtain ⟨pid, -, hw⟩ := hr
      rw [World.portOf_of_workerOf hw,
        World.portOf_of_workerOf (World.workerOf_of_lookup hm)]
    · unfold World.portOf
      rw [hother id hid]

theorem World.mem_workers_of_portOf {w w' : World} {id : WorkerId}
    (h : w'.portOf id = w.portOf id) (hid : id ∈ w.workers) : id ∈ w'.workers := by
  obtain ⟨k, hk⟩ := World.mem_workers_iff.mp hid
  rw [World.portOf, World.portOf, hk] at h
  obtain ⟨k', hk', -⟩ := Option.map_eq_some_iff.mp h
  exact World.mem_workers_iff.mpr ⟨k', hk'⟩

theorem Keeps.mem_workers {w w' : World} (h : Keeps w w') {id : WorkerId}
    (hid : id ∈ w.workers) : id ∈ w'.workers :=
  World.mem_workers_of_portOf (h.portOf id) hid

/-- Spawning a new worker removes no entry. -/
theorem World.spawnNewWorker_mem {config : PoolConfig} {w : World} {newId id : WorkerId}
    {outcome : Except String Unit} (hid : id ∈ w.workers) :
    id ∈ (w.spawnNewWorker config newId outcome).2.1.workers := by
  rcases w.spawnNewWorker_cases config newId outcome with heq | ⟨port, -, heq⟩
  · rw [heq]
    exact hid
  · rw [heq]
    exact Finmap.mem_insert.mpr (.inr hid)

/-- `restart_worker` removes at most the entry it names, and that only when it
succeeds. -/
theorem World.restartWorker_mem {config : PoolConfig} {w : World} {id newId id' : WorkerId}
    {env : RestartEnv} (hid : id' ∈ w.workers)
    (hout : id' ∉ (w.restartWorker config id newId env).2.1.workers) :
    id' = id ∧ ∃ port, (w.restartWorker config id newId env).1 = .ok (newId, port) := by
  cases w.restartWorker_cases config id newId env with
  | notFound hm heq =>
      rw [heq] at hout
      exact absurd hid hout
  | failed hm hw₁ heq =>
      rw [heq] at hout
      exact absurd (Finmap.mem_modify.mpr (hw₁.keeps.mem_workers hid)) hout
  | @replaced m w₁ hm hw₁ heq =>
      rw [heq] at hout ⊢
      refine ⟨?_, m.worker.port, rfl⟩
      by_contra hne
      have hmem : id' ∈ w₁.workers := hw₁.keeps.mem_workers hid
      exact hout (Finmap.mem_erase.mpr ⟨hne, Finmap.mem_insert.mpr (.inr hmem)⟩)

/-- One step loses no worker exactly when the spawns of its restart sweep succeed. -/
theorem noWorkerLost_iff {config : PoolConfig} {w w' : World} {a : Action} {out : List PoolEvent}
    (h : (system config).step w a = some (w', out)) :
    NoWorkerLost config w a w' ↔ SweepSpawns config w a := by
  have keeps : Keeps w w' → a.spawns = false →
      (NoWorkerLost config w a w' ↔ SweepSpawns config w a) := by
    intro hk ha
    constructor
    · intro _
      cases a <;> trivial
    · intro _
      refine ⟨fun now order spawned heq => ?_, fun id hid hout => ?_⟩
      · rw [heq] at ha
        cases ha
      · exact absurd (hk.mem_workers hid) hout
  obtain ⟨hk, ha⟩ | ⟨now, order, spawned, rfl, hl, heq⟩ | ⟨newId, outcome, rfl, -, heq⟩ |
    ⟨id, newId, env, rfl, -, heq⟩ := step_cases h
  · exact keeps hk ha
  · obtain ⟨rfl, -⟩ := Prod.ext_iff.mp heq
    have hiff := World.processRestarts_portOf_iff config now spawned hl
    constructor
    · intro hn
      exact hiff.mp (hn.sweep now order spawned rfl)
    · intro hs
      have hp := hiff.mpr hs
      refine ⟨fun _ _ _ ha => ?_, ?_⟩
      · obtain ⟨rfl, rfl, rfl⟩ := Action.processRestarts.inj ha
        exact hp
      · intro id hid hout
        exact absurd (World.mem_workers_of_portOf (hp id) hid) hout
  · obtain ⟨rfl, -⟩ := Prod.ext_iff.mp heq
    refine iff_of_true ⟨by simp, ?_⟩ trivial
    intro id hid hout
    exact absurd (World.spawnNewWorker_mem hid) hout
  · obtain ⟨rfl, -⟩ := Prod.ext_iff.mp heq
    refine iff_of_true ⟨by simp, ?_⟩ trivial
    intro id' hid hout
    obtain ⟨rfl, port, hok⟩ := World.restartWorker_mem hid hout
    exact ⟨newId, env, port, rfl, hok⟩

/-- Along a run, no step loses a worker exactly when every spawn a restart sweep
attempts succeeds. -/
theorem no_worker_lost_iff (config : PoolConfig) (w₀ : World) (as : List Action) :
    (system config).Along (fun w a w' _ => NoWorkerLost config w a w') w₀ as ↔
      (system config).Along (fun w a _ _ => SweepSpawns config w a) w₀ as :=
  Machine.Along.congr (I := fun _ => True) (fun _ _ _ _ _ h => noWorkerLost_iff h)
    (fun _ _ _ _ _ _ _ => trivial) trivial

/-! ## A worker that is lost -/

/-- The worker crashes, a health sweep notices, and the restart sweep that is due
cannot start the binary: the pool is empty afterwards. -/
theorem restart_sweep_loses_worker :
    ¬ ∀ (w₀ : World) (as : List Action) (w : World) (out : List PoolEvent),
        Started oneWorker w₀ → (system oneWorker).run w₀ as = some (w, out) →
        (system oneWorker).Along (fun w a w' _ => NoWorkerLost oneWorker w a w') w₀ as := by
  intro claim
  let crash : List Action := [.exit 0 (some 1), .checkAllHealth (unreachableAt 1000) ["l0-1"]]
  let sweep : Action := .processRestarts 2000 ["l0-1"] fun _ => .error "No such file or directory"
  obtain ⟨⟨w, out⟩, hrun⟩ :
      ∃ r, (system oneWorker).run oneWorkerStarted (crash ++ [sweep]) = some r :=
    Option.isSome_iff_exists.mp (by decide)
  obtain ⟨u, o, v, o', hu, -, hv, hlost⟩ :=
    (claim oneWorkerStarted (crash ++ [sweep]) w out oneWorker_started hrun).last
  have before : ((system oneWorker).run oneWorkerStarted crash).map (fun r => r.1.portOf "l0-1") =
      some (some 3001) := by decide
  have after : ((system oneWorker).run oneWorkerStarted (crash ++ [sweep])).map
      (fun r => r.1.portOf "l0-1") = some none := by decide
  rw [hu] at before
  rw [hv] at after
  have hport := hlost.sweep 2000 ["l0-1"] _ rfl "l0-1"
  simp only [Option.map_some, Option.some.injEq] at before after
  rw [before, after] at hport
  cases hport

end L0Worker.Supervisor
