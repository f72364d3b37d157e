import L0Worker.Lib.Machine
import L0Worker.Supervisor.Pool

/-!
# The supervised system

The machine whose steps are the operations of the pool, each run under the
write lock, and what processes and reader tasks do between them: print a line,
exit, post the next line of a pipe.  Its outputs are the pool events.

Most steps neither add nor remove an entry, and start no process.  `Keeps`
says so for all of them at once: the same ids hold the same workers, and a
process only ages.  The three operations that spawn have a description of
their own: `spawnWorker_ok` for the spawn itself, on which the other lemmas
rest.
-/

namespace L0Worker.Supervisor

/-! ## Steps -/

/-- A step of the system. -/
inductive Action where
  /-- The main loop polls for one worker event. -/
  | tryRecvEvent (now : Instant)
  /-- The first half of a health tick. -/
  | checkAllHealth (env : HealthEnv) (order : List WorkerId)
  /-- The second half of a health tick. -/
  | processRestarts (now : Instant) (order : List WorkerId)
      (spawned : WorkerId → Except String Unit)
  /-- `POST /workers/spawn`. -/
  | spawnNewWorker (workerId : WorkerId) (spawned : Except String Unit)
  /-- `POST /workers/:id/drain`. -/
  | drainWorker (workerId : WorkerId)
  /-- `POST /workers/:id/kill`. -/
  | killWorker (workerId : WorkerId) (killed : Bool)
  /-- `POST /workers/:id/restart`. -/
  | restartWorker (workerId newWorkerId : WorkerId) (env : RestartEnv)
  /-- A process prints a line on stdout. -/
  | print (pid : Pid) (line : Line)
  /-- A process exits. -/
  | exit (pid : Pid) (code : Option Int)
  /-- The stdout reader task of a process takes the next line. -/
  | readStdout (pid : Pid)
  /-- The stderr reader task of a process posts a line. -/
  | readStderr (pid : Pid) (line : String)

/-- The worker an API call names. -/
def Action.apiTarget? : Action → Option WorkerId
  | .drainWorker id | .killWorker id _ | .restartWorker id _ _ => some id
  | _ => none

/-- The step may start processes. -/
def Action.spawns : Action → Bool
  | .processRestarts _ _ _ | .spawnNewWorker _ _ | .restartWorker _ _ _ => true
  | _ => false

/-- The step belongs to a process or a reader task. -/
def Action.isOutside : Action → Bool
  | .print _ _ | .exit _ _ | .readStdout _ | .readStderr _ _ => true
  | _ => false

/-- No process was ever started with this id, and no entry has it. -/
def World.Fresh (w : World) (workerId : WorkerId) : Prop :=
  workerId ∉ w.workers ∧ ∀ p ∈ w.procs, p.workerId ≠ workerId

instance (w : World) (workerId : WorkerId) : Decidable (w.Fresh workerId) :=
  inferInstanceAs (Decidable (_ ∧ _))

/-- The reader task takes the next line of a pipe.  It waits while the event
channel is full. -/
def World.readStdout (w : World) (pid : Pid) : Option World :=
  match w.procs[pid]? with
  | none => none
  | some p =>
      match p.pipe with
      | [] => none
      | line :: rest =>
          let w' := { w with procs := w.procs.modify pid fun p => { p with pipe := rest } }
          match line.toEvent with
          | none => some w'
          | some e =>
              if w.eventRx.length < eventCapacity then
                some { w' with eventRx := w.eventRx ++ [⟨pid, e⟩] }
              else none

/-- One step.  A sweep takes the order in which the map is iterated, which lists
the ids of the pool; a new id comes from the UUID generator, so it is fresh. -/
def World.step (config : PoolConfig) (w : World) : Action → Option (World × List PoolEvent)
  | .tryRecvEvent now => some (w.tryRecvEvent config now)
  | .checkAllHealth env order =>
      if w.workers.Lists order then some (w.checkAllHealth config env order) else none
  | .processRestarts now order spawned =>
      if w.workers.Lists order then some (w.processRestarts config now order spawned) else none
  | .spawnNewWorker workerId spawned =>
      if w.Fresh workerId then some (w.spawnNewWorker config workerId spawned).2 else none
  | .drainWorker workerId => some ((w.drainWorker workerId).2, [])
  | .killWorker workerId killed => some ((w.killWorker workerId killed).2, [])
  | .restartWorker workerId newWorkerId env =>
      if w.Fresh newWorkerId then some (w.restartWorker config workerId newWorkerId env).2
      else none
  | .print pid line =>
      if w.isRunning pid then
        some ({ w with procs := w.procs.modify pid fun p =>
          { p with pipe := p.pipe ++ [line] } }, [])
      else none
  | .exit pid code => if w.isRunning pid then some (w.endProcess pid code, []) else none
  | .readStdout pid => (w.readStdout pid).map fun w' => (w', [])
  | .readStderr pid line =>
      if w.eventRx.length < eventCapacity then some (w.post ⟨pid, .stderr line⟩, []) else none

/-- The system under a configuration. -/
def system (config : PoolConfig) : Machine World Action PoolEvent :=
  ⟨World.step config⟩

/-- A world in which the supervisor can be after startup: `WorkerPool::new`
accepts the configuration, and `start` ran with distinct new ids. -/
def Started (config : PoolConfig) (w : World) : Prop :=
  ∃ w₀ workerIds, World.new config = some w₀ ∧ workerIds.Nodup ∧
    workerIds.length = config.workerCount ∧ w = (w₀.start config workerIds).1

/-- A world the system reaches. -/
def Reachable (config : PoolConfig) (w : World) : Prop :=
  ∃ w₀ as out, Started config w₀ ∧ (system config).run w₀ as = some (w, out)

/-- A new pool is empty. -/
theorem World.new_eq_some {config : PoolConfig} {w₀ : World} (h : World.new config = some w₀) :
    w₀ = { workers := ∅, eventRx := [], procs := [] } := by
  unfold World.new at h
  split at h
  · split at h
    · cases h
    · split at h
      · exact (Option.some.inj h).symm
      · cases h
  · split at h
    · exact (Option.some.inj h).symm
    · cases h

/-! ## Views of a world -/

/-- The worker of an entry. -/
def World.workerOf (w : World) (id : WorkerId) : Option Worker :=
  (w.workers.lookup id).map ManagedWorker.worker

/-- The port of an entry. -/
def World.portOf (w : World) (id : WorkerId) : Option Port :=
  (w.workerOf id).map Worker.port

theorem World.workerOf_eq_some {w : World} {id : WorkerId} {k : Worker} :
    w.workerOf id = some k ↔ ∃ m, w.workers.lookup id = some m ∧ m.worker = k := by
  simp [World.workerOf]

theorem World.workerOf_of_lookup {w : World} {id : WorkerId} {m : ManagedWorker}
    (h : w.workers.lookup id = some m) : w.workerOf id = some m.worker := by
  rw [World.workerOf, h, Option.map_some]

/-- An entry that is left when one was removed was there before. -/
theorem World.workerOf_of_erase {w w' : World} {id id' : WorkerId} {k : Worker}
    (h : w'.workers = w.workers.erase id) (hk : w'.workerOf id' = some k) :
    w.workerOf id' = some k := by
  rw [World.workerOf, h] at hk
  by_cases hid : id' = id
  · rw [hid, Finmap.lookup_erase] at hk
    cases hk
  · rwa [Finmap.lookup_erase_ne hid] at hk

/-- After one entry was set, every entry is that one or was there before. -/
theorem World.workerOf_of_insert {w w' : World} {id id' : WorkerId} {m : ManagedWorker} {k : Worker}
    (h : w'.workers = w.workers.insert id m) (hk : w'.workerOf id' = some k) :
    (id' = id ∧ m.worker = k) ∨ w.workerOf id' = some k := by
  rw [World.workerOf, h] at hk
  by_cases hid : id' = id
  · rw [hid, Finmap.lookup_insert] at hk
    exact .inl ⟨hid, Option.some.inj hk⟩
  · rw [Finmap.lookup_insert_of_ne _ hid] at hk
    exact .inr hk

theorem World.portOf_of_workerOf {w : World} {id : WorkerId} {k : Worker}
    (h : w.workerOf id = some k) : w.portOf id = some k.port := by
  rw [World.portOf, h, Option.map_some]

theorem World.mem_workers_iff {w : World} {id : WorkerId} :
    id ∈ w.workers ↔ ∃ k, w.workerOf id = some k := by
  simp [World.workerOf, Finmap.mem_iff]

theorem World.isRunning_iff {w : World} {pid : Pid} :
    w.isRunning pid = true ↔ ∃ p, w.procs[pid]? = some p ∧ p.Running := by
  unfold World.isRunning
  cases w.procs[pid]? with
  | none => simp
  | some p => simp

/-! ## Entries whose exit is pending -/

theorem ManagedWorker.exitPending_iff {m : ManagedWorker} : m.exitPending = true ↔
    m.state = .starting ∨ m.state = .healthy ∨ m.state = .draining := by
  unfold ManagedWorker.exitPending
  cases m.state <;> simp [WorkerState.isFailed]

theorem ManagedWorker.exitPending_eq_false {m : ManagedWorker} :
    m.exitPending = false ↔ m.state = .stopped ∨ ∃ time, m.state = .failed time := by
  unfold ManagedWorker.exitPending
  cases m.state <;> simp [WorkerState.isFailed]

theorem ManagedWorker.exitPending_of_active {m : ManagedWorker}
    (h : m.state = .healthy ∨ m.state = .starting) : m.exitPending = true :=
  exitPending_iff.mpr (h.elim (fun hs => .inr (.inl hs)) .inl)

theorem ManagedWorker.active_of_exitPending {m : ManagedWorker} (h : m.exitPending = true)
    (hd : m.state ≠ .draining) : m.state = .healthy ∨ m.state = .starting := by
  obtain hs | hs | hs := exitPending_iff.mp h
  · exact .inr hs
  · exact .inl hs
  · exact absurd hs hd

/-! ## Steps that keep the workers -/

/-- A process grows older: it keeps its id and port, and does not come back to life. -/
structure Process.Ages (p p' : Process) : Prop where
  /-- The id stays. -/
  workerId : p'.workerId = p.workerId
  /-- The port stays. -/
  port : p'.port = p.port
  /-- A process that runs ran before. -/
  running : p'.Running → p.Running

theorem Process.Ages.refl (p : Process) : p.Ages p := ⟨rfl, rfl, id⟩

theorem Process.Ages.trans {p q r : Process} (h : p.Ages q) (h' : q.Ages r) : p.Ages r :=
  ⟨h'.workerId.trans h.workerId, h'.port.trans h.port, fun hr => h.running (h'.running hr)⟩

theorem Process.ages_ended (code : Option Int) (p : Process) : p.Ages (p.ended code) := by
  unfold Process.ended
  cases h : p.status with
  | running => exact ⟨rfl, rfl, fun _ => h⟩
  | exited _ => exact Process.Ages.refl p

theorem Process.not_running_ended (code : Option Int) (p : Process) :
    ¬ (p.ended code).Running := by
  unfold Process.ended
  cases h : p.status with
  | running => simp [Process.Running]
  | exited c => simp [Process.Running, h]

/-- The second world has the same entries, up to what the pool records about
them, and the same processes, aged. -/
structure Keeps (w w' : World) : Prop where
  /-- The ids hold the same workers. -/
  workerOf : ∀ id, w'.workerOf id = w.workerOf id
  /-- No process was started. -/
  length : w'.procs.length = w.procs.length
  /-- The processes aged. -/
  ages : ∀ (pid : Pid) (p p' : Process), w.procs[pid]? = some p → w'.procs[pid]? = some p' →
    p.Ages p'

namespace Keeps

theorem refl (w : World) : Keeps w w := by
  refine ⟨fun _ => rfl, rfl, ?_⟩
  intro pid p p' h h'
  rw [h] at h'
  exact Option.some.inj h' ▸ Process.Ages.refl p

theorem proc_exists {w w' : World} (h : Keeps w w') {pid : Pid} {p' : Process}
    (hp' : w'.procs[pid]? = some p') : ∃ p, w.procs[pid]? = some p ∧ p.Ages p' := by
  have hlt : pid < w.procs.length := h.length ▸ (List.getElem?_eq_some_iff.mp hp').1
  exact ⟨w.procs[pid], List.getElem?_eq_getElem hlt,
    h.ages pid _ p' (List.getElem?_eq_getElem hlt) hp'⟩

theorem proc_exists' {w w' : World} (h : Keeps w w') {pid : Pid} {p : Process}
    (hp : w.procs[pid]? = some p) : ∃ p', w'.procs[pid]? = some p' ∧ p.Ages p' := by
  have hlt : pid < w'.procs.length := h.length ▸ (List.getElem?_eq_some_iff.mp hp).1
  exact ⟨w'.procs[pid], List.getElem?_eq_getElem hlt,
    h.ages pid p _ hp (List.getElem?_eq_getElem hlt)⟩

theorem trans {w₁ w₂ w₃ : World} (h : Keeps w₁ w₂) (h' : Keeps w₂ w₃) : Keeps w₁ w₃ := by
  refine ⟨fun id => (h'.workerOf id).trans (h.workerOf id), h'.length.trans h.length, ?_⟩
  intro pid p r hp hr
  obtain ⟨q, hq, hqr⟩ := h'.proc_exists hr
  exact (h.ages pid p q hp hq).trans hqr

theorem portOf {w w' : World} (h : Keeps w w') (id : WorkerId) : w'.portOf id = w.portOf id := by
  unfold World.portOf
  rw [h.workerOf]

/-- Changing what the pool records about the entry of an id. -/
theorem modify (w : World) (id : WorkerId) {f : ManagedWorker → ManagedWorker}
    (hf : ∀ m, (f m).worker = m.worker) :
    Keeps w { w with workers := w.workers.modify id f } := by
  refine ⟨?_, rfl, (refl w).ages⟩
  intro id'
  by_cases h : id' = id
  · subst h
    simp only [World.workerOf, Finmap.lookup_modify, Option.map_map]
    congr 1
    funext m
    exact hf m
  · simp only [World.workerOf, Finmap.lookup_modify_of_ne f _ h]

/-- Replacing the entry of an id by one with the same worker. -/
theorem insert {w : World} {id : WorkerId} {m m' : ManagedWorker}
    (hm : w.workers.lookup id = some m) (hw : m'.worker = m.worker) :
    Keeps w { w with workers := w.workers.insert id m' } := by
  refine ⟨?_, rfl, (refl w).ages⟩
  intro id'
  by_cases h : id' = id
  · subst h
    simp [World.workerOf, hm, hw]
  · simp only [World.workerOf, Finmap.lookup_insert_of_ne _ h]

/-- Aging one process. -/
theorem modifyProc (w : World) (pid : Pid) {f : Process → Process}
    (hf : ∀ p : Process, p.Ages (f p)) :
    Keeps w { w with procs := w.procs.modify pid f } := by
  refine ⟨fun _ => rfl, List.length_modify _ _ _, ?_⟩
  intro pid' p p' hp hp'
  rw [List.getElem?_modify, hp] at hp'
  obtain rfl := Option.some.inj hp'
  split
  · exact hf p
  · exact Process.Ages.refl p

theorem endProcess (w : World) (pid : Pid) (code : Option Int) :
    Keeps w (w.endProcess pid code) :=
  modifyProc w pid (Process.ages_ended code)

theorem kill (w : World) (pid : Pid) (killed : Bool) : Keeps w (w.kill pid killed) := by
  unfold World.kill
  split
  · exact endProcess w pid none
  · exact refl w

theorem post (w : World) (e : Posted) : Keeps w (w.post e) := by
  unfold World.post
  split
  · exact ⟨fun _ => rfl, rfl, (refl w).ages⟩
  · exact refl w

theorem wait (w : World) (k : Worker) (outcome : WaitOutcome) : Keeps w (w.wait k outcome) := by
  cases outcome with
  | exited code => exact (endProcess w k.child code).trans (post _ _)
  | failed => exact post w _
  | timedOut => exact refl w

theorem eventRx {w w' : World} (h : Keeps w w') (q : List Posted) :
    Keeps w { w' with eventRx := q } :=
  ⟨h.workerOf, h.length, h.ages⟩

end Keeps

@[simp] theorem ManagedWorker.onExited_worker (config : PoolConfig) (now : Instant)
    (id : WorkerId) (code : Option Int) (m : ManagedWorker) :
    (m.onExited config now id code).1.worker = m.worker := by
  unfold ManagedWorker.onExited
  split
  · split <;> rfl
  · rfl

@[simp] theorem ManagedWorker.checkFailed_worker (config : PoolConfig) (now : Instant)
    (id : WorkerId) (running : Bool) (reason : String) (m : ManagedWorker) :
    (m.checkFailed config now id running reason).entry.worker = m.worker := by
  unfold ManagedWorker.checkFailed
  split
  · rfl
  · split
    · dsimp only
      split <;> rfl
    · rfl

@[simp] theorem ManagedWorker.check_worker (config : PoolConfig) (now : Instant) (id : WorkerId)
    (port : Port) (result : HealthCheckResult) (running : Bool) (m : ManagedWorker) :
    (m.check config now id port result running).entry.worker = m.worker := by
  cases result with
  | healthy status => exact m.checkHealthy_worker now id port
  | unhealthy reason => exact m.checkFailed_worker config now id running reason
  | unreachable reason => exact m.checkFailed_worker config now id running reason

theorem World.handleWorkerEvent_keeps (config : PoolConfig) (now : Instant) (w : World)
    (e : WorkerEvent) : Keeps w (w.handleWorkerEvent config now e).1 := by
  cases e with
  | ready port id => exact Keeps.modify w id (fun _ => rfl)
  | draining id => exact Keeps.modify w id (fun _ => rfl)
  | drained id => exact Keeps.refl w
  | exited id code =>
      cases h : w.workers.lookup id with
      | none => simpa only [World.handleWorkerEvent, h] using Keeps.refl w
      | some m =>
          simpa only [World.handleWorkerEvent, h] using
            Keeps.insert h (m.onExited_worker config now id code)
  | stdout line => exact Keeps.refl w
  | stderr line => exact Keeps.refl w

theorem World.tryRecvEvent_keeps (config : PoolConfig) (now : Instant) (w : World) :
    Keeps w (w.tryRecvEvent config now).1 := by
  unfold World.tryRecvEvent
  cases w.eventRx with
  | nil => exact Keeps.refl w
  | cons e rest =>
      exact ((Keeps.refl w).eventRx rest).trans (World.handleWorkerEvent_keeps config now _ e.event)

theorem World.checkOne_keeps (config : PoolConfig) (env : HealthEnv) (w : World)
    (target : WorkerId × Port) : Keeps w (w.checkOne config env target).1 := by
  unfold World.checkOne
  cases h : w.workers.lookup target.1 with
  | none => exact Keeps.refl w
  | some m =>
      dsimp only
      split
      · have hkill := Keeps.kill w m.worker.child (env.killed target.1)
        refine hkill.trans (Keeps.insert (m := m) ?_ ?_)
        · unfold World.kill World.endProcess
          split <;> exact h
        · exact m.check_worker config _ _ _ _ _
      · exact Keeps.insert h (m.check_worker config _ _ _ _ _)

theorem World.checkAllHealth_keeps (config : PoolConfig) (env : HealthEnv)
    (order : List WorkerId) (w : World) : Keeps w (w.checkAllHealth config env order).1 :=
  forEach_rec (I := fun _ w' => Keeps w w')
    (fun t _ w' h => h.trans (World.checkOne_keeps config env w' t)) (Keeps.refl w)

theorem World.drainWorker_keeps (w : World) (id : WorkerId) : Keeps w (w.drainWorker id).2 := by
  unfold World.drainWorker
  cases h : w.workers.lookup id with
  | none => exact Keeps.refl w
  | some m => exact Keeps.insert h rfl

theorem World.killWorker_keeps (w : World) (id : WorkerId) (killed : Bool) :
    Keeps w (w.killWorker id killed).2 := by
  unfold World.killWorker
  cases h : w.workers.lookup id with
  | none => exact Keeps.refl w
  | some m =>
      dsimp only
      split
      · refine (Keeps.kill w m.worker.child killed).trans (Keeps.insert (m := m) ?_ rfl)
        unfold World.kill World.endProcess
        split <;> exact h
      · exact Keeps.insert h rfl

theorem World.readStdout_keeps {w w' : World} {pid : Pid} (h : w.readStdout pid = some w') :
    Keeps w w' := by
  have hpipe : ∀ rest : List Line,
      Keeps w { w with procs := w.procs.modify pid fun p => { p with pipe := rest } } :=
    fun rest => Keeps.modifyProc w pid fun _ => ⟨rfl, rfl, id⟩
  unfold World.readStdout at h
  split at h
  · cases h
  · split at h
    · cases h
    · next p line rest _ =>
      dsimp only at h
      split at h
      · obtain rfl := Option.some.inj h
        exact hpipe rest
      · split at h
        · obtain rfl := Option.some.inj h
          exact (hpipe rest).eventRx _
        · cases h

theorem World.readStdout_workers {w w' : World} {pid : Pid} (h : w.readStdout pid = some w') :
    w'.workers = w.workers := by
  unfold World.readStdout at h
  split at h
  · cases h
  · split at h
    · cases h
    · dsimp only at h
      split at h
      · rw [← Option.some.inj h]
      · split at h
        · rw [← Option.some.inj h]
        · cases h

/-- A step is an operation of the pool, or one of a process or a reader task. -/
inductive PoolStep (config : PoolConfig) (w : World) :
    Action → World → List PoolEvent → Prop where
  | tryRecvEvent (now : Instant) :
      PoolStep config w (.tryRecvEvent now) (w.tryRecvEvent config now).1
        (w.tryRecvEvent config now).2
  | checkAllHealth (env : HealthEnv) {order : List WorkerId} (hl : w.workers.Lists order) :
      PoolStep config w (.checkAllHealth env order) (w.checkAllHealth config env order).1
        (w.checkAllHealth config env order).2
  | processRestarts (now : Instant) {order : List WorkerId}
      (spawned : WorkerId → Except String Unit) (hl : w.workers.Lists order) :
      PoolStep config w (.processRestarts now order spawned)
        (w.processRestarts config now order spawned).1
        (w.processRestarts config now order spawned).2
  | spawnNewWorker {newId : WorkerId} (spawned : Except String Unit) (hf : w.Fresh newId) :
      PoolStep config w (.spawnNewWorker newId spawned)
        (w.spawnNewWorker config newId spawned).2.1 (w.spawnNewWorker config newId spawned).2.2
  | drainWorker (id : WorkerId) : PoolStep config w (.drainWorker id) (w.drainWorker id).2 []
  | killWorker (id : WorkerId) (killed : Bool) :
      PoolStep config w (.killWorker id killed) (w.killWorker id killed).2 []
  | restartWorker (id : WorkerId) {newId : WorkerId} (env : RestartEnv) (hf : w.Fresh newId) :
      PoolStep config w (.restartWorker id newId env)
        (w.restartWorker config id newId env).2.1 (w.restartWorker config id newId env).2.2
  /-- A process or a reader task leaves the entries and announces nothing. -/
  | outside {a : Action} {w' : World} (ha : a.isOutside = true) (hk : Keeps w w')
      (hworkers : w'.workers = w.workers) : PoolStep config w a w' []

theorem poolStep {config : PoolConfig} {w w' : World} {a : Action} {out : List PoolEvent}
    (h : (system config).step w a = some (w', out)) : PoolStep config w a w' out := by
  cases a with
  | tryRecvEvent now =>
      obtain ⟨rfl, rfl⟩ := Prod.ext_iff.mp (Option.some.inj h)
      exact .tryRecvEvent now
  | checkAllHealth env order =>
      obtain ⟨hl, h⟩ := Option.ite_none_right_eq_some.mp h
      obtain ⟨rfl, rfl⟩ := Prod.ext_iff.mp (Option.some.inj h)
      exact .checkAllHealth env hl
  | processRestarts now order spawned =>
      obtain ⟨hl, h⟩ := Option.ite_none_right_eq_some.mp h
      obtain ⟨rfl, rfl⟩ := Prod.ext_iff.mp (Option.some.inj h)
      exact .processRestarts now spawned hl
  | spawnNewWorker newId spawned =>
      obtain ⟨hf, h⟩ := Option.ite_none_right_eq_some.mp h
      obtain ⟨rfl, rfl⟩ := Prod.ext_iff.mp (Option.some.inj h)
      exact .spawnNewWorker spawned hf
  | drainWorker id =>
      obtain ⟨rfl, rfl⟩ := Prod.ext_iff.mp (Option.some.inj h)
      exact .drainWorker id
  | killWorker id killed =>
      obtain ⟨rfl, rfl⟩ := Prod.ext_iff.mp (Option.some.inj h)
      exact .killWorker id killed
  | restartWorker id newId env =>
      obtain ⟨hf, h⟩ := Option.ite_none_right_eq_some.mp h
      obtain ⟨rfl, rfl⟩ := Prod.ext_iff.mp (Option.some.inj h)
      exact .restartWorker id env hf
  | print pid line =>
      obtain ⟨-, h⟩ := Option.ite_none_right_eq_some.mp h
      obtain ⟨rfl, rfl⟩ := Prod.ext_iff.mp (Option.some.inj h)
      exact .outside rfl (Keeps.modifyProc w pid fun _ => ⟨rfl, rfl, id⟩) rfl
  | exit pid code =>
      obtain ⟨-, h⟩ := Option.ite_none_right_eq_some.mp h
      obtain ⟨rfl, rfl⟩ := Prod.ext_iff.mp (Option.some.inj h)
      exact .outside rfl (Keeps.endProcess w pid code) rfl
  | readStdout pid =>
      obtain ⟨v, hv, h⟩ := Option.map_eq_some_iff.mp h
      obtain ⟨rfl, rfl⟩ := Prod.mk.inj h
      exact .outside rfl (World.readStdout_keeps hv) (World.readStdout_workers hv)
  | readStderr pid line =>
      obtain ⟨-, h⟩ := Option.ite_none_right_eq_some.mp h
      obtain ⟨rfl, rfl⟩ := Prod.ext_iff.mp (Option.some.inj h)
      refine .outside rfl (Keeps.post w _) ?_
      unfold World.post
      split <;> rfl

theorem Action.spawns_of_isOutside {a : Action} (ha : a.isOutside = true) : a.spawns = false := by
  cases a with
  | processRestarts now order spawned => cases ha
  | spawnNewWorker newId spawned => cases ha
  | restartWorker id newId env => cases ha
  | _ => rfl

/-- What a step can do: keep the workers, or be one of the three operations that
spawn. -/
theorem step_cases {config : PoolConfig} {w w' : World} {a : Action} {out : List PoolEvent}
    (h : (system config).step w a = some (w', out)) :
    (Keeps w w' ∧ a.spawns = false) ∨
      (∃ now order spawned, a = .processRestarts now order spawned ∧ w.workers.Lists order ∧
        (w', out) = w.processRestarts config now order spawned) ∨
      (∃ newId spawned, a = .spawnNewWorker newId spawned ∧ w.Fresh newId ∧
        (w', out) = (w.spawnNewWorker config newId spawned).2) ∨
      (∃ id newId env, a = .restartWorker id newId env ∧ w.Fresh newId ∧
        (w', out) = (w.restartWorker config id newId env).2) := by
  cases poolStep h with
  | tryRecvEvent now => exact .inl ⟨World.tryRecvEvent_keeps config now w, rfl⟩
  | checkAllHealth env hl => exact .inl ⟨World.checkAllHealth_keeps config env _ w, rfl⟩
  | processRestarts now spawned hl => exact .inr (.inl ⟨now, _, spawned, rfl, hl, rfl⟩)
  | spawnNewWorker spawned hf => exact .inr (.inr (.inl ⟨_, spawned, rfl, hf, rfl⟩))
  | drainWorker id => exact .inl ⟨World.drainWorker_keeps w id, rfl⟩
  | killWorker id killed => exact .inl ⟨World.killWorker_keeps w id killed, rfl⟩
  | restartWorker id env hf => exact .inr (.inr (.inr ⟨id, _, env, rfl, hf, rfl⟩))
  | outside ha hk hworkers => exact .inl ⟨hk, Action.spawns_of_isOutside ha⟩

/-! ## A pool of one worker -/

/-- One worker on port 3001, the other settings at their defaults. -/
def oneWorker : PoolConfig where
  workerCount := 1
  basePort := 3001
  restartDelay := 500
  maxRestartDelay := 30000
  maxConsecutiveFailures := 5
  maxUnhealthyChecks := 2
  maxPort := 49151

/-- The pool of one worker right after startup. -/
def oneWorkerStarted : World :=
  (World.start oneWorker { workers := ∅, eventRx := [], procs := [] } ["l0-1"]).1

theorem oneWorker_started : Started oneWorker oneWorkerStarted :=
  ⟨_, ["l0-1"], rfl, by simp, rfl, rfl⟩

/-- A health sweep that reaches no worker. -/
def unreachableAt (now : Instant) : HealthEnv where
  result := fun _ => .unreachable "Connection failed"
  now := fun _ => now
  killed := fun _ => true

end L0Worker.Supervisor
