import L0Worker.Supervisor.Arithmetic
import L0Worker.Supervisor.Restart

/-!
# Freed ports

The search for a port looks at all entries of the map, and a worker that was killed or
that exited keeps its entry, `Stopped`, with its port.  Nothing removes such an entry but
`restart_worker`, so the port stays used although no worker listens on it.

`freed_ports_reused_iff` says when `spawn_new_worker` behaves as if ports of stopped
entries were free all the same: when the lowest port that no live entry holds is not the
port of a stopped one.
-/

namespace L0Worker.Supervisor

/-- A live entry, one that is not stopped, holds the port. -/
def World.HoldsLive (w : World) (port : Port) : Prop :=
  ∃ id m, w.workers.lookup id = some m ∧ m.state ≠ .stopped ∧ m.worker.port = port

/-- The ports of the range that no live entry holds. -/
def World.freePorts (config : PoolConfig) (w : World) : Set Port :=
  {port | config.basePort ≤ port ∧ port ≤ config.maxPort ∧ ¬ w.HoldsLive port}

/-- `spawn_new_worker` takes the lowest port that no live entry holds, and it fails for want
of ports only when live entries hold all ports of the range.  The search comes first, so this
does not depend on whether the process then starts. -/
structure ReusesFreed (config : PoolConfig) (w : World) (newId : WorkerId)
    (spawned : Except String Unit) : Prop where
  takes : ∀ port, w.nextAvailablePort config = .ok port → IsLeast (w.freePorts config) port
  /-- Where the process starts, it is on the port that was found. -/
  answers : ∀ port, (w.spawnNewWorker config newId spawned).1 = .ok (newId, port) →
    IsLeast (w.freePorts config) port
  fails : ∀ e, w.nextAvailablePort config = .error e →
    (w.spawnNewWorker config newId spawned).1 = .error e ∧
      ∀ port, config.basePort ≤ port → port ≤ config.maxPort → w.HoldsLive port

/-- The step reuses freed ports, if it spawns a new worker. -/
def SpawnReuses (config : PoolConfig) (w : World) : Action → Prop
  | .spawnNewWorker newId spawned => ReusesFreed config w newId spawned
  | _ => True

/-- The lowest port that no live entry holds is not the port of a stopped one. -/
def LowestUnused (config : PoolConfig) (w : World) : Prop :=
  ∀ port, IsLeast (w.freePorts config) port → port ∉ w.usedPorts

/-- The step meets the condition, if it spawns a new worker. -/
def SpawnsAtLowest (config : PoolConfig) (w : World) : Action → Prop
  | .spawnNewWorker _ _ => LowestUnused config w
  | _ => True

/-! ## Ports -/

/-- Ports are well-ordered. -/
theorem exists_isLeast {s : Set Port} {port : Port} (h : port ∈ s) :
    ∃ least, IsLeast s least := by
  obtain ⟨least, hmem, hle⟩ :=
    (measure UInt16.toNat).wf.has_min s ⟨port, h⟩
  refine ⟨least, hmem, ?_⟩
  intro p hp
  rw [UInt16.le_iff_toNat_le]
  exact Nat.le_of_not_lt (hle p hp)

theorem World.HoldsLive.mem_usedPorts {w : World} {port : Port} (h : w.HoldsLive port) :
    port ∈ w.usedPorts := by
  obtain ⟨id, m, hm, -, hport⟩ := h
  exact Finmap.mem_image.mpr ⟨id, m, hm, hport⟩

variable {config : PoolConfig} {w : World} {newId : WorkerId} {port : Port}

theorem mem_freePorts_of_unused
    (h : port ∈ {p | config.basePort ≤ p ∧ p ≤ config.maxPort ∧ p ∉ w.usedPorts}) :
    port ∈ w.freePorts config :=
  ⟨h.1, h.2.1, fun hlive => h.2.2 hlive.mem_usedPorts⟩

/-! ## One call -/

/-- The process is started on the port that was found. -/
theorem World.spawnNewWorker_port {spawned : Except String Unit}
    (h : (w.spawnNewWorker config newId spawned).1 = .ok (newId, port)) :
    w.nextAvailablePort config = .ok port := by
  unfold World.spawnNewWorker at h
  cases hnext : w.nextAvailablePort config with
  | error e =>
      rw [hnext] at h
      cases h
  | ok found =>
      rw [hnext] at h
      cases spawned with
      | error e => cases h
      | ok u => exact congrArg Except.ok (Prod.mk.inj (Except.ok.inj h)).2

/-- Where no port is found, nothing is started. -/
theorem World.spawnNewWorker_noPorts {spawned : Except String Unit} {e : PoolError}
    (h : w.nextAvailablePort config = .error e) :
    (w.spawnNewWorker config newId spawned).1 = .error e := by
  unfold World.spawnNewWorker
  rw [h]

/-- Where the search fails, every port of the range is used. -/
theorem World.nextAvailablePort_error {e : PoolError}
    (h : w.nextAvailablePort config = .error e) :
    ∀ port, config.basePort ≤ port → port ≤ config.maxPort → port ∈ w.usedPorts := by
  intro port hge hle
  by_contra hunused
  obtain ⟨least, hleast⟩ := exists_isLeast
    (s := {p | config.basePort ≤ p ∧ p ≤ config.maxPort ∧ p ∉ w.usedPorts}) ⟨hge, hle, hunused⟩
  rw [World.nextAvailablePort_eq_ok_iff.mpr hleast] at h
  cases h

theorem reusesFreed_iff {spawned : Except String Unit} :
    ReusesFreed config w newId spawned ↔ LowestUnused config w := by
  constructor
  · intro h port hleast
    cases hnext : w.nextAvailablePort config with
    | error e =>
        obtain ⟨hge, hle, hlive⟩ := hleast.1
        exact absurd ((h.fails e hnext).2 port hge hle) hlive
    | ok found =>
        have hfound := h.takes found hnext
        rw [UInt16.le_antisymm (hleast.2 hfound.1) (hfound.2 hleast.1)]
        exact (World.nextAvailablePort_eq_ok_iff.mp hnext).1.2.2
  · intro h
    have htakes : ∀ port, w.nextAvailablePort config = .ok port →
        IsLeast (w.freePorts config) port := by
      intro port hport
      obtain ⟨hmem, hlower⟩ := World.nextAvailablePort_eq_ok_iff.mp hport
      refine ⟨mem_freePorts_of_unused hmem, ?_⟩
      intro p hp
      -- the lowest free port is unused, so the search would have stopped there
      obtain ⟨least, hleast⟩ := exists_isLeast hp
      have hunused := h least hleast
      exact UInt16.le_trans (hlower ⟨hleast.1.1, hleast.1.2.1, hunused⟩) (hleast.2 hp)
    refine ⟨htakes, fun port hport => htakes port (World.spawnNewWorker_port hport), ?_⟩
    intro e he
    refine ⟨World.spawnNewWorker_noPorts he, ?_⟩
    intro port hge hle
    by_contra hlive
    have hport : port ∈ w.freePorts config := ⟨hge, hle, hlive⟩
    obtain ⟨least, hleast⟩ := exists_isLeast hport
    exact h least hleast (World.nextAvailablePort_error he least hleast.1.1 hleast.1.2.1)

theorem spawnReuses_iff {a : Action} : SpawnReuses config w a ↔ SpawnsAtLowest config w a := by
  unfold SpawnReuses SpawnsAtLowest
  split
  · exact reusesFreed_iff
  · rfl

/-! ## Runs -/

/-- Along a run, every new worker gets the lowest port that no live entry holds, or fails
because there is none, exactly when that port is never the port of a stopped entry. -/
theorem freed_ports_reused_iff (config : PoolConfig) (w₀ : World) (as : List Action) :
    (system config).Along (fun w a _ _ => SpawnReuses config w a) w₀ as ↔
      (system config).Along (fun w a _ _ => SpawnsAtLowest config w a) w₀ as :=
  Machine.Along.congr (I := fun _ => True) (fun _ _ _ _ _ _ => spawnReuses_iff)
    (fun _ _ _ _ _ _ _ => trivial) trivial

/-- The one worker is killed, and a new one does not get its port. -/
theorem killed_worker_keeps_port :
    ¬ ∀ (w₀ : World) (as : List Action) (w : World) (out : List PoolEvent),
        Started oneWorker w₀ → (system oneWorker).run w₀ as = some (w, out) →
        (system oneWorker).Along (fun w a _ _ => SpawnReuses oneWorker w a) w₀ as := by
  intro claim
  let spawn : Action := .spawnNewWorker "l0-2" (.ok ())
  have hkill : ((system oneWorker).run oneWorkerStarted [.killWorker "l0-1" true]).map
      (fun r => (decide (r.1.Fresh "l0-2"), r.1.workers.keys,
        (r.1.workers.lookup "l0-1").map fun m => (m.worker.port, m.state))) =
      some (true, {"l0-1"}, some (3001, .stopped)) := by decide
  obtain ⟨⟨w, out⟩, hrun, hkill⟩ := Option.map_eq_some_iff.mp hkill
  simp only [Prod.mk.injEq, decide_eq_true_eq] at hkill
  obtain ⟨hfresh, hkeys, hentry⟩ := hkill
  have hstep : (system oneWorker).step w spawn =
      some (w.spawnNewWorker oneWorker "l0-2" (.ok ())).2 := if_pos hfresh
  have hspawn : (system oneWorker).run oneWorkerStarted ([.killWorker "l0-1" true] ++ [spawn]) =
      some _ := (system oneWorker).run_concat_iff.mpr ⟨w, out, _, hrun, hstep, rfl⟩
  obtain ⟨u, o, -, -, hu, -, -, hreuses⟩ := (claim _ _ _ _ oneWorker_started hspawn).last
  rw [hrun] at hu
  obtain ⟨rfl, -⟩ := Prod.mk.inj (Option.some.inj hu)
  obtain ⟨m, hm, hm'⟩ := Option.map_eq_some_iff.mp hentry
  obtain ⟨hport, hstopped⟩ := Prod.mk.inj hm'
  -- 3001 is the lowest port without a live entry, but the killed worker has it
  refine reusesFreed_iff.mp hreuses 3001 ⟨⟨by decide, by decide, ?_⟩, fun p hp => hp.1⟩
    (Finmap.mem_image.mpr ⟨"l0-1", m, hm, hport⟩)
  rintro ⟨id, m', hm', hlive, -⟩
  have hid : id ∈ w.workers.keys := Finmap.mem_keys.mpr (Finmap.mem_of_lookup_eq_some hm')
  rw [hkeys, Finset.mem_singleton] at hid
  rw [hid, hm] at hm'
  exact hlive (Option.some.inj hm' ▸ hstopped)

end L0Worker.Supervisor
