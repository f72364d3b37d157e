import L0Worker.Supervisor.Entry

/-!
# The order of the map

The sweeps iterate a hash map, whose order is random.  Whatever the order, a health check
makes the same of every entry and announces the same about every id
(`doHealthCheck_order`).  Only the `Pid`s of respawned processes depend on the order, since
they number the spawns, so entries are compared by their `contentOf`.
-/

namespace L0Worker.Supervisor

variable {config : PoolConfig} {env : HealthEnv} {now : Instant}
  {spawned : WorkerId → Except String Unit} {w w' : World} {id : WorkerId}

/-! ## The content of an entry -/

/-- The entry with another child. -/
def ManagedWorker.withChild (pid : Pid) (m : ManagedWorker) : ManagedWorker :=
  { m with worker := { m.worker with child := pid } }

/-- An entry of the pool and its process, whatever the number of the process. -/
abbrev Content := ManagedWorker × Option Process

/-- Forget the number of the process. -/
def Content.of (e : ManagedWorker × Option Process) : Content := (e.1.withChild 0, e.2)

/-- What the pool holds for an id. -/
def World.contentOf (w : World) (id : WorkerId) : Option Content := (w.entryOf id).map Content.of

theorem World.contentOf_of_lookup {m : ManagedWorker} (hm : w.workers.lookup id = some m) :
    w.contentOf id = some (m.withChild 0, w.procs[m.worker.child]?) := by
  rw [World.contentOf, World.entryOf_of_lookup hm]
  rfl

theorem World.contentOf_eq_none (hm : w.workers.lookup id = none) : w.contentOf id = none := by
  rw [World.contentOf, World.entryOf_eq_none hm]
  rfl

/-! ## Health checks -/

/-- A check that comes to something, with another child. -/
def Checked.withChild (pid : Pid) (c : Checked) : Checked :=
  ⟨c.entry.withChild pid, c.events, c.kill⟩

/-- A check does not ask for the number of the process. -/
theorem ManagedWorker.check_withChild (pid : Pid) (now : Instant) (port : Port)
    (result : HealthCheckResult) (running : Bool) (m : ManagedWorker) :
    (m.withChild pid).check config now id port result running =
      (m.check config now id port result running).withChild pid := by
  have hfailed : ∀ reason, (m.withChild pid).checkFailed config now id running reason =
      (m.checkFailed config now id running reason).withChild pid := by
    intro reason
    unfold ManagedWorker.checkFailed
    rw [apply_ite (Checked.withChild pid), apply_ite (Checked.withChild pid)]
    dsimp only
    rw [apply_ite (Checked.withChild pid)]
    rfl
  cases result with
  | healthy status =>
      show (m.withChild pid).checkHealthy now id port = _
      unfold ManagedWorker.check ManagedWorker.checkHealthy
      dsimp only
      rw [apply_ite (Checked.withChild pid)]
      rfl
  | unhealthy reason => exact hfailed reason
  | unreachable reason => exact hfailed reason

/-- What a check makes of the content of an entry. -/
def Content.check (config : PoolConfig) (env : HealthEnv) (target : WorkerId × Port)
    (e : Content) : Content × List PoolEvent :=
  let c := e.1.checkWith config env target e.2
  ((c.1.entry, c.2), c.1.events)

theorem World.checkOne_content (config : PoolConfig) (env : HealthEnv) (w : World)
    (target : WorkerId × Port) :
    (w.checkOne config env target).1.contentOf target.1 =
        (w.contentOf target.1).map (fun e => (e.check config env target).1) ∧
      (w.checkOne config env target).2 =
        ((w.contentOf target.1).map fun e => (e.check config env target).2).getD [] := by
  cases hm : w.workers.lookup target.1 with
  | none =>
      rw [World.contentOf_eq_none hm, World.checkOne, hm]
      exact ⟨World.contentOf_eq_none hm, rfl⟩
  | some m =>
      obtain ⟨hentry, hout⟩ := World.checkOne_of_lookup config env target hm
      rw [World.contentOf, hentry, hout, World.contentOf_of_lookup hm]
      simp only [Option.map_some, Option.getD_some, Content.check, Content.of,
        ManagedWorker.checkWith, ManagedWorker.check_withChild, Checked.withChild, and_self]

/-- The order of a health sweep does not matter. -/
theorem World.checkAllHealth_order (config : PoolConfig) (env : HealthEnv) (hown : OwnChildren w)
    {o o' : List WorkerId} (ho : o.Nodup) (hperm : o.Perm o') :
    (∀ id, (w.checkAllHealth config env o).1.contentOf id =
        (w.checkAllHealth config env o').1.contentOf id) ∧
      (∀ id, named id (w.checkAllHealth config env o).2 =
        named id (w.checkAllHealth config env o').2) ∧
      (w.checkAllHealth config env o).2.Perm (w.checkAllHealth config env o').2 := by
  refine ((World.checkOne_framed config env).map (Option.map Content.of)).perm ?_ hown hown
    (fun _ => rfl) (World.checkTargets_nodup ho) (hperm.filterMap _)
  intro u v target _ _ hview
  replace hview : u.contentOf target.1 = v.contentOf target.1 := hview
  obtain ⟨hcontent, hout⟩ := u.checkOne_content config env target
  obtain ⟨hcontent', hout'⟩ := v.checkOne_content config env target
  rw [hview] at hcontent hout
  exact ⟨hcontent.trans hcontent'.symm, hout.trans hout'.symm⟩

/-! ## Restarts -/

/-- Which restarts are due is read off the contents. -/
theorem World.dueRestarts_eq (w : World) (order : List WorkerId) :
    w.dueRestarts config now order = order.filterMap fun id => (w.contentOf id).bind fun e =>
      if e.1.isDue config now then some (id, e.1.worker.port, e.1.consecutiveFailures)
      else none := by
  refine List.filterMap_congr fun id _ => ?_
  cases hm : w.workers.lookup id with
  | none =>
      rw [World.contentOf_eq_none hm]
      rfl
  | some m =>
      rw [World.contentOf_of_lookup hm]
      rfl

/-- Neither does the order of a restart sweep, after sweeps that left the same contents. -/
theorem World.processRestarts_order (config : PoolConfig) (now : Instant)
    (spawned : WorkerId → Except String Unit) (hown : OwnChildren w) (hown' : OwnChildren w')
    (hsame : ∀ id, w.contentOf id = w'.contentOf id) {o o' : List WorkerId} (ho : o.Nodup)
    (hperm : o.Perm o') :
    (∀ id, (w.processRestarts config now o spawned).1.contentOf id =
        (w'.processRestarts config now o' spawned).1.contentOf id) ∧
      (∀ id, named id (w.processRestarts config now o spawned).2 =
        named id (w'.processRestarts config now o' spawned).2) ∧
      (w.processRestarts config now o spawned).2.Perm
        (w'.processRestarts config now o' spawned).2 := by
  have hdue : (w.dueRestarts config now o).Perm (w'.dueRestarts config now o') := by
    rw [World.dueRestarts_eq, World.dueRestarts_eq, funext hsame]
    exact hperm.filterMap _
  refine ((World.restartOne_framed_entryOf spawned).map (Option.map Content.of)).perm ?_ hown
    hown' hsame (World.dueRestarts_nodup ho) hdue
  intro u v due _ _ _
  show (u.restartOne spawned due).1.contentOf due.1 = (v.restartOne spawned due).1.contentOf due.1 ∧
    (u.restartOne spawned due).2 = (v.restartOne spawned due).2
  cases hs : spawned due.1 with
  | error e =>
      rw [World.restartOne_error hs, World.restartOne_error hs]
      rw [World.contentOf_eq_none (Finmap.lookup_erase _ _),
        World.contentOf_eq_none (Finmap.lookup_erase _ _)]
      exact ⟨rfl, rfl⟩
  | ok u =>
      have hnew : ∀ x : World, (x.restartOne spawned due).1.contentOf due.1 =
          some (⟨⟨due.1, due.2.1, 0⟩, .starting, due.2.2, 0, none⟩,
            some ⟨due.1, due.2.1, .running, []⟩) := by
        intro x
        have hlookup : (x.restartOne spawned due).1.workers.lookup due.1 =
            some ⟨⟨due.1, due.2.1, x.procs.length⟩, .starting, due.2.2, 0, none⟩ := by
          rw [World.restartOne_ok hs, Finmap.lookup_modify, Finmap.lookup_insert]
          rfl
        rw [World.contentOf_of_lookup hlookup, World.restartOne_ok hs]
        exact congrArg (fun p => some (_, p)) List.getElem?_concat_length
      rw [hnew, hnew, World.restartOne_ok hs, World.restartOne_ok hs]
      exact ⟨rfl, rfl⟩

/-! ## Both sweeps -/

/-- A health check does not depend on the orders in which its sweeps iterate the map: it
makes the same of every entry, and announces the same things, those about one id in the
same order. -/
theorem doHealthCheck_order (config : PoolConfig) (env : HealthEnv) (now : Instant)
    (spawned : WorkerId → Except String Unit) {w : World} (hown : OwnChildren w)
    {o₁ r₁ o₂ r₂ : List WorkerId} (ho₁ : w.workers.Lists o₁) (hr₁ : w.workers.Lists r₁)
    (ho₂ : w.workers.Lists o₂) (hr₂ : w.workers.Lists r₂) :
    (∀ id, (w.doHealthCheck config env now spawned o₁ r₁).1.contentOf id =
        (w.doHealthCheck config env now spawned o₂ r₂).1.contentOf id) ∧
      (w.doHealthCheck config env now spawned o₁ r₁).2.Perm
        (w.doHealthCheck config env now spawned o₂ r₂).2 ∧
      ∀ id, named id (w.doHealthCheck config env now spawned o₁ r₁).2 =
        named id (w.doHealthCheck config env now spawned o₂ r₂).2 := by
  have hkeeps : ∀ o, OwnChildren (w.checkAllHealth config env o).1 :=
    fun o => hown.keeps (World.checkAllHealth_keeps config env o w)
  obtain ⟨hcontent, hnamed, hperm⟩ :=
    World.checkAllHealth_order config env hown ho₁.1 (ho₁.perm ho₂)
  obtain ⟨hcontent', hnamed', hperm'⟩ := World.processRestarts_order config now spawned
    (hkeeps o₁) (hkeeps o₂) hcontent hr₁.1 (hr₁.perm hr₂)
  refine ⟨hcontent', hperm.append hperm', ?_⟩
  intro id
  simp only [World.doHealthCheck, named_append]
  rw [hnamed id, hnamed' id]

/-- Two workers, restarted without delay. -/
def twoWorkers : PoolConfig := { oneWorker with workerCount := 2, maxRestartDelay := 0 }

/-- Both of them crashed before their first check. -/
def twoCrashed : World :=
  let w := (World.start twoWorkers { workers := ∅, eventRx := [], procs := [] } ["l0-1", "l0-2"]).1
  (w.endProcess 0 (some 1)).endProcess 1 (some 1)

theorem twoCrashed_ownChildren : OwnChildren twoCrashed := by
  have hnew : World.new twoWorkers = some ⟨∅, [], []⟩ := rfl
  have hplaced := World.start_placed twoWorkers hnew ["l0-1", "l0-2"]
  exact hplaced.ownChildren.keeps ((Keeps.endProcess _ 0 _).trans (Keeps.endProcess _ 1 _))

/-- The health check that finds both crashed and respawns both. -/
def twoChecked (order order' : List WorkerId) : World × List PoolEvent :=
  twoCrashed.doHealthCheck twoWorkers (unreachableAt 500) 500 (fun _ => .ok ()) order order'

theorem doHealthCheck_order_two :
    let r := twoChecked ["l0-1", "l0-2"] ["l0-1", "l0-2"]
    let r' := twoChecked ["l0-2", "l0-1"] ["l0-2", "l0-1"]
    (∀ id, r.1.contentOf id = r'.1.contentOf id) ∧ r.2.Perm r'.2 ∧
      ∀ id, named id r.2 = named id r'.2 :=
  doHealthCheck_order twoWorkers (unreachableAt 500) 500 (fun _ => .ok ()) twoCrashed_ownChildren
    (by decide) (by decide) (by decide) (by decide)

/-- The order does show in the list of all events. -/
example : (twoChecked ["l0-1", "l0-2"] ["l0-1", "l0-2"]).2 ≠
    (twoChecked ["l0-2", "l0-1"] ["l0-2", "l0-1"]).2 := by decide

end L0Worker.Supervisor
