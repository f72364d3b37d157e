import L0Worker.Supervisor.Directory
import L0Worker.Supervisor.Genuine
import L0Worker.Supervisor.Ownership

/-!
# The supervisor is a directory

What the API answers over any run, whatever processes, sweeps and worker events do between the
requests.  `World.directory` is the directory that a world shows.  Every answer is one that
this directory gives, and what happens between the answers leaves it alone, except for a
restart sweep in which a spawn fails: such a sweep forgets the worker (`api_serves_directory`).

`one_port_per_id`, `gone_stays_gone` and `listing_total` carry over what the directory promises.
-/

namespace L0Worker.Supervisor

/-! ## The directory of a world -/

/-- The workers of the pool. -/
def World.addresses (w : World) : Finset (WorkerId × Port) :=
  w.workers.keys.biUnion fun id => ((w.portOf id).map fun port => (id, port)).toFinset

theorem World.mem_addresses {w : World} {id : WorkerId} {port : Port} :
    (id, port) ∈ w.addresses ↔ w.portOf id = some port := by
  simp only [World.addresses, Finset.mem_biUnion, Option.mem_toFinset, Option.mem_def,
    Option.map_eq_some_iff, Prod.mk.injEq, Finmap.mem_keys]
  constructor
  · rintro ⟨id', -, port', hport, rfl, rfl⟩
    exact hport
  · intro hport
    obtain ⟨k, hk, -⟩ := Option.map_eq_some_iff.mp hport
    exact ⟨id, World.mem_workers_iff.mpr ⟨k, hk⟩, port, hport, rfl, rfl⟩

/-- Entries are workers that were started, and an id was started on one port. -/
structure Consistent (w : World) : Prop where
  started : ∀ id port, w.portOf id = some port → (id, port) ∈ w.procs.map Process.address
  onePort : ∀ {id p q}, (id, p) ∈ w.procs.map Process.address →
    (id, q) ∈ w.procs.map Process.address → p = q

/-- The directory a world shows. -/
def World.directory (w : World) (h : Consistent w) : Directory where
  entries := w.addresses
  given := (w.procs.map Process.address).toFinset
  entries_subset := by
    rintro ⟨id, port⟩ hport
    exact List.mem_toFinset.mpr (h.started id port (World.mem_addresses.mp hport))
  onePort hp hq := h.onePort (List.mem_toFinset.mp hp) (List.mem_toFinset.mp hq)

section Worlds

variable {config : PoolConfig} {w w' : World} {h : Consistent w} {h' : Consistent w'}
variable {id : WorkerId}

theorem World.directory_has : (w.directory h).Has id ↔ ∃ m, w.workers.lookup id = some m := by
  constructor
  · rintro ⟨port, hport⟩
    obtain ⟨k, hk, -⟩ := Option.map_eq_some_iff.mp (World.mem_addresses.mp hport)
    obtain ⟨m, hm, -⟩ := World.workerOf_eq_some.mp hk
    exact ⟨m, hm⟩
  · rintro ⟨m, hm⟩
    exact ⟨m.worker.port,
      World.mem_addresses.mpr (World.portOf_of_workerOf (World.workerOf_of_lookup hm))⟩

/-- The UUID generator yields an id that is new to the directory. -/
theorem World.directory_fresh (hf : w.Fresh id) : (w.directory h).Fresh id := by
  intro port hport
  obtain ⟨p, hp, heq⟩ := List.mem_map.mp (List.mem_toFinset.mp hport)
  exact hf.2 p hp (congrArg Prod.fst heq)

theorem World.directory_eq (hport : ∀ id, w'.portOf id = w.portOf id)
    (hgiven : ∀ address, address ∈ w'.procs.map Process.address ↔
      address ∈ w.procs.map Process.address) : w'.directory h' = w.directory h := by
  refine Directory.ext ?_ ?_
  · ext ⟨id, port⟩
    show (id, port) ∈ w'.addresses ↔ (id, port) ∈ w.addresses
    rw [World.mem_addresses, World.mem_addresses, hport]
  · ext address
    show address ∈ (w'.procs.map Process.address).toFinset ↔
      address ∈ (w.procs.map Process.address).toFinset
    rw [List.mem_toFinset, List.mem_toFinset, hgiven]

theorem Keeps.directory (hk : Keeps w w') : w'.directory h' = w.directory h := by
  have hgiven : AnnouncesSpawns w w' [] := AnnouncesSpawns.of_keeps hk rfl
  refine World.directory_eq hk.portOf fun address => ?_
  rw [hgiven, List.filterMap_nil, List.append_nil]

/-! ## Worlds stay consistent -/

/-- A step starts workers under ids that are new, or where it finds them. -/
theorem started_or_fresh (hp : Placed w) (hm : Matches w) {a : Action} {out : List PoolEvent}
    (hstep : (system config).step w a = some (w', out)) {id : WorkerId} {port : Port}
    (he : PoolEvent.workerSpawned id port ∈ out) :
    (id, port) ∈ w.procs.map Process.address ∨
      w.Fresh id ∧ named id out = [.workerSpawned id port] := by
  have hentry := step_entry hp hstep id
  have hmem : PoolEvent.workerSpawned id port ∈ named id out := mem_named.mpr ⟨he, rfl⟩
  cases ha : a.spawns with
  | false => exact nomatch hentry.spawned?_eq_none ha _ hmem
  | true =>
      generalize named id out = evs at hentry hmem ⊢
      generalize w'.workers.lookup id = entry at hentry
      cases hentry with
      | untouched => cases hmem
      | @respawned now order spawned m pid hlookup hdue hs =>
          cases List.mem_singleton.mp hmem
          obtain ⟨-, haddress⟩ := hm id m.worker (World.workerOf_of_lookup hlookup)
          obtain ⟨p, hp, heq⟩ := Option.map_eq_some_iff.mp haddress
          exact .inl (List.mem_map.mpr ⟨p, List.mem_of_getElem? hp, heq⟩)
      | added port' pid hf hnew =>
          cases List.mem_singleton.mp hmem
          exact .inr ⟨hf, rfl⟩
      | replaced | restartFailed | lost => cases hmem
      | _ => cases ha

theorem Matches.started (hm : Matches w) (id : WorkerId) (port : Port)
    (hport : w.portOf id = some port) : (id, port) ∈ w.procs.map Process.address := by
  obtain ⟨k, hk, rfl⟩ := Option.map_eq_some_iff.mp hport
  obtain ⟨-, haddress⟩ := hm id k hk
  obtain ⟨p, hp, heq⟩ := Option.map_eq_some_iff.mp haddress
  exact List.mem_map.mpr ⟨p, List.mem_of_getElem? hp, heq⟩

theorem Consistent.step (hp : Placed w) (hm : Matches w) (h : Consistent w) {a : Action}
    {out : List PoolEvent} (hstep : (system config).step w a = some (w', out)) :
    Consistent w' := by
  refine ⟨(hm.step hstep).started, ?_⟩
  have hspawned : ∀ {id port}, (id, port) ∈ out.filterMap PoolEvent.spawned? →
      PoolEvent.workerSpawned id port ∈ out := by
    intro id port hmem
    obtain ⟨e, he, heq⟩ := List.mem_filterMap.mp hmem
    cases e with
    | workerSpawned id' port' =>
        cases heq
        exact he
    | _ => cases heq
  have hknown : ∀ {id port}, w.Fresh id → (id, port) ∉ w.procs.map Process.address := by
    intro id port hf hmem
    obtain ⟨p, hp, heq⟩ := List.mem_map.mp hmem
    exact hf.2 p hp (congrArg Prod.fst heq)
  intro id p q hip hiq
  rw [step_announces hp hstep, List.mem_append] at hip hiq
  replace hip := hip.imp_right fun hmem => started_or_fresh hp hm hstep (hspawned hmem)
  replace hiq := hiq.imp_right fun hmem => started_or_fresh hp hm hstep (hspawned hmem)
  obtain hip | hip | ⟨hf, hevs⟩ := hip
  · obtain hiq | hiq | ⟨hf, -⟩ := hiq
    · exact h.onePort hip hiq
    · exact h.onePort hip hiq
    · exact absurd hip (hknown hf)
  · obtain hiq | hiq | ⟨hf, -⟩ := hiq
    · exact h.onePort hip hiq
    · exact h.onePort hip hiq
    · exact absurd hip (hknown hf)
  · obtain hiq | hiq | ⟨-, hevs'⟩ := hiq
    · exact absurd hiq (hknown hf)
    · exact absurd hiq (hknown hf)
    · rw [hevs] at hevs'
      cases hevs'
      rfl

/-! ## Answers -/

theorem WorkerState.text_eq_healthy {s : WorkerState} : s.text = "healthy" ↔ s = .healthy := by
  cases s <;> simp [WorkerState.text]

theorem mem_getWorkersStatus {order : List WorkerId} (hl : w.workers.Lists order)
    {s : PoolWorkerStatus} :
    s ∈ w.getWorkersStatus order ↔ ∃ id m, w.workers.lookup id = some m ∧ m.status id = s := by
  simp only [World.getWorkersStatus, List.mem_filterMap, Option.map_eq_some_iff]
  constructor
  · rintro ⟨id, -, m, hm, hs⟩
    exact ⟨id, m, hm, hs⟩
  · rintro ⟨id, m, hm, hs⟩
    refine ⟨id, hl.mem_iff.mpr ?_, m, hm, hs⟩
    exact World.mem_workers_iff.mpr ⟨m.worker, World.workerOf_of_lookup hm⟩

/-- Every worker has one status. -/
theorem getWorkersStatus_ids {order : List WorkerId} (hl : w.workers.Lists order) :
    (w.getWorkersStatus order).map PoolWorkerStatus.id = order := by
  have hentry : ∀ id ∈ order, ((w.workers.lookup id).map (ManagedWorker.status id)).map
      PoolWorkerStatus.id = some id := by
    intro id hid
    obtain ⟨k, hk⟩ := World.mem_workers_iff.mp (hl.mem_iff.mp hid)
    obtain ⟨m, hm, -⟩ := World.workerOf_eq_some.mp hk
    rw [hm]
    rfl
  rw [World.getWorkersStatus, List.map_filterMap]
  exact (List.filterMap_congr hentry).trans List.filterMap_some

theorem mem_getWorkersStatus_address {order : List WorkerId} (hl : w.workers.Lists order)
    {address : WorkerId × Port} :
    address ∈ (w.getWorkersStatus order).map PoolWorkerStatus.address ↔
      address ∈ (w.directory h).entries := by
  obtain ⟨id, port⟩ := address
  show _ ↔ (id, port) ∈ w.addresses
  rw [World.mem_addresses, List.mem_map]
  constructor
  · rintro ⟨s, hs, heq⟩
    obtain ⟨id', m, hm, rfl⟩ := (mem_getWorkersStatus hl).mp hs
    cases heq
    exact World.portOf_of_workerOf (World.workerOf_of_lookup hm)
  · intro hport
    obtain ⟨k, hk, rfl⟩ := Option.map_eq_some_iff.mp hport
    obtain ⟨m, hm, rfl⟩ := World.workerOf_eq_some.mp hk
    exact ⟨m.status id, (mem_getWorkersStatus hl).mpr ⟨id, m, hm, rfl⟩, rfl⟩

theorem healthyCount_eq (w : World) (order : List WorkerId) :
    w.healthyCount order =
      (w.getWorkersStatus order).countP fun s => decide (s.state = "healthy") := by
  induction order with
  | nil => rfl
  | cons id order ih =>
      cases hm : w.workers.lookup id with
      | none =>
          simp only [World.healthyCount, World.getWorkersStatus, List.filterMap_cons, hm,
            Option.map_none] at ih ⊢
          exact ih
      | some m =>
          have htext : decide ((m.status id).state = "healthy") = decide (m.state = .healthy) :=
            decide_eq_decide.mpr WorkerState.text_eq_healthy
          simp only [World.healthyCount, World.getWorkersStatus, List.filterMap_cons, hm,
            Option.map_some, List.countP_cons, htext] at ih ⊢
          rw [ih]

theorem listWorkers_answers {order : List WorkerId} (hl : w.workers.Lists order) :
    (w.directory h).Answers .listWorkers (w.listWorkers order) (w.directory h) := by
  have hnodup : ((w.getWorkersStatus order).map PoolWorkerStatus.id).Nodup := by
    rw [getWorkersStatus_ids hl]
    exact hl.1
  rw [World.listWorkers, healthyCount_eq]
  exact .listed hnodup fun _ => mem_getWorkersStatus_address hl

theorem getWorker_answers (id : WorkerId) {order : List WorkerId} (hl : w.workers.Lists order) :
    (w.directory h).Answers (.getWorker id) (w.getWorker order id) (w.directory h) := by
  unfold World.getWorker
  split
  · next s hs =>
    obtain rfl : s.id = id := by simpa using List.find?_some hs
    refine .found ((mem_getWorkersStatus_address hl).mp ?_)
    exact List.mem_map.mpr ⟨s, List.mem_of_find?_eq_some hs, rfl⟩
  · next hnone =>
    refine .missing rfl ?_
    rintro hhas
    obtain ⟨m, hm⟩ := World.directory_has.mp hhas
    have hs := List.find?_eq_none.mp hnone _ ((mem_getWorkersStatus hl).mpr ⟨id, m, hm, rfl⟩)
    exact hs (decide_eq_true rfl)

/-- A new process adds its address to what was given. -/
theorem given_spawn {w₁ : World} (hk : Keeps w w₁) {newId : WorkerId} {port : Port} :
    ((w₁.procs ++ [(⟨newId, port, .running, []⟩ : Process)]).map Process.address).toFinset =
      insert (newId, port) (w.procs.map Process.address).toFinset := by
  have hgiven : AnnouncesSpawns w w₁ [] := AnnouncesSpawns.of_keeps hk rfl
  rw [List.map_append, hgiven, List.filterMap_nil, List.append_nil]
  ext address
  simp [Process.address]

theorem World.mem_addresses_iff {w : World} {id : WorkerId} {port : Port} :
    (id, port) ∈ w.addresses ↔
      (w.workers.lookup id).map (fun m => m.worker.port) = some port := by
  rw [World.mem_addresses, World.portOf, World.workerOf, Option.map_map]
  rfl

/-- The entry of a new worker comes to those there are. -/
theorem port_insert {workers : Workers} {newId : WorkerId} (hnew : workers.lookup newId = none)
    (m : ManagedWorker) (id : WorkerId) (port : Port) :
    ((workers.insert newId m).lookup id).map (fun m => m.worker.port) = some port ↔
      (id, port) = (newId, m.worker.port) ∨
        (workers.lookup id).map (fun m => m.worker.port) = some port := by
  by_cases hid : id = newId
  · subst hid
    rw [Finmap.lookup_insert, hnew]
    simp [eq_comm]
  · rw [Finmap.lookup_insert_of_ne _ hid]
    simp [hid]

/-- A spawn adds the new worker. -/
theorem directory_spawn {newId : WorkerId} {m : ManagedWorker} (hf : w.Fresh newId)
    (h' : Consistent { w with
      procs := w.procs ++ [⟨newId, m.worker.port, .running, []⟩]
      workers := w.workers.insert newId m }) :
    World.directory _ h' =
      (w.directory h).add newId m.worker.port (World.directory_fresh hf) := by
  refine Directory.ext ?_ (given_spawn (Keeps.refl w))
  ext ⟨id, port⟩
  refine World.mem_addresses_iff.trans ((port_insert hf.lookup m id port).trans ?_)
  rw [← World.mem_addresses_iff]
  exact Finset.mem_insert.symm

/-- A replacement takes the place of the worker. -/
theorem directory_replace {w₁ : World} (hk : Keeps w w₁) (hworkers : w₁.workers = w.workers)
    {id newId : WorkerId} {m : ManagedWorker} (hf : w.Fresh newId)
    (h' : Consistent { w₁ with
      procs := w₁.procs ++ [⟨newId, m.worker.port, .running, []⟩]
      workers := (w₁.workers.insert newId m).erase id }) :
    World.directory _ h' =
      ((w.directory h).add newId m.worker.port (World.directory_fresh hf)).remove id := by
  refine Directory.ext ?_ (given_spawn hk)
  ext ⟨id', port⟩
  refine World.mem_addresses_iff.trans (Iff.trans ?_ Finset.mem_filter.symm)
  show _ ↔ (id', port) ∈ insert _ w.addresses ∧ id' ≠ id
  rw [Finset.mem_insert, World.mem_addresses_iff, ← port_insert hf.lookup m, ← hworkers]
  by_cases hid : id' = id
  · rw [hid, Finmap.lookup_erase]
    simp
  · rw [Finmap.lookup_erase_ne hid]
    simp [hid]

theorem drainWorker_answers (id : WorkerId) :
    (w.directory h).Answers (.drainWorker id)
      (operationAnswer ("Worker " ++ id ++ " drain initiated") (w.drainWorker id).1)
      (w.directory h) := by
  unfold World.drainWorker
  cases hm : w.workers.lookup id with
  | none => exact .missing rfl fun hhas => by simpa [hm] using World.directory_has.mp hhas
  | some m => exact .drained (World.directory_has.mpr ⟨m, hm⟩)

theorem killWorker_answers (id : WorkerId) (killed : Bool) :
    (w.directory h).Answers (.killWorker id)
      (operationAnswer ("Worker " ++ id ++ " killed") (w.killWorker id killed).1)
      (w.directory h) := by
  unfold World.killWorker
  cases hm : w.workers.lookup id with
  | none => exact .missing rfl fun hhas => by simpa [hm] using World.directory_has.mp hhas
  | some m => exact .killed (World.directory_has.mpr ⟨m, hm⟩)

theorem World.spawnNewWorker_results (config : PoolConfig) (w : World) (newId : WorkerId)
    (spawned : Except String Unit) :
    (∃ e, w.spawnNewWorker config newId spawned = (.error e, w, [])) ∨
      ∃ port, w.nextAvailablePort config = .ok port ∧
        w.spawnNewWorker config newId spawned =
          (.ok (newId, port),
            { w with
              procs := w.procs ++ [⟨newId, port, .running, []⟩]
              workers := w.workers.insert newId
                ⟨⟨newId, port, w.procs.length⟩, .starting, 0, 0, none⟩ },
            [.workerSpawned newId port]) := by
  unfold World.spawnNewWorker
  cases w.nextAvailablePort config with
  | error e => exact .inl ⟨e, rfl⟩
  | ok port =>
      cases spawned with
      | error e => exact .inl ⟨.internal e, rfl⟩
      | ok u => exact .inr ⟨port, rfl, rfl⟩

theorem spawnWorker_answers {newId : WorkerId} (spawned : Except String Unit) (hf : w.Fresh newId)
    (h' : Consistent (w.spawnNewWorker config newId spawned).2.1) :
    (w.directory h).Answers .spawnWorker
      (spawnAnswer (w.spawnNewWorker config newId spawned).1) (World.directory _ h') := by
  have hresults := w.spawnNewWorker_results config newId spawned
  generalize w.spawnNewWorker config newId spawned = r at hresults h' ⊢
  obtain ⟨e, rfl⟩ | ⟨port, hport, rfl⟩ := hresults
  · exact .spawnFailed e.text
  · rw [directory_spawn hf h']
    exact .spawned (World.directory_fresh hf) fun id' hentry =>
      World.nextAvailablePort_unused hport id' (World.mem_addresses.mp hentry)

theorem restartWorker_answers (id : WorkerId) {newId : WorkerId} (env : RestartEnv)
    (hf : w.Fresh newId) (h' : Consistent (w.restartWorker config id newId env).2.1) :
    (w.directory h).Answers (.restartWorker id)
      (restartAnswer (w.restartWorker config id newId env).1) (World.directory _ h') := by
  have hcases := w.restartWorker_cases config id newId env
  generalize w.restartWorker config id newId env = r at hcases h' ⊢
  cases hcases with
  | notFound hnone heq =>
      subst heq
      exact .missing rfl fun hhas => by simpa [hnone] using World.directory_has.mp hhas
  | @failed m w₁ e hlookup hw₁ heq =>
      subst heq
      rw [(hw₁.keeps.trans (Keeps.modify w₁ id fun _ => by rfl)).directory (h := h)]
      exact .restartFailed (World.directory_has.mpr ⟨m, hlookup⟩) e
  | @replaced m w₁ hlookup hw₁ heq =>
      subst heq
      have hentry : (id, m.worker.port) ∈ (w.directory h).entries := World.mem_addresses.mpr
        (World.portOf_of_workerOf (World.workerOf_of_lookup hlookup))
      rw [directory_replace hw₁.keeps hw₁.workers hf h']
      exact .restarted hentry (World.directory_fresh hf)

/-! ## Restart sweeps -/

/-- A restart sweep in this step starts every worker that is due. -/
def RespawnsSucceed (config : PoolConfig) (w : World) (a : ApiAction) : Prop :=
  ∀ now order spawned, a = .pool (.processRestarts now order spawned) →
    ∀ due ∈ w.dueRestarts config now order, spawned due.1 = .ok ()

/-- A restart sweep leaves every worker on its port, or loses one whose spawn fails. -/
theorem processRestarts_portOf (hp : Placed w) {now : Instant} {order : List WorkerId}
    {spawned : WorkerId → Except String Unit} {out : List PoolEvent}
    (hstep : (system config).step w (.processRestarts now order spawned) = some (w', out))
    (id : WorkerId) :
    w'.portOf id = w.portOf id ∨ w'.portOf id = none ∧
      ∃ due ∈ w.dueRestarts config now order, spawned due.1 ≠ .ok () := by
  obtain ⟨hl, -⟩ := Option.ite_none_right_eq_some.mp hstep
  have hentry := step_entry hp hstep id
  have hport : ∀ v : World, v.portOf id =
      (v.workers.lookup id).map fun m => m.worker.port := by
    intro v
    rw [World.portOf, World.workerOf, Option.map_map]
    rfl
  rw [hport, hport]
  generalize named id out = evs at hentry
  generalize w'.workers.lookup id = entry at hentry ⊢
  cases hentry with
  | untouched => exact .inl rfl
  | respawned pid hlookup hdue hs =>
      rw [hlookup]
      exact .inl rfl
  | @lost _ _ _ m e hlookup hdue hs =>
      refine .inr ⟨rfl, (id, m.worker.port, m.consecutiveFailures), ?_, ?_⟩
      · have hmem : id ∈ w.workers :=
          World.mem_workers_iff.mpr ⟨m.worker, World.workerOf_of_lookup hlookup⟩
        exact World.mem_dueRestarts.mpr ⟨hl.mem_iff.mpr hmem, m, hlookup, hdue, rfl⟩
      · intro hok
        cases hs.symm.trans hok
  | added port pid hf ha => cases ha

/-- A restart sweep starts no worker that the directory does not know. -/
theorem processRestarts_given (hp : Placed w) (hm : Matches w) {now : Instant}
    {order : List WorkerId} {spawned : WorkerId → Except String Unit} {out : List PoolEvent}
    (hstep : (system config).step w (.processRestarts now order spawned) = some (w', out))
    (address : WorkerId × Port) :
    address ∈ w'.procs.map Process.address ↔ address ∈ w.procs.map Process.address := by
  rw [step_announces hp hstep, List.mem_append]
  refine or_iff_left_of_imp fun hmem => ?_
  obtain ⟨e, he, heq⟩ := List.mem_filterMap.mp hmem
  cases e with
  | workerSpawned id port =>
      cases heq
      refine (started_or_fresh hp hm hstep he).resolve_right ?_
      rintro ⟨hf, hnamed⟩
      have hentry := step_entry hp hstep id
      rw [hnamed] at hentry
      generalize w'.workers.lookup id = entry at hentry
      cases hentry with
      | respawned pid hlookup hdue hs => exact nomatch hf.lookup.symm.trans hlookup
      | added port pid hf ha => cases ha
  | _ => cases heq

theorem processRestarts_served {lossy : Prop} (hp : Placed w) (hm : Matches w) {now : Instant}
    {order : List WorkerId} {spawned : WorkerId → Except String Unit} {out : List PoolEvent}
    (hstep : (system config).step w (.processRestarts now order spawned) = some (w', out))
    (hlossless : ¬ lossy → ∀ due ∈ w.dueRestarts config now order, spawned due.1 = .ok ()) :
    Directory.Served lossy (w.directory h) [] (w'.directory h') := by
  have hports := processRestarts_portOf hp hstep
  have hgiven := processRestarts_given hp hm hstep
  by_cases hlossy : lossy
  · refine .forgotten hlossy ⟨?_, ?_⟩ (.nil _)
    · rintro ⟨id, port⟩ hentry
      have hport := World.mem_addresses.mp hentry
      obtain hsame | ⟨hnone, -⟩ := hports id
      · exact World.mem_addresses.mpr (hsame ▸ hport)
      · exact nomatch hnone.symm.trans hport
    · ext address
      exact List.mem_toFinset.trans ((hgiven address).trans List.mem_toFinset.symm)
  · rw [World.directory_eq (h := h) ?_ hgiven]
    · exact .nil _
    · intro id
      obtain hsame | ⟨-, due, hdue, hfailed⟩ := hports id
      · exact hsame
      · exact absurd (hlossless hlossy due hdue) hfailed

/-! ## The supervisor is a directory -/

theorem ApiStep.served {lossy : Prop} (hp : Placed w) (hm : Matches w) {a : ApiAction}
    {o : List ApiEffect} (hstep : ApiStep config w a w' o)
    (hlossless : ¬ lossy → RespawnsSucceed config w a) :
    Directory.Served lossy (w.directory h) (o.filterMap ApiEffect.answer?) (w'.directory h') := by
  have hanswer : ∀ {request response d}, (w.directory h).Answers request response d →
      Directory.Served lossy (w.directory h) [(request, response)] d :=
    fun hanswers => .answered hanswers (.nil _)
  cases hstep with
  | listWorkers hl => exact hanswer (listWorkers_answers hl)
  | getWorker id hl => exact hanswer (getWorker_answers id hl)
  | spawnWorker spawned hf =>
      rw [List.filterMap_append, filterMap_answer?_announced]
      exact hanswer (spawnWorker_answers spawned hf h')
  | drainWorker id =>
      rw [(World.drainWorker_keeps w id).directory (h := h)]
      exact hanswer (drainWorker_answers id)
  | killWorker id killed =>
      rw [(World.killWorker_keeps w id killed).directory (h := h)]
      exact hanswer (killWorker_answers id killed)
  | restartWorker id env hf =>
      rw [List.filterMap_append, filterMap_answer?_announced]
      exact hanswer (restartWorker_answers id env hf h')
  | pool ha hstep =>
      rw [filterMap_answer?_announced]
      obtain ⟨hk, -⟩ | ⟨now, order, spawned, rfl, -, -⟩ | ⟨newId, spawned, rfl, -⟩ |
        ⟨id, newId, env, rfl, -⟩ := step_cases hstep
      · rw [hk.directory (h := h)]
        exact .nil _
      · exact processRestarts_served hp hm hstep fun hl => hlossless hl now order spawned rfl
      · cases ha
      · cases ha

/-- What is known of a world whose entries are those of its processes. -/
structure Sound (w : World) : Prop where
  placed : Placed w
  entries : Matches w
  consistent : Consistent w

theorem Sound.step (h : Sound w) {a : Action} {out : List PoolEvent}
    (hstep : (system config).step w a = some (w', out)) : Sound w' :=
  ⟨h.placed.step hstep, h.entries.step hstep, h.consistent.step h.placed h.entries hstep⟩

theorem ApiStep.sound (h : Sound w) {a : ApiAction} {o : List ApiEffect}
    (hstep : ApiStep config w a w' o) : Sound w' :=
  (system config).run_invariant (fun _ _ _ _ hu hs => hu.step hs) h hstep.actions

theorem api_run_served {lossy : Prop} {as : List ApiAction} {out : List ApiEffect} (hw : Sound w)
    (hrun : (api config).run w as = some (w', out))
    (hlossless : ¬ lossy → (api config).Along (fun w a _ _ => RespawnsSucceed config w a) w as) :
    ∃ h' : Consistent w', Directory.Served lossy (w.directory hw.consistent)
      (out.filterMap ApiEffect.answer?) (w'.directory h') := by
  induction as generalizing w out with
  | nil =>
      obtain ⟨rfl, rfl⟩ := Prod.mk.inj (Option.some.inj hrun)
      exact ⟨hw.consistent, .nil _⟩
  | cons a as ih =>
      obtain ⟨u, o, o', hu, ht, rfl⟩ := (api config).run_cons_iff.mp hrun
      have hstep := apiStep hu
      have husound := hstep.sound hw
      have hfirst : ¬ lossy → RespawnsSucceed config w a := fun hl =>
        ((Machine.along_cons_iff hu).mp (hlossless hl)).1
      obtain ⟨h', hrest⟩ := ih husound ht fun hl =>
        ((Machine.along_cons_iff hu).mp (hlossless hl)).2
      rw [List.filterMap_append]
      have hserved : Directory.Served lossy (w.directory hw.consistent)
          (o.filterMap ApiEffect.answer?) (u.directory husound.consistent) :=
        hstep.served hw.placed hw.entries hfirst
      exact ⟨h', hserved.append hrest⟩

/-! ## Startup -/

theorem Started.matches {w₀ : World} (h : Started config w₀) : Matches w₀ := by
  obtain ⟨w, ids, hnew, -, -, rfl⟩ := h
  obtain rfl := World.new_eq_some hnew
  exact forEach_rec (I := fun _ u => Matches u) (fun next _ u hu => hu.startOne next)
    fun _ _ hk => by simp [World.workerOf] at hk

theorem Started.addresses {w₀ : World} (h : Started config w₀) :
    ∃ ids : List WorkerId, ids.Nodup ∧ ids.length = config.workerCount ∧
      w₀.procs.map Process.address =
        ids.zipIdx.map (fun q => (q.1, config.basePort + UInt16.ofNat q.2)) ∧
      ∀ q ∈ ids.zipIdx, w₀.portOf q.1 = some (config.basePort + UInt16.ofNat q.2) := by
  obtain ⟨ids, hnd, hlen, hprocs, hin, -⟩ := h.procs
  refine ⟨ids, hnd, hlen, ?_, fun q hq => World.portOf_of_workerOf (hin q hq)⟩
  rw [hprocs, List.map_map]
  rfl

theorem Started.sound {w₀ : World} (h : Started config w₀) : Sound w₀ := by
  have hmatches := h.matches
  refine ⟨Reachable.placed ⟨w₀, [], [], h, rfl⟩, hmatches, hmatches.started, ?_⟩
  obtain ⟨ids, hnd, -, haddresses, -⟩ := h.addresses
  rw [haddresses]
  intro id p q hp hq
  obtain ⟨⟨id', i⟩, hi, heq⟩ := List.mem_map.mp hp
  obtain ⟨⟨id'', j⟩, hj, heq'⟩ := List.mem_map.mp hq
  cases heq
  cases heq'
  rw [List.mem_zipIdx_iff_getElem?] at hi hj
  obtain ⟨hlt, -⟩ := List.getElem?_eq_some_iff.mp hi
  obtain rfl : i = j := (List.getElem?_inj hlt hnd).mp (hi.trans hj.symm)
  rfl

/-- After startup the directory has as many workers as the configuration says. -/
theorem Started.card {w₀ : World} (hstart : Started config w₀) (h : Consistent w₀) :
    (w₀.directory h).entries.card = config.workerCount := by
  obtain ⟨ids, hnd, hlen, haddresses, hports⟩ := hstart.addresses
  have hentries : w₀.addresses = (w₀.procs.map Process.address).toFinset := by
    ext ⟨id, port⟩
    rw [World.mem_addresses, List.mem_toFinset]
    constructor
    · exact h.started id port
    · intro hmem
      rw [haddresses] at hmem
      obtain ⟨q, hq, heq⟩ := List.mem_map.mp hmem
      cases heq
      exact hports q hq
  have hnodup : (w₀.procs.map Process.address).Nodup := by
    refine List.Nodup.of_map Prod.fst ?_
    rw [haddresses, List.map_map]
    simpa [Function.comp_def] using hnd
  show w₀.addresses.card = _
  rw [hentries, List.toFinset_card_of_nodup hnodup, haddresses, List.length_map,
    List.length_zipIdx, hlen]

/-! ## Results -/

/-- In every run of the supervisor with its API, the answers are those of a directory, which
begins with the workers of startup and ends with those of the pool.  It forgets no worker as
long as every worker that is due for a restart can be started. -/
theorem api_serves_directory {w₀ : World} {as : List ApiAction} {out : List ApiEffect}
    (hstart : Started config w₀) (hrun : (api config).run w₀ as = some (w, out)) :
    ∃ (h₀ : Consistent w₀) (h : Consistent w),
      (w₀.directory h₀).entries.card = config.workerCount ∧
      Directory.Served (¬ (api config).Along (fun w a _ _ => RespawnsSucceed config w a) w₀ as)
        (w₀.directory h₀) (out.filterMap ApiEffect.answer?) (w.directory h) := by
  obtain ⟨h, hserved⟩ := api_run_served hstart.sound hrun not_not.mp
  exact ⟨hstart.sound.consistent, h, hstart.card _, hserved⟩

/-- A worker is created, the first one crashes and is respawned, and then it is replaced. -/
def replacedByApi : List ApiAction :=
  [.spawnWorker "l0-2" (.ok ()), .pool (.exit 0 (some 1)),
    .pool (.checkAllHealth (unreachableAt 1000) ["l0-1", "l0-2"]),
    .pool (.processRestarts 2000 ["l0-2", "l0-1"] fun _ => .ok ()),
    .restartWorker "l0-1" "l0-3" ⟨.timedOut, .ok (), 0⟩, .getWorker "l0-1" ["l0-2", "l0-3"],
    .listWorkers ["l0-3", "l0-2"], .drainWorker "l0-1"]

theorem replacedByApi_answers : ∃ w out,
    (api oneWorker).run oneWorkerStarted replacedByApi = some (w, out) ∧
      out.filterMap ApiEffect.answer? =
        [(.spawnWorker, ⟨201, .spawned "l0-2" 3002⟩),
          (.restartWorker "l0-1", ⟨200, .spawned "l0-3" 3001⟩),
          (.getWorker "l0-1", ⟨404, .error "Worker l0-1 not found"⟩),
          (.listWorkers, ⟨200, .workers
            [⟨"l0-3", 3001, "starting", 0⟩, ⟨"l0-2", 3002, "starting", 0⟩] 0 2⟩),
          (.drainWorker "l0-1", ⟨404, .error "Worker l0-1 not found"⟩)] := by
  have hrun : ((api oneWorker).run oneWorkerStarted replacedByApi).map (fun r =>
      r.2.filterMap ApiEffect.answer?) = some
        [(.spawnWorker, ⟨201, .spawned "l0-2" 3002⟩),
          (.restartWorker "l0-1", ⟨200, .spawned "l0-3" 3001⟩),
          (.getWorker "l0-1", ⟨404, .error "Worker l0-1 not found"⟩),
          (.listWorkers, ⟨200, .workers
            [⟨"l0-3", 3001, "starting", 0⟩, ⟨"l0-2", 3002, "starting", 0⟩] 0 2⟩),
          (.drainWorker "l0-1", ⟨404, .error "Worker l0-1 not found"⟩)] := by
    decide +kernel
  obtain ⟨⟨w, out⟩, hrun, hanswers⟩ := Option.map_eq_some_iff.mp hrun
  exact ⟨w, out, hrun, hanswers⟩

theorem api_serves_directory_replaced : ∃ w out,
    (api oneWorker).run oneWorkerStarted replacedByApi = some (w, out) ∧
      ∃ (h₀ : Consistent oneWorkerStarted) (h : Consistent w),
        (oneWorkerStarted.directory h₀).entries.card = 1 ∧
        Directory.Served (¬ (api oneWorker).Along (fun w a _ _ => RespawnsSucceed oneWorker w a)
            oneWorkerStarted replacedByApi)
          (oneWorkerStarted.directory h₀) (out.filterMap ApiEffect.answer?) (w.directory h) := by
  obtain ⟨w, out, hrun, -⟩ := replacedByApi_answers
  exact ⟨w, out, hrun, api_serves_directory oneWorker_started hrun⟩

/-- The workers an effect tells about. -/
def ApiEffect.addresses : ApiEffect → List (WorkerId × Port)
  | .announced e => e.spawned?.toList
  | .answered _ response => Directory.addresses response

/-- Everything the supervisor ever tells about the address of a worker, in answers and in the
announcement of spawns, agrees: an id has one port for good, through restarts and crashes. -/
theorem one_port_per_id {w₀ : World} {as : List ApiAction} {out : List ApiEffect}
    (hstart : Started config w₀) (hrun : (api config).run w₀ as = some (w, out))
    {id : WorkerId} {p q : Port} (hp : (id, p) ∈ out.flatMap ApiEffect.addresses)
    (hq : (id, q) ∈ out.flatMap ApiEffect.addresses) : p = q := by
  obtain ⟨h, hserved⟩ := api_run_served hstart.sound hrun fun hl : ¬ True => absurd trivial hl
  have hannounced := AnnouncesSpawns.run hstart.sound.placed (api_run hrun)
  have htold : ∀ address ∈ out.flatMap ApiEffect.addresses, address ∈ (w.directory h).given := by
    intro address hmem
    obtain ⟨e, he, haddress⟩ := List.mem_flatMap.mp hmem
    cases e with
    | announced e =>
        have hspawned : e.spawned? = some address := Option.mem_toList.mp haddress
        have hevent : address ∈ (out.filterMap ApiEffect.event?).filterMap PoolEvent.spawned? :=
          List.mem_filterMap.mpr ⟨e, List.mem_filterMap.mpr ⟨_, he, rfl⟩, hspawned⟩
        exact List.mem_toFinset.mpr (hannounced ▸ List.mem_append_right _ hevent)
    | answered request response =>
        exact hserved.addresses_given (request, response)
          (List.mem_filterMap.mpr ⟨_, he, rfl⟩) address haddress
  exact (w.directory h).onePort (htold _ hp) (htold _ hq)

/-- What an answer tells is told. -/
theorem mem_addresses_of_answer {out : List ApiEffect} {request : ApiRequest}
    {response : ApiResponse} (h : (request, response) ∈ out.filterMap ApiEffect.answer?)
    {address : WorkerId × Port} (haddress : address ∈ Directory.addresses response) :
    address ∈ out.flatMap ApiEffect.addresses := by
  obtain ⟨e, he, heq⟩ := List.mem_filterMap.mp h
  cases e with
  | announced e => cases heq
  | answered request' response' =>
      obtain ⟨rfl, rfl⟩ := Prod.mk.inj (Option.some.inj heq)
      exact List.mem_flatMap.mpr ⟨_, he, haddress⟩

/-- A worker is told about when it is spawned, and in a listing after another one was replaced. -/
theorem one_port_per_id_replaced : ∃ w out p q,
    (api oneWorker).run oneWorkerStarted replacedByApi = some (w, out) ∧
      (.spawnWorker, ⟨201, .spawned "l0-2" p⟩) ∈ out.filterMap ApiEffect.answer? ∧
      (.listWorkers, ⟨200, .workers [⟨"l0-3", 3001, "starting", 0⟩, ⟨"l0-2", q, "starting", 0⟩]
        0 2⟩) ∈ out.filterMap ApiEffect.answer? ∧ p = q := by
  obtain ⟨w, out, hrun, hanswers⟩ := replacedByApi_answers
  have hspawned : (.spawnWorker, ⟨201, .spawned "l0-2" 3002⟩) ∈
      out.filterMap ApiEffect.answer? := by
    rw [hanswers]
    exact List.mem_cons_self
  have hlisted : (.listWorkers, ⟨200, .workers
      [⟨"l0-3", 3001, "starting", 0⟩, ⟨"l0-2", 3002, "starting", 0⟩] 0 2⟩) ∈
      out.filterMap ApiEffect.answer? := by
    rw [hanswers]
    simp
  have hp : ("l0-2", 3002) ∈ out.flatMap ApiEffect.addresses :=
    mem_addresses_of_answer hspawned (List.mem_singleton_self _)
  have hq : ("l0-2", 3002) ∈ out.flatMap ApiEffect.addresses :=
    mem_addresses_of_answer hlisted (List.mem_cons_of_mem _ List.mem_cons_self)
  exact ⟨w, out, 3002, 3002, hrun, hspawned, hlisted, one_port_per_id oneWorker_started hrun hp hq⟩

/-- Once a request is told that a worker is missing that there was before, every later request
that names it is told so, and no later answer shows it. -/
theorem gone_stays_gone {w₀ : World} {as : List ApiAction} {out : List ApiEffect}
    (hstart : Started config w₀) (hrun : (api config).run w₀ as = some (w, out))
    {before after : List (ApiRequest × ApiResponse)} {request : ApiRequest}
    {response : ApiResponse}
    (hanswers : out.filterMap ApiEffect.answer? = before ++ (request, response) :: after)
    {id : WorkerId} (hname : request.workerId? = some id) (hmissing : response.status = 404)
    (hshown : id ∈ w₀.workers ∨
      ∃ answer ∈ before, id ∈ (Directory.addresses answer.2).map Prod.fst) :
    ∀ answer ∈ after, Directory.Denies id answer.1 answer.2 := by
  obtain ⟨h, hserved⟩ := api_run_served hstart.sound hrun fun hl : ¬ True => absurd trivial hl
  rw [hanswers] at hserved
  obtain ⟨d, hbefore, hafter⟩ := hserved.split
  refine hafter.denies_after_missing rfl hname hmissing fun hf => ?_
  obtain hid | ⟨answer, hanswer, hid⟩ := hshown
  · obtain ⟨k, hk⟩ := World.mem_workers_iff.mp hid
    exact hf k.port (hbefore.given_subset ((World.directory w₀ _).entries_subset
      (World.mem_addresses.mpr (World.portOf_of_workerOf hk))))
  · obtain ⟨⟨id', port⟩, hmem, rfl⟩ := List.mem_map.mp hid
    exact hf port (hbefore.addresses_given answer hanswer _ hmem)

theorem gone_stays_gone_replaced : ∃ w out,
    (api oneWorker).run oneWorkerStarted replacedByApi = some (w, out) ∧
      ∀ answer ∈ [(ApiRequest.listWorkers, (⟨200, .workers
          [⟨"l0-3", 3001, "starting", 0⟩, ⟨"l0-2", 3002, "starting", 0⟩] 0 2⟩ : ApiResponse)),
        (.drainWorker "l0-1", ⟨404, .error "Worker l0-1 not found"⟩)],
        Directory.Denies "l0-1" answer.1 answer.2 := by
  obtain ⟨w, out, hrun, hanswers⟩ := replacedByApi_answers
  have hsplit : out.filterMap ApiEffect.answer? =
      [(.spawnWorker, ⟨201, .spawned "l0-2" 3002⟩),
        (.restartWorker "l0-1", ⟨200, .spawned "l0-3" 3001⟩)] ++
      (.getWorker "l0-1", ⟨404, .error "Worker l0-1 not found"⟩) :: _ := hanswers
  exact ⟨w, out, hrun, gone_stays_gone oneWorker_started hrun hsplit rfl rfl (.inl (by decide))⟩

/-- As long as every worker that is due for a restart can be started, a listing has as many
workers as the configuration says and the API has created since, whatever else happened. -/
theorem listing_total {w₀ : World} {as : List ApiAction} {out : List ApiEffect}
    (hstart : Started config w₀) (hrun : (api config).run w₀ as = some (w, out))
    (hrespawns : (api config).Along (fun w a _ _ => RespawnsSucceed config w a) w₀ as)
    {before after : List (ApiRequest × ApiResponse)} {workers : List PoolWorkerStatus}
    {healthyCount totalCount : Nat}
    (hanswers : out.filterMap ApiEffect.answer? =
      before ++ (.listWorkers, ⟨200, .workers workers healthyCount totalCount⟩) :: after) :
    totalCount = config.workerCount + before.countP Directory.created := by
  obtain ⟨h, hserved⟩ := api_run_served hstart.sound hrun fun _ : ¬ False => hrespawns
  rw [hanswers] at hserved
  obtain ⟨d, hbefore, hafter⟩ := hserved.split
  cases hafter with
  | answered hanswer hrest => rw [hanswer.listed_length, hbefore.card, hstart.card]
  | forgotten hlossy => exact hlossy.elim

theorem listing_total_replaced : ∃ w out,
    (api oneWorker).run oneWorkerStarted replacedByApi = some (w, out) ∧
      2 = oneWorker.workerCount + 1 := by
  obtain ⟨w, out, hrun, hanswers⟩ := replacedByApi_answers
  have hsplit : out.filterMap ApiEffect.answer? =
      [(.spawnWorker, ⟨201, .spawned "l0-2" 3002⟩),
        (.restartWorker "l0-1", ⟨200, .spawned "l0-3" 3001⟩),
        (.getWorker "l0-1", ⟨404, .error "Worker l0-1 not found"⟩)] ++
      (.listWorkers, ⟨200, .workers
        [⟨"l0-3", 3001, "starting", 0⟩, ⟨"l0-2", 3002, "starting", 0⟩] 0 2⟩) :: _ := hanswers
  have hrespawns : ∀ a ∈ replacedByApi, ∀ w : World, RespawnsSucceed oneWorker w a := by
    intro a ha w now order spawned heq
    subst heq
    simp only [replacedByApi, List.mem_cons, reduceCtorEq, ApiAction.pool.injEq,
      Action.processRestarts.injEq, List.not_mem_nil, or_false, false_or] at ha
    obtain ⟨-, -, rfl⟩ := ha
    exact fun _ _ => rfl
  have halong := Machine.along_of_actions (fun a ha w _ _ => hrespawns a ha w) hrun
  exact ⟨w, out, hrun, listing_total oneWorker_started hrun halong hsplit⟩

end Worlds

end L0Worker.Supervisor
