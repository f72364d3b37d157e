import L0Worker.Supervisor.Arithmetic
import L0Worker.Supervisor.Restart

/-!
# Who owns which process

Every process that runs should belong to exactly one entry, and no two running
processes should have been started on one port (`SingleOwner`).  The invariant
that carries it is `Owned`: an entry's child is a process with the entry's id
and port, a running process is the child of the entry of its id, and no two
entries share a port.

Only one kind of step can break it.  `process_restarts` drops the entries that
are due without looking at their processes, so a due entry whose process still
runs leaves that process behind.  An entry gets there when `Exited` of an
earlier process is delivered after the respawn: the event names the id and not
the process, and the entry of the running successor is marked failed.
-/

namespace L0Worker.Supervisor

/-! ## The property and its invariant -/

/-- Every running process is the process of exactly one entry, and no two were
started on one port. -/
structure SingleOwner (w : World) : Prop where
  /-- Exactly one entry owns a running process. -/
  owner : ∀ (pid : Pid) (p : Process), w.procs[pid]? = some p → p.Running →
    ∃! id, ∃ k, w.workerOf id = some k ∧ k.child = pid
  /-- Running processes have different ports. -/
  ports : ∀ (pid₁ pid₂ : Pid) (p₁ p₂ : Process), w.procs[pid₁]? = some p₁ →
    w.procs[pid₂]? = some p₂ → p₁.Running → p₂.Running → p₁.port = p₂.port → pid₁ = pid₂

/-- The relation between entries and processes behind `SingleOwner`. -/
structure Owned (w : World) : Prop where
  /-- An entry's child is a process with its id and port. -/
  entry : ∀ id k, w.workerOf id = some k →
    ∃ p, w.procs[k.child]? = some p ∧ p.workerId = id ∧ p.port = k.port
  /-- A running process is the child of the entry of its id. -/
  running : ∀ (pid : Pid) (p : Process), w.procs[pid]? = some p → p.Running →
    ∃ k, w.workerOf p.workerId = some k ∧ k.child = pid
  /-- Entries have different ports. -/
  ports : ∀ id₁ id₂ port, w.portOf id₁ = some port → w.portOf id₂ = some port → id₁ = id₂

namespace Owned

/-- Entries with one child are the same. -/
theorem child_inj {w : World} (h : Owned w) {id₁ id₂ : WorkerId} {k₁ k₂ : Worker}
    (h₁ : w.workerOf id₁ = some k₁) (h₂ : w.workerOf id₂ = some k₂) (hc : k₁.child = k₂.child) :
    id₁ = id₂ := by
  obtain ⟨p₁, hp₁, hid₁, -⟩ := h.entry id₁ k₁ h₁
  obtain ⟨p₂, hp₂, hid₂, -⟩ := h.entry id₂ k₂ h₂
  rw [hc, hp₂] at hp₁
  rw [← hid₁, ← hid₂, Option.some.inj hp₁]

theorem child_lt {w : World} (h : Owned w) {id : WorkerId} {k : Worker}
    (hk : w.workerOf id = some k) : k.child < w.procs.length := by
  obtain ⟨p, hp, -⟩ := h.entry id k hk
  exact (List.getElem?_eq_some_iff.mp hp).1

theorem singleOwner {w : World} (h : Owned w) : SingleOwner w := by
  refine ⟨?_, ?_⟩
  · intro pid p hp hr
    obtain ⟨k, hk, hc⟩ := h.running pid p hp hr
    refine ⟨p.workerId, ⟨k, hk, hc⟩, ?_⟩
    rintro id ⟨k', hk', hc'⟩
    exact h.child_inj hk' hk (hc'.trans hc.symm)
  · intro pid₁ pid₂ p₁ p₂ hp₁ hp₂ hr₁ hr₂ hport
    obtain ⟨k₁, hk₁, rfl⟩ := h.running pid₁ p₁ hp₁ hr₁
    obtain ⟨k₂, hk₂, rfl⟩ := h.running pid₂ p₂ hp₂ hr₂
    obtain ⟨q₁, hq₁, -, hqp₁⟩ := h.entry _ k₁ hk₁
    obtain ⟨q₂, hq₂, -, hqp₂⟩ := h.entry _ k₂ hk₂
    rw [hp₁] at hq₁
    rw [hp₂] at hq₂
    obtain rfl := Option.some.inj hq₁
    obtain rfl := Option.some.inj hq₂
    have hid := h.ports p₁.workerId p₂.workerId p₁.port
      (by rw [World.portOf_of_workerOf hk₁, hqp₁])
      (by rw [World.portOf_of_workerOf hk₂, hport, hqp₂])
    rw [hid, hk₂] at hk₁
    rw [Option.some.inj hk₁]

theorem keeps {w w' : World} (h : Owned w) (hk : Keeps w w') : Owned w' := by
  refine ⟨?_, ?_, ?_⟩
  · intro id k hid
    rw [hk.workerOf] at hid
    obtain ⟨p, hp, hpid, hport⟩ := h.entry id k hid
    obtain ⟨p', hp', hages⟩ := hk.proc_exists' hp
    exact ⟨p', hp', hages.workerId.trans hpid, hages.port.trans hport⟩
  · intro pid p' hp' hr
    obtain ⟨p, hp, hages⟩ := hk.proc_exists hp'
    obtain ⟨k, hid, hc⟩ := h.running pid p hp (hages.running hr)
    exact ⟨k, by rw [hk.workerOf, hages.workerId, hid], hc⟩
  · intro id₁ id₂ port h₁ h₂
    rw [hk.portOf] at h₁ h₂
    exact h.ports id₁ id₂ port h₁ h₂

/-- The invariant only looks at the workers of the entries and at the processes. -/
theorem congr {w w' : World} (h : Owned w) (hw : ∀ id, w'.workerOf id = w.workerOf id)
    (hp : w'.procs = w.procs) : Owned w' := by
  refine h.keeps ⟨hw, by rw [hp], ?_⟩
  intro pid p p' h₁ h₂
  rw [hp, h₁] at h₂
  exact Option.some.inj h₂ ▸ Process.Ages.refl p

/-- An entry whose process does not run may be dropped. -/
theorem erase {w : World} (h : Owned w) {id : WorkerId}
    (hdead : ∀ k, w.workerOf id = some k → w.isRunning k.child = false) :
    Owned { w with workers := w.workers.erase id } := by
  have hne : ∀ {id'}, id' ≠ id →
      World.workerOf { w with workers := w.workers.erase id } id' = w.workerOf id' := by
    intro id' hid'
    rw [World.workerOf, World.workerOf, Finmap.lookup_erase_ne hid']
  refine ⟨fun id' k hk => h.entry id' k (World.workerOf_of_erase rfl hk), ?_, ?_⟩
  · intro pid p hp hr
    obtain ⟨k, hk, hc⟩ := h.running pid p hp hr
    refine ⟨k, ?_, hc⟩
    rw [hne, hk]
    intro hid
    have hrun : w.isRunning k.child = true :=
      World.isRunning_iff.mpr ⟨p, by rw [hc]; exact hp, hr⟩
    rw [hdead k (hid ▸ hk)] at hrun
    cases hrun
  · intro id₁ id₂ port h₁ h₂
    obtain ⟨k₁, hk₁, hp₁⟩ := Option.map_eq_some_iff.mp h₁
    obtain ⟨k₂, hk₂, hp₂⟩ := Option.map_eq_some_iff.mp h₂
    have hw₁ := World.workerOf_of_erase rfl hk₁
    have hw₂ := World.workerOf_of_erase rfl hk₂
    exact h.ports id₁ id₂ port (by rw [World.portOf_of_workerOf hw₁, hp₁])
      (by rw [World.portOf_of_workerOf hw₂, hp₂])

/-- A process may be started under an id without entry, on a port no entry has. -/
theorem spawn {w : World} (h : Owned w) (id : WorkerId) (port : Port) {m : ManagedWorker}
    (hid : w.workerOf id = none) (hport : ∀ id', w.portOf id' ≠ some port)
    (hm : m.worker = ⟨id, port, w.procs.length⟩) :
    Owned { w with
      procs := w.procs ++ [⟨id, port, .running, []⟩]
      workers := w.workers.insert id m } := by
  generalize hw' : ({ w with
      procs := w.procs ++ [⟨id, port, .running, []⟩]
      workers := w.workers.insert id m } : World) = w'
  have hprocs : w'.procs = w.procs ++ [⟨id, port, .running, []⟩] := by rw [← hw']
  have hself : w'.workerOf id = some ⟨id, port, w.procs.length⟩ := by
    rw [← hw', World.workerOf, Finmap.lookup_insert, Option.map_some, hm]
  have hne : ∀ {id'}, id' ≠ id → w'.workerOf id' = w.workerOf id' := by
    intro id' hid'
    rw [← hw', World.workerOf, Finmap.lookup_insert_of_ne _ hid', World.workerOf]
  have hold : ∀ {id' k}, w.workerOf id' = some k → w'.workerOf id' = some k := by
    intro id' k hk
    rw [hne, hk]
    rintro rfl
    rw [hid] at hk
    cases hk
  -- the port of an entry after the spawn is the new one exactly at the new id
  have hports : ∀ {id' port'}, w'.portOf id' = some port' →
      (id' = id ∧ port' = port) ∨ w.portOf id' = some port' := by
    intro id' port' hp
    by_cases hid' : id' = id
    · rw [hid', World.portOf_of_workerOf hself] at hp
      exact .inl ⟨hid', (Option.some.inj hp).symm⟩
    · rw [World.portOf, hne hid'] at hp
      exact .inr hp
  refine ⟨?_, ?_, ?_⟩
  · intro id' k hk
    rw [hprocs]
    rcases World.workerOf_of_insert (by rw [← hw']) hk with ⟨rfl, rfl⟩ | hk
    · exact ⟨⟨id', port, .running, []⟩, by simp [hm], rfl, by rw [hm]⟩
    · obtain ⟨p, hp, hpid, hpp⟩ := h.entry id' k hk
      exact ⟨p, by rw [List.getElem?_append_left (h.child_lt hk), hp], hpid, hpp⟩
  · intro pid p hp hr
    rw [hprocs] at hp
    rcases Nat.lt_trichotomy pid w.procs.length with hlt | rfl | hgt
    · rw [List.getElem?_append_left hlt] at hp
      obtain ⟨k, hk, hc⟩ := h.running pid p hp hr
      exact ⟨k, hold hk, hc⟩
    · simp only [List.getElem?_concat_length, Option.some.injEq] at hp
      subst hp
      exact ⟨_, hself, rfl⟩
    · have hlen : (w.procs ++ [(⟨id, port, .running, []⟩ : Process)]).length ≤ pid := by
        rw [List.length_append, List.length_singleton]
        omega
      rw [List.getElem?_eq_none hlen] at hp
      cases hp
  · intro id₁ id₂ port' h₁ h₂
    rcases hports h₁ with ⟨rfl, rfl⟩ | h₁ <;> rcases hports h₂ with ⟨rfl, hp⟩ | h₂
    · rfl
    · exact absurd h₂ (hport id₂)
    · exact absurd (hp ▸ h₁) (hport id₁)
    · exact h.ports id₁ id₂ port' h₁ h₂

end Owned

/-! ## Startup -/

/-- The loop of `start`, from a world with as many processes as the first index. -/
theorem World.start_spec (config : PoolConfig) :
    ∀ (ids : List WorkerId) (n : Nat) (w : World), ids.Nodup → w.procs.length = n →
      (forEach (World.startOne config) w (ids.zipIdx n)).1.procs = w.procs ++
          (ids.zipIdx n).map (fun q => ⟨q.1, config.basePort + UInt16.ofNat q.2, .running, []⟩) ∧
        (∀ q ∈ ids.zipIdx n, (forEach (World.startOne config) w (ids.zipIdx n)).1.workerOf q.1 =
          some ⟨q.1, config.basePort + UInt16.ofNat q.2, q.2⟩) ∧
        ∀ id, id ∉ ids → (forEach (World.startOne config) w (ids.zipIdx n)).1.workerOf id =
          w.workerOf id
  | [], n, w, _, _ => by simp
  | id :: ids, n, w, hnd, hlen => by
      obtain ⟨hid, hnd⟩ := List.nodup_cons.mp hnd
      rw [List.zipIdx_cons, forEach_cons]
      have hstep : (World.startOne config w (id, n)).1 =
          { w with
            procs := w.procs ++ [⟨id, config.basePort + UInt16.ofNat n, .running, []⟩]
            workers := w.workers.insert id
              ⟨⟨id, config.basePort + UInt16.ofNat n, w.procs.length⟩, .starting, 0, 0, none⟩ } :=
        rfl
      obtain ⟨hprocs, hin, hout⟩ := World.start_spec config ids (n + 1)
        (World.startOne config w (id, n)).1 hnd (by rw [hstep]; simp [hlen])
      refine ⟨?_, ?_, ?_⟩
      · rw [hprocs, hstep]
        simp
      · intro q hq
        rcases List.mem_cons.mp hq with rfl | hq
        · rw [hout id hid, hstep, World.workerOf, Finmap.lookup_insert, Option.map_some, hlen]
        · exact hin q hq
      · intro id' hid'
        rw [List.mem_cons, not_or] at hid'
        rw [hout id' hid'.2, hstep, World.workerOf, Finmap.lookup_insert_of_ne _ hid'.1,
          World.workerOf]

/-- After startup the process of index `i` has the `i`-th id and the `i`-th port. -/
theorem Started.procs {config : PoolConfig} {w : World} (h : Started config w) :
    ∃ ids : List WorkerId, ids.Nodup ∧ ids.length = config.workerCount ∧
      w.procs = (ids.zipIdx).map
        (fun q => ⟨q.1, config.basePort + UInt16.ofNat q.2, .running, []⟩) ∧
      (∀ q ∈ ids.zipIdx, w.workerOf q.1 =
        some ⟨q.1, config.basePort + UInt16.ofNat q.2, q.2⟩) ∧
      ∀ id, id ∉ ids → w.workerOf id = none := by
  obtain ⟨w₀, ids, hnew, hnd, hlen, rfl⟩ := h
  obtain rfl := World.new_eq_some hnew
  obtain ⟨hprocs, hin, hout⟩ := World.start_spec config ids 0
    { workers := ∅, eventRx := [], procs := [] } hnd rfl
  refine ⟨ids, hnd, hlen, ?_, hin, fun id hid => (hout id hid).trans rfl⟩
  rw [World.start, hprocs, List.nil_append]

theorem ofNat_injOn {i j : Nat} (hi : i < 2 ^ 16) (hj : j < 2 ^ 16)
    (h : UInt16.ofNat i = UInt16.ofNat j) : i = j := by
  have := congrArg UInt16.toNat h
  rwa [UInt16.toNat_ofNat', UInt16.toNat_ofNat', Nat.mod_eq_of_lt hi, Nat.mod_eq_of_lt hj] at this

/-- With at most `2 ^ 16` workers the ports of startup do not repeat. -/
theorem Started.owned {config : PoolConfig} {w : World} (h : Started config w)
    (hcount : config.workerCount ≤ 2 ^ 16) : Owned w := by
  obtain ⟨ids, hnd, hlen, hprocs, hin, hout⟩ := h.procs
  -- an entry is that of some index, and so is a process
  have hentry : ∀ id k, w.workerOf id = some k →
      ∃ i, ids[i]? = some id ∧ k = ⟨id, config.basePort + UInt16.ofNat i, i⟩ := by
    intro id k hk
    by_cases hid : id ∈ ids
    · obtain ⟨i, hi, rfl⟩ := List.mem_iff_getElem.mp hid
      have hq := hin (ids[i], i) (List.mem_zipIdx_iff_getElem?.mpr (List.getElem?_eq_getElem hi))
      exact ⟨i, List.getElem?_eq_getElem hi, Option.some.inj (hk.symm.trans hq)⟩
    · rw [hout id hid] at hk
      cases hk
  have hproc : ∀ (pid : Pid) (p : Process), w.procs[pid]? = some p →
      ∃ id, ids[pid]? = some id ∧
        p = ⟨id, config.basePort + UInt16.ofNat pid, .running, []⟩ := by
    intro pid p hp
    rw [hprocs, List.getElem?_map, List.getElem?_zipIdx] at hp
    cases hid : ids[pid]? with
    | none => simp [hid] at hp
    | some id =>
        simp only [hid, Option.map_some, Option.some.injEq, Nat.zero_add] at hp
        exact ⟨id, rfl, hp.symm⟩
  refine ⟨?_, ?_, ?_⟩
  · intro id k hk
    obtain ⟨i, hi, rfl⟩ := hentry id k hk
    refine ⟨⟨id, config.basePort + UInt16.ofNat i, .running, []⟩, ?_, rfl, rfl⟩
    rw [hprocs, List.getElem?_map, List.getElem?_zipIdx, hi]
    simp
  · intro pid p hp _
    obtain ⟨id, hid, rfl⟩ := hproc pid p hp
    exact ⟨_, hin (id, pid) (List.mem_zipIdx_iff_getElem?.mpr hid), rfl⟩
  · intro id₁ id₂ port h₁ h₂
    obtain ⟨k₁, hk₁, hp₁⟩ := Option.map_eq_some_iff.mp h₁
    obtain ⟨k₂, hk₂, hp₂⟩ := Option.map_eq_some_iff.mp h₂
    obtain ⟨i, hi, rfl⟩ := hentry id₁ k₁ hk₁
    obtain ⟨j, hj, rfl⟩ := hentry id₂ k₂ hk₂
    have hport : UInt16.ofNat i = UInt16.ofNat j :=
      (UInt16.add_right_inj config.basePort).mp (hp₁.trans hp₂.symm)
    have hi' := (List.getElem?_eq_some_iff.mp hi).1
    have hj' := (List.getElem?_eq_some_iff.mp hj).1
    have hij : i = j := ofNat_injOn (by omega) (by omega) hport
    rw [hij, hj] at hi
    exact (Option.some.inj hi).symm

/-- With more workers the port of index `2 ^ 16` is that of index `0`, since
`WorkerPool::new` checks the range with a truncated count. -/
theorem Started.not_singleOwner {config : PoolConfig} {w : World} (h : Started config w)
    (hcount : 2 ^ 16 < config.workerCount) : ¬ SingleOwner w := by
  obtain ⟨ids, hnd, hlen, hprocs, -, -⟩ := h.procs
  intro hs
  have hget : ∀ i, (hi : i < ids.length) →
      w.procs[i]? = some ⟨ids[i], config.basePort + UInt16.ofNat i, .running, []⟩ := by
    intro i hi
    rw [hprocs, List.getElem?_map, List.getElem?_zipIdx, List.getElem?_eq_getElem hi]
    simp
  have h0 := hget 0 (by omega)
  have h1 := hget (2 ^ 16) (by omega)
  have heq := hs.ports 0 (2 ^ 16) _ _ h0 h1 rfl rfl rfl
  cases heq

theorem Started.singleOwner_iff {config : PoolConfig} {w : World} (h : Started config w) :
    SingleOwner w ↔ config.workerCount ≤ 2 ^ 16 := by
  constructor
  · intro hs
    by_contra hcount
    exact h.not_singleOwner (Nat.lt_of_not_le hcount) hs
  · intro hcount
    exact (h.owned hcount).singleOwner

/-! ## Steps -/

/-- A port `spawn_new_worker` takes is held by no entry. -/
theorem World.nextAvailablePort_unused {config : PoolConfig} {w : World} {port : Port}
    (h : w.nextAvailablePort config = .ok port) (id : WorkerId) : w.portOf id ≠ some port := by
  intro hid
  obtain ⟨⟨-, -, hunused⟩, -⟩ := World.nextAvailablePort_eq_ok_iff.mp h
  obtain ⟨k, hk, rfl⟩ := Option.map_eq_some_iff.mp hid
  obtain ⟨m, hm, rfl⟩ := World.workerOf_eq_some.mp hk
  exact hunused (Finmap.mem_image.mpr ⟨id, m, hm, rfl⟩)

theorem Owned.spawnNewWorker {config : PoolConfig} {w : World} (h : Owned w) {newId : WorkerId}
    (hf : w.Fresh newId) (outcome : Except String Unit) :
    Owned (w.spawnNewWorker config newId outcome).2.1 := by
  rcases w.spawnNewWorker_cases config newId outcome with heq | ⟨port, hport, heq⟩
  · rw [heq]
    exact h
  · rw [heq]
    refine h.spawn newId port ?_ (World.nextAvailablePort_unused hport) rfl
    rw [World.workerOf, Finmap.lookup_eq_none.mpr hf.1, Option.map_none]

/-- Restarting one entry whose process does not run. -/
theorem Owned.restartOne {w : World} (h : Owned w) {spawned : WorkerId → Except String Unit}
    {due : WorkerId × Port × UInt32} {k : Worker} (hk : w.workerOf due.1 = some k)
    (hport : k.port = due.2.1) (hdead : w.isRunning k.child = false) :
    Owned (w.restartOne spawned due).1 := by
  have herase : Owned { w with workers := w.workers.erase due.1 } := by
    refine h.erase ?_
    intro k' hk'
    rw [hk] at hk'
    rwa [← Option.some.inj hk']
  have hnone : World.workerOf { w with workers := w.workers.erase due.1 } due.1 = none := by
    rw [World.workerOf, Finmap.lookup_erase, Option.map_none]
  cases hs : spawned due.1 with
  | error e =>
      rw [World.restartOne_error hs]
      exact herase
  | ok u =>
      have hspawn := herase.spawn due.1 due.2.1
        (m := ⟨⟨due.1, due.2.1, w.procs.length⟩, .starting, 0, 0, none⟩) hnone ?_ rfl
      · rw [World.restartOne_ok hs]
        exact hspawn.keeps (Keeps.modify _ due.1 fun _ => rfl)
      · intro id hid
        by_cases hne : id = due.1
        · rw [hne, World.portOf, hnone] at hid
          cases hid
        · have hid' : w.portOf id = some due.2.1 := by
            rwa [World.portOf, World.workerOf, Finmap.lookup_erase_ne hne] at hid
          exact hne (h.ports id due.1 due.2.1 hid' (by rw [World.portOf_of_workerOf hk, hport]))

/-- No entry that a restart sweep finds due has a running process. -/
def DueStopped (config : PoolConfig) (w : World) : Action → Prop
  | .processRestarts now _ _ => ∀ id k, w.DueAt config now id → w.workerOf id = some k →
      w.isRunning k.child = false
  | _ => True

/-- Restarting distinct entries whose processes do not run. -/
theorem Owned.forEach_restartOne {spawned : WorkerId → Except String Unit} :
    ∀ (dues : List (WorkerId × Port × UInt32)) (w : World), Owned w → (dues.map Prod.fst).Nodup →
      (∀ due ∈ dues, ∃ k, w.workerOf due.1 = some k ∧ k.port = due.2.1 ∧
        w.isRunning k.child = false) →
      Owned (forEach (World.restartOne spawned) w dues).1
  | [], _, h, _, _ => h
  | due :: dues, w, h, hnd, hdues => by
      rw [List.map_cons, List.nodup_cons] at hnd
      obtain ⟨k, hk, hport, hdead⟩ := hdues due List.mem_cons_self
      rw [forEach_cons]
      refine Owned.forEach_restartOne dues _ (h.restartOne hk hport hdead) hnd.2 ?_
      intro d hd
      obtain ⟨k', hk', hport', hdead'⟩ := hdues d (List.mem_cons_of_mem due hd)
      have hne : d.1 ≠ due.1 := fun heq => hnd.1 (heq ▸ List.mem_map_of_mem hd)
      refine ⟨k', by rw [World.restartOne_workerOf_of_ne w due hne, hk'], hport', ?_⟩
      -- the process list only grew, so what is said about an old process still holds
      obtain ⟨new, hnew⟩ := World.restartOne_procs spawned w due
      rw [World.isRunning, ← hnew, List.getElem?_append_left (h.child_lt hk'), ← World.isRunning]
      exact hdead'

theorem Owned.processRestarts {config : PoolConfig} {w : World} (h : Owned w) {now : Instant}
    {order : List WorkerId} {spawned : WorkerId → Except String Unit}
    (hl : w.workers.Lists order)
    (hdue : ∀ id k, w.DueAt config now id → w.workerOf id = some k →
      w.isRunning k.child = false) :
    Owned (w.processRestarts config now order spawned).1 := by
  refine Owned.forEach_restartOne _ w h (World.dueRestarts_nodup hl.1) ?_
  intro due hd
  obtain ⟨-, m, hm, hisDue, heq⟩ := World.mem_dueRestarts.mp hd
  have hw := World.workerOf_of_lookup hm
  exact ⟨m.worker, hw, by rw [heq], hdue due.1 m.worker ⟨m, hm, hisDue⟩ hw⟩

/-- A restart sweep that drops an entry with a running process leaves that process
without an entry. -/
theorem Owned.dueStopped_of_singleOwner {config : PoolConfig} {w : World} (h : Owned w)
    {now : Instant} {order : List WorkerId} {spawned : WorkerId → Except String Unit}
    (hl : w.workers.Lists order)
    (hs : SingleOwner (w.processRestarts config now order spawned).1) {id : WorkerId} {k : Worker}
    (hid : w.DueAt config now id) (hk : w.workerOf id = some k) :
    w.isRunning k.child = false := by
  by_contra hrun
  obtain ⟨p, hp, hr⟩ := World.isRunning_iff.mp (Bool.not_eq_false _ ▸ hrun)
  obtain ⟨hother, hdue, new, hnew⟩ := World.processRestarts_spec config now spawned hl
  have hlt := h.child_lt hk
  have hp' : (w.processRestarts config now order spawned).1.procs[k.child]? = some p := by
    rw [← hnew, List.getElem?_append_left hlt, hp]
  obtain ⟨id', ⟨k', hk', hc⟩, -⟩ := hs.owner k.child p hp' hr
  by_cases hid' : w.DueAt config now id'
  · -- a respawned entry has a new process
    obtain ⟨m, hm, hd⟩ := hid'
    have hresp := hdue id' m hm hd
    unfold Respawned at hresp
    cases hsp : spawned id' with
    | error e =>
        simp only [hsp] at hresp
        rw [hresp] at hk'
        cases hk'
    | ok u =>
        simp only [hsp] at hresp
        obtain ⟨pid, hpid, hw⟩ := hresp
        rw [hw] at hk'
        obtain rfl := Option.some.inj hk'
        exact absurd (hc ▸ hpid) (Nat.not_le_of_lt hlt)
  · rw [hother id' hid'] at hk'
    exact hid' (h.child_inj hk' hk hc ▸ hid)

/-- The old process has exited when the wait of `restart_worker` returns. -/
def Action.WaitsForExit : Action → Prop
  | .restartWorker _ _ env => ∃ code, env.wait = .exited code
  | _ => True

theorem Owned.restartWorker {config : PoolConfig} {w : World} (h : Owned w)
    {id newId : WorkerId} {env : RestartEnv} (hf : w.Fresh newId)
    (hwait : ∃ code, env.wait = .exited code) :
    Owned (w.restartWorker config id newId env).2.1 := by
  obtain ⟨code, hcode⟩ := hwait
  cases w.restartWorker_cases config id newId env with
  | notFound hm heq =>
      rw [heq]
      exact h
  | @failed m w₁ e hm hw₁ heq =>
      rw [heq]
      exact (h.keeps hw₁.keeps).keeps (Keeps.modify w₁ id fun _ => rfl)
  | @replaced m w₁ hm hw₁ heq =>
      rw [heq]
      have howned := h.keeps hw₁.keeps
      have hid : w₁.workerOf id = some m.worker := by
        rw [hw₁.keeps.workerOf, World.workerOf_of_lookup hm]
      have hnew : w₁.workerOf newId = none := by
        rw [hw₁.keeps.workerOf, World.workerOf, Finmap.lookup_eq_none.mpr hf.1, Option.map_none]
      have hne : newId ≠ id := by
        rintro rfl
        rw [hid] at hnew
        cases hnew
      -- erasing the old entry first gives the same entries and processes
      have herase : Owned { w₁ with workers := w₁.workers.erase id } := by
        refine howned.erase ?_
        intro k hk
        obtain rfl := Option.some.inj (hid.symm.trans hk)
        exact hw₁.stopped code hcode
      have hspawn := herase.spawn newId m.worker.port
        (m := ⟨⟨newId, m.worker.port, w₁.procs.length⟩, .starting, 0, 0, none⟩) ?_ ?_ rfl
      · refine hspawn.congr ?_ rfl
        intro id'
        simp only [World.workerOf]
        by_cases h₁ : id' = id
        · rw [h₁, Finmap.lookup_erase, Finmap.lookup_insert_of_ne _ hne.symm,
            Finmap.lookup_erase]
        · by_cases h₂ : id' = newId
          · rw [h₂, Finmap.lookup_erase_ne hne, Finmap.lookup_insert, Finmap.lookup_insert]
          · rw [Finmap.lookup_erase_ne h₁, Finmap.lookup_insert_of_ne _ h₂,
              Finmap.lookup_insert_of_ne _ h₂, Finmap.lookup_erase_ne h₁]
      · rw [World.workerOf, Finmap.lookup_erase_ne hne, ← World.workerOf, hnew]
      · intro id' hid'
        by_cases h₁ : id' = id
        · rw [h₁, World.portOf, World.workerOf, Finmap.lookup_erase] at hid'
          cases hid'
        · have hport : w₁.portOf id' = some m.worker.port := by
            rwa [World.portOf, World.workerOf, Finmap.lookup_erase_ne h₁] at hid'
          exact h₁ (howned.ports id' id _ hport (World.portOf_of_workerOf hid))

/-- From a world that satisfies the invariant, a step keeps single ownership exactly
when no entry it finds due has a running process, and then it keeps the invariant. -/
theorem Owned.step_iff {config : PoolConfig} {w w' : World} {a : Action} {out : List PoolEvent}
    (h : Owned w) (ha : a.WaitsForExit) (hstep : (system config).step w a = some (w', out)) :
    (SingleOwner w' ↔ DueStopped config w a) ∧ (DueStopped config w a → Owned w') := by
  have holds : Owned w' → DueStopped config w a →
      (SingleOwner w' ↔ DueStopped config w a) ∧ (DueStopped config w a → Owned w') :=
    fun ho hd => ⟨iff_of_true ho.singleOwner hd, fun _ => ho⟩
  obtain ⟨hk, hspawns⟩ | ⟨now, order, spawned, rfl, hl, heq⟩ | ⟨newId, outcome, rfl, hf, heq⟩ |
    ⟨id, newId, env, rfl, hf, heq⟩ := step_cases hstep
  · refine holds (h.keeps hk) ?_
    cases a <;> trivial
  · obtain ⟨rfl, -⟩ := Prod.ext_iff.mp heq
    have hkeep : DueStopped config w (.processRestarts now order spawned) →
        Owned (w.processRestarts config now order spawned).1 := fun hd =>
      h.processRestarts hl hd
    refine ⟨⟨fun hs id k hid hk => h.dueStopped_of_singleOwner hl hs hid hk, ?_⟩, hkeep⟩
    exact fun hd => (hkeep hd).singleOwner
  · obtain ⟨rfl, -⟩ := Prod.ext_iff.mp heq
    exact holds (h.spawnNewWorker hf outcome) trivial
  · obtain ⟨rfl, -⟩ := Prod.ext_iff.mp heq
    exact holds (h.restartWorker hf ha) trivial

/-- Every running process is owned by exactly one entry and no two share a port, in
every state of a run, exactly when the port range was not truncated and no
restart sweep of the run finds a due entry whose process still runs. -/
theorem single_owner_iff {config : PoolConfig} {w₀ w : World} {as : List Action}
    {out : List PoolEvent} (hstart : Started config w₀)
    (hrun : (system config).run w₀ as = some (w, out)) (hexit : ∀ a ∈ as, a.WaitsForExit) :
    (SingleOwner w₀ ∧ (system config).Along (fun _ _ w' _ => SingleOwner w') w₀ as) ↔
      (config.workerCount ≤ 2 ^ 16 ∧
        (system config).Along (fun w a _ _ => DueStopped config w a) w₀ as) := by
  rw [hstart.singleOwner_iff]
  refine and_congr_right ?_
  intro hcount
  have hwaits := Machine.along_of_forall_mem hexit hrun
  have hcongr : (system config).Along (fun _ a w' _ => a.WaitsForExit ∧ SingleOwner w') w₀ as ↔
      (system config).Along (fun w a _ _ => a.WaitsForExit ∧ DueStopped config w a) w₀ as :=
    Machine.Along.congr (I := Owned)
      (fun w a w' o h hs => and_congr_right fun ha => (h.step_iff ha hs).1)
      (fun w a w' o h hs hP => (h.step_iff hP.1 hs).2 ((h.step_iff hP.1 hs).1.mp hP.2))
      (hstart.owned hcount)
  rw [Machine.Along.and_iff, Machine.Along.and_iff] at hcongr
  exact ⟨fun hs => (hcongr.mp ⟨hwaits, hs⟩).2, fun hd => (hcongr.mpr ⟨hwaits, hd⟩).2⟩

/-! ## A process without owner -/

/-- A restart by the API whose new process does not start, the restart sweep that
retries, the late delivery of `Exited` of the old process, and the next
restart sweep. -/
def lateExit : List Action :=
  [.restartWorker "l0-1" "l0-2" ⟨.exited none, .error "Too many open files", 0⟩,
    .processRestarts 500 ["l0-1"] fun _ => .ok (),
    .tryRecvEvent 600,
    .processRestarts 2000 ["l0-1"] fun _ => .ok ()]

theorem lateExit_waitsForExit : ∀ a ∈ lateExit, a.WaitsForExit := by
  simp [lateExit, Action.WaitsForExit]

theorem single_owner_iff_lateExit :
    (SingleOwner oneWorkerStarted ∧
        (system oneWorker).Along (fun _ _ w' _ => SingleOwner w') oneWorkerStarted lateExit) ↔
      (oneWorker.workerCount ≤ 2 ^ 16 ∧
        (system oneWorker).Along (fun w a _ _ => DueStopped oneWorker w a) oneWorkerStarted
          lateExit) := by
  obtain ⟨⟨w, out⟩, hrun⟩ : ∃ r, (system oneWorker).run oneWorkerStarted lateExit = some r :=
    Option.isSome_iff_exists.mp (by decide)
  exact single_owner_iff oneWorker_started hrun lateExit_waitsForExit

/-- The late `Exited` marks the running successor as failed, and the next restart
sweep starts a third process on its port. -/
theorem late_exit_orphans_process :
    ¬ ∀ (w₀ : World) (as : List Action) (w : World) (out : List PoolEvent),
        Started oneWorker w₀ → (system oneWorker).run w₀ as = some (w, out) →
        (∀ a ∈ as, a.WaitsForExit) → SingleOwner w := by
  intro claim
  obtain ⟨⟨w, out⟩, hrun⟩ : ∃ r, (system oneWorker).run oneWorkerStarted lateExit = some r :=
    Option.isSome_iff_exists.mp (by decide)
  have hprocs : ((system oneWorker).run oneWorkerStarted lateExit).map (fun r => r.1.procs) =
      some [⟨"l0-1", 3001, .exited none, []⟩, ⟨"l0-1", 3001, .running, []⟩,
        ⟨"l0-1", 3001, .running, []⟩] := by decide
  rw [hrun, Option.map_some, Option.some.injEq] at hprocs
  have hs := claim oneWorkerStarted lateExit w out oneWorker_started hrun lateExit_waitsForExit
  have h₁ : w.procs[1]? = some ⟨"l0-1", 3001, .running, []⟩ := by rw [hprocs]; rfl
  have h₂ : w.procs[2]? = some ⟨"l0-1", 3001, .running, []⟩ := by rw [hprocs]; rfl
  cases hs.ports 1 2 _ _ h₁ h₂ rfl rfl rfl

end L0Worker.Supervisor
