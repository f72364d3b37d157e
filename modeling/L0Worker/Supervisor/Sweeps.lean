import L0Worker.Lib.KeyedLoop
import L0Worker.Supervisor.Frame

/-!
# The loops of the sweeps

Both sweeps are loops over distinct ids.  An iteration works on the entry of its id and on
the process of that entry, and announces things about that id only.  `checkOne_framed` and
`restartOne_framed` say so; what a sweep does at an id is then what one iteration does
there, whatever it did at the ids before.

This rests on `OwnChildren`: a `Worker` owns the handle of its child, so no two entries
share a process, and killing the process of one leaves the others running.
-/

namespace L0Worker.Supervisor

variable {config : PoolConfig} {env : HealthEnv} {w w' : World} {id : WorkerId}

/-- The events that name a worker. -/
def named (id : WorkerId) (out : List PoolEvent) : List PoolEvent :=
  outputsOf PoolEvent.workerId? id out

/-! ## Entries own their children -/

/-- Every entry has a child of its own. -/
structure OwnChildren (w : World) : Prop where
  spawned : ∀ {id : WorkerId} {k : Worker}, w.workerOf id = some k → k.child < w.procs.length
  distinct : ∀ {id id' : WorkerId} {k k' : Worker}, w.workerOf id = some k →
    w.workerOf id' = some k' → k.child = k'.child → id = id'

namespace OwnChildren

theorem keeps (h : OwnChildren w) (hk : Keeps w w') : OwnChildren w' where
  spawned hid := by
    rw [hk.workerOf] at hid
    rw [hk.length]
    exact h.spawned hid
  distinct hid hid' hc := by
    rw [hk.workerOf] at hid hid'
    exact h.distinct hid hid' hc

theorem erase (h : OwnChildren w) (id : WorkerId) :
    OwnChildren { w with workers := w.workers.erase id } where
  spawned hk := h.spawned (World.workerOf_of_erase rfl hk)
  distinct hk hk' hc :=
    h.distinct (World.workerOf_of_erase rfl hk) (World.workerOf_of_erase rfl hk') hc

/-- A new entry takes the newest process. -/
theorem spawn (h : OwnChildren w) (id : WorkerId) {p : Process} {m : ManagedWorker}
    (hm : m.worker.child = w.procs.length) :
    OwnChildren { w with procs := w.procs ++ [p], workers := w.workers.insert id m } := by
  have hcase : ∀ {id' k}, World.workerOf
      { w with procs := w.procs ++ [p], workers := w.workers.insert id m } id' = some k →
      (id' = id ∧ k.child = w.procs.length) ∨ (w.workerOf id' = some k) := by
    intro id' k hk
    rcases World.workerOf_of_insert (w := w) rfl hk with ⟨hid, rfl⟩ | hk
    · exact .inl ⟨hid, hm⟩
    · exact .inr hk
  refine ⟨?_, ?_⟩
  · intro id' k hk
    rw [List.length_append, List.length_singleton]
    obtain ⟨-, hc⟩ | hold := hcase hk
    · exact hc ▸ Nat.lt_succ_self _
    · exact Nat.lt_succ_of_lt (h.spawned hold)
  · intro id₁ id₂ k₁ k₂ hk₁ hk₂ hc
    obtain ⟨rfl, hc₁⟩ | hold₁ := hcase hk₁ <;> obtain ⟨rfl, hc₂⟩ | hold₂ := hcase hk₂
    · rfl
    · exact absurd (hc.symm.trans hc₁) (Nat.ne_of_lt (h.spawned hold₂))
    · exact absurd (hc.trans hc₂) (Nat.ne_of_lt (h.spawned hold₁))
    · exact h.distinct hold₁ hold₂ hc

theorem change (h : OwnChildren w) (hc : Change w w') : OwnChildren w' := by
  cases hc with
  | keeps hk => exact h.keeps hk
  | erase id => exact h.erase id
  | spawn id port hm => exact h.spawn id (congrArg Worker.child hm)

theorem restartOne (h : OwnChildren w) (spawned : WorkerId → Except String Unit)
    (due : WorkerId × Port × UInt32) : OwnChildren (w.restartOne spawned due).1 :=
  (w.restartOne_changes spawned due).invariant (fun _ _ hu hc => hu.change hc) h

end OwnChildren

/-! ## An entry with its process -/

/-- The entry of an id and the process it owns. -/
def World.entryOf (w : World) (id : WorkerId) : Option (ManagedWorker × Option Process) :=
  (w.workers.lookup id).map fun m => (m, w.procs[m.worker.child]?)

theorem World.entryOf_of_lookup {m : ManagedWorker} (hm : w.workers.lookup id = some m) :
    w.entryOf id = some (m, w.procs[m.worker.child]?) := by
  rw [World.entryOf, hm, Option.map_some]

theorem World.entryOf_eq_none (hm : w.workers.lookup id = none) : w.entryOf id = none := by
  rw [World.entryOf, hm, Option.map_none]

/-- The entry of an id as `entryOf` shows it. -/
theorem World.lookup_eq_entryOf (w : World) (id : WorkerId) :
    w.workers.lookup id = (w.entryOf id).map Prod.fst := by
  rw [World.entryOf, Option.map_map]
  exact Option.map_id'.symm

/-- An entry that stays, with a process that stays. -/
theorem World.entryOf_congr (hlookup : w'.workers.lookup id = w.workers.lookup id)
    (hproc : ∀ k, w.workerOf id = some k → w'.procs[k.child]? = w.procs[k.child]?) :
    w'.entryOf id = w.entryOf id := by
  rw [World.entryOf, World.entryOf, hlookup]
  cases hm : w.workers.lookup id with
  | none => rfl
  | some m => rw [Option.map_some, Option.map_some, hproc m.worker (World.workerOf_of_lookup hm)]

/-! ## Health checks -/

theorem World.kill_procs_of_ne {pid pid' : Pid} (killed : Bool) (h : pid' ≠ pid) :
    (w.kill pid killed).procs[pid']? = w.procs[pid']? := by
  unfold World.kill
  split
  · rw [World.endProcess, List.getElem?_modify]
    simp only [if_neg (Ne.symm h), Option.map_eq_map, Option.map_id']
  · rfl

/-- What a check does to the entry and the process it finds. -/
def ManagedWorker.checkWith (config : PoolConfig) (env : HealthEnv) (target : WorkerId × Port)
    (m : ManagedWorker) (p : Option Process) : Checked × Option Process :=
  let c := m.check config (env.now target.1) target.1 target.2 (env.result target.1)
    (p.any fun p => decide p.Running)
  (c, if c.kill && env.killed target.1 then p.map (Process.ended none) else p)

theorem World.isRunning_eq_any (w : World) (pid : Pid) :
    w.isRunning pid = (w.procs[pid]?).any fun p => decide p.Running := by
  unfold World.isRunning
  cases w.procs[pid]? <;> rfl

theorem World.checkOne_of_lookup (config : PoolConfig) (env : HealthEnv)
    (target : WorkerId × Port) {m : ManagedWorker} (hm : w.workers.lookup target.1 = some m) :
    (w.checkOne config env target).1.entryOf target.1 =
        some ((m.checkWith config env target w.procs[m.worker.child]?).1.entry,
          (m.checkWith config env target w.procs[m.worker.child]?).2) ∧
      (w.checkOne config env target).2 =
        (m.checkWith config env target w.procs[m.worker.child]?).1.events := by
  rw [World.checkOne, hm]
  dsimp only
  rw [World.isRunning_eq_any]
  refine ⟨?_, rfl⟩
  rw [World.entryOf_of_lookup (Finmap.lookup_insert _), ManagedWorker.check_worker]
  refine congrArg some (Prod.ext rfl ?_)
  unfold ManagedWorker.checkWith World.kill
  dsimp only
  cases (m.check config (env.now target.1) target.1 target.2 (env.result target.1)
    ((w.procs[m.worker.child]?).any fun p => decide p.Running)).kill with
  | false => rfl
  | true =>
      cases env.killed target.1 with
      | false => rfl
      | true =>
          simp only [↓reduceIte, Bool.and_self, World.endProcess, List.getElem?_modify,
            Option.map_eq_map]

/-- A health check works on its own entry and process. -/
theorem World.checkOne_framed (config : PoolConfig) (env : HealthEnv) :
    Framed (World.checkOne config env) Prod.fst PoolEvent.workerId? World.entryOf OwnChildren where
  invariant w target h := h.keeps (World.checkOne_keeps config env w target)
  other w target id h hne := by
    refine World.entryOf_congr (World.checkOne_untouched config env w (Ne.symm hne)).lookup ?_
    intro k hk
    unfold World.checkOne
    cases hm : w.workers.lookup target.1 with
    | none => rfl
    | some m =>
        dsimp only
        split
        · refine World.kill_procs_of_ne _ fun hc => hne ?_
          exact h.distinct (World.workerOf_of_lookup hm) hk hc.symm
        · rfl
  outputs w target := by
    unfold World.checkOne
    cases w.workers.lookup target.1 with
    | none => exact List.forall_mem_nil _
    | some m => exact ManagedWorker.check_events

theorem World.mem_checkTargets {order : List WorkerId} {target : WorkerId × Port} :
    target ∈ w.checkTargets order ↔
      target.1 ∈ order ∧ ∃ m, w.workers.lookup target.1 = some m ∧
        (m.state = .healthy ∨ m.state = .starting) ∧ target.2 = m.worker.port := by
  obtain ⟨id, port⟩ := target
  simp only [World.checkTargets, List.mem_filterMap]
  constructor
  · rintro ⟨id', hmem, h⟩
    cases hm : w.workers.lookup id' with
    | none => simp [hm] at h
    | some m =>
        simp only [hm] at h
        obtain ⟨hs, h⟩ := Option.ite_none_right_eq_some.mp h
        obtain ⟨rfl, rfl⟩ := Prod.mk.inj (Option.some.inj h)
        exact ⟨hmem, m, hm, hs, rfl⟩
  · rintro ⟨hmem, m, hm, hs, rfl⟩
    exact ⟨id, hmem, by simp only [hm]; rw [if_pos hs]⟩

/-- A sweep checks each id once. -/
theorem World.checkTargets_nodup {order : List WorkerId} (h : order.Nodup) :
    ((w.checkTargets order).map Prod.fst).Nodup := by
  refine List.Nodup.sublist (map_filterMap_sublist ?_ order) h
  intro id target ht
  split at ht
  · obtain ⟨-, ht⟩ := Option.ite_none_right_eq_some.mp ht
    exact congrArg Prod.fst (Option.some.inj ht).symm
  · cases ht

/-- A health sweep does at an entry what one check does. -/
theorem World.checkAllHealth_entryOf (config : PoolConfig) (env : HealthEnv) {order : List WorkerId}
    (hown : OwnChildren w) (hl : w.workers.Lists order) {m : ManagedWorker}
    (hm : w.workers.lookup id = some m) (hs : m.state = .healthy ∨ m.state = .starting) :
    (w.checkAllHealth config env order).1.entryOf id =
        some ((m.checkWith config env (id, m.worker.port) w.procs[m.worker.child]?).1.entry,
          (m.checkWith config env (id, m.worker.port) w.procs[m.worker.child]?).2) ∧
      named id (w.checkAllHealth config env order).2 =
        (m.checkWith config env (id, m.worker.port) w.procs[m.worker.child]?).1.events := by
  have ht : (id, m.worker.port) ∈ w.checkTargets order :=
    World.mem_checkTargets.mpr
      ⟨hl.mem_iff.mpr (Finmap.mem_of_lookup_eq_some hm), m, hm, hs, rfl⟩
  obtain ⟨w₁, -, hview, hentry, hevents⟩ :=
    (World.checkOne_framed config env).forEach_at hown (World.checkTargets_nodup hl.1) ht
  rw [World.entryOf_of_lookup hm] at hview
  obtain ⟨m₁, hm₁, heq⟩ := Option.map_eq_some_iff.mp hview
  obtain ⟨rfl, hproc⟩ := Prod.mk.inj heq
  obtain ⟨hone, hout⟩ := World.checkOne_of_lookup config env (id, m₁.worker.port) hm₁
  rw [hproc] at hone hout
  exact ⟨hentry.trans hone, hevents.trans hout⟩

/-! ## Restarts -/

/-- A restart announces things about its id only. -/
theorem World.restartOne_outputs (spawned : WorkerId → Except String Unit) (w : World)
    (due : WorkerId × Port × UInt32) :
    ∀ e ∈ (w.restartOne spawned due).2, e.workerId? = some due.1 := by
  cases hs : spawned due.1 with
  | error e =>
      rw [World.restartOne_error hs]
      exact List.forall_mem_nil _
  | ok u =>
      rw [World.restartOne_ok hs]
      exact List.forall_mem_singleton.mpr rfl

/-- A restart works on its own entry. -/
theorem World.restartOne_framed (spawned : WorkerId → Except String Unit) :
    Framed (World.restartOne spawned) Prod.fst PoolEvent.workerId?
      (fun w id => w.workers.lookup id) fun _ => True where
  invariant _ _ _ := trivial
  other w _ _ _ hne := (World.restartOne_untouched w (Ne.symm hne)).lookup
  outputs := World.restartOne_outputs spawned

/-- It leaves the processes of the others as well. -/
theorem World.restartOne_framed_entryOf (spawned : WorkerId → Except String Unit) :
    Framed (World.restartOne spawned) Prod.fst PoolEvent.workerId? World.entryOf
      OwnChildren where
  invariant w due h := h.restartOne spawned due
  other w due id h hne := by
    refine World.entryOf_congr (World.restartOne_untouched w (Ne.symm hne)).lookup ?_
    intro k hk
    have hlt := h.spawned hk
    cases hs : spawned due.1 with
    | error e => rw [World.restartOne_error hs]
    | ok u =>
        rw [World.restartOne_ok hs]
        exact List.getElem?_append_left hlt
  outputs := World.restartOne_outputs spawned

/-- A restart sweep does at an entry what one restart does. -/
theorem World.processRestarts_at {now : Instant} {order : List WorkerId}
    (spawned : WorkerId → Except String Unit) (hl : w.workers.Lists order) {m : ManagedWorker}
    (hm : w.workers.lookup id = some m) (hd : m.isDue config now = true) :
    ∃ w₁ : World,
      (w.processRestarts config now order spawned).1.workers.lookup id =
          (w₁.restartOne spawned (id, m.worker.port, m.consecutiveFailures)).1.workers.lookup id ∧
        named id (w.processRestarts config now order spawned).2 =
          (w₁.restartOne spawned (id, m.worker.port, m.consecutiveFailures)).2 := by
  have ht : (id, m.worker.port, m.consecutiveFailures) ∈ w.dueRestarts config now order :=
    World.mem_dueRestarts.mpr
      ⟨hl.mem_iff.mpr (Finmap.mem_of_lookup_eq_some hm), m, hm, hd, rfl⟩
  obtain ⟨w₁, -, -, hentry, hevents⟩ :=
    (World.restartOne_framed spawned).forEach_at trivial (World.dueRestarts_nodup hl.1) ht
  exact ⟨w₁, hentry, hevents⟩

end L0Worker.Supervisor
