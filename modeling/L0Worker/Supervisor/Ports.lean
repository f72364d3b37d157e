import L0Worker.Supervisor.Ownership

/-!
# Ports

No two entries have one port, and every port lies in the range of the
configuration (`PortsAllocated`).  Ports are assigned by the loop of `start`, by
the search for a free port, and by the two ways to respawn, which reuse the port
of the entry they replace.  So apart from startup and the search a step only
hands ports on, from an entry to itself or to its replacement.
-/

namespace L0Worker.Supervisor

/-- Entries have different ports, and all lie between `base_port` and `max_port`. -/
structure PortsAllocated (config : PoolConfig) (w : World) : Prop where
  distinct : ∀ id₁ id₂ port, w.portOf id₁ = some port → w.portOf id₂ = some port → id₁ = id₂
  inRange : ∀ id port, w.portOf id = some port → config.basePort ≤ port ∧ port ≤ config.maxPort

/-- A world in which `start` returns: it has started all workers, or those before the
first spawn that failed. -/
def StartReturned (config : PoolConfig) (w : World) : Prop :=
  ∃ w₀ workerIds, World.new config = some w₀ ∧ workerIds.Nodup ∧
    workerIds.length ≤ config.workerCount ∧ w = (w₀.start config workerIds).1

theorem Started.startReturned {config : PoolConfig} {w : World} (h : Started config w) :
    StartReturned config w := by
  obtain ⟨w₀, ids, hnew, hnd, hlen, hw⟩ := h
  exact ⟨w₀, ids, hnew, hnd, Nat.le_of_eq hlen, hw⟩

/-! ## Startup -/

/-- The entries after the loop of `start` are those of its indices. -/
theorem World.start_portOf {config : PoolConfig} {w₀ : World} (hnew : World.new config = some w₀)
    {ids : List WorkerId} (hnd : ids.Nodup) {id : WorkerId} {port : Port}
    (hport : (w₀.start config ids).1.portOf id = some port) :
    ∃ i, ids[i]? = some id ∧ port = config.basePort + UInt16.ofNat i := by
  obtain rfl := World.new_eq_some hnew
  obtain ⟨-, hin, hout⟩ := World.start_spec config ids 0
    { workers := ∅, eventRx := [], procs := [] } hnd rfl
  by_cases hid : id ∈ ids
  · obtain ⟨i, hi, rfl⟩ := List.mem_iff_getElem.mp hid
    have hget := List.getElem?_eq_getElem hi
    have hw := hin (ids[i], i) (List.mem_zipIdx_iff_getElem?.mpr hget)
    rw [World.start, World.portOf_of_workerOf hw] at hport
    exact ⟨i, hget, (Option.some.inj hport).symm⟩
  · rw [World.start, World.portOf, hout id hid] at hport
    cases hport

theorem StartReturned.portsAllocated {config : PoolConfig} {w : World}
    (h : StartReturned config w)
    (hrange : config.basePort.toNat + config.workerCount ≤ config.maxPort.toNat + 1) :
    PortsAllocated config w := by
  obtain ⟨w₀, ids, hnew, hnd, hlen, rfl⟩ := h
  have hlt : ∀ {i id}, ids[i]? = some id → i < config.workerCount := fun hi =>
    Nat.lt_of_lt_of_le (List.getElem?_eq_some_iff.mp hi).1 hlen
  have hfit := portsFit_of_range hrange
  refine ⟨?_, ?_⟩
  · intro id₁ id₂ port h₁ h₂
    obtain ⟨i, hi, rfl⟩ := World.start_portOf hnew hnd h₁
    obtain ⟨j, hj, heq⟩ := World.start_portOf hnew hnd h₂
    obtain rfl := hfit.distinct i (hlt hi) j (hlt hj) heq
    exact Option.some.inj (hi.symm.trans hj)
  · intro id port hport
    obtain ⟨i, hi, rfl⟩ := World.start_portOf hnew hnd hport
    exact hfit.within i (hlt hi)

theorem World.nextAvailablePort_inRange {config : PoolConfig} {w : World} {port : Port}
    (h : w.nextAvailablePort config = .ok port) :
    config.basePort ≤ port ∧ port ≤ config.maxPort := by
  obtain ⟨⟨hge, hle, -⟩, -⟩ := World.nextAvailablePort_eq_ok_iff.mp h
  exact ⟨hge, hle⟩

/-! ## Steps -/

namespace PortsAllocated

variable {config : PoolConfig} {w w' : World}

/-- Entries that keep their port, or disappear. -/
theorem of_sub (h : PortsAllocated config w)
    (hsub : ∀ id port, w'.portOf id = some port → w.portOf id = some port) :
    PortsAllocated config w' :=
  ⟨fun id₁ id₂ port h₁ h₂ => h.distinct id₁ id₂ port (hsub id₁ port h₁) (hsub id₂ port h₂),
    fun id port hid => h.inRange id port (hsub id port hid)⟩

theorem keeps (h : PortsAllocated config w) (hk : Keeps w w') : PortsAllocated config w' :=
  h.of_sub fun id _ hid => hk.portOf id ▸ hid

/-- A restart sweep hands the port of an entry to its successor. -/
theorem processRestarts (h : PortsAllocated config w) {now : Instant} {order : List WorkerId}
    {spawned : WorkerId → Except String Unit} (hl : w.workers.Lists order) :
    PortsAllocated config (w.processRestarts config now order spawned).1 := by
  obtain ⟨hother, hdue, -⟩ := World.processRestarts_spec config now spawned hl
  refine h.of_sub ?_
  intro id port hport
  by_cases hid : w.DueAt config now id
  · obtain ⟨m, hm, hd⟩ := hid
    have hresp := hdue id m hm hd
    unfold Respawned at hresp
    cases hs : spawned id with
    | error e =>
        simp only [hs] at hresp
        rw [World.portOf, hresp] at hport
        cases hport
    | ok u =>
        simp only [hs] at hresp
        obtain ⟨pid, -, hw⟩ := hresp
        rw [World.portOf_of_workerOf hw] at hport
        rw [World.portOf_of_workerOf (World.workerOf_of_lookup hm), ← hport]
  · rwa [World.portOf, hother id hid] at hport

/-- A new worker takes a free port of the range. -/
theorem spawnNewWorker (h : PortsAllocated config w) (newId : WorkerId)
    (outcome : Except String Unit) :
    PortsAllocated config (w.spawnNewWorker config newId outcome).2.1 := by
  rcases w.spawnNewWorker_cases config newId outcome with heq | ⟨port, hport, heq⟩
  · rw [heq]
    exact h
  · rw [heq]
    generalize hw' : ({ w with
      procs := w.procs ++ [⟨newId, port, .running, []⟩]
      workers := w.workers.insert newId
        ⟨⟨newId, port, w.procs.length⟩, .starting, 0, 0, none⟩ } : World) = w'
    have hcases : ∀ {id port'}, w'.portOf id = some port' →
        (id = newId ∧ port' = port) ∨ w.portOf id = some port' := by
      intro id port' hid
      rw [← hw', World.portOf, World.workerOf] at hid
      by_cases hne : id = newId
      · subst hne
        rw [Finmap.lookup_insert] at hid
        exact .inl ⟨rfl, (Option.some.inj hid).symm⟩
      · rw [Finmap.lookup_insert_of_ne _ hne] at hid
        exact .inr hid
    have hfree := World.nextAvailablePort_unused hport
    refine ⟨?_, ?_⟩
    · intro id₁ id₂ port' h₁ h₂
      rcases hcases h₁ with ⟨hid₁, hp₁⟩ | h₁ <;> rcases hcases h₂ with ⟨hid₂, hp₂⟩ | h₂
      · rw [hid₁, hid₂]
      · exact absurd (hp₁ ▸ h₂) (hfree id₂)
      · exact absurd (hp₂ ▸ h₁) (hfree id₁)
      · exact h.distinct id₁ id₂ port' h₁ h₂
    · intro id port' hid
      rcases hcases hid with ⟨-, rfl⟩ | hid
      · exact World.nextAvailablePort_inRange hport
      · exact h.inRange id port' hid

/-- A restart by the API hands the port of an entry to its replacement.  Old and new
entry are both there only within the step. -/
theorem restartWorker (h : PortsAllocated config w) (id newId : WorkerId) (env : RestartEnv) :
    PortsAllocated config (w.restartWorker config id newId env).2.1 := by
  cases w.restartWorker_cases config id newId env with
  | notFound hm heq =>
      rw [heq]
      exact h
  | @failed m w₁ e hm hw₁ heq =>
      rw [heq]
      exact (h.keeps hw₁.keeps).keeps (Keeps.modify w₁ id fun _ => rfl)
  | @replaced m w₁ hm hw₁ heq =>
      rw [heq]
      have hold := World.portOf_of_workerOf (World.workerOf_of_lookup hm)
      -- the port of an entry afterwards is that of the entry it stands for
      have hcases : ∀ {id' port}, World.portOf
          { w₁ with
            procs := w₁.procs ++ [⟨newId, m.worker.port, .running, []⟩]
            workers := (w₁.workers.insert newId
              ⟨⟨newId, m.worker.port, w₁.procs.length⟩, .starting, 0, 0, none⟩).erase id }
          id' = some port → w.portOf (if id' = newId then id else id') = some port ∧ id' ≠ id := by
        intro id' port hport
        rw [World.portOf, World.workerOf] at hport
        by_cases hid : id' = id
        · rw [hid, Finmap.lookup_erase] at hport
          cases hport
        · rw [Finmap.lookup_erase_ne hid] at hport
          refine ⟨?_, hid⟩
          split
          · next hnew =>
            rw [hnew, Finmap.lookup_insert] at hport
            rw [hold, ← hport]
            rfl
          · next hnew =>
            rw [Finmap.lookup_insert_of_ne _ hnew, hw₁.workers] at hport
            exact hport
      refine ⟨?_, ?_⟩
      · intro id₁ id₂ port h₁ h₂
        obtain ⟨h₁, hne₁⟩ := hcases h₁
        obtain ⟨h₂, hne₂⟩ := hcases h₂
        have heq := h.distinct _ _ port h₁ h₂
        split at heq <;> split at heq
        · next hn₁ hn₂ => rw [hn₁, hn₂]
        · exact absurd heq.symm hne₂
        · exact absurd heq hne₁
        · exact heq
      · intro id' port hport
        exact h.inRange _ port (hcases hport).1

theorem step {a : Action} {out : List PoolEvent} (h : PortsAllocated config w)
    (hstep : (system config).step w a = some (w', out)) : PortsAllocated config w' := by
  obtain ⟨hk, -⟩ | ⟨now, order, spawned, rfl, hl, heq⟩ | ⟨newId, outcome, rfl, -, heq⟩ |
    ⟨id, newId, env, rfl, -, heq⟩ := step_cases hstep
  · exact h.keeps hk
  · obtain ⟨rfl, -⟩ := Prod.ext_iff.mp heq
    exact h.processRestarts hl
  · obtain ⟨rfl, -⟩ := Prod.ext_iff.mp heq
    exact h.spawnNewWorker newId outcome
  · obtain ⟨rfl, -⟩ := Prod.ext_iff.mp heq
    exact h.restartWorker id newId env

end PortsAllocated

/-- When the ports of the initial workers fit into the range, ports stay distinct and in
the range in every run. -/
theorem ports_allocated {config : PoolConfig} {w₀ w : World} {as : List Action}
    {out : List PoolEvent}
    (hrange : (config.basePort.toNat : ℤ) + config.workerCount - 1 ≤ config.maxPort.toNat)
    (hstart : StartReturned config w₀) (hrun : (system config).run w₀ as = some (w, out)) :
    PortsAllocated config w :=
  (system config).run_invariant (fun _ _ _ _ h hs => h.step hs)
    (hstart.portsAllocated (by omega)) hrun

/-- The one worker is replaced, a restart of its replacement by the API fails, and a
restart sweep retries. -/
def replacedAndRetried : List Action :=
  [.restartWorker "l0-1" "l0-2" ⟨.exited none, .ok (), 0⟩,
    .restartWorker "l0-2" "l0-3" ⟨.timedOut, .error "Too many open files", 0⟩,
    .processRestarts 500 ["l0-2"] fun _ => .ok ()]

theorem ports_allocated_replacedAndRetried : ∃ w out,
    (system oneWorker).run oneWorkerStarted replacedAndRetried = some (w, out) ∧
      PortsAllocated oneWorker w := by
  obtain ⟨⟨w, out⟩, hrun⟩ :
      ∃ r, (system oneWorker).run oneWorkerStarted replacedAndRetried = some r :=
    Option.isSome_iff_exists.mp (by decide)
  exact ⟨w, out, hrun, ports_allocated (by decide) oneWorker_started.startReturned hrun⟩

end L0Worker.Supervisor
