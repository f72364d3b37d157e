import L0Worker.Supervisor.Frame

/-!
# Operator stops

After `drain_worker` or `kill_worker` the entry is `Draining` or `Stopped`
(`Halted`).  Health sweeps look only at `Starting` and `Healthy` entries and
restart sweeps only at `Failed` ones, and an exit takes a draining entry to
`Stopped`, so none of them brings a halted entry back.  The `Ready` arm of
`handle_worker_event` does: it sets the state to `Healthy` without looking at
the one before, so a ready line printed before the stop and delivered after it
undoes the stop.

`stop_final_iff` states both directions for runs.
-/

namespace L0Worker.Supervisor

/-- The entry of `id` was stopped by an operator, or its process ended since. -/
def Halted (id : WorkerId) (w : World) : Prop :=
  ∃ m, w.workers.lookup id = some m ∧ (m.state = .draining ∨ m.state = .stopped)

/-- The event announces that `id` is healthy, unhealthy, to be restarted or given up. -/
def PoolEvent.Disturbs (id : WorkerId) : PoolEvent → Prop
  | .workerHealthy id' _ | .workerUnhealthy id' _ | .workerRestarting id' _
  | .workerFailed id' => id' = id
  | .workerSpawned _ _ | .workerDraining _ | .workerDrained _ | .allWorkersHealthy
  | .shuttingDown => False

/-- Every process of `id` in the second world is in the first one already. -/
def NoNewProcess (id : WorkerId) (w w' : World) : Prop :=
  ∀ (pid : Pid) (p' : Process), w'.procs[pid]? = some p' → p'.workerId = id →
    ∃ p, w.procs[pid]? = some p ∧ p.workerId = id

/-- The step delivers a `Ready` event that names `id`. -/
def HandlesReady (id : WorkerId) (w : World) (a : Action) : Prop :=
  ∃ now source port rest, a = .tryRecvEvent now ∧ w.eventRx = ⟨source, .ready port id⟩ :: rest

/-- An operator stop of `id` succeeded and led to `w'`. -/
def StoppedBy (id : WorkerId) (w w' : World) : Prop :=
  w.drainWorker id = (.ok (), w') ∨ ∃ killed, w.killWorker id killed = (.ok (), w')

variable {id : WorkerId}

theorem PoolEvent.Disturbs.workerId {e : PoolEvent} (h : e.Disturbs id) :
    e.workerId? = some id := by
  cases e with
  | workerHealthy id' port => exact congrArg some h
  | workerUnhealthy id' reason => exact congrArg some h
  | workerRestarting id' attempt => exact congrArg some h
  | workerFailed id' => exact congrArg some h
  | _ => exact h.elim

theorem NoNewProcess.refl (id : WorkerId) (w : World) : NoNewProcess id w w :=
  fun _ p' hp' hid => ⟨p', hp', hid⟩

theorem NoNewProcess.trans {w₁ w₂ w₃ : World} (h : NoNewProcess id w₁ w₂)
    (h' : NoNewProcess id w₂ w₃) : NoNewProcess id w₁ w₃ := by
  intro pid p hp hid
  obtain ⟨q, hq, hqid⟩ := h' pid p hp hid
  exact h pid q hq hqid

theorem Keeps.noNewProcess {w w' : World} (h : Keeps w w') : NoNewProcess id w w' := by
  intro pid p' hp' hid
  obtain ⟨p, hp, hages⟩ := h.proc_exists hp'
  exact ⟨p, hp, hages.workerId ▸ hid⟩

theorem Halted.mem {w : World} (h : Halted id w) : id ∈ w.workers := by
  obtain ⟨m, hm, -⟩ := h
  exact Finmap.mem_of_lookup_eq_some hm

/-- Draining a worker of the pool succeeds. -/
theorem World.drainWorker_ok {w : World} (h : id ∈ w.workers) :
    w.drainWorker id = (.ok (), (w.drainWorker id).2) := by
  obtain ⟨m, hm⟩ := Finmap.mem_iff.mp h
  simp only [World.drainWorker, hm]

theorem StoppedBy.halted {w w' : World} (h : StoppedBy id w w') : Halted id w' := by
  rcases h with hd | ⟨killed, hk⟩
  · unfold World.drainWorker at hd
    cases hm : w.workers.lookup id with
    | none => simp [hm] at hd
    | some m =>
        rw [hm] at hd
        obtain rfl := (Prod.mk.inj hd).2
        refine ⟨_, Finmap.lookup_insert _, ?_⟩
        dsimp only
        split
        · exact .inl rfl
        · exact .inr rfl
  · unfold World.killWorker at hk
    cases hm : w.workers.lookup id with
    | none => simp [hm] at hk
    | some m =>
        rw [hm] at hk
        obtain rfl := (Prod.mk.inj hk).2
        exact ⟨_, Finmap.lookup_insert _, .inr rfl⟩

/-! ## One step after a stop -/

/-- A step after which the stop of `id` still holds. -/
structure StopHolds (id : WorkerId) (w w' : World) (out : List PoolEvent) : Prop where
  halted : Halted id w'
  /-- Nothing was announced that a stop excludes. -/
  quiet : ∀ e ∈ out, ¬ e.Disturbs id
  procs : NoNewProcess id w w'

theorem Untouched.stopHolds {w w' : World} {out : List PoolEvent} (hu : Untouched id w w' out)
    (h : Halted id w) : StopHolds id w w' out := by
  refine ⟨?_, fun e he hd => hu.events e he hd.workerId, hu.procs⟩
  obtain ⟨m, hm, hs⟩ := h
  exact ⟨m, hu.lookup.trans hm, hs⟩

theorem Halted.not_dueAt {config : PoolConfig} {now : Instant} {w : World} (h : Halted id w) :
    ¬ w.DueAt config now id := by
  rintro ⟨m, hm, hd⟩
  obtain ⟨m', hm', hs⟩ := h
  obtain rfl := Option.some.inj (hm.symm.trans hm')
  unfold ManagedWorker.isDue at hd
  rcases hs with hs | hs
  · simp [hs] at hd
  · simp [hs] at hd

/-- An event that names a halted worker leaves it halted, unless it is `Ready`. -/
theorem Halted.handleWorkerEvent (config : PoolConfig) (now : Instant) {w : World}
    {e : WorkerEvent} (h : Halted id w) (hr : ∀ port, e ≠ .ready port id) :
    StopHolds id w (w.handleWorkerEvent config now e).1 (w.handleWorkerEvent config now e).2 := by
  by_cases he : e.workerId? = some id
  case neg => exact (World.handleWorkerEvent_untouched config now w he).stopHolds h
  have hprocs : NoNewProcess id w _ := (World.handleWorkerEvent_keeps config now w e).noNewProcess
  obtain ⟨m, hm, hs⟩ := h
  cases e with
  | ready port id' =>
      obtain rfl := Option.some.inj he
      exact absurd rfl (hr port)
  | draining id' =>
      obtain rfl := Option.some.inj he
      refine ⟨⟨{ m with state := .draining }, ?_, .inl rfl⟩, ?_, hprocs⟩
      · simp only [World.handleWorkerEvent, Finmap.lookup_modify, hm, Option.map_some]
      · exact List.forall_mem_singleton.mpr not_false
  | drained id' =>
      exact ⟨⟨m, hm, hs⟩, List.forall_mem_singleton.mpr not_false, hprocs⟩
  | exited id' code =>
      obtain rfl := Option.some.inj he
      simp only [World.handleWorkerEvent, hm] at hprocs ⊢
      -- a draining entry stops, a stopped one is not looked at
      have hexit : ((m.onExited config now id' code).1.state = .draining ∨
          (m.onExited config now id' code).1.state = .stopped) ∧
          (m.onExited config now id' code).2 = [] := by
        unfold ManagedWorker.onExited ManagedWorker.exitPending
        rcases hs with hs | hs
        · simp [hs, WorkerState.isFailed]
        · simp [hs]
      refine ⟨⟨_, Finmap.lookup_insert _, hexit.1⟩, ?_, hprocs⟩
      rw [hexit.2]
      exact List.forall_mem_nil _
  | stdout line => cases he
  | stderr line => cases he

/-- Without an API call that names the worker, a stop holds through every step
that does not deliver a `Ready` event of the worker. -/
theorem Halted.step {config : PoolConfig} {w w' : World} {a : Action} {out : List PoolEvent}
    (h : Halted id w) (hstep : (system config).step w a = some (w', out))
    (hapi : a.apiTarget? ≠ some id) (hr : ¬ HandlesReady id w a) : StopHolds id w w' out := by
  have hfresh : ∀ newId, w.Fresh newId → id ≠ newId := by
    rintro newId hf rfl
    exact hf.1 h.mem
  cases poolStep hstep with
  | tryRecvEvent now =>
      unfold World.tryRecvEvent
      cases hq : w.eventRx with
      | nil => exact (Untouched.refl id w).stopHolds h
      | cons e rest =>
          have hne : ∀ port, e.event ≠ .ready port id := by
            intro port he
            exact hr ⟨now, e.source, port, rest, rfl, by rw [hq, ← he]⟩
          obtain ⟨hh, hquiet, hprocs⟩ :=
            Halted.handleWorkerEvent config now (w := { w with eventRx := rest }) h hne
          exact ⟨hh, hquiet, hprocs⟩
  | checkAllHealth env hl =>
      refine (World.checkAllHealth_untouched config env _ ?_).stopHolds h
      intro m hm
      obtain ⟨m', hm', hs⟩ := h
      obtain rfl := Option.some.inj (hm.symm.trans hm')
      rcases hs with hs | hs
      · simp [hs]
      · simp [hs]
  | processRestarts now spawned hl =>
      exact (World.processRestarts_untouched h.not_dueAt).stopHolds h
  | spawnNewWorker spawned hf =>
      exact (World.spawnNewWorker_untouched (hfresh _ hf)).stopHolds h
  | drainWorker id' =>
      exact (World.drainWorker_untouched fun heq => hapi (congrArg some heq.symm)).stopHolds h
  | killWorker id' killed =>
      exact (World.killWorker_untouched fun heq => hapi (congrArg some heq.symm)).stopHolds h
  | restartWorker id' env hf =>
      exact (World.restartWorker_untouched (fun heq => hapi (congrArg some heq.symm))
        (hfresh _ hf)).stopHolds h
  | outside ha hk hworkers => exact (Untouched.of_keeps hk (by rw [hworkers])).stopHolds h

/-- A `Ready` event of the worker is announced as healthy, whatever its state. -/
theorem HandlesReady.disturbs {config : PoolConfig} {w w' : World} {a : Action}
    {out : List PoolEvent} (hr : HandlesReady id w a)
    (hstep : (system config).step w a = some (w', out)) : ∃ e ∈ out, e.Disturbs id := by
  obtain ⟨now, source, port, rest, rfl, hq⟩ := hr
  obtain ⟨-, rfl⟩ := Prod.ext_iff.mp (Option.some.inj hstep)
  refine ⟨.workerHealthy id port, ?_, rfl⟩
  simp only [World.tryRecvEvent, hq, World.handleWorkerEvent]
  exact List.mem_cons_self

/-! ## Runs after a stop -/

/-- After `drain_worker` or `kill_worker` returned `Ok`, a run without further API
calls on the worker announces nothing a stop excludes and starts no process for
it, exactly when it delivers no `Ready` event of the worker. -/
theorem stop_final_iff {config : PoolConfig} {w w₁ w₂ : World} {as : List Action}
    {out : List PoolEvent} (hstop : StoppedBy id w w₁)
    (hrun : (system config).run w₁ as = some (w₂, out))
    (hapi : ∀ a ∈ as, a.apiTarget? ≠ some id) :
    ((∀ e ∈ out, ¬ e.Disturbs id) ∧ NoNewProcess id w₁ w₂) ↔
      (system config).Along (fun w a _ _ => ¬ HandlesReady id w a) w₁ as := by
  have hquiet : (∀ e ∈ out, ¬ e.Disturbs id) ↔
      (system config).Along (fun w a _ _ => ¬ HandlesReady id w a) w₁ as := by
    rw [← Machine.Along.forall_output_iff hrun]
    have hnamed := Machine.along_of_forall_mem hapi hrun
    constructor
    · refine Machine.Along.mono (I := fun _ => True) ?_ (fun _ _ _ _ _ _ _ => trivial) trivial
      intro u a u' o _ hu hq hr
      obtain ⟨e, he, hd⟩ := hr.disturbs hu
      exact hq e he hd
    · intro h
      refine Machine.Along.mono (I := Halted id) ?_ ?_ hstop.halted
        (Machine.Along.and_iff.mpr ⟨hnamed, h⟩)
      · intro u a u' o hh hu hP
        exact (hh.step hu hP.1 hP.2).quiet
      · intro u a u' o hh hu hP
        exact (hh.step hu hP.1 hP.2).halted
  refine ⟨fun h => hquiet.mp h.1, fun h => ⟨hquiet.mpr h, ?_⟩⟩
  have hinv := Machine.Along.invariant (I := fun u => Halted id u ∧ NoNewProcess id w₁ u)
    (P := fun u a _ _ => a.apiTarget? ≠ some id ∧ ¬ HandlesReady id u a) ?_
    ⟨hstop.halted, NoNewProcess.refl id w₁⟩
    (Machine.Along.and_iff.mpr ⟨Machine.along_of_forall_mem hapi hrun, h⟩) hrun
  · exact hinv.2
  · rintro u a u' o ⟨hh, hn⟩ hu ⟨hna, hr⟩
    obtain ⟨hh', -, hn'⟩ := hh.step hu hna hr
    exact ⟨hh', hn.trans hn'⟩

/-- The one worker, drained by an operator right after startup. -/
def drainedAtOnce : World := (oneWorkerStarted.drainWorker "l0-1").2

/-- It exits, and both sweeps run. -/
def exitAndSweep : List Action :=
  [.exit 0 (some 0), .checkAllHealth (unreachableAt 1000) ["l0-1"],
    .processRestarts 1000 ["l0-1"] fun _ => .ok ()]

theorem stop_final_iff_exitAndSweep : ∃ w₂ out,
    (system oneWorker).run drainedAtOnce exitAndSweep = some (w₂, out) ∧
      (((∀ e ∈ out, ¬ e.Disturbs "l0-1") ∧ NoNewProcess "l0-1" drainedAtOnce w₂) ↔
        (system oneWorker).Along (fun w a _ _ => ¬ HandlesReady "l0-1" w a) drainedAtOnce
          exitAndSweep) := by
  obtain ⟨⟨w₂, out⟩, hrun⟩ :
      ∃ r, (system oneWorker).run drainedAtOnce exitAndSweep = some r :=
    Option.isSome_iff_exists.mp (by decide)
  exact ⟨w₂, out, hrun, stop_final_iff (w := oneWorkerStarted) (.inl rfl) hrun (by decide)⟩

/-! ## A ready line from before the stop -/

/-- The worker printed its ready line, and no one has read it. -/
def readyUnread : Option (World × List PoolEvent) :=
  (system oneWorker).run oneWorkerStarted
    [.print 0 (.event "worker.ready" (some 3001) (some "l0-1") "")]

/-- The worker is drained, and only then its ready line is read and delivered. -/
theorem ready_undoes_stop :
    ¬ ∀ (id : WorkerId) (w w₁ w₂ : World) (as : List Action) (out : List PoolEvent),
        Reachable oneWorker w → StoppedBy id w w₁ →
        (system oneWorker).run w₁ as = some (w₂, out) → (∀ a ∈ as, a.apiTarget? ≠ some id) →
        (∀ e ∈ out, ¬ e.Disturbs id) ∧ NoNewProcess id w₁ w₂ := by
  intro claim
  have htrace : (readyUnread.bind fun r =>
      ((system oneWorker).run (r.1.drainWorker "l0-1").2 [.readStdout 0, .tryRecvEvent 1000]).map
        fun q => (decide ("l0-1" ∈ r.1.workers), q.2)) =
      some (true, [.workerHealthy "l0-1" 3001, .allWorkersHealthy]) := by decide
  obtain ⟨⟨w, o⟩, hw, htrace⟩ := Option.bind_eq_some_iff.mp htrace
  obtain ⟨⟨w₂, out⟩, hrun, htrace⟩ := Option.map_eq_some_iff.mp htrace
  obtain ⟨hmem, rfl⟩ := Prod.mk.inj htrace
  exact (claim "l0-1" w _ w₂ _ _ ⟨_, _, o, oneWorker_started, hw⟩
    (.inl (World.drainWorker_ok (of_decide_eq_true hmem))) hrun (by decide)).1
    (.workerHealthy "l0-1" 3001) List.mem_cons_self rfl

end L0Worker.Supervisor
