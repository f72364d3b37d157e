import L0Worker.Supervisor.System

/-!
# Events of an earlier process

`process_restarts` reuses the id of the worker it restarts, and worker events
carry only the id.  So an event of an earlier process that is delivered late
is taken for one of the process now running.

An event is `Stale` when its source is an earlier process of the id it names.
`Ready`, `Draining` and `Drained` are always announced again, and `Exited` is
ignored only while the entry is `Failed` or `Stopped`.  `stale_event_iff`
states this for one delivery and `stale_events_iff` for runs.
-/

namespace L0Worker.Supervisor

/-- The event names `id` and comes from a process of that id spawned before the
one the entry of `id` now has. -/
def Stale (w : World) (e : Posted) (id : WorkerId) : Prop :=
  e.event.workerId? = some id ∧
    (∃ p, w.procs[e.source]? = some p ∧ p.workerId = id) ∧
    ∃ k, w.workerOf id = some k ∧ e.source < k.child

/-- What the pool records about a worker, besides when it was last healthy. -/
def World.recordOf (w : World) (id : WorkerId) : Option (WorkerState × UInt32 × Nat) :=
  (w.workers.lookup id).map fun m => (m.state, m.consecutiveFailures, m.consecutiveUnhealthy)

/-- The entry of `id` is as before, and nothing was announced about it. -/
def LeavesAlone (id : WorkerId) (w w' : World) (out : List PoolEvent) : Prop :=
  w'.recordOf id = w.recordOf id ∧ ∀ e ∈ out, e.workerId? ≠ some id

/-- The event is an exit, and the entry of `id` has already been given up or
scheduled for a restart. -/
def ExitSettled (w : World) (e : Posted) (id : WorkerId) : Prop :=
  (∃ code, e.event = .exited id code) ∧
    ∃ m, w.workers.lookup id = some m ∧ (m.state = .stopped ∨ ∃ time, m.state = .failed time)

/-- An exit that is still to be processed changes the state of the entry or is
announced. -/
theorem ManagedWorker.onExited_of_pending {config : PoolConfig} {now : Instant} {id : WorkerId}
    {code : Option Int} {m : ManagedWorker} (h : m.exitPending = true) :
    (m.onExited config now id code).1.state ≠ m.state := by
  unfold ManagedWorker.onExited
  rw [if_pos h]
  unfold ManagedWorker.exitPending at h
  split
  · intro heq
    simp only at heq
    rw [← heq] at h
    simp at h
  · intro heq
    simp only at heq
    rw [← heq] at h
    simp [WorkerState.isFailed] at h

theorem ManagedWorker.onExited_of_settled {config : PoolConfig} {now : Instant} {id : WorkerId}
    {code : Option Int} {m : ManagedWorker} (h : m.exitPending = false) :
    m.onExited config now id code = (m, []) := by
  unfold ManagedWorker.onExited
  rw [h]
  rfl

/-- Delivering an event that names the entry `id` leaves the entry alone exactly
when the event is an exit and the entry is settled. -/
theorem stale_event_iff (config : PoolConfig) (now : Instant) {w : World} {e : Posted}
    {rest : List Posted} {id : WorkerId} (hq : w.eventRx = e :: rest) (hs : Stale w e id) :
    LeavesAlone id w (w.tryRecvEvent config now).1 (w.tryRecvEvent config now).2 ↔
      ExitSettled w e id := by
  obtain ⟨hid, -, k, hk, -⟩ := hs
  obtain ⟨m, hm, -⟩ := World.workerOf_eq_some.mp hk
  obtain ⟨source, event⟩ := e
  simp only [World.tryRecvEvent, hq]
  have announced : ∀ {w' : World} {out : List PoolEvent} (ev : PoolEvent), ev ∈ out →
      ev.workerId? = some id → (∀ code, event ≠ .exited id code) →
      (LeavesAlone id w w' out ↔ ExitSettled w ⟨source, event⟩ id) := by
    intro w' out ev hev hname hne
    refine iff_of_false (fun h => h.2 ev hev hname) ?_
    rintro ⟨⟨code, hcode⟩, -⟩
    exact hne code hcode
  cases event with
  | ready port id' =>
      obtain rfl := Option.some.inj hid
      exact announced (.workerHealthy id' port) List.mem_cons_self rfl (by simp)
  | draining id' =>
      obtain rfl := Option.some.inj hid
      exact announced (.workerDraining id') List.mem_cons_self rfl (by simp)
  | drained id' =>
      obtain rfl := Option.some.inj hid
      exact announced (.workerDrained id') List.mem_cons_self rfl (by simp)
  | exited id' code =>
      obtain rfl := Option.some.inj hid
      simp only [World.handleWorkerEvent, hm]
      cases hp : m.exitPending with
      | true =>
          refine iff_of_false ?_ ?_
          · rintro ⟨hrec, -⟩
            simp only [World.recordOf, Finmap.lookup_insert, hm, Option.map_some,
              Option.some.injEq, Prod.mk.injEq] at hrec
            exact ManagedWorker.onExited_of_pending hp hrec.1
          · rintro ⟨-, m', hm', hst⟩
            rw [hm] at hm'
            rw [← Option.some.inj hm'] at hst
            rw [ManagedWorker.exitPending_eq_false.mpr hst] at hp
            cases hp
      | false =>
          refine iff_of_true ?_ ?_
          · rw [ManagedWorker.onExited_of_settled hp]
            refine ⟨?_, by simp⟩
            simp only [World.recordOf, Finmap.lookup_insert, hm]
          · exact ⟨⟨code, rfl⟩, m, hm, ManagedWorker.exitPending_eq_false.mp hp⟩
  | stdout line => cases hid
  | stderr line => cases hid

/-- In this step no event of an earlier process touches the entry of its successor. -/
def StaleHarmless (w : World) (a : Action) (w' : World) (out : List PoolEvent) : Prop :=
  ∀ now e rest id, a = .tryRecvEvent now → w.eventRx = e :: rest → Stale w e id →
    LeavesAlone id w w' out

/-- If this step delivers an event of an earlier process, it is an exit and the
entry of the successor is settled. -/
def StaleSettled (w : World) (a : Action) : Prop :=
  ∀ now e rest id, a = .tryRecvEvent now → w.eventRx = e :: rest → Stale w e id →
    ExitSettled w e id

/-- Along a run, no event of an earlier process touches its successor exactly when
every such event that is delivered is an exit that finds the entry settled. -/
theorem stale_events_iff (config : PoolConfig) (w₀ : World) (as : List Action) :
    (system config).Along StaleHarmless w₀ as ↔
      (system config).Along (fun w a _ _ => StaleSettled w a) w₀ as := by
  refine Machine.Along.congr (I := fun _ => True) ?_ (fun _ _ _ _ _ _ _ => trivial) trivial
  intro w a w' out _ hstep
  have key : ∀ now, a = .tryRecvEvent now → ∀ e rest id, w.eventRx = e :: rest → Stale w e id →
      (LeavesAlone id w w' out ↔ ExitSettled w e id) := by
    rintro now rfl e rest id hq hs
    obtain ⟨rfl, rfl⟩ := Prod.ext_iff.mp (Option.some.inj hstep)
    exact stale_event_iff config now hq hs
  constructor
  · intro h now e rest id ha hq hs
    exact (key now ha e rest id hq hs).mp (h now e rest id ha hq hs)
  · intro h now e rest id ha hq hs
    exact (key now ha e rest id hq hs).mpr (h now e rest id ha hq hs)

/-! ## A late ready line -/

/-- A worker reports ready and crashes, is restarted under its id, and only then is
its ready line read and delivered. -/
def lateReady : List Action :=
  [.print 0 (.event "worker.ready" (some 3001) (some "l0-1") ""),
    .exit 0 (some 1),
    .checkAllHealth (unreachableAt 1000) ["l0-1"],
    .processRestarts 1500 ["l0-1"] fun _ => .ok (),
    .readStdout 0]

/-- The successor is declared healthy before it is. -/
theorem late_ready_touches_successor :
    ¬ ∀ (w₀ : World) (as : List Action) (w : World) (out : List PoolEvent),
        Started oneWorker w₀ → (system oneWorker).run w₀ as = some (w, out) →
        (system oneWorker).Along StaleHarmless w₀ as := by
  intro claim
  obtain ⟨⟨w, out⟩, hrun⟩ :
      ∃ r, (system oneWorker).run oneWorkerStarted (lateReady ++ [.tryRecvEvent 1600]) = some r :=
    Option.isSome_iff_exists.mp (by decide)
  obtain ⟨u, o, v, o', hu, hv, huv, hharm⟩ :=
    (claim oneWorkerStarted _ w out oneWorker_started hrun).last
  have hqueue : ((system oneWorker).run oneWorkerStarted lateReady).map
      (fun r => (r.1.eventRx, r.1.workerOf "l0-1", (r.1.procs[0]?).map Process.workerId)) =
      some ([⟨0, .ready 3001 "l0-1"⟩], some ⟨"l0-1", 3001, 1⟩, some "l0-1") := by decide
  rw [hu, Option.map_some, Option.some.injEq, Prod.mk.injEq, Prod.mk.injEq] at hqueue
  obtain ⟨hq, hk, hp⟩ := hqueue
  obtain ⟨p, hp, hpid⟩ := Option.map_eq_some_iff.mp hp
  have hstale : Stale u ⟨0, .ready 3001 "l0-1"⟩ "l0-1" :=
    ⟨rfl, ⟨p, hp, hpid⟩, _, hk, Nat.zero_lt_one⟩
  have hsettled := (stale_event_iff oneWorker 1600 hq hstale).mp (by
    obtain ⟨rfl, rfl⟩ := Prod.ext_iff.mp (Option.some.inj hv)
    exact hharm 1600 _ [] "l0-1" rfl hq hstale)
  obtain ⟨⟨code, hcode⟩, -⟩ := hsettled
  cases hcode

end L0Worker.Supervisor
