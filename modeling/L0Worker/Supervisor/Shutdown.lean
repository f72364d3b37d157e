import L0Worker.Supervisor.Restart
import L0Worker.Supervisor.Startup

/-!
# Shutdown

`WorkerPool::shutdown`, from the point where `main` holds the pool for it to its return.
A step is a piece of it between two points where it may wait.  In between the worker
processes and their reader tasks run, and nothing else that could touch the pool does:
`shutdown` holds the write lock.

At the end `shutdown` reaps every worker, and `Worker::wait` sends an `Exited` event for
each on the event channel, whose only receiver is the pool itself.  `Blocked` is the
state in which it waits for a place that no one will free, and
`shutdown_never_blocked_iff` says how much output of the workers leads there.
-/

namespace L0Worker.Supervisor

/-- Where `shutdown` is.  The lists are the ids a loop has still to come to. -/
inductive ShutdownPhase where
  /-- Before `ShuttingDown` is sent. -/
  | announcing
  | terminating (left : List WorkerId)
  /-- Waiting for all workers to stop, or for the deadline. -/
  | waiting
  | killing (left : List WorkerId)
  /-- `Worker::wait` waits for the child of the first worker. -/
  | reaping (left : List WorkerId)
  /-- `Worker::wait` sends an event. -/
  | sending (event : Posted) (left : List WorkerId)
  | returned
deriving Repr, DecidableEq

/-- The state of `shutdown`. -/
structure Shutdown where
  world : World
  phase : ShutdownPhase
deriving DecidableEq

/-- A step during shutdown. -/
inductive ShutdownAction where
  | announce
  /-- The next iteration of the loop that asks the workers to end. -/
  | terminate
  /-- The next iteration of the loop that waits, before or after the deadline. -/
  | poll (beforeDeadline : Bool)
  /-- The next iteration of the loop that kills, and whether the kill succeeds. -/
  | kill (killed : Bool)
  /-- The child `Worker::wait` waits for has exited. -/
  | waited
  | waitFailed
  /-- The `send` in `Worker::wait` returns. -/
  | send
  /-- All workers are reaped. -/
  | finish
  /-- A process or a reader task moves. -/
  | outside (a : Action)

/-- The exit code of a process that has ended. -/
def World.exitCode (w : World) (pid : Pid) : Option Int :=
  match w.procs[pid]?.map Process.status with
  | some (.exited code) => code
  | _ => none

/-- No worker of the pool runs. -/
def World.allStopped (w : World) : Bool :=
  decide (∀ id ∈ w.workers.keys, ∀ m ∈ w.workers.lookup id, w.isRunning m.worker.child = false)

/-- One step.  The loops follow the order in which the map is iterated. -/
def Shutdown.step (config : PoolConfig) (order : List WorkerId) (s : Shutdown) :
    ShutdownAction → Option (Shutdown × List PoolEvent)
  | .announce =>
      match s.phase with
      | .announcing => some ({ s with phase := .terminating order }, [.shuttingDown])
      | _ => none
  | .terminate =>
      match s.phase with
      -- `Worker::terminate` only asks the process to end
      | .terminating (_ :: left) => some ({ s with phase := .terminating left }, [])
      | .terminating [] => some ({ s with phase := .waiting }, [])
      | _ => none
  | .poll beforeDeadline =>
      match s.phase with
      | .waiting =>
          if beforeDeadline then
            some ({ s with phase := if s.world.allStopped then .reaping order else .waiting }, [])
          else some ({ s with phase := .killing order }, [])
      | _ => none
  | .kill killed =>
      match s.phase with
      | .killing (id :: left) =>
          (s.world.workerOf id).map fun k =>
            ({ world := if s.world.isRunning k.child then s.world.kill k.child killed else s.world
               phase := .killing left }, [])
      | .killing [] => some ({ s with phase := .reaping order }, [])
      | _ => none
  | .waited =>
      match s.phase with
      | .reaping (id :: left) =>
          (s.world.workerOf id).bind fun k =>
            if s.world.isRunning k.child then none
            else
              let event := ⟨k.child, .exited k.workerId (s.world.exitCode k.child)⟩
              some ({ s with phase := .sending event left }, [])
      | _ => none
  | .waitFailed =>
      match s.phase with
      | .reaping (id :: left) =>
          (s.world.workerOf id).map fun k =>
            ({ s with phase := .sending ⟨k.child, .exited k.workerId none⟩ left }, [])
      | _ => none
  | .send =>
      match s.phase with
      | .sending event left =>
          if s.world.eventRx.length < eventCapacity then
            some ({ world := s.world.post event, phase := .reaping left }, [])
          else none
      | _ => none
  | .finish =>
      match s.phase with
      | .reaping [] => some ({ s with phase := .returned }, [])
      | _ => none
  | .outside a =>
      if a.isOutside then (s.world.step config a).map fun r => ({ s with world := r.1 }, [])
      else none

/-- Shutdown of a pool whose map is iterated in the given order. -/
def shutdown (config : PoolConfig) (order : List WorkerId) :
    Machine Shutdown ShutdownAction PoolEvent :=
  ⟨Shutdown.step config order⟩

/-- `Worker::wait` waits to send, and the channel is full. -/
def Shutdown.Blocked (s : Shutdown) : Prop :=
  (∃ event left, s.phase = .sending event left) ∧ eventCapacity ≤ s.world.eventRx.length

instance (s : Shutdown) : Decidable s.Blocked :=
  match h : s.phase with
  | .sending event left =>
      decidable_of_iff (eventCapacity ≤ s.world.eventRx.length)
        ⟨fun hle => ⟨⟨event, left, h⟩, hle⟩, And.right⟩
  | .announcing | .terminating _ | .waiting | .killing _ | .reaping _ | .returned =>
      isFalse fun ⟨⟨_, _, hs⟩, _⟩ => nomatch h.symm.trans hs

/-- The step is a reader task taking a line of output. -/
def ShutdownAction.reads : ShutdownAction → Bool
  | .outside (.readStdout _) | .outside (.readStderr _ _) => true
  | _ => false

/-! ## Steps -/

/-- The steps of shutdown, with what each has found and what it leaves. -/
inductive Shutdown.Stepped (config : PoolConfig) (order : List WorkerId) (s : Shutdown) :
    ShutdownAction → Shutdown → Prop where
  | announce (h : s.phase = .announcing) :
      Stepped config order s .announce { s with phase := .terminating order }
  | terminate {id : WorkerId} {left : List WorkerId} (h : s.phase = .terminating (id :: left)) :
      Stepped config order s .terminate { s with phase := .terminating left }
  | terminated (h : s.phase = .terminating []) :
      Stepped config order s .terminate { s with phase := .waiting }
  | allStopped (h : s.phase = .waiting) :
      Stepped config order s (.poll true) { s with phase := .reaping order }
  | sleep (h : s.phase = .waiting) :
      Stepped config order s (.poll true) { s with phase := .waiting }
  | deadline (h : s.phase = .waiting) :
      Stepped config order s (.poll false) { s with phase := .killing order }
  | kill {killed : Bool} {id : WorkerId} {left : List WorkerId} {world : World}
      (h : s.phase = .killing (id :: left)) (hw : world.eventRx = s.world.eventRx) :
      Stepped config order s (.kill killed) { world := world, phase := .killing left }
  | killed {killed : Bool} (h : s.phase = .killing []) :
      Stepped config order s (.kill killed) { s with phase := .reaping order }
  | waited {a : ShutdownAction} {id : WorkerId} {left : List WorkerId} (event : Posted)
      (h : s.phase = .reaping (id :: left)) (ha : a.reads = false) :
      Stepped config order s a { s with phase := .sending event left }
  | send {event : Posted} {left : List WorkerId} (h : s.phase = .sending event left)
      (hlt : s.world.eventRx.length < eventCapacity) :
      Stepped config order s .send { world := s.world.post event, phase := .reaping left }
  | finish (h : s.phase = .reaping []) :
      Stepped config order s .finish { s with phase := .returned }
  | outside {a : Action} {world : World} {out : List PoolEvent} (ha : a.isOutside = true)
      (hstep : (system config).step s.world a = some (world, out)) :
      Stepped config order s (.outside a) { s with world := world }

theorem World.kill_eventRx (w : World) (pid : Pid) (killed : Bool) :
    (w.kill pid killed).eventRx = w.eventRx := by
  unfold World.kill
  split <;> rfl

theorem shutdown_step_cases {config : PoolConfig} {order : List WorkerId} {s s' : Shutdown}
    {a : ShutdownAction} {out : List PoolEvent}
    (hstep : (shutdown config order).step s a = some (s', out)) : s.Stepped config order a s' := by
  cases a with
  | outside a =>
      obtain ⟨ha, hstep⟩ := Option.ite_none_right_eq_some.mp hstep
      obtain ⟨r, hr, hstep⟩ := Option.map_eq_some_iff.mp hstep
      obtain ⟨rfl, -⟩ := Prod.mk.inj hstep
      exact .outside ha hr
  | announce =>
      simp only [shutdown, Shutdown.step] at hstep
      split at hstep
      · next h =>
        obtain ⟨rfl, -⟩ := Prod.mk.inj (Option.some.inj hstep)
        exact .announce h
      · cases hstep
  | terminate =>
      simp only [shutdown, Shutdown.step] at hstep
      split at hstep
      · next h =>
        obtain ⟨rfl, -⟩ := Prod.mk.inj (Option.some.inj hstep)
        exact .terminate h
      · next h =>
        obtain ⟨rfl, -⟩ := Prod.mk.inj (Option.some.inj hstep)
        exact .terminated h
      · cases hstep
  | poll beforeDeadline =>
      simp only [shutdown, Shutdown.step] at hstep
      split at hstep
      · next h =>
        cases beforeDeadline with
        | false =>
            obtain ⟨rfl, -⟩ := Prod.mk.inj (Option.some.inj hstep)
            exact .deadline h
        | true =>
            obtain ⟨rfl, -⟩ := Prod.mk.inj (Option.some.inj hstep)
            split
            · exact .allStopped h
            · exact .sleep h
      · cases hstep
  | kill killed =>
      simp only [shutdown, Shutdown.step] at hstep
      split at hstep
      · next h =>
        obtain ⟨k, -, hstep⟩ := Option.map_eq_some_iff.mp hstep
        obtain ⟨rfl, -⟩ := Prod.mk.inj hstep
        refine .kill h ?_
        split
        · exact World.kill_eventRx s.world k.child killed
        · rfl
      · next h =>
        obtain ⟨rfl, -⟩ := Prod.mk.inj (Option.some.inj hstep)
        exact .killed h
      · cases hstep
  | waited =>
      simp only [shutdown, Shutdown.step] at hstep
      split at hstep
      · next h =>
        obtain ⟨k, -, hstep⟩ := Option.bind_eq_some_iff.mp hstep
        obtain ⟨-, hstep⟩ := Option.ite_none_left_eq_some.mp hstep
        obtain ⟨rfl, -⟩ := Prod.mk.inj (Option.some.inj hstep)
        exact .waited _ h rfl
      · cases hstep
  | waitFailed =>
      simp only [shutdown, Shutdown.step] at hstep
      split at hstep
      · next h =>
        obtain ⟨k, -, hstep⟩ := Option.map_eq_some_iff.mp hstep
        obtain ⟨rfl, -⟩ := Prod.mk.inj hstep
        exact .waited _ h rfl
      · cases hstep
  | send =>
      simp only [shutdown, Shutdown.step] at hstep
      split at hstep
      · next h =>
        obtain ⟨hlt, hstep⟩ := Option.ite_none_right_eq_some.mp hstep
        obtain ⟨rfl, -⟩ := Prod.mk.inj (Option.some.inj hstep)
        exact .send h hlt
      · cases hstep
  | finish =>
      simp only [shutdown, Shutdown.step] at hstep
      split at hstep
      · next h =>
        obtain ⟨rfl, -⟩ := Prod.mk.inj (Option.some.inj hstep)
        exact .finish h
      · cases hstep

/-! ## What is sent -/

theorem World.post_length {w : World} {e : Posted} (h : w.eventRx.length < eventCapacity) :
    (w.post e).eventRx.length = w.eventRx.length + 1 := by
  rw [World.post, if_pos h, List.length_append, List.length_singleton]

theorem World.readStdout_length {w w' : World} {pid : Pid} (h : w.readStdout pid = some w') :
    w.eventRx.length ≤ w'.eventRx.length ∧ w'.eventRx.length ≤ w.eventRx.length + 1 := by
  unfold World.readStdout at h
  split at h
  · cases h
  · split at h
    · cases h
    · dsimp only at h
      split at h
      · obtain rfl := Option.some.inj h
        exact ⟨le_refl _, Nat.le_succ _⟩
      · obtain ⟨-, h⟩ := Option.ite_none_right_eq_some.mp h
        obtain rfl := Option.some.inj h
        simp

/-- Processes and reader tasks only add to the event channel, and only by reading. -/
theorem outside_length {config : PoolConfig} {w w' : World} {a : Action} {out : List PoolEvent}
    (ha : a.isOutside = true) (hstep : (system config).step w a = some (w', out)) :
    w.eventRx.length ≤ w'.eventRx.length ∧
      w'.eventRx.length ≤
        w.eventRx.length + if (ShutdownAction.outside a).reads then 1 else 0 := by
  cases a with
  | print pid line =>
      obtain ⟨-, hstep⟩ := Option.ite_none_right_eq_some.mp hstep
      obtain ⟨rfl, -⟩ := Prod.mk.inj (Option.some.inj hstep)
      exact ⟨le_refl _, le_refl _⟩
  | exit pid code =>
      obtain ⟨-, hstep⟩ := Option.ite_none_right_eq_some.mp hstep
      obtain ⟨rfl, -⟩ := Prod.mk.inj (Option.some.inj hstep)
      exact ⟨le_refl _, le_refl _⟩
  | readStdout pid =>
      obtain ⟨v, hv, hstep⟩ := Option.map_eq_some_iff.mp hstep
      obtain ⟨rfl, -⟩ := Prod.mk.inj hstep
      exact World.readStdout_length hv
  | readStderr pid line =>
      obtain ⟨hlt, hstep⟩ := Option.ite_none_right_eq_some.mp hstep
      obtain ⟨rfl, -⟩ := Prod.mk.inj (Option.some.inj hstep)
      rw [World.post_length hlt]
      exact ⟨Nat.le_succ _, le_refl _⟩
  | _ => cases ha

/-- The `Exited` events still to be sent. -/
def ShutdownPhase.toSend (order : List WorkerId) : ShutdownPhase → Nat
  | .announcing | .terminating _ | .waiting | .killing _ => order.length
  | .reaping left => left.length
  | .sending _ left => left.length + 1
  | .returned => 0

theorem Shutdown.Stepped.toSend_le {config : PoolConfig} {order : List WorkerId}
    {s s' : Shutdown} {a : ShutdownAction} (h : s.Stepped config order a s') :
    s'.phase.toSend order ≤ s.phase.toSend order := by
  cases h with
  | outside ha hw => exact le_refl _
  | announce h | terminate h | terminated h | allStopped h | sleep h | deadline h | kill h hw
  | killed h | waited e h ha | send h hlt | finish h => simp [h, ShutdownPhase.toSend]

theorem shutdown_toSend_le {config : PoolConfig} {order : List WorkerId} {s t : Shutdown}
    {as : List ShutdownAction} {out : List PoolEvent}
    (hrun : (shutdown config order).run s as = some (t, out)) :
    t.phase.toSend order ≤ s.phase.toSend order :=
  (shutdown config order).run_invariant
    (I := fun u => u.phase.toSend order ≤ s.phase.toSend order)
    (fun _ _ _ _ hle hstep => (shutdown_step_cases hstep).toSend_le.trans hle) (le_refl _) hrun

/-- The places of the event channel that are taken or will be. -/
def Shutdown.load (order : List WorkerId) (s : Shutdown) : Nat :=
  s.world.eventRx.length + s.phase.toSend order

/-- Only lines of output add to the load. -/
theorem Shutdown.Stepped.load_le {config : PoolConfig} {order : List WorkerId} {s s' : Shutdown}
    {a : ShutdownAction} (h : s.Stepped config order a s') :
    s'.load order ≤ s.load order + if a.reads then 1 else 0 := by
  unfold Shutdown.load
  cases h with
  | announce h => simp [h, ShutdownPhase.toSend, ShutdownAction.reads]
  | terminate h => simp [h, ShutdownPhase.toSend, ShutdownAction.reads]
  | terminated h => simp [h, ShutdownPhase.toSend, ShutdownAction.reads]
  | allStopped h => simp [h, ShutdownPhase.toSend, ShutdownAction.reads]
  | sleep h => simp [h, ShutdownPhase.toSend, ShutdownAction.reads]
  | deadline h => simp [h, ShutdownPhase.toSend, ShutdownAction.reads]
  | kill h hw => simp [h, hw, ShutdownPhase.toSend, ShutdownAction.reads]
  | killed h => simp [h, ShutdownPhase.toSend, ShutdownAction.reads]
  | waited event h ha => simp [h, ha, ShutdownPhase.toSend]
  | send h hlt =>
      simp only [h, World.post_length hlt, ShutdownPhase.toSend, ShutdownAction.reads]
      omega
  | finish h => simp [h, ShutdownPhase.toSend, ShutdownAction.reads]
  | outside ha hstep =>
      have hle := (outside_length ha hstep).2
      dsimp only
      omega

theorem shutdown_load_le {config : PoolConfig} {order : List WorkerId} {s t : Shutdown}
    {as : List ShutdownAction} {out : List PoolEvent}
    (hrun : (shutdown config order).run s as = some (t, out)) :
    t.load order ≤ s.load order + as.countP ShutdownAction.reads := by
  refine (shutdown config order).run_history
    (J := fun as _ u => u.load order ≤ s.load order + as.countP ShutdownAction.reads) ?_
    (Nat.le_refl _) hrun
  intro as out u a u' o _ hle hstep
  rw [List.countP_append, List.countP_singleton]
  exact (shutdown_step_cases hstep).load_le.trans (by omega)

/-! ## Blocked states -/

/-- A blocked state stays blocked whatever processes and reader tasks do. -/
theorem Shutdown.Blocked.step {config : PoolConfig} {order : List WorkerId} {s s' : Shutdown}
    {a : ShutdownAction} {out : List PoolEvent} (h : s.Blocked)
    (hstep : (shutdown config order).step s a = some (s', out)) : s'.Blocked := by
  obtain ⟨⟨event, left, hs⟩, hfull⟩ := h
  cases shutdown_step_cases hstep with
  | send h hlt => exact absurd hfull (not_le.mpr hlt)
  | outside ha hw => exact ⟨⟨event, left, hs⟩, hfull.trans (outside_length ha hw).1⟩
  | announce h | terminate h | terminated h | allStopped h | sleep h | deadline h | kill h hw
  | killed h | waited e h ha | finish h => cases hs.symm.trans h

theorem Shutdown.Blocked.run {config : PoolConfig} {order : List WorkerId} {s s' : Shutdown}
    {as : List ShutdownAction} {out : List PoolEvent} (h : s.Blocked)
    (hrun : (shutdown config order).run s as = some (s', out)) : s'.Blocked :=
  (shutdown config order).run_invariant (fun _ _ _ _ hs hu => hs.step hu) h hrun

/-! ## A run that gets blocked -/

theorem shutdown_terminate (config : PoolConfig) (order left : List WorkerId) (w : World) :
    (shutdown config order).run ⟨w, .terminating left⟩
      (List.replicate (left.length + 1) .terminate) = some (⟨w, .waiting⟩, []) := by
  induction left with
  | nil => rfl
  | cons id left ih =>
      exact (shutdown config order).run_cons_iff.mpr ⟨_, [], [], rfl, ih, rfl⟩

/-- A process that has ended does not run again. -/
theorem Keeps.isRunning {w w' : World} (h : Keeps w w') {pid : Pid}
    (hpid : w.isRunning pid = false) : w'.isRunning pid = false := by
  rw [Bool.eq_false_iff] at hpid ⊢
  intro hrun
  obtain ⟨p', hp', hr⟩ := World.isRunning_iff.mp hrun
  obtain ⟨p, hp, hages⟩ := h.proc_exists hp'
  exact hpid (World.isRunning_iff.mpr ⟨p, hp, hages.running hr⟩)

/-- One iteration of the loop that kills, where the kill succeeds. -/
theorem shutdown_killOne (config : PoolConfig) (order : List WorkerId) {id : WorkerId}
    (left : List WorkerId) {w : World} {k : Worker} (hk : w.workerOf id = some k) :
    ∃ w', (shutdown config order).step ⟨w, .killing (id :: left)⟩ (.kill true) =
        some (⟨w', .killing left⟩, []) ∧
      w'.eventRx = w.eventRx ∧ w'.workers = w.workers ∧ Keeps w w' ∧
      w'.isRunning k.child = false := by
  refine ⟨if w.isRunning k.child then w.kill k.child true else w, ?_, ?_⟩
  · simp only [shutdown, Shutdown.step, hk, Option.map_some]
  · split
    · exact ⟨rfl, rfl, Keeps.kill w k.child true, World.isRunning_endProcess⟩
    · next hrun => exact ⟨rfl, rfl, Keeps.refl w, Bool.eq_false_iff.mpr hrun⟩

/-- The loop that kills, where every kill succeeds, leaves no worker that runs. -/
theorem shutdown_kill (config : PoolConfig) (order : List WorkerId) {left : List WorkerId}
    {w : World} (hleft : ∀ id ∈ left, id ∈ w.workers) :
    ∃ w', (shutdown config order).run ⟨w, .killing left⟩
        (List.replicate (left.length + 1) (.kill true)) = some (⟨w', .reaping order⟩, []) ∧
      w'.eventRx = w.eventRx ∧ w'.workers = w.workers ∧ Keeps w w' ∧
      ∀ id ∈ left, ∀ k, w.workerOf id = some k → w'.isRunning k.child = false := by
  induction left generalizing w with
  | nil => exact ⟨w, rfl, rfl, rfl, Keeps.refl w, List.forall_mem_nil _⟩
  | cons id left ih =>
      obtain ⟨hid, hleft⟩ := List.forall_mem_cons.mp hleft
      obtain ⟨k, hk⟩ := World.mem_workers_iff.mp hid
      obtain ⟨w₁, hstep, hq₁, hworkers₁, hkeeps₁, hk₁⟩ :=
        shutdown_killOne config order left hk
      obtain ⟨w', hrun, hq, hworkers, hkeeps, hdead⟩ := ih (w := w₁) (hworkers₁ ▸ hleft)
      refine ⟨w', (shutdown config order).run_cons_iff.mpr ⟨_, [], [], hstep, hrun, rfl⟩,
        hq.trans hq₁, hworkers.trans hworkers₁, hkeeps₁.trans hkeeps, ?_⟩
      refine List.forall_mem_cons.mpr ⟨?_, ?_⟩
      · rintro k' hk'
        obtain rfl := Option.some.inj (hk.symm.trans hk')
        exact hkeeps.isRunning hk₁
      · rintro id' hid' k' hk'
        exact hdead id' hid' k' ((hkeeps₁.workerOf id').trans hk')

/-- Reader tasks fill the event channel with lines from stderr. -/
theorem shutdown_readStderr (config : PoolConfig) (order : List WorkerId) (phase : ShutdownPhase)
    {n : Nat} {w : World} (h : n ≤ eventCapacity - w.eventRx.length) :
    ∃ w', (shutdown config order).run ⟨w, phase⟩
        (List.replicate n (.outside (.readStderr 0 ""))) = some (⟨w', phase⟩, []) ∧
      w'.eventRx.length = w.eventRx.length + n ∧ Keeps w w' := by
  induction n generalizing w with
  | zero => exact ⟨w, rfl, rfl, Keeps.refl w⟩
  | succ n ih =>
      have hlt : w.eventRx.length < eventCapacity := by omega
      have hstep : (shutdown config order).step ⟨w, phase⟩ (.outside (.readStderr 0 "")) =
          some (⟨w.post ⟨0, .stderr ""⟩, phase⟩, []) := by
        simp [shutdown, Shutdown.step, Action.isOutside, World.step, hlt]
      have hlen := World.post_length (e := ⟨0, .stderr ""⟩) hlt
      obtain ⟨w', hrun, hq, hkeeps⟩ := ih (w := w.post ⟨0, .stderr ""⟩) (by omega)
      exact ⟨w', (shutdown config order).run_cons_iff.mpr ⟨_, [], [], hstep, hrun, rfl⟩,
        by omega, (Keeps.post w _).trans hkeeps⟩

/-- Reaping workers that have all exited gets blocked when the channel has no place for
every `Exited` event. -/
theorem shutdown_reap (config : PoolConfig) (order : List WorkerId) {left : List WorkerId}
    {w : World} (hne : left ≠ []) (hload : eventCapacity < w.eventRx.length + left.length)
    (hdead : ∀ id ∈ left, ∃ k, w.workerOf id = some k ∧ w.isRunning k.child = false) :
    ∃ as s out, (shutdown config order).run ⟨w, .reaping left⟩ as = some (s, out) ∧
      as.countP ShutdownAction.reads = 0 ∧ s.Blocked := by
  induction left generalizing w with
  | nil => exact absurd rfl hne
  | cons id left ih =>
      obtain ⟨⟨k, hk, hrun⟩, hdead⟩ := List.forall_mem_cons.mp hdead
      have hwait : (shutdown config order).step ⟨w, .reaping (id :: left)⟩ .waited =
          some (⟨w, .sending ⟨k.child, .exited k.workerId (w.exitCode k.child)⟩ left⟩, []) := by
        simp only [shutdown, Shutdown.step, hk, Option.bind_some]
        rw [if_neg (by simp [hrun])]
      by_cases hlt : w.eventRx.length < eventCapacity
      · generalize (⟨k.child, .exited k.workerId (w.exitCode k.child)⟩ : Posted) = e at hwait
        have hsend : (shutdown config order).step ⟨w, .sending e left⟩ .send =
            some (⟨w.post e, .reaping left⟩, []) := by
          simp only [shutdown, Shutdown.step, if_pos hlt]
        have hlen := World.post_length (e := e) hlt
        rw [List.length_cons] at hload
        have hnext : left ≠ [] := by
          rintro rfl
          rw [List.length_nil] at hload
          omega
        obtain ⟨as, s, out, hrun', hreads, hblocked⟩ :=
          ih (w := w.post e) hnext (by omega) fun id' hid' => by
            obtain ⟨k', hk', hrun'⟩ := hdead id' hid'
            exact ⟨k', ((Keeps.post w e).workerOf id').trans hk', World.isRunning_post.trans hrun'⟩
        refine ⟨.waited :: .send :: as, s, out, ?_, hreads, hblocked⟩
        exact (shutdown config order).run_cons_iff.mpr ⟨_, [], out, hwait,
          (shutdown config order).run_cons_iff.mpr ⟨_, [], out, hsend, hrun', rfl⟩, rfl⟩
      · exact ⟨[.waited], _, [], (shutdown config order).run_singleton_iff.mpr hwait, rfl,
          ⟨_, _, rfl⟩, not_lt.mp hlt⟩

/-- Past the deadline all workers are killed, then their last lines are read. -/
theorem shutdown_past_deadline (config : PoolConfig) {order : List WorkerId} {w : World}
    {lines : Nat} (hl : w.workers.Lists order)
    (hlines : lines ≤ eventCapacity - w.eventRx.length) :
    ∃ as w' out, (shutdown config order).run ⟨w, .announcing⟩ as =
        some (⟨w', .reaping order⟩, out) ∧
      as.countP ShutdownAction.reads = lines ∧
      w'.eventRx.length = w.eventRx.length + lines ∧
      ∀ id ∈ order, ∃ k, w'.workerOf id = some k ∧ w'.isRunning k.child = false := by
  have hmem : ∀ id ∈ order, id ∈ w.workers := fun id hid => hl.mem_iff.mp hid
  obtain ⟨w₁, hkill, hq₁, -, hkeeps₁, hdead⟩ := shutdown_kill config order hmem
  obtain ⟨w₂, hread, hq₂, hkeeps₂⟩ :=
    shutdown_readStderr config order (.reaping order) (w := w₁) (hq₁.symm ▸ hlines)
  have hannounce : (shutdown config order).step ⟨w, .announcing⟩ .announce =
      some (⟨w, .terminating order⟩, [.shuttingDown]) := rfl
  have hdeadline : (shutdown config order).step ⟨w, .waiting⟩ (.poll false) =
      some (⟨w, .killing order⟩, []) := rfl
  have hrun := (shutdown config order).run_cons_iff.mpr ⟨_, _, _, hannounce,
    (shutdown config order).run_append_iff.mpr ⟨_, _, _, shutdown_terminate config order order w,
      (shutdown config order).run_cons_iff.mpr ⟨_, _, _, hdeadline,
        (shutdown config order).run_append_iff.mpr ⟨_, _, _, hkill, hread, rfl⟩, rfl⟩, rfl⟩, rfl⟩
  refine ⟨_, w₂, _, hrun, ?_, by rw [hq₂, hq₁], ?_⟩
  · simp [List.countP_replicate, ShutdownAction.reads]
  · intro id hid
    obtain ⟨k, hk⟩ := World.mem_workers_iff.mp (hmem id hid)
    exact ⟨k, ((hkeeps₁.trans hkeeps₂).workerOf id).trans hk,
      hkeeps₂.isRunning (hdead id hid k hk)⟩

/-- Shutdown of a pool never gets blocked, with at most `lines` lines of output read
during it, exactly when there is no worker or the event channel has a place for what is
queued, for every line and for every worker. -/
theorem shutdown_never_blocked_iff {config : PoolConfig} {w : World} {order : List WorkerId}
    (lines : Nat) (hl : w.workers.Lists order) :
    (∀ as s out, (shutdown config order).run ⟨w, .announcing⟩ as = some (s, out) →
        as.countP ShutdownAction.reads ≤ lines → ¬ s.Blocked) ↔
      order = [] ∨ w.eventRx.length + lines + order.length ≤ eventCapacity := by
  constructor
  · intro h
    by_contra hcond
    obtain ⟨hne, hload⟩ := not_or.mp hcond
    -- as many lines as the channel still takes
    have hpos := List.length_pos_iff.mpr hne
    obtain ⟨as, w', out, hrun, hreads, hq', hdead⟩ :=
      shutdown_past_deadline config hl (min_le_right lines _)
    obtain ⟨bs, s, out', hrun', hreads', hblocked⟩ :=
      shutdown_reap config order hne (w := w') (by omega) hdead
    refine h (as ++ bs) s (out ++ out')
      ((shutdown config order).run_append_iff.mpr ⟨_, out, out', hrun, hrun', rfl⟩) ?_ hblocked
    rw [List.countP_append, hreads, hreads']
    omega
  · rintro hcond as s out hrun hlines ⟨⟨event, left, hs⟩, hfull⟩
    have hload := shutdown_load_le hrun
    simp only [Shutdown.load, hs, ShutdownPhase.toSend] at hload
    obtain rfl | hle := hcond
    · have hsend := shutdown_toSend_le hrun
      simp [hs, ShutdownPhase.toSend] at hsend
    · omega

theorem shutdown_never_blocked_iff_oneWorker :
    (∀ as s out,
        (shutdown oneWorker ["l0-1"]).run ⟨oneWorkerStarted, .announcing⟩ as = some (s, out) →
        as.countP ShutdownAction.reads ≤ 99 → ¬ s.Blocked) ↔
      ["l0-1"] = [] ∨ oneWorkerStarted.eventRx.length + 99 + ["l0-1"].length ≤ eventCapacity :=
  shutdown_never_blocked_iff 99 (by decide)

/-- The worker printed a hundred lines on stderr since the main loop last polled. -/
def hundredLines : Option (World × List PoolEvent) :=
  (system oneWorker).run oneWorkerStarted (List.replicate 100 (.readStderr 0 "retrying"))

set_option maxRecDepth 2000 in
/-- The worker exits when it is asked to, and shutdown waits for ever to say so. -/
theorem shutdown_gets_blocked :
    ¬ ∀ (w : World) (order : List WorkerId), Reachable oneWorker w → w.workers.Lists order →
        ∀ as s out, (shutdown oneWorker order).run ⟨w, .announcing⟩ as = some (s, out) →
          ¬ s.Blocked := by
  intro claim
  have htrace : (hundredLines.bind fun r =>
      ((shutdown oneWorker ["l0-1"]).run ⟨r.1, .announcing⟩
        [.announce, .terminate, .terminate, .outside (.exit 0 (some 0)), .poll true, .waited]).map
          fun q => (decide (r.1.workers.Lists ["l0-1"]), decide q.1.Blocked)) =
      some (true, true) := by decide
  obtain ⟨⟨w, o⟩, hw, htrace⟩ := Option.bind_eq_some_iff.mp htrace
  obtain ⟨⟨s, out⟩, hrun, htrace⟩ := Option.map_eq_some_iff.mp htrace
  obtain ⟨hl, hblocked⟩ := Prod.mk.inj htrace
  exact claim w _ ⟨_, _, o, oneWorker_started, hw⟩ (of_decide_eq_true hl) _ s out hrun
    (of_decide_eq_true hblocked)

end L0Worker.Supervisor
