import L0Worker.Lib.Channel
import L0Worker.Supervisor.System
import Mathlib.Data.Fintype.EquivFin

/-!
# Startup

What `main` does up to the point where pool events are received.  `main` makes
the channel for pool events, runs `WorkerPool::start` to its end and only then
spawns the task that receives from the channel.  `spawn_worker` awaits the
`send` of a `WorkerSpawned` event, so the loop of `start` waits when the
channel is full.

A step is a piece of a task between two points where it may wait.  In between
the processes already spawned and their reader tasks run.

`Stuck` is the state in which `start` waits for a place that no one will free.
`startup_never_stuck_iff` says for which configurations it is reachable, and
`startup_started` that the loop with its waits does what `World.start` says.
-/

namespace L0Worker.Supervisor

/-- The capacity of the channel `main` makes for pool events. -/
def poolEventCapacity : Nat := 32

/-- The state of `main` during startup. -/
structure Startup where
  world : World
  /-- The index `i` of the loop of `start`. -/
  next : Nat
  /-- The event `spawn_worker` is sending. -/
  sending : Option PoolEvent
  /-- The channel for pool events. -/
  poolEvents : Channel PoolEvent poolEventCapacity
  /-- The task that receives pool events has been spawned. -/
  handlerStarted : Bool
deriving DecidableEq

/-- A step during startup. -/
inductive StartupAction where
  /-- The loop of `start` spawns the next worker and begins to send its event. -/
  | spawn (workerId : WorkerId)
  /-- The `send` in `spawn_worker` returns. -/
  | send
  /-- `start` has returned, and `main` spawns the event handler. -/
  | spawnHandler
  /-- The event handler receives an event and broadcasts it. -/
  | recv
  /-- A process or a reader task moves. -/
  | outside (a : Action)

/-- The step belongs to `main`. -/
def StartupAction.isMain : StartupAction → Bool
  | .spawn _ | .send | .spawnHandler => true
  | .recv | .outside _ => false

/-- One step.  The outputs are the events broadcast. -/
def Startup.step (config : PoolConfig) (s : Startup) :
    StartupAction → Option (Startup × List PoolEvent)
  | .spawn workerId =>
      if s.sending = none ∧ s.next < config.workerCount ∧ s.world.Fresh workerId then
        let r := s.world.startOne config (workerId, s.next)
        some ({ s with world := r.1, sending := r.2.head? }, [])
      else none
  | .send =>
      match s.sending with
      | none => none
      | some e =>
          (s.poolEvents.send e).map fun c =>
            ({ s with next := s.next + 1, sending := none, poolEvents := c }, [])
  | .spawnHandler =>
      if s.sending = none ∧ s.next = config.workerCount ∧ s.handlerStarted = false then
        some ({ s with handlerStarted := true }, [])
      else none
  | .recv =>
      if s.handlerStarted then
        s.poolEvents.recv.map fun r => ({ s with poolEvents := r.2 }, [r.1])
      else none
  | .outside a =>
      if a.isOutside then (s.world.step config a).map fun r => ({ s with world := r.1 }, [])
      else none

/-- Startup under a configuration. -/
def startup (config : PoolConfig) : Machine Startup StartupAction PoolEvent :=
  ⟨Startup.step config⟩

/-- Startup begins with the new pool and an empty channel. -/
def Startup.init (w₀ : World) : Startup where
  world := w₀
  next := 0
  sending := none
  poolEvents := .empty
  handlerStarted := false

/-- `start` waits to send, the channel is full, and no task that receives from it
has been spawned. -/
def Startup.Stuck (s : Startup) : Prop :=
  s.sending ≠ none ∧ s.poolEvents.Full ∧ s.handlerStarted = false

instance (s : Startup) : Decidable s.Stuck := inferInstanceAs (Decidable (_ ∧ _ ∧ _))

/-- A state startup reaches from the pool `WorkerPool::new` makes. -/
def StartupReachable (config : PoolConfig) (s : Startup) : Prop :=
  ∃ w₀ as out, World.new config = some w₀ ∧ (startup config).run (.init w₀) as = some (s, out)

/-! ## One worker after the other -/

theorem World.startOne_eq (config : PoolConfig) (w : World) (id : WorkerId) (i : Nat) :
    w.startOne config (id, i) =
      ({ w with
          procs := w.procs ++ [⟨id, config.basePort + UInt16.ofNat i, .running, []⟩]
          workers := w.workers.insert id
            { worker := ⟨id, config.basePort + UInt16.ofNat i, w.procs.length⟩
              state := .starting
              consecutiveFailures := 0
              consecutiveUnhealthy := 0
              lastHealthy := none } },
        [.workerSpawned id (config.basePort + UInt16.ofNat i)]) := rfl

theorem Startup.step_spawn (config : PoolConfig) {s : Startup} {id : WorkerId}
    (hs : s.sending = none) (hi : s.next < config.workerCount) (hf : s.world.Fresh id) :
    (startup config).step s (.spawn id) =
      some ({ s with
        world := (s.world.startOne config (id, s.next)).1
        sending := some (.workerSpawned id (config.basePort + UInt16.ofNat s.next)) }, []) :=
  if_pos ⟨hs, hi, hf⟩

/-- The steps of startup, with what each has found and what it leaves. -/
inductive Startup.Stepped (config : PoolConfig) (s : Startup) :
    StartupAction → Startup → Prop where
  | spawn (id : WorkerId) (hs : s.sending = none) (hi : s.next < config.workerCount)
      (hf : s.world.Fresh id) :
      Stepped config s (.spawn id)
        { s with
          world := (s.world.startOne config (id, s.next)).1
          sending := some (.workerSpawned id (config.basePort + UInt16.ofNat s.next)) }
  | send {e : PoolEvent} {c : Channel PoolEvent poolEventCapacity} (hs : s.sending = some e)
      (hc : s.poolEvents.send e = some c) :
      Stepped config s .send { s with next := s.next + 1, sending := none, poolEvents := c }
  | spawnHandler (hs : s.sending = none) (hi : s.next = config.workerCount) :
      Stepped config s .spawnHandler { s with handlerStarted := true }
  | recv (c : Channel PoolEvent poolEventCapacity) (hh : s.handlerStarted = true) :
      Stepped config s .recv { s with poolEvents := c }
  | outside (a : Action) (world : World) : Stepped config s (.outside a) { s with world := world }

/-- Every step of startup is one of these. -/
theorem startup_step_cases {config : PoolConfig} {s s' : Startup} {a : StartupAction}
    {out : List PoolEvent} (hstep : (startup config).step s a = some (s', out)) :
    s.Stepped config a s' := by
  cases a with
  | spawn id =>
      obtain ⟨⟨hs, hi, hf⟩, hstep⟩ := Option.ite_none_right_eq_some.mp hstep
      obtain ⟨rfl, -⟩ := Prod.mk.inj (Option.some.inj hstep)
      exact .spawn id hs hi hf
  | send =>
      simp only [startup, Startup.step] at hstep
      cases hs : s.sending with
      | none => simp [hs] at hstep
      | some e =>
          rw [hs] at hstep
          obtain ⟨c, hc, hstep⟩ := Option.map_eq_some_iff.mp hstep
          obtain ⟨rfl, -⟩ := Prod.mk.inj hstep
          exact .send hs hc
  | spawnHandler =>
      obtain ⟨⟨hs, hi, -⟩, hstep⟩ := Option.ite_none_right_eq_some.mp hstep
      obtain ⟨rfl, -⟩ := Prod.mk.inj (Option.some.inj hstep)
      exact .spawnHandler hs hi
  | recv =>
      obtain ⟨hh, hstep⟩ := Option.ite_none_right_eq_some.mp hstep
      obtain ⟨r, -, hstep⟩ := Option.map_eq_some_iff.mp hstep
      obtain ⟨rfl, -⟩ := Prod.mk.inj hstep
      exact .recv r.2 hh
  | outside a =>
      obtain ⟨-, hstep⟩ := Option.ite_none_right_eq_some.mp hstep
      obtain ⟨r, -, hstep⟩ := Option.map_eq_some_iff.mp hstep
      obtain ⟨rfl, -⟩ := Prod.mk.inj hstep
      exact .outside a r.1

/-- The id generator never runs out of ids. -/
theorem World.exists_fresh (w : World) : ∃ id, w.Fresh id := by
  obtain ⟨id, hid⟩ := Infinite.exists_notMem_finset
    (w.workers.keys ∪ (w.procs.map Process.workerId).toFinset)
  rw [Finset.mem_union, not_or, Finmap.mem_keys, List.mem_toFinset] at hid
  exact ⟨id, hid.1, fun p hp h => hid.2 (List.mem_map.mpr ⟨p, hp, h⟩)⟩

/-- What holds throughout startup.  Until there is a receiver, the channel holds
one event for each worker started. -/
structure Startup.Inv (config : PoolConfig) (s : Startup) : Prop where
  next_le : s.next ≤ config.workerCount
  /-- An event is sent inside the loop. -/
  sending : s.sending ≠ none → s.next < config.workerCount
  /-- Nothing is received before the receiver is there. -/
  unread : s.handlerStarted = false → s.poolEvents.queue.length = s.next

theorem Startup.inv_init (config : PoolConfig) (w₀ : World) : (Startup.init w₀).Inv config :=
  ⟨Nat.zero_le _, fun h => absurd rfl h, fun _ => rfl⟩

theorem Startup.Inv.step {config : PoolConfig} {s s' : Startup} {a : StartupAction}
    {out : List PoolEvent} (h : s.Inv config) (hstep : (startup config).step s a = some (s', out)) :
    s'.Inv config := by
  cases startup_step_cases hstep with
  | spawn id hs hi hf => exact ⟨h.next_le, fun _ => hi, h.unread⟩
  | send hs hc =>
      refine ⟨h.sending (by simp [hs]), fun hne => absurd rfl hne, ?_⟩
      intro hh
      rw [Channel.length_of_send hc, h.unread hh]
  | spawnHandler hs hi => exact ⟨h.next_le, h.sending, fun hh => absurd hh (by simp)⟩
  | recv c hh => exact ⟨h.next_le, h.sending, fun hf => absurd (hf.symm.trans hh) (by simp)⟩
  | outside a world => exact ⟨h.next_le, h.sending, h.unread⟩

theorem StartupReachable.inv {config : PoolConfig} {s : Startup}
    (h : StartupReachable config s) : s.Inv config := by
  obtain ⟨w₀, as, out, -, hrun⟩ := h
  exact (startup config).run_invariant (fun _ _ _ _ hi hu => hi.step hu)
    (Startup.inv_init config w₀) hrun

/-! ## The loop and its waits -/

theorem World.start_concat (config : PoolConfig) (w : World) (ids : List WorkerId)
    (id : WorkerId) :
    (w.start config (ids ++ [id])).1 =
      ((w.start config ids).1.startOne config (id, ids.length)).1 := by
  unfold World.start
  rw [List.zipIdx_append, Nat.zero_add, List.zipIdx_singleton, forEach_concat_fst]

/-- The workers the loop has started so far, where no process has moved yet. -/
structure Startup.Spawned (config : PoolConfig) (w₀ : World) (ids : List WorkerId)
    (s : Startup) : Prop where
  nodup : ids.Nodup
  mem : ∀ id ∈ ids, id ∈ s.world.workers
  /-- The worker whose event is being sent counts already. -/
  length : ids.length = if s.sending = none then s.next else s.next + 1
  /-- The world is the one `World.start` makes. -/
  world : s.world = (w₀.start config ids).1

theorem Startup.Spawned.step {config : PoolConfig} {w₀ : World} {ids : List WorkerId}
    {s s' : Startup} {a : StartupAction} {out : List PoolEvent}
    (h : s.Spawned config w₀ ids) (hmain : ∀ b, a ≠ .outside b)
    (hstep : (startup config).step s a = some (s', out)) :
    ∃ ids', s'.Spawned config w₀ ids' := by
  cases startup_step_cases hstep with
  | spawn id hs hi hf =>
      have hlen : ids.length = s.next := by rw [h.length, if_pos hs]
      refine ⟨ids ++ [id], ?_, ?_, ?_, ?_⟩
      · refine List.nodup_append.mpr ⟨h.nodup, List.nodup_singleton id, ?_⟩
        intro id' hid' id'' hid'' heq
        rw [heq, List.mem_singleton.mp hid''] at hid'
        exact hf.1 (h.mem id hid')
      · intro id' hid'
        rw [World.startOne_eq]
        rcases List.mem_append.mp hid' with hmem | hmem
        · exact Finmap.mem_insert.mpr (.inr (h.mem id' hmem))
        · exact Finmap.mem_insert.mpr (.inl (List.mem_singleton.mp hmem))
      · rw [List.length_append, hlen]
        rfl
      · rw [World.start_concat, ← h.world, hlen]
  | send hs hc =>
      refine ⟨ids, h.nodup, h.mem, ?_, h.world⟩
      rw [h.length, if_neg (by simp [hs]), if_pos rfl]
  | spawnHandler hs hi => exact ⟨ids, h.nodup, h.mem, h.length, h.world⟩
  | recv c hh => exact ⟨ids, h.nodup, h.mem, h.length, h.world⟩
  | outside b world => exact absurd rfl (hmain b)

/-- The event handler is spawned only after the loop. -/
def Startup.LoopDone (config : PoolConfig) (s : Startup) : Prop :=
  s.handlerStarted = true → s.sending = none ∧ s.next = config.workerCount

theorem Startup.LoopDone.step {config : PoolConfig} {s s' : Startup} {a : StartupAction}
    {out : List PoolEvent} (h : s.LoopDone config)
    (hstep : (startup config).step s a = some (s', out)) : s'.LoopDone config := by
  cases startup_step_cases hstep with
  | spawn id hs hi hf => exact fun hh => absurd (h hh).2 (Nat.ne_of_lt hi)
  | send hs hc =>
      intro hh
      rw [(h hh).1] at hs
      cases hs
  | spawnHandler hs hi => exact fun _ => ⟨hs, hi⟩
  | recv c hh => exact h
  | outside b world => exact h

/-- When startup reaches the event handler before any process moved, the world is
one in which `World.start` leaves the supervisor. -/
theorem startup_started {config : PoolConfig} {w₀ : World} {s : Startup}
    {as : List StartupAction} {out : List PoolEvent} (hnew : World.new config = some w₀)
    (hrun : (startup config).run (.init w₀) as = some (s, out))
    (hmain : ∀ a ∈ as, ∀ b, a ≠ .outside b) (hh : s.handlerStarted = true) :
    Started config s.world := by
  have hinit : (Startup.init w₀).Spawned config w₀ [] :=
    ⟨List.nodup_nil, List.forall_mem_nil _, rfl, rfl⟩
  have hinv := Machine.Along.invariant (M := startup config)
    (I := fun u => (∃ ids, u.Spawned config w₀ ids) ∧ u.LoopDone config)
    (P := fun _ a _ _ => ∀ b, a ≠ StartupAction.outside b) ?_
    ⟨⟨[], hinit⟩, fun h => absurd h Bool.false_ne_true⟩
    (Machine.along_of_forall_mem hmain hrun) hrun
  · obtain ⟨⟨ids, hsp⟩, hdone⟩ := hinv
    obtain ⟨hs, hn⟩ := hdone hh
    exact ⟨w₀, ids, hnew, hsp.nodup, by rw [hsp.length, if_pos hs, hn], hsp.world⟩
  · rintro u a u' o ⟨⟨ids, hsp⟩, hdone⟩ hu ha
    exact ⟨hsp.step ha hu, hdone.step hu⟩

/-! ## Stuck states -/

/-- A stuck state stays stuck whatever the other tasks do. -/
theorem Startup.Stuck.step {config : PoolConfig} {s s' : Startup} {a : StartupAction}
    {out : List PoolEvent} (h : s.Stuck) (hstep : (startup config).step s a = some (s', out)) :
    s'.Stuck := by
  obtain ⟨hs, hfull, hh⟩ := h
  cases startup_step_cases hstep with
  | spawn id hn hi hf => exact absurd hn hs
  | @send e c he hc =>
      rw [Channel.send_eq_none_iff.mpr hfull] at hc
      cases hc
  | spawnHandler hn hi => exact absurd hn hs
  | recv c hr => exact absurd (hh.symm.trans hr) (by simp)
  | outside a world => exact ⟨hs, hfull, hh⟩

theorem Startup.step_send {config : PoolConfig} {s : Startup} {e : PoolEvent}
    {c : Channel PoolEvent poolEventCapacity} (hs : s.sending = some e)
    (hc : s.poolEvents.send e = some c) :
    (startup config).step s .send =
      some ({ s with next := s.next + 1, sending := none, poolEvents := c }, []) := by
  simp only [startup, Startup.step, hs, hc, Option.map_some]

theorem Startup.Stuck.run {config : PoolConfig} {s s' : Startup} {as : List StartupAction}
    {out : List PoolEvent} (h : s.Stuck) (hrun : (startup config).run s as = some (s', out)) :
    s'.Stuck :=
  (startup config).run_invariant (fun _ _ _ _ hs hu => hs.step hu) h hrun

/-- Before the event handler is spawned, `main` can take a step unless it is stuck. -/
theorem Startup.exists_main_step {config : PoolConfig} {s : Startup} (hinv : s.Inv config)
    (hh : s.handlerStarted = false) (h : ¬ s.Stuck) :
    ∃ a r, a.isMain = true ∧ (startup config).step s a = some r := by
  cases hs : s.sending with
  | some e =>
      have hfull : ¬ s.poolEvents.Full := fun hf => h ⟨by simp [hs], hf, hh⟩
      obtain ⟨c, hc⟩ :=
        Option.ne_none_iff_exists'.mp (mt (Channel.send_eq_none_iff (a := e)).mp hfull)
      exact ⟨.send, _, rfl, Startup.step_send hs hc⟩
  | none =>
      rcases Nat.lt_or_eq_of_le hinv.next_le with hlt | heq
      · obtain ⟨id, hf⟩ := s.world.exists_fresh
        exact ⟨.spawn id, _, rfl, Startup.step_spawn config hs hlt hf⟩
      · exact ⟨.spawnHandler, _, rfl, if_pos ⟨hs, heq, hh⟩⟩

/-- The loop reaches every index up to the capacity. -/
theorem exists_reachable_next {config : PoolConfig} {w₀ : World}
    (hnew : World.new config = some w₀) :
    ∀ n ≤ poolEventCapacity, n ≤ config.workerCount → ∃ s, StartupReachable config s ∧
      s.next = n ∧ s.sending = none ∧ s.handlerStarted = false
  | 0, _, _ => ⟨.init w₀, ⟨w₀, [], [], hnew, rfl⟩, rfl, rfl, rfl⟩
  | n + 1, hcap, hcount => by
      obtain ⟨s, hreach, hn, hs, hh⟩ :=
        exists_reachable_next hnew n (Nat.le_of_succ_le hcap) (Nat.le_of_succ_le hcount)
      obtain ⟨id, hf⟩ := s.world.exists_fresh
      have hlen : s.poolEvents.queue.length < poolEventCapacity := by
        rw [hreach.inv.unread hh, hn]
        exact hcap
      obtain ⟨c, hc⟩ :=
        Channel.exists_send hlen (.workerSpawned id (config.basePort + UInt16.ofNat s.next))
      have hspawn := Startup.step_spawn config hs (hn ▸ hcount) hf
      obtain ⟨w₁, as, out, hw₁, hrun⟩ := hreach
      refine ⟨{
          world := (s.world.startOne config (id, s.next)).1
          next := s.next + 1
          sending := none
          poolEvents := c
          handlerStarted := s.handlerStarted },
        ⟨w₁, as ++ [.spawn id] ++ [.send], out ++ [] ++ [], hw₁, ?_⟩,
        congrArg (· + 1) hn, rfl, hh⟩
      exact (startup config).run_concat_iff.mpr ⟨_, _, [],
        (startup config).run_concat_iff.mpr ⟨s, out, [], hrun, hspawn, rfl⟩,
        Startup.step_send rfl hc, rfl⟩

/-- Startup never gets stuck exactly when the channel has a place for every worker. -/
theorem startup_never_stuck_iff {config : PoolConfig} {w₀ : World}
    (hnew : World.new config = some w₀) :
    (∀ s, StartupReachable config s → ¬ s.Stuck) ↔ config.workerCount ≤ poolEventCapacity := by
  constructor
  · intro h
    by_contra hgt
    have hlt := Nat.lt_of_not_le hgt
    obtain ⟨s, hreach, hn, hs, hh⟩ :=
      exists_reachable_next hnew poolEventCapacity (Nat.le_refl _) (Nat.le_of_lt hlt)
    obtain ⟨id, hf⟩ := s.world.exists_fresh
    have hfull : s.poolEvents.Full := (hreach.inv.unread hh).trans hn
    have hspawn := Startup.step_spawn config hs (hn ▸ hlt) hf
    obtain ⟨w₁, as, out, hw₁, hrun⟩ := hreach
    refine h _ ⟨w₁, as ++ [.spawn id], out ++ [], hw₁,
      (startup config).run_concat_iff.mpr ⟨s, out, [], hrun, hspawn, rfl⟩⟩ ?_
    exact ⟨by simp, hfull, hh⟩
  · rintro hle s hreach ⟨hs, hfull, hh⟩
    have hlt := hreach.inv.sending hs
    rw [← hreach.inv.unread hh, hfull] at hlt
    exact absurd hle (Nat.not_le_of_lt hlt)

theorem startup_never_stuck_iff_oneWorker :
    (∀ s, StartupReachable oneWorker s → ¬ s.Stuck) ↔
      oneWorker.workerCount ≤ poolEventCapacity :=
  startup_never_stuck_iff rfl

/-- Thirty-three workers on the ports from 3001 on. -/
def thirtyThreeWorkers : PoolConfig := { oneWorker with workerCount := 33 }

/-- The loop of `start` run by itself, with the given ids. -/
def spawnAll (workerIds : List WorkerId) : List StartupAction :=
  workerIds.flatMap fun id => [.spawn id, .send]

/-- Thirty-two workers are started and announced.  The thirty-third is started, and
`start` waits for ever. -/
theorem thirtyThree_workers_get_stuck :
    ¬ ∀ (config : PoolConfig) (w₀ : World), World.new config = some w₀ →
        ∀ s, StartupReachable config s → ¬ s.Stuck := by
  intro claim
  have hrun : ((startup thirtyThreeWorkers).run
      (.init { workers := ∅, eventRx := [], procs := [] })
      (spawnAll ((List.range 32).map fun i => String.ofList (List.replicate i 'a')) ++
        [.spawn "l0-33"])).map (fun r => decide r.1.Stuck) = some true := by
    decide
  obtain ⟨⟨s, out⟩, hrun, hstuck⟩ := Option.map_eq_some_iff.mp hrun
  exact claim thirtyThreeWorkers _ rfl s ⟨_, _, out, rfl, hrun⟩ (of_decide_eq_true hstuck)

end L0Worker.Supervisor
