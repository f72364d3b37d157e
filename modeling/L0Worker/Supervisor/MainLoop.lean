import L0Worker.Supervisor.CrashPaths
import L0Worker.Supervisor.Health

/-!
# The main loop

The main loop of the supervisor takes turns: the health ticker fires and one call of
`do_health_check` runs both sweeps under the write lock, or a worker event is polled.
Between its turns come calls of the API and whatever processes and reader tasks do.

The loop learns of the exit of a process from the health sweep alone, since an `Exited`
event is posted only by `Worker::wait`, which nobody calls for a worker that stays in the
pool.  The sweep looks at entries that are starting or healthy, so the exit of a draining
worker is never noticed (`exits_noticed_iff`).
-/

namespace L0Worker.Supervisor

/-! ## Turns -/

/-- A turn of the supervisor. -/
inductive Turn where
  /-- The health ticker fires. -/
  | healthTick (env : HealthEnv) (now : Instant) (order order' : List WorkerId)
      (spawned : WorkerId → Except String Unit)
  /-- A poll, a call of the API, or a step of a process or a reader task. -/
  | other (a : Action)

/-- The step is a sweep, which runs only as a part of a health check. -/
def Action.isSweep : Action → Bool
  | .checkAllHealth _ _ | .processRestarts _ _ _ => true
  | _ => false

/-- One turn. -/
def World.turn (config : PoolConfig) (w : World) : Turn → Option (World × List PoolEvent)
  | .healthTick env now order order' spawned =>
      if w.workers.Lists order ∧ w.workers.Lists order' then
        some (w.doHealthCheck config env now spawned order order')
      else none
  | .other a => if a.isSweep then none else (system config).step w a

/-- The main loop under a configuration. -/
def mainLoop (config : PoolConfig) : Machine World Turn PoolEvent :=
  ⟨World.turn config⟩

/-- The steps of the system in a turn. -/
def Turn.actions : Turn → List Action
  | .healthTick env now order order' spawned =>
      [.checkAllHealth env order, .processRestarts now order' spawned]
  | .other a => [a]

variable {config : PoolConfig} {w w' : World} {id : WorkerId} {m : ManagedWorker}

theorem Keeps.lists (h : Keeps w w') {order : List WorkerId} (hl : w.workers.Lists order) :
    w'.workers.Lists order := by
  refine ⟨hl.1, ?_⟩
  rw [hl.2]
  ext id
  rw [Finmap.mem_keys, Finmap.mem_keys, World.mem_workers_iff, World.mem_workers_iff,
    h.workerOf]

/-- The main loop runs the system. -/
theorem mainLoop_step {t : Turn} {out : List PoolEvent}
    (h : (mainLoop config).step w t = some (w', out)) :
    (system config).run w t.actions = some (w', out) := by
  cases t with
  | healthTick env now order order' spawned =>
      obtain ⟨⟨hl, hl'⟩, h⟩ := Option.ite_none_right_eq_some.mp h
      obtain ⟨rfl, rfl⟩ := Prod.ext_iff.mp (Option.some.inj h)
      have hcheck : (system config).step w (.checkAllHealth env order) =
          some (w.checkAllHealth config env order) := if_pos hl
      have hrestart : (system config).step (w.checkAllHealth config env order).1
          (.processRestarts now order' spawned) =
          some ((w.checkAllHealth config env order).1.processRestarts config now order' spawned) :=
        if_pos ((World.checkAllHealth_keeps config env order w).lists hl')
      exact (system config).run_cons_iff.mpr
        ⟨_, _, _, hcheck, (system config).run_singleton_iff.mpr hrestart, rfl⟩
  | other a =>
      obtain ⟨-, h⟩ := Option.ite_none_left_eq_some.mp h
      exact (system config).run_singleton_iff.mpr h

/-- What the main loop reaches, the system reaches. -/
theorem mainLoop_reachable {w₀ : World} (hstart : Started config w₀) {ts : List Turn}
    {out : List PoolEvent} (hrun : (mainLoop config).run w₀ ts = some (w, out)) :
    Reachable config w :=
  ⟨w₀, ts.flatMap Turn.actions, out, hstart, (system config).run_flatMap mainLoop_step hrun⟩

theorem Placed.turn {t : Turn} {out : List PoolEvent} (h : Placed w)
    (hturn : (mainLoop config).step w t = some (w', out)) : Placed w' :=
  (system config).run_invariant (fun _ _ _ _ hu hs => hu.step hs) h (mainLoop_step hturn)

/-! ## Exits -/

/-- No entry whose process had exited is still starting, healthy or draining. -/
def Noticed (w w' : World) : Prop :=
  ∀ id m m', w.workers.lookup id = some m → w.isRunning m.worker.child = false →
    w'.workers.lookup id = some m' → m'.worker = m.worker →
    ¬ (m'.state = .starting ∨ m'.state = .healthy ∨ m'.state = .draining)

/-- The exits are noticed if the turn is a health check. -/
def ExitsNoticed (w : World) (t : Turn) (w' : World) : Prop :=
  match t with
  | .healthTick _ _ _ _ _ => Noticed w w'
  | .other _ => True

/-- The port of an exited process does not answer the health check. -/
def NoAnswerAfterExit (w : World) : Turn → Prop
  | .healthTick env _ _ _ _ => ∀ id m, w.workers.lookup id = some m →
      w.isRunning m.worker.child = false → ∀ status, env.result id ≠ .healthy status
  | .other _ => True

/-- The processes of draining entries run when the health check begins. -/
def DrainingRuns (w : World) : Turn → Prop
  | .healthTick _ _ _ _ _ => ∀ id m, w.workers.lookup id = some m → m.state = .draining →
      w.isRunning m.worker.child = true
  | .other _ => True

theorem ManagedWorker.scheduleRestart_exitPending (config : PoolConfig) (now : Instant)
    (id : WorkerId) (reason : String) (m : ManagedWorker) :
    (m.scheduleRestart config now id reason).1.exitPending = false := by
  unfold ManagedWorker.scheduleRestart
  dsimp only
  split <;> rfl

theorem ManagedWorker.not_due_of_exitPending (h : m.exitPending = true) (now : Instant) :
    m.isDue config now = false := by
  unfold ManagedWorker.isDue
  obtain hs | hs | hs := ManagedWorker.exitPending_iff.mp h <;> rw [hs]

/-- A restart sweep keeps an entry as it is or takes its worker away. -/
theorem World.processRestarts_same (now : Instant) {order : List WorkerId}
    (spawned : WorkerId → Except String Unit) (hown : OwnChildren w)
    (hl : w.workers.Lists order) (hm : w.workers.lookup id = some m) {m' : ManagedWorker}
    (hm' : (w.processRestarts config now order spawned).1.workers.lookup id = some m')
    (hsame : m'.worker = m.worker) : m' = m := by
  by_cases hdue : m.isDue config now = true
  case neg =>
    have hnot : ¬ w.DueAt config now id := by
      rintro ⟨m₁, hm₁, hd₁⟩
      exact hdue (Option.some.inj (hm₁.symm.trans hm) ▸ hd₁)
    have hu : Untouched id w (w.processRestarts config now order spawned).1 _ :=
      World.processRestarts_untouched hnot
    exact Option.some.inj (hm'.symm.trans (hu.lookup.trans hm))
  have hworker := World.workerOf_of_lookup hm'
  have hrespawned := (World.processRestarts_spec config now spawned hl).2.1 id m hm hdue
  unfold Respawned at hrespawned
  split at hrespawned
  · cases hworker.symm.trans hrespawned
  · obtain ⟨pid, hpid, hnew⟩ := hrespawned
    have hchild := congrArg Worker.child (Option.some.inj (hworker.symm.trans hnew))
    rw [hsame] at hchild
    -- the new process is none of those before the sweep
    have hlt := hown.spawned (World.workerOf_of_lookup hm)
    exact absurd hchild (Nat.ne_of_lt (Nat.lt_of_lt_of_le hlt hpid))

/-- The sweep settles an entry whose process had exited, unless it is draining. -/
theorem World.checkAllHealth_settles {env : HealthEnv} {order : List WorkerId} (hp : Placed w)
    (hl : w.workers.Lists order) (hm : w.workers.lookup id = some m)
    (hexit : w.isRunning m.worker.child = false)
    (hquiet : ∀ status, env.result id ≠ .healthy status) (hdraining : m.state ≠ .draining) :
    ∃ m₁, (w.checkAllHealth config env order).1.workers.lookup id = some m₁ ∧
      m₁.worker = m.worker ∧ m₁.exitPending = false := by
  cases hpending : m.exitPending with
  | true =>
      have hactive := ManagedWorker.active_of_exitPending hpending hdraining
      refine ⟨_, (World.checkAllHealth_at config env hp hl hm hactive).1, ?_, ?_⟩
      · exact m.check_worker config _ _ _ _ _
      · rw [hexit, ManagedWorker.check_exited hpending config _ _ hquiet]
        exact m.scheduleRestart_exitPending config (env.now id) id "Process exited unexpectedly"
  | false =>
      have hu : Untouched id w (w.checkAllHealth config env order).1 _ :=
        World.checkAllHealth_untouched_of_inactive env order fun ⟨m₁, hm₁, hs⟩ => by
          obtain rfl := Option.some.inj (hm₁.symm.trans hm)
          rw [ManagedWorker.exitPending_of_active hs] at hpending
          cases hpending
      exact ⟨m, hu.lookup.trans hm, rfl, hpending⟩

/-- A health check notices the exits exactly when no draining worker has exited. -/
theorem World.doHealthCheck_noticed_iff {env : HealthEnv} (now : Instant)
    {order order' : List WorkerId} (spawned : WorkerId → Except String Unit) (hp : Placed w)
    (hl : w.workers.Lists order) (hl' : w.workers.Lists order')
    (hquiet : ∀ id m, w.workers.lookup id = some m → w.isRunning m.worker.child = false →
      ∀ status, env.result id ≠ .healthy status) :
    Noticed w (w.doHealthCheck config env now spawned order order').1 ↔
      ∀ id m, w.workers.lookup id = some m → m.state = .draining →
        w.isRunning m.worker.child = true := by
  have hkeeps := World.checkAllHealth_keeps config env order w
  constructor
  · intro h id m hm hs
    by_contra hrun
    have hpending : m.exitPending = true := ManagedWorker.exitPending_iff.mpr (.inr (.inr hs))
    have hu : Untouched id w (w.checkAllHealth config env order).1 _ :=
      World.checkAllHealth_untouched_of_inactive env order (by simp [hm, hs])
    have hchecked := hu.lookup.trans hm
    have hnot : ¬ (w.checkAllHealth config env order).1.DueAt config now id := by
      rintro ⟨m₁, hm₁, hd₁⟩
      obtain rfl := Option.some.inj (hm₁.symm.trans hchecked)
      rw [ManagedWorker.not_due_of_exitPending hpending] at hd₁
      cases hd₁
    have hu' : Untouched id (w.checkAllHealth config env order).1
        (w.doHealthCheck config env now spawned order order').1 _ :=
      World.processRestarts_untouched hnot
    exact h id m m hm (Bool.not_eq_true _ ▸ hrun) (hu'.lookup.trans hchecked) rfl (.inr (.inr hs))
  · intro h id m m' hm hexit hm' hsame
    have hdraining : m.state ≠ .draining := by
      intro hs
      rw [h id m hm hs] at hexit
      cases hexit
    obtain ⟨m₁, hm₁, hworker, hsettled⟩ :=
      World.checkAllHealth_settles hp hl hm hexit (hquiet id m hm hexit) hdraining
    obtain rfl := World.processRestarts_same now spawned (hp.keeps hkeeps).ownChildren
      (hkeeps.lists hl') hm₁ hm' (hsame.trans hworker.symm)
    rwa [← ManagedWorker.exitPending_iff, Bool.not_eq_true]

/-- The health checks of a run of the main loop notice all exits exactly when none of them
begins with a draining entry whose process has exited. -/
theorem exits_noticed_iff {w₀ : World} (hstart : Started config w₀) {ts : List Turn}
    (hquiet : (mainLoop config).Along (fun w t _ _ => NoAnswerAfterExit w t) w₀ ts) :
    (mainLoop config).Along (fun w t w' _ => ExitsNoticed w t w') w₀ ts ↔
      (mainLoop config).Along (fun w t _ _ => DrainingRuns w t) w₀ ts := by
  have hstep : ∀ w t w' out, Placed w → (mainLoop config).step w t = some (w', out) →
      (NoAnswerAfterExit w t ∧ ExitsNoticed w t w' ↔ NoAnswerAfterExit w t ∧ DrainingRuns w t) := by
    intro w t w' out hp hturn
    refine and_congr_right fun hq => ?_
    cases t with
    | healthTick env now order order' spawned =>
        obtain ⟨⟨hl, hl'⟩, h⟩ := Option.ite_none_right_eq_some.mp hturn
        obtain ⟨rfl, -⟩ := Prod.ext_iff.mp (Option.some.inj h)
        exact World.doHealthCheck_noticed_iff now spawned hp hl hl' hq
    | other a => exact Iff.rfl
  have hplaced : Placed w₀ := Reachable.placed ⟨w₀, [], [], hstart, rfl⟩
  have hboth :
      (mainLoop config).Along (fun w t w' _ => NoAnswerAfterExit w t ∧ ExitsNoticed w t w') w₀ ts ↔
        (mainLoop config).Along (fun w t _ _ => NoAnswerAfterExit w t ∧ DrainingRuns w t) w₀ ts :=
    Machine.Along.congr hstep (fun _ _ _ _ hp hturn _ => hp.turn hturn) hplaced
  rw [Machine.Along.and_iff, Machine.Along.and_iff] at hboth
  constructor
  · intro h
    exact (hboth.mp ⟨hquiet, h⟩).2
  · intro h
    exact (hboth.mpr ⟨hquiet, h⟩).2

/-! ## A draining worker -/

/-- A health check of the one worker that reaches it no more. -/
def tickUnreachable : Turn :=
  .healthTick (unreachableAt 1000) 1000 ["l0-1"] ["l0-1"] fun _ => .ok ()

theorem noAnswerAfterExit_tickUnreachable (w : World) : NoAnswerAfterExit w tickUnreachable :=
  fun _ _ _ _ _ h => nomatch h

theorem noAnswerAfterExit_before_tick {w₀ w : World} {out : List PoolEvent}
    {as : List Action}
    (hrun : (mainLoop config).run w₀ (as.map .other ++ [tickUnreachable]) = some (w, out)) :
    (mainLoop config).Along (fun w t _ _ => NoAnswerAfterExit w t) w₀
      (as.map .other ++ [tickUnreachable]) := by
  refine Machine.along_of_actions ?_ hrun
  intro t ht w _ _
  obtain hother | htick := List.mem_append.mp ht
  · obtain ⟨a, -, rfl⟩ := List.mem_map.mp hother
    trivial
  · rw [List.mem_singleton.mp htick]
    exact noAnswerAfterExit_tickUnreachable w

/-- The worker crashes before the check. -/
theorem exits_noticed_iff_crash :
    (mainLoop oneWorker).Along (fun w t w' _ => ExitsNoticed w t w') oneWorkerStarted
        [.other (.exit 0 (some 1)), tickUnreachable] ↔
      (mainLoop oneWorker).Along (fun w t _ _ => DrainingRuns w t) oneWorkerStarted
        [.other (.exit 0 (some 1)), tickUnreachable] := by
  obtain ⟨⟨w, out⟩, hrun⟩ : ∃ r, (mainLoop oneWorker).run oneWorkerStarted
      ([Action.exit 0 (some 1)].map .other ++ [tickUnreachable]) = some r :=
    Option.isSome_iff_exists.mp (by decide)
  exact exits_noticed_iff oneWorker_started (noAnswerAfterExit_before_tick hrun)

/-- The worker is drained and exits before the check, and stays draining. -/
theorem drained_exit_unnoticed :
    ¬ ∀ (config : PoolConfig) (w₀ : World) (ts : List Turn), Started config w₀ →
        ((mainLoop config).run w₀ ts).isSome →
        (mainLoop config).Along (fun w t _ _ => NoAnswerAfterExit w t) w₀ ts →
        (mainLoop config).Along (fun w t w' _ => ExitsNoticed w t w') w₀ ts := by
  intro claim
  let before : List Action := [.drainWorker "l0-1", .exit 0 (some 0)]
  obtain ⟨⟨w, out⟩, hrun⟩ : ∃ r, (mainLoop oneWorker).run oneWorkerStarted
      (before.map .other ++ [tickUnreachable]) = some r :=
    Option.isSome_iff_exists.mp (by decide)
  have halong := claim oneWorker oneWorkerStarted _ oneWorker_started
    (Option.isSome_iff_exists.mpr ⟨_, hrun⟩) (noAnswerAfterExit_before_tick hrun)
  obtain ⟨u, o, v, o', hu, hv, huv, hnoticed⟩ := halong.last
  have hentry : ((mainLoop oneWorker).run oneWorkerStarted (before.map .other)).map
      (fun r => (r.1.workers.lookup "l0-1", r.1.isRunning 0)) =
      some (some ⟨⟨"l0-1", 3001, 0⟩, .draining, 0, 0, none⟩, false) := by decide
  have hafter : ((mainLoop oneWorker).run oneWorkerStarted
      (before.map .other ++ [tickUnreachable])).map (fun r => r.1.workers.lookup "l0-1") =
      some (some ⟨⟨"l0-1", 3001, 0⟩, .draining, 0, 0, none⟩) := by decide
  rw [hu, Option.map_some, Option.some.injEq, Prod.mk.injEq] at hentry
  rw [huv, Option.map_some, Option.some.injEq] at hafter
  exact hnoticed "l0-1" _ _ hentry.1 hentry.2 hafter rfl (.inr (.inr rfl))

end L0Worker.Supervisor
