import L0Worker.Supervisor.Events
import L0Worker.Supervisor.Stop

/-!
# What health events report

`WorkerHealthy` is meant to report that an entry turned healthy, and `AllWorkersHealthy`
that the last one did.  Two paths turn an entry healthy, the `Ready` event and a
successful check, and they differ: a check announces only an entry that was starting,
but never that all are healthy, while the `Ready` event announces whatever it meets.

`health_events_real_iff` gives the exact condition, step by step.
-/

namespace L0Worker.Supervisor

/-! ## All workers healthy -/

theorem World.allWorkersHealthy_iff {w : World} :
    w.allWorkersHealthy = true ↔ ∀ id m, w.workers.lookup id = some m → m.state = .healthy := by
  rw [World.allWorkersHealthy, decide_eq_true_eq]
  constructor
  · intro h id m hm
    exact h id (Finmap.mem_keys.mpr (Finmap.mem_of_lookup_eq_some hm)) m hm
  · intro h id _ m hm
    exact h id m hm

/-- The pool has a worker. -/
def World.Nonempty (w : World) : Prop := ∃ id, id ∈ w.workers

/-- The pool turns from not all healthy to all healthy. -/
def TurnsAllHealthy (w w' : World) : Prop :=
  w.allWorkersHealthy = false ∧ w'.Nonempty ∧ w'.allWorkersHealthy = true

/-- The entry of an id turns healthy. -/
def TurnsHealthy (id : WorkerId) (w : World) (entry : Option ManagedWorker) : Prop :=
  ∃ m m', w.workers.lookup id = some m ∧ m.state ≠ .healthy ∧ entry = some m' ∧
    m'.state = .healthy

/-- The health events of a step report what happened in it. -/
structure HealthEventsReal (w : World) (_a : Action) (w' : World) (out : List PoolEvent) :
    Prop where
  worker : ∀ id, (∃ port, .workerHealthy id port ∈ out) ↔
    TurnsHealthy id w (w'.workers.lookup id)
  all : .allWorkersHealthy ∈ out ↔ TurnsAllHealthy w w'

/-- A check leaves the entry healthy. -/
def ManagedWorker.EndsHealthy (config : PoolConfig) (result : HealthCheckResult)
    (running : Bool) (m : ManagedWorker) : Prop :=
  match result with
  | .healthy _ => m.state = .healthy ∨ m.state = .starting
  | .unhealthy _ | .unreachable _ =>
      m.state = .healthy ∧ running = true ∧ m.consecutiveUnhealthy + 1 < config.maxUnhealthyChecks

/-- The step meets none of the cases in which the health events are wrong: a `Ready`
event for an id that is unknown or healthy already, a health sweep after which all
workers are healthy, a restart sweep that loses all workers but healthy ones. -/
def MeetsRealHealth (config : PoolConfig) (w : World) : Action → Prop
  | .tryRecvEvent _ => ∀ source port id rest, w.eventRx = ⟨source, .ready port id⟩ :: rest →
      ∃ m, w.workers.lookup id = some m ∧ m.state ≠ .healthy
  | .checkAllHealth env _ => w.allWorkersHealthy = true ∨ ∃ id m, w.workers.lookup id = some m ∧
      ¬ m.EndsHealthy config (env.result id) (w.isRunning m.worker.child)
  | .processRestarts now _ spawned => w.allWorkersHealthy = true ∨
      (∀ id m, w.workers.lookup id = some m → m.state ≠ .healthy) ∨
      ∃ id m, w.workers.lookup id = some m ∧ m.state ≠ .healthy ∧
        ¬ (m.isDue config now = true ∧ ∃ e, spawned id = .error e)
  | _ => True

/-! ## One entry -/

theorem not_turnsHealthy_self (id : WorkerId) (w : World) :
    ¬ TurnsHealthy id w (w.workers.lookup id) := by
  rintro ⟨m, m', hm, hs, hm', hs'⟩
  rw [hm] at hm'
  exact hs (Option.some.inj hm' ▸ hs')

theorem not_turnsHealthy {id : WorkerId} {w : World} {m : ManagedWorker}
    (h : m.state ≠ .healthy) : ¬ TurnsHealthy id w (some m) := by
  rintro ⟨-, m', -, -, hm', hs'⟩
  exact h (Option.some.inj hm' ▸ hs')

theorem not_turnsHealthy_none {id : WorkerId} {w : World} : ¬ TurnsHealthy id w none := by
  rintro ⟨-, m', -, -, hm', -⟩
  cases hm'

theorem restartingOrFailed_ne (config : PoolConfig) (id id' : WorkerId) (n : UInt32) (port : Port) :
    .workerHealthy id' port ≠ restartingOrFailed config id n := by
  unfold restartingOrFailed
  split <;> exact PoolEvent.noConfusion

theorem ManagedWorker.scheduleRestart_state_ne (config : PoolConfig) (now : Instant)
    (id : WorkerId) (reason : String) (m : ManagedWorker) :
    (m.scheduleRestart config now id reason).1.state ≠ .healthy := by
  unfold ManagedWorker.scheduleRestart
  dsimp only
  split <;> exact WorkerState.noConfusion

/-- The step announces exactly the entries that turn healthy, unless it delivers a
`Ready` event. -/
theorem EntryStep.workerHealthy_iff {config : PoolConfig} {id : WorkerId} {w : World} {a : Action}
    {entry : Option ManagedWorker} {evs : List PoolEvent} (h : EntryStep config id w a entry evs)
    (hr : ¬ HandlesReady id w a) :
    (∃ port, .workerHealthy id port ∈ evs) ↔ TurnsHealthy id w entry := by
  have hnil : ¬ ∃ port, PoolEvent.workerHealthy id port ∈ ([] : List PoolEvent) := by simp
  have hcrash : ∀ reason n, ¬ ∃ port, PoolEvent.workerHealthy id port ∈
      [PoolEvent.workerUnhealthy id reason, restartingOrFailed config id n] := by
    rintro reason n ⟨port, hmem⟩
    obtain hmem | hmem := List.mem_cons.mp hmem
    · cases hmem
    · exact restartingOrFailed_ne config id id n port (List.mem_singleton.mp hmem)
  cases h with
  | untouched => exact iff_of_false hnil (not_turnsHealthy_self id w)
  | ready he => exact absurd ⟨_, _, _, _, rfl, he⟩ hr
  | draining he =>
      refine iff_of_false (by simp) ?_
      cases w.workers.lookup id with
      | none => exact not_turnsHealthy_none
      | some m => exact not_turnsHealthy WorkerState.noConfusion
  | drained he => exact iff_of_false (by simp) (not_turnsHealthy_self id w)
  | @exited now source code rest m he hm =>
      have ho := m.onExited_outcome config now id code
      generalize m.onExited config now id code = r at ho ⊢
      cases ho with
      | settled hp => exact iff_of_false hnil (hm ▸ not_turnsHealthy_self id w)
      | stopped hp => exact iff_of_false hnil (not_turnsHealthy WorkerState.noConfusion)
      | crashed hc hp hs reason =>
          exact iff_of_false (hcrash reason _) (not_turnsHealthy WorkerState.noConfusion)
  | @checked env order m c hm hs hc =>
      cases CheckOutcome.of_check hc with
      | passed =>
          rw [ManagedWorker.checkHealthy_events]
          split
          · next hstart =>
            refine iff_of_true ⟨m.worker.port, List.mem_singleton_self _⟩ ?_
            exact ⟨m, _, hm, hstart ▸ WorkerState.noConfusion, rfl,
              m.checkHealthy_state _ _ _ (.inr hstart)⟩
          · next hstart =>
            refine iff_of_false hnil ?_
            rintro ⟨m₁, -, hm₁, hs₁, -, -⟩
            obtain rfl := Option.some.inj (hm.symm.trans hm₁)
            exact hs.elim hs₁ hstart
      | tolerated n =>
          refine iff_of_false hnil ?_
          rintro ⟨m₁, m', hm₁, hs₁, hm', hs'⟩
          obtain rfl := Option.some.inj (hm.symm.trans hm₁)
          obtain rfl := Option.some.inj hm'
          exact hs₁ hs'
      | failed hcounts reason kill =>
          exact iff_of_false (hcrash reason _)
            (not_turnsHealthy (m.scheduleRestart_state_ne config _ id reason))
  | respawned pid hm hdue hs =>
      exact iff_of_false (by simp) (not_turnsHealthy WorkerState.noConfusion)
  | lost hm hdue hs => exact iff_of_false hnil not_turnsHealthy_none
  | added port pid hf hnew =>
      exact iff_of_false (by simp) (not_turnsHealthy WorkerState.noConfusion)
  | drainedByApi hm =>
      refine iff_of_false hnil (not_turnsHealthy ?_)
      dsimp only
      split <;> exact WorkerState.noConfusion
  | killedByApi hm => exact iff_of_false hnil (not_turnsHealthy WorkerState.noConfusion)
  | replaced hm => exact iff_of_false hnil not_turnsHealthy_none
  | restartFailed hm => exact iff_of_false hnil (not_turnsHealthy WorkerState.noConfusion)

/-! ## All entries -/

theorem World.checkOne_names (config : PoolConfig) (env : HealthEnv) (w : World)
    (target : WorkerId × Port) :
    ∀ e ∈ (w.checkOne config env target).2, e ≠ .allWorkersHealthy := by
  unfold World.checkOne
  cases w.workers.lookup target.1 with
  | none => exact List.forall_mem_nil _
  | some m =>
      rintro e he rfl
      cases ManagedWorker.check_events _ he

theorem World.restartOne_names (spawned : WorkerId → Except String Unit) (w : World)
    (due : WorkerId × Port × UInt32) :
    ∀ e ∈ (w.restartOne spawned due).2, e ≠ .allWorkersHealthy := by
  rintro e he rfl
  cases World.restartOne_outputs spawned w due _ he

/-- What a step other than a sweep leaves: the same entries, or one that is not healthy. -/
def Settles (w w' : World) : Prop :=
  (∀ id, w'.workers.lookup id = w.workers.lookup id) ∨
    ∃ id m, w'.workers.lookup id = some m ∧ m.state ≠ .healthy

theorem Settles.not_turnsAllHealthy {w w' : World} (h : Settles w w') :
    ¬ TurnsAllHealthy w w' := by
  rintro ⟨hnot, -, hall⟩
  rw [World.allWorkersHealthy_iff] at hall
  obtain hsame | ⟨id, m, hm, hs⟩ := h
  · have : w.allWorkersHealthy = true :=
      World.allWorkersHealthy_iff.mpr fun id m hm => hall id m ((hsame id).trans hm)
    rw [this] at hnot
    cases hnot
  · exact hs (hall id m hm)

/-- The steps that neither sweep the pool nor replace an entry. -/
def Action.settles : Action → Bool
  | .checkAllHealth _ _ | .processRestarts _ _ _ | .restartWorker _ _ _ => false
  | _ => true

theorem EntryStep.settles {config : PoolConfig} {id : WorkerId} {w : World} {a : Action}
    {entry : Option ManagedWorker} {evs : List PoolEvent} (h : EntryStep config id w a entry evs)
    (ha : a.settles = true) (hr : ¬ HandlesReady id w a) :
    entry = w.workers.lookup id ∨ ∃ m, entry = some m ∧ m.state ≠ .healthy := by
  cases h with
  | untouched => exact .inl rfl
  | ready he => exact absurd ⟨_, _, _, _, rfl, he⟩ hr
  | draining he =>
      cases w.workers.lookup id with
      | none => exact .inl rfl
      | some m => exact .inr ⟨_, rfl, WorkerState.noConfusion⟩
  | drained he => exact .inl rfl
  | @exited now source code rest m he hm =>
      have ho := m.onExited_outcome config now id code
      generalize m.onExited config now id code = r at ho ⊢
      cases ho with
      | settled hp => exact .inl hm.symm
      | stopped hp => exact .inr ⟨_, rfl, WorkerState.noConfusion⟩
      | crashed hc hp hs reason => exact .inr ⟨_, rfl, WorkerState.noConfusion⟩
  | checked hm hs hc => cases ha
  | respawned pid hm hdue hs => cases ha
  | lost hm hdue hs => cases ha
  | added port pid hf hnew => exact .inr ⟨_, rfl, WorkerState.noConfusion⟩
  | drainedByApi hm =>
      refine .inr ⟨_, rfl, ?_⟩
      dsimp only
      split <;> exact WorkerState.noConfusion
  | killedByApi hm => exact .inr ⟨_, rfl, WorkerState.noConfusion⟩
  | replaced hm => cases ha
  | restartFailed hm => cases ha

theorem step_settles {config : PoolConfig} {w w' : World} {a : Action} {out : List PoolEvent}
    (hp : Placed w) (hstep : (system config).step w a = some (w', out)) (ha : a.settles = true)
    (hr : ∀ id, ¬ HandlesReady id w a) : Settles w w' := by
  by_cases hsame : ∀ id, w'.workers.lookup id = w.workers.lookup id
  · exact .inl hsame
  · obtain ⟨id, hid⟩ := not_forall.mp hsame
    obtain ⟨m, hm⟩ := ((step_entry hp hstep id).settles ha (hr id)).resolve_left hid
    exact .inr ⟨id, m, hm⟩

theorem World.restartWorker_settles (config : PoolConfig) {w : World} (id : WorkerId)
    {newId : WorkerId} (hf : w.Fresh newId) (env : RestartEnv) :
    Settles w (w.restartWorker config id newId env).2.1 := by
  cases w.restartWorker_cases config id newId env with
  | notFound hm heq =>
      rw [heq]
      exact .inl fun _ => rfl
  | @failed m w₁ e hm hw₁ heq =>
      refine .inr ⟨id, { m with
        state := .failed (env.now + config.restartDelay)
        consecutiveFailures := m.consecutiveFailures + 1 }, ?_, WorkerState.noConfusion⟩
      rw [heq]
      dsimp only
      rw [Finmap.lookup_modify, hw₁.workers, hm]
      rfl
  | @replaced m w₁ hm hw₁ heq =>
      rw [heq]
      have hne : newId ≠ id := by
        rintro rfl
        rw [hf.lookup] at hm
        cases hm
      refine .inr ⟨newId, ⟨⟨newId, m.worker.port, w₁.procs.length⟩, .starting, 0, 0, none⟩, ?_,
        WorkerState.noConfusion⟩
      dsimp only
      rw [Finmap.lookup_erase_ne hne, Finmap.lookup_insert]

/-- Only a `Ready` event is followed by `AllWorkersHealthy`. -/
theorem step_allWorkersHealthy {config : PoolConfig} {w w' : World} {a : Action}
    {out : List PoolEvent} (hstep : (system config).step w a = some (w', out))
    (hr : ∀ id, ¬ HandlesReady id w a) : .allWorkersHealthy ∉ out := by
  cases poolStep hstep with
  | tryRecvEvent now =>
      unfold World.tryRecvEvent
      cases hq : w.eventRx with
      | nil => exact List.not_mem_nil
      | cons e rest =>
          obtain ⟨source, event⟩ := e
          cases event with
          | ready port id => exact absurd ⟨now, source, port, rest, rfl, hq⟩ (hr id)
          | draining id => simp [World.handleWorkerEvent]
          | drained id => simp [World.handleWorkerEvent]
          | exited id code =>
              simp only [World.handleWorkerEvent]
              cases w.workers.lookup id with
              | none => exact List.not_mem_nil
              | some m =>
                  intro hmem
                  cases ManagedWorker.onExited_events _ hmem
          | stdout line => exact List.not_mem_nil
          | stderr line => exact List.not_mem_nil
  | checkAllHealth env hl =>
      exact fun hmem => forEach_forall_output (World.checkOne_names config env) _ w _ hmem rfl
  | processRestarts now spawned hl =>
      exact fun hmem => forEach_forall_output (World.restartOne_names spawned) _ w _ hmem rfl
  | @spawnNewWorker newId spawned hf =>
      rcases w.spawnNewWorker_cases config newId spawned with heq | ⟨port, -, heq⟩ <;> simp [heq]
  | @restartWorker id newId env hf =>
      cases w.restartWorker_cases config id newId env with
      | notFound hm heq => simp [heq]
      | failed hm hw₁ heq => simp [heq]
      | replaced hm hw₁ heq => simp [heq]
  | drainWorker id => exact List.not_mem_nil
  | killWorker id killed => exact List.not_mem_nil
  | outside ha hk hworkers => exact List.not_mem_nil

/-! ## Sweeps -/

theorem ManagedWorker.EndsHealthy.active {config : PoolConfig} {result : HealthCheckResult}
    {running : Bool} {m : ManagedWorker} (h : m.EndsHealthy config result running) :
    m.state = .healthy ∨ m.state = .starting := by
  cases result with
  | healthy status => exact h
  | unhealthy reason => exact .inl h.1
  | unreachable reason => exact .inl h.1

theorem ManagedWorker.check_state_iff (config : PoolConfig) (now : Instant) (id : WorkerId)
    (port : Port) (result : HealthCheckResult) (running : Bool) {m : ManagedWorker}
    (hs : m.state = .healthy ∨ m.state = .starting) :
    (m.check config now id port result running).entry.state = .healthy ↔
      m.EndsHealthy config result running := by
  have hfailed : ∀ reason, (m.checkFailed config now id running reason).entry.state = .healthy ↔
      m.state = .healthy ∧ running = true ∧
        m.consecutiveUnhealthy + 1 < config.maxUnhealthyChecks := by
    intro reason
    unfold ManagedWorker.checkFailed
    rw [ManagedWorker.exitPending_of_active hs]
    cases running with
    | false =>
        refine iff_of_false ?_ (fun h => nomatch h.2.1)
        exact m.scheduleRestart_state_ne config now id "Process exited unexpectedly"
    | true =>
        rw [if_neg (by simp)]
        obtain hs | hs := hs
        · rw [if_pos (by simp [hs])]
          dsimp only
          split
          · next hge =>
            refine iff_of_false ?_ (fun h => absurd h.2.2 (not_lt.mpr hge))
            exact ManagedWorker.scheduleRestart_state_ne config now id
              ("Exceeded " ++ toString config.maxUnhealthyChecks
                ++ " consecutive unhealthy checks: " ++ reason) _
          · next hlt => exact iff_of_true hs ⟨hs, rfl, not_le.mp hlt⟩
        · rw [if_neg (by simp [hs]), hs]
          exact iff_of_false WorkerState.noConfusion (fun h => WorkerState.noConfusion h.1)
  cases result with
  | healthy status =>
      exact iff_of_true (m.checkHealthy_state _ _ _ hs) hs
  | unhealthy reason => exact hfailed reason
  | unreachable reason => exact hfailed reason

/-- After a health sweep all workers are healthy when each check leaves its entry so. -/
theorem World.checkAllHealth_all_iff {config : PoolConfig} (env : HealthEnv)
    {order : List WorkerId} {w : World} (hp : Placed w) (hl : w.workers.Lists order) :
    (w.checkAllHealth config env order).1.allWorkersHealthy = true ↔
      ∀ id m, w.workers.lookup id = some m →
        m.EndsHealthy config (env.result id) (w.isRunning m.worker.child) := by
  rw [World.allWorkersHealthy_iff]
  have hinactive : ∀ id,
      (¬ ∃ m, w.workers.lookup id = some m ∧ (m.state = .healthy ∨ m.state = .starting)) →
      (w.checkAllHealth config env order).1.workers.lookup id = w.workers.lookup id :=
    fun id h => (World.checkAllHealth_untouched_of_inactive env order h).lookup
  constructor
  · intro h id m hm
    by_cases hs : m.state = .healthy ∨ m.state = .starting
    · have hentry := (World.checkAllHealth_at config env hp hl hm hs).1
      exact (m.check_state_iff config _ id _ _ _ hs).mp (h id _ hentry)
    · have hsame := hinactive id (by simpa [hm] using hs)
      exact absurd (.inl (h id m (hsame.trans hm))) hs
  · intro h id m' hm'
    cases hm : w.workers.lookup id with
    | none =>
        have hnone : ¬ ∃ m, w.workers.lookup id = some m ∧
            (m.state = .healthy ∨ m.state = .starting) := by
          simp [hm]
        cases hm'.symm.trans ((hinactive id hnone).trans hm)
    | some m =>
        have hend := h id m hm
        have hentry := (World.checkAllHealth_at config env hp hl hm hend.active).1
        obtain rfl := Option.some.inj (hentry.symm.trans hm')
        exact (m.check_state_iff config _ id _ _ _ hend.active).mpr hend

theorem ManagedWorker.isDue_ne {config : PoolConfig} {now : Instant} {m : ManagedWorker}
    (h : m.isDue config now = true) : m.state ≠ .healthy := by
  intro hs
  rw [ManagedWorker.isDue, hs] at h
  cases h

/-- A restart sweep leaves an entry alone, replaces it or loses it. -/
theorem EntryStep.processRestarts_cases {config : PoolConfig} {id : WorkerId} {w : World}
    {now : Instant} {order : List WorkerId} {spawned : WorkerId → Except String Unit}
    {entry : Option ManagedWorker} {evs : List PoolEvent}
    (h : EntryStep config id w (.processRestarts now order spawned) entry evs) :
    entry = w.workers.lookup id ∨ entry = none ∨ ∃ m, entry = some m ∧ m.state = .starting := by
  cases h with
  | untouched => exact .inl rfl
  | respawned pid hm hdue hs => exact .inr (.inr ⟨_, rfl, rfl⟩)
  | lost hm hdue hs => exact .inr (.inl rfl)
  | added port pid hf hnew => cases hnew

/-- A restart sweep leaves healthy workers only when it loses all others. -/
theorem World.processRestarts_all_iff (config : PoolConfig) (now : Instant)
    {order : List WorkerId} (spawned : WorkerId → Except String Unit) {w : World}
    (hl : w.workers.Lists order) :
    ((w.processRestarts config now order spawned).1.Nonempty ∧
        (w.processRestarts config now order spawned).1.allWorkersHealthy = true) ↔
      (∃ id m, w.workers.lookup id = some m ∧ m.state = .healthy) ∧
        ∀ id m, w.workers.lookup id = some m → m.state ≠ .healthy →
          m.isDue config now = true ∧ ∃ e, spawned id = .error e := by
  rw [World.allWorkersHealthy_iff]
  have hnotDue : ∀ id m, w.workers.lookup id = some m → m.isDue config now ≠ true →
      (w.processRestarts config now order spawned).1.workers.lookup id = some m := by
    intro id m hm hd
    have hu : ¬ w.DueAt config now id := by
      rintro ⟨m₁, hm₁, hd₁⟩
      exact hd (Option.some.inj (hm₁.symm.trans hm) ▸ hd₁)
    exact (World.processRestarts_untouched hu).lookup.trans hm
  have hcases := fun id =>
    (World.processRestarts_entryStep config now spawned hl id).processRestarts_cases
  constructor
  · rintro ⟨⟨id₀, hid₀⟩, h⟩
    constructor
    · obtain ⟨m₀, hm₀⟩ := Finmap.mem_iff.mp hid₀
      have hs₀ := h id₀ m₀ hm₀
      obtain hsame | hnone | ⟨m, hm, hs⟩ := hcases id₀
      · exact ⟨id₀, m₀, hsame.symm.trans hm₀, hs₀⟩
      · cases hm₀.symm.trans hnone
      · obtain rfl := Option.some.inj (hm₀.symm.trans hm)
        cases hs₀.symm.trans hs
    · intro id m hm hs
      by_cases hd : m.isDue config now = true
      · refine ⟨hd, ?_⟩
        cases hsp : spawned id with
        | error e => exact ⟨e, rfl⟩
        | ok u =>
            obtain ⟨w₁, hlookup, -⟩ := World.processRestarts_at spawned hl hm hd
            rw [World.restartOne_ok hsp, Finmap.lookup_modify, Finmap.lookup_insert] at hlookup
            cases h id _ hlookup
      · exact absurd (h id m (hnotDue id m hm hd)) hs
  · rintro ⟨⟨id₀, m₀, hm₀, hs₀⟩, h⟩
    refine ⟨⟨id₀, ?_⟩, ?_⟩
    · exact Finmap.mem_of_lookup_eq_some
        (hnotDue id₀ m₀ hm₀ fun hd => ManagedWorker.isDue_ne hd hs₀)
    · intro id m' hm'
      by_contra hs'
      have hlost : ∀ m, w.workers.lookup id = some m → m.state = .healthy := by
        intro m hm
        by_contra hs
        obtain ⟨hd, e, he⟩ := h id m hm hs
        obtain ⟨w₁, hlookup, -⟩ := World.processRestarts_at spawned hl hm hd
        rw [World.restartOne_error he, Finmap.lookup_erase, hm'] at hlookup
        cases hlookup
      cases hm : w.workers.lookup id with
      | none =>
          have hu : ¬ w.DueAt config now id := by simp [World.DueAt, hm]
          have hsame : (w.processRestarts config now order spawned).1.workers.lookup id =
              w.workers.lookup id := (World.processRestarts_untouched hu).lookup
          cases hm'.symm.trans (hsame.trans hm)
      | some m =>
          have hsame := hnotDue id m hm fun hd => ManagedWorker.isDue_ne hd (hlost m hm)
          obtain rfl := Option.some.inj (hm'.symm.trans hsame)
          exact hs' (hlost m' hm)

/-! ## The condition -/

theorem World.not_allWorkersHealthy_iff {w : World} :
    w.allWorkersHealthy = false ↔ ∃ id m, w.workers.lookup id = some m ∧ m.state ≠ .healthy := by
  rw [← Bool.not_eq_true, World.allWorkersHealthy_iff]
  simp

theorem World.Nonempty.of_lookup {w : World} {id : WorkerId} {m : ManagedWorker}
    (h : w.workers.lookup id = some m) : w.Nonempty :=
  ⟨id, Finmap.mem_of_lookup_eq_some h⟩

/-- A `Ready` event is announced whatever it meets. -/
theorem HandlesReady.real_iff {config : PoolConfig} {w w' : World} {a : Action}
    {out : List PoolEvent} {id : WorkerId} (h : HandlesReady id w a)
    (hstep : (system config).step w a = some (w', out)) :
    HealthEventsReal w a w' out ↔ ∃ m, w.workers.lookup id = some m ∧ m.state ≠ .healthy := by
  obtain ⟨now, source, port, rest, rfl, hq⟩ := h
  obtain ⟨hw', hout⟩ := Prod.ext_iff.mp (Option.some.inj hstep)
  simp only [World.tryRecvEvent, hq, World.handleWorkerEvent] at hw' hout
  have hlookup : w'.workers.lookup id = (w.workers.lookup id).map fun m =>
      { m with state := .healthy, consecutiveFailures := 0, lastHealthy := some now } := by
    rw [← hw', Finmap.lookup_modify]
  have hother : ∀ id', id' ≠ id → w'.workers.lookup id' = w.workers.lookup id' := by
    intro id' hne
    rw [← hw', Finmap.lookup_modify_of_ne _ _ hne]
  rw [hw'] at hout
  constructor
  · intro hreal
    obtain ⟨m, -, hm, hs, -⟩ := (hreal.worker id).mp ⟨port, hout ▸ List.mem_cons_self⟩
    exact ⟨m, hm, hs⟩
  · rintro ⟨m, hm, hs⟩
    rw [hm] at hlookup
    constructor
    · intro id'
      by_cases hid : id' = id
      · subst hid
        exact iff_of_true ⟨port, hout ▸ List.mem_cons_self⟩ ⟨m, _, hm, hs, hlookup, rfl⟩
      · refine iff_of_false ?_ ?_
        · rintro ⟨port', hmem⟩
          rw [← hout] at hmem
          obtain hmem | hmem := List.mem_cons.mp hmem
          · exact hid (PoolEvent.workerHealthy.inj hmem).1
          · split at hmem <;> simp at hmem
        · rw [hother id' hid]
          exact not_turnsHealthy_self id' w
    · have hnot := World.not_allWorkersHealthy_iff.mpr ⟨id, m, hm, hs⟩
      rw [TurnsAllHealthy, hnot, ← hout]
      simp [World.Nonempty.of_lookup hlookup]

/-- Without a `Ready` event, only a sweep can turn all workers healthy unannounced. -/
theorem step_turnsAllHealthy_iff {config : PoolConfig} {w w' : World} {a : Action}
    {out : List PoolEvent} (hp : Placed w) (hstep : (system config).step w a = some (w', out))
    (hr : ∀ id, ¬ HandlesReady id w a) : ¬ TurnsAllHealthy w w' ↔ MeetsRealHealth config w a := by
  cases a with
  | tryRecvEvent now =>
      refine iff_of_true (step_settles hp hstep rfl hr).not_turnsAllHealthy ?_
      exact fun source port id rest hq => absurd ⟨now, source, port, rest, rfl, hq⟩ (hr id)
  | checkAllHealth env order =>
      obtain ⟨hl, hstep'⟩ := Option.ite_none_right_eq_some.mp hstep
      obtain ⟨rfl, -⟩ := Prod.ext_iff.mp (Option.some.inj hstep')
      have hne : w.allWorkersHealthy = false →
          (w.checkAllHealth config env order).1.Nonempty := by
        intro h
        obtain ⟨id, m, hm, -⟩ := World.not_allWorkersHealthy_iff.mp h
        exact ⟨id, (World.checkAllHealth_keeps config env order w).mem_workers
          (Finmap.mem_of_lookup_eq_some hm)⟩
      rw [TurnsAllHealthy, World.checkAllHealth_all_iff env hp hl, MeetsRealHealth]
      cases hall : w.allWorkersHealthy with
      | true => simp
      | false => simp [hne hall]
  | processRestarts now order spawned =>
      obtain ⟨hl, hstep'⟩ := Option.ite_none_right_eq_some.mp hstep
      obtain ⟨rfl, -⟩ := Prod.ext_iff.mp (Option.some.inj hstep')
      rw [TurnsAllHealthy, World.processRestarts_all_iff config now spawned hl, MeetsRealHealth]
      cases hall : w.allWorkersHealthy with
      | true => simp
      | false =>
          simp only [true_and, false_or, Bool.false_eq_true]
          rw [not_and_or]
          push Not
          rfl
  | restartWorker id newId env =>
      obtain ⟨hf, hstep'⟩ := Option.ite_none_right_eq_some.mp hstep
      obtain ⟨rfl, -⟩ := Prod.ext_iff.mp (Option.some.inj hstep')
      exact iff_of_true (World.restartWorker_settles config id hf env).not_turnsAllHealthy trivial
  | _ => exact iff_of_true (step_settles hp hstep rfl hr).not_turnsAllHealthy trivial

theorem healthEventsReal_iff {config : PoolConfig} {w w' : World} {a : Action}
    {out : List PoolEvent} (hp : Placed w) (hstep : (system config).step w a = some (w', out)) :
    HealthEventsReal w a w' out ↔ MeetsRealHealth config w a := by
  by_cases hr : ∃ id, HandlesReady id w a
  · obtain ⟨id, h⟩ := hr
    rw [h.real_iff hstep]
    obtain ⟨now, source, port, rest, rfl, hq⟩ := h
    constructor
    · intro h source' port' id' rest' hq'
      obtain ⟨he, -⟩ := List.cons.inj (hq.symm.trans hq')
      obtain ⟨-, he⟩ := Posted.mk.inj he
      obtain ⟨-, rfl⟩ := WorkerEvent.ready.inj he
      exact h
    · exact fun h => h source port id rest hq
  · have hr := not_exists.mp hr
    rw [← step_turnsAllHealthy_iff hp hstep hr]
    constructor
    · intro hreal hturns
      exact step_allWorkersHealthy hstep hr (hreal.all.mpr hturns)
    · intro hturns
      refine ⟨fun id => ?_, iff_of_false (step_allWorkersHealthy hstep hr) hturns⟩
      rw [← (step_entry hp hstep id).workerHealthy_iff (hr id)]
      simp [mem_named, PoolEvent.workerId?]

/-- Along a run the health events report real transitions exactly when every step avoids
the cases of `MeetsRealHealth`. -/
theorem health_events_real_iff {config : PoolConfig} {w₀ : World} (hstart : Started config w₀)
    (as : List Action) :
    (system config).Along HealthEventsReal w₀ as ↔
      (system config).Along (fun w a _ _ => MeetsRealHealth config w a) w₀ as :=
  Machine.Along.congr (I := Placed) (fun _ _ _ _ hp hs => healthEventsReal_iff hp hs)
    (fun _ _ _ _ hp hs _ => hp.step hs) (Reachable.placed ⟨w₀, [], [], hstart, rfl⟩)

/-- A health sweep that finds every worker ready. -/
def healthyAt (now : Instant) : HealthEnv where
  result := fun id => .healthy ⟨id, "READY", "1.0", 1, 0, 1, 5000, 1700000000000⟩
  now := fun _ => now
  killed := fun _ => true

/-- The worker comes up, crashes and is restarted. -/
theorem health_events_real_iff_readyCrashRestart :
    (system oneWorker).Along HealthEventsReal oneWorkerStarted readyCrashRestart ↔
      (system oneWorker).Along (fun w a _ _ => MeetsRealHealth oneWorker w a) oneWorkerStarted
        readyCrashRestart :=
  health_events_real_iff oneWorker_started readyCrashRestart

/-- A health sweep sees the worker before its ready line is delivered. -/
def checkedBeforeReady : Option (World × List PoolEvent) :=
  (system oneWorker).run oneWorkerStarted
    [.print 0 (.event "worker.ready" (some 3001) (some "l0-1") ""), .readStdout 0,
      .checkAllHealth (healthyAt 1000) ["l0-1"]]

/-- The sweep announced that the worker is healthy, and the `Ready` event announces it
again. -/
theorem ready_announced_twice :
    ¬ ∀ (w w' : World) (a : Action) (out : List PoolEvent), Reachable oneWorker w →
        (system oneWorker).step w a = some (w', out) → HealthEventsReal w a w' out := by
  intro claim
  have htrace : (checkedBeforeReady.bind fun r =>
      ((system oneWorker).step r.1 (.tryRecvEvent 1100)).map fun q =>
        ((r.1.workers.lookup "l0-1").map ManagedWorker.state, q.2)) =
      some (some .healthy, [.workerHealthy "l0-1" 3001, .allWorkersHealthy]) := by decide
  obtain ⟨⟨w, o⟩, hw, htrace⟩ := Option.bind_eq_some_iff.mp htrace
  obtain ⟨⟨w', out⟩, hstep, htrace⟩ := Option.map_eq_some_iff.mp htrace
  obtain ⟨hhealthy, rfl⟩ := Prod.mk.inj htrace
  have hreal := claim w w' _ _ ⟨_, _, o, oneWorker_started, hw⟩ hstep
  obtain ⟨m, -, hm, hs, -⟩ := (hreal.worker "l0-1").mp ⟨3001, List.mem_cons_self⟩
  rw [hm] at hhealthy
  exact hs (Option.some.inj hhealthy)

end L0Worker.Supervisor
