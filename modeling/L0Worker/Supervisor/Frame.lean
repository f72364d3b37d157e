import L0Worker.Supervisor.Restart

/-!
# What a step leaves alone

A step that is about other workers leaves the entry of an id as it is,
announces nothing about the id and starts no process for it (`Untouched`).
There is one lemma for each operation, with the condition under which the
operation is about other workers.
-/

namespace L0Worker.Supervisor

/-- Nothing about `id` happens between the two worlds. -/
structure Untouched (id : WorkerId) (w w' : World) (out : List PoolEvent) : Prop where
  /-- The entry stays. -/
  lookup : w'.workers.lookup id = w.workers.lookup id
  /-- No event names the id. -/
  events : ∀ e ∈ out, e.workerId? ≠ some id
  /-- Every process of the id was there before. -/
  procs : ∀ (pid : Pid) (p' : Process), w'.procs[pid]? = some p' → p'.workerId = id →
    ∃ p, w.procs[pid]? = some p ∧ p.workerId = id

namespace Untouched

variable {id : WorkerId}

theorem refl (id : WorkerId) (w : World) : Untouched id w w [] :=
  ⟨rfl, by simp, fun _ p' hp' hid => ⟨p', hp', hid⟩⟩

theorem trans {w₁ w₂ w₃ : World} {out out' : List PoolEvent} (h : Untouched id w₁ w₂ out)
    (h' : Untouched id w₂ w₃ out') : Untouched id w₁ w₃ (out ++ out') := by
  refine ⟨h'.lookup.trans h.lookup, ?_, ?_⟩
  · intro e he
    rcases List.mem_append.mp he with h₁ | h₂
    · exact h.events e h₁
    · exact h'.events e h₂
  · intro pid p hp hid
    obtain ⟨q, hq, hqid⟩ := h'.procs pid p hp hid
    exact h.procs pid q hq hqid

/-- A loop whose steps leave the id alone leaves it alone. -/
theorem forEach {τ : Type} {step : World → τ → World × List PoolEvent} :
    ∀ (ts : List τ) (w : World),
      (∀ t ∈ ts, ∀ w', Untouched id w' (step w' t).1 (step w' t).2) →
      Untouched id w (forEach step w ts).1 (forEach step w ts).2
  | [], w, _ => refl id w
  | t :: ts, w, h => by
      rw [forEach_cons]
      exact (h t List.mem_cons_self w).trans
        (Untouched.forEach ts _ fun t' ht' => h t' (List.mem_cons_of_mem t ht'))

/-- Nothing is announced, and the entry of the id stays. -/
theorem of_keeps {w w' : World} (hk : Keeps w w')
    (hl : w'.workers.lookup id = w.workers.lookup id) : Untouched id w w' [] := by
  refine ⟨hl, by simp, ?_⟩
  intro pid p' hp' hid
  obtain ⟨p, hp, hages⟩ := hk.proc_exists hp'
  exact ⟨p, hp, hages.workerId ▸ hid⟩

/-- The same with announcements about other workers. -/
theorem announce {w w' : World} {out : List PoolEvent} (h : Untouched id w w' [])
    (hout : ∀ e ∈ out, e.workerId? ≠ some id) : Untouched id w w' out :=
  ⟨h.lookup, hout, h.procs⟩

end Untouched

variable {id : WorkerId}

theorem restartingOrFailed_workerId (config : PoolConfig) (id : WorkerId) (failures : UInt32) :
    (restartingOrFailed config id failures).workerId? = some id := by
  unfold restartingOrFailed
  split <;> rfl

theorem ManagedWorker.onExited_events {config : PoolConfig} {now : Instant} {id : WorkerId}
    {code : Option Int} {m : ManagedWorker} :
    ∀ e ∈ (m.onExited config now id code).2, e.workerId? = some id := by
  unfold ManagedWorker.onExited
  split
  · split
    · simp
    · dsimp only
      exact List.forall_mem_cons.mpr ⟨rfl,
        List.forall_mem_singleton.mpr (restartingOrFailed_workerId config id _)⟩
  · simp

/-- A worker event is about the worker it names. -/
theorem World.handleWorkerEvent_untouched (config : PoolConfig) (now : Instant) (w : World)
    {e : WorkerEvent} (he : e.workerId? ≠ some id) :
    Untouched id w (w.handleWorkerEvent config now e).1 (w.handleWorkerEvent config now e).2 := by
  have hkeep := World.handleWorkerEvent_keeps config now w e
  cases e with
  | ready port id' =>
      have hne : id ≠ id' := fun h => he (h ▸ rfl)
      refine (Untouched.of_keeps hkeep (Finmap.lookup_modify_of_ne _ _ hne)).announce ?_
      simp only [World.handleWorkerEvent, List.mem_cons]
      rintro e (rfl | h)
      · exact fun h => he h
      · split at h
        · rw [List.mem_singleton.mp h]
          simp [PoolEvent.workerId?]
        · cases h
  | draining id' =>
      have hne : id ≠ id' := fun h => he (h ▸ rfl)
      refine (Untouched.of_keeps hkeep (Finmap.lookup_modify_of_ne _ _ hne)).announce ?_
      intro e h
      rw [List.mem_singleton.mp h]
      exact fun h => he h
  | drained id' =>
      refine (Untouched.refl id w).announce ?_
      intro e h
      rw [List.mem_singleton.mp h]
      exact fun h => he h
  | exited id' code =>
      have hne : id ≠ id' := fun h => he (h ▸ rfl)
      cases hm : w.workers.lookup id' with
      | none =>
          simp only [World.handleWorkerEvent, hm]
          exact Untouched.refl id w
      | some m =>
          simp only [World.handleWorkerEvent, hm] at hkeep ⊢
          refine (Untouched.of_keeps hkeep (Finmap.lookup_insert_of_ne _ hne)).announce ?_
          intro e h
          rw [ManagedWorker.onExited_events e h]
          exact fun h => he h
  | stdout line => exact Untouched.refl id w
  | stderr line => exact Untouched.refl id w

theorem ManagedWorker.scheduleRestart_events (config : PoolConfig) (now : Instant)
    {id : WorkerId} {reason : String} {m : ManagedWorker} :
    ∀ e ∈ (m.scheduleRestart config now id reason).2, e.workerId? = some id := by
  unfold ManagedWorker.scheduleRestart
  exact List.forall_mem_cons.mpr ⟨rfl,
    List.forall_mem_singleton.mpr (restartingOrFailed_workerId config id _)⟩

theorem ManagedWorker.check_events {config : PoolConfig} {now : Instant} {id : WorkerId}
    {port : Port} {result : HealthCheckResult} {running : Bool} {m : ManagedWorker} :
    ∀ e ∈ (m.check config now id port result running).events, e.workerId? = some id := by
  have failed : ∀ reason, ∀ e ∈ (m.checkFailed config now id running reason).events,
      e.workerId? = some id := by
    intro reason
    unfold ManagedWorker.checkFailed
    split
    · exact ManagedWorker.scheduleRestart_events config now
    · split
      · dsimp only
        split
        · exact ManagedWorker.scheduleRestart_events config now
        · simp
      · simp
  cases result with
  | healthy status =>
      rw [ManagedWorker.check, ManagedWorker.checkHealthy_events]
      split <;> simp [PoolEvent.workerId?]
  | unhealthy reason => exact failed reason
  | unreachable reason => exact failed reason

/-- A health check is about the worker it checks. -/
theorem World.checkOne_untouched (config : PoolConfig) (env : HealthEnv) (w : World)
    {target : WorkerId × Port} (h : id ≠ target.1) :
    Untouched id w (w.checkOne config env target).1 (w.checkOne config env target).2 := by
  have hkeep := World.checkOne_keeps config env w target
  unfold World.checkOne at *
  cases hm : w.workers.lookup target.1 with
  | none => exact Untouched.refl id w
  | some m =>
      simp only [hm] at hkeep ⊢
      refine (Untouched.of_keeps hkeep ?_).announce ?_
      · rw [Finmap.lookup_insert_of_ne _ h]
        split
        · unfold World.kill World.endProcess
          split <;> rfl
        · rfl
      · intro e he
        rw [ManagedWorker.check_events e he]
        exact fun heq => h (Option.some.inj heq).symm

/-- A health sweep looks only at entries that are starting or healthy. -/
theorem World.checkAllHealth_untouched (config : PoolConfig) (env : HealthEnv)
    (order : List WorkerId) {w : World}
    (h : ∀ m, w.workers.lookup id = some m → m.state ≠ .healthy ∧ m.state ≠ .starting) :
    Untouched id w (w.checkAllHealth config env order).1 (w.checkAllHealth config env order).2 := by
  refine Untouched.forEach _ w ?_
  intro target ht w'
  refine World.checkOne_untouched config env w' ?_
  rintro rfl
  simp only [World.checkTargets, List.mem_filterMap] at ht
  obtain ⟨id', -, hid'⟩ := ht
  cases hm : w.workers.lookup id' with
  | none => simp [hm] at hid'
  | some m =>
      simp only [hm] at hid'
      split at hid'
      · next hstate =>
        obtain rfl := Option.some.inj hid'
        obtain ⟨h₁, h₂⟩ := h m hm
        rcases hstate with hs | hs
        · exact h₁ hs
        · exact h₂ hs
      · cases hid'

/-- The processes after a spawn. -/
theorem mem_procs_spawn {w : World} {id' : WorkerId} {port : Port} {pid : Pid} {p' : Process}
    (hp' : (w.procs ++ [⟨id', port, .running, []⟩])[pid]? = some p') (hne : p'.workerId ≠ id') :
    w.procs[pid]? = some p' := by
  rcases Nat.lt_or_ge pid w.procs.length with hlt | hge
  · rwa [List.getElem?_append_left hlt] at hp'
  · rw [List.getElem?_append_right hge] at hp'
    obtain ⟨hlt, heq⟩ := List.getElem?_eq_some_iff.mp hp'
    rw [List.getElem_singleton] at heq
    exact absurd (heq ▸ rfl) hne

/-- A spawn is about the id of the new process, where it leaves the other entries. -/
theorem Untouched.of_spawn {w : World} {id' : WorkerId} {port : Port} (h : id ≠ id')
    {workers : Finmap fun _ : WorkerId => ManagedWorker}
    (hl : workers.lookup id = w.workers.lookup id) :
    Untouched id w { w with procs := w.procs ++ [⟨id', port, .running, []⟩], workers }
      [.workerSpawned id' port] := by
  refine ⟨hl, ?_, ?_⟩
  · intro e he
    rw [List.mem_singleton.mp he]
    exact fun heq => h (Option.some.inj heq).symm
  · intro pid p' hp' hid
    exact ⟨p', mem_procs_spawn hp' (hid ▸ h), hid⟩

theorem World.restartOne_untouched {spawned : WorkerId → Except String Unit} (w : World)
    {due : WorkerId × Port × UInt32} (h : id ≠ due.1) :
    Untouched id w (w.restartOne spawned due).1 (w.restartOne spawned due).2 := by
  cases hs : spawned due.1 with
  | error e =>
      rw [World.restartOne_error hs]
      exact ⟨Finmap.lookup_erase_ne h, by simp, fun _ p' hp' hid => ⟨p', hp', hid⟩⟩
  | ok u =>
      rw [World.restartOne_ok hs]
      refine Untouched.of_spawn h ?_
      rw [Finmap.lookup_modify_of_ne _ _ h, Finmap.lookup_insert_of_ne _ h,
        Finmap.lookup_erase_ne h]

/-- A restart sweep is about the entries that are due. -/
theorem World.processRestarts_untouched {config : PoolConfig} {now : Instant}
    {order : List WorkerId} {spawned : WorkerId → Except String Unit} {w : World}
    (h : ¬ w.DueAt config now id) :
    Untouched id w (w.processRestarts config now order spawned).1
      (w.processRestarts config now order spawned).2 := by
  refine Untouched.forEach _ w ?_
  intro due hdue w'
  refine World.restartOne_untouched w' ?_
  rintro rfl
  obtain ⟨-, m, hm, hd, -⟩ := World.mem_dueRestarts.mp hdue
  exact h ⟨m, hm, hd⟩

/-- Spawning a new worker is about the new worker. -/
theorem World.spawnNewWorker_untouched {config : PoolConfig} {w : World} {newId : WorkerId}
    {outcome : Except String Unit} (h : id ≠ newId) :
    Untouched id w (w.spawnNewWorker config newId outcome).2.1
      (w.spawnNewWorker config newId outcome).2.2 := by
  rcases w.spawnNewWorker_cases config newId outcome with heq | ⟨port, -, heq⟩
  · rw [heq]
    exact Untouched.refl id w
  · rw [heq]
    exact Untouched.of_spawn h (Finmap.lookup_insert_of_ne _ h)

theorem World.drainWorker_untouched {w : World} {id' : WorkerId} (h : id ≠ id') :
    Untouched id w (w.drainWorker id').2 [] := by
  refine Untouched.of_keeps (World.drainWorker_keeps w id') ?_
  unfold World.drainWorker
  cases w.workers.lookup id' with
  | none => rfl
  | some m => exact Finmap.lookup_insert_of_ne _ h

theorem World.kill_workers (w : World) (pid : Pid) (killed : Bool) :
    (w.kill pid killed).workers = w.workers := by
  unfold World.kill World.endProcess
  split <;> rfl

theorem World.killWorker_untouched {w : World} {id' : WorkerId} {killed : Bool} (h : id ≠ id') :
    Untouched id w (w.killWorker id' killed).2 [] := by
  refine Untouched.of_keeps (World.killWorker_keeps w id' killed) ?_
  unfold World.killWorker
  cases w.workers.lookup id' with
  | none => rfl
  | some m =>
      dsimp only
      rw [Finmap.lookup_insert_of_ne _ h]
      split
      · rw [World.kill_workers]
      · rfl

/-- Restarting a worker is about that worker and the new one. -/
theorem World.restartWorker_untouched {config : PoolConfig} {w : World} {id' newId : WorkerId}
    {env : RestartEnv} (h : id ≠ id') (hnew : id ≠ newId) :
    Untouched id w (w.restartWorker config id' newId env).2.1
      (w.restartWorker config id' newId env).2.2 := by
  have hwait : ∀ {old : Worker} {w₁ : World}, Awaited w old env.wait w₁ → Untouched id w w₁ [] :=
    fun hw₁ => Untouched.of_keeps hw₁.keeps (by rw [hw₁.workers])
  cases w.restartWorker_cases config id' newId env with
  | notFound hm heq =>
      rw [heq]
      exact Untouched.refl id w
  | @failed m w₁ e hm hw₁ heq =>
      rw [heq]
      exact (hwait hw₁).trans (Untouched.of_keeps (Keeps.modify w₁ id' fun _ => rfl)
        (Finmap.lookup_modify_of_ne _ _ h))
  | replaced hm hw₁ heq =>
      rw [heq]
      refine (hwait hw₁).trans (Untouched.of_spawn hnew ?_)
      exact (Finmap.lookup_erase_ne h).trans (Finmap.lookup_insert_of_ne _ hnew)

end L0Worker.Supervisor
