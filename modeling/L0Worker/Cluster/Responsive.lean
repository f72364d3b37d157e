import L0Worker.Cluster.Secret
import L0Worker.Server.Counts
import L0Worker.Supervisor.KillThreshold

/-!
# Workers that answer

The status of a worker passes through JavaScript numbers, JSON and the integers of the
supervisor before a health sweep acts on it.  In a cluster whose limits are whole numbers this
loses nothing, as long as the clock of the worker is not set back: a worker that serves and
answers its check is healthy after the sweep, and its process is left alone, however often its
limit was changed and however many tasks it has (`responsive_kept`).
-/

namespace L0Worker.Cluster

open Server Supervisor

/-! ## Sweeps -/

/-- A sweep leaves alone the process of an entry whose check asks for no kill. -/
theorem checkAllHealth_spares {config : PoolConfig} {w : World} (hp : Placed w) (env : HealthEnv)
    {order : List WorkerId} (hl : w.workers.Lists order) {id : WorkerId} {m : ManagedWorker}
    (hm : w.workers.lookup id = some m) (hs : m.state = .healthy ∨ m.state = .starting)
    (hrunning : w.isRunning m.worker.child = true)
    (hkill : (m.check config (env.now id) id m.worker.port (env.result id) true).kill = false) :
    (w.checkAllHealth config env order).1.isRunning m.worker.child = true := by
  obtain ⟨hentry, -⟩ := World.checkAllHealth_entryOf config env hp.ownChildren hl hm hs
  obtain ⟨m', hm', heq⟩ := Option.map_eq_some_iff.mp hentry
  obtain ⟨rfl, hproc⟩ := Prod.mk.inj heq
  rw [ManagedWorker.checkWith, ManagedWorker.check_worker] at hproc
  obtain ⟨p, hproc', hr⟩ := World.isRunning_iff.mp hrunning
  rw [World.isRunning_eq_any, hproc, ← World.isRunning_eq_any, hrunning, hproc', hkill]
  simp [hr]

/-! ## Limits -/

/-- The limit with which every worker starts. -/
def Setup.maxConcurrency (setup : Setup) : Number :=
  parseIntOrDefault (setup.inherited "MAX_CONCURRENCY") (preset setup.inherited).maxConcurrency

/-- A request that updates the limit of a worker asks for a whole number. -/
def Action.AsksWhole : Action → Prop
  | .serve _ a => a.AsksWhole
  | _ => True

/-- The counts of the server of a node, if it has one, are whole. -/
def Node.CountsFit : Node → Prop
  | .spawned => True
  | .created _ s | .serving _ s => Server.CountsFit s

section Runs

variable {setup : Setup} {w₀ : World} {workerIds : List WorkerId} {c c' : State}
variable {as : List Action} {out : List PoolEvent}

theorem createServer_countsFit {p : Process} {uuidv7 : String} {clock : Worker.MonotonicClock}
    {startTime : Int} {line : String} {d : Deployment} {s : HttpState}
    (hlimit : FitsU32 setup.maxConcurrency)
    (h : createServer setup p uuidv7 clock startTime = some (line, d, s)) : CountsFit s := by
  obtain ⟨d', -, h⟩ := Option.bind_eq_some_iff.mp h
  obtain ⟨worker, hworker, h⟩ := Option.bind_eq_some_iff.mp h
  obtain ⟨-, heq⟩ := Prod.mk.inj (Option.some.inj h)
  obtain ⟨-, rfl⟩ := Prod.mk.inj heq
  refine CountsFit.init clock hworker ?_
  obtain ⟨-, configManager, -, rfl⟩ := Worker.VercelWorker.of_new hworker
  have hvercel : isVercel (setup.environment p) = isVercel setup.inherited := by
    rw [isVercel, isVercel, Env.truthy, Env.truthy, environment_inherited (by decide),
      environment_inherited (by decide)]
  show FitsU32 (parseIntOrDefault (setup.environment p "MAX_CONCURRENCY")
    (preset (setup.environment p)).maxConcurrency)
  rw [preset, hvercel, environment_inherited (by decide)]
  exact hlimit

theorem step_countsFit (hlimit : FitsU32 setup.maxConcurrency) {a : Action} (ha : a.AsksWhole)
    (h : ∀ pid, (c.node pid).CountsFit) (hstep : (cluster setup).step c a = some (c', out)) :
    ∀ pid, (c'.node pid).CountsFit := by
  refine step_nodes h (createServer_countsFit hlimit) id ?_ hstep
  rintro pid b d s s' o rfl hserve hs
  exact Server.CountsFit.step hs ha hserve

/-- In every run of a cluster whose workers start with a whole number as their limit and are
only asked for such limits, a sweep finds a worker healthy that serves and answers its check at
readings of the clock that fit: the entry is healthy afterwards and counts no failed check, the
process still runs, and nothing is announced but that the worker is healthy if it was starting. -/
theorem responsive_kept (hnew : World.new setup.pool = some w₀)
    (hlimit : FitsU32 setup.maxConcurrency)
    (hrun : (cluster setup).run (.init (w₀.start setup.pool workerIds).1) as = some (c, out))
    (hasks : ∀ a ∈ as, a.AsksWhole) {env : HealthEnv} {order : List WorkerId}
    {o : List PoolEvent}
    (hstep : (cluster setup).step c (.pool (.checkAllHealth env order)) = some (c', o))
    {id : WorkerId} {m : ManagedWorker} (hm : c.world.workers.lookup id = some m)
    (hs : m.state = .healthy ∨ m.state = .starting)
    (hrunning : c.world.isRunning m.worker.child = true) {d : Deployment} {s : HttpState}
    (hnode : c.node m.worker.child = .serving d s) {request : RequestEnv}
    (hclock : ClockFits d request) (hanswers : AnswersCheck d s request (env.result id)) :
    c'.world.workers.lookup id = some { m with
        state := .healthy, consecutiveUnhealthy := 0, lastHealthy := some (env.now id) } ∧
      c'.world.isRunning m.worker.child = true ∧
      named id o = if m.state = .starting then [.workerHealthy id m.worker.port] else [] := by
  have hinv : Inv c :=
    (cluster setup).run_invariant (fun _ _ _ _ h hs => h.step hs) (inv_init hnew) hrun
  have hcounts : ∀ pid, (c.node pid).CountsFit :=
    Machine.Along.invariant (fun _ _ _ _ h hs ha => step_countsFit hlimit ha h hs)
      (show ∀ _ : Pid, Node.CountsFit .spawned from fun _ => trivial)
      (Machine.along_of_forall_mem hasks hrun) hrun
  have hfits : Server.CountsFit s := by
    have hfits := hcounts m.worker.child
    rw [hnode] at hfits
    exact hfits
  obtain ⟨status, hresult⟩ := hfits.healthy hclock hanswers
  have hchecked : ∀ isRunning, m.check setup.pool (env.now id) id m.worker.port (env.result id)
      isRunning = m.checkHealthy (env.now id) id m.worker.port := by
    intro isRunning
    rw [hresult]
    rfl
  cases step_cases hstep with
  | pool ha hworld =>
      cases poolStep hworld with
      | checkAllHealth env hl =>
          obtain ⟨hentry, hevents⟩ := World.checkAllHealth_at setup.pool env hinv.placed hl hm hs
          rw [hchecked] at hentry hevents
          refine ⟨hentry.trans (congrArg some ?_), ?_, ?_⟩
          · rw [ManagedWorker.checkHealthy]
            split
            · rfl
            · next hstart =>
              rw [← hs.resolve_right hstart]
          · refine checkAllHealth_spares hinv.placed env hl hm hs hrunning ?_
            rw [hchecked, ManagedWorker.checkHealthy_kill]
          · rw [hevents, ManagedWorker.checkHealthy_events]
      | outside ha hk hworkers => cases ha

end Runs

/-! ## A run -/

/-- The node answers, and its clock started at 0. -/
def Node.answers : Node → Bool
  | .serving d s => !s.server.exited && d.startTime == 0
  | _ => false

/-- The entry is healthy with process 0, which runs and answers. -/
def State.answers (c : State) (id : WorkerId) : Bool :=
  (c.world.workers.lookup id).any (fun m => m.state == .healthy && m.worker.child == 0) &&
    c.world.isRunning 0 && (c.node 0).answers

theorem comesUp_answers : ∃ c out m d s,
    (cluster oneWorkerSetup).run (.init oneWorkerStarted) comesUp = some (c, out) ∧
      c.world.workers.Lists ["l0-1"] ∧ c.world.workers.lookup "l0-1" = some m ∧
      m.state = .healthy ∧ m.worker.child = 0 ∧ c.world.isRunning 0 = true ∧
      c.node 0 = .serving d s ∧ s.server.exited = false ∧ d.startTime = 0 := by
  have hanswers : ((cluster oneWorkerSetup).run (.init oneWorkerStarted) comesUp).map (fun r =>
      decide (r.1.world.workers.Lists ["l0-1"]) && r.1.answers "l0-1") = some true := by
    decide +kernel
  obtain ⟨⟨c, out⟩, hrun, heq⟩ := Option.map_eq_some_iff.mp hanswers
  simp only [State.answers, Bool.and_eq_true, decide_eq_true_eq, Option.any_eq_true,
    beq_iff_eq] at heq
  obtain ⟨hlists, ⟨⟨m, hm, hstate, hchild⟩, hrunning⟩, hnode⟩ := heq
  cases hc : c.node 0 with
  | serving d s =>
      rw [hc, Node.answers, Bool.and_eq_true, Bool.not_eq_true', beq_iff_eq] at hnode
      exact ⟨c, out, m, d, s, hrun, hlists, hm, hstate, hchild, hrunning, hc, hnode⟩
  | spawned => rw [hc] at hnode; cases hnode
  | created d s => rw [hc] at hnode; cases hnode

theorem responsive_kept_comesUp : ∃ c out m env c' o,
    (cluster oneWorkerSetup).run (.init oneWorkerStarted) comesUp = some (c, out) ∧
      c.world.workers.lookup "l0-1" = some m ∧
      (cluster oneWorkerSetup).step c (.pool (.checkAllHealth env ["l0-1"])) = some (c', o) ∧
      c'.world.isRunning m.worker.child = true := by
  obtain ⟨c, out, m, d, s, hrun, hlists, hm, hstate, hchild, hrunning, hnode, hexited, hstart⟩ :=
    comesUp_answers
  let request : RequestEnv := ⟨⟨5, by decide⟩, ⟨5, ⟨5, none⟩, ⟨5, none⟩⟩, 5, 5, 5, 5⟩
  let result := ((HttpResponse.json 200 (s.statusBody d request)).reply "OK" "").check
  have hclock : ClockFits d request := by
    refine ⟨?_, by decide⟩
    rw [hstart]
    decide
  have hanswers : AnswersCheck d s request result :=
    ⟨none, "OK", "", s, _, if_neg (not_exited hexited), rfl⟩
  let env : HealthEnv := ⟨fun _ => result, fun _ => 9, fun _ => true⟩
  obtain ⟨⟨w, o⟩, hsweep⟩ : ∃ r, (system oneWorker).step c.world
      (.checkAllHealth env ["l0-1"]) = some r := ⟨_, if_pos hlists⟩
  have hstep : (cluster oneWorkerSetup).step c (.pool (.checkAllHealth env ["l0-1"])) =
      some ({ c with world := w }, o) :=
    congrArg (Option.map fun r : World × List PoolEvent =>
      (({ c with world := r.1 } : State), r.2)) hsweep
  have hlimit : FitsU32 oneWorkerSetup.maxConcurrency := ⟨64, rfl, by decide⟩
  have hkept := responsive_kept oneWorkerSetup_new hlimit hrun (by simp [comesUp, Action.AsksWhole])
    hstep hm (.inl hstate) (hchild ▸ hrunning) (hchild ▸ hnode) hclock hanswers
  exact ⟨c, out, m, env, _, o, hrun, hm, hstep, hkept.2.1⟩

end L0Worker.Cluster
