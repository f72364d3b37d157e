import L0Worker.Cluster.Basic

/-!
# A run of the cluster is a run of the supervisor

`Simulates` relates two states of the cluster: the worlds are joined by a run of the supervised
system, and what each process prints in that run leads it from its stage before to its stage
after, by the grammar of `Stage.next`.  A step simulates (`step_simulates`), so a run does.

What the supervisor assumes of its processes then holds: each prints only about itself.  The
events the pool announces follow their grammar in every run (`cluster_grammar`), a worker is
announced as healthy only under an address it was announced as spawned with
(`cluster_addresses`), and what the pool handles of a process follows the grammar of a process
(`cluster_process_events`).
-/

namespace L0Worker.Cluster

open Server Supervisor

/-! ## Stages of nodes -/

/-- The stage of a node. -/
def Node.stage : Node → Stage
  | .spawned => .spawned
  | .created _ _ => .created
  | .serving _ s => .serving (pending s.server.drains)

/-- The worker was created with this id and has run. -/
def RanFrom (settings : Worker.Settings) (id : WorkerId) (w : Worker.Instance) : Prop :=
  ∃ w₀ as out, Worker.Created w₀ ∧ (Worker.worker settings).run w₀ as = some (w, out) ∧
    w₀.worker.configManager.workerId = id

/-- The node belongs to the process with this id. -/
def Node.Fits (id : WorkerId) : Node → Prop
  | .spawned => True
  | .created d s => RanFrom d.settings id s.server.worker ∧ s.server.drains = []
  | .serving d s => RanFrom d.settings id s.server.worker

/-- What holds in every state of a run. -/
structure Inv (c : State) : Prop where
  placed : Placed c.world
  /-- A node that got on is the node of a process. -/
  nodes : ∀ pid, c.node pid = .spawned ∨
    ∃ a, c.world.addressOf pid = some a ∧ (c.node pid).Fits a.1

/-! ## Printing -/

section Printing

variable {config : PoolConfig} {w : World} {pid : Pid}

theorem runningProcess_eq_some {p : Process} :
    runningProcess w pid = some p ↔ w.procs[pid]? = some p ∧ p.Running := by
  simp [runningProcess, Option.filter_eq_some_iff]

theorem print_nil (w : World) (pid : Pid) : print w pid [] = w := by
  have hid : (fun p : Process => { p with pipe := p.pipe ++ [] }) = id := by
    funext p
    simp
  rw [print, hid, List.modify_id]

theorem print_append (w : World) (pid : Pid) (ls ls' : List Supervisor.Line) :
    print (print w pid ls) pid ls' = print w pid (ls ++ ls') := by
  unfold print
  rw [List.modify_modify_eq]
  congr 2
  funext p
  exact congrArg (fun pipe => { p with pipe := pipe }) (List.append_assoc ..)

theorem print_keeps (w : World) (pid : Pid) (ls : List Supervisor.Line) :
    Keeps w (print w pid ls) :=
  Keeps.modifyProc w pid fun _ => ⟨rfl, rfl, fun h => h⟩

theorem isRunning_print (w : World) (pid : Pid) (ls : List Supervisor.Line) (pid' : Pid) :
    (print w pid ls).isRunning pid' = w.isRunning pid' := by
  unfold World.isRunning print
  rw [List.getElem?_modify]
  cases w.procs[pid']? with
  | none => rfl
  | some p =>
      show decide (if pid = pid' then _ else p : Process).Running = decide p.Running
      split <;> rfl

end Printing

/-! ## Simulation -/

/-- A run of the supervised system joins the worlds, and each process prints what leads it
from its stage before to its stage after. -/
structure Simulates (setup : Setup) (c c' : State) (as : List Supervisor.Action)
    (out : List PoolEvent) (handled : List Posted) : Prop where
  run : (system setup.pool).run c.world as = some (c'.world, out)
  recorded : ((system setup.pool).record World.received).run c.world as =
    some (c'.world, handled)
  genuine : (system setup.pool).Along (PrintsGenuine listenPort) c.world as
  stages : ∀ pid id port, (∀ a, c'.world.addressOf pid = some a → a = (id, port)) →
    accept (Stage.next id port) (c.node pid).stage
      (eventsOf (as.filterMap (Action.printedBy pid))) = some (c'.node pid).stage

/-- A process prints only about itself. -/
theorem genuine_of_accept {id : WorkerId} {port : Port} {q q' : Stage} {es : List WorkerEvent}
    (h : accept (Stage.next id port) q es = some q') :
    ∀ e ∈ es, e.Genuine listenPort (some (id, port)) := by
  induction es generalizing q with
  | nil => exact List.forall_mem_nil _
  | cons e es ih =>
      obtain ⟨q₁, hq₁, h⟩ := Option.bind_eq_some_iff.mp h
      refine List.forall_mem_cons.mpr ⟨?_, ih h⟩
      cases e with
      | ready port' id' =>
          cases q with
          | created =>
              obtain ⟨⟨rfl, rfl⟩, -⟩ := Option.ite_none_right_eq_some.mp hq₁
              exact ⟨port, rfl, rfl⟩
          | _ => cases hq₁
      | draining id' =>
          cases q with
          | serving n =>
              obtain ⟨rfl, -⟩ := Option.ite_none_right_eq_some.mp hq₁
              exact ⟨port, rfl⟩
          | _ => cases hq₁
      | drained id' =>
          cases q with
          | serving n => cases n with
            | zero => cases hq₁
            | succ n =>
                obtain ⟨rfl, -⟩ := Option.ite_none_right_eq_some.mp hq₁
                exact ⟨port, rfl⟩
          | _ => cases hq₁
      | exited id' code => cases q <;> cases hq₁
      | stdout line => trivial
      | stderr line => trivial

namespace Simulates

variable {setup : Setup} {c c' c'' : State} {as as' : List Supervisor.Action}
variable {out out' : List PoolEvent} {handled handled' : List Posted}

theorem refl (c : State) : Simulates setup c c [] [] [] :=
  ⟨rfl, rfl, trivial, fun _ _ _ _ => rfl⟩

theorem addressOf (h : Simulates setup c c' as out handled) (hp : Placed c.world) {pid : Pid}
    {a : WorkerId × Port} (ha : c.world.addressOf pid = some a) :
    c'.world.addressOf pid = some a :=
  (AnnouncesSpawns.run hp h.run).addressOf ha

theorem trans (h : Simulates setup c c' as out handled)
    (h' : Simulates setup c' c'' as' out' handled') (hp : Placed c'.world) :
    Simulates setup c c'' (as ++ as') (out ++ out') (handled ++ handled') where
  run := (Machine.run_append_iff _).mpr ⟨_, _, _, h.run, h'.run, rfl⟩
  recorded := (Machine.run_append_iff _).mpr ⟨_, _, _, h.recorded, h'.recorded, rfl⟩
  genuine := h.genuine.append h.run h'.genuine
  stages := by
    intro pid id port ha
    have hstage := h.stages pid id port fun a ha' => ha a (h'.addressOf hp ha')
    rw [List.filterMap_append, eventsOf_append, accept_append, hstage]
    exact h'.stages pid id port ha

/-- One step of the supervised system in which no process prints. -/
theorem of_step {w : World} {a : Supervisor.Action}
    (hstep : (system setup.pool).step c.world a = some (w, out))
    (hprint : ∀ pid line, a ≠ .print pid line) :
    Simulates setup c { c with world := w } [a] out (c.world.received a) where
  run := (Machine.run_singleton_iff _).mpr hstep
  recorded := (Machine.run_singleton_iff _).mpr
    (Machine.record_step_iff.mpr ⟨⟨out, hstep⟩, rfl⟩)
  genuine := ⟨w, out, hstep, fun pid line ha => absurd ha (hprint pid line), trivial⟩
  stages := by
    intro pid id port _
    have hnone : a.printedBy pid = none := by
      cases a with
      | print pid' line => exact absurd rfl (hprint pid' line)
      | _ => rfl
    simp [hnone, eventsOf]

/-- A process prints lines, one after the other. -/
theorem run_prints (config : PoolConfig) {pid : Pid} (ls : List Supervisor.Line) {w : World}
    (hrun : w.isRunning pid = true) {address : WorkerId × Port}
    (haddress : w.addressOf pid = some address)
    (hgenuine : ∀ line ∈ ls, line.Genuine listenPort (some address)) :
    (system config).run w (ls.map (.print pid)) = some (print w pid ls, []) ∧
      ((system config).record World.received).run w (ls.map (.print pid)) =
        some (print w pid ls, []) ∧
      (system config).Along (PrintsGenuine listenPort) w (ls.map (.print pid)) := by
  induction ls generalizing w with
  | nil => exact ⟨by rw [print_nil]; rfl, by rw [print_nil]; rfl, trivial⟩
  | cons line ls ih =>
      have hstep : (system config).step w (.print pid line) = some (print w pid [line], []) :=
        if_pos hrun
      rw [List.forall_mem_cons] at hgenuine
      obtain ⟨htail, hrecorded, halong⟩ := ih (w := print w pid [line])
        (by rw [isRunning_print, hrun]) (by rw [(print_keeps w pid [line]).addressOf, haddress])
        hgenuine.2
      rw [print_append] at htail hrecorded
      refine ⟨(Machine.run_cons_iff _).mpr ⟨_, _, _, hstep, htail, rfl⟩,
        (Machine.run_cons_iff _).mpr ⟨_, _, _, Machine.record_step_iff.mpr ⟨⟨_, hstep⟩, rfl⟩,
          hrecorded, rfl⟩, _, _, hstep, ?_, halong⟩
      rintro pid' line' ⟨⟩
      rw [haddress]
      exact hgenuine.1

/-- A process that runs goes on to a node that its lines lead to. -/
theorem of_advance {pid : Pid} {p : Process} (hp : runningProcess c.world pid = some p)
    {node : Node} {ls : List Supervisor.Line}
    (hls : accept (Stage.next p.workerId p.port) (c.node pid).stage (eventsOf ls) =
      some node.stage) :
    Simulates setup c (c.advance pid node ls) (ls.map (.print pid)) [] [] := by
  obtain ⟨hproc, hrunning⟩ := runningProcess_eq_some.mp hp
  have haddress : c.world.addressOf pid = some (p.workerId, p.port) := by
    rw [World.addressOf, hproc]
    rfl
  have hgenuine : ∀ line ∈ ls, line.Genuine listenPort (some (p.workerId, p.port)) :=
    fun line hline e he => genuine_of_accept hls e (List.mem_filterMap.mpr ⟨line, hline, he⟩)
  obtain ⟨hrun, hrecorded, halong⟩ := run_prints setup.pool ls
    (World.isRunning_iff.mpr ⟨p, hproc, hrunning⟩) haddress hgenuine
  refine ⟨hrun, hrecorded, halong, fun pid' id port ha => ?_⟩
  by_cases hpid : pid' = pid
  · subst hpid
    have heq := ha (p.workerId, p.port)
      (((print_keeps c.world pid' ls).addressOf pid').trans haddress)
    obtain ⟨rfl, rfl⟩ := Prod.mk.inj heq
    have hprinted : (ls.map (Supervisor.Action.print pid')).filterMap (Action.printedBy pid') =
        ls := by
      rw [List.filterMap_map]
      simp [Function.comp_def, Action.printedBy]
    rw [hprinted]
    simpa [State.advance] using hls
  · have hprinted : (ls.map (Supervisor.Action.print pid)).filterMap (Action.printedBy pid') =
        [] := by
      rw [List.filterMap_map]
      simp [Function.comp_def, Action.printedBy, Ne.symm hpid]
    rw [hprinted]
    simp [State.advance, hpid, eventsOf]

end Simulates

/-! ## Steps -/

/-- What a step does. -/
inductive Steps (setup : Setup) (c : State) : Action → State → List PoolEvent → Prop where
  | pool {a : Supervisor.Action} {w : World} {out : List PoolEvent} (ha : isProcessStep a = false)
      (hstep : (system setup.pool).step c.world a = some (w, out)) :
      Steps setup c (.pool a) { c with world := w } out
  | create {pid : Pid} {p : Process} {uuidv7 : String} {clock : Worker.MonotonicClock}
      {startTime : Int} {line : String} {d : Deployment} {s : HttpState}
      (hp : runningProcess c.world pid = some p) (hnode : c.node pid = .spawned)
      (hserver : createServer setup p uuidv7 clock startTime = some (line, d, s)) :
      Steps setup c (.create pid uuidv7 clock startTime)
        (c.advance pid (.created d s) [readLine line]) []
  | listen {pid : Pid} {p : Process} {d : Deployment} {s : HttpState}
      (hp : runningProcess c.world pid = some p) (hnode : c.node pid = .created d s) :
      Steps setup c (.listen pid)
        (c.advance pid (.serving d s) [readLine (readyText setup p s)]) []
  | serve {pid : Pid} {p : Process} {d : Deployment} {s s' : HttpState} {a : HttpAction}
      {o : List HttpEffect} (hp : runningProcess c.world pid = some p)
      (hnode : c.node pid = .serving d s) (hstep : (http d).step s a = some (s', o)) :
      Steps setup c (.serve pid a)
        ((c.advance pid (.serving d s') ((httpLines o).map Server.Line.toStdout)).endIfExited
          pid s') []
  | crash {pid : Pid} {code : Option Int} {w : World} {out : List PoolEvent}
      (hstep : (system setup.pool).step c.world (.exit pid code) = some (w, out)) :
      Steps setup c (.crash pid code) { c with world := w } out

section Steps

variable {setup : Setup} {c c' : State} {a : Action} {out : List PoolEvent}

theorem step_cases (hstep : (cluster setup).step c a = some (c', out)) :
    Steps setup c a c' out := by
  cases a with
  | pool a =>
      obtain ⟨ha, hstep⟩ := Option.ite_none_left_eq_some.mp hstep
      obtain ⟨⟨w, o⟩, hw, heq⟩ := Option.map_eq_some_iff.mp hstep
      obtain ⟨rfl, rfl⟩ := Prod.mk.inj heq
      exact .pool (Bool.eq_false_iff.mpr ha) hw
  | create pid uuidv7 clock startTime =>
      obtain ⟨p, hp, hstep⟩ := Option.bind_eq_some_iff.mp hstep
      split at hstep
      · next hnode =>
        obtain ⟨⟨line, d, s⟩, hserver, heq⟩ := Option.map_eq_some_iff.mp hstep
        obtain ⟨rfl, rfl⟩ := Prod.mk.inj heq
        exact .create hp hnode hserver
      · cases hstep
  | listen pid =>
      obtain ⟨p, hp, hstep⟩ := Option.bind_eq_some_iff.mp hstep
      split at hstep
      · next d s hnode =>
        obtain ⟨rfl, rfl⟩ := Prod.mk.inj (Option.some.inj hstep)
        exact .listen hp hnode
      · cases hstep
  | serve pid a =>
      obtain ⟨p, hp, hstep⟩ := Option.bind_eq_some_iff.mp hstep
      split at hstep
      · next d s hnode =>
        obtain ⟨⟨s', o⟩, hs', heq⟩ := Option.map_eq_some_iff.mp hstep
        obtain ⟨rfl, rfl⟩ := Prod.mk.inj heq
        exact .serve hp hnode hs'
      · cases hstep
  | crash pid code =>
      obtain ⟨⟨w, o⟩, hw, heq⟩ := Option.map_eq_some_iff.mp hstep
      obtain ⟨rfl, rfl⟩ := Prod.mk.inj heq
      exact .crash hw

theorem State.endIfExited_node (c : State) (pid : Pid) (s : HttpState) :
    (c.endIfExited pid s).node = c.node := by
  unfold State.endIfExited
  split <;> rfl

/-- What new servers have and servers keep, every node has after a step. -/
theorem step_nodes {P : Node → Prop} (h : ∀ pid, P (c.node pid))
    (hcreate : ∀ {p uuidv7 clock startTime line d s},
      createServer setup p uuidv7 clock startTime = some (line, d, s) → P (.created d s))
    (hlisten : ∀ {d s}, P (.created d s) → P (.serving d s))
    (hserve : ∀ {pid b d s s' o}, a = .serve pid b → (http d).step s b = some (s', o) →
      P (.serving d s) → P (.serving d s'))
    (hstep : (cluster setup).step c a = some (c', out)) : ∀ pid, P (c'.node pid) := by
  have hadvance : ∀ pid {node : Node}, P node →
      ∀ pid', P (Function.update c.node pid node pid') := by
    intro pid node hnode pid'
    by_cases hpid : pid' = pid
    · subst hpid
      rw [Function.update_self]
      exact hnode
    · rw [Function.update_of_ne hpid]
      exact h pid'
  cases step_cases hstep with
  | pool ha hworld => exact h
  | create hp hnode hserver => exact hadvance _ (hcreate hserver)
  | @listen pid p d s hp hnode => exact hadvance pid (hlisten (hnode ▸ h pid))
  | @serve pid p d s s' b o hp hnode hserve' =>
      intro pid'
      rw [State.endIfExited_node]
      exact hadvance pid (hserve rfl hserve' (hnode ▸ h pid)) pid'
  | crash hworld => exact h

/-- A new server has the id of its process and has started no drain. -/
theorem createServer_fits {p : Process} {uuidv7 : String} {clock : Worker.MonotonicClock}
    {startTime : Int} {line : String} {d : Deployment} {s : HttpState}
    (h : createServer setup p uuidv7 clock startTime = some (line, d, s)) :
    readLine line = .other line ∧ (Node.created d s).Fits p.workerId := by
  obtain ⟨d', -, h⟩ := Option.bind_eq_some_iff.mp h
  obtain ⟨worker, hworker, h⟩ := Option.bind_eq_some_iff.mp h
  obtain ⟨rfl, heq⟩ := Prod.mk.inj (Option.some.inj h)
  obtain ⟨rfl, rfl⟩ := Prod.mk.inj heq
  have hid : (Config.ofEnv (setup.environment p) uuidv7).workerId = p.workerId := by
    show ((setup.workerConfig p).environment setup.inherited "WORKER_ID").getD uuidv7 = p.workerId
    rw [WorkerConfig.environment_workerId (c := setup.workerConfig p) (List.not_mem_nil),
      Option.getD_some]
    rfl
  have hworkerId : worker.configManager.workerId = p.workerId :=
    (Worker.workerId_of_new hworker).trans hid
  exact ⟨readLine_modeLine _ _, ⟨_, [], [], ⟨_, worker, clock, hworker, rfl⟩, rfl, hworkerId⟩, rfl⟩

theorem RanFrom.workerId {settings : Worker.Settings} {id : WorkerId} {w : Worker.Instance}
    (h : RanFrom settings id w) : w.worker.configManager.workerId = id := by
  obtain ⟨w₀, as, out, hnew, hrun, hid⟩ := h
  exact (Worker.run_tells hnew hrun).workerId.trans hid

theorem RanFrom.step {settings : Worker.Settings} {id : WorkerId} {w w' : Worker.Instance}
    {a : Worker.Action} {o : List Worker.Effect} (h : RanFrom settings id w)
    (hstep : (Worker.worker settings).step w a = some (w', o)) : RanFrom settings id w' := by
  obtain ⟨w₀, as, out, hnew, hrun, hid⟩ := h
  exact ⟨w₀, as ++ [a], out ++ o, hnew,
    (Worker.worker settings).run_concat_iff.mpr ⟨w, out, o, hrun, hstep, rfl⟩, hid⟩

/-- A step of a server keeps the id of its worker. -/
theorem Node.Fits.serves {d : Deployment} {s s' : HttpState} {o : List HttpEffect} {id : WorkerId}
    (h : (Node.serving d s).Fits id) (hprints : StepPrints d s s' o) :
    (Node.serving d s').Fits id := by
  have hran : RanFrom d.settings id s.server.worker := h
  cases hprints with
  | still hs ho =>
      rw [Node.Fits, hs]
      exact hran
  | steps a out hstep ho =>
      cases step_worker hstep with
      | still hw ho' =>
          rw [Node.Fits, hw]
          exact hran
      | submitted ha haccepting hstep' => exact hran.step hstep'
      | inner ha hinner hstep' => exact hran.step hstep'

/-- The ready line of a process is read as what it says. -/
theorem readLine_readyText {p : Process} {s : HttpState} (hid : s.server.workerId = p.workerId) :
    readLine (readyText setup p s) =
      .event "worker.ready" (some (listenPort p.port).toNat) (some p.workerId)
        (readyText setup p s) := by
  have hport : serverPort (setup.environment p) = .ofNat (listenPort p.port).toNat :=
    serverPort_spawned (WorkerConfig.environment_port (c := setup.workerConfig p) List.not_mem_nil)
  have hlt := (listenPort p.port).toNat_lt
  rw [readyText, hport, readLine_readySignal (by omega), hid]

theorem Inv.fits (h : Inv c) {pid : Pid} {p : Process} (hp : runningProcess c.world pid = some p)
    {node : Node} (hnode : c.node pid = node) (hne : node ≠ .spawned) : node.Fits p.workerId := by
  subst hnode
  obtain ⟨a, ha, hfits⟩ := (h.nodes pid).resolve_left hne
  rw [World.addressOf, (runningProcess_eq_some.mp hp).1] at ha
  obtain rfl := Option.some.inj ha
  exact hfits

/-- The supervised system does what a step of the cluster does. -/
theorem step_simulates (h : Inv c) (hstep : (cluster setup).step c a = some (c', out)) :
    ∃ as, Simulates setup c c' as out (c.received a) := by
  cases step_cases hstep with
  | pool ha hworld =>
      refine ⟨_, Simulates.of_step hworld ?_⟩
      rintro pid line rfl
      cases ha
  | create hp hnode hserver =>
      refine ⟨_, Simulates.of_advance hp ?_⟩
      rw [(createServer_fits hserver).1, hnode]
      rfl
  | @listen pid p d s hp hnode =>
      refine ⟨_, Simulates.of_advance hp ?_⟩
      obtain ⟨hran, hdrains⟩ := h.fits hp hnode Node.noConfusion
      rw [hnode]
      show _ = some (Stage.serving (pending s.server.drains))
      rw [hdrains, readLine_readyText hran.workerId]
      simp [eventsOf, Line.toEvent, Stage.next, Node.stage, pending]
  | @serve pid p d s s' a o hp hnode hserve =>
      have hran : RanFrom d.settings p.workerId s.server.worker :=
        h.fits hp hnode Node.noConfusion
      have hprinted : accept (Stage.next p.workerId p.port) (c.node pid).stage
          (eventsOf ((httpLines o).map Server.Line.toStdout)) =
            some (Node.serving d s').stage := by
        rw [hnode, ← hran.workerId]
        cases step_prints hserve with
        | still hs ho =>
            rw [ho]
            show some _ = some (Stage.serving (pending s'.server.drains))
            rw [hs]
            rfl
        | steps a' out' hserver ho =>
            rw [ho]
            exact server_accepts p.port hserver
      have hadvance : Simulates setup c _ _ _ _ := Simulates.of_advance hp hprinted
      unfold State.endIfExited
      split
      -- the process ends after what it printed
      · have hrun : (print c.world pid ((httpLines o).map Server.Line.toStdout)).isRunning pid =
            true := by
          rw [isRunning_print]
          exact World.isRunning_iff.mpr ⟨p, runningProcess_eq_some.mp hp⟩
        have hexit : Simulates setup
            (c.advance pid (.serving d s') ((httpLines o).map Server.Line.toStdout)) _
            [.exit pid (some 0)] _ _ :=
          Simulates.of_step (if_pos hrun) (by simp)
        exact ⟨_, hadvance.trans hexit (h.placed.keeps (print_keeps _ _ _))⟩
      · exact ⟨_, hadvance⟩
  | crash hworld => exact ⟨_, Simulates.of_step hworld (by simp)⟩

theorem Inv.step (h : Inv c) (hstep : (cluster setup).step c a = some (c', out)) : Inv c' := by
  obtain ⟨as, hsim⟩ := step_simulates h hstep
  have hplaced : Placed c'.world :=
    (system setup.pool).run_invariant (fun _ _ _ _ hu hs => hu.step hs) h.placed hsim.run
  refine ⟨hplaced, fun pid' => ?_⟩
  -- a node that stays still fits
  have hkept : c.node pid' = .spawned ∨
      ∃ a, c'.world.addressOf pid' = some a ∧ (c.node pid').Fits a.1 :=
    (h.nodes pid').imp_right fun ⟨a, ha, hfits⟩ => ⟨a, hsim.addressOf h.placed ha, hfits⟩
  have hmoved : ∀ {pid p}, runningProcess c.world pid = some p → ∀ {node : Node},
      node.Fits p.workerId → Function.update c.node pid node pid' = .spawned ∨
        ∃ a, c'.world.addressOf pid' = some a ∧
          (Function.update c.node pid node pid').Fits a.1 := by
    intro pid p hp node hfits
    by_cases hpid : pid' = pid
    · subst hpid
      rw [Function.update_self]
      refine .inr ⟨(p.workerId, p.port), hsim.addressOf h.placed ?_, hfits⟩
      rw [World.addressOf, (runningProcess_eq_some.mp hp).1]
      rfl
    · rwa [Function.update_of_ne hpid]
  cases step_cases hstep with
  | pool ha hworld => exact hkept
  | create hp hnode hserver => exact hmoved hp (createServer_fits hserver).2
  | listen hp hnode => exact hmoved hp (h.fits hp hnode Node.noConfusion).1
  | serve hp hnode hserve =>
      rw [State.endIfExited_node]
      have hfits := h.fits hp hnode Node.noConfusion
      exact hmoved hp (hfits.serves (step_prints hserve))
  | crash hworld => exact hkept

end Steps

/-! ## Runs -/

section Runs

variable {setup : Setup} {w₀ : World} {workerIds : List WorkerId} {c₀ c : State}
variable {as : List Action}

theorem inv_init (hnew : World.new setup.pool = some w₀) :
    Inv (.init (w₀.start setup.pool workerIds).1) :=
  ⟨World.start_placed setup.pool hnew workerIds, fun _ => .inl rfl⟩

theorem run_simulates (h : Inv c₀) {out : List PoolEvent}
    (hrun : (cluster setup).run c₀ as = some (c, out)) :
    ∃ as' handled, Simulates setup c₀ c as' out handled := by
  refine ((cluster setup).run_history
    (J := fun _ out c => Inv c ∧ ∃ as' handled, Simulates setup c₀ c as' out handled)
    ?_ ⟨h, [], [], .refl c₀⟩ hrun).2
  rintro as out u a u' o - ⟨hu, as', handled, hsim⟩ hstep
  obtain ⟨as'', hsim'⟩ := step_simulates hu hstep
  exact ⟨hu.step hstep, _, _, hsim.trans hsim' hu.placed⟩

theorem run_simulates_handled (h : Inv c₀) {handled : List Posted}
    (hrun : ((cluster setup).record State.received).run c₀ as = some (c, handled)) :
    ∃ as' out, Simulates setup c₀ c as' out handled := by
  refine (((cluster setup).record State.received).run_history
    (J := fun _ handled c => Inv c ∧ ∃ as' out, Simulates setup c₀ c as' out handled)
    ?_ ⟨h, [], [], .refl c₀⟩ hrun).2
  rintro as handled u a u' o - ⟨hu, as', out, hsim⟩ hstep
  obtain ⟨⟨out', hout⟩, rfl⟩ := Machine.record_step_iff.mp hstep
  obtain ⟨as'', hsim'⟩ := step_simulates hu hout
  exact ⟨hu.step hout, _, _, hsim.trans hsim' hu.placed⟩

/-- In every run of the cluster, the events that the pool announces about an id follow their
grammar. -/
theorem cluster_grammar {out : List PoolEvent} (hnew : World.new setup.pool = some w₀)
    (hrun : (cluster setup).run (.init (w₀.start setup.pool workerIds).1) as = some (c, out))
    (id : WorkerId) :
    FollowsGrammar id (named id ((w₀.start setup.pool workerIds).2 ++ out)) := by
  obtain ⟨as', handled, hsim⟩ := run_simulates (inv_init hnew) hrun
  exact genuine_grammar hnew hsim.run hsim.genuine id

/-- In every run of the cluster, the pool announces a worker as healthy only after a worker
of its id was announced as spawned, on the port that was given to it or on the port on which
it listens then. -/
theorem cluster_addresses {out : List PoolEvent} (hnew : World.new setup.pool = some w₀)
    (hrun : (cluster setup).run (.init (w₀.start setup.pool workerIds).1) as = some (c, out)) :
    HealthyAfterSpawned listenPort ((w₀.start setup.pool workerIds).2 ++ out) := by
  obtain ⟨as', handled, hsim⟩ := run_simulates (inv_init hnew) hrun
  exact healthy_after_spawned hnew hsim.run hsim.genuine

/-- In every run of the cluster, what the pool has handled of the output of a process and what
is under way follows the grammar of a process, and leads to the stage where the process is. -/
theorem cluster_process_events {handled : List Posted} (hstart : Started setup.pool w₀)
    (hrun : ((cluster setup).record State.received).run (.init w₀) as = some (c, handled))
    {pid : Pid} {p : Process} (hp : c.world.procs[pid]? = some p) :
    accept (Stage.next p.workerId p.port) .spawned
      (handled.filterMap (Posted.printedBy pid) ++ c.world.underWay pid) =
        some (c.node pid).stage := by
  have hinv : Inv (.init w₀) := by
    obtain ⟨w, ids, hnew, -, -, rfl⟩ := hstart
    exact inv_init hnew
  obtain ⟨as', out, hsim⟩ := run_simulates_handled hinv hrun
  have hdelivered := run_delivers hsim.recorded pid
  rw [show (State.init w₀).world.underWay pid = [] from hstart.underWay pid,
    List.nil_append] at hdelivered
  rw [hdelivered]
  refine hsim.stages pid p.workerId p.port fun a ha => ?_
  rw [World.addressOf, hp] at ha
  exact (Option.some.inj ha).symm

end Runs

/-! ## A run -/

/-- A cluster of one worker, in an empty environment. -/
def oneWorkerSetup : Setup where
  pool := oneWorker
  authSecret := none
  openaiApiKey := none
  anthropicApiKey := none
  inherited := fun _ => none
  runtime := ⟨id, fun _ payload => toString payload, id, .ofMessage ""⟩

theorem oneWorkerSetup_new : World.new oneWorkerSetup.pool = some ⟨∅, [], []⟩ := rfl

/-- The worker comes up and the pool hears of it. -/
def comesUp : List Action :=
  [.create 0 "" ⟨0⟩ 0, .pool (.readStdout 0), .listen 0, .pool (.tryRecvEvent 1),
    .pool (.readStdout 0), .pool (.tryRecvEvent 2)]

theorem comesUp_runs :
    ((cluster oneWorkerSetup).run (.init oneWorkerStarted) comesUp).isSome = true := by
  decide +kernel

theorem cluster_grammar_comesUp : ∃ c out,
    (cluster oneWorkerSetup).run (.init oneWorkerStarted) comesUp = some (c, out) ∧
      FollowsGrammar "l0-1" (named "l0-1" (.workerSpawned "l0-1" 3001 :: out)) := by
  obtain ⟨⟨c, out⟩, hrun⟩ := Option.isSome_iff_exists.mp comesUp_runs
  exact ⟨c, out, hrun, cluster_grammar oneWorkerSetup_new hrun "l0-1"⟩

theorem cluster_addresses_comesUp : ∃ c out,
    (cluster oneWorkerSetup).run (.init oneWorkerStarted) comesUp = some (c, out) ∧
      HealthyAfterSpawned listenPort (.workerSpawned "l0-1" 3001 :: out) := by
  obtain ⟨⟨c, out⟩, hrun⟩ := Option.isSome_iff_exists.mp comesUp_runs
  exact ⟨c, out, hrun, cluster_addresses oneWorkerSetup_new hrun⟩

theorem cluster_process_events_comesUp : ∃ c handled,
    ((cluster oneWorkerSetup).record State.received).run (.init oneWorkerStarted) comesUp =
      some (c, handled) ∧
    accept (Stage.next "l0-1" 3001) .spawned
      (handled.filterMap (Posted.printedBy 0) ++ c.world.underWay 0) = some (c.node 0).stage := by
  have hprocs : (((cluster oneWorkerSetup).record State.received).run (.init oneWorkerStarted)
      comesUp).map (fun r => r.1.world.procs.map Process.address) = some [("l0-1", 3001)] := by
    decide +kernel
  obtain ⟨⟨c, handled⟩, hrun, heq⟩ := Option.map_eq_some_iff.mp hprocs
  obtain ⟨p, hp, haddress⟩ := List.map_eq_singleton_iff.mp heq
  obtain ⟨hid, hport⟩ := Prod.mk.inj haddress
  have hproc : c.world.procs[0]? = some p := by
    rw [hp]
    rfl
  have hevents := cluster_process_events oneWorker_started hrun hproc
  rw [hid, hport] at hevents
  exact ⟨c, handled, hrun, hevents⟩

end L0Worker.Cluster
