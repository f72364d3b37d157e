import L0Worker.Cluster.Spawn
import L0Worker.Lib.Automaton
import L0Worker.Worker.Truthful

/-!
# The life of a worker process

A process creates its worker and prints its mode, listens and prints the ready line, and then
serves requests, each drain of which prints `worker.draining` when it starts and
`worker.drained` when it is over.  `Stage.next` is this grammar, for the events that the
supervisor reads; it counts the drains that are under way.

`server_accepts` says that a step of a server prints what the grammar allows, and `step_prints`
that behind HTTP it prints nothing else.
-/

namespace L0Worker.Cluster

open Server Supervisor
open Worker (Settings)

/-! ## The grammar -/

/-- How far a process got, as its lines tell. -/
inductive Stage where
  | spawned
  /-- It has created its worker. -/
  | created
  /-- It listens, with this many drains under way. -/
  | serving (drains : ℕ)
deriving DecidableEq

/-- The events of a process with this id and port, letter by letter. -/
def Stage.next (id : WorkerId) (port : Port) : Stage → WorkerEvent → Option Stage
  | .spawned, .stdout _ => some .created
  | .created, .ready port' id' =>
      if port' = listenPort port ∧ id' = id then some (.serving 0) else none
  | .serving n, .draining id' => if id' = id then some (.serving (n + 1)) else none
  | .serving (n + 1), .drained id' => if id' = id then some (.serving n) else none
  | _, _ => none

/-- The events that the supervisor reads in the lines. -/
def eventsOf (ls : List Supervisor.Line) : List WorkerEvent := ls.filterMap Line.toEvent

theorem eventsOf_append (ls ls' : List Supervisor.Line) :
    eventsOf (ls ++ ls') = eventsOf ls ++ eventsOf ls' :=
  List.filterMap_append ..

/-! ## What a server prints -/

/-- The drains that are under way. -/
def pending (drains : List DrainLoop) : ℕ := drains.countP fun d => !d.returned

theorem pending_append (drains : List DrainLoop) (d : DrainLoop) :
    pending (drains ++ [d]) = pending drains + if d.returned then 0 else 1 := by
  unfold pending
  rw [List.countP_append, List.countP_singleton]
  cases d.returned <;> rfl

/-- A drain that is polled was under way. -/
theorem pending_set {drains : List DrainLoop} {k : ℕ} {d : DrainLoop}
    (hd : drains[k]? = some d) (hwaiting : d.returned = false) (d' : DrainLoop) :
    ∃ n, pending drains = n + 1 ∧
      pending (drains.set k d') = n + if d'.returned then 0 else 1 := by
  obtain ⟨hk, hget⟩ := List.getElem?_eq_some_iff.mp hd
  have hpos : 0 < pending drains :=
    List.countP_pos_iff.mpr ⟨d, List.mem_of_getElem? hd, by simp [hwaiting]⟩
  obtain ⟨n, hn⟩ := Nat.exists_eq_succ_of_ne_zero (Nat.ne_of_gt hpos)
  refine ⟨n, hn, ?_⟩
  have hset := List.countP_set (p := fun d : DrainLoop => !d.returned) (a := d') hk
  rw [hget, hwaiting] at hset
  unfold pending at hn ⊢
  rw [hset, hn]
  cases d'.returned <;> rfl

section Server

variable {settings : Settings} {s s' : ServerState} {a : ServerAction} {o : List ServerEffect}

/-- What a step of a server prints leads from the drains under way before it to those after
it. -/
theorem server_accepts (port : Port) (hstep : (server settings).step s a = some (s', o)) :
    accept (Stage.next s.workerId port) (.serving (pending s.drains))
      (eventsOf ((lines o).map Server.Line.toStdout)) = some (.serving (pending s'.drains)) := by
  cases step_drains hstep with
  | silent ha hdrains hls =>
      rw [hls, hdrains]
      rfl
  | @started d ended ha hdrains hls hended =>
      rw [hls, hdrains, pending_append]
      rcases hended with ⟨hreturned, rfl⟩ | ⟨hreturned, pending', rfl⟩
      · rw [hreturned]
        simp [eventsOf, Server.Line.toStdout, Server.Line.event, Server.Line.workerId, Line.toEvent,
          Stage.next]
      · rw [hreturned]
        simp [eventsOf, Server.Line.toStdout, Server.Line.event, Server.Line.workerId, Line.toEvent,
          Stage.next]
  | @polled k d d' ha hd hwaiting hdrains hended =>
      obtain ⟨n, hn, hset⟩ := pending_set hd hwaiting d'
      rw [hdrains, hset, hn]
      rcases hended with ⟨hreturned, hls⟩ | ⟨hreturned, pending', hls⟩
      · rw [hreturned, hls]
        rfl
      · rw [hreturned, hls]
        simp [eventsOf, Server.Line.toStdout, Server.Line.event, Server.Line.workerId, Line.toEvent,
          Stage.next]

end Server

/-! ## What a server behind HTTP prints -/

/-- The lines that are printed, in order. -/
def httpLines (o : List HttpEffect) : List Server.Line :=
  o.filterMap fun e => match e with
    | .server e => e.line?
    | .responded _ => none

theorem httpLines_ofServer (details : Json) (o : List ServerEffect) :
    httpLines (o.map (.ofServer details)) = lines o := by
  induction o with
  | nil => rfl
  | cons e o ih =>
      cases e with
      | printed line =>
          show line :: httpLines (o.map (.ofServer details)) = line :: lines o
          rw [ih]
      | _ => exact ih

/-- What a step does to the server and prints: nothing, or one step of the server. -/
inductive StepPrints (d : Deployment) (s s' : HttpState) (o : List HttpEffect) : Prop where
  | still (hs : s'.server = s.server) (ho : httpLines o = [])
  | steps (a : ServerAction) (out : List ServerEffect)
      (hstep : (server d.settings).step s.server a = some (s'.server, out))
      (ho : httpLines o = lines out)

theorem runServer_prints {d : Deployment} {s : HttpState} {a : ServerAction}
    {r : ServerState × List ServerEffect} (h : (server d.settings).step s.server a = some r) :
    StepPrints d s (s.runServer .null r).1 (s.runServer .null r).2 :=
  .steps a r.2 h (httpLines_ofServer .null r.2)

/-- What a handled request prints. -/
theorem handled_prints {d : Deployment} {s : HttpState} {r : Request} {env : RequestEnv}
    {p : HttpState × List HttpEffect} (hrunning : ¬ s.server.exited = true)
    (h : Handled d s r env p) : StepPrints d s p.1 p.2 := by
  cases h with
  | refused answer hstatus => exact .still rfl rfl
  | status hpath => exact .still rfl rfl
  | @submit v m hpath hbody hm hvalid =>
      exact runServer_prints
        (a := .submit (.request ⟨m.taskId, m.payload⟩ none) env.turn) (if_neg hrunning)
  | replay hpath hbody hm hvalid replays => exact .still rfl rfl
  | @config v m hpath hmethod hbody hm hid hallowed =>
      rw [HttpState.applyConfig, if_neg (not_not_intro hid)]
      exact .steps (.worker (.updateConfig m.update))
        [.worker (.configUpdated (s.server.worker.worker.updateConfig m.update).1)]
        (if_neg hrunning) rfl
  | drain hpath hallowed =>
      exact runServer_prints (a := .drain none env.drainStart env.drainNow) (if_neg hrunning)

theorem step_prints {d : Deployment} {s s' : HttpState} {a : HttpAction} {o : List HttpEffect}
    (hstep : (http d).step s a = some (s', o)) : StepPrints d s s' o := by
  obtain ⟨hrunning, hstep⟩ := Option.ite_none_left_eq_some.mp hstep
  cases a with
  | request r env =>
      have hprints := handled_prints hrunning (handleRequest_handled d s r env)
      rw [Option.some.inj hstep] at hprints
      exact hprints
  | resumeReplay k =>
      obtain ⟨p, -, hstep⟩ := Option.bind_eq_some_iff.mp hstep
      obtain ⟨-, hstep⟩ := Option.ite_none_left_eq_some.mp hstep
      have hr := Option.some.inj hstep
      unfold HttpState.resumeReplay at hr
      dsimp only at hr
      split at hr
      · obtain ⟨rfl, rfl⟩ := Prod.mk.inj hr
        exact .still rfl rfl
      · obtain ⟨rfl, rfl⟩ := Prod.mk.inj hr
        exact .steps (.worker (.replay p.request)) [] (if_neg hrunning) rfl
  | internal a =>
      obtain ⟨-, hstep⟩ := Option.ite_none_right_eq_some.mp hstep
      obtain ⟨r, hr, heq⟩ := Option.map_eq_some_iff.mp hstep
      obtain ⟨rfl, rfl⟩ := Prod.mk.inj heq
      exact runServer_prints hr

end L0Worker.Cluster
