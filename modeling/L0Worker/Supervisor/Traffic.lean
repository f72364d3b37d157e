import L0Worker.Supervisor.Restart

/-!
# Lines and events under way

What a process prints passes through its pipe, its reader task and the event channel
before the pool handles it.  The pool handles one event at a time, reader tasks of many
processes post in any order, stderr lines and exits come in between, and processes end,
are restarted and replaced meanwhile.

`step_carries` says what one step does to the pipes and the channel.  From it follow
`run_delivers` and `lines_delivered`: what the pool has handled of a process, followed by what
is under way, is what the process has printed, each line once and in order.
-/

namespace L0Worker.Supervisor

/-! ## Views of the traffic -/

/-- The lines of a process that its reader task has not read yet. -/
def World.pipeOf (w : World) (pid : Pid) : List Line :=
  (w.procs[pid]?).elim [] Process.pipe

/-- The event comes from a line on stdout. -/
def WorkerEvent.isStdout : WorkerEvent → Bool
  | .ready _ _ | .draining _ | .drained _ | .stdout _ => true
  | .exited _ _ | .stderr _ => false

/-- The event, if it comes from a line that the process printed on stdout. -/
def Posted.printedBy (pid : Pid) (e : Posted) : Option WorkerEvent :=
  if e.source = pid ∧ e.event.isStdout then some e.event else none

/-- The line that the step prints, if it is one of the process. -/
def Action.printedBy (pid : Pid) : Action → Option Line
  | .print pid' line => if pid' = pid then some line else none
  | _ => none

/-- The event that the pool handles in the step. -/
def World.received (w : World) : Action → List Posted
  | .tryRecvEvent _ => w.eventRx.head?.toList
  | _ => []

/-- The events that are under way from a process to the pool. -/
def World.underWay (w : World) (pid : Pid) : List WorkerEvent :=
  w.eventRx.filterMap (Posted.printedBy pid) ++ (w.pipeOf pid).filterMap Line.toEvent

theorem Line.isStdout_of_toEvent {line : Line} {e : WorkerEvent} (h : line.toEvent = some e) :
    e.isStdout = true := by
  unfold Line.toEvent at h
  split at h
  · obtain ⟨p, -, rfl⟩ := Option.map_eq_some_iff.mp h
    rfl
  all_goals
    obtain rfl := Option.some.inj h
    rfl

/-! ## Steps that carry nothing -/

/-- The same lines and the same events are under way. -/
structure Quiet (w w' : World) : Prop where
  eventRx : w'.eventRx = w.eventRx
  pipeOf : ∀ pid, w'.pipeOf pid = w.pipeOf pid

namespace Quiet

theorem refl (w : World) : Quiet w w := ⟨rfl, fun _ => rfl⟩

theorem trans {w₁ w₂ w₃ : World} (h : Quiet w₁ w₂) (h' : Quiet w₂ w₃) : Quiet w₁ w₃ :=
  ⟨h'.eventRx.trans h.eventRx, fun pid => (h'.pipeOf pid).trans (h.pipeOf pid)⟩

theorem workers {w w' : World} (h : Quiet w w') (workers : Workers) :
    Quiet w { w' with workers := workers } :=
  ⟨h.eventRx, h.pipeOf⟩

theorem endProcess (w : World) (pid : Pid) (code : Option Int) :
    Quiet w (w.endProcess pid code) := by
  refine ⟨rfl, fun pid' => ?_⟩
  have hpipe : ∀ p : Process, (p.ended code).pipe = p.pipe := by
    intro p
    unfold Process.ended
    split <;> rfl
  unfold World.pipeOf World.endProcess
  rw [List.getElem?_modify]
  cases w.procs[pid']? with
  | none => rfl
  | some p =>
      show (if pid = pid' then p.ended code else p).pipe = p.pipe
      split
      · exact hpipe p
      · rfl

theorem kill (w : World) (pid : Pid) (killed : Bool) : Quiet w (w.kill pid killed) := by
  unfold World.kill
  split
  · exact endProcess w pid none
  · exact refl w

/-- A new process has printed nothing. -/
theorem spawn (w : World) (id : WorkerId) (port : Port) :
    Quiet w { w with procs := w.procs ++ [⟨id, port, .running, []⟩] } := by
  refine ⟨rfl, fun pid => ?_⟩
  unfold World.pipeOf
  dsimp only
  rw [List.getElem?_append]
  split
  · rfl
  · next hle =>
    rw [List.getElem?_eq_none (Nat.le_of_not_lt hle)]
    cases pid - w.procs.length with
    | zero => rfl
    | succ k => rfl

theorem forEach {τ : Type} {step : World → τ → World × List PoolEvent}
    (hstep : ∀ w t, Quiet w (step w t).1) (ts : List τ) (w : World) :
    Quiet w (forEach step w ts).1 :=
  forEach_rec (I := fun _ w' => Quiet w w') (fun t _ w' h => h.trans (hstep w' t)) (refl w)

end Quiet

section Quiet

variable (config : PoolConfig) (w : World)

theorem World.handleWorkerEvent_quiet (now : Instant) (e : WorkerEvent) :
    Quiet w (w.handleWorkerEvent config now e).1 := by
  cases e with
  | exited id code =>
      unfold World.handleWorkerEvent
      dsimp only
      split
      · exact (Quiet.refl w).workers _
      · exact Quiet.refl w
  | ready port id => exact (Quiet.refl w).workers _
  | draining id => exact (Quiet.refl w).workers _
  | drained id => exact Quiet.refl w
  | stdout line => exact Quiet.refl w
  | stderr line => exact Quiet.refl w

theorem World.checkOne_quiet (env : HealthEnv) (target : WorkerId × Port) :
    Quiet w (w.checkOne config env target).1 := by
  unfold World.checkOne
  split
  · exact Quiet.refl w
  · dsimp only
    split
    · exact (Quiet.kill w _ _).workers _
    · exact (Quiet.refl w).workers _

theorem World.restartOne_quiet (spawned : WorkerId → Except String Unit)
    (due : WorkerId × Port × UInt32) : Quiet w (w.restartOne spawned due).1 := by
  cases hs : spawned due.1 with
  | error e =>
      rw [World.restartOne, hs]
      exact (Quiet.refl w).workers _
  | ok u =>
      rw [World.restartOne, hs]
      exact (Quiet.spawn w due.1 due.2.1).workers _

theorem World.spawnNewWorker_quiet (newId : WorkerId) (spawned : Except String Unit) :
    Quiet w (w.spawnNewWorker config newId spawned).2.1 := by
  unfold World.spawnNewWorker
  split
  · exact Quiet.refl w
  · next port _ =>
    cases spawned with
    | error e => exact Quiet.refl w
    | ok u => exact (Quiet.spawn w newId port).workers _

theorem World.drainWorker_quiet (id : WorkerId) : Quiet w (w.drainWorker id).2 := by
  unfold World.drainWorker
  split
  · exact Quiet.refl w
  · exact (Quiet.refl w).workers _

theorem World.killWorker_quiet (id : WorkerId) (killed : Bool) :
    Quiet w (w.killWorker id killed).2 := by
  unfold World.killWorker
  split
  · exact Quiet.refl w
  · dsimp only
    split
    · exact (Quiet.kill w _ killed).workers _
    · exact (Quiet.refl w).workers _

/-- A restart by the API carries nothing after its wait. -/
theorem World.restartWorker_quiet (id newId : WorkerId) (env : RestartEnv) :
    Quiet w (w.restartWorker config id newId env).2.1 ∨
      ∃ k, w.workerOf id = some k ∧
        Quiet (w.wait k env.wait) (w.restartWorker config id newId env).2.1 := by
  unfold World.restartWorker
  split
  · exact .inl (Quiet.refl w)
  · next m hm =>
    have hk := World.workerOf_of_lookup hm
    cases env.spawned with
    | error e =>
        simp only [World.spawnWorker_error]
        split
        · exact .inr ⟨m.worker, hk, (Quiet.refl _).workers _⟩
        · exact .inl ((Quiet.refl w).workers _)
    | ok u =>
        cases u
        simp only [World.spawnWorker_ok]
        split
        · exact .inr ⟨m.worker, hk, (Quiet.spawn _ newId m.worker.port).workers _⟩
        · exact .inl ((Quiet.spawn w newId m.worker.port).workers _)

end Quiet

/-! ## What a step carries -/

/-- What is posted besides lines of stdout: a line of stderr, or the exit of the process of
an entry. -/
inductive PostedAside (w : World) : Posted → Prop where
  | stderr (pid : Pid) (line : String) : PostedAside w ⟨pid, .stderr line⟩
  | exited {id : WorkerId} {k : Worker} (hk : w.workerOf id = some k) (code : Option Int) :
      PostedAside w ⟨k.child, .exited k.workerId code⟩

theorem PostedAside.isStdout {w : World} {e : Posted} (h : PostedAside w e) :
    e.event.isStdout = false := by
  cases h <;> rfl

/-- What a step does to the lines and the events under way. -/
inductive Carries (w : World) (a : Action) (w' : World) : Prop where
  | nothing (hreceived : w.received a = []) (hprinted : ∀ pid, a.printedBy pid = none)
      (h : Quiet w w')
  /-- The pool takes an event from the channel. -/
  | received {e : Posted} {rest : List Posted} (hreceived : w.received a = [e])
      (hprinted : ∀ pid, a.printedBy pid = none) (hq : w.eventRx = e :: rest)
      (h : Quiet { w with eventRx := rest } w')
  /-- A process prints a line. -/
  | printed {pid : Pid} {line : Line} (ha : a = .print pid line)
      (hrx : w'.eventRx = w.eventRx) (hpipe : w'.pipeOf pid = w.pipeOf pid ++ [line])
      (hother : ∀ pid', pid' ≠ pid → w'.pipeOf pid' = w.pipeOf pid')
  /-- A reader task takes a line. -/
  | read {pid : Pid} {line : Line} (hreceived : w.received a = [])
      (hprinted : ∀ pid, a.printedBy pid = none)
      (hrx : w'.eventRx = w.eventRx ++ (line.toEvent.map fun e => ⟨pid, e⟩).toList)
      (hpipe : w.pipeOf pid = line :: w'.pipeOf pid)
      (hother : ∀ pid', pid' ≠ pid → w'.pipeOf pid' = w.pipeOf pid')
  | posted {e : Posted} (hreceived : w.received a = []) (hprinted : ∀ pid, a.printedBy pid = none)
      (haside : PostedAside w e) (h : Quiet { w with eventRx := w.eventRx ++ [e] } w')

/-- Lines of a process. -/
theorem World.pipeOf_modify (w : World) (pid : Pid) {p : Process} (hp : w.procs[pid]? = some p)
    (f : List Line → List Line) (pid' : Pid) :
    World.pipeOf { w with procs := w.procs.modify pid fun p => { p with pipe := f p.pipe } } pid' =
      if pid = pid' then f (w.pipeOf pid) else w.pipeOf pid' := by
  unfold World.pipeOf
  rw [List.getElem?_modify]
  split
  · next heq =>
    subst heq
    rw [hp]
    rfl
  · cases w.procs[pid']? <;> rfl

theorem World.readStdout_carries {w w' : World} {pid : Pid} (h : w.readStdout pid = some w') :
    Carries w (.readStdout pid) w' := by
  unfold World.readStdout at h
  split at h
  · cases h
  · next p hp =>
    split at h
    · cases h
    · next line rest hpipe =>
      have hline : w.pipeOf pid = line :: rest := by
        rw [World.pipeOf, hp]
        exact hpipe
      have hrest := fun pid' => w.pipeOf_modify pid hp (fun _ => rest) pid'
      have hself := (hrest pid).trans (if_pos rfl)
      have hother : ∀ pid', pid' ≠ pid → _ := fun pid' hne => (hrest pid').trans (if_neg hne.symm)
      dsimp only at h
      cases he : line.toEvent with
      | none =>
          rw [he] at h
          obtain rfl := Option.some.inj h
          have hread : w.pipeOf pid = line :: World.pipeOf { w with
              procs := w.procs.modify pid fun p => { p with pipe := rest } } pid := by
            rw [hline, hself]
          refine .read rfl (fun _ => rfl) ?_ hread hother
          rw [he]
          exact (List.append_nil _).symm
      | some e =>
          rw [he] at h
          obtain ⟨-, h⟩ := Option.ite_none_right_eq_some.mp h
          obtain rfl := Option.some.inj h
          refine .read rfl (fun _ => rfl) ?_ (hline.trans (congrArg _ hself.symm)) hother
          rw [he]
          rfl

/-- What does not come from stdout is posted or dropped. -/
theorem World.post_carries {w u w' : World} {a : Action} {e : Posted}
    (hreceived : w.received a = []) (hprinted : ∀ pid, a.printedBy pid = none)
    (haside : PostedAside w e) (hu : Quiet w u) (h : Quiet (u.post e) w') :
    Carries w a w' := by
  unfold World.post at h
  split at h
  · refine .posted hreceived hprinted haside ⟨?_, ?_⟩
    · rw [h.eventRx, hu.eventRx]
    · exact fun pid => (h.pipeOf pid).trans (hu.pipeOf pid)
  · exact .nothing hreceived hprinted (hu.trans h)

theorem step_carries {config : PoolConfig} {w w' : World} {a : Action} {out : List PoolEvent}
    (hstep : (system config).step w a = some (w', out)) : Carries w a w' := by
  cases a with
  | tryRecvEvent now =>
      obtain ⟨rfl, -⟩ := Prod.ext_iff.mp (Option.some.inj hstep)
      unfold World.tryRecvEvent
      cases hq : w.eventRx with
      | nil => exact .nothing (by rw [World.received, hq]; rfl) (fun _ => rfl) (Quiet.refl w)
      | cons e rest =>
          exact .received (by rw [World.received, hq]; rfl) (fun _ => rfl) hq
            (World.handleWorkerEvent_quiet config _ now e.event)
  | checkAllHealth env order =>
      obtain ⟨-, hstep⟩ := Option.ite_none_right_eq_some.mp hstep
      obtain ⟨rfl, -⟩ := Prod.ext_iff.mp (Option.some.inj hstep)
      exact .nothing rfl (fun _ => rfl)
        (Quiet.forEach (fun w t => w.checkOne_quiet config env t) _ w)
  | processRestarts now order spawned =>
      obtain ⟨-, hstep⟩ := Option.ite_none_right_eq_some.mp hstep
      obtain ⟨rfl, -⟩ := Prod.ext_iff.mp (Option.some.inj hstep)
      exact .nothing rfl (fun _ => rfl)
        (Quiet.forEach (fun w due => w.restartOne_quiet spawned due) _ w)
  | spawnNewWorker newId spawned =>
      obtain ⟨-, hstep⟩ := Option.ite_none_right_eq_some.mp hstep
      obtain ⟨rfl, -⟩ := Prod.ext_iff.mp (Option.some.inj hstep)
      exact .nothing rfl (fun _ => rfl) (w.spawnNewWorker_quiet config newId spawned)
  | drainWorker id =>
      obtain ⟨rfl, -⟩ := Prod.ext_iff.mp (Option.some.inj hstep)
      exact .nothing rfl (fun _ => rfl) (w.drainWorker_quiet id)
  | killWorker id killed =>
      obtain ⟨rfl, -⟩ := Prod.ext_iff.mp (Option.some.inj hstep)
      exact .nothing rfl (fun _ => rfl) (w.killWorker_quiet id killed)
  | restartWorker id newId env =>
      obtain ⟨-, hstep⟩ := Option.ite_none_right_eq_some.mp hstep
      obtain ⟨rfl, -⟩ := Prod.ext_iff.mp (Option.some.inj hstep)
      rcases w.restartWorker_quiet config id newId env with h | ⟨k, hk, h⟩
      · exact .nothing rfl (fun _ => rfl) h
      -- the wait may have posted the exit of the old process
      · cases hwait : env.wait with
        | exited code =>
            rw [hwait] at h
            exact World.post_carries rfl (fun _ => rfl) (.exited hk code)
              (Quiet.endProcess w k.child code) h
        | failed =>
            rw [hwait] at h
            exact World.post_carries rfl (fun _ => rfl) (.exited hk none) (Quiet.refl w) h
        | timedOut =>
            rw [hwait] at h
            exact .nothing rfl (fun _ => rfl) h
  | print pid line =>
      obtain ⟨hrun, hstep⟩ := Option.ite_none_right_eq_some.mp hstep
      obtain ⟨rfl, -⟩ := Prod.ext_iff.mp (Option.some.inj hstep)
      obtain ⟨p, hp, -⟩ := World.isRunning_iff.mp hrun
      have hpipe := w.pipeOf_modify pid hp (· ++ [line])
      exact .printed rfl rfl ((hpipe pid).trans (if_pos rfl))
        fun pid' hne => (hpipe pid').trans (if_neg hne.symm)
  | exit pid code =>
      obtain ⟨-, hstep⟩ := Option.ite_none_right_eq_some.mp hstep
      obtain ⟨rfl, -⟩ := Prod.ext_iff.mp (Option.some.inj hstep)
      exact .nothing rfl (fun _ => rfl) (Quiet.endProcess w pid code)
  | readStdout pid =>
      obtain ⟨v, hv, hstep⟩ := Option.map_eq_some_iff.mp hstep
      obtain ⟨rfl, -⟩ := Prod.mk.inj hstep
      exact World.readStdout_carries hv
  | readStderr pid line =>
      obtain ⟨-, hstep⟩ := Option.ite_none_right_eq_some.mp hstep
      obtain ⟨rfl, -⟩ := Prod.ext_iff.mp (Option.some.inj hstep)
      exact World.post_carries rfl (fun _ => rfl) (.stderr pid line) (Quiet.refl w) (Quiet.refl _)

/-! ## Delivery -/

theorem Quiet.underWay {w w' : World} (h : Quiet w w') (pid : Pid) :
    w'.underWay pid = w.underWay pid := by
  rw [World.underWay, World.underWay, h.eventRx, h.pipeOf]

/-- What the pool handles and what is under way after a step were under way before it, but
for the line that the step prints. -/
theorem Carries.delivers {w w' : World} {a : Action} (h : Carries w a w') (pid : Pid) :
    (w.received a).filterMap (Posted.printedBy pid) ++ w'.underWay pid =
      w.underWay pid ++ (a.printedBy pid).toList.filterMap Line.toEvent := by
  cases h with
  | nothing hreceived hprinted h =>
      rw [hreceived, hprinted, h.underWay]
      simp
  | @received e rest hreceived hprinted hq h =>
      rw [hreceived, hprinted, h.underWay, World.underWay, World.underWay, hq]
      show [e].filterMap (Posted.printedBy pid) ++ (rest.filterMap _ ++ _) = _ ++ []
      rw [List.append_nil, ← List.append_assoc, ← List.filterMap_append]
      rfl
  | @printed pid' line ha hrx hpipe hother =>
      subst ha
      rw [World.underWay, World.underWay, hrx]
      by_cases hpid : pid' = pid
      · subst hpid
        rw [hpipe, List.filterMap_append, Action.printedBy, if_pos rfl]
        simp [World.received]
      · rw [hother pid (Ne.symm hpid), Action.printedBy, if_neg hpid]
        simp [World.received]
  | @read pid' line hreceived hprinted hrx hpipe hother =>
      rw [hreceived, hprinted, World.underWay, World.underWay, hrx, List.filterMap_append]
      by_cases hpid : pid' = pid
      · subst hpid
        have hmove : (line.toEvent.map fun e => (⟨pid', e⟩ : Posted)).toList.filterMap
            (Posted.printedBy pid') = [line].filterMap Line.toEvent := by
          cases he : line.toEvent with
          | none => simp [he]
          | some e => simp [he, Posted.printedBy, Line.isStdout_of_toEvent he]
        rw [hmove, hpipe, List.append_assoc, ← List.filterMap_append]
        simp
      · have hmove : (line.toEvent.map fun e => (⟨pid', e⟩ : Posted)).toList.filterMap
            (Posted.printedBy pid) = [] := by
          cases line.toEvent with
          | none => rfl
          | some e => simp [Posted.printedBy, hpid]
        rw [hmove, hother pid (Ne.symm hpid)]
        simp
  | @posted e hreceived hprinted haside h =>
      have hpipe : World.pipeOf { w with eventRx := w.eventRx ++ [e] } pid = w.pipeOf pid := rfl
      rw [hreceived, hprinted, h.underWay, World.underWay, World.underWay, hpipe,
        List.filterMap_append]
      simp [Posted.printedBy, haside.isStdout]

theorem Started.underWay {config : PoolConfig} {w : World} (h : Started config w) (pid : Pid) :
    w.underWay pid = [] := by
  obtain ⟨w₀, ids, hnew, -, -, rfl⟩ := h
  obtain rfl := World.new_eq_some hnew
  have hquiet : Quiet (⟨∅, [], []⟩ : World) (World.start config ⟨∅, [], []⟩ ids).1 :=
    Quiet.forEach (fun w next => (Quiet.spawn w _ _).workers _) ids.zipIdx _
  rw [hquiet.underWay]
  rfl

/-- What the pool handles of a process in a run, followed by what is under way after it, was
under way before it or is printed in it. -/
theorem run_delivers {config : PoolConfig} {w₀ w : World} {as : List Action}
    {handled : List Posted}
    (hrun : ((system config).record World.received).run w₀ as = some (w, handled)) (pid : Pid) :
    handled.filterMap (Posted.printedBy pid) ++ w.underWay pid =
      w₀.underWay pid ++ (as.filterMap (Action.printedBy pid)).filterMap Line.toEvent := by
  refine ((system config).record World.received).run_history
    (J := fun as handled u => handled.filterMap (Posted.printedBy pid) ++ u.underWay pid =
      w₀.underWay pid ++ (as.filterMap (Action.printedBy pid)).filterMap Line.toEvent)
    ?_ (List.append_nil _).symm hrun
  intro as handled u a u' o _ ih hstep
  obtain ⟨⟨out, hout⟩, rfl⟩ := Machine.record_step_iff.mp hstep
  have hlast : [a].filterMap (Action.printedBy pid) = (a.printedBy pid).toList := by
    cases h : a.printedBy pid <;> simp [h]
  calc (handled ++ u.received a).filterMap (Posted.printedBy pid) ++ u'.underWay pid
      = handled.filterMap (Posted.printedBy pid) ++
          ((u.received a).filterMap (Posted.printedBy pid) ++ u'.underWay pid) := by
        rw [List.filterMap_append, List.append_assoc]
    _ = handled.filterMap (Posted.printedBy pid) ++
          (u.underWay pid ++ (a.printedBy pid).toList.filterMap Line.toEvent) := by
        rw [(step_carries hout).delivers pid]
    _ = w₀.underWay pid ++
          ((as ++ [a]).filterMap (Action.printedBy pid)).filterMap Line.toEvent := by
        rw [← List.append_assoc, ih, List.filterMap_append, hlast, List.filterMap_append,
          List.append_assoc]

/-- Two lines on stdout and one on stderr.  The pool has handled the first two events. -/
def threeLines : List Action :=
  [.print 0 (.event "worker.ready" (some 3001) (some "l0-1") ""), .readStdout 0,
    .readStderr 0 "warning", .tryRecvEvent 1, .print 0 (.other "started"), .tryRecvEvent 2]

end L0Worker.Supervisor
