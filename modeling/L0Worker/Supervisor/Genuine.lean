import L0Worker.Supervisor.Events
import L0Worker.Supervisor.Traffic

/-!
# Events that speak for their process

The pool believes the id that a line on stdout names.  When every process prints only lines
about itself, every event under way is `Genuine`: it names the id its process was spawned
with, and `Ready` carries the port on which that process listens.  An entry knows the id and
the port of its child (`Matches`), so the exits that `Worker::wait` posts are genuine too.

`genuine_grammar` and `healthy_after_spawned` draw the conclusion for what the pool announces:
the events of each id follow the grammar, and a worker is announced as healthy only under an
id and a port it was announced as spawned with.
-/

namespace L0Worker.Supervisor

/-! ## Addresses -/

/-- The id and the port of a process. -/
def World.addressOf (w : World) (pid : Pid) : Option (WorkerId × Port) :=
  (w.procs[pid]?).map Process.address

theorem Keeps.addressOf {w w' : World} (h : Keeps w w') (pid : Pid) :
    w'.addressOf pid = w.addressOf pid := by
  unfold World.addressOf
  cases hp : w.procs[pid]? with
  | some p =>
      obtain ⟨p', hp', hages⟩ := h.proc_exists' hp
      rw [hp', Option.map_some, Option.map_some, Process.address, hages.workerId, hages.port]
      rfl
  | none =>
      rw [List.getElem?_eq_none_iff, ← h.length, ← List.getElem?_eq_none_iff] at hp
      rw [hp]

/-- A step starts processes and changes the address of none. -/
theorem AnnouncesSpawns.addressOf {w w' : World} {out : List PoolEvent}
    (h : AnnouncesSpawns w w' out) {pid : Pid} {address : WorkerId × Port}
    (hpid : w.addressOf pid = some address) : w'.addressOf pid = some address := by
  unfold World.addressOf at hpid ⊢
  rw [← List.getElem?_map] at hpid ⊢
  rw [h, List.getElem?_append_left (List.getElem?_eq_some_iff.mp hpid).1, hpid]

/-- An entry has the id and the port of its child. -/
def Matches (w : World) : Prop :=
  ∀ id k, w.workerOf id = some k → k.workerId = id ∧ w.addressOf k.child = some (id, k.port)

namespace Matches

variable {config : PoolConfig} {w w' : World}

theorem keeps (h : Matches w) (hk : Keeps w w') : Matches w' := by
  intro id k hid
  rw [hk.workerOf] at hid
  obtain ⟨hkid, haddress⟩ := h id k hid
  exact ⟨hkid, (hk.addressOf k.child).trans haddress⟩

theorem erase (h : Matches w) (id : WorkerId) :
    Matches { w with workers := w.workers.erase id } := by
  intro id' k hk
  exact h id' k (World.workerOf_of_erase rfl hk)

/-- A spawn gives the new process and the new entry the same id and port. -/
theorem spawn (h : Matches w) (id : WorkerId) (port : Port) {m : ManagedWorker}
    (hm : m.worker = ⟨id, port, w.procs.length⟩) :
    Matches { w with
      procs := w.procs ++ [⟨id, port, .running, []⟩]
      workers := w.workers.insert id m } := by
  intro id' k hk
  rcases World.workerOf_of_insert (w := w) rfl hk with ⟨rfl, rfl⟩ | hk
  · rw [hm]
    exact ⟨rfl, by simp [World.addressOf, Process.address]⟩
  · obtain ⟨hkid, haddress⟩ := h id' k hk
    exact ⟨hkid, (AnnouncesSpawns.spawn w id port _).addressOf haddress⟩

theorem change (h : Matches w) (hc : Change w w') : Matches w' := by
  cases hc with
  | keeps hk => exact h.keeps hk
  | erase id => exact h.erase id
  | spawn id port hm => exact h.spawn id port hm

theorem step {a : Action} {out : List PoolEvent} (h : Matches w)
    (hstep : (system config).step w a = some (w', out)) : Matches w' :=
  (step_changes hstep).invariant (fun _ _ hu hc => hu.change hc) h

theorem startOne (h : Matches w) (next : WorkerId × Nat) : Matches (w.startOne config next).1 :=
  h.spawn next.1 (config.basePort + UInt16.ofNat next.2) rfl

end Matches

/-! ## Genuine events -/

-- the port on which a process listens that is given a port
variable (bound : Port → Port)

/-- The event is about the process with this address. -/
def WorkerEvent.Genuine (address : Option (WorkerId × Port)) : WorkerEvent → Prop
  | .ready port id => ∃ given, address = some (id, given) ∧ port = bound given
  | .draining id | .drained id | .exited id _ => ∃ given, address = some (id, given)
  | .stdout _ | .stderr _ => True

theorem WorkerEvent.Genuine.mono {address address' : Option (WorkerId × Port)} {e : WorkerEvent}
    (h : e.Genuine bound address) (haddress : ∀ a, address = some a → address' = some a) :
    e.Genuine bound address' := by
  cases e with
  | ready port id =>
      obtain ⟨given, ha, hport⟩ := h
      exact ⟨given, haddress _ ha, hport⟩
  | stdout line => trivial
  | stderr line => trivial
  | _ =>
      obtain ⟨given, ha⟩ := h
      exact ⟨given, haddress _ ha⟩

theorem WorkerEvent.Genuine.address {address : Option (WorkerId × Port)} {e : WorkerEvent}
    (h : e.Genuine bound address) {id : WorkerId} (hid : e.workerId? = some id) :
    ∃ given, address = some (id, given) := by
  cases e with
  | ready port id' =>
      obtain rfl := Option.some.inj hid
      exact h.imp fun given hgiven => hgiven.1
  | stdout line => cases hid
  | stderr line => cases hid
  | _ =>
      obtain rfl := Option.some.inj hid
      exact h

/-- The event of the line, if it has one, is about the process. -/
def Line.Genuine (address : Option (WorkerId × Port)) (line : Line) : Prop :=
  ∀ e, line.toEvent = some e → e.Genuine bound address

/-- Everything under way is about the process it comes from. -/
structure World.Genuine (w : World) : Prop where
  entries : Matches w
  events : ∀ e ∈ w.eventRx, e.event.Genuine bound (w.addressOf e.source)
  lines : ∀ pid, ∀ line ∈ w.pipeOf pid, line.Genuine bound (w.addressOf pid)

/-- A line that is printed in the step is about the process that prints it. -/
def PrintsGenuine (w : World) (a : Action) (_w' : World) (_out : List PoolEvent) : Prop :=
  ∀ pid line, a = .print pid line → line.Genuine bound (w.addressOf pid)

section Steps

variable {bound}
variable {config : PoolConfig} {w w' : World} {a : Action} {out : List PoolEvent}

theorem PostedAside.genuine {e : Posted} (h : PostedAside w e) (hw : Matches w) :
    e.event.Genuine bound (w.addressOf e.source) := by
  cases h with
  | stderr pid line => trivial
  | @exited id k hk code =>
      obtain ⟨hid, haddress⟩ := hw id k hk
      exact ⟨k.port, by rw [haddress, hid]⟩

theorem World.Genuine.step (h : w.Genuine bound) (hp : Placed w)
    (hstep : (system config).step w a = some (w', out))
    (hprints : PrintsGenuine bound w a w' out) : w'.Genuine bound := by
  have hmono : ∀ pid address, w.addressOf pid = some address → w'.addressOf pid = some address :=
    fun _ _ haddress => (step_announces hp hstep).addressOf haddress
  have hentries := h.entries.step hstep
  have hevents : ∀ e ∈ w.eventRx, e.event.Genuine bound (w'.addressOf e.source) :=
    fun e he => (h.events e he).mono bound (hmono e.source)
  have hlines : ∀ pid, ∀ line ∈ w.pipeOf pid, line.Genuine bound (w'.addressOf pid) :=
    fun pid line hline e he => (h.lines pid line hline e he).mono bound (hmono pid)
  have hquiet : ∀ {u : World}, Quiet u w' → (∀ pid, u.pipeOf pid = w.pipeOf pid) →
      ∀ pid, ∀ line ∈ w'.pipeOf pid, line.Genuine bound (w'.addressOf pid) := by
    intro u hu hpipe pid line hline
    rw [hu.pipeOf, hpipe] at hline
    exact hlines pid line hline
  cases step_carries hstep with
  | nothing hreceived hprinted hq =>
      exact ⟨hentries, by rw [hq.eventRx]; exact hevents, hquiet hq fun _ => rfl⟩
  | @received e rest hreceived hprinted hrx hq =>
      refine ⟨hentries, ?_, hquiet hq fun _ => rfl⟩
      rw [hq.eventRx]
      exact fun e' he' => hevents e' (hrx ▸ List.mem_cons_of_mem e he')
  | @printed pid line ha hrx hpipe hother =>
      refine ⟨hentries, by rw [hrx]; exact hevents, fun pid' line' hline' => ?_⟩
      by_cases hpid : pid' = pid
      · subst hpid
        rw [hpipe] at hline'
        rcases List.mem_append.mp hline' with hold | hnew
        · exact hlines pid' line' hold
        · obtain rfl := List.mem_singleton.mp hnew
          exact fun e he => (hprints pid' line' ha e he).mono bound (hmono pid')
      · rw [hother pid' hpid] at hline'
        exact hlines pid' line' hline'
  | @read pid line hreceived hprinted hrx hpipe hother =>
      refine ⟨hentries, fun e he => ?_, fun pid' line' hline' => ?_⟩
      · rw [hrx] at he
        rcases List.mem_append.mp he with hold | hnew
        · exact hevents e hold
        -- the event of the line that was in the pipe
        · rw [Option.mem_toList] at hnew
          obtain ⟨event, hevent, rfl⟩ := Option.map_eq_some_iff.mp hnew
          exact hlines pid line (hpipe ▸ List.mem_cons_self) event hevent
      · by_cases hpid : pid' = pid
        · subst hpid
          exact hlines pid' line' (hpipe ▸ List.mem_cons_of_mem line hline')
        · rw [hother pid' hpid] at hline'
          exact hlines pid' line' hline'
  | @posted e hreceived hprinted haside hq =>
      refine ⟨hentries, ?_, hquiet hq fun _ => rfl⟩
      rw [hq.eventRx]
      intro e' he'
      rcases List.mem_append.mp he' with hold | hnew
      · exact hevents e' hold
      · obtain rfl := List.mem_singleton.mp hnew
        exact (haside.genuine h.entries).mono bound (hmono e'.source)

/-- An event the pool takes names the id of a process. -/
theorem World.Genuine.namesSpawned (h : w.Genuine bound) : NamesSpawned w a w' out := by
  rintro now e rest rfl hrx id hid
  obtain ⟨given, haddress⟩ := (h.events e (hrx ▸ List.mem_cons_self)).address bound hid
  obtain ⟨p, hp, hpaddress⟩ := Option.map_eq_some_iff.mp haddress
  exact ⟨p, List.mem_of_getElem? hp, congrArg Prod.fst hpaddress⟩

end Steps

/-! ## Startup -/

theorem World.start_genuine (config : PoolConfig) {w₀ : World} (hnew : World.new config = some w₀)
    (workerIds : List WorkerId) : (w₀.start config workerIds).1.Genuine bound := by
  obtain rfl := World.new_eq_some hnew
  have hquiet : Quiet (⟨∅, [], []⟩ : World) (World.start config ⟨∅, [], []⟩ workerIds).1 :=
    Quiet.forEach (fun w next => (Quiet.spawn w _ _).workers _) workerIds.zipIdx _
  refine ⟨?_, ?_, fun pid line hline => ?_⟩
  · exact forEach_rec (I := fun _ u => Matches u) (fun next _ u hu => hu.startOne next)
      fun _ _ h => by simp [World.workerOf] at h
  · rw [hquiet.eventRx]
    exact List.forall_mem_nil _
  · rw [hquiet.pipeOf] at hline
    cases hline

/-! ## What the pool announces -/

section Announced

variable {bound}
variable {config : PoolConfig} {w₀ w w' : World} {workerIds : List WorkerId} {as : List Action}
variable {out : List PoolEvent}

/-- When processes print only about themselves, the events of each id follow the grammar. -/
theorem genuine_grammar (hnew : World.new config = some w₀)
    (hrun : (system config).run (w₀.start config workerIds).1 as = some (w, out))
    (hprints : (system config).Along (PrintsGenuine bound) (w₀.start config workerIds).1 as)
    (id : WorkerId) : FollowsGrammar id (named id ((w₀.start config workerIds).2 ++ out)) := by
  have hnames : (system config).Along NamesSpawned (w₀.start config workerIds).1 as :=
    hprints.mono (I := fun u => Placed u ∧ u.Genuine bound)
      (fun _ _ _ _ hu _ _ => hu.2.namesSpawned)
      (fun _ _ _ _ hu hstep hP => ⟨hu.1.step hstep, hu.2.step hu.1 hstep hP⟩)
      ⟨World.start_placed config hnew workerIds, World.start_genuine bound config hnew workerIds⟩
  have hp := World.start_placed config hnew workerIds
  refine followsGrammar_of_accept (fun e he => (mem_named.mp he).2) (q := w.eventStage id) ?_
  have hstart : accept EventStage.next .unknown (named id (w₀.start config workerIds).2) =
      some ((w₀.start config workerIds).1.eventStage id) := by
    obtain rfl := World.new_eq_some hnew
    exact World.start_eventStage config workerIds.zipIdx ⟨∅, [], []⟩ id
  rw [named_append, accept_append, hstart]
  exact Machine.run_tracks (I := Placed) (fun _ _ _ _ hu hs => hu.step hs)
    (fun _ _ _ _ hu hs hn i => step_eventStage hu hs hn i) hp hnames hrun id

/-- A worker is announced as healthy where a worker of its id was announced as spawned: on
the port that was given to it, or on the port on which it listens then. -/
def HealthyAfterSpawned (bound : Port → Port) (evs : List PoolEvent) : Prop :=
  ∀ before id port after, evs = before ++ .workerHealthy id port :: after →
    ∃ given, .workerSpawned id given ∈ before ∧ (port = given ∨ port = bound given)

theorem HealthyAfterSpawned.append {evs evs' : List PoolEvent} (h : HealthyAfterSpawned bound evs)
    (h' : ∀ id port, .workerHealthy id port ∈ evs' →
      ∃ given, .workerSpawned id given ∈ evs ∧ (port = given ∨ port = bound given)) :
    HealthyAfterSpawned bound (evs ++ evs') := by
  intro before id port after heq
  obtain ⟨rest, rfl, hrest⟩ | ⟨rest, rfl, hrest⟩ := List.append_eq_append_iff.mp heq
  · obtain ⟨given, hgiven, hport⟩ :=
      h' id port (hrest ▸ List.mem_append_right rest List.mem_cons_self)
    exact ⟨given, List.mem_append_left rest hgiven, hport⟩
  · cases rest with
    | nil =>
        obtain ⟨given, hgiven, hport⟩ := h' id port (by rw [← List.nil_append evs', ← hrest]; simp)
        exact ⟨given, by simpa using hgiven, hport⟩
    | cons e rest =>
        obtain ⟨rfl, -⟩ := List.cons.inj hrest
        exact h before id port rest rfl

/-- What a step announces as healthy has the address of a process. -/
theorem step_healthy {a : Action} (h : w.Genuine bound) (hp : Placed w)
    (hstep : (system config).step w a = some (w', out)) {id : WorkerId} {port : Port}
    (he : .workerHealthy id port ∈ out) :
    ∃ given, (id, given) ∈ w.procs.map Process.address ∧ (port = given ∨ port = bound given) := by
  have hmem : ∀ {pid address}, w.addressOf pid = some address →
      address ∈ w.procs.map Process.address := by
    intro pid address haddress
    obtain ⟨p, hproc, rfl⟩ := Option.map_eq_some_iff.mp haddress
    exact List.mem_map_of_mem (List.mem_of_getElem? hproc)
  have hpair : ∀ reason n, .workerHealthy id port ∉
      [PoolEvent.workerUnhealthy id reason, restartingOrFailed config id n] := by
    intro reason n hmem
    obtain heq | heq := List.mem_pair.mp hmem
    · cases heq
    · unfold restartingOrFailed at heq
      split at heq <;> cases heq
  have hentry := step_entry hp hstep id
  have he : .workerHealthy id port ∈ named id out := mem_named.mpr ⟨he, rfl⟩
  generalize w'.workers.lookup id = entry at hentry
  generalize named id out = evs at hentry he
  cases hentry with
  | @ready now source port' rest hq =>
      obtain ⟨⟩ := List.mem_singleton.mp he
      obtain ⟨given, haddress, hport⟩ := h.events _ (hq ▸ List.mem_cons_self)
      exact ⟨given, hmem haddress, .inr hport⟩
  | @exited now source code rest m hq hm =>
      have ho := m.onExited_outcome config now id code
      generalize m.onExited config now id code = r at ho he
      cases ho with
      | settled hp => cases he
      | stopped hp => cases he
      | crashed hc hp hs reason => exact absurd he (hpair reason _)
  | @checked env order m c hm hs hc =>
      cases CheckOutcome.of_check hc with
      | passed =>
          rw [ManagedWorker.checkHealthy_events] at he
          obtain ⟨-, he⟩ := List.mem_ite_nil_right.mp he
          obtain ⟨⟩ := List.mem_singleton.mp he
          obtain ⟨-, haddress⟩ := h.entries id m.worker (World.workerOf_of_lookup hm)
          exact ⟨m.worker.port, hmem haddress, .inl rfl⟩
      | tolerated n => cases he
      | failed hcounts reason kill => exact absurd he (hpair reason _)
  | untouched => cases he
  | lost => cases he
  | drainedByApi => cases he
  | killedByApi => cases he
  | replaced => cases he
  | restartFailed => cases he
  | _ => cases List.mem_singleton.mp he

/-- A run that continues the events of a start. -/
theorem HealthyAfterSpawned.run {evs : List PoolEvent} (hp : Placed w) (hg : w.Genuine bound)
    (hspawned : w.procs.map Process.address = evs.filterMap PoolEvent.spawned?)
    (h : HealthyAfterSpawned bound evs) (hprints : (system config).Along (PrintsGenuine bound) w as)
    (hrun : (system config).run w as = some (w', out)) :
    HealthyAfterSpawned bound (evs ++ out) := by
  induction as generalizing w evs out with
  | nil =>
      simp only [Machine.run_nil, Option.some.injEq, Prod.mk.injEq] at hrun
      rw [← hrun.2, List.append_nil]
      exact h
  | cons a as ih =>
      obtain ⟨u, o, o', hu, hrest, rfl⟩ := (system config).run_cons_iff.mp hrun
      rw [Machine.along_cons_iff hu] at hprints
      rw [← List.append_assoc]
      refine ih (hp.step hu) (hg.step hp hu hprints.1) ?_ ?_ hprints.2 hrest
      · rw [step_announces hp hu, hspawned, List.filterMap_append]
      · refine h.append fun id port he => ?_
        obtain ⟨given, haddress, hport⟩ := step_healthy hg hp hu he
        rw [hspawned, List.mem_filterMap] at haddress
        obtain ⟨e, hmem, he⟩ := haddress
        cases e with
        | workerSpawned id' port' =>
            obtain ⟨rfl, rfl⟩ := Prod.mk.inj (Option.some.inj he)
            exact ⟨port', hmem, hport⟩
        | _ => cases he

/-- When processes print only about themselves, a worker is announced as healthy only where it
was announced as spawned. -/
theorem healthy_after_spawned (hnew : World.new config = some w₀)
    (hrun : (system config).run (w₀.start config workerIds).1 as = some (w, out))
    (hprints : (system config).Along (PrintsGenuine bound) (w₀.start config workerIds).1 as) :
    HealthyAfterSpawned bound ((w₀.start config workerIds).2 ++ out) := by
  have hp := World.start_placed config hnew workerIds
  have hg := World.start_genuine bound config hnew workerIds
  obtain rfl := World.new_eq_some hnew
  refine HealthyAfterSpawned.run hp hg ?_ ?_ hprints hrun
  · exact AnnouncesSpawns.forEach (World.startOne_announces config) workerIds.zipIdx ⟨∅, [], []⟩
  -- the start announces nothing but spawns
  · rintro before id port after heq
    have hspawn : ∀ e ∈ (World.start config ⟨∅, [], []⟩ workerIds).2, e.spawned?.isSome = true := by
      refine forEach_forall_output (fun u next e he => ?_) _ _
      rw [List.mem_singleton.mp he]
      rfl
    have hmem : .workerHealthy id port ∈ (World.start config ⟨∅, [], []⟩ workerIds).2 := by
      rw [heq]
      exact List.mem_append_right before List.mem_cons_self
    cases hspawn _ hmem

end Announced

end L0Worker.Supervisor
