import L0Worker.Supervisor.Entry

/-!
# The grammar of pool events

The events that name one worker follow a grammar: the first is `WorkerSpawned`, and
`WorkerRestarting` and `WorkerFailed` come directly after `WorkerUnhealthy`
(`Grammar`).  The stage of an id between two steps depends only on whether a process
was ever started under it, since a step that announces `WorkerUnhealthy` announces what
follows from it as well.

A worker event that names an id no process has would be announced all the same, so the
grammar is followed only as long as worker events name started processes
(`NamesSpawned`).

Independently of ids, the `WorkerSpawned` events of a run are the processes started in
it, one for each and in order.
-/

namespace L0Worker.Supervisor

/-! ## Spawned processes -/

/-- The id and the port a `WorkerSpawned` event carries. -/
def PoolEvent.spawned? : PoolEvent → Option (WorkerId × Port)
  | .workerSpawned id port => some (id, port)
  | _ => none

/-- The id and the port of a process. -/
def Process.address (p : Process) : WorkerId × Port := (p.workerId, p.port)

/-- The outputs announce the processes started on the way. -/
def AnnouncesSpawns (w w' : World) (out : List PoolEvent) : Prop :=
  w'.procs.map Process.address = w.procs.map Process.address ++ out.filterMap PoolEvent.spawned?

namespace AnnouncesSpawns

theorem refl (w : World) : AnnouncesSpawns w w [] := (List.append_nil _).symm

theorem append {w₁ w₂ w₃ : World} {out out' : List PoolEvent} (h : AnnouncesSpawns w₁ w₂ out)
    (h' : AnnouncesSpawns w₂ w₃ out') : AnnouncesSpawns w₁ w₃ (out ++ out') := by
  rw [AnnouncesSpawns, h', h, List.append_assoc, List.filterMap_append]

theorem of_keeps {w w' : World} {out : List PoolEvent} (hk : Keeps w w')
    (hout : out.filterMap PoolEvent.spawned? = []) : AnnouncesSpawns w w' out := by
  rw [AnnouncesSpawns, hout, List.append_nil]
  refine List.ext_getElem? fun pid => ?_
  rw [List.getElem?_map, List.getElem?_map]
  cases hp : w.procs[pid]? with
  | some p =>
      obtain ⟨p', hp', hages⟩ := hk.proc_exists' hp
      rw [hp', Option.map_some, Option.map_some, Process.address, hages.workerId, hages.port]
      rfl
  | none =>
      cases hp' : w'.procs[pid]? with
      | none => rfl
      | some p' =>
          obtain ⟨p, hp₁, -⟩ := hk.proc_exists hp'
          rw [hp] at hp₁
          cases hp₁

/-- A spawn, with what else it does to the entries. -/
theorem spawn (w : World) (id : WorkerId) (port : Port) (workers : Workers) :
    AnnouncesSpawns w
      { w with procs := w.procs ++ [⟨id, port, .running, []⟩], workers := workers }
      [.workerSpawned id port] :=
  List.map_append

/-- A loop announces what its iterations announce. -/
theorem forEach {τ : Type} {step : World → τ → World × List PoolEvent}
    (hstep : ∀ w t, AnnouncesSpawns w (step w t).1 (step w t).2) (ts : List τ) (w : World) :
    AnnouncesSpawns w (forEach step w ts).1 (forEach step w ts).2 := by
  induction ts generalizing w with
  | nil => exact refl w
  | cons t ts ih => exact (hstep w t).append (ih (step w t).1)

end AnnouncesSpawns

theorem restartingOrFailed_spawned? (config : PoolConfig) (id : WorkerId) (n : UInt32) :
    (restartingOrFailed config id n).spawned? = none := by
  unfold restartingOrFailed
  split <;> rfl

/-- Only a step that spawns announces a spawn. -/
theorem EntryStep.spawned?_eq_none {config : PoolConfig} {id : WorkerId} {w : World} {a : Action}
    {entry : Option ManagedWorker} {evs : List PoolEvent} (h : EntryStep config id w a entry evs)
    (ha : a.spawns = false) : ∀ e ∈ evs, e.spawned? = none := by
  have hpair : ∀ reason n, ∀ e ∈ [PoolEvent.workerUnhealthy id reason,
      restartingOrFailed config id n], e.spawned? = none := by
    intro reason n
    exact List.forall_mem_cons.mpr
      ⟨rfl, List.forall_mem_singleton.mpr (restartingOrFailed_spawned? config id n)⟩
  cases h with
  | untouched => exact List.forall_mem_nil _
  | ready hq => exact List.forall_mem_singleton.mpr rfl
  | draining hq => exact List.forall_mem_singleton.mpr rfl
  | drained hq => exact List.forall_mem_singleton.mpr rfl
  | @exited now source code rest m hq hm =>
      have ho := m.onExited_outcome config now id code
      generalize m.onExited config now id code = r at ho ⊢
      cases ho with
      | settled hp => exact List.forall_mem_nil _
      | stopped hp => exact List.forall_mem_nil _
      | crashed hc hp hs reason => exact hpair reason _
  | @checked env order m c hm hs hc =>
      cases CheckOutcome.of_check hc with
      | passed =>
          rw [ManagedWorker.checkHealthy_events]
          split
          · exact List.forall_mem_singleton.mpr rfl
          · exact List.forall_mem_nil _
      | tolerated n => exact List.forall_mem_nil _
      | failed hcounts reason kill => exact hpair reason _
  | respawned pid hm hdue hs => cases ha
  | lost hm hdue hs => cases ha
  | added port pid hf hnew =>
      cases a with
      | spawnNewWorker newId spawned => cases ha
      | restartWorker id' newId env => cases ha
      | _ => cases hnew
  | drainedByApi hm => exact List.forall_mem_nil _
  | killedByApi hm => exact List.forall_mem_nil _
  | replaced hm => cases ha
  | restartFailed hm => cases ha

/-- What names a process names its worker. -/
theorem PoolEvent.workerId?_of_spawned? {e : PoolEvent} {address : WorkerId × Port}
    (h : e.spawned? = some address) : e.workerId? = some address.1 := by
  cases e with
  | workerSpawned id port => exact congrArg some (congrArg Prod.fst (Option.some.inj h))
  | _ => cases h

theorem mem_named {id : WorkerId} {e : PoolEvent} {out : List PoolEvent} :
    e ∈ named id out ↔ e ∈ out ∧ e.workerId? = some id := by
  simp [named, outputsOf]

theorem World.restartOne_announces (spawned : WorkerId → Except String Unit) (w : World)
    (due : WorkerId × Port × UInt32) :
    AnnouncesSpawns w (w.restartOne spawned due).1 (w.restartOne spawned due).2 := by
  cases hs : spawned due.1 with
  | error e =>
      rw [World.restartOne_error hs]
      exact AnnouncesSpawns.refl w
  | ok u =>
      rw [World.restartOne_ok hs]
      exact AnnouncesSpawns.spawn w due.1 due.2.1 _

/-- Every step announces the processes it starts. -/
theorem step_announces {config : PoolConfig} {w w' : World} {a : Action} {out : List PoolEvent}
    (hp : Placed w) (hstep : (system config).step w a = some (w', out)) :
    AnnouncesSpawns w w' out := by
  obtain ⟨hk, ha⟩ | ⟨now, order, spawned, rfl, -, heq⟩ | ⟨newId, outcome, rfl, -, heq⟩ |
    ⟨id, newId, env, rfl, -, heq⟩ := step_cases hstep
  · refine AnnouncesSpawns.of_keeps hk (List.filterMap_eq_nil_iff.mpr fun e he => ?_)
    cases hs : e.spawned? with
    | none => rfl
    | some address =>
        have hid := PoolEvent.workerId?_of_spawned? hs
        rw [← (step_entry hp hstep address.1).spawned?_eq_none ha e (mem_named.mpr ⟨he, hid⟩), hs]
  · obtain ⟨rfl, rfl⟩ := Prod.ext_iff.mp heq
    exact AnnouncesSpawns.forEach (World.restartOne_announces spawned) _ w
  · obtain ⟨rfl, rfl⟩ := Prod.ext_iff.mp heq
    rcases w.spawnNewWorker_cases config newId outcome with hno | ⟨port, -, hyes⟩
    · rw [hno]
      exact AnnouncesSpawns.refl w
    · rw [hyes]
      exact AnnouncesSpawns.spawn w newId port _
  · obtain ⟨rfl, rfl⟩ := Prod.ext_iff.mp heq
    cases w.restartWorker_cases config id newId env with
    | notFound hm hr =>
        rw [hr]
        exact AnnouncesSpawns.refl w
    | @failed m w₁ e hm hw₁ hr =>
        rw [hr]
        exact AnnouncesSpawns.of_keeps (hw₁.keeps.trans (Keeps.modify w₁ id fun _ => rfl)) rfl
    | @replaced m w₁ hm hw₁ hr =>
        rw [hr]
        have hwait : AnnouncesSpawns w w₁ [] := AnnouncesSpawns.of_keeps hw₁.keeps rfl
        exact hwait.append (AnnouncesSpawns.spawn w₁ newId m.worker.port _)

/-! ## The grammar -/

/-- Where the events of an id stand. -/
inductive EventStage where
  /-- No event names the id. -/
  | unknown
  | known
  /-- The last event is `WorkerUnhealthy`. -/
  | unhealthy
deriving DecidableEq

/-- The events of an id, letter by letter. -/
def EventStage.next : EventStage → PoolEvent → Option EventStage
  | _, .workerSpawned _ _ => some .known
  | .unknown, _ => none
  | _, .workerUnhealthy _ _ => some .unhealthy
  | .unhealthy, .workerRestarting _ _ => some .known
  | .unhealthy, .workerFailed _ => some .known
  | _, .workerHealthy _ _ => some .known
  | _, .workerDraining _ => some .known
  | _, .workerDrained _ => some .known
  | _, _ => none

/-- A process was started under the id. -/
def World.Known (w : World) (id : WorkerId) : Prop := ∃ p ∈ w.procs, p.workerId = id

instance (w : World) (id : WorkerId) : Decidable (w.Known id) :=
  inferInstanceAs (Decidable (∃ p ∈ w.procs, _))

/-- The stage of an id between two steps. -/
def World.eventStage (w : World) (id : WorkerId) : EventStage :=
  if w.Known id then .known else .unknown

/-- The worker event a poll delivers names the id of a process the pool spawned. -/
def NamesSpawned (w : World) (a : Action) (_w' : World) (_out : List PoolEvent) : Prop :=
  ∀ now e rest, a = .tryRecvEvent now → w.eventRx = e :: rest →
    ∀ id, e.event.workerId? = some id → w.Known id

instance (w : World) (a : Action) (w' : World) (out : List PoolEvent) :
    Decidable (NamesSpawned w a w' out) :=
  match a, w with
  | .tryRecvEvent _, ⟨_, e :: _, _⟩ =>
      decidable_of_iff (∀ id ∈ e.event.workerId?, World.Known _ id)
        ⟨fun h _ _ _ _ hq id hid => h id ((List.cons.inj hq).1 ▸ hid),
          fun h id hid => h _ e _ rfl rfl id hid⟩
  | .tryRecvEvent _, ⟨_, [], _⟩ => isTrue fun _ _ _ _ hq => nomatch hq
  | .checkAllHealth _ _, _ | .processRestarts _ _ _, _ | .spawnNewWorker _ _, _
  | .drainWorker _, _ | .killWorker _ _, _ | .restartWorker _ _ _, _ | .print _ _, _
  | .exit _ _, _ | .readStdout _, _ | .readStderr _ _, _ => isTrue fun _ _ _ ha => nomatch ha

theorem EventStage.next_restartingOrFailed (config : PoolConfig) (id : WorkerId) (n : UInt32) :
    EventStage.unhealthy.next (restartingOrFailed config id n) = some .known := by
  unfold restartingOrFailed
  split <;> rfl

theorem Placed.known {w : World} {id : WorkerId} {m : ManagedWorker} (h : Placed w)
    (hm : w.workers.lookup id = some m) : w.Known id := by
  obtain ⟨p, hp, hid⟩ := h id m.worker (World.workerOf_of_lookup hm)
  exact ⟨p, List.mem_of_getElem? hp, hid⟩

/-- A step makes an id known by announcing a spawn under it. -/
theorem AnnouncesSpawns.known_iff {w w' : World} {out : List PoolEvent}
    (h : AnnouncesSpawns w w' out) (id : WorkerId) :
    w'.Known id ↔ w.Known id ∨ ∃ port, .workerSpawned id port ∈ named id out := by
  have hmem : ∀ v : World, v.Known id ↔ id ∈ (v.procs.map Process.address).map Prod.fst := by
    intro v
    simp [World.Known, Process.address]
  rw [hmem w', h, List.map_append, List.mem_append, ← hmem w]
  refine or_congr_right ?_
  simp only [List.mem_map, List.mem_filterMap, mem_named]
  constructor
  · rintro ⟨⟨id', port⟩, ⟨e, he, hs⟩, rfl⟩
    cases e with
    | workerSpawned id'' port' =>
        obtain ⟨rfl, rfl⟩ := Prod.mk.inj (Option.some.inj hs)
        exact ⟨port', he, rfl⟩
    | _ => cases hs
  · rintro ⟨port, he, -⟩
    exact ⟨(id, port), ⟨_, he, rfl⟩, rfl⟩

/-- Nothing or a spawn is what may come first. -/
theorem AnnouncesSpawns.eventStage {w w' : World} {out : List PoolEvent}
    (h : AnnouncesSpawns w w' out) {id : WorkerId}
    (hev : named id out = [] ∨ ∃ port, named id out = [.workerSpawned id port]) :
    accept EventStage.next (w.eventStage id) (named id out) = some (w'.eventStage id) := by
  have hknown := h.known_iff id
  obtain hev | ⟨port, hev⟩ := hev
  · have hiff : w'.Known id ↔ w.Known id := by simpa [hev] using hknown
    rw [hev, World.eventStage, World.eventStage, if_congr hiff rfl rfl]
    rfl
  · have hk' : w'.Known id := hknown.mpr (.inr ⟨port, hev ▸ List.mem_singleton_self _⟩)
    rw [hev, World.eventStage, World.eventStage, if_pos hk']
    split <;> rfl

/-- What a step announces about an id leads from known to known. -/
theorem EntryStep.accept_known {config : PoolConfig} {id : WorkerId} {w : World} {a : Action}
    {entry : Option ManagedWorker} {evs : List PoolEvent}
    (h : EntryStep config id w a entry evs) :
    accept EventStage.next .known evs = some .known := by
  have hpair : ∀ reason n, accept EventStage.next .known
      [.workerUnhealthy id reason, restartingOrFailed config id n] = some .known := by
    intro reason n
    show (EventStage.unhealthy.next (restartingOrFailed config id n)).bind some = some .known
    rw [EventStage.next_restartingOrFailed]
    rfl
  cases h with
  | @exited now source code rest m hq hm =>
      have ho := m.onExited_outcome config now id code
      generalize m.onExited config now id code = r at ho ⊢
      cases ho with
      | settled hp => rfl
      | stopped hp => rfl
      | crashed hc hp hs reason => exact hpair reason _
  | @checked env order m c hm hs hc =>
      cases CheckOutcome.of_check hc with
      | passed =>
          rw [ManagedWorker.checkHealthy_events]
          split <;> rfl
      | tolerated n => rfl
      | failed hcounts reason kill => exact hpair reason _
  | _ => rfl

/-- Only an id that is known already is announced without a spawn. -/
theorem EntryStep.known {config : PoolConfig} {id : WorkerId} {w w' : World} {a : Action}
    {entry : Option ManagedWorker} {out evs : List PoolEvent}
    (h : EntryStep config id w a entry evs) (hp : Placed w) (hn : NamesSpawned w a w' out) :
    w.Known id ∨ evs = [] ∨ ∃ port, evs = [.workerSpawned id port] := by
  cases h with
  | untouched => exact .inr (.inl rfl)
  | ready hq => exact .inl (hn _ _ _ rfl hq id rfl)
  | draining hq => exact .inl (hn _ _ _ rfl hq id rfl)
  | drained hq => exact .inl (hn _ _ _ rfl hq id rfl)
  | exited hq hm => exact .inl (hp.known hm)
  | checked hm hs hc => exact .inl (hp.known hm)
  | respawned pid hm hdue hs => exact .inr (.inr ⟨_, rfl⟩)
  | lost hm hdue hs => exact .inr (.inl rfl)
  | added port pid hf hnew => exact .inr (.inr ⟨port, rfl⟩)
  | drainedByApi hm => exact .inr (.inl rfl)
  | killedByApi hm => exact .inr (.inl rfl)
  | replaced hm => exact .inr (.inl rfl)
  | restartFailed hm => exact .inr (.inl rfl)

/-- Every step takes the events of every id from its stage before to its stage after. -/
theorem step_eventStage {config : PoolConfig} {w w' : World} {a : Action} {out : List PoolEvent}
    (hp : Placed w) (hstep : (system config).step w a = some (w', out))
    (hn : NamesSpawned w a w' out) (id : WorkerId) :
    accept EventStage.next (w.eventStage id) (named id out) = some (w'.eventStage id) := by
  have hentry := step_entry hp hstep id
  by_cases hk : w.Known id
  · rw [World.eventStage, if_pos hk, World.eventStage,
      if_pos (((step_announces hp hstep).known_iff id).mpr (.inl hk))]
    exact hentry.accept_known
  · exact (step_announces hp hstep).eventStage ((hentry.known hp hn).resolve_left hk)

/-! ## Startup -/

theorem World.startOne_announces (config : PoolConfig) (w : World) (next : WorkerId × Nat) :
    AnnouncesSpawns w (w.startOne config next).1 (w.startOne config next).2 :=
  AnnouncesSpawns.spawn w next.1 (config.basePort + UInt16.ofNat next.2) _

theorem World.startOne_eventStage (config : PoolConfig) (w : World) (next : WorkerId × Nat)
    (id : WorkerId) :
    accept EventStage.next (w.eventStage id) (named id (w.startOne config next).2) =
      some ((w.startOne config next).1.eventStage id) := by
  refine (World.startOne_announces config w next).eventStage ?_
  by_cases hid : next.1 = id
  · subst hid
    exact .inr ⟨_, named_eq_self (List.forall_mem_singleton.mpr rfl)⟩
  · exact .inl (named_eq_nil (List.forall_mem_singleton.mpr fun h => hid (Option.some.inj h)))

/-- The spawns of the startup loop follow the grammar. -/
theorem World.start_eventStage (config : PoolConfig) (nexts : List (WorkerId × Nat)) (w : World)
    (id : WorkerId) :
    accept EventStage.next (w.eventStage id)
        (named id (forEach (World.startOne config) w nexts).2) =
      some ((forEach (World.startOne config) w nexts).1.eventStage id) := by
  induction nexts generalizing w with
  | nil => rfl
  | cons next nexts ih =>
      rw [forEach_cons, named_append, accept_append, World.startOne_eventStage, Option.bind_some]
      exact ih (w.startOne config next).1

/-! ## What the grammar says -/

/-- A restart, or the end of all restarts. -/
def PoolEvent.followsUnhealthy : PoolEvent → Bool
  | .workerRestarting _ _ | .workerFailed _ => true
  | _ => false

theorem EventStage.next_unknown {e : PoolEvent} {q : EventStage}
    (h : EventStage.unknown.next e = some q) : ∃ id port, e = .workerSpawned id port := by
  cases e with
  | workerSpawned id port => exact ⟨id, port, rfl⟩
  | _ => cases h

theorem EventStage.next_followsUnhealthy {e : PoolEvent} {q q' : EventStage}
    (h : q.next e = some q') (he : e.followsUnhealthy = true) : q = .unhealthy := by
  cases e with
  | workerRestarting id n => cases q <;> first | rfl | cases h
  | workerFailed id => cases q <;> first | rfl | cases h
  | _ => cases he

theorem EventStage.next_eq_unhealthy {e : PoolEvent} {q : EventStage}
    (h : q.next e = some .unhealthy) : ∃ id reason, e = .workerUnhealthy id reason := by
  cases e with
  | workerUnhealthy id reason => exact ⟨id, reason, rfl⟩
  | _ => cases q <;> cases h

/-- Before a restart stands the failure it answers to. -/
theorem EventStage.unhealthy_before {evs : List PoolEvent}
    (h : accept EventStage.next .unknown evs = some .unhealthy) :
    ∃ before id reason, evs = before ++ [.workerUnhealthy id reason] := by
  induction evs using List.reverseRecOn with
  | nil => cases h
  | append_singleton evs e _ =>
      rw [accept_append] at h
      obtain ⟨q, -, h⟩ := Option.bind_eq_some_iff.mp h
      obtain ⟨q', hq', h⟩ := Option.bind_eq_some_iff.mp h
      obtain rfl := Option.some.inj h
      obtain ⟨id, reason, rfl⟩ := EventStage.next_eq_unhealthy hq'
      exact ⟨evs, id, reason, rfl⟩

/-- The events that name one id: the first announces a spawn, and restarts and
failures come directly after `WorkerUnhealthy` of the id. -/
structure FollowsGrammar (id : WorkerId) (evs : List PoolEvent) : Prop where
  first : ∀ e rest, evs = e :: rest → ∃ port, e = .workerSpawned id port
  after_unhealthy : ∀ before e rest, evs = before ++ e :: rest → e.followsUnhealthy = true →
    ∃ before' reason, before = before' ++ [.workerUnhealthy id reason]

theorem followsGrammar_of_accept {id : WorkerId} {evs : List PoolEvent} {q : EventStage}
    (hid : ∀ e ∈ evs, e.workerId? = some id)
    (h : accept EventStage.next .unknown evs = some q) : FollowsGrammar id evs where
  first := by
    rintro e rest rfl
    obtain ⟨q', hq', -⟩ := Option.bind_eq_some_iff.mp h
    obtain ⟨id', port, rfl⟩ := EventStage.next_unknown hq'
    obtain rfl := Option.some.inj (hid _ List.mem_cons_self)
    exact ⟨port, rfl⟩
  after_unhealthy := by
    rintro before e rest rfl he
    rw [accept_append] at h
    obtain ⟨q₁, hq₁, h⟩ := Option.bind_eq_some_iff.mp h
    obtain ⟨q₂, hq₂, -⟩ := Option.bind_eq_some_iff.mp h
    obtain rfl := EventStage.next_followsUnhealthy hq₂ he
    obtain ⟨before', id', reason, rfl⟩ := EventStage.unhealthy_before hq₁
    have hmem : PoolEvent.workerUnhealthy id' reason ∈
        before' ++ [.workerUnhealthy id' reason] ++ e :: rest :=
      List.mem_append_left _ (List.mem_append_right _ (List.mem_singleton_self _))
    obtain rfl := Option.some.inj (hid _ hmem)
    exact ⟨before', reason, rfl⟩

theorem AnnouncesSpawns.run {config : PoolConfig} {w w' : World} {as : List Action}
    {out : List PoolEvent} (hp : Placed w) (hrun : (system config).run w as = some (w', out)) :
    AnnouncesSpawns w w' out := by
  refine ((system config).run_history (J := fun _ out u => Placed u ∧ AnnouncesSpawns w u out)
    ?_ ⟨hp, AnnouncesSpawns.refl w⟩ hrun).2
  rintro as out u a u' o - ⟨hu, ha⟩ hstep
  exact ⟨hu.step hstep, ha.append (step_announces hu hstep)⟩

/-- The pool events follow the grammar, and announce one spawn for each process
started, in order. -/
theorem event_grammar {config : PoolConfig} {w₀ w : World} {workerIds : List WorkerId}
    {as : List Action} {out : List PoolEvent} (hnew : World.new config = some w₀)
    (hrun : (system config).run (w₀.start config workerIds).1 as = some (w, out))
    (hnames : (system config).Along NamesSpawned (w₀.start config workerIds).1 as) :
    (∀ id, FollowsGrammar id (named id ((w₀.start config workerIds).2 ++ out))) ∧
      ((w₀.start config workerIds).2 ++ out).filterMap PoolEvent.spawned? =
        w.procs.map Process.address := by
  have hp := World.start_placed config hnew workerIds
  obtain rfl := World.new_eq_some hnew
  constructor
  · intro id
    refine followsGrammar_of_accept (fun e he => (mem_named.mp he).2) (q := w.eventStage id) ?_
    have hstart : accept EventStage.next .unknown
        (named id (World.start config ⟨∅, [], []⟩ workerIds).2) =
        some ((World.start config ⟨∅, [], []⟩ workerIds).1.eventStage id) :=
      World.start_eventStage config workerIds.zipIdx ⟨∅, [], []⟩ id
    rw [named_append, accept_append, hstart]
    exact Machine.run_tracks (I := Placed)
      (fun _ _ _ _ hu hs => hu.step hs) (fun _ _ _ _ hu hs hn i => step_eventStage hu hs hn i)
      hp hnames hrun id
  · have hall := (AnnouncesSpawns.forEach (World.startOne_announces config) workerIds.zipIdx
      ⟨∅, [], []⟩).append (AnnouncesSpawns.run hp hrun)
    exact hall.symm

/-- The worker comes up, crashes and is restarted. -/
def readyCrashRestart : List Action :=
  [.print 0 (.event "worker.ready" (some 3001) (some "l0-1") ""), .readStdout 0,
    .tryRecvEvent 100, .exit 0 (some 1), .checkAllHealth (unreachableAt 1000) ["l0-1"],
    .processRestarts 2000 ["l0-1"] fun _ => .ok ()]

theorem event_grammar_readyCrashRestart : ∃ w₀ w out, World.new oneWorker = some w₀ ∧
    (system oneWorker).run (w₀.start oneWorker ["l0-1"]).1 readyCrashRestart = some (w, out) ∧
      (∀ id, FollowsGrammar id (named id ((w₀.start oneWorker ["l0-1"]).2 ++ out))) ∧
        ((w₀.start oneWorker ["l0-1"]).2 ++ out).filterMap PoolEvent.spawned? =
          w.procs.map Process.address := by
  obtain ⟨⟨w, out⟩, hrun⟩ :
      ∃ r, (system oneWorker).run oneWorkerStarted readyCrashRestart = some r :=
    Option.isSome_iff_exists.mp (by decide)
  exact ⟨⟨∅, [], []⟩, w, out, rfl, hrun, event_grammar rfl hrun (by decide)⟩

end L0Worker.Supervisor
