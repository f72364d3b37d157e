import L0Worker.Supervisor.Feed

/-!
# Runs of the event feed

A run of the feed keeps two things apart.  `Handled` is about the events on their way to the
broadcast channel: what is broadcast are the events announced, in the order in which they were,
and `SupervisorReady` somewhere between them.  `Clients` is about what comes after: each client
reads on from the place where it subscribed.

`feed_delivers` puts the two together with what the client makes of the text of its stream, and
`feed_complete_iff` says when the client misses nothing.
-/

namespace L0Worker.Supervisor

/-! ## Steps -/

section Runs

variable {σ α : Type*} {M : Machine σ α PoolEvent} {workerCount : Nat} {apiPort : Port}

/-- What a step of the feed does. -/
inductive FeedStep (M : Machine σ α PoolEvent) (workerCount : Nat) (apiPort : Port)
    (s : FeedState σ) : FeedAction α → FeedState σ → List FeedEffect → Prop where
  | source {a : α} {source : σ} {evs : List PoolEvent}
      (h : M.step s.source a = some (source, evs)) :
      FeedStep M workerCount apiPort s (.source a)
        { s with source := source, poolRx := s.poolRx ++ evs } (evs.map .announced)
  | recv {e : PoolEvent} {rest : List PoolEvent} (h : s.poolRx = e :: rest) :
      FeedStep M workerCount apiPort s .recv
        { s with poolRx := rest, sse := s.sse.send (.pool e) } [.broadcast (.pool e)]
  | listen : FeedStep M workerCount apiPort s .listen { s with listening := true } []
  | ready (h : s.ready = false) :
      FeedStep M workerCount apiPort s .ready
        { s with ready := true, sse := s.sse.send (.supervisorReady workerCount apiPort) }
        [.broadcast (.supervisorReady workerCount apiPort)]
  | connect : FeedStep M workerCount apiPort s .connect { s with sse := s.sse.subscribe }
      [.connected]
  | poll {i : Nat} {item : Received FeedEvent} {sse : Broadcast FeedEvent sseCapacity}
      (h : s.sse.recv i = some (item, sse)) :
      FeedStep M workerCount apiPort s (.poll i) { s with sse := sse } [delivery i item]
  | keepAlive (i : Nat) : FeedStep M workerCount apiPort s (.keepAlive i) s [.keptAlive i]

theorem feedStep {s s' : FeedState σ} {a : FeedAction α} {out : List FeedEffect}
    (h : (feed M workerCount apiPort).step s a = some (s', out)) :
    FeedStep M workerCount apiPort s a s' out := by
  replace h : FeedState.step M workerCount apiPort s a = some (s', out) := h
  cases a with
  | source a =>
      obtain ⟨⟨source, evs⟩, hstep, heq⟩ := Option.map_eq_some_iff.mp h
      cases heq
      exact .source hstep
  | recv =>
      rw [FeedState.step] at h
      split at h
      · cases h
      · next e rest heq =>
        cases h
        exact .recv heq
  | listen =>
      rw [FeedState.step] at h
      split at h
      · cases h
      · cases h
        exact .listen
  | ready =>
      rw [FeedState.step] at h
      split at h
      · next hready =>
        cases h
        exact .ready hready.2
      · cases h
  | connect =>
      rw [FeedState.step] at h
      split at h
      · cases h
        exact .connect
      · cases h
  | poll i =>
      obtain ⟨⟨item, sse⟩, hrecv, heq⟩ := Option.map_eq_some_iff.mp h
      cases heq
      exact .poll hrecv
  | keepAlive i =>
      rw [FeedState.step] at h
      split at h
      · cases h
        exact .keepAlive i
      · cases h

/-! ## Up to the broadcast channel -/

/-- The events handled, with `SupervisorReady` somewhere between them if `main` has sent it. -/
def WithReady (e : FeedEvent) (ready : Bool) (handled : List PoolEvent)
    (sent : List FeedEvent) : Prop :=
  if ready then
    ∃ before after, handled = before ++ after ∧
      sent = before.map .pool ++ e :: after.map .pool
  else sent = handled.map .pool

namespace WithReady

variable {e : FeedEvent} {handled : List PoolEvent} {sent : List FeedEvent}

theorem handle {ready : Bool} (h : WithReady e ready handled sent) (next : PoolEvent) :
    WithReady e ready (handled ++ [next]) (sent ++ [.pool next]) := by
  cases ready with
  | false =>
      have hsent : sent = handled.map .pool := h
      show sent ++ [.pool next] = (handled ++ [next]).map .pool
      rw [hsent, List.map_append, List.map_singleton]
  | true =>
      obtain ⟨before, after, rfl, rfl⟩ := h
      refine ⟨before, after ++ [next], List.append_assoc .., ?_⟩
      rw [List.map_append, List.map_singleton, List.append_assoc, List.cons_append]

theorem becomesReady (h : WithReady e false handled sent) :
    WithReady e true handled (sent ++ [e]) := by
  have hsent : sent = handled.map .pool := h
  exact ⟨handled, [], (List.append_nil _).symm, congrArg (· ++ [e]) hsent⟩

/-- Every event sent is the one of `main`, or was handled. -/
theorem mem {ready : Bool} (h : WithReady e ready handled sent) {e' : FeedEvent}
    (he' : e' ∈ sent) : e' = e ∨ ∃ ev ∈ handled, e' = .pool ev := by
  have hpool : ∀ {evs : List PoolEvent}, e' ∈ evs.map FeedEvent.pool →
      ∃ ev ∈ evs, e' = .pool ev := by
    intro evs hmem
    obtain ⟨ev, hev, rfl⟩ := List.mem_map.mp hmem
    exact ⟨ev, hev, rfl⟩
  cases ready with
  | false =>
      have hsent : sent = handled.map .pool := h
      exact .inr (hpool (hsent ▸ he'))
  | true =>
      obtain ⟨before, after, rfl, rfl⟩ := h
      obtain hmem | hmem := List.mem_append.mp he'
      · obtain ⟨ev, hev, heq⟩ := hpool hmem
        exact .inr ⟨ev, List.mem_append_left _ hev, heq⟩
      · obtain rfl | hmem := List.mem_cons.mp hmem
        · exact .inl rfl
        · obtain ⟨ev, hev, heq⟩ := hpool hmem
          exact .inr ⟨ev, List.mem_append_right _ hev, heq⟩

/-- What is broadcast is what was handled. -/
theorem pool {ready : Bool} (h : WithReady e ready handled sent) (he : e.pool? = none) :
    sent.filterMap FeedEvent.pool? = handled := by
  have hpool : ∀ evs : List PoolEvent,
      (evs.map FeedEvent.pool).filterMap FeedEvent.pool? = evs := by
    intro evs
    rw [List.filterMap_map]
    exact List.filterMap_some
  cases ready with
  | false =>
      have hsent : sent = handled.map .pool := h
      rw [hsent, hpool]
  | true =>
      obtain ⟨before, after, rfl, rfl⟩ := h
      rw [List.filterMap_append, List.filterMap_cons, he, hpool]
      exact congrArg (before ++ ·) (hpool after)

end WithReady

/-- The events announced. -/
def announcedIn (out : List FeedEffect) : List PoolEvent :=
  out.filterMap FeedEffect.announced?

/-- The events announced are handled in order, and nothing else is broadcast but
`SupervisorReady`, at most once. -/
def Handled (e : FeedEvent) (announced : List PoolEvent) (out : List FeedEffect)
    (s : FeedState σ) : Prop :=
  ∃ handled, announced ++ announcedIn out = handled ++ s.poolRx ∧
    WithReady e s.ready handled (broadcasts out)

theorem announcedIn_announced (evs : List PoolEvent) :
    announcedIn (evs.map .announced) = evs := by
  rw [announcedIn, List.filterMap_map]
  exact List.filterMap_some

theorem broadcasts_announced (evs : List PoolEvent) : broadcasts (evs.map .announced) = [] := by
  rw [broadcasts, List.filterMap_map]
  exact List.filterMap_eq_nil_iff.mpr fun _ _ => rfl

theorem broadcasts_append (out o : List FeedEffect) :
    broadcasts (out ++ o) = broadcasts out ++ broadcasts o :=
  List.filterMap_append

theorem Handled.step {announced : List PoolEvent} {out o : List FeedEffect}
    {s s' : FeedState σ} {a : FeedAction α}
    (h : Handled (.supervisorReady workerCount apiPort) announced out s)
    (hstep : FeedStep M workerCount apiPort s a s' o) :
    Handled (.supervisorReady workerCount apiPort) announced (out ++ o) s' := by
  obtain ⟨handled, hannounced, hready⟩ := h
  have hall : announced ++ announcedIn (out ++ o) = handled ++ s.poolRx ++ announcedIn o := by
    rw [← hannounced, announcedIn, List.filterMap_append, ← List.append_assoc]
    rfl
  rw [Handled, hall, broadcasts_append]
  cases hstep with
  | @source a source evs hsource =>
      refine ⟨handled, ?_, ?_⟩
      · rw [announcedIn_announced, List.append_assoc]
      · rw [broadcasts_announced, List.append_nil]
        exact hready
  | @recv e rest hrx =>
      refine ⟨handled ++ [e], ?_, hready.handle e⟩
      rw [hrx, List.append_assoc, List.append_assoc]
      exact congrArg (handled ++ ·) (List.append_nil _)
  | ready hr =>
      rw [hr] at hready
      exact ⟨handled, List.append_nil _, hready.becomesReady⟩
  | @poll i item sse hrecv =>
      refine ⟨handled, ?_, ?_⟩
      · cases item <;> exact List.append_nil _
      · cases item <;> exact (List.append_nil (broadcasts out)).symm ▸ hready
  | _ => exact ⟨handled, List.append_nil _, (List.append_nil (broadcasts out)).symm ▸ hready⟩

/-! ## From the broadcast channel on -/

/-- Each client reads on from the place where it subscribed. -/
structure Clients (out : List FeedEffect) (sse : Broadcast FeedEvent sseCapacity) : Prop where
  sent : sse.sent = broadcasts out
  connected : sse.cursors.length = out.countP FeedEffect.isConnected
  reads : ∀ i q, sse.cursors[i]? = some q → ∃ p, p ≤ sse.sent.length ∧
    sse.sent.drop p = since i out ∧ Reads sse.sent p (receivedBy i out) q
  unheard : ∀ i, sse.cursors.length ≤ i → receivedBy i out = []

theorem receivedBy_append (i : Nat) (out o : List FeedEffect) :
    receivedBy i (out ++ o) = receivedBy i out ++ receivedBy i o :=
  List.filterMap_append

theorem receivedBy_delivery (i j : Nat) (item : Received FeedEvent) :
    receivedBy i [delivery j item] = if j = i then [item] else [] := by
  by_cases hj : j = i
  · subst hj
    cases item <;> simp [receivedBy, delivery, FeedEffect.received?]
  · cases item <;> simp [receivedBy, delivery, FeedEffect.received?, hj]

namespace Clients

variable {out : List FeedEffect} {sse sse' : Broadcast FeedEvent sseCapacity}

/-- A step in which no client does anything. -/
theorem unmoved {o : List FeedEffect} (h : Clients out sse) (hcursors : sse'.cursors = sse.cursors)
    (hsent : sse'.sent = sse.sent ++ broadcasts o)
    (hconnected : o.countP FeedEffect.isConnected = 0) (hheard : ∀ i, receivedBy i o = []) :
    Clients (out ++ o) sse' where
  sent := by rw [hsent, broadcasts_append, h.sent]
  connected := by rw [hcursors, h.connected, List.countP_append, hconnected, Nat.add_zero]
  reads i q hq := by
    rw [hcursors] at hq
    obtain ⟨p, hp, hdrop, hreads⟩ := h.reads i q hq
    have hi : i < out.countP FeedEffect.isConnected :=
      h.connected ▸ (List.getElem?_eq_some_iff.mp hq).1
    refine ⟨p, ?_, ?_, ?_⟩
    · rw [hsent, List.length_append]
      exact Nat.le_add_right_of_le hp
    · rw [hsent, List.drop_append_of_le_length hp, hdrop, since_append hi]
    · rw [hsent, receivedBy_append, hheard i, List.append_nil]
      exact hreads.sent_append _
  unheard i hi := by
    rw [hcursors] at hi
    rw [receivedBy_append, hheard i, List.append_nil, h.unheard i hi]

theorem connect (h : Clients out sse) : Clients (out ++ [.connected]) sse.subscribe where
  sent := by
    rw [broadcasts_append]
    exact h.sent.trans (List.append_nil _).symm
  connected := by
    rw [List.countP_append, ← h.connected]
    exact List.length_append
  reads i q hq := by
    have hq : (sse.cursors ++ [sse.sent.length])[i]? = some q := hq
    have hheard : receivedBy i (out ++ [.connected]) = receivedBy i out :=
      (receivedBy_append i out _).trans (List.append_nil _)
    rw [hheard]
    rcases Nat.lt_or_ge i sse.cursors.length with hi | hi
    · rw [List.getElem?_append_left hi] at hq
      obtain ⟨p, hp, hdrop, hreads⟩ := h.reads i q hq
      refine ⟨p, hp, ?_, hreads⟩
      rw [since_append (h.connected ▸ hi)]
      exact hdrop.trans (List.append_nil _).symm
    · -- it is the new client
      rw [List.getElem?_append_right hi] at hq
      obtain ⟨hlt, rfl⟩ := List.getElem?_eq_some_iff.mp hq
      rw [List.length_singleton] at hlt
      obtain rfl : i = out.countP FeedEffect.isConnected := by
        rw [← h.connected]
        omega
      rw [List.getElem_singleton]
      refine ⟨sse.sent.length, Nat.le_refl _, ?_, ?_⟩
      · rw [since_connected]
        exact List.drop_length
      · rw [h.unheard _ hi]
        exact .nil _
  unheard i hi := by
    have hi : (sse.cursors ++ [sse.sent.length]).length ≤ i := hi
    rw [List.length_append] at hi
    exact (receivedBy_append i out _).trans
      ((List.append_nil _).trans (h.unheard i (Nat.le_of_succ_le hi)))

theorem poll {j : Nat} {item : Received FeedEvent} (h : Clients out sse)
    (hrecv : sse.recv j = some (item, sse')) : Clients (out ++ [delivery j item]) sse' := by
  obtain ⟨p₀, q₀, hp₀, hsent, hcursors, hread, -⟩ := Broadcast.recv_spec hrecv
  have hj := (List.getElem?_eq_some_iff.mp hp₀).1
  have hquiet : broadcasts [delivery j item] = [] := by cases item <;> rfl
  have hnoone : [delivery j item].countP FeedEffect.isConnected = 0 := by cases item <;> rfl
  refine ⟨?_, ?_, fun i q hq => ?_, fun i hi => ?_⟩
  · rw [hsent, broadcasts_append, hquiet, List.append_nil, h.sent]
  · rw [hcursors, List.length_set, List.countP_append, hnoone, Nat.add_zero, h.connected]
  · rw [hsent, receivedBy_append, receivedBy_delivery]
    rw [hcursors] at hq
    by_cases hij : j = i
    · subst hij
      obtain ⟨p, hp, hdrop, hreads⟩ := h.reads j p₀ hp₀
      rw [List.getElem?_set_self hj] at hq
      obtain rfl := Option.some.inj hq
      refine ⟨p, hp, ?_, ?_⟩
      · rw [since_append (h.connected ▸ hj), hquiet, List.append_nil, hdrop]
      · rw [if_pos rfl]
        exact hreads.append hread
    · rw [List.getElem?_set_ne hij] at hq
      obtain ⟨p, hp, hdrop, hreads⟩ := h.reads i q hq
      have hi := (List.getElem?_eq_some_iff.mp hq).1
      refine ⟨p, hp, ?_, ?_⟩
      · rw [since_append (h.connected ▸ hi), hquiet, List.append_nil, hdrop]
      · rw [if_neg hij, List.append_nil]
        exact hreads
  · rw [hcursors, List.length_set] at hi
    rw [receivedBy_append, receivedBy_delivery, if_neg (fun heq => absurd hj (by omega)),
      List.append_nil, h.unheard i hi]

theorem step {s s' : FeedState σ} {a : FeedAction α} {o : List FeedEffect}
    (h : Clients out s.sse) (hstep : FeedStep M workerCount apiPort s a s' o) :
    Clients (out ++ o) s'.sse := by
  cases hstep with
  | @source a source evs hsource =>
      refine h.unmoved rfl ?_ ?_ fun i => ?_
      · rw [broadcasts_announced, List.append_nil]
      · rw [List.countP_map]
        exact List.countP_eq_zero.mpr fun _ _ => nofun
      · rw [receivedBy, List.filterMap_map]
        exact List.filterMap_eq_nil_iff.mpr fun _ _ => rfl
  | recv hrx => exact h.unmoved rfl rfl rfl fun _ => rfl
  | listen => exact h.unmoved rfl (List.append_nil _).symm rfl fun _ => rfl
  | ready hr => exact h.unmoved rfl rfl rfl fun _ => rfl
  | connect => exact h.connect
  | poll hrecv => exact h.poll hrecv
  | keepAlive i => exact h.unmoved rfl (List.append_nil _).symm rfl fun _ => rfl

end Clients

/-! ## Whole runs -/

/-- The step of the source, if it is one. -/
def FeedAction.source? : FeedAction α → Option α
  | .source a => some a
  | _ => none

/-- A run of the feed is a run of its source. -/
theorem feed_source {s s' : FeedState σ} {as : List (FeedAction α)} {out : List FeedEffect}
    (hrun : (feed M workerCount apiPort).run s as = some (s', out)) :
    M.run s.source (as.filterMap FeedAction.source?) = some (s'.source, announcedIn out) := by
  refine (feed M workerCount apiPort).run_history
    (J := fun as out u => M.run s.source (as.filterMap FeedAction.source?) =
      some (u.source, announcedIn out)) ?_ rfl hrun
  intro as out u a u' o _ hu hstep
  rw [List.filterMap_append, announcedIn, List.filterMap_append, Machine.run_append_iff]
  refine ⟨u.source, announcedIn out, announcedIn o, hu, ?_, rfl⟩
  cases feedStep hstep with
  | @source a source evs hsource =>
      rw [announcedIn_announced]
      exact M.run_singleton_iff.mpr hsource
  | @poll i item sse hrecv => cases item <;> rfl
  | _ => rfl

/-- What a run of the feed keeps. -/
theorem feed_run {source : σ} {announced : List PoolEvent} {s : FeedState σ}
    {as : List (FeedAction α)} {out : List FeedEffect}
    (hrun : (feed M workerCount apiPort).run (.init source announced) as = some (s, out)) :
    Handled (.supervisorReady workerCount apiPort) announced out s ∧ Clients out s.sse := by
  refine (feed M workerCount apiPort).run_history
    (J := fun _ out u => Handled (.supervisorReady workerCount apiPort) announced out u ∧
      Clients out u.sse) ?_ ⟨⟨[], List.append_nil _, ?_⟩, ?_⟩ hrun
  · rintro as out u a u' o - ⟨hhandled, hclients⟩ hstep
    exact ⟨hhandled.step (feedStep hstep), hclients.step (feedStep hstep)⟩
  · show broadcasts [] = _
    rfl
  · exact ⟨rfl, rfl, nofun, fun _ _ => rfl⟩

/-- What client `i` has been sent was broadcast. -/
theorem Clients.delivered_mem {out : List FeedEffect} {sse : Broadcast FeedEvent sseCapacity}
    (h : Clients out sse) {i : Nat} {e : FeedEvent} (he : .delivered i e ∈ out) :
    e ∈ broadcasts out := by
  have hmem : Received.value e ∈ receivedBy i out :=
    List.mem_filterMap.mpr ⟨_, he, if_pos rfl⟩
  rcases Nat.lt_or_ge i sse.cursors.length with hi | hi
  · obtain ⟨p, -, -, hreads⟩ := h.reads i _ (List.getElem?_eq_getElem hi)
    have hvalue : e ∈ (receivedBy i out).filterMap Received.value? :=
      List.mem_filterMap.mpr ⟨_, hmem, rfl⟩
    rw [← h.sent]
    exact List.mem_of_mem_drop (hreads.sublist.subset (List.mem_append_left _ hvalue))
  · rw [h.unheard i hi] at hmem
    cases hmem

/-- What a client reads and what waits for it. -/
theorem feed_reads {source : σ} {announced : List PoolEvent} {s : FeedState σ}
    {as : List (FeedAction α)} {out : List FeedEffect} (hcount : workerCount ≤ 2 ^ 53)
    (hrun : (feed M workerCount apiPort).run (.init source announced) as = some (s, out))
    {i : Nat} (hi : i < out.countP FeedEffect.isConnected) :
    ∃ p q, p ≤ s.sse.sent.length ∧ s.sse.sent.drop p = since i out ∧
      Reads s.sse.sent p (receivedBy i out) q ∧
      readFeed (streamOf i out) ++ s.sse.waiting i =
        (receivedBy i out).filterMap Received.value? ++ s.sse.sent.drop q := by
  obtain ⟨⟨handled, hannounced, hready⟩, hclients⟩ := feed_run hrun
  have hsent : ∀ e, .delivered i e ∈ out → e.Fits := by
    intro e he
    obtain rfl | ⟨ev, hev, rfl⟩ := hready.mem (hclients.delivered_mem he)
    · exact hcount
    · trivial
  have hq := List.getElem?_eq_getElem (hclients.connected ▸ hi)
  obtain ⟨p, hp, hdrop, hreads⟩ := hclients.reads i _ hq
  refine ⟨p, _, hp, hdrop, hreads, ?_⟩
  rw [readFeed_streamOf hsent, Broadcast.waiting, hq]

/-- The polls of a client that is never told that it lags. -/
theorem feed_along_iff {s s' : FeedState σ} {as : List (FeedAction α)} {out : List FeedEffect}
    (hrun : (feed M workerCount apiPort).run s as = some (s', out)) (i : Nat) :
    (feed M workerCount apiPort).Along
        (fun s a _ _ => a = .poll i → (s.sse.waiting i).length ≤ sseCapacity) s as ↔
      ∀ item ∈ receivedBy i out, item.value?.isSome = true := by
  have hstep : ∀ s a s' o, True → (feed M workerCount apiPort).step s a = some (s', o) →
      ((a = .poll i → (s.sse.waiting i).length ≤ sseCapacity) ↔
        ∀ e ∈ o, ∀ item, e.received? i = some item → item.value?.isSome = true) := by
    intro s a s' o _ hstep
    cases feedStep hstep with
    | @source a source evs hsource =>
        refine iff_of_true nofun fun e he => ?_
        obtain ⟨ev, -, rfl⟩ := List.mem_map.mp he
        exact nofun
    | @poll j item sse hrecv =>
        obtain ⟨-, -, -, -, -, -, hkeeps⟩ := Broadcast.recv_spec hrecv
        rw [List.forall_mem_singleton]
        by_cases hj : j = i
        · subst hj
          have hgets : (delivery j item).received? j = some item := by
            cases item <;> exact if_pos rfl
          rw [hgets, ← hkeeps]
          simp
        · have hgets : (delivery j item).received? i = none := by
            cases item <;> exact if_neg hj
          rw [hgets]
          exact iff_of_true (fun heq => absurd (FeedAction.poll.inj heq) hj) nofun
    | listen => exact iff_of_true nofun (List.forall_mem_nil _)
    | _ => exact iff_of_true nofun (List.forall_mem_singleton.mpr nofun)
  rw [Machine.Along.congr (I := fun _ => True) hstep (fun _ _ _ _ _ _ _ => trivial) trivial,
    Machine.Along.forall_output_iff hrun]
  simp only [receivedBy, List.mem_filterMap, forall_exists_index, and_imp]
  exact ⟨fun h item e he hitem => h e he item hitem, fun h e he item hitem => h item e he hitem⟩

end Runs

/-! ## The feed of the pool -/

/-- The feed of the pool. -/
def poolFeed (config : PoolConfig) (apiPort : Port) :
    Machine (FeedState World) (FeedAction Action) FeedEffect :=
  feed (system config) config.workerCount apiPort

/-- The feed of the pool when `start` has returned. -/
def poolFeedInit (config : PoolConfig) (w₀ : World) (workerIds : List WorkerId) :
    FeedState World :=
  .init (w₀.start config workerIds).1 (w₀.start config workerIds).2

section Pool

variable {config : PoolConfig} {apiPort : Port} {w₀ : World} {workerIds : List WorkerId}
variable {s : FeedState World} {as : List (FeedAction Action)} {out : List FeedEffect}

/-- The pool events announced are broadcast in order, with `SupervisorReady` once between them.
What a client reads and what waits for it was broadcast after it connected, is in that order,
and nothing comes twice. -/
theorem feed_delivers (hcount : config.workerCount ≤ 2 ^ 53)
    (hrun : (poolFeed config apiPort).run (poolFeedInit config w₀ workerIds) as = some (s, out)) :
    (∃ handled, (w₀.start config workerIds).2 ++ announcedIn out = handled ++ s.poolRx ∧
      WithReady (.supervisorReady config.workerCount apiPort) s.ready handled (broadcasts out)) ∧
    ∀ i, i < out.countP FeedEffect.isConnected →
      (readFeed (streamOf i out) ++ s.sse.waiting i).Sublist (since i out) := by
  refine ⟨(feed_run hrun).1, fun i hi => ?_⟩
  obtain ⟨p, q, -, hsince, hreads, hread⟩ := feed_reads hcount hrun hi
  rw [hread, ← hsince]
  exact hreads.sublist

/-- What a client reads and what waits for it is everything broadcast after it connected
exactly if it is polled before more waits for it than the channel holds. -/
theorem feed_complete_iff (hcount : config.workerCount ≤ 2 ^ 53)
    (hrun : (poolFeed config apiPort).run (poolFeedInit config w₀ workerIds) as = some (s, out))
    {i : Nat} (hi : i < out.countP FeedEffect.isConnected) :
    readFeed (streamOf i out) ++ s.sse.waiting i = since i out ↔
      (poolFeed config apiPort).Along
        (fun s a _ _ => a = .poll i → (s.sse.waiting i).length ≤ sseCapacity)
        (poolFeedInit config w₀ workerIds) as := by
  obtain ⟨p, q, hp, hsince, hreads, hread⟩ := feed_reads hcount hrun hi
  rw [hread, ← hsince, poolFeed, feed_along_iff hrun i]
  exact hreads.reads_all_iff hp

end Pool

/-- The first client connects before `main` goes on, the second when the worker is healthy. -/
def twoClients : List (FeedAction Action) :=
  [.recv, .listen, .connect, .ready, .poll 0,
    .source (.print 0 (.event "worker.ready" (some 3001) (some "l0-1") "")),
    .source (.readStdout 0), .source (.tryRecvEvent 100), .recv, .connect, .recv, .keepAlive 0,
    .poll 0, .poll 1]

def twoClientsEffects : List FeedEffect :=
  [.broadcast (.pool (.workerSpawned "l0-1" 3001)), .connected,
    .broadcast (.supervisorReady 1 9000), .delivered 0 (.supervisorReady 1 9000),
    .announced (.workerHealthy "l0-1" 3001), .announced .allWorkersHealthy,
    .broadcast (.pool (.workerHealthy "l0-1" 3001)), .connected,
    .broadcast (.pool .allWorkersHealthy), .keptAlive 0,
    .delivered 0 (.pool (.workerHealthy "l0-1" 3001)), .delivered 1 (.pool .allWorkersHealthy)]

theorem twoClients_run : ∃ s,
    (poolFeed oneWorker 9000).run (poolFeedInit oneWorker ⟨∅, [], []⟩ ["l0-1"]) twoClients =
      some (s, twoClientsEffects) := by
  have hrun : ((poolFeed oneWorker 9000).run (poolFeedInit oneWorker ⟨∅, [], []⟩ ["l0-1"])
      twoClients).map Prod.snd = some twoClientsEffects := by
    decide +kernel
  obtain ⟨⟨s, out⟩, hrun, rfl⟩ := Option.map_eq_some_iff.mp hrun
  exact ⟨s, hrun⟩

theorem feed_delivers_twoClients : ∃ s,
    (poolFeed oneWorker 9000).run (poolFeedInit oneWorker ⟨∅, [], []⟩ ["l0-1"]) twoClients =
      some (s, twoClientsEffects) ∧
    (readFeed (streamOf 0 twoClientsEffects) ++ s.sse.waiting 0).Sublist
      [.supervisorReady 1 9000, .pool (.workerHealthy "l0-1" 3001), .pool .allWorkersHealthy] := by
  obtain ⟨s, hrun⟩ := twoClients_run
  exact ⟨s, hrun, (feed_delivers (by decide) hrun).2 0 (by decide)⟩

theorem feed_complete_iff_twoClients : ∃ s,
    (poolFeed oneWorker 9000).run (poolFeedInit oneWorker ⟨∅, [], []⟩ ["l0-1"]) twoClients =
      some (s, twoClientsEffects) ∧
    readFeed (streamOf 0 twoClientsEffects) ++ s.sse.waiting 0 =
      [.supervisorReady 1 9000, .pool (.workerHealthy "l0-1" 3001), .pool .allWorkersHealthy] := by
  obtain ⟨s, hrun⟩ := twoClients_run
  refine ⟨s, hrun, (feed_complete_iff (by decide) hrun (by decide)).mpr ?_⟩
  exact (feed_along_iff hrun 0).mpr (by decide)

end L0Worker.Supervisor
