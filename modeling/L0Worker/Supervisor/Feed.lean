import L0Worker.Lib.Broadcast
import L0Worker.Lib.JsonRoundtrip
import L0Worker.Lib.NamedEvents
import L0Worker.Lib.NumberText
import L0Worker.Server.Status
import L0Worker.Server.SubmitStream
import L0Worker.Supervisor.Events

/-!
# The event feed

How pool events reach the clients of `GET /workers/events`.  The pool sends an event on a
channel; the event handler of `main` takes it from there and sends it on a broadcast channel;
the stream of a client, `get_worker_events`, takes it from that and writes it as a server-sent
event with a name and JSON data.  Once the API listens, `main` sends `SupervisorReady` past the
pool.  A client that falls more than the capacity of the broadcast channel behind loses events.

The machine `feed` has a machine that announces pool events as its source, so that it can be put
behind the pool as well as behind the whole cluster.  Its `poolRx` holds the events that are
announced and not handled yet, also those for which a `send` still waits for a place.

What a client reads over a whole run, and when it misses nothing, is in `FeedRuns`.
-/

namespace L0Worker.Supervisor

open EventStream (Block)
open Server (unsigned unsigned_ofNat)
open Schema

/-! ## Events as messages -/

/-- What is sent on the broadcast channel: `SupervisorReady`, or an event of the pool. -/
inductive FeedEvent where
  | supervisorReady (workerCount : Nat) (apiPort : Port)
  | pool (e : PoolEvent)
deriving Repr, DecidableEq

namespace FeedEvent

/-- The pool event, if it is one. -/
def pool? : FeedEvent → Option PoolEvent
  | .supervisorReady _ _ => none
  | .pool e => some e

/-- The name of the event. -/
def eventType : FeedEvent → String
  | .supervisorReady _ _ => "supervisor_ready"
  | .pool (.workerSpawned _ _) => "worker_spawned"
  | .pool (.workerHealthy _ _) => "worker_healthy"
  | .pool (.workerUnhealthy _ _) => "worker_unhealthy"
  | .pool (.workerDraining _) => "worker_draining"
  | .pool (.workerDrained _) => "worker_drained"
  | .pool (.workerRestarting _ _) => "worker_restarting"
  | .pool (.workerFailed _) => "worker_failed"
  | .pool .allWorkersHealthy => "all_workers_healthy"
  | .pool .shuttingDown => "shutting_down"

/-- The fields of `EventData`. -/
def eventData : FeedEvent → List (String × Json)
  | .supervisorReady workerCount apiPort =>
      [("worker_count", .num (.ofNat workerCount)), ("api_port", .num (.ofNat apiPort.toNat))]
  | .pool (.workerSpawned id port) | .pool (.workerHealthy id port) =>
      [("id", .str id), ("port", .num (.ofNat port.toNat))]
  | .pool (.workerUnhealthy id reason) => [("id", .str id), ("reason", .str reason)]
  | .pool (.workerDraining id) | .pool (.workerDrained id) | .pool (.workerFailed id) =>
      [("id", .str id)]
  | .pool (.workerRestarting id attempt) =>
      [("id", .str id), ("attempt", .num (.ofNat attempt.toNat))]
  | .pool .allWorkersHealthy | .pool .shuttingDown => []

/-- What `get_worker_events` makes of an event. -/
def block (e : FeedEvent) : Block := .message e.eventType (Json.obj e.eventData).stringify

/-- The number of workers, a `usize`, is one that JavaScript reads exactly. -/
def Fits : FeedEvent → Prop
  | .supervisorReady workerCount _ => workerCount ≤ 2 ^ 53
  | .pool _ => True

end FeedEvent

/-! ## Reading messages -/

/-- A port. -/
def portSchema : Schema Port := fun v => (unsigned (2 ^ 16) v).map UInt16.ofNat

/-- An attempt. -/
def attemptSchema : Schema UInt32 := fun v => (unsigned (2 ^ 32) v).map UInt32.ofNat

/-- An event that names a worker and nothing else. -/
def workerEventSchema (event : WorkerId → PoolEvent) : Schema FeedEvent :=
  object fun fields => do
    let id ← string (fields.lookup "id")
    return .pool (event id)

/-- An event that names a worker and its port. -/
def addressEventSchema (event : WorkerId → Port → PoolEvent) : Schema FeedEvent :=
  object fun fields => do
    let id ← string (fields.lookup "id")
    let port ← portSchema (fields.lookup "port")
    return .pool (event id port)

/-- How a client reads the data of a message, by its name. -/
def feedSchemas : List (String × Schema FeedEvent) :=
  [("supervisor_ready", object fun fields => do
      let workerCount ← unsigned (2 ^ 64) (fields.lookup "worker_count")
      let apiPort ← portSchema (fields.lookup "api_port")
      return .supervisorReady workerCount apiPort),
    ("worker_spawned", addressEventSchema .workerSpawned),
    ("worker_healthy", addressEventSchema .workerHealthy),
    ("worker_unhealthy", object fun fields => do
      let id ← string (fields.lookup "id")
      let reason ← string (fields.lookup "reason")
      return .pool (.workerUnhealthy id reason)),
    ("worker_draining", workerEventSchema .workerDraining),
    ("worker_drained", workerEventSchema .workerDrained),
    ("worker_restarting", object fun fields => do
      let id ← string (fields.lookup "id")
      let attempt ← attemptSchema (fields.lookup "attempt")
      return .pool (.workerRestarting id attempt)),
    ("worker_failed", workerEventSchema .workerFailed),
    ("all_workers_healthy", object fun _ => some (.pool .allWorkersHealthy)),
    ("shutting_down", object fun _ => some (.pool .shuttingDown))]

/-- What a client makes of a message. -/
def readMessage (m : String × String) : Option FeedEvent :=
  (feedSchemas.lookup m.1).bind fun schema => (Json.parse m.2).bind fun v => schema (some v)

/-- The events a client reads from the text of its stream. -/
def readFeed (text : String) : List FeedEvent :=
  (EventStream.namedMessages text).filterMap readMessage

theorem portSchema_ofNat (port : Port) :
    portSchema (some (.num (.ofNat port.toNat))) = some port := by
  rw [portSchema, unsigned_ofNat, if_pos port.toNat_lt]
  exact congrArg some (UInt16.ofNat_toNat)

theorem attemptSchema_ofNat (attempt : UInt32) :
    attemptSchema (some (.num (.ofNat attempt.toNat))) = some attempt := by
  rw [attemptSchema, unsigned_ofNat, if_pos attempt.toNat_lt]
  exact congrArg some (UInt32.ofNat_toNat)

theorem addressEventSchema_fields (event : WorkerId → Port → PoolEvent) (id : WorkerId)
    (port : Port) :
    addressEventSchema event (some (.obj [("id", .str id), ("port", .num (.ofNat port.toNat))])) =
      some (.pool (event id port)) := by
  show (portSchema (some (.num (.ofNat port.toNat)))).bind (fun port =>
    some (FeedEvent.pool (event id port))) = _
  rw [portSchema_ofNat]
  rfl

/-- The names of the fields. -/
def feedNames : List String := ["worker_count", "api_port", "id", "port", "reason", "attempt"]

theorem FeedEvent.names_mem (e : FeedEvent) :
    ∀ name ∈ e.eventData.map Prod.fst, name ∈ feedNames := by
  cases e with
  | supervisorReady workerCount apiPort => simp [eventData, feedNames]
  | pool e => cases e <;> simp [eventData, feedNames]

theorem FeedEvent.names_nodup (e : FeedEvent) : (e.eventData.map Prod.fst).Nodup := by
  cases e with
  | supervisorReady workerCount apiPort => simp [eventData]
  | pool e => cases e <;> simp [eventData]

theorem isDouble_port (port : Port) : (Number.ofNat port.toNat).IsDouble :=
  Number.isDouble_ofNat (Nat.le_trans (Nat.le_of_lt port.toNat_lt) (by norm_num))

theorem FeedEvent.wellFormed {e : FeedEvent} (h : e.Fits) : (Json.obj e.eventData).WellFormed := by
  have hnames : ∀ name ∈ feedNames, OwnKeys.arrayIndex? name = none := by decide
  refine .obj (OwnKeys.ordered_of_names (fun name hname => hnames name (e.names_mem name hname))
    e.names_nodup) ?_
  cases e with
  | supervisorReady workerCount apiPort =>
      have hcount : (Number.ofNat workerCount).IsDouble := Number.isDouble_ofNat h
      simp [eventData, Json.WellFormed.num hcount, Json.WellFormed.num (isDouble_port _)]
  | pool e =>
      cases e with
      | workerRestarting id attempt =>
          have hattempt : (Number.ofNat attempt.toNat).IsDouble :=
            Number.isDouble_ofNat (Nat.le_trans (Nat.le_of_lt attempt.toNat_lt) (by norm_num))
          simp [eventData, Json.WellFormed.str, Json.WellFormed.num hattempt]
      | _ => simp [eventData, Json.WellFormed.str, Json.WellFormed.num (isDouble_port _)]

/-- A client reads an event from its message. -/
theorem readMessage_block {e : FeedEvent} (h : e.Fits) :
    readMessage (e.eventType, (Json.obj e.eventData).stringify) = some e := by
  rw [readMessage, Json.parse_stringify (FeedEvent.wellFormed h)]
  cases e with
  | supervisorReady workerCount apiPort =>
      have hcount :
          unsigned (2 ^ 64) (some (Json.num (.ofNat workerCount))) = some workerCount := by
        rw [unsigned_ofNat, if_pos (Nat.lt_of_le_of_lt h (by norm_num))]
      show (unsigned (2 ^ 64) (some (Json.num (.ofNat workerCount)))).bind (fun n =>
        (portSchema (some (.num (.ofNat apiPort.toNat)))).bind fun port =>
          some (FeedEvent.supervisorReady n port)) = _
      rw [hcount, portSchema_ofNat]
      rfl
  | pool e =>
      cases e with
      | workerSpawned id port => exact addressEventSchema_fields .workerSpawned id port
      | workerHealthy id port => exact addressEventSchema_fields .workerHealthy id port
      | workerRestarting id attempt =>
          show (attemptSchema (some (.num (.ofNat attempt.toNat)))).bind (fun attempt =>
            some (FeedEvent.pool (.workerRestarting id attempt))) = _
          rw [attemptSchema_ofNat]
          rfl
      | _ => rfl

theorem FeedEvent.block_proper (e : FeedEvent) : e.block.Proper := by
  refine ⟨?_, ?_, Server.singleLine_stringify _⟩
  · cases e with
    | supervisorReady workerCount apiPort =>
        simp [eventType, EventStream.SingleLine, EventStream.isBreak]
    | pool e => cases e <;> simp [eventType, EventStream.SingleLine, EventStream.isBreak]
  · cases e with
    | supervisorReady workerCount apiPort => simp [eventType]
    | pool e => cases e <;> simp [eventType]

/-! ## The machine -/

/-- The capacity of the broadcast channel. -/
def sseCapacity : Nat := 64

/-- The state of the feed. -/
structure FeedState (σ : Type*) where
  source : σ
  /-- The events announced that the event handler has not received. -/
  poolRx : List PoolEvent
  /-- The broadcast channel, with a receiver for each client. -/
  sse : Broadcast FeedEvent sseCapacity
  /-- The API is bound and listens. -/
  listening : Bool
  /-- `main` has sent `SupervisorReady`. -/
  ready : Bool

/-- A step of the feed. -/
inductive FeedAction (α : Type*) where
  | source (a : α)
  /-- The event handler receives an event and broadcasts it. -/
  | recv
  | listen
  /-- `main` learns that the API listens, and goes on. -/
  | ready
  /-- `GET /workers/events`. -/
  | connect
  /-- The stream of a client is polled. -/
  | poll (i : Nat)
  /-- A client has not heard anything for a while. -/
  | keepAlive (i : Nat)

/-- What the outside sees of a step.  Clients are numbered as they connect. -/
inductive FeedEffect where
  | announced (e : PoolEvent)
  | broadcast (e : FeedEvent)
  | connected
  /-- The client is sent an event. -/
  | delivered (i : Nat) (e : FeedEvent)
  /-- The client lags, and the stream goes on with what there is. -/
  | skipped (i : Nat) (missed : Nat)
  | keptAlive (i : Nat)
deriving Repr, DecidableEq

section Machine

variable {σ α : Type*}

/-- What the stream of a client does with what it receives. -/
def delivery (i : Nat) : Received FeedEvent → FeedEffect
  | .value e => .delivered i e
  | .lagged missed => .skipped i missed

/-- One step.  The supervisor was asked for `workerCount` workers and has its API on `apiPort`. -/
def FeedState.step (M : Machine σ α PoolEvent) (workerCount : Nat) (apiPort : Port)
    (s : FeedState σ) : FeedAction α → Option (FeedState σ × List FeedEffect)
  | .source a =>
      (M.step s.source a).map fun r =>
        ({ s with source := r.1, poolRx := s.poolRx ++ r.2 }, r.2.map .announced)
  | .recv =>
      match s.poolRx with
      | [] => none
      | e :: rest =>
          some ({ s with poolRx := rest, sse := s.sse.send (.pool e) }, [.broadcast (.pool e)])
  | .listen => if s.listening then none else some ({ s with listening := true }, [])
  | .ready =>
      if s.listening ∧ s.ready = false then
        let e := FeedEvent.supervisorReady workerCount apiPort
        some ({ s with ready := true, sse := s.sse.send e }, [.broadcast e])
      else none
  | .connect =>
      if s.listening then some ({ s with sse := s.sse.subscribe }, [.connected]) else none
  | .poll i => (s.sse.recv i).map fun r => ({ s with sse := r.2 }, [delivery i r.1])
  | .keepAlive i => if i < s.sse.cursors.length then some (s, [.keptAlive i]) else none

/-- The feed of what a machine announces. -/
def feed (M : Machine σ α PoolEvent) (workerCount : Nat) (apiPort : Port) :
    Machine (FeedState σ) (FeedAction α) FeedEffect :=
  ⟨FeedState.step M workerCount apiPort⟩

/-- The feed when `start` has returned, with what it announced. -/
def FeedState.init (source : σ) (announced : List PoolEvent) : FeedState σ where
  source := source
  poolRx := announced
  sse := .empty
  listening := false
  ready := false

end Machine

/-! ## Views of the effects -/

namespace FeedEffect

/-- The event that is announced, if one is. -/
def announced? : FeedEffect → Option PoolEvent
  | .announced e => some e
  | _ => none

/-- The event that is broadcast, if one is. -/
def broadcast? : FeedEffect → Option FeedEvent
  | .broadcast e => some e
  | _ => none

/-- A client connects. -/
def isConnected : FeedEffect → Bool
  | .connected => true
  | _ => false

/-- What client `i` receives, if it does. -/
def received? (i : Nat) : FeedEffect → Option (Received FeedEvent)
  | .delivered j e => if j = i then some (.value e) else none
  | .skipped j missed => if j = i then some (.lagged missed) else none
  | _ => none

/-- What client `i` is written, if it is. -/
def block? (i : Nat) : FeedEffect → Option Block
  | .delivered j e => if j = i then some e.block else none
  | .keptAlive j => if j = i then some (.comment "keep-alive") else none
  | _ => none

end FeedEffect

/-- The events broadcast. -/
def broadcasts (out : List FeedEffect) : List FeedEvent := out.filterMap FeedEffect.broadcast?

/-- What client `i` receives. -/
def receivedBy (i : Nat) (out : List FeedEffect) : List (Received FeedEvent) :=
  out.filterMap (FeedEffect.received? i)

/-- The text of the stream of client `i`. -/
def streamOf (i : Nat) (out : List FeedEffect) : String :=
  String.join ((out.filterMap (FeedEffect.block? i)).map Block.text)

/-- The events broadcast after client `i` connected. -/
def since (i : Nat) : List FeedEffect → List FeedEvent
  | [] => []
  | e :: out =>
      if e.isConnected then
        match i with
        | 0 => broadcasts out
        | j + 1 => since j out
      else since i out

theorem since_append {i : Nat} {out : List FeedEffect}
    (h : i < out.countP FeedEffect.isConnected) (o : List FeedEffect) :
    since i (out ++ o) = since i out ++ broadcasts o := by
  induction out generalizing i with
  | nil => exact absurd h (Nat.not_lt_zero i)
  | cons e out ih =>
      rw [List.countP_cons] at h
      cases he : e.isConnected with
      | false =>
          rw [he] at h
          simp only [List.cons_append, since, he, Bool.false_eq_true, if_false]
          exact ih h
      | true =>
          rw [he] at h
          simp only [List.cons_append, since, he, if_true]
          cases i with
          | zero => exact List.filterMap_append
          | succ j => exact ih (Nat.lt_of_succ_lt_succ h)

/-- Nothing was broadcast yet when a client connects. -/
theorem since_connected (out : List FeedEffect) :
    since (out.countP FeedEffect.isConnected) (out ++ [.connected]) = [] := by
  induction out with
  | nil => rfl
  | cons e out ih =>
      rw [List.countP_cons]
      cases he : e.isConnected with
      | false =>
          simp only [List.cons_append, since, he, Bool.false_eq_true, if_false]
          exact ih
      | true =>
          simp only [List.cons_append, since, he, if_true]
          exact ih

/-- A client reads what it received. -/
theorem readFeed_streamOf {i : Nat} {out : List FeedEffect}
    (hfits : ∀ e, .delivered i e ∈ out → e.Fits) :
    readFeed (streamOf i out) = (receivedBy i out).filterMap Received.value? := by
  have hproper : ∀ b ∈ out.filterMap (FeedEffect.block? i), b.Proper := by
    intro b hb
    obtain ⟨e, -, he⟩ := List.mem_filterMap.mp hb
    cases e with
    | delivered j e =>
        obtain ⟨-, he⟩ := Option.ite_none_right_eq_some.mp he
        exact Option.some.inj he ▸ e.block_proper
    | keptAlive j =>
        obtain ⟨-, he⟩ := Option.ite_none_right_eq_some.mp he
        obtain rfl := Option.some.inj he
        simp [EventStream.Block.Proper, EventStream.SingleLine, EventStream.isBreak]
    | _ => cases he
  have hread : ∀ e ∈ out, ((FeedEffect.block? i e).bind Block.message?).bind readMessage =
      (FeedEffect.received? i e).bind Received.value? := by
    intro e he
    cases e with
    | delivered j e =>
        by_cases hj : j = i
        · subst hj
          simp only [FeedEffect.block?, FeedEffect.received?, if_true]
          exact readMessage_block (hfits e he)
        · simp [FeedEffect.block?, FeedEffect.received?, hj]
    | skipped j missed =>
        by_cases hj : j = i
        · simp [FeedEffect.block?, FeedEffect.received?, hj, Received.value?]
        · simp [FeedEffect.block?, FeedEffect.received?, hj]
    | keptAlive j =>
        by_cases hj : j = i
        · simp [FeedEffect.block?, FeedEffect.received?, hj, EventStream.Block.message?]
        · simp [FeedEffect.block?, FeedEffect.received?, hj]
    | _ => rfl
  rw [readFeed, streamOf, EventStream.namedMessages_blocks hproper, receivedBy,
    List.filterMap_filterMap, List.filterMap_filterMap, List.filterMap_filterMap]
  exact List.filterMap_congr fun e he => (Option.bind_assoc ..).symm.trans (hread e he)

end L0Worker.Supervisor
