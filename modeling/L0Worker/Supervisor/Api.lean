import L0Worker.Supervisor.Events

/-!
# The API of the supervisor

The handlers of `api.rs`, each run under a lock of the pool, and the machine in which their
requests interleave with everything else: worker events, sweeps, processes and reader tasks.
Its outputs are the pool events and the answers.

A request reaches a handler through the router of `create_router`, so an `ApiRequest` is one
that has been routed.  The stream of pool events, `GET /workers/events`, is in `Feed`.

Every step is at most one step of the system (`api_run`).
-/

namespace L0Worker.Supervisor

/-! ## Requests and answers -/

/-- The text of a state in a status. -/
def WorkerState.text : WorkerState → String
  | .starting => "starting"
  | .healthy => "healthy"
  | .draining => "draining"
  | .failed _ => "failed"
  | .stopped => "stopped"

/-- `WorkerStatus` of `pool.rs`, what the API tells about a worker. -/
structure PoolWorkerStatus where
  id : WorkerId
  port : Port
  state : String
  consecutiveFailures : UInt32
deriving Repr, DecidableEq

/-- A request, as the router hands it to a handler. -/
inductive ApiRequest where
  /-- `GET /workers`. -/
  | listWorkers
  /-- `GET /workers/:id`. -/
  | getWorker (id : WorkerId)
  /-- `POST /workers/spawn`. -/
  | spawnWorker
  /-- `POST /workers/:id/drain`. -/
  | drainWorker (id : WorkerId)
  /-- `POST /workers/:id/kill`. -/
  | killWorker (id : WorkerId)
  /-- `POST /workers/:id/restart`. -/
  | restartWorker (id : WorkerId)
deriving Repr, DecidableEq

/-- The worker a request names. -/
def ApiRequest.workerId? : ApiRequest → Option WorkerId
  | .getWorker id | .drainWorker id | .killWorker id | .restartWorker id => some id
  | .listWorkers | .spawnWorker => none

/-- The body of an answer. -/
inductive ApiBody where
  /-- `WorkersResponse`. -/
  | workers (workers : List PoolWorkerStatus) (healthyCount totalCount : Nat)
  | worker (status : PoolWorkerStatus)
  /-- `SpawnResponse`. -/
  | spawned (id : WorkerId) (port : Port)
  /-- `OperationResponse`. -/
  | operation (success : Bool) (message : String)
  /-- `ErrorResponse`. -/
  | error (error : String)
deriving Repr, DecidableEq

/-- An answer. -/
structure ApiResponse where
  status : Nat
  body : ApiBody
deriving Repr, DecidableEq

/-- `pool_error_to_status`. -/
def poolErrorToStatus : PoolError → Nat
  | .notFound _ => 404
  | .internal _ => 500

/-- `Display` of `PoolError`. -/
def PoolError.text : PoolError → String
  | .notFound msg | .internal msg => msg

/-- The answer to a request that failed. -/
def errorAnswer (e : PoolError) : ApiResponse := ⟨poolErrorToStatus e, .error e.text⟩

/-! ## Handlers -/

/-- An entry as a status. -/
def ManagedWorker.status (id : WorkerId) (m : ManagedWorker) : PoolWorkerStatus :=
  ⟨id, m.worker.port, m.state.text, m.consecutiveFailures⟩

/-- `WorkerPool::get_workers_status`, with the order in which the map is iterated. -/
def World.getWorkersStatus (w : World) (order : List WorkerId) : List PoolWorkerStatus :=
  order.filterMap fun id => (w.workers.lookup id).map (ManagedWorker.status id)

/-- `WorkerPool::healthy_count`. -/
def World.healthyCount (w : World) (order : List WorkerId) : Nat :=
  (order.filterMap w.workers.lookup).countP fun m => decide (m.state = .healthy)

/-- `list_workers`. -/
def World.listWorkers (w : World) (order : List WorkerId) : ApiResponse :=
  let workers := w.getWorkersStatus order
  ⟨200, .workers workers (w.healthyCount order) workers.length⟩

/-- `get_worker`. -/
def World.getWorker (w : World) (order : List WorkerId) (id : WorkerId) : ApiResponse :=
  match (w.getWorkersStatus order).find? fun s => decide (s.id = id) with
  | some status => ⟨200, .worker status⟩
  | none => ⟨404, .error ("Worker " ++ id ++ " not found")⟩

/-- `spawn_worker`, once the pool has tried.  Every error is an internal one. -/
def spawnAnswer : Except PoolError (WorkerId × Port) → ApiResponse
  | .ok (id, port) => ⟨201, .spawned id port⟩
  | .error e => ⟨500, .error e.text⟩

/-- `drain_worker` and `kill_worker`, once the pool has tried. -/
def operationAnswer (message : String) : Except PoolError Unit → ApiResponse
  | .ok () => ⟨200, .operation true message⟩
  | .error e => errorAnswer e

/-- `restart_worker`, once the pool has tried. -/
def restartAnswer : Except PoolError (WorkerId × Port) → ApiResponse
  | .ok (id, port) => ⟨200, .spawned id port⟩
  | .error e => errorAnswer e

/-! ## The machine -/

/-- What the outside sees of a step. -/
inductive ApiEffect where
  | announced (e : PoolEvent)
  | answered (request : ApiRequest) (response : ApiResponse)
deriving Repr, DecidableEq

/-- A step with the API. -/
inductive ApiAction where
  | listWorkers (order : List WorkerId)
  | getWorker (id : WorkerId) (order : List WorkerId)
  | spawnWorker (newId : WorkerId) (spawned : Except String Unit)
  | drainWorker (id : WorkerId)
  | killWorker (id : WorkerId) (killed : Bool)
  | restartWorker (id newId : WorkerId) (env : RestartEnv)
  /-- Not a request. -/
  | pool (a : Action)

/-- The step is a call of the API. -/
def Action.isApi : Action → Bool
  | .spawnNewWorker _ _ | .drainWorker _ | .killWorker _ _ | .restartWorker _ _ _ => true
  | _ => false

/-- The steps of the system in a step with the API. -/
def ApiAction.actions : ApiAction → List Action
  | .listWorkers _ | .getWorker _ _ => []
  | .spawnWorker newId spawned => [.spawnNewWorker newId spawned]
  | .drainWorker id => [.drainWorker id]
  | .killWorker id killed => [.killWorker id killed]
  | .restartWorker id newId env => [.restartWorker id newId env]
  | .pool a => [a]

/-- One step. -/
def World.apiStep (config : PoolConfig) (w : World) : ApiAction → Option (World × List ApiEffect)
  | .listWorkers order =>
      if w.workers.Lists order then some (w, [.answered .listWorkers (w.listWorkers order)])
      else none
  | .getWorker id order =>
      if w.workers.Lists order then some (w, [.answered (.getWorker id) (w.getWorker order id)])
      else none
  | .spawnWorker newId spawned =>
      if w.Fresh newId then
        let r := w.spawnNewWorker config newId spawned
        some (r.2.1, r.2.2.map .announced ++ [.answered .spawnWorker (spawnAnswer r.1)])
      else none
  | .drainWorker id =>
      let r := w.drainWorker id
      some (r.2, [.answered (.drainWorker id)
        (operationAnswer ("Worker " ++ id ++ " drain initiated") r.1)])
  | .killWorker id killed =>
      let r := w.killWorker id killed
      some (r.2, [.answered (.killWorker id) (operationAnswer ("Worker " ++ id ++ " killed") r.1)])
  | .restartWorker id newId env =>
      if w.Fresh newId then
        let r := w.restartWorker config id newId env
        some (r.2.1, r.2.2.map .announced ++ [.answered (.restartWorker id) (restartAnswer r.1)])
      else none
  | .pool a =>
      if a.isApi then none else (w.step config a).map fun r => (r.1, r.2.map .announced)

/-- The system with its API. -/
def api (config : PoolConfig) : Machine World ApiAction ApiEffect := ⟨World.apiStep config⟩

/-- The pool event, if the effect is one. -/
def ApiEffect.event? : ApiEffect → Option PoolEvent
  | .announced e => some e
  | .answered _ _ => none

/-- The answer, if the effect is one. -/
def ApiEffect.answer? : ApiEffect → Option (ApiRequest × ApiResponse)
  | .announced _ => none
  | .answered request response => some (request, response)

@[simp] theorem filterMap_event?_announced (out : List PoolEvent) :
    (out.map ApiEffect.announced).filterMap ApiEffect.event? = out := by
  rw [List.filterMap_map]
  exact List.filterMap_some

@[simp] theorem filterMap_event?_answered (request : ApiRequest) (response : ApiResponse) :
    [ApiEffect.answered request response].filterMap ApiEffect.event? = [] := rfl

@[simp] theorem filterMap_answer?_announced (out : List PoolEvent) :
    (out.map ApiEffect.announced).filterMap ApiEffect.answer? = [] := by
  rw [List.filterMap_map]
  exact List.filterMap_eq_nil_iff.mpr fun _ _ => rfl

variable {config : PoolConfig} {w w' : World}

/-! ## Steps -/

/-- The steps with the API, by what they answer. -/
inductive ApiStep (config : PoolConfig) (w : World) :
    ApiAction → World → List ApiEffect → Prop where
  | listWorkers {order : List WorkerId} (hl : w.workers.Lists order) :
      ApiStep config w (.listWorkers order) w [.answered .listWorkers (w.listWorkers order)]
  | getWorker (id : WorkerId) {order : List WorkerId} (hl : w.workers.Lists order) :
      ApiStep config w (.getWorker id order) w
        [.answered (.getWorker id) (w.getWorker order id)]
  | spawnWorker {newId : WorkerId} (spawned : Except String Unit) (hf : w.Fresh newId) :
      ApiStep config w (.spawnWorker newId spawned) (w.spawnNewWorker config newId spawned).2.1
        ((w.spawnNewWorker config newId spawned).2.2.map .announced ++
          [.answered .spawnWorker (spawnAnswer (w.spawnNewWorker config newId spawned).1)])
  | drainWorker (id : WorkerId) : ApiStep config w (.drainWorker id) (w.drainWorker id).2
      [.answered (.drainWorker id)
        (operationAnswer ("Worker " ++ id ++ " drain initiated") (w.drainWorker id).1)]
  | killWorker (id : WorkerId) (killed : Bool) :
      ApiStep config w (.killWorker id killed) (w.killWorker id killed).2
        [.answered (.killWorker id)
          (operationAnswer ("Worker " ++ id ++ " killed") (w.killWorker id killed).1)]
  | restartWorker (id : WorkerId) {newId : WorkerId} (env : RestartEnv) (hf : w.Fresh newId) :
      ApiStep config w (.restartWorker id newId env) (w.restartWorker config id newId env).2.1
        ((w.restartWorker config id newId env).2.2.map .announced ++
          [.answered (.restartWorker id) (restartAnswer (w.restartWorker config id newId env).1)])
  | pool {a : Action} {w' : World} {out : List PoolEvent} (ha : a.isApi = false)
      (h : (system config).step w a = some (w', out)) :
      ApiStep config w (.pool a) w' (out.map .announced)

theorem apiStep {a : ApiAction} {o : List ApiEffect} (h : (api config).step w a = some (w', o)) :
    ApiStep config w a w' o := by
  cases a with
  | listWorkers order =>
      obtain ⟨hl, h⟩ := Option.ite_none_right_eq_some.mp h
      obtain ⟨rfl, rfl⟩ := Prod.mk.inj (Option.some.inj h)
      exact .listWorkers hl
  | getWorker id order =>
      obtain ⟨hl, h⟩ := Option.ite_none_right_eq_some.mp h
      obtain ⟨rfl, rfl⟩ := Prod.mk.inj (Option.some.inj h)
      exact .getWorker id hl
  | spawnWorker newId spawned =>
      obtain ⟨hf, h⟩ := Option.ite_none_right_eq_some.mp h
      obtain ⟨rfl, rfl⟩ := Prod.mk.inj (Option.some.inj h)
      exact .spawnWorker spawned hf
  | drainWorker id =>
      obtain ⟨rfl, rfl⟩ := Prod.mk.inj (Option.some.inj h)
      exact .drainWorker id
  | killWorker id killed =>
      obtain ⟨rfl, rfl⟩ := Prod.mk.inj (Option.some.inj h)
      exact .killWorker id killed
  | restartWorker id newId env =>
      obtain ⟨hf, h⟩ := Option.ite_none_right_eq_some.mp h
      obtain ⟨rfl, rfl⟩ := Prod.mk.inj (Option.some.inj h)
      exact .restartWorker id env hf
  | pool a =>
      obtain ⟨ha, h⟩ := Option.ite_none_left_eq_some.mp h
      obtain ⟨⟨u, out⟩, hu, heq⟩ := Option.map_eq_some_iff.mp h
      obtain ⟨rfl, rfl⟩ := Prod.mk.inj heq
      exact .pool (Bool.eq_false_iff.mpr ha) hu

/-- A step with the API runs at most one step of the system, and announces the same. -/
theorem ApiStep.actions {a : ApiAction} {o : List ApiEffect} (h : ApiStep config w a w' o) :
    (system config).run w a.actions = some (w', o.filterMap ApiEffect.event?) := by
  cases h with
  | listWorkers hl => rfl
  | getWorker id hl => rfl
  | spawnWorker spawned hf =>
      rw [List.filterMap_append, filterMap_event?_announced, filterMap_event?_answered,
        List.append_nil]
      exact (system config).run_singleton_iff.mpr (if_pos hf)
  | drainWorker id => exact (system config).run_singleton_iff.mpr rfl
  | killWorker id killed => exact (system config).run_singleton_iff.mpr rfl
  | restartWorker id env hf =>
      rw [List.filterMap_append, filterMap_event?_announced, filterMap_event?_answered,
        List.append_nil]
      exact (system config).run_singleton_iff.mpr (if_pos hf)
  | pool ha h =>
      rw [filterMap_event?_announced]
      exact (system config).run_singleton_iff.mpr h

/-- A run with the API is a run of the system, with the same events. -/
theorem api_run {as : List ApiAction} {out : List ApiEffect}
    (hrun : (api config).run w as = some (w', out)) :
    (system config).run w (as.flatMap ApiAction.actions) =
      some (w', out.filterMap ApiEffect.event?) := by
  induction as generalizing w out with
  | nil =>
      obtain ⟨rfl, rfl⟩ := Prod.mk.inj (Option.some.inj hrun)
      rfl
  | cons a as ih =>
      obtain ⟨u, o, o', hu, ht, rfl⟩ := (api config).run_cons_iff.mp hrun
      rw [List.flatMap_cons, List.filterMap_append]
      exact (system config).run_append_iff.mpr ⟨u, _, _, (apiStep hu).actions, ih ht, rfl⟩

end L0Worker.Supervisor
