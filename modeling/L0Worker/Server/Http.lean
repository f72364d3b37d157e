import L0Worker.Server.Inbound
import L0Worker.Server.RunsWorker

/-!
# Requests and responses

The HTTP side of the standalone server.  A step is a request whose body has arrived, the
continuation of a replay request after its first `await`, or a step of the server that no
request asks for.  Each handler has its own way to turn a request away, and `handleRequest`
turns what a handler throws into status 500.

`handleRequest_handled` lists the ways through the handlers, with the checks that were passed
on each.  `http_run_server` shows that a run of this machine is a run of the server, with
bodies parsed and tokens validated.
-/

namespace L0Worker.Server

open Worker

/-! ## Messages -/

/-- The body of a request, as far as it is JSON. -/
inductive Body where
  | empty
  /-- Text that is not JSON. -/
  | invalid
  | json (value : Json)

structure Request where
  method : String
  path : String
  body : Body
  /-- The address it comes from, if it is known. -/
  address : Option String

/-- `isLocalhost`. -/
def Request.isLocalhost (r : Request) : Bool :=
  match r.address with
  | none => false
  | some addr => addr == "127.0.0.1" || addr == "::1" || addr == "::ffff:127.0.0.1"

/-- A response. -/
inductive HttpResponse where
  | json (status : Nat) (body : Json)
  /-- Status 200, and a stream of events. -/
  | stream

/-- What the process is started with. -/
structure Deployment where
  auth : AuthConfig
  settings : Settings
  /-- When the process was started. -/
  startTime : Int
  /-- The errors of a schema, formatted. -/
  formatErrors : Json → Json
  /-- What reading a property of `null` throws. -/
  nullAccess : Thrown

def jsonError (status : Nat) (error : String) : HttpResponse :=
  .json status (.obj [("error", .str error)])

def badRequest (details : Json) : HttpResponse :=
  .json 400 (.obj [("error", .str "Invalid request"), ("details", details)])

def authFailed (reason : String) : HttpResponse :=
  .json 401 (.obj [("error", .str "Auth validation failed"), ("reason", .str reason)])

/-- The response to what a handler throws. -/
def internalError (e : Thrown) : HttpResponse :=
  .json 500 (.obj [("error", .str "Internal server error"),
    ("message", .str (errorMessage e))])

/-- A response of the server, with the details of a body that was not accepted. -/
def Response.toHttp (details : Json) : Response → HttpResponse
  | .invalidJson => jsonError 400 "Invalid JSON"
  | .invalidRequest => badRequest details
  | .unauthorized reason => authFailed reason
  | .notAccepting state =>
      .json 503 (.obj [("error", .str "Worker not accepting tasks"), ("state", .str state.text)])
  | .noSlots inflight max =>
      .json 503 (.obj [("error", .str "No slots available"),
        ("inflight", .num (.ofNat inflight)), ("max", .ofNumber max)])
  | .stream => .stream
  | .drainInitiated workerId drainBufferMs =>
      .json 200 (.obj [("success", .bool true), ("message", .str "Drain initiated"),
        ("workerId", .str workerId), ("drainBufferMs", .num (.ofInt drainBufferMs))])

/-! ## State -/

/-- A replay request that was let through. -/
structure PendingReplay where
  request : TaskReplayRequest
  /-- What `canReplay` said. -/
  found : Bool
  /-- The request has gone on. -/
  resumed : Bool

/-- The server with its replay requests. -/
structure HttpState where
  server : ServerState
  replays : List PendingReplay

/-- What happened in a step. -/
inductive HttpEffect where
  | server (e : ServerEffect)
  | responded (response : HttpResponse)

/-- An effect of the server, its response written out. -/
def HttpEffect.ofServer (details : Json) : ServerEffect → HttpEffect
  | .responded response => .responded (response.toHttp details)
  | e => .server e

/-- The readings of the clock while a request is handled, and what a task meets. -/
structure RequestEnv where
  /-- In `validateAuth`. -/
  authNow : TimeValue
  turn : Turn
  /-- At the start of `waitForDrained`. -/
  drainStart : Int
  /-- At its first test. -/
  drainNow : Int
  /-- For `uptimeMs`. -/
  uptimeNow : Int
  /-- For the `ts` of a response. -/
  responseNow : Int

/-! ## Handlers -/

namespace HttpState

variable (d : Deployment) (s : HttpState)

/-- Nothing but a response. -/
def respond (response : HttpResponse) : HttpState × List HttpEffect := (s, [.responded response])

/-- The server's part of a step. -/
def runServer (details : Json) (r : ServerState × List ServerEffect) :
    HttpState × List HttpEffect :=
  ({ s with server := r.1 }, r.2.map (.ofServer details))

/-- The check of an envelope, after which `next` is done. -/
def authenticate (auth : Option Json) (id : String) (now : TimeValue)
    (next : HttpState × List HttpEffect) : HttpState × List HttpEffect :=
  match d.auth.validateAuth auth id now with
  | .error e => s.respond (internalError e)
  | .ok (.invalid reason) => s.respond (authFailed reason)
  | .ok .valid => next

/-- `handleSubmit`. -/
def handleSubmit (body : Body) (env : RequestEnv) : HttpState × List HttpEffect :=
  match body with
  | .empty | .invalid => s.respond (jsonError 400 "Invalid JSON")
  | .json v =>
      match taskSubmitSchema (some v) with
      | none => s.respond (badRequest (d.formatErrors v))
      | some m =>
          s.authenticate d (some m.auth.toJson) m.taskId env.authNow
            (s.runServer .null (s.server.handleSubmit d.settings
              (.request ⟨m.taskId, m.payload⟩ none) env.turn))

/-- The body of `handleStatus`. -/
def statusBody (env : RequestEnv) : Json :=
  let w := s.server.worker.worker
  .obj [("workerId", .str w.configManager.workerId),
    ("state", .str w.stateMachine.text),
    ("protocolVersion", .str w.configManager.protocolVersion),
    ("maxConcurrency", .ofNumber w.configManager.runtime.maxConcurrency),
    ("inflight", .num (.ofNat w.slots.inflightCount)),
    ("availableSlots", .ofNumber
      (.max 0 (w.slots.maxConcurrency.add (Number.neg (.ofNat w.slots.inflightCount))))),
    ("uptimeMs", .num (.ofInt (env.uptimeNow - d.startTime))),
    ("ts", .num (.ofInt env.responseNow))]

/-- `handleStatus`. -/
def handleStatus (env : RequestEnv) : HttpState × List HttpEffect :=
  s.respond (.json 200 (s.statusBody d env))

/-- `handleReplay` up to the `await` of `canReplay`. -/
def handleReplay (body : Body) (env : RequestEnv) : HttpState × List HttpEffect :=
  match body with
  | .empty | .invalid => s.respond (jsonError 400 "Invalid JSON")
  | .json v =>
      match taskReplayRequestSchema (some v) with
      | none => s.respond (badRequest (d.formatErrors v))
      | some m =>
          s.authenticate d (some m.auth.toJson) m.taskId env.authNow
            ({ s with replays := s.replays ++ [⟨⟨m.taskId, m.expectedOutputHash⟩,
                decide (s.server.worker.worker.eventStore.HasTask m.taskId), false⟩] }, [])

/-- The rest of `handleReplay`, with the start of the stream. -/
def resumeReplay (k : Nat) (p : PendingReplay) : HttpState × List HttpEffect :=
  let s' := { s with replays := s.replays.set k { p with resumed := true } }
  if !p.found then
    s'.respond (.json 404 (.obj [("error", .str "Task not found"),
      ("task_id", .str p.request.taskId)]))
  else
    ({ s' with server := { s.server with worker := s.server.worker.replay p.request } },
      [.responded .stream])

/-- `handleConfig` once the request is allowed. -/
def applyConfig (m : ConfigMessage) (env : RequestEnv) : HttpState × List HttpEffect :=
  if m.workerId ≠ s.server.workerId then s.respond (jsonError 400 "Worker ID mismatch")
  else
    let r := s.server.worker.worker.updateConfig m.update
    let s' :=
      { s with server := { s.server with worker := { s.server.worker with worker := r.2 } } }
    let response := match r.1 with
      | some e => internalError e
      | none => .json 200 (.obj [("success", .bool true),
          ("maxConcurrency", .ofNumber r.2.configManager.runtime.maxConcurrency),
          ("ts", .num (.ofInt env.responseNow))])
    (s', [.server (.worker (.configUpdated r.1)), .responded response])

/-- `handleConfig`.  The envelope is validated for the id in the body, which is compared
with that of the worker only afterwards. -/
def handleConfig (request : Request) (env : RequestEnv) : HttpState × List HttpEffect :=
  match request.body with
  | .empty | .invalid => s.respond (jsonError 400 "Invalid JSON")
  | .json v =>
      match workerConfigUpdateSchema (some v) with
      | none => s.respond (badRequest (d.formatErrors v))
      | some m =>
          if request.isLocalhost then s.applyConfig m env
          else
            match m.auth with
            | none => s.respond (jsonError 401 "Auth required for non-localhost requests")
            | some auth =>
                s.authenticate d (some auth.toJson) m.workerId env.authNow (s.applyConfig m env)

/-- What `handleDrain` takes as the body: an empty object if there is none or it is not
JSON. -/
def drainBody : Body → Json
  | .empty | .invalid => .obj []
  | .json v => v

/-- `handleDrain` once the request is allowed. -/
def startDrain (env : RequestEnv) : HttpState × List HttpEffect :=
  s.runServer .null (s.server.handleDrain d.settings none env.drainStart env.drainNow)

/-- `handleDrain`.  The body may be any JSON, `null` included. -/
def handleDrain (request : Request) (env : RequestEnv) : HttpState × List HttpEffect :=
  if request.isLocalhost then s.startDrain d env
  else
    match drainBody request.body with
    | .null => s.respond (internalError d.nullAccess)
    | body =>
        match (body.field? "auth").filter Json.truthy with
        | none => s.respond (jsonError 401 "Auth required for non-localhost requests")
        | some auth =>
            s.authenticate d (some auth) s.server.workerId env.authNow (s.startDrain d env)

/-- The paths the router knows. -/
def knownPaths : List String :=
  ["/api/submit", "/api/status", "/api/replay", "/api/config", "/api/drain"]

/-- `handleRequest`. -/
def handleRequest (request : Request) (env : RequestEnv) : HttpState × List HttpEffect :=
  if request.path = "/api/submit" ∧ request.method = "POST" then s.handleSubmit d request.body env
  else if request.path = "/api/status" ∧ request.method = "GET" then s.handleStatus d env
  else if request.path = "/api/replay" ∧ request.method = "POST" then
    s.handleReplay d request.body env
  else if request.path = "/api/config" ∧ request.method = "POST" then s.handleConfig d request env
  else if request.path = "/api/drain" ∧ request.method = "POST" then s.handleDrain d request env
  else if request.path ∈ knownPaths then s.respond (jsonError 405 "Method not allowed")
  else s.respond (jsonError 404 "Not found")

end HttpState

/-! ## The machine -/

/-- A step of the server behind HTTP. -/
inductive HttpAction where
  /-- A request has arrived with its body. -/
  | request (r : Request) (env : RequestEnv)
  /-- A replay request goes on after `canReplay`. -/
  | resumeReplay (k : Nat)
  /-- A step that no request asks for. -/
  | internal (a : ServerAction)

/-- No request asks for the step. -/
def ServerAction.isInternal : ServerAction → Bool
  | .submit _ _ | .drain _ _ _ | .worker (.updateConfig _) | .worker (.replay _) => false
  | _ => true

/-- One step, after which no more are possible once the process has ended. -/
def HttpState.step (d : Deployment) (s : HttpState) :
    HttpAction → Option (HttpState × List HttpEffect) := fun a =>
  if s.server.exited then none
  else match a with
    | .request r env => some (s.handleRequest d r env)
    | .resumeReplay k =>
        s.replays[k]?.bind fun p => if p.resumed then none else some (s.resumeReplay k p)
    | .internal a =>
        if a.isInternal then (s.server.step d.settings a).map (s.runServer .null) else none

/-- The machine of the server behind HTTP. -/
def http (d : Deployment) : Machine HttpState HttpAction HttpEffect := ⟨HttpState.step d⟩

/-- A server that has just started, with a new worker. -/
def HttpState.init (server : ServerState) : HttpState where
  server := server
  replays := []

/-! ## What a request comes to -/

/-- The ways through `handleRequest`.  What is not turned away has passed the checks of its
handler. -/
inductive Handled (d : Deployment) (s : HttpState) (r : Request) (env : RequestEnv) :
    HttpState × List HttpEffect → Prop where
  | refused {status : Nat} (answer : Json) (hstatus : status ≠ 200) :
      Handled d s r env (s.respond (.json status answer))
  | status (hpath : r.path = "/api/status") : Handled d s r env (s.handleStatus d env)
  | submit {v : Json} {m : SubmitMessage} (hpath : r.path = "/api/submit")
      (hbody : r.body = .json v) (hm : taskSubmitSchema (some v) = some m)
      (hvalid : d.auth.validateAuth (some m.auth.toJson) m.taskId env.authNow = .ok .valid) :
      Handled d s r env (s.runServer .null (s.server.handleSubmit d.settings
        (.request ⟨m.taskId, m.payload⟩ none) env.turn))
  | replay {v : Json} {m : ReplayMessage} (hpath : r.path = "/api/replay")
      (hbody : r.body = .json v) (hm : taskReplayRequestSchema (some v) = some m)
      (hvalid : d.auth.validateAuth (some m.auth.toJson) m.taskId env.authNow = .ok .valid)
      (replays : List PendingReplay) : Handled d s r env ({ s with replays }, [])
  /-- An update for this worker, from localhost or with an envelope. -/
  | config {v : Json} {m : ConfigMessage} (hpath : r.path = "/api/config")
      (hmethod : r.method = "POST") (hbody : r.body = .json v)
      (hm : workerConfigUpdateSchema (some v) = some m) (hid : m.workerId = s.server.workerId)
      (hallowed : r.isLocalhost = true ∨ ∃ auth, m.auth = some auth ∧
        d.auth.validateAuth (some auth.toJson) m.workerId env.authNow = .ok .valid) :
      Handled d s r env (s.applyConfig m env)
  | drain (hpath : r.path = "/api/drain") (hallowed : r.isLocalhost = true ∨
        ∃ auth, ((HttpState.drainBody r.body).field? "auth").filter Json.truthy = some auth ∧
          d.auth.validateAuth (some auth) s.server.workerId env.authNow = .ok .valid) :
      Handled d s r env (s.startDrain d env)

section Handled

variable {d : Deployment} {s : HttpState} {r : Request} {env : RequestEnv}

/-- Only what `validateAuth` accepts goes on. -/
theorem authenticate_handled {auth : Option Json} {id : String}
    {next : HttpState × List HttpEffect}
    (h : d.auth.validateAuth auth id env.authNow = .ok .valid → Handled d s r env next) :
    Handled d s r env (s.authenticate d auth id env.authNow next) := by
  unfold HttpState.authenticate
  cases hverdict : d.auth.validateAuth auth id env.authNow with
  | error e => exact .refused _ (by decide)
  | ok verdict => cases verdict with
    | invalid reason => exact .refused _ (by decide)
    | valid => exact h hverdict

theorem handleSubmit_handled (hpath : r.path = "/api/submit") :
    Handled d s r env (s.handleSubmit d r.body env) := by
  cases hbody : r.body with
  | json v =>
      unfold HttpState.handleSubmit
      dsimp only
      split
      · exact .refused _ (by decide)
      · next m hm => exact authenticate_handled fun hvalid => .submit hpath hbody hm hvalid
  | _ => exact .refused _ (by decide)

theorem handleReplay_handled (hpath : r.path = "/api/replay") :
    Handled d s r env (s.handleReplay d r.body env) := by
  cases hbody : r.body with
  | json v =>
      unfold HttpState.handleReplay
      dsimp only
      split
      · exact .refused _ (by decide)
      · next m hm => exact authenticate_handled fun hvalid => .replay hpath hbody hm hvalid _
  | _ => exact .refused _ (by decide)

theorem handleConfig_handled (hpath : r.path = "/api/config") (hmethod : r.method = "POST") :
    Handled d s r env (s.handleConfig d r env) := by
  unfold HttpState.handleConfig
  cases hbody : r.body with
  | json v =>
      dsimp only
      split
      · exact .refused _ (by decide)
      · next m hm =>
        have happly : (r.isLocalhost = true ∨ ∃ auth, m.auth = some auth ∧
            d.auth.validateAuth (some auth.toJson) m.workerId env.authNow = .ok .valid) →
            Handled d s r env (s.applyConfig m env) := by
          intro hallowed
          by_cases hid : m.workerId = s.server.workerId
          · exact .config hpath hmethod hbody hm hid hallowed
          · rw [HttpState.applyConfig, if_pos hid]
            exact .refused _ (by decide)
        split
        · next hlocal => exact happly (.inl hlocal)
        · cases hauth : m.auth with
          | none => exact .refused _ (by decide)
          | some auth =>
              exact authenticate_handled fun hvalid => happly (.inr ⟨auth, hauth, hvalid⟩)
  | _ => exact .refused _ (by decide)

theorem handleDrain_handled (hpath : r.path = "/api/drain") :
    Handled d s r env (s.handleDrain d r env) := by
  unfold HttpState.handleDrain
  split
  · next hlocal => exact .drain hpath (.inl hlocal)
  · split
    · exact .refused _ (by decide)
    · split
      · exact .refused _ (by decide)
      · next auth hauth =>
        exact authenticate_handled fun hvalid => .drain hpath (.inr ⟨auth, hauth, hvalid⟩)

variable (d s r env) in
theorem handleRequest_handled : Handled d s r env (s.handleRequest d r env) := by
  unfold HttpState.handleRequest
  split
  · next hroute => exact handleSubmit_handled hroute.1
  split
  · next hroute => exact .status hroute.1
  split
  · next hroute => exact handleReplay_handled hroute.1
  split
  · next hroute => exact handleConfig_handled hroute.1 hroute.2
  split
  · next hroute => exact handleDrain_handled hroute.1
  split
  · exact .refused _ (by decide)
  · exact .refused _ (by decide)

end Handled

/-! ## A run is a run of the server -/

/-- The effects of the worker. -/
def httpWorkerEffects (o : List HttpEffect) : List Effect :=
  o.filterMap fun e => match e with
    | .server e => e.worker?
    | .responded _ => none

@[simp] theorem httpWorkerEffects_append (o o' : List HttpEffect) :
    httpWorkerEffects (o ++ o') = httpWorkerEffects o ++ httpWorkerEffects o' :=
  List.filterMap_append ..

@[simp] theorem httpWorkerEffects_ofServer (details : Json) (o : List ServerEffect) :
    httpWorkerEffects (o.map (.ofServer details)) = workerEffects o := by
  induction o with
  | nil => rfl
  | cons e o ih =>
      cases e with
      | worker effect =>
          show effect :: httpWorkerEffects (o.map (.ofServer details)) = effect :: workerEffects o
          rw [ih]
      | _ => exact ih

/-- What a step does to the server: nothing, or one step of it with the same effects of the
worker. -/
inductive StepServer (d : Deployment) (s s' : HttpState) (o : List HttpEffect) : Prop where
  | still (hs : s'.server = s.server) (ho : httpWorkerEffects o = [])
  | steps (a : ServerAction) (out : List ServerEffect)
      (hstep : (server d.settings).step s.server a = some (s'.server, out))
      (ho : httpWorkerEffects o = workerEffects out)

/-- What a handler does to the server. -/
def Outcome (d : Deployment) (s : HttpState) (r : HttpState × List HttpEffect) : Prop :=
  StepServer d s r.1 r.2

section Outcomes

variable {d : Deployment} {s : HttpState}

theorem runServer_outcome {a : ServerAction} {r : ServerState × List ServerEffect}
    (details : Json) (h : (server d.settings).step s.server a = some r) :
    Outcome d s (s.runServer details r) :=
  .steps a r.2 h (httpWorkerEffects_ofServer details r.2)

variable (hrunning : s.server.exited = false)

include hrunning

/-- The process has not ended, so the server takes the step. -/
theorem not_exited : ¬ s.server.exited = true := by simp [hrunning]

theorem handleRequest_outcome (r : Request) (env : RequestEnv) :
    Outcome d s (s.handleRequest d r env) := by
  have hhandled := handleRequest_handled d s r env
  generalize s.handleRequest d r env = p at hhandled
  cases hhandled with
  | refused answer hstatus => exact .still rfl rfl
  | status hpath => exact .still rfl rfl
  | @submit v m hpath hbody hm hvalid =>
      exact runServer_outcome (a := .submit (.request ⟨m.taskId, m.payload⟩ none) env.turn) .null
        (if_neg (not_exited hrunning))
  | replay hpath hbody hm hvalid replays => exact .still rfl rfl
  | @config v m hpath hmethod hbody hm hid hallowed =>
      rw [HttpState.applyConfig, if_neg (not_not_intro hid)]
      exact .steps (.worker (.updateConfig m.update))
        [.worker (.configUpdated (s.server.worker.worker.updateConfig m.update).1)]
        (if_neg (not_exited hrunning)) rfl
  | drain hpath hallowed =>
      exact runServer_outcome (a := .drain none env.drainStart env.drainNow) .null
        (if_neg (not_exited hrunning))

theorem resumeReplay_outcome (k : Nat) (p : PendingReplay) :
    Outcome d s (s.resumeReplay k p) := by
  unfold HttpState.resumeReplay
  dsimp only
  split
  · exact .still rfl rfl
  · exact .steps (.worker (.replay p.request)) [] (if_neg (not_exited hrunning)) rfl

end Outcomes

theorem step_server {d : Deployment} {s s' : HttpState} {a : HttpAction} {o : List HttpEffect}
    (hstep : (http d).step s a = some (s', o)) : StepServer d s s' o := by
  obtain ⟨hrunning, hstep⟩ := Option.ite_none_left_eq_some.mp hstep
  have hrunning : s.server.exited = false := by simpa using hrunning
  cases a with
  | request r env =>
      have houtcome := handleRequest_outcome (d := d) hrunning r env
      rw [Option.some.inj hstep] at houtcome
      exact houtcome
  | resumeReplay k =>
      obtain ⟨p, -, hstep⟩ := Option.bind_eq_some_iff.mp hstep
      obtain ⟨-, hstep⟩ := Option.ite_none_left_eq_some.mp hstep
      have houtcome := resumeReplay_outcome (d := d) hrunning k p
      rw [Option.some.inj hstep] at houtcome
      exact houtcome
  | internal a =>
      obtain ⟨-, hstep⟩ := Option.ite_none_right_eq_some.mp hstep
      obtain ⟨r, hr, heq⟩ := Option.map_eq_some_iff.mp hstep
      have houtcome := runServer_outcome .null hr
      rw [heq] at houtcome
      exact houtcome

/-- A run behind HTTP is a run of the server, with the same effects of the worker. -/
theorem http_run_server {d : Deployment} {s s' : HttpState} {as : List HttpAction}
    {out : List HttpEffect} (hrun : (http d).run s as = some (s', out)) :
    ∃ as' out', (server d.settings).run s.server as' = some (s'.server, out') ∧
      httpWorkerEffects out = workerEffects out' := by
  refine Machine.run_composes
    (R := fun s s' out => ∃ as' out', (server d.settings).run s.server as' =
      some (s'.server, out') ∧ httpWorkerEffects out = workerEffects out')
    (fun s => ⟨[], [], rfl, rfl⟩) ?_ ?_ hrun
  · rintro s u t o o' ⟨as, p, hu, ho⟩ ⟨as', p', ht, ho'⟩
    refine ⟨as ++ as', p ++ p', (Machine.run_append_iff _).mpr ⟨_, _, _, hu, ht, rfl⟩, ?_⟩
    rw [httpWorkerEffects_append, workerEffects_append, ho, ho']
  · intro s a s' o hstep
    cases step_server hstep with
    | still hs ho => exact ⟨[], [], by rw [hs]; rfl, ho⟩
    | steps a out hstep' ho => exact ⟨[a], out, (Machine.run_singleton_iff _).mpr hstep', ho⟩

end L0Worker.Server
