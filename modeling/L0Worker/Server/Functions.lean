import L0Worker.Server.Environment

/-!
# The functions of a Vercel deployment

The handlers of `api/` in one process: `api/submit.ts`, `api/replay.ts`, `api/config.ts` and
`api/status.ts`.  They share a worker, which the first status request creates, or the first
submission that has passed its checks.  What a handler throws is left to the platform.

`functions_run_server` shows that a run of the functions is a run of a server that creates the
same worker at its start, and `functions_created_iff` when the worker is there.
-/

namespace L0Worker.Server

open Worker

/-- What the functions are deployed with. -/
structure Functions where
  auth : AuthConfig
  settings : Settings
  config : Config
  /-- The errors of a schema for a body, which may be missing, formatted. -/
  formatErrors : Option Json → Json

/-- A request, with its body as the platform has parsed it. -/
structure FunctionRequest where
  method : String
  body : Option Json

/-- The worker, if it has been created, and the replay requests. -/
structure FunctionState where
  server : Option ServerState
  replays : List PendingReplay

/-- A process that has just started. -/
def FunctionState.cold : FunctionState where
  server := none
  replays := []

/-- What happened in a step. -/
inductive FunctionEffect where
  | worker (e : Effect)
  | responded (response : HttpResponse)
  /-- The handler has thrown. -/
  | threw

/-- An effect of the server. -/
def FunctionEffect.ofServer : ServerEffect → Option FunctionEffect
  | .worker e => some (.worker e)
  | .responded response => some (.responded (response.toHttp .null))
  | .printed _ | .exited => none

/-! ## Handlers -/

namespace FunctionState

variable (f : Functions) (s : FunctionState)

/-- Nothing but a response. -/
def respond (response : HttpResponse) : FunctionState × List FunctionEffect :=
  (s, [.responded response])

/-- The check of an envelope, after which `next` is done. -/
def authenticate (auth : Option Json) (id : String) (now : TimeValue)
    (next : FunctionState × List FunctionEffect) : FunctionState × List FunctionEffect :=
  match f.auth.validateAuth auth id now with
  | .error _ => (s, [.threw])
  | .ok (.invalid reason) => s.respond (authFailed reason)
  | .ok .valid => next

/-- `getWorkerInstance() ?? createWorkerInstance()`, `none` where the constructor throws. -/
def getOrCreate : Option ServerState :=
  s.server.or ((createWorkerInstance f.config).map fun worker => .init (.init worker ⟨0⟩))

/-- The handler of `api/submit.ts`. -/
def submitHandler (r : FunctionRequest) (env : RequestEnv) : FunctionState × List FunctionEffect :=
  if r.method ≠ "POST" then s.respond (jsonError 405 "Method not allowed")
  else
    match taskSubmitSchema r.body with
    | none => s.respond (badRequest (f.formatErrors r.body))
    | some m =>
        s.authenticate f (some m.auth.toJson) m.taskId env.authNow
          (match s.getOrCreate f with
          | none => (s, [.threw])
          | some server =>
              let r := server.handleSubmit f.settings (.request ⟨m.taskId, m.payload⟩ none) env.turn
              ({ s with server := some r.1 }, r.2.filterMap FunctionEffect.ofServer))

/-- The handler of `api/replay.ts` up to the `await` of `canReplay`. -/
def replayHandler (r : FunctionRequest) (env : RequestEnv) : FunctionState × List FunctionEffect :=
  if r.method ≠ "POST" then s.respond (jsonError 405 "Method not allowed")
  else
    match taskReplayRequestSchema r.body with
    | none => s.respond (badRequest (f.formatErrors r.body))
    | some m =>
        s.authenticate f (some m.auth.toJson) m.taskId env.authNow
          (match s.server with
          | none => s.respond (jsonError 503 "Worker not initialized")
          | some server =>
              ({ s with replays := s.replays ++ [⟨⟨m.taskId, m.expectedOutputHash⟩,
                decide (server.worker.worker.eventStore.HasTask m.taskId), false⟩] }, []))

/-- The rest of the handler, with the start of the stream. -/
def resumeReplay (server : ServerState) (k : Nat) (p : PendingReplay) :
    FunctionState × List FunctionEffect :=
  let s' := { s with replays := s.replays.set k { p with resumed := true } }
  if !p.found then
    s'.respond (.json 404 (.obj [("error", .str "Task not found"),
      ("task_id", .str p.request.taskId)]))
  else
    ({ s' with server := some { server with worker := server.worker.replay p.request } },
      [.responded .stream])

/-- The handler of `api/config.ts` once the request is allowed. -/
def applyConfig (m : ConfigMessage) (env : RequestEnv) : FunctionState × List FunctionEffect :=
  match s.server with
  | none => s.respond (jsonError 503 "Worker not initialized")
  | some server =>
      if m.workerId ≠ server.workerId then s.respond (jsonError 400 "Worker ID mismatch")
      else
        let r := server.worker.worker.updateConfig m.update
        let response := match r.1 with
          | some _ => FunctionEffect.threw
          | none => .responded (.json 200 (.obj [("success", .bool true),
              ("maxConcurrency", .ofNumber r.2.configManager.runtime.maxConcurrency),
              ("ts", .num (.ofInt env.responseNow))]))
        ({ s with server := some { server with worker := { server.worker with worker := r.2 } } },
          [.worker (.configUpdated r.1), response])

/-- The handler of `api/config.ts`.  It asks for an envelope wherever the request comes
from. -/
def configHandler (r : FunctionRequest) (env : RequestEnv) : FunctionState × List FunctionEffect :=
  if r.method ≠ "POST" then s.respond (jsonError 405 "Method not allowed")
  else
    match workerConfigUpdateSchema r.body with
    | none => s.respond (badRequest (f.formatErrors r.body))
    | some m =>
        match m.auth with
        | none => s.respond (jsonError 401 "Auth required")
        | some auth =>
            s.authenticate f (some auth.toJson) m.workerId env.authNow (s.applyConfig m env)

/-- The body of a status. -/
def statusBody (server : ServerState) (env : RequestEnv) : Json :=
  let w := server.worker.worker
  .obj [("workerId", .str w.configManager.workerId),
    ("state", .str w.stateMachine.text),
    ("protocolVersion", .str w.configManager.protocolVersion),
    ("maxConcurrency", .ofNumber w.configManager.runtime.maxConcurrency),
    ("inflightTasks", .num (.ofNat w.slots.inflightCount)),
    ("availableSlots", .ofNumber
      (.max 0 (w.slots.maxConcurrency.add (Number.neg (.ofNat w.slots.inflightCount))))),
    ("ts", .num (.ofInt env.responseNow))]

/-- The handler of `api/status.ts`. -/
def statusHandler (r : FunctionRequest) (env : RequestEnv) : FunctionState × List FunctionEffect :=
  if r.method ≠ "GET" then s.respond (jsonError 405 "Method not allowed")
  else
    match s.getOrCreate f with
    | none => (s, [.threw])
    | some server =>
        ({ s with server := some server }, [.responded (.json 200 (statusBody server env))])

end FunctionState

/-! ## The machine -/

/-- A step of the functions. -/
inductive FunctionAction where
  | submit (r : FunctionRequest) (env : RequestEnv)
  | replay (r : FunctionRequest) (env : RequestEnv)
  | config (r : FunctionRequest) (env : RequestEnv)
  | status (r : FunctionRequest) (env : RequestEnv)
  /-- A replay request goes on after `canReplay`. -/
  | resumeReplay (k : Nat)
  /-- A step of the worker that no request asks for. -/
  | internal (a : Action)

/-- One step. -/
def FunctionState.step (f : Functions) (s : FunctionState) :
    FunctionAction → Option (FunctionState × List FunctionEffect)
  | .submit r env => some (s.submitHandler f r env)
  | .replay r env => some (s.replayHandler f r env)
  | .config r env => some (s.configHandler f r env)
  | .status r env => some (s.statusHandler f r env)
  | .resumeReplay k =>
      s.server.bind fun server => s.replays[k]?.bind fun p =>
        if p.resumed then none else some (s.resumeReplay server k p)
  | .internal a =>
      if (ServerAction.worker a).isInternal then
        s.server.bind fun server => (server.step f.settings (.worker a)).map fun r =>
          ({ s with server := some r.1 }, r.2.filterMap FunctionEffect.ofServer)
      else none

/-- The machine of the functions. -/
def functions (f : Functions) : Machine FunctionState FunctionAction FunctionEffect :=
  ⟨FunctionState.step f⟩

/-! ## What a step does -/

/-- The effects of the worker. -/
def functionWorkerEffects (o : List FunctionEffect) : List Effect :=
  o.filterMap fun e => match e with
    | .worker e => some e
    | _ => none

theorem functionWorkerEffects_append (o o' : List FunctionEffect) :
    functionWorkerEffects (o ++ o') = functionWorkerEffects o ++ functionWorkerEffects o' :=
  List.filterMap_append ..

theorem functionWorkerEffects_ofServer (o : List ServerEffect) :
    functionWorkerEffects (o.filterMap FunctionEffect.ofServer) = workerEffects o := by
  unfold functionWorkerEffects workerEffects
  rw [List.filterMap_filterMap]
  refine List.filterMap_congr fun e _ => ?_
  cases e <;> rfl

/-- What a step does: nothing to the worker, or what a server does with the same worker, which
may have been created before. -/
inductive FunctionStepped (f : Functions) (s s' : FunctionState) (o : List FunctionEffect) :
    Prop where
  | still (hs : s'.server = s.server) (ho : functionWorkerEffects o = [])
  | steps {u u' : ServerState} {as : List ServerAction} {out : List ServerEffect}
      (hserver : s.getOrCreate f = some u)
      (hrun : (server f.settings).run u as = some (u', out)) (hexited : u'.exited = u.exited)
      (hs : s'.server = some u') (ho : functionWorkerEffects o = workerEffects out)

/-- What a handler does. -/
def FunctionOutcome (f : Functions) (s : FunctionState) (r : FunctionState × List FunctionEffect) :
    Prop :=
  FunctionStepped f s r.1 r.2

section Outcomes

variable {f : Functions} {s : FunctionState}

/-- A response that changes nothing. -/
theorem respond_outcome (response : HttpResponse) : FunctionOutcome f s (s.respond response) :=
  .still rfl rfl

theorem functions_authenticate_outcome {auth : Option Json} {id : String} {now : TimeValue}
    {next : FunctionState × List FunctionEffect} (h : FunctionOutcome f s next) :
    FunctionOutcome f s (s.authenticate f auth id now next) := by
  unfold FunctionState.authenticate
  split
  · exact .still rfl rfl
  · exact respond_outcome _
  · exact h

theorem getOrCreate_of_server {u : ServerState} (h : s.server = some u) :
    s.getOrCreate f = some u := by
  rw [FunctionState.getOrCreate, h, Option.some_or]

/-- No server of the functions has ended. -/
def Running (f : Functions) (s : FunctionState) : Prop :=
  ∀ u, s.getOrCreate f = some u → u.exited = false

theorem handleSubmit_exited (settings : Settings) (u : ServerState) (body : SubmitBody)
    (turn : Turn) : (u.handleSubmit settings body turn).1.exited = u.exited := by
  rcases u.handleSubmit_cases settings body turn with ⟨response, heq, -⟩ | ⟨submit, -, -, -, heq⟩
  · rw [heq]
  · rw [heq]
    rfl

theorem statusHandler_outcome (r : FunctionRequest) (env : RequestEnv) :
    FunctionOutcome f s (s.statusHandler f r env) := by
  unfold FunctionState.statusHandler
  split
  · exact respond_outcome _
  split
  · exact .still rfl rfl
  · next u hu => exact .steps hu (Machine.run_nil (server f.settings) u) rfl rfl rfl

variable (hrunning : Running f s)

include hrunning

theorem submitHandler_outcome (r : FunctionRequest) (env : RequestEnv) :
    FunctionOutcome f s (s.submitHandler f r env) := by
  unfold FunctionState.submitHandler
  split
  · exact respond_outcome _
  split
  · exact respond_outcome _
  · next m hm =>
    refine functions_authenticate_outcome ?_
    split
    · exact .still rfl rfl
    · next u hu =>
      have hstep : (server f.settings).step u
          (.submit (.request ⟨m.taskId, m.payload⟩ none) env.turn) =
            some (u.handleSubmit f.settings (.request ⟨m.taskId, m.payload⟩ none) env.turn) :=
        if_neg (by simp [hrunning u hu])
      have hexited := handleSubmit_exited f.settings u (.request ⟨m.taskId, m.payload⟩ none)
        env.turn
      exact .steps hu ((Machine.run_singleton_iff _).mpr hstep) hexited rfl
        (functionWorkerEffects_ofServer _)

theorem applyConfig_outcome (m : ConfigMessage) (env : RequestEnv) :
    FunctionOutcome f s (s.applyConfig m env) := by
  unfold FunctionState.applyConfig
  cases hserver : s.server with
  | none => exact respond_outcome _
  | some u =>
      dsimp only
      split
      · exact respond_outcome _
      · have hu : s.getOrCreate f = some u := getOrCreate_of_server hserver
        have hstep : (server f.settings).step u (.worker (.updateConfig m.update)) =
            some ({ u with worker :=
                { u.worker with worker := (u.worker.worker.updateConfig m.update).2 } },
              [.worker (.configUpdated (u.worker.worker.updateConfig m.update).1)]) :=
          if_neg (by simp [hrunning u hu])
        refine .steps hu ((Machine.run_singleton_iff _).mpr hstep) rfl rfl ?_
        cases (u.worker.worker.updateConfig m.update).1 <;> rfl

theorem functions_step_outcome {s' : FunctionState} {a : FunctionAction} {o : List FunctionEffect}
    (hstep : (functions f).step s a = some (s', o)) : FunctionStepped f s s' o := by
  have houtcome : ∀ {r}, FunctionOutcome f s r → some r = some (s', o) →
      FunctionStepped f s s' o := by
    rintro r h heq
    obtain rfl := Option.some.inj heq
    exact h
  cases a with
  | submit r env => exact houtcome (submitHandler_outcome hrunning r env) hstep
  | replay r env =>
      refine houtcome ?_ hstep
      unfold FunctionState.replayHandler
      split
      · exact respond_outcome _
      split
      · exact respond_outcome _
      · refine functions_authenticate_outcome ?_
        split
        · exact respond_outcome _
        · exact .still rfl rfl
  | config r env =>
      refine houtcome ?_ hstep
      unfold FunctionState.configHandler
      split
      · exact respond_outcome _
      split
      · exact respond_outcome _
      split
      · exact respond_outcome _
      · exact functions_authenticate_outcome (applyConfig_outcome hrunning _ env)
  | status r env => exact houtcome (statusHandler_outcome r env) hstep
  | resumeReplay k =>
      obtain ⟨u, hserver, hstep⟩ := Option.bind_eq_some_iff.mp hstep
      obtain ⟨p, hp, hstep⟩ := Option.bind_eq_some_iff.mp hstep
      obtain ⟨-, hstep⟩ := Option.ite_none_left_eq_some.mp hstep
      refine houtcome ?_ hstep
      unfold FunctionState.resumeReplay
      dsimp only
      split
      · exact .still rfl rfl
      · have hu : s.getOrCreate f = some u := getOrCreate_of_server hserver
        have hreplay : (server f.settings).step u (.worker (.replay p.request)) =
            some ({ u with worker := u.worker.replay p.request }, []) :=
          if_neg (by simp [hrunning u hu])
        exact .steps hu ((Machine.run_singleton_iff _).mpr hreplay) rfl rfl rfl
  | internal a =>
      obtain ⟨-, hstep⟩ := Option.ite_none_right_eq_some.mp hstep
      obtain ⟨u, hserver, hstep⟩ := Option.bind_eq_some_iff.mp hstep
      obtain ⟨⟨u', out⟩, hinner, heq⟩ := Option.map_eq_some_iff.mp hstep
      obtain ⟨rfl, rfl⟩ := Prod.mk.inj heq
      have hinner : (server f.settings).step u (.worker a) = some (u', out) := hinner
      have hu : s.getOrCreate f = some u := getOrCreate_of_server hserver
      have hexited : u'.exited = u.exited := by
        cases step_cases hinner with
        | worker hinner hr => rfl
      exact .steps hu ((Machine.run_singleton_iff _).mpr hinner) hexited rfl
        (functionWorkerEffects_ofServer out)

end Outcomes

/-! ## A run is a run of a server -/

section Runs

variable {f : Functions} {s : FunctionState} {as : List FunctionAction}
variable {out : List FunctionEffect}

/-- The functions have run as a server with a worker that was new. -/
def RanAsServer (f : Functions) (s : FunctionState) (out : List FunctionEffect) : Prop :=
  ∃ worker as' u out', createWorkerInstance f.config = some worker ∧
    (server f.settings).run (.init (.init worker ⟨0⟩)) as' = some (u, out') ∧
    u.exited = false ∧ s.server = some u ∧ functionWorkerEffects out = workerEffects out'

theorem RanAsServer.step {s' : FunctionState} {o : List FunctionEffect}
    (h : s.server = none ∧ functionWorkerEffects out = [] ∨ RanAsServer f s out)
    (hstepped : FunctionStepped f s s' o) :
    s'.server = none ∧ functionWorkerEffects (out ++ o) = [] ∨ RanAsServer f s' (out ++ o) := by
  rw [functionWorkerEffects_append]
  cases hstepped with
  | still hs ho =>
      rcases h with ⟨hserver, hout⟩ | ⟨worker, as', u, out', hnew, hrun, hexited, hserver, hout⟩
      · exact .inl ⟨hs.trans hserver, by rw [hout, ho]; rfl⟩
      · refine .inr ⟨worker, as', u, out', hnew, hrun, hexited, hs.trans hserver, ?_⟩
        rw [functionWorkerEffects_append, ho, List.append_nil, hout]
  | @steps u u' as'' out'' hu hrun' hexited' hs ho =>
      rcases h with ⟨hserver, hout⟩ | ⟨worker, as', u₀, out', hnew, hrun, hexited, hserver, hout⟩
      -- the worker is created in this step
      · rw [FunctionState.getOrCreate, hserver, Option.none_or] at hu
        obtain ⟨worker, hnew, rfl⟩ := Option.map_eq_some_iff.mp hu
        refine .inr ⟨worker, as'', u', out'', hnew, hrun', hexited', hs, ?_⟩
        rw [functionWorkerEffects_append, hout, ho]
        rfl
      · obtain rfl := Option.some.inj ((getOrCreate_of_server hserver).symm.trans hu)
        refine .inr ⟨worker, as' ++ as'', u', out' ++ out'', hnew,
          (Machine.run_append_iff _).mpr ⟨_, _, _, hrun, hrun', rfl⟩,
          hexited'.trans hexited, hs, ?_⟩
        rw [functionWorkerEffects_append, workerEffects_append, hout, ho]

/-- A run of the functions does what a run of a server does that creates the same worker at
its start, unless no worker was created at all. -/
theorem functions_run_server (hrun : (functions f).run .cold as = some (s, out)) :
    s.server = none ∧ functionWorkerEffects out = [] ∨ RanAsServer f s out := by
  refine (functions f).run_history
    (J := fun _ out s => s.server = none ∧ functionWorkerEffects out = [] ∨ RanAsServer f s out)
    ?_ (.inl ⟨rfl, rfl⟩) hrun
  intro as out s a s' o _ h hstep
  have hrunning : Running f s := by
    intro u hu
    rcases h with ⟨hserver, -⟩ | ⟨worker, as', u₀, out', -, -, hexited, hserver, -⟩
    · rw [FunctionState.getOrCreate, hserver, Option.none_or] at hu
      obtain ⟨worker, -, rfl⟩ := Option.map_eq_some_iff.mp hu
      rfl
    · obtain rfl := Option.some.inj ((getOrCreate_of_server hserver).symm.trans hu)
      exact hexited
  exact RanAsServer.step h (functions_step_outcome hrunning hstep)

/-! ## When the worker is there -/

/-- The step asks for a worker: a status request, or a submission that passes its checks. -/
def FunctionAction.Asks (f : Functions) : FunctionAction → Prop
  | .status r _ => r.method = "GET"
  | .submit r env => r.method = "POST" ∧ ∃ m, taskSubmitSchema r.body = some m ∧
      f.auth.validateAuth (some m.auth.toJson) m.taskId env.authNow = .ok .valid
  | _ => False

theorem getOrCreate_isSome : (s.getOrCreate f).isSome = true ↔
    s.server.isSome = true ∨ (createWorkerInstance f.config).isSome = true := by
  rw [FunctionState.getOrCreate]
  cases s.server <;> simp

/-- A check of an envelope lets `next` create the worker. -/
theorem authenticate_created {auth : Option Json} {id : String} {now : TimeValue}
    {next : FunctionState × List FunctionEffect} (created : Prop)
    (hnext : next.1.server.isSome = true ↔ s.server.isSome = true ∨ created) :
    (s.authenticate f auth id now next).1.server.isSome = true ↔ s.server.isSome = true ∨
      (f.auth.validateAuth auth id now = .ok .valid ∧ created) := by
  unfold FunctionState.authenticate
  cases f.auth.validateAuth auth id now with
  | error e => simp
  | ok verdict => cases verdict with
    | invalid reason => simp [FunctionState.respond]
    | valid => simpa using hnext

theorem submitHandler_created (r : FunctionRequest) (env : RequestEnv) :
    (s.submitHandler f r env).1.server.isSome = true ↔ s.server.isSome = true ∨
      ((createWorkerInstance f.config).isSome = true ∧ (FunctionAction.submit r env).Asks f) := by
  unfold FunctionState.submitHandler FunctionAction.Asks
  split
  · next hmethod => simp [FunctionState.respond, hmethod]
  · next hmethod =>
    cases hm : taskSubmitSchema r.body with
    | none => simp [FunctionState.respond, hm]
    | some m =>
        dsimp only
        rw [authenticate_created ((createWorkerInstance f.config).isSome = true)]
        · simp [not_not.mp hmethod, hm, and_comm]
        · rw [← getOrCreate_isSome]
          cases hu : s.getOrCreate f with
          | none =>
              have hnone := getOrCreate_isSome (f := f) (s := s)
              rw [hu] at hnone
              simpa using fun h => hnone.mpr (.inl h)
          | some u => simp

theorem replayHandler_created (r : FunctionRequest) (env : RequestEnv) :
    (s.replayHandler f r env).1.server.isSome = true ↔ s.server.isSome = true := by
  unfold FunctionState.replayHandler
  split
  · exact Iff.rfl
  split
  · exact Iff.rfl
  · rw [authenticate_created False]
    · simp
    · cases hserver : s.server with
      | none => simp [FunctionState.respond, hserver]
      | some u => simp

theorem configHandler_created (r : FunctionRequest) (env : RequestEnv) :
    (s.configHandler f r env).1.server.isSome = true ↔ s.server.isSome = true := by
  unfold FunctionState.configHandler
  split
  · exact Iff.rfl
  split
  · exact Iff.rfl
  split
  · exact Iff.rfl
  · rw [authenticate_created False]
    · simp
    · unfold FunctionState.applyConfig
      cases hserver : s.server with
      | none => simp [FunctionState.respond, hserver]
      | some u =>
          dsimp only
          split
          · simp [FunctionState.respond, hserver]
          · simp

theorem statusHandler_created (r : FunctionRequest) (env : RequestEnv) :
    (s.statusHandler f r env).1.server.isSome = true ↔ s.server.isSome = true ∨
      ((createWorkerInstance f.config).isSome = true ∧ (FunctionAction.status r env).Asks f) := by
  unfold FunctionState.statusHandler FunctionAction.Asks
  split
  · next hmethod => simp [FunctionState.respond, hmethod]
  · next hmethod =>
    have hcreated := getOrCreate_isSome (f := f) (s := s)
    cases hu : s.getOrCreate f with
    | none =>
        rw [hu] at hcreated
        simp [not_or.mp (mt hcreated.mpr Bool.false_ne_true)]
    | some u =>
        rw [hu] at hcreated
        simpa [not_not.mp hmethod] using hcreated

theorem step_created {s' : FunctionState} {a : FunctionAction} {o : List FunctionEffect}
    (hstep : (functions f).step s a = some (s', o)) : s'.server.isSome = true ↔
      s.server.isSome = true ∨ ((createWorkerInstance f.config).isSome = true ∧ a.Asks f) := by
  cases a with
  | submit r env =>
      obtain ⟨rfl, -⟩ := Prod.ext_iff.mp (Option.some.inj hstep)
      exact submitHandler_created r env
  | replay r env =>
      obtain ⟨rfl, -⟩ := Prod.ext_iff.mp (Option.some.inj hstep)
      simpa [FunctionAction.Asks] using replayHandler_created r env
  | config r env =>
      obtain ⟨rfl, -⟩ := Prod.ext_iff.mp (Option.some.inj hstep)
      simpa [FunctionAction.Asks] using configHandler_created r env
  | status r env =>
      obtain ⟨rfl, -⟩ := Prod.ext_iff.mp (Option.some.inj hstep)
      exact statusHandler_created r env
  | resumeReplay k =>
      obtain ⟨u, hserver, hstep⟩ := Option.bind_eq_some_iff.mp hstep
      obtain ⟨p, -, hstep⟩ := Option.bind_eq_some_iff.mp hstep
      obtain ⟨-, hstep⟩ := Option.ite_none_left_eq_some.mp hstep
      obtain ⟨rfl, -⟩ := Prod.ext_iff.mp (Option.some.inj hstep)
      unfold FunctionState.resumeReplay
      dsimp only
      split
      · simp [FunctionState.respond, hserver]
      · simp [hserver]
  | internal a =>
      obtain ⟨-, hstep⟩ := Option.ite_none_right_eq_some.mp hstep
      obtain ⟨u, hserver, hstep⟩ := Option.bind_eq_some_iff.mp hstep
      obtain ⟨r, -, heq⟩ := Option.map_eq_some_iff.mp hstep
      obtain ⟨rfl, -⟩ := Prod.mk.inj heq
      simp [hserver]

/-- The worker is there exactly when a status request or a submission that has passed its
checks has been handled, provided that the configuration is one a worker takes. -/
theorem functions_created_iff (hrun : (functions f).run .cold as = some (s, out)) :
    s.server.isSome = true ↔
      (createWorkerInstance f.config).isSome = true ∧ ∃ a ∈ as, a.Asks f := by
  refine (functions f).run_history
    (J := fun as _ s => s.server.isSome = true ↔
      (createWorkerInstance f.config).isSome = true ∧ ∃ a ∈ as, a.Asks f)
    ?_ (by simp [FunctionState.cold]) hrun
  intro as out s a s' o _ h hstep
  rw [step_created hstep, h]
  constructor
  · rintro (⟨hnew, b, hb, hasks⟩ | ⟨hnew, hasks⟩)
    · exact ⟨hnew, b, List.mem_append_left _ hb, hasks⟩
    · exact ⟨hnew, a, List.mem_append_right _ List.mem_cons_self, hasks⟩
  · rintro ⟨hnew, b, hb, hasks⟩
    rcases List.mem_append.mp hb with hb | hb
    · exact .inl ⟨hnew, b, hb, hasks⟩
    · obtain rfl := List.mem_singleton.mp hb
      exact .inr ⟨hnew, hasks⟩

end Runs

/-- Functions without authentication, in an empty environment. -/
def localFunctions : Functions where
  auth := ⟨true, none, fun secret _ => secret, fun _ => ""⟩
  settings := ⟨0, 5000, id⟩
  config := .ofEnv (fun _ => none) "w1"
  formatErrors := fun _ => .null

/-- An update comes too early, a replay with the wrong method, and then a status request. -/
def coldRequests : List FunctionAction :=
  let env : RequestEnv := ⟨⟨0, by decide⟩, ⟨0, ⟨0, none⟩, ⟨0, none⟩⟩, 0, 0, 0, 0⟩
  [.config ⟨"POST", some (.obj [("type", .str "WORKER_CONFIG_UPDATE"), ("worker_id", .str "w1"),
      ("effective_ts", .num 0)])⟩ env,
    .replay ⟨"GET", none⟩ env, .status ⟨"GET", none⟩ env]

theorem functions_run_server_cold : ∃ s out,
    (functions localFunctions).run .cold coldRequests = some (s, out) ∧
      (s.server = none ∧ functionWorkerEffects out = [] ∨ RanAsServer localFunctions s out) := by
  have hruns : ((functions localFunctions).run .cold coldRequests).isSome = true := rfl
  obtain ⟨⟨s, out⟩, hrun⟩ := Option.isSome_iff_exists.mp hruns
  exact ⟨s, out, hrun, functions_run_server hrun⟩

theorem functions_created_iff_cold : ∃ s out,
    (functions localFunctions).run .cold coldRequests = some (s, out) ∧
      s.server.isSome = true := by
  have hruns : ((functions localFunctions).run .cold coldRequests).isSome = true := rfl
  obtain ⟨⟨s, out⟩, hrun⟩ := Option.isSome_iff_exists.mp hruns
  have hasks : ∃ a ∈ coldRequests, a.Asks localFunctions :=
    ⟨_, List.mem_of_getElem? (i := 2) rfl, rfl⟩
  exact ⟨s, out, hrun, (functions_created_iff hrun).mpr ⟨by decide, hasks⟩⟩

end L0Worker.Server
