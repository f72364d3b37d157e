import L0Worker.Server.Functions

/-!
# The two deployments agree

The handlers of `server.ts` and those of `api/` were written side by side.  Once the worker is
there, a function does to it what the standalone server does with the same request from
elsewhere, and answers the same but for what `SameAnswer` lists: what a handler throws is not
caught, a missing envelope has another text, and a status counts the tasks under another name
and has no uptime.

`functions_agree` follows the two side by side through any run of the functions in which every
request has a body.
-/

namespace L0Worker.Server

open Worker

/-! ## Requests and answers side by side -/

/-- The same deployment as a standalone server. -/
def Functions.deployment (f : Functions) (startTime : Int) (nullAccess : Thrown) : Deployment where
  auth := f.auth
  settings := f.settings
  startTime := startTime
  formatErrors := fun v => f.formatErrors (some v)
  nullAccess := nullAccess

/-- The same request, from an address that is not known. -/
def FunctionRequest.toHttp (r : FunctionRequest) (path : String) : Request where
  method := r.method
  path := path
  body := r.body.elim .empty .json
  address := none

/-- The same step of the standalone server. -/
def FunctionAction.toHttp : FunctionAction → HttpAction
  | .submit r env => .request (r.toHttp "/api/submit") env
  | .replay r env => .request (r.toHttp "/api/replay") env
  | .config r env => .request (r.toHttp "/api/config") env
  | .status r env => .request (r.toHttp "/api/status") env
  | .resumeReplay k => .resumeReplay k
  | .internal a => .internal (.worker a)

/-- A request that a body belongs to has one. -/
def FunctionAction.HasBody : FunctionAction → Prop
  | .submit r _ | .replay r _ | .config r _ => r.body.isSome = true
  | _ => True

/-- The answers to the requests, `none` where the handler has thrown. -/
def functionAnswers (o : List FunctionEffect) : List (Option HttpResponse) :=
  o.filterMap fun e => match e with
    | .responded response => some (some response)
    | .threw => some none
    | .worker _ => none

/-- The answers of the standalone server. -/
def httpAnswers (o : List HttpEffect) : List HttpResponse :=
  o.filterMap fun e => match e with
    | .responded response => some response
    | .server _ => none

/-- The answers of the two to one request. -/
inductive SameAnswer : Option HttpResponse → HttpResponse → Prop where
  | same (response : HttpResponse) : SameAnswer (some response) response
  | threw (e : Thrown) : SameAnswer none (internalError e)
  | noEnvelope : SameAnswer (some (jsonError 401 "Auth required"))
      (jsonError 401 "Auth required for non-localhost requests")
  | status (d : Deployment) (s : HttpState) (env : RequestEnv) :
      SameAnswer (some (.json 200 (FunctionState.statusBody s.server env)))
        (.json 200 (s.statusBody d env))

/-- The two are in the same state. -/
structure SameState (s : FunctionState) (t : HttpState) : Prop where
  server : s.server = some t.server
  replays : s.replays = t.replays
  running : t.server.exited = false

/-- The results of the two agree. -/
structure SameOutcome (r : FunctionState × List FunctionEffect)
    (q : HttpState × List HttpEffect) : Prop where
  state : SameState r.1 q.1
  effects : functionWorkerEffects r.2 = httpWorkerEffects q.2
  answers : List.Forall₂ SameAnswer (functionAnswers r.2) (httpAnswers q.2)

/-! ## Handlers -/

section Handlers

variable {f : Functions} {s : FunctionState} {t : HttpState}
variable {startTime : Int} {nullAccess : Thrown}

theorem SameState.answer (h : SameState s t) {answer : Option HttpResponse}
    {response : HttpResponse} (hanswer : SameAnswer answer response) :
    SameOutcome (s, [answer.elim .threw .responded]) (t.respond response) := by
  cases answer with
  | none => exact ⟨h, rfl, .cons hanswer .nil⟩
  | some answer => exact ⟨h, rfl, .cons hanswer .nil⟩

theorem SameState.respond (h : SameState s t) (response : HttpResponse) :
    SameOutcome (s.respond response) (t.respond response) :=
  h.answer (.same response)

theorem SameState.authenticate (h : SameState s t) {auth : Option Json} {id : String}
    {now : TimeValue} {next : FunctionState × List FunctionEffect}
    {next' : HttpState × List HttpEffect}
    (hnext : SameOutcome next next') :
    SameOutcome (s.authenticate f auth id now next)
      (t.authenticate (f.deployment startTime nullAccess) auth id now next') := by
  unfold FunctionState.authenticate HttpState.authenticate
  simp only [Functions.deployment]
  cases f.auth.validateAuth auth id now with
  | error e => exact h.answer (.threw e)
  | ok verdict => cases verdict with
    | invalid reason => exact h.respond _
    | valid => exact hnext

theorem ofServer_answers (o : List ServerEffect) :
    List.Forall₂ SameAnswer (functionAnswers (o.filterMap FunctionEffect.ofServer))
      (httpAnswers (o.map (.ofServer .null))) := by
  induction o with
  | nil => exact .nil
  | cons e o ih =>
      cases e with
      | responded response => exact .cons (.same _) ih
      | _ => exact ih

/-- Both do a step of the server. -/
theorem SameState.runServer (h : SameState s t) {r : ServerState × List ServerEffect}
    (hrunning : r.1.exited = false) :
    SameOutcome ({ s with server := some r.1 }, r.2.filterMap FunctionEffect.ofServer)
      (t.runServer .null r) where
  state := ⟨rfl, h.replays, hrunning⟩
  effects := by
    rw [functionWorkerEffects_ofServer, HttpState.runServer, httpWorkerEffects_ofServer]
  answers := ofServer_answers r.2

theorem resumeReplay_agrees (h : SameState s t) (k : ℕ) (p : PendingReplay) :
    SameOutcome (s.resumeReplay t.server k p) (t.resumeReplay k p) := by
  have hreplays : s.replays.set k { p with resumed := true } =
      t.replays.set k { p with resumed := true } := by rw [h.replays]
  unfold FunctionState.resumeReplay HttpState.resumeReplay
  dsimp only
  split
  · have hmoved : SameState { s with replays := s.replays.set k { p with resumed := true } }
        { t with replays := t.replays.set k { p with resumed := true } } :=
      ⟨h.server, hreplays, h.running⟩
    exact hmoved.respond _
  · exact ⟨⟨rfl, hreplays, h.running⟩, rfl, .cons (.same _) .nil⟩

theorem applyConfig_agrees (h : SameState s t) (m : ConfigMessage) (env : RequestEnv) :
    SameOutcome (s.applyConfig m env) (t.applyConfig m env) := by
  unfold FunctionState.applyConfig HttpState.applyConfig
  rw [h.server]
  dsimp only
  split
  · exact h.respond _
  · cases (t.server.worker.worker.updateConfig m.update).1 with
    | none => exact ⟨⟨rfl, h.replays, h.running⟩, rfl, .cons (.same _) .nil⟩
    | some e => exact ⟨⟨rfl, h.replays, h.running⟩, rfl, .cons (.threw e) .nil⟩

variable (r : FunctionRequest) (env : RequestEnv)

/-- The handler of a path, for the method it takes. -/
theorem handleRequest_submit (d : Deployment) :
    t.handleRequest d (r.toHttp "/api/submit") env =
      if r.method = "POST" then t.handleSubmit d (r.body.elim .empty .json) env
      else t.respond (jsonError 405 "Method not allowed") := by
  simp [HttpState.handleRequest, FunctionRequest.toHttp, HttpState.knownPaths]

theorem handleRequest_replay (d : Deployment) :
    t.handleRequest d (r.toHttp "/api/replay") env =
      if r.method = "POST" then t.handleReplay d (r.body.elim .empty .json) env
      else t.respond (jsonError 405 "Method not allowed") := by
  simp [HttpState.handleRequest, FunctionRequest.toHttp, HttpState.knownPaths]

theorem handleRequest_config (d : Deployment) :
    t.handleRequest d (r.toHttp "/api/config") env =
      if r.method = "POST" then t.handleConfig d (r.toHttp "/api/config") env
      else t.respond (jsonError 405 "Method not allowed") := by
  simp [HttpState.handleRequest, FunctionRequest.toHttp, HttpState.knownPaths]

theorem handleRequest_status (d : Deployment) :
    t.handleRequest d (r.toHttp "/api/status") env =
      if r.method = "GET" then t.handleStatus d env
      else t.respond (jsonError 405 "Method not allowed") := by
  simp [HttpState.handleRequest, FunctionRequest.toHttp, HttpState.knownPaths]

variable {v : Json} (hbody : r.body = some v)

include hbody

theorem submitHandler_agrees (h : SameState s t) :
    SameOutcome (s.submitHandler f r env)
      (t.handleRequest (f.deployment startTime nullAccess) (r.toHttp "/api/submit") env) := by
  rw [handleRequest_submit, hbody]
  unfold FunctionState.submitHandler
  by_cases hmethod : r.method = "POST"
  · rw [if_neg (not_not_intro hmethod), if_pos hmethod, hbody]
    unfold HttpState.handleSubmit
    dsimp only [Option.elim]
    cases taskSubmitSchema (some v) with
    | none => exact h.respond _
    | some m =>
        refine h.authenticate ?_
        rw [getOrCreate_of_server h.server]
        exact h.runServer ((handleSubmit_exited ..).trans h.running)
  · rw [if_pos hmethod, if_neg hmethod]
    exact h.respond _

theorem replayHandler_agrees (h : SameState s t) :
    SameOutcome (s.replayHandler f r env)
      (t.handleRequest (f.deployment startTime nullAccess) (r.toHttp "/api/replay") env) := by
  rw [handleRequest_replay, hbody]
  unfold FunctionState.replayHandler
  by_cases hmethod : r.method = "POST"
  · rw [if_neg (not_not_intro hmethod), if_pos hmethod, hbody]
    unfold HttpState.handleReplay
    dsimp only [Option.elim]
    cases taskReplayRequestSchema (some v) with
    | none => exact h.respond _
    | some m =>
        refine h.authenticate ?_
        rw [h.server]
        exact ⟨⟨rfl, congrArg (· ++ _) h.replays, h.running⟩, rfl, .nil⟩
  · rw [if_pos hmethod, if_neg hmethod]
    exact h.respond _

theorem configHandler_agrees (h : SameState s t) :
    SameOutcome (s.configHandler f r env)
      (t.handleRequest (f.deployment startTime nullAccess) (r.toHttp "/api/config") env) := by
  rw [handleRequest_config]
  unfold FunctionState.configHandler
  by_cases hmethod : r.method = "POST"
  · rw [if_neg (not_not_intro hmethod), if_pos hmethod, hbody]
    have hsent : (r.toHttp "/api/config").body = .json v := by
      rw [FunctionRequest.toHttp, hbody]
      rfl
    -- the address is not known, so the request is not from localhost
    have hremote : (r.toHttp "/api/config").isLocalhost = false := rfl
    unfold HttpState.handleConfig
    rw [hsent]
    dsimp only
    cases workerConfigUpdateSchema (some v) with
    | none => exact h.respond _
    | some m =>
        simp only [hremote, Bool.false_eq_true, if_false]
        cases m.auth with
        | none => exact h.answer .noEnvelope
        | some auth => exact h.authenticate (applyConfig_agrees h m env)
  · rw [if_pos hmethod, if_neg hmethod]
    exact h.respond _

omit hbody in
theorem statusHandler_agrees (h : SameState s t) :
    SameOutcome (s.statusHandler f r env)
      (t.handleRequest (f.deployment startTime nullAccess) (r.toHttp "/api/status") env) := by
  rw [handleRequest_status]
  unfold FunctionState.statusHandler
  by_cases hmethod : r.method = "GET"
  · rw [if_neg (not_not_intro hmethod), if_pos hmethod, getOrCreate_of_server h.server]
    exact ⟨⟨rfl, h.replays, h.running⟩, rfl, .cons (.status _ t env) .nil⟩
  · rw [if_pos hmethod, if_neg hmethod]
    exact h.respond _

end Handlers

/-! ## Steps and runs -/

section Runs

variable {f : Functions} {s s' : FunctionState} {t : HttpState}
variable (startTime : Int) (nullAccess : Thrown)

theorem step_agrees (h : SameState s t) {a : FunctionAction} (hbody : a.HasBody)
    {o : List FunctionEffect} (hstep : (functions f).step s a = some (s', o)) :
    ∃ q, (http (f.deployment startTime nullAccess)).step t a.toHttp = some q ∧
      SameOutcome (s', o) q := by
  have hrequest : ∀ (r : Request) (env : RequestEnv),
      (http (f.deployment startTime nullAccess)).step t (.request r env) =
        some (t.handleRequest (f.deployment startTime nullAccess) r env) :=
    fun r env => if_neg (by simp [h.running])
  cases a with
  | submit r env =>
      obtain ⟨v, hv⟩ := Option.isSome_iff_exists.mp hbody
      exact ⟨_, hrequest _ env, Option.some.inj hstep ▸ submitHandler_agrees r env hv h⟩
  | replay r env =>
      obtain ⟨v, hv⟩ := Option.isSome_iff_exists.mp hbody
      exact ⟨_, hrequest _ env, Option.some.inj hstep ▸ replayHandler_agrees r env hv h⟩
  | config r env =>
      obtain ⟨v, hv⟩ := Option.isSome_iff_exists.mp hbody
      exact ⟨_, hrequest _ env, Option.some.inj hstep ▸ configHandler_agrees r env hv h⟩
  | status r env =>
      exact ⟨_, hrequest _ env, Option.some.inj hstep ▸ statusHandler_agrees r env h⟩
  | resumeReplay k =>
      obtain ⟨u, hserver, hstep⟩ := Option.bind_eq_some_iff.mp hstep
      obtain rfl := Option.some.inj (h.server.symm.trans hserver)
      obtain ⟨p, hp, hstep⟩ := Option.bind_eq_some_iff.mp hstep
      obtain ⟨hresumed, hstep⟩ := Option.ite_none_left_eq_some.mp hstep
      rw [h.replays] at hp
      refine ⟨_, ?_, Option.some.inj hstep ▸ resumeReplay_agrees h k p⟩
      show (if t.server.exited = true then none else (t.replays[k]?).bind fun p => _) = _
      rw [if_neg (by simp [h.running]), hp, Option.bind_some, if_neg hresumed]
  | internal a =>
      obtain ⟨hinternal, hstep⟩ := Option.ite_none_right_eq_some.mp hstep
      obtain ⟨u, hserver, hstep⟩ := Option.bind_eq_some_iff.mp hstep
      obtain rfl := Option.some.inj (h.server.symm.trans hserver)
      obtain ⟨⟨u', out⟩, hinner, heq⟩ := Option.map_eq_some_iff.mp hstep
      have hinner : (server f.settings).step t.server (.worker a) = some (u', out) := hinner
      have hexited : u'.exited = t.server.exited := by
        cases step_cases hinner with
        | worker hinner hr => rfl
      refine ⟨t.runServer .null (u', out), ?_, heq ▸ h.runServer (hexited.trans h.running)⟩
      show (if t.server.exited = true then none else if (ServerAction.worker a).isInternal then
        ((server f.settings).step t.server (.worker a)).map (t.runServer .null) else none) = _
      rw [if_neg (by simp [h.running]), if_pos hinternal, hinner, Option.map_some]

/-- Once the worker is there, a run of the functions in which every request has a body is one
of the standalone server, step by step: in the same states, with the same effects of the
worker, and with answers that are the same but for what `SameAnswer` lists. -/
theorem functions_agree (h : SameState s t) {as : List FunctionAction}
    (hbody : ∀ a ∈ as, a.HasBody) {out : List FunctionEffect}
    (hrun : (functions f).run s as = some (s', out)) :
    ∃ t' out', (http (f.deployment startTime nullAccess)).run t (as.map (·.toHttp)) =
        some (t', out') ∧ SameOutcome (s', out) (t', out') := by
  induction as generalizing s t out with
  | nil =>
      simp only [Machine.run_nil, Option.some.injEq, Prod.mk.injEq] at hrun
      obtain ⟨rfl, rfl⟩ := hrun
      exact ⟨t, [], rfl, h, rfl, .nil⟩
  | cons a as ih =>
      obtain ⟨ha, has⟩ := List.forall_mem_cons.mp hbody
      obtain ⟨u, o, o', hu, hrest, rfl⟩ := (functions f).run_cons_iff.mp hrun
      obtain ⟨⟨t₁, p⟩, ht₁, hstep⟩ := step_agrees startTime nullAccess h ha hu
      obtain ⟨t', p', ht', hrest⟩ := ih hstep.state has hrest
      refine ⟨t', p ++ p', (Machine.run_cons_iff _).mpr ⟨t₁, p, p', ht₁, ht', rfl⟩, ?_⟩
      refine ⟨hrest.state, ?_, ?_⟩
      · rw [functionWorkerEffects_append, httpWorkerEffects_append]
        exact congrArg₂ _ hstep.effects hrest.effects
      · show List.Forall₂ SameAnswer (functionAnswers (o ++ o')) (httpAnswers (p ++ p'))
        unfold functionAnswers httpAnswers
        rw [List.filterMap_append, List.filterMap_append]
        exact List.rel_append hstep.answers hrest.answers

end Runs

/-- A status request, and an update that has no envelope. -/
theorem functions_agree_noEnvelope :
    let env : RequestEnv := ⟨⟨0, by decide⟩, ⟨0, ⟨0, none⟩, ⟨0, none⟩⟩, 0, 0, 0, 0⟩
    let update : Json := .obj [("type", .str "WORKER_CONFIG_UPDATE"), ("worker_id", .str "w1"),
      ("effective_ts", .num 0)]
    let as : List FunctionAction := [.status ⟨"GET", none⟩ env, .config ⟨"POST", some update⟩ env]
    ∃ s' out t' out',
      (functions localFunctions).run ⟨some (.init .ofDefaults), []⟩ as = some (s', out) ∧
      (http (localFunctions.deployment 0 (.ofMessage ""))).run (.init (.init .ofDefaults))
        (as.map (·.toHttp)) = some (t', out') ∧ SameOutcome (s', out) (t', out') := by
  intro env update as
  have hruns : ((functions localFunctions).run ⟨some (.init .ofDefaults), []⟩ as).isSome = true :=
    rfl
  obtain ⟨⟨s', out⟩, hrun⟩ := Option.isSome_iff_exists.mp hruns
  have hsame : SameState ⟨some (.init .ofDefaults), []⟩ (.init (.init .ofDefaults)) :=
    ⟨rfl, rfl, rfl⟩
  have hbody : ∀ a ∈ as, a.HasBody := by simp [as, FunctionAction.HasBody]
  obtain ⟨t', out', hhttp, houtcome⟩ :=
    functions_agree 0 (.ofMessage "") hsame hbody hrun
  exact ⟨s', out, t', out', hrun, hhttp, houtcome⟩

end L0Worker.Server
