import L0Worker.Server.Http

/-!
# Who may change a worker

Four handlers check who asks, each in its own place: submit and replay validate the envelope
for the task of the message, configuration for the worker the message names, which is
compared with the worker itself only afterwards, and drain for the worker itself, whatever
was in the body.  Configuration and drain let requests from localhost through.

`unauthorised_changes_nothing` follows every way through every handler: a request without
such authority leaves the whole server as it was, and all that happens is one response.
-/

namespace L0Worker.Server

open Worker Schema

/-! ## Authority -/

/-- The value of a body that is JSON. -/
def Body.value? : Body → Option Json
  | .json v => some v
  | _ => none

/-- The envelope that a request carries, if any. -/
def Request.envelope (r : Request) : Option Json := r.body.value?.bind (Json.field? "auth")

/-- The id a request concerns: its task for submit and replay, and else the worker. -/
def Request.Concerns (r : Request) (workerId id : String) : Prop :=
  if r.path = "/api/submit" ∨ r.path = "/api/replay" then
    r.body.value?.bind (Json.field? "task_id") = some (.str id)
  else id = workerId

/-- The request carries an envelope that `validateAuth` accepts now for the id it concerns,
or it is for configuration or drain and comes from localhost. -/
def Authorised (d : Deployment) (s : HttpState) (r : Request) (now : TimeValue) : Prop :=
  (∃ id, r.Concerns s.server.workerId id ∧
    d.auth.validateAuth r.envelope id now = .ok .valid) ∨
  ((r.path = "/api/config" ∨ r.path = "/api/drain") ∧ r.isLocalhost = true)

/-- The outcome of a handler that only turns the request away. -/
def Refused (s : HttpState) (r : HttpState × List HttpEffect) : Prop :=
  ∃ status body, r = (s, [.responded (.json status body)])

/-! ## What shows authority -/

section Authority

variable {d : Deployment} {s : HttpState} {r : Request} {env : RequestEnv}

section Envelopes

variable {v : Json} {fields : List (String × Json)} {e : AuthEnvelope} {id : String}
  {now : TimeValue}

/-- The envelope of a message is what the request carries. -/
theorem validateAuth_envelope (hbody : r.body = .json v) (hv : some v = some (.obj fields))
    (hauth : authEnvelopeSchema (fields.lookup "auth") = some e)
    (hvalid : d.auth.validateAuth (some e.toJson) id now = .ok .valid) :
    d.auth.validateAuth r.envelope id now = .ok .valid := by
  obtain rfl := Option.some.inj hv
  rw [AuthConfig.validateAuth_toJson hauth] at hvalid
  rw [Request.envelope, hbody]
  exact hvalid

theorem authorised_of_task (hpath : r.path = "/api/submit" ∨ r.path = "/api/replay")
    (hbody : r.body = .json v) (hv : some v = some (.obj fields))
    (hauth : authEnvelopeSchema (fields.lookup "auth") = some e)
    (htask : fields.lookup "task_id" = some (.str id))
    (hvalid : d.auth.validateAuth (some e.toJson) id now = .ok .valid) :
    Authorised d s r now := by
  refine .inl ⟨id, ?_, validateAuth_envelope hbody hv hauth hvalid⟩
  obtain rfl := Option.some.inj hv
  rw [Request.Concerns, if_pos hpath, hbody]
  exact htask

/-- A request for configuration or drain concerns the worker. -/
theorem authorised_of_worker (hpath : r.path = "/api/config" ∨ r.path = "/api/drain")
    (hvalid : d.auth.validateAuth r.envelope s.server.workerId now = .ok .valid) :
    Authorised d s r now := by
  refine .inl ⟨s.server.workerId, ?_, hvalid⟩
  rw [Request.Concerns, if_neg]
  rcases hpath with hpath | hpath
  · simp [hpath]
  · simp [hpath]

end Envelopes

/-- What a request for drain is validated for is the envelope that it carries. -/
theorem envelope_of_drainBody {auth : Json}
    (hauth : ((HttpState.drainBody r.body).field? "auth").filter Json.truthy = some auth) :
    r.envelope = some auth := by
  have hauth := (Option.filter_eq_some_iff.mp hauth).1
  unfold Request.envelope
  cases hbody : r.body with
  | json v =>
      rw [hbody] at hauth
      exact hauth
  | _ => rw [hbody] at hauth; cases hauth

/-- Without authority an envelope may still be valid for the worker that the message names,
but that is another one. -/
theorem handleRequest_refused (h : ¬ Authorised d s r env.authNow) :
    Refused s (s.handleRequest d r env) := by
  have hhandled := handleRequest_handled d s r env
  generalize s.handleRequest d r env = p at hhandled
  cases hhandled with
  | refused answer hstatus => exact ⟨_, _, rfl⟩
  | status hpath => exact ⟨_, _, rfl⟩
  | submit hpath hbody hm hvalid =>
      obtain ⟨fields, hv, hauth, htask⟩ := taskSubmitSchema_auth hm
      exact absurd (authorised_of_task (.inl hpath) hbody hv hauth htask hvalid) h
  | replay hpath hbody hm hvalid replays =>
      obtain ⟨fields, hv, hauth, htask⟩ := taskReplayRequestSchema_auth hm
      exact absurd (authorised_of_task (.inr hpath) hbody hv hauth htask hvalid) h
  | config hpath hmethod hbody hm hid hallowed =>
      rcases hallowed with hlocal | ⟨auth, hmessage, hvalid⟩
      · exact absurd (.inr ⟨.inl hpath, hlocal⟩) h
      · obtain ⟨fields, hv, hauth⟩ := workerConfigUpdateSchema_auth hm hmessage
        rw [hid] at hvalid
        exact absurd (authorised_of_worker (.inl hpath)
          (validateAuth_envelope hbody hv hauth hvalid)) h
  | drain hpath hallowed =>
      rcases hallowed with hlocal | ⟨auth, hauth, hvalid⟩
      · exact absurd (.inr ⟨.inr hpath, hlocal⟩) h
      · rw [← envelope_of_drainBody hauth] at hvalid
        exact absurd (authorised_of_worker (.inr hpath) hvalid) h

end Authority

/-! ## No unauthorised change -/

/-- In every state of a running server, a request without authority gets one response, which
is no stream, and leaves the state as it was: the worker with its slots, its events, its
configuration and its lifecycle, the drains and the replays. -/
theorem unauthorised_changes_nothing {d : Deployment} {s : HttpState} {r : Request}
    {env : RequestEnv} (hrunning : s.server.exited = false)
    (h : ¬ Authorised d s r env.authNow) :
    ∃ status body, (http d).step s (.request r env) =
      some (s, [.responded (.json status body)]) := by
  obtain ⟨status, body, heq⟩ := handleRequest_refused h
  refine ⟨status, body, ?_⟩
  rw [← heq]
  exact if_neg (not_exited hrunning)

/-- A drain request from elsewhere, whose token was made with another secret. -/
theorem unauthorised_changes_nothing_drain :
    let token := "aaaaaaaaaaaaaaaaaaaaaaaaaaaaaaaa"
    let auth : AuthConfig := ⟨false, some "secret", fun secret _ => secret, fun _ => "0"⟩
    let d : Deployment := ⟨auth, ⟨0, 5000, id⟩, 0, id, .value ""⟩
    let w : VercelWorker := ⟨.ready, ⟨"w1", "1.0.0", ⟨4, ∅, ∅⟩⟩, ⟨.empty, 4⟩, .new 0⟩
    let r : Request := ⟨"POST", "/api/drain",
      .json (.obj [("auth", .obj [("token", .str token), ("issued_at", .num 0), ("ttl", .num 9)])]),
      some "10.0.0.1"⟩
    let env : RequestEnv := ⟨⟨5, by decide⟩, ⟨5, ⟨5, none⟩, ⟨5, none⟩⟩, 5, 5, 5, 5⟩
    ∃ status body, (http d).step (.init (.init (.init w ⟨0⟩))) (.request r env) =
      some (.init (.init (.init w ⟨0⟩)), [.responded (.json status body)]) := by
  intro token auth d w r env
  refine unauthorised_changes_nothing rfl ?_
  rintro (⟨id, hid, hvalid⟩ | ⟨-, hlocal⟩)
  · rw [Request.Concerns, if_neg (by decide)] at hid
    subst hid
    have hverdict : auth.validateAuth r.envelope "w1" ⟨5, by decide⟩ =
        .ok (.invalid "invalid_signature") := by
      decide +kernel
    cases hverdict.symm.trans hvalid
  · exact absurd hlocal (by decide)

end L0Worker.Server
