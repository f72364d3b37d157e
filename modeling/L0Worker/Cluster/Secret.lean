import L0Worker.Cluster.Runs
import L0Worker.Server.Auth
import L0Worker.Server.Authority

/-!
# The secret of the cluster

The supervisor hands its secret to every worker it starts, also when it starts one again, and
whether a worker checks signatures is decided by variables that it inherits.  So every process
of a cluster checks envelopes in the same way, which depends on the supervisor alone
(`run_auth`), and a request that shows no token made with this secret changes nothing anywhere
in the cluster, whatever happened before (`cluster_signed`).
-/

namespace L0Worker.Cluster

open Server Supervisor

/-! ## What the processes check -/

/-- The secret that every process finds in its environment. -/
def Setup.secret (setup : Setup) : Option String :=
  setup.authSecret.orElse fun _ => setup.inherited "L0_AUTH_SECRET"

/-- The processes check signatures. -/
def Setup.checksSignatures (setup : Setup) : Bool :=
  match setup.inherited "SKIP_AUTH_VALIDATION" with
  | some value => value != "true"
  | none => isVercel setup.inherited

/-- How every process checks envelopes. -/
def Setup.auth (setup : Setup) : AuthConfig where
  skipAuthValidation := !setup.checksSignatures
  authSecret := setup.secret
  hmacSha256 := setup.runtime.hmacSha256
  numberText := fun n => String.ofList n.text

/-- The variables that a new process does not inherit. -/
def spawnVars : List String :=
  ["PORT", "WORKER_ID", "L0_AUTH_SECRET", "OPENAI_API_KEY", "ANTHROPIC_API_KEY"]

section Environment

variable {setup : Setup}

/-- Any other variable is inherited. -/
theorem environment_inherited {name : String} (h : name ∉ spawnVars) (p : Process) :
    setup.environment p name = setup.inherited name := by
  simp only [spawnVars, List.mem_cons, List.not_mem_nil, or_false, not_or] at h
  obtain ⟨hport, hid, hsecret, hopenai, hanthropic⟩ := h
  show setVar? _ _ _ name = _
  rw [setVar?_of_ne hanthropic, setVar?_of_ne hopenai, setVar?_of_ne hsecret]
  exact (if_neg hid).trans (if_neg hport)

theorem environment_secret (p : Process) :
    setup.environment p "L0_AUTH_SECRET" = setup.secret := by
  show setVar? _ _ _ "L0_AUTH_SECRET" = _
  rw [setVar?_of_ne (by decide), setVar?_of_ne (by decide), Setup.secret]
  cases hsecret : setup.authSecret with
  | none =>
      show setVar? _ _ setup.authSecret "L0_AUTH_SECRET" = _
      rw [hsecret]
      rfl
  | some secret =>
      show setVar? _ _ setup.authSecret "L0_AUTH_SECRET" = _
      rw [hsecret]
      rfl

theorem environment_skips (p : Process) (uuidv7 : String) :
    (Config.ofEnv (setup.environment p) uuidv7).skipAuthValidation = !setup.checksSignatures := by
  have hskip : setup.environment p "SKIP_AUTH_VALIDATION" =
      setup.inherited "SKIP_AUTH_VALIDATION" := environment_inherited (by decide) p
  have hvercel : isVercel (setup.environment p) = isVercel setup.inherited := by
    rw [isVercel, isVercel, Env.truthy, Env.truthy, environment_inherited (by decide),
      environment_inherited (by decide)]
  unfold Config.ofEnv Setup.checksSignatures
  dsimp only
  rw [hskip, preset, hvercel]
  cases setup.inherited "SKIP_AUTH_VALIDATION" with
  | some value => exact (Bool.not_not _).symm
  | none => cases isVercel setup.inherited <;> rfl

/-- A new server checks envelopes as its supervisor says. -/
theorem createServer_auth {p : Process} {uuidv7 : String} {clock : Worker.MonotonicClock}
    {startTime : Int} {line : String} {d : Deployment} {s : HttpState}
    (h : createServer setup p uuidv7 clock startTime = some (line, d, s)) :
    d.auth = setup.auth := by
  obtain ⟨d', hd, h⟩ := Option.bind_eq_some_iff.mp h
  obtain ⟨worker, -, h⟩ := Option.bind_eq_some_iff.mp h
  obtain ⟨-, heq⟩ := Prod.mk.inj (Option.some.inj h)
  obtain ⟨rfl, -⟩ := Prod.mk.inj heq
  obtain ⟨timeout, -, hd⟩ := Option.bind_eq_some_iff.mp hd
  obtain ⟨buffer, -, hd⟩ := Option.bind_eq_some_iff.mp hd
  rw [← Option.some.inj hd]
  show AuthConfig.mk (Config.ofEnv (setup.environment p) uuidv7).skipAuthValidation
    (setup.environment p "L0_AUTH_SECRET") _ _ = _
  rw [environment_skips, environment_secret]
  rfl

end Environment

/-! ## Along a run -/

/-- The node, if it has a server, checks envelopes as the supervisor says. -/
def Node.ChecksAlike (setup : Setup) : Node → Prop
  | .spawned => True
  | .created d _ | .serving d _ => d.auth = setup.auth

section Runs

variable {setup : Setup} {w₀ : World} {workerIds : List WorkerId} {c c' : State}
variable {as : List Action} {out : List PoolEvent}

/-- In every state of the cluster every process checks envelopes as the supervisor says. -/
theorem run_auth (hrun : (cluster setup).run (.init (w₀.start setup.pool workerIds).1) as =
    some (c, out)) : ∀ pid, (c.node pid).ChecksAlike setup :=
  (cluster setup).run_invariant
    (fun _ _ _ _ h hstep => step_nodes h createServer_auth id (fun _ _ hauth => hauth) hstep)
    (show ∀ _ : Pid, Node.ChecksAlike setup .spawned from fun _ => trivial) hrun

/-- The request shows a token that was made with the secret for what it concerns and is
current, or it is for configuration or drain and comes from localhost. -/
def Setup.Vouches (setup : Setup) (r : Request) (workerId : WorkerId) (now : TimeValue) : Prop :=
  (∃ id e secret, r.Concerns workerId id ∧ authEnvelopeSchema r.envelope = some e ∧
    e.Current now ∧ setup.secret = some secret ∧ secret ≠ "" ∧
    e.token = setup.auth.generateAuthToken secret id e.issuedAt e.ttl) ∨
  ((r.path = "/api/config" ∨ r.path = "/api/drain") ∧ r.isLocalhost = true)

/-- What a process takes for authority is a signature or a local request. -/
theorem vouches_of_authorised (hchecks : setup.checksSignatures = true) {d : Deployment}
    (hauth : d.auth = setup.auth) {s : HttpState} {r : Request} {now : TimeValue}
    (h : Authorised d s r now) : setup.Vouches r s.server.workerId now := by
  refine h.imp_left fun ⟨id, hid, hvalid⟩ => ?_
  rw [hauth, AuthConfig.validateAuth_eq_valid_iff] at hvalid
  obtain ⟨e, hparse, hcurrent, hskip | ⟨secret, hsecret, htoken⟩⟩ := hvalid
  · rw [Setup.auth, hchecks] at hskip
    cases hskip
  · obtain ⟨hsecret, hne⟩ := Option.filter_eq_some_iff.mp hsecret
    exact ⟨id, e, secret, hid, hparse, hcurrent, hsecret, of_decide_eq_true hne, htoken⟩

/-- A server that stays as it is and prints nothing leaves the cluster as it is. -/
theorem advance_self {pid : Pid} {d : Deployment} {s : HttpState}
    (hnode : c.node pid = .serving d s) (hrunning : ¬ s.server.exited = true) :
    (c.advance pid (.serving d s) []).endIfExited pid s = c := by
  rw [State.endIfExited, if_neg hrunning, State.advance, print_nil, ← hnode,
    Function.update_eq_self]

/-- In every run of a cluster whose workers check signatures, a request to a process that shows
no current token made with the secret of the supervisor for the id it concerns changes nothing
in the whole cluster, unless it is for configuration or drain and comes from localhost. -/
theorem cluster_signed (hnew : World.new setup.pool = some w₀)
    (hchecks : setup.checksSignatures = true)
    (hrun : (cluster setup).run (.init (w₀.start setup.pool workerIds).1) as = some (c, out))
    {pid : Pid} {r : Request} {env : RequestEnv} {o : List PoolEvent}
    (hstep : (cluster setup).step c (.serve pid (.request r env)) = some (c', o)) :
    ∃ p, runningProcess c.world pid = some p ∧
      (¬ setup.Vouches r p.workerId env.authNow → c' = c ∧ o = []) := by
  have hinv : Inv c :=
    (cluster setup).run_invariant (fun _ _ _ _ h hs => h.step hs) (inv_init hnew) hrun
  cases step_cases hstep with
  | @serve _ p d s s' _ effects hp hnode hserve =>
      refine ⟨p, hp, fun hno => ⟨?_, rfl⟩⟩
      have hran : RanFrom d.settings p.workerId s.server.worker :=
        hinv.fits hp hnode Node.noConfusion
      have hauth : d.auth = setup.auth := by
        have hnodes := run_auth hrun pid
        rw [hnode] at hnodes
        exact hnodes
      rw [← hran.workerId] at hno
      have hunauthorised : ¬ Authorised d s r env.authNow :=
        fun h => hno (vouches_of_authorised hchecks hauth h)
      obtain ⟨status, body, hrefused⟩ := handleRequest_refused hunauthorised
      obtain ⟨hrunning, heq⟩ := Option.ite_none_left_eq_some.mp hserve
      obtain ⟨rfl, rfl⟩ := Prod.mk.inj (hrefused.symm.trans (Option.some.inj heq))
      exact advance_self hnode hrunning

end Runs

/-! ## A run -/

/-- A cluster whose workers check signatures. -/
def signedSetup : Setup where
  pool := oneWorker
  authSecret := some "secret"
  openaiApiKey := none
  anthropicApiKey := none
  inherited := fun name => if name = "SKIP_AUTH_VALIDATION" then some "false" else none
  runtime := ⟨id, fun secret payload => secret ++ toString payload, id, .ofMessage ""⟩

/-- A drain request from elsewhere with a token that nobody made. -/
def forgedDrain : Request where
  method := "POST"
  path := "/api/drain"
  body := .json (.obj [("auth", .obj [("token", .str "aaaaaaaaaaaaaaaaaaaaaaaaaaaaaaaa"),
    ("issued_at", .num 0), ("ttl", .num 9)])])
  address := some "10.0.0.1"

def forgedDrainEnv : RequestEnv := ⟨⟨5, by decide⟩, ⟨5, ⟨5, none⟩, ⟨5, none⟩⟩, 5, 5, 5, 5⟩

theorem cluster_signed_forgedDrain : ∃ c c' out o,
    (cluster signedSetup).run (.init oneWorkerStarted) comesUp = some (c, out) ∧
      (cluster signedSetup).step c (.serve 0 (.request forgedDrain forgedDrainEnv)) =
        some (c', o) ∧ c' = c ∧ o = [] := by
  obtain ⟨⟨c', out⟩, hall⟩ : ∃ r, (cluster signedSetup).run (.init oneWorkerStarted)
      (comesUp ++ [.serve 0 (.request forgedDrain forgedDrainEnv)]) = some r :=
    Option.isSome_iff_exists.mp (by decide +kernel)
  obtain ⟨c, out, o, hrun, hstep, rfl⟩ := (Machine.run_concat_iff _).mp hall
  have hnew : World.new signedSetup.pool = some ⟨∅, [], []⟩ := rfl
  have hchecks : signedSetup.checksSignatures = true := by decide
  obtain ⟨p, -, hkept⟩ := cluster_signed hnew hchecks hrun hstep
  refine ⟨c, c', out, o, hrun, hstep, hkept ?_⟩
  rintro (⟨id, e, secret, -, hparse, -, hsecret, -, htoken⟩ | ⟨-, hlocal⟩)
  · obtain rfl := Option.some.inj hparse
    obtain rfl := Option.some.inj hsecret
    have htoken : "aaaaaaaaaaaaaaaaaaaaaaaaaaaaaaaa" = "secret" ++ _ := htoken
    have hfirst := congrArg (fun token => token.toList.head?) htoken
    rw [String.toList_append] at hfirst
    exact absurd hfirst (by simp)
  · exact absurd hlocal (by decide)

end L0Worker.Cluster
