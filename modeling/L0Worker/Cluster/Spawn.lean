import L0Worker.Lib.JsonRoundtrip
import L0Worker.Server.DrainOnce
import L0Worker.Server.Environment
import L0Worker.Server.Status

/-!
# Between supervisor and worker

The supervisor tells a worker its id and its port through the environment, as text, and the
worker tells both back in the ready line, as JSON.  `spawn_handshake` follows them around:
the supervisor reads the id it gave, and the port it gave unless that was zero, which the
worker takes for a port that is not set.

The other lines of a worker are read as what they were printed from, too
(`readLine_object`, `readLine_modeLine`).
-/

namespace L0Worker.Cluster

open Server Supervisor

/-! ## The environment of a new process -/

/-- `WorkerConfig`, for a binary that is there. -/
structure WorkerConfig where
  port : Port
  workerId : WorkerId
  authSecret : Option String
  openaiApiKey : Option String
  anthropicApiKey : Option String
  envVars : List (String × String)

/-- `Command::env`. -/
def setVar (env : Env) (v : String × String) : Env :=
  fun name => if name = v.1 then some v.2 else env name

/-- `Command::env` where there is a value. -/
def setVar? (env : Env) (name : String) (value : Option String) : Env :=
  value.elim env fun value => setVar env (name, value)

/-- The environment in which `Worker::spawn` starts a process. -/
def WorkerConfig.environment (c : WorkerConfig) (inherited : Env) : Env :=
  let env := setVar inherited ("PORT", toString c.port.toNat)
  let env := setVar env ("WORKER_ID", c.workerId)
  let env := setVar? env "L0_AUTH_SECRET" c.authSecret
  let env := setVar? env "OPENAI_API_KEY" c.openaiApiKey
  let env := setVar? env "ANTHROPIC_API_KEY" c.anthropicApiKey
  c.envVars.foldl setVar env

theorem setVar?_of_ne {env : Env} {name name' : String} {value : Option String}
    (h : name' ≠ name) : setVar? env name value name' = env name' := by
  cases value with
  | none => rfl
  | some value => exact if_neg h

theorem foldl_setVar {vars : List (String × String)} {env : Env} {name : String}
    (h : name ∉ vars.map Prod.fst) : vars.foldl setVar env name = env name := by
  induction vars generalizing env with
  | nil => rfl
  | cons v vars ih =>
      rw [List.map_cons, List.mem_cons, not_or] at h
      rw [List.foldl_cons, ih h.2]
      exact if_neg h.1

namespace WorkerConfig

variable {c : WorkerConfig} {inherited : Env}

theorem environment_port (h : "PORT" ∉ c.envVars.map Prod.fst) :
    c.environment inherited "PORT" = some (toString c.port.toNat) := by
  unfold environment
  rw [foldl_setVar h, setVar?_of_ne (by decide), setVar?_of_ne (by decide),
    setVar?_of_ne (by decide)]
  rfl

theorem environment_workerId (h : "WORKER_ID" ∉ c.envVars.map Prod.fst) :
    c.environment inherited "WORKER_ID" = some c.workerId := by
  unfold environment
  rw [foldl_setVar h, setVar?_of_ne (by decide), setVar?_of_ne (by decide),
    setVar?_of_ne (by decide)]
  rfl

end WorkerConfig

/-! ## The reader of stdout -/

/-- The line of a worker with this text, as the stdout reader takes it apart.  The text is one
that `console.log` writes, so an integer in it has neither a fraction nor an exponent. -/
def readLine (text : String) : Supervisor.Line :=
  match Json.parse text with
  | some (.obj fields) =>
      match Schema.string (fields.lookup "event") with
      | some kind => .event kind (unsigned (2 ^ 64) (fields.lookup "port"))
          (Schema.string (fields.lookup "workerId")) text
      | none => .other text
  | _ => .other text

/-- A printed object is read field by field. -/
theorem readLine_stringify {fields : List (String × Json)} {kind : String}
    (h : (Json.obj fields).WellFormed) (hkind : fields.lookup "event" = some (.str kind)) :
    readLine (Json.obj fields).stringify = .event kind
      (unsigned (2 ^ 64) ((fields.lookup "port").map Json.wire))
      (Schema.string ((fields.lookup "workerId").map Json.wire)) (Json.obj fields).stringify := by
  rw [readLine, Json.parse_stringify h]
  simp only [Json.wire, Json.lookup_wireFields, hkind]
  rfl

/-- The names of the fields that are printed are no array indices. -/
theorem ordered_of_lineNames {fields : List (String × Json)}
    (h : ∀ name ∈ fields.map Prod.fst,
      name ∈ ["event", "port", "workerId", "timedOut", "pendingTasks"])
    (hdistinct : (fields.map Prod.fst).Nodup) : OwnKeys.Ordered fields := by
  have hnames : ∀ name ∈ ["event", "port", "workerId", "timedOut", "pendingTasks"],
      OwnKeys.arrayIndex? name = none := by decide
  exact OwnKeys.ordered_of_names (fun name hname => hnames name (h name hname)) hdistinct

/-- The lines of a drain are read as what they say, if the number of pending tasks is one
that JavaScript counts. -/
theorem readLine_object {line : Server.Line}
    (h : ∀ id pendingTasks, line = .drained id (some pendingTasks) → pendingTasks ≤ 2 ^ 53) :
    readLine line.object.stringify = line.toStdout := by
  cases line with
  | draining id =>
      refine readLine_stringify (.obj (ordered_of_lineNames (by simp) (by simp)) ?_) rfl
      simp [Json.WellFormed.str]
  | drained id pendingTasks =>
      cases pendingTasks with
      | none =>
          refine readLine_stringify (.obj (ordered_of_lineNames (by simp) (by simp)) ?_) rfl
          simp [Json.WellFormed.str, Server.Line.workerId]
      | some n =>
          refine readLine_stringify (.obj (ordered_of_lineNames (by simp) (by simp)) ?_) rfl
          simp [Json.WellFormed.str, Json.WellFormed.bool,
            Json.WellFormed.num (Number.isDouble_ofNat (h id n rfl))]

/-- The first line of a worker is not JSON. -/
theorem readLine_modeLine (env : Env) (config : Config) :
    readLine (modeLine env config) = .other (modeLine env config) := by
  have hparse : Json.parse (modeLine env config) = none := by
    unfold modeLine
    cases isVercel env <;> cases config.skipAuthValidation <;> rfl
  rw [readLine, hparse]

theorem readLine_readySignal {port : ℕ} (h : port ≤ 2 ^ 53) (id : WorkerId) :
    readLine (readySignal (.ofNat port) id).stringify =
      .event "worker.ready" (some port) (some id) (readySignal (.ofNat port) id).stringify := by
  have hport : unsigned (2 ^ 64) (some (.num (.ofNat port))) = some port := by
    rw [unsigned_ofNat, if_pos (by omega)]
  have hformed : (readySignal (.ofNat port) id).WellFormed := by
    refine .obj (ordered_of_lineNames (by simp) (by simp)) ?_
    simp [Json.WellFormed.str, Json.WellFormed.num (Number.isDouble_ofNat h)]
  refine (readLine_stringify hformed rfl).trans ?_
  show Supervisor.Line.event _ (unsigned (2 ^ 64) (some (.num (.ofNat port)))) _ _ = _
  rw [hport]
  rfl

/-! ## The handshake -/

/-- The port on which a process listens that is given a port. -/
def listenPort (given : Port) : Port := if given = 0 then 3000 else given

theorem serverPort_spawned {env : Env} {given : Port}
    (h : env "PORT" = some (toString given.toNat)) :
    serverPort env = .ofNat (listenPort given).toNat := by
  have hlt := given.toNat_lt
  have htext : NumberText.ofString (toString given.toNat) = .ofNat given.toNat :=
    NumberText.ofString_toString (by omega)
  unfold serverPort listenPort
  rw [h]
  dsimp only
  rw [htext]
  by_cases hzero : given = 0
  · subst hzero
    rfl
  · have hne : given.toNat ≠ 0 := fun heq => hzero (UInt16.toNat_inj.mp heq)
    have hnumber : Number.ofNat given.toNat ≠ 0 := fun heq =>
      hne (Nat.cast_injective (Number.finite.inj heq))
    rw [if_neg hzero, if_neg (not_or.mpr ⟨Number.noConfusion, hnumber⟩)]

/-- A spawned worker has the id that it was given and listens on the port that it was given,
or on 3000 if that was zero, and the supervisor reads both in its ready line. -/
theorem spawn_handshake (c : WorkerConfig) (inherited : Env) (uuidv7 : String)
    (hport : "PORT" ∉ c.envVars.map Prod.fst) (hid : "WORKER_ID" ∉ c.envVars.map Prod.fst) :
    let env := c.environment inherited
    let config := Config.ofEnv env uuidv7
    config.workerId = c.workerId ∧ serverPort env = .ofNat (listenPort c.port).toNat ∧
      (readLine (readySignal (serverPort env) config.workerId).stringify).toEvent =
        some (.ready (listenPort c.port) c.workerId) := by
  intro env config
  have hworkerId : config.workerId = c.workerId := by
    show (c.environment inherited "WORKER_ID").getD uuidv7 = c.workerId
    rw [WorkerConfig.environment_workerId hid, Option.getD_some]
  have hserver : serverPort env = .ofNat (listenPort c.port).toNat :=
    serverPort_spawned (WorkerConfig.environment_port hport)
  refine ⟨hworkerId, hserver, ?_⟩
  have hlt := (listenPort c.port).toNat_lt
  rw [hserver, readLine_readySignal (by omega), hworkerId]
  simp [Line.toEvent]

theorem spawn_handshake_defaultPort :
    let c : WorkerConfig := ⟨0, "l0-1", none, none, none, [("LOG_LEVEL", "debug")]⟩
    let env := c.environment fun _ => none
    let config := Config.ofEnv env "0190"
    config.workerId = "l0-1" ∧ serverPort env = .ofNat 3000 ∧
      (readLine (readySignal (serverPort env) config.workerId).stringify).toEvent =
        some (.ready 3000 "l0-1") :=
  spawn_handshake ⟨0, "l0-1", none, none, none, [("LOG_LEVEL", "debug")]⟩ (fun _ => none) "0190"
    (by decide) (by decide)

end L0Worker.Cluster
