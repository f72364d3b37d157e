import L0Worker.Lib.NumberText
import L0Worker.Server.Http

/-!
# What a process reads from its environment

The configuration of a worker process: one of two presets, overridden by environment
variables, each of which is text.  A number is read with `parseInt`, where what is no number
counts as absent.  The port of the standalone server is read with `Number` instead, where
zero counts as absent too.

`worker_created_iff` says for which environments the worker is created at all.
-/

namespace L0Worker.Server

open Worker

/-- The variables of a process environment. -/
abbrev Env := String → Option String

/-- The variable is set and not empty. -/
def Env.truthy (env : Env) (name : String) : Bool :=
  match env name with
  | none => false
  | some value => value ≠ ""

/-! ## The configuration -/

/-- `parseIntOrDefault`. -/
def parseIntOrDefault (value : Option String) (defaultValue : Number) : Number :=
  match value with
  | none | some "" => defaultValue
  | some text =>
      let parsed := NumberText.parseInt text
      if parsed = .nan then defaultValue else parsed

/-- A deployment preset. -/
structure Preset where
  maxConcurrency : Number
  functionTimeoutMs : Number
  drainBufferMs : Number
  skipAuthValidation : Bool

def localPreset : Preset where
  maxConcurrency := 64
  -- no timeout
  functionTimeoutMs := 0
  drainBufferMs := 5000
  skipAuthValidation := true

def vercelPreset : Preset where
  maxConcurrency := 1
  functionTimeoutMs := 60000
  drainBufferMs := 5000
  skipAuthValidation := false

def isVercel (env : Env) : Bool := env "DEPLOYMENT" == some "vercel" || env.truthy "VERCEL"

def preset (env : Env) : Preset := if isVercel env then vercelPreset else localPreset

/-- `config`. -/
structure Config where
  workerId : String
  maxConcurrency : Number
  protocolVersion : String
  port : Number
  functionTimeoutMs : Number
  drainBufferMs : Number
  skipAuthValidation : Bool

/-- The configuration under an environment, with an id from the UUID generator. -/
def Config.ofEnv (env : Env) (uuidv7 : String) : Config where
  workerId := (env "WORKER_ID").getD uuidv7
  maxConcurrency := parseIntOrDefault (env "MAX_CONCURRENCY") (preset env).maxConcurrency
  protocolVersion := "1.0.0"
  port := parseIntOrDefault (env "PORT") 3000
  functionTimeoutMs := parseIntOrDefault (env "FUNCTION_TIMEOUT_MS") (preset env).functionTimeoutMs
  drainBufferMs := parseIntOrDefault (env "DRAIN_BUFFER_MS") (preset env).drainBufferMs
  skipAuthValidation :=
    match env "SKIP_AUTH_VALIDATION" with
    | some value => value == "true"
    | none => (preset env).skipAuthValidation

/-- `createWorkerInstance`, `none` where the constructor throws. -/
def createWorkerInstance (config : Config) : Option VercelWorker :=
  VercelWorker.new
    { workerId := config.workerId
      maxConcurrency := some config.maxConcurrency
      protocolVersion := some config.protocolVersion }

/-! ## The standalone server -/

/-- What the runtime of a process provides. -/
structure Runtime where
  /-- `sha256`, in hexadecimal. -/
  sha256 : String → String
  /-- The HMAC of a payload under a secret, in base64. -/
  hmacSha256 : String → ByteArray → String
  /-- The errors of a schema, formatted. -/
  formatErrors : Json → Json
  /-- What reading a property of `null` throws. -/
  nullAccess : Thrown

/-- A number of milliseconds, if it is an integer.  `parseInt` gives no other numbers but the
infinite ones. -/
def milliseconds : Number → Option Int
  | .finite q => if q.den = 1 then some q.num else none
  | _ => none

/-- The deployment under an environment, unless it has an infinite timeout. -/
def Deployment.ofEnv (runtime : Runtime) (env : Env) (config : Config) (startTime : Int) :
    Option Deployment := do
  let functionTimeoutMs ← milliseconds config.functionTimeoutMs
  let drainBufferMs ← milliseconds config.drainBufferMs
  return {
    auth := {
      skipAuthValidation := config.skipAuthValidation
      authSecret := env "L0_AUTH_SECRET"
      hmacSha256 := runtime.hmacSha256
      numberText := fun n => String.ofList n.text }
    settings := { functionTimeoutMs, drainBufferMs, sha256 := runtime.sha256 }
    startTime := startTime
    formatErrors := runtime.formatErrors
    nullAccess := runtime.nullAccess }

/-- The port the server is to listen on. -/
def serverPort (env : Env) : Number :=
  let n := match env "PORT" with
    | none => .nan
    | some text => NumberText.ofString text
  if n = .nan ∨ n = 0 then 3000 else n

/-- The first line of the server. -/
def modeLine (env : Env) (config : Config) : String :=
  let mode := if isVercel env then "production" else "local"
  let authStatus := if config.skipAuthValidation then "disabled" else "enabled"
  "mode=" ++ mode ++ " auth=" ++ authStatus

/-- The object of the ready signal, with the port the server listens on. -/
def readySignal (port : Number) (workerId : String) : Json :=
  .obj [("event", .str "worker.ready"), ("port", .num port), ("workerId", .str workerId)]

/-! ## What comes of an environment -/

section Facts

variable {env : Env} {uuidv7 : String}

theorem parseIntOrDefault_some (text : String) (defaultValue : Number) :
    parseIntOrDefault (some text) defaultValue =
      if NumberText.parseInt text = .nan then defaultValue else NumberText.parseInt text := by
  unfold parseIntOrDefault
  split
  · next heq => cases heq
  · next heq =>
    obtain rfl := Option.some.inj heq
    rfl
  · next heq =>
    obtain rfl := Option.some.inj heq
    rfl

theorem preset_maxConcurrency : ∃ q, 1 ≤ q ∧ (preset env).maxConcurrency = .finite q := by
  unfold preset
  split
  · exact ⟨1, le_refl 1, rfl⟩
  · exact ⟨64, by norm_num, rfl⟩

/-- The constructor takes a finite limit of at least one. -/
theorem workerNew_isSome_iff {input : WorkerConfigInput} :
    (VercelWorker.new input).isSome = true ↔
      ∃ q, 1 ≤ q ∧ input.maxConcurrency.getD 4 = .finite q := by
  unfold VercelWorker.new ConfigManager.new
  cases hlimit : input.maxConcurrency.getD 4 with
  | finite q =>
      have hlt : (Number.finite q).lt 1 = decide (q < 1) := rfl
      by_cases hq : q < 1
      · simp [Number.isFinite, hlt, hq]
      · have hslots : SlotManager.new (.finite q) = .ok ⟨.empty, .finite q⟩ :=
          SlotManager.setMaxConcurrency_of_allowed _ (by rw [hlt, decide_eq_false hq])
        have hready : WorkerState.boot.transition .ready = .ok .ready := rfl
        simp [Number.isFinite, hlt, hq, hslots, hready, not_lt.mp hq]
  | _ => simp [Number.isFinite]

/-- The worker is created exactly when `MAX_CONCURRENCY` has no number, or a number that is
at least one and not infinite. -/
theorem worker_created_iff :
    (createWorkerInstance (.ofEnv env uuidv7)).isSome = true ↔
      ∀ text, env "MAX_CONCURRENCY" = some text → NumberText.parseInt text ≠ .nan →
        ∃ q, 1 ≤ q ∧ NumberText.parseInt text = .finite q := by
  rw [createWorkerInstance, workerNew_isSome_iff, Option.getD_some]
  show (∃ q, 1 ≤ q ∧ parseIntOrDefault (env "MAX_CONCURRENCY") (preset env).maxConcurrency =
    .finite q) ↔ _
  cases htext : env "MAX_CONCURRENCY" with
  | none => exact iff_of_true preset_maxConcurrency fun text h => nomatch h
  | some text =>
      rw [parseIntOrDefault_some]
      split
      · next hnan =>
        refine iff_of_true preset_maxConcurrency fun text' heq hne => ?_
        obtain rfl := Option.some.inj heq
        exact absurd hnan hne
      · next hne =>
        constructor
        · intro h text' heq _
          obtain rfl := Option.some.inj heq
          exact h
        · intro h
          exact h text rfl hne

end Facts

end L0Worker.Server
