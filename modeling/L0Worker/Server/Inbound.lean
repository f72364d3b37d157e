import L0Worker.Lib.JsString
import L0Worker.Worker.Instance
import L0Worker.Worker.Order

/-!
# Inbound messages

The requests a worker takes, with the schemas that read them from a JSON body, and the
check of the envelope they carry: `validateAuth`.

The functions that the check takes from its platform are parameters: the HMAC and the text
of a number.
-/

namespace L0Worker.Server

open Worker Schema

/-! ## Messages -/

/-- The envelope of a request, for one invocation. -/
structure AuthEnvelope where
  token : String
  issuedAt : Number
  ttl : Number

def authEnvelopeSchema : Schema AuthEnvelope :=
  object fun fields => do
    let token ← string.check (32 ≤ utf16Length ·) (fields.lookup "token")
    let issuedAt ← number (fields.lookup "issued_at")
    let ttl ← positive (fields.lookup "ttl")
    return { token, issuedAt, ttl }

/-- The envelope as it is passed on, once parsed. -/
def AuthEnvelope.toJson (e : AuthEnvelope) : Json :=
  .obj [("token", .str e.token), ("issued_at", .num e.issuedAt), ("ttl", .num e.ttl)]

structure TaskConstraints where
  timeoutMs : Option Number
  memoryCapMb : Option Number
  determinismRequired : Option Bool

def taskConstraintsSchema : Schema TaskConstraints :=
  object fun fields => do
    let timeoutMs ← number.optional (fields.lookup "timeout_ms")
    let memoryCapMb ← number.optional (fields.lookup "memory_cap_mb")
    let determinismRequired ← boolean.optional (fields.lookup "determinism_required")
    return { timeoutMs, memoryCapMb, determinismRequired }

/-- `TASK_SUBMIT`, which is the only message that creates work. -/
structure SubmitMessage where
  auth : AuthEnvelope
  taskId : String
  order : InferenceOrder
  payload : Option Json
  constraints : Option TaskConstraints
  metadata : Option (List (String × Json))
  inputHash : String
  submissionTs : Number

def taskSubmitSchema : Schema SubmitMessage :=
  object fun fields => do
    literal "TASK_SUBMIT" (fields.lookup "type")
    let auth ← authEnvelopeSchema (fields.lookup "auth")
    let taskId ← string (fields.lookup "task_id")
    let order ← inferenceOrderSchema (fields.lookup "order")
    let payload ← unknown (fields.lookup "payload")
    let constraints ← taskConstraintsSchema.optional (fields.lookup "constraints")
    let metadata ← (record defined).optional (fields.lookup "meta")
    let inputHash ← string (fields.lookup "input_hash")
    let submissionTs ← number (fields.lookup "submission_ts")
    return { auth, taskId, order, payload, constraints, metadata, inputHash, submissionTs }

/-- `TASK_REPLAY_REQUEST`. -/
structure ReplayMessage where
  auth : AuthEnvelope
  taskId : String
  inputHash : String
  expectedOutputHash : Option String
  reason : String
  replayTs : Number

def taskReplayRequestSchema : Schema ReplayMessage :=
  object fun fields => do
    literal "TASK_REPLAY_REQUEST" (fields.lookup "type")
    let auth ← authEnvelopeSchema (fields.lookup "auth")
    let taskId ← string (fields.lookup "task_id")
    let inputHash ← string (fields.lookup "input_hash")
    let expectedOutputHash ← string.optional (fields.lookup "expected_output_hash")
    let reason ← string (fields.lookup "reason")
    let replayTs ← number (fields.lookup "replay_ts")
    return { auth, taskId, inputHash, expectedOutputHash, reason, replayTs }

/-- `WORKER_CONFIG_UPDATE`.  From localhost it needs no envelope. -/
structure ConfigMessage where
  auth : Option AuthEnvelope
  workerId : String
  maxConcurrency : Option Number
  resourceCaps : Option (List (String × Number))
  featureFlags : Option (List (String × Bool))
  effectiveTs : Number

def workerConfigUpdateSchema : Schema ConfigMessage :=
  object fun fields => do
    literal "WORKER_CONFIG_UPDATE" (fields.lookup "type")
    let auth ← authEnvelopeSchema.optional (fields.lookup "auth")
    let workerId ← string (fields.lookup "worker_id")
    let maxConcurrency ← number.optional (fields.lookup "max_concurrency")
    let resourceCaps ← (record number).optional (fields.lookup "resource_caps")
    let featureFlags ← (record boolean).optional (fields.lookup "feature_flags")
    let effectiveTs ← number (fields.lookup "effective_ts")
    return { auth, workerId, maxConcurrency, resourceCaps, featureFlags, effectiveTs }

/-- The parsed record as a map. -/
def recordMap {α : Type} (fields : List (String × α)) : Finmap fun _ : String => α :=
  (fields.map fun f => (⟨f.1, f.2⟩ : Sigma fun _ : String => α)).toFinmap

/-- The part of the message that `updateConfig` gets. -/
def ConfigMessage.update (m : ConfigMessage) : ConfigUpdate where
  maxConcurrency := m.maxConcurrency
  resourceCaps := m.resourceCaps.map recordMap
  featureFlags := m.featureFlags.map recordMap

/-! ## The envelope and the id a message carries -/

/-- The fields a message is read from carry its envelope and its task. -/
theorem taskSubmitSchema_auth {v : Option Json} {m : SubmitMessage}
    (h : taskSubmitSchema v = some m) :
    ∃ fields, v = some (.obj fields) ∧ authEnvelopeSchema (fields.lookup "auth") = some m.auth ∧
      fields.lookup "task_id" = some (.str m.taskId) := by
  obtain ⟨fields, hv, h⟩ := object_eq_some_iff.mp h
  simp only [Option.bind_eq_bind, Option.bind_eq_some_iff] at h
  obtain ⟨_, -, auth, hauth, taskId, htask, _, -, _, -, _, -, _, -, _, -, _, -, h⟩ := h
  obtain rfl := Option.some.inj h
  exact ⟨fields, hv, hauth, string_eq_some_iff.mp htask⟩

theorem taskReplayRequestSchema_auth {v : Option Json} {m : ReplayMessage}
    (h : taskReplayRequestSchema v = some m) :
    ∃ fields, v = some (.obj fields) ∧ authEnvelopeSchema (fields.lookup "auth") = some m.auth ∧
      fields.lookup "task_id" = some (.str m.taskId) := by
  obtain ⟨fields, hv, h⟩ := object_eq_some_iff.mp h
  simp only [Option.bind_eq_bind, Option.bind_eq_some_iff] at h
  obtain ⟨_, -, auth, hauth, taskId, htask, _, -, _, -, _, -, _, -, h⟩ := h
  obtain rfl := Option.some.inj h
  exact ⟨fields, hv, hauth, string_eq_some_iff.mp htask⟩

/-- The envelope of a configuration update, if the message has one. -/
theorem workerConfigUpdateSchema_auth {v : Option Json} {m : ConfigMessage}
    (h : workerConfigUpdateSchema v = some m) {auth : AuthEnvelope} (hauth : m.auth = some auth) :
    ∃ fields, v = some (.obj fields) ∧ authEnvelopeSchema (fields.lookup "auth") = some auth := by
  obtain ⟨fields, hv, h⟩ := object_eq_some_iff.mp h
  simp only [Option.bind_eq_bind, Option.bind_eq_some_iff] at h
  obtain ⟨_, -, auth', hauth', _, -, _, -, _, -, _, -, _, -, h⟩ := h
  obtain rfl := Option.some.inj h
  obtain rfl : auth' = some auth := hauth
  exact ⟨fields, hv, (optional_eq_some_some_iff.mp hauth').2⟩

/-- Parsing an envelope once more gives the same envelope. -/
theorem authEnvelopeSchema_toJson {v : Option Json} {e : AuthEnvelope}
    (h : authEnvelopeSchema v = some e) : authEnvelopeSchema (some e.toJson) = some e := by
  obtain ⟨fields, -, h⟩ := object_eq_some_iff.mp h
  simp only [Option.bind_eq_bind, Option.bind_eq_some_iff] at h
  obtain ⟨token, htoken, issuedAt, hissued, ttl, httl, h⟩ := h
  obtain rfl := Option.some.inj h
  have htoken := (check_eq_some_iff.mp htoken).2
  have hissued := (number_eq_some_iff.mp hissued).2
  obtain ⟨httl, hpositive⟩ := check_eq_some_iff.mp httl
  have httl := (number_eq_some_iff.mp httl).2
  refine object_eq_some_iff.mpr ⟨_, rfl, ?_⟩
  simp only [Option.bind_eq_bind, Option.bind_eq_some_iff]
  exact ⟨token, check_eq_some_iff.mpr ⟨rfl, htoken⟩, issuedAt,
    number_eq_some_iff.mpr ⟨rfl, hissued⟩, ttl,
    check_eq_some_iff.mpr ⟨number_eq_some_iff.mpr ⟨rfl, httl⟩, hpositive⟩, rfl⟩

/-! ## Authentication -/

/-- How requests are authenticated. -/
structure AuthConfig where
  skipAuthValidation : Bool
  /-- `L0_AUTH_SECRET`. -/
  authSecret : Option String
  /-- The HMAC of bytes under a secret, in base64. -/
  hmacSha256 : String → ByteArray → String
  /-- The text of a number. -/
  numberText : Number → String

/-- `AuthResult`. -/
inductive AuthResult where
  | valid
  | invalid (reason : String)
deriving Repr, DecidableEq

/-- `CLOCK_SKEW_MS`. -/
def clockSkewMs : Int := 5000

/-- What `timingSafeEqual` throws for buffers of different lengths. -/
def bufferLengthError : Thrown :=
  .error "RangeError" "Input buffers must have the same byte length" false

/-- `secureCompare`.  The lengths of the strings are compared in UTF-16 code units, and those
of the buffers in bytes of UTF-8. -/
def secureCompare (a b : String) : Except Thrown Bool :=
  if utf16Length a ≠ utf16Length b then .ok false
  else if a.utf8ByteSize ≠ b.utf8ByteSize then .error bufferLengthError
  else .ok (decide (a = b))

namespace AuthConfig

/-- `getAuthSecret`.  An empty secret is none. -/
def getAuthSecret (c : AuthConfig) : Option String := c.authSecret.filter (· ≠ "")

/-- The payload that is signed. -/
def payload (c : AuthConfig) (taskId : JsString) (issuedAt ttl : Number) : JsString :=
  taskId ++ .ofString ("|" ++ c.numberText issuedAt ++ "|" ++ c.numberText ttl)

/-- `computeSignature`.  The payload is written as UTF-8. -/
def computeSignature (c : AuthConfig) (secret : String) (taskId : JsString)
    (issuedAt ttl : Number) : String :=
  c.hmacSha256 secret (c.payload taskId issuedAt ttl).toUtf8

/-- `validateAuth`, with the reading of the clock. -/
def validateAuth (c : AuthConfig) (auth : Option Json) (taskId : JsString) (now : TimeValue) :
    Except Thrown AuthResult :=
  match authEnvelopeSchema auth with
  | none => .ok (.invalid "invalid_format")
  | some e =>
      let expiresAt := e.issuedAt.add e.ttl
      if expiresAt.lt (.ofInt now.ms) then .ok (.invalid "expired")
      else if (Number.ofInt (now.ms + clockSkewMs)).lt e.issuedAt then
        .ok (.invalid "issued_in_future")
      else if c.skipAuthValidation then .ok .valid
      else
        match c.getAuthSecret with
        | none => .ok (.invalid "missing_auth_secret")
        | some secret =>
            match secureCompare e.token (c.computeSignature secret taskId e.issuedAt e.ttl) with
            | .error thrown => .error thrown
            | .ok false => .ok (.invalid "invalid_signature")
            | .ok true => .ok .valid

/-- The verdict on an envelope that was parsed before is that on what it was parsed from. -/
theorem validateAuth_toJson {c : AuthConfig} {v : Option Json} {e : AuthEnvelope}
    (h : authEnvelopeSchema v = some e) (taskId : JsString) (now : TimeValue) :
    c.validateAuth (some e.toJson) taskId now = c.validateAuth v taskId now := by
  rw [validateAuth, validateAuth, authEnvelopeSchema_toJson h, h]

end AuthConfig

end L0Worker.Server
