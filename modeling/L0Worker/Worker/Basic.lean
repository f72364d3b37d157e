import L0Worker.Lib.JsMap
import L0Worker.Lib.JsValue

/-!
# The parts of a worker

What `VercelWorker` is built from: the outbound events, the classification of
errors, the monotonic clock, the lifecycle state machine, the slot manager, the
configuration manager and the task payload.

A function that may throw returns `Except Thrown`.  The system clock is an
argument: `Date.now()` returns an integer, and nothing is assumed about
successive readings.
-/

namespace L0Worker.Worker

/-! ## Outbound events -/

/-- How a task failed, as `TASK_FAILED` reports it. -/
inductive FailureClass where
  | timeout
  | rateLimited
  | contextLengthExceeded
  | invalidInput
  | modelError
  | networkError
  | guardrailViolation
  | determinismViolation
  | aborted
  | unknown
deriving Repr, DecidableEq

/-- How far a running task got. -/
inductive ProgressStage where
  | firstToken
  | streaming
  | toolInvoked
  | checkpointWritten
deriving Repr, DecidableEq

/-- The metrics of a completed task. -/
structure TaskMetrics where
  durationMs : Int
  tokenCount : Number
  promptTokens : Number
  completionTokens : Number
deriving DecidableEq

/-- The metadata of a progress event. -/
structure ToolCall where
  toolName : String
  toolArgs : Json

/-- The outbound events a worker makes. -/
inductive OutboundEvent where
  | taskAccepted (taskId workerId : String) (ts : Int)
  | taskProgress (taskId : String) (stage : ProgressStage) (metadata : Option ToolCall) (ts : Int)
  | taskCompleted (taskId workerId : String) (finalMetrics : TaskMetrics)
      (outputHash output : String) (ts : Int)
  | taskFailed (taskId workerId : String) (failureClass : FailureClass) (retryable : Bool)
      (message : String) (ts : Int)
  | workerDraining (workerId reason : String) (ts : Int)

namespace OutboundEvent

def ts : OutboundEvent → Int
  | .taskAccepted _ _ ts | .taskProgress _ _ _ ts | .taskCompleted _ _ _ _ _ ts
  | .taskFailed _ _ _ _ _ ts | .workerDraining _ _ ts => ts

/-- The task an event is about. -/
def taskId? : OutboundEvent → Option String
  | .taskAccepted id _ _ | .taskProgress id _ _ _ | .taskCompleted id _ _ _ _ _
  | .taskFailed id _ _ _ _ _ => some id
  | .workerDraining _ _ _ => none

def isAccepted : OutboundEvent → Bool
  | .taskAccepted _ _ _ => true
  | _ => false

def isProgress : OutboundEvent → Bool
  | .taskProgress _ _ _ _ => true
  | _ => false

/-- The event is `TASK_COMPLETED` or `TASK_FAILED`. -/
def isTerminal : OutboundEvent → Bool
  | .taskCompleted _ _ _ _ _ _ | .taskFailed _ _ _ _ _ _ => true
  | _ => false

end OutboundEvent

/-- A lifecycle event of the L0 runtime, forwarded as it is. -/
structure L0Event where
  type : String
  ts : Number
  /-- The other fields. -/
  fields : List (String × Json)

/-! ## Errors -/

/-- A value that was thrown, as far as the worker looks at it. -/
inductive Thrown where
  /-- An instance of `Error`, and whether it is an `OutputValidationError`. -/
  | error (name message : String) (outputValidation : Bool)
  /-- Anything else, with what `String` makes of it. -/
  | value (text : String)
  /-- An `Error` whose `message` or `name` is no string, with what `classifyError` throws. -/
  | malformed (thrown : Thrown)
  /-- An object without a text, such as `Object.create(null)`, with what `String` throws. -/
  | noText (thrown : Thrown)
deriving Repr, DecidableEq

/-- `new Error(message)`. -/
def Thrown.ofMessage (message : String) : Thrown := .error "Error" message false

/-- `error instanceof Error ? error.message : String(error)`, or what that throws.  For a
malformed `Error` it is not reached. -/
def Thrown.message : Thrown → Except Thrown String
  | .error _ message _ => .ok message
  | .value text => .ok text
  | .malformed thrown | .noText thrown => .error thrown

/-- `classifyError`, or what it throws. -/
def classifyError : Thrown → Except Thrown FailureClass
  | .value _ | .noText _ => .ok .unknown
  | .malformed thrown => .error thrown
  | .error _ _ true => .ok .invalidInput
  | .error name message false =>
      let message := toLowerCase message
      let name := toLowerCase name
      .ok <|
        if includes message "abort" || includes name "abort" then .aborted
        else if includes message "timeout" || includes name "timeout" then .timeout
        else if includes message "rate limit" || includes message "429" then .rateLimited
        else if includes message "context length" || includes message "too long" then
          .contextLengthExceeded
        else if includes message "network" || includes message "econnreset"
            || includes message "econnrefused" then .networkError
        else if includes message "model" || includes message "invalid model" then .modelError
        else if includes message "invalid" || includes message "validation" then .invalidInput
        else .unknown

/-- What `TASK_FAILED` is to say of an error, or what finding it out throws. -/
def failureOf (error : Thrown) : Except Thrown (FailureClass × String) := do
  let failureClass ← classifyError error
  let message ← error.message
  return (failureClass, message)

/-- The error can be reported. -/
def Thrown.isReadable : Thrown → Bool
  | .error _ _ _ | .value _ => true
  | .malformed _ | .noText _ => false

theorem Thrown.readable_of_failureOf {error : Thrown} {failure : FailureClass × String}
    (h : failureOf error = .ok failure) : error.isReadable = true := by
  cases error with
  | error name message outputValidation => rfl
  | value text => rfl
  | malformed thrown => cases h
  | noText thrown => cases h

theorem Thrown.unreadable_of_failureOf {error thrown : Thrown}
    (h : failureOf error = .error thrown) : error.isReadable = false := by
  cases error with
  | error name message outputValidation => cases outputValidation <;> cases h
  | value text => cases h
  | malformed thrown => rfl
  | noText thrown => rfl

/-- `isRetryable`. -/
def isRetryable : FailureClass → Bool
  | .timeout | .rateLimited | .networkError => true
  | _ => false

/-! ## The clock -/

/-- The monotonic clock. -/
structure MonotonicClock where
  /-- The timestamp returned last. -/
  lastTimestamp : Int
deriving Repr, DecidableEq

/-- `MonotonicClock.now`, with the reading of the system clock. -/
def MonotonicClock.now (clock : MonotonicClock) (current : Int) : Int × MonotonicClock :=
  let ts := if current ≤ clock.lastTimestamp then clock.lastTimestamp + 1 else current
  (ts, ⟨ts⟩)

@[simp] theorem MonotonicClock.now_snd (clock : MonotonicClock) (current : Int) :
    (clock.now current).2.lastTimestamp = (clock.now current).1 := rfl

/-- A timestamp is later than the one before. -/
theorem MonotonicClock.lt_now (clock : MonotonicClock) (current : Int) :
    clock.lastTimestamp < (clock.now current).1 := by
  unfold MonotonicClock.now
  dsimp only
  split
  · omega
  · omega

/-! ## The lifecycle -/

/-- Worker states in the lifecycle. -/
inductive WorkerState where
  | boot
  | ready
  | accepting
  | draining
  | offline
deriving Repr, DecidableEq

def WorkerState.text : WorkerState → String
  | .boot => "BOOT"
  | .ready => "READY"
  | .accepting => "ACCEPTING"
  | .draining => "DRAINING"
  | .offline => "OFFLINE"

/-- `TRANSITIONS`. -/
def transitions : WorkerState → List WorkerState
  | .boot => [.ready]
  | .ready => [.accepting, .draining, .offline]
  | .accepting => [.draining, .offline]
  | .draining => [.offline]
  | .offline => []

/-- `WorkerStateMachine.canTransition`. -/
def WorkerState.canTransition (state target : WorkerState) : Bool :=
  (transitions state).elem target

/-- `WorkerStateMachine.transition`.  A worker registers no listeners. -/
def WorkerState.transition (state target : WorkerState) : Except Thrown WorkerState :=
  if state.canTransition target then .ok target
  else .error (.ofMessage ("Invalid state transition: " ++ state.text ++ " -> " ++ target.text))

/-- `WorkerStateMachine.isAccepting`. -/
def WorkerState.isAccepting (state : WorkerState) : Bool :=
  state == .ready || state == .accepting

/-! ## Slots -/

/-- What the slot manager keeps about a task in flight. -/
structure Slot where
  taskId : String
  /-- When it got the slot. -/
  startedAt : Int
deriving Repr, DecidableEq

/-- The slot manager. -/
structure SlotManager where
  /-- The slots in use, by task. -/
  slots : JsMap String Slot
  maxConcurrency : Number

/-- The result of `acquire`. -/
inductive AcquireResult where
  | acquired
  | noSlots
  | duplicate
deriving Repr, DecidableEq

namespace SlotManager

/-- The setter of `maxConcurrency`. -/
def setMaxConcurrency (s : SlotManager) (value : Number) : Except Thrown SlotManager :=
  if value.lt 1 then .error (.ofMessage "maxConcurrency must be at least 1")
  else .ok { s with maxConcurrency := value }

/-- The constructor. -/
def new (maxConcurrency : Number) : Except Thrown SlotManager :=
  SlotManager.setMaxConcurrency ⟨.empty, maxConcurrency⟩ maxConcurrency

/-- `inflightCount`. -/
def inflightCount (s : SlotManager) : Nat := s.slots.size

/-- `hasAvailableSlot`. -/
def hasAvailableSlot (s : SlotManager) : Bool :=
  (Number.ofNat s.slots.size).lt s.maxConcurrency

/-- `hasSlot`. -/
def HasSlot (s : SlotManager) (taskId : String) : Prop := s.slots.Has taskId

instance (s : SlotManager) (taskId : String) : Decidable (s.HasSlot taskId) :=
  inferInstanceAs (Decidable (s.slots.Has taskId))

/-- A task gets a slot. -/
def occupy (s : SlotManager) (taskId : String) (startedAt : Int) : SlotManager :=
  { s with slots := s.slots.set taskId ⟨taskId, startedAt⟩ }

/-- `acquire`, with the reading of the clock for the slot. -/
def acquire (s : SlotManager) (taskId : String) (startedAt : Int) : AcquireResult × SlotManager :=
  if s.HasSlot taskId then (.duplicate, s)
  else if !s.hasAvailableSlot then (.noSlots, s)
  else (.acquired, s.occupy taskId startedAt)

/-- `release`. -/
def release (s : SlotManager) (taskId : String) : SlotManager :=
  { s with slots := s.slots.delete taskId }

@[simp] theorem hasSlot_release {s : SlotManager} {taskId id : String} :
    (s.release taskId).HasSlot id ↔ id ≠ taskId ∧ s.HasSlot id :=
  JsMap.has_delete

@[simp] theorem hasSlot_occupy {s : SlotManager} {taskId id : String} {startedAt : Int} :
    (s.occupy taskId startedAt).HasSlot id ↔ id = taskId ∨ s.HasSlot id :=
  JsMap.has_set

@[simp] theorem release_maxConcurrency (s : SlotManager) (taskId : String) :
    (s.release taskId).maxConcurrency = s.maxConcurrency := rfl

/-- What `acquire` does, result by result. -/
theorem acquire_cases (s : SlotManager) (taskId : String) (startedAt : Int) :
    (s.acquire taskId startedAt = (.duplicate, s) ∧ s.HasSlot taskId) ∨
      (s.acquire taskId startedAt = (.noSlots, s) ∧ ¬ s.HasSlot taskId ∧
        s.hasAvailableSlot = false) ∨
      (s.acquire taskId startedAt = (.acquired, s.occupy taskId startedAt) ∧
        ¬ s.HasSlot taskId ∧ s.hasAvailableSlot = true) := by
  unfold acquire
  by_cases hslot : s.HasSlot taskId
  · exact .inl ⟨if_pos hslot, hslot⟩
  · cases havail : s.hasAvailableSlot with
    | false => exact .inr (.inl ⟨by simp [hslot], hslot, rfl⟩)
    | true => exact .inr (.inr ⟨by simp [hslot], hslot, rfl⟩)

end SlotManager

/-! ## Configuration -/

/-- The part of the configuration that can be updated. -/
structure RuntimeConfig where
  maxConcurrency : Number
  resourceCaps : Finmap fun _ : String => Number
  featureFlags : Finmap fun _ : String => Bool

/-- An update of the configuration. -/
structure ConfigUpdate where
  maxConcurrency : Option Number
  resourceCaps : Option (Finmap fun _ : String => Number)
  featureFlags : Option (Finmap fun _ : String => Bool)

/-- The configuration a worker is created with. -/
structure WorkerConfigInput where
  workerId : String
  maxConcurrency : Option Number
  protocolVersion : Option String

/-- The configuration manager. -/
structure ConfigManager where
  workerId : String
  protocolVersion : String
  runtime : RuntimeConfig

namespace ConfigManager

/-- The constructor, `none` where the schema throws.  It accepts a finite limit of
at least one. -/
def new (input : WorkerConfigInput) : Option ConfigManager :=
  let maxConcurrency := input.maxConcurrency.getD 4
  if !maxConcurrency.isFinite || maxConcurrency.lt 1 then none
  else
    some
      { workerId := input.workerId
        protocolVersion := input.protocolVersion.getD "1.0.0"
        runtime := { maxConcurrency, resourceCaps := ∅, featureFlags := ∅ } }

/-- `update` up to the call of the listeners.  A merged record takes the updated
value of a key that both have. -/
def update (c : ConfigManager) (u : ConfigUpdate) : Except Thrown ConfigManager :=
  let merged : RuntimeConfig :=
    { maxConcurrency := u.maxConcurrency.getD c.runtime.maxConcurrency
      resourceCaps := u.resourceCaps.elim c.runtime.resourceCaps (· ∪ c.runtime.resourceCaps)
      featureFlags := u.featureFlags.elim c.runtime.featureFlags (· ∪ c.runtime.featureFlags) }
  match u.maxConcurrency with
  | some n =>
      if n.lt 1 then .error (.ofMessage "maxConcurrency must be at least 1")
      else .ok { c with runtime := merged }
  | none => .ok { c with runtime := merged }

end ConfigManager

/-! ## Task payload -/

/-- The role of a message. -/
inductive Role where
  | system
  | user
  | assistant
deriving Repr, DecidableEq

/-- A message of a payload. -/
structure Message where
  role : Role
  content : String
deriving Repr, DecidableEq

/-- The payload of a task. -/
structure TaskPayload where
  prompt : Option String
  messages : Option (List Message)
deriving Repr, DecidableEq

/-- An optional field: the parser sees the value if the field is there. -/
def optionalField {α : Type} (fields : List (String × Json)) (name : String)
    (parse : Json → Option α) : Option (Option α) :=
  match fields.lookup name with
  | none => some none
  | some v => (parse v).map some

/-- `z.string()`. -/
def parseString : Json → Option String
  | .str s => some s
  | _ => none

def parseRole : Json → Option Role
  | .str "system" => some .system
  | .str "user" => some .user
  | .str "assistant" => some .assistant
  | _ => none

/-- The schema of a message. -/
def parseMessage : Json → Option Message
  | .obj fields => do
      let role ← (fields.lookup "role").bind parseRole
      let content ← (fields.lookup "content").bind parseString
      return ⟨role, content⟩
  | _ => none

/-- The schema of a list of messages. -/
def parseMessages : Json → Option (List Message)
  | .arr items => items.mapM parseMessage
  | _ => none

/-- `TaskPayloadSchema`, `none` where `parse` throws. -/
def parseTaskPayload : Option Json → Option TaskPayload
  | some (.obj fields) => do
      let prompt ← optionalField fields "prompt" parseString
      let messages ← optionalField fields "messages" parseMessages
      -- an empty prompt or list of messages does not count
      if prompt.any (· ≠ "") || messages.any (· ≠ []) then return ⟨prompt, messages⟩ else none
  | _ => none

end L0Worker.Worker
