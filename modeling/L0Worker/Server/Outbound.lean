import L0Worker.Lib.JsonRoundtrip
import L0Worker.Lib.NumberText
import L0Worker.Lib.Schema
import L0Worker.Server.SubmitStream

/-!
# Outbound messages

The schemas of the events that a worker sends, for a client that reads the text of an event
with `JSON.parse` and parses the value.  Whatever the strings in an event are, the client gets
the event back (`decode_event`), unless the runtime reported a number of tokens that is not
finite: such a number is sent as `null`, which no schema of a number accepts.

`submit_stream_decodes` follows the events of a call from `emit` through the frames of its
stream to the client.
-/

namespace L0Worker.Server

open Worker Schema

/-! ## Schemas -/

/-- `TaskMetrics`, as it is parsed. -/
structure MetricsMessage where
  durationMs : Number
  tokenCount : Number
  promptTokens : Option Number
  completionTokens : Option Number

def taskMetricsSchema : Schema MetricsMessage :=
  object fun fields => do
    let durationMs ← number (fields.lookup "durationMs")
    let tokenCount ← number (fields.lookup "tokenCount")
    let promptTokens ← number.optional (fields.lookup "promptTokens")
    let completionTokens ← number.optional (fields.lookup "completionTokens")
    return { durationMs, tokenCount, promptTokens, completionTokens }

/-- What the outbound schemas parse to. -/
inductive OutboundMessage where
  | workerReady (workerId protocolVersion : String) (maxConcurrency ts : Number)
  | workerLoad (workerId : String) (inflightTasks queueDepth cpuPressure memoryPressure : Number)
      (gpuPressure : Option Number) (ts : Number)
  | taskAccepted (taskId workerId : String) (ts : Number)
  | taskProgress (taskId : String) (stage : ProgressStage) (ts : Number)
      (metadata : Option (List (String × Json)))
  | taskCompleted (taskId workerId : String) (finalMetrics : MetricsMessage)
      (outputHash output : String) (ts : Number)
  | taskFailed (taskId workerId : String) (failureClass : FailureClass) (retryable : Bool)
      (message : Option String) (ts : Number)
  | workerDraining (workerId reason : String) (ts : Number)
  | workerOffline (workerId : String) (ts : Number)

def workerReadyEventSchema : Schema OutboundMessage :=
  object fun fields => do
    literal "WORKER_READY" (fields.lookup "type")
    let workerId ← string (fields.lookup "workerId")
    let protocolVersion ← string (fields.lookup "protocolVersion")
    let maxConcurrency ← number (fields.lookup "maxConcurrency")
    let ts ← number (fields.lookup "ts")
    return .workerReady workerId protocolVersion maxConcurrency ts

def workerLoadEventSchema : Schema OutboundMessage :=
  object fun fields => do
    literal "WORKER_LOAD" (fields.lookup "type")
    let workerId ← string (fields.lookup "workerId")
    let inflightTasks ← number (fields.lookup "inflightTasks")
    let queueDepth ← number (fields.lookup "queueDepth")
    let cpuPressure ← number (fields.lookup "cpuPressure")
    let memoryPressure ← number (fields.lookup "memoryPressure")
    let gpuPressure ← number.optional (fields.lookup "gpuPressure")
    let ts ← number (fields.lookup "ts")
    return .workerLoad workerId inflightTasks queueDepth cpuPressure memoryPressure gpuPressure ts

def taskAcceptedEventSchema : Schema OutboundMessage :=
  object fun fields => do
    literal "TASK_ACCEPTED" (fields.lookup "type")
    let taskId ← string (fields.lookup "taskId")
    let workerId ← string (fields.lookup "workerId")
    let ts ← number (fields.lookup "ts")
    return .taskAccepted taskId workerId ts

/-- The texts of the stages. -/
def stages : List (String × ProgressStage) :=
  [.firstToken, .streaming, .toolInvoked, .checkpointWritten].map fun stage =>
    (stageText stage, stage)

def taskProgressEventSchema : Schema OutboundMessage :=
  object fun fields => do
    literal "TASK_PROGRESS" (fields.lookup "type")
    let taskId ← string (fields.lookup "taskId")
    let stage ← enum stages (fields.lookup "stage")
    let ts ← number (fields.lookup "ts")
    let metadata ← (record defined).optional (fields.lookup "metadata")
    return .taskProgress taskId stage ts metadata

def taskCompletedEventSchema : Schema OutboundMessage :=
  object fun fields => do
    literal "TASK_COMPLETED" (fields.lookup "type")
    let taskId ← string (fields.lookup "taskId")
    let workerId ← string (fields.lookup "workerId")
    let finalMetrics ← taskMetricsSchema (fields.lookup "finalMetrics")
    let outputHash ← string (fields.lookup "outputHash")
    let output ← string (fields.lookup "output")
    let ts ← number (fields.lookup "ts")
    return .taskCompleted taskId workerId finalMetrics outputHash output ts

/-- The texts of the failure classes. -/
def failureClasses : List (String × FailureClass) :=
  [.timeout, .rateLimited, .contextLengthExceeded, .invalidInput, .modelError, .networkError,
    .guardrailViolation, .determinismViolation, .aborted, .unknown].map fun failureClass =>
      (failureText failureClass, failureClass)

def taskFailedEventSchema : Schema OutboundMessage :=
  object fun fields => do
    literal "TASK_FAILED" (fields.lookup "type")
    let taskId ← string (fields.lookup "taskId")
    let workerId ← string (fields.lookup "workerId")
    let failureClass ← enum failureClasses (fields.lookup "failureClass")
    let retryable ← boolean (fields.lookup "retryable")
    let message ← string.optional (fields.lookup "message")
    let ts ← number (fields.lookup "ts")
    return .taskFailed taskId workerId failureClass retryable message ts

def workerDrainingEventSchema : Schema OutboundMessage :=
  object fun fields => do
    literal "WORKER_DRAINING" (fields.lookup "type")
    let workerId ← string (fields.lookup "workerId")
    let reason ← string (fields.lookup "reason")
    let ts ← number (fields.lookup "ts")
    return .workerDraining workerId reason ts

def workerOfflineEventSchema : Schema OutboundMessage :=
  object fun fields => do
    literal "WORKER_OFFLINE" (fields.lookup "type")
    let workerId ← string (fields.lookup "workerId")
    let ts ← number (fields.lookup "ts")
    return .workerOffline workerId ts

/-- The options of the union of outbound events, by their type. -/
def outboundEventSchemas : List (String × Schema OutboundMessage) :=
  [("WORKER_READY", workerReadyEventSchema), ("WORKER_LOAD", workerLoadEventSchema),
    ("TASK_ACCEPTED", taskAcceptedEventSchema), ("TASK_PROGRESS", taskProgressEventSchema),
    ("TASK_COMPLETED", taskCompletedEventSchema), ("TASK_FAILED", taskFailedEventSchema),
    ("WORKER_DRAINING", workerDrainingEventSchema), ("WORKER_OFFLINE", workerOfflineEventSchema)]

def outboundEventSchema : Schema OutboundMessage :=
  discriminatedUnion "type" outboundEventSchemas

/-! ## Decoding a text -/

/-- A client reads a text. -/
def decode (text : String) : Option OutboundMessage :=
  (Json.parse text).bind fun v => outboundEventSchema (some v)

/-- The metrics, as they are parsed. -/
def metricsMessage (m : TaskMetrics) : MetricsMessage :=
  ⟨.ofInt m.durationMs, m.tokenCount, some m.promptTokens, some m.completionTokens⟩

/-- Every number of tokens is finite. -/
def FiniteMetrics (m : TaskMetrics) : Prop :=
  m.tokenCount.isFinite = true ∧ m.promptTokens.isFinite = true ∧
    m.completionTokens.isFinite = true

instance (m : TaskMetrics) : Decidable (FiniteMetrics m) := inferInstanceAs (Decidable (_ ∧ _ ∧ _))

/-- The message of an event, if it has one. -/
def messageOf : OutboundEvent → Option OutboundMessage
  | .taskAccepted taskId workerId ts => some (.taskAccepted taskId workerId (.ofInt ts))
  | .taskProgress taskId stage metadata ts =>
      some (.taskProgress taskId stage (.ofInt ts) (metadata.map fun call =>
        [("toolName", .str call.toolName), ("toolArgs", call.toolArgs.wire)]))
  | .taskCompleted taskId workerId metrics outputHash output ts =>
      if FiniteMetrics metrics then
        some (.taskCompleted taskId workerId (metricsMessage metrics) outputHash output (.ofInt ts))
      else none
  | .taskFailed taskId workerId failureClass retryable message ts =>
      some (.taskFailed taskId workerId failureClass retryable (some message) (.ofInt ts))
  | .workerDraining workerId reason ts => some (.workerDraining workerId reason (.ofInt ts))

/-! ## Events that are sent -/

/-- The numbers of the event are those of JavaScript. -/
def EventDoubles : OutboundEvent → Prop
  | .taskAccepted _ _ ts | .taskFailed _ _ _ _ _ ts | .workerDraining _ _ ts =>
      (Number.ofInt ts).IsDouble
  | .taskProgress _ _ metadata ts =>
      (Number.ofInt ts).IsDouble ∧ ∀ call, metadata = some call → call.toolArgs.WellFormed
  | .taskCompleted _ _ metrics _ _ ts =>
      (Number.ofInt ts).IsDouble ∧ (Number.ofInt metrics.durationMs).IsDouble ∧
        metrics.tokenCount.IsDouble ∧ metrics.promptTokens.IsDouble ∧
        metrics.completionTokens.IsDouble

/-- The names of the fields that are sent. -/
def sentNames : List String :=
  ["type", "taskId", "workerId", "ts", "stage", "metadata", "toolName", "toolArgs",
    "finalMetrics", "durationMs", "tokenCount", "promptTokens", "completionTokens", "outputHash",
    "output", "failureClass", "retryable", "message", "reason", "code", "inflight", "max"]

/-- None of them is an array index. -/
theorem ordered_of_sentNames {fields : List (String × Json)}
    (h : ∀ name ∈ fields.map Prod.fst, name ∈ sentNames)
    (hdistinct : (fields.map Prod.fst).Nodup) : OwnKeys.Ordered fields := by
  have hnames : ∀ name ∈ sentNames, OwnKeys.arrayIndex? name = none := by decide
  exact OwnKeys.ordered_of_names (fun name hname => hnames name (h name hname)) hdistinct

theorem eventFields_ordered (event : OutboundEvent) : OwnKeys.Ordered (eventFields event) := by
  cases event with
  | taskProgress taskId stage metadata ts =>
      cases metadata with
      | none =>
          exact ordered_of_sentNames (by simp [eventFields, sentNames]) (by simp [eventFields])
      | some call =>
          exact ordered_of_sentNames (by simp [eventFields, sentNames]) (by simp [eventFields])
  | _ => exact ordered_of_sentNames (by simp [eventFields, sentNames]) (by simp [eventFields])

theorem eventFields_wellFormed {event : OutboundEvent} (h : EventDoubles event) :
    (Json.obj (eventFields event)).WellFormed := by
  refine .obj (eventFields_ordered event) ?_
  cases event with
  | taskAccepted taskId workerId ts =>
      have hts : (Number.ofInt ts).IsDouble := h
      simp [eventFields, Json.WellFormed.str, Json.WellFormed.num hts]
  | taskProgress taskId stage metadata ts =>
      obtain ⟨hts, hargs⟩ := h
      cases metadata with
      | none => simp [eventFields, Json.WellFormed.str, Json.WellFormed.num hts]
      | some call =>
          have hcall : (Json.obj [("toolName", .str call.toolName),
              ("toolArgs", call.toolArgs)]).WellFormed := by
            refine .obj (ordered_of_sentNames (by simp [sentNames]) (by simp)) ?_
            simp [Json.WellFormed.str, hargs call rfl]
          simp [eventFields, Json.WellFormed.str, Json.WellFormed.num hts, hcall]
  | taskCompleted taskId workerId metrics outputHash output ts =>
      obtain ⟨hts, hduration, htokens, hprompt, hcompletion⟩ := h
      have hmetrics : (Json.obj [("durationMs", .num (.ofInt metrics.durationMs)),
          ("tokenCount", .num metrics.tokenCount), ("promptTokens", .num metrics.promptTokens),
          ("completionTokens", .num metrics.completionTokens)]).WellFormed := by
        refine .obj (ordered_of_sentNames (by simp [sentNames]) (by simp)) ?_
        simp [Json.WellFormed.num, *]
      simp [eventFields, Json.WellFormed.str, Json.WellFormed.num hts, hmetrics]
  | taskFailed taskId workerId failureClass retryable message ts =>
      have hts : (Number.ofInt ts).IsDouble := h
      simp [eventFields, Json.WellFormed.str, Json.WellFormed.bool, Json.WellFormed.num hts]
  | workerDraining workerId reason ts =>
      have hts : (Number.ofInt ts).IsDouble := h
      simp [eventFields, Json.WellFormed.str, Json.WellFormed.num hts]

theorem decode_obj {fields : List (String × Json)} (h : (Json.obj fields).WellFormed) :
    decode (Json.obj fields).stringify =
      outboundEventSchema (some (.obj (Json.wireFields fields))) := by
  rw [decode, Json.parse_stringify h]
  rfl

/-- A number that was sent is read if it is finite. -/
theorem number_wire (n : Number) :
    number (some (Json.num n).wire) = if n.isFinite then some n else none := by
  rw [Json.wire, Json.ofNumber]
  cases h : n.isFinite with
  | true => rw [if_pos rfl, if_pos rfl, number_eq_some_iff.mpr ⟨rfl, h⟩]
  | false => rfl

theorem optional_number_wire (n : Number) :
    number.optional (some (Json.num n).wire) = if n.isFinite then some (some n) else none := by
  show (number (some (Json.num n).wire)).map some = _
  rw [number_wire]
  split <;> rfl

theorem taskMetricsSchema_wire (m : TaskMetrics) :
    taskMetricsSchema (some (Json.obj [("durationMs", .num (.ofInt m.durationMs)),
      ("tokenCount", .num m.tokenCount), ("promptTokens", .num m.promptTokens),
      ("completionTokens", .num m.completionTokens)]).wire) =
        if FiniteMetrics m then some (metricsMessage m) else none := by
  have hduration : number (some (Json.num (.ofInt m.durationMs)).wire) =
      some (.ofInt m.durationMs) := (number_wire _).trans (if_pos rfl)
  show (do
    let durationMs ← number (some (Json.num (.ofInt m.durationMs)).wire)
    let tokenCount ← number (some (Json.num m.tokenCount).wire)
    let promptTokens ← number.optional (some (Json.num m.promptTokens).wire)
    let completionTokens ← number.optional (some (Json.num m.completionTokens).wire)
    return (⟨durationMs, tokenCount, promptTokens, completionTokens⟩ : MetricsMessage)) = _
  rw [hduration, number_wire, optional_number_wire, optional_number_wire]
  cases htokens : m.tokenCount.isFinite with
  | false => simp [FiniteMetrics, htokens]
  | true => cases hprompt : m.promptTokens.isFinite with
    | false => simp [FiniteMetrics, htokens, hprompt]
    | true => cases hcompletion : m.completionTokens.isFinite with
      | false => simp [FiniteMetrics, htokens, hprompt, hcompletion]
      | true => simp [FiniteMetrics, htokens, hprompt, hcompletion, metricsMessage]

/-- A client reads an event from the text it was sent as. -/
theorem decode_event {event : OutboundEvent} (h : EventDoubles event) :
    decode (Json.obj (eventFields event)).stringify = messageOf event := by
  rw [decode_obj (eventFields_wellFormed h)]
  cases event with
  | taskAccepted taskId workerId ts => rfl
  | taskProgress taskId stage metadata ts =>
      cases metadata with
      | none => cases stage <;> rfl
      | some call => cases stage <;> rfl
  | taskCompleted taskId workerId metrics outputHash output ts =>
      show (taskMetricsSchema (some (Json.obj _).wire)).bind (fun finalMetrics =>
        some (OutboundMessage.taskCompleted taskId workerId finalMetrics outputHash output
          (.ofInt ts))) = _
      rw [taskMetricsSchema_wire, messageOf]
      split <;> rfl
  | taskFailed taskId workerId failureClass retryable message ts =>
      cases failureClass <;> rfl
  | workerDraining workerId reason ts => rfl

/-- A client that knows the outbound events passes over objects of another type. -/
theorem decode_other (type : String) {fields : List (String × Json)}
    (h : (Json.obj fields).WellFormed) (htype : fields.lookup "type" = some (.str type))
    (hother : type ∉ outboundEventSchemas.map Prod.fst) :
    decode (Json.obj fields).stringify = none := by
  have hwire : (Json.wireFields fields).lookup "type" = some (.str type) := by
    rw [Json.lookup_wireFields, htype]
    rfl
  rw [decode_obj h]
  exact discriminatedUnion_eq_none hwire hother

/-! ## The stream of a call -/

/-- What the effect passes to `emit` is a value of JavaScript, and an event of the runtime has
a type of its own. -/
def Sendable : Effect → Prop
  | .emitted _ event => EventDoubles event
  | .forwarded _ event => (Json.obj (runtimeFields event)).WellFormed ∧
      event.type ∉ outboundEventSchemas.map Prod.fst
  | _ => True

/-- The event, if call `i` emits it. -/
def emittedBy? (i : ℕ) : Effect → Option OutboundEvent
  | .emitted j event => if j = i then some event else none
  | _ => none

/-- The events of the worker that call `i` emits before it settles. -/
def emittedBy (i : ℕ) : List Effect → List OutboundEvent
  | [] => []
  | e :: out =>
      match settled? i e with
      | some _ => []
      | none => (emittedBy? i e).toList ++ emittedBy i out

section Streams

variable {settings : Settings} {i : ℕ}

theorem sent?_decodes {e : Effect} (h : Sendable e) :
    ((sent? i e).toList.map fun fields => (Json.obj fields).stringify).filterMap decode =
      (emittedBy? i e).toList.filterMap messageOf := by
  cases e with
  | emitted j event =>
      have hevent : decode (Json.obj (eventFields event)).stringify = messageOf event :=
        decode_event h
      by_cases hj : j = i
      · simp [sent?, emittedBy?, hj, List.filterMap_cons, hevent]
      · simp [sent?, emittedBy?, hj]
  | forwarded j event =>
      have hnone := decode_other event.type h.1 rfl h.2
      by_cases hj : j = i
      · simp [sent?, emittedBy?, hj, hnone]
      · simp [sent?, emittedBy?, hj]
  | _ => rfl

theorem sentBy_decodes {out : List Effect} (h : ∀ e ∈ out, Sendable e) :
    ((sentBy i out).map fun fields => (Json.obj fields).stringify).filterMap decode =
      (emittedBy i out).filterMap messageOf := by
  induction out with
  | nil => rfl
  | cons e out ih =>
      obtain ⟨he, hout⟩ := List.forall_mem_cons.mp h
      rw [sentBy, emittedBy]
      cases settled? i e with
      | some error => rfl
      | none =>
          dsimp only
          rw [List.map_append, List.filterMap_append, List.filterMap_append, sent?_decodes he,
            ih hout]

theorem errorFields_decodes {load : Load} (hload : load.inflight ≤ 2 ^ 53 ∧ load.max.IsDouble)
    (error : Thrown) : decode (Json.obj (errorFields load error)).stringify = none := by
  have hinflight : (Number.ofNat load.inflight).IsDouble :=
    Number.isDouble_ofNat hload.1
  have hordered : OwnKeys.Ordered (errorFields load error) := by
    unfold errorFields
    dsimp only
    split
    · exact ordered_of_sentNames (by simp [sentNames]) (by simp)
    · split
      · exact ordered_of_sentNames (by simp [sentNames]) (by simp)
      · exact ordered_of_sentNames (by simp [sentNames]) (by simp)
  have hformed : (Json.obj (errorFields load error)).WellFormed := by
    refine .obj hordered ?_
    unfold errorFields
    dsimp only
    split
    · simp [Json.WellFormed.str, Json.WellFormed.num hinflight, Json.WellFormed.num hload.2]
    · split
      · simp [Json.WellFormed.str]
      · simp [Json.WellFormed.str]
  refine decode_other "ERROR" hformed ?_ (by decide)
  unfold errorFields
  dsimp only
  split
  · rfl
  · split <;> rfl

/-- What is decoded from the stream of a call that has settled. -/
theorem submitChunks_decodes_settled {out : List Effect} (hsent : ∀ e ∈ out, Sendable e)
    {load : Load} (hload : load.inflight ≤ 2 ^ 53 ∧ load.max.IsDouble) {error : Option Thrown}
    (hsettled : out.findSome? (settled? i) = some error) (stays : Bool) :
    (EventStream.messages (String.join (submitChunks load i stays out))).filterMap decode =
      (emittedBy i out).filterMap messageOf := by
  rw [submitChunks_eq load stays hsettled, (lastChunk_reads load _ _ error).read, answered,
    List.map_append, List.append_assoc, List.filterMap_append, sentBy_decodes hsent]
  have hdone : decode "[DONE]" = none := rfl
  cases openAtEnd i stays out with
  | false => simp
  | true =>
      cases error with
      | none => simp [hdone]
      | some e => simp [errorFields_decodes hload e]

/-- A client that decodes the stream of a call gets the events of the worker that the call
emitted before it settled, in order, whatever else is in the stream. -/
theorem submit_stream_decodes {s₀ s : ServerState} {as : List ServerAction}
    {out : List ServerEffect} (hstart : Started s₀)
    (hrun : (server settings).run s₀ as = some (s, out))
    (hsent : ∀ e ∈ workerEffects out, Sendable e) {load : Load}
    (hload : load.inflight ≤ 2 ^ 53 ∧ load.max.IsDouble) {error : Option Thrown}
    (hsettled : .worker (.settled i error) ∈ out) (stays : Bool) :
    (EventStream.messages
        (String.join (submitChunks load i stays (workerEffects out)))).filterMap decode =
      (emittedBy i (workerEffects out)).filterMap messageOf := by
  obtain ⟨w₀, hnew, rfl⟩ := hstart
  obtain ⟨as', hworker⟩ := run_worker hrun
  exact submitChunks_decodes_settled hsent hload
    (findSome?_settled hnew hworker (mem_workerEffects.mpr hsettled)) stays

end Streams

/-- A task whose output is the text of another event.  An event of the runtime comes in
between. -/
theorem submit_stream_decodes_nested :
    let turn : Turn := ⟨0, ⟨0, none⟩, ⟨0, none⟩⟩
    let output := (Json.obj (eventFields (.taskAccepted "t2" "w1" 0))).stringify
    let as : List ServerAction :=
      [.submit (.request ⟨"t1", some (.obj [("prompt", .str "a")])⟩ none) turn,
        .worker (.start 0 0), .worker (.callback 0 (.onL0Event ⟨"SESSION_START", 1, []⟩) ⟨0, none⟩),
        .worker (.settle 0 (.ok ⟨output, 1, 1, 1⟩) turn), .worker (.finish 0)]
    ∃ s₀ s out, Started s₀ ∧ (server ⟨0, 5000, id⟩).run s₀ as = some (s, out) ∧
      (EventStream.messages
        (String.join (submitChunks ⟨0, 4⟩ 0 true (workerEffects out)))).filterMap decode =
        [.taskAccepted "t1" "w1" 1,
          .taskCompleted "t1" "w1" ⟨.ofInt 0, 1, some 1, some 1⟩ output output (.ofInt 2)] := by
  intro turn output as
  have hstart := started_ofDefaults
  have hruns : ((server ⟨0, 5000, id⟩).run (.init .ofDefaults) as).isSome = true := rfl
  obtain ⟨⟨s, out⟩, hrun⟩ := Option.isSome_iff_exists.mp hruns
  let accepted : OutboundEvent := .taskAccepted "t1" "w1" 1
  let completed : OutboundEvent := .taskCompleted "t1" "w1" ⟨0, 1, 1, 1⟩ output output 2
  have heffects : workerEffects out = [.acquired 0 "t1", .emitted 0 accepted,
      .recorded 0 "t1" accepted, .forwarded 0 ⟨"SESSION_START", 1, []⟩, .emitted 0 completed,
      .recorded 0 "t1" completed, .released 0 "t1", .settled 0 none] := by
    obtain ⟨-, rfl⟩ := Prod.mk.inj (Option.some.inj hrun)
    rfl
  have hone : (1 : Number).IsDouble := Number.isDouble_ofNat (n := 1) (by norm_num)
  have hruntime : (Json.obj (runtimeFields ⟨"SESSION_START", 1, []⟩)).WellFormed := by
    refine .obj (ordered_of_sentNames (by simp [runtimeFields, sentNames])
      (by simp [runtimeFields])) ?_
    simp [runtimeFields, Json.WellFormed.str, Json.WellFormed.num hone]
  have haccepted : EventDoubles accepted := Number.isDouble_ofNat (n := 1) (by norm_num)
  have hcompleted : EventDoubles completed :=
    ⟨Number.isDouble_ofNat (n := 2) (by norm_num), Number.isDouble_ofNat (n := 0)
      (by norm_num), hone, hone, hone⟩
  have hsent : ∀ e ∈ workerEffects out, Sendable e := by
    rw [heffects]
    simp [Sendable, haccepted, hcompleted, hruntime, outboundEventSchemas]
  have hsettled : .worker (.settled 0 none) ∈ out := by
    rw [← mem_workerEffects, heffects]
    simp
  have hload : (⟨0, 4⟩ : Load).inflight ≤ 2 ^ 53 ∧ (⟨0, 4⟩ : Load).max.IsDouble :=
    ⟨by norm_num, Number.isDouble_ofNat (n := 4) (by norm_num)⟩
  refine ⟨_, s, out, hstart, hrun, ?_⟩
  rw [submit_stream_decodes hstart hrun hsent hload hsettled, heffects]
  rfl

end L0Worker.Server
