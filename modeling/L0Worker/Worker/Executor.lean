import L0Worker.Lib.JsonText
import L0Worker.Worker.Instance
import L0Worker.Worker.Order

/-!
# Structured execution

`executeOrder` on the path of an order with one model and JSON output.  The L0 runtime and
the SDK are the environment.  The runtime calls the stream factories it was given, one after
the other as it retries and falls back, and yields the events of the streams.  Each factory
returns a stream whose promise `object` resolves to a value or is rejected, at any time.  A
promise that never settles leaves the executor pending, which is no step of the worker.
-/

namespace L0Worker.Worker

/-! ## What the SDK is called with -/

/-- `buildMessages`. -/
def buildMessages (payload : TaskPayload) : Except Thrown (List Message) :=
  match payload.messages, payload.prompt with
  | some messages, _ => .ok messages
  | none, some prompt =>
      if prompt = "" then .error (.ofMessage "Payload must have either prompt or messages")
      else .ok [⟨.user, prompt⟩]
  | none, none => .error (.ofMessage "Payload must have either prompt or messages")

/-- An accepted payload has messages. -/
theorem buildMessages_of_parse {v : Option Json} {payload : TaskPayload}
    (h : parseTaskPayload v = some payload) : ∃ messages, buildMessages payload = .ok messages := by
  unfold parseTaskPayload at h
  split at h
  · simp only [Option.bind_eq_bind, Option.bind_eq_some_iff] at h
    obtain ⟨prompt, -, messages, -, h⟩ := h
    split at h
    · next hsome =>
      cases h
      cases messages with
      | some messages => exact ⟨messages, by cases prompt <;> rfl⟩
      | none =>
          cases prompt with
          | none => simp at hsome
          | some prompt =>
              have hne : prompt ≠ "" := by simpa using hsome
              exact ⟨[⟨.user, prompt⟩], by simp [buildMessages, hne]⟩
    · cases h
  · cases h

/-- What a payload is accepted for: its messages when there are any, otherwise its prompt. -/
def TaskPayload.acceptedFor (payload : TaskPayload) : List Message :=
  match payload.messages with
  | some (message :: messages) => message :: messages
  | _ => [⟨.user, payload.prompt.getD ""⟩]

/-- The model is called with what the payload is accepted for. -/
def TaskPayload.ReachesModel (payload : TaskPayload) : Prop :=
  ∃ messages, buildMessages payload = .ok messages ∧ messages ≠ [] ∧
    messages = payload.acceptedFor

/-- An accepted payload reaches the model unless it has a list of messages that is empty: that
list does not count for the schema, but it is there. -/
theorem reachesModel_iff {v : Option Json} {payload : TaskPayload}
    (h : parseTaskPayload v = some payload) :
    payload.ReachesModel ↔ payload.messages ≠ some [] := by
  obtain ⟨messages, hmessages⟩ := buildMessages_of_parse h
  obtain ⟨prompt, given⟩ := payload
  cases given with
  | none =>
      -- then the prompt is there, since the messages were built from it
      cases prompt with
      | none => cases hmessages
      | some prompt =>
          refine iff_of_true ⟨messages, hmessages, ?_⟩ (by simp)
          simp only [buildMessages] at hmessages
          split at hmessages
          · cases hmessages
          · cases hmessages
            exact ⟨List.cons_ne_nil _ _, rfl⟩
  | some given =>
      have hbuild : buildMessages ⟨prompt, some given⟩ = .ok given := by cases prompt <;> rfl
      cases given with
      | nil =>
          refine iff_of_false ?_ fun hne => hne rfl
          rintro ⟨built, hbuilt, hne, -⟩
          cases hbuild.symm.trans hbuilt
          exact hne rfl
      | cons message rest =>
          exact iff_of_true ⟨_, hbuild, List.cons_ne_nil _ _, rfl⟩ (by simp)

/-- A payload with a prompt and a message. -/
theorem reachesModel_iff_messages :
    (⟨some "a", some [⟨.user, "b"⟩]⟩ : TaskPayload).ReachesModel := by
  let message : Json := .obj [("role", .str "user"), ("content", .str "b")]
  have hparse : parseTaskPayload
      (some (.obj [("prompt", .str "a"), ("messages", .arr [message])])) =
        some ⟨some "a", some [⟨.user, "b"⟩]⟩ := by
    decide
  exact (reachesModel_iff hparse).mpr (by decide)

/-- A payload with a prompt and an empty list of messages. -/
theorem not_reachesModel :
    let v : Option Json := some (.obj [("prompt", .str "a"), ("messages", .arr [])])
    ∃ payload, parseTaskPayload v = some payload ∧ buildMessages payload = .ok [] ∧
      ¬ payload.ReachesModel := by
  intro v
  refine ⟨⟨some "a", some []⟩, rfl, rfl, ?_⟩
  rintro ⟨messages, hmessages, hne, -⟩
  cases hmessages
  exact hne rfl

/-- The options of `streamObject`. -/
structure StreamObjectOptions where
  model : ModelSpec
  messages : List Message
  schema : JsonSchema
  temperature : Option Json
  maxOutputTokens : Option Json
  topP : Option Json
  frequencyPenalty : Option Json
  presencePenalty : Option Json

/-- A parameter of a model, `none` for `undefined`. -/
def ModelSpec.param (model : ModelSpec) (name : String) : Option Json :=
  (model.params.getD []).lookup name

/-- The operator `?? undefined`. -/
def orUndefined : Option Json → Option Json
  | some .null => none
  | v => v

/-- What the factory for the primary model calls `streamObject` with. -/
def primaryStream (model : ModelSpec) (messages : List Message) (schema : JsonSchema) :
    StreamObjectOptions where
  model := model
  messages := messages
  schema := schema
  temperature := orUndefined (model.param "temperature")
  maxOutputTokens := orUndefined (model.param "maxOutputTokens")
  topP := orUndefined (model.param "topP")
  frequencyPenalty := orUndefined (model.param "frequencyPenalty")
  presencePenalty := orUndefined (model.param "presencePenalty")

/-- `buildStructuredStream`. -/
def buildStructuredStream (model : ModelSpec) (messages : List Message) (schema : JsonSchema) :
    StreamObjectOptions where
  model := model
  messages := messages
  schema := schema
  temperature := model.param "temperature"
  maxOutputTokens := model.param "maxOutputTokens"
  topP := model.param "topP"
  frequencyPenalty := model.param "frequencyPenalty"
  presencePenalty := model.param "presencePenalty"

/-- The factories the runtime is given: the primary one and the fallbacks. -/
def structuredStreams (primaryModel : ModelSpec) (execution : ExecutionSpec)
    (messages : List Message) (schema : JsonSchema) : List StreamObjectOptions :=
  primaryStream primaryModel messages schema ::
    (execution.fallbacks.getD []).map fun fb => buildStructuredStream fb.model messages schema

/-- Every factory asks for the schema of the order. -/
theorem schema_of_mem_structuredStreams {primaryModel : ModelSpec} {execution : ExecutionSpec}
    {messages : List Message} {schema : JsonSchema} {options : StreamObjectOptions}
    (h : options ∈ structuredStreams primaryModel execution messages schema) :
    options.schema = schema := by
  rcases List.mem_cons.mp h with rfl | h
  · rfl
  · obtain ⟨fb, -, rfl⟩ := List.mem_map.mp h
    rfl

/-- How `executeOrder` executes an order. -/
inductive ExecutionPath where
  | parallel
  | structured (primaryModel : ModelSpec) (schema : JsonSchema) (strict : Bool)
  | text (primaryModel : ModelSpec)
  /-- No accepted order is without a model. -/
  | noModel

/-- The dispatch of `executeOrder`. -/
def executionPath (order : InferenceOrder) : ExecutionPath :=
  match order.execution.parallel, order.output, order.execution.models with
  | some _, _, _ => .parallel
  | none, .json schema strict, primaryModel :: _ => .structured primaryModel schema strict
  | none, _, primaryModel :: _ => .text primaryModel
  | none, _, [] => .noModel

/-! ## The stream -/

/-- How the promise `object` of a stream settles. -/
inductive ObjectPromise where
  | resolved (value : Json)
  | rejected

/-- What happens while the stream is consumed. -/
inductive StreamEvent where
  /-- A factory is called and returns a stream. -/
  | started (options : StreamObjectOptions) (object : ObjectPromise)
  /-- The runtime yields an event. -/
  | yielded (type : String) (value : Option String)

/-- A call of `l0` and the iteration of its stream. -/
structure StreamRun where
  events : List StreamEvent
  /-- What the runtime throws in the end, `none` where the iteration ends. -/
  throws : Option Thrown
  /-- What the callback `onFirstToken` throws, if it does. -/
  onFirstToken : Option Thrown
  /-- What the runtime counted. -/
  inputTokens : Option Number
  outputTokens : Option Number

/-- A callback that the executor calls, with what it throws, if it does. -/
inductive ExecutorCall where
  | onFirstToken (throws : Option Thrown)
  | onToken (token : String)
  | onToolCall (name : String) (args : Json) (throws : Option Thrown)

/-- What the loop over the stream collects. -/
structure Collected where
  firstTokenEmitted : Bool
  content : String
  tokenCount : Nat
  /-- The promise of the stream that was started last. -/
  streamObjectResult : Option ObjectPromise

namespace Collected

def init : Collected where
  firstTokenEmitted := false
  content := ""
  tokenCount := 0
  streamObjectResult := none

/-- Append a token. -/
def push (c : Collected) (token : String) : Collected :=
  { c with
    firstTokenEmitted := true
    content := c.content ++ token
    tokenCount := c.tokenCount + 1 }

/-- One event: the callbacks that are called, and what is collected then, or what a callback
throws. -/
def next (onFirstToken : Option Thrown) (c : Collected) :
    StreamEvent → List ExecutorCall × Except Thrown Collected
  | .started _ object => ([], .ok { c with streamObjectResult := some object })
  | .yielded type value =>
      match value with
      | none => ([], .ok c)
      | some token =>
          if type = "token" ∧ token ≠ "" then
            match c.firstTokenEmitted, onFirstToken with
            | false, some e => ([.onFirstToken (some e)], .error e)
            | false, none => ([.onFirstToken none, .onToken token], .ok (c.push token))
            | true, _ => ([.onToken token], .ok (c.push token))
          else ([], .ok c)

/-- All events, up to one at which a callback throws. -/
def loop (onFirstToken : Option Thrown) :
    Collected → List StreamEvent → List ExecutorCall × Except Thrown Collected
  | c, [] => ([], .ok c)
  | c, e :: events =>
      match c.next onFirstToken e with
      | (calls, .error thrown) => (calls, .error thrown)
      | (calls, .ok c) =>
          let rest := c.loop onFirstToken events
          (calls ++ rest.1, rest.2)

end Collected

/-- The callbacks of the loop over a stream. -/
def StreamRun.calls (r : StreamRun) : List ExecutorCall :=
  (Collected.init.loop r.onFirstToken r.events).1

/-- The loop of `executeStructured`. -/
def StreamRun.consume (r : StreamRun) : Except Thrown Collected :=
  match (Collected.init.loop r.onFirstToken r.events).2 with
  | .error e => .error e
  | .ok c =>
      match r.throws with
      | some e => .error e
      | none => .ok c

/-! ## The result -/

/-- `new OutputValidationError(reason)`. -/
def outputValidationError (reason : String) : Thrown :=
  .error "OutputValidationError" ("Output validation failed: " ++ reason) true

/-- The collected text is parsed.  The parser says what is wrong with a text. -/
def parseCollected (syntaxError : String → String) (content : String) : Except Thrown Json :=
  match Json.parse content with
  | some v => .ok v
  | none =>
      .error (outputValidationError
        ("Failed to parse structured output: " ++ syntaxError content))

/-- The value that is returned as `validatedOutput`. -/
def validatedOutput (syntaxError : String → String) (c : Collected) : Except Thrown Json :=
  match c.streamObjectResult with
  | some (.resolved v) => .ok v
  | some .rejected | none => parseCollected syntaxError c.content

/-- `executeStructured`. -/
def executeStructured (syntaxError : String → String) (r : StreamRun) :
    Except Thrown ExecutionResult :=
  match r.consume with
  | .error e => .error e
  | .ok c =>
      match validatedOutput syntaxError c with
      | .error e => .error e
      | .ok v =>
          .ok
            { content := v.stringify
              tokenCount := .ofNat c.tokenCount
              inputTokens := r.inputTokens.getD 0
              outputTokens := r.outputTokens.getD (.ofNat c.tokenCount) }

/-- `executeOrder`, with what its stream does on the structured path and what the other
paths give. -/
def executeOrder (syntaxError : String → String) (order : InferenceOrder) (payload : TaskPayload)
    (r : StreamRun) (other : Except Thrown ExecutionResult) : Except Thrown ExecutionResult :=
  match buildMessages payload with
  | .error e => .error e
  | .ok _ =>
      match executionPath order with
      | .structured _ _ _ => executeStructured syntaxError r
      | .parallel | .text _ | .noModel => other

/-! ## What is collected -/

/-- The token that the loop appends. -/
def StreamEvent.token? : StreamEvent → Option String
  | .yielded type (some token) => if type = "token" ∧ token ≠ "" then some token else none
  | _ => none

/-- The promise of a stream that is started. -/
def StreamEvent.object? : StreamEvent → Option ObjectPromise
  | .started _ object => some object
  | _ => none

namespace StreamRun

variable (r : StreamRun)

/-- The tokens of all streams. -/
def tokens : List String := r.events.filterMap StreamEvent.token?

/-- The streamed text. -/
def text : String := String.join r.tokens

/-- The promise of the stream that was started last. -/
def object? : Option ObjectPromise := (r.events.filterMap StreamEvent.object?).getLast?

/-- The loop comes to its end: neither the runtime nor the callback for the first token
throws. -/
def Ends : Prop := r.throws = none ∧ (r.tokens = [] ∨ r.onFirstToken = none)

/-- What is collected in the end. -/
def collected : Collected where
  firstTokenEmitted := !r.tokens.isEmpty
  content := r.text
  tokenCount := r.tokens.length
  streamObjectResult := r.object?

end StreamRun

namespace Collected

variable {onFirstToken : Option Thrown} {e : StreamEvent}

/-- A token is appended, unless it is the first and the callback throws. -/
theorem next_of_token (onFirstToken : Option Thrown) (c : Collected) {token : String}
    (h : e.token? = some token) : e.object? = none ∧ c.next onFirstToken e =
      match c.firstTokenEmitted, onFirstToken with
      | false, some thrown => ([.onFirstToken (some thrown)], .error thrown)
      | false, none => ([.onFirstToken none, .onToken token], .ok (c.push token))
      | true, _ => ([.onToken token], .ok (c.push token)) := by
  cases e with
  | started options object => cases h
  | yielded type value =>
      cases value with
      | none => cases h
      | some value =>
          obtain ⟨htoken, heq⟩ := Option.ite_none_right_eq_some.mp h
          obtain rfl := Option.some.inj heq
          exact ⟨rfl, if_pos htoken⟩

/-- At any other event, only the promise may change. -/
theorem next_of_not_token (c : Collected) (h : e.token? = none) :
    c.next onFirstToken e =
      ([], .ok { c with streamObjectResult := e.object?.or c.streamObjectResult }) := by
  cases e with
  | started options object => rfl
  | yielded type value =>
      cases value with
      | none => rfl
      | some value => exact if_neg fun htoken => by simp [StreamEvent.token?, htoken] at h

/-- Where the loop gets from any point. -/
theorem loop_eq_ok_iff {c c' : Collected} {events : List StreamEvent} :
    (c.loop onFirstToken events).2 = .ok c' ↔
      (c.firstTokenEmitted = true ∨ events.filterMap StreamEvent.token? = [] ∨
        onFirstToken = none) ∧
      c' =
        { firstTokenEmitted :=
            c.firstTokenEmitted || !(events.filterMap StreamEvent.token?).isEmpty
          content := (events.filterMap StreamEvent.token?).foldl (· ++ ·) c.content
          tokenCount := c.tokenCount + (events.filterMap StreamEvent.token?).length
          streamObjectResult :=
            (events.filterMap StreamEvent.object?).getLast?.or c.streamObjectResult } := by
  induction events generalizing c with
  | nil =>
      simp [loop]
      exact eq_comm
  | cons e events ih =>
      simp only [loop]
      cases htoken : e.token? with
      | none =>
          have hlast : (List.filterMap StreamEvent.object? (e :: events)).getLast?.or
              c.streamObjectResult = (events.filterMap StreamEvent.object?).getLast?.or
                (e.object?.or c.streamObjectResult) := by
            cases hobject : e.object? with
            | none => simp [hobject]
            | some object =>
                rw [List.filterMap_cons_some hobject, List.getLast?_cons]
                cases (events.filterMap StreamEvent.object?).getLast? with
                | none => rfl
                | some p => rfl
          rw [c.next_of_not_token htoken, List.filterMap_cons_none htoken, hlast]
          exact ih
      | some token =>
          obtain ⟨hobject, hnext⟩ := c.next_of_token onFirstToken htoken
          rw [hnext, List.filterMap_cons_some htoken, List.filterMap_cons_none hobject]
          cases hfirst : c.firstTokenEmitted with
          | true =>
              simp [ih, push, Nat.add_assoc, Nat.add_comm 1]
          | false =>
              cases onFirstToken with
              | some thrown => simp
              | none =>
                simp [ih, push, Nat.add_assoc, Nat.add_comm 1]

end Collected

/-- The loop ends with what is collected. -/
theorem StreamRun.consume_eq_ok_iff {r : StreamRun} {c : Collected} :
    r.consume = .ok c ↔ r.Ends ∧ c = r.collected := by
  unfold consume
  cases hloop : (Collected.init.loop r.onFirstToken r.events).2 with
  | error e =>
      have hnot : ¬ (r.tokens = [] ∨ r.onFirstToken = none) := by
        intro h
        have hok := Collected.loop_eq_ok_iff (c := Collected.init).mpr ⟨.inr h, rfl⟩
        rw [hloop] at hok
        cases hok
      simp [Ends, hnot]
  | ok c₁ =>
      obtain ⟨hends, rfl⟩ := Collected.loop_eq_ok_iff.mp hloop
      have hends' : r.tokens = [] ∨ r.onFirstToken = none :=
        hends.resolve_left Bool.false_ne_true
      cases hthrows : r.throws with
      | some e => simp [Ends, hthrows]
      | none =>
          constructor
          · intro h
            cases h
            exact ⟨⟨hthrows, hends'⟩,
              by simp [collected, Collected.init, tokens, text, object?, String.join]⟩
          · rintro ⟨-, rfl⟩
            simp [collected, Collected.init, tokens, text, object?, String.join]

/-- What `executeStructured` gives when the loop ends. -/
theorem executeStructured_of_ends (syntaxError : String → String) {r : StreamRun} (h : r.Ends) :
    executeStructured syntaxError r = (validatedOutput syntaxError r.collected).map fun v =>
      { content := v.stringify
        tokenCount := .ofNat r.tokens.length
        inputTokens := r.inputTokens.getD 0
        outputTokens := r.outputTokens.getD (.ofNat r.tokens.length) } := by
  rw [executeStructured, StreamRun.consume_eq_ok_iff.mpr ⟨h, rfl⟩]
  dsimp only
  cases validatedOutput syntaxError r.collected with
  | error e => rfl
  | ok v => rfl

/-- It resolves only when the loop ends. -/
theorem ends_of_executeStructured {syntaxError : String → String} {r : StreamRun}
    {result : ExecutionResult} (h : executeStructured syntaxError r = .ok result) : r.Ends := by
  unfold executeStructured at h
  split at h
  · cases h
  · next c hc => exact (StreamRun.consume_eq_ok_iff.mp hc).1

/-- The promise that is awaited is one of a stream that was started. -/
theorem StreamRun.started_of_object {r : StreamRun} {p : ObjectPromise} (h : r.object? = some p) :
    ∃ options, .started options p ∈ r.events := by
  obtain ⟨e, he, hobject⟩ := List.mem_filterMap.mp (List.mem_of_getLast? h)
  cases e with
  | started options object =>
      obtain rfl := Option.some.inj hobject
      exact ⟨options, he⟩
  | yielded type value => cases hobject

end L0Worker.Worker
