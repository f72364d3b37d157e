import L0Worker.Lib.OwnKeys
import L0Worker.Worker.Executor

/-!
# What the runtime is called with

`executeOrder` translates an order for the L0 runtime: into the options of one call of `l0`
on the text and structured paths, and into those of one operation for each model on the race
and fan-out paths.  A stream factory is the call of the SDK that it makes.

The runtime starts the fallback streams one after the other, each when the stream before it
is exhausted, whatever the cause was.  So a fallback chain is honoured as far as the options
carry it and the failures happen to be those the order names (`fallbacks_honoured_iff`).
-/

namespace L0Worker.Worker

/-! ## Tools and streams -/

/-- A tool as the SDK is told of it, without a function that executes it. -/
structure ToolDefinition where
  description : Option String
  inputSchema : JsonSchema

/-- The properties of the object that `buildTools` fills.  An assignment to `__proto__` makes
no property. -/
abbrev ToolSet := List (String × ToolDefinition)

/-- `buildTools`. -/
def buildTools (execution : ExecutionSpec) : Option ToolSet :=
  match execution.tools with
  | none | some [] => none
  | some tools =>
      some (OwnKeys.ofEntries ((tools.filter fun t => t.name ≠ "__proto__").map fun t =>
        (t.name, ⟨t.description, t.schema⟩)))

/-- The options of `streamText`. -/
structure StreamTextOptions where
  model : ModelSpec
  messages : List Message
  tools : Option ToolSet
  temperature : Option Json
  maxOutputTokens : Option Json
  topP : Option Json
  frequencyPenalty : Option Json
  presencePenalty : Option Json
  stopSequences : Option Json

/-- `buildTextStream`. -/
def buildTextStream (model : ModelSpec) (messages : List Message) (tools : Option ToolSet) :
    StreamTextOptions where
  model := model
  messages := messages
  tools := tools
  temperature := model.param "temperature"
  maxOutputTokens := model.param "maxOutputTokens"
  topP := model.param "topP"
  frequencyPenalty := model.param "frequencyPenalty"
  presencePenalty := model.param "presencePenalty"
  stopSequences := model.param "stop"

/-- A stream factory. -/
inductive StreamFactory where
  | text (options : StreamTextOptions)
  | object (options : StreamObjectOptions)

/-- The model that the stream of a factory asks. -/
def StreamFactory.model : StreamFactory → ModelSpec
  | .text options => options.model
  | .object options => options.model

/-! ## The options of the runtime -/

/-- The retries of the runtime. -/
structure L0Retry where
  attempts : Number
  maxRetries : Number
  backoff : Backoff
  baseDelay : Option Number
  maxDelay : Option Number

/-- `mapRetrySpec`. -/
def mapRetrySpec (spec : Option RetrySpec) : Option L0Retry :=
  spec.map fun spec =>
    { attempts := spec.attempts
      maxRetries := spec.maxRetries
      backoff := spec.backoff
      baseDelay := spec.baseDelayMs
      maxDelay := spec.maxDelayMs }

/-- `mapGuardrails`.  The runtime has one set of rules for each preset. -/
def mapGuardrails (spec : Option GuardrailSpec) : Option GuardrailPreset :=
  spec.bind GuardrailSpec.preset

structure L0Timeout where
  initialToken : Option Number
  interToken : Option Number

/-- The options that do not depend on the model. -/
structure CommonL0Options where
  retry : Option L0Retry
  guardrails : Option GuardrailPreset
  /-- The interval of the guardrail checks. -/
  checkIntervals : Option Number
  timeout : Option L0Timeout
  continueFromLastKnownGoodToken : Bool

/-- `buildCommonL0Options`, as far as it reads the order. -/
def buildCommonL0Options (execution : ExecutionSpec) : CommonL0Options where
  retry := mapRetrySpec execution.retry
  guardrails := mapGuardrails execution.guardrails
  checkIntervals :=
    match mapGuardrails execution.guardrails with
    | none => none
    | some _ =>
        (execution.guardrails.bind GuardrailSpec.checkIntervalMs).filter fun ms =>
          (Json.num ms).truthy
  timeout := execution.timeout.map fun timeout => ⟨timeout.initialTokenMs, timeout.interTokenMs⟩
  continueFromLastKnownGoodToken := execution.continueFromLastKnownGoodToken.getD false

/-- The options of one stream of the runtime. -/
structure L0Options extends CommonL0Options where
  stream : StreamFactory
  fallbackStreams : Option (List StreamFactory)

section Paths

variable (primaryModel : ModelSpec) (execution : ExecutionSpec) (messages : List Message)

/-- The options that `executeText` calls `l0` with. -/
def textOptions : L0Options :=
  { buildCommonL0Options execution with
    stream := .text (buildTextStream primaryModel messages (buildTools execution))
    fallbackStreams := execution.fallbacks.map fun fallbacks => fallbacks.map fun fb =>
      .text (buildTextStream fb.model messages (buildTools execution)) }

/-- The options that `executeStructured` calls `l0` with. -/
def structuredOptions (schema : JsonSchema) : L0Options :=
  { buildCommonL0Options execution with
    stream := .object (primaryStream primaryModel messages schema)
    fallbackStreams := execution.fallbacks.map fun fallbacks => fallbacks.map fun fb =>
      .object (buildStructuredStream fb.model messages schema) }

/-- The operations that `executeParallel` calls `race` or `parallel` with. -/
def parallelOptions (output : OutputSpec) : List L0Options :=
  execution.models.map fun model =>
    { buildCommonL0Options execution with
      stream :=
        match output with
        | .json schema _ => .object (buildStructuredStream model messages schema)
        | .text | .tokens => .text (buildTextStream model messages (buildTools execution))
      fallbackStreams := none }

/-- The factories of a structured call are those its run is about. -/
theorem structuredOptions_streams (schema : JsonSchema) :
    (structuredOptions primaryModel execution messages schema).stream ::
        (structuredOptions primaryModel execution messages schema).fallbackStreams.getD [] =
      (structuredStreams primaryModel execution messages schema).map .object := by
  unfold structuredOptions structuredStreams
  cases execution.fallbacks with
  | none => rfl
  | some fallbacks => simp

end Paths

/-- What the runtime is called with for an order. -/
def runtimeOptions (order : InferenceOrder) (messages : List Message) : List L0Options :=
  match executionPath order with
  | .parallel => parallelOptions order.execution messages order.output
  | .structured primaryModel schema _ =>
      [structuredOptions primaryModel order.execution messages schema]
  | .text primaryModel => [textOptions primaryModel order.execution messages]
  | .noModel => []

/-- An accepted order calls the runtime. -/
theorem runtimeOptions_ne_nil {v : Option Json} {order : InferenceOrder}
    (h : inferenceOrderSchema v = some order) (messages : List Message) :
    runtimeOptions order messages ≠ [] := by
  have hmodels := inferenceOrderSchema_models h
  unfold runtimeOptions executionPath parallelOptions
  split
  · simpa using hmodels
  · simp
  · simp
  · next hpath =>
    split at hpath
    · cases hpath
    · cases hpath
    · cases hpath
    · next hnil => exact absurd hnil hmodels

/-! ## Fallback chains -/

/-- The fallbacks that an order declares. -/
def InferenceOrder.declaredFallbacks (order : InferenceOrder) : List FallbackSpec :=
  order.execution.fallbacks.getD []

/-- The fallbacks that the runtime starts when its streams, one after the other, are
exhausted by these failures: the next one each time, whatever the failure was. -/
def L0Options.startedFallbacks (options : L0Options) (failures : List FallbackWhen) :
    List (StreamFactory × FallbackWhen) :=
  (options.fallbackStreams.getD []).zip failures

/-- The fallback chain of an order is honoured where the runtime is called with these options
and its streams are exhausted by these failures. -/
structure FallbacksHonoured (order : InferenceOrder) (options : L0Options)
    (failures : List FallbackWhen) : Prop where
  /-- The options name all declared fallback models, in order. -/
  declared : (options.fallbackStreams.getD []).map StreamFactory.model =
    order.declaredFallbacks.map FallbackSpec.model
  /-- A fallback is started only after a failure of the kind it names. -/
  triggered : ∀ (i : Nat) (fb : FallbackSpec) (stream : StreamFactory) (failure : FallbackWhen),
    order.declaredFallbacks[i]? = some fb →
    (options.startedFallbacks failures)[i]? = some (stream, failure) → failure = fb.when

/-- Each failure is of the kind that the fallback next in line names. -/
def FailuresMatch (order : InferenceOrder) (failures : List FallbackWhen) : Prop :=
  ∀ (i : Nat) (fb : FallbackSpec) (failure : FallbackWhen), order.declaredFallbacks[i]? = some fb →
    failures[i]? = some failure → failure = fb.when

variable {order : InferenceOrder} {messages : List Message} {options : L0Options}

/-- The text path passes the models of all fallbacks. -/
theorem textOptions_fallbacks (primaryModel : ModelSpec) (execution : ExecutionSpec)
    (messages : List Message) :
    ((textOptions primaryModel execution messages).fallbackStreams.getD []).map
        StreamFactory.model = (execution.fallbacks.getD []).map FallbackSpec.model := by
  unfold textOptions
  cases execution.fallbacks with
  | none => rfl
  | some fallbacks => simp [StreamFactory.model, buildTextStream]

/-- So does the structured path. -/
theorem structuredOptions_fallbacks (primaryModel : ModelSpec) (execution : ExecutionSpec)
    (messages : List Message) (schema : JsonSchema) :
    ((structuredOptions primaryModel execution messages schema).fallbackStreams.getD []).map
        StreamFactory.model = (execution.fallbacks.getD []).map FallbackSpec.model := by
  unfold structuredOptions
  cases execution.fallbacks with
  | none => rfl
  | some fallbacks => simp [StreamFactory.model, buildStructuredStream]

theorem executionPath_eq_parallel_iff :
    executionPath order = .parallel ↔ order.execution.parallel ≠ none := by
  unfold executionPath
  cases order.execution.parallel with
  | some spec => simp
  | none => cases order.output <;> cases order.execution.models <;> simp

/-- An order that runs one model at a time passes its whole chain. -/
theorem fallbackStreams_of_single (hparallel : order.execution.parallel = none)
    (h : options ∈ runtimeOptions order messages) :
    (options.fallbackStreams.getD []).map StreamFactory.model =
      order.declaredFallbacks.map FallbackSpec.model := by
  unfold runtimeOptions at h
  cases hpath : executionPath order with
  | parallel => exact absurd hparallel (executionPath_eq_parallel_iff.mp hpath)
  | structured primaryModel schema strict =>
      rw [hpath] at h
      rw [List.mem_singleton.mp h]
      exact structuredOptions_fallbacks primaryModel order.execution messages schema
  | text primaryModel =>
      rw [hpath] at h
      rw [List.mem_singleton.mp h]
      exact textOptions_fallbacks primaryModel order.execution messages
  | noModel =>
      rw [hpath] at h
      cases h

/-- The race and fan-out paths pass none. -/
theorem fallbackStreams_of_parallel (hparallel : order.execution.parallel ≠ none)
    (h : options ∈ runtimeOptions order messages) : options.fallbackStreams = none := by
  rw [runtimeOptions, executionPath_eq_parallel_iff.mpr hparallel] at h
  obtain ⟨model, -, rfl⟩ := List.mem_map.mp h
  rfl

/-- A fallback chain is honoured exactly when it is empty, or the order runs one model at a
time and the failures are of the kinds that the fallbacks name. -/
theorem fallbacks_honoured_iff (h : options ∈ runtimeOptions order messages)
    (failures : List FallbackWhen) :
    FallbacksHonoured order options failures ↔
      order.declaredFallbacks = [] ∨
        (order.execution.parallel = none ∧ FailuresMatch order failures) := by
  constructor
  · intro hhonoured
    by_cases hparallel : order.execution.parallel = none
    · refine .inr ⟨hparallel, fun i fb failure hfb hfailure => ?_⟩
      have hlength := congrArg List.length (fallbackStreams_of_single hparallel h)
      rw [List.length_map, List.length_map] at hlength
      have hlt : i < (options.fallbackStreams.getD []).length :=
        hlength ▸ (List.getElem?_eq_some_iff.mp hfb).1
      exact hhonoured.triggered i fb _ failure hfb
        (List.getElem?_zip_eq_some.mpr ⟨List.getElem?_eq_getElem hlt, hfailure⟩)
    · have hdeclared := hhonoured.declared
      rw [fallbackStreams_of_parallel hparallel h] at hdeclared
      exact .inl (List.map_eq_nil_iff.mp hdeclared.symm)
  · rintro (hnil | ⟨hparallel, hmatch⟩)
    · refine ⟨?_, fun i fb _ _ hfb => ?_⟩
      · by_cases hparallel : order.execution.parallel = none
        · exact fallbackStreams_of_single hparallel h
        · rw [fallbackStreams_of_parallel hparallel h, hnil]
          rfl
      · rw [hnil] at hfb
        cases hfb
    · refine ⟨fallbackStreams_of_single hparallel h, ?_⟩
      intro i fb stream failure hfb hstarted
      exact hmatch i fb failure hfb (List.getElem?_zip_eq_some.mp hstarted).2

/-- A text order with one fallback, to be used when the model times out. -/
def timeoutFallback : InferenceOrder :=
  ⟨⟨[⟨"openai", "gpt-4o", none⟩], none, none, some [⟨.timeout, ⟨"openai", "gpt-4o-mini", none⟩⟩],
    none, none, none, none⟩, .text⟩

/-- The model times out. -/
theorem fallbacks_honoured_iff_timeout :
    FallbacksHonoured timeoutFallback
        (textOptions ⟨"openai", "gpt-4o", none⟩ timeoutFallback.execution []) [.timeout] ↔
      timeoutFallback.declaredFallbacks = [] ∨
        (timeoutFallback.execution.parallel = none ∧ FailuresMatch timeoutFallback [.timeout]) :=
  have hmem : textOptions ⟨"openai", "gpt-4o", none⟩ timeoutFallback.execution [] ∈
      runtimeOptions timeoutFallback [] := List.mem_cons_self
  fallbacks_honoured_iff hmem [.timeout]

/-- The request of a race of two models with a fallback. -/
def raceRequest : Json :=
  let model : String → Json := fun name => .obj [("provider", .str "openai"), ("model", .str name)]
  .obj [
    ("execution", .obj [
      ("models", .arr [model "gpt-4o", model "gpt-4o-mini"]),
      ("parallel", .obj [("mode", .str "race")]),
      ("fallbacks", .arr [.obj [("when", .str "error"), ("model", model "gpt-4.1-nano")]])]),
    ("output", .obj [("kind", .str "text")])]

/-- Its operations do not name the fallback. -/
theorem race_drops_fallbacks :
    ¬ ∀ (v : Option Json) (order : InferenceOrder) (messages : List Message)
        (options : L0Options) (failures : List FallbackWhen),
        inferenceOrderSchema v = some order → options ∈ runtimeOptions order messages →
        FallbacksHonoured order options failures := by
  intro claim
  have hdeclared :=
    (claim (some raceRequest) _ [⟨.user, "a"⟩] _ [] rfl List.mem_cons_self).declared
  cases hdeclared

end L0Worker.Worker
