import L0Worker.Lib.Schema

/-!
# Inference orders

What is to be executed and what shape the result must have, with the schemas that read an
order from a request.
-/

namespace L0Worker.Worker

/-! ## The parts of an order -/

/-- A model, by provider and name. -/
structure ModelSpec where
  provider : String
  model : String
  params : Option (List (String × Json))

/-- What is done with several models. -/
inductive ParallelMode where
  | race
  | fanout
deriving Repr, DecidableEq

structure ParallelSpec where
  mode : ParallelMode
  max : Option Number

/-- How the delay between retries grows. -/
inductive Backoff where
  | fixed
  | linear
  | exponential
  | fixedJitter
  | fullJitter
deriving Repr, DecidableEq

structure RetrySpec where
  /-- Errors of the model only. -/
  attempts : Number
  /-- Retries of any kind. -/
  maxRetries : Number
  backoff : Backoff
  baseDelayMs : Option Number
  maxDelayMs : Option Number

/-- When a fallback is meant to be used. -/
inductive FallbackWhen where
  | error
  | timeout
  | outputViolation
deriving Repr, DecidableEq

structure FallbackSpec where
  when : FallbackWhen
  model : ModelSpec

structure TimeoutSpec where
  initialTokenMs : Option Number
  interTokenMs : Option Number

inductive GuardrailPreset where
  | minimal
  | recommended
  | strict
  | jsonOnly
  | markdownOnly
  | latexOnly
deriving Repr, DecidableEq

structure GuardrailSpec where
  preset : Option GuardrailPreset
  checkIntervalMs : Option Number

/-- A JSON schema, which is any object. -/
abbrev JsonSchema := List (String × Json)

structure ToolSpec where
  name : String
  description : Option String
  schema : JsonSchema

structure ExecutionSpec where
  /-- The models in order of preference, at least one. -/
  models : List ModelSpec
  parallel : Option ParallelSpec
  retry : Option RetrySpec
  fallbacks : Option (List FallbackSpec)
  tools : Option (List ToolSpec)
  timeout : Option TimeoutSpec
  guardrails : Option GuardrailSpec
  continueFromLastKnownGoodToken : Option Bool

/-- The shape of the result. -/
inductive OutputSpec where
  | text
  | tokens
  | json (schema : JsonSchema) (strict : Bool)

structure InferenceOrder where
  execution : ExecutionSpec
  output : OutputSpec

/-! ## Their schemas -/

open Schema

def modelSpecSchema : Schema ModelSpec :=
  object fun fields => do
    let provider ← string (fields.lookup "provider")
    let model ← string (fields.lookup "model")
    let params ← (record defined).optional (fields.lookup "params")
    return { provider, model, params }

def parallelSpecSchema : Schema ParallelSpec :=
  object fun fields => do
    let mode ← enum [("race", .race), ("fanout", .fanout)] (fields.lookup "mode")
    let max ← positive.optional (fields.lookup "max")
    return { mode, max }

def retrySpecSchema : Schema RetrySpec :=
  object fun fields => do
    let attempts ← positive (fields.lookup "attempts")
    let maxRetries ← positive (fields.lookup "maxRetries")
    let backoff ← enum [("fixed", .fixed), ("linear", .linear), ("exponential", .exponential),
      ("fixed-jitter", .fixedJitter), ("full-jitter", .fullJitter)] (fields.lookup "backoff")
    let baseDelayMs ← positive.optional (fields.lookup "baseDelayMs")
    let maxDelayMs ← positive.optional (fields.lookup "maxDelayMs")
    return { attempts, maxRetries, backoff, baseDelayMs, maxDelayMs }

def fallbackSpecSchema : Schema FallbackSpec :=
  object fun fields => do
    let when ← enum [("error", .error), ("timeout", .timeout),
      ("output_violation", .outputViolation)] (fields.lookup "when")
    let model ← modelSpecSchema (fields.lookup "model")
    return { when, model }

def timeoutSpecSchema : Schema TimeoutSpec :=
  object fun fields => do
    let initialTokenMs ← positive.optional (fields.lookup "initialTokenMs")
    let interTokenMs ← positive.optional (fields.lookup "interTokenMs")
    return { initialTokenMs, interTokenMs }

def guardrailSpecSchema : Schema GuardrailSpec :=
  object fun fields => do
    let preset ← (enum [("minimal", .minimal), ("recommended", .recommended),
      ("strict", .strict), ("json-only", .jsonOnly), ("markdown-only", .markdownOnly),
      ("latex-only", .latexOnly)]).optional (fields.lookup "preset")
    let checkIntervalMs ← positive.optional (fields.lookup "checkIntervalMs")
    return { preset, checkIntervalMs }

def jsonSchemaSchema : Schema JsonSchema := record defined

def toolSpecSchema : Schema ToolSpec :=
  object fun fields => do
    let name ← string (fields.lookup "name")
    let description ← string.optional (fields.lookup "description")
    let schema ← jsonSchemaSchema (fields.lookup "schema")
    return { name, description, schema }

def executionSpecSchema : Schema ExecutionSpec :=
  object fun fields => do
    let models ← (array modelSpecSchema).check (!·.isEmpty) (fields.lookup "models")
    let parallel ← parallelSpecSchema.optional (fields.lookup "parallel")
    let retry ← retrySpecSchema.optional (fields.lookup "retry")
    let fallbacks ← (array fallbackSpecSchema).optional (fields.lookup "fallbacks")
    let tools ← (array toolSpecSchema).optional (fields.lookup "tools")
    let timeout ← timeoutSpecSchema.optional (fields.lookup "timeout")
    let guardrails ← guardrailSpecSchema.optional (fields.lookup "guardrails")
    let continueFromLastKnownGoodToken ←
      boolean.optional (fields.lookup "continueFromLastKnownGoodToken")
    return { models, parallel, retry, fallbacks, tools, timeout, guardrails,
             continueFromLastKnownGoodToken }

def jsonOutputSchema : Schema OutputSpec :=
  object fun fields => do
    let schema ← jsonSchemaSchema (fields.lookup "schema")
    let strict ← boolean.default true (fields.lookup "strict")
    return .json schema strict

/-- The union discriminated by `kind`. -/
def outputSpecSchema : Schema OutputSpec :=
  object fun fields =>
    match fields.lookup "kind" with
    | some (.str "text") => some .text
    | some (.str "tokens") => some .tokens
    | some (.str "json") => jsonOutputSchema (some (.obj fields))
    | _ => none

def inferenceOrderSchema : Schema InferenceOrder :=
  object fun fields => do
    let execution ← executionSpecSchema (fields.lookup "execution")
    let output ← outputSpecSchema (fields.lookup "output")
    return { execution, output }

/-- An order that is accepted names at least one model. -/
theorem inferenceOrderSchema_models {v : Option Json} {order : InferenceOrder}
    (h : inferenceOrderSchema v = some order) : order.execution.models ≠ [] := by
  obtain ⟨fields, -, h⟩ := object_eq_some_iff.mp h
  obtain ⟨execution, hexecution, h⟩ := Option.bind_eq_some_iff.mp h
  obtain ⟨output, -, h⟩ := Option.bind_eq_some_iff.mp h
  obtain rfl := Option.some.inj h
  obtain ⟨fields, -, hexecution⟩ := object_eq_some_iff.mp hexecution
  obtain ⟨models, hmodels, hexecution⟩ := Option.bind_eq_some_iff.mp hexecution
  have hne : models ≠ [] := by simpa using (check_eq_some_iff.mp hmodels).2
  simp only [Option.bind_eq_bind, Option.bind_eq_some_iff] at hexecution
  obtain ⟨_, -, _, -, _, -, _, -, _, -, _, -, _, -, hexecution⟩ := hexecution
  rw [← Option.some.inj hexecution]
  exact hne

end L0Worker.Worker
