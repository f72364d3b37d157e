import L0Worker.Worker.Options

/-!
# The text and the parallel paths

`executeText` and `executeParallel` in full.  The runtime is the environment: on the text
path it yields the events of its attempts, one attempt after the other as it retries and
falls back, and in the end holds a state; on the race and fan-out paths it consumes the
streams itself, and only the states are seen.

The text path adds up the tokens it sees, while the others read the state.  Both agree when
no attempt before the one that succeeded delivered a token (`text_result_iff`).
-/

namespace L0Worker.Worker

/-! ## States and results -/

/-- The state of the runtime after a stream. -/
structure L0State where
  content : Option String
  tokenCount : Option Number
  inputTokens : Option Number
  outputTokens : Option Number
  /-- The names of the tool calls by their ids, in the order of the calls. -/
  toolCallNames : Option (List (String × String))
  resumed : Bool

/-- A tool call of a result. -/
structure CapturedCall where
  name : String
  args : Json

/-- What the executor resolves to, with what the worker does not read. -/
structure FullResult extends ExecutionResult where
  /-- `none` for `undefined`. -/
  modelUsed : Option ModelSpec
  toolCalls : Option (List CapturedCall)
  resumed : Bool

/-! ## The text path -/

/-- A call of `l0` on the text path and the iteration of its stream. -/
structure TextRun where
  /-- The events the runtime yields, by type and value. -/
  events : List (String × Option String)
  /-- What the runtime throws in the end, `none` where the iteration ends. -/
  throws : Option Thrown
  /-- What the callback `onFirstToken` throws, if it does. -/
  onFirstToken : Option Thrown
  state : L0State

/-- The iteration of the stream, which has the loop of `executeStructured`. -/
def TextRun.stream (r : TextRun) : StreamRun where
  events := r.events.map fun e => .yielded e.1 e.2
  throws := r.throws
  onFirstToken := r.onFirstToken
  inputTokens := r.state.inputTokens
  outputTokens := r.state.outputTokens

/-- The tool calls of a state. -/
def L0State.toolCalls (state : L0State) : List CapturedCall :=
  (state.toolCallNames.getD []).map fun call =>
    ⟨call.2, .obj [("toolCallId", .str call.1)]⟩

/-- `executeText`. -/
def executeText (primaryModel : ModelSpec) (r : TextRun) : Except Thrown FullResult :=
  match r.stream.consume with
  | .error e => .error e
  | .ok c =>
      .ok
        { content := c.content
          tokenCount := .ofNat c.tokenCount
          inputTokens := r.state.inputTokens.getD 0
          outputTokens := r.state.outputTokens.getD (.ofNat c.tokenCount)
          modelUsed := some primaryModel
          toolCalls := if r.state.toolCalls.length > 0 then some r.state.toolCalls else none
          resumed := r.state.resumed }

/-! ## The parallel paths -/

/-- The content of a state, as the parallel paths report it. -/
def L0State.reportedContent (state : L0State) : String := state.content.getD ""

/-- The number of tokens of a state, as the parallel paths report it. -/
def L0State.reportedTokens (state : L0State) : Number := state.tokenCount.getD 0

/-- How `race` ends. -/
structure RaceResult where
  winnerIndex : Nat
  state : L0State

/-- The race mode of `executeParallel`. -/
def executeRace (execution : ExecutionSpec) (onFirstToken : Option Thrown)
    (race : Except Thrown RaceResult) : Except Thrown FullResult :=
  match race with
  | .error e => .error e
  | .ok r =>
      let content := r.state.reportedContent
      let tokenCount := r.state.reportedTokens
      let winnerModel := execution.models[r.winnerIndex]?.or execution.models[0]?
      match (if utf16Length content > 0 then onFirstToken else none) with
      | some e => .error e
      | none =>
          .ok
            { content := content
              tokenCount := tokenCount
              inputTokens := r.state.inputTokens.getD 0
              outputTokens := r.state.outputTokens.getD tokenCount
              modelUsed := winnerModel
              toolCalls := none
              resumed := r.state.resumed }

/-- What the loop over the results of a fan-out adds up. -/
structure FanoutTotals where
  outputs : List String
  totalTokens : Number
  totalInput : Number
  totalOutput : Number

def FanoutTotals.zero : FanoutTotals where
  outputs := []
  totalTokens := 0
  totalInput := 0
  totalOutput := 0

/-- One iteration of the loop.  A result is absent where its operation failed. -/
def FanoutTotals.next (t : FanoutTotals) : Option L0State → FanoutTotals
  | none => { t with outputs := t.outputs ++ [""] }
  | some state =>
      { outputs := t.outputs ++ [state.reportedContent]
        totalTokens := t.totalTokens.add state.reportedTokens
        totalInput := t.totalInput.add (state.inputTokens.getD 0)
        totalOutput := t.totalOutput.add (state.outputTokens.getD state.reportedTokens) }

/-- The fan-out mode of `executeParallel`. -/
def executeFanout (execution : ExecutionSpec) (parallel : Except Thrown (List (Option L0State))) :
    Except Thrown FullResult :=
  match parallel with
  | .error e => .error e
  | .ok results =>
      let totals := results.foldl FanoutTotals.next .zero
      .ok
        { content := (Json.arr (totals.outputs.map .str)).stringify
          tokenCount := totals.totalTokens
          inputTokens := totals.totalInput
          outputTokens := totals.totalOutput
          modelUsed := execution.models[0]?
          toolCalls := none
          resumed := false }

/-! ## Attempts -/

/-- An attempt of the runtime: the model whose stream it reads, and what it yields of it. -/
structure Attempt where
  model : ModelSpec
  events : List (String × Option String)

/-- The tokens an attempt delivers. -/
def Attempt.tokens (a : Attempt) : List String :=
  a.events.filterMap fun e => (StreamEvent.yielded e.1 e.2).token?

/-- The state describes the attempt. -/
structure L0State.Describes (state : L0State) (a : Attempt) : Prop where
  content : state.content = some (String.join a.tokens)
  tokenCount : state.tokenCount = some (.ofNat a.tokens.length)

/-- The result says of the attempt of a model what the parallel paths report of the state. -/
structure FullResult.Describes (result : FullResult) (state : L0State) (model : ModelSpec) :
    Prop where
  content : result.content = state.reportedContent
  tokenCount : result.tokenCount = state.reportedTokens
  modelUsed : result.modelUsed = some model

variable {primaryModel : ModelSpec} {r : TextRun} {result : FullResult}

/-- The result of the text path. -/
theorem executeText_eq_ok_iff :
    executeText primaryModel r = .ok result ↔ r.stream.Ends ∧ result =
      { content := r.stream.text
        tokenCount := .ofNat r.stream.tokens.length
        inputTokens := r.state.inputTokens.getD 0
        outputTokens := r.state.outputTokens.getD (.ofNat r.stream.tokens.length)
        modelUsed := some primaryModel
        toolCalls := if r.state.toolCalls.length > 0 then some r.state.toolCalls else none
        resumed := r.state.resumed } := by
  unfold executeText
  cases hconsume : r.stream.consume with
  | error e =>
      refine iff_of_false (fun h => nomatch h) fun h => ?_
      rw [StreamRun.consume_eq_ok_iff.mpr ⟨h.1, rfl⟩] at hconsume
      cases hconsume
  | ok c =>
      obtain ⟨hends, rfl⟩ := StreamRun.consume_eq_ok_iff.mp hconsume
      constructor
      · intro h
        exact ⟨hends, (Except.ok.inj h).symm⟩
      · rintro ⟨-, rfl⟩
        rfl

/-- The tokens of a run are those of its attempts. -/
theorem TextRun.tokens_of_attempts {attempts : List Attempt}
    (h : r.events = attempts.flatMap Attempt.events) :
    r.stream.tokens = attempts.flatMap Attempt.tokens := by
  unfold StreamRun.tokens TextRun.stream Attempt.tokens
  rw [h, List.filterMap_map, List.filterMap_flatMap]
  rfl

theorem Number.ofNat_inj {m n : Nat} (h : Number.ofNat m = Number.ofNat n) : m = n := by
  injection h with h
  exact_mod_cast h

/-- What `executeText` returns describes the attempt that succeeded exactly when the attempts
before it delivered no token and it ran on the first model. -/
theorem text_result_iff {earlier : List Attempt} {last : Attempt}
    (hevents : r.events = (earlier ++ [last]).flatMap Attempt.events)
    (hstate : r.state.Describes last) (hresult : executeText primaryModel r = .ok result) :
    result.Describes r.state last.model ↔
      (∀ a ∈ earlier, a.tokens = []) ∧ last.model = primaryModel := by
  obtain ⟨-, rfl⟩ := executeText_eq_ok_iff.mp hresult
  have htokens : r.stream.tokens = earlier.flatMap Attempt.tokens ++ last.tokens := by
    rw [TextRun.tokens_of_attempts hevents, List.flatMap_append, List.flatMap_singleton]
  constructor
  · rintro ⟨-, htokenCount, hmodel⟩
    refine ⟨List.flatMap_eq_nil_iff.mp ?_, (Option.some.inj hmodel).symm⟩
    rw [L0State.reportedTokens, hstate.tokenCount, Option.getD_some, htokens,
      List.length_append] at htokenCount
    exact List.length_eq_zero_iff.mp (Nat.add_eq_right.mp (Number.ofNat_inj htokenCount))
  · rintro ⟨hearlier, hmodel⟩
    rw [List.flatMap_eq_nil_iff.mpr hearlier, List.nil_append] at htokens
    refine ⟨?_, ?_, by rw [hmodel]⟩
    · rw [L0State.reportedContent, hstate.content, Option.getD_some, StreamRun.text, htokens]
    · rw [L0State.reportedTokens, hstate.tokenCount, Option.getD_some, htokens]

/-- The first attempt fails before its first token, and the retry succeeds. -/
theorem text_result_iff_retry :
    let model : ModelSpec := ⟨"openai", "gpt-4o", none⟩
    let earlier : List Attempt := [⟨model, [("error", none)]⟩]
    let last : Attempt := ⟨model, [("token", some "Hi"), ("complete", none)]⟩
    let r : TextRun := ⟨[("error", none), ("token", some "Hi"), ("complete", none)], none, none,
      ⟨some "Hi", some 1, none, none, none, false⟩⟩
    ∃ result, executeText model r = .ok result ∧
      (result.Describes r.state last.model ↔
        (∀ a ∈ earlier, a.tokens = []) ∧ last.model = model) := by
  intro model earlier last r
  have hevents : r.events = (earlier ++ [last]).flatMap Attempt.events := rfl
  have hstate : r.state.Describes last := ⟨rfl, rfl⟩
  have hresult : executeText model r =
      .ok ⟨⟨"Hi", .ofNat 1, 0, .ofNat 1⟩, some model, none, false⟩ := rfl
  exact ⟨_, hresult, text_result_iff hevents hstate hresult⟩

/-- The first model fails after a token, and the fallback succeeds: the result has the token
of the one before that of the other, and names the first model. -/
theorem text_result_mixes_attempts :
    ¬ ∀ (primaryModel : ModelSpec) (earlier : List Attempt) (last : Attempt) (r : TextRun)
        (result : FullResult), r.events = (earlier ++ [last]).flatMap Attempt.events →
        r.state.Describes last → executeText primaryModel r = .ok result →
        result.Describes r.state last.model := by
  intro claim
  let first : Attempt := ⟨⟨"openai", "gpt-4o", none⟩, [("token", some "Hel"), ("error", none)]⟩
  let last : Attempt := ⟨⟨"openai", "gpt-4o-mini", none⟩, [("token", some "Hi")]⟩
  let r : TextRun := ⟨[first, last].flatMap Attempt.events, none, none,
    ⟨some "Hi", some 1, none, none, none, false⟩⟩
  have hresult : executeText first.model r =
      .ok ⟨⟨"HelHi", .ofNat 2, 0, .ofNat 2⟩, some first.model, none, false⟩ := rfl
  have hcontent := (claim first.model [first] last r _ rfl ⟨rfl, rfl⟩ hresult).content
  exact absurd hcontent (by decide)

/-! ## The same streams on the parallel paths -/

/-- A race reports the state of the stream that won, and names its model. -/
theorem race_result_describes {execution : ExecutionSpec} {onFirstToken : Option Thrown}
    {race : RaceResult} {model : ModelSpec}
    (hmodel : execution.models[race.winnerIndex]? = some model)
    (hresult : executeRace execution onFirstToken (.ok race) = .ok result) :
    result.Describes race.state model := by
  unfold executeRace at hresult
  dsimp only at hresult
  split at hresult
  · cases hresult
  · obtain rfl := Except.ok.inj hresult
    exact ⟨rfl, rfl, by rw [hmodel]; rfl⟩

/-- A fan-out reports the content of each state at its place. -/
theorem fanout_outputs (results : List (Option L0State)) (t : FanoutTotals) :
    (results.foldl FanoutTotals.next t).outputs =
      t.outputs ++ results.map fun state => (state.map L0State.reportedContent).getD "" := by
  induction results generalizing t with
  | nil => exact (List.append_nil _).symm
  | cons state results ih =>
      rw [List.foldl_cons, ih, List.map_cons]
      cases state with
      | none => exact List.append_assoc ..
      | some state => exact List.append_assoc ..

/-- So a result of a fan-out lists the content of every state, and names the first model. -/
theorem fanout_result_describes {execution : ExecutionSpec} {results : List (Option L0State)}
    (hresult : executeFanout execution (.ok results) = .ok result) :
    result.content = (Json.arr (results.map fun state =>
        .str ((state.map L0State.reportedContent).getD ""))).stringify ∧
      result.modelUsed = execution.models[0]? := by
  obtain rfl := Except.ok.inj hresult
  refine ⟨?_, rfl⟩
  dsimp only
  rw [fanout_outputs, FanoutTotals.zero, List.nil_append, List.map_map]
  rfl

end L0Worker.Worker
