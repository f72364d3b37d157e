import L0Worker.Worker.Callbacks

/-!
# The milestones of a task

A task reports two milestones: its first token, and each tool that its model called.

The text, structured and race paths report the first token once, if there was one.  The
fan-out path never does, although its runtime consumes the streams just as that of a race
does (`first_token_iff`).  The text path captures the tool calls of the runtime and returns
them, but calls no callback for them, so no tool is ever reported (`tool_calls_announced_iff`).
-/

namespace L0Worker.Worker

/-! ## How an execution ends -/

/-- The tokens, without empty ones, of the streams whose result an execution returns. -/
def delivered (order : InferenceOrder) (rt : Runtime) : List String :=
  match order.execution.parallel, executionPath order with
  | some ⟨.race, _⟩, _ =>
      match rt.race with
      | .ok race => race.winner.tokens
      | .error _ => []
  | some ⟨.fanout, _⟩, _ =>
      match rt.parallel with
      | .ok slots => slots.flatMap fun slot => (slot.map Consumed.tokens).getD []
      | .error _ => []
  | none, .structured _ _ _ => rt.structured.tokens
  | none, .text _ => rt.text.stream.tokens
  | none, .parallel | none, .noModel => []

/-- The ways in which an execution can end normally, with its callbacks and its result. -/
inductive EndsNormally (order : InferenceOrder) (rt : Runtime) :
    List ExecutorCall → ExecutionResult → Prop where
  | text {primaryModel : ModelSpec} {result : FullResult}
      (hparallel : order.execution.parallel = none)
      (hpath : executionPath order = .text primaryModel)
      (hresult : executeText primaryModel rt.text = .ok result) :
      EndsNormally order rt (announced rt.text.stream.tokens) result.toExecutionResult
  | structured {primaryModel : ModelSpec} {schema : JsonSchema} {strict : Bool}
      {result : ExecutionResult} (hparallel : order.execution.parallel = none)
      (hpath : executionPath order = .structured primaryModel schema strict)
      (hresult : executeStructured rt.syntaxError rt.structured = .ok result) :
      EndsNormally order rt (announced rt.structured.tokens) result
  | race {max : Option Number} {race : RaceRun} (result : ExecutionResult)
      (hparallel : order.execution.parallel = some ⟨.race, max⟩) (hrace : rt.race = .ok race) :
      EndsNormally order rt (if race.winner.tokens = [] then [] else [.onFirstToken none]) result
  | fanout {max : Option Number} {slots : List (Option Consumed)} (result : ExecutionResult)
      (hparallel : order.execution.parallel = some ⟨.fanout, max⟩)
      (hslots : rt.parallel = .ok slots) :
      EndsNormally order rt [] result

theorem Except.map_eq_ok {ε α β : Type} {f : α → β} {x : Except ε α} {b : β}
    (h : x.map f = .ok b) : ∃ a, x = .ok a ∧ f a = b := by
  cases x with
  | error e => cases h
  | ok a => exact ⟨a, rfl, Except.ok.inj h⟩

theorem endsNormally_of_parallel {order : InferenceOrder} {rt : Runtime} {mode : ParallelMode}
    {max : Option Number} {result : ExecutionResult}
    (hparallel : order.execution.parallel = some ⟨mode, max⟩)
    (h : (executeParallel order.execution rt mode).outcome = .ok result) :
    EndsNormally order rt (executeParallel order.execution rt mode).calls result := by
  cases mode with
  | race =>
      obtain ⟨full, hrace, -⟩ := Except.map_eq_ok h
      obtain ⟨race, hrt, hcalls⟩ := raceCalls_of_ends hrace
      show EndsNormally order rt (raceCalls rt.onFirstToken rt.race) result
      rw [hcalls]
      exact .race result hparallel hrt
  | fanout =>
      obtain ⟨full, hfanout, -⟩ := Except.map_eq_ok h
      cases hslots : rt.parallel with
      | error e =>
          rw [hslots] at hfanout
          cases hfanout
      | ok slots => exact .fanout result hparallel hslots

/-- An execution that resolves has ended in one of these ways. -/
theorem endsNormally_of_outcome {order : InferenceOrder} {payload : TaskPayload} {rt : Runtime}
    {result : ExecutionResult} (h : (performOrder order payload rt).outcome = .ok result) :
    EndsNormally order rt (performOrder order payload rt).calls result := by
  unfold performOrder at h ⊢
  cases hmessages : buildMessages payload with
  | error e =>
      rw [hmessages] at h
      cases h
  | ok messages =>
      rw [hmessages] at h
      dsimp only at h ⊢
      cases hparallel : order.execution.parallel with
      | some parallel =>
          rw [hparallel] at h
          exact endsNormally_of_parallel hparallel h
      | none =>
          rw [hparallel] at h
          cases hpath : executionPath order with
          | text primaryModel =>
              rw [hpath] at h
              obtain ⟨full, hresult, rfl⟩ := Except.map_eq_ok h
              have hcalls := StreamRun.calls_of_ends (executeText_eq_ok_iff.mp hresult).1
              dsimp only
              rw [hcalls]
              exact .text hparallel hpath hresult
          | structured primaryModel schema strict =>
              rw [hpath] at h
              have hcalls := StreamRun.calls_of_ends (ends_of_executeStructured h)
              dsimp only
              rw [hcalls]
              exact .structured hparallel hpath h
          | parallel =>
              rw [hpath] at h
              cases h
          | noModel =>
              rw [hpath] at h
              cases h

/-! ## The first token -/

/-- The first token of an execution with these tokens and callbacks is reported by call `i`
as it should be. -/
structure MilestoneOnce (tokens : List String) (calls : List ExecutorCall) (i : Nat)
    (out : List Effect) : Prop where
  /-- One event if there was a token, and none otherwise. -/
  once : (out.filterMap (Effect.progress? i)).countP (fun p => p.1 = .firstToken) =
    if tokens = [] then 0 else 1
  /-- The event comes before the terminal event. -/
  beforeTerminal : ∃ before after, out = before ++ after ∧
    (∀ e ∈ before, e.call? = some i → e.emitsTerminal = false) ∧
    ∀ p ∈ after.filterMap (Effect.progress? i), p.1 ≠ .firstToken
  /-- The executor announces it before any token. -/
  beforeTokens : ∀ before after token, calls = before ++ .onToken token :: after →
    ∃ throws, .onFirstToken throws ∈ before

/-- The loop of the text and the structured path has collected the tokens. -/
def Collects (order : InferenceOrder) (rt : Runtime) (result : ExecutionResult) : Prop :=
  match order.execution.parallel, executionPath order with
  | none, .text _ =>
      result.content = String.join rt.text.stream.tokens ∧
        result.tokenCount = .ofNat rt.text.stream.tokens.length
  | none, .structured _ _ _ =>
      (∃ c, rt.structured.consume = .ok c ∧ c.content = String.join rt.structured.tokens ∧
        c.tokenCount = rt.structured.tokens.length) ∧
        result.tokenCount = .ofNat rt.structured.tokens.length
  | _, _ => True

theorem progress_announced (tokens : List String) :
    (announced tokens).filterMap ExecutorCall.progress? =
      if tokens = [] then [] else [(.firstToken, none)] := by
  have htokens : (tokens.map ExecutorCall.onToken).filterMap ExecutorCall.progress? = [] := by
    rw [List.filterMap_map, List.filterMap_eq_nil_iff]
    exact fun _ _ => rfl
  cases tokens with
  | nil => rfl
  | cons token tokens =>
      have hfirst : (ExecutorCall.onFirstToken none).progress? = some (.firstToken, none) := rfl
      rw [if_neg (List.cons_ne_nil _ _), announced, List.filterMap_cons_some hfirst, htokens]

theorem onFirstToken_of_announced {tokens : List String} {before after : List ExecutorCall}
    {token : String} (h : announced tokens = before ++ .onToken token :: after) :
    ∃ throws, .onFirstToken throws ∈ before := by
  cases tokens with
  | nil => exact absurd h (by simp [announced])
  | cons t ts =>
      cases before with
      | nil => cases h
      | cons call before =>
          rw [announced, List.cons_append] at h
          obtain ⟨rfl, -⟩ := List.cons.inj h
          exact ⟨none, List.mem_cons_self⟩

variable {settings : Settings} {s₀ s : Instance} {as : List Action} {out : List Effect} {i : Nat}

/-- What call `i` reports when its executor calls callbacks that report this. -/
theorem milestoneOnce_of_progress {x : Execution} {tokens : List String} (hnew : Created s₀)
    (hrun : (worker settings).run s₀ as = some (s, out)) (hperforms : Performs i x as)
    (hprogress : x.calls.filterMap ExecutorCall.progress? =
      if tokens = [] then [] else [(.firstToken, none)])
    (htokens : ∀ before after token, x.calls = before ++ .onToken token :: after →
      ∃ throws, .onFirstToken throws ∈ before) : MilestoneOnce tokens x.calls i out := by
  refine ⟨?_, ?_, htokens⟩
  · rw [(hperforms.progress hrun).1, hprogress]
    split <;> rfl
  · obtain ⟨before, after, hout, hterminal, hafter⟩ :=
      progress_before_terminal hnew hrun hperforms
    refine ⟨before, after, hout, hterminal, ?_⟩
    rw [hafter]
    exact List.forall_mem_nil _

/-- What the callbacks of an execution that ended normally report. -/
structure Announces (order : InferenceOrder) (rt : Runtime) (calls : List ExecutorCall) :
    Prop where
  progress : order.execution.parallel.map ParallelSpec.mode ≠ some .fanout →
    calls.filterMap ExecutorCall.progress? =
      if delivered order rt = [] then [] else [(.firstToken, none)]
  silent : order.execution.parallel.map ParallelSpec.mode = some .fanout → calls = []
  tokens : ∀ before after token, calls = before ++ .onToken token :: after →
    ∃ throws, .onFirstToken throws ∈ before

theorem EndsNormally.announces {order : InferenceOrder} {rt : Runtime}
    {calls : List ExecutorCall} {result : ExecutionResult}
    (h : EndsNormally order rt calls result) : Announces order rt calls := by
  cases h with
  | text hparallel hpath hresult =>
      refine ⟨fun _ => ?_, fun hfanout => ?_, fun _ _ _ => onFirstToken_of_announced⟩
      · simp only [delivered, hparallel, hpath]
        exact progress_announced _
      · rw [hparallel] at hfanout
        cases hfanout
  | structured hparallel hpath hresult =>
      refine ⟨fun _ => ?_, fun hfanout => ?_, fun _ _ _ => onFirstToken_of_announced⟩
      · simp only [delivered, hparallel, hpath]
        exact progress_announced _
      · rw [hparallel] at hfanout
        cases hfanout
  | race result hparallel hrace =>
      refine ⟨fun _ => ?_, fun hfanout => ?_, fun before after token hcalls => ?_⟩
      · simp only [delivered, hparallel, hrace]
        split <;> rfl
      · rw [hparallel] at hfanout
        cases hfanout
      · split at hcalls
        · simp at hcalls
        · cases before with
          | nil => cases hcalls
          | cons call before => simp at hcalls
  | fanout result hparallel hslots =>
      refine ⟨fun hne => ?_, fun _ => rfl, fun before after token hcalls => ?_⟩
      · rw [hparallel] at hne
        exact absurd rfl hne
      · simp at hcalls

theorem EndsNormally.collects {order : InferenceOrder} {rt : Runtime}
    {calls : List ExecutorCall} {result : ExecutionResult}
    (h : EndsNormally order rt calls result) : Collects order rt result := by
  cases h with
  | text hparallel hpath hresult =>
      obtain ⟨-, rfl⟩ := executeText_eq_ok_iff.mp hresult
      simp only [Collects, hparallel, hpath]
      exact ⟨rfl, trivial⟩
  | structured hparallel hpath hresult =>
      have hends := ends_of_executeStructured hresult
      have hcount : result.tokenCount = .ofNat rt.structured.tokens.length := by
        rw [executeStructured_of_ends _ hends] at hresult
        obtain ⟨v, -, rfl⟩ := Except.map_eq_ok hresult
        rfl
      simp only [Collects, hparallel, hpath]
      exact ⟨⟨_, StreamRun.consume_eq_ok_iff.mpr ⟨hends, rfl⟩, rfl, rfl⟩, hcount⟩
  | race result hparallel hrace => simp only [Collects, hparallel]
  | fanout result hparallel hslots => simp only [Collects, hparallel]

/-- The first token of a task whose executor resolved is reported as it should be exactly when
the order is no fan-out, or no token was delivered. -/
theorem first_token_iff {order : InferenceOrder} {payload : TaskPayload} {rt : Runtime}
    {result : ExecutionResult} (hnew : Created s₀)
    (hrun : (worker settings).run s₀ as = some (s, out))
    (hperforms : Performs i (performOrder order payload rt) as)
    (hends : (performOrder order payload rt).outcome = .ok result) :
    MilestoneOnce (delivered order rt) (performOrder order payload rt).calls i out ∧
        Collects order rt result ↔
      order.execution.parallel.map ParallelSpec.mode ≠ some .fanout ∨
        delivered order rt = [] := by
  have hended := endsNormally_of_outcome hends
  obtain ⟨hprogress, hsilent, htokens⟩ := hended.announces
  constructor
  · rintro ⟨hmilestone, -⟩
    by_cases hfanout : order.execution.parallel.map ParallelSpec.mode = some .fanout
    -- a fan-out reports nothing
    · have honce := hmilestone.once
      rw [(hperforms.progress hrun).1, hsilent hfanout] at honce
      by_contra hne
      rw [not_or] at hne
      rw [if_neg hne.2] at honce
      cases honce
    · exact .inl hfanout
  · intro hcondition
    refine ⟨milestoneOnce_of_progress hnew hrun hperforms ?_ htokens, hended.collects⟩
    by_cases hfanout : order.execution.parallel.map ParallelSpec.mode = some .fanout
    · rw [hsilent hfanout, if_pos (hcondition.resolve_left fun hne => hne hfanout)]
      rfl
    · exact hprogress hfanout

/-- A fan-out of one model whose stream delivers a token. -/
theorem fanout_hides_first_token :
    ¬ ∀ (order : InferenceOrder) (payload : TaskPayload) (rt : Runtime) (result : ExecutionResult)
        (settings : Settings) (s₀ s : Instance) (as : List Action) (out : List Effect) (i : Nat),
        Created s₀ → (worker settings).run s₀ as = some (s, out) →
        Performs i (performOrder order payload rt) as →
        (performOrder order payload rt).outcome = .ok result →
        MilestoneOnce (delivered order rt) (performOrder order payload rt).calls i out ∧
          Collects order rt result := by
  intro claim
  let order : InferenceOrder :=
    ⟨⟨[⟨"openai", "gpt-4o", none⟩], some ⟨.fanout, none⟩, none, none, none, none, none, none⟩,
      .text⟩
  let state : L0State := ⟨some "Hi", some 1, none, none, none, false⟩
  let rt : Runtime :=
    { Runtime.silent with parallel := .ok [some ⟨["Hi"], state, by decide, by decide⟩] }
  let x : Execution := performOrder order ⟨some "a", none⟩ rt
  let turn : Turn := ⟨1, ⟨1, none⟩, ⟨1, none⟩⟩
  let as : List Action :=
    [.execute ⟨"t1", some (.obj [("prompt", .str "a")])⟩ turn, .start 0 2, .settle 0 x.outcome turn]
  have hnew := created_ofDefaults
  have hruns : ((worker ⟨0, 0, id⟩).run .ofDefaults as).isSome = true := rfl
  obtain ⟨⟨s, out⟩, hrun⟩ := Option.isSome_iff_exists.mp hruns
  have hperforms : Performs 0 x as := rfl
  obtain ⟨hmilestone, -⟩ := claim order ⟨some "a", none⟩ rt _ _ _ s as out 0 hnew hrun hperforms rfl
  have honce := hmilestone.once
  rw [(hperforms.progress hrun).1] at honce
  cases honce

/-- A text order whose model delivers two tokens. -/
theorem first_token_iff_text :
    let order : InferenceOrder :=
      ⟨⟨[⟨"openai", "gpt-4o", none⟩], none, none, none, none, none, none, none⟩, .text⟩
    let state : L0State := ⟨some "Hi!", some 2, none, none, none, false⟩
    let rt : Runtime := { Runtime.silent with
      text := ⟨[("token", some "Hi"), ("token", some ""), ("token", some "!")], none, none, state⟩ }
    let x : Execution := performOrder order ⟨some "a", none⟩ rt
    let turn : Turn := ⟨1, ⟨1, none⟩, ⟨1, none⟩⟩
    let as : List Action :=
      [.execute ⟨"t1", some (.obj [("prompt", .str "a")])⟩ turn, .start 0 2,
        .callback 0 .onFirstToken ⟨3, none⟩, .settle 0 x.outcome turn, .finish 0]
    ∃ s₀ s out result, Created s₀ ∧ (worker ⟨0, 0, id⟩).run s₀ as = some (s, out) ∧
      MilestoneOnce ["Hi", "!"] x.calls 0 out ∧ Collects order rt result := by
  intro order state rt x turn as
  have hnew := created_ofDefaults
  have hruns : ((worker ⟨0, 0, id⟩).run .ofDefaults as).isSome = true := rfl
  obtain ⟨⟨s, out⟩, hrun⟩ := Option.isSome_iff_exists.mp hruns
  have hperforms : Performs 0 x as := rfl
  have houtcome : x.outcome = .ok ⟨"Hi!", 2, 0, 2⟩ := rfl
  exact ⟨_, s, out, _, hnew, hrun,
    (first_token_iff hnew hrun hperforms houtcome).mpr (.inl (by decide))⟩

/-! ## Tool calls -/

/-- The names of the tool calls that the runtime reports once its stream has ended. -/
def TextRun.reportedTools (r : TextRun) : List String :=
  match r.stream.consume with
  | .ok _ => (r.state.toolCallNames.getD []).map Prod.snd
  | .error _ => []

/-- The names of the tools that were invoked. -/
def toolNames (ps : List Progress) : List String :=
  ps.filterMap fun p => if p.1 = .toolInvoked then p.2.map ToolCall.toolName else none

/-- Call `i` announces tool calls of these names, in order. -/
structure ToolsAnnounced (names : List String) (i : Nat) (out : List Effect) : Prop where
  emitted : toolNames (out.filterMap (Effect.progress? i)) = names
  recorded : toolNames (out.filterMap (Effect.recordedProgress? i)) = names
  /-- The events come before the terminal event. -/
  beforeTerminal : ∃ before after, out = before ++ after ∧
    (∀ e ∈ before, e.call? = some i → e.emitsTerminal = false) ∧
    toolNames (after.filterMap (Effect.progress? i)) = []

/-- The loop over a stream does not know `onToolCall`. -/
theorem toolNames_loop (onFirstToken : Option Thrown) (c : Collected)
    (events : List StreamEvent) :
    toolNames ((c.loop onFirstToken events).1.filterMap ExecutorCall.progress?) = [] := by
  have hcalls : ∀ (c : Collected) (e : StreamEvent),
      toolNames ((c.next onFirstToken e).1.filterMap ExecutorCall.progress?) = [] := by
    intro c e
    cases htoken : e.token? with
    | none => rw [c.next_of_not_token htoken]; rfl
    | some token =>
        rw [(c.next_of_token onFirstToken htoken).2]
        cases c.firstTokenEmitted with
        | true => rfl
        | false => cases onFirstToken <;> rfl
  induction events generalizing c with
  | nil => rfl
  | cons e events ih =>
      have hnext := hcalls c e
      rw [Collected.loop]
      generalize c.next onFirstToken e = next at hnext
      obtain ⟨calls, result⟩ := next
      cases result with
      | error thrown => exact hnext
      | ok c =>
          rw [toolNames] at hnext
          rw [toolNames, List.filterMap_append, List.filterMap_append, hnext]
          exact ih c

theorem performOrder_of_text {order : InferenceOrder} {payload : TaskPayload}
    {messages : List Message} {primaryModel : ModelSpec} (rt : Runtime)
    (hmessages : buildMessages payload = .ok messages)
    (hpath : executionPath order = .text primaryModel) :
    performOrder order payload rt =
      { calls := rt.text.stream.calls
        outcome := (executeText primaryModel rt.text).map FullResult.toExecutionResult } := by
  have hparallel : order.execution.parallel = none := by
    cases h : order.execution.parallel with
    | none => rfl
    | some parallel =>
        rw [executionPath_eq_parallel_iff.mpr (by rw [h]; exact Option.some_ne_none _)] at hpath
        cases hpath
  unfold performOrder
  rw [hmessages]
  dsimp only
  rw [hparallel, hpath]

/-- A text order has its tool calls announced exactly when the runtime reports none. -/
theorem tool_calls_announced_iff {order : InferenceOrder} {payload : TaskPayload}
    {messages : List Message} {primaryModel : ModelSpec} {rt : Runtime} (hnew : Created s₀)
    (hrun : (worker settings).run s₀ as = some (s, out))
    (hmessages : buildMessages payload = .ok messages)
    (hpath : executionPath order = .text primaryModel)
    (hperforms : Performs i (performOrder order payload rt) as) :
    ToolsAnnounced rt.text.reportedTools i out ↔ rt.text.reportedTools = [] := by
  obtain ⟨hemitted, hrecorded⟩ := hperforms.progress hrun
  rw [performOrder_of_text rt hmessages hpath] at hemitted hrecorded
  have hnone : toolNames (rt.text.stream.calls.filterMap ExecutorCall.progress?) = [] :=
    toolNames_loop _ _ _
  rw [← hemitted] at hnone
  constructor
  · intro h
    exact h.emitted.symm.trans hnone
  · intro h
    rw [h]
    refine ⟨hnone, ?_, ?_⟩
    · rw [hrecorded, ← hemitted]
      exact hnone
    · obtain ⟨before, after, hout, hterminal, hafter⟩ :=
        progress_before_terminal hnew hrun hperforms
      exact ⟨before, after, hout, hterminal, by rw [hafter]; rfl⟩

/-- A text order with one tool. -/
def weatherOrder : InferenceOrder :=
  ⟨⟨[⟨"openai", "gpt-4o-mini", none⟩], none, none, none,
    some [⟨"get_weather", none, [("type", .str "object")]⟩], none, none, none⟩, .text⟩

/-- The model calls the tool. -/
theorem tool_call_not_announced :
    ¬ ∀ (order : InferenceOrder) (payload : TaskPayload) (messages : List Message)
        (primaryModel : ModelSpec) (rt : Runtime) (settings : Settings) (s₀ s : Instance)
        (as : List Action) (out : List Effect) (i : Nat), Created s₀ →
        (worker settings).run s₀ as = some (s, out) → buildMessages payload = .ok messages →
        executionPath order = .text primaryModel →
        Performs i (performOrder order payload rt) as →
        ToolsAnnounced rt.text.reportedTools i out := by
  intro claim
  let state : L0State :=
    ⟨some "", some 0, none, none, some [("call_1", "get_weather")], false⟩
  let rt : Runtime := { Runtime.silent with text := ⟨[("complete", none)], none, none, state⟩ }
  let x : Execution := performOrder weatherOrder ⟨some "a", none⟩ rt
  let turn : Turn := ⟨1, ⟨1, none⟩, ⟨1, none⟩⟩
  let as : List Action :=
    [.execute ⟨"t1", some (.obj [("prompt", .str "a")])⟩ turn, .start 0 2, .settle 0 x.outcome turn]
  have hnew := created_ofDefaults
  have hruns : ((worker ⟨0, 0, id⟩).run .ofDefaults as).isSome = true := rfl
  obtain ⟨⟨s, out⟩, hrun⟩ := Option.isSome_iff_exists.mp hruns
  have hperforms : Performs 0 x as := rfl
  have hannounced := (claim weatherOrder ⟨some "a", none⟩ _ _ rt _ _ s as out 0 hnew hrun rfl rfl
    hperforms).emitted
  rw [(hperforms.progress hrun).1] at hannounced
  cases hannounced

/-- The model answers without the tool. -/
theorem tool_calls_announced_iff_unused :
    let state : L0State := ⟨some "Hi", some 1, none, none, none, false⟩
    let rt : Runtime := { Runtime.silent with text := ⟨[("token", some "Hi")], none, none, state⟩ }
    let x : Execution := performOrder weatherOrder ⟨some "a", none⟩ rt
    let turn : Turn := ⟨1, ⟨1, none⟩, ⟨1, none⟩⟩
    let as : List Action :=
      [.execute ⟨"t1", some (.obj [("prompt", .str "a")])⟩ turn, .start 0 2,
        .callback 0 .onFirstToken ⟨3, none⟩, .settle 0 x.outcome turn]
    ∃ s₀ s out, Created s₀ ∧ (worker ⟨0, 0, id⟩).run s₀ as = some (s, out) ∧
      ToolsAnnounced [] 0 out := by
  intro state rt x turn as
  have hnew := created_ofDefaults
  have hruns : ((worker ⟨0, 0, id⟩).run .ofDefaults as).isSome = true := rfl
  obtain ⟨⟨s, out⟩, hrun⟩ := Option.isSome_iff_exists.mp hruns
  have hperforms : Performs 0 x as := rfl
  exact ⟨_, s, out, hnew, hrun,
    (tool_calls_announced_iff hnew hrun rfl rfl hperforms).mpr rfl⟩

end L0Worker.Worker
