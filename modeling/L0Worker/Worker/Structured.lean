import L0Worker.Lib.JsonRoundtrip
import L0Worker.Worker.Events
import L0Worker.Worker.Executor

/-!
# Structured output

An order with JSON output names a schema, and the SDK resolves the promise of a stream only
with a value that conforms to it.  When the promise is rejected, or no stream was started,
`executeStructured` parses the collected text instead, and takes what it gets: the schema is
not looked at again, and neither is `strict`.

`output_conforms_iff` says when the output of a task conforms all the same: the fallback is
not taken, or the text does not parse, or it happens to be a conforming value.
-/

namespace L0Worker.Worker

/-! ## What a call reports -/

/-- The output that call `i` reports with `TASK_COMPLETED`. -/
def Effect.completed? (i : Nat) : Effect → Option String
  | .emitted k (.taskCompleted _ _ _ _ output _) => if k = i then some output else none
  | _ => none

/-- The effect is the report by call `i` that the task failed with the error.  The `emit` of
it may have thrown. -/
def Effect.ReportsFailure (i : Nat) (error : Thrown) : Effect → Prop
  | .emitted k (.taskFailed _ _ failureClass retryable message _)
  | .emitThrew k (.taskFailed _ _ failureClass retryable message _) =>
      k = i ∧ failureOf error = .ok (failureClass, message) ∧ retryable = isRetryable failureClass
  | _ => False

/-- Effects whose events complete no task. -/
theorem not_completed_of_events {o : List Effect}
    (h : AllEvents (fun event => event.isCompleted = false) o) (i : Nat) :
    ∀ e ∈ o, e.completed? i = none := by
  intro e he
  cases e with
  | emitted k event =>
      have hevent := h _ he event rfl
      cases event with
      | taskCompleted => cases hevent
      | _ => rfl
  | _ => rfl

section Pieces

variable (s : Instance) (i k : Nat) (c : Call)

/-- The `catch` block reports an error that it can read. -/
theorem catchBlock_reportsFailure {error : Thrown} (hreadable : error.isReadable = true)
    (env : EmitEnv) : ∃ e ∈ (s.catchBlock i c error env).2, e.ReportsFailure i error := by
  have hcaught := s.catchBlock_caught i c error env
  generalize s.catchBlock i c error env = r at hcaught ⊢
  cases hcaught with
  | unread hfailure =>
      cases hreadable.symm.trans (Thrown.unreadable_of_failureOf hfailure)
  | reported hfailure henv =>
      rw [Instance.reportFailure, Instance.report_returns henv]
      exact ⟨_, List.mem_cons_self, rfl, hfailure, rfl⟩
  | lost hfailure henv =>
      rw [Instance.reportFailure, Instance.report_throws henv]
      exact ⟨_, List.mem_cons_self, rfl, hfailure, rfl⟩

/-- After the executor, `TASK_COMPLETED` carries the content of the result. -/
theorem executorSettled_completed (settings : Settings) (startTime : Int)
    (outcome : Except Thrown ExecutionResult) (turn : Turn) {e : Effect}
    (he : e ∈ (s.executorSettled settings k c startTime outcome turn).2) {output : String}
    (hcompleted : e.completed? i = some output) :
    k = i ∧ ∃ result, outcome = .ok result ∧ result.content = output := by
  have hnot : ∀ {o : List Effect}, AllEvents (fun event => event.isCompleted = false) o →
      e ∉ o := by
    intro o h hmem
    rw [not_completed_of_events h i e hmem] at hcompleted
    cases hcompleted
  cases outcome with
  | error thrown =>
      exact absurd he (hnot (catchBlock_events s k c thrown turn.failed fun _ _ _ _ _ _ => rfl))
  | ok result =>
      unfold Instance.executorSettled at he
      dsimp only at he
      cases hthrows : turn.event.throws with
      | none =>
          rw [hthrows, Instance.report_returns hthrows] at he
          rcases List.mem_cons.mp he with rfl | he
          · obtain ⟨hk, hcontent⟩ := Option.ite_none_right_eq_some.mp hcompleted
            exact ⟨hk, result, rfl, Option.some.inj hcontent⟩
          · obtain rfl := List.mem_singleton.mp he
            cases hcompleted
      | some thrown =>
          rw [hthrows, Instance.report_throws hthrows] at he
          rcases List.mem_append.mp he with he | he
          · obtain rfl := List.mem_singleton.mp he
            cases hcompleted
          · exact absurd he
              (hnot (catchBlock_events _ k c thrown turn.failed fun _ _ _ _ _ _ => rfl))

end Pieces

/-- Only the turn after the executor completes a task. -/
theorem step_completed {settings : Settings} {s s' : Instance} {a : Action} {o : List Effect}
    (hstep : (worker settings).step s a = some (s', o)) {i : Nat} {e : Effect} (he : e ∈ o)
    {output : String} (hcompleted : e.completed? i = some output) :
    ∃ result turn, a = .settle i (.ok result) turn ∧ result.content = output := by
  by_cases hsettle : ∃ k outcome turn, a = .settle k outcome turn
  · obtain ⟨k, outcome, turn, rfl⟩ := hsettle
    cases step_cases hstep with
    | settle outcome turn hc hstart =>
        obtain ⟨rfl, result, rfl, hcontent⟩ :=
          executorSettled_completed s i _ _ settings _ outcome turn he hcompleted
        exact ⟨result, turn, rfl, hcontent⟩
  · have hother : ∀ k outcome turn, a ≠ .settle k outcome turn :=
      fun k outcome turn h => hsettle ⟨k, outcome, turn, h⟩
    rw [not_completed_of_events (step_not_completed hstep hother) i e he] at hcompleted
    cases hcompleted

/-- The turn after an executor that failed reports the failure. -/
theorem step_reportsFailure {settings : Settings} {s s' : Instance} {i : Nat} {error : Thrown}
    {turn : Turn} {o : List Effect} (hreadable : error.isReadable = true)
    (hstep : (worker settings).step s (.settle i (.error error) turn) = some (s', o)) :
    ∃ e ∈ o, e.ReportsFailure i error := by
  cases step_cases hstep with
  | settle outcome turn hc hstart => exact catchBlock_reportsFailure s i _ hreadable turn.failed

/-- In a run, the output of a task that completed is the content of what its executor
resolved to. -/
theorem run_completed {settings : Settings} {s t : Instance} {as : List Action}
    {out : List Effect} (hrun : (worker settings).run s as = some (t, out)) (i : Nat) :
    ∀ e ∈ out, ∀ output, e.completed? i = some output →
      ∃ result turn, .settle i (.ok result) turn ∈ as ∧ result.content = output := by
  refine (worker settings).run_history
    (J := fun (as : List Action) (out : List Effect) (_ : Instance) =>
      ∀ e ∈ out, ∀ output, e.completed? i = some output →
        ∃ result turn, .settle i (.ok result) turn ∈ as ∧ result.content = output)
    ?_ (by simp) hrun
  intro as out u a u' o _ ih hstep e he output hcompleted
  rcases List.mem_append.mp he with he | he
  · obtain ⟨result, turn, hmem, hcontent⟩ := ih e he output hcompleted
    exact ⟨result, turn, List.mem_append_left _ hmem, hcontent⟩
  · obtain ⟨result, turn, rfl, hcontent⟩ := step_completed hstep he hcompleted
    exact ⟨result, turn, by simp, hcontent⟩

/-- In a run, a task whose executor failed is reported to have failed. -/
theorem run_reportsFailure {settings : Settings} {s t : Instance} {as : List Action}
    {out : List Effect} (hrun : (worker settings).run s as = some (t, out)) {i : Nat}
    {error : Thrown} (hreadable : error.isReadable = true) {turn : Turn}
    (hsettle : .settle i (.error error) turn ∈ as) :
    ∃ e ∈ out, e.ReportsFailure i error := by
  refine (worker settings).run_history
    (J := fun (as : List Action) (out : List Effect) (_ : Instance) =>
      .settle i (.error error) turn ∈ as → ∃ e ∈ out, e.ReportsFailure i error)
    ?_ (by simp) hrun hsettle
  intro as out u a u' o _ ih hstep hmem
  rcases List.mem_append.mp hmem with hmem | hmem
  · obtain ⟨e, he, hreports⟩ := ih hmem
    exact ⟨e, List.mem_append_left _ he, hreports⟩
  · obtain rfl := List.mem_singleton.mp hmem
    obtain ⟨e, he, hreports⟩ := step_reportsFailure hreadable hstep
    exact ⟨e, List.mem_append_right _ he, hreports⟩

/-- In a run, a task whose executor can only fail with the error does not complete, and is
reported to have failed once the executor settles. -/
theorem run_fails {settings : Settings} {s t : Instance} {as : List Action} {out : List Effect}
    (hrun : (worker settings).run s as = some (t, out)) {i : Nat} {error : Thrown}
    (hreadable : error.isReadable = true)
    (hsettle : ∀ outcome turn, .settle i outcome turn ∈ as → outcome = .error error) :
    (∀ e ∈ out, e.completed? i = none) ∧
      ∀ outcome turn, .settle i outcome turn ∈ as → ∃ e ∈ out, e.ReportsFailure i error := by
  constructor
  · intro e he
    cases hcompleted : e.completed? i with
    | none => rfl
    | some output =>
        obtain ⟨result, turn, hmem, -⟩ := run_completed hrun i e he output hcompleted
        cases hsettle _ _ hmem
  · intro outcome turn hmem
    obtain rfl := hsettle outcome turn hmem
    exact run_reportsFailure hrun hreadable hmem

/-! ## What the output is -/

/-- A call of the runtime with these factories, where the SDK gives the promises. -/
def StreamRun.Follows (sdk : StreamObjectOptions → ObjectPromise → Prop)
    (streams : List StreamObjectOptions) (r : StreamRun) : Prop :=
  ∀ options object, .started options object ∈ r.events → options ∈ streams ∧ sdk options object

section Conforming

variable (conforms : JsonSchema → Json → Prop) (schema : JsonSchema)

/-- A conforming object was produced: the promise of the last stream resolved to it, or the
streamed text is one. -/
def Produced (r : StreamRun) : Prop :=
  ∃ v, conforms schema v ∧ (r.object? = some (.resolved v) ∨ Json.parse r.text = some v)

/-- The schema is enforced on the output of call `i` in a run. -/
structure Enforced (syntaxError : String → String) (r : StreamRun) (i : Nat) (as : List Action)
    (out : List Effect) : Prop where
  /-- The output of a completed task parses to a conforming value. -/
  completed : ∀ e ∈ out, ∀ output, e.completed? i = some output →
    ∃ v, Json.parse output = some v ∧ conforms schema v
  /-- When the stream ends without a conforming object, `executeStructured` raises an
  `OutputValidationError`, and the task does not complete but is reported to have failed. -/
  failed : r.Ends → ¬ Produced conforms schema r →
    ∃ reason, executeStructured syntaxError r = .error (outputValidationError reason) ∧
      (∀ e ∈ out, e.completed? i = none) ∧
      ∀ outcome turn, .settle i outcome turn ∈ as →
        ∃ e ∈ out, e.ReportsFailure i (outputValidationError reason)

/-- The promise of the last stream resolves, or the streamed text does not parse, or it
parses to a conforming value. -/
def FallbackConforms (r : StreamRun) : Prop :=
  r.Ends → (∀ v, r.object? ≠ some (.resolved v)) →
    ∀ v, Json.parse r.text = some v → conforms schema v

variable {conforms schema} {sdk : StreamObjectOptions → ObjectPromise → Prop}
  {syntaxError : String → String} {r : StreamRun}

/-- Where the promise has not resolved, the text is parsed. -/
theorem validatedOutput_of_rejected (h : ∀ v, r.object? ≠ some (.resolved v)) :
    validatedOutput syntaxError r.collected = parseCollected syntaxError r.text := by
  unfold validatedOutput
  split
  · next v hv => exact absurd hv (h v)
  · rfl
  · rfl

theorem validatedOutput_of_resolved {v : Json} (h : r.object? = some (.resolved v)) :
    validatedOutput syntaxError r.collected = .ok v := by
  have hcollected : r.collected.streamObjectResult = some (.resolved v) := h
  simp [validatedOutput, hcollected]

section Sdk

variable {streams : List StreamObjectOptions}
  (hsdk : ∀ options v, sdk options (.resolved v) → v.WellFormed ∧ conforms options.schema v)
  (hstreams : ∀ options ∈ streams, options.schema = schema) (hr : r.Follows sdk streams)

include hsdk hstreams hr

/-- The value that the last promise resolves to conforms. -/
theorem conforms_of_resolved {v : Json} (h : r.object? = some (.resolved v)) :
    v.WellFormed ∧ conforms schema v := by
  obtain ⟨options, hstarted⟩ := StreamRun.started_of_object h
  obtain ⟨hmem, hresolved⟩ := hr options _ hstarted
  exact hstreams options hmem ▸ hsdk options v hresolved

variable (hfallback : FallbackConforms conforms schema r) (hends : r.Ends)

include hfallback hends

/-- The value that is returned conforms, if that of the fallback does. -/
theorem conforms_of_validatedOutput {v : Json}
    (hv : validatedOutput syntaxError r.collected = .ok v) :
    v.WellFormed ∧ conforms schema v := by
  by_cases hresolved : ∃ w, r.object? = some (.resolved w)
  · obtain ⟨w, hw⟩ := hresolved
    rw [validatedOutput_of_resolved hw] at hv
    cases hv
    exact conforms_of_resolved hsdk hstreams hr hw
  · have hrejected := not_exists.mp hresolved
    rw [validatedOutput_of_rejected hrejected, parseCollected] at hv
    cases hparse : Json.parse r.text with
    | none =>
        rw [hparse] at hv
        cases hv
    | some w =>
        rw [hparse] at hv
        cases hv
        exact ⟨Json.wellFormed_parse hparse, hfallback hends hrejected _ hparse⟩

/-- The content that is returned is the text of a conforming value. -/
theorem conforms_of_executeStructured
    (hwire : ∀ schema v, conforms schema v → v.wire = v) {result : ExecutionResult}
    (hresult : executeStructured syntaxError r = .ok result) :
    ∃ v, Json.parse result.content = some v ∧ conforms schema v := by
  rw [executeStructured_of_ends syntaxError hends] at hresult
  cases hv : validatedOutput syntaxError r.collected with
  | error thrown =>
      rw [hv] at hresult
      cases hresult
  | ok v =>
      rw [hv] at hresult
      cases hresult
      obtain ⟨hv, hconforms⟩ := conforms_of_validatedOutput hsdk hstreams hr hfallback hends hv
      refine ⟨v, ?_, hconforms⟩
      rw [Json.parse_stringify hv, hwire schema v hconforms]

/-- When no conforming object was produced, the text does not parse. -/
theorem executeStructured_of_not_produced (hnot : ¬ Produced conforms schema r) :
    ∃ reason, executeStructured syntaxError r = .error (outputValidationError reason) := by
  have hrejected : ∀ v, r.object? ≠ some (.resolved v) :=
    fun v hv => hnot ⟨v, (conforms_of_resolved hsdk hstreams hr hv).2, .inl hv⟩
  have hparse : Json.parse r.text = none := by
    cases hparse : Json.parse r.text with
    | none => rfl
    | some v => exact absurd ⟨v, hfallback hends hrejected v hparse, .inr hparse⟩ hnot
  rw [executeStructured_of_ends syntaxError hends, validatedOutput_of_rejected hrejected,
    parseCollected, hparse]
  exact ⟨_, rfl⟩

end Sdk

/-- A text that does not conform is returned, so nothing is raised for it. -/
theorem Enforced.fallbackConforms {i : Nat} {as : List Action} {out : List Effect}
    (h : Enforced conforms schema syntaxError r i as out) : FallbackConforms conforms schema r := by
  intro hends hrejected v hparse
  by_contra hnot
  have hproduced : ¬ Produced conforms schema r := by
    rintro ⟨w, hw, hresolved | hw'⟩
    · exact hrejected w hresolved
    · rw [hparse] at hw'
      exact hnot (Option.some.inj hw' ▸ hw)
  obtain ⟨reason, hraised, -⟩ := h.failed hends hproduced
  rw [executeStructured_of_ends syntaxError hends, validatedOutput_of_rejected hrejected,
    parseCollected, hparse] at hraised
  cases hraised

end Conforming

/-- The schema of an order is enforced on its output, in every run of the worker, exactly
when the fallback takes no text that does not conform.  A value with an infinite number
conforms to no schema, and the SDK gives a promise a value of JavaScript that conforms. -/
theorem output_conforms_iff {conforms : JsonSchema → Json → Prop}
    {sdk : StreamObjectOptions → ObjectPromise → Prop} {syntaxError : String → String}
    (hwire : ∀ schema v, conforms schema v → v.wire = v)
    (hsdk : ∀ options v, sdk options (.resolved v) → v.WellFormed ∧ conforms options.schema v)
    {order : InferenceOrder} {payload : TaskPayload} {primaryModel : ModelSpec}
    {schema : JsonSchema} {messages : List Message} {r : StreamRun}
    {other : Except Thrown ExecutionResult}
    (hpath : executionPath order = .structured primaryModel schema true)
    (hmessages : buildMessages payload = .ok messages)
    (hr : r.Follows sdk (structuredStreams primaryModel order.execution messages schema))
    {settings : Settings} {s t : Instance} {as : List Action} {out : List Effect} {i : Nat}
    (hrun : (worker settings).run s as = some (t, out))
    (hsettle : ∀ outcome turn, .settle i outcome turn ∈ as →
      outcome = executeOrder syntaxError order payload r other) :
    Enforced conforms schema syntaxError r i as out ↔ FallbackConforms conforms schema r := by
  have horder : executeOrder syntaxError order payload r other =
      executeStructured syntaxError r := by
    simp [executeOrder, hmessages, hpath]
  rw [horder] at hsettle
  have hstreams : ∀ options ∈
      structuredStreams primaryModel order.execution messages schema, options.schema = schema :=
    fun options hmem => schema_of_mem_structuredStreams hmem
  refine ⟨Enforced.fallbackConforms, fun hfallback => ⟨?_, ?_⟩⟩
  · intro e he output hcompleted
    obtain ⟨result, turn, hmem, rfl⟩ := run_completed hrun i e he output hcompleted
    have hresult : executeStructured syntaxError r = .ok result := (hsettle _ _ hmem).symm
    have hends := ends_of_executeStructured hresult
    exact conforms_of_executeStructured hsdk hstreams hr hfallback hends hwire hresult
  · intro hends hnot
    obtain ⟨reason, hraised⟩ : ∃ reason,
        executeStructured syntaxError r = .error (outputValidationError reason) :=
      executeStructured_of_not_produced hsdk hstreams hr hfallback hends hnot
    refine ⟨reason, hraised, run_fails hrun rfl fun outcome turn hmem => ?_⟩
    exact (hsettle outcome turn hmem).trans hraised

/-- The schema asks for an object.  The promise of the stream is rejected, and the text that
was collected is `null`: the task completes with it. -/
theorem fallback_skips_schema :
    let schema : JsonSchema := [("type", .str "object")]
    let conforms : JsonSchema → Json → Prop := fun schema v => v.wire = v ∧
      (schema.lookup "type" = some (.str "object") → ∃ fields, v = .obj fields)
    let sdk : StreamObjectOptions → ObjectPromise → Prop := fun options object =>
      ∀ v, object = .resolved v → v.WellFormed ∧ conforms options.schema v
    let model : ModelSpec := ⟨"openai", "gpt-4o", none⟩
    let order : InferenceOrder :=
      ⟨⟨[model], none, none, none, none, none, none, none⟩, .json schema true⟩
    let messages : List Message := [⟨.user, "a"⟩]
    let r : StreamRun := ⟨[.started (primaryStream model messages schema) .rejected,
      .yielded "token" (some "nu"), .yielded "token" (some "ll")], none, none, none, none⟩
    let syntaxError : String → String := fun _ => "Unexpected end of JSON input"
    let turn : Turn := ⟨1, ⟨1, none⟩, ⟨1, none⟩⟩
    let as : List Action := [.execute ⟨"t1", some (.obj [("prompt", .str "a")])⟩ turn, .start 0 2,
      .settle 0 (executeOrder syntaxError order ⟨some "a", none⟩ r (.error (.value ""))) turn]
    r.Follows sdk (structuredStreams model order.execution messages schema) ∧
      ∃ s₀ s out, Created s₀ ∧ (worker ⟨0, 0, id⟩).run s₀ as = some (s, out) ∧
        (∃ e ∈ out, e.completed? 0 = some "null") ∧
        ¬ Enforced conforms schema syntaxError r 0 as out := by
  intro schema conforms sdk model order messages r syntaxError turn as
  constructor
  · intro options object hmem
    simp [r] at hmem
    obtain ⟨rfl, rfl⟩ := hmem
    exact ⟨by simp [structuredStreams], by simp [sdk]⟩
  have hnew := created_ofDefaults
  have hcompleted : ((worker ⟨0, 0, id⟩).run .ofDefaults as).map
      (fun p => p.2.findSome? (Effect.completed? 0)) = some (some "null") := by
    decide
  obtain ⟨⟨s, out⟩, hrun, hout⟩ := Option.map_eq_some_iff.mp hcompleted
  obtain ⟨e, he, hcompleted⟩ := List.exists_of_findSome?_eq_some hout
  refine ⟨_, s, out, hnew, hrun, ⟨e, he, hcompleted⟩, fun henforced => ?_⟩
  obtain ⟨v, hv, hconforms⟩ := henforced.completed e he "null" hcompleted
  have hnull : Json.parse "null" = some .null := rfl
  rw [hnull] at hv
  obtain rfl := Option.some.inj hv
  obtain ⟨fields, hfields⟩ := hconforms.2 rfl
  cases hfields

/-- The promise of the primary stream is rejected and that of the fallback resolves to an
object. -/
theorem output_conforms_iff_fallbackModel :
    let schema : JsonSchema := [("type", .str "object")]
    let conforms : JsonSchema → Json → Prop := fun schema v => v.wire = v ∧
      (schema.lookup "type" = some (.str "object") → ∃ fields, v = .obj fields)
    let model : ModelSpec := ⟨"openai", "gpt-4o", none⟩
    let order : InferenceOrder :=
      ⟨⟨[model], none, none, some [⟨.error, model⟩], none, none, none, none⟩, .json schema true⟩
    let messages : List Message := [⟨.user, "a"⟩]
    let r : StreamRun := ⟨[.started (primaryStream model messages schema) .rejected,
      .yielded "token" (some "null"),
      .started (buildStructuredStream model messages schema)
        (.resolved (.obj [("ok", .bool true)]))], none, none, none, none⟩
    let syntaxError : String → String := fun _ => "Unexpected end of JSON input"
    let turn : Turn := ⟨1, ⟨1, none⟩, ⟨1, none⟩⟩
    let as : List Action := [.execute ⟨"t1", some (.obj [("prompt", .str "a")])⟩ turn, .start 0 2,
      .settle 0 (executeOrder syntaxError order ⟨some "a", none⟩ r (.error (.value ""))) turn]
    ∃ s₀ s out, Created s₀ ∧ (worker ⟨0, 0, id⟩).run s₀ as = some (s, out) ∧
      Enforced conforms schema syntaxError r 0 as out := by
  intro schema conforms model order messages r syntaxError turn as
  let sdk : StreamObjectOptions → ObjectPromise → Prop := fun options object =>
    ∀ v, object = .resolved v → v.WellFormed ∧ conforms options.schema v
  have hnew := created_ofDefaults
  have hruns : ((worker ⟨0, 0, id⟩).run .ofDefaults as).isSome = true := by decide
  obtain ⟨⟨s, out⟩, hrun⟩ := Option.isSome_iff_exists.mp hruns
  have hobject : Json.WellFormed (.obj [("ok", .bool true)]) :=
    .obj (List.pairwise_singleton _ _) (by simp [Json.WellFormed.bool])
  have hsdk : ∀ options v, sdk options (.resolved v) →
      v.WellFormed ∧ conforms options.schema v :=
    fun options v h => h v rfl
  have hr : r.Follows sdk (structuredStreams model order.execution messages schema) := by
    intro options object hmem
    simp [r] at hmem
    rcases hmem with ⟨rfl, rfl⟩ | ⟨rfl, rfl⟩
    · exact ⟨by simp [structuredStreams], by simp [sdk]⟩
    · refine ⟨by simp [structuredStreams, order], fun v hv => ?_⟩
      cases hv
      exact ⟨hobject, rfl, fun _ => ⟨_, rfl⟩⟩
  have hsettle : ∀ outcome turn', .settle 0 outcome turn' ∈ as →
      outcome = executeOrder syntaxError order ⟨some "a", none⟩ r (.error (.value "")) := by
    intro outcome turn' hmem
    simp [as] at hmem
    exact hmem.1
  refine ⟨_, s, out, hnew, hrun, (output_conforms_iff (fun schema v h => h.1) hsdk rfl rfl hr
    hrun hsettle).mpr ?_⟩
  exact fun _ hrejected => absurd rfl (hrejected _)

end L0Worker.Worker
