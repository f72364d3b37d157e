import L0Worker.Lib.JsonRoundtrip
import L0Worker.Lib.NumberSum
import L0Worker.Worker.Callbacks

/-!
# Fan-out

What a fan-out makes of the results of its models.  The loop keeps a place for every model
(`fanout_aggregates`): a model that failed contributes an empty string and no tokens.  The
totals are rounded as they are added up, so they are exact only where they stay small enough.
The executor resolves even when all models failed, and then the task completes with a list of
empty strings (`fanout_failure_iff`).
-/

namespace L0Worker.Worker

/-! ## The totals -/

/-- The content of a slot, empty where the operation failed. -/
def slotContent (slot : Option L0State) : String :=
  (slot.map L0State.reportedContent).getD ""

/-- The input tokens of a state. -/
def L0State.reportedInput (state : L0State) : Number := state.inputTokens.getD 0

/-- The output tokens of a state, by default its tokens. -/
def L0State.reportedOutput (state : L0State) : Number :=
  state.outputTokens.getD state.reportedTokens

/-- A result contributes its counts, and a failed operation none. -/
theorem foldl_next (results : List (Option L0State)) (t : FanoutTotals) :
    results.foldl FanoutTotals.next t =
      { outputs := t.outputs ++ results.map slotContent
        totalTokens :=
          (results.filterMap (Option.map L0State.reportedTokens)).foldl .add t.totalTokens
        totalInput :=
          (results.filterMap (Option.map L0State.reportedInput)).foldl .add t.totalInput
        totalOutput :=
          (results.filterMap (Option.map L0State.reportedOutput)).foldl .add t.totalOutput } := by
  induction results generalizing t with
  | nil => simp
  | cons slot results ih =>
      rw [List.foldl_cons, ih]
      cases slot with
      | none => simp [FanoutTotals.next, slotContent]
      | some state =>
          simp [FanoutTotals.next, slotContent, L0State.reportedInput, L0State.reportedOutput]

/-! ## The aggregated content -/

/-- A list of strings is read back from its text. -/
theorem parse_strings (outputs : List String) :
    Json.parse (Json.arr (outputs.map .str)).stringify = some (.arr (outputs.map .str)) := by
  have hformed : (Json.arr (outputs.map .str)).WellFormed := by
    refine .arr (List.forall_mem_map.mpr fun output _ => .str output)
  rw [Json.parse_stringify hformed, Json.wire, Json.wireItems_eq, List.map_map]
  rfl

/-- The result has the contents of the slots, in the order of the models, and the totals of
the counts of the results that are there. -/
structure Aggregates (execution : ExecutionSpec) (results : List (Option L0State))
    (IsTotal : Number → List Number → Prop) (result : FullResult) : Prop where
  content : ∃ outputs : List String,
    Json.parse result.content = some (.arr (outputs.map .str)) ∧
      outputs.length = execution.models.length ∧
      ∀ (i : ℕ) (slot : Option L0State), results[i]? = some slot →
        outputs[i]? = some (slotContent slot)
  tokenCount : IsTotal result.tokenCount (results.filterMap (Option.map L0State.reportedTokens))
  inputTokens : IsTotal result.inputTokens (results.filterMap (Option.map L0State.reportedInput))
  outputTokens :
    IsTotal result.outputTokens (results.filterMap (Option.map L0State.reportedOutput))

/-- A fan-out whose models left one slot each resolves to the contents of the slots and to the
totals of the counts. -/
theorem fanout_aggregates {execution : ExecutionSpec} {results : List (Option L0State)}
    (hslots : results.length = execution.models.length) :
    ∃ result, executeFanout execution (.ok results) = .ok result ∧
      Aggregates execution results Number.IsTotal result := by
  have htotals := foldl_next results .zero
  refine ⟨_, rfl, ⟨results.map slotContent, ?_, by rw [List.length_map, hslots], ?_⟩, ?_, ?_, ?_⟩
  · dsimp only
    rw [htotals]
    exact parse_strings _
  · intro i slot hslot
    rw [List.getElem?_map, hslot]
    rfl
  all_goals
    dsimp only
    rw [htotals]
    exact Number.isTotal_sum _

/-- The first of three models failed, and the last did not count its output tokens. -/
theorem fanout_aggregates_oneFailure :
    let model : ModelSpec := ⟨"openai", "gpt-4o", none⟩
    let execution : ExecutionSpec :=
      ⟨[model, model, model], some ⟨.fanout, none⟩, none, none, none, none, none, none⟩
    let results : List (Option L0State) :=
      [none, some ⟨some "a\nb", some 2, some 5, some 1, none, false⟩,
        some ⟨none, some 3, none, none, none, false⟩]
    ∃ result, executeFanout execution (.ok results) = .ok result ∧
      Aggregates execution results Number.IsTotal result ∧ result.outputTokens = .ofNat 4 := by
  intro model execution results
  have hslots : results.length = execution.models.length := rfl
  obtain ⟨result, hresult, haggregates⟩ := fanout_aggregates hslots
  refine ⟨result, hresult, haggregates, ?_⟩
  have htotal : Number.IsTotal result.outputTokens ([1, 3].map Number.ofNat) :=
    haggregates.outputTokens
  exact htotal.of_counts (by norm_num)

/-- The total is the sum of the counts, where these are finite. -/
def IsSum (total : Number) (counts : List Number) : Prop :=
  ∀ vs : List ℚ, counts = vs.map .finite → total = .finite vs.sum

/-- Two results, one of which has `2 ^ 53` tokens and the other one more: the last token is
not counted. -/
theorem fanout_rounds :
    let model : ModelSpec := ⟨"openai", "gpt-4o", none⟩
    let execution : ExecutionSpec :=
      ⟨[model, model], some ⟨.fanout, none⟩, none, none, none, none, none, none⟩
    let results : List (Option L0State) :=
      [some ⟨none, some (.ofNat (2 ^ 53)), none, none, none, false⟩,
        some ⟨none, some 1, none, none, none, false⟩]
    ¬ ∃ result, executeFanout execution (.ok results) = .ok result ∧
      Aggregates execution results IsSum result := by
  rintro model execution results ⟨result, hresult, haggregates⟩
  have htokens := haggregates.tokenCount [2 ^ 53, 1] (by decide +kernel)
  obtain rfl := Except.ok.inj hresult
  have hrounded : (results.foldl FanoutTotals.next .zero).totalTokens = .ofNat (2 ^ 53) := by
    decide +kernel
  rw [hrounded] at htokens
  exact absurd htokens (by decide +kernel)

/-! ## The end of the task -/

/-- The task of call `i` ends in `TASK_COMPLETED`. -/
def Completes (i : Nat) (out : List Effect) : Prop :=
  ∃ event, .emitted i event ∈ out ∧ event.isCompleted = true

/-- The task of call `i` ends in `TASK_FAILED`. -/
def Fails (i : Nat) (out : List Effect) : Prop :=
  ∃ event, .emitted i event ∈ out ∧ event.isFailed = true

section Runs

variable {settings : Settings} {s₀ s : Instance} {as : List Action} {out : List Effect} {i : Nat}

/-- A task does not end twice. -/
theorem not_completes_and_fails (hnew : Created s₀)
    (hrun : (worker settings).run s₀ as = some (s, out)) : ¬ (Completes i out ∧ Fails i out) := by
  rintro ⟨⟨event, hevent, hcompleted⟩, ⟨event', hevent', hfailed⟩⟩
  have hcount := run_endings hnew hrun i
  have hle : (s.stage i).endings ≤ 1 := by
    unfold Stage.endings
    split <;> omega
  rw [List.countP_eq_length_filter] at hcount
  have hmem : ∀ {event : OutboundEvent}, .emitted i event ∈ out → event.isTerminal = true →
      .emitted i event ∈ (outputsOf Effect.call? i out).filter Effect.emitsTerminal :=
    fun hout hterminal => List.mem_filter.mpr ⟨mem_outputsOf_call.mpr ⟨hout, rfl⟩, hterminal⟩
  have heq := hmem hevent (OutboundEvent.isTerminal_of_completed hcompleted)
  have heq' := hmem hevent' (OutboundEvent.isTerminal_of_failed hfailed)
  obtain ⟨e, he⟩ := List.length_eq_one_iff.mp
    (le_antisymm (hcount ▸ hle) (List.length_pos_of_mem heq))
  rw [he] at heq heq'
  rw [← List.mem_singleton.mp heq] at heq'
  obtain ⟨-, rfl⟩ := Effect.emitted.inj (List.mem_singleton.mp heq')
  cases event' with
  | taskFailed => cases hcompleted
  | _ => cases hfailed

/-- The turn comes to the `catch` block with an error that can be read, and the `emit` there
returns. -/
def Turn.ReportsThrow (turn : Turn) : Prop :=
  (∃ e, turn.event.throws = some e ∧ e.isReadable = true) ∧ turn.failed.throws = none

/-- How the turn after an executor that resolved ends the task. -/
theorem executorSettled_ends (s : Instance) (i : Nat) (c : Call) (settings : Settings)
    (startTime : Int) (result : ExecutionResult) (turn : Turn) :
    let o := (s.executorSettled settings i c startTime (.ok result) turn).2
    (turn.event.throws = none ∧ Completes i o) ∨
      (turn.event.throws ≠ none ∧ turn.ReportsThrow ∧ Fails i o) ∨
      (turn.event.throws ≠ none ∧ ¬ turn.ReportsThrow ∧
        ∃ e ∈ o, e.call? = some i ∧ e.losesTerminal = true) := by
  unfold Instance.executorSettled
  dsimp only
  cases hevent : turn.event.throws with
  | none =>
      rw [Instance.report_returns hevent]
      exact .inl ⟨rfl, _, List.mem_cons_self, rfl⟩
  | some e =>
      refine .inr ?_
      dsimp only
      generalize (s.report i c.taskId _ turn.event).1 = u
      have hcaught := u.catchBlock_caught i c e turn.failed
      generalize u.catchBlock i c e turn.failed = r at hcaught ⊢
      cases hcaught with
      | unread hfailure =>
          refine .inr ⟨Option.some_ne_none e, ?_, .catchThrew i,
            List.mem_append_right _ List.mem_cons_self, rfl, rfl⟩
          rintro ⟨⟨e', he', hreadable⟩, -⟩
          obtain rfl := Option.some.inj (hevent.symm.trans he')
          cases hreadable.symm.trans (Thrown.unreadable_of_failureOf hfailure)
      | reported hfailure henv =>
          rw [Instance.reportFailure, Instance.report_returns henv]
          have hreadable := Thrown.readable_of_failureOf hfailure
          exact .inl ⟨Option.some_ne_none e, ⟨⟨e, hevent, hreadable⟩, henv⟩, _,
            List.mem_append_right _ List.mem_cons_self, rfl⟩
      | @lost failureClass message thrown hfailure henv =>
          rw [Instance.reportFailure, Instance.report_throws henv]
          refine .inr ⟨Option.some_ne_none e, fun h => ?_, _,
            List.mem_append_right _ (List.mem_append_left _ List.mem_cons_self), rfl, rfl⟩
          cases henv.symm.trans h.2

/-- A task whose terminal event was lost does not end in one. -/
theorem not_ends_of_loses (hnew : Created s₀)
    (hrun : (worker settings).run s₀ as = some (s, out))
    (hloses : ∃ e ∈ out, e.call? = some i ∧ e.losesTerminal = true) :
    ∀ event, .emitted i event ∈ out → event.isTerminal = false := by
  intro event hevent
  obtain ⟨e, he, hcall, hlost⟩ := hloses
  have hlosses := run_losses hnew hrun i
  have hpos := List.countP_pos_iff.mpr ⟨e, mem_outputsOf_call.mpr ⟨he, hcall⟩, hlost⟩
  have hzero : (s.stage i).endings = 0 := by
    rw [hlosses] at hpos
    unfold Stage.losses at hpos
    split at hpos
    · next h => rw [h]; rfl
    · next h => rw [h]; rfl
    · next h => rw [h]; rfl
    · cases hpos
  have hcount := (run_endings hnew hrun i).trans hzero
  have hnot := List.countP_eq_zero.mp hcount _ (mem_outputsOf_call.mpr ⟨hevent, rfl⟩)
  exact Bool.eq_false_iff.mpr hnot

/-- How a task ends whose executor resolved. -/
theorem ends_of_settle {result : ExecutionResult} {turn : Turn} (hnew : Created s₀)
    (hrun : (worker settings).run s₀ as = some (s, out))
    (hsettle : .settle i (.ok result) turn ∈ as) :
    (Completes i out ↔ turn.event.throws = none) ∧
      (Fails i out ↔ turn.ReportsThrow) := by
  obtain ⟨u, v, o, hstep, hout⟩ := Machine.run_step_of_mem _ hrun hsettle
  have hnot : ¬ (Completes i out ∧ Fails i out) := not_completes_and_fails hnew hrun
  cases step_cases hstep with
  | @settle _ c startTime _ _ hc hstart =>
      rcases executorSettled_ends u i c settings startTime result turn with
        ⟨hevent, event, hemitted, hkind⟩ | ⟨hevent, hreports, event, hemitted, hkind⟩ |
          ⟨hevent, hreports, e, he, hlost⟩
      · have hcompletes : Completes i out := ⟨event, hout _ hemitted, hkind⟩
        refine ⟨iff_of_true hcompletes hevent,
          iff_of_false (fun h => hnot ⟨hcompletes, h⟩) ?_⟩
        rintro ⟨⟨e, he, -⟩, -⟩
        cases hevent.symm.trans he
      · have hfails : Fails i out := ⟨event, hout _ hemitted, hkind⟩
        exact ⟨iff_of_false (fun h => hnot ⟨h, hfails⟩) hevent, iff_of_true hfails hreports⟩
      · have hnone := not_ends_of_loses hnew hrun ⟨e, hout e he, hlost⟩
        refine ⟨iff_of_false ?_ hevent, iff_of_false ?_ hreports⟩
        · rintro ⟨event, hemitted, hkind⟩
          have hterminal := OutboundEvent.isTerminal_of_completed hkind
          rw [hnone event hemitted] at hterminal
          cases hterminal
        · rintro ⟨event, hemitted, hkind⟩
          have hterminal := OutboundEvent.isTerminal_of_failed hkind
          rw [hnone event hemitted] at hterminal
          cases hterminal

/-- The task of a fan-out fails when none of its models has a result. -/
structure FailsWithoutResult (slots : List (Option Consumed)) (i : Nat) (out : List Effect) :
    Prop where
  completed : Completes i out → ∃ slot ∈ slots, slot.isSome = true
  failed : (∀ slot ∈ slots, slot = none) → Fails i out

theorem performOrder_of_fanout {order : InferenceOrder} {payload : TaskPayload}
    {messages : List Message} {max : Option Number} {rt : Runtime}
    {slots : List (Option Consumed)} (hmessages : buildMessages payload = .ok messages)
    (hparallel : order.execution.parallel = some ⟨.fanout, max⟩)
    (hslots : rt.parallel = .ok slots) :
    ∃ result, (performOrder order payload rt).outcome = .ok result := by
  unfold performOrder
  rw [hmessages]
  dsimp only
  rw [hparallel]
  simp only [executeParallel, hslots]
  exact ⟨_, rfl⟩

/-- It does exactly when a model has a result, or the completion cannot be sent but the failure
can. -/
theorem fanout_failure_iff {order : InferenceOrder} {payload : TaskPayload}
    {messages : List Message} {max : Option Number} {rt : Runtime}
    {slots : List (Option Consumed)} {turn : Turn} (hnew : Created s₀)
    (hrun : (worker settings).run s₀ as = some (s, out))
    (hmessages : buildMessages payload = .ok messages)
    (hparallel : order.execution.parallel = some ⟨.fanout, max⟩)
    (hslots : rt.parallel = .ok slots)
    (hsettle : .settle i (performOrder order payload rt).outcome turn ∈ as) :
    FailsWithoutResult slots i out ↔
      (∃ slot ∈ slots, slot.isSome = true) ∨ turn.ReportsThrow := by
  obtain ⟨result, hresult⟩ := performOrder_of_fanout hmessages hparallel hslots
  rw [hresult] at hsettle
  obtain ⟨hcompletes, hfails⟩ := ends_of_settle hnew hrun hsettle
  constructor
  · intro h
    by_cases hsome : ∃ slot ∈ slots, slot.isSome = true
    · exact .inl hsome
    · refine .inr (hfails.mp (h.failed fun slot hslot => ?_))
      exact Option.not_isSome_iff_eq_none.mp fun hslot' => hsome ⟨slot, hslot, hslot'⟩
  · rintro (⟨slot, hslot, hsome⟩ | hthrows)
    · refine ⟨fun _ => ⟨slot, hslot, hsome⟩, fun hall => ?_⟩
      rw [hall slot hslot] at hsome
      cases hsome
    · refine ⟨fun h => ?_, fun _ => hfails.mpr hthrows⟩
      obtain ⟨⟨e, he, -⟩, -⟩ := hthrows
      cases (hcompletes.mp h).symm.trans he

end Runs

/-- Two models, both of which fail: the task completes with two empty strings. -/
theorem fanout_completes_without_result :
    ¬ ∀ (order : InferenceOrder) (payload : TaskPayload) (messages : List Message)
        (max : Option Number) (rt : Runtime) (slots : List (Option Consumed))
        (settings : Settings) (s₀ s : Instance) (as : List Action) (out : List Effect) (i : Nat)
        (turn : Turn), Created s₀ → (worker settings).run s₀ as = some (s, out) →
        buildMessages payload = .ok messages →
        order.execution.parallel = some ⟨.fanout, max⟩ → rt.parallel = .ok slots →
        .settle i (performOrder order payload rt).outcome turn ∈ as →
        FailsWithoutResult slots i out := by
  intro claim
  let order : InferenceOrder :=
    ⟨⟨[⟨"openai", "gpt-4o", none⟩, ⟨"openai", "gpt-4o-mini", none⟩], some ⟨.fanout, some 2⟩, none,
      none, none, none, none, none⟩, .text⟩
  let rt : Runtime := { Runtime.silent with parallel := .ok [none, none] }
  let turn : Turn := ⟨1, ⟨1, none⟩, ⟨1, none⟩⟩
  let as : List Action :=
    [.execute ⟨"t1", some (.obj [("prompt", .str "a")])⟩ turn, .start 0 2,
      .settle 0 (performOrder order ⟨some "a", none⟩ rt).outcome turn]
  have hnew := created_ofDefaults
  have hruns : ((worker ⟨0, 0, id⟩).run .ofDefaults as).isSome = true := rfl
  obtain ⟨⟨s, out⟩, hrun⟩ := Option.isSome_iff_exists.mp hruns
  have hsettle : .settle 0 (performOrder order ⟨some "a", none⟩ rt).outcome turn ∈ as :=
    List.mem_cons_of_mem _ (List.mem_cons_of_mem _ List.mem_cons_self)
  have hfails := (claim order ⟨some "a", none⟩ _ _ rt _ _ _ s as out 0 turn hnew hrun rfl rfl rfl
    hsettle).failed (by simp)
  have houtcome : (performOrder order ⟨some "a", none⟩ rt).outcome =
      .ok ⟨"[\"\",\"\"]", 0, 0, 0⟩ := rfl
  rw [houtcome] at hsettle
  obtain ⟨⟨e, he, -⟩, -⟩ := (ends_of_settle hnew hrun hsettle).2.mp hfails
  cases he

/-- Two models, one of which fails. -/
theorem fanout_failure_iff_oneResult :
    let order : InferenceOrder :=
      ⟨⟨[⟨"openai", "gpt-4o", none⟩, ⟨"openai", "gpt-4o-mini", none⟩], some ⟨.fanout, some 2⟩, none,
        none, none, none, none, none⟩, .text⟩
    let state : L0State := ⟨some "Hi", some 1, none, none, none, false⟩
    let slots : List (Option Consumed) := [none, some ⟨["Hi"], state, by decide, by decide⟩]
    let rt : Runtime := { Runtime.silent with parallel := .ok slots }
    let turn : Turn := ⟨1, ⟨1, none⟩, ⟨1, none⟩⟩
    let as : List Action :=
      [.execute ⟨"t1", some (.obj [("prompt", .str "a")])⟩ turn, .start 0 2,
        .settle 0 (performOrder order ⟨some "a", none⟩ rt).outcome turn]
    ∃ s₀ s out, Created s₀ ∧ (worker ⟨0, 0, id⟩).run s₀ as = some (s, out) ∧
      FailsWithoutResult slots 0 out := by
  intro order state slots rt turn as
  have hnew := created_ofDefaults
  have hruns : ((worker ⟨0, 0, id⟩).run .ofDefaults as).isSome = true := rfl
  obtain ⟨⟨s, out⟩, hrun⟩ := Option.isSome_iff_exists.mp hruns
  have hsettle : .settle 0 (performOrder order ⟨some "a", none⟩ rt).outcome turn ∈ as :=
    List.mem_cons_of_mem _ (List.mem_cons_of_mem _ List.mem_cons_self)
  refine ⟨_, s, out, hnew, hrun, (fanout_failure_iff hnew hrun rfl rfl rfl hsettle).mpr ?_⟩
  exact .inl ⟨_, List.mem_cons_of_mem _ List.mem_cons_self, rfl⟩

end L0Worker.Worker
