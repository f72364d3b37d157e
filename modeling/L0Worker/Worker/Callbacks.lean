import L0Worker.Lib.Utf16
import L0Worker.Worker.Paths
import L0Worker.Worker.Progress

/-!
# The callbacks of an execution

`executeOrder` on all four paths, with the callbacks it calls.  On the text and structured
paths the loop over the stream calls `onFirstToken` at the first token and `onToken` at each;
the race path calls `onFirstToken` once the runtime has consumed the streams.  The fan-out
path calls none of them, and no path calls `onToolCall`.

The worker passes `onFirstToken` and `onToolCall` but no `onToken`.  `Performs` says that the
executor of a call does in a run of the worker what an execution says.
-/

namespace L0Worker.Worker

/-! ## Callbacks of a loop -/

/-- The step that the worker sees. -/
def ExecutorCall.step? : ExecutorCall → Option ExecutionStep
  | .onFirstToken throws => some (.called .onFirstToken throws)
  | .onToken _ => none
  | .onToolCall name args throws => some (.called (.onToolCall name args) throws)

/-! ## All paths -/

/-- A stream that the runtime consumed itself, with its tokens that are not empty. -/
structure Consumed where
  tokens : List String
  state : L0State
  nonempty : ∀ token ∈ tokens, token ≠ ""
  /-- The state has the text of the stream. -/
  content : state.reportedContent = String.join tokens

/-- How a race ends: with the stream that won. -/
structure RaceRun where
  winnerIndex : Nat
  winner : Consumed

/-- What the runtime does with an order, whichever path it takes. -/
structure Runtime where
  text : TextRun
  structured : StreamRun
  race : Except Thrown RaceRun
  /-- What the callback `onFirstToken` throws after a race, if it does. -/
  onFirstToken : Option Thrown
  /-- A slot for each model, absent where its operation failed. -/
  parallel : Except Thrown (List (Option Consumed))
  /-- What the JSON parser says is wrong with a text. -/
  syntaxError : String → String
  /-- What is thrown for an order without a model. -/
  noModel : Thrown

/-- A runtime that yields nothing on any path. -/
def Runtime.silent : Runtime where
  text := ⟨[], none, none, ⟨none, none, none, none, none, false⟩⟩
  structured := ⟨[], none, none, none, none⟩
  race := .error (.value "")
  onFirstToken := none
  parallel := .ok []
  syntaxError := id
  noModel := .value ""

/-- The result of a race, as the executor sees it. -/
def RaceRun.result (r : RaceRun) : RaceResult := ⟨r.winnerIndex, r.winner.state⟩

/-- The callbacks after a race. -/
def raceCalls (onFirstToken : Option Thrown) : Except Thrown RaceRun → List ExecutorCall
  | .error _ => []
  | .ok r =>
      if utf16Length r.winner.state.reportedContent > 0 then [.onFirstToken onFirstToken] else []

/-- What an execution does: the callbacks it calls, in order, and how it ends. -/
structure Execution where
  calls : List ExecutorCall
  outcome : Except Thrown ExecutionResult

/-- `executeParallel`. -/
def executeParallel (execution : ExecutionSpec) (rt : Runtime) : ParallelMode → Execution
  | .race =>
      { calls := raceCalls rt.onFirstToken rt.race
        outcome := (executeRace execution rt.onFirstToken (rt.race.map RaceRun.result)).map
          FullResult.toExecutionResult }
  | .fanout =>
      { calls := []
        outcome := (executeFanout execution
          (rt.parallel.map fun slots => slots.map (Option.map Consumed.state))).map
          FullResult.toExecutionResult }

/-- `executeOrder`. -/
def performOrder (order : InferenceOrder) (payload : TaskPayload) (rt : Runtime) : Execution :=
  match buildMessages payload with
  | .error e => ⟨[], .error e⟩
  | .ok _ =>
      match order.execution.parallel, executionPath order with
      | some parallel, _ => executeParallel order.execution rt parallel.mode
      | none, .structured _ _ _ =>
          { calls := rt.structured.calls
            outcome := executeStructured rt.syntaxError rt.structured }
      | none, .text primaryModel =>
          { calls := rt.text.stream.calls
            outcome := (executeText primaryModel rt.text).map FullResult.toExecutionResult }
      | none, .noModel | none, .parallel => ⟨[], .error rt.noModel⟩

/-! ## An execution in a run of the worker -/

/-- The steps of an execution that the worker sees. -/
def Execution.steps (x : Execution) : List ExecutionStep :=
  x.calls.filterMap ExecutorCall.step? ++ [.settled x.outcome]

/-- The executor of call `i` does what the execution says. -/
def Performs (i : Nat) (x : Execution) (as : List Action) : Prop :=
  as.filterMap (Action.executionStep? i) = x.steps

/-- What a callback reports. -/
def ExecutorCall.progress? (call : ExecutorCall) : Option Progress :=
  call.step?.bind ExecutionStep.progress?

theorem Performs.progress {settings : Settings} {s t : Instance} {as : List Action}
    {out : List Effect} {i : Nat} {x : Execution} (h : Performs i x as)
    (hrun : (worker settings).run s as = some (t, out)) :
    out.filterMap (Effect.progress? i) = x.calls.filterMap ExecutorCall.progress? ∧
      out.filterMap (Effect.recordedProgress? i) = x.calls.filterMap ExecutorCall.progress? := by
  have hsteps : as.filterMap (Action.progress? i) = x.calls.filterMap ExecutorCall.progress? := by
    rw [progress_of_steps, h, Execution.steps, List.filterMap_append, List.filterMap_filterMap]
    exact List.append_nil _
  obtain ⟨hemitted, hrecorded⟩ := run_progress hrun i
  exact ⟨hemitted.trans hsteps, hrecorded.trans hsteps⟩

/-! ## Which callbacks are called -/

/-- `onFirstToken` at the first token, and `onToken` at each. -/
def announced : List String → List ExecutorCall
  | [] => []
  | token :: tokens => .onFirstToken none :: (token :: tokens).map .onToken

namespace Collected

variable {onFirstToken : Option Thrown}

/-- A loop in which no callback throws. -/
theorem loop_calls {c : Collected} {events : List StreamEvent}
    (hreturns : c.firstTokenEmitted = true ∨ events.filterMap StreamEvent.token? = [] ∨
      onFirstToken = none) :
    (c.loop onFirstToken events).1 =
      if c.firstTokenEmitted then (events.filterMap StreamEvent.token?).map .onToken
      else announced (events.filterMap StreamEvent.token?) := by
  induction events generalizing c with
  | nil => cases c.firstTokenEmitted <;> rfl
  | cons e events ih =>
      rw [loop]
      cases htoken : e.token? with
      | none =>
          rw [List.filterMap_cons_none htoken] at hreturns ⊢
          rw [next_of_not_token c htoken]
          exact ih hreturns
      | some token =>
          rw [List.filterMap_cons_some htoken] at hreturns ⊢
          rw [(next_of_token onFirstToken c htoken).2]
          cases hemitted : c.firstTokenEmitted with
          | true =>
              dsimp only
              rw [ih (.inl rfl)]
              rfl
          | false =>
              -- the callback is called for this token, and returns
              have hreturns : onFirstToken = none := by simpa [hemitted] using hreturns
              rw [hreturns] at ih ⊢
              dsimp only
              rw [ih (.inl rfl)]
              rfl

end Collected

/-- The callbacks of a stream that ends. -/
theorem StreamRun.calls_of_ends {r : StreamRun} (h : r.Ends) : r.calls = announced r.tokens :=
  Collected.loop_calls (.inr h.2)

theorem utf16Length_pos_iff {s : String} : utf16Length s > 0 ↔ s ≠ "" := by
  have hempty : Utf16.codeUnits "" = [] := rfl
  rw [Utf16.utf16Length_eq, gt_iff_lt, List.length_pos_iff, ← hempty]
  exact Utf16.codeUnits_injective.ne_iff

/-- The text of some tokens is empty only when there are none. -/
theorem Consumed.content_ne_empty_iff (stream : Consumed) :
    stream.state.reportedContent ≠ "" ↔ stream.tokens ≠ [] := by
  rw [stream.content]
  cases htokens : stream.tokens with
  | nil => exact iff_of_false (fun h => h rfl) (fun h => h rfl)
  | cons token tokens =>
      refine iff_of_true ?_ (List.cons_ne_nil _ _)
      have hne := stream.nonempty token (by rw [htokens]; exact List.mem_cons_self)
      rw [String.join_cons]
      exact fun h => hne (String.append_eq_empty_iff.mp h).1

/-- The callbacks of a race that ends. -/
theorem raceCalls_of_ends {execution : ExecutionSpec} {rt : Runtime} {result : FullResult}
    (h : executeRace execution rt.onFirstToken (rt.race.map RaceRun.result) = .ok result) :
    ∃ race, rt.race = .ok race ∧
      raceCalls rt.onFirstToken rt.race =
        if race.winner.tokens = [] then [] else [.onFirstToken none] := by
  cases hrace : rt.race with
  | error e =>
      rw [hrace] at h
      cases h
  | ok race =>
      refine ⟨race, rfl, ?_⟩
      rw [hrace] at h
      simp only [Except.map, executeRace, RaceRun.result, utf16Length_pos_iff] at h
      simp only [raceCalls, utf16Length_pos_iff, Consumed.content_ne_empty_iff] at h ⊢
      by_cases htokens : race.winner.tokens = []
      · simp [htokens]
      · simp only [htokens, not_false_eq_true, if_true, if_false, ne_eq] at h ⊢
        cases hcallback : rt.onFirstToken with
        | none => rfl
        | some e =>
            rw [hcallback] at h
            cases h

end L0Worker.Worker
