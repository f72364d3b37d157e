import L0Worker.Worker.Account
import L0Worker.Worker.Events

/-!
# The progress events of a call

Only a callback makes a progress event, so the progress events of a call in a run are those
of the callbacks of its executor (`run_progress`), and they come before the terminal event
when the callbacks come before the executor settles (`progress_before_terminal`).
-/

namespace L0Worker.Worker

/-! ## Progress -/

/-- What a progress event says. -/
abbrev Progress := ProgressStage × Option ToolCall

def OutboundEvent.progress? : OutboundEvent → Option Progress
  | .taskProgress _ stage metadata _ => some (stage, metadata)
  | _ => none

/-- A progress event that call `i` emitted. -/
def Effect.progress? (i : Nat) : Effect → Option Progress
  | .emitted k event => if k = i then event.progress? else none
  | _ => none

/-- A progress event that call `i` recorded. -/
def Effect.recordedProgress? (i : Nat) : Effect → Option Progress
  | .recorded k _ event => if k = i then event.progress? else none
  | _ => none

/-- What a callback reports.  Events of the runtime are forwarded as they are. -/
def Callback.progress? : Callback → Option Progress
  | .onFirstToken => some (.firstToken, none)
  | .onToolCall name args => some (.toolInvoked, some ⟨name, args⟩)
  | .onL0Event _ => none

/-- What an action reports for call `i`, unless `emit` throws. -/
def Action.progress? (i : Nat) : Action → Option Progress
  | .callback k cb env => if k = i ∧ env.throws = none then cb.progress? else none
  | _ => none

/-- A callback emits and records what it reports. -/
theorem callback_progress (s : Instance) (i k : Nat) (c : Call) (cb : Callback) (env : EmitEnv) :
    (s.callback k c env cb).2.filterMap (Effect.progress? i) =
        (Action.progress? i (.callback k cb env)).toList ∧
      (s.callback k c env cb).2.filterMap (Effect.recordedProgress? i) =
        (Action.progress? i (.callback k cb env)).toList := by
  have hreport : ∀ (stage : ProgressStage) (metadata : Option ToolCall),
      let o := (s.report k c.taskId (.taskProgress c.taskId stage metadata) env).2
      let progress := if k = i ∧ env.throws = none then some (stage, metadata) else none
      o.filterMap (Effect.progress? i) = progress.toList ∧
        o.filterMap (Effect.recordedProgress? i) = progress.toList := by
    intro stage metadata o progress
    by_cases hk : k = i
    · cases henv : env.throws with
      | none =>
          simp [o, progress, Instance.report_returns henv, henv, hk, Effect.progress?,
            Effect.recordedProgress?, OutboundEvent.progress?, List.filterMap_cons]
      | some e =>
          simp [o, progress, Instance.report_throws henv, henv, Effect.progress?,
            Effect.recordedProgress?]
    · cases henv : env.throws with
      | none =>
          simp [o, progress, Instance.report_returns henv, hk, Effect.progress?,
            Effect.recordedProgress?]
      | some e =>
          simp [o, progress, Instance.report_throws henv, hk, Effect.progress?,
            Effect.recordedProgress?]
  cases cb with
  | onFirstToken => exact hreport .firstToken none
  | onToolCall name args => exact hreport .toolInvoked (some ⟨name, args⟩)
  | onL0Event event =>
      unfold Instance.callback Action.progress? Callback.progress?
      dsimp only
      split <;> simp [Effect.progress?, Effect.recordedProgress?]

/-- The other actions make no progress event. -/
theorem progress_of_makes {a : Action} {o : List Effect} {i : Nat} (h : Makes a o)
    (ha : ∀ k cb env, a ≠ .callback k cb env) :
    o.filterMap (Effect.progress? i) = [] ∧ o.filterMap (Effect.recordedProgress? i) = [] := by
  have hnone : AllEvents (fun event => event.progress? = none) o := by
    refine h.allEvents fun event hmakes => ?_
    cases event with
    | taskProgress =>
        cases a with
        | callback k cb env => exact absurd rfl (ha k cb env)
        | _ => cases hmakes
    | _ => rfl
  constructor
  · refine List.filterMap_eq_nil_iff.mpr fun e he => ?_
    cases e with
    | emitted k event =>
        have hevent := hnone _ he event rfl
        simp [Effect.progress?, hevent]
    | _ => rfl
  · refine List.filterMap_eq_nil_iff.mpr fun e he => ?_
    cases e with
    | recorded k id event =>
        have hevent := hnone _ he event rfl
        simp [Effect.recordedProgress?, hevent]
    | _ => rfl

theorem step_progress {settings : Settings} {s s' : Instance} {a : Action} {o : List Effect}
    (hstep : (worker settings).step s a = some (s', o)) (i : Nat) :
    o.filterMap (Effect.progress? i) = (a.progress? i).toList ∧
      o.filterMap (Effect.recordedProgress? i) = (a.progress? i).toList := by
  cases a with
  | callback k cb env =>
      cases step_cases hstep with
      | callback cb env hc => exact callback_progress s i k _ cb env
  | _ => exact progress_of_makes (step_makes hstep) (fun _ _ _ h => nomatch h)

/-- In a run, a call has emitted and recorded what the callbacks of its executor reported. -/
theorem run_progress {settings : Settings} {s t : Instance} {as : List Action}
    {out : List Effect} (hrun : (worker settings).run s as = some (t, out)) (i : Nat) :
    out.filterMap (Effect.progress? i) = as.filterMap (Action.progress? i) ∧
      out.filterMap (Effect.recordedProgress? i) = as.filterMap (Action.progress? i) := by
  refine (worker settings).run_history
    (J := fun (as : List Action) (out : List Effect) (_ : Instance) =>
      out.filterMap (Effect.progress? i) = as.filterMap (Action.progress? i) ∧
        out.filterMap (Effect.recordedProgress? i) = as.filterMap (Action.progress? i))
    ?_ ⟨rfl, rfl⟩ hrun
  intro as out u a u' o _ ih hstep
  obtain ⟨hemitted, hrecorded⟩ := step_progress hstep i
  rw [List.filterMap_append, List.filterMap_append, List.filterMap_append, ih.1, ih.2, hemitted,
    hrecorded]
  cases h : a.progress? i <;> simp [h]

/-! ## What an executor does with its callbacks -/

/-- A step of an executor that the worker sees. -/
inductive ExecutionStep where
  /-- It calls a callback, which returns or throws. -/
  | called (cb : Callback) (throws : Option Thrown)
  | settled (outcome : Except Thrown ExecutionResult)

/-- The step of the executor of call `i` that an action is.  The events of the runtime are
none of its steps. -/
def Action.executionStep? (i : Nat) : Action → Option ExecutionStep
  | .callback k .onFirstToken env =>
      if k = i then some (.called .onFirstToken env.throws) else none
  | .callback k (.onToolCall name args) env =>
      if k = i then some (.called (.onToolCall name args) env.throws) else none
  | .settle k outcome _ => if k = i then some (.settled outcome) else none
  | _ => none

/-- What a step of the executor reports. -/
def ExecutionStep.progress? : ExecutionStep → Option Progress
  | .called cb none => cb.progress?
  | _ => none

theorem progress_eq_bind (i : Nat) (a : Action) :
    a.progress? i = (a.executionStep? i).bind ExecutionStep.progress? := by
  cases a with
  | callback k cb env =>
      cases cb with
      | onL0Event event => simp [Action.progress?, Action.executionStep?, Callback.progress?]
      | _ =>
          by_cases hk : k = i
          · cases henv : env.throws <;>
              simp [Action.progress?, Action.executionStep?, ExecutionStep.progress?, hk, henv]
          · simp [Action.progress?, Action.executionStep?, hk]
  | settle k outcome turn =>
      by_cases hk : k = i <;>
        simp [Action.progress?, Action.executionStep?, ExecutionStep.progress?, hk]
  | _ => rfl

theorem progress_of_steps (i : Nat) (as : List Action) :
    as.filterMap (Action.progress? i) =
      (as.filterMap (Action.executionStep? i)).filterMap ExecutionStep.progress? := by
  rw [List.filterMap_filterMap]
  exact List.filterMap_congr fun a _ => progress_eq_bind i a

theorem settle_of_executionStep {i : Nat} {a : Action}
    {outcome : Except Thrown ExecutionResult}
    (h : a.executionStep? i = some (.settled outcome)) : ∃ turn, a = .settle i outcome turn := by
  cases a with
  | callback k cb env =>
      cases cb with
      | onL0Event event => cases h
      | _ =>
          obtain ⟨-, h⟩ := Option.ite_none_right_eq_some.mp h
          cases h
  | settle k outcome' turn =>
      obtain ⟨hk, heq⟩ := Option.ite_none_right_eq_some.mp h
      obtain rfl := ExecutionStep.settled.inj (Option.some.inj heq)
      exact ⟨turn, by rw [hk]⟩
  | _ => cases h

/-- The terminal event of a call is not emitted before its executor settles. -/
theorem not_terminal_before_settle {settings : Settings} {s₀ u : Instance} {as : List Action}
    {out : List Effect} {i : Nat} {c : Call} (hnew : Created s₀)
    (hrun : (worker settings).run s₀ as = some (u, out)) (hc : u.calls[i]? = some c)
    (hstart : c.phase.startTime?.isSome = true) :
    ∀ e ∈ out, e.call? = some i → e.emitsTerminal = false := by
  have hcount := run_endings hnew hrun i
  rw [Instance.stage_of_some hc, Phase.stage_of_startTime hstart] at hcount
  intro e he hcall
  have hnot := List.countP_eq_zero.mp hcount e (mem_outputsOf_call.mpr ⟨he, hcall⟩)
  exact Bool.eq_false_iff.mpr hnot

/-- When the callbacks of the executor of a call come before it settles, so do the progress
events of the call, and its terminal event comes after them. -/
theorem progress_before_terminal {settings : Settings} {s₀ s : Instance} {as : List Action}
    {out : List Effect} {i : Nat} {steps : List ExecutionStep}
    {outcome : Except Thrown ExecutionResult} (hnew : Created s₀)
    (hrun : (worker settings).run s₀ as = some (s, out))
    (hsteps : as.filterMap (Action.executionStep? i) = steps ++ [.settled outcome]) :
    ∃ before after, out = before ++ after ∧
      (∀ e ∈ before, e.call? = some i → e.emitsTerminal = false) ∧
      after.filterMap (Effect.progress? i) = [] := by
  obtain ⟨as₁, as₂, rfl, -, hsettled⟩ := List.filterMap_eq_append_iff.mp hsteps
  obtain ⟨as₃, a, as₄, rfl, hnone, ha, hrest⟩ := List.filterMap_eq_cons_iff.mp hsettled
  obtain ⟨turn, rfl⟩ := settle_of_executionStep ha
  rw [← List.append_assoc] at hrun
  obtain ⟨u, before, after, hbefore, hafter, rfl⟩ := (Machine.run_append_iff _).mp hrun
  refine ⟨before, after, rfl, ?_, ?_⟩
  · obtain ⟨v, o, o', hstep, -, -⟩ := (Machine.run_cons_iff _).mp hafter
    cases step_cases hstep with
    | settle outcome turn hc hstart =>
        exact not_terminal_before_settle hnew hbefore hc (by rw [hstart]; rfl)
  · rw [(run_progress hafter i).1, progress_of_steps, List.filterMap_cons_some ha, hrest]
    rfl

end L0Worker.Worker
