import L0Worker.Worker.Account
import L0Worker.Worker.Events
import L0Worker.Worker.Reports

/-!
# The terminal event in the store

A call whose client has gone should still leave its terminal event for replay.  The
code emits each event before it records it, so a terminal event is recorded only if
its `emit` returns.  A failed `emit` of `TASK_COMPLETED` leads to the `catch` block,
which reports `TASK_FAILED` in the same way: if that `emit` throws as well, which it
does once the client has gone, nothing is left to catch it, and the call ends without
a terminal event in the store.  It also does so when what was thrown has no text, since
then the `catch` block throws before its `emit`.

`terminal_recorded_iff` says that there is no other way: a call that has finished left
exactly one terminal event, unless its `catch` block threw.
-/

namespace L0Worker.Worker

/-! ## Turns that lose the report -/

/-- What comes to the `catch` block after the executor, if anything does. -/
def Turn.caught (turn : Turn) : Except Thrown ExecutionResult → Option Thrown
  | .error e => some e
  | .ok _ => turn.event.throws

/-- The error cannot be read, or the `emit` of its report throws. -/
def Turn.Loses (turn : Turn) (caught : Option Thrown) : Prop :=
  ∃ e, caught = some e ∧ (e.isReadable = false ∨ turn.failed.throws ≠ none)

/-- The turn comes to the `catch` block of call `i`, which throws. -/
def Action.LosesReport (i : Nat) (s : Instance) : Action → Prop
  | .execute submit turn =>
      s.calls.length = i ∧ s.worker.Admits submit ∧ turn.Loses turn.event.throws
  | .settle k outcome turn => k = i ∧ turn.Loses (turn.caught outcome)
  | _ => False

/-- Some effect of the piece loses the report. -/
def Loses (o : List Effect) : Prop := ∃ e ∈ o, e.losesTerminal = true

theorem loses_append {o o' : List Effect} : Loses (o ++ o') ↔ Loses o ∨ Loses o' := by
  simp only [Loses, List.mem_append, or_and_right, exists_or]

/-- Effects of a piece that does not come to the `catch` block. -/
theorem not_loses {o : List Effect} (h : AllEvents (fun event => event.isFailed = false) o)
    (hcaught : ∀ i, .catchThrew i ∉ o) : ¬ Loses o := by
  rintro ⟨e, he, hloses⟩
  cases e with
  | emitThrew k event =>
      have hevent := h _ he event rfl
      cases event with
      | taskFailed => cases hevent
      | _ => cases hloses
  | catchThrew i => exact hcaught i he
  | _ => cases hloses

theorem report_not_caught (s : Instance) (i : Nat) (taskId : String)
    (event : Int → OutboundEvent) (env : EmitEnv) (k : Nat) :
    .catchThrew k ∉ (s.report i taskId event env).2 := by
  cases henv : env.throws with
  | none => simp [Instance.report_returns henv]
  | some e => simp [Instance.report_throws henv]

theorem report_not_loses (s : Instance) (i : Nat) (taskId : String)
    (event : Int → OutboundEvent) (env : EmitEnv) (hevent : ∀ ts, (event ts).isFailed = false) :
    ¬ Loses (s.report i taskId event env).2 :=
  not_loses (report_events s i taskId event env hevent) (report_not_caught s i taskId event env)

/-- The effects of one call, among those of another or the same. -/
theorem loses_outputsOf {i k : Nat} {o : List Effect} (hown : ∀ e ∈ o, e.call? = some k) :
    Loses (outputsOf Effect.call? i o) ↔ k = i ∧ Loses o := by
  by_cases hk : k = i
  · subst hk
    rw [outputsOf_eq_self hown]
    simp
  · rw [outputsOf_eq_nil fun e he => by rw [hown e he]; exact fun h => hk (Option.some.inj h)]
    simp [Loses, hk]

theorem not_loses_outputsOf {i : Nat} {o : List Effect} (h : ¬ Loses o) :
    ¬ Loses (outputsOf Effect.call? i o) := by
  rintro ⟨e, he, hloses⟩
  exact h ⟨e, List.mem_of_mem_filter he, hloses⟩

section Pieces

variable (s : Instance) (i : Nat) (c : Call)

theorem catchBlock_loses (error : Thrown) (env : EmitEnv) :
    Loses (s.catchBlock i c error env).2 ↔ error.isReadable = false ∨ env.throws ≠ none := by
  have hcaught := s.catchBlock_caught i c error env
  generalize s.catchBlock i c error env = r at hcaught ⊢
  cases hcaught with
  | unread hfailure =>
      exact iff_of_true ⟨.catchThrew i, List.mem_cons_self, rfl⟩
        (.inl (Thrown.unreadable_of_failureOf hfailure))
  | reported hfailure henv =>
      rw [Instance.reportFailure, Instance.report_returns henv]
      refine iff_of_false (by simp [Loses, Effect.losesTerminal]) ?_
      rintro (hunreadable | hthrows)
      · cases hunreadable.symm.trans (Thrown.readable_of_failureOf hfailure)
      · exact hthrows henv
  | lost hfailure henv =>
      rw [Instance.reportFailure, Instance.report_throws henv]
      exact iff_of_true ⟨_, List.mem_append_left _ List.mem_cons_self, rfl⟩
        (.inr (henv ▸ Option.some_ne_none _))

/-- A piece that reports an event and comes to the `catch` block when that throws. -/
theorem loses_report_catch {o : List Effect} (ho : ¬ Loses o) (turn : Turn) (e : Thrown) :
    Loses (o ++ (s.catchBlock i c e turn.failed).2) ↔ turn.Loses (some e) := by
  rw [loses_append, catchBlock_loses, Turn.Loses]
  simp [ho]

theorem not_turn_loses (turn : Turn) : ¬ turn.Loses none := by
  rintro ⟨e, he, -⟩
  cases he

theorem tryBlock_loses (turn : Turn) :
    Loses (s.tryBlock i c turn).2 ↔ turn.Loses turn.event.throws := by
  rw [Instance.tryBlock_eq]
  dsimp only
  have haccepted := report_not_loses s.accepting i c.taskId
    (.taskAccepted c.taskId s.worker.configManager.workerId) turn.event fun _ => rfl
  cases hthrows : turn.event.throws with
  | none => exact iff_of_false haccepted (not_turn_loses turn)
  | some e => exact loses_report_catch _ i c haccepted turn e

theorem executorSettled_loses (settings : Settings) (startTime : Int)
    (outcome : Except Thrown ExecutionResult) (turn : Turn) :
    Loses (s.executorSettled settings i c startTime outcome turn).2 ↔
      turn.Loses (turn.caught outcome) := by
  cases outcome with
  | error e =>
      refine (catchBlock_loses s i c e turn.failed).trans ?_
      simp [Turn.Loses, Turn.caught]
  | ok result =>
      have hcompleted := report_not_loses s i c.taskId
        (.taskCompleted c.taskId s.worker.configManager.workerId
          ⟨turn.dateNow - startTime, result.tokenCount, result.inputTokens, result.outputTokens⟩
          (settings.sha256 result.content) result.content) turn.event fun _ => rfl
      unfold Instance.executorSettled Turn.caught
      dsimp only
      cases hthrows : turn.event.throws with
      | none => exact iff_of_false hcompleted (not_turn_loses turn)
      | some e => exact loses_report_catch _ i c hcompleted turn e

end Pieces

theorem step_not_caught {settings : Settings} {s s' : Instance} {a : Action} {o : List Effect}
    (hstep : (worker settings).step s a = some (s', o))
    (hexecute : ∀ submit turn, a ≠ .execute submit turn)
    (hsettle : ∀ k outcome turn, a ≠ .settle k outcome turn) (k : Nat) : .catchThrew k ∉ o := by
  cases step_cases hstep with
  | execute submit turn => exact absurd rfl (hexecute submit turn)
  | start dateNow hc hphase => exact List.not_mem_nil
  | callback cb env hc =>
      cases cb with
      | onFirstToken => exact report_not_caught s _ _ _ env k
      | onToolCall name args => exact report_not_caught s _ _ _ env k
      | onL0Event event => simp [Instance.callback]
  | settle outcome turn hc hstart => exact absurd rfl (hsettle _ outcome turn)
  | finish hc hphase => simp [Instance.finallyBlock]
  | drainTimer env hc htimer =>
      unfold Instance.drainTimerFired
      split
      · exact List.not_mem_nil
      · split
        · simp
        · dsimp only
          split <;> simp
  | updateConfig update => simp
  | replay request => exact List.not_mem_nil
  | found hr hphase => exact List.not_mem_nil
  | notFound hr hphase => simp
  | replayLoop throws hr hphase => simp [Instance.replayLoop]

/-! ## Runs that lose the report -/

/-- A step loses the report of a call exactly when its input says so. -/
theorem step_loses_iff {settings : Settings} {s s' : Instance} {a : Action} {o : List Effect}
    (hstep : (worker settings).step s a = some (s', o)) (i : Nat) :
    Loses (outputsOf Effect.call? i o) ↔ a.LosesReport i s := by
  cases a with
  | execute submit turn =>
      cases step_cases hstep with
      | execute submit turn =>
          rcases s.executeTaskWithEvents_cases settings submit turn with
            ⟨hadm, reason, heq⟩ | ⟨hadm, slots, c, r, -, hc, rfl, heq⟩
          · rw [heq]
            simp [Loses, Action.LosesReport, hadm, outputsOf, Effect.call?]
          · rw [heq]
            have htry : Drives true s.calls.length c.taskId _ _ _ _ _ :=
              tryBlock_drives (s := s.addCall slots c) (c := c) List.getElem?_concat_length
                (by rw [hc]; rfl) turn
            rw [loses_outputsOf (k := s.calls.length)
              (List.forall_mem_cons.mpr ⟨rfl, fun e he => (htry.own e he).1⟩)]
            have hcons : ∀ {o : List Effect}, Loses (.acquired s.calls.length submit.taskId :: o) ↔
                Loses o := by
              simp [Loses, Effect.losesTerminal]
            rw [hcons, tryBlock_loses]
            simp [Action.LosesReport, hadm]
  | settle k outcome turn =>
      cases step_cases hstep with
      | @settle k c startTime outcome turn hc hstart =>
          have hdrives : Drives true k c.taskId _ _ _ _ _ :=
            executorSettled_drives settings (List.getElem?_eq_some_iff.mp hc).1 c startTime outcome
              turn
          rw [loses_outputsOf fun e he => (hdrives.own e he).1, executorSettled_loses]
          rfl
  | _ =>
      -- the other actions make no `TASK_FAILED` and come to no `catch` block
      refine iff_of_false (not_loses_outputsOf (not_loses ?_ ?_)) id
      · refine (step_makes hstep).allEvents fun event hmakes => ?_
        cases event with
        | taskFailed => cases hmakes
        | _ => rfl
      · exact step_not_caught hstep (by simp) (by simp)

/-- No turn of a run loses the report of a call exactly when no effect of the call does. -/
theorem along_not_loses_iff {settings : Settings} {s₀ s : Instance} {as : List Action}
    {out : List Effect} (hrun : (worker settings).run s₀ as = some (s, out)) (i : Nat) :
    (worker settings).Along (fun s a _ _ => ¬ a.LosesReport i s) s₀ as ↔
      (outputsOf Effect.call? i out).countP Effect.losesTerminal = 0 := by
  have hsteps : (worker settings).Along (fun s a _ _ => ¬ a.LosesReport i s) s₀ as ↔
      (worker settings).Along
        (fun _ _ _ o => ∀ e ∈ o, e.call? = some i → e.losesTerminal = false) s₀ as := by
    refine Machine.Along.congr (I := fun _ => True) ?_ (fun _ _ _ _ _ _ _ => trivial) trivial
    intro u a u' o _ hstep
    rw [← step_loses_iff hstep i, Loses]
    simp [outputsOf]
  rw [hsteps, Machine.Along.forall_output_iff (R := fun e => e.call? = some i →
    e.losesTerminal = false) hrun, List.countP_eq_zero]
  simp [outputsOf]

/-! ## The terminal events of a call in the store -/

/-- The event, if it is a terminal event that a call recorded under this task. -/
def Effect.terminalBy? (i : Nat) (taskId : String) : Effect → Option OutboundEvent
  | .recorded k id event =>
      if k = i ∧ id = taskId ∧ event.isTerminal = true then some event else none
  | _ => none

/-- The terminal events that call `i` recorded under its task.  They are among the events
the store holds for the task. -/
def terminalsBy (i : Nat) (taskId : String) (out : List Effect) : List OutboundEvent :=
  out.filterMap (Effect.terminalBy? i taskId)

theorem terminalsBy_length {s : Instance} {out : List Effect} (hown : EffectsOwned s out) {i : Nat}
    {c : Call} (hc : s.calls[i]? = some c) :
    (terminalsBy i c.taskId out).length =
      (outputsOf Effect.call? i out).countP Effect.recordsTerminal := by
  rw [terminalsBy, List.length_filterMap_eq_countP, outputsOf, List.countP_filter]
  refine List.countP_congr ?_
  intro e he
  cases e with
  | recorded k id event =>
      have htask : k = i → id = c.taskId := by
        rintro rfl
        obtain ⟨d, hd, -, hid⟩ := hown _ he k rfl
        obtain rfl := Option.some.inj (hc.symm.trans hd)
        exact hid id rfl
      simp only [Effect.terminalBy?, Effect.recordsTerminal, Effect.call?, Option.some.injEq,
        Bool.and_eq_true, decide_eq_true_eq, Option.isSome_ite]
      constructor
      · rintro ⟨hk, -, ht⟩
        exact ⟨ht, hk⟩
      · rintro ⟨ht, hk⟩
        exact ⟨hk, htask hk, ht⟩
  | _ => simp [Effect.terminalBy?, Effect.recordsTerminal]

/-- For every run and every call that has finished in it: the store holds for its task
what was recorded for the task, and among this there is exactly one terminal event of
the call, if and only if no turn of the call came to a `catch` block that threw. -/
theorem terminal_recorded_iff {settings : Settings} {s₀ s : Instance} {as : List Action}
    {out : List Effect} (hnew : Created s₀)
    (hrun : (worker settings).run s₀ as = some (s, out)) {i : Nat} {c : Call}
    (hc : s.calls[i]? = some c) (hsettled : c.isActive = false) :
    s.worker.eventStore.getEventsForTask c.taskId = out.filterMap (Effect.recordedFor? c.taskId) ∧
      ((terminalsBy i c.taskId out).length = 1 ↔
        (worker settings).Along (fun s a _ _ => ¬ a.LosesReport i s) s₀ as) := by
  refine ⟨(run_store hnew hrun).2 c.taskId, ?_⟩
  -- a finished call has either recorded its terminal event or lost it
  have hsum : c.phase.stage.terminals + c.phase.stage.losses = 1 := by
    unfold Call.isActive at hsettled
    cases hp : c.phase with
    | settled error => exact Phase.stage_settled error
    | _ => rw [hp] at hsettled; cases hsettled
  rw [terminalsBy_length (run_owned hnew hrun) hc, along_not_loses_iff hrun,
    run_terminals hnew hrun, run_losses hnew hrun, Instance.stage_of_some hc]
  omega

/-- The executor has succeeded, but the client has gone: `emit` throws for
`TASK_COMPLETED` and then for `TASK_FAILED`, and the call ends with no terminal event in
the store. -/
theorem lost_client_loses_terminal :
    let gone : EmitEnv := ⟨0, some (.error "TypeError" "Invalid state: Controller is closed" false)⟩
    let as : List Action :=
      [.execute ⟨"t1", some (.obj [("prompt", .str "a")])⟩ ⟨1, ⟨1, none⟩, ⟨1, none⟩⟩, .start 0 2,
        .settle 0 (.ok ⟨"done", 1, 1, 1⟩) ⟨3, gone, gone⟩]
    ∃ s₀ s out c, Created s₀ ∧ (worker ⟨0, 0, id⟩).run s₀ as = some (s, out) ∧
      s.calls[0]? = some c ∧ c.isActive = false ∧
      (s.worker.eventStore.getEventsForTask "t1").any OutboundEvent.isTerminal = false ∧
      ¬ (terminalsBy 0 c.taskId out).length = 1 := by
  intro gone as
  have hnew := created_ofDefaults
  exact ⟨.ofDefaults, _, _, _, hnew, rfl, rfl, rfl, rfl, by decide⟩

/-- An `emit` of `TASK_PROGRESS` throws and the executor fails with what was thrown, but
the failure gets through. -/
theorem terminal_recorded_iff_failure :
    let turn : Turn := ⟨1, ⟨1, none⟩, ⟨1, none⟩⟩
    let thrown : Thrown := .error "TypeError" "network" false
    let as : List Action :=
      [.execute ⟨"t1", some (.obj [("prompt", .str "a")])⟩ turn, .start 0 2,
        .callback 0 .onFirstToken ⟨0, some thrown⟩, .settle 0 (.error thrown) turn, .finish 0]
    ∃ s₀ s out, Created s₀ ∧ (worker ⟨0, 0, id⟩).run s₀ as = some (s, out) ∧
      (terminalsBy 0 "t1" out).length = 1 := by
  intro turn thrown as
  have hnew := created_ofDefaults
  let c : Call := ⟨"t1", .settled none, true, false, false⟩
  have hcheck : ((worker ⟨0, 0, id⟩).run .ofDefaults as).map (fun p => p.1.calls[0]?) =
      some (some c) := by
    decide
  obtain ⟨⟨s, out⟩, hrun, hc⟩ := Option.map_eq_some_iff.mp hcheck
  have hkept : (worker ⟨0, 0, id⟩).Along (fun s a _ _ => ¬ a.LosesReport 0 s) .ofDefaults as := by
    refine ⟨_, _, rfl, ?_, _, _, rfl, id, _, _, rfl, id, _, _, rfl, ?_, _, _, rfl, id, trivial⟩
    · exact fun h => not_turn_loses turn h.2.2
    · rintro ⟨-, e, he, hunreadable | hthrows⟩
      · obtain rfl := Option.some.inj he
        cases hunreadable
      · exact hthrows rfl
  exact ⟨_, s, out, hnew, hrun, (terminal_recorded_iff hnew hrun hc rfl).2.mpr hkept⟩

end L0Worker.Worker
