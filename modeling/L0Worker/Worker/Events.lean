import L0Worker.Worker.Instance

/-!
# The events of a step

Which action of a worker makes which kind of event, whether `emit` returned or threw
(`step_makes`).  A submission makes `TASK_ACCEPTED`, a callback `TASK_PROGRESS`, the turn
after the executor `TASK_COMPLETED` and the drain timer `WORKER_DRAINING`.  `TASK_FAILED`
comes from a submission or from the turn after the executor.

So what is about one kind of event is about the actions that make it, and all other steps
are dealt with at once.
-/

namespace L0Worker.Worker

/-! ## Events -/

def OutboundEvent.isCompleted : OutboundEvent → Bool
  | .taskCompleted _ _ _ _ _ _ => true
  | _ => false

def OutboundEvent.isFailed : OutboundEvent → Bool
  | .taskFailed _ _ _ _ _ _ => true
  | _ => false

theorem OutboundEvent.isTerminal_of_completed {event : OutboundEvent}
    (h : event.isCompleted = true) : event.isTerminal = true := by
  cases event with
  | taskCompleted => rfl
  | _ => cases h

theorem OutboundEvent.isTerminal_of_failed {event : OutboundEvent}
    (h : event.isFailed = true) : event.isTerminal = true := by
  cases event with
  | taskFailed => rfl
  | _ => cases h

/-- The event that a worker made, whatever became of it. -/
def Effect.event? : Effect → Option OutboundEvent
  | .emitted _ event | .emitThrew _ event | .recorded _ _ event => some event
  | _ => none

/-- The kinds of events that an action makes. -/
def Action.makes : Action → OutboundEvent → Bool
  | .execute _ _, .taskAccepted _ _ _ | .execute _ _, .taskFailed _ _ _ _ _ _
  | .callback _ _ _, .taskProgress _ _ _ _ | .settle _ _ _, .taskCompleted _ _ _ _ _ _
  | .settle _ _ _, .taskFailed _ _ _ _ _ _ | .drainTimer _ _, .workerDraining _ _ _ => true
  | _, _ => false

/-- The events among the effects have a property. -/
def AllEvents (p : OutboundEvent → Prop) (o : List Effect) : Prop :=
  ∀ e ∈ o, ∀ event, e.event? = some event → p event

/-- The events among the effects are of the kind that an action makes. -/
def Makes (a : Action) (o : List Effect) : Prop :=
  ∀ e ∈ o, ∀ event, e.event? = some event → a.makes event = true

theorem AllEvents.append {p : OutboundEvent → Prop} {o o' : List Effect} (h : AllEvents p o)
    (h' : AllEvents p o') : AllEvents p (o ++ o') :=
  List.forall_mem_append.mpr ⟨h, h'⟩

/-- Effects without an event. -/
theorem allEvents_of_silent {p : OutboundEvent → Prop} {o : List Effect}
    (h : ∀ e ∈ o, e.event? = none) : AllEvents p o := by
  intro e he event hevent
  rw [h e he] at hevent
  cases hevent

theorem Makes.allEvents {a : Action} {p : OutboundEvent → Prop} {o : List Effect} (h : Makes a o)
    (hp : ∀ event, a.makes event = true → p event) : AllEvents p o :=
  fun e he event hevent => hp event (h e he event hevent)

/-! ## The pieces of a step -/

section Pieces

variable (s : Instance) (i : Nat) (c : Call) {p : OutboundEvent → Prop}

theorem report_events (taskId : String) (event : Int → OutboundEvent) (env : EmitEnv)
    (h : ∀ ts, p (event ts)) : AllEvents p (s.report i taskId event env).2 := by
  have hevent : ∀ {e : Effect} {ts : Int}, e.event? = some (event ts) →
      ∀ made, e.event? = some made → p made := by
    intro e ts he made hmade
    obtain rfl := Option.some.inj (he.symm.trans hmade)
    exact h ts
  cases henv : env.throws with
  | none =>
      rw [Instance.report_returns henv]
      exact List.forall_mem_cons.mpr ⟨hevent rfl, List.forall_mem_singleton.mpr (hevent rfl)⟩
  | some thrown =>
      rw [Instance.report_throws henv]
      exact List.forall_mem_singleton.mpr (hevent rfl)

theorem finallyBlock_events (error : Option Thrown) : AllEvents p (s.finallyBlock i c error).2 :=
  allEvents_of_silent (by simp [Instance.finallyBlock, Effect.event?])

/-- The `catch` block makes nothing but `TASK_FAILED`. -/
theorem catchBlock_events (error : Thrown) (env : EmitEnv)
    (h : ∀ id workerId failureClass retryable message ts,
      p (.taskFailed id workerId failureClass retryable message ts)) :
    AllEvents p (s.catchBlock i c error env).2 := by
  have hreport : ∀ failureClass message,
      AllEvents p (s.reportFailure i c failureClass message env).2 :=
    fun _ _ => report_events s i c.taskId _ env fun ts => h ..
  have hcaught := s.catchBlock_caught i c error env
  generalize s.catchBlock i c error env = r at hcaught ⊢
  cases hcaught with
  | unread hfailure =>
      have hthrew : AllEvents p [.catchThrew i] :=
        allEvents_of_silent (List.forall_mem_singleton.mpr rfl)
      exact hthrew.append (finallyBlock_events s i c _)
  | reported hfailure henv => exact hreport _ _
  | lost hfailure henv => exact (hreport _ _).append (finallyBlock_events _ i c _)

theorem tryBlock_makes (submit : TaskSubmit) (turn turn' : Turn) :
    Makes (.execute submit turn') (s.tryBlock i c turn).2 := by
  have hreport : AllEvents (fun event => Action.makes (.execute submit turn') event = true) _ :=
    report_events s.accepting i c.taskId
      (.taskAccepted c.taskId s.worker.configManager.workerId) turn.event fun ts => rfl
  rw [Instance.tryBlock_eq]
  dsimp only
  cases turn.event.throws with
  | none => exact hreport
  | some e => exact hreport.append (catchBlock_events _ i c e turn.failed fun _ _ _ _ _ _ => rfl)

theorem callback_makes (k : Nat) (env env' : EmitEnv) (cb cb' : Callback) :
    Makes (.callback k cb' env') (s.callback i c env cb).2 := by
  cases cb with
  | onFirstToken => exact report_events s i c.taskId _ env fun ts => rfl
  | onToolCall name args => exact report_events s i c.taskId _ env fun ts => rfl
  | onL0Event event =>
      refine allEvents_of_silent fun e he => ?_
      unfold Instance.callback at he
      dsimp only at he
      split at he
      · rw [List.mem_singleton.mp he]
        rfl
      · cases he

theorem executorSettled_makes (settings : Settings) (startTime : Int) (k : Nat)
    (outcome outcome' : Except Thrown ExecutionResult) (turn turn' : Turn) :
    Makes (.settle k outcome' turn')
      (s.executorSettled settings i c startTime outcome turn).2 := by
  cases outcome with
  | error e => exact catchBlock_events s i c e turn.failed fun _ _ _ _ _ _ => rfl
  | ok result =>
      have hreport :
          AllEvents (fun event => Action.makes (.settle k outcome' turn') event = true) _ :=
        report_events s i c.taskId
          (.taskCompleted c.taskId s.worker.configManager.workerId
            ⟨turn.dateNow - startTime, result.tokenCount, result.inputTokens, result.outputTokens⟩
            (settings.sha256 result.content) result.content) turn.event fun ts => rfl
      unfold Instance.executorSettled
      dsimp only
      cases turn.event.throws with
      | none => exact hreport
      | some e =>
          exact hreport.append (catchBlock_events _ i c e turn.failed fun _ _ _ _ _ _ => rfl)

theorem drainTimerFired_makes (k : Nat) (env env' : EmitEnv) :
    Makes (.drainTimer k env') (s.drainTimerFired i c env).2 := by
  have hdraining : ∀ {e : Effect} {workerId reason ts},
      e.event? = some (.workerDraining workerId reason ts) → Makes (.drainTimer k env') [e] := by
    intro e workerId reason ts he
    refine List.forall_mem_singleton.mpr fun event hevent => ?_
    obtain rfl := Option.some.inj (he.symm.trans hevent)
    rfl
  unfold Instance.drainTimerFired
  split
  · exact allEvents_of_silent (List.forall_mem_nil _)
  · split
    · exact allEvents_of_silent (List.forall_mem_singleton.mpr rfl)
    · dsimp only
      split
      · exact hdraining rfl
      · exact hdraining rfl

end Pieces

/-! ## Steps -/

/-- Every event of a step is of a kind that its action makes. -/
theorem step_makes {settings : Settings} {s s' : Instance} {a : Action} {o : List Effect}
    (hstep : (worker settings).step s a = some (s', o)) : Makes a o := by
  cases step_cases hstep with
  | execute submit turn =>
      rcases s.executeTaskWithEvents_cases settings submit turn with
        ⟨-, reason, heq⟩ | ⟨-, slots, c, r, -, -, rfl, heq⟩
      · rw [heq]
        exact allEvents_of_silent (by simp [Effect.event?])
      · rw [heq]
        have hacquired : Makes (.execute submit turn) [.acquired s.calls.length submit.taskId] :=
          allEvents_of_silent (List.forall_mem_singleton.mpr rfl)
        exact AllEvents.append hacquired (tryBlock_makes _ _ c submit turn turn)
  | start dateNow hc hphase => exact allEvents_of_silent (List.forall_mem_nil _)
  | callback cb env hc => exact callback_makes s _ _ _ env env cb cb
  | settle outcome turn hc hstart =>
      exact executorSettled_makes s _ _ settings _ _ outcome outcome turn turn
  | finish hc hphase => exact finallyBlock_events s _ _ none
  | drainTimer env hc htimer => exact drainTimerFired_makes s _ _ _ env env
  | updateConfig u => exact allEvents_of_silent (by simp [Effect.event?])
  | replay request => exact allEvents_of_silent (List.forall_mem_nil _)
  | found hr hphase => exact allEvents_of_silent (List.forall_mem_nil _)
  | notFound hr hphase => exact allEvents_of_silent (by simp [Effect.event?])
  | @replayLoop j r throws hr hphase =>
      refine allEvents_of_silent fun e he => ?_
      have hreplay := (s.replayLoop_effects j r throws e he).2
      cases e with
      | replayed j event => rfl
      | replaySettled j result => rfl
      | _ => cases hreplay

/-- Nothing but the turn after the executor makes a `TASK_COMPLETED`. -/
theorem step_not_completed {settings : Settings} {s s' : Instance} {a : Action} {o : List Effect}
    (hstep : (worker settings).step s a = some (s', o))
    (ha : ∀ i outcome turn, a ≠ .settle i outcome turn) :
    AllEvents (fun event => event.isCompleted = false) o := by
  refine (step_makes hstep).allEvents fun event hmakes => ?_
  cases event with
  | taskCompleted =>
      cases a with
      | settle i outcome turn => exact absurd rfl (ha i outcome turn)
      | _ => cases hmakes
  | _ => rfl

end L0Worker.Worker
