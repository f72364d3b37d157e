import L0Worker.Worker.Account

/-!
# Entering `DRAINING`

All calls of a worker share its lifecycle state, while each call has a drain timer and
an abort controller of its own.  Two kinds of step touch any of these: a submission that
is admitted moves `READY` to `ACCEPTING`, and a drain timer that fires aborts the call it
belongs to, after it has moved the state to `DRAINING` and emitted `WORKER_DRAINING` if it
is the first (`StepLifecycle`).

So the step that enters `DRAINING` fires the abort signal of one call.  The other calls in
flight go on until their own timers fire.  `aborts_all_iff` says when that makes no
difference: the call is the only one in flight, and the `emit` that comes before the abort
returns.
-/

namespace L0Worker.Worker

/-! ## Pieces that leave the lifecycle alone -/

/-- The event is `WORKER_DRAINING`. -/
def OutboundEvent.isDraining : OutboundEvent → Bool
  | .workerDraining _ _ _ => true
  | _ => false

/-- `WORKER_DRAINING` was emitted. -/
def Effect.announcesDraining : Effect → Bool
  | .emitted _ event => event.isDraining
  | _ => false

/-- A transition was refused. -/
def Effect.refusesTransition : Effect → Bool
  | .transitionRefused _ => true
  | _ => false

/-- The effect is about the lifecycle. -/
def Effect.isOfLifecycle : Effect → Bool
  | .emitted _ event => event.isDraining
  | .transitionRefused _ => true
  | _ => false

theorem Effect.of_not_lifecycle {e : Effect} (h : e.isOfLifecycle = false) :
    e.announcesDraining = false ∧ e.refusesTransition = false := by
  cases e with
  | emitted i event => exact ⟨h, rfl⟩
  | transitionRefused i => cases h
  | _ => exact ⟨rfl, rfl⟩

/-- From `s` to `s'` the lifecycle state stays, no call is aborted and none is added, and
neither `WORKER_DRAINING` nor a refused transition is among the effects. -/
structure Calm (s s' : Instance) (o : List Effect) : Prop where
  state : s'.worker.stateMachine = s.worker.stateMachine
  /-- The abort signals, call by call. -/
  aborted : s'.calls.map Call.aborted = s.calls.map Call.aborted
  silent : ∀ e ∈ o, e.isOfLifecycle = false

/-- Setting a call that is aborted as before leaves the abort signals alone. -/
theorem map_aborted_set {calls : List Call} {i : Nat} {c c' : Call} (hc : calls[i]? = some c)
    (h : c'.aborted = c.aborted) :
    (calls.set i c').map Call.aborted = calls.map Call.aborted := by
  obtain ⟨hi, rfl⟩ := List.getElem?_eq_some_iff.mp hc
  rw [List.map_set, h]
  have hi' : i < (calls.map Call.aborted).length := by simpa using hi
  have hself : (calls.map Call.aborted)[i] = calls[i].aborted := by simp
  rw [← hself, List.set_getElem_self hi']

namespace Calm

variable {s u : Instance} {i : Nat} {c : Call} {o : List Effect}

theorem refl (s : Instance) : Calm s s [] := ⟨rfl, rfl, by simp⟩

/-- The call is set, aborted as before. -/
theorem setCall (h : Calm s u o) {c' : Call} (hc : u.calls[i]? = some c)
    (haborted : c'.aborted = c.aborted) : Calm s (u.setCall i c') o :=
  ⟨h.state, (map_aborted_set hc haborted).trans h.aborted, h.silent⟩

theorem report (h : Calm s u o) (i : Nat) (taskId : String) (event : Int → OutboundEvent)
    (env : EmitEnv) (hevent : ∀ ts, (event ts).isDraining = false) :
    Calm s (u.report i taskId event env).1 (o ++ (u.report i taskId event env).2) := by
  cases henv : env.throws with
  | none =>
      rw [Instance.report_returns henv]
      refine ⟨h.state, h.aborted, List.forall_mem_append.mpr ⟨h.silent, ?_⟩⟩
      simp [Effect.isOfLifecycle, hevent]
  | some e =>
      rw [Instance.report_throws henv]
      refine ⟨h.state, h.aborted, List.forall_mem_append.mpr ⟨h.silent, ?_⟩⟩
      simp [Effect.isOfLifecycle]

theorem finallyBlock (h : Calm s u o) (hc : u.calls[i]? = some c) (error : Option Thrown) :
    Calm s (u.finallyBlock i c error).1 (o ++ (u.finallyBlock i c error).2) := by
  have haborted : (u.finallyBlock i c error).1.calls.map Call.aborted =
      u.calls.map Call.aborted :=
    map_aborted_set hc rfl
  refine ⟨h.state, haborted.trans h.aborted, List.forall_mem_append.mpr ⟨h.silent, ?_⟩⟩
  simp [Instance.finallyBlock, Effect.isOfLifecycle]

theorem catchBlock (h : Calm s u o) (hc : u.calls[i]? = some c) (error : Thrown) (env : EmitEnv) :
    Calm s (u.catchBlock i c error env).1 (o ++ (u.catchBlock i c error env).2) := by
  have hr : ∀ failureClass message,
      Calm s (u.reportFailure i c failureClass message env).1
        (o ++ (u.reportFailure i c failureClass message env).2) :=
    fun _ _ => h.report i c.taskId _ env fun _ => rfl
  have hcalls : ∀ failureClass message,
      (u.reportFailure i c failureClass message env).1.calls[i]? = some c :=
    fun _ _ => (Instance.report_calls u i c.taskId _ env).symm ▸ hc
  have hcaught := u.catchBlock_caught i c error env
  generalize u.catchBlock i c error env = r at hcaught ⊢
  cases hcaught with
  | @unread thrown hfailure =>
      have hf := h.finallyBlock hc (some thrown)
      refine ⟨hf.state, hf.aborted, ?_⟩
      obtain ⟨hbefore, hafter⟩ := List.forall_mem_append.mp hf.silent
      exact List.forall_mem_append.mpr ⟨hbefore, List.forall_mem_cons.mpr ⟨rfl, hafter⟩⟩
  | reported hfailure henv => exact (hr _ _).setCall (hcalls _ _) rfl
  | @lost failureClass message thrown hfailure henv =>
      have hf := (hr failureClass message).finallyBlock (hcalls _ _) (some thrown)
      rw [List.append_assoc] at hf
      exact hf

/-- The `try` block sets the state first. -/
theorem tryBlock (hc : s.calls[i]? = some c) (turn : Turn) :
    Calm s.accepting (s.tryBlock i c turn).1 (s.tryBlock i c turn).2 := by
  rw [Instance.tryBlock_eq]
  dsimp only
  have hr := (Calm.refl s.accepting).report i c.taskId
    (.taskAccepted c.taskId s.worker.configManager.workerId) turn.event (fun _ => rfl)
  rw [List.nil_append] at hr
  have hcalls := (Instance.report_calls s.accepting i c.taskId (.taskAccepted
    c.taskId s.worker.configManager.workerId) turn.event).symm ▸ hc
  cases turn.event.throws with
  | none => exact hr
  | some e => exact hr.catchBlock hcalls e turn.failed

theorem executorSettled (hc : s.calls[i]? = some c) (settings : Settings) (startTime : Int)
    (outcome : Except Thrown ExecutionResult) (turn : Turn) :
    Calm s (s.executorSettled settings i c startTime outcome turn).1
      (s.executorSettled settings i c startTime outcome turn).2 := by
  cases outcome with
  | error e =>
      have hcatch := (Calm.refl s).catchBlock hc e turn.failed
      rwa [List.nil_append] at hcatch
  | ok result =>
      unfold Instance.executorSettled
      dsimp only
      have hr := (Calm.refl s).report i c.taskId (.taskCompleted c.taskId
        s.worker.configManager.workerId ⟨turn.dateNow - startTime, result.tokenCount,
          result.inputTokens, result.outputTokens⟩ (settings.sha256 result.content)
        result.content) turn.event (fun _ => rfl)
      rw [List.nil_append] at hr
      have hcalls := (Instance.report_calls s i c.taskId (.taskCompleted c.taskId
        s.worker.configManager.workerId ⟨turn.dateNow - startTime, result.tokenCount,
          result.inputTokens, result.outputTokens⟩ (settings.sha256 result.content)
        result.content) turn.event).symm ▸ hc
      cases turn.event.throws with
      | none => exact hr.setCall hcalls rfl
      | some e => exact hr.catchBlock hcalls e turn.failed

theorem callback (s : Instance) (i : Nat) (c : Call) (env : EmitEnv) (cb : Callback) :
    Calm s (s.callback i c env cb).1 (s.callback i c env cb).2 := by
  have hprogress : ∀ stage metadata, Calm s
      (s.report i c.taskId (.taskProgress c.taskId stage metadata) env).1
      (s.report i c.taskId (.taskProgress c.taskId stage metadata) env).2 := by
    intro stage metadata
    have hr := (Calm.refl s).report i c.taskId
      (.taskProgress c.taskId stage metadata) env (fun _ => rfl)
    rwa [List.nil_append] at hr
  cases cb with
  | onFirstToken => exact hprogress .firstToken none
  | onToolCall name args => exact hprogress .toolInvoked (some ⟨name, args⟩)
  | onL0Event event =>
      refine ⟨rfl, rfl, ?_⟩
      show ∀ e ∈ (if env.throws = none then [Effect.forwarded i event] else []), _
      split
      · simp [Effect.isOfLifecycle]
      · simp

end Calm

/-! ## What a step does to the lifecycle -/

/-- What a step does to the lifecycle state and the abort signals. -/
inductive StepLifecycle (s : Instance) (a : Action) (s' : Instance) (o : List Effect) : Prop where
  | calm (ha : ∀ i env, a ≠ .drainTimer i env) (hcalm : Calm s s' o)
  /-- A submission is admitted. -/
  | admitted {submit : TaskSubmit} {turn : Turn} (ha : a = .execute submit turn)
      (hadmits : s.worker.Admits submit)
      (hstate : s'.worker.stateMachine =
        if s.worker.stateMachine = .ready then .accepting else s.worker.stateMachine)
      (haborted : s'.calls.map Call.aborted = s.calls.map Call.aborted ++ [false])
      (hsilent : ∀ e ∈ o, e.isOfLifecycle = false)
  /-- A drain timer fires. -/
  | fired {i : Nat} {c : Call} {env : EmitEnv} (ha : a = .drainTimer i env)
      (hc : s.calls[i]? = some c) (htimer : c.drainTimer = true)
      (hr : s.drainTimerFired i c env = (s', o))

theorem step_lifecycle {settings : Settings} {s s' : Instance} {a : Action} {o : List Effect}
    (hstep : (worker settings).step s a = some (s', o)) : StepLifecycle s a s' o := by
  cases step_cases hstep with
  | execute submit turn =>
      rcases s.executeTaskWithEvents_cases settings submit turn with
        ⟨-, reason, heq⟩ | ⟨hadm, slots, c, r, rfl, rfl, rfl, heq⟩
      · rw [heq]
        exact .calm (by simp) ⟨rfl, rfl, by simp [Effect.isOfLifecycle]⟩
      · rw [heq]
        have hcalm := Calm.tryBlock (s := s.addCall
          (s.worker.slots.occupy submit.taskId turn.dateNow)
          (Instance.newCall settings submit.taskId)) List.getElem?_concat_length turn
        refine .admitted rfl hadm hcalm.state (hcalm.aborted.trans ?_) ?_
        · simp [Instance.addCall, Instance.accepting, Instance.setStateMachine, Instance.newCall]
        · exact List.forall_mem_cons.mpr ⟨rfl, hcalm.silent⟩
  | start dateNow hc hphase => exact .calm (by simp) ((Calm.refl s).setCall hc rfl)
  | callback cb env hc => exact .calm (by simp) (Calm.callback ..)
  | settle outcome turn hc hstart =>
      exact .calm (by simp) (Calm.executorSettled hc settings _ outcome turn)
  | finish hc hphase => exact .calm (by simp) ((Calm.refl s).finallyBlock hc none)
  | drainTimer env hc htimer => exact .fired rfl hc htimer rfl
  | updateConfig u =>
      exact .calm (by simp) ⟨VercelWorker.updateConfig_stateMachine s.worker u, rfl,
        by simp [Effect.isOfLifecycle]⟩
  | replay request => exact .calm (by simp) ⟨rfl, rfl, by simp⟩
  | found hr hphase => exact .calm (by simp) ⟨rfl, rfl, by simp⟩
  | notFound hr hphase => exact .calm (by simp) ⟨rfl, rfl, by simp [Effect.isOfLifecycle]⟩
  | @replayLoop j r throws hr hphase =>
      refine .calm (by simp) ⟨rfl, rfl, ?_⟩
      intro e he
      have hreplay := (s.replayLoop_effects j r throws e he).2
      cases e with
      | emitted i event => cases hreplay
      | transitionRefused i => cases hreplay
      | _ => rfl

/-! ## A worker is live -/

/-- The states between start and end. -/
def WorkerState.isLive : WorkerState → Bool
  | .ready | .accepting | .draining => true
  | .boot | .offline => false

/-- A live worker may always start to drain. -/
theorem WorkerState.transition_draining {state : WorkerState} (hlive : state.isLive = true)
    (h : state ≠ .draining) : state.transition .draining = .ok .draining := by
  cases state with
  | ready => rfl
  | accepting => rfl
  | draining => exact absurd rfl h
  | boot => cases hlive
  | offline => cases hlive

/-- The drain timer of a call, while the worker is live: the worker drains already, or it
starts to drain, and then the call is aborted unless `emit` throws.  No transition is refused. -/
theorem Instance.drainTimerFired_cases (s : Instance) (i : Nat) (c : Call) (env : EmitEnv)
    (hlive : s.worker.stateMachine.isLive = true) :
    (s.worker.stateMachine = .draining ∧ s.drainTimerFired i c env =
        (s.setCall i { c with drainTimer := false, aborted := true }, [])) ∨
      (s.worker.stateMachine ≠ .draining ∧ ∃ s' o, s.drainTimerFired i c env = (s', o) ∧
        s'.worker.stateMachine = .draining ∧
        s'.calls = s.calls.set i
          { c with drainTimer := false, aborted := c.aborted || env.throws.isNone } ∧
        (∀ e ∈ o, e.refusesTransition = false) ∧
        (env.throws = none → ∃ event : OutboundEvent,
          event.isDraining = true ∧ o = [.emitted i event])) := by
  unfold Instance.drainTimerFired
  split
  · next h => exact .inl ⟨h, rfl⟩
  · next h =>
    rw [WorkerState.transition_draining hlive h]
    dsimp only
    cases env.throws with
    | none =>
        exact .inr ⟨h, _, _, rfl, rfl, by simp [setCall, setStateMachine],
          List.forall_mem_singleton.mpr rfl, fun _ => ⟨_, rfl, rfl⟩⟩
    | some e =>
        exact .inr ⟨h, _, _, rfl, rfl, by simp [setCall, setStateMachine],
          List.forall_mem_singleton.mpr rfl, by simp⟩

/-- What holds in every state: the worker is live, and until it drains no call is aborted. -/
structure LifecycleInv (s : Instance) : Prop where
  calls : CallsInv s
  live : s.worker.stateMachine.isLive = true
  /-- The first drain timer finds no call aborted. -/
  unaborted : s.worker.stateMachine ≠ .draining → ∀ b ∈ s.calls.map Call.aborted, b = false

theorem LifecycleInv.step {settings : Settings} {s s' : Instance} {a : Action} {o : List Effect}
    (h : LifecycleInv s) (hstep : (worker settings).step s a = some (s', o)) :
    LifecycleInv s' := by
  have hcalls := h.calls.step hstep
  cases step_lifecycle hstep with
  | calm ha hcalm =>
      refine ⟨hcalls, hcalm.state ▸ h.live, ?_⟩
      rw [hcalm.state, hcalm.aborted]
      exact h.unaborted
  | admitted ha hadmits hstate haborted hsilent =>
      refine ⟨hcalls, ?_, ?_⟩
      · rw [hstate]
        split
        · rfl
        · exact h.live
      · intro hne
        rw [haborted]
        refine List.forall_mem_append.mpr ⟨h.unaborted ?_, by simp⟩
        intro hdraining
        exact hne (by rw [hstate, hdraining]; rfl)
  | @fired i c env ha hc htimer hr =>
      have hdraining : s'.worker.stateMachine = .draining := by
        rcases s.drainTimerFired_cases i c env h.live with ⟨hd, heq⟩ | ⟨-, t, p, heq, hd, -⟩
        · rw [hr] at heq
          obtain ⟨rfl, -⟩ := Prod.mk.inj heq
          exact hd
        · rw [hr] at heq
          obtain ⟨rfl, -⟩ := Prod.mk.inj heq
          exact hd
      exact ⟨hcalls, by rw [hdraining]; rfl, fun hne => absurd hdraining hne⟩

theorem Created.lifecycleInv {s : Instance} (h : Created s) : LifecycleInv s := by
  have hcalls := h.callsInv
  obtain ⟨input, w, clock, hnew, rfl⟩ := h
  obtain ⟨-, configManager, -, rfl⟩ := VercelWorker.of_new hnew
  exact ⟨hcalls, rfl, fun _ => by simp [Instance.init]⟩

/-- The invariant holds in every state of every run. -/
theorem run_lifecycleInv {settings : Settings} {s₀ s : Instance} {as : List Action}
    {out : List Effect} (hnew : Created s₀)
    (hrun : (worker settings).run s₀ as = some (s, out)) : LifecycleInv s :=
  (worker settings).run_invariant (fun _ _ _ _ h hu => h.step hu) hnew.lifecycleInv hrun

/-! ## Transitions and announcements -/

/-- Every `emit` of the step returns. -/
def Action.EmitsReturn : Action → Prop
  | .execute _ turn | .settle _ _ turn => turn.event.throws = none ∧ turn.failed.throws = none
  | .callback _ _ env | .drainTimer _ env => env.throws = none
  | .replayLoop _ throws => throws = none
  | _ => True

/-- A live worker asks for no transition that is refused. -/
theorem step_granted {settings : Settings} {s s' : Instance} {a : Action} {o : List Effect}
    (hlive : s.worker.stateMachine.isLive = true)
    (hstep : (worker settings).step s a = some (s', o)) :
    ∀ e ∈ o, e.refusesTransition = false := by
  cases step_lifecycle hstep with
  | calm ha hcalm => exact fun e he => (Effect.of_not_lifecycle (hcalm.silent e he)).2
  | admitted ha hadmits hstate haborted hsilent =>
      exact fun e he => (Effect.of_not_lifecycle (hsilent e he)).2
  | @fired i c env ha hc htimer hr =>
      rcases s.drainTimerFired_cases i c env hlive with
        ⟨-, heq⟩ | ⟨-, t, p, heq, -, -, hgranted, -⟩
      · rw [hr] at heq
        obtain ⟨rfl, rfl⟩ := Prod.mk.inj heq
        exact List.forall_mem_nil _
      · rw [hr] at heq
        obtain ⟨rfl, rfl⟩ := Prod.mk.inj heq
        exact hgranted

/-- One if the worker drains. -/
def WorkerState.drained (state : WorkerState) : Nat := if state = .draining then 1 else 0

/-- A worker that drains stays draining and announces it no more. -/
theorem draining_stays {settings : Settings} {s s' : Instance} {a : Action} {o : List Effect}
    (hd : s.worker.stateMachine = .draining)
    (hstep : (worker settings).step s a = some (s', o)) :
    s'.worker.stateMachine = .draining ∧ ∀ e ∈ o, e.announcesDraining = false := by
  cases step_lifecycle hstep with
  | calm ha hcalm =>
      exact ⟨hcalm.state.trans hd, fun e he => (Effect.of_not_lifecycle (hcalm.silent e he)).1⟩
  | admitted ha hadmits hstate haborted hsilent =>
      rw [hd] at hstate
      exact ⟨hstate, fun e he => (Effect.of_not_lifecycle (hsilent e he)).1⟩
  | @fired i c env ha hc htimer hr =>
      rw [Instance.drainTimerFired, if_pos hd] at hr
      obtain ⟨rfl, rfl⟩ := Prod.mk.inj hr
      exact ⟨hd, by simp⟩

/-- When `emit` returns, `WORKER_DRAINING` is emitted in the step that enters `DRAINING`,
once. -/
theorem step_announcements {settings : Settings} {s s' : Instance} {a : Action}
    {o : List Effect} (hlive : s.worker.stateMachine.isLive = true) (hreturns : a.EmitsReturn)
    (hstep : (worker settings).step s a = some (s', o)) :
    s.worker.stateMachine.drained + o.countP Effect.announcesDraining =
      s'.worker.stateMachine.drained := by
  have hnone : (∀ e ∈ o, e.announcesDraining = false) →
      o.countP Effect.announcesDraining = 0 := by
    intro h
    exact List.countP_eq_zero.mpr fun e he => by simp [h e he]
  have hsilent : (∀ e ∈ o, e.isOfLifecycle = false) → o.countP Effect.announcesDraining = 0 :=
    fun h => hnone fun e he => (Effect.of_not_lifecycle (h e he)).1
  cases step_lifecycle hstep with
  | calm ha hcalm => rw [hsilent hcalm.silent, hcalm.state, Nat.add_zero]
  | admitted ha hadmits hstate haborted hsilent' =>
      rw [hsilent hsilent', hstate, Nat.add_zero]
      split
      · next hready => rw [hready]; rfl
      · rfl
  | @fired i c env ha hc htimer hr =>
      subst ha
      rcases s.drainTimerFired_cases i c env hlive with
        ⟨hd, -⟩ | ⟨hne, t, p, heq, hd, -, -, hannounced⟩
      · have hstays := draining_stays hd hstep
        rw [hnone hstays.2, hd, hstays.1, Nat.add_zero]
      · rw [hr] at heq
        obtain ⟨rfl, rfl⟩ := Prod.mk.inj heq
        obtain ⟨event, hevent, rfl⟩ := hannounced hreturns
        simp [WorkerState.drained, hne, hd, Effect.announcesDraining, hevent]

/-! ## What entering `DRAINING` aborts -/

/-- In the step in which the worker enters `DRAINING`, every call in flight is aborted. -/
def AbortsAll (s : Instance) (_ : Action) (s' : Instance) (_ : List Effect) : Prop :=
  s.worker.stateMachine ≠ .draining → s'.worker.stateMachine = .draining →
    ∀ c ∈ s'.calls, c.isActive = true → c.aborted = true

instance (s : Instance) (a : Action) (s' : Instance) (o : List Effect) :
    Decidable (AbortsAll s a s' o) :=
  inferInstanceAs (Decidable (_ → _ → _))

/-- The condition on a step: when the first drain timer fires, its call is the only one in
flight and `emit` returns. -/
def DrainsAlone (s : Instance) (a : Action) (_ : Instance) (_ : List Effect) : Prop :=
  match a with
  | .drainTimer i env => s.worker.stateMachine ≠ .draining →
      env.throws = none ∧ ∀ j c, s.calls[j]? = some c → c.isActive = true → j = i
  | _ => True

/-- A step that is no drain timer does not enter `DRAINING`. -/
theorem abortsAll_of_calm {s s' : Instance} {a : Action} {o : List Effect}
    (h : s'.worker.stateMachine = .draining → s.worker.stateMachine = .draining) :
    AbortsAll s a s' o :=
  fun hne hd => absurd (h hd) hne

/-- The first drain timer aborts everything in flight exactly when its call is alone and
`emit` returns. -/
theorem abortsAll_fired_iff {s s' : Instance} {i : Nat} {c : Call} {env : EmitEnv}
    {o : List Effect} (h : LifecycleInv s) (hc : s.calls[i]? = some c)
    (htimer : c.drainTimer = true) (hr : s.drainTimerFired i c env = (s', o)) :
    AbortsAll s (.drainTimer i env) s' o ↔ DrainsAlone s (.drainTimer i env) s' o := by
  have hactive := h.calls.timers i c hc htimer
  rcases s.drainTimerFired_cases i c env h.live with ⟨hd, -⟩ | ⟨hne, t, p, heq, hd, hcalls, -⟩
  · exact iff_of_true (fun hne => absurd hd hne) (fun hne => absurd hd hne)
  rw [hr] at heq
  obtain ⟨rfl, rfl⟩ := Prod.mk.inj heq
  have hunaborted : ∀ {j : Nat} {d : Call}, s.calls[j]? = some d → d.aborted = false := by
    intro j d hj
    exact h.unaborted hne _ (List.mem_map_of_mem (List.mem_of_getElem? hj))
  constructor
  · intro hall _
    have hall := hall hne hd
    rw [hcalls] at hall
    constructor
    · have hself := hall _ (List.mem_set (List.getElem?_eq_some_iff.mp hc).1 _) hactive
      simpa [hunaborted hc] using hself
    -- another call in flight is as it was, and it was not aborted
    · intro j d hj hdactive
      by_contra hji
      have hother : (s.calls.set i { c with
          drainTimer := false, aborted := c.aborted || env.throws.isNone })[j]? = some d := by
        rw [List.getElem?_set_ne (Ne.symm hji), hj]
      have haborted := hall d (List.mem_of_getElem? hother) hdactive
      rw [hunaborted hj] at haborted
      cases haborted
  · intro halone _ _ d hmem hdactive
    obtain ⟨hreturns, honly⟩ := halone hne
    obtain ⟨j, hj⟩ := List.mem_iff_getElem?.mp hmem
    rw [hcalls] at hj
    rcases getElem?_set_cases hj with ⟨-, rfl⟩ | ⟨hji, hj⟩
    · simp [hreturns]
    · exact absurd (honly j d hj hdactive) hji

theorem abortsAll_iff {settings : Settings} {s s' : Instance} {a : Action} {o : List Effect}
    (h : LifecycleInv s) (hstep : (worker settings).step s a = some (s', o)) :
    AbortsAll s a s' o ↔ DrainsAlone s a s' o := by
  cases step_lifecycle hstep with
  | calm ha hcalm =>
      refine iff_of_true (abortsAll_of_calm fun hd => hcalm.state ▸ hd) ?_
      cases a with
      | drainTimer i env => exact absurd rfl (ha i env)
      | _ => trivial
  | admitted ha hadmits hstate haborted hsilent =>
      subst ha
      refine iff_of_true (abortsAll_of_calm fun hd => ?_) trivial
      rw [hstate] at hd
      split at hd
      · cases hd
      · exact hd
  | fired ha hc htimer hr =>
      subst ha
      exact abortsAll_fired_iff h hc htimer hr

/-- Entering `DRAINING` aborts everything in flight along a run exactly when the first
drain timer that fires is that of the only call in flight, and the `emit` of
`WORKER_DRAINING` returns. -/
theorem aborts_all_iff {settings : Settings} {s₀ : Instance} (hnew : Created s₀)
    (as : List Action) :
    (worker settings).Along AbortsAll s₀ as ↔ (worker settings).Along DrainsAlone s₀ as :=
  Machine.Along.congr (I := LifecycleInv) (fun _ _ _ _ h hstep => abortsAll_iff h hstep)
    (fun _ _ _ _ h hstep _ => h.step hstep) hnew.lifecycleInv

/-- Two tasks are in flight when the drain timer of the first one fires.  The worker enters
`DRAINING` and the second task is not aborted. -/
theorem second_task_not_aborted :
    let submit : String → TaskSubmit := fun id => ⟨id, some (.obj [("prompt", .str "a")])⟩
    let turn : Int → Turn := fun now => ⟨now, ⟨now, none⟩, ⟨now, none⟩⟩
    let as : List Action := [.execute (submit "t1") (turn 0), .start 0 0,
      .execute (submit "t2") (turn 30000), .start 1 30000, .drainTimer 0 ⟨55000, none⟩]
    ∃ s₀, Created s₀ ∧ ((worker ⟨60000, 5000, id⟩).run s₀ as).isSome = true ∧
      ¬ (worker ⟨60000, 5000, id⟩).Along AbortsAll s₀ as := by
  intro submit turn as
  exact ⟨.ofDefaults, created_ofDefaults, by decide, by decide⟩

/-- With one task in flight the drain timer aborts all there is. -/
theorem aborts_all_iff_oneTask :
    let turn : Turn := ⟨0, ⟨0, none⟩, ⟨0, none⟩⟩
    let as : List Action := [.execute ⟨"t1", some (.obj [("prompt", .str "a")])⟩ turn,
      .start 0 0, .drainTimer 0 ⟨55000, none⟩, .settle 0 (.error (.value "aborted")) turn]
    ∃ s₀, Created s₀ ∧ (worker ⟨60000, 5000, id⟩).Along AbortsAll s₀ as := by
  intro turn as
  have hnew := created_ofDefaults
  refine ⟨_, hnew, (aborts_all_iff hnew as).mpr ?_⟩
  refine ⟨_, _, rfl, trivial, _, _, rfl, trivial, _, _, rfl, ?_, _, _, rfl, trivial, trivial⟩
  rintro -
  refine ⟨rfl, ?_⟩
  intro j c hc hactive
  cases j with
  | zero => rfl
  | succ j => cases hc

end L0Worker.Worker
