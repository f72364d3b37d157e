import L0Worker.Lib.Automaton
import L0Worker.Worker.Calls

/-!
# The life of one call

An abstract account of a call of `executeTaskWithEvents`: the stages it goes
through and the effects that take it from one to the next.  A call acquires a
slot, announces itself, runs, reports its end, releases the slot and settles.
When `emit` throws on the way, only `TASK_FAILED` may follow (`caught`), and when
the `catch` block throws as well, at that `emit` or before it, the report is lost.

The account says nothing about the other calls.  `run_tracks` shows that every call
of a worker follows it in every run, whatever the calls around it do.
-/

namespace L0Worker.Worker

/-- The stages of a call. -/
inductive Stage where
  /-- It has not acquired a slot. -/
  | idle
  /-- It acquired a slot. -/
  | acquired
  /-- `TASK_ACCEPTED` was emitted. -/
  | announced
  /-- `TASK_ACCEPTED` was recorded. -/
  | running
  /-- An `emit` threw, and `TASK_FAILED` is next. -/
  | caught
  /-- A terminal event was emitted. -/
  | closing
  /-- A terminal event was recorded. -/
  | closed
  /-- The `catch` block threw. -/
  | lost
  /-- The slot was released, after a terminal event was recorded or not. -/
  | released (reported : Bool)
  /-- The promise settled. -/
  | settled (reported : Bool)
deriving DecidableEq

/-- The executor may report progress.  With `late` it may do so when it has settled. -/
def Stage.listens (late : Bool) : Stage → Bool
  | .running => true
  | .closed | .settled _ => late
  | _ => false

/-- The drain timer may fire. -/
def Stage.isOpen : Stage → Bool
  | .running | .closed => true
  | _ => false

/-- The stage after an effect. -/
def Stage.next (late : Bool) : Stage → Effect → Option Stage
  | .idle, .acquired _ _ => some .acquired
  | .acquired, .emitted _ (.taskAccepted _ _ _) => some .announced
  | .acquired, .emitThrew _ (.taskAccepted _ _ _) => some .caught
  | .announced, .recorded _ _ (.taskAccepted _ _ _) => some .running
  | .running, .emitted _ (.taskCompleted _ _ _ _ _ _)
  | .running, .emitted _ (.taskFailed _ _ _ _ _ _)
  | .caught, .emitted _ (.taskFailed _ _ _ _ _ _) => some .closing
  | .running, .emitThrew _ (.taskCompleted _ _ _ _ _ _) => some .caught
  | .running, .emitThrew _ (.taskFailed _ _ _ _ _ _) | .running, .catchThrew _
  | .caught, .emitThrew _ (.taskFailed _ _ _ _ _ _) | .caught, .catchThrew _ => some .lost
  | .closing, .recorded _ _ (.taskCompleted _ _ _ _ _ _)
  | .closing, .recorded _ _ (.taskFailed _ _ _ _ _ _) => some .closed
  | .closed, .released _ _ => some (.released true)
  | .lost, .released _ _ => some (.released false)
  | .released true, .settled _ none => some (.settled true)
  | .released false, .settled _ (some _) => some (.settled false)
  | q, .emitted _ (.taskProgress _ _ _ _) | q, .emitThrew _ (.taskProgress _ _ _ _)
  | q, .recorded _ _ (.taskProgress _ _ _ _) | q, .forwarded _ _ =>
      if q.listens late then some q else none
  | q, .emitted _ (.workerDraining _ _ _) | q, .emitThrew _ (.workerDraining _ _ _)
  | q, .transitionRefused _ =>
      if q.isOpen then some q else none
  | _, _ => none

/-! ## The calls of a worker follow the account -/

/-- The stage of a call that is at a phase between two steps. -/
def Phase.stage : Phase → Stage
  | .accepted | .executing _ => .running
  | .finishing => .closed
  | .settled none => .settled true
  | .settled (some _) => .settled false

/-- The stage of the call with a number. -/
def Instance.stage (s : Instance) (i : Nat) : Stage :=
  match s.calls[i]? with
  | some c => c.phase.stage
  | none => .idle

theorem Instance.stage_congr {s s' : Instance} {i : Nat} (h : s'.calls[i]? = s.calls[i]?) :
    s'.stage i = s.stage i := by
  rw [Instance.stage, Instance.stage, h]

theorem Instance.stage_of_calls {s s' : Instance} (h : s'.calls = s.calls) (i : Nat) :
    s'.stage i = s.stage i :=
  Instance.stage_congr (by rw [h])

theorem Instance.stage_of_some {s : Instance} {i : Nat} {c : Call} (h : s.calls[i]? = some c) :
    s.stage i = c.phase.stage := by
  rw [Instance.stage, h]

/-- The other calls stay as they are. -/
def OthersKept (i : Nat) (s s' : Instance) : Prop :=
  ∀ j, j ≠ i → s'.calls[j]? = s.calls[j]?

theorem OthersKept.of_set {s s' : Instance} {i : Nat} {c : Call}
    (h : s'.calls = s.calls.set i c) : OthersKept i s s' := by
  intro j hj
  rw [h, List.getElem?_set_ne (Ne.symm hj)]

/-- An effect of a call, about its task if about any. -/
def Effect.IsOf (i : Nat) (taskId : String) (e : Effect) : Prop :=
  e.call? = some i ∧ ∀ id, e.taskId? = some id → id = taskId

/-- The effects of a piece of a step take call `i`, for this task, from stage `q` to
stage `q'`, and concern no other call. -/
structure Drives (late : Bool) (i : Nat) (taskId : String) (q q' : Stage) (s s' : Instance)
    (o : List Effect) : Prop where
  /-- The effects belong to the call. -/
  own : ∀ e ∈ o, e.IsOf i taskId
  others : OthersKept i s s'
  /-- The account is followed. -/
  follows : accept (Stage.next late) q o = some q'

namespace Drives

variable {late : Bool} {i : Nat} {taskId : String} {q q' q'' : Stage} {s s₁ s' : Instance}
  {o o' : List Effect}

theorem append (h : Drives late i taskId q q' s s₁ o) (h' : Drives late i taskId q' q'' s₁ s' o') :
    Drives late i taskId q q'' s s' (o ++ o') := by
  refine ⟨?_, fun j hj => (h'.others j hj).trans (h.others j hj), ?_⟩
  · exact List.forall_mem_append.mpr ⟨h.own, h'.own⟩
  · rw [accept_append, h.follows, Option.bind_some, h'.follows]

/-- Moving the call on by itself has no effects. -/
theorem setCall (h : Drives late i taskId q q' s s₁ o) (c : Call) :
    Drives late i taskId q q' s (s₁.setCall i c) o :=
  ⟨h.own, fun j hj => (OthersKept.of_set rfl j hj).trans (h.others j hj), h.follows⟩

/-- Only the calls of the first state matter. -/
theorem of_calls (h : Drives late i taskId q q' s₁ s' o) (hc : s₁.calls = s.calls) :
    Drives late i taskId q q' s s' o :=
  ⟨h.own, fun j hj => (h.others j hj).trans (by rw [hc]), h.follows⟩

/-- A step that drives one call from its stage before to its stage after. -/
theorem tracks (h : Drives late i taskId (s.stage i) (s'.stage i) s s' o) (j : Nat) :
    accept (Stage.next late) (s.stage j) (outputsOf Effect.call? j o) = some (s'.stage j) := by
  by_cases hj : j = i
  · subst hj
    rw [outputsOf_eq_self fun e he => (h.own e he).1]
    exact h.follows
  · rw [outputsOf_eq_nil, accept_nil, Instance.stage_congr (h.others j hj)]
    intro e he heq
    rw [(h.own e he).1] at heq
    exact hj (Option.some.inj heq).symm

end Drives

section Pieces

variable {late : Bool} {s : Instance} {i : Nat}

theorem stage_of_set {s' : Instance} {c : Call} (hi : i < s.calls.length)
    (h : s'.calls = s.calls.set i c) : s'.stage i = c.phase.stage := by
  rw [Instance.stage, h, List.getElem?_set_self hi]

/-- A report whose `emit` returns. -/
theorem report_drives_returns {taskId : String} {event : Int → OutboundEvent} {env : EmitEnv}
    {q q' : Stage} (henv : env.throws = none) (hid : ∀ ts, (event ts).taskId? = some taskId)
    (h : ∀ ts, accept (Stage.next late) q
      [.emitted i (event ts), .recorded i taskId (event ts)] = some q') :
    Drives late i taskId q q' s (s.report i taskId event env).1
      (s.report i taskId event env).2 := by
  refine ⟨?_, fun j _ => by rw [Instance.report_calls], ?_⟩
  · rw [Instance.report_returns henv]
    simp [Effect.IsOf, Effect.call?, Effect.taskId?, hid]
  · rw [Instance.report_returns henv]
    exact h _

/-- A report whose `emit` throws. -/
theorem report_drives_throws {taskId : String} {event : Int → OutboundEvent} {env : EmitEnv}
    {e : Thrown} {q q' : Stage} (henv : env.throws = some e)
    (hid : ∀ ts, (event ts).taskId? = some taskId)
    (h : ∀ ts, q.next late (.emitThrew i (event ts)) = some q') :
    Drives late i taskId q q' s (s.report i taskId event env).1
      (s.report i taskId event env).2 := by
  refine ⟨?_, fun j _ => by rw [Instance.report_calls], ?_⟩
  · rw [Instance.report_throws henv]
    simp [Effect.IsOf, Effect.call?, Effect.taskId?, hid]
  · rw [Instance.report_throws henv, accept_cons, h]
    rfl

/-- The `finally` block. -/
theorem finallyBlock_drives (c : Call) (error : Option Thrown) :
    Drives late i c.taskId (if error = none then .closed else .lost) (Phase.settled error).stage s
      (s.finallyBlock i c error).1 (s.finallyBlock i c error).2 := by
  refine ⟨?_, OthersKept.of_set rfl, ?_⟩
  · simp [Instance.finallyBlock, Effect.IsOf, Effect.call?, Effect.taskId?]
  · cases error with
    | none => rfl
    | some e => rfl

/-- The `catch` block, entered from the executor or from an `emit` that threw. -/
theorem catchBlock_drives (hi : i < s.calls.length) (c : Call) (error : Thrown) (env : EmitEnv)
    {q : Stage} (hq : q = .running ∨ q = .caught) :
    Drives late i c.taskId q ((s.catchBlock i c error env).1.stage i) s
      (s.catchBlock i c error env).1 (s.catchBlock i c error env).2 := by
  have hcaught := s.catchBlock_caught i c error env
  generalize s.catchBlock i c error env = r at hcaught ⊢
  cases hcaught with
  | @unread thrown hfailure =>
      rw [stage_of_set (c := { c with drainTimer := false, phase := .settled thrown }) hi rfl]
      have hfinally : Drives late i c.taskId .lost (Phase.settled (some thrown)).stage s _ _ :=
        finallyBlock_drives c (some thrown)
      refine ⟨List.forall_mem_cons.mpr ⟨⟨rfl, fun _ h => nomatch h⟩, hfinally.own⟩,
        hfinally.others, ?_⟩
      rcases hq with rfl | rfl
      · exact hfinally.follows
      · exact hfinally.follows
  | reported hfailure henv =>
      rw [stage_of_set (s := s) (c := { c with phase := .finishing }) hi (by
        rw [Instance.setCall, Instance.reportFailure, Instance.report_calls])]
      refine (report_drives_returns henv (fun _ => rfl) ?_).setCall _
      intro ts
      rcases hq with rfl | rfl
      · rfl
      · rfl
  | @lost failureClass message thrown hfailure henv =>
      rw [stage_of_set (s := s) (c := { c with drainTimer := false, phase := .settled thrown }) hi
        (by rw [Instance.finallyBlock, Instance.reportFailure, Instance.report_calls])]
      refine (report_drives_throws henv (fun _ => rfl) ?_).append
        (finallyBlock_drives c (some thrown))
      intro ts
      rcases hq with rfl | rfl
      · rfl
      · rfl

/-- The `try` block up to its first `await`, in a call that has just acquired its
slot. -/
theorem tryBlock_drives {c : Call} (hc : s.calls[i]? = some c) (hphase : c.phase = .accepted)
    (turn : Turn) :
    Drives late i c.taskId .acquired ((s.tryBlock i c turn).1.stage i) s (s.tryBlock i c turn).1
      (s.tryBlock i c turn).2 := by
  have hi : i < s.calls.length := (List.getElem?_eq_some_iff.mp hc).1
  rw [Instance.tryBlock_eq]
  dsimp only
  cases henv : turn.event.throws with
  | none =>
      have hstage : (s.accepting.report i c.taskId
          (.taskAccepted c.taskId s.worker.configManager.workerId) turn.event).1.stage i =
          .running := by
        rw [Instance.stage_of_calls (Instance.report_calls ..),
          Instance.stage_of_some (s := s.accepting) hc, hphase, Phase.stage]
      dsimp only
      rw [hstage]
      exact (report_drives_returns henv (fun _ => rfl) fun ts => rfl).of_calls rfl
  | some e =>
      -- the exception leads to the `catch` block of the same turn
      have hreport : Drives late i c.taskId .acquired .caught s.accepting
          (s.accepting.report i c.taskId
            (.taskAccepted c.taskId s.worker.configManager.workerId) turn.event).1
          (s.accepting.report i c.taskId
            (.taskAccepted c.taskId s.worker.configManager.workerId) turn.event).2 :=
        report_drives_throws henv (fun _ => rfl) fun ts => rfl
      refine (hreport.append (catchBlock_drives ?_ c e turn.failed (.inr rfl))).of_calls rfl
      rw [Instance.report_calls]
      exact hi

/-- A callback, while the executor is listened to. -/
theorem callback_drives {c : Call} (hc : s.calls[i]? = some c)
    (hl : c.phase.stage.listens late = true) (env : EmitEnv) (cb : Callback) :
    Drives late i c.taskId (s.stage i) ((s.callback i c env cb).1.stage i) s
      (s.callback i c env cb).1 (s.callback i c env cb).2 := by
  have hprogress : ∀ stage metadata,
      Drives late i c.taskId c.phase.stage c.phase.stage s
        (s.report i c.taskId (.taskProgress c.taskId stage metadata) env).1
        (s.report i c.taskId (.taskProgress c.taskId stage metadata) env).2 := by
    intro stage metadata
    cases henv : env.throws with
    | none => exact report_drives_returns henv (fun _ => rfl) fun ts => by simp [Stage.next, hl]
    | some e => exact report_drives_throws henv (fun _ => rfl) fun ts => by simp [Stage.next, hl]
  rw [Instance.stage_of_calls (Instance.callback_calls ..), Instance.stage_of_some hc]
  cases cb with
  | onFirstToken => exact hprogress .firstToken none
  | onToolCall name args => exact hprogress .toolInvoked (some ⟨name, args⟩)
  | onL0Event event =>
      unfold Instance.callback
      dsimp only
      split
      · exact ⟨by simp [Effect.IsOf, Effect.call?, Effect.taskId?], fun _ _ => rfl,
          by simp [Stage.next, hl]⟩
      · exact ⟨by simp, fun _ _ => rfl, rfl⟩

/-- The continuation after the executor. -/
theorem executorSettled_drives (settings : Settings) (hi : i < s.calls.length) (c : Call)
    (startTime : Int) (outcome : Except Thrown ExecutionResult) (turn : Turn) :
    Drives late i c.taskId .running
      ((s.executorSettled settings i c startTime outcome turn).1.stage i) s
      (s.executorSettled settings i c startTime outcome turn).1
      (s.executorSettled settings i c startTime outcome turn).2 := by
  cases outcome with
  | error e => exact catchBlock_drives hi c e turn.failed (.inl rfl)
  | ok result =>
      unfold Instance.executorSettled
      dsimp only
      cases henv : turn.event.throws with
      | none =>
          dsimp only
          rw [stage_of_set (s := s) (c := { c with phase := .finishing }) hi (by
            rw [Instance.setCall, Instance.report_calls])]
          exact (report_drives_returns henv (fun _ => rfl) fun ts => rfl).setCall _
      | some e =>
          refine (report_drives_throws henv (fun _ => rfl) fun ts => rfl).append
            (catchBlock_drives ?_ c e turn.failed (.inr rfl))
          rw [Instance.report_calls]
          exact hi

/-- The drain timer of a call that has not released its slot. -/
theorem drainTimerFired_drives {c : Call} (hc : s.calls[i]? = some c)
    (hopen : c.phase.stage.isOpen = true) (env : EmitEnv) :
    Drives late i c.taskId (s.stage i) ((s.drainTimerFired i c env).1.stage i) s
      (s.drainTimerFired i c env).1 (s.drainTimerFired i c env).2 := by
  have hi : i < s.calls.length := (List.getElem?_eq_some_iff.mp hc).1
  have hset : ∀ {s₁ : Instance} {c' : Call} {o : List Effect}, s₁.calls = s.calls →
      c'.phase = c.phase → (∀ e ∈ o, e.IsOf i c.taskId) →
      accept (Stage.next late) c.phase.stage o = some c.phase.stage →
      Drives late i c.taskId (s.stage i) ((s₁.setCall i c').stage i) s (s₁.setCall i c') o := by
    intro s₁ c' o hcalls hphase hown hfollows
    have hs : (s₁.setCall i c').calls = s.calls.set i c' := by rw [Instance.setCall, hcalls]
    rw [stage_of_set hi hs, Instance.stage_of_some hc, hphase]
    exact ⟨hown, OthersKept.of_set hs, hfollows⟩
  have hdraining : ∀ {workerId reason : String} {ts : Int} {e : Effect},
      e ∈ [Effect.emitted i (.workerDraining workerId reason ts)] ∨
        e ∈ [Effect.emitThrew i (.workerDraining workerId reason ts)] → e.IsOf i c.taskId := by
    intro workerId reason ts e he
    rcases he with he | he
    · rw [List.mem_singleton.mp he]
      exact ⟨rfl, by simp [Effect.taskId?, OutboundEvent.taskId?]⟩
    · rw [List.mem_singleton.mp he]
      exact ⟨rfl, by simp [Effect.taskId?, OutboundEvent.taskId?]⟩
  unfold Instance.drainTimerFired
  split
  · exact hset rfl rfl (List.forall_mem_nil _) rfl
  · split
    · refine hset rfl rfl (List.forall_mem_singleton.mpr ⟨rfl, fun _ h => nomatch h⟩) ?_
      simp [Stage.next, hopen]
    · dsimp only
      split
      · exact hset rfl rfl (fun e he => hdraining (.inl he)) (by simp [Stage.next, hopen])
      · exact hset rfl rfl (fun e he => hdraining (.inr he)) (by simp [Stage.next, hopen])

end Pieces

/-! ## Every step follows the account -/

/-- No callback comes after the executor has settled. -/
def Action.CallsBackInTime (s : Instance) : Action → Prop
  | .callback i _ _ => ∃ c, s.calls[i]? = some c ∧ c.phase.startTime?.isSome = true
  | _ => True

theorem Call.stage_isOpen {c : Call} (h : c.isActive = true) : c.phase.stage.isOpen = true := by
  unfold Call.isActive at h
  cases hp : c.phase with
  | settled error => rw [hp] at h; cases h
  | _ => rfl

/-- Late callbacks are covered wherever the call is. -/
theorem Phase.stage_listens (p : Phase) : p.stage.listens true = true := by
  cases p with
  | settled error => cases error with
    | none => rfl
    | some e => rfl
  | _ => rfl

theorem Phase.stage_of_startTime {p : Phase} (h : p.startTime?.isSome = true) :
    p.stage = .running := by
  cases p with
  | executing startTime => rfl
  | _ => cases h

/-- What a step does to the stages of the calls. -/
inductive StepDrives (late : Bool) (s : Instance) (a : Action) (s' : Instance)
    (o : List Effect) : Prop where
  /-- It touches no call. -/
  | silent (hcalls : s'.calls = s.calls) (hnone : ∀ e ∈ o, e.call? = none)
      (hreplay : a.isReplay = true ∨ ∀ e ∈ o, e.isReplay = false)
  /-- It drives one call. -/
  | driven {i : Nat} {c' : Call} (hc : s'.calls[i]? = some c')
      (hdrives : Drives late i c'.taskId (s.stage i) (s'.stage i) s s' o)

theorem StepDrives.of_moves {late : Bool} {s s' : Instance} {a : Action} {o : List Effect}
    {i : Nat} {c c' : Call} (hc : s.calls[i]? = some c) (hm : Moves i c c' s s')
    (hd : Drives late i c.taskId (s.stage i) (s'.stage i) s s' o) : StepDrives late s a s' o := by
  have hc' : s'.calls[i]? = some c' := by
    rw [hm.calls, List.getElem?_set_self (List.getElem?_eq_some_iff.mp hc).1]
  exact .driven hc' (hm.taskId ▸ hd)

/-- A new call, up to its first `await`. -/
theorem executeTaskWithEvents_drives {late : Bool} (settings : Settings) (s : Instance)
    (submit : TaskSubmit) (turn : Turn) :
    StepDrives late s (.execute submit turn) (s.executeTaskWithEvents settings submit turn).1
      (s.executeTaskWithEvents settings submit turn).2 := by
  rcases s.executeTaskWithEvents_cases settings submit turn with
    ⟨-, reason, heq⟩ | ⟨-, slots, c, r, -, hc, rfl, heq⟩
  · rw [heq]
    exact .silent rfl (by simp [Effect.call?]) (.inr (by simp [Effect.isReplay]))
  · rw [heq]
    have hlast : (s.addCall slots c).calls[s.calls.length]? = some c :=
      List.getElem?_concat_length
    have htask : c.taskId = submit.taskId := by rw [hc]; rfl
    have htry : Drives late s.calls.length c.taskId _ _ _ _ _ :=
      tryBlock_drives hlast (by rw [hc]; rfl) turn
    obtain ⟨c', hm⟩ := tryBlock_moves (s.addCall slots c) s.calls.length hlast
      (by rw [hc]; rfl) turn
    have hc' : ((s.addCall slots c).tryBlock s.calls.length c turn).1.calls[s.calls.length]? =
        some c' := by
      rw [hm.calls, List.getElem?_set_self (List.getElem?_eq_some_iff.mp hlast).1]
    refine .driven hc' ?_
    rw [hm.taskId]
    refine ⟨List.forall_mem_cons.mpr ⟨⟨rfl, ?_⟩, htry.own⟩, ?_, ?_⟩
    · intro id hid
      rw [htask]
      exact (Option.some.inj hid).symm
    · intro k hk
      rw [htry.others k hk]
      exact getElem?_concat_of_ne hk
    · have hidle : s.stage s.calls.length = .idle := by simp [Instance.stage]
      rw [hidle]
      exact htry.follows

/-- Every step drives at most one call. -/
theorem step_drives {late : Bool} {settings : Settings} {s s' : Instance} {a : Action}
    {o : List Effect} (ht : TimersActive s) (hstep : (worker settings).step s a = some (s', o))
    (hcb : late = true ∨ a.CallsBackInTime s) : StepDrives late s a s' o := by
  cases step_cases hstep with
  | execute submit turn => exact executeTaskWithEvents_drives settings s submit turn
  | @start i c dateNow hc hphase =>
      have hstage : (s.startExecutor i c dateNow).stage i = (Phase.executing dateNow).stage :=
        stage_of_set (c := { c with phase := .executing dateNow, executorStarted := true })
          (List.getElem?_eq_some_iff.mp hc).1 rfl
      refine .of_moves hc (setCall_moves s i c _ rfl rfl)
        ⟨List.forall_mem_nil _, OthersKept.of_set rfl, ?_⟩
      rw [hstage, Instance.stage_of_some hc, hphase]
      rfl
  | @callback i c cb env hc =>
      refine .driven (by rw [Instance.callback_calls]; exact hc) (callback_drives hc ?_ env cb)
      rcases hcb with rfl | ⟨d, hd, hstart⟩
      · exact c.phase.stage_listens
      · obtain rfl := Option.some.inj (hc.symm.trans hd)
        rw [Phase.stage_of_startTime hstart]
        rfl
  | @settle i c startTime outcome turn hc hstart =>
      have hrunning : s.stage i = .running := by
        rw [Instance.stage_of_some hc]
        exact Phase.stage_of_startTime (by rw [hstart]; rfl)
      obtain ⟨c', hm⟩ := executorSettled_moves s i c settings startTime outcome turn
      refine .of_moves hc hm ?_
      rw [hrunning]
      exact executorSettled_drives settings (List.getElem?_eq_some_iff.mp hc).1 c startTime
        outcome turn
  | @finish i c hc hphase =>
      have hstage : (s.finallyBlock i c none).1.stage i = (Phase.settled none).stage :=
        stage_of_set (c := { c with drainTimer := false, phase := .settled none })
          (List.getElem?_eq_some_iff.mp hc).1 rfl
      refine .of_moves hc (finallyBlock_moves s i c none) ?_
      rw [hstage, Instance.stage_of_some hc, hphase]
      exact finallyBlock_drives c none
  | @drainTimer i c env hc htimer =>
      obtain ⟨c', hm⟩ := drainTimerFired_moves s i (ht i c hc htimer) env
      exact .of_moves hc hm (drainTimerFired_drives hc (Call.stage_isOpen (ht i c hc htimer)) env)
  | updateConfig u =>
      exact .silent rfl (by simp [Effect.call?]) (.inr (by simp [Effect.isReplay]))
  | replay request => exact .silent rfl (List.forall_mem_nil _) (.inl rfl)
  | found hr hphase => exact .silent rfl (List.forall_mem_nil _) (.inl rfl)
  | notFound hr hphase => exact .silent rfl (by simp [Effect.call?]) (.inl rfl)
  | @replayLoop j r throws hr hphase =>
      exact .silent rfl (fun e he => (s.replayLoop_effects j r throws e he).1) (.inl rfl)

/-! ## Every run follows the account -/

/-- In every step, every call follows the account. -/
theorem StepDrives.tracks {late : Bool} {s s' : Instance} {a : Action} {o : List Effect}
    (h : StepDrives late s a s' o) (j : Nat) :
    accept (Stage.next late) (s.stage j) (outputsOf Effect.call? j o) = some (s'.stage j) := by
  cases h with
  | silent hcalls hnone hreplay =>
      rw [outputsOf_eq_nil, accept_nil, Instance.stage_of_calls hcalls]
      intro e he heq
      rw [hnone e he] at heq
      cases heq
  | driven hc hdrives => exact hdrives.tracks j

theorem Created.stage {s : Instance} (h : Created s) (i : Nat) : s.stage i = .idle := by
  obtain ⟨input, w, clock, -, rfl⟩ := h
  rfl

/-- In every run, every call follows the account. -/
theorem run_tracks {late : Bool} {settings : Settings} {s₀ s : Instance} {as : List Action}
    {out : List Effect} (hnew : Created s₀) (hrun : (worker settings).run s₀ as = some (s, out))
    (hcb : (worker settings).Along (fun s a _ _ => late = true ∨ a.CallsBackInTime s) s₀ as)
    (i : Nat) :
    accept (Stage.next late) .idle (outputsOf Effect.call? i out) = some (s.stage i) := by
  rw [← hnew.stage i]
  exact Machine.run_tracks (I := CallsInv) (fun _ _ _ _ h hu => h.step hu)
    (fun _ _ _ _ h hu hcb => (step_drives h.timers hu hcb).tracks) hnew.callsInv hcb hrun i

end L0Worker.Worker
