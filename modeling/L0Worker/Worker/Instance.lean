import L0Worker.Lib.Machine
import L0Worker.Worker.Store

/-!
# A worker at work

The machine of one `VercelWorker` with any number of calls in flight.  A step is
what happens between two points where an `async` function yields: a call of
`executeTaskWithEvents` up to its first `await`, the continuation of one of its
awaits, a callback from the executor, the drain timer of a call, a configuration
update, or a piece of a replay.  The executor is the environment.  It calls the
callbacks it was given, at any time once it was started, and its promise
resolves or rejects with anything.

Every `emit` may throw, which is what it does when the client has gone.  The
environment decides, for each `emit` of a step, whether it returns.

The outputs say what happened, in order: which slot was acquired and released,
which events were emitted and recorded, and which `emit` threw.  Each carries the
number of the call it belongs to; calls are numbered as they acquire a slot.
-/

namespace L0Worker.Worker

/-! ## State -/

/-- What the deployment fixes: the timeouts, and the hash function of the
runtime. -/
structure Settings where
  /-- The timeout of the function, zero for none. -/
  functionTimeoutMs : Int
  /-- How long before the timeout the worker drains. -/
  drainBufferMs : Int
  /-- `sha256`, in hexadecimal. -/
  sha256 : String → String

/-- A drain timer is set for each call. -/
def Settings.setsDrainTimer (settings : Settings) : Bool :=
  decide (0 < settings.functionTimeoutMs) &&
    decide (0 < settings.functionTimeoutMs - settings.drainBufferMs)

/-- A worker instance. -/
structure VercelWorker where
  stateMachine : WorkerState
  configManager : ConfigManager
  slots : SlotManager
  eventStore : MemoryEventStore

/-- The constructor, `none` where it throws. -/
def VercelWorker.new (input : WorkerConfigInput) : Option VercelWorker :=
  match ConfigManager.new input with
  | none => none
  | some configManager =>
      match SlotManager.new configManager.runtime.maxConcurrency,
        WorkerState.boot.transition .ready with
      | .ok slots, .ok stateMachine =>
          some { stateMachine, configManager, slots, eventStore := .new 0 }
      | _, _ => none

/-- `VercelWorker.updateConfig`, with what it throws.  The listener sets the limit
of the slots. -/
def VercelWorker.updateConfig (w : VercelWorker) (u : ConfigUpdate) :
    Option Thrown × VercelWorker :=
  match w.configManager.update u with
  | .error e => (some e, w)
  | .ok configManager =>
      match w.slots.setMaxConcurrency configManager.runtime.maxConcurrency with
      | .error e => (some e, { w with configManager })
      | .ok slots => (none, { w with configManager, slots })

/-- Where a call of `executeTaskWithEvents` is. -/
inductive Phase where
  /-- It awaits the record of `TASK_ACCEPTED`. -/
  | accepted
  /-- It awaits the executor, started at this time. -/
  | executing (startTime : Int)
  /-- It awaits the record of the terminal event. -/
  | finishing
  /-- It returned, or threw. -/
  | settled (error : Option Thrown)
deriving DecidableEq

/-- When the executor was started, while it is awaited. -/
def Phase.startTime? : Phase → Option Int
  | .executing startTime => some startTime
  | _ => none

/-- A call of `executeTaskWithEvents` that acquired a slot. -/
structure Call where
  taskId : String
  phase : Phase
  /-- The executor was started, so it holds the callbacks. -/
  executorStarted : Bool
  /-- The drain timer is set and has not fired. -/
  drainTimer : Bool
  aborted : Bool
deriving DecidableEq

/-- The call has not finished. -/
def Call.isActive (c : Call) : Bool :=
  match c.phase with
  | .settled _ => false
  | _ => true

/-- Where a call of `replayWithValidation` is. -/
inductive ReplayPhase where
  /-- It awaits `hasTask`, which said this. -/
  | checked (hasTask : Bool)
  /-- It awaits `getEventsForTask`. -/
  | fetched
  /-- It returned, or threw. -/
  | settled (result : Except Thrown ReplayResult)

/-- A call of `replay`. -/
structure ReplayCall where
  taskId : String
  expectedOutputHash : Option String
  phase : ReplayPhase

/-- A worker with its calls. -/
structure Instance where
  worker : VercelWorker
  /-- The clock of the process. -/
  clock : MonotonicClock
  /-- The calls that acquired a slot, oldest first. -/
  calls : List Call
  /-- The replays, oldest first. -/
  replays : List ReplayCall

/-- A new worker. -/
def Instance.init (worker : VercelWorker) (clock : MonotonicClock) : Instance where
  worker := worker
  clock := clock
  calls := []
  replays := []

/-! ## What a step meets and what it does -/

/-- `TASK_SUBMIT`, as far as the worker itself reads it. -/
structure TaskSubmit where
  taskId : String
  payload : Option Json

/-- Why a call does not get a slot. -/
inductive Rejection where
  /-- The payload does not parse. -/
  | invalidPayload
  /-- `Duplicate task ID`. -/
  | duplicate
  /-- `No slots available`. -/
  | noSlots
deriving Repr, DecidableEq

/-- What one `emit` with a new timestamp meets. -/
structure EmitEnv where
  /-- The reading of the system clock. -/
  now : Int
  /-- What `emit` throws, if it does. -/
  throws : Option Thrown
deriving DecidableEq

/-- What a turn of `executeTaskWithEvents` meets. -/
structure Turn where
  /-- The reading of the system clock that is not for a timestamp. -/
  dateNow : Int
  /-- For the event the turn is about. -/
  event : EmitEnv
  /-- For `TASK_FAILED`, if the turn gets there. -/
  failed : EmitEnv

/-- A callback from the executor. -/
inductive Callback where
  | onFirstToken
  | onL0Event (event : L0Event)
  | onToolCall (name : String) (args : Json)

/-- What the executor resolves to, as far as the worker reads it. -/
structure ExecutionResult where
  content : String
  tokenCount : Number
  inputTokens : Number
  outputTokens : Number

/-- `TASK_REPLAY_REQUEST`, as far as the worker itself reads it. -/
structure TaskReplayRequest where
  taskId : String
  expectedOutputHash : Option String

/-- What happened in a step. -/
inductive Effect where
  /-- A call acquired the slot of its task. -/
  | acquired (call : Nat) (taskId : String)
  /-- A call released the slot of its task. -/
  | released (call : Nat) (taskId : String)
  | rejected (taskId : String) (reason : Rejection)
  /-- An `emit` returned. -/
  | emitted (call : Nat) (event : OutboundEvent)
  /-- An `emit` threw. -/
  | emitThrew (call : Nat) (event : OutboundEvent)
  /-- A transition of the lifecycle was refused. -/
  | transitionRefused (call : Nat)
  /-- The `catch` block threw before its `emit`. -/
  | catchThrew (call : Nat)
  /-- An event of the runtime was forwarded. -/
  | forwarded (call : Nat) (event : L0Event)
  /-- An event was recorded under a task. -/
  | recorded (call : Nat) (taskId : String) (event : OutboundEvent)
  /-- The promise of a call settled. -/
  | settled (call : Nat) (error : Option Thrown)
  /-- A replay emitted an event. -/
  | replayed (replay : Nat) (event : OutboundEvent)
  /-- The promise of a replay settled. -/
  | replaySettled (replay : Nat) (result : Except Thrown ReplayResult)
  /-- `updateConfig` returned, or threw. -/
  | configUpdated (error : Option Thrown)

/-- The call an effect belongs to. -/
def Effect.call? : Effect → Option Nat
  | .acquired i _ | .released i _ | .emitted i _ | .emitThrew i _ | .transitionRefused i
  | .catchThrew i | .forwarded i _ | .recorded i _ _ | .settled i _ => some i
  | .rejected _ _ | .replayed _ _ | .replaySettled _ _ | .configUpdated _ => none

/-- The task an effect of a call is about. -/
def Effect.taskId? : Effect → Option String
  | .acquired _ id | .released _ id | .recorded _ id _ => some id
  | .emitted _ event | .emitThrew _ event => event.taskId?
  | _ => none

/-- The effect is one of a replay. -/
def Effect.isReplay : Effect → Bool
  | .replayed _ _ | .replaySettled _ _ => true
  | _ => false

/-! ## `executeTaskWithEvents` -/

namespace Instance

/-- `clock.now()`. -/
def clockNow (s : Instance) (now : Int) : Int × Instance :=
  let (ts, clock) := s.clock.now now
  (ts, { s with clock })

/-- `eventStore.record`. -/
def record (s : Instance) (taskId : String) (event : OutboundEvent) : Instance :=
  { s with worker := { s.worker with eventStore := s.worker.eventStore.record taskId event } }

def setCall (s : Instance) (i : Nat) (c : Call) : Instance := { s with calls := s.calls.set i c }

def setStateMachine (s : Instance) (stateMachine : WorkerState) : Instance :=
  { s with worker := { s.worker with stateMachine } }

/-- Make an event with a new timestamp, emit it and, if `emit` returns, record it. -/
def report (s : Instance) (i : Nat) (taskId : String) (event : Int → OutboundEvent)
    (env : EmitEnv) : Instance × List Effect :=
  let (ts, s') := s.clockNow env.now
  match env.throws with
  | none => (s'.record taskId (event ts), [.emitted i (event ts), .recorded i taskId (event ts)])
  | some _ => (s', [.emitThrew i (event ts)])

/-- The `finally` block, after which the promise settles. -/
def finallyBlock (s : Instance) (i : Nat) (c : Call) (error : Option Thrown) :
    Instance × List Effect :=
  ({ s with
      worker := { s.worker with slots := s.worker.slots.release c.taskId }
      calls := s.calls.set i { c with drainTimer := false, phase := .settled error } },
    [.released i c.taskId, .settled i error])

/-- The report of `TASK_FAILED`. -/
def reportFailure (s : Instance) (i : Nat) (c : Call) (failureClass : FailureClass)
    (message : String) (env : EmitEnv) : Instance × List Effect :=
  let retryable := isRetryable failureClass
  s.report i c.taskId
    (.taskFailed c.taskId s.worker.configManager.workerId failureClass retryable message) env

/-- The `catch` block up to its `await`.  When the error cannot be read or `emit` throws, the
`finally` block follows at once. -/
def catchBlock (s : Instance) (i : Nat) (c : Call) (error : Thrown) (env : EmitEnv) :
    Instance × List Effect :=
  match failureOf error with
  | .error thrown =>
      let f := s.finallyBlock i c (some thrown)
      (f.1, .catchThrew i :: f.2)
  | .ok (failureClass, message) =>
      let r := s.reportFailure i c failureClass message env
      match env.throws with
      | none => (r.1.setCall i { c with phase := .finishing }, r.2)
      | some thrown =>
          let f := r.1.finallyBlock i c (some thrown)
          (f.1, r.2 ++ f.2)

/-- The transition to `ACCEPTING` if needed. -/
def enterAccepting (state : WorkerState) : Except Thrown WorkerState :=
  if state = .ready then state.transition .accepting else .ok state

/-- The `try` block up to its first `await`. -/
def tryBlock (s : Instance) (i : Nat) (c : Call) (turn : Turn) : Instance × List Effect :=
  match enterAccepting s.worker.stateMachine with
  | .error e =>
      -- the drain timer is not yet set
      let f := s.catchBlock i { c with drainTimer := false } e turn.failed
      (f.1, .transitionRefused i :: f.2)
  | .ok stateMachine =>
      let r := (s.setStateMachine stateMachine).report i c.taskId
        (.taskAccepted c.taskId s.worker.configManager.workerId) turn.event
      match turn.event.throws with
      | none => r
      | some e =>
          let f := r.1.catchBlock i c e turn.failed
          (f.1, r.2 ++ f.2)

/-- A call that has just acquired a slot.  The drain timer is set at the start of the
`try` block, before the first `emit`. -/
def newCall (settings : Settings) (taskId : String) : Call where
  taskId := taskId
  phase := .accepted
  executorStarted := false
  drainTimer := settings.setsDrainTimer
  aborted := false

/-- A call is added, with its slot. -/
def addCall (s : Instance) (slots : SlotManager) (c : Call) : Instance :=
  { s with worker := { s.worker with slots }, calls := s.calls ++ [c] }

/-- `executeTaskWithEvents` up to its first `await`. -/
def executeTaskWithEvents (settings : Settings) (s : Instance) (submit : TaskSubmit)
    (turn : Turn) : Instance × List Effect :=
  match parseTaskPayload submit.payload with
  | none => (s, [.rejected submit.taskId .invalidPayload])
  | some _ =>
      match s.worker.slots.acquire submit.taskId turn.dateNow with
      | (.duplicate, _) => (s, [.rejected submit.taskId .duplicate])
      | (.noSlots, _) => (s, [.rejected submit.taskId .noSlots])
      | (.acquired, slots) =>
          let i := s.calls.length
          let c := newCall settings submit.taskId
          let r := (s.addCall slots c).tryBlock i c turn
          (r.1, .acquired i submit.taskId :: r.2)

/-- The continuation that starts the executor. -/
def startExecutor (s : Instance) (i : Nat) (c : Call) (dateNow : Int) : Instance :=
  s.setCall i { c with phase := .executing dateNow, executorStarted := true }

/-- A callback.  What `emit` throws goes to the executor. -/
def callback (s : Instance) (i : Nat) (c : Call) (env : EmitEnv) :
    Callback → Instance × List Effect
  | .onFirstToken => s.report i c.taskId (.taskProgress c.taskId .firstToken none) env
  | .onToolCall name args =>
      s.report i c.taskId (.taskProgress c.taskId .toolInvoked (some ⟨name, args⟩)) env
  | .onL0Event event => (s, if env.throws = none then [.forwarded i event] else [])

/-- The continuation after the executor, up to its `await`. -/
def executorSettled (settings : Settings) (s : Instance) (i : Nat) (c : Call) (startTime : Int)
    (outcome : Except Thrown ExecutionResult) (turn : Turn) : Instance × List Effect :=
  match outcome with
  | .error e => s.catchBlock i c e turn.failed
  | .ok result =>
      let duration := turn.dateNow - startTime
      let outputHash := settings.sha256 result.content
      let r := s.report i c.taskId
        (.taskCompleted c.taskId s.worker.configManager.workerId
          ⟨duration, result.tokenCount, result.inputTokens, result.outputTokens⟩
          outputHash result.content) turn.event
      match turn.event.throws with
      | none => (r.1.setCall i { c with phase := .finishing }, r.2)
      | some e =>
          let f := r.1.catchBlock i c e turn.failed
          (f.1, r.2 ++ f.2)

/-- The drain timer of a call.  `WORKER_DRAINING` is not recorded. -/
def drainTimerFired (s : Instance) (i : Nat) (c : Call) (env : EmitEnv) :
    Instance × List Effect :=
  if s.worker.stateMachine = .draining then
    (s.setCall i { c with drainTimer := false, aborted := true }, [])
  else
    match s.worker.stateMachine.transition .draining with
    | .error _ => (s.setCall i { c with drainTimer := false }, [.transitionRefused i])
    | .ok stateMachine =>
        let (ts, s') := (s.setStateMachine stateMachine).clockNow env.now
        let event : OutboundEvent :=
          .workerDraining s.worker.configManager.workerId "function_timeout_approaching" ts
        match env.throws with
        | none => (s'.setCall i { c with drainTimer := false, aborted := true }, [.emitted i event])
        -- the abort is not reached
        | some _ => (s'.setCall i { c with drainTimer := false }, [.emitThrew i event])

/-! ## `replay` -/

/-- `replayWithValidation` up to its first `await`. -/
def replay (s : Instance) (request : TaskReplayRequest) : Instance :=
  { s with replays := s.replays ++
      [⟨request.taskId, request.expectedOutputHash,
        .checked (decide (s.worker.eventStore.HasTask request.taskId))⟩] }

/-- The continuation after `hasTask`. -/
def replayChecked (s : Instance) (j : Nat) (r : ReplayCall) : Bool → Instance × List Effect
  | true => ({ s with replays := s.replays.set j { r with phase := .fetched } }, [])
  | false =>
      let result := .ok (replayNotFound r.taskId)
      ({ s with replays := s.replays.set j { r with phase := .settled result } },
        [.replaySettled j result])

/-- The continuation after `getEventsForTask`: the loop over the events recorded by
now, and the result.  When `emit` throws at some event, the loop ends there. -/
def replayLoop (s : Instance) (j : Nat) (r : ReplayCall) (throws : Option (Nat × Thrown)) :
    Instance × List Effect :=
  let events := s.worker.eventStore.getEventsForTask r.taskId
  let stop := throws.filter fun t => t.1 < events.length
  let emitted := stop.elim events fun t => events.take t.1
  let result := stop.elim (.ok (replaySuccess events r.expectedOutputHash)) fun t => .error t.2
  ({ s with replays := s.replays.set j { r with phase := .settled result } },
    emitted.map (.replayed j) ++ [.replaySettled j result])

end Instance

/-! ## The machine -/

/-- A step of a worker. -/
inductive Action where
  | execute (submit : TaskSubmit) (turn : Turn)
  /-- A call goes on after the record of `TASK_ACCEPTED`. -/
  | start (i : Nat) (dateNow : Int)
  | callback (i : Nat) (cb : Callback) (env : EmitEnv)
  /-- The executor of a call settles, and the call goes on. -/
  | settle (i : Nat) (outcome : Except Thrown ExecutionResult) (turn : Turn)
  /-- A call goes on after the record of its terminal event. -/
  | finish (i : Nat)
  | drainTimer (i : Nat) (env : EmitEnv)
  | updateConfig (u : ConfigUpdate)
  | replay (request : TaskReplayRequest)
  /-- A replay goes on after `hasTask`. -/
  | replayChecked (j : Nat)
  /-- A replay goes on after `getEventsForTask`. -/
  | replayLoop (j : Nat) (throws : Option (Nat × Thrown))

/-- The step is one of a replay. -/
def Action.isReplay : Action → Bool
  | .replay _ | .replayChecked _ | .replayLoop _ _ => true
  | _ => false

/-- One step. -/
def Instance.step (settings : Settings) (s : Instance) : Action → Option (Instance × List Effect)
  | .execute submit turn => some (s.executeTaskWithEvents settings submit turn)
  | .start i dateNow =>
      s.calls[i]?.bind fun c =>
        if c.phase = .accepted then some (s.startExecutor i c dateNow, []) else none
  | .callback i cb env =>
      s.calls[i]?.bind fun c =>
        if c.executorStarted then some (s.callback i c env cb) else none
  | .settle i outcome turn =>
      s.calls[i]?.bind fun c =>
        c.phase.startTime?.map fun startTime =>
          s.executorSettled settings i c startTime outcome turn
  | .finish i =>
      s.calls[i]?.bind fun c =>
        if c.phase = .finishing then some (s.finallyBlock i c none) else none
  | .drainTimer i env =>
      s.calls[i]?.bind fun c =>
        if c.drainTimer then some (s.drainTimerFired i c env) else none
  | .updateConfig u =>
      let r := s.worker.updateConfig u
      some ({ s with worker := r.2 }, [.configUpdated r.1])
  | .replay request => some (s.replay request, [])
  | .replayChecked j =>
      s.replays[j]?.bind fun r =>
        match r.phase with
        | .checked hasTask => some (s.replayChecked j r hasTask)
        | _ => none
  | .replayLoop j throws =>
      s.replays[j]?.bind fun r =>
        match r.phase with
        | .fetched => some (s.replayLoop j r throws)
        | _ => none

/-- The machine of a worker. -/
def worker (settings : Settings) : Machine Instance Action Effect := ⟨Instance.step settings⟩

/-- An instance with a new worker, at any time of the process. -/
def Created (s : Instance) : Prop :=
  ∃ input w clock, VercelWorker.new input = some w ∧ s = .init w clock

/-- A worker with the default configuration, when the process starts. -/
def Instance.ofDefaults : Instance :=
  .init ⟨.ready, ⟨"w1", "1.0.0", ⟨4, ∅, ∅⟩⟩, ⟨.empty, 4⟩, .new 0⟩ ⟨0⟩

theorem created_ofDefaults : Created .ofDefaults :=
  ⟨⟨"w1", none, none⟩, _, ⟨0⟩, rfl, rfl⟩

/-! ## First facts -/

theorem SlotManager.setMaxConcurrency_of_allowed (slots : SlotManager) {limit : Number}
    (h : limit.lt 1 = false) :
    slots.setMaxConcurrency limit = .ok { slots with maxConcurrency := limit } :=
  if_neg (by rw [h]; exact Bool.false_ne_true)

/-- A new worker is ready and has no slots in use and no events. -/
theorem VercelWorker.of_new {input : WorkerConfigInput} {w : VercelWorker}
    (h : VercelWorker.new input = some w) :
    (input.maxConcurrency.getD 4).lt 1 = false ∧
      ∃ configManager, configManager.runtime.maxConcurrency = input.maxConcurrency.getD 4 ∧
        w = ⟨.ready, configManager, ⟨.empty, input.maxConcurrency.getD 4⟩, .new 0⟩ := by
  unfold VercelWorker.new at h
  cases hconfig : ConfigManager.new input with
  | none => rw [hconfig] at h; cases h
  | some configManager =>
      rw [hconfig] at h
      unfold ConfigManager.new at hconfig
      dsimp only at hconfig
      split at hconfig
      · cases hconfig
      · next hvalid =>
        have hallowed : (input.maxConcurrency.getD 4).lt 1 = false := by
          simp only [Bool.or_eq_true, not_or, Bool.not_eq_true] at hvalid
          exact hvalid.2
        obtain rfl := Option.some.inj hconfig
        dsimp only at h
        rw [SlotManager.new, SlotManager.setMaxConcurrency_of_allowed _ hallowed] at h
        exact ⟨hallowed, _, rfl, (Option.some.inj h).symm⟩

/-- An update sets the configuration and the limit of the slots, and nothing else. -/
theorem VercelWorker.updateConfig_eq (w : VercelWorker) (u : ConfigUpdate) :
    ∃ configManager maxConcurrency, (w.updateConfig u).2 =
      { w with configManager, slots := { w.slots with maxConcurrency } } := by
  unfold VercelWorker.updateConfig
  cases w.configManager.update u with
  | error e => exact ⟨_, _, rfl⟩
  | ok configManager =>
      dsimp only
      unfold SlotManager.setMaxConcurrency
      cases configManager.runtime.maxConcurrency.lt 1 with
      | true => exact ⟨_, _, rfl⟩
      | false => exact ⟨_, _, rfl⟩

@[simp] theorem VercelWorker.updateConfig_stateMachine (w : VercelWorker) (u : ConfigUpdate) :
    (w.updateConfig u).2.stateMachine = w.stateMachine := by
  obtain ⟨configManager, maxConcurrency, h⟩ := w.updateConfig_eq u
  rw [h]

@[simp] theorem VercelWorker.updateConfig_slots (w : VercelWorker) (u : ConfigUpdate) :
    (w.updateConfig u).2.slots.slots = w.slots.slots := by
  obtain ⟨configManager, maxConcurrency, h⟩ := w.updateConfig_eq u
  rw [h]

@[simp] theorem VercelWorker.updateConfig_eventStore (w : VercelWorker) (u : ConfigUpdate) :
    (w.updateConfig u).2.eventStore = w.eventStore := by
  obtain ⟨configManager, maxConcurrency, h⟩ := w.updateConfig_eq u
  rw [h]

/-- A submission that gets a slot. -/
def VercelWorker.Admits (w : VercelWorker) (submit : TaskSubmit) : Prop :=
  (parseTaskPayload submit.payload).isSome = true ∧ ¬ w.slots.HasSlot submit.taskId ∧
    w.slots.hasAvailableSlot = true

instance (w : VercelWorker) (submit : TaskSubmit) : Decidable (w.Admits submit) :=
  inferInstanceAs (Decidable (_ ∧ _ ∧ _))

namespace Instance

@[simp] theorem clockNow_fst (s : Instance) (now : Int) :
    (s.clockNow now).1 = (s.clock.now now).1 := rfl

@[simp] theorem clockNow_snd (s : Instance) (now : Int) :
    (s.clockNow now).2 = { s with clock := (s.clock.now now).2 } := rfl

theorem report_returns {s : Instance} {i : Nat} {taskId : String}
    {event : Int → OutboundEvent} {env : EmitEnv} (h : env.throws = none) :
    s.report i taskId event env =
      ((s.clockNow env.now).2.record taskId (event (s.clockNow env.now).1),
        [.emitted i (event (s.clockNow env.now).1),
          .recorded i taskId (event (s.clockNow env.now).1)]) := by
  simp only [report, h]

theorem report_throws {s : Instance} {i : Nat} {taskId : String}
    {event : Int → OutboundEvent} {env : EmitEnv} {e : Thrown} (h : env.throws = some e) :
    s.report i taskId event env =
      ((s.clockNow env.now).2, [.emitThrew i (event (s.clockNow env.now).1)]) := by
  simp only [report, h]

@[simp] theorem report_calls (s : Instance) (i : Nat) (taskId : String)
    (event : Int → OutboundEvent) (env : EmitEnv) :
    (s.report i taskId event env).1.calls = s.calls := by
  cases h : env.throws with
  | none => rw [report_returns h]; rfl
  | some e => rw [report_throws h]; rfl

@[simp] theorem callback_calls (s : Instance) (i : Nat) (c : Call) (env : EmitEnv)
    (cb : Callback) : (s.callback i c env cb).1.calls = s.calls := by
  cases cb with
  | onFirstToken => exact report_calls ..
  | onToolCall name args => exact report_calls ..
  | onL0Event event => rfl

/-- The effects of a replay loop belong to no call. -/
theorem replayLoop_effects (s : Instance) (j : Nat) (r : ReplayCall)
    (throws : Option (Nat × Thrown)) :
    ∀ e ∈ (s.replayLoop j r throws).2, e.call? = none ∧ e.isReplay = true := by
  intro e he
  rcases List.mem_append.mp he with he | he
  · obtain ⟨event, -, rfl⟩ := List.mem_map.mp he
    exact ⟨rfl, rfl⟩
  · rw [List.mem_singleton.mp he]
    exact ⟨rfl, rfl⟩

/-- The transition to `ACCEPTING` is always allowed. -/
theorem enterAccepting_eq (state : WorkerState) :
    enterAccepting state = .ok (if state = .ready then .accepting else state) := by
  unfold enterAccepting
  split
  · next h => rw [h]; rfl
  · rfl

/-- The ways through the `catch` block. -/
inductive Caught (s : Instance) (i : Nat) (c : Call) (error : Thrown) (env : EmitEnv) :
    Instance × List Effect → Prop where
  /-- The error cannot be read. -/
  | unread {thrown : Thrown} (hfailure : failureOf error = .error thrown) :
      Caught s i c error env ((s.finallyBlock i c (some thrown)).1,
        .catchThrew i :: (s.finallyBlock i c (some thrown)).2)
  | reported {failureClass : FailureClass} {message : String}
      (hfailure : failureOf error = .ok (failureClass, message)) (henv : env.throws = none) :
      Caught s i c error env
        ((s.reportFailure i c failureClass message env).1.setCall i { c with phase := .finishing },
          (s.reportFailure i c failureClass message env).2)
  /-- The `emit` throws. -/
  | lost {failureClass : FailureClass} {message : String} {thrown : Thrown}
      (hfailure : failureOf error = .ok (failureClass, message))
      (henv : env.throws = some thrown) :
      Caught s i c error env
        (((s.reportFailure i c failureClass message env).1.finallyBlock i c (some thrown)).1,
          (s.reportFailure i c failureClass message env).2 ++
            ((s.reportFailure i c failureClass message env).1.finallyBlock i c (some thrown)).2)

theorem catchBlock_caught (s : Instance) (i : Nat) (c : Call) (error : Thrown) (env : EmitEnv) :
    Caught s i c error env (s.catchBlock i c error env) := by
  unfold catchBlock
  cases hfailure : failureOf error with
  | error thrown => exact .unread hfailure
  | ok failure =>
      cases henv : env.throws with
      | none => exact .reported hfailure henv
      | some thrown => exact .lost hfailure henv

/-- The instance in the state that accepts tasks. -/
def accepting (s : Instance) : Instance :=
  s.setStateMachine (if s.worker.stateMachine = .ready then .accepting else s.worker.stateMachine)

/-- So the `try` block reports the acceptance, and goes to the `catch` block only when that
throws. -/
theorem tryBlock_eq (s : Instance) (i : Nat) (c : Call) (turn : Turn) :
    s.tryBlock i c turn =
      let r := s.accepting.report i c.taskId
        (.taskAccepted c.taskId s.worker.configManager.workerId) turn.event
      match turn.event.throws with
      | none => r
      | some e =>
          let f := r.1.catchBlock i c e turn.failed
          (f.1, r.2 ++ f.2) := by
  unfold tryBlock
  rw [enterAccepting_eq]
  rfl

/-- A call is turned away, or gets a slot and goes on to the `try` block. -/
theorem executeTaskWithEvents_cases (settings : Settings) (s : Instance)
    (submit : TaskSubmit) (turn : Turn) :
    (¬ s.worker.Admits submit ∧ ∃ reason,
        s.executeTaskWithEvents settings submit turn = (s, [.rejected submit.taskId reason])) ∨
      (s.worker.Admits submit ∧ ∃ slots c r,
        slots = s.worker.slots.occupy submit.taskId turn.dateNow ∧
        c = newCall settings submit.taskId ∧
        r = (s.addCall slots c).tryBlock s.calls.length c turn ∧
        s.executeTaskWithEvents settings submit turn =
          (r.1, .acquired s.calls.length submit.taskId :: r.2)) := by
  unfold executeTaskWithEvents
  cases hparse : parseTaskPayload submit.payload with
  | none => exact .inl ⟨fun h => by simp [hparse, VercelWorker.Admits] at h, .invalidPayload, rfl⟩
  | some payload =>
      dsimp only
      rcases s.worker.slots.acquire_cases submit.taskId turn.dateNow with
        ⟨hacq, hslot⟩ | ⟨hacq, -, havail⟩ | ⟨hacq, hslot, havail⟩
      · rw [hacq]
        exact .inl ⟨fun h => h.2.1 hslot, .duplicate, rfl⟩
      · rw [hacq]
        exact .inl ⟨fun h => Bool.false_ne_true (havail.symm.trans h.2.2), .noSlots, rfl⟩
      · rw [hacq]
        exact .inr ⟨⟨by rw [hparse]; rfl, hslot, havail⟩, _, _, _, rfl, rfl, rfl, rfl⟩

end Instance

/-! ## What a step is -/

/-- The steps, one constructor for each thing that can happen. -/
inductive Stepped (settings : Settings) (s : Instance) :
    Action → Instance → List Effect → Prop where
  | execute (submit : TaskSubmit) (turn : Turn) :
      Stepped settings s (.execute submit turn)
        (s.executeTaskWithEvents settings submit turn).1
        (s.executeTaskWithEvents settings submit turn).2
  | start {i : Nat} {c : Call} (dateNow : Int) (hc : s.calls[i]? = some c)
      (hphase : c.phase = .accepted) :
      Stepped settings s (.start i dateNow) (s.startExecutor i c dateNow) []
  | callback {i : Nat} {c : Call} (cb : Callback) (env : EmitEnv) (hc : s.calls[i]? = some c) :
      Stepped settings s (.callback i cb env) (s.callback i c env cb).1 (s.callback i c env cb).2
  | settle {i : Nat} {c : Call} {startTime : Int} (outcome : Except Thrown ExecutionResult)
      (turn : Turn) (hc : s.calls[i]? = some c) (hstart : c.phase.startTime? = some startTime) :
      Stepped settings s (.settle i outcome turn)
        (s.executorSettled settings i c startTime outcome turn).1
        (s.executorSettled settings i c startTime outcome turn).2
  | finish {i : Nat} {c : Call} (hc : s.calls[i]? = some c) (hphase : c.phase = .finishing) :
      Stepped settings s (.finish i) (s.finallyBlock i c none).1 (s.finallyBlock i c none).2
  | drainTimer {i : Nat} {c : Call} (env : EmitEnv) (hc : s.calls[i]? = some c)
      (htimer : c.drainTimer = true) :
      Stepped settings s (.drainTimer i env) (s.drainTimerFired i c env).1
        (s.drainTimerFired i c env).2
  | updateConfig (u : ConfigUpdate) :
      Stepped settings s (.updateConfig u) { s with worker := (s.worker.updateConfig u).2 }
        [.configUpdated (s.worker.updateConfig u).1]
  | replay (request : TaskReplayRequest) :
      Stepped settings s (.replay request) (s.replay request) []
  | found {j : Nat} {r : ReplayCall} (hr : s.replays[j]? = some r)
      (hphase : r.phase = .checked true) :
      Stepped settings s (.replayChecked j)
        { s with replays := s.replays.set j { r with phase := .fetched } } []
  | notFound {j : Nat} {r : ReplayCall} (hr : s.replays[j]? = some r)
      (hphase : r.phase = .checked false) :
      Stepped settings s (.replayChecked j)
        { s with replays :=
            s.replays.set j { r with phase := .settled (.ok (replayNotFound r.taskId)) } }
        [.replaySettled j (.ok (replayNotFound r.taskId))]
  | replayLoop {j : Nat} {r : ReplayCall} (throws : Option (Nat × Thrown))
      (hr : s.replays[j]? = some r) (hphase : r.phase = .fetched) :
      Stepped settings s (.replayLoop j throws) (s.replayLoop j r throws).1
        (s.replayLoop j r throws).2

/-- Every step is one of these. -/
theorem step_cases {settings : Settings} {s s' : Instance} {a : Action} {o : List Effect}
    (hstep : (worker settings).step s a = some (s', o)) : Stepped settings s a s' o := by
  cases a with
  | execute submit turn =>
      obtain ⟨rfl, rfl⟩ := Prod.ext_iff.mp (Option.some.inj hstep)
      exact .execute submit turn
  | start i dateNow =>
      obtain ⟨c, hc, hstep⟩ := Option.bind_eq_some_iff.mp hstep
      obtain ⟨hphase, hstep⟩ := Option.ite_none_right_eq_some.mp hstep
      obtain ⟨rfl, rfl⟩ := Prod.mk.inj (Option.some.inj hstep)
      exact .start dateNow hc hphase
  | callback i cb env =>
      obtain ⟨c, hc, hstep⟩ := Option.bind_eq_some_iff.mp hstep
      obtain ⟨-, hstep⟩ := Option.ite_none_right_eq_some.mp hstep
      obtain ⟨rfl, rfl⟩ := Prod.ext_iff.mp (Option.some.inj hstep)
      exact .callback cb env hc
  | settle i outcome turn =>
      obtain ⟨c, hc, hstep⟩ := Option.bind_eq_some_iff.mp hstep
      obtain ⟨startTime, hstart, hstep⟩ := Option.map_eq_some_iff.mp hstep
      obtain ⟨rfl, rfl⟩ := Prod.ext_iff.mp hstep
      exact .settle outcome turn hc hstart
  | finish i =>
      obtain ⟨c, hc, hstep⟩ := Option.bind_eq_some_iff.mp hstep
      obtain ⟨hphase, hstep⟩ := Option.ite_none_right_eq_some.mp hstep
      obtain ⟨rfl, rfl⟩ := Prod.ext_iff.mp (Option.some.inj hstep)
      exact .finish hc hphase
  | drainTimer i env =>
      obtain ⟨c, hc, hstep⟩ := Option.bind_eq_some_iff.mp hstep
      obtain ⟨htimer, hstep⟩ := Option.ite_none_right_eq_some.mp hstep
      obtain ⟨rfl, rfl⟩ := Prod.ext_iff.mp (Option.some.inj hstep)
      exact .drainTimer env hc htimer
  | updateConfig u =>
      obtain ⟨rfl, rfl⟩ := Prod.ext_iff.mp (Option.some.inj hstep)
      exact .updateConfig u
  | replay request =>
      obtain ⟨rfl, rfl⟩ := Prod.ext_iff.mp (Option.some.inj hstep)
      exact .replay request
  | replayChecked j =>
      obtain ⟨r, hr, hstep⟩ := Option.bind_eq_some_iff.mp hstep
      cases hphase : r.phase with
      | checked found =>
          rw [hphase] at hstep
          obtain ⟨rfl, rfl⟩ := Prod.ext_iff.mp (Option.some.inj hstep)
          cases found with
          | true => exact .found hr hphase
          | false => exact .notFound hr hphase
      | _ => rw [hphase] at hstep; cases hstep
  | replayLoop j throws =>
      obtain ⟨r, hr, hstep⟩ := Option.bind_eq_some_iff.mp hstep
      cases hphase : r.phase with
      | fetched =>
          rw [hphase] at hstep
          obtain ⟨rfl, rfl⟩ := Prod.ext_iff.mp (Option.some.inj hstep)
          exact .replayLoop throws hr hphase
      | _ => rw [hphase] at hstep; cases hstep

end L0Worker.Worker
