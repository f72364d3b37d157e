import L0Worker.Worker.Instance

/-!
# The standalone server

The machine of the HTTP server around one worker, from the end of its script on.  A step is
a request whose body has arrived, a signal, a poll of a drain, the end of the process, or a
step of the worker.
Bodies are parsed and tokens are validated outside: a request comes with what the
schema and the token check said about it.

A drain prints `worker.draining` and starts a loop of its own, `waitForDrained`, which
polls the number of tasks in flight and ends the process when it returns.  Every
accepted drain request and every signal starts another loop.

The handlers of the signals are registered last in the script, after the ready line.  The
machine `process` has the start of the process as well: a signal that comes before kills it.
-/

namespace L0Worker.Server

open Worker

/-! ## State -/

/-- A run of `waitForDrained`. -/
structure DrainLoop where
  startTime : Int
  returned : Bool
deriving DecidableEq

/-- The server process. -/
structure ServerState where
  worker : Instance
  /-- The drains, oldest first. -/
  drains : List DrainLoop
  exited : Bool

/-- A server whose script has just come to its end. -/
def ServerState.init (worker : Instance) : ServerState where
  worker := worker
  drains := []
  exited := false

/-! ## What a step meets and what it does -/

/-- The body of a submit request. -/
inductive SubmitBody where
  | invalidJson
  | invalidRequest
  /-- A submission, with the reason why its token is invalid, if it is. -/
  | request (submit : TaskSubmit) (authFailure : Option String)

/-- `error instanceof Error ? error.message : "Unknown error"`, as the handlers have it.  A
malformed `Error`, whose message is no text, is not told from other objects here. -/
def errorMessage : Thrown → String
  | .error _ message _ => message
  | .value _ | .malformed _ | .noText _ => "Unknown error"

/-- A response, as far as it is decided here. -/
inductive Response where
  /-- Status 400, `Invalid JSON`. -/
  | invalidJson
  /-- Status 400, `Invalid request`. -/
  | invalidRequest
  | unauthorized (reason : String)
  /-- Status 503, `Worker not accepting tasks`. -/
  | notAccepting (state : WorkerState)
  /-- Status 503, `No slots available`. -/
  | noSlots (inflight : Nat) (max : Number)
  | stream
  | drainInitiated (workerId : String) (drainBufferMs : Int)
deriving DecidableEq

/-- A line for the supervisor. -/
inductive Line where
  | draining (workerId : String)
  /-- `worker.drained`, with the number of pending tasks if it timed out. -/
  | drained (workerId : String) (pendingTasks : Option Nat)
deriving Repr, DecidableEq

/-- What happened in a step. -/
inductive ServerEffect where
  | worker (effect : Effect)
  | responded (response : Response)
  | printed (line : Line)
  | exited

/-- The effect of the worker, if it is one. -/
def ServerEffect.worker? : ServerEffect → Option Effect
  | .worker effect => some effect
  | _ => none

/-! ## The handlers -/

namespace ServerState

/-- The worker's part of a step. -/
def runWorker (s : ServerState) (r : Instance × List Effect) : ServerState × List ServerEffect :=
  ({ s with worker := r.1 }, r.2.map .worker)

/-- `handleSubmit` after the body has arrived, with the start of the stream. -/
def handleSubmit (settings : Settings) (s : ServerState) (body : SubmitBody) (turn : Turn) :
    ServerState × List ServerEffect :=
  match body with
  | .invalidJson => (s, [.responded .invalidJson])
  | .invalidRequest => (s, [.responded .invalidRequest])
  | .request _ (some reason) => (s, [.responded (.unauthorized reason)])
  | .request submit none =>
      let w := s.worker.worker
      if !w.stateMachine.isAccepting then
        (s, [.responded (.notAccepting w.stateMachine)])
      else if !w.slots.hasAvailableSlot then
        (s, [.responded (.noSlots w.slots.inflightCount w.configManager.runtime.maxConcurrency)])
      else
        let r := s.runWorker (s.worker.executeTaskWithEvents settings submit turn)
        (r.1, r.2 ++ [.responded .stream])

/-- The id the lines carry. -/
def workerId (s : ServerState) : String := s.worker.worker.configManager.workerId

/-- `maxWait` in `waitForDrained`: it leaves 100 ms for the exit. -/
def maxWait (settings : Settings) : Int := settings.drainBufferMs - 100

/-- One test of the loop of `waitForDrained`, with the reading of the clock: whether it
returns, and what it prints. -/
def waitIteration (settings : Settings) (s : ServerState) (startTime now : Int) :
    Bool × List ServerEffect :=
  let inflight := s.worker.worker.slots.inflightCount
  if 0 < inflight then
    if maxWait settings < now - startTime then
      (true, [.printed (.drained s.workerId (some inflight))])
    else (false, [])
  else (true, [.printed (.drained s.workerId none)])

/-- `waitForDrained` up to its first `await`. -/
def waitForDrained (settings : Settings) (s : ServerState) (startTime now : Int) :
    ServerState × List ServerEffect :=
  let r := s.waitIteration settings startTime now
  ({ s with drains := s.drains ++ [⟨startTime, r.1⟩] }, r.2)

/-- The continuation of `waitForDrained` after a poll interval. -/
def poll (settings : Settings) (s : ServerState) (k : Nat) (d : DrainLoop) (now : Int) :
    ServerState × List ServerEffect :=
  let r := s.waitIteration settings d.startTime now
  ({ s with drains := s.drains.set k { d with returned := r.1 } }, r.2)

/-- `handleDrain`, with the reason why it is not authorised, if it is not. -/
def handleDrain (settings : Settings) (s : ServerState) (authFailure : Option String)
    (startTime now : Int) : ServerState × List ServerEffect :=
  match authFailure with
  | some reason => (s, [.responded (.unauthorized reason)])
  | none =>
      let r := s.waitForDrained settings startTime now
      (r.1, .printed (.draining s.workerId) :: r.2 ++
        [.responded (.drainInitiated s.workerId settings.drainBufferMs)])

/-- `handleShutdown`, on `SIGTERM` and on `SIGINT`. -/
def handleShutdown (settings : Settings) (s : ServerState) (startTime now : Int) :
    ServerState × List ServerEffect :=
  let r := s.waitForDrained settings startTime now
  (r.1, .printed (.draining s.workerId) :: r.2)

end ServerState

/-! ## The machine -/

/-- A step of the server. -/
inductive ServerAction where
  /-- The body of a submit request has arrived. -/
  | submit (body : SubmitBody) (turn : Turn)
  /-- A drain request has arrived. -/
  | drain (authFailure : Option String) (startTime now : Int)
  /-- A signal has arrived. -/
  | signal (startTime now : Int)
  /-- The poll interval of a drain is over. -/
  | poll (k : Nat) (now : Int)
  /-- The process ends after a drain. -/
  | exit (k : Nat)
  /-- The worker goes on, or is asked for something other than a task. -/
  | worker (a : Action)

/-- The worker steps that are not the start of a submission. -/
def isInner : Action → Bool
  | .execute _ _ => false
  | _ => true

/-- One step, after which no more are possible once the process has ended. -/
def ServerState.step (settings : Settings) (s : ServerState) :
    ServerAction → Option (ServerState × List ServerEffect) := fun a =>
  if s.exited then none
  else match a with
    | .submit body turn => some (s.handleSubmit settings body turn)
    | .drain authFailure startTime now => some (s.handleDrain settings authFailure startTime now)
    | .signal startTime now => some (s.handleShutdown settings startTime now)
    | .poll k now =>
        s.drains[k]?.bind fun d => if d.returned then none else some (s.poll settings k d now)
    | .exit k =>
        s.drains[k]?.bind fun d =>
          if d.returned then some ({ s with exited := true }, [.exited]) else none
    | .worker a =>
        if isInner a then (s.worker.step settings a).map s.runWorker else none

/-- The machine of the server. -/
def server (settings : Settings) : Machine ServerState ServerAction ServerEffect :=
  ⟨ServerState.step settings⟩

/-- A server that has just started, with a new worker. -/
def Started (s : ServerState) : Prop := ∃ w, Created w ∧ s = .init w

theorem started_ofDefaults : Started (.init .ofDefaults) := ⟨_, created_ofDefaults, rfl⟩

/-! ## The process -/

/-- The process of a server. -/
inductive ProcessState where
  /-- The script runs, and no signal is handled.  The worker is the one it creates. -/
  | starting (worker : Instance)
  | serving (s : ServerState)
  /-- A signal came too early. -/
  | killed

inductive ProcessAction where
  /-- The script has come to its end. -/
  | registered
  | server (a : ServerAction)

/-- One step of the process.  No request is taken before the script has come to its end. -/
def ProcessState.step (settings : Settings) :
    ProcessState → ProcessAction → Option (ProcessState × List ServerEffect)
  | .starting worker, .registered => some (.serving (.init worker), [])
  | .starting _, .server (.signal _ _) => some (.killed, [.exited])
  | .serving s, .server a => (s.step settings a).map fun r => (.serving r.1, r.2)
  | _, _ => none

/-- The machine of the process. -/
def process (settings : Settings) : Machine ProcessState ProcessAction ServerEffect :=
  ⟨ProcessState.step settings⟩

/-! ## First facts -/

/-- A submit request gets a response and nothing else, or is let through to the worker. -/
theorem ServerState.handleSubmit_cases (settings : Settings) (s : ServerState)
    (body : SubmitBody) (turn : Turn) :
    (∃ response, s.handleSubmit settings body turn = (s, [.responded response]) ∧
      ¬ ∃ submit, body = .request submit none ∧
        s.worker.worker.stateMachine.isAccepting = true ∧
        s.worker.worker.slots.hasAvailableSlot = true) ∨
      ∃ submit, body = .request submit none ∧
        s.worker.worker.stateMachine.isAccepting = true ∧
        s.worker.worker.slots.hasAvailableSlot = true ∧
        s.handleSubmit settings body turn =
          ((s.runWorker (s.worker.executeTaskWithEvents settings submit turn)).1,
            (s.runWorker (s.worker.executeTaskWithEvents settings submit turn)).2 ++
              [.responded .stream]) := by
  cases body with
  | invalidJson => exact .inl ⟨_, rfl, by simp⟩
  | invalidRequest => exact .inl ⟨_, rfl, by simp⟩
  | request submit authFailure => cases authFailure with
    | some reason => exact .inl ⟨_, rfl, by simp⟩
    | none =>
        unfold ServerState.handleSubmit
        dsimp only
        cases haccepting : s.worker.worker.stateMachine.isAccepting with
        | false => exact .inl ⟨.notAccepting s.worker.worker.stateMachine, by simp, by simp⟩
        | true => cases havailable : s.worker.worker.slots.hasAvailableSlot with
          | false =>
              exact .inl ⟨.noSlots s.worker.worker.slots.inflightCount
                s.worker.worker.configManager.runtime.maxConcurrency, by simp, by simp⟩
          | true => exact .inr ⟨submit, rfl, rfl, rfl, by simp⟩

/-! ## What a step is -/

/-- The steps of a server, one constructor for each way a request or a loop can go. -/
inductive Stepped (settings : Settings) (s : ServerState) :
    ServerAction → ServerState → List ServerEffect → Prop where
  | refused {body : SubmitBody} (turn : Turn) (response : Response)
      (hrefused : ¬ ∃ submit, body = .request submit none ∧
        s.worker.worker.stateMachine.isAccepting = true ∧
        s.worker.worker.slots.hasAvailableSlot = true) :
      Stepped settings s (.submit body turn) s [.responded response]
  | submitted (submit : TaskSubmit) (turn : Turn)
      (haccepting : s.worker.worker.stateMachine.isAccepting = true) :
      Stepped settings s (.submit (.request submit none) turn)
        (s.runWorker (s.worker.executeTaskWithEvents settings submit turn)).1
        ((s.runWorker (s.worker.executeTaskWithEvents settings submit turn)).2 ++
          [.responded .stream])
  | unauthorized (reason : String) (startTime now : Int) :
      Stepped settings s (.drain (some reason) startTime now) s
        [.responded (.unauthorized reason)]
  | drain (startTime now : Int) :
      Stepped settings s (.drain none startTime now)
        (s.waitForDrained settings startTime now).1
        (.printed (.draining s.workerId) :: (s.waitForDrained settings startTime now).2 ++
          [.responded (.drainInitiated s.workerId settings.drainBufferMs)])
  | signal (startTime now : Int) :
      Stepped settings s (.signal startTime now) (s.waitForDrained settings startTime now).1
        (.printed (.draining s.workerId) :: (s.waitForDrained settings startTime now).2)
  | poll {k : Nat} {d : DrainLoop} (now : Int) (hd : s.drains[k]? = some d) :
      Stepped settings s (.poll k now) (s.poll settings k d now).1 (s.poll settings k d now).2
  | exit {k : Nat} {d : DrainLoop} (hd : s.drains[k]? = some d) (hreturned : d.returned = true) :
      Stepped settings s (.exit k) { s with exited := true } [.exited]
  | worker {a : Action} {r : Instance × List Effect} (hinner : isInner a = true)
      (hr : (Worker.worker settings).step s.worker a = some r) :
      Stepped settings s (.worker a) (s.runWorker r).1 (s.runWorker r).2

/-- Every step is one of these. -/
theorem step_cases {settings : Settings} {s s' : ServerState} {a : ServerAction}
    {o : List ServerEffect} (hstep : (server settings).step s a = some (s', o)) :
    Stepped settings s a s' o := by
  obtain ⟨-, hstep⟩ := Option.ite_none_left_eq_some.mp hstep
  cases a with
  | submit body turn =>
      have hstep := Option.some.inj hstep
      rcases s.handleSubmit_cases settings body turn with
        ⟨response, heq, hrefused⟩ | ⟨submit, rfl, haccepting, -, heq⟩
      · rw [heq] at hstep
        obtain ⟨rfl, rfl⟩ := Prod.mk.inj hstep
        exact .refused turn response hrefused
      · rw [heq] at hstep
        obtain ⟨rfl, rfl⟩ := Prod.mk.inj hstep
        exact .submitted submit turn haccepting
  | drain authFailure startTime now =>
      have hstep := Option.some.inj hstep
      cases authFailure with
      | some reason =>
          obtain ⟨rfl, rfl⟩ := Prod.mk.inj hstep
          exact .unauthorized reason startTime now
      | none =>
          obtain ⟨rfl, rfl⟩ := Prod.mk.inj hstep
          exact .drain startTime now
  | signal startTime now =>
      obtain ⟨rfl, rfl⟩ := Prod.mk.inj (Option.some.inj hstep)
      exact .signal startTime now
  | poll k now =>
      obtain ⟨d, hd, hstep⟩ := Option.bind_eq_some_iff.mp hstep
      obtain ⟨-, hstep⟩ := Option.ite_none_left_eq_some.mp hstep
      obtain ⟨rfl, rfl⟩ := Prod.mk.inj (Option.some.inj hstep)
      exact .poll now hd
  | exit k =>
      obtain ⟨d, hd, hstep⟩ := Option.bind_eq_some_iff.mp hstep
      obtain ⟨hreturned, hstep⟩ := Option.ite_none_right_eq_some.mp hstep
      obtain ⟨rfl, rfl⟩ := Prod.mk.inj (Option.some.inj hstep)
      exact .exit hd hreturned
  | worker a' =>
      obtain ⟨hinner, hstep⟩ := Option.ite_none_right_eq_some.mp hstep
      obtain ⟨r, hr, hstep⟩ := Option.map_eq_some_iff.mp hstep
      obtain ⟨rfl, rfl⟩ := Prod.mk.inj hstep
      exact .worker hinner hr

end L0Worker.Server
