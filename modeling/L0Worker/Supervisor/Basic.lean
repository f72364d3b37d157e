import L0Worker.Lib.FinmapModify
import Mathlib.Data.UInt

/-!
# The data of the supervisor

The types of `worker.rs`, `health.rs` and `pool.rs`, and what the supervisor
sees of the operating system.

A `Process` is a spawned worker process.  Its identity `Pid` is its place in
the list of all processes spawned so far, so no two spawns share one.  What a
process prints waits in its pipe as `Line`s until the reader task of
`Worker::spawn` turns a line into a `WorkerEvent` and posts it on the event
channel.  A posted event remembers the process it came from.  The pool never
reads that mark; it is there to say which process an event is about.

Times are milliseconds and durations are natural numbers of milliseconds.
-/

namespace L0Worker.Supervisor

/-- The id of a worker, `l0-` and a UUID for the ids the pool makes. -/
abbrev WorkerId := String

/-- A TCP port, `u16`. -/
abbrev Port := UInt16

/-- A reading of the monotonic clock, in milliseconds. -/
abbrev Instant := Nat

/-- The identity of a process: its place among all processes spawned. -/
abbrev Pid := Nat

/-! ## Fixed-width arithmetic -/

/-- `u16::checked_add`. -/
def checkedAdd (a b : UInt16) : Option UInt16 :=
  if a.toNat + b.toNat < 2 ^ 16 then some (a + b) else none

/-- `u64::checked_mul`. -/
def checkedMul (a b : Nat) : Option Nat :=
  if a * b < 2 ^ 64 then some (a * b) else none

/-- `u64::checked_pow`. -/
def checkedPow (a n : Nat) : Option Nat :=
  if a ^ n < 2 ^ 64 then some (a ^ n) else none

/-! ## Worker events -/

/-- Events of a worker process, as the pool receives them. -/
inductive WorkerEvent where
  | ready (port : Port) (workerId : WorkerId)
  /-- Graceful shutdown was initiated. -/
  | draining (workerId : WorkerId)
  /-- No task is in flight any more. -/
  | drained (workerId : WorkerId)
  | exited (workerId : WorkerId) (exitCode : Option Int)
  /-- Any other line on stdout. -/
  | stdout (line : String)
  | stderr (line : String)
deriving Repr, DecidableEq

/-- The worker an event is about, if it names one. -/
def WorkerEvent.workerId? : WorkerEvent → Option WorkerId
  | .ready _ id | .draining id | .drained id | .exited id _ => some id
  | .stdout _ | .stderr _ => none

/-- A line on the stdout of a worker process. -/
inductive Line where
  /-- A JSON object with a string field `event`, and what the fields `port` and
  `workerId` hold if they are an unsigned number and a string. -/
  | event (kind : String) (port : Option Nat) (workerId : Option String) (text : String)
  | other (text : String)
deriving Repr, DecidableEq

/-- The stdout reader task of `Worker::spawn`: the event posted for a line, if
one is. -/
def Line.toEvent : Line → Option WorkerEvent
  | .event "worker.ready" port workerId _ =>
      -- a ready line without a port is skipped
      port.map fun p => .ready (UInt16.ofNat p) (workerId.getD "unknown")
  | .event "worker.draining" _ workerId _ => some (.draining (workerId.getD "unknown"))
  | .event "worker.drained" _ workerId _ => some (.drained (workerId.getD "unknown"))
  | .event _ _ _ text => some (.stdout text)
  | .other text => some (.stdout text)

/-! ## Processes -/

/-- What the operating system says about a process. -/
inductive ProcStatus where
  | running
  /-- The process ended, with an exit code or by a signal. -/
  | exited (code : Option Int)
deriving Repr, DecidableEq

/-- A spawned worker process. -/
structure Process where
  workerId : WorkerId
  port : Port
  status : ProcStatus
  /-- The lines it printed that its reader task has not read yet, oldest first. -/
  pipe : List Line
deriving Repr, DecidableEq

def Process.Running (p : Process) : Prop := p.status = .running

instance (p : Process) : Decidable p.Running := inferInstanceAs (Decidable (_ = _))

/-- The process ended, unless it had before. -/
def Process.ended (code : Option Int) (p : Process) : Process :=
  match p.status with
  | .running => { p with status := .exited code }
  | .exited _ => p

/-- An event on the event channel, with the process it came from. -/
structure Posted where
  /-- The process, unknown to the pool. -/
  source : Pid
  event : WorkerEvent
deriving Repr, DecidableEq

/-- A managed worker process: its configuration and its child.  The pool inserts
a worker only after `spawn` has set the child, so there always is one. -/
structure Worker where
  /-- The id given to the process. -/
  workerId : WorkerId
  /-- The port given to the process. -/
  port : Port
  /-- The child process. -/
  child : Pid
deriving Repr, DecidableEq

/-! ## Health checks -/

/-- The body of `/api/status`. -/
structure WorkerStatus where
  workerId : WorkerId
  state : String
  protocolVersion : String
  maxConcurrency : UInt32
  inflight : UInt32
  availableSlots : UInt32
  uptimeMs : UInt64
  ts : UInt64
deriving Repr, DecidableEq

/-- The result of one health check. -/
inductive HealthCheckResult where
  /-- The worker answered with a status. -/
  | healthy (status : WorkerStatus)
  /-- The worker answered with an error. -/
  | unhealthy (reason : String)
  /-- The worker did not answer. -/
  | unreachable (reason : String)
deriving Repr, DecidableEq

/-! ## The pool -/

/-- Worker state in the pool. -/
inductive WorkerState where
  | starting
  /-- The worker is healthy and accepts tasks. -/
  | healthy
  /-- The worker shuts down gracefully. -/
  | draining
  /-- The worker failed and waits for its restart. -/
  | failed (restartAt : Instant)
  | stopped
deriving Repr, DecidableEq

/-- The state is `Failed`. -/
def WorkerState.isFailed : WorkerState → Bool
  | .failed _ => true
  | _ => false

/-- An entry of the pool. -/
structure ManagedWorker where
  worker : Worker
  state : WorkerState
  /-- Consecutive restart failures, a `u32` whose increment wraps, as in a release build. -/
  consecutiveFailures : UInt32
  /-- Consecutive failed health checks of a running process. -/
  consecutiveUnhealthy : Nat
  /-- When the worker was last seen healthy. -/
  lastHealthy : Option Instant
deriving Repr, DecidableEq

/-- The configuration of the pool, as far as the pool's decisions read it. -/
structure PoolConfig where
  workerCount : Nat
  basePort : Port
  restartDelay : Nat
  maxRestartDelay : Nat
  /-- Failures after which the pool gives up on a worker. -/
  maxConsecutiveFailures : UInt32
  /-- Failed checks after which a running worker is killed. -/
  maxUnhealthyChecks : Nat
  maxPort : Port
deriving Repr, DecidableEq

/-- Errors of pool operations. -/
inductive PoolError where
  | notFound (msg : String)
  | internal (msg : String)
deriving Repr, DecidableEq

/-- Events the pool emits. -/
inductive PoolEvent where
  | workerSpawned (workerId : WorkerId) (port : Port)
  | workerHealthy (workerId : WorkerId) (port : Port)
  | workerUnhealthy (workerId : WorkerId) (reason : String)
  | workerDraining (workerId : WorkerId)
  /-- A worker has no task in flight any more. -/
  | workerDrained (workerId : WorkerId)
  | workerRestarting (workerId : WorkerId) (attempt : UInt32)
  /-- A worker failed for good. -/
  | workerFailed (workerId : WorkerId)
  | allWorkersHealthy
  | shuttingDown
deriving Repr, DecidableEq

/-- The worker a pool event names. -/
def PoolEvent.workerId? : PoolEvent → Option WorkerId
  | .workerSpawned id _ | .workerHealthy id _ | .workerUnhealthy id _ | .workerDraining id
  | .workerDrained id | .workerRestarting id _ | .workerFailed id => some id
  | .allWorkersHealthy | .shuttingDown => none

/-- The map of the pool, from ids to entries. -/
abbrev Workers := Finmap fun _ : WorkerId => ManagedWorker

/-- The pool together with what the operating system and the reader tasks hold
for it. -/
structure World where
  workers : Workers
  /-- The event channel, oldest event first. -/
  eventRx : List Posted
  /-- Every process spawned so far, by `Pid`. -/
  procs : List Process
deriving DecidableEq

/-- The capacity of the event channel. -/
def eventCapacity : Nat := 100

end L0Worker.Supervisor
