import L0Worker.Cluster.Process
import L0Worker.Supervisor.Genuine

/-!
# The supervisor with its workers

The machine of the whole deployment: the supervised system, in which every process that runs
is a standalone server.  A step is one of the supervisor, in which the processes do nothing,
or one of a process: it creates its worker, listens, or takes a step as a server behind HTTP.
A process may also end at any time: killed, by an exception while it starts, by a port that
is taken.

What a process prints goes into its pipe, as the lines that the stdout reader takes apart.
-/

namespace L0Worker.Cluster

open Server Supervisor

/-! ## State -/

/-- What the supervisor was started with, and the runtime of its workers. -/
structure Setup where
  pool : PoolConfig
  authSecret : Option String
  openaiApiKey : Option String
  anthropicApiKey : Option String
  /-- The environment of the supervisor, which its workers inherit. -/
  inherited : Env
  runtime : Runtime

/-- The configuration of a process.  `main` gives the pool no variables of its own. -/
def Setup.workerConfig (setup : Setup) (p : Process) : WorkerConfig where
  port := p.port
  workerId := p.workerId
  authSecret := setup.authSecret
  openaiApiKey := setup.openaiApiKey
  anthropicApiKey := setup.anthropicApiKey
  envVars := []

/-- The environment of a process. -/
def Setup.environment (setup : Setup) (p : Process) : Env :=
  (setup.workerConfig p).environment setup.inherited

/-- How far a process got. -/
inductive Node where
  | spawned
  /-- It has created its worker. -/
  | created (d : Deployment) (s : HttpState)
  /-- It listens. -/
  | serving (d : Deployment) (s : HttpState)

/-- The supervised system and what its processes do. -/
structure State where
  world : World
  node : Pid → Node

/-- The cluster when the supervisor has started its workers. -/
def State.init (world : World) : State where
  world := world
  node := fun _ => .spawned

/-! ## Steps -/

/-- A step of the cluster. -/
inductive Action where
  /-- A step of the supervisor. -/
  | pool (a : Supervisor.Action)
  /-- A process creates its worker, with what the UUID generator and the clocks say. -/
  | create (pid : Pid) (uuidv7 : String) (clock : Worker.MonotonicClock) (startTime : Int)
  /-- A process listens. -/
  | listen (pid : Pid)
  /-- A server takes a step. -/
  | serve (pid : Pid) (a : HttpAction)
  /-- A process ends for another reason than a drain. -/
  | crash (pid : Pid) (code : Option Int)

/-- The step belongs to a process, not to the supervisor. -/
def isProcessStep : Supervisor.Action → Bool
  | .print _ _ | .exit _ _ => true
  | _ => false

/-- The process, if it runs. -/
def runningProcess (w : World) (pid : Pid) : Option Process :=
  (w.procs[pid]?).filter fun p => decide p.Running

/-- Put lines into the pipe of a process. -/
def print (w : World) (pid : Pid) (ls : List Supervisor.Line) : World :=
  { w with procs := w.procs.modify pid fun p => { p with pipe := p.pipe ++ ls } }

/-- The server of a new process, and the first line it prints.  There is none where the
constructor of the worker throws. -/
def createServer (setup : Setup) (p : Process) (uuidv7 : String) (clock : Worker.MonotonicClock)
    (startTime : Int) : Option (String × Deployment × HttpState) := do
  let env := setup.environment p
  let config := Config.ofEnv env uuidv7
  let d ← Deployment.ofEnv setup.runtime env config startTime
  let worker ← createWorkerInstance config
  return (modeLine env config, d, .init (.init (.init worker clock)))

/-- The ready line of a process. -/
def readyText (setup : Setup) (p : Process) (s : HttpState) : String :=
  (readySignal (serverPort (setup.environment p)) s.server.workerId).stringify

namespace State

/-- A process goes on to a node and prints lines. -/
def advance (c : State) (pid : Pid) (node : Node) (ls : List Supervisor.Line) : State where
  world := print c.world pid ls
  node := Function.update c.node pid node

/-- A process ends with code 0 if its server says so. -/
def endIfExited (c : State) (pid : Pid) (s : HttpState) : State :=
  if s.server.exited then { c with world := c.world.endProcess pid (some 0) } else c

/-- One step. -/
def step (setup : Setup) (c : State) : Action → Option (State × List PoolEvent)
  | .pool a =>
      if isProcessStep a then none
      else (c.world.step setup.pool a).map fun r => ({ c with world := r.1 }, r.2)
  | .create pid uuidv7 clock startTime =>
      (runningProcess c.world pid).bind fun p =>
        match c.node pid with
        | .spawned => (createServer setup p uuidv7 clock startTime).map fun (line, d, s) =>
            (c.advance pid (.created d s) [readLine line], [])
        | _ => none
  | .listen pid =>
      (runningProcess c.world pid).bind fun p =>
        match c.node pid with
        | .created d s => some (c.advance pid (.serving d s) [readLine (readyText setup p s)], [])
        | _ => none
  | .serve pid a =>
      (runningProcess c.world pid).bind fun _ =>
        match c.node pid with
        | .serving d s => ((http d).step s a).map fun (s', o) =>
            ((c.advance pid (.serving d s') ((httpLines o).map Server.Line.toStdout)).endIfExited
              pid s', [])
        | _ => none
  | .crash pid code =>
      (c.world.step setup.pool (.exit pid code)).map fun r => ({ c with world := r.1 }, r.2)

end State

/-- The machine of the cluster. -/
def cluster (setup : Setup) : Machine State Action PoolEvent := ⟨State.step setup⟩

/-- The events that the pool handles in the step. -/
def State.received (c : State) : Action → List Posted
  | .pool a => c.world.received a
  | _ => []

end L0Worker.Cluster
