import L0Worker.Lib.Machine
import L0Worker.Lib.Automaton
import L0Worker.Lib.Sessions
import L0Worker.Lib.Loop
import L0Worker.Lib.KeyedLoop
import L0Worker.Lib.Streak
import L0Worker.Lib.While
import L0Worker.Lib.Channel
import L0Worker.Lib.Climb
import L0Worker.Lib.Emitter
import L0Worker.Lib.JsMap
import L0Worker.Lib.JsValue
import L0Worker.Lib.Rounding
import L0Worker.Lib.Decimal
import L0Worker.Lib.JsonNumber
import L0Worker.Lib.NumberSum
import L0Worker.Lib.NumberText
import L0Worker.Lib.JsonString
import L0Worker.Lib.Utf16
import L0Worker.Lib.JsString
import L0Worker.Lib.OwnKeys
import L0Worker.Lib.JsonText
import L0Worker.Lib.JsonRoundtrip
import L0Worker.Lib.EventStream
import L0Worker.Lib.Schema
import L0Worker.Lib.FinmapModify
import L0Worker.Supervisor.Basic
import L0Worker.Supervisor.Pool
import L0Worker.Supervisor.Arithmetic
import L0Worker.Supervisor.System
import L0Worker.Supervisor.Traffic
import L0Worker.Supervisor.Restart
import L0Worker.Supervisor.Ownership
import L0Worker.Supervisor.Ports
import L0Worker.Supervisor.FreePorts
import L0Worker.Supervisor.PortSearch
import L0Worker.Supervisor.Stale
import L0Worker.Supervisor.Frame
import L0Worker.Supervisor.Sweeps
import L0Worker.Supervisor.Stop
import L0Worker.Supervisor.CrashPaths
import L0Worker.Supervisor.Entry
import L0Worker.Supervisor.SweepOrder
import L0Worker.Supervisor.KillThreshold
import L0Worker.Supervisor.Replace
import L0Worker.Supervisor.Events
import L0Worker.Supervisor.Genuine
import L0Worker.Supervisor.Api
import L0Worker.Supervisor.Directory
import L0Worker.Supervisor.ServesDirectory
import L0Worker.Lib.Broadcast
import L0Worker.Lib.NamedEvents
import L0Worker.Supervisor.Feed
import L0Worker.Supervisor.FeedRuns
import L0Worker.Supervisor.Backoff
import L0Worker.Supervisor.Health
import L0Worker.Supervisor.MainLoop
import L0Worker.Supervisor.Startup
import L0Worker.Supervisor.Shutdown
import L0Worker.Worker.Basic
import L0Worker.Worker.Store
import L0Worker.Worker.Instance
import L0Worker.Worker.Events
import L0Worker.Worker.Calls
import L0Worker.Worker.Protocol
import L0Worker.Worker.Account
import L0Worker.Worker.Capacity
import L0Worker.Worker.Reports
import L0Worker.Worker.Conversation
import L0Worker.Worker.Replay
import L0Worker.Worker.Turns
import L0Worker.Worker.Terminal
import L0Worker.Worker.Lifecycle
import L0Worker.Worker.Order
import L0Worker.Worker.Executor
import L0Worker.Worker.Options
import L0Worker.Worker.Paths
import L0Worker.Worker.Progress
import L0Worker.Worker.Callbacks
import L0Worker.Worker.Fanout
import L0Worker.Worker.Milestones
import L0Worker.Worker.Structured
import L0Worker.Worker.Canonical
import L0Worker.Worker.Injectivity
import L0Worker.Worker.Clock
import L0Worker.Worker.Listeners
import L0Worker.Worker.Eviction
import L0Worker.Worker.OutputHash
import L0Worker.Worker.Truthful
import L0Worker.Worker.Deadline
import L0Worker.Server.Basic
import L0Worker.Server.RunsWorker
import L0Worker.Server.Drain
import L0Worker.Server.DrainOnce
import L0Worker.Server.SubmitStream
import L0Worker.Server.Gate
import L0Worker.Server.Inbound
import L0Worker.Server.Outbound
import L0Worker.Server.ReplayStream
import L0Worker.Server.Repeats
import L0Worker.Server.Auth
import L0Worker.Server.Http
import L0Worker.Server.Environment
import L0Worker.Server.Functions
import L0Worker.Server.Siblings
import L0Worker.Server.Authority
import L0Worker.Server.Status
import L0Worker.Server.Counts
import L0Worker.Server.ConfigUpdates
import L0Worker.Cluster.Spawn
import L0Worker.Cluster.Process
import L0Worker.Cluster.Basic
import L0Worker.Cluster.Runs
import L0Worker.Cluster.Feed
import L0Worker.Cluster.Secret
import L0Worker.Cluster.Responsive
