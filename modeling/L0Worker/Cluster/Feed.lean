import L0Worker.Cluster.Runs
import L0Worker.Supervisor.FeedRuns

/-!
# What a client of the cluster hears

The event feed with the whole cluster behind it.  A client that keeps up hears of each worker a
stretch of the events that the pool announces of it, and those follow their grammar
(`feed_grammar`): it can follow every worker from the point where it connected.
-/

namespace L0Worker.Cluster

open Server Supervisor

/-- The feed of the cluster. -/
def clusterFeed (setup : Setup) (apiPort : Port) :
    Machine (FeedState State) (FeedAction Action) FeedEffect :=
  feed (cluster setup) setup.pool.workerCount apiPort

/-- The feed of the cluster when `start` has returned. -/
def clusterFeedInit (setup : Setup) (w₀ : World) (workerIds : List WorkerId) : FeedState State :=
  .init (.init (w₀.start setup.pool workerIds).1) (w₀.start setup.pool workerIds).2

/-- The pool events that client `i` has read or that wait for it. -/
def heardBy (i : Nat) (out : List FeedEffect) (s : FeedState State) : List PoolEvent :=
  (readFeed (streamOf i out) ++ s.sse.waiting i).filterMap FeedEvent.pool?

section Runs

variable {setup : Setup} {apiPort : Port} {w₀ : World} {workerIds : List WorkerId}
variable {s : FeedState State} {as : List (FeedAction Action)} {out : List FeedEffect}

/-- A client that is polled before too much waits for it hears a stretch of what the pool
announces. -/
theorem heardBy_stretch (hcount : setup.pool.workerCount ≤ 2 ^ 53)
    (hrun : (clusterFeed setup apiPort).run (clusterFeedInit setup w₀ workerIds) as =
      some (s, out))
    {i : Nat} (hi : i < out.countP FeedEffect.isConnected)
    (hpolled : (clusterFeed setup apiPort).Along
      (fun s a _ _ => a = .poll i → (s.sse.waiting i).length ≤ sseCapacity)
      (clusterFeedInit setup w₀ workerIds) as) :
    heardBy i out s <:+: (w₀.start setup.pool workerIds).2 ++ announcedIn out := by
  obtain ⟨⟨handled, hannounced, hready⟩, hclients⟩ := feed_run hrun
  obtain ⟨p, q, hp, hsince, hreads, hread⟩ := feed_reads hcount hrun hi
  have hall : readFeed (streamOf i out) ++ s.sse.waiting i = s.sse.sent.drop p :=
    hread.trans ((hreads.reads_all_iff hp).mpr ((feed_along_iff hrun i).mp hpolled))
  rw [hannounced, ← hready.pool rfl, heardBy, hall, ← hclients.sent]
  exact ((List.drop_suffix p _).filterMap FeedEvent.pool?).isInfix.trans
    (List.prefix_append _ _).isInfix

/-- In every run of the cluster, what a client hears of a worker that is polled before more
waits for it than the channel holds is a stretch of events that follow their grammar. -/
theorem feed_grammar (hnew : World.new setup.pool = some w₀)
    (hcount : setup.pool.workerCount ≤ 2 ^ 53)
    (hrun : (clusterFeed setup apiPort).run (clusterFeedInit setup w₀ workerIds) as =
      some (s, out))
    {i : Nat} (hi : i < out.countP FeedEffect.isConnected)
    (hpolled : (clusterFeed setup apiPort).Along
      (fun s a _ _ => a = .poll i → (s.sse.waiting i).length ≤ sseCapacity)
      (clusterFeedInit setup w₀ workerIds) as) (id : WorkerId) :
    FollowsGrammar id (named id ((w₀.start setup.pool workerIds).2 ++ announcedIn out)) ∧
      named id (heardBy i out s) <:+:
        named id ((w₀.start setup.pool workerIds).2 ++ announcedIn out) := by
  obtain ⟨as', handled, hsim⟩ := run_simulates (inv_init hnew) (feed_source hrun)
  exact ⟨genuine_grammar hnew hsim.run hsim.genuine id,
    (heardBy_stretch hcount hrun hi hpolled).filter _⟩

end Runs

/-- A client connects while the worker comes up. -/
def heardComingUp : List (FeedAction Action) :=
  [.recv, .listen, .connect, .ready, .poll 0, .source (.create 0 "" ⟨0⟩ 0),
    .source (.pool (.readStdout 0)), .source (.listen 0), .source (.pool (.tryRecvEvent 1)),
    .source (.pool (.readStdout 0)), .source (.pool (.tryRecvEvent 2)), .recv, .poll 0]

def heardComingUpEffects : List FeedEffect :=
  [.broadcast (.pool (.workerSpawned "l0-1" 3001)), .connected,
    .broadcast (.supervisorReady 1 9000), .delivered 0 (.supervisorReady 1 9000),
    .announced (.workerHealthy "l0-1" 3001), .announced .allWorkersHealthy,
    .broadcast (.pool (.workerHealthy "l0-1" 3001)),
    .delivered 0 (.pool (.workerHealthy "l0-1" 3001))]

theorem feed_grammar_heardComingUp : ∃ s,
    (clusterFeed oneWorkerSetup 9000).run (clusterFeedInit oneWorkerSetup ⟨∅, [], []⟩ ["l0-1"])
      heardComingUp = some (s, heardComingUpEffects) ∧
    FollowsGrammar "l0-1" [.workerSpawned "l0-1" 3001, .workerHealthy "l0-1" 3001] ∧
    named "l0-1" (heardBy 0 heardComingUpEffects s) <:+:
      [.workerSpawned "l0-1" 3001, .workerHealthy "l0-1" 3001] := by
  have hrun : ((clusterFeed oneWorkerSetup 9000).run
      (clusterFeedInit oneWorkerSetup ⟨∅, [], []⟩ ["l0-1"]) heardComingUp).map Prod.snd =
        some heardComingUpEffects := by
    decide +kernel
  obtain ⟨⟨s, out⟩, hrun, rfl⟩ := Option.map_eq_some_iff.mp hrun
  have hpolled := (feed_along_iff hrun 0).mpr (by decide)
  exact ⟨s, hrun, feed_grammar oneWorkerSetup_new (by decide) hrun (by decide)
    hpolled "l0-1"⟩

end L0Worker.Cluster
