import L0Worker.Lib.While
import L0Worker.Supervisor.FreePorts

/-!
# The loop of the port search

`next_available_port` counts up from `base_port` while the port is used.  The loop has three
exits, and its result is checked against `max_port` once more.  It goes on only below
`max_port`, so that the distance to it bounds the number of turns and no port that is visited
lies above it.  Hence the addition does not overflow and the last check does not fail, also
where `max_port` is 65535 (`free_port_search_exact`).
-/

namespace L0Worker.Supervisor

open While

variable {config : PoolConfig} {used : Finset Port} {port port' : Port}

/-! ## The loop -/

/-- The loop ends, after at most as many turns as there are ports left. -/
theorem portLoop_ends (config : PoolConfig) (used : Finset Port) (port : Port) :
    ∃ n ≤ config.maxPort.toNat - port.toNat, ∃ r, Ends (portLoop config used) n port r := by
  refine ends_of_variant (V := fun p => config.maxPort.toNat - p.toNat) ?_ port
  intro p p' h
  obtain ⟨-, hmax, hnext⟩ := portLoop_next h
  rw [UInt16.lt_iff_toNat_lt] at hmax
  omega

/-- `nextFreePort` is the result of the loop. -/
theorem nextFreePort_of_ends {n : ℕ} {r : Except PoolError Port}
    (h : Ends (portLoop config used) n port r) : nextFreePort config used port = r := by
  refine h.eq ?_ ?_
  · intro p p' hnext
    exact nextFreePort_of_next hnext
  · intro p r hleave
    exact nextFreePort_of_leave hleave

/-- No port above the maximum is visited. -/
theorem visits_le_maxPort (hrange : config.basePort ≤ config.maxPort)
    (h : Visits (portLoop config used) config.basePort port) : port ≤ config.maxPort := by
  refine h.invariant (I := fun p => p ≤ config.maxPort) ?_ hrange
  intro p p' _ hnext
  obtain ⟨-, hmax, hp'⟩ := portLoop_next hnext
  rw [UInt16.lt_iff_toNat_lt] at hmax
  rw [UInt16.le_iff_toNat_le, hp']
  exact hmax

/-- So the check after the loop passes, and the search returns what the loop does. -/
theorem World.nextAvailablePort_eq (hrange : config.basePort ≤ config.maxPort) (w : World) :
    w.nextAvailablePort config = nextFreePort config w.usedPorts config.basePort := by
  obtain ⟨n, -, r, hends⟩ := portLoop_ends config w.usedPorts config.basePort
  obtain ⟨port, hvisits, hleave⟩ := hends.leaves
  unfold World.nextAvailablePort
  rw [nextFreePort_of_ends hends]
  rcases portLoop_leave hleave with ⟨-, rfl⟩ | ⟨-, -, rfl⟩
  · exact if_neg (UInt16.not_lt.mpr (visits_le_maxPort hrange hvisits))
  · rfl

/-- The search has one error. -/
theorem World.nextAvailablePort_noPorts (hrange : config.basePort ≤ config.maxPort) {w : World}
    {e : PoolError} (h : w.nextAvailablePort config = .error e) :
    e = noAvailablePorts config w.usedPorts := by
  obtain ⟨n, -, r, hends⟩ := portLoop_ends config w.usedPorts config.basePort
  obtain ⟨port, -, hleave⟩ := hends.leaves
  rw [World.nextAvailablePort_eq hrange, nextFreePort_of_ends hends] at h
  rcases portLoop_leave hleave with ⟨-, hr⟩ | ⟨-, -, hr⟩
  · cases h.symm.trans hr
  · exact Except.error.inj (h.symm.trans hr)

/-- The search fails when all ports of the range are used. -/
theorem World.nextAvailablePort_of_allUsed {w : World}
    (h : ∀ p, config.basePort ≤ p → p ≤ config.maxPort → p ∈ w.usedPorts) :
    ∃ e, w.nextAvailablePort config = .error e := by
  cases hsearch : w.nextAvailablePort config with
  | error e => exact ⟨e, rfl⟩
  | ok port =>
      obtain ⟨⟨hge, hle, hunused⟩, -⟩ := World.nextAvailablePort_eq_ok_iff.mp hsearch
      exact absurd (h port hge hle) hunused

/-- The search for a free port is exact: its loop ends, it finds the lowest port of the range
that no entry has, and it fails only where there is none. -/
structure SearchesExactly (config : PoolConfig) (w : World) : Prop where
  /-- The loop goes on less often than the range has ports. -/
  terminates : ∃ n ≤ config.maxPort.toNat - config.basePort.toNat,
    Ends (portLoop config w.usedPorts) n config.basePort
      (nextFreePort config w.usedPorts config.basePort)
  finds : ∀ port, w.nextAvailablePort config = .ok port ↔
    IsLeast {p | config.basePort ≤ p ∧ p ≤ config.maxPort ∧ p ∉ w.usedPorts} port
  fails : ∀ e, w.nextAvailablePort config = .error e ↔
    e = noAvailablePorts config w.usedPorts ∧
      ∀ p, config.basePort ≤ p → p ≤ config.maxPort → p ∈ w.usedPorts
  /-- Where the loop comes to the addition, it does not overflow. -/
  noOverflow : ∀ port, Visits (portLoop config w.usedPorts) config.basePort port →
    port ∈ w.usedPorts → ¬ config.maxPort ≤ port → checkedAdd port 1 ≠ none
  /-- Where the loop leaves with a port, the check after it passes. -/
  inRange : ∀ port, Visits (portLoop config w.usedPorts) config.basePort port →
    port ∉ w.usedPorts → ¬ config.maxPort < port

/-- The search is exact for every range and whichever ports are used. -/
theorem free_port_search_exact (hrange : config.basePort ≤ config.maxPort) (w : World) :
    SearchesExactly config w := by
  refine ⟨?_, fun port => World.nextAvailablePort_eq_ok_iff, ?_, ?_, ?_⟩
  · obtain ⟨n, hn, r, hends⟩ := portLoop_ends config w.usedPorts config.basePort
    rw [nextFreePort_of_ends hends]
    exact ⟨n, hn, hends⟩
  · intro e
    constructor
    · intro h
      exact ⟨World.nextAvailablePort_noPorts hrange h, World.nextAvailablePort_error h⟩
    · rintro ⟨rfl, hall⟩
      obtain ⟨e, he⟩ := World.nextAvailablePort_of_allUsed hall
      rw [← World.nextAvailablePort_noPorts hrange he]
      exact he
  · intro port _ _ hmax hnone
    obtain ⟨next, hadd, -⟩ := checkedAdd_one_of_lt (UInt16.not_le.mp hmax)
    cases hnone.symm.trans hadd
  · intro port hvisits _
    exact UInt16.not_lt.mpr (visits_le_maxPort hrange hvisits)

/-- The last two ports there are, both of them used. -/
theorem free_port_search_exact_lastPorts :
    let config : PoolConfig := ⟨2, 65534, 1000, 30000, 5, 2, 65535⟩
    let entry : WorkerId → Port → Pid → ManagedWorker := fun id port pid =>
      ⟨⟨id, port, pid⟩, .healthy, 0, 0, none⟩
    let w : World := ⟨(Finmap.singleton "l0-1" (entry "l0-1" 65534 0)).insert "l0-2"
      (entry "l0-2" 65535 1), [], [⟨"l0-1", 65534, .running, []⟩, ⟨"l0-2", 65535, .running, []⟩]⟩
    SearchesExactly config w :=
  free_port_search_exact (by decide) _

end L0Worker.Supervisor
