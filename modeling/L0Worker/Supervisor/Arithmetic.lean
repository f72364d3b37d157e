import L0Worker.Supervisor.Pool
import Mathlib.Order.Bounds.Basic

/-!
# What the pool computes at fixed width

Three functions of the pool calculate with `u16` and `u64`.  `WorkerPool::new` checks the
range of the initial ports with a count it has truncated to `u16`, so it accepts some
counts that do not fit (`new_portsFit_iff`).  The restart delay falls back to its maximum
where the power or the product overflows, which is right unless the base is zero
(`calculateRestartDelay_eq_iff`).  The search for a free port neither misses a port nor
overflows (`World.nextAvailablePort_eq_ok_iff`).
-/

namespace L0Worker.Supervisor

theorem checkedAdd_eq_some_iff {a b c : UInt16} :
    checkedAdd a b = some c ↔ c.toNat = a.toNat + b.toNat := by
  unfold checkedAdd
  have hc := c.toNat_lt
  constructor
  · intro h
    obtain ⟨hlt, h⟩ := Option.ite_none_right_eq_some.mp h
    rw [← Option.some.inj h, UInt16.toNat_add, Nat.mod_eq_of_lt hlt]
  · intro h
    rw [if_pos (by omega)]
    congr 1
    apply UInt16.toNat_inj.mp
    rw [UInt16.toNat_add, h, Nat.mod_eq_of_lt (by omega)]

/-- Below another number, adding one does not overflow. -/
theorem checkedAdd_one_of_lt {a limit : UInt16} (h : a < limit) :
    ∃ b, checkedAdd a 1 = some b ∧ b.toNat = a.toNat + 1 := by
  have hlimit := limit.toNat_lt
  rw [UInt16.lt_iff_toNat_lt] at h
  have h1 : (1 : UInt16).toNat = 1 := rfl
  have hadd : checkedAdd a 1 = some (a + 1) := if_pos (by omega)
  exact ⟨a + 1, hadd, checkedAdd_eq_some_iff.mp hadd⟩

/-! ## The initial ports -/

/-- The check of `WorkerPool::new` is one about the truncated count. -/
theorem World.new_ne_none_iff {config : PoolConfig} :
    World.new config ≠ none ↔
      config.basePort.toNat + (config.workerCount - 1) % 2 ^ 16 ≤ config.maxPort.toNat := by
  have hmax := config.maxPort.toNat_lt
  have hcount : (UInt16.ofNat (config.workerCount - 1)).toNat =
      (config.workerCount - 1) % 2 ^ 16 := UInt16.toNat_ofNat'
  unfold World.new
  dsimp only
  split
  · cases hadd : checkedAdd config.basePort (UInt16.ofNat (config.workerCount - 1)) with
    | none =>
        unfold checkedAdd at hadd
        rw [hcount] at hadd
        have hge : ¬ config.basePort.toNat + (config.workerCount - 1) % 2 ^ 16 < 2 ^ 16 := by
          intro hlt
          rw [if_pos hlt] at hadd
          cases hadd
        simp only [ne_eq, not_true_eq_false, false_iff]
        omega
    | some highestPort =>
        rw [checkedAdd_eq_some_iff, hcount] at hadd
        dsimp only
        rw [← hadd, ← UInt16.le_iff_toNat_le]
        split <;> simp [*]
  · next hzero =>
    have hzero : config.workerCount - 1 = 0 := by omega
    rw [hzero, Nat.zero_mod, Nat.add_zero, ← UInt16.le_iff_toNat_le]
    split <;> simp [*]

/-- The ports that `start` computes for its workers are those of a range of integers. -/
structure PortsFit (config : PoolConfig) : Prop where
  inRange : 0 < config.workerCount →
    config.basePort.toNat + config.workerCount - 1 ≤ config.maxPort.toNat
  /-- Neither the cast of the index nor the addition loses anything. -/
  exact : ∀ i < config.workerCount, i < 2 ^ 16 ∧ config.basePort.toNat + i < 2 ^ 16
  distinct : ∀ i < config.workerCount, ∀ j < config.workerCount,
    config.basePort + UInt16.ofNat i = config.basePort + UInt16.ofNat j → i = j
  within : ∀ i < config.workerCount, config.basePort ≤ config.basePort + UInt16.ofNat i ∧
    config.basePort + UInt16.ofNat i ≤ config.maxPort

/-- An index for which nothing is lost. -/
theorem toNat_port {port : Port} {i : Nat} (h : port.toNat + i < 2 ^ 16) :
    (port + UInt16.ofNat i).toNat = port.toNat + i := by
  rw [UInt16.toNat_add, UInt16.toNat_ofNat', Nat.mod_eq_of_lt (by omega : i < 2 ^ 16),
    Nat.mod_eq_of_lt h]

theorem portsFit_of_range {config : PoolConfig}
    (h : config.basePort.toNat + config.workerCount ≤ config.maxPort.toNat + 1) :
    PortsFit config := by
  have hmax := config.maxPort.toNat_lt
  have hfit : ∀ i < config.workerCount, config.basePort.toNat + i < 2 ^ 16 := by
    intro i hi
    omega
  refine ⟨fun _ => by omega, fun i hi => ⟨?_, hfit i hi⟩, ?_, ?_⟩
  · have := hfit i hi
    omega
  · intro i hi j hj heq
    have hnat := congrArg UInt16.toNat heq
    rw [toNat_port (hfit i hi), toNat_port (hfit j hj)] at hnat
    omega
  · intro i hi
    rw [UInt16.le_iff_toNat_le, UInt16.le_iff_toNat_le, toNat_port (hfit i hi)]
    omega

/-- An accepted configuration has ports that fit, unless it has more than `2 ^ 16` workers
and its truncated count is within the range. -/
theorem new_portsFit_iff (config : PoolConfig) :
    (World.new config ≠ none → PortsFit config) ↔
      config.workerCount ≤ 2 ^ 16 ∨
        config.maxPort.toNat < config.basePort.toNat + (config.workerCount - 1) % 2 ^ 16 := by
  rw [World.new_ne_none_iff]
  have hmax := config.maxPort.toNat_lt
  constructor
  · intro h
    by_contra hnot
    obtain ⟨hcount, hle⟩ := not_or.mp hnot
    have hrange := (h (Nat.le_of_not_lt hle)).inRange (by omega)
    omega
  · intro h hle
    obtain hcount | hlt := h
    · rcases Nat.eq_zero_or_pos config.workerCount with hzero | hpos
      · exact portsFit_of_range (by omega)
      · rw [Nat.mod_eq_of_lt (by omega)] at hle
        exact portsFit_of_range (by omega)
    · exact absurd hle (Nat.not_le_of_lt hlt)

/-- With `65537` workers the truncated count is zero. -/
theorem truncated_count_accepted : ¬ ∀ config, World.new config ≠ none → PortsFit config := by
  intro claim
  have hfit := claim ⟨65537, 3001, 500, 30000, 5, 2, 49151⟩ (by decide)
  exact absurd (hfit.inRange (by decide)) (by decide)

/-! ## The restart delay -/

/-- The delay never exceeds its maximum. -/
theorem calculateRestartDelay_le (config : PoolConfig) (failures : Nat) :
    calculateRestartDelay config failures ≤ config.maxRestartDelay % 2 ^ 64 :=
  Nat.min_le_right _ _

/-- Where the power overflows but the base is not zero, the product overflows as well. -/
theorem min_checked_eq {b m n : Nat} (hm : m < 2 ^ 64) (h : 0 < b ∨ 2 ^ n < 2 ^ 64) :
    min (((checkedPow 2 n).bind (checkedMul b)).getD m) m = min m (b * 2 ^ n) := by
  unfold checkedPow
  by_cases hpow : 2 ^ n < 2 ^ 64
  · rw [if_pos hpow, Option.bind_some, checkedMul]
    split
    · exact Nat.min_comm _ _
    · -- the product overflows, so it exceeds the maximum
      next hmul => rw [Option.getD_none, Nat.min_self, Nat.min_eq_left (by omega)]
  · have hle : 2 ^ n ≤ b * 2 ^ n := Nat.le_mul_of_pos_left _ (h.resolve_right hpow)
    rw [if_neg hpow, Option.bind_none, Option.getD_none, Nat.min_self,
      Nat.min_eq_left (by omega)]

/-- The delay is the capped exponential, unless the base is zero and the power overflows:
then it is the maximum. -/
theorem calculateRestartDelay_eq_iff (config : PoolConfig) (b m : UInt64) (f : UInt32) :
    calculateRestartDelay
        { config with restartDelay := b.toNat, maxRestartDelay := m.toNat } f.toNat =
      min m.toNat (b.toNat * 2 ^ (f.toNat - 1)) ↔ b ≠ 0 ∨ m = 0 ∨ f ≤ 64 := by
  have hb : b = 0 ↔ b.toNat = 0 := UInt64.toNat_inj.symm
  have hm : m = 0 ↔ m.toNat = 0 := UInt64.toNat_inj.symm
  have hf : f ≤ 64 ↔ f.toNat ≤ 64 := UInt32.le_iff_toNat_le
  have hpow : 2 ^ (f.toNat - 1) < 2 ^ 64 ↔ f.toNat ≤ 64 := by
    rw [Nat.pow_lt_pow_iff_right (by decide)]
    omega
  rw [ne_eq, hb, hm, hf, ← hpow]
  unfold calculateRestartDelay
  dsimp only
  rw [Nat.mod_eq_of_lt b.toNat_lt, Nat.mod_eq_of_lt m.toNat_lt]
  by_cases h : 0 < b.toNat ∨ 2 ^ (f.toNat - 1) < 2 ^ 64
  · refine iff_of_true (min_checked_eq m.toNat_lt h) ?_
    omega
  · obtain ⟨hzero, hlarge⟩ := not_or.mp h
    rw [checkedPow, if_neg hlarge, Nat.eq_zero_of_not_pos hzero]
    simp only [Option.bind_none, Option.getD_none, Nat.min_self, Nat.zero_mul, Nat.min_zero,
      not_true_eq_false, false_or]
    exact ⟨.inl, fun h => h.resolve_right hlarge⟩

/-- Without a base delay, the delay is the maximum from the sixty-fifth failure on. -/
theorem zero_base_delayed : ¬ ∀ (config : PoolConfig) (b m : UInt64) (f : UInt32),
    calculateRestartDelay
        { config with restartDelay := b.toNat, maxRestartDelay := m.toNat } f.toNat =
      min m.toNat (b.toNat * 2 ^ (f.toNat - 1)) := by
  intro claim
  exact absurd (claim ⟨1, 3001, 500, 30000, 5, 2, 49151⟩ 0 30000 65) (by decide)

/-! ## The search for a free port -/

variable {config : PoolConfig} {used : Finset Port} {port port' : Port}

theorem portLoop_of_unused (h : port ∉ used) : portLoop config used port = .inr (.ok port) :=
  if_neg h

theorem portLoop_of_last (h : port ∈ used) (hmax : config.maxPort ≤ port) :
    portLoop config used port = .inr (.error (noAvailablePorts config used)) := by
  rw [portLoop, if_pos h, if_pos hmax]

theorem portLoop_of_used (h : port ∈ used) (hmax : port < config.maxPort) :
    ∃ next, portLoop config used port = .inl next ∧ next.toNat = port.toNat + 1 := by
  obtain ⟨next, hadd, hnext⟩ := checkedAdd_one_of_lt hmax
  refine ⟨next, ?_, hnext⟩
  rw [portLoop, if_pos h, if_neg (UInt16.not_le.mpr hmax), hadd]

/-- The loop goes on with the next port, and only below the maximum. -/
theorem portLoop_next (h : portLoop config used port = .inl port') :
    port ∈ used ∧ port < config.maxPort ∧ port'.toNat = port.toNat + 1 := by
  by_cases hused : port ∈ used
  · by_cases hmax : config.maxPort ≤ port
    · rw [portLoop_of_last hused hmax] at h
      cases h
    · obtain ⟨next, hloop, hnext⟩ := portLoop_of_used hused (UInt16.not_le.mp hmax)
      obtain rfl := Sum.inl.inj (hloop.symm.trans h)
      exact ⟨hused, UInt16.not_le.mp hmax, hnext⟩
  · rw [portLoop_of_unused hused] at h
    cases h

/-- The loop leaves with an unused port, or where the maximum is used. -/
theorem portLoop_leave {r : Except PoolError Port} (h : portLoop config used port = .inr r) :
    (port ∉ used ∧ r = .ok port) ∨
      (port ∈ used ∧ config.maxPort ≤ port ∧ r = .error (noAvailablePorts config used)) := by
  by_cases hused : port ∈ used
  · by_cases hmax : config.maxPort ≤ port
    · rw [portLoop_of_last hused hmax] at h
      exact .inr ⟨hused, hmax, (Sum.inr.inj h).symm⟩
    · obtain ⟨next, hloop, -⟩ := portLoop_of_used hused (UInt16.not_le.mp hmax)
      cases hloop.symm.trans h
  · rw [portLoop_of_unused hused] at h
    exact .inl ⟨hused, (Sum.inr.inj h).symm⟩

theorem nextFreePort_of_next (h : portLoop config used port = .inl port') :
    nextFreePort config used port = nextFreePort config used port' := by
  rw [nextFreePort]
  split
  · next next hnext => exact Sum.inl.inj (hnext.symm.trans h) ▸ rfl
  · next hleave => cases hleave.symm.trans h

theorem nextFreePort_of_leave {r : Except PoolError Port}
    (h : portLoop config used port = .inr r) : nextFreePort config used port = r := by
  rw [nextFreePort]
  split
  · next hnext => cases hnext.symm.trans h
  · next hleave => exact Sum.inr.inj (hleave.symm.trans h)

/-- The search stops at the lowest port that is not used. -/
theorem nextFreePort_isLeast (h : nextFreePort config used port = .ok port') :
    IsLeast {p | port ≤ p ∧ p ∉ used} port' := by
  fun_induction nextFreePort config used port with
  | case1 port next hnext ih =>
      obtain ⟨hused, -, hsucc⟩ := portLoop_next hnext
      obtain ⟨⟨hge, hfree⟩, hleast⟩ := ih h
      refine ⟨⟨?_, hfree⟩, ?_⟩
      · rw [UInt16.le_iff_toNat_le] at hge ⊢
        omega
      · rintro p ⟨hp, hpfree⟩
        refine hleast ⟨?_, hpfree⟩
        have hne : port.toNat ≠ p.toNat := fun heq => hpfree (UInt16.toNat_inj.mp heq ▸ hused)
        rw [UInt16.le_iff_toNat_le] at hp ⊢
        omega
  | case2 port r hleave =>
      obtain ⟨hfree, hr⟩ | ⟨-, -, hr⟩ := portLoop_leave hleave
      · obtain rfl := Except.ok.inj (hr.symm.trans h)
        exact ⟨⟨UInt16.le_refl _, hfree⟩, fun p hp => hp.1⟩
      · cases hr.symm.trans h

/-- Where the search fails, all ports up to the maximum are used. -/
theorem nextFreePort_error {e : PoolError} (h : nextFreePort config used port = .error e) :
    ∀ p, port ≤ p → p ≤ config.maxPort → p ∈ used := by
  fun_induction nextFreePort config used port with
  | case1 port next hnext ih =>
      obtain ⟨hused, -, hsucc⟩ := portLoop_next hnext
      intro p hp hle
      by_cases heq : p = port
      · exact heq ▸ hused
      · refine ih h p ?_ hle
        have hne : p.toNat ≠ port.toNat := fun hnat => heq (UInt16.toNat_inj.mp hnat)
        rw [UInt16.le_iff_toNat_le] at hp ⊢
        omega
  | case2 port r hleave =>
      obtain ⟨-, hr⟩ | ⟨hused, hmax, -⟩ := portLoop_leave hleave
      · cases hr.symm.trans h
      · intro p hp hle
        rw [UInt16.le_antisymm (UInt16.le_trans hle hmax) hp]
        exact hused

/-- `next_available_port` finds the lowest port of the range that no entry has. -/
theorem World.nextAvailablePort_eq_ok_iff {w : World} :
    w.nextAvailablePort config = .ok port ↔
      IsLeast {p | config.basePort ≤ p ∧ p ≤ config.maxPort ∧ p ∉ w.usedPorts} port := by
  unfold World.nextAvailablePort
  cases hfree : nextFreePort config w.usedPorts config.basePort with
  | error e =>
      refine iff_of_false (fun h => nomatch h) ?_
      rintro ⟨⟨hge, hle, hunused⟩, -⟩
      exact hunused (nextFreePort_error hfree port hge hle)
  | ok found =>
      obtain ⟨⟨hge, hunused⟩, hleast⟩ := nextFreePort_isLeast hfree
      dsimp only
      by_cases hle : found ≤ config.maxPort
      · rw [if_neg (UInt16.not_lt.mpr hle)]
        constructor
        · intro h
          obtain rfl := Except.ok.inj h
          exact ⟨⟨hge, hle, hunused⟩, fun p hp => hleast ⟨hp.1, hp.2.2⟩⟩
        · rintro ⟨⟨hge', hle', hunused'⟩, hleast'⟩
          exact congrArg Except.ok
            (UInt16.le_antisymm (hleast ⟨hge', hunused'⟩) (hleast' ⟨hge, hle, hunused⟩))
      · rw [if_pos (UInt16.not_le.mp hle)]
        refine iff_of_false (fun h => nomatch h) ?_
        rintro ⟨⟨hge', hle', hunused'⟩, -⟩
        exact hle (UInt16.le_trans (hleast ⟨hge', hunused'⟩) hle')

end L0Worker.Supervisor
