import L0Worker.Supervisor.Events
import L0Worker.Supervisor.Stop

/-!
# Bounded and backed off restarts

What a run says about the restarts of one id is read off as `RestartNote`s: a crash was
detected and an attempt announced, the worker was given up, a process was started.  Each
note has the reading of the clock in its step.  From an entry that starts or is healthy,
and as long as neither a `Ready` event nor an API call resets it, the notes come in the
order of `RestartPhase.next`: attempts count on from the failures of the entry, a spawn
answers one attempt after its delay, and giving up is final.

A crash is detected in three places, and giving up looks different in two of them: a
`Failed` entry with too many failures, or a `Stopped` one.  `Fits` is what both have in
common, and the induction over the run carries it.

The count of failures is a `u32` and wraps.  Where `max_consecutive_failures` is `u32::MAX`
the crash after `u32::MAX` failures is announced as attempt 0, and the worker is never given
up.  So the bounds hold as long as no crash is counted at `u32::MAX` (`WrapsCount`).
-/

namespace L0Worker.Supervisor

/-! ## Notes -/

/-- What concerns the restarts of one id. -/
inductive RestartNote where
  /-- A crash was detected, and an attempt to restart announced. -/
  | restarting (attempt : Nat) (detected : Instant)
  /-- The worker was given up. -/
  | failed
  /-- A process was started. -/
  | spawned (now : Instant)
deriving Repr, DecidableEq

/-- The note of an event. -/
def PoolEvent.note? (now : Instant) : PoolEvent → Option RestartNote
  | .workerRestarting _ attempt => some (.restarting attempt.toNat now)
  | .workerFailed _ => some .failed
  | .workerSpawned _ _ => some (.spawned now)
  | _ => none

/-- The clock as the step reads it for the entry of `id`. -/
def Action.clock (id : WorkerId) : Action → Instant
  | .tryRecvEvent now | .processRestarts now _ _ => now
  | .checkAllHealth env _ => env.now id
  | .restartWorker _ _ env => env.now
  | _ => 0

/-- The system, of which only the notes about one id are read. -/
def restartLog (config : PoolConfig) (id : WorkerId) : Machine World Action RestartNote :=
  (system config).observe fun a out => (named id out).filterMap (PoolEvent.note? (a.clock id))

def RestartNote.attempt? : RestartNote → Option Nat
  | .restarting attempt _ => some attempt
  | _ => none

def RestartNote.isSpawned : RestartNote → Bool
  | .spawned _ => true
  | _ => false

/-- The notes about an id whose entry has counted `failures` before. -/
structure RestartsBounded (config : PoolConfig) (failures : Nat) (log : List RestartNote) :
    Prop where
  /-- The attempts are numbered from the failures on. -/
  numbered : ∃ k, log.filterMap RestartNote.attempt? = List.range' (failures + 1) k
  /-- No attempt exceeds the limit. -/
  limited : ∀ n ∈ log.filterMap RestartNote.attempt?, n ≤ config.maxConsecutiveFailures.toNat
  /-- A process is started in answer to the attempt right before, after its delay. -/
  backedOff : ∀ before now rest, log = before ++ .spawned now :: rest →
    ∃ before' n detected, before = before' ++ [.restarting n detected] ∧
      detected + calculateRestartDelay config n ≤ now
  /-- Nothing follows once the worker is given up. -/
  final : ∀ before rest, log = before ++ .failed :: rest → rest = []

/-! ## Phases -/

/-- Where the restarts of an id stand, after a number of failures. -/
inductive RestartPhase where
  /-- The process is up, or stopped as it should. -/
  | up (failures : Nat)
  /-- An attempt is announced. -/
  | waiting (failures : Nat) (detected : Instant)
  | givenUp (failures : Nat)
deriving Repr, DecidableEq

namespace RestartPhase

def failures : RestartPhase → Nat
  | up n | waiting n _ | givenUp n => n

def next (config : PoolConfig) : RestartPhase → RestartNote → Option RestartPhase
  | up n, .restarting attempt detected =>
      if attempt = n + 1 ∧ attempt ≤ config.maxConsecutiveFailures.toNat then
        some (waiting attempt detected)
      else none
  | up n, .failed => some (givenUp n)
  | waiting n detected, .spawned now =>
      if detected + calculateRestartDelay config n ≤ now then some (up n) else none
  | _, _ => none

variable {config : PoolConfig} {q q' : RestartPhase}

theorem next_restarting {attempt : Nat} {detected : Instant}
    (h : q.next config (.restarting attempt detected) = some q') :
    attempt = q.failures + 1 ∧ attempt ≤ config.maxConsecutiveFailures.toNat ∧
      q' = waiting attempt detected := by
  cases q with
  | up n =>
      obtain ⟨⟨hn, hle⟩, h⟩ := Option.ite_none_right_eq_some.mp h
      exact ⟨hn, hle, (Option.some.inj h).symm⟩
  | waiting n t => cases h
  | givenUp n => cases h

theorem next_spawned {now : Instant} (h : q.next config (.spawned now) = some q') :
    ∃ n detected, q = waiting n detected ∧ detected + calculateRestartDelay config n ≤ now ∧
      q' = up n := by
  cases q with
  | up n => cases h
  | waiting n detected =>
      obtain ⟨hle, h⟩ := Option.ite_none_right_eq_some.mp h
      exact ⟨n, detected, rfl, hle, (Option.some.inj h).symm⟩
  | givenUp n => cases h

theorem next_failed (h : q.next config .failed = some q') :
    ∃ n, q = up n ∧ q' = givenUp n := by
  cases q with
  | up n => exact ⟨n, rfl, (Option.some.inj h).symm⟩
  | waiting n t => cases h
  | givenUp n => cases h

/-- The attempts made so far are numbered up to the failures of the phase. -/
theorem numbered {c : Nat} {log : List RestartNote}
    (h : accept (next config) (up c) log = some q) :
    c ≤ q.failures ∧
      log.filterMap RestartNote.attempt? = List.range' (c + 1) (q.failures - c) := by
  refine accept_history (J := fun log q => c ≤ q.failures ∧
    log.filterMap RestartNote.attempt? = List.range' (c + 1) (q.failures - c)) ?_ ?_ h
  · exact ⟨le_refl c, by simp [failures]⟩
  · rintro log q note q' ⟨hle, hlog⟩ hnext
    cases note with
    | restarting attempt detected =>
        obtain ⟨rfl, -, rfl⟩ := next_restarting hnext
        refine ⟨Nat.le_succ_of_le hle, ?_⟩
        have hlast : q.failures + 1 = c + 1 + 1 * (q.failures - c) := by omega
        rw [List.filterMap_append, hlog, failures, Nat.succ_sub hle, List.range'_concat, ← hlast]
        rfl
    | failed =>
        obtain ⟨n, rfl, rfl⟩ := next_failed hnext
        exact ⟨hle, by rw [List.filterMap_append, hlog]; exact List.append_nil _⟩
    | spawned now =>
        obtain ⟨n, t, rfl, -, rfl⟩ := next_spawned hnext
        exact ⟨hle, by rw [List.filterMap_append, hlog]; exact List.append_nil _⟩

/-- The note before a wait is the attempt that is waited for. -/
theorem waiting_before {c n : Nat} {detected : Instant} {log : List RestartNote}
    (h : accept (next config) (up c) log = some (waiting n detected)) :
    ∃ before, log = before ++ [.restarting n detected] := by
  induction log using List.reverseRecOn with
  | nil => cases h
  | append_singleton log note _ =>
      rw [accept_append] at h
      obtain ⟨q, -, h⟩ := Option.bind_eq_some_iff.mp h
      obtain ⟨q', hq', h⟩ := Option.bind_eq_some_iff.mp h
      obtain rfl := Option.some.inj h
      cases note with
      | restarting attempt t =>
          obtain ⟨-, -, hw⟩ := next_restarting hq'
          obtain ⟨rfl, rfl⟩ := RestartPhase.waiting.inj hw
          exact ⟨log, rfl⟩
      | failed =>
          obtain ⟨m, -, hw⟩ := next_failed hq'
          cases hw
      | spawned now =>
          obtain ⟨m, t, -, -, hw⟩ := next_spawned hq'
          cases hw

theorem restartsBounded {c : Nat} {log : List RestartNote}
    (h : accept (next config) (up c) log = some q) : RestartsBounded config c log where
  numbered := ⟨_, (numbered h).2⟩
  limited := by
    have hnote : ∀ note ∈ log, ∀ n, note.attempt? = some n →
        n ≤ config.maxConsecutiveFailures.toNat := by
      refine accept_forall (fun _ => True) _ ?_ trivial h
      rintro q note q' - hnext
      refine ⟨?_, trivial⟩
      rintro n hn
      cases note with
      | restarting attempt t =>
          obtain rfl := Option.some.inj hn
          exact (next_restarting hnext).2.1
      | failed => cases hn
      | spawned now => cases hn
    intro n hn
    obtain ⟨note, hmem, hn⟩ := List.mem_filterMap.mp hn
    exact hnote note hmem n hn
  backedOff := by
    rintro before now rest rfl
    rw [accept_append] at h
    obtain ⟨q₁, hq₁, h⟩ := Option.bind_eq_some_iff.mp h
    obtain ⟨q₂, hq₂, -⟩ := Option.bind_eq_some_iff.mp h
    obtain ⟨n, detected, rfl, hle, -⟩ := next_spawned hq₂
    obtain ⟨before', rfl⟩ := waiting_before hq₁
    exact ⟨before', n, detected, rfl, hle⟩
  final := by
    rintro before rest rfl
    rw [accept_append] at h
    obtain ⟨q₁, -, h⟩ := Option.bind_eq_some_iff.mp h
    obtain ⟨q₂, hq₂, h⟩ := Option.bind_eq_some_iff.mp h
    obtain ⟨n, -, rfl⟩ := next_failed hq₂
    cases rest with
    | nil => rfl
    | cons note rest => cases h

end RestartPhase

/-! ## The phase of an entry -/

/-- `u32::MAX`. -/
def u32Max : UInt32 := 4294967295

/-- A count below `u32::MAX` goes up by one. -/
theorem toNat_succ {n : UInt32} (h : n ≠ u32Max) : (n + 1).toNat = n.toNat + 1 := by
  have hne : n.toNat ≠ 4294967295 := fun hn => h (UInt32.toNat_inj.mp hn)
  have hlt := n.toNat_lt
  rw [UInt32.toNat_add, UInt32.toNat_one]
  omega

/-- The entry is where the phase says.  Entries that drain or are stopped are never
restarted, and neither are those with too many failures. -/
def Fits (config : PoolConfig) (q : RestartPhase) (entry : Option ManagedWorker) : Prop :=
  ∀ m, entry = some m →
    match m.state with
    | .starting | .healthy => q = .up m.consecutiveFailures.toNat
    | .failed restartAt => m.consecutiveFailures ≤ config.maxConsecutiveFailures →
        ∃ detected, q = .waiting m.consecutiveFailures.toNat detected ∧
          restartAt = detected + calculateRestartDelay config m.consecutiveFailures.toNat
    | .draining | .stopped => True

namespace Fits

variable {config : PoolConfig} {q : RestartPhase} {m : ManagedWorker}

theorem none : Fits config q none := fun _ h => nomatch h

theorem of_halted (h : m.state = .draining ∨ m.state = .stopped) : Fits config q (some m) := by
  rintro m' hm'
  obtain rfl := Option.some.inj hm'
  obtain h | h := h <;> rw [h] <;> trivial

theorem of_active (h : m.state = .healthy ∨ m.state = .starting)
    (hq : q = .up m.consecutiveFailures.toNat) : Fits config q (some m) := by
  rintro m' hm'
  obtain rfl := Option.some.inj hm'
  obtain h | h := h <;> rw [h] <;> exact hq

theorem of_failed {restartAt : Instant} (h : m.state = .failed restartAt)
    (hq : m.consecutiveFailures ≤ config.maxConsecutiveFailures →
      ∃ detected, q = .waiting m.consecutiveFailures.toNat detected ∧
        restartAt = detected + calculateRestartDelay config m.consecutiveFailures.toNat) :
    Fits config q (some m) := by
  rintro m' hm'
  obtain rfl := Option.some.inj hm'
  rw [h]
  exact hq

theorem eq_up (hf : Fits config q (some m)) (h : m.state = .healthy ∨ m.state = .starting) :
    q = .up m.consecutiveFailures.toNat := by
  have hq := hf m rfl
  obtain h | h := h <;> rw [h] at hq <;> exact hq

theorem eq_waiting (hf : Fits config q (some m)) {now : Instant}
    (h : m.isDue config now = true) :
    ∃ detected, q = .waiting m.consecutiveFailures.toNat detected ∧
      detected + calculateRestartDelay config m.consecutiveFailures.toNat ≤ now := by
  unfold ManagedWorker.isDue at h
  split at h
  case h_2 => cases h
  next restartAt hs =>
    rw [Bool.and_eq_true, decide_eq_true_eq, decide_eq_true_eq] at h
    have hwaiting := hf m rfl
    rw [hs] at hwaiting
    obtain ⟨detected, hq, heq⟩ := hwaiting h.2
    exact ⟨detected, hq, heq ▸ h.1⟩

end Fits

/-- After a crash was counted, the announcement and the entry agree. -/
theorem crash_phase (config : PoolConfig) (id : WorkerId) (now : Instant) (reason : String)
    {n : UInt32} (hmax : n ≠ u32Max) {m : ManagedWorker} (hn : m.consecutiveFailures = n + 1)
    (hs : m.state = .failed (now + calculateRestartDelay config (n + 1).toNat) ∨
      (¬ n + 1 ≤ config.maxConsecutiveFailures ∧ m.state = .stopped)) :
    ∃ q, accept (RestartPhase.next config) (.up n.toNat)
        ([.workerUnhealthy id reason, restartingOrFailed config id (n + 1)].filterMap
          (PoolEvent.note? now)) = some q ∧ Fits config q (some m) := by
  unfold restartingOrFailed
  by_cases hle : n + 1 ≤ config.maxConsecutiveFailures
  · rw [if_pos hle]
    obtain hs | ⟨hlt, -⟩ := hs
    · refine ⟨.waiting (n + 1).toNat now, ?_, ?_⟩
      · show ((RestartPhase.up n.toNat).next config (.restarting (n + 1).toNat now)).bind some = _
        rw [RestartPhase.next, if_pos ⟨toNat_succ hmax, UInt32.le_iff_toNat_le.mp hle⟩]
        rfl
      · refine Fits.of_failed hs fun _ => ⟨now, ?_, ?_⟩ <;> rw [hn]
    · exact absurd hle hlt
  · rw [if_neg hle]
    refine ⟨.givenUp n.toNat, rfl, ?_⟩
    · obtain hs | ⟨-, hs⟩ := hs
      · exact Fits.of_failed hs fun h => absurd (hn ▸ h) hle
      · exact Fits.of_halted (.inr hs)

/-- The step counts a crash of `id`, whose entry is `m`: it handles an exit that was not a
clean one, or a health check of the entry counts a failure. -/
inductive CountsCrash (config : PoolConfig) (id : WorkerId) (w : World) :
    Action → ManagedWorker → Prop where
  | exited {now : Instant} {source : Pid} {code : Option Int} {rest : List Posted}
      {m : ManagedWorker} (hq : w.eventRx = ⟨source, .exited id code⟩ :: rest)
      (hm : w.workers.lookup id = some m) (hc : code ≠ some 0) (hp : m.exitPending = true)
      (hs : m.state ≠ .draining) : CountsCrash config id w (.tryRecvEvent now) m
  | checked {env : HealthEnv} {order : List WorkerId} {m : ManagedWorker}
      (hm : w.workers.lookup id = some m) (hs : m.state = .healthy ∨ m.state = .starting)
      (hcounts : m.CheckCounts config (env.result id) (w.isRunning m.worker.child)) :
      CountsCrash config id w (.checkAllHealth env order) m

/-- The step counts a crash of `id` when its entry has counted `u32::MAX` already. -/
def WrapsCount (config : PoolConfig) (id : WorkerId) (w : World) (a : Action) : Prop :=
  ∃ m, CountsCrash config id w a m ∧ m.consecutiveFailures = u32Max

/-- A step takes the phase of an entry on, unless it resets the entry or its count wraps. -/
theorem EntryStep.restartPhase {config : PoolConfig} {id : WorkerId} {w : World} {a : Action}
    {entry : Option ManagedWorker} {evs : List PoolEvent} {q : RestartPhase}
    (h : EntryStep config id w a entry evs) (hknown : w.Known id) (hr : ¬ HandlesReady id w a)
    (hapi : a.apiTarget? ≠ some id) (hwraps : ¬ WrapsCount config id w a)
    (hq : Fits config q (w.workers.lookup id)) :
    ∃ q', accept (RestartPhase.next config) q (evs.filterMap (PoolEvent.note? (a.clock id))) =
      some q' ∧ Fits config q' entry := by
  cases h with
  | untouched => exact ⟨q, rfl, hq⟩
  | ready hq => exact absurd ⟨_, _, _, _, rfl, hq⟩ hr
  | draining he =>
      refine ⟨q, rfl, ?_⟩
      cases w.workers.lookup id with
      | none => exact Fits.none
      | some m => exact Fits.of_halted (.inl rfl)
  | drained he => exact ⟨q, rfl, hq⟩
  | @exited now source code rest m he hm =>
      rw [hm] at hq
      have ho := m.onExited_outcome config now id code
      generalize m.onExited config now id code = r at ho ⊢
      cases ho with
      | settled hp => exact ⟨q, rfl, hq⟩
      | stopped hp => exact ⟨q, rfl, Fits.of_halted (.inr rfl)⟩
      | crashed hc hp hs reason =>
          obtain rfl := hq.eq_up (ManagedWorker.active_of_exitPending hp hs)
          have hmax : m.consecutiveFailures ≠ u32Max :=
            fun hmax => hwraps ⟨m, .exited he hm hc hp hs, hmax⟩
          exact crash_phase config id now reason hmax rfl (.inl rfl)
  | @checked env order m c hm hs hc =>
      rw [hm] at hq
      obtain rfl := hq.eq_up hs
      cases CheckOutcome.of_check hc with
      | passed =>
          refine ⟨.up m.consecutiveFailures.toNat, ?_, ?_⟩
          · rw [ManagedWorker.checkHealthy_events]
            split <;> rfl
          · exact Fits.of_active (.inl (m.checkHealthy_state _ _ _ hs))
              (by rw [ManagedWorker.checkHealthy_consecutiveFailures])
      | tolerated n => exact ⟨_, rfl, Fits.of_active hs rfl⟩
      | failed hcounts reason kill =>
          have hmax : m.consecutiveFailures ≠ u32Max :=
            fun hmax => hwraps ⟨m, .checked hm hs hcounts, hmax⟩
          refine crash_phase config id (env.now id) reason hmax rfl ?_
          unfold ManagedWorker.scheduleRestart
          by_cases hle : m.consecutiveFailures + 1 ≤ config.maxConsecutiveFailures
          · exact .inl (by simp [hle])
          · exact .inr ⟨hle, by simp [hle]⟩
  | @respawned now order spawned m pid hm hdue hs =>
      rw [hm] at hq
      obtain ⟨detected, rfl, hle⟩ := hq.eq_waiting hdue
      refine ⟨.up m.consecutiveFailures.toNat, ?_, Fits.of_active (.inr rfl) rfl⟩
      simp [PoolEvent.note?, Action.clock, RestartPhase.next, hle]
  | lost hm hdue hs => exact ⟨q, rfl, Fits.none⟩
  | added port pid hf hnew =>
      obtain ⟨p, hp, hid⟩ := hknown
      exact absurd hid (hf.2 p hp)
  | drainedByApi hm => exact absurd rfl hapi
  | killedByApi hm => exact absurd rfl hapi
  | replaced hm => exact absurd rfl hapi
  | restartFailed hm => exact absurd rfl hapi

/-! ## Counts that do not wrap -/

/-- No worker whose process is up has failed more often than it may. -/
def WithinLimit (config : PoolConfig) (w : World) : Prop :=
  ∀ id m, w.workers.lookup id = some m → m.state = .healthy ∨ m.state = .starting →
    m.consecutiveFailures ≤ config.maxConsecutiveFailures

theorem ManagedWorker.le_of_isDue {config : PoolConfig} {now : Instant} {m : ManagedWorker}
    (h : m.isDue config now = true) : m.consecutiveFailures ≤ config.maxConsecutiveFailures := by
  unfold ManagedWorker.isDue at h
  split at h
  · rw [Bool.and_eq_true, decide_eq_true_eq, decide_eq_true_eq] at h
    exact h.2
  · cases h

namespace WithinLimit

variable {config : PoolConfig} {w w' : World}

theorem step {a : Action} {out : List PoolEvent} (hp : Placed w) (h : WithinLimit config w)
    (hstep : (system config).step w a = some (w', out)) : WithinLimit config w' := by
  intro id m' hm' hs'
  have he := step_entry hp hstep id
  rw [hm'] at he
  generalize hentry : some m' = entry at he
  generalize named id out = evs at he
  have hhalted : ∀ m : ManagedWorker, m.state = .draining ∨ m.state = .stopped ∨
      (∃ t, m.state = .failed t) → some m' ≠ some m := by
    rintro m hm heq
    obtain rfl := Option.some.inj heq
    rcases hs' with hs' | hs' <;> simp [hs'] at hm
  cases he with
  | untouched => exact h id m' hentry.symm hs'
  | ready hq =>
      obtain ⟨m, -, rfl⟩ := Option.map_eq_some_iff.mp hentry.symm
      exact UInt32.zero_le
  | draining hq =>
      obtain ⟨m, -, rfl⟩ := Option.map_eq_some_iff.mp hentry.symm
      exact absurd rfl (hhalted _ (.inl rfl))
  | drained hq => exact h id m' hentry.symm hs'
  | @exited now source code rest m hq hm =>
      have ho := m.onExited_outcome config now id code
      generalize m.onExited config now id code = r at ho hentry
      cases ho with
      | settled hp =>
          obtain rfl := Option.some.inj hentry
          exact h id m' hm hs'
      | stopped hp => exact absurd hentry (hhalted _ (.inr (.inl rfl)))
      | crashed hc hp hs reason => exact absurd hentry (hhalted _ (.inr (.inr ⟨_, rfl⟩)))
  | @checked env order m c hm hs hc =>
      obtain rfl := Option.some.inj hentry
      cases CheckOutcome.of_check hc with
      | passed =>
          rw [ManagedWorker.checkHealthy_consecutiveFailures]
          exact h id m hm hs
      | tolerated n => exact h id m hm hs
      | failed hcounts reason kill =>
          refine absurd rfl (hhalted _ ?_)
          unfold ManagedWorker.scheduleRestart
          dsimp only
          split
          · exact .inr (.inr ⟨_, rfl⟩)
          · exact .inr (.inl rfl)
  | @respawned now order spawned m pid hm hdue hs =>
      obtain rfl := Option.some.inj hentry
      have hle := ManagedWorker.le_of_isDue hdue
      exact hle
  | lost hm hdue hs => cases hentry
  | added port pid hf hnew =>
      obtain rfl := Option.some.inj hentry
      exact UInt32.zero_le
  | @drainedByApi m hm =>
      refine absurd hentry (hhalted _ ?_)
      dsimp only
      split
      · exact .inl rfl
      · exact .inr (.inl rfl)
  | killedByApi hm => exact absurd hentry (hhalted _ (.inr (.inl rfl)))
  | replaced hm => cases hentry
  | restartFailed hm => exact absurd hentry (hhalted _ (.inr (.inr ⟨_, rfl⟩)))

theorem startOne (h : WithinLimit config w) (next : WorkerId × Nat) :
    WithinLimit config (w.startOne config next).1 := by
  intro id m hm hs
  simp only [World.startOne, World.spawnWorker] at hm
  by_cases hid : id = next.1
  · rw [hid, Finmap.lookup_insert] at hm
    obtain rfl := Option.some.inj hm
    exact UInt32.zero_le
  · rw [Finmap.lookup_insert_of_ne _ hid] at hm
    exact h id m hm hs

end WithinLimit

theorem Started.withinLimit {config : PoolConfig} {w : World} (h : Started config w) :
    WithinLimit config w := by
  obtain ⟨w₀, ids, hnew, -, -, rfl⟩ := h
  obtain rfl := World.new_eq_some hnew
  exact forEach_rec (I := fun _ u => WithinLimit config u) (fun next _ u hu => hu.startOne next)
    fun _ _ h => nomatch h

theorem Reachable.step {config : PoolConfig} {w w' : World} {a : Action} {out : List PoolEvent}
    (h : Reachable config w) (hstep : (system config).step w a = some (w', out)) :
    Reachable config w' := by
  obtain ⟨w₀, as, out₀, hstart, hrun⟩ := h
  exact ⟨w₀, as ++ [a], out₀ ++ out, hstart,
    (system config).run_concat_iff.mpr ⟨w, out₀, out, hrun, hstep, rfl⟩⟩

theorem Reachable.withinLimit {config : PoolConfig} {w : World} (h : Reachable config w) :
    WithinLimit config w := by
  obtain ⟨w₀, as, out, hstart, hrun⟩ := h
  have hplaced : Placed w₀ := Reachable.placed ⟨w₀, [], [], hstart, rfl⟩
  refine ((system config).run_invariant (I := fun u => Placed u ∧ WithinLimit config u) ?_
    ⟨hplaced, hstart.withinLimit⟩ hrun).2
  rintro u a u' o ⟨hp, hu⟩ hstep
  exact ⟨hp.step hstep, hu.step hp hstep⟩

/-- The entry whose crash is counted is one whose process is up. -/
theorem CountsCrash.active {config : PoolConfig} {id : WorkerId} {w : World} {a : Action}
    {m : ManagedWorker} (h : CountsCrash config id w a m) :
    w.workers.lookup id = some m ∧ (m.state = .healthy ∨ m.state = .starting) := by
  cases h with
  | exited hq hm hc hp hs => exact ⟨hm, ManagedWorker.active_of_exitPending hp hs⟩
  | checked hm hs hcounts => exact ⟨hm, hs⟩

/-- Below `u32::MAX` the limit keeps the count from wrapping. -/
theorem Reachable.not_wrapsCount {config : PoolConfig} {w : World} (h : Reachable config w)
    (hmax : config.maxConsecutiveFailures ≠ u32Max) (id : WorkerId) (a : Action) :
    ¬ WrapsCount config id w a := by
  rintro ⟨m, hcounts, hm⟩
  obtain ⟨hentry, hactive⟩ := hcounts.active
  have hle := h.withinLimit id m hentry hactive
  rw [hm] at hle
  exact hmax (UInt32.le_antisymm (UInt32.le_iff_toNat_le.mpr (by
    exact Nat.le_of_lt_succ config.maxConsecutiveFailures.toNat_lt)) hle)

/-- Along a run from a reachable world, no count wraps while the limit is below `u32::MAX`. -/
theorem Reachable.along_not_wrapsCount {config : PoolConfig} {w w' : World} {as : List Action}
    {id : WorkerId} {log : List RestartNote} (h : Reachable config w)
    (hmax : config.maxConsecutiveFailures ≠ u32Max)
    (hrun : (restartLog config id).run w as = some (w', log)) :
    (restartLog config id).Along (fun u a _ _ => ¬ WrapsCount config id u a) w as := by
  have htrue : (restartLog config id).Along (fun _ _ _ _ => True) w as :=
    Machine.along_of_actions (fun _ _ _ _ _ => trivial) hrun
  refine htrue.mono (I := Reachable config) ?_ ?_ h
  · rintro u a u' o hu - -
    exact hu.not_wrapsCount hmax id a
  · rintro u a u' o hu hlog -
    obtain ⟨out, hstep, -⟩ := Machine.observe_step_iff.mp hlog
    exact hu.step hstep

/-! ## Every run -/

/-- The step neither delivers a `Ready` event for `id` nor is an API call on it. -/
def LeftToItself (id : WorkerId) (w : World) (a : Action) (_w' : World)
    (_log : List RestartNote) : Prop :=
  ¬ HandlesReady id w a ∧ a.apiTarget? ≠ some id

/-- The processes started under an id. -/
def World.startedAs (w : World) (id : WorkerId) : Nat :=
  w.procs.countP fun p => p.workerId = id

/-- A step notes the processes it starts. -/
theorem AnnouncesSpawns.startedAs {w w' : World} {out : List PoolEvent}
    (h : AnnouncesSpawns w w' out) (id : WorkerId) (now : Instant) :
    w'.startedAs id = w.startedAs id +
      ((named id out).filterMap (PoolEvent.note? now)).countP RestartNote.isSpawned := by
  have hcount : ∀ v : World, v.startedAs id =
      (v.procs.map Process.address).countP fun address => address.1 = id := by
    intro v
    rw [List.countP_map]
    rfl
  rw [hcount, h, List.countP_append, ← hcount, List.countP_filterMap, List.countP_filterMap,
    named, outputsOf, List.countP_filter]
  congr 1
  refine List.countP_congr fun e _ => ?_
  cases e <;> simp [PoolEvent.spawned?, PoolEvent.note?, RestartNote.isSpawned,
    PoolEvent.workerId?]

/-- Restarts are bounded, numbered and backed off as long as the count does not wrap. -/
theorem restarts_bounded {config : PoolConfig} {id : WorkerId} {w w' : World} {m : ManagedWorker}
    {as : List Action} {log : List RestartNote} (hreach : Reachable config w)
    (hm : w.workers.lookup id = some m) (hs : m.state = .starting ∨ m.state = .healthy)
    (hrun : (restartLog config id).run w as = some (w', log))
    (halone : (restartLog config id).Along (LeftToItself id) w as)
    (hwraps : (restartLog config id).Along (fun u a _ _ => ¬ WrapsCount config id u a) w as) :
    RestartsBounded config m.consecutiveFailures.toNat log ∧
      w'.startedAs id = w.startedAs id + log.countP RestartNote.isSpawned := by
  have hp := hreach.placed
  constructor
  · have hphase : ∀ u a u' o q, (Placed u ∧ u.Known id ∧ Fits config q (u.workers.lookup id)) →
        (restartLog config id).step u a = some (u', o) →
        LeftToItself id u a u' o ∧ ¬ WrapsCount config id u a →
        ∃ q', accept (RestartPhase.next config) q o = some q' ∧
          Placed u' ∧ u'.Known id ∧ Fits config q' (u'.workers.lookup id) := by
      rintro u a u' o q ⟨hpu, hk, hf⟩ hlog ⟨⟨hr, hapi⟩, hw⟩
      obtain ⟨out, hstep, rfl⟩ := Machine.observe_step_iff.mp hlog
      obtain ⟨q', hq', hf'⟩ := (step_entry hpu hstep id).restartPhase hk hr hapi hw hf
      exact ⟨q', hq', hpu.step hstep, ((step_announces hpu hstep).known_iff id).mpr (.inl hk), hf'⟩
    have hstart : Fits config (.up m.consecutiveFailures.toNat) (w.workers.lookup id) :=
      hm ▸ Fits.of_active hs.symm rfl
    obtain ⟨q, hq, -⟩ := Machine.run_follows hphase ⟨hp, hp.known hm, hstart⟩
      (Machine.Along.and_iff.mpr ⟨halone, hwraps⟩) hrun
    exact RestartPhase.restartsBounded hq
  · refine ((restartLog config id).run_history (J := fun _ log u => Placed u ∧
      u.startedAs id = w.startedAs id + log.countP RestartNote.isSpawned) ?_ ⟨hp, rfl⟩ hrun).2
    rintro as log u a u' o - ⟨hpu, hu⟩ hlog
    obtain ⟨out, hstep, rfl⟩ := Machine.observe_step_iff.mp hlog
    refine ⟨hpu.step hstep, ?_⟩
    rw [(step_announces hpu hstep).startedAs id (a.clock id), hu, List.countP_append, Nat.add_assoc]

/-- The worker crashes twice and is restarted as soon as it is due. -/
def crashTwice : List Action :=
  [.exit 0 (some 1), .checkAllHealth (unreachableAt 1000) ["l0-1"],
    .processRestarts 1500 ["l0-1"] fun _ => .ok (),
    .exit 1 none, .checkAllHealth (unreachableAt 2000) ["l0-1"],
    .processRestarts 3000 ["l0-1"] fun _ => .ok ()]

theorem restarts_bounded_crashTwice : ∃ w' log,
    (restartLog oneWorker "l0-1").run oneWorkerStarted crashTwice = some (w', log) ∧
      RestartsBounded oneWorker 0 log ∧
        w'.startedAs "l0-1" =
          oneWorkerStarted.startedAs "l0-1" + log.countP RestartNote.isSpawned := by
  obtain ⟨⟨w', log⟩, hrun⟩ :
      ∃ r, (restartLog oneWorker "l0-1").run oneWorkerStarted crashTwice = some r :=
    Option.isSome_iff_exists.mp (by decide)
  have halone : ∀ a ∈ crashTwice, ∀ w w' log, LeftToItself "l0-1" w a w' log := by
    simp [crashTwice, LeftToItself, HandlesReady, Action.apiTarget?]
  have hreach : Reachable oneWorker oneWorkerStarted := ⟨_, [], [], oneWorker_started, rfl⟩
  exact ⟨w', log, hrun, restarts_bounded (m := ⟨⟨"l0-1", 3001, 0⟩, .starting, 0, 0, none⟩)
    hreach (by decide) (.inl rfl) hrun (Machine.along_of_actions halone hrun)
    (hreach.along_not_wrapsCount (by decide) hrun)⟩

/-! ## A count that wraps -/

/-- The one worker, never to be given up. -/
def neverGivesUp : PoolConfig := { oneWorker with maxConsecutiveFailures := u32Max }

theorem neverGivesUp_started : Started neverGivesUp oneWorkerStarted :=
  ⟨_, ["l0-1"], rfl, by simp, rfl, rfl⟩

/-- Every count is within the limit. -/
theorem le_neverGivesUp (n : UInt32) : n ≤ neverGivesUp.maxConsecutiveFailures :=
  UInt32.le_iff_toNat_le.mpr (Nat.le_of_lt_succ n.toNat_lt)

section OneEntry

variable {w : World} {port : Port} {child : Pid} {failures : UInt32}

/-- A health sweep finds the process of the one worker exited. -/
theorem exited_swept (hl : w.workers.Lists ["l0-1"])
    (hm : w.workers.lookup "l0-1" = some ⟨⟨"l0-1", port, child⟩, .starting, failures, 0, none⟩)
    (hexited : w.isRunning child = false) :
    ∃ w' t, (system neverGivesUp).step w (.checkAllHealth (unreachableAt 0) ["l0-1"]) =
        some (w', [.workerUnhealthy "l0-1" "Process exited unexpectedly",
          .workerRestarting "l0-1" (failures + 1)]) ∧
      w'.workers.Lists ["l0-1"] ∧ t ≤ neverGivesUp.maxRestartDelay ∧
      w'.workers.lookup "l0-1" =
        some ⟨⟨"l0-1", port, child⟩, .failed t, failures + 1, 0, none⟩ ∧
      w'.procs = w.procs := by
  have hle := le_neverGivesUp (failures + 1)
  have hstep : (system neverGivesUp).step w (.checkAllHealth (unreachableAt 0) ["l0-1"]) =
      some ({ w with
          workers := w.workers.insert "l0-1"
            ⟨⟨"l0-1", port, child⟩,
              .failed (calculateRestartDelay neverGivesUp (failures + 1).toNat), failures + 1, 0,
              none⟩ },
        [.workerUnhealthy "l0-1" "Process exited unexpectedly",
          .workerRestarting "l0-1" (failures + 1)]) := by
    refine (if_pos hl).trans (congrArg some ?_)
    simp [World.checkAllHealth, World.checkTargets, hm, forEach, World.checkOne,
      unreachableAt, ManagedWorker.check, ManagedWorker.checkFailed, hexited,
      ManagedWorker.exitPending, WorkerState.isFailed, ManagedWorker.scheduleRestart, hle,
      restartingOrFailed]
  refine ⟨_, _, hstep, ⟨hl.1, ?_⟩, ?_, Finmap.lookup_insert _, rfl⟩
  · ext id
    rw [Finmap.mem_keys, Finmap.mem_insert, ← hl.mem_iff]
    simp
  · exact Nat.min_le_right _ _

/-- A restart sweep finds the one worker due. -/
theorem due_restarted {t : Instant} (hl : w.workers.Lists ["l0-1"])
    (hm : w.workers.lookup "l0-1" = some ⟨⟨"l0-1", port, child⟩, .failed t, failures, 0, none⟩)
    (ht : t ≤ 30000) :
    ∃ w', (system neverGivesUp).step w (.processRestarts 30000 ["l0-1"] fun _ => .ok ()) =
        some (w', [.workerSpawned "l0-1" port]) ∧
      w'.workers.Lists ["l0-1"] ∧
      w'.workers.lookup "l0-1" =
        some ⟨⟨"l0-1", port, w.procs.length⟩, .starting, failures, 0, none⟩ ∧
      w'.procs = w.procs ++ [⟨"l0-1", port, .running, []⟩] := by
  have hle := le_neverGivesUp failures
  have hdue : w.dueRestarts neverGivesUp 30000 ["l0-1"] =
      [("l0-1", port, failures)] := by
    simp [World.dueRestarts, hm, ManagedWorker.isDue, ht, hle]
  have hstep : (system neverGivesUp).step w
      (.processRestarts 30000 ["l0-1"] fun _ => .ok ()) =
      some (w.restartOne (fun _ => .ok ()) ("l0-1", port, failures)) := by
    refine (if_pos hl).trans (congrArg some ?_)
    rw [World.processRestarts, hdue, forEach_cons, forEach_nil, List.append_nil]
  rw [World.restartOne_ok rfl] at hstep
  refine ⟨_, hstep, ⟨hl.1, ?_⟩, ?_, rfl⟩
  · ext id
    rw [Finmap.mem_keys, Finmap.mem_modify, Finmap.mem_insert, Finmap.mem_erase, ← hl.mem_iff]
    simp
  · rw [Finmap.lookup_modify, Finmap.lookup_insert]
    rfl

end OneEntry

/-- The one worker has crashed `n` times and runs again. -/
structure CrashedTimes (n : Nat) (w : World) : Prop where
  reachable : Reachable neverGivesUp w
  lists : w.workers.Lists ["l0-1"]
  entry : w.workers.lookup "l0-1" = some ⟨⟨"l0-1", 3001, n⟩, .starting, UInt32.ofNat n, 0, none⟩
  length : w.procs.length = n + 1
  running : w.isRunning n = true

/-- The process crashes, a health sweep notices, and the worker is restarted. -/
def crashCycle (n : Nat) : List Action :=
  [.exit n (some 1), .checkAllHealth (unreachableAt 0) ["l0-1"],
    .processRestarts 30000 ["l0-1"] fun _ => .ok ()]

namespace CrashedTimes

theorem start : CrashedTimes 0 oneWorkerStarted where
  reachable := ⟨_, [], [], neverGivesUp_started, rfl⟩
  lists := by decide
  entry := by decide
  length := rfl
  running := by decide

/-- One more crash is counted modulo `2 ^ 32`. -/
theorem crash {n : Nat} {w : World} (h : CrashedTimes n w) :
    ∃ w', (restartLog neverGivesUp "l0-1").run w (crashCycle n) =
        some (w', [.restarting ((n + 1) % 2 ^ 32) 0, .spawned 30000]) ∧
      CrashedTimes (n + 1) w' := by
  obtain ⟨hreach, hl, hentry, hlength, hrunning⟩ := h
  have hexit : (system neverGivesUp).step w (.exit n (some 1)) =
      some (w.endProcess n (some 1), []) := if_pos hrunning
  have hstopped : (w.endProcess n (some 1)).isRunning n = false := World.isRunning_endProcess
  obtain ⟨w₂, t, hsweep, hl₂, ht, hentry₂, hprocs₂⟩ :=
    exited_swept (w := w.endProcess n (some 1)) hl hentry hstopped
  obtain ⟨w₃, hrestart, hl₃, hentry₃, hprocs₃⟩ := due_restarted hl₂ hentry₂ ht
  have hlength₂ : w₂.procs.length = n + 1 := by
    rw [hprocs₂, World.endProcess, List.length_modify, hlength]
  have hcount : UInt32.ofNat n + 1 = UInt32.ofNat (n + 1) := (UInt32.ofNat_add n 1).symm
  refine ⟨w₃, ?_, ((hreach.step hexit).step hsweep).step hrestart, hl₃, ?_, ?_, ?_⟩
  · have hattempt : (UInt32.ofNat n + 1).toNat = (n + 1) % 2 ^ 32 :=
      hcount ▸ UInt32.toNat_ofNat'
    rw [← hattempt]
    refine Machine.run_cons_iff _ |>.mpr ⟨_, _, _, Machine.observe_step hexit, ?_, rfl⟩
    refine Machine.run_cons_iff _ |>.mpr ⟨_, _, _, Machine.observe_step hsweep, ?_, rfl⟩
    exact (Machine.run_singleton_iff _).mpr (Machine.observe_step hrestart)
  · rw [hentry₃, hlength₂, ← hcount]
  · rw [hprocs₃, List.length_append, hlength₂]
    rfl
  · refine World.isRunning_iff.mpr ⟨⟨"l0-1", 3001, .running, []⟩, ?_, rfl⟩
    rw [hprocs₃, ← hlength₂]
    exact List.getElem?_concat_length

/-- Any number of crashes can happen. -/
theorem exists_world (n : Nat) : ∃ w, CrashedTimes n w := by
  induction n with
  | zero => exact ⟨_, start⟩
  | succ n ih =>
      obtain ⟨w, hw⟩ := ih
      obtain ⟨w', -, hw'⟩ := hw.crash
      exact ⟨w', hw'⟩

end CrashedTimes

theorem crashCycle_leftToItself (n : Nat) : ∀ a ∈ crashCycle n, ∀ w w' log,
    LeftToItself "l0-1" w a w' log := by
  simp [crashCycle, LeftToItself, HandlesReady, Action.apiTarget?]

/-- After `u32::MAX` attempts the next one is announced as attempt 0. -/
theorem attempts_wrap :
    ¬ ∀ (config : PoolConfig) (id : WorkerId) (w w' : World) (m : ManagedWorker)
        (as : List Action) (log : List RestartNote), Reachable config w →
        w.workers.lookup id = some m → m.state = .starting ∨ m.state = .healthy →
        (restartLog config id).run w as = some (w', log) →
        (restartLog config id).Along (LeftToItself id) w as →
        ∃ failures, RestartsBounded config failures log := by
  intro claim
  obtain ⟨w, hw⟩ := CrashedTimes.exists_world 4294967294
  obtain ⟨w₁, hrun₁, hw₁⟩ := hw.crash
  obtain ⟨w₂, hrun₂, -⟩ := hw₁.crash
  have hrun := (Machine.run_append_iff _).mpr ⟨w₁, _, _, hrun₁, hrun₂, rfl⟩
  obtain ⟨failures, hbounded⟩ := claim _ _ _ _ _ _ _ hw.reachable hw.entry (.inl rfl) hrun
    (Machine.along_of_actions (List.forall_mem_append.mpr
      ⟨crashCycle_leftToItself _, crashCycle_leftToItself _⟩) hrun)
  obtain ⟨k, hk⟩ := hbounded.numbered
  have hattempts : [4294967295, 0] = List.range' (failures + 1) k := hk
  have hlength := congrArg List.length hattempts
  rw [List.length_range'] at hlength
  obtain rfl : k = 2 := hlength.symm
  obtain ⟨hfirst, hsecond⟩ := List.cons.inj hattempts
  have hnext : 0 = failures + 1 + 1 := (List.cons.inj hsecond).1
  cases hnext

end L0Worker.Supervisor
