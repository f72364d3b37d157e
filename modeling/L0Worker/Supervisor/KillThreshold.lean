import L0Worker.Lib.Streak
import L0Worker.Supervisor.Entry

/-!
# The kill threshold

A health sweep kills the process of a healthy entry whose checks keep failing.  The pool
counts the failed checks in `consecutiveUnhealthy`, which some steps set back and others
leave alone.  Here the counter is tied to the history: the checks of one id along a run
are read off as `HealthNote`s, and the counter is the current streak of failed checks of
the healthy entry with its process (`CountsStreak`).

The count is per process, so it matters that a process never comes back to life and that a
new one has a new `Pid` (`Advances`).
-/

namespace L0Worker.Supervisor

variable {config : PoolConfig} {w w' : World} {id : WorkerId} {m : ManagedWorker}

/-! ## Processes do not come back -/

/-- The second world comes after the first. -/
structure Advances (w w' : World) : Prop where
  length : w.procs.length ≤ w'.procs.length
  /-- An old process that runs ran before. -/
  running : ∀ pid, pid < w.procs.length → w'.isRunning pid = true → w.isRunning pid = true
  /-- An entry has the worker it had, or one with a new process. -/
  worker : ∀ id k, w'.workerOf id = some k →
    w.workerOf id = some k ∨ w.procs.length ≤ k.child

namespace Advances

theorem refl (w : World) : Advances w w :=
  ⟨le_refl _, fun _ _ h => h, fun _ _ h => .inl h⟩

theorem trans {w₁ w₂ w₃ : World} (h : Advances w₁ w₂) (h' : Advances w₂ w₃) :
    Advances w₁ w₃ := by
  refine ⟨le_trans h.length h'.length, ?_, ?_⟩
  · intro pid hlt hrun
    exact h.running pid hlt (h'.running pid (lt_of_lt_of_le hlt h.length) hrun)
  · intro id k hk
    rcases h'.worker id k hk with hold | hnew
    · exact h.worker id k hold
    · exact .inr (le_trans h.length hnew)

theorem of_keeps (h : Keeps w w') : Advances w w' := by
  refine ⟨le_of_eq h.length.symm, ?_, fun id k hk => .inl ((h.workerOf id).symm.trans hk)⟩
  intro pid _ hrun
  obtain ⟨p', hp', hr⟩ := World.isRunning_iff.mp hrun
  obtain ⟨p, hp, hages⟩ := h.proc_exists hp'
  exact World.isRunning_iff.mpr ⟨p, hp, hages.running hr⟩

theorem erase (w : World) (id : WorkerId) :
    Advances w { w with workers := w.workers.erase id } := by
  refine ⟨le_refl _, fun _ _ h => h, ?_⟩
  intro id' k hk
  exact .inl (World.workerOf_of_erase rfl hk)

theorem spawn (w : World) (id : WorkerId) (p : Process) {m : ManagedWorker}
    (hm : m.worker.child = w.procs.length) :
    Advances w { w with procs := w.procs ++ [p], workers := w.workers.insert id m } := by
  refine ⟨?_, ?_, ?_⟩
  · rw [List.length_append]
    exact Nat.le_add_right _ _
  · intro pid hlt hrun
    unfold World.isRunning at *
    rwa [List.getElem?_append_left hlt] at hrun
  · intro id' k hk
    rcases World.workerOf_of_insert (w := w) rfl hk with ⟨-, rfl⟩ | hk
    · exact .inr (le_of_eq hm.symm)
    · exact .inl hk

theorem of_change (h : Change w w') : Advances w w' := by
  cases h with
  | keeps hk => exact of_keeps hk
  | erase id => exact erase w id
  | spawn id port hm => exact spawn w id _ (congrArg Worker.child hm)

theorem step {a : Action} {out : List PoolEvent}
    (h : (system config).step w a = some (w', out)) : Advances w w' :=
  (step_changes h).invariant (fun _ _ hu hc => hu.trans (of_change hc)) (refl w)

end Advances

/-! ## The history of checks -/

/-- A health check of one id. -/
structure HealthNote where
  /-- The process of the entry. -/
  process : Pid
  /-- The entry was healthy, not starting. -/
  healthy : Bool
  passed : Bool
  /-- The check had the process killed. -/
  kill : Bool
deriving Repr, DecidableEq

/-- The worker answered with a status. -/
def HealthCheckResult.passed : HealthCheckResult → Bool
  | .healthy _ => true
  | .unhealthy _ | .unreachable _ => false

/-- What a health sweep does to the entry of `id`, if it looks at it. -/
def World.checkOf (config : PoolConfig) (env : HealthEnv) (w : World) (id : WorkerId) :
    Option Checked :=
  match w.workers.lookup id with
  | some m =>
      if m.state = .healthy ∨ m.state = .starting then
        some (m.check config (env.now id) id m.worker.port (env.result id)
          (w.isRunning m.worker.child))
      else none
  | none => none

/-- The sweep has the process of the entry killed. -/
def World.Kills (config : PoolConfig) (env : HealthEnv) (w : World) (id : WorkerId) : Prop :=
  ∃ c, w.checkOf config env id = some c ∧ c.kill = true

/-- The note of a check of `id` in a step. -/
def World.healthNotes (config : PoolConfig) (id : WorkerId) (w : World) :
    Action → List HealthNote
  | .checkAllHealth env _ =>
      match w.workers.lookup id, w.checkOf config env id with
      | some m, some c =>
          [⟨m.worker.child, decide (m.state = .healthy), (env.result id).passed, c.kill⟩]
      | _, _ => []
  | _ => []

/-- The system, of which only the checks of one id are read. -/
def healthLog (config : PoolConfig) (id : WorkerId) : Machine World Action HealthNote :=
  (system config).record (World.healthNotes config id)

/-- The last `n` checks made while the entry was healthy with this process all failed: none
of them was answered or had the process killed, and neither was any check between them. -/
def FailedInARow (n : Nat) (process : Pid) (log : List HealthNote) : Prop :=
  ∃ recent, recent <:+ log ∧
    (∀ note ∈ recent, note.process = process → note.passed = false ∧ note.kill = false) ∧
    n ≤ recent.countP fun note => note.process = process ∧ note.healthy = true

/-- What a check does to the count for a process. -/
def HealthNote.mark (process : Pid) (note : HealthNote) : Mark :=
  if note.process ≠ process then .skipped
  else if note.passed = true ∨ note.kill = true then .resets
  else if note.healthy = true then .counts
  else .skipped

theorem HealthNote.mark_ne_resets {process : Pid} {note : HealthNote} :
    note.mark process ≠ .resets ↔
      (note.process = process → note.passed = false ∧ note.kill = false) := by
  unfold HealthNote.mark
  split
  · next hne => exact iff_of_true Mark.noConfusion fun heq => absurd heq hne
  · next heq =>
    rw [not_not] at heq
    split
    · next hreset =>
      refine iff_of_false (fun h => h rfl) fun h => ?_
      obtain ⟨hpassed, hkill⟩ := h heq
      rw [hpassed, hkill] at hreset
      simp at hreset
    · next hreset =>
      rw [not_or, Bool.not_eq_true, Bool.not_eq_true] at hreset
      refine iff_of_true ?_ fun _ => hreset
      split <;> exact Mark.noConfusion

theorem HealthNote.mark_eq_counts {process : Pid} {note : HealthNote}
    (h : note.mark process ≠ .resets) :
    note.mark process = .counts ↔ note.process = process ∧ note.healthy = true := by
  unfold HealthNote.mark at *
  split at h
  · next hne =>
    rw [if_pos hne]
    exact iff_of_false Mark.noConfusion fun heq => hne heq.1
  · next heq =>
    split at h
    · exact absurd rfl h
    · next hreset =>
      rw [if_neg heq, if_neg hreset]
      rw [not_not] at heq
      cases hhealthy : note.healthy with
      | true => exact iff_of_true rfl ⟨heq, rfl⟩
      | false => exact iff_of_false Mark.noConfusion fun h => nomatch h.2

/-- So many checks failed in a row exactly when the streak is as long. -/
theorem failedInARow_iff {n : Nat} {process : Pid} {log : List HealthNote} :
    FailedInARow n process log ↔ n ≤ streak (HealthNote.mark process) log := by
  rw [le_streak_iff]
  refine exists_congr fun recent => and_congr_right fun _ => ?_
  have hreset : (∀ note ∈ recent, note.process = process →
      note.passed = false ∧ note.kill = false) ↔
      ∀ note ∈ recent, note.mark process ≠ .resets :=
    forall_congr' fun note => forall_congr' fun _ => HealthNote.mark_ne_resets.symm
  rw [hreset]
  refine and_congr_right fun hnone => ?_
  have hcount : recent.countP (fun note => note.process = process ∧ note.healthy = true) =
      recent.countP (fun note => note.mark process = .counts) := by
    refine List.countP_congr fun note hnote => ?_
    rw [decide_eq_true_eq, decide_eq_true_eq]
    exact (HealthNote.mark_eq_counts (hnone note hnote)).symm
  rw [hcount]

/-! ## One check -/

/-- A check of a running process kills it when the entry is healthy, the check fails and
the failures make up the limit. -/
theorem ManagedWorker.check_kill_iff {now : Instant} {port : Port} {result : HealthCheckResult}
    (hs : m.state = .healthy) :
    (m.check config now id port result true).kill = true ↔
      result.passed = false ∧ config.maxUnhealthyChecks ≤ m.consecutiveUnhealthy + 1 := by
  have hfailed : ∀ reason, (m.checkFailed config now id true reason).kill = true ↔
      config.maxUnhealthyChecks ≤ m.consecutiveUnhealthy + 1 := by
    intro reason
    unfold ManagedWorker.checkFailed
    rw [if_neg (by simp), if_pos (by simp [hs])]
    dsimp only
    split
    · next hge => exact iff_of_true rfl hge
    · next hlt => exact iff_of_false Bool.false_ne_true hlt
  cases result with
  | healthy status =>
      refine iff_of_false ?_ fun h => nomatch h.1
      rw [ManagedWorker.check, ManagedWorker.checkHealthy_kill]
      exact Bool.false_ne_true
  | unhealthy reason => exact (hfailed reason).trans (and_iff_right rfl).symm
  | unreachable reason => exact (hfailed reason).trans (and_iff_right rfl).symm

/-- A check of a running process does to the counter what its note says. -/
theorem ManagedWorker.check_counter (now : Instant) (port : Port) (result : HealthCheckResult)
    (process : Pid) :
    (m.check config now id port result true).entry.consecutiveUnhealthy =
      ((HealthNote.mark process ⟨process, decide (m.state = .healthy), result.passed,
        (m.check config now id port result true).kill⟩).apply m.consecutiveUnhealthy) := by
  have hfailed : ∀ reason, (m.checkFailed config now id true reason).entry.consecutiveUnhealthy =
      (HealthNote.mark process ⟨process, decide (m.state = .healthy), false,
        (m.checkFailed config now id true reason).kill⟩).apply m.consecutiveUnhealthy := by
    intro reason
    unfold ManagedWorker.checkFailed
    rw [if_neg (by simp)]
    by_cases hs : m.state = .healthy
    · rw [if_pos (by simp [hs])]
      dsimp only
      split
      · simp only [HealthNote.mark, Mark.apply, ManagedWorker.scheduleRestart, ne_eq,
          not_true_eq_false, Bool.false_eq_true, or_true, ↓reduceIte]
      · simp only [HealthNote.mark, Mark.apply, hs, ne_eq, not_true_eq_false, decide_true,
          Bool.false_eq_true, or_self, ↓reduceIte]
    · rw [if_neg (by simp [hs])]
      simp only [HealthNote.mark, Mark.apply, hs, ne_eq, not_true_eq_false, decide_false,
        Bool.false_eq_true, or_self, ↓reduceIte]
  cases result with
  | healthy status =>
      simp [ManagedWorker.check, HealthNote.mark, Mark.apply, HealthCheckResult.passed]
  | unhealthy reason => exact hfailed reason
  | unreachable reason => exact hfailed reason

/-! ## The counter along a run -/

/-- The entry is new after the step. -/
def EntersPool (config : PoolConfig) (id : WorkerId) (w : World) (a : Action) : Prop :=
  w.Fresh id ∨ ∃ now order spawned, a = .processRestarts now order spawned ∧
    w.DueAt config now id

/-- A step that is no health sweep keeps the counter, or the entry is new. -/
theorem EntryStep.counter {a : Action} {out : List PoolEvent} {m' : ManagedWorker}
    (h : EntryStep config id w a (some m') out)
    (ha : ∀ env order, a ≠ .checkAllHealth env order) :
    (∃ m, w.workers.lookup id = some m ∧ m'.worker = m.worker ∧
        m'.consecutiveUnhealthy = m.consecutiveUnhealthy) ∨
      m'.consecutiveUnhealthy = 0 ∧ EntersPool config id w a := by
  generalize hentry : some m' = entry at h
  cases h with
  | untouched => exact .inl ⟨m', hentry.symm, rfl, rfl⟩
  | ready hq =>
      obtain ⟨m, hm, rfl⟩ := Option.map_eq_some_iff.mp hentry.symm
      exact .inl ⟨m, hm, rfl, rfl⟩
  | draining hq =>
      obtain ⟨m, hm, rfl⟩ := Option.map_eq_some_iff.mp hentry.symm
      exact .inl ⟨m, hm, rfl, rfl⟩
  | drained hq => exact .inl ⟨m', hentry.symm, rfl, rfl⟩
  | @exited now source code rest m hq hm =>
      obtain rfl := Option.some.inj hentry
      refine .inl ⟨m, hm, m.onExited_worker config now id code, ?_⟩
      have hout := m.onExited_outcome config now id code
      generalize m.onExited config now id code = r at hout
      cases hout <;> rfl
  | checked hm hs hc => exact absurd rfl (ha _ _)
  | respawned pid hm hdue hs =>
      obtain rfl := Option.some.inj hentry
      exact .inr ⟨rfl, .inr ⟨_, _, _, rfl, _, hm, hdue⟩⟩
  | lost hm hdue hs => cases hentry
  | added port pid hf hnew =>
      obtain rfl := Option.some.inj hentry
      exact .inr ⟨rfl, .inl hf⟩
  | drainedByApi hm =>
      obtain rfl := Option.some.inj hentry
      exact .inl ⟨_, hm, rfl, rfl⟩
  | killedByApi hm =>
      obtain rfl := Option.some.inj hentry
      exact .inl ⟨_, hm, rfl, rfl⟩
  | replaced hm => cases hentry
  | restartFailed hm =>
      obtain rfl := Option.some.inj hentry
      exact .inl ⟨_, hm, rfl, rfl⟩

/-- A new entry has a new process. -/
theorem EntersPool.child {a : Action} {out : List PoolEvent} (h : EntersPool config id w a)
    (hstep : (system config).step w a = some (w', out)) {k : Worker}
    (hk : w'.workerOf id = some k) : w.procs.length ≤ k.child := by
  obtain hf | ⟨now, order, spawned, rfl, m, hm, hdue⟩ := h
  · refine ((Advances.step hstep).worker id k hk).resolve_left fun hold => ?_
    rw [World.workerOf, hf.lookup] at hold
    cases hold
  · cases poolStep hstep with
    | outside ha hkeeps hworkers => cases ha
    | processRestarts now spawned hl =>
        have hrespawned := (World.processRestarts_spec config now spawned hl).2.1 id m hm hdue
        unfold Respawned at hrespawned
        split at hrespawned
        · cases hk.symm.trans hrespawned
        · obtain ⟨pid, hpid, hnew⟩ := hrespawned
          obtain rfl := Option.some.inj (hk.symm.trans hnew)
          exact hpid

/-- The counter of an entry whose process runs is the current streak of failed checks. -/
structure CountsStreak (id : WorkerId) (log : List HealthNote) (w : World) : Prop where
  placed : Placed w
  spawned : ∀ note ∈ log, note.process < w.procs.length
  counter : ∀ m, w.workers.lookup id = some m → w.isRunning m.worker.child = true →
    m.consecutiveUnhealthy = streak (HealthNote.mark m.worker.child) log

namespace CountsStreak

variable {log : List HealthNote}

/-- No check of a process that is yet to be spawned is on record. -/
theorem streak_new (h : CountsStreak id log w) {pid : Pid} (hpid : w.procs.length ≤ pid) :
    streak (HealthNote.mark pid) log = 0 := by
  refine streak_eq_zero fun note hnote => if_pos ?_
  exact Nat.ne_of_lt (lt_of_lt_of_le (h.spawned note hnote) hpid)

/-- A step that is no health sweep. -/
theorem other {a : Action} {out : List PoolEvent} (h : CountsStreak id log w)
    (hstep : (system config).step w a = some (w', out))
    (ha : ∀ env order, a ≠ .checkAllHealth env order) : CountsStreak id log w' := by
  have hadv := Advances.step hstep
  refine ⟨h.placed.step hstep, fun note hnote =>
    lt_of_lt_of_le (h.spawned note hnote) hadv.length, ?_⟩
  intro m' hm' hrun
  have hentry := step_entry h.placed hstep id
  rw [hm'] at hentry
  obtain ⟨m, hm, hworker, hcount⟩ | ⟨hzero, hnew⟩ := hentry.counter ha
  · rw [hworker] at hrun ⊢
    have hlt := h.placed.ownChildren.spawned (World.workerOf_of_lookup hm)
    rw [hcount, h.counter m hm (hadv.running _ hlt hrun)]
  · rw [hzero, h.streak_new (hnew.child hstep (World.workerOf_of_lookup hm'))]

/-- A health sweep. -/
theorem sweep {env : HealthEnv} {order : List WorkerId} (h : CountsStreak id log w)
    (hl : w.workers.Lists order) :
    CountsStreak id (log ++ w.healthNotes config id (.checkAllHealth env order))
      (w.checkAllHealth config env order).1 := by
  have hkeeps := World.checkAllHealth_keeps config env order w
  have hadv := Advances.of_keeps hkeeps
  by_cases hactive : ∃ m, w.workers.lookup id = some m ∧ (m.state = .healthy ∨ m.state = .starting)
  case neg =>
    have hnotes : w.healthNotes config id (.checkAllHealth env order) = [] := by
      unfold World.healthNotes World.checkOf
      cases hm : w.workers.lookup id with
      | none => rfl
      | some m =>
          dsimp only
          rw [if_neg fun hs => hactive ⟨m, hm, hs⟩]
    have hu : Untouched id w (w.checkAllHealth config env order).1 _ :=
      World.checkAllHealth_untouched_of_inactive env order hactive
    rw [hnotes, List.append_nil]
    refine ⟨h.placed.keeps hkeeps, fun note hnote => hkeeps.length ▸ h.spawned note hnote, ?_⟩
    intro m' hm' hrun
    have hm := hu.lookup.symm.trans hm'
    have hlt := h.placed.ownChildren.spawned (World.workerOf_of_lookup hm)
    exact h.counter m' hm (hadv.running _ hlt hrun)
  obtain ⟨m, hm, hs⟩ := hactive
  have hlt := h.placed.ownChildren.spawned (World.workerOf_of_lookup hm)
  have hnotes : w.healthNotes config id (.checkAllHealth env order) =
      [⟨m.worker.child, decide (m.state = .healthy), (env.result id).passed,
        (m.check config (env.now id) id m.worker.port (env.result id)
          (w.isRunning m.worker.child)).kill⟩] := by
    unfold World.healthNotes World.checkOf
    rw [hm]
    dsimp only
    rw [if_pos hs]
  rw [hnotes]
  refine ⟨h.placed.keeps hkeeps, ?_, ?_⟩
  · rw [List.forall_mem_append, List.forall_mem_singleton, hkeeps.length]
    exact ⟨h.spawned, hlt⟩
  · intro m' hm' hrun
    have hentry := (World.checkAllHealth_at config env h.placed hl hm hs).1
    obtain rfl := Option.some.inj (hm'.symm.trans hentry)
    rw [ManagedWorker.check_worker] at hrun ⊢
    have hran := hadv.running _ hlt hrun
    rw [streak_concat, ← h.counter m hm hran, hran]
    exact m.check_counter (env.now id) m.worker.port (env.result id) m.worker.child

theorem start (hstart : Started config w) : CountsStreak id [] w := by
  obtain ⟨w₀, ids, hnew, -, -, rfl⟩ := hstart
  refine ⟨World.start_placed config hnew ids, List.forall_mem_nil _, fun m hm _ => ?_⟩
  obtain rfl := World.new_eq_some hnew
  refine forEach_rec (I := fun _ (u : World) => ∀ m, u.workers.lookup id = some m →
    m.consecutiveUnhealthy = 0) ?_ ?_ m hm
  · intro next nexts u hu m hm
    by_cases hid : id = next.1
    · rw [hid, World.startOne, World.spawnWorker_ok, Finmap.lookup_insert] at hm
      exact Option.some.inj hm ▸ rfl
    · rw [World.startOne, World.spawnWorker_ok, Finmap.lookup_insert_of_ne _ hid] at hm
      exact hu m hm
  · intro m hm
    cases hm

/-- Along a run the counter is the streak. -/
theorem run {w₀ : World} {as : List Action} (hstart : Started config w₀)
    (hrun : (healthLog config id).run w₀ as = some (w, log)) : CountsStreak id log w := by
  refine (healthLog config id).run_history (J := fun _ log w => CountsStreak id log w) ?_
    (start hstart) hrun
  intro as log u a u' notes _ h hlog
  obtain ⟨⟨out, hstep⟩, rfl⟩ := Machine.record_step_iff.mp hlog
  cases a with
  | checkAllHealth env order =>
      obtain ⟨hl, hstep⟩ := Option.ite_none_right_eq_some.mp hstep
      obtain ⟨rfl, -⟩ := Prod.ext_iff.mp (Option.some.inj hstep)
      exact h.sweep hl
  | _ =>
      show CountsStreak id (log ++ []) u'
      rw [List.append_nil]
      exact h.other hstep fun _ _ => Action.noConfusion

end CountsStreak

/-! ## The threshold -/

/-- Whatever the history, a sweep has the running process of a healthy entry killed exactly
when its check fails and enough checks before it failed in a row; the process then ends
unless the kill fails. -/
theorem kill_threshold {w₀ : World} {as : List Action} {log : List HealthNote}
    (hstart : Started config w₀) (hrun : (healthLog config id).run w₀ as = some (w, log))
    (hm : w.workers.lookup id = some m) (hs : m.state = .healthy)
    (hrunning : w.isRunning m.worker.child = true) (env : HealthEnv) {order : List WorkerId}
    (hl : w.workers.Lists order) :
    (w.Kills config env id ↔ (env.result id).passed = false ∧
        FailedInARow (config.maxUnhealthyChecks - 1) m.worker.child log) ∧
      ((w.checkAllHealth config env order).1.isRunning m.worker.child = false ↔
        w.Kills config env id ∧ env.killed id = true) := by
  have hcount := CountsStreak.run hstart hrun
  have hkills : w.Kills config env id ↔ (m.check config (env.now id) id m.worker.port
      (env.result id) true).kill = true := by
    unfold World.Kills World.checkOf
    rw [hm]
    dsimp only
    rw [if_pos (.inl hs), hrunning]
    exact ⟨fun ⟨c, hc, hkill⟩ => Option.some.inj hc ▸ hkill, fun hkill => ⟨_, rfl, hkill⟩⟩
  constructor
  · rw [hkills, ManagedWorker.check_kill_iff hs, failedInARow_iff, ← hcount.counter m hm hrunning,
      Nat.sub_le_iff_le_add]
  · obtain ⟨hentry, -⟩ :=
      World.checkAllHealth_entryOf config env hcount.placed.ownChildren hl hm (.inl hs)
    obtain ⟨m', hm', heq⟩ := Option.map_eq_some_iff.mp hentry
    obtain ⟨rfl, hproc⟩ := Prod.mk.inj heq
    rw [ManagedWorker.checkWith, ManagedWorker.check_worker] at hproc
    obtain ⟨p, hp, hr⟩ := World.isRunning_iff.mp hrunning
    rw [World.isRunning_eq_any, hproc, ← World.isRunning_eq_any, hrunning, hp, hkills]
    cases (m.check config (env.now id) id m.worker.port (env.result id) true).kill with
    | false => simp [hr]
    | true =>
        cases env.killed id with
        | false => simp [hr]
        | true => simp [Process.not_running_ended]

/-- The worker reports ready and fails a check. -/
def readyAndFailed : List Action :=
  [.print 0 (.event "worker.ready" (some 3001) (some "l0-1") ""), .readStdout 0, .tryRecvEvent 100,
    .checkAllHealth (unreachableAt 1000) ["l0-1"]]

theorem kill_threshold_readyAndFailed : ∃ (w : World) (log : List HealthNote) (m : ManagedWorker),
    (healthLog oneWorker "l0-1").run oneWorkerStarted readyAndFailed = some (w, log) ∧
      (w.Kills oneWorker (unreachableAt 2000) "l0-1" ↔
        HealthCheckResult.passed (.unreachable "Connection failed") = false ∧
          FailedInARow 1 m.worker.child log) ∧
      ((w.checkAllHealth oneWorker (unreachableAt 2000) ["l0-1"]).1.isRunning
          m.worker.child = false ↔
        w.Kills oneWorker (unreachableAt 2000) "l0-1" ∧ true = true) := by
  have hafter : ((healthLog oneWorker "l0-1").run oneWorkerStarted readyAndFailed).map
      (fun r => (r.1.workers.lookup "l0-1", r.1.isRunning 0,
        decide (r.1.workers.Lists ["l0-1"]))) =
      some (some ⟨⟨"l0-1", 3001, 0⟩, .healthy, 0, 1, some 100⟩, true, true) := by decide
  obtain ⟨⟨w, log⟩, hrun, hafter⟩ := Option.map_eq_some_iff.mp hafter
  obtain ⟨hm, hafter⟩ := Prod.mk.inj hafter
  obtain ⟨hrunning, hl⟩ := Prod.mk.inj hafter
  exact ⟨w, log, _, hrun, kill_threshold oneWorker_started hrun hm rfl hrunning
    (unreachableAt 2000) (of_decide_eq_true hl)⟩

end L0Worker.Supervisor
