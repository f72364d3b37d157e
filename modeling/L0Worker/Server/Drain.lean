import L0Worker.Server.RunsWorker
import L0Worker.Worker.Account

/-!
# Draining

Is a drain final?  A drain prints `worker.draining` and polls the number of tasks in
flight, but it does not move the lifecycle state, which is what `handleSubmit` asks
before it takes a task.  So a submission that arrives after `worker.draining` is taken
like any other.  Only the drain timer of a call moves the state to `DRAINING`.

`drain_final_iff` says when a drain is final after all: when no submission that the
handler and the worker let through arrives after `worker.draining`, and when no call
has settled with an error by the time the process ends after `worker.drained`.
-/

namespace L0Worker.Server

open Worker

/-! ## What a final drain is -/

/-- The line `worker.draining` was printed. -/
def HasDrained (out : List ServerEffect) : Prop := ∃ id, .printed (.draining id) ∈ out

/-- A line `worker.drained` without `timedOut` was printed. -/
def DrainedCleanly (out : List ServerEffect) : Prop := ∃ id, .printed (.drained id none) ∈ out

/-- A submission was accepted: a slot was acquired or `TASK_ACCEPTED` was emitted. -/
def AcceptsTask (o : List ServerEffect) : Prop := ∃ e ∈ workerEffects o, e.accepts = true

/-- Every call that acquired a slot has emitted a terminal event. -/
def AllReported (out : List ServerEffect) : Prop :=
  ∀ i id, .worker (.acquired i id) ∈ out →
    ∃ event, .worker (.emitted i event) ∈ out ∧ event.isTerminal = true

/-- What a final drain requires of a step: after `worker.draining` no submission is
accepted, and the process ends after a clean `worker.drained` only if all accepted
tasks have emitted their terminal events. -/
def DrainFinal (p : ServerState × List ServerEffect) (_ : ServerAction)
    (_ : ServerState × List ServerEffect) (o : List ServerEffect) : Prop :=
  (HasDrained p.2 → ¬ AcceptsTask o) ∧
    (.exited ∈ o → DrainedCleanly p.2 → AllReported p.2)

/-- The handler and the worker let a submit request through. -/
def ServerState.Admits (s : ServerState) : SubmitBody → Prop
  | .request submit none =>
      s.worker.worker.stateMachine.isAccepting = true ∧ s.worker.worker.Admits submit
  | _ => False

/-- The condition on a step: no submit request that is let through comes after
`worker.draining`, and when the process ends after a clean drain, no call has settled
with an error. -/
def KeepsDrain (p : ServerState × List ServerEffect) (a : ServerAction)
    (_ : ServerState × List ServerEffect) (_ : List ServerEffect) : Prop :=
  match a with
  | .submit body _ => HasDrained p.2 → ¬ p.1.Admits body
  | .exit _ => DrainedCleanly p.2 → ∀ c ∈ p.1.worker.calls, ∀ e, c.phase ≠ .settled (some e)
  | _ => True

/-! ## What holds while a drain is final -/

/-- What is known along a run in which the drain is final. -/
structure DrainInv (settings : Settings) (w₀ : Instance) (p : ServerState × List ServerEffect) :
    Prop where
  /-- The worker has run. -/
  ran : ∃ as, (Worker.worker settings).run w₀ as = some (p.1.worker, workerEffects p.2)
  /-- A drain was announced before it started. -/
  announced : p.1.drains ≠ [] → HasDrained p.2
  /-- After a clean drain no call is active. -/
  settled : DrainedCleanly p.2 → HasDrained p.2 ∧ ∀ c ∈ p.1.worker.calls, c.isActive = false

theorem HasDrained.append {out : List ServerEffect} (h : HasDrained out) (o : List ServerEffect) :
    HasDrained (out ++ o) := by
  obtain ⟨id, h⟩ := h
  exact ⟨id, List.mem_append_left o h⟩

section Steps

variable {settings : Settings} {w₀ : Instance} {s s' : ServerState} {a : ServerAction}
  {out o : List ServerEffect}

theorem DrainInv.callsInv (hnew : Created w₀) (h : DrainInv settings w₀ (s, out)) :
    CallsInv s.worker := by
  obtain ⟨as, hrun⟩ := h.ran
  exact run_callsInv hnew hrun

/-- A step accepts a submission exactly when it is a submit request that is let through. -/
theorem acceptsTask_iff (ht : TimersActive s.worker)
    (hstep : (server settings).step s a = some (s', o)) :
    AcceptsTask o ↔ ∃ body turn, a = .submit body turn ∧ s.Admits body := by
  cases step_cases hstep with
  | @refused body turn response hrefused =>
      refine iff_of_false (fun h => by obtain ⟨e, he, -⟩ := h; cases he) ?_
      rintro ⟨body', turn', ha, hadm⟩
      obtain ⟨rfl, -⟩ := ServerAction.submit.inj ha
      cases body with
      | request submit authFailure => cases authFailure with
        | none => exact hrefused ⟨submit, rfl, hadm.1, hadm.2.2.2⟩
        | some reason => exact hadm
      | _ => exact hadm
  | submitted submit turn haccepting =>
      have heffects : workerEffects ((s.runWorker
          (s.worker.executeTaskWithEvents settings submit turn)).2 ++ [.responded .stream]) =
          (s.worker.executeTaskWithEvents settings submit turn).2 := by
        rw [workerEffects_append, runWorker_effects]
        exact List.append_nil _
      have hworker : (Worker.worker settings).step s.worker (.execute submit turn) =
          some ((s.worker.executeTaskWithEvents settings submit turn).1,
            (s.worker.executeTaskWithEvents settings submit turn).2) := rfl
      rw [AcceptsTask, heffects, step_accepts_iff ht hworker]
      constructor
      · rintro ⟨submit', turn', ha, hadm⟩
        obtain ⟨rfl, -⟩ := Action.execute.inj ha
        exact ⟨_, _, rfl, haccepting, hadm⟩
      · rintro ⟨body', turn', ha, hadm⟩
        obtain ⟨rfl, -⟩ := ServerAction.submit.inj ha
        exact ⟨submit, turn, rfl, hadm.2⟩
  | @worker a r hinner hr =>
      refine iff_of_false ?_ (fun ⟨body, turn, ha, _⟩ => by cases ha)
      rintro ⟨e, he, haccepts⟩
      rw [runWorker_effects] at he
      obtain ⟨submit, turn, rfl, -⟩ := (step_accepts_iff ht hr).mp ⟨e, he, haccepts⟩
      cases hinner
  | _ =>
      -- the other steps leave the worker alone
      refine iff_of_false ?_ (fun ⟨body, turn, ha, _⟩ => by cases ha)
      rintro ⟨e, he, -⟩
      cases step_worker hstep with
      | still hw ho => rw [ho] at he; cases he
      | submitted ha haccepting hstep' => cases ha
      | inner ha hinner hstep' => cases ha

/-- With no task in flight no call is active. -/
theorem none_active_of_inflight {w : Instance} (h : SlotsExact w)
    (hzero : w.worker.slots.inflightCount = 0) : ∀ c ∈ w.calls, c.isActive = false := by
  intro c hc
  obtain ⟨i, hi⟩ := List.mem_iff_getElem?.mp hc
  cases hactive : c.isActive with
  | false => rfl
  | true =>
      have hslot := (h.held c.taskId).mpr ⟨i, c, hi, hactive, rfl⟩
      have horder := JsMap.mem_order_iff.mpr hslot
      rw [List.eq_nil_of_length_eq_zero hzero] at horder
      cases horder

/-- A step of the worker that accepts nothing starts no call. -/
theorem none_active_of_worker_step {w w' : Instance} {a : Action} {o : List Effect}
    (ht : TimersActive w) (hstep : (Worker.worker settings).step w a = some (w', o))
    (hno : ¬ ∃ e ∈ o, e.accepts = true) (h : ∀ c ∈ w.calls, c.isActive = false) :
    ∀ c ∈ w'.calls, c.isActive = false := by
  cases step_moves ht hstep with
  | kept hcalls hslots => rw [hcalls]; exact h
  | configured ha hs' => rw [hs']; exact h
  | replaying ha hs' => rw [hs']; exact h
  | moved hc hactive hmoves =>
      rw [h _ (List.mem_of_getElem? hc)] at hactive
      cases hactive
  | admitted ha hadmits htask hactive hmoves =>
      exact absurd ((step_accepts_iff ht hstep).mpr ⟨_, _, ha, hadmits⟩) hno

/-- A step that accepts nothing starts no call. -/
theorem none_active_of_step (ht : TimersActive s.worker)
    (hstep : (server settings).step s a = some (s', o)) (hno : ¬ AcceptsTask o)
    (h : ∀ c ∈ s.worker.calls, c.isActive = false) : ∀ c ∈ s'.worker.calls, c.isActive = false := by
  cases step_worker hstep with
  | still hw ho => rw [hw]; exact h
  | submitted ha haccepting hstep' => exact none_active_of_worker_step ht hstep' hno h
  | inner ha hinner hstep' => exact none_active_of_worker_step ht hstep' hno h

theorem not_drainedCleanly (h : ∀ e ∈ o, ∀ line, e ≠ .printed line) : ¬ DrainedCleanly o := by
  rintro ⟨id, hmem⟩
  exact h _ hmem _ rfl

theorem waitIteration_clean {startTime now : Int}
    (h : DrainedCleanly (s.waitIteration settings startTime now).2) :
    s.worker.worker.slots.inflightCount = 0 := by
  unfold ServerState.waitIteration at h
  dsimp only at h
  split at h
  · obtain ⟨id, h⟩ := h
    split at h
    · simp at h
    · cases h
  · omega

theorem waitIteration_not_exited (startTime now : Int) :
    .exited ∉ (s.waitIteration settings startTime now).2 := by
  unfold ServerState.waitIteration
  dsimp only
  split
  · split
    · simp
    · simp
  · simp

/-- What a step says about a drain: one is announced before it is started, when a drain
is clean the step has found no task in flight, and only `exit` ends the process. -/
structure DrainLines (s : ServerState) (a : ServerAction) (s' : ServerState)
    (o : List ServerEffect) : Prop where
  /-- A drain that goes on was announced. -/
  announced : s'.drains ≠ [] → s.drains ≠ [] ∨ HasDrained o
  /-- A clean drain was announced, and no task is in flight. -/
  clean : DrainedCleanly o → s'.drains ≠ [] ∧ s'.worker = s.worker ∧
    s.worker.worker.slots.inflightCount = 0
  /-- The process ends at an exit. -/
  exits : .exited ∈ o → ∃ k, a = .exit k

theorem DrainLines.of_silent (hdrains : s'.drains = s.drains)
    (h : ∀ e ∈ o, ∀ line, e ≠ .printed line) (hexit : .exited ∈ o → ∃ k, a = .exit k) :
    DrainLines s a s' o :=
  ⟨fun hd => .inl (hdrains ▸ hd), fun hc => absurd hc (not_drainedCleanly h), hexit⟩

/-- `worker.draining`, the first test of the loop, and a response, if any. -/
theorem waitForDrained_lines (startTime now : Int) (tail : List ServerEffect)
    (htail : ∀ e ∈ tail, ∃ response, e = .responded response) :
    DrainLines s a (s.waitForDrained settings startTime now).1
      (.printed (.draining s.workerId) :: (s.waitForDrained settings startTime now).2 ++ tail) := by
  refine ⟨fun _ => .inr ⟨s.workerId, by simp⟩, ?_, ?_⟩
  · rintro ⟨id, hmem⟩
    refine ⟨by simp [ServerState.waitForDrained], rfl, ?_⟩
    rcases List.mem_append.mp hmem with hmem | hmem
    · rcases List.mem_cons.mp hmem with heq | hmem
      · cases heq
      · exact waitIteration_clean ⟨id, hmem⟩
    · obtain ⟨response, heq⟩ := htail _ hmem
      cases heq
  · intro hmem
    rcases List.mem_append.mp hmem with hmem | hmem
    · rcases List.mem_cons.mp hmem with heq | hmem
      · cases heq
      · exact absurd hmem (waitIteration_not_exited startTime now)
    · obtain ⟨response, heq⟩ := htail _ hmem
      cases heq

theorem step_lines (hstep : (server settings).step s a = some (s', o)) : DrainLines s a s' o := by
  cases step_cases hstep with
  | refused turn response hrefused => exact .of_silent rfl (by simp) (by simp)
  | submitted submit turn haccepting =>
      exact .of_silent rfl (List.forall_mem_append.mpr ⟨runWorker_silent _ _, by simp⟩)
        (by simp [ServerState.runWorker])
  | unauthorized reason startTime now => exact .of_silent rfl (by simp) (by simp)
  | drain startTime now => exact waitForDrained_lines startTime now _ (by simp)
  | signal startTime now =>
      rw [← List.append_nil (_ :: _)]
      exact waitForDrained_lines startTime now [] (List.forall_mem_nil _)
  | @poll k d now hd =>
      have hne : s.drains ≠ [] := List.ne_nil_of_mem (List.mem_of_getElem? hd)
      refine ⟨fun _ => .inl hne, fun hclean => ⟨?_, rfl, waitIteration_clean hclean⟩,
        fun hmem => absurd hmem (waitIteration_not_exited d.startTime now)⟩
      simpa [ServerState.poll] using hne
  | @exit k d hd hreturned => exact .of_silent rfl (by simp) (fun _ => ⟨k, rfl⟩)
  | @worker a r hinner hr =>
      exact .of_silent rfl (runWorker_silent s r) (by simp [ServerState.runWorker])

/-- The invariant is kept by the steps of a final drain. -/
theorem DrainInv.step (hnew : Created w₀) (h : DrainInv settings w₀ (s, out))
    (hstep : (server settings).step s a = some (s', o)) (hno : HasDrained out → ¬ AcceptsTask o) :
    DrainInv settings w₀ (s', out ++ o) := by
  have hinv := h.callsInv hnew
  have hlines := step_lines hstep
  have hannounced : s'.drains ≠ [] → HasDrained (out ++ o) := by
    intro hd
    rcases hlines.announced hd with hd | ⟨id, hid⟩
    · exact (h.announced hd).append o
    · exact ⟨id, List.mem_append_right out hid⟩
  refine ⟨?_, hannounced, ?_⟩
  -- the run of the worker so far, and what this step adds to it
  · obtain ⟨as, hrun⟩ := h.ran
    obtain ⟨as', hrun'⟩ := run_worker ((Machine.run_singleton_iff _).mpr hstep)
    refine ⟨as ++ as', (Machine.run_append_iff _).mpr ⟨_, _, _, hrun, hrun', ?_⟩⟩
    exact workerEffects_append out o
  · rintro ⟨id, hmem⟩
    rcases List.mem_append.mp hmem with hmem | hmem
    -- once a drain was clean, no call was active, and the step may not start one
    · obtain ⟨hdrained, hnone⟩ := h.settled ⟨id, hmem⟩
      exact ⟨hdrained.append o, none_active_of_step hinv.timers hstep (hno hdrained) hnone⟩
    -- a drain that is clean in this step has seen that nothing is in flight
    · obtain ⟨hd, hw, hzero⟩ := hlines.clean ⟨id, hmem⟩
      refine ⟨hannounced hd, ?_⟩
      rw [hw]
      exact none_active_of_inflight hinv.exact hzero

end Steps

/-! ## When a drain is final -/

/-- When no call is active, all calls have reported exactly when none has ended with an
error. -/
theorem allReported_iff {settings : Settings} {w₀ w : Instance} {as : List Action}
    {out : List ServerEffect} (hnew : Created w₀)
    (hrun : (Worker.worker settings).run w₀ as = some (w, workerEffects out))
    (hnone : ∀ c ∈ w.calls, c.isActive = false) :
    AllReported out ↔ ∀ c ∈ w.calls, ∀ e, c.phase ≠ .settled (some e) := by
  have hstages : AllReported out ↔
      ∀ i, 0 < (w.stage i).acquisitions → 0 < (w.stage i).endings := by
    simp only [← run_acquired_iff hnew hrun, ← run_ended_iff hnew hrun, mem_workerEffects,
      forall_exists_index, AllReported]
  rw [hstages]
  constructor
  -- a call that threw has no terminal event
  · intro hall c hc e hp
    obtain ⟨i, hi⟩ := List.mem_iff_getElem?.mp hc
    have hended := hall i
    rw [Instance.stage_of_some hi, hp] at hended
    exact Nat.lt_irrefl 0 (hended Nat.one_pos)
  · intro hok i hacq
    cases hc : w.calls[i]? with
    | none =>
        rw [Instance.stage, hc] at hacq
        cases hacq
    | some c =>
        have hmem := List.mem_of_getElem? hc
        have hinactive := hnone c hmem
        rw [Instance.stage_of_some hc]
        unfold Call.isActive at hinactive
        cases hp : c.phase with
        | settled error => cases error with
          | none => exact Nat.one_pos
          | some e => exact absurd hp (hok c hmem e)
        | _ => rw [hp] at hinactive; cases hinactive

/-- One step of a final drain. -/
theorem drainFinal_iff {settings : Settings} {w₀ : Instance} {s s' : ServerState}
    {a : ServerAction} {out o : List ServerEffect} (hnew : Created w₀)
    (h : DrainInv settings w₀ (s, out)) (hstep : (server settings).step s a = some (s', o)) :
    DrainFinal (s, out) a (s', out ++ o) o ↔ KeepsDrain (s, out) a (s', out ++ o) o := by
  have haccepts := acceptsTask_iff (h.callsInv hnew).timers hstep
  have hexits := (step_lines hstep).exits
  unfold DrainFinal
  rw [haccepts]
  cases a with
  | submit body turn =>
      constructor
      · intro hfinal hdrained hadm
        exact hfinal.1 hdrained ⟨body, turn, rfl, hadm⟩
      · intro hkeeps
        refine ⟨?_, fun hmem => by obtain ⟨k, hk⟩ := hexits hmem; cases hk⟩
        rintro hdrained ⟨body', turn', ha, hadm⟩
        obtain ⟨rfl, -⟩ := ServerAction.submit.inj ha
        exact hkeeps hdrained hadm
  | exit k =>
      obtain ⟨as, hrun⟩ := h.ran
      have hexited : .exited ∈ o := by
        cases step_cases hstep with
        | exit hd hreturned => exact List.mem_cons_self
      constructor
      · intro hfinal hclean
        exact (allReported_iff hnew hrun (h.settled hclean).2).mp
          (hfinal.2 hexited hclean)
      · intro hkeeps
        refine ⟨?_, fun _ hclean => ?_⟩
        · rintro - ⟨body, turn, ha, -⟩
          cases ha
        · exact (allReported_iff hnew hrun (h.settled hclean).2).mpr (hkeeps hclean)
  | _ =>
      refine iff_of_true ⟨?_, ?_⟩ trivial
      · rintro - ⟨body, turn, ha, -⟩
        cases ha
      · intro hmem
        obtain ⟨k, hk⟩ := hexits hmem
        cases hk

/-- A drain is final along a run exactly when, after `worker.draining` was printed, no
submit request is let through, and when the process ends after a clean drain, no call
has settled with an error. -/
theorem drain_final_iff {settings : Settings} {s₀ : ServerState} (hstart : Started s₀)
    (as : List ServerAction) :
    (server settings).withHistory.Along DrainFinal (s₀, []) as ↔
      (server settings).withHistory.Along KeepsDrain (s₀, []) as := by
  obtain ⟨w, hnew, rfl⟩ := hstart
  refine Machine.Along.congr (I := DrainInv settings w) ?_ ?_ ?_
  · rintro ⟨s, out⟩ a ⟨s', out'⟩ o hinv hstep
    obtain ⟨hstep, rfl⟩ := Machine.withHistory_step_iff.mp hstep
    exact drainFinal_iff hnew hinv hstep
  · rintro ⟨s, out⟩ a ⟨s', out'⟩ o hinv hstep hfinal
    obtain ⟨hstep, rfl⟩ := Machine.withHistory_step_iff.mp hstep
    exact hinv.step hnew hstep hfinal.1
  · refine ⟨⟨[], rfl⟩, fun h => absurd rfl h, ?_⟩
    rintro ⟨id, hmem⟩
    cases hmem

/-- A task is in flight when a drain is asked for from localhost.  The process waits for
it, and the next submission is taken. -/
theorem submit_after_draining_is_accepted :
    let turn : Turn := ⟨0, ⟨0, none⟩, ⟨0, none⟩⟩
    let submit : String → ServerAction := fun id =>
      .submit (.request ⟨id, some (.obj [("prompt", .str "a")])⟩ none) turn
    let as : List ServerAction := [submit "t1", .drain none 1 1, submit "t2"]
    ∃ s₀, Started s₀ ∧ ((server ⟨0, 5000, id⟩).run s₀ as).isSome = true ∧
      ¬ (server ⟨0, 5000, id⟩).withHistory.Along DrainFinal (s₀, []) as := by
  intro turn submit as
  refine ⟨.init .ofDefaults, started_ofDefaults, rfl, ?_⟩
  rintro ⟨p₁, o₁, h₁, -, p₂, o₂, h₂, -, p₃, o₃, h₃, hfinal, -⟩
  obtain ⟨rfl, rfl⟩ := Prod.mk.inj (Option.some.inj h₁)
  obtain ⟨rfl, rfl⟩ := Prod.mk.inj (Option.some.inj h₂)
  obtain ⟨rfl, rfl⟩ := Prod.mk.inj (Option.some.inj h₃)
  exact hfinal.1 ⟨"w1", List.mem_append_right _ List.mem_cons_self⟩
    ⟨.acquired 1 "t2", List.mem_cons_self, rfl⟩

/-- The drain of a worker with one task in flight, which completes. -/
theorem drain_final_iff_oneTask :
    let turn : Turn := ⟨0, ⟨0, none⟩, ⟨0, none⟩⟩
    let as : List ServerAction :=
      [.submit (.request ⟨"t1", some (.obj [("prompt", .str "a")])⟩ none) turn,
        .worker (.start 0 0), .drain none 1 1, .worker (.settle 0 (.ok ⟨"done", 1, 1, 1⟩) turn),
        .worker (.finish 0), .poll 0 51, .exit 0]
    ∃ s₀, Started s₀ ∧ (server ⟨0, 5000, id⟩).withHistory.Along DrainFinal (s₀, []) as := by
  intro turn as
  have hstart := started_ofDefaults
  refine ⟨_, hstart, (drain_final_iff hstart as).mpr ?_⟩
  refine ⟨_, _, rfl, ?_, _, _, rfl, trivial, _, _, rfl, trivial, _, _, rfl, trivial, _, _, rfl,
    trivial, _, _, rfl, trivial, _, _, rfl, ?_, trivial⟩
  · rintro ⟨id, hmem⟩
    cases hmem
  · intro hclean c hc e hp
    obtain rfl := List.mem_singleton.mp hc
    cases hp

end L0Worker.Server
