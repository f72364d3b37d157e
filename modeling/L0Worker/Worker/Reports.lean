import L0Worker.Worker.Calls

/-!
# Timestamps, emitted events and the event store

What a piece of a step does to the clock and to the event store, and how this shows
in its effects: the store grows by what was recorded, the timestamps of the events
a worker makes increase, and what is emitted is recorded.
-/

namespace L0Worker.Worker

/-! ## Effects seen from outside -/

/-- The timestamp of an event that was emitted. -/
def Effect.ts? : Effect → Option Int
  | .emitted _ event => some event.ts
  | _ => none

/-- The event, if it was emitted for this task. -/
def Effect.emittedFor? (taskId : String) : Effect → Option OutboundEvent
  | .emitted _ event => if event.taskId? = some taskId then some event else none
  | _ => none

/-- The event, if it was recorded under this task. -/
def Effect.recordedFor? (taskId : String) : Effect → Option OutboundEvent
  | .recorded _ id event => if id = taskId then some event else none
  | _ => none

theorem Effect.recordedFor?_self (i : Nat) (taskId : String) (event : OutboundEvent) :
    (Effect.recorded i taskId event).recordedFor? taskId = some event :=
  if_pos rfl

theorem Effect.recordedFor?_of_ne (i : Nat) {taskId id : String} (h : id ≠ taskId)
    (event : OutboundEvent) : (Effect.recorded i taskId event).recordedFor? id = none :=
  if_neg (Ne.symm h)

/-- An `emit` threw. -/
def Effect.isThrow : Effect → Bool
  | .emitThrew _ _ => true
  | _ => false

/-- The effects that are neither emissions nor records of a call. -/
def Effect.isQuiet : Effect → Bool
  | .emitted _ _ | .recorded _ _ _ => false
  | _ => true

/-! ## The store -/

/-- A store without a limit that has the tasks it has events for. -/
structure MemoryEventStore.Keeps (s : MemoryEventStore) : Prop where
  unlimited : s.maxTasks = 0
  /-- A task is there exactly when it has events. -/
  hasTask : ∀ id, s.HasTask id ↔ s.getEventsForTask id ≠ []

theorem MemoryEventStore.Keeps.record {s : MemoryEventStore} (h : s.Keeps) (taskId : String)
    (event : OutboundEvent) : (s.record taskId event).Keeps := by
  refine ⟨h.unlimited, ?_⟩
  intro id
  rw [hasTask_record h.unlimited, h.hasTask]
  by_cases hid : id = taskId
  · subst hid
    simp [getEventsForTask_record h.unlimited]
  · rw [getEventsForTask_record_of_ne h.unlimited event hid]
    simp [hid]

/-! ## What a piece of a step reports -/

/-- What a piece of a step does to the clock and the store. -/
structure Reports (s s' : Instance) (o : List Effect) : Prop where
  /-- The store grows by what was recorded. -/
  store : s.worker.eventStore.Keeps → s'.worker.eventStore.Keeps ∧
    ∀ id, s'.worker.eventStore.getEventsForTask id =
      s.worker.eventStore.getEventsForTask id ++ o.filterMap (Effect.recordedFor? id)
  clock : Increases Effect.ts? s.clock.lastTimestamp s'.clock.lastTimestamp o
  /-- What is emitted is recorded. -/
  paired : ∀ id, o.filterMap (Effect.emittedFor? id) = o.filterMap (Effect.recordedFor? id)

namespace Reports

variable {s s₁ s' : Instance} {o o' : List Effect}

theorem append (h : Reports s s₁ o) (h' : Reports s₁ s' o') : Reports s s' (o ++ o') := by
  refine ⟨?_, h.clock.append h'.clock, ?_⟩
  · intro hs
    obtain ⟨h₁, heq⟩ := h.store hs
    obtain ⟨h₂, heq'⟩ := h'.store h₁
    refine ⟨h₂, ?_⟩
    intro id
    rw [heq', heq, List.filterMap_append, List.append_assoc]
  · intro id
    rw [List.filterMap_append, List.filterMap_append, h.paired, h'.paired]

/-- A piece that neither emits nor records. -/
theorem of_quiet (hstore : s'.worker.eventStore = s.worker.eventStore) (hclock : s'.clock = s.clock)
    (hquiet : ∀ e ∈ o, e.isQuiet = true) : Reports s s' o := by
  -- every view of the effects is empty
  have hnone : ∀ {β : Type} {f : Effect → Option β}, (∀ e, e.isQuiet = true → f e = none) →
      o.filterMap f = [] := by
    intro β f hf
    exact List.filterMap_eq_nil_iff.mpr fun e he => hf e (hquiet e he)
  have hts : o.filterMap Effect.ts? = [] := hnone fun e he => by cases e <;> first | rfl | cases he
  have hrec : ∀ id, o.filterMap (Effect.recordedFor? id) = [] := fun id =>
    hnone fun e he => by cases e <;> first | rfl | cases he
  have hem : ∀ id, o.filterMap (Effect.emittedFor? id) = [] := fun id =>
    hnone fun e he => by cases e <;> first | rfl | cases he
  refine ⟨?_, ?_, ?_⟩
  · intro hs
    rw [hstore]
    exact ⟨hs, fun id => by rw [hrec, List.append_nil]⟩
  · rw [hclock]
    exact .of_silent (Int.le_refl _) hts
  · intro id
    rw [hem, hrec]

/-- Only the clock and the store matter. -/
theorem of_eq {t t' : Instance} (h : Reports t t' o)
    (hstore : t.worker.eventStore = s.worker.eventStore) (hclock : t.clock = s.clock)
    (hstore' : s'.worker.eventStore = t'.worker.eventStore) (hclock' : s'.clock = t'.clock) :
    Reports s s' o := by
  refine ⟨?_, ?_, h.paired⟩
  · rw [← hstore, hstore']
    exact h.store
  · rw [← hclock, hclock']
    exact h.clock

end Reports

section Pieces

variable (s : Instance) (i : Nat) (c : Call)

theorem report_reports (taskId : String) (event : Int → OutboundEvent) (env : EmitEnv)
    (hts : ∀ ts, (event ts).ts = ts) (hid : ∀ ts, (event ts).taskId? = some taskId) :
    Reports s (s.report i taskId event env).1 (s.report i taskId event env).2 := by
  have hlt : s.clock.lastTimestamp < (s.clock.now env.now).1 := s.clock.lt_now env.now
  cases h : env.throws with
  | none =>
      rw [Instance.report_returns h]
      refine ⟨?_, ?_, ?_⟩
      · intro hs
        refine ⟨hs.record taskId _, ?_⟩
        intro id
        by_cases hid' : id = taskId
        · subst hid'
          rw [List.filterMap_cons_none rfl, List.filterMap_cons_some (Effect.recordedFor?_self ..)]
          exact MemoryEventStore.getEventsForTask_record hs.unlimited id _
        · rw [List.filterMap_cons_none rfl,
            List.filterMap_cons_none (Effect.recordedFor?_of_ne i hid' _), List.filterMap_nil,
            List.append_nil]
          exact MemoryEventStore.getEventsForTask_record_of_ne hs.unlimited _ hid'
      · exact .of_single hlt (by simp [Effect.ts?, hts, Instance.record])
      · intro id
        simp only [List.filterMap_cons, Effect.emittedFor?, Effect.recordedFor?, hid,
          Option.some.injEq, List.filterMap_nil]
  | some e =>
      rw [Instance.report_throws h]
      refine ⟨?_, ?_, ?_⟩
      · intro hs
        exact ⟨hs, fun id => (List.append_nil _).symm⟩
      · exact .of_silent (Int.le_of_lt hlt) rfl
      · intro id
        rfl

theorem finallyBlock_reports (error : Option Thrown) :
    Reports s (s.finallyBlock i c error).1 (s.finallyBlock i c error).2 :=
  .of_quiet rfl rfl (by simp [Instance.finallyBlock, Effect.isQuiet])

theorem catchBlock_reports (error : Thrown) (env : EmitEnv) :
    Reports s (s.catchBlock i c error env).1 (s.catchBlock i c error env).2 := by
  have hreport : ∀ failureClass message,
      Reports s (s.reportFailure i c failureClass message env).1
        (s.reportFailure i c failureClass message env).2 :=
    fun _ _ => report_reports s i c.taskId _ env (fun _ => rfl) (fun _ => rfl)
  have hcaught := s.catchBlock_caught i c error env
  generalize s.catchBlock i c error env = r at hcaught ⊢
  cases hcaught with
  | unread hfailure => exact .of_quiet rfl rfl (by simp [Instance.finallyBlock, Effect.isQuiet])
  | reported hfailure henv => exact (hreport _ _).of_eq rfl rfl rfl rfl
  | @lost failureClass message thrown hfailure henv =>
      exact (hreport failureClass message).append (finallyBlock_reports _ i c (some thrown))

theorem tryBlock_reports (turn : Turn) :
    Reports s (s.tryBlock i c turn).1 (s.tryBlock i c turn).2 := by
  rw [Instance.tryBlock_eq]
  dsimp only
  have hreport := report_reports s.accepting i c.taskId
    (.taskAccepted c.taskId s.worker.configManager.workerId) turn.event
    (fun _ => rfl) (fun _ => rfl)
  have hreport := hreport.of_eq (s := s) rfl rfl rfl rfl
  cases turn.event.throws with
  | none => exact hreport
  | some e => exact hreport.append (catchBlock_reports _ i c e turn.failed)

theorem executeTaskWithEvents_reports (settings : Settings) (submit : TaskSubmit) (turn : Turn) :
    Reports s (s.executeTaskWithEvents settings submit turn).1
      (s.executeTaskWithEvents settings submit turn).2 := by
  rcases s.executeTaskWithEvents_cases settings submit turn with
    ⟨-, reason, heq⟩ | ⟨-, slots, c, r, -, -, rfl, heq⟩
  · rw [heq]
    exact .of_quiet rfl rfl (by simp [Effect.isQuiet])
  · rw [heq]
    have hacquired : Reports s (s.addCall slots c) [.acquired s.calls.length submit.taskId] :=
      .of_quiet rfl rfl (by simp [Effect.isQuiet])
    exact hacquired.append (tryBlock_reports _ _ c turn)

theorem callback_reports (env : EmitEnv) (cb : Callback) :
    Reports s (s.callback i c env cb).1 (s.callback i c env cb).2 := by
  cases cb with
  | onFirstToken => exact report_reports s i _ _ env (fun _ => rfl) (fun _ => rfl)
  | onToolCall name args => exact report_reports s i _ _ env (fun _ => rfl) (fun _ => rfl)
  | onL0Event event =>
      refine .of_quiet rfl rfl ?_
      unfold Instance.callback
      dsimp only
      split
      · simp [Effect.isQuiet]
      · simp

theorem executorSettled_reports (settings : Settings) (startTime : Int)
    (outcome : Except Thrown ExecutionResult) (turn : Turn) :
    Reports s (s.executorSettled settings i c startTime outcome turn).1
      (s.executorSettled settings i c startTime outcome turn).2 := by
  cases outcome with
  | error e => exact catchBlock_reports s i c e turn.failed
  | ok result =>
      have hreport := report_reports s i c.taskId
        (.taskCompleted c.taskId s.worker.configManager.workerId
          ⟨turn.dateNow - startTime, result.tokenCount, result.inputTokens, result.outputTokens⟩
          (settings.sha256 result.content) result.content) turn.event (fun _ => rfl) (fun _ => rfl)
      unfold Instance.executorSettled
      dsimp only
      cases turn.event.throws with
      | none => exact hreport.of_eq rfl rfl rfl rfl
      | some e => exact hreport.append (catchBlock_reports _ i c e turn.failed)

theorem drainTimerFired_reports (env : EmitEnv) :
    Reports s (s.drainTimerFired i c env).1 (s.drainTimerFired i c env).2 := by
  have hlt : s.clock.lastTimestamp < (s.clock.now env.now).1 := s.clock.lt_now env.now
  have hdraining : ∀ {s' : Instance} {e : Effect}, s'.worker.eventStore = s.worker.eventStore →
      s'.clock = (s.clock.now env.now).2 →
      (e.ts? = some (s.clock.now env.now).1 ∨ e.ts? = none) →
      (∀ id, e.emittedFor? id = none) → (∀ id, e.recordedFor? id = none) → Reports s s' [e] := by
    intro s' e hstore hclock hts hem hrec
    refine ⟨?_, ?_, ?_⟩
    · intro hs
      rw [hstore]
      exact ⟨hs, fun id => by simp [hrec]⟩
    · rw [hclock]
      rcases hts with hts | hts
      · exact .of_single hlt (by simp [hts])
      · exact .of_silent (Int.le_of_lt hlt) (by simp [hts])
    · intro id
      simp [hem, hrec]
  unfold Instance.drainTimerFired
  split
  · exact .of_quiet rfl rfl (List.forall_mem_nil _)
  · split
    · exact .of_quiet rfl rfl (List.forall_mem_singleton.mpr rfl)
    · dsimp only
      split
      · exact hdraining rfl rfl (.inl rfl)
          (fun id => by simp [Effect.emittedFor?, OutboundEvent.taskId?]) (fun id => rfl)
      · exact hdraining rfl rfl (.inr rfl) (fun id => rfl) (fun id => rfl)

end Pieces

/-! ## What a step reports -/

theorem step_reports {settings : Settings} {s s' : Instance} {a : Action} {o : List Effect}
    (hstep : (worker settings).step s a = some (s', o)) : Reports s s' o := by
  cases step_cases hstep with
  | execute submit turn => exact executeTaskWithEvents_reports s settings submit turn
  | start dateNow hc hphase => exact .of_quiet rfl rfl (List.forall_mem_nil _)
  | @callback i c cb env hc => exact callback_reports s i c env cb
  | @settle i c startTime outcome turn hc hstart =>
      exact executorSettled_reports s i c settings startTime outcome turn
  | @finish i c hc hphase => exact finallyBlock_reports s i c none
  | @drainTimer i c env hc htimer => exact drainTimerFired_reports s i c env
  | updateConfig u =>
      exact .of_quiet (VercelWorker.updateConfig_eventStore s.worker u) rfl
        (by simp [Effect.isQuiet])
  | replay request => exact .of_quiet rfl rfl (List.forall_mem_nil _)
  | found hr hphase => exact .of_quiet rfl rfl (List.forall_mem_nil _)
  | notFound hr hphase => exact .of_quiet rfl rfl (by simp [Effect.isQuiet])
  | @replayLoop j r throws hr hphase =>
      refine .of_quiet rfl rfl ?_
      intro e he
      have hreplay := (s.replayLoop_effects j r throws e he).2
      cases e with
      | replayed k event => rfl
      | replaySettled k result => rfl
      | _ => cases hreplay

/-! ## What a run reports -/

theorem run_reports {settings : Settings} {s s' : Instance} {as : List Action}
    {out : List Effect} (hrun : (worker settings).run s as = some (s', out)) : Reports s s' out :=
  Machine.run_composes (fun _ => .of_quiet rfl rfl (List.forall_mem_nil _)) Reports.append
    step_reports hrun

theorem Created.keeps {s : Instance} (h : Created s) : s.worker.eventStore.Keeps ∧
    ∀ id, s.worker.eventStore.getEventsForTask id = [] := by
  obtain ⟨input, w, clock, hnew, rfl⟩ := h
  obtain ⟨-, configManager, -, rfl⟩ := VercelWorker.of_new hnew
  refine ⟨⟨rfl, ?_⟩, fun id => rfl⟩
  intro id
  simp [Instance.init, MemoryEventStore.new, MemoryEventStore.HasTask,
    MemoryEventStore.getEventsForTask]

/-- The store holds, for each task, exactly what was recorded for it. -/
theorem run_store {settings : Settings} {s₀ s : Instance} {as : List Action}
    {out : List Effect} (hnew : Created s₀)
    (hrun : (worker settings).run s₀ as = some (s, out)) :
    s.worker.eventStore.Keeps ∧
      ∀ id, s.worker.eventStore.getEventsForTask id = out.filterMap (Effect.recordedFor? id) := by
  obtain ⟨hkeeps, hempty⟩ := hnew.keeps
  obtain ⟨hkeeps', hstore⟩ := (run_reports hrun).store hkeeps
  refine ⟨hkeeps', ?_⟩
  intro id
  rw [hstore, hempty, List.nil_append]

end L0Worker.Worker
