import L0Worker.Worker.OutputHash
import L0Worker.Worker.Terminal

/-!
# What events say

An event that a worker shows, whether live or in a replay, says what is so: it names the
worker; a completion carries what the executor of its call has returned, and the hash of it;
and a failure carries the class and the message of an error that came to the `catch` block of
its call, with what `isRetryable` says of that class.  The log of a task holds events of that
task only.

So the verdict of a replay is about the output: it compares the expected hash with the hash
of the output in the last completion recorded (`events_truthful`).
-/

namespace L0Worker.Worker

/-! ## Events that say what is so -/

/-- The step brings the error to the `catch` block of call `i`. -/
def Action.Catches (i : Nat) (error : Thrown) (s : Instance) : Action → Prop
  | .execute submit turn =>
      s.calls.length = i ∧ s.worker.Admits submit ∧ turn.event.throws = some error
  | .settle k outcome turn => k = i ∧ turn.caught outcome = some error
  | _ => False

/-- The error has come to the `catch` block of call `i`. -/
def HasCaught (settings : Settings) (s₀ : Instance) (as : List Action) (i : Nat)
    (error : Thrown) : Prop :=
  (worker settings).Sometime (fun s a => a.Catches i error s) s₀ as

/-- What the event says is so, for call `i` of a worker that was `s₀` and has done this. -/
def OutboundEvent.Truthful (settings : Settings) (s₀ : Instance) (as : List Action) (i : Nat) :
    OutboundEvent → Prop
  | .taskAccepted _ workerId _ => workerId = s₀.worker.configManager.workerId
  | .taskProgress _ stage metadata _ =>
      (stage = .firstToken ∧ metadata = none ∧ ∃ env, .callback i .onFirstToken env ∈ as) ∨
        stage = .toolInvoked ∧ ∃ name args env, metadata = some ⟨name, args⟩ ∧
          .callback i (.onToolCall name args) env ∈ as
  | .taskCompleted _ workerId metrics outputHash output _ =>
      workerId = s₀.worker.configManager.workerId ∧ outputHash = settings.sha256 output ∧
        ∃ tokenCount promptTokens completionTokens turn,
          .settle i (.ok ⟨output, tokenCount, promptTokens, completionTokens⟩) turn ∈ as ∧
          metrics = { metrics with tokenCount, promptTokens, completionTokens }
  | .taskFailed _ workerId failureClass retryable message _ =>
      workerId = s₀.worker.configManager.workerId ∧ retryable = isRetryable failureClass ∧
        ∃ error, HasCaught settings s₀ as i error ∧ failureOf error = .ok (failureClass, message)
  | .workerDraining workerId reason _ =>
      workerId = s₀.worker.configManager.workerId ∧ reason = "function_timeout_approaching"

/-- The event that an effect shows to a client or to the log. -/
def Effect.shown? : Effect → Option OutboundEvent
  | .emitted _ event | .emitThrew _ event | .recorded _ _ event | .replayed _ event => some event
  | _ => none

/-- The output of a completion. -/
def OutboundEvent.output? : OutboundEvent → Option String
  | .taskCompleted _ _ _ _ output _ => some output
  | _ => none

/-- The event that the effect shows, if it does, is truthful for the call it belongs to. -/
def Effect.Truthful (settings : Settings) (s₀ : Instance) (as : List Action) (e : Effect) : Prop :=
  ∀ event, e.shown? = some event →
    ∃ i, (∀ k, e.call? = some k → k = i) ∧ event.Truthful settings s₀ as i

/-- The log and the effects so far are truthful. -/
structure Tells (settings : Settings) (s₀ : Instance) (as : List Action) (s : Instance)
    (o : List Effect) : Prop where
  workerId : s.worker.configManager.workerId = s₀.worker.configManager.workerId
  unlimited : s.worker.eventStore.maxTasks = 0
  /-- The log of a task has events of the task. -/
  log : ∀ taskId, ∀ event ∈ s.worker.eventStore.getEventsForTask taskId,
    (∃ i, event.Truthful settings s₀ as i) ∧ event.taskId? = some taskId
  shown : ∀ e ∈ o, e.Truthful settings s₀ as

/-- What was so stays so. -/
theorem OutboundEvent.Truthful.append {settings : Settings} {s₀ : Instance} {as : List Action}
    {i : Nat} {event : OutboundEvent} (h : event.Truthful settings s₀ as i) (bs : List Action) :
    event.Truthful settings s₀ (as ++ bs) i := by
  cases event with
  | taskAccepted => exact h
  | taskProgress taskId stage metadata ts =>
      rcases h with ⟨hstage, hmetadata, env, hmem⟩ | ⟨hstage, name, args, env, hmetadata, hmem⟩
      · exact .inl ⟨hstage, hmetadata, env, List.mem_append_left bs hmem⟩
      · exact .inr ⟨hstage, name, args, env, hmetadata, List.mem_append_left bs hmem⟩
  | taskCompleted taskId workerId metrics outputHash output ts =>
      obtain ⟨hid, hhash, tokenCount, promptTokens, completionTokens, turn, hmem, hmetrics⟩ := h
      exact ⟨hid, hhash, tokenCount, promptTokens, completionTokens, turn,
        List.mem_append_left bs hmem, hmetrics⟩
  | taskFailed taskId workerId failureClass retryable message ts =>
      obtain ⟨hid, hretryable, error, hcaught, hfailure⟩ := h
      exact ⟨hid, hretryable, error, hcaught.append bs, hfailure⟩
  | workerDraining => exact h

namespace Tells

variable {settings : Settings} {s₀ s u : Instance} {as : List Action} {o o' : List Effect}

theorem mono (h : Tells settings s₀ as s o) (bs : List Action) :
    Tells settings s₀ (as ++ bs) s o := by
  refine ⟨h.workerId, h.unlimited, fun taskId event hevent => ?_, fun e he event hevent => ?_⟩
  · obtain ⟨⟨i, htruthful⟩, htask⟩ := h.log taskId event hevent
    exact ⟨⟨i, htruthful.append bs⟩, htask⟩
  · obtain ⟨i, hcall, htruthful⟩ := h.shown e he event hevent
    exact ⟨i, hcall, htruthful.append bs⟩

/-- A part of a step that shows nothing. -/
theorem silent (h : Tells settings s₀ as u o)
    (hconfig : s.worker.configManager.workerId = s₀.worker.configManager.workerId)
    (hstore : s.worker.eventStore = u.worker.eventStore) (ho : ∀ e ∈ o', e.shown? = none) :
    Tells settings s₀ as s (o ++ o') := by
  refine ⟨hconfig, by rw [hstore]; exact h.unlimited, by rw [hstore]; exact h.log, ?_⟩
  refine List.forall_mem_append.mpr ⟨h.shown, fun e he event hevent => ?_⟩
  rw [ho e he] at hevent
  cases hevent

/-- Only the calls, the replays or the state of the worker change. -/
theorem of_same (h : Tells settings s₀ as u o)
    (hconfig : s.worker.configManager.workerId = s₀.worker.configManager.workerId)
    (hstore : s.worker.eventStore = u.worker.eventStore) : Tells settings s₀ as s o := by
  have hsilent : Tells settings s₀ as s (o ++ []) :=
    h.silent hconfig hstore (List.forall_mem_nil _)
  rwa [List.append_nil] at hsilent

theorem report (h : Tells settings s₀ as u o) (i : Nat) (taskId : String)
    (event : Int → OutboundEvent) (env : EmitEnv)
    (htruthful : ∀ ts, (event ts).Truthful settings s₀ as i)
    (htask : ∀ ts, (event ts).taskId? = some taskId) :
    Tells settings s₀ as (u.report i taskId event env).1
      (o ++ (u.report i taskId event env).2) := by
  have hshown : ∀ {e : Effect} {ts : Int}, e.shown? = some (event ts) → e.call? = some i →
      e.Truthful settings s₀ as := by
    intro e ts he hcall shown hevent
    obtain rfl := Option.some.inj (he.symm.trans hevent)
    exact ⟨i, fun k hk => Option.some.inj (hk.symm.trans hcall), htruthful ts⟩
  cases henv : env.throws with
  | none =>
      rw [Instance.report_returns henv]
      refine ⟨h.workerId, h.unlimited, fun id' event' hevent => ?_, ?_⟩
      · by_cases hid : id' = taskId
        · subst hid
          have hlog : event' ∈ (u.worker.eventStore.record id'
            (event (u.clockNow env.now).1)).getEventsForTask id' := hevent
          rw [MemoryEventStore.getEventsForTask_record h.unlimited] at hlog
          rcases List.mem_append.mp hlog with hold | hnew
          · exact h.log id' event' hold
          · rw [List.mem_singleton.mp hnew]
            exact ⟨⟨i, htruthful _⟩, htask _⟩
        · have hlog : event' ∈ (u.worker.eventStore.record taskId
            (event (u.clockNow env.now).1)).getEventsForTask id' := hevent
          rw [MemoryEventStore.getEventsForTask_record_of_ne h.unlimited _ hid] at hlog
          exact h.log id' event' hlog
      · refine List.forall_mem_append.mpr ⟨h.shown, ?_⟩
        exact List.forall_mem_cons.mpr
          ⟨hshown rfl rfl, List.forall_mem_singleton.mpr (hshown rfl rfl)⟩
  | some thrown =>
      rw [Instance.report_throws henv]
      refine ⟨h.workerId, h.unlimited, h.log, ?_⟩
      exact List.forall_mem_append.mpr ⟨h.shown, List.forall_mem_singleton.mpr (hshown rfl rfl)⟩

theorem finallyBlock (h : Tells settings s₀ as u o) (i : Nat) (c : Call) (error : Option Thrown) :
    Tells settings s₀ as (u.finallyBlock i c error).1 (o ++ (u.finallyBlock i c error).2) :=
  h.silent h.workerId rfl (by simp [Instance.finallyBlock, Effect.shown?])

/-- The `catch` block reports an error that has come to it. -/
theorem catchBlock (h : Tells settings s₀ as u o) {i : Nat} (c : Call) {error : Thrown}
    (herror : HasCaught settings s₀ as i error) (env : EmitEnv) :
    Tells settings s₀ as (u.catchBlock i c error env).1 (o ++ (u.catchBlock i c error env).2) := by
  have hreport : ∀ {failureClass : FailureClass} {message : String},
      failureOf error = .ok (failureClass, message) →
      Tells settings s₀ as (u.reportFailure i c failureClass message env).1
        (o ++ (u.reportFailure i c failureClass message env).2) :=
    fun hfailure => h.report i c.taskId _ env
      (fun ts => ⟨h.workerId, rfl, error, herror, hfailure⟩) (fun ts => rfl)
  have hcaught := u.catchBlock_caught i c error env
  generalize u.catchBlock i c error env = r at hcaught ⊢
  cases hcaught with
  | @unread thrown hfailure =>
      have hthrew : Tells settings s₀ as u (o ++ [.catchThrew i]) :=
        h.silent h.workerId rfl (List.forall_mem_singleton.mpr rfl)
      have hf := hthrew.finallyBlock i c (some thrown)
      rw [List.append_assoc] at hf
      exact hf
  | reported hfailure henv => exact (hreport hfailure).of_same (hreport hfailure).workerId rfl
  | @lost failureClass message thrown hfailure henv =>
      have hf := (hreport hfailure).finallyBlock i c (some thrown)
      rw [List.append_assoc] at hf
      exact hf

theorem tryBlock (h : Tells settings s₀ as u o) {i : Nat} (c : Call) {turn : Turn}
    (hcaught : ∀ error, turn.event.throws = some error → HasCaught settings s₀ as i error) :
    Tells settings s₀ as (u.tryBlock i c turn).1 (o ++ (u.tryBlock i c turn).2) := by
  rw [Instance.tryBlock_eq]
  dsimp only
  have haccepting : Tells settings s₀ as u.accepting o := h.of_same h.workerId rfl
  have hr := haccepting.report i c.taskId
    (.taskAccepted c.taskId u.worker.configManager.workerId) turn.event
    (fun ts => h.workerId) (fun ts => rfl)
  cases hthrows : turn.event.throws with
  | none => exact hr
  | some e =>
      have hc := hr.catchBlock c (hcaught e hthrows) turn.failed
      rw [List.append_assoc] at hc
      exact hc

theorem executeTaskWithEvents (h : Tells settings s₀ as u o) (submit : TaskSubmit) {turn : Turn}
    (hcaught : u.worker.Admits submit → ∀ error, turn.event.throws = some error →
      HasCaught settings s₀ as u.calls.length error) :
    Tells settings s₀ as (u.executeTaskWithEvents settings submit turn).1
      (o ++ (u.executeTaskWithEvents settings submit turn).2) := by
  rcases u.executeTaskWithEvents_cases settings submit turn with
    ⟨-, reason, heq⟩ | ⟨hadm, slots, c, r, -, -, rfl, heq⟩
  · rw [heq]
    exact h.silent h.workerId rfl (by simp [Effect.shown?])
  · rw [heq]
    have hacquired : Tells settings s₀ as (u.addCall slots c)
        (o ++ [.acquired u.calls.length submit.taskId]) :=
      h.silent h.workerId rfl (by simp [Effect.shown?])
    have htry := hacquired.tryBlock c (hcaught hadm)
    rw [List.append_assoc] at htry
    exact htry

theorem callback (h : Tells settings s₀ as u o) {i : Nat} (c : Call) {env : EmitEnv}
    {cb : Callback} (hmem : .callback i cb env ∈ as) :
    Tells settings s₀ as (u.callback i c env cb).1 (o ++ (u.callback i c env cb).2) := by
  cases cb with
  | onFirstToken =>
      exact h.report i c.taskId _ env (fun ts => .inl ⟨rfl, rfl, env, hmem⟩) (fun ts => rfl)
  | onToolCall name args =>
      exact h.report i c.taskId _ env (fun ts => .inr ⟨rfl, name, args, env, rfl, hmem⟩)
        (fun ts => rfl)
  | onL0Event event =>
      refine h.silent h.workerId rfl fun e he => ?_
      obtain ⟨-, he⟩ := List.mem_ite_nil_right.mp he
      rw [List.mem_singleton.mp he]
      rfl

theorem executorSettled (h : Tells settings s₀ as u o) {i : Nat} (c : Call) (startTime : Int)
    {outcome : Except Thrown ExecutionResult} {turn : Turn} (hmem : .settle i outcome turn ∈ as)
    (hcaught : ∀ error, turn.caught outcome = some error → HasCaught settings s₀ as i error) :
    Tells settings s₀ as (u.executorSettled settings i c startTime outcome turn).1
      (o ++ (u.executorSettled settings i c startTime outcome turn).2) := by
  cases outcome with
  | error e => exact h.catchBlock c (hcaught e rfl) turn.failed
  | ok result =>
      have hr := h.report i c.taskId (.taskCompleted c.taskId
        u.worker.configManager.workerId ⟨turn.dateNow - startTime, result.tokenCount,
          result.inputTokens, result.outputTokens⟩ (settings.sha256 result.content)
        result.content) turn.event
        (fun ts => ⟨h.workerId, rfl, _, _, _, turn, hmem, rfl⟩) (fun ts => rfl)
      unfold Instance.executorSettled
      dsimp only
      cases hthrows : turn.event.throws with
      | none => exact hr.of_same hr.workerId rfl
      | some e =>
          have hc := hr.catchBlock c (hcaught e hthrows) turn.failed
          rw [List.append_assoc] at hc
          exact hc

theorem drainTimerFired (h : Tells settings s₀ as u o) (i : Nat) (c : Call) (env : EmitEnv) :
    Tells settings s₀ as (u.drainTimerFired i c env).1
      (o ++ (u.drainTimerFired i c env).2) := by
  unfold Instance.drainTimerFired
  split
  · exact h.silent h.workerId rfl (List.forall_mem_nil _)
  · split
    · exact h.silent h.workerId rfl (List.forall_mem_singleton.mpr rfl)
    · dsimp only
      -- whether or not `emit` throws, the event is the same
      split <;>
        refine ⟨h.workerId, h.unlimited, h.log, List.forall_mem_append.mpr ⟨h.shown, ?_⟩⟩ <;>
        refine List.forall_mem_singleton.mpr fun event hevent => ?_ <;>
        obtain rfl := Option.some.inj hevent <;>
        exact ⟨i, fun k hk => (Option.some.inj hk).symm, h.workerId, rfl⟩

theorem replayLoop (h : Tells settings s₀ as u o) (j : Nat) (r : ReplayCall)
    (throws : Option (Nat × Thrown)) :
    Tells settings s₀ as (u.replayLoop j r throws).1 (o ++ (u.replayLoop j r throws).2) := by
  refine ⟨h.workerId, h.unlimited, h.log, List.forall_mem_append.mpr ⟨h.shown, ?_⟩⟩
  refine List.forall_mem_append.mpr ⟨fun e he event hevent => ?_, ?_⟩
  · obtain ⟨event', hmem, rfl⟩ := List.mem_map.mp he
    obtain rfl := Option.some.inj hevent
    -- when an `emit` threw, only a part of the log was emitted
    have hlog : event' ∈ u.worker.eventStore.getEventsForTask r.taskId := by
      cases hstop : throws.filter fun t =>
          t.1 < (u.worker.eventStore.getEventsForTask r.taskId).length with
      | none => rwa [hstop] at hmem
      | some t =>
          rw [hstop] at hmem
          exact List.mem_of_mem_take hmem
    obtain ⟨⟨i, htruthful⟩, -⟩ := h.log r.taskId event' hlog
    exact ⟨i, by rintro k ⟨⟩, htruthful⟩
  · refine List.forall_mem_singleton.mpr fun event hevent => ?_
    cases hevent

theorem updateConfig_workerId (w : VercelWorker) (update : ConfigUpdate) :
    (w.updateConfig update).2.configManager.workerId = w.configManager.workerId := by
  have hmanager : ∀ c, w.configManager.update update = .ok c →
      c.workerId = w.configManager.workerId := by
    intro c hc
    unfold ConfigManager.update at hc
    dsimp only at hc
    split at hc
    · split at hc
      · cases hc
      · rw [← Except.ok.inj hc]
    · rw [← Except.ok.inj hc]
  unfold VercelWorker.updateConfig
  split
  · rfl
  · next c hc =>
    split
    · exact hmanager c hc
    · exact hmanager c hc

theorem step {a : Action} (hrun : (worker settings).run s₀ as = some (s, o))
    (h : Tells settings s₀ as s o) (hstep : (worker settings).step s a = some (u, o')) :
    Tells settings s₀ (as ++ [a]) u (o ++ o') := by
  have h := h.mono [a]
  have hmem : a ∈ as ++ [a] := List.mem_append_right as List.mem_cons_self
  have hcatches : ∀ {i : Nat} {error : Thrown}, a.Catches i error s →
      HasCaught settings s₀ (as ++ [a]) i error :=
    fun hcaught => (worker settings).sometime_last hrun hcaught
  cases step_cases hstep with
  | execute submit turn =>
      exact h.executeTaskWithEvents submit fun hadm error hthrows =>
        hcatches ⟨rfl, hadm, hthrows⟩
  | start dateNow hc hphase => exact h.silent h.workerId rfl (List.forall_mem_nil _)
  | callback cb env hc => exact h.callback _ hmem
  | settle outcome turn hc hstart =>
      exact h.executorSettled _ _ hmem fun error hcaught => hcatches ⟨rfl, hcaught⟩
  | finish hc hphase => exact h.finallyBlock _ _ none
  | drainTimer env hc htimer => exact h.drainTimerFired _ _ env
  | updateConfig update =>
      have hid := updateConfig_workerId s.worker update
      exact h.silent (hid.trans h.workerId) (VercelWorker.updateConfig_eventStore s.worker update)
        (by simp [Effect.shown?])
  | replay request => exact h.silent h.workerId rfl (List.forall_mem_nil _)
  | found hr hphase => exact h.silent h.workerId rfl (List.forall_mem_nil _)
  | notFound hr hphase => exact h.silent h.workerId rfl (by simp [Effect.shown?])
  | replayLoop throws hr hphase => exact h.replayLoop _ _ throws

end Tells

/-! ## The verdict of a replay -/

/-- Truthful completions carry the hashes of their outputs. -/
theorem outputHashes_eq {settings : Settings} {s₀ : Instance} {as : List Action}
    {events : List OutboundEvent} (h : ∀ event ∈ events, ∃ i, event.Truthful settings s₀ as i) :
    events.filterMap OutboundEvent.outputHash? =
      (events.filterMap OutboundEvent.output?).map settings.sha256 := by
  induction events with
  | nil => rfl
  | cons event events ih =>
      rw [List.forall_mem_cons] at h
      rw [List.filterMap_cons, List.filterMap_cons, ih h.2]
      cases event with
      | taskCompleted taskId workerId metrics hash output ts =>
          obtain ⟨i, -, rfl, -⟩ := h.1
          rfl
      | _ => rfl

/-- The verdict of the replay on the expected hash is about the output of the last completion
in the log. -/
def VerdictOnOutput (settings : Settings) (s : Instance) (r : ReplayCall) (verdict : Bool) : Prop :=
  ∃ expected output, r.expectedOutputHash = some expected ∧
    ((s.worker.eventStore.getEventsForTask r.taskId).filterMap OutboundEvent.output?).getLast? =
      some output ∧
    verdict = (settings.sha256 output == expected)

theorem Tells.verdict {settings : Settings} {s₀ s s' : Instance} {as : List Action}
    {o out : List Effect} (h : Tells settings s₀ as s out) {j : Nat} {r : ReplayCall}
    {throws : Option (Nat × Thrown)}
    (hr : s.replays[j]? = some r)
    (hstep : (worker settings).step s (.replayLoop j throws) = some (s', o))
    {result : ReplayResult} (hresult : .replaySettled j (.ok result) ∈ o) {verdict : Bool}
    (hverdict : result.outputHashMatch = some verdict) : VerdictOnOutput settings s r verdict := by
  cases step_cases hstep with
  | @replayLoop _ r' _ hr' hphase =>
      obtain rfl := Option.some.inj (hr.symm.trans hr')
      rcases List.mem_append.mp hresult with hmem | hmem
      · obtain ⟨event, -, heq⟩ := List.mem_map.mp hmem
        cases heq
      · have hsettled := Effect.replaySettled.inj (List.mem_singleton.mp hmem)
        -- an `emit` that threw leaves no verdict
        cases hstop : throws.filter fun t =>
            t.1 < (s.worker.eventStore.getEventsForTask r.taskId).length with
        | some t =>
            rw [hstop] at hsettled
            cases hsettled.2
        | none =>
            rw [hstop] at hsettled
            obtain rfl := Except.ok.inj hsettled.2
            have hlast := lastOutputHash_eq (s.worker.eventStore.getEventsForTask r.taskId)
            rw [outputHashes_eq fun event he => (h.log r.taskId event he).1,
              List.getLast?_map] at hlast
            unfold replaySuccess at hverdict
            dsimp only at hverdict
            rw [hlast] at hverdict
            cases hexpected : r.expectedOutputHash with
            | none =>
                rw [hexpected] at hverdict
                cases hverdict
            | some expected =>
                rw [hexpected] at hverdict
                cases houtput : ((s.worker.eventStore.getEventsForTask r.taskId).filterMap
                    OutboundEvent.output?).getLast? with
                | none =>
                    rw [houtput] at hverdict
                    cases hverdict
                | some output =>
                    rw [houtput] at hverdict
                    exact ⟨expected, output, hexpected, houtput, (Option.some.inj hverdict).symm⟩

/-- A new worker has the id it was given. -/
theorem workerId_of_new {input : WorkerConfigInput} {w : VercelWorker}
    (h : VercelWorker.new input = some w) : w.configManager.workerId = input.workerId := by
  unfold VercelWorker.new at h
  cases hnew : ConfigManager.new input with
  | none => rw [hnew] at h; cases h
  | some configManager =>
      obtain ⟨-, hconfig⟩ := Option.ite_none_left_eq_some.mp hnew
      obtain rfl := Option.some.inj hconfig
      rw [hnew] at h
      dsimp only at h
      split at h
      · rw [← Option.some.inj h]
      · cases h

theorem run_tells {settings : Settings} {s₀ s : Instance} {as : List Action} {out : List Effect}
    (hnew : Created s₀) (hrun : (worker settings).run s₀ as = some (s, out)) :
    Tells settings s₀ as s out := by
  refine (worker settings).run_history (J := fun as out s => Tells settings s₀ as s out)
    (fun _ _ _ _ _ _ hrun h hstep => h.step hrun hstep) ?_ hrun
  obtain ⟨input, w, clock, hnew, rfl⟩ := hnew
  obtain ⟨-, configManager, -, rfl⟩ := VercelWorker.of_new hnew
  refine ⟨rfl, rfl, fun taskId event hevent => ?_, List.forall_mem_nil _⟩
  simp [Instance.init, MemoryEventStore.new, MemoryEventStore.getEventsForTask] at hevent

/-- In every run, every event that is emitted, recorded or replayed says what is so, the log
of a task has only events of the task, and the verdict of a replay is about the output of the
last completion in it. -/
theorem events_truthful {settings : Settings} {s₀ s : Instance} {as : List Action}
    {out : List Effect} (hnew : Created s₀)
    (hrun : (worker settings).run s₀ as = some (s, out)) :
    (∀ e ∈ out, e.Truthful settings s₀ as) ∧
      (∀ taskId, ∀ event ∈ s.worker.eventStore.getEventsForTask taskId,
        (∃ i, event.Truthful settings s₀ as i) ∧ event.taskId? = some taskId) ∧
      ∀ j r throws s' o result verdict, s.replays[j]? = some r →
        (worker settings).step s (.replayLoop j throws) = some (s', o) →
        .replaySettled j (.ok result) ∈ o → result.outputHashMatch = some verdict →
        VerdictOnOutput settings s r verdict := by
  have htells := run_tells hnew hrun
  refine ⟨htells.shown, htells.log, ?_⟩
  intro j r throws s' o result verdict hr hstep hresult hverdict
  exact htells.verdict hr hstep hresult hverdict

/-- A task completes and is replayed with the hash of its output. -/
theorem events_truthful_replayed :
    let turn : Turn := ⟨0, ⟨0, none⟩, ⟨0, none⟩⟩
    let as : List Action := [.execute ⟨"t1", some (.obj [("prompt", .str "a")])⟩ turn, .start 0 0,
      .settle 0 (.ok ⟨"done", 1, 1, 1⟩) turn, .finish 0, .replay ⟨"t1", some "done"⟩,
      .replayChecked 0]
    ∃ s out s' o result, (worker ⟨0, 0, id⟩).run .ofDefaults as = some (s, out) ∧
      (worker ⟨0, 0, id⟩).step s (.replayLoop 0 none) = some (s', o) ∧
      .replaySettled 0 (.ok result) ∈ o ∧ result.outputHashMatch = some true ∧
      VerdictOnOutput ⟨0, 0, id⟩ s ⟨"t1", some "done", .fetched⟩ true := by
  intro turn as
  have hruns : ((worker ⟨0, 0, id⟩).run .ofDefaults as).isSome = true := rfl
  obtain ⟨⟨s, out⟩, hrun⟩ := Option.isSome_iff_exists.mp hruns
  obtain ⟨-, -, hreplay⟩ := events_truthful created_ofDefaults hrun
  obtain ⟨rfl, rfl⟩ := Prod.mk.inj (Option.some.inj hrun)
  refine ⟨_, _, _, _, ⟨true, 2, some true, none⟩, rfl, rfl, ?_, rfl, ?_⟩
  · exact List.mem_append_right _ List.mem_cons_self
  · exact hreplay 0 _ none _ _ ⟨true, 2, some true, none⟩ true rfl rfl
      (List.mem_append_right _ List.mem_cons_self) rfl

end L0Worker.Worker
