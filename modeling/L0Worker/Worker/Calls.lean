import L0Worker.Worker.Instance

/-!
# Slots and calls

Which calls hold which slots.  A piece of a step changes at most one call, and the
slot of its task follows: the slot stays as long as the call is active and is
released in the piece in which the call settles (`Moves`).  A new call gets the
slot of its task first.

From this, `SlotsExact` holds in every state of every run: the slot manager holds
exactly the tasks of the active calls, each for one call.
-/

namespace L0Worker.Worker

/-! ## Places of a list -/

/-- Adding an element at the end leaves the other places alone. -/
theorem getElem?_concat_of_ne {α : Type*} {l : List α} {a : α} {k : Nat} (hk : k ≠ l.length) :
    (l ++ [a])[k]? = l[k]? := by
  rcases Nat.lt_or_gt_of_ne hk with hlt | hgt
  · exact List.getElem?_append_left hlt
  · rw [List.getElem?_eq_none (by simp; omega), List.getElem?_eq_none (by omega)]

theorem getElem?_set_cases {α : Type*} {l : List α} {i j : Nat} {a b : α}
    (h : (l.set i a)[j]? = some b) : (j = i ∧ b = a) ∨ (j ≠ i ∧ l[j]? = some b) := by
  by_cases hj : j = i
  · subst hj
    have hlt : j < l.length := by
      have := (List.getElem?_eq_some_iff.mp h).1
      rwa [List.length_set] at this
    rw [List.getElem?_set_self hlt] at h
    exact .inl ⟨rfl, (Option.some.inj h).symm⟩
  · rw [List.getElem?_set_ne (Ne.symm hj)] at h
    exact .inr ⟨hj, h⟩

theorem getElem?_concat_cases {α : Type*} {l : List α} {j : Nat} {a b : α}
    (h : (l ++ [a])[j]? = some b) : (j = l.length ∧ b = a) ∨ (j ≠ l.length ∧ l[j]? = some b) := by
  by_cases hj : j = l.length
  · subst hj
    rw [List.getElem?_concat_length] at h
    exact .inl ⟨rfl, (Option.some.inj h).symm⟩
  · rw [getElem?_concat_of_ne hj] at h
    exact .inr ⟨hj, h⟩

/-! ## What a piece of a step does to a call and its slot -/

/-- The limit, the configuration and the replays stay, and these slots are in use. -/
structure SlotsKept (s s' : Instance) (slots : JsMap String Slot) : Prop where
  /-- The slots in use are these. -/
  slots : s'.worker.slots.slots = slots
  limit : s'.worker.slots.maxConcurrency = s.worker.slots.maxConcurrency
  config : s'.worker.configManager = s.worker.configManager
  replays : s'.replays = s.replays

/-- Call `i`, which was `c`, becomes `c'`, and its slot is released if it settles. -/
structure Moves (i : Nat) (c c' : Call) (s s' : Instance) : Prop where
  /-- The other calls stay. -/
  calls : s'.calls = s.calls.set i c'
  taskId : c'.taskId = c.taskId
  /-- A settled call has no drain timer. -/
  timer : c'.drainTimer = true → c'.isActive = true
  /-- The slot follows. -/
  slots : SlotsKept s s'
    (if c'.isActive then s.worker.slots.slots else s.worker.slots.slots.delete c.taskId)

/-- A piece that leaves calls and slots alone, before one that moves a call. -/
theorem Moves.of_kept {i : Nat} {c c' : Call} {s s₁ s' : Instance} (h : Moves i c c' s₁ s')
    (hcalls : s₁.calls = s.calls) (hslots : SlotsKept s s₁ s.worker.slots.slots) :
    Moves i c c' s s' := by
  refine ⟨hcalls ▸ h.calls, h.taskId, h.timer, ?_, ?_, ?_, ?_⟩
  · rw [h.slots.slots, hslots.slots]
  · rw [h.slots.limit, hslots.limit]
  · rw [h.slots.config, hslots.config]
  · rw [h.slots.replays, hslots.replays]

section Pieces

variable (s : Instance) (i : Nat) (c : Call)

theorem report_kept (taskId : String) (event : Int → OutboundEvent) (env : EmitEnv) :
    SlotsKept s (s.report i taskId event env).1 s.worker.slots.slots := by
  cases h : env.throws with
  | none => rw [Instance.report_returns h]; exact ⟨rfl, rfl, rfl, rfl⟩
  | some e => rw [Instance.report_throws h]; exact ⟨rfl, rfl, rfl, rfl⟩

/-- A report, before a piece that moves a call. -/
theorem Moves.of_report {c c' : Call} {k : Nat} {taskId : String} {event : Int → OutboundEvent}
    {env : EmitEnv} {s' : Instance} (h : Moves k c c' (s.report i taskId event env).1 s') :
    Moves k c c' s s' :=
  h.of_kept (Instance.report_calls ..) (report_kept s i taskId event env)

theorem setCall_moves (c' : Call) (htask : c'.taskId = c.taskId)
    (hactive : c'.isActive = true) : Moves i c c' s (s.setCall i c') :=
  ⟨rfl, htask, fun _ => hactive, by rw [hactive]; exact ⟨rfl, rfl, rfl, rfl⟩⟩

theorem finallyBlock_moves (error : Option Thrown) :
    Moves i c { c with drainTimer := false, phase := .settled error } s
      (s.finallyBlock i c error).1 :=
  ⟨rfl, rfl, fun h => absurd h (by simp), rfl, rfl, rfl, rfl⟩

theorem catchBlock_moves (error : Thrown) (env : EmitEnv) :
    ∃ c', Moves i c c' s (s.catchBlock i c error env).1 := by
  have hcaught := s.catchBlock_caught i c error env
  generalize s.catchBlock i c error env = r at hcaught ⊢
  cases hcaught with
  | unread hfailure => exact ⟨_, finallyBlock_moves s i c _⟩
  | reported hfailure henv =>
      exact ⟨{ c with phase := .finishing }, Moves.of_report s i (setCall_moves _ i c _ rfl rfl)⟩
  | lost hfailure henv => exact ⟨_, Moves.of_report s i (finallyBlock_moves _ i c _)⟩

theorem tryBlock_moves {c : Call} (hc : s.calls[i]? = some c) (hactive : c.isActive = true)
    (turn : Turn) : ∃ c', Moves i c c' s (s.tryBlock i c turn).1 := by
  rw [Instance.tryBlock_eq]
  dsimp only
  have hkept := report_kept s.accepting i c.taskId
    (.taskAccepted c.taskId s.worker.configManager.workerId) turn.event
  have hkept : SlotsKept s _ s.worker.slots.slots :=
    ⟨hkept.slots, hkept.limit, hkept.config, hkept.replays⟩
  cases turn.event.throws with
  | none =>
      refine ⟨c, ?_, rfl, fun _ => hactive, by rw [hactive]; exact hkept⟩
      obtain ⟨hi, rfl⟩ := List.getElem?_eq_some_iff.mp hc
      rw [Instance.report_calls, List.set_getElem_self hi]
      rfl
  | some e =>
      obtain ⟨c', h⟩ := catchBlock_moves (s.accepting.report i c.taskId
        (.taskAccepted c.taskId s.worker.configManager.workerId) turn.event).1 i c e turn.failed
      exact ⟨c', h.of_kept (Instance.report_calls ..) hkept⟩

theorem executorSettled_moves (settings : Settings) (startTime : Int)
    (outcome : Except Thrown ExecutionResult) (turn : Turn) :
    ∃ c', Moves i c c' s (s.executorSettled settings i c startTime outcome turn).1 := by
  cases outcome with
  | error e => exact catchBlock_moves s i c e turn.failed
  | ok result =>
      unfold Instance.executorSettled
      dsimp only
      cases turn.event.throws with
      | none =>
          exact ⟨{ c with phase := .finishing },
            Moves.of_report s i (setCall_moves _ i c _ rfl rfl)⟩
      | some e =>
          obtain ⟨c', h⟩ := catchBlock_moves (s.report i c.taskId _ turn.event).1 i c e turn.failed
          exact ⟨c', Moves.of_report s i h⟩

theorem drainTimerFired_moves {c : Call} (hactive : c.isActive = true) (env : EmitEnv) :
    ∃ c', Moves i c c' s (s.drainTimerFired i c env).1 := by
  unfold Instance.drainTimerFired
  split
  · exact ⟨_, setCall_moves s i c { c with drainTimer := false, aborted := true } rfl hactive⟩
  · split
    · exact ⟨_, setCall_moves s i c { c with drainTimer := false } rfl hactive⟩
    · dsimp only
      split
      · exact ⟨_, (setCall_moves _ i c { c with drainTimer := false, aborted := true } rfl
          hactive).of_kept rfl ⟨rfl, rfl, rfl, rfl⟩⟩
      · exact ⟨_, (setCall_moves _ i c { c with drainTimer := false } rfl hactive).of_kept rfl
          ⟨rfl, rfl, rfl, rfl⟩⟩

end Pieces

/-! ## What a step does to calls and slots -/

/-- Only active calls have a drain timer. -/
def TimersActive (s : Instance) : Prop :=
  ∀ (i : Nat) (c : Call), s.calls[i]? = some c → c.drainTimer = true → c.isActive = true

/-- What a step does to calls and slots. -/
inductive StepMoves (s : Instance) (a : Action) (s' : Instance) : Prop where
  | kept (hcalls : s'.calls = s.calls) (hslots : SlotsKept s s' s.worker.slots.slots)
  /-- It updates the configuration. -/
  | configured {u : ConfigUpdate} (ha : a = .updateConfig u)
      (hs' : s' = { s with worker := (s.worker.updateConfig u).2 })
  /-- It is a step of a replay. -/
  | replaying (ha : a.isReplay = true) (hs' : s' = { s with replays := s'.replays })
  /-- It moves an active call. -/
  | moved {i : Nat} {c c' : Call} (hc : s.calls[i]? = some c) (hactive : c.isActive = true)
      (hmoves : Moves i c c' s s')
  /-- It adds a call and moves it. -/
  | admitted {submit : TaskSubmit} {turn : Turn} {startedAt : Int} {c c' : Call}
      (ha : a = .execute submit turn) (hadmits : s.worker.Admits submit)
      (htask : c.taskId = submit.taskId) (hactive : c.isActive = true)
      (hmoves : Moves s.calls.length c c'
        (s.addCall (s.worker.slots.occupy submit.taskId startedAt) c) s')

theorem Phase.isActive_of_startTime {c : Call} {startTime : Int}
    (h : c.phase.startTime? = some startTime) : c.isActive = true := by
  unfold Call.isActive
  cases hp : c.phase with
  | settled error => rw [hp] at h; cases h
  | _ => rfl

/-- Every step moves at most one call. -/
theorem step_moves {settings : Settings} {s s' : Instance} {a : Action} {o : List Effect}
    (ht : TimersActive s) (hstep : (worker settings).step s a = some (s', o)) :
    StepMoves s a s' := by
  cases step_cases hstep with
  | execute submit turn =>
      rcases s.executeTaskWithEvents_cases settings submit turn with
        ⟨-, reason, heq⟩ | ⟨hadm, slots, c, r, rfl, rfl, rfl, heq⟩
      · rw [heq]
        exact .kept rfl ⟨rfl, rfl, rfl, rfl⟩
      · rw [heq]
        obtain ⟨c', hmoves⟩ := tryBlock_moves
          (s.addCall (s.worker.slots.occupy submit.taskId turn.dateNow)
            (Instance.newCall settings submit.taskId)) s.calls.length
          List.getElem?_concat_length rfl turn
        exact .admitted rfl hadm rfl rfl hmoves
  | @start i c dateNow hc hphase =>
      exact .moved hc (by rw [Call.isActive, hphase]) (setCall_moves s i c _ rfl rfl)
  | callback cb env hc =>
      refine .kept (Instance.callback_calls ..) ?_
      cases cb with
      | onFirstToken => exact report_kept ..
      | onToolCall name args => exact report_kept ..
      | onL0Event event => exact ⟨rfl, rfl, rfl, rfl⟩
  | @settle i c startTime outcome turn hc hstart =>
      obtain ⟨c', hmoves⟩ := executorSettled_moves s i c settings startTime outcome turn
      exact .moved hc (Phase.isActive_of_startTime hstart) hmoves
  | @finish i c hc hphase =>
      exact .moved hc (by rw [Call.isActive, hphase]) (finallyBlock_moves s i c none)
  | @drainTimer i c env hc htimer =>
      obtain ⟨c', hmoves⟩ := drainTimerFired_moves s i (ht i c hc htimer) env
      exact .moved hc (ht i c hc htimer) hmoves
  | updateConfig u => exact .configured rfl rfl
  | replay request => exact .replaying rfl rfl
  | found hr hphase => exact .replaying rfl rfl
  | notFound hr hphase => exact .replaying rfl rfl
  | replayLoop throws hr hphase => exact .replaying rfl rfl

/-! ## The slots are those of the active calls -/

/-- The slot manager holds exactly the tasks of the active calls, each for one
call. -/
structure SlotsExact (s : Instance) : Prop where
  /-- A task has a slot exactly when a call for it is active. -/
  held : ∀ id, s.worker.slots.HasSlot id ↔
    ∃ (i : Nat) (c : Call), s.calls[i]? = some c ∧ c.isActive = true ∧ c.taskId = id
  /-- No task has two active calls. -/
  unique : ∀ (i j : Nat) (c d : Call), s.calls[i]? = some c → s.calls[j]? = some d →
    c.isActive = true → d.isActive = true → c.taskId = d.taskId → i = j

/-- Moving an active call keeps the invariant. -/
theorem SlotsExact.moves {s s' : Instance} (h : SlotsExact s) {i : Nat} {c c' : Call}
    (hc : s.calls[i]? = some c) (hactive : c.isActive = true) (hm : Moves i c c' s s') :
    SlotsExact s' := by
  have hi : i < s.calls.length := (List.getElem?_eq_some_iff.mp hc).1
  have hself : s'.calls[i]? = some c' := by rw [hm.calls, List.getElem?_set_self hi]
  have hother : ∀ {j : Nat} {d : Call}, j ≠ i → s.calls[j]? = some d → s'.calls[j]? = some d := by
    intro j d hj hd
    rw [hm.calls, List.getElem?_set_ne (Ne.symm hj), hd]
  refine ⟨?_, ?_⟩
  · intro id
    have hslots : s'.worker.slots.HasSlot id ↔
        s.worker.slots.HasSlot id ∧ (c'.isActive = true ∨ id ≠ c.taskId) := by
      unfold SlotManager.HasSlot
      rw [hm.slots.slots]
      cases c'.isActive with
      | true => simp
      | false => simp [and_comm]
    rw [hslots, h.held]
    constructor
    -- the call that held the slot is still there, or it is call `i` and the slot stays
    · rintro ⟨⟨j, d, hd, hda, rfl⟩, hkeep⟩
      by_cases hj : j = i
      · subst hj
        obtain rfl := Option.some.inj (hc.symm.trans hd)
        rcases hkeep with hact | hne
        · exact ⟨j, c', hself, hact, hm.taskId⟩
        · exact absurd rfl hne
      · exact ⟨j, d, hother hj hd, hda, rfl⟩
    · rintro ⟨j, d, hd, hda, rfl⟩
      rw [hm.calls] at hd
      rcases getElem?_set_cases hd with ⟨rfl, rfl⟩ | ⟨hj, hd⟩
      · exact ⟨⟨j, c, hc, hactive, hm.taskId.symm⟩, .inl hda⟩
      -- the slot that is released is that of call `i` and of no other
      · refine ⟨⟨j, d, hd, hda, rfl⟩, .inr ?_⟩
        intro heq
        exact hj (h.unique j i d c hd hc hda hactive heq)
  · intro j k d e hd he hda hea heq
    rw [hm.calls] at hd he
    rcases getElem?_set_cases hd with ⟨rfl, rfl⟩ | ⟨hj, hd'⟩
    · rcases getElem?_set_cases he with ⟨rfl, rfl⟩ | ⟨hk, he⟩
      · rfl
      · exact h.unique j k c e hc he hactive hea (hm.taskId ▸ heq)
    · rcases getElem?_set_cases he with ⟨rfl, rfl⟩ | ⟨hk, he⟩
      · exact h.unique j k d c hd' hc hda hactive (hm.taskId ▸ heq)
      · exact h.unique j k d e hd' he hda hea heq

/-- A new call that got a slot no one has keeps the invariant. -/
theorem SlotsExact.addCall {s : Instance} (h : SlotsExact s) {c : Call} {startedAt : Int}
    (hslot : ¬ s.worker.slots.HasSlot c.taskId) (hactive : c.isActive = true) :
    SlotsExact (s.addCall (s.worker.slots.occupy c.taskId startedAt) c) := by
  have hfree : ∀ {j : Nat} {d : Call}, s.calls[j]? = some d → d.isActive = true →
      d.taskId ≠ c.taskId := by
    intro j d hd hda heq
    exact hslot ((h.held c.taskId).mpr ⟨j, d, hd, hda, heq⟩)
  refine ⟨?_, ?_⟩
  · intro id
    have hslots : (s.addCall (s.worker.slots.occupy c.taskId startedAt) c).worker.slots.HasSlot id ↔
        id = c.taskId ∨ s.worker.slots.HasSlot id := SlotManager.hasSlot_occupy
    rw [hslots, h.held]
    constructor
    · rintro (rfl | ⟨j, d, hd, hda, rfl⟩)
      · exact ⟨s.calls.length, c, List.getElem?_concat_length, hactive, rfl⟩
      · refine ⟨j, d, ?_, hda, rfl⟩
        exact (getElem?_concat_of_ne (Nat.ne_of_lt (List.getElem?_eq_some_iff.mp hd).1)).trans hd
    · rintro ⟨j, d, hd, hda, rfl⟩
      rcases getElem?_concat_cases hd with ⟨rfl, rfl⟩ | ⟨-, hd⟩
      · exact .inl rfl
      · exact .inr ⟨j, d, hd, hda, rfl⟩
  · intro j k d e hd he hda hea heq
    rcases getElem?_concat_cases hd with ⟨rfl, rfl⟩ | ⟨-, hd'⟩
    · rcases getElem?_concat_cases he with ⟨rfl, rfl⟩ | ⟨-, he⟩
      · rfl
      · exact absurd heq.symm (hfree he hea)
    · rcases getElem?_concat_cases he with ⟨rfl, rfl⟩ | ⟨-, he⟩
      · exact absurd heq (hfree hd' hda)
      · exact h.unique j k d e hd' he hda hea heq

theorem SlotsExact.of_kept {s s' : Instance} (h : SlotsExact s) (hcalls : s'.calls = s.calls)
    (hslots : s'.worker.slots.slots = s.worker.slots.slots) : SlotsExact s' := by
  refine ⟨?_, ?_⟩
  · intro id
    unfold SlotManager.HasSlot
    rw [hslots, hcalls]
    exact h.held id
  · rw [hcalls]
    exact h.unique

theorem TimersActive.moves {s s' : Instance} (h : TimersActive s) {i : Nat} {c c' : Call}
    (hm : Moves i c c' s s') : TimersActive s' := by
  intro j d hd htimer
  rw [hm.calls] at hd
  rcases getElem?_set_cases hd with ⟨rfl, rfl⟩ | ⟨-, hd'⟩
  · exact hm.timer htimer
  · exact h j d hd' htimer

/-- What holds of the calls and the slots in every state. -/
structure CallsInv (s : Instance) : Prop where
  /-- The slots are those of the active calls. -/
  exact : SlotsExact s
  /-- Settled calls have no drain timer. -/
  timers : TimersActive s

theorem CallsInv.step {settings : Settings} {s s' : Instance} {a : Action} {o : List Effect}
    (h : CallsInv s) (hstep : (worker settings).step s a = some (s', o)) : CallsInv s' := by
  cases step_moves h.timers hstep with
  | kept hcalls hslots =>
      refine ⟨h.exact.of_kept hcalls hslots.slots, ?_⟩
      intro i c hc
      rw [hcalls] at hc
      exact h.timers i c hc
  | @configured u ha hs' =>
      rw [hs']
      exact ⟨h.exact.of_kept rfl (VercelWorker.updateConfig_slots s.worker u), h.timers⟩
  | replaying ha hs' =>
      rw [hs']
      exact ⟨h.exact.of_kept rfl rfl, h.timers⟩
  | moved hc hactive hmoves => exact ⟨h.exact.moves hc hactive hmoves, h.timers.moves hmoves⟩
  | @admitted submit turn startedAt c c' ha hadmits htask hactive hmoves =>
      have hadd : SlotsExact (s.addCall (s.worker.slots.occupy submit.taskId startedAt) c) := by
        rw [← htask]
        exact h.exact.addCall (htask ▸ hadmits.2.1) hactive
      refine ⟨hadd.moves List.getElem?_concat_length hactive hmoves, TimersActive.moves ?_ hmoves⟩
      intro j d hd htimer
      rcases getElem?_concat_cases hd with ⟨-, rfl⟩ | ⟨-, hd⟩
      · exact hactive
      · exact h.timers j d hd htimer

theorem Created.callsInv {s : Instance} (h : Created s) : CallsInv s := by
  obtain ⟨input, w, clock, hnew, rfl⟩ := h
  obtain ⟨-, configManager, -, rfl⟩ := VercelWorker.of_new hnew
  refine ⟨⟨?_, by simp [Instance.init]⟩, by simp [TimersActive, Instance.init]⟩
  intro id
  simp [SlotManager.HasSlot, Instance.init]

/-- The invariant holds in every state of every run. -/
theorem run_callsInv {settings : Settings} {s₀ s : Instance} {as : List Action}
    {out : List Effect} (hnew : Created s₀)
    (hrun : (worker settings).run s₀ as = some (s, out)) : CallsInv s :=
  (worker settings).run_invariant (fun _ _ _ _ h hu => h.step hu) hnew.callsInv hrun

end L0Worker.Worker
