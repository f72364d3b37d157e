import L0Worker.Worker.Terminal

/-!
# The events of a call

What a client hears from a call, as long as it listens: `TASK_ACCEPTED`, then
`TASK_PROGRESS` any number of times, then one `TASK_COMPLETED` or `TASK_FAILED` and
nothing more.  Across the calls, the timestamps of what the worker says increase.  There
is one way in which a call ends without a terminal event although its client listens: its
executor rejects with something that the `catch` block cannot read
(`task_event_protocol_iff`).
-/

namespace L0Worker.Worker

/-! ## Conversations -/

/-- `TASK_ACCEPTED`, then `TASK_PROGRESS` any number of times, then, when the
conversation has ended, one terminal event. -/
def Conversation (ended : Bool) (events : List OutboundEvent) : Prop :=
  ∃ accepted progress terminal, events = accepted :: progress ++ terminal ∧
    accepted.isAccepted = true ∧ (∀ e ∈ progress, e.isProgress = true) ∧
    (∀ e ∈ terminal, e.isTerminal = true) ∧ terminal.length = if ended then 1 else 0

theorem Conversation.accepted {e : OutboundEvent} (h : e.isAccepted = true) :
    Conversation false [e] :=
  ⟨e, [], [], rfl, h, List.forall_mem_nil _, List.forall_mem_nil _, rfl⟩

theorem Conversation.progress {events : List OutboundEvent} {e : OutboundEvent}
    (h : Conversation false events) (he : e.isProgress = true) :
    Conversation false (events ++ [e]) := by
  obtain ⟨a, ps, ts, rfl, ha, hps, -, hts⟩ := h
  obtain rfl := List.eq_nil_of_length_eq_zero hts
  refine ⟨a, ps ++ [e], [], by simp, ha, ?_, List.forall_mem_nil _, rfl⟩
  exact List.forall_mem_append.mpr ⟨hps, List.forall_mem_singleton.mpr he⟩

theorem Conversation.terminal {events : List OutboundEvent} {e : OutboundEvent}
    (h : Conversation false events) (he : e.isTerminal = true) :
    Conversation true (events ++ [e]) := by
  obtain ⟨a, ps, ts, rfl, ha, hps, -, hts⟩ := h
  obtain rfl := List.eq_nil_of_length_eq_zero hts
  exact ⟨a, ps, [e], by simp, ha, hps, List.forall_mem_singleton.mpr he, rfl⟩

theorem Conversation.two_le_length {events : List OutboundEvent} (h : Conversation true events) :
    2 ≤ events.length := by
  obtain ⟨a, ps, ts, rfl, -, -, -, hts⟩ := h
  rw [List.length_append, List.length_cons, hts, if_pos rfl]
  omega

/-- A conversation has ended or not. -/
theorem Conversation.not_both {events : List OutboundEvent} :
    ¬ (Conversation true events ∧ Conversation false events) := by
  rintro ⟨⟨a, ps, ts, hevents, -, hps, hterminal, hts⟩, b, qs, us, rfl, -, hqs, -, hus⟩
  obtain rfl := List.eq_nil_of_length_eq_zero hus
  obtain ⟨e, rfl⟩ := List.length_eq_one_iff.mp hts
  -- the last event would be both progress and the end
  rw [List.append_nil, List.cons_append] at hevents
  obtain ⟨-, rfl⟩ := List.cons.inj hevents
  have hprogress := hqs e (List.mem_append_right _ List.mem_cons_self)
  have hend := hterminal e List.mem_cons_self
  cases e with
  | taskProgress => cases hend
  | _ => cases hprogress

/-! ## What each stage has told -/

/-- The event, if it is a task event that was emitted. -/
def Effect.taskEvent? : Effect → Option OutboundEvent
  | .emitted _ event => if event.taskId?.isSome then some event else none
  | _ => none

/-- What was told by a stage.  The stage after an `emit` that threw is excluded. -/
def Stage.Tells (events : List OutboundEvent) : Stage → Prop
  | .idle | .acquired => events = []
  | .announced | .running | .lost | .released false | .settled false => Conversation false events
  | .closing | .closed | .released true | .settled true => Conversation true events
  | .caught => False

theorem Stage.eq_running_of_listens {q : Stage} (h : q.listens false = true) : q = .running := by
  cases q with
  | running => rfl
  | _ => cases h

/-- Where the account has a task event. -/
theorem Stage.next_taskEvent {q q' : Stage} {e : Effect} {event : OutboundEvent}
    (hnext : q.next false e = some q') (hevent : e.taskEvent? = some event) :
    (q = .acquired ∧ q' = .announced ∧ event.isAccepted = true) ∨
      (q = .running ∧ q' = .running ∧ event.isProgress = true) ∨
      ((q = .running ∨ q = .caught) ∧ q' = .closing ∧ event.isTerminal = true) := by
  unfold Stage.next at hnext
  split at hnext
  all_goals
    grind [Effect.taskEvent?, OutboundEvent.taskId?, OutboundEvent.isAccepted,
      OutboundEvent.isProgress, OutboundEvent.isTerminal, Stage.eq_running_of_listens]

/-- Other effects change nothing about what was told. -/
theorem Stage.Tells.silent {q q' : Stage} {e : Effect} {events : List OutboundEvent}
    (h : q.Tells events) (hthrow : e.isThrow = false) (hnext : q.next false e = some q')
    (hevent : e.taskEvent? = none) : q'.Tells events := by
  unfold Stage.next at hnext
  split at hnext
  all_goals
    grind [Stage.Tells, Effect.isThrow, Effect.taskEvent?, OutboundEvent.taskId?, Stage.listens,
      Stage.isOpen]

/-- One entry of the account. -/
theorem Stage.Tells.next {q q' : Stage} {e : Effect} {events : List OutboundEvent}
    (h : q.Tells events) (hthrow : e.isThrow = false) (hnext : q.next false e = some q') :
    q'.Tells (events ++ e.taskEvent?.toList) := by
  cases hevent : e.taskEvent? with
  | none =>
      rw [Option.toList_none, List.append_nil]
      exact h.silent hthrow hnext hevent
  | some event =>
      rw [Option.toList_some]
      rcases Stage.next_taskEvent hnext hevent with
        ⟨rfl, rfl, hkind⟩ | ⟨rfl, rfl, hkind⟩ | ⟨hq, rfl, hkind⟩
      · obtain rfl : events = [] := h
        exact Conversation.accepted hkind
      · exact Conversation.progress h hkind
      · rcases hq with rfl | rfl
        · exact Conversation.terminal h hkind
        · exact False.elim h

theorem tells_of_accept {w : List Effect} {q : Stage}
    (haccept : accept (Stage.next false) .idle w = some q)
    (hthrow : ∀ e ∈ w, e.isThrow = false) : q.Tells (w.filterMap Effect.taskEvent?) := by
  have h : (∀ e ∈ w, e.isThrow = false) → q.Tells (w.filterMap Effect.taskEvent?) := by
    refine accept_history
      (J := fun (w : List Effect) (q : Stage) =>
        (∀ e ∈ w, e.isThrow = false) → q.Tells (w.filterMap Effect.taskEvent?))
      ?_ ?_ haccept
    · intro _
      rfl
    · intro w q e q' hq hnext hthrow
      obtain ⟨hw, he⟩ := List.forall_mem_append.mp hthrow
      have htold := (hq hw).next (he e List.mem_cons_self) hnext
      rw [List.filterMap_append]
      cases hevent : e.taskEvent? with
      | none => simpa [hevent] using htold
      | some event => simpa [hevent] using htold
  exact h hthrow

/-! ## The conversation of each call -/

/-- The executor has settled, and its result was reported. -/
def Phase.hasEnded : Phase → Bool
  | .accepted | .executing _ => false
  | .finishing | .settled _ => true

/-- A call that lost its report has not ended its conversation, and any other has where its
executor has settled. -/
theorem Phase.conversation {p : Phase} {events : List OutboundEvent} (h : p.stage.Tells events) :
    Conversation p.hasEnded events ↔ p.stage.losses = 0 := by
  cases p with
  | settled error => cases error with
    | none => exact iff_of_true h rfl
    | some e => exact iff_of_false (fun hended => Conversation.not_both ⟨hended, h⟩) Nat.one_ne_zero
  | _ => exact iff_of_true h rfl

/-- The task events that a call emitted. -/
def taskEventsOf (i : Nat) (out : List Effect) : List OutboundEvent :=
  (outputsOf Effect.call? i out).filterMap Effect.taskEvent?

theorem taskEventsOf_owned {s : Instance} {out : List Effect} (h : EffectsOwned s out) {i : Nat}
    {c : Call} (hc : s.calls[i]? = some c) :
    ∀ event ∈ taskEventsOf i out, event.taskId? = some c.taskId := by
  intro event hevent
  obtain ⟨e, he, hevent⟩ := List.mem_filterMap.mp hevent
  obtain ⟨he, hi⟩ := List.mem_filter.mp he
  obtain ⟨d, hd, -, hid⟩ := h e he i (of_decide_eq_true hi)
  obtain rfl := Option.some.inj (hc.symm.trans hd)
  cases e with
  | emitted k emittedEvent =>
      obtain ⟨hsome, heq⟩ := Option.ite_none_right_eq_some.mp hevent
      obtain rfl := Option.some.inj heq
      obtain ⟨id, hevent⟩ := Option.isSome_iff_exists.mp hsome
      rw [hevent, hid id hevent]
  | _ => cases hevent

/-! ## Steps without an `emit` that throws -/

section Returns

variable (s : Instance) (i : Nat) (c : Call)

/-- A piece that begins with a report. -/
theorem report_returned {taskId : String} {event : Int → OutboundEvent} {env : EmitEnv}
    {o : List Effect} (hemit : ∀ e ∈ (s.report i taskId event env).2 ++ o, e.isThrow = false) :
    env.throws = none := by
  cases henv : env.throws with
  | none => rfl
  | some thrown =>
      rw [Instance.report_throws henv] at hemit
      cases hemit _ List.mem_cons_self

/-- When no `emit` throws, only an error that cannot be read is lost. -/
theorem catchBlock_loses_returns {error : Thrown} {env : EmitEnv}
    (hemit : ∀ e ∈ (s.catchBlock i c error env).2, e.isThrow = false) :
    Loses (s.catchBlock i c error env).2 ↔ error.isReadable = false := by
  rw [catchBlock_loses]
  refine or_iff_left_of_imp fun hthrows => ?_
  have hcaught := s.catchBlock_caught i c error env
  generalize s.catchBlock i c error env = r at hcaught hemit
  cases hcaught with
  | unread hfailure => exact Thrown.unreadable_of_failureOf hfailure
  | reported hfailure henv => exact absurd henv hthrows
  | lost hfailure henv => exact absurd (report_returned s i hemit) hthrows

theorem tryBlock_returns {turn : Turn}
    (hemit : ∀ e ∈ (s.tryBlock i c turn).2, e.isThrow = false) : turn.event.throws = none := by
  rw [Instance.tryBlock_eq] at hemit
  dsimp only at hemit
  cases hthrows : turn.event.throws with
  | none => rfl
  | some thrown =>
      rw [hthrows] at hemit
      cases hthrows.symm.trans (report_returned s.accepting i hemit)

theorem executorSettled_loses_returns {settings : Settings} {startTime : Int}
    {outcome : Except Thrown ExecutionResult} {turn : Turn}
    (hemit : ∀ e ∈ (s.executorSettled settings i c startTime outcome turn).2, e.isThrow = false) :
    Loses (s.executorSettled settings i c startTime outcome turn).2 ↔
      ∃ e, outcome = .error e ∧ e.isReadable = false := by
  cases outcome with
  | error e =>
      refine (catchBlock_loses_returns s i c hemit).trans ?_
      simp
  | ok result =>
      rw [executorSettled_loses]
      refine iff_of_false ?_ (by simp)
      rintro ⟨thrown, hthrows, -⟩
      unfold Instance.executorSettled at hemit
      dsimp only at hemit
      have hthrows : turn.event.throws = some thrown := hthrows
      rw [hthrows] at hemit
      cases hthrows.symm.trans (report_returned s i hemit)

end Returns

/-- The executor of the call rejects with an error that cannot be read. -/
def Action.RejectsUnreadably (i : Nat) : Action → Prop
  | .settle k (.error e) _ => k = i ∧ e.isReadable = false
  | _ => False

section Runs

variable {settings : Settings} {s₀ s : Instance} {as : List Action} {out : List Effect}

/-- When no `emit` throws, only such a step loses a report. -/
theorem step_loses_returns_iff {s s' : Instance} {a : Action} {o : List Effect}
    (hstep : (worker settings).step s a = some (s', o)) (hemit : ∀ e ∈ o, e.isThrow = false)
    (i : Nat) : a.LosesReport i s ↔ a.RejectsUnreadably i := by
  cases a with
  | execute submit turn =>
      refine iff_of_false ?_ id
      rintro ⟨-, hadm, e, hthrows, -⟩
      cases step_cases hstep with
      | execute submit turn =>
          rcases s.executeTaskWithEvents_cases settings submit turn with
            ⟨hno, reason, heq⟩ | ⟨-, slots, c, r, -, hc, rfl, heq⟩
          · exact hno hadm
          · rw [heq] at hemit
            have hreturns := tryBlock_returns (s.addCall slots c) _ c
              (List.forall_mem_cons.mp hemit).2
            cases hreturns.symm.trans hthrows
  | settle k outcome turn =>
      cases step_cases hstep with
      | @settle k c startTime outcome turn hc hstart =>
          have hloses := executorSettled_loses_returns s k c hemit
          rw [executorSettled_loses] at hloses
          cases outcome with
          | error e => simpa [Action.LosesReport, Action.RejectsUnreadably] using fun _ => hloses
          | ok result => simpa [Action.LosesReport, Action.RejectsUnreadably] using fun _ => hloses
  | _ => exact Iff.rfl

/-- What call `i` has told, in a run without an `emit` that throws and without late callbacks. -/
theorem call_tells (hnew : Created s₀) (hrun : (worker settings).run s₀ as = some (s, out))
    (hemit : ∀ e ∈ out, e.isThrow = false)
    (hcb : (worker settings).Along (fun s a _ _ => a.CallsBackInTime s) s₀ as) {i : Nat}
    {c : Call} (hc : s.calls[i]? = some c) : c.phase.stage.Tells (taskEventsOf i out) := by
  -- the account without late callbacks
  have hcb' := hcb.mono (I := fun _ => True) (fun _ _ _ _ _ _ h => Or.inr (a := false = true) h)
    (fun _ _ _ _ _ _ _ => trivial) trivial
  have hfollows := run_tracks hnew hrun hcb' i
  rw [Instance.stage_of_some hc] at hfollows
  exact tells_of_accept hfollows fun e he => hemit e (List.mem_of_mem_filter he)

/-- A call has lost no report exactly when its executor did not reject so. -/
theorem run_losses_iff (hnew : Created s₀) (hrun : (worker settings).run s₀ as = some (s, out))
    (hemit : ∀ e ∈ out, e.isThrow = false) (i : Nat) :
    (s.stage i).losses = 0 ↔ ∀ a ∈ as, ¬ a.RejectsUnreadably i := by
  have hreturns : (worker settings).Along (fun _ _ _ o => ∀ e ∈ o, e.isThrow = false) s₀ as :=
    (Machine.Along.forall_output_iff hrun).mpr hemit
  have hsteps : (worker settings).Along (fun s a _ o =>
        ¬ a.LosesReport i s ∧ ∀ e ∈ o, e.isThrow = false) s₀ as ↔
      (worker settings).Along (fun _ a _ o =>
        ¬ a.RejectsUnreadably i ∧ ∀ e ∈ o, e.isThrow = false) s₀ as :=
    Machine.Along.congr (I := fun _ => True)
      (fun _ _ _ _ _ hstep => and_congr_left fun he =>
        not_congr (step_loses_returns_iff hstep he i))
      (fun _ _ _ _ _ _ _ => trivial) trivial
  rw [Machine.Along.and_iff, Machine.Along.and_iff, and_iff_left hreturns,
    and_iff_left hreturns] at hsteps
  rw [← run_losses hnew hrun, ← along_not_loses_iff hrun, hsteps]
  exact Machine.Along.forall_action_iff hrun

/-- A call has told a conversation exactly when its executor did not reject so. -/
theorem call_conversation_iff (hnew : Created s₀)
    (hrun : (worker settings).run s₀ as = some (s, out)) (hemit : ∀ e ∈ out, e.isThrow = false)
    (hcb : (worker settings).Along (fun s a _ _ => a.CallsBackInTime s) s₀ as) {i : Nat}
    {c : Call} (hc : s.calls[i]? = some c) :
    Conversation c.phase.hasEnded (taskEventsOf i out) ↔ ∀ a ∈ as, ¬ a.RejectsUnreadably i := by
  rw [← run_losses_iff hnew hrun hemit, Instance.stage_of_some hc]
  exact Phase.conversation (call_tells hnew hrun hemit hcb hc)

/-! ## The protocol -/

/-- Each call that was accepted has emitted `TASK_ACCEPTED`, then `TASK_PROGRESS`, then, once its
executor has settled, exactly one terminal event, all of them about its task; and the timestamps
of all events the worker made increase strictly. -/
structure FollowsProtocol (s : Instance) (out : List Effect) : Prop where
  conversation : ∀ (i : Nat) (c : Call), s.calls[i]? = some c →
    Conversation c.phase.hasEnded (taskEventsOf i out)
  owned : ∀ (i : Nat) (c : Call), s.calls[i]? = some c →
    ∀ event ∈ taskEventsOf i out, event.taskId? = some c.taskId
  ts : (out.filterMap Effect.ts?).Pairwise (· < ·)

/-- A run in which no `emit` throws and no executor calls back after it has settled follows the
protocol exactly when no executor rejects with an error that cannot be read. -/
theorem task_event_protocol_iff (hnew : Created s₀)
    (hrun : (worker settings).run s₀ as = some (s, out))
    (hemit : ∀ e ∈ out, e.isThrow = false)
    (hcb : (worker settings).Along (fun s a _ _ => a.CallsBackInTime s) s₀ as) :
    FollowsProtocol s out ↔ ∀ a ∈ as, ∀ i, ¬ a.RejectsUnreadably i := by
  constructor
  · intro h a ha i hrejects
    -- the call that rejects is one of the run
    cases hcall : s.calls[i]? with
    | some c =>
        exact (call_conversation_iff hnew hrun hemit hcb hcall).mp (h.conversation i c hcall) a ha
          hrejects
    | none =>
        have hlosses : (s.stage i).losses = 0 := by
          rw [Instance.stage, hcall]
          rfl
        exact (run_losses_iff hnew hrun hemit i).mp hlosses a ha hrejects
  · intro h
    exact
      { conversation := fun i c hc =>
          (call_conversation_iff hnew hrun hemit hcb hc).mpr fun a ha => h a ha i
        owned := fun i c hc => taskEventsOf_owned (run_owned hnew hrun) hc
        ts := (run_reports hrun).clock.sorted }

end Runs

/-- Two calls take turns while the system clock goes back.  The first uses a tool and
completes, and the second is cut short by its drain timer and fails. -/
theorem task_event_protocol_iff_twoCalls :
    let env : Int → EmitEnv := fun now => ⟨now, none⟩
    let turn : Int → Turn := fun now => ⟨now, env now, env now⟩
    let as : List Action :=
      [.execute ⟨"t1", some (.obj [("prompt", .str "a")])⟩ (turn 50), .start 0 49,
        .execute ⟨"t2", some (.obj [("prompt", .str "b")])⟩ (turn 40),
        .callback 0 (.onToolCall "search" .null) (env 30), .start 1 20,
        .settle 0 (.ok ⟨"done", 1, 1, 1⟩) (turn 10), .finish 0, .drainTimer 1 (env 5),
        .settle 1 (.error (.ofMessage "aborted")) (turn 0), .finish 1]
    ∃ s₀ s out, Created s₀ ∧ (worker ⟨1000, 10, id⟩).run s₀ as = some (s, out) ∧
      out.filterMap Effect.ts? = [50, 51, 52, 53, 54, 55] ∧ FollowsProtocol s out := by
  intro env turn as
  have hnew := created_ofDefaults
  have hcheck : ((worker ⟨1000, 10, id⟩).run .ofDefaults as).map
      (fun p => (p.2.filterMap Effect.ts?, p.2.all fun e => !e.isThrow)) =
        some ([50, 51, 52, 53, 54, 55], true) := by
    decide
  obtain ⟨⟨s, out⟩, hrun, hout⟩ := Option.map_eq_some_iff.mp hcheck
  obtain ⟨hts, hemit⟩ := Prod.mk.inj hout
  have hemit : ∀ e ∈ out, e.isThrow = false := by simpa using hemit
  have hcb : (worker ⟨1000, 10, id⟩).Along (fun s a _ _ => a.CallsBackInTime s) .ofDefaults as :=
    ⟨_, _, rfl, trivial, _, _, rfl, trivial, _, _, rfl, trivial, _, _, rfl, ⟨_, rfl, rfl⟩,
      _, _, rfl, trivial, _, _, rfl, trivial, _, _, rfl, trivial, _, _, rfl, trivial,
      _, _, rfl, trivial, _, _, rfl, trivial, trivial⟩
  have hfollows := (task_event_protocol_iff hnew hrun hemit hcb).mpr (by
    simp [as, Action.RejectsUnreadably, Thrown.ofMessage, Thrown.isReadable])
  exact ⟨_, s, out, hnew, hrun, hts, hfollows⟩

/-- An executor rejects with an object that has no text, as `Object.create(null)`: its call ends
without a terminal event, although every `emit` returns. -/
theorem rejection_without_text :
    let turn : Turn := ⟨1, ⟨1, none⟩, ⟨1, none⟩⟩
    let thrown : Thrown :=
      .noText (.error "TypeError" "Cannot convert object to primitive value" false)
    let as : List Action := [.execute ⟨"t1", some (.obj [("prompt", .str "a")])⟩ turn, .start 0 2,
      .settle 0 (.error thrown) turn]
    ∃ s₀ s out, Created s₀ ∧ (worker ⟨0, 0, id⟩).run s₀ as = some (s, out) ∧
      (∀ e ∈ out, e.isThrow = false) ∧
      (worker ⟨0, 0, id⟩).Along (fun s a _ _ => a.CallsBackInTime s) s₀ as ∧
      ¬ FollowsProtocol s out := by
  intro turn thrown as
  have hnew := created_ofDefaults
  have hcheck : ((worker ⟨0, 0, id⟩).run .ofDefaults as).map
      (fun p => (p.1.calls.map fun c => c.phase.hasEnded,
        (taskEventsOf 0 p.2).length, p.2.all fun e => !e.isThrow)) = some ([true], 1, true) := by
    decide
  obtain ⟨⟨s, out⟩, hrun, hout⟩ := Option.map_eq_some_iff.mp hcheck
  obtain ⟨hended, hout⟩ := Prod.mk.inj hout
  obtain ⟨hlength, hemit⟩ := Prod.mk.inj hout
  refine ⟨_, s, out, hnew, hrun, by simpa using hemit,
    ⟨_, _, rfl, trivial, _, _, rfl, trivial, _, _, rfl, trivial, trivial⟩, ?_⟩
  intro hfollows
  obtain ⟨c, hcalls, hended⟩ := List.map_eq_singleton_iff.mp hended
  have htold := hfollows.conversation 0 c (by rw [hcalls]; rfl)
  rw [hended] at htold
  have hlong := htold.two_le_length
  rw [hlength] at hlong
  omega

end L0Worker.Worker
