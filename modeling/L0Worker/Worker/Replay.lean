import L0Worker.Worker.Reports
import L0Worker.Worker.Protocol

/-!
# Replay

The store is a faithful log: it holds for each task exactly the task events that were
emitted for it, in order.  A replay emits what it
finds in the log when its loop starts, and `ReplaysFaithfully` says so in terms of the
run: there is a point of the run, the start of the loop, such that the replay has
emitted what had been emitted for the task up to that point.
-/

namespace L0Worker.Worker

/-! ## What was emitted -/

/-- The task events that calls emitted for a task. -/
def emittedFor (taskId : String) (out : List Effect) : List OutboundEvent :=
  out.filterMap (Effect.emittedFor? taskId)

/-- The event, if this replay emitted it. -/
def Effect.replayedBy? (j : Nat) : Effect → Option OutboundEvent
  | .replayed k event => if k = j then some event else none
  | _ => none

/-- The events that a replay emitted. -/
def replayedBy (j : Nat) (out : List Effect) : List OutboundEvent :=
  out.filterMap (Effect.replayedBy? j)

theorem replayedBy_append (j : Nat) (out o : List Effect) :
    replayedBy j (out ++ o) = replayedBy j out ++ replayedBy j o :=
  List.filterMap_append ..

theorem replayedBy_eq_nil {j : Nat} {o : List Effect}
    (h : ∀ e ∈ o, e.replayedBy? j = none) : replayedBy j o = [] :=
  List.filterMap_eq_nil_iff.mpr h

/-- What the effects of a loop look like from another replay, and from its own. -/
theorem replayedBy_loop (j k : Nat) (events : List OutboundEvent)
    (result : Except Thrown ReplayResult) :
    replayedBy j (events.map (.replayed k) ++ [.replaySettled k result]) =
      if k = j then events else [] := by
  unfold replayedBy
  rw [List.filterMap_append, List.filterMap_map, List.filterMap_cons_none rfl, List.filterMap_nil,
    List.append_nil]
  by_cases hk : k = j
  · rw [if_pos hk]
    have hsome : ∀ event ∈ events, (Effect.replayedBy? j ∘ Effect.replayed k) event = some event :=
      fun event _ => if_pos hk
    rw [List.filterMap_congr hsome, List.filterMap_some]
  · rw [if_neg hk]
    exact List.filterMap_eq_nil_iff.mpr fun event _ => if_neg hk

/-- The log holds what was emitted. -/
theorem run_log {settings : Settings} {s₀ s : Instance} {as : List Action}
    {out : List Effect} (hnew : Created s₀)
    (hrun : (worker settings).run s₀ as = some (s, out)) (id : String) :
    s.worker.eventStore.getEventsForTask id = emittedFor id out ∧
      (s.worker.eventStore.HasTask id ↔ emittedFor id out ≠ []) := by
  obtain ⟨hkeeps, hstore⟩ := run_store hnew hrun
  have hlog : s.worker.eventStore.getEventsForTask id = emittedFor id out := by
    rw [hstore, ← (run_reports hrun).paired id, emittedFor]
  exact ⟨hlog, by rw [hkeeps.hasTask, hlog]⟩

/-! ## Steps and replays -/

/-- Other steps leave the replays alone. -/
theorem step_replays {settings : Settings} {s s' : Instance} {a : Action} {o : List Effect}
    (ht : TimersActive s) (hstep : (worker settings).step s a = some (s', o))
    (ha : a.isReplay = false) : s'.replays = s.replays ∧ ∀ j, replayedBy j o = [] := by
  constructor
  · cases step_moves ht hstep with
    | kept hcalls hslots => exact hslots.replays
    | configured hu hs' => rw [hs']
    | replaying ha' hs' => rw [ha] at ha'; cases ha'
    | moved hc hactive hmoves => exact hmoves.slots.replays
    | admitted hexec hadmits htask hactive hmoves => exact hmoves.slots.replays
  · intro j
    refine replayedBy_eq_nil ?_
    intro e he
    cases step_drives ht hstep (Or.inl (rfl : true = true)) with
    | silent hcalls hnone hreplay =>
        rcases hreplay with ha' | hreplay
        · rw [ha] at ha'
          cases ha'
        · have hno := hreplay e he
          cases e with
          | replayed k event => cases hno
          | _ => rfl
    | driven hc hdrives =>
        have hown := (hdrives.own e he).1
        cases e with
        | replayed k event => cases hown
        | _ => rfl

/-- No `emit` of a replay throws. -/
def Action.ReplayReturns : Action → Prop
  | .replayLoop _ throws => throws = none
  | _ => True

/-! ## Replays and the run -/

section Faithful

variable (settings : Settings) (s₀ : Instance) (as : List Action) (j : Nat) (r : ReplayCall)

/-- Replay `j` looked for its task at a point of the run up to which nothing had been
emitted for the task. -/
def NotFound : Prop :=
  ∃ as₁ request as₂ s₁ out₁, as = as₁ ++ .replay request :: as₂ ∧
    (worker settings).run s₀ as₁ = some (s₁, out₁) ∧ s₁.replays.length = j ∧
    request.taskId = r.taskId ∧ emittedFor r.taskId out₁ = []

/-- Replay `j` started its loop at a point of the run up to which these events had been
emitted for the task. -/
def Looped (events : List OutboundEvent) : Prop :=
  ∃ as₁ as₂ s₁ out₁, as = as₁ ++ .replayLoop j none :: as₂ ∧
    (worker settings).run s₀ as₁ = some (s₁, out₁) ∧ events = emittedFor r.taskId out₁

/-- Replay `j`, which is at `r` and has emitted these events, is faithful: before its
loop it has emitted nothing, and in its loop it emits what had been emitted for the
task when the loop started. -/
def ReplaysFaithfully (replayed : List OutboundEvent) : Prop :=
  match r.phase with
  | .checked found => replayed = [] ∧ (found = false → NotFound settings s₀ as j r)
  | .fetched => replayed = []
  | .settled result =>
      (Looped settings s₀ as j r replayed ∧
        result = .ok (replaySuccess replayed r.expectedOutputHash)) ∨
      (NotFound settings s₀ as j r ∧ replayed = [] ∧ result = .ok (replayNotFound r.taskId))

variable {settings s₀ as j r}

theorem NotFound.extend (h : NotFound settings s₀ as j r) (a : Action) :
    NotFound settings s₀ (as ++ [a]) j r := by
  obtain ⟨as₁, request, as₂, s₁, out₁, rfl, h⟩ := h
  exact ⟨as₁, request, as₂ ++ [a], s₁, out₁, by simp, h⟩

theorem Looped.extend {events : List OutboundEvent} (h : Looped settings s₀ as j r events)
    (a : Action) : Looped settings s₀ (as ++ [a]) j r events := by
  obtain ⟨as₁, as₂, s₁, out₁, rfl, h⟩ := h
  exact ⟨as₁, as₂ ++ [a], s₁, out₁, by simp, h⟩

theorem ReplaysFaithfully.extend {replayed : List OutboundEvent}
    (h : ReplaysFaithfully settings s₀ as j r replayed) (a : Action) :
    ReplaysFaithfully settings s₀ (as ++ [a]) j r replayed := by
  unfold ReplaysFaithfully at h ⊢
  cases hp : r.phase with
  | checked found =>
      rw [hp] at h
      exact ⟨h.1, fun hf => (h.2 hf).extend a⟩
  | fetched => rw [hp] at h; exact h
  | settled result =>
      rw [hp] at h
      rcases h with ⟨hl, hres⟩ | ⟨hn, hres⟩
      · exact .inl ⟨hl.extend a, hres⟩
      · exact .inr ⟨hn.extend a, hres⟩

/-- The result counts the events. -/
theorem ReplaysFaithfully.count {replayed : List OutboundEvent}
    (h : ReplaysFaithfully settings s₀ as j r replayed) {result : Except Thrown ReplayResult}
    (hp : r.phase = .settled result) :
    ∃ n, result = .ok n ∧ n.eventsReplayed = replayed.length := by
  unfold ReplaysFaithfully at h
  rw [hp] at h
  rcases h with ⟨-, hres⟩ | ⟨-, hnil, hres⟩
  · exact ⟨_, hres, rfl⟩
  · exact ⟨_, hres, by rw [hnil]; rfl⟩

end Faithful

/-- What holds of the replays after a run. -/
structure ReplayInv (settings : Settings) (s₀ : Instance) (as : List Action)
    (out : List Effect) (s : Instance) : Prop where
  /-- A replay that was not called has emitted nothing. -/
  unborn : ∀ j, s.replays.length ≤ j → replayedBy j out = []
  /-- The others are faithful. -/
  faithful : ∀ (j : Nat) (r : ReplayCall), s.replays[j]? = some r →
    ReplaysFaithfully settings s₀ as j r (replayedBy j out)

section Steps

variable {settings : Settings} {s₀ s : Instance} {as : List Action} {out : List Effect}

/-- A step that leaves the replays alone. -/
theorem ReplayInv.other (h : ReplayInv settings s₀ as out s) {s' : Instance} {a : Action}
    {o : List Effect} (hreplays : s'.replays = s.replays) (ho : ∀ j, replayedBy j o = []) :
    ReplayInv settings s₀ (as ++ [a]) (out ++ o) s' := by
  refine ⟨?_, ?_⟩
  · intro j hj
    rw [replayedBy_append, ho, List.append_nil]
    exact h.unborn j (hreplays ▸ hj)
  · intro j r hr
    rw [replayedBy_append, ho, List.append_nil]
    exact (h.faithful j r (hreplays ▸ hr)).extend a

/-- A replay is called. -/
theorem ReplayInv.called (h : ReplayInv settings s₀ as out s)
    (hu : (worker settings).run s₀ as = some (s, out)) {request : TaskReplayRequest}
    (hlog : s.worker.eventStore.HasTask request.taskId ↔ emittedFor request.taskId out ≠ []) :
    ReplayInv settings s₀ (as ++ [.replay request]) out (s.replay request) := by
  refine ⟨?_, ?_⟩
  · intro j hj
    rw [Instance.replay, List.length_append, List.length_singleton] at hj
    exact h.unborn j (by omega)
  · intro j r hr
    rcases getElem?_concat_cases hr with ⟨rfl, rfl⟩ | ⟨-, hr⟩
    -- what `hasTask` says about the store it says about the run
    · refine ⟨h.unborn _ (Nat.le_refl _), ?_⟩
      intro hfound
      refine ⟨as, request, [], s, out, rfl, hu, rfl, rfl, ?_⟩
      exact not_not.mp (fun hne => of_decide_eq_false hfound (hlog.mpr hne))
    · exact (h.faithful j r hr).extend _

/-- A replay moves on, emitting these events. -/
theorem ReplayInv.moved (h : ReplayInv settings s₀ as out s) {s' : Instance} {a : Action}
    {o : List Effect} {k : Nat} {r : ReplayCall} (r' : ReplayCall) (events : List OutboundEvent)
    (hr : s.replays[k]? = some r) (hs' : s'.replays = s.replays.set k r')
    (ho : ∀ j, replayedBy j o = if k = j then events else [])
    (hr' : ReplaysFaithfully settings s₀ as k r (replayedBy k out) →
      ReplaysFaithfully settings s₀ (as ++ [a]) k r' (replayedBy k out ++ events)) :
    ReplayInv settings s₀ (as ++ [a]) (out ++ o) s' := by
  have hk : k < s.replays.length := (List.getElem?_eq_some_iff.mp hr).1
  refine ⟨?_, ?_⟩
  · intro j hj
    rw [hs', List.length_set] at hj
    rw [replayedBy_append, ho, if_neg (by omega), List.append_nil]
    exact h.unborn j hj
  · intro j d hd
    rw [hs'] at hd
    rw [replayedBy_append, ho]
    rcases getElem?_set_cases hd with ⟨rfl, rfl⟩ | ⟨hj, hd⟩
    · rw [if_pos rfl]
      exact hr' (h.faithful j r hr)
    · rw [if_neg (Ne.symm hj), List.append_nil]
      exact (h.faithful j d hd).extend a

theorem ReplayInv.step (hnew : Created s₀) (hu : (worker settings).run s₀ as = some (s, out))
    (h : ReplayInv settings s₀ as out s) {s' : Instance} {a : Action} {o : List Effect}
    (hstep : (worker settings).step s a = some (s', o))
    (hreturns : a.ReplayReturns) : ReplayInv settings s₀ (as ++ [a]) (out ++ o) s' := by
  have ht := (run_callsInv hnew hu).timers
  have hother : a.isReplay = false → ReplayInv settings s₀ (as ++ [a]) (out ++ o) s' := by
    intro ha
    obtain ⟨hreplays, ho⟩ := step_replays ht hstep ha
    exact h.other hreplays ho
  cases step_cases hstep with
  | replay request =>
      rw [List.append_nil]
      exact h.called hu (run_log hnew hu request.taskId).2
  | @found k r hr hphase =>
      refine h.moved { r with phase := .fetched } [] hr rfl (fun j => by simp; rfl) ?_
      intro hfaith
      rw [List.append_nil]
      rw [ReplaysFaithfully, hphase] at hfaith
      exact hfaith.1
  | @notFound k r hr hphase =>
      refine h.moved { r with phase := .settled (.ok (replayNotFound r.taskId)) } [] hr rfl
        (fun j => by simp; rfl) ?_
      intro hfaith
      rw [List.append_nil]
      rw [ReplaysFaithfully, hphase] at hfaith
      exact .inr ⟨(hfaith.2 rfl).extend _, hfaith.1, rfl⟩
  | @replayLoop k r throws hr hphase =>
      obtain rfl : throws = none := hreturns
      -- the store is the log of what was emitted up to here
      have hlog := (run_log hnew hu r.taskId).1
      refine h.moved _ (s.worker.eventStore.getEventsForTask r.taskId) hr rfl
        (fun j => replayedBy_loop j k _ _) ?_
      intro hfaith
      rw [ReplaysFaithfully, hphase] at hfaith
      rw [hfaith, List.nil_append]
      exact .inl ⟨⟨as, [], s, out, rfl, hu, hlog⟩, rfl⟩
  | _ => exact hother rfl

end Steps

/-! ## Replay is faithful -/

theorem Created.replayInv {settings : Settings} {s : Instance} (h : Created s) :
    ReplayInv settings s [] [] s := by
  obtain ⟨input, w, clock, -, rfl⟩ := h
  exact ⟨fun _ _ => rfl, fun j r hr => absurd hr (by simp [Instance.init])⟩

/-- The steps of a replay leave the worker alone. -/
theorem step_replay_worker {settings : Settings} {s s' : Instance} {a : Action}
    {o : List Effect} (hstep : (worker settings).step s a = some (s', o))
    (ha : a.isReplay = true) : s'.worker = s.worker := by
  cases step_cases hstep with
  | replay request => rfl
  | found hr hphase => rfl
  | notFound hr hphase => rfl
  | replayLoop throws hr hphase => rfl
  | _ => cases ha

/-- In every run in which no `emit` of a replay throws, every replay has emitted exactly the
task events that had been emitted for its task when its loop started, and its result counts
them; and no step of a replay changes the worker, its store included. -/
theorem replay_faithful {settings : Settings} {s₀ s : Instance} {as : List Action}
    {out : List Effect} (hnew : Created s₀)
    (hrun : (worker settings).run s₀ as = some (s, out))
    (hreturns : ∀ a ∈ as, a.ReplayReturns) :
    (∀ (j : Nat) (r : ReplayCall), s.replays[j]? = some r →
        ReplaysFaithfully settings s₀ as j r (replayedBy j out) ∧
          ∀ result, r.phase = .settled result →
            ∃ n, result = .ok n ∧ n.eventsReplayed = (replayedBy j out).length) ∧
      (worker settings).Along (fun s a s' _ => a.isReplay = true → s'.worker = s.worker) s₀ as := by
  have hinv := (worker settings).run_history
    (J := fun as out s => (∀ a ∈ as, a.ReplayReturns) → ReplayInv settings s₀ as out s) ?_
    (fun _ => hnew.replayInv) hrun hreturns
  · refine ⟨?_, ?_⟩
    · intro j r hr
      have hfaith := hinv.faithful j r hr
      exact ⟨hfaith, fun result hp => hfaith.count hp⟩
    · exact (Machine.along_of_forall_mem (G := fun _ => True) (fun _ _ => trivial) hrun).mono
        (I := fun _ => True) (fun _ _ _ _ _ hstep _ ha => step_replay_worker hstep ha)
        (fun _ _ _ _ _ _ _ => trivial) trivial
  · intro as out u a u' o hu h hstep hreturns
    have hreturns' := List.forall_mem_append.mp hreturns
    exact ReplayInv.step hnew hu (h hreturns'.1) hstep (hreturns'.2 a List.mem_cons_self)

/-- A task is executed twice under one id.  Replays are asked for before the first execution,
between the two, and after them. -/
theorem replay_faithful_twice :
    let env : Int → EmitEnv := fun now => ⟨now, none⟩
    let turn : Int → Turn := fun now => ⟨now, env now, env now⟩
    let submit : TaskSubmit := ⟨"t1", some (.obj [("prompt", .str "a")])⟩
    let as : List Action :=
      [.replay ⟨"t1", none⟩, .replayChecked 0,
        .execute submit (turn 1), .start 0 2, .settle 0 (.ok ⟨"done", 1, 1, 1⟩) (turn 3), .finish 0,
        .replay ⟨"t1", some "done"⟩, .replayChecked 1, .replayLoop 1 none,
        .execute submit (turn 4), .start 1 5, .callback 1 .onFirstToken (env 6),
        .settle 1 (.error (.ofMessage "timeout")) (turn 7), .finish 1,
        .replay ⟨"t1", none⟩, .replayChecked 2, .replayLoop 2 none]
    ∃ s₀ s out, Created s₀ ∧ (worker ⟨0, 0, id⟩).run s₀ as = some (s, out) ∧
      [0, 1, 2].map (fun j => (replayedBy j out).map OutboundEvent.ts) =
        [[], [1, 3], [1, 3, 4, 6, 7]] ∧
      ∀ (j : Nat) (r : ReplayCall), s.replays[j]? = some r →
        ReplaysFaithfully ⟨0, 0, id⟩ s₀ as j r (replayedBy j out) := by
  intro env turn submit as
  have hnew := created_ofDefaults
  have hcheck : ((worker ⟨0, 0, id⟩).run .ofDefaults as).map
      (fun p => [0, 1, 2].map fun j => (replayedBy j p.2).map OutboundEvent.ts) =
        some [[], [1, 3], [1, 3, 4, 6, 7]] := by
    decide
  obtain ⟨⟨s, out⟩, hrun, hts⟩ := Option.map_eq_some_iff.mp hcheck
  have hreturns : ∀ a ∈ as, a.ReplayReturns := by simp [as, Action.ReplayReturns]
  refine ⟨_, s, out, hnew, hrun, hts, ?_⟩
  intro j r hr
  exact ((replay_faithful hnew hrun hreturns).1 j r hr).1

end L0Worker.Worker
