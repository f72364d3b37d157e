import L0Worker.Server.Outbound
import L0Worker.Worker.Replay

/-!
# The stream of a replay request

`handleReplay` writes one frame for each event of the log, and then the summary.  It writes
nothing more to a client that is gone: the controller is closed then, so that `emit` throws,
and the `ERROR` event of the `catch` block cannot be written either.  The handlers of
`server.ts` and of `api/replay.ts` write the same to a client that stays.

`ReplayOutput` says what the effects of a replay are, at any point of a run: nothing until it
has settled, and then the events that had been emitted for its task up to some point, and the
result.  So a client that reads the stream reads the texts that the events of the task were
sent as when they happened (`replay_stream_reads`).

`ReplayGoes` says once what a step does to a replay, and with which effects.
-/

namespace L0Worker.Server

open Worker

/-! ## The chunks -/

/-- The fields of the summary. -/
def summaryFields (result : ReplayResult) : List (String × Json) :=
  [("type", .str "REPLAY_COMPLETE"), ("events_replayed", .num (.ofNat result.eventsReplayed)),
    ("output_hash_match", result.outputHashMatch.elim .null .bool)]

/-- The objects after the events, for a client that `stays` or not.  A replay throws when an
`emit` has, on a controller that is closed. -/
def closing (stays : Bool) : Except Thrown ReplayResult → List (List (String × Json))
  | .ok result => if stays then [summaryFields result] else []
  | .error _ => []

/-- What an effect writes to the stream of replay `j`. -/
def replayChunks? (stays : Bool) (j : ℕ) : Effect → List String
  | .replayed k event => if k = j then [chunk (eventFields event)] else []
  | .replaySettled k result => if k = j then (closing stays result).map chunk else []
  | _ => []

/-- `handleReplay`: what it writes to the stream of replay `j`. -/
def replayChunks (stays : Bool) (j : ℕ) (out : List Effect) : List String :=
  out.flatMap (replayChunks? stays j)

/-! ## The effects of a replay -/

/-- The replay an effect belongs to. -/
def replayOf? : Effect → Option ℕ
  | .replayed k _ | .replaySettled k _ => some k
  | _ => none

/-- The effects of replay `j`. -/
def effectsOf (j : ℕ) (out : List Effect) : List Effect := out.filter (replayOf? · = some j)

theorem effectsOf_append (j : ℕ) (out o : List Effect) :
    effectsOf j (out ++ o) = effectsOf j out ++ effectsOf j o :=
  List.filter_append ..

/-- Only the effects of a replay write to its stream. -/
theorem replayChunks_effectsOf (stays : Bool) (j : ℕ) (out : List Effect) :
    replayChunks stays j (effectsOf j out) = replayChunks stays j out := by
  induction out with
  | nil => rfl
  | cons e out ih =>
      have hother : replayOf? e ≠ some j → replayChunks? stays j e = [] := by
        intro he
        cases e with
        | replayed k event => exact if_neg fun hk => he (congrArg some hk)
        | replaySettled k result => exact if_neg fun hk => he (congrArg some hk)
        | _ => rfl
      rw [replayChunks, replayChunks, effectsOf] at ih
      rw [replayChunks, replayChunks, effectsOf, List.flatMap_cons, ← ih]
      by_cases he : replayOf? e = some j
      · rw [List.filter_cons_of_pos (by simpa using he), List.flatMap_cons]
      · rw [List.filter_cons_of_neg (by simpa using he), hother he, List.nil_append]

/-- These events were replayed: those that had been emitted for the task up to some point, all
of them unless an `emit` of the replay has thrown. -/
def ReplayedUpTo (taskId : String) (out : List Effect) (result : Except Thrown ReplayResult)
    (events : List OutboundEvent) : Prop :=
  ∃ out₁, out₁ <+: out ∧
    match result with
    | .ok r => events = emittedFor taskId out₁ ∧ r.eventsReplayed = events.length
    | .error _ => events <+: emittedFor taskId out₁

/-- What the effects of replay `j` are, which is at this point. -/
def ReplayOutput (out : List Effect) (j : ℕ) : Option ReplayCall → Prop
  | some ⟨taskId, _, .settled result⟩ => ∃ events, ReplayedUpTo taskId out result events ∧
      effectsOf j out = events.map (.replayed j) ++ [.replaySettled j result]
  | _ => effectsOf j out = []

/-- What a step from `s` does to replay `j`, and the effects of the replay in it. -/
inductive ReplayGoes (s : Instance) (j : ℕ) :
    Option ReplayCall → Option ReplayCall → List Effect → Prop where
  | still (r : Option ReplayCall) : ReplayGoes s j r r []
  | called (request : TaskReplayRequest) :
      ReplayGoes s j none (some ⟨request.taskId, request.expectedOutputHash,
        .checked (decide (s.worker.eventStore.HasTask request.taskId))⟩) []
  | found {r : ReplayCall} (hphase : r.phase = .checked true) :
      ReplayGoes s j (some r) (some { r with phase := .fetched }) []
  | notFound {r : ReplayCall} (hphase : r.phase = .checked false) :
      ReplayGoes s j (some r)
        (some { r with phase := .settled (.ok (replayNotFound r.taskId)) })
        [.replaySettled j (.ok (replayNotFound r.taskId))]
  /-- Its loop reads the log. -/
  | looped {r : ReplayCall} {events : List OutboundEvent} (hphase : r.phase = .fetched)
      (hevents : events = s.worker.eventStore.getEventsForTask r.taskId) :
      ReplayGoes s j (some r)
        (some { r with phase := .settled (.ok (replaySuccess events r.expectedOutputHash)) })
        (events.map (.replayed j) ++
          [.replaySettled j (.ok (replaySuccess events r.expectedOutputHash))])
  /-- Its loop is cut short by an `emit` that throws. -/
  | threw {r : ReplayCall} {events : List OutboundEvent} (error : Thrown)
      (hphase : r.phase = .fetched)
      (hevents : events <+: s.worker.eventStore.getEventsForTask r.taskId) :
      ReplayGoes s j (some r) (some { r with phase := .settled (.error error) })
        (events.map (.replayed j) ++ [.replaySettled j (.error error)])

section Steps

variable {settings : Settings} {s₀ s s' : Instance} {as : List Action} {a : Action}
variable {out o : List Effect} {j : ℕ}

theorem ReplayedUpTo.append {taskId : String} {result : Except Thrown ReplayResult}
    {events : List OutboundEvent} (h : ReplayedUpTo taskId out result events) (o : List Effect) :
    ReplayedUpTo taskId (out ++ o) result events := by
  obtain ⟨out₁, hpre, h⟩ := h
  exact ⟨out₁, hpre.trans (List.prefix_append out o), h⟩

/-- Effects of other replays change nothing. -/
theorem ReplayOutput.append {r : Option ReplayCall} (h : ReplayOutput out j r)
    (ho : effectsOf j o = []) : ReplayOutput (out ++ o) j r := by
  have heffects : effectsOf j (out ++ o) = effectsOf j out := by
    rw [effectsOf_append, ho, List.append_nil]
  match r, h with
  | some ⟨taskId, expected, .settled result⟩, ⟨events, hevents, h⟩ =>
      exact ⟨events, hevents.append o, heffects.trans h⟩
  | some ⟨taskId, expected, .checked found⟩, h => exact heffects.trans h
  | some ⟨taskId, expected, .fetched⟩, h => exact heffects.trans h
  | none, h => exact heffects.trans h

theorem step_isReplay (ht : TimersActive s) (hstep : (worker settings).step s a = some (s', o))
    (ha : a.isReplay = false) : ∀ e ∈ o, replayOf? e = none := by
  have hnone : ∀ e : Effect, e.isReplay = false → replayOf? e = none := by
    intro e he
    cases e with
    | replayed k event => cases he
    | replaySettled k result => cases he
    | _ => rfl
  cases step_drives ht hstep (Or.inl (rfl : true = true)) with
  | silent hcalls hcall hreplay =>
      rcases hreplay with ha' | hreplay
      · rw [ha] at ha'
        cases ha'
      · exact fun e he => hnone e (hreplay e he)
  | driven hc hdrives =>
      intro e he
      have hown := (hdrives.own e he).1
      cases e with
      | replayed k event => cases hown
      | replaySettled k result => cases hown
      | _ => rfl

theorem effectsOf_eq_nil (h : ∀ e ∈ o, replayOf? e ≠ some j) : effectsOf j o = [] :=
  List.filter_eq_nil_iff.mpr fun e he => by simpa using h e he

/-- The effects of a loop, seen from a replay. -/
theorem effectsOf_loop (j k : ℕ) (events : List OutboundEvent)
    (result : Except Thrown ReplayResult) :
    effectsOf j (events.map (.replayed k) ++ [.replaySettled k result]) =
      if k = j then events.map (.replayed j) ++ [.replaySettled j result] else [] := by
  split
  · next heq =>
    subst heq
    refine List.filter_eq_self.mpr (List.forall_mem_append.mpr ⟨?_, ?_⟩)
    · intro e he
      obtain ⟨event, -, rfl⟩ := List.mem_map.mp he
      simp [replayOf?]
    · simp [replayOf?]
  · next hne =>
    refine effectsOf_eq_nil (List.forall_mem_append.mpr ⟨?_, ?_⟩)
    · intro e he
      obtain ⟨event, -, rfl⟩ := List.mem_map.mp he
      simp [replayOf?, hne]
    · simp [replayOf?, hne]

/-- A replay that has not settled has had no effects. -/
theorem ReplayOutput.pending {r : ReplayCall} (h : ReplayOutput out j (some r))
    (hphase : ∀ result, r.phase ≠ .settled result) : effectsOf j out = [] := by
  match r, h with
  | ⟨_, _, .checked _⟩, h => exact h
  | ⟨_, _, .fetched⟩, h => exact h
  | ⟨_, _, .settled result⟩, _ => exact absurd rfl (hphase result)

/-- A replay settles. -/
theorem ReplayOutput.settled {r : ReplayCall} {result : Except Thrown ReplayResult}
    (events : List OutboundEvent) (hnew : effectsOf j out = [])
    (hevents : ReplayedUpTo r.taskId out result events)
    (ho : effectsOf j o = events.map (.replayed j) ++ [.replaySettled j result]) :
    ReplayOutput (out ++ o) j (some { r with phase := .settled result }) := by
  refine ⟨events, hevents.append _, ?_⟩
  rw [effectsOf_append, hnew, ho]
  rfl

/-- What the loop of a replay does to it. -/
theorem replayLoop_goes {r : ReplayCall} (throws : Option (ℕ × Thrown))
    (hphase : r.phase = .fetched) :
    ∃ (events : List OutboundEvent) (result : Except Thrown ReplayResult),
      s.replayLoop j r throws =
        ({ s with replays := s.replays.set j { r with phase := .settled result } },
          events.map (.replayed j) ++ [.replaySettled j result]) ∧
      ReplayGoes s j (some r) (some { r with phase := .settled result })
        (events.map (.replayed j) ++ [.replaySettled j result]) := by
  unfold Instance.replayLoop
  dsimp only
  cases throws.filter fun t => t.1 < (s.worker.eventStore.getEventsForTask r.taskId).length with
  | none => exact ⟨_, _, rfl, .looped hphase rfl⟩
  | some t => exact ⟨_, _, rfl, .threw t.2 hphase (List.take_prefix t.1 _)⟩

/-- A step as a replay sees it. -/
theorem step_replayGoes (ht : TimersActive s) (hstep : (worker settings).step s a = some (s', o))
    (j : ℕ) : ReplayGoes s j s.replays[j]? s'.replays[j]? (effectsOf j o) := by
  have hother : a.isReplay = false →
      ReplayGoes s j s.replays[j]? s'.replays[j]? (effectsOf j o) := by
    intro ha
    have hnone : effectsOf j o = [] := by
      refine effectsOf_eq_nil fun e he => ?_
      rw [step_isReplay ht hstep ha e he]
      exact Option.some_ne_none j ∘ Eq.symm
    rw [(step_replays ht hstep ha).1, hnone]
    exact .still _
  -- replay `k` goes from `r` to `r'`
  have hset : ∀ {k : ℕ} {r r' : ReplayCall}, s.replays[k]? = some r →
      (k ≠ j → effectsOf j o = []) → (k = j → ReplayGoes s j (some r) (some r') (effectsOf j o)) →
      ReplayGoes s j s.replays[j]? (s.replays.set k r')[j]? (effectsOf j o) := by
    intro k r r' hr hne heq
    by_cases hk : k = j
    · subst hk
      rw [List.getElem?_set_self (List.getElem?_eq_some_iff.mp hr).1, hr]
      exact heq rfl
    · rw [List.getElem?_set_ne hk, hne hk]
      exact .still _
  cases Worker.step_cases hstep with
  | replay request =>
      by_cases hj : j = s.replays.length
      · subst hj
        rw [Instance.replay, List.getElem?_concat_length, List.getElem?_eq_none le_rfl]
        exact .called request
      · rw [Instance.replay, getElem?_concat_of_ne hj]
        exact .still _
  | @found k r hr hphase => exact hset hr (fun _ => rfl) fun _ => .found hphase
  | @notFound k r hr hphase =>
      refine hset hr (fun hk => effectsOf_eq_nil (by simpa [replayOf?] using hk)) ?_
      rintro rfl
      have hown : effectsOf k [.replaySettled k (.ok (replayNotFound r.taskId))] =
          [.replaySettled k (.ok (replayNotFound r.taskId))] :=
        (effectsOf_loop k k [] _).trans (if_pos rfl)
      rw [hown]
      exact .notFound hphase
  | @replayLoop k r throws hr hphase =>
      obtain ⟨events, result, hloop, hgoes⟩ :=
        replayLoop_goes (s := s) (j := k) throws hphase
      rw [hloop] at hset ⊢
      refine hset hr (fun hk => (effectsOf_loop j k events result).trans (if_neg hk)) ?_
      rintro rfl
      rw [effectsOf_loop, if_pos rfl]
      exact hgoes
  | _ => exact hother rfl

theorem ReplayOutput.step (hnew : Created s₀) (hu : (worker settings).run s₀ as = some (s, out))
    (h : ReplayOutput out j s.replays[j]?)
    (hstep : (worker settings).step s a = some (s', o)) :
    ReplayOutput (out ++ o) j s'.replays[j]? := by
  have hgoes := step_replayGoes (run_callsInv hnew hu).timers hstep j
  -- the store is the log of what was emitted up to here
  have hlog := fun taskId => (run_log hnew hu taskId).1
  generalize s.replays[j]? = r at h hgoes
  generalize s'.replays[j]? = r' at hgoes
  generalize ho : effectsOf j o = own at hgoes
  cases hgoes with
  | still => exact h.append ho
  | called request =>
      have hnone : effectsOf j out = [] := h
      show effectsOf j (out ++ o) = []
      rw [effectsOf_append, hnone, ho]
      rfl
  | found hphase =>
      show effectsOf j (out ++ o) = []
      rw [effectsOf_append, h.pending (by simp [hphase]), ho]
      rfl
  | notFound hphase =>
      refine ReplayOutput.settled [] (h.pending (by simp [hphase])) ?_ ho
      exact ⟨[], List.nil_prefix, rfl, rfl⟩
  | looped hphase hevents =>
      refine ReplayOutput.settled _ (h.pending (by simp [hphase])) ⟨out, List.prefix_rfl, ?_⟩ ho
      exact ⟨hevents.trans (hlog _), rfl⟩
  | threw error hphase hevents =>
      refine ReplayOutput.settled _ (h.pending (by simp [hphase])) ⟨out, List.prefix_rfl, ?_⟩ ho
      exact (hlog _) ▸ hevents

theorem run_replayOutput (hnew : Created s₀) (hrun : (worker settings).run s₀ as = some (s, out))
    (j : ℕ) : ReplayOutput out j s.replays[j]? := by
  refine (worker settings).run_history (J := fun _ out s => ReplayOutput out j s.replays[j]?)
    ?_ ?_ hrun
  · intro as out u a u' o hu h hstep
    exact ReplayOutput.step hnew hu h hstep
  · obtain ⟨input, w, clock, -, rfl⟩ := hnew
    exact rfl

end Steps

/-! ## The stream -/

section Streams

variable {settings : Settings} {s₀ s : ServerState} {as : List ServerAction}
variable {out : List ServerEffect} {j : ℕ} {r : ReplayCall}

theorem replayChunks_settled {events : List OutboundEvent} {result : Except Thrown ReplayResult}
    {out : List Effect} (stays : Bool)
    (h : effectsOf j out = events.map (.replayed j) ++ [.replaySettled j result]) :
    replayChunks stays j out =
      ((events.map eventFields ++ closing stays result).map fun fields =>
        (Json.obj fields).stringify).map EventStream.frame := by
  have hevents : (events.map (.replayed j)).flatMap (replayChunks? stays j) =
      (events.map eventFields).map chunk := by
    rw [List.flatMap_map, List.map_map, List.map_eq_flatMap]
    simp [replayChunks?]
  have hclosing : [Effect.replaySettled j result].flatMap (replayChunks? stays j) =
      (closing stays result).map chunk := by
    simp [replayChunks?]
  rw [← replayChunks_effectsOf, h, replayChunks, List.flatMap_append, hevents, hclosing,
    ← List.map_append, List.map_map]
  rfl

/-- A reader of the stream gets the texts of the events and of the objects after them. -/
theorem replayChunks_read {events : List OutboundEvent} {result : Except Thrown ReplayResult}
    {out : List Effect} (stays : Bool)
    (h : effectsOf j out = events.map (.replayed j) ++ [.replaySettled j result]) :
    EventStream.messages (String.join (replayChunks stays j out)) =
      (events.map eventFields ++ closing stays result).map
        (fun fields => (Json.obj fields).stringify) := by
  rw [replayChunks_settled stays h]
  refine EventStream.messages_frames fun data hdata => ?_
  obtain ⟨fields, -, rfl⟩ := List.mem_map.mp hdata
  exact singleLine_stringify _

theorem summaryFields_decode {result : ReplayResult} (hcount : result.eventsReplayed ≤ 2 ^ 53) :
    decode (Json.obj (summaryFields result)).stringify = none := by
  have hevents : (Number.ofNat result.eventsReplayed).IsDouble := Number.isDouble_ofNat hcount
  have hnames : ∀ name ∈ (summaryFields result).map Prod.fst,
      OwnKeys.arrayIndex? name = none := by
    simp only [summaryFields, List.map_cons, List.map_nil]
    decide
  have hordered : OwnKeys.Ordered (summaryFields result) :=
    OwnKeys.ordered_of_names hnames (by simp [summaryFields])
  refine decode_other "REPLAY_COMPLETE" (.obj hordered ?_) rfl (by decide)
  cases hverdict : result.outputHashMatch with
  | none =>
      simp [summaryFields, hverdict, Json.WellFormed.str, Json.WellFormed.num hevents,
        Json.WellFormed.null]
  | some verdict =>
      simp [summaryFields, hverdict, Json.WellFormed.str, Json.WellFormed.num hevents,
        Json.WellFormed.bool]

theorem closing_decode {result : Except Thrown ReplayResult} (stays : Bool)
    (hcount : ∀ r, result = .ok r → r.eventsReplayed ≤ 2 ^ 53) :
    ∀ fields ∈ closing stays result, decode (Json.obj fields).stringify = none := by
  cases result with
  | ok r =>
      cases stays with
      | false => exact List.forall_mem_nil _
      | true => exact List.forall_mem_singleton.mpr (summaryFields_decode (hcount r rfl))
  | error e => exact List.forall_mem_nil _

/-- What is decoded from the texts. -/
theorem replayed_decodes {events : List OutboundEvent} {result : Except Thrown ReplayResult}
    (stays : Bool) (hevents : ∀ event ∈ events, EventDoubles event)
    (hcount : ∀ r, result = .ok r → r.eventsReplayed ≤ 2 ^ 53) :
    ((events.map eventFields ++ closing stays result).map fun fields =>
      (Json.obj fields).stringify).filterMap decode = events.filterMap messageOf := by
  have hclosing : (closing stays result).filterMap
      (decode ∘ fun fields => (Json.obj fields).stringify) = [] :=
    List.filterMap_eq_nil_iff.mpr (closing_decode stays hcount)
  rw [List.map_append, List.filterMap_append, List.map_map, List.filterMap_map,
    List.filterMap_map, hclosing, List.append_nil]
  exact List.filterMap_congr fun event he => decode_event (hevents event he)

/-- What is replayed was emitted by a call. -/
theorem ReplayedUpTo.doubles {taskId : String} {out : List Effect} {events : List OutboundEvent}
    {result : Except Thrown ReplayResult} (h : ReplayedUpTo taskId out result events)
    (hsent : ∀ e ∈ out, Sendable e) : ∀ event ∈ events, EventDoubles event := by
  obtain ⟨out₁, hbefore, h⟩ := h
  have hsubset : ∀ event ∈ events, event ∈ emittedFor taskId out₁ := by
    cases result with
    | ok r =>
        rw [h.1]
        exact fun event he => he
    | error e => exact fun event he => h.subset he
  intro event he
  obtain ⟨e, hmem, hevent⟩ := List.mem_filterMap.mp (hsubset event he)
  cases e with
  | emitted i event' =>
      obtain ⟨-, heq⟩ := Option.ite_none_right_eq_some.mp hevent
      obtain rfl := Option.some.inj heq
      exact hsent _ (hbefore.subset hmem)
  | _ => cases hevent

/-- The stream of a replay is read as the texts of the events that had been emitted for the
task up to some point of the run, and then, if the client stays, the summary, which counts
them.  When an `emit` of the replay has thrown, some of them are missing at the end, and
nothing comes after the others. -/
theorem replay_stream_reads (hstart : Started s₀)
    (hrun : (server settings).run s₀ as = some (s, out))
    (hsent : ∀ e ∈ workerEffects out, Sendable e) (hr : s.worker.replays[j]? = some r)
    {result : Except Thrown ReplayResult} (hresult : r.phase = .settled result)
    (hcount : ∀ r, result = .ok r → r.eventsReplayed ≤ 2 ^ 53) (stays : Bool) :
    ∃ events, ReplayedUpTo r.taskId (workerEffects out) result events ∧
      EventStream.messages (String.join (replayChunks stays j (workerEffects out))) =
        (events.map eventFields ++ closing stays result).map
          (fun fields => (Json.obj fields).stringify) ∧
      (EventStream.messages
          (String.join (replayChunks stays j (workerEffects out)))).filterMap decode =
        events.filterMap messageOf := by
  obtain ⟨w₀, hnew, rfl⟩ := hstart
  obtain ⟨as', hworker⟩ := run_worker hrun
  have houtput := run_replayOutput hnew hworker j
  rw [hr] at houtput
  obtain ⟨taskId, expected, phase⟩ := r
  obtain rfl : phase = .settled result := hresult
  obtain ⟨events, hevents, heffects⟩ := houtput
  refine ⟨events, hevents, replayChunks_read stays heffects, ?_⟩
  rw [replayChunks_read stays heffects]
  exact replayed_decodes stays (hevents.doubles hsent) hcount

end Streams

/-- A task fails and is replayed. -/
theorem replay_stream_reads_failed :
    let turn : Turn := ⟨0, ⟨0, none⟩, ⟨0, none⟩⟩
    let as : List ServerAction :=
      [.submit (.request ⟨"t1", some (.obj [("prompt", .str "a")])⟩ none) turn,
        .worker (.start 0 0), .worker (.settle 0 (.error (.ofMessage "timeout")) turn),
        .worker (.finish 0), .worker (.replay ⟨"t1", some "hash"⟩), .worker (.replayChecked 0),
        .worker (.replayLoop 0 none)]
    ∃ s₀ s out, Started s₀ ∧ (server ⟨0, 5000, id⟩).run s₀ as = some (s, out) ∧
      ∃ events, ReplayedUpTo "t1" (workerEffects out) (.ok ⟨true, 2, none, none⟩) events ∧
        EventStream.messages (String.join (replayChunks true 0 (workerEffects out))) =
          (events.map eventFields ++ [summaryFields ⟨true, 2, none, none⟩]).map
            (fun fields => (Json.obj fields).stringify) ∧
        (EventStream.messages (String.join (replayChunks true 0 (workerEffects out)))).filterMap
          decode = events.filterMap messageOf := by
  intro turn as
  have hstart := started_ofDefaults
  have hruns : ((server ⟨0, 5000, id⟩).run (.init .ofDefaults) as).isSome = true := rfl
  obtain ⟨⟨s, out⟩, hrun⟩ := Option.isSome_iff_exists.mp hruns
  let accepted : OutboundEvent := .taskAccepted "t1" "w1" 1
  let failed : OutboundEvent := .taskFailed "t1" "w1" .timeout true "timeout" 2
  have heffects : workerEffects out = [.acquired 0 "t1", .emitted 0 accepted,
      .recorded 0 "t1" accepted, .emitted 0 failed, .recorded 0 "t1" failed, .released 0 "t1",
      .settled 0 none, .replayed 0 accepted, .replayed 0 failed,
      .replaySettled 0 (.ok ⟨true, 2, none, none⟩)] := by
    obtain ⟨-, rfl⟩ := Prod.mk.inj (Option.some.inj hrun)
    rfl
  have haccepted : EventDoubles accepted := Number.isDouble_ofNat (n := 1) (by norm_num)
  have hfailed : EventDoubles failed := Number.isDouble_ofNat (n := 2) (by norm_num)
  have hsent : ∀ e ∈ workerEffects out, Sendable e := by
    rw [heffects]
    simp [Sendable, haccepted, hfailed]
  have hreplay : s.worker.replays[0]? =
      some ⟨"t1", some "hash", .settled (.ok ⟨true, 2, none, none⟩)⟩ := by
    obtain ⟨rfl, -⟩ := Prod.mk.inj (Option.some.inj hrun)
    rfl
  refine ⟨_, s, out, hstart, hrun, replay_stream_reads hstart hrun hsent hreplay rfl ?_ true⟩
  rintro r ⟨⟩
  norm_num

end L0Worker.Server
