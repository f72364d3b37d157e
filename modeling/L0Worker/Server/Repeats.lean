import L0Worker.Server.ReplayStream
import L0Worker.Worker.Turns

/-!
# A replay repeats the streams

The handler of a submission writes the events of its call to one stream, and the handler of a
replay writes the log of its task to another.  A client that decodes the stream of a replay
gets what the clients of the calls for the task had got from theirs: nothing is missing of
what they had got when the replay was asked for, and nothing is there that none of them has
got in the end (`replay_repeats_streams`).

`told_eq` and `replay_decodes` say what is decoded from the two kinds of streams, in terms of
the effects of the worker.  `Heard` is the invariant behind the lower bound.
-/

namespace L0Worker.Server

open Worker

/-! ## What is decoded -/

/-- What a client decodes from the chunks of a stream. -/
def decoded (chunks : List String) : List OutboundMessage :=
  (EventStream.messages (String.join chunks)).filterMap decode

/-- The task that a message is about. -/
def OutboundMessage.taskId? : OutboundMessage → Option String
  | .taskAccepted taskId _ _ | .taskProgress taskId _ _ _ | .taskCompleted taskId _ _ _ _ _
  | .taskFailed taskId _ _ _ _ _ => some taskId
  | _ => none

/-- What the clients of the calls for a task decode from their streams, about the task. -/
def told (load : ℕ → Load) (stays : ℕ → Bool) (taskId : String) (out : List Effect) :
    List OutboundMessage :=
  (callsFor taskId out).flatMap fun i =>
    (decoded (submitChunks (load i) i (stays i) out)).filter fun message =>
      message.taskId? = some taskId

theorem messageOf_taskId? {event : OutboundEvent} {message : OutboundMessage}
    (h : messageOf event = some message) : message.taskId? = event.taskId? := by
  cases event with
  | taskCompleted taskId workerId metrics outputHash output ts =>
      obtain ⟨-, h⟩ := Option.ite_none_right_eq_some.mp h
      obtain rfl := Option.some.inj h
      rfl
  | _ =>
      obtain rfl := Option.some.inj h
      rfl

/-! ## The stream of a call -/

section Calls

variable {i : ℕ} {out : List Effect}

/-- What is decoded from the stream of a call, at any point of a run. -/
theorem submitChunks_decodes (hsent : ∀ e ∈ out, Sendable e) {load : Load}
    (hload : load.inflight ≤ 2 ^ 53 ∧ load.max.IsDouble) (stays : Bool) :
    decoded (submitChunks load i stays out) = (emittedBy i out).filterMap messageOf := by
  cases hsettled : out.findSome? (settled? i) with
  | some error => exact submitChunks_decodes_settled hsent hload hsettled stays
  | none =>
      have hopen : submitChunks load i stays out = (sentBy i out).map chunk := by
        rw [List.findSome?_eq_none_iff] at hsettled
        induction out generalizing stays with
        | nil => rfl
        | cons e out ih =>
            obtain ⟨he, hout⟩ := List.forall_mem_cons.mp hsettled
            rw [submitChunks, sentBy, he]
            dsimp only
            rw [ih (List.forall_mem_cons.mp hsent).2 _ hout, List.map_append]
            cases sent? i e <;> rfl
      have hreads : StreamReads (sentBy i out) false ((sentBy i out).map chunk) :=
        chunks_read _ _ (by simp [EventStream.frame, chunk])
      rw [decoded, hopen, hreads.read, ← sentBy_decodes hsent]
      simp

theorem emittedBy?_eq_none {e : Effect} (h : e.call? ≠ some i) : emittedBy? i e = none := by
  cases e with
  | emitted j event => exact if_neg fun hj => h (congrArg some hj)
  | _ => rfl

theorem settled?_eq_none {e : Effect} (h : e.call? ≠ some i) : settled? i e = none := by
  cases e with
  | settled j error => exact if_neg fun hj => h (congrArg some hj)
  | _ => rfl

theorem filterMap_emittedBy_eq_nil (h : outputsOf Effect.call? i out = []) :
    out.filterMap (emittedBy? i) = [] := by
  refine List.filterMap_eq_nil_iff.mpr fun e he => emittedBy?_eq_none fun hcall => ?_
  exact List.filter_eq_nil_iff.mp h e he (decide_eq_true hcall)

/-- The stream of a call that follows its account has everything that the call emits, since
nothing comes after the effect that settles it. -/
theorem emittedBy_eq {q q' : Stage}
    (h : accept (Stage.next false) q (outputsOf Effect.call? i out) = some q') :
    emittedBy i out = out.filterMap (emittedBy? i) := by
  induction out generalizing q with
  | nil => rfl
  | cons e out ih =>
      by_cases he : e.call? = some i
      · rw [outputsOf, List.filter_cons_of_pos (by simpa using he)] at h
        obtain ⟨q₁, hq₁, h⟩ := Option.bind_eq_some_iff.mp h
        rw [emittedBy]
        cases hsettled : settled? i e with
        | none =>
            dsimp only
            rw [ih h, List.filterMap_cons]
            cases emittedBy? i e <;> rfl
        | some error =>
            cases e with
            | settled j error' =>
                obtain ⟨reported, rfl⟩ := Stage.next_settled hq₁
                rw [List.filterMap_cons_none rfl,
                  filterMap_emittedBy_eq_nil (accept_settled h).1]
            | _ => cases hsettled
      · rw [outputsOf, List.filter_cons_of_neg (by simpa using he)] at h
        rw [emittedBy, settled?_eq_none he, List.filterMap_cons_none (emittedBy?_eq_none he)]
        dsimp only
        rw [emittedBy?_eq_none he, ih h]
        rfl

end Calls

section Tasks

variable {settings : Settings} {w₀ w : Instance} {bs : List Action} {out : List Effect}
variable {load : ℕ → Load} {stays : ℕ → Bool} {taskId : String}

/-- The client of a call decodes the events of its task. -/
theorem taskEventsOf_decodes (hnew : Created w₀)
    (hrun : (worker settings).run w₀ bs = some (w, out))
    (hcb : (worker settings).Along (fun s a _ _ => a.CallsBackInTime s) w₀ bs)
    (hsent : ∀ e ∈ out, Sendable e)
    (hload : ∀ i, (load i).inflight ≤ 2 ^ 53 ∧ (load i).max.IsDouble) {i : ℕ}
    (hi : i ∈ callsFor taskId out) :
    (decoded (submitChunks (load i) i (stays i) out)).filter
      (fun message => message.taskId? = some taskId) =
        (taskEventsOf i out).filterMap messageOf := by
  obtain ⟨c, hc, -, htask⟩ := run_owned hnew hrun _ (mem_callsFor.mp hi) i rfl
  have hcb' := hcb.mono (I := fun _ => True) (fun _ _ _ _ _ _ h => Or.inr (a := false = true) h)
    (fun _ _ _ _ _ _ _ => trivial) trivial
  rw [submitChunks_decodes hsent (hload i) (stays i), emittedBy_eq (run_tracks hnew hrun hcb' i),
    List.filterMap_filterMap, List.filter_filterMap, taskEventsOf, List.filterMap_filterMap,
    outputsOf, List.filterMap_filter]
  refine List.filterMap_congr fun e he => ?_
  cases e with
  | emitted k event =>
      by_cases hk : k = i
      · subst hk
        obtain ⟨c', hc', -, hid⟩ := run_owned hnew hrun _ he k rfl
        obtain rfl := Option.some.inj (hc.symm.trans hc')
        have hself : emittedBy? k (.emitted k event) = some event := if_pos rfl
        cases hsome : event.taskId? with
        | none =>
            cases hmessage : messageOf event with
            | none => simp [hself, Effect.taskEvent?, hmessage, hsome]
            | some message =>
                simp [hself, Effect.taskEvent?, hmessage, hsome, messageOf_taskId? hmessage]
        | some id =>
            obtain rfl : id = taskId := (hid id hsome).trans (htask taskId rfl).symm
            cases hmessage : messageOf event with
            | none => simp [hself, Effect.call?, Effect.taskEvent?, hmessage, hsome]
            | some message =>
                simp [hself, Effect.call?, Effect.taskEvent?, hmessage, hsome,
                  messageOf_taskId? hmessage]
      · simp [emittedBy?, Effect.call?, hk]
  | _ => simp [emittedBy?, Effect.taskEvent?]

/-- The clients of the calls for a task decode what was emitted for the task. -/
theorem told_eq (hnew : Created w₀) (hrun : (worker settings).run w₀ bs = some (w, out))
    (hcb : (worker settings).Along (fun s a _ _ => a.CallsBackInTime s) w₀ bs)
    (hsent : ∀ e ∈ out, Sendable e)
    (hload : ∀ i, (load i).inflight ≤ 2 ^ 53 ∧ (load i).max.IsDouble) :
    told load stays taskId out = (emittedFor taskId out).filterMap messageOf := by
  rw [emittedFor_eq hnew hrun hcb taskId, List.filterMap_flatMap]
  exact List.flatMap_congr fun i hi => taskEventsOf_decodes hnew hrun hcb hsent hload hi

end Tasks

/-! ## The stream of a replay -/

/-- What a replay that was asked for after `floor` has to repeat, at this point. -/
def Heard (floor out : List Effect) (j : ℕ) : Option ReplayCall → Prop
  | some ⟨taskId, _, .checked false⟩ => emittedFor taskId floor = []
  | some ⟨taskId, _, .settled (.ok _)⟩ => emittedFor taskId floor <+: replayedBy j out
  | _ => True

section Replays

variable {settings : Settings} {s₀ s s' : Instance} {as : List Action} {a : Action}
variable {floor out o : List Effect} {j : ℕ}

theorem emittedFor_append (taskId : String) (out o : List Effect) :
    emittedFor taskId (out ++ o) = emittedFor taskId out ++ emittedFor taskId o :=
  List.filterMap_append ..

theorem emittedFor_mono (taskId : String) (h : floor <+: out) :
    emittedFor taskId floor <+: emittedFor taskId out := by
  obtain ⟨o, rfl⟩ := h
  rw [emittedFor_append]
  exact List.prefix_append _ _

theorem replayedBy_effectsOf (j : ℕ) (out : List Effect) :
    replayedBy j (effectsOf j out) = replayedBy j out := by
  unfold replayedBy effectsOf
  rw [List.filterMap_filter]
  refine List.filterMap_congr fun e _ => ?_
  cases e with
  | replayed k event => simp [replayOf?, Effect.replayedBy?]
  | replaySettled k result => simp [Effect.replayedBy?]
  | _ => simp [Effect.replayedBy?]

theorem replayedBy_settled {events : List OutboundEvent} {result : Except Thrown ReplayResult}
    (h : effectsOf j out = events.map (.replayed j) ++ [.replaySettled j result]) :
    replayedBy j out = events := by
  rw [← replayedBy_effectsOf, h, replayedBy_loop, if_pos rfl]

theorem replayedBy_own {events : List OutboundEvent} {result : Except Thrown ReplayResult}
    (hnew : effectsOf j out = [])
    (ho : effectsOf j o = events.map (.replayed j) ++ [.replaySettled j result]) :
    replayedBy j (out ++ o) = events := by
  refine replayedBy_settled (Eq.trans ?_ ho)
  rw [effectsOf_append, hnew, List.nil_append]

theorem Heard.append {r : Option ReplayCall} (h : Heard floor out j r)
    (ho : effectsOf j o = []) : Heard floor (out ++ o) j r := by
  match r, h with
  | some ⟨taskId, expected, .settled (.ok result)⟩, h =>
      show _ <+: replayedBy j (out ++ o)
      rw [replayedBy_append, ← replayedBy_effectsOf j o, ho]
      exact h.trans (List.prefix_append _ _)
  | some ⟨taskId, expected, .settled (.error error)⟩, _ => exact trivial
  | some ⟨taskId, expected, .checked false⟩, h => exact h
  | some ⟨taskId, expected, .checked true⟩, _ => exact trivial
  | some ⟨taskId, expected, .fetched⟩, _ => exact trivial
  | none, _ => exact trivial

theorem Heard.step (hnew : Created s₀) (hu : (worker settings).run s₀ as = some (s, out))
    (hfloor : floor <+: out) (h : Heard floor out j s.replays[j]?)
    (hstep : (worker settings).step s a = some (s', o)) :
    Heard floor (out ++ o) j s'.replays[j]? := by
  have hgoes := step_replayGoes (run_callsInv hnew hu).timers hstep j
  have houtput := run_replayOutput hnew hu j
  have hlog := fun taskId => run_log hnew hu taskId
  generalize s.replays[j]? = r at h hgoes houtput
  generalize s'.replays[j]? = r' at hgoes
  generalize ho : effectsOf j o = own at hgoes
  cases hgoes with
  | still => exact h.append ho
  | called request =>
      cases hfound : decide (s.worker.eventStore.HasTask request.taskId) with
      | true => exact trivial
      | false =>
          -- the store has nothing, so nothing had been emitted
          have hnone : emittedFor request.taskId out = [] :=
            not_not.mp fun hne => of_decide_eq_false hfound ((hlog request.taskId).2.mpr hne)
          exact List.prefix_nil.mp (hnone ▸ emittedFor_mono request.taskId hfloor)
  | found hphase => exact trivial
  | @notFound r hphase =>
      obtain ⟨taskId, expected, phase⟩ := r
      obtain rfl : phase = .checked false := hphase
      have hnone : emittedFor taskId floor = [] := h
      show emittedFor taskId floor <+: _
      rw [hnone]
      exact List.nil_prefix
  | @looped r events hphase hevents =>
      show emittedFor r.taskId floor <+: replayedBy j (out ++ o)
      rw [replayedBy_own (houtput.pending (by simp [hphase])) ho, hevents, (hlog r.taskId).1]
      exact emittedFor_mono r.taskId hfloor
  | threw error hphase hevents => exact trivial

/-- A replay that was asked for after a run repeats what had been emitted in it. -/
theorem run_heard {bs : List Action} (hnew : Created s₀)
    (hrun : (worker settings).run s₀ as = some (s, out))
    (hrun' : (worker settings).run s bs = some (s', o))
    (hj : s.replays.length ≤ j) : Heard out (out ++ o) j s'.replays[j]? := by
  refine (worker settings).run_history
    (J := fun _ o s' => Heard out (out ++ o) j s'.replays[j]?) ?_ ?_ hrun'
  · intro bs o u a u' o' hu h hstep
    rw [← List.append_assoc]
    have hrunu : (worker settings).run s₀ (as ++ bs) = some (u, out ++ o) :=
      (worker settings).run_append_iff.mpr ⟨s, out, o, hrun, hu, rfl⟩
    exact Heard.step hnew hrunu (List.prefix_append out o) h hstep
  · rw [List.getElem?_eq_none hj]
    exact trivial

end Replays

/-! ## Runs of the server -/

/-- No executor calls back after it has settled. -/
def ServerAction.CallsBackInTime (s : ServerState) : ServerAction → Prop
  | .worker a => a.CallsBackInTime s.worker
  | _ => True

section Runs

variable {settings : Settings} {s₀ s s' : ServerState} {as as' : List ServerAction}
variable {out out' : List ServerEffect} {j : ℕ} {r : ReplayCall}

theorem run_inTime (hrun : (server settings).run s as = some (s', out))
    (hcb : (server settings).Along (fun s a _ _ => a.CallsBackInTime s) s as) :
    ∃ bs, (Worker.worker settings).run s.worker bs = some (s'.worker, workerEffects out) ∧
      (Worker.worker settings).Along (fun s a _ _ => a.CallsBackInTime s) s.worker bs := by
  induction as generalizing s out with
  | nil =>
      obtain ⟨rfl, rfl⟩ := Prod.mk.inj (Option.some.inj hrun)
      exact ⟨[], rfl, trivial⟩
  | cons a as ih =>
      obtain ⟨u, o, o', hu, ht, rfl⟩ := (server settings).run_cons_iff.mp hrun
      rw [Machine.along_cons_iff hu] at hcb
      obtain ⟨bs, hbs, hin⟩ := ih ht hcb.2
      rw [workerEffects_append]
      cases step_worker hu with
      | still hw ho =>
          rw [hw] at hbs hin
          rw [ho]
          exact ⟨bs, hbs, hin⟩
      | submitted ha haccepting hstep =>
          exact ⟨_ :: bs, (Worker.worker settings).run_cons_iff.mpr ⟨_, _, _, hstep, hbs, rfl⟩,
            _, _, hstep, trivial, hin⟩
      | inner ha hinner hstep =>
          subst ha
          exact ⟨_ :: bs, (Worker.worker settings).run_cons_iff.mpr ⟨_, _, _, hstep, hbs, rfl⟩,
            _, _, hstep, hcb.1, hin⟩

/-- In every run of a server in which no executor calls back after it has settled, the client of
a replay that was asked for after `out`, and that got through, decodes, in order, everything that
the clients of the calls for the task had decoded at that point, and nothing that they have not
decoded in the end. -/
theorem replay_repeats_streams (hstart : Started s₀)
    (hrun : (server settings).run s₀ as = some (s, out))
    (hrun' : (server settings).run s as' = some (s', out'))
    (hcb : (server settings).Along (fun s a _ _ => a.CallsBackInTime s) s₀ as)
    (hcb' : (server settings).Along (fun s a _ _ => a.CallsBackInTime s) s as')
    (hsent : ∀ e ∈ workerEffects (out ++ out'), Sendable e) {load : ℕ → Load}
    (hload : ∀ i, (load i).inflight ≤ 2 ^ 53 ∧ (load i).max.IsDouble) (stays : ℕ → Bool)
    (hj : s.worker.replays.length ≤ j) (hr : s'.worker.replays[j]? = some r)
    {result : ReplayResult} (hresult : r.phase = .settled (.ok result))
    (hcount : result.eventsReplayed ≤ 2 ^ 53) (stays' : Bool) :
    told load stays r.taskId (workerEffects out) <+:
        decoded (replayChunks stays' j (workerEffects (out ++ out'))) ∧
      decoded (replayChunks stays' j (workerEffects (out ++ out'))) <+:
        told load stays r.taskId (workerEffects (out ++ out')) := by
  obtain ⟨w₀, hnew, rfl⟩ := hstart
  obtain ⟨taskId, expected, phase⟩ := r
  obtain rfl : phase = .settled (.ok result) := hresult
  -- the runs of the worker: up to the point, from there on, and both
  obtain ⟨bs, hbs, hin⟩ := run_inTime hrun hcb
  obtain ⟨bs', hbs', hin'⟩ := run_inTime hrun' hcb'
  have hwhole := (Worker.worker settings).run_append_iff.mpr ⟨_, _, _, hbs, hbs', rfl⟩
  have hin' := hin.append hbs hin'
  rw [workerEffects_append] at hsent ⊢
  have hsent₁ := (List.forall_mem_append.mp hsent).1
  have houtput := run_replayOutput hnew hwhole j
  rw [hr] at houtput
  obtain ⟨events, hevents, heffects⟩ := houtput
  have hheard := run_heard hnew hbs hbs' hj
  rw [hr] at hheard
  have hlower : emittedFor taskId (workerEffects out) <+: events :=
    replayedBy_settled heffects ▸ hheard
  have hupper : events <+: emittedFor taskId (workerEffects out ++ workerEffects out') := by
    obtain ⟨out₁, hbefore, hall, -⟩ := hevents
    exact hall ▸ emittedFor_mono taskId hbefore
  have hdecoded : decoded (replayChunks stays' j (workerEffects out ++ workerEffects out')) =
      events.filterMap messageOf := by
    rw [decoded, replayChunks_read stays' heffects]
    refine replayed_decodes stays' (hevents.doubles hsent) ?_
    rintro r ⟨⟩
    exact hcount
  rw [hdecoded, told_eq hnew hbs hin hsent₁ hload, told_eq hnew hwhole hin' hsent hload]
  exact ⟨hlower.filterMap messageOf, hupper.filterMap messageOf⟩

end Runs

/-- A task fails, a replay is asked for, and the task is submitted again before the replay
reads the log.  The second call still runs. -/
theorem replay_repeats_streams_resubmitted :
    let turn : Turn := ⟨0, ⟨0, none⟩, ⟨0, none⟩⟩
    let submit : ServerAction :=
      .submit (.request ⟨"t1", some (.obj [("prompt", .str "a")])⟩ none) turn
    let as : List ServerAction :=
      [submit, .worker (.start 0 0), .worker (.settle 0 (.error (.ofMessage "timeout")) turn),
        .worker (.finish 0)]
    let as' : List ServerAction :=
      [.worker (.replay ⟨"t1", some "hash"⟩), submit, .worker (.replayChecked 0),
        .worker (.replayLoop 0 none)]
    ∃ s₀ s s' out out', Started s₀ ∧ (server ⟨0, 5000, id⟩).run s₀ as = some (s, out) ∧
      (server ⟨0, 5000, id⟩).run s as' = some (s', out') ∧
      (replayedBy 0 (workerEffects (out ++ out'))).map OutboundEvent.ts = [1, 2, 3] ∧
      told (fun _ => ⟨0, 4⟩) (fun _ => true) "t1" (workerEffects out) <+:
        decoded (replayChunks true 0 (workerEffects (out ++ out'))) ∧
      decoded (replayChunks true 0 (workerEffects (out ++ out'))) <+:
        told (fun _ => ⟨0, 4⟩) (fun _ => true) "t1" (workerEffects (out ++ out')) := by
  intro turn submit as as'
  have hstart := started_ofDefaults
  let accepted : OutboundEvent := .taskAccepted "t1" "w1" 1
  let failed : OutboundEvent := .taskFailed "t1" "w1" .timeout true "timeout" 2
  let again : OutboundEvent := .taskAccepted "t1" "w1" 3
  let effects : List Effect := [.acquired 0 "t1", .emitted 0 accepted,
    .recorded 0 "t1" accepted, .emitted 0 failed, .recorded 0 "t1" failed, .released 0 "t1",
    .settled 0 none, .acquired 1 "t1", .emitted 1 again, .recorded 1 "t1" again,
    .replayed 0 accepted, .replayed 0 failed, .replayed 0 again,
    .replaySettled 0 (.ok ⟨true, 3, none, none⟩)]
  have hruns : ((server ⟨0, 5000, id⟩).run (.init .ofDefaults) (as ++ as')).map
      (fun p => (workerEffects p.2, p.1.worker.replays[0]?)) =
        some (effects, some ⟨"t1", some "hash", .settled (.ok ⟨true, 3, none, none⟩)⟩) := rfl
  have hfirst : ((server ⟨0, 5000, id⟩).run (.init .ofDefaults) as).map
      (fun p => p.1.worker.replays.length) = some 0 := rfl
  obtain ⟨⟨s', whole⟩, hwhole, hout⟩ := Option.map_eq_some_iff.mp hruns
  obtain ⟨heffects, hreplay⟩ := Prod.mk.inj hout
  obtain ⟨s, out, out', hrun, hrun', rfl⟩ := (server ⟨0, 5000, id⟩).run_append_iff.mp hwhole
  rw [hrun] at hfirst
  have hlength : s.worker.replays.length = 0 := Option.some.inj hfirst
  have haccepted : EventDoubles accepted := Number.isDouble_ofNat (n := 1) (by norm_num)
  have hfailed : EventDoubles failed := Number.isDouble_ofNat (n := 2) (by norm_num)
  have hagain : EventDoubles again := Number.isDouble_ofNat (n := 3) (by norm_num)
  have hmax : (4 : Number).IsDouble := Number.isDouble_ofNat (n := 4) (by norm_num)
  have hsent : ∀ e ∈ workerEffects (out ++ out'), Sendable e := by
    rw [heffects]
    simp [effects, Sendable, haccepted, hfailed, hagain]
  have hts : (replayedBy 0 (workerEffects (out ++ out'))).map OutboundEvent.ts = [1, 2, 3] := by
    rw [heffects]
    rfl
  have hcb : ∀ a ∈ as ++ as', ∀ s, a.CallsBackInTime s := by
    simp [as, as', submit, ServerAction.CallsBackInTime, Action.CallsBackInTime]
  obtain ⟨hcb, hcb'⟩ := List.forall_mem_append.mp hcb
  have hload : ∀ i : ℕ, ((fun _ => ⟨0, 4⟩ : ℕ → Load) i).inflight ≤ 2 ^ 53 ∧
      ((fun _ => ⟨0, 4⟩ : ℕ → Load) i).max.IsDouble := fun _ => ⟨Nat.zero_le _, hmax⟩
  have hcount : (⟨true, 3, none, none⟩ : ReplayResult).eventsReplayed ≤ 2 ^ 53 := by norm_num
  have hrepeats := replay_repeats_streams hstart hrun hrun'
    (Machine.along_of_actions (fun a ha s _ _ => hcb a ha s) hrun)
    (Machine.along_of_actions (fun a ha s _ _ => hcb' a ha s) hrun') hsent hload (fun _ => true)
    hlength.le hreplay rfl hcount true
  exact ⟨.init .ofDefaults, s, s', out, out', hstart, hrun, hrun', hts, hrepeats⟩

end L0Worker.Server
