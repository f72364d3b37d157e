import L0Worker.Lib.Sessions
import L0Worker.Worker.Conversation
import L0Worker.Worker.Replay

/-!
# The calls of a task take turns

A task has a slot while a call for it is active, so its calls come one after the other: the
events of the task are those of the first call, then those of the second, and so on
(`emittedFor_eq`), and its log is their conversations (`task_log_conversations`).  Executors
that call back after they have settled are excluded, and for the log also those that reject
with something that the `catch` block cannot read.
-/

namespace L0Worker.Worker

/-- What an effect says about the calls of its task. -/
def Effect.mark : Effect → SessionMark Nat
  | .acquired i _ => .begins i
  | .released i _ => .ends i
  | .recorded i _ _ => .within i
  | .emitted i event | .emitThrew i event =>
      if event.taskId?.isSome then .within i else .outside
  | _ => .outside

/-- The call that has the slot of a task. -/
def Instance.callOf (s : Instance) (taskId : String) : Option Nat :=
  s.calls.findIdx? fun c => c.isActive && decide (c.taskId = taskId)

/-- The calls for a task, in the order in which they got its slot. -/
def callsFor (taskId : String) (out : List Effect) : List Nat :=
  SessionMark.sessions Effect.mark (outputsOf Effect.taskId? taskId out)

/-- The call has the slot of its task. -/
def Stage.holds : Stage → Bool
  | .idle | .released _ | .settled _ => false
  | _ => true

/-! ## One call -/

theorem Effect.mark_of_taskId? {e : Effect} (h : e.taskId? = none) : e.mark = .outside := by
  cases e with
  | emitted i event | emitThrew i event =>
      have hnone : event.taskId? = none := h
      simp [Effect.mark, hnone]
  | acquired | released | recorded => cases h
  | _ => rfl

/-- A call begins when it acquires the slot. -/
theorem Effect.begun?_mark {e : Effect} {i : Nat} :
    e.mark.begun? = some i ↔ e.isAcquired = true ∧ e.call? = some i := by
  cases e with
  | acquired k id => simp [Effect.mark, SessionMark.begun?, Effect.isAcquired, Effect.call?]
  | emitted k event | emitThrew k event =>
      cases hevent : event.taskId?.isSome <;>
        simp [Effect.mark, SessionMark.begun?, Effect.isAcquired, hevent]
  | _ => simp [Effect.mark, SessionMark.begun?, Effect.isAcquired]

/-- A call that follows the account has its slot from `acquired` to `released`. -/
theorem Stage.next_holds {q q' : Stage} {e : Effect} {i : Nat} (h : q.next false e = some q')
    (hi : e.call? = some i) :
    SessionMark.next Effect.mark (if q.holds then some i else none) e =
      some (if q'.holds then some i else none) := by
  unfold Stage.next at h
  split at h
  all_goals
    grind [SessionMark.next, SessionMark.move, Effect.mark, Effect.call?, Stage.holds,
      Stage.eq_running_of_listens, Stage.isOpen, OutboundEvent.taskId?]

theorem accept_holds {q q' : Stage} {o : List Effect} {i : Nat}
    (h : accept (Stage.next false) q o = some q') (hi : ∀ e ∈ o, e.call? = some i) :
    accept (SessionMark.next Effect.mark) (if q.holds then some i else none) o =
      some (if q'.holds then some i else none) := by
  induction o generalizing q with
  | nil =>
      obtain rfl := Option.some.inj h
      rfl
  | cons e o ih =>
      obtain ⟨q₁, hq₁, h⟩ := Option.bind_eq_some_iff.mp h
      obtain ⟨he, ho⟩ := List.forall_mem_cons.mp hi
      rw [accept_cons, Stage.next_holds hq₁ he]
      exact ih h ho

/-- Nothing comes from a call that has settled. -/
theorem accept_settled {reported : Bool} {q : Stage} {o : List Effect}
    (h : accept (Stage.next false) (.settled reported) o = some q) :
    o = [] ∧ q = .settled reported := by
  cases o with
  | nil => exact ⟨rfl, (Option.some.inj h).symm⟩
  | cons e o =>
      obtain ⟨q₁, hq₁, -⟩ := Option.bind_eq_some_iff.mp h
      exfalso
      unfold Stage.next at hq₁
      split at hq₁
      all_goals simp_all [Stage.listens, Stage.isOpen]

/-- A call that settles has settled. -/
theorem Stage.next_settled {q q' : Stage} {i : Nat} {error : Option Thrown}
    (h : q.next false (.settled i error) = some q') : ∃ reported, q' = .settled reported := by
  unfold Stage.next at h
  split at h
  all_goals simp_all

theorem Phase.stage_holds (c : Call) : c.phase.stage.holds = c.isActive := by
  unfold Call.isActive
  cases c.phase with
  | settled error => cases error <;> rfl
  | _ => rfl

theorem Phase.stage_of_inactive {c : Call} (h : c.isActive = false) :
    ∃ reported, c.phase.stage = .settled reported := by
  unfold Call.isActive at h
  cases hp : c.phase with
  | settled error => cases error with
    | none => exact ⟨true, rfl⟩
    | some e => exact ⟨false, rfl⟩
  | _ =>
      rw [hp] at h
      cases h

/-! ## The call that has the slot -/

section Calls

variable {settings : Settings} {s s' : Instance} {taskId : String} {i : Nat}

theorem callOf_eq_none_iff : s.callOf taskId = none ↔
    ∀ (k : Nat) (c : Call), s.calls[k]? = some c → c.isActive = true → c.taskId ≠ taskId := by
  rw [Instance.callOf, List.findIdx?_eq_none_iff]
  simp only [Bool.and_eq_false_imp, decide_eq_false_iff_not, List.mem_iff_getElem?]
  exact ⟨fun h k c hc => h c ⟨k, hc⟩, fun h c ⟨k, hc⟩ => h k c hc⟩

theorem callOf_eq_some (h : SlotsExact s) {c : Call} (hc : s.calls[i]? = some c)
    (hactive : c.isActive = true) : s.callOf c.taskId = some i := by
  cases hcall : s.callOf c.taskId with
  | none => exact absurd rfl (callOf_eq_none_iff.mp hcall i c hc hactive)
  | some k =>
      obtain ⟨hk, hfound, -⟩ := List.findIdx?_eq_some_iff_getElem.mp hcall
      obtain ⟨hactive', htask⟩ := (Bool.and_eq_true _ _).mp hfound
      exact congrArg some (h.unique k i _ c (List.getElem?_eq_getElem hk) hc hactive' hactive
        (of_decide_eq_true htask))

/-- Whether call `i` has the slot of its task, when no other call has. -/
theorem callOf_eq (h : SlotsExact s) {c : Call} (hc : s.calls[i]? = some c)
    (hothers : ∀ k d, k ≠ i → s.calls[k]? = some d → d.isActive = true → d.taskId ≠ c.taskId) :
    s.callOf c.taskId = if c.isActive then some i else none := by
  cases hactive : c.isActive with
  | true => exact callOf_eq_some h hc hactive
  | false =>
      refine callOf_eq_none_iff.mpr fun k d hd hd' => ?_
      by_cases hk : k = i
      · subst hk
        obtain rfl := Option.some.inj (hc.symm.trans hd)
        rw [hactive] at hd'
        cases hd'
      · exact hothers k d hk hd hd'

/-- A call that does not have the slot, before and after, changes nothing. -/
theorem callOf_of_others (h' : SlotsExact s') (hothers : OthersKept i s s')
    (hafter : ∀ c, s'.calls[i]? = some c → c.isActive = true → c.taskId ≠ taskId)
    (hbefore : ∀ c, s.calls[i]? = some c → c.isActive = true → c.taskId ≠ taskId) :
    s'.callOf taskId = s.callOf taskId := by
  cases hcall : s.callOf taskId with
  | none =>
      refine callOf_eq_none_iff.mpr fun k c hc hactive htask => ?_
      by_cases hk : k = i
      · subst hk
        exact hafter c hc hactive htask
      · rw [hothers k hk] at hc
        exact callOf_eq_none_iff.mp hcall k c hc hactive htask
  | some k =>
      obtain ⟨hk, hfound, -⟩ := List.findIdx?_eq_some_iff_getElem.mp hcall
      obtain ⟨hactive, htask⟩ := (Bool.and_eq_true _ _).mp hfound
      have hc := List.getElem?_eq_getElem hk
      have htask := of_decide_eq_true htask
      have hki : k ≠ i := by
        rintro rfl
        exact hbefore _ hc hactive htask
      rw [← hothers k hki] at hc
      exact htask ▸ callOf_eq_some h' hc hactive

/-- A new call gets a slot that no call has. -/
theorem callOf_eq_none_of_new {a : Action} (h : CallsInv s) (hmoves : StepMoves s a s')
    (hc : s.calls[i]? = none) {c' : Call} (hc' : s'.calls[i]? = some c') :
    s.callOf c'.taskId = none := by
  have hlength : s.calls.length ≤ i := List.getElem?_eq_none_iff.mp hc
  cases hmoves with
  | kept hcalls hslots =>
      rw [hcalls, hc] at hc'
      cases hc'
  | configured ha hs' =>
      rw [hs'] at hc'
      cases hc.symm.trans hc'
  | replaying ha hs' =>
      rw [hs'] at hc'
      cases hc.symm.trans hc'
  | moved hk hactive hm =>
      have hlt := (List.getElem?_eq_some_iff.mp hc').1
      rw [hm.calls, List.length_set] at hlt
      omega
  | @admitted submit turn startedAt c d ha hadmits htask hactive hm =>
      rw [hm.calls] at hc'
      have hd : c' = d := by
        rcases getElem?_set_cases hc' with ⟨-, hd⟩ | ⟨hi, hd⟩
        · exact hd
        · rcases getElem?_concat_cases hd with ⟨hi', -⟩ | ⟨-, hd⟩
          · exact absurd hi' hi
          · cases hc.symm.trans hd
      refine callOf_eq_none_iff.mpr fun k e he he' heq => hadmits.2.1 ?_
      refine (h.exact.held submit.taskId).mpr ⟨k, e, he, he', heq.trans ?_⟩
      rw [hd, hm.taskId, htask]

/-- Of the effects of one call, none is about another task. -/
theorem accept_own {o : List Effect} {q : Option Nat} (h : ∀ e ∈ o, e.IsOf i taskId) :
    accept (SessionMark.next Effect.mark) q (outputsOf Effect.taskId? taskId o) =
      accept (SessionMark.next Effect.mark) q o := by
  refine SessionMark.accept_filter fun e he hne => Effect.mark_of_taskId? ?_
  cases hid : e.taskId? with
  | none => rfl
  | some id =>
      rw [(h e he).2 id hid] at hid
      simp [hid] at hne

/-- A call that has the slot of its task, or that no call of the task stands in the way of,
moves on. -/
theorem Drives.turns {q q' : Stage} {o : List Effect} (h' : SlotsExact s') {c' : Call}
    (hdrives : Drives false i c'.taskId q q' s s' o) (hc' : s'.calls[i]? = some c')
    (hq' : q' = c'.phase.stage) (hbefore : s.callOf c'.taskId = if q.holds then some i else none)
    (hothers : ∀ k d, k ≠ i → s.calls[k]? = some d → d.isActive = true →
      d.taskId ≠ c'.taskId) :
    accept (SessionMark.next Effect.mark) (s.callOf c'.taskId) o =
      some (s'.callOf c'.taskId) := by
  have hafter : s'.callOf c'.taskId = if c'.isActive then some i else none :=
    callOf_eq h' hc' fun k d hk hd => hothers k d hk (hdrives.others k hk ▸ hd)
  rw [hbefore, hafter, accept_holds hdrives.follows fun e he => (hdrives.own e he).1, hq',
    Phase.stage_holds]

/-- A call that has settled changes nothing. -/
theorem Drives.turns_settled {q' : Stage} {o : List Effect} {reported : Bool}
    (h' : SlotsExact s') {c c' : Call}
    (hdrives : Drives false i taskId (.settled reported) q' s s' o) (hc : s.calls[i]? = some c)
    (hinactive : c.isActive = false) (hc' : s'.calls[i]? = some c')
    (hq' : q' = c'.phase.stage) : o = [] ∧ s'.callOf taskId = s.callOf taskId := by
  obtain ⟨hnil, hstill⟩ := accept_settled hdrives.follows
  have hinactive' : c'.isActive = false := by
    rw [← Phase.stage_holds, ← hq', hstill]
    rfl
  refine ⟨hnil, callOf_of_others h' hdrives.others ?_ ?_⟩
  · intro d hd hactive
    obtain rfl := Option.some.inj (hc'.symm.trans hd)
    rw [hinactive'] at hactive
    cases hactive
  · intro d hd hactive
    obtain rfl := Option.some.inj (hc.symm.trans hd)
    rw [hinactive] at hactive
    cases hactive

/-- A step takes the slot of every task from one call to the next. -/
theorem step_turns {a : Action} {o : List Effect} (h : CallsInv s)
    (hstep : (worker settings).step s a = some (s', o)) (hcb : a.CallsBackInTime s)
    (taskId : String) :
    accept (SessionMark.next Effect.mark) (s.callOf taskId)
      (outputsOf Effect.taskId? taskId o) = some (s'.callOf taskId) := by
  have h' := h.step hstep
  have hmoves := step_moves h.timers hstep
  have hdrives : StepDrives false s a s' o := step_drives h.timers hstep (.inr hcb)
  cases hdrives with
  | silent hcalls hnone hreplay =>
      have hsilent : outputsOf Effect.taskId? taskId o = [] := by
        refine outputsOf_eq_nil fun e he hid => ?_
        have hcall := hnone e he
        cases e with
        | replayed | replaySettled | rejected | configUpdated => cases hid
        | _ => cases hcall
      rw [hsilent, Instance.callOf, Instance.callOf, hcalls]
      rfl
  | @driven i c' hc' hdrives =>
      by_cases htask : taskId = c'.taskId
      · subst htask
        rw [accept_own hdrives.own]
        have hstage' := Instance.stage_of_some hc'
        cases hc : s.calls[i]? with
        | none =>
            have hidle : s.stage i = .idle := by rw [Instance.stage, hc]
            have hnone := callOf_eq_none_of_new h hmoves hc hc'
            rw [hidle] at hdrives
            exact hdrives.turns h'.exact hc' hstage' hnone fun k d _ hd hactive =>
              callOf_eq_none_iff.mp hnone k d hd hactive
        | some c =>
            obtain ⟨d, hd, hsame⟩ := hmoves.persist i c hc
            obtain rfl := Option.some.inj (hc'.symm.trans hd)
            rw [Instance.stage_of_some hc] at hdrives
            cases hactive : c.isActive with
            | true =>
                have hcall : s.callOf c'.taskId = some i :=
                  hsame ▸ callOf_eq_some h.exact hc hactive
                refine hdrives.turns h'.exact hc' hstage' ?_ fun k d hk hd hactive' heq =>
                  hk (h.exact.unique k i d c hd hc hactive' hactive (heq.trans hsame))
                rw [Phase.stage_holds, hactive, hcall]
                rfl
            | false =>
                obtain ⟨reported, hsettled⟩ := Phase.stage_of_inactive hactive
                rw [hsettled] at hdrives
                obtain ⟨rfl, hcall⟩ := hdrives.turns_settled h'.exact hc hactive hc' hstage'
                exact congrArg some hcall.symm
      · have hsilent : outputsOf Effect.taskId? taskId o = [] :=
          outputsOf_eq_nil fun e he hid => htask ((hdrives.own e he).2 taskId hid)
        rw [hsilent]
        refine congrArg some (callOf_of_others h'.exact hdrives.others ?_ ?_).symm
        · intro d hd _ heq
          obtain rfl := Option.some.inj (hc'.symm.trans hd)
          exact htask heq.symm
        · intro d hd _ heq
          obtain ⟨d', hd', hsame⟩ := hmoves.persist i d hd
          obtain rfl := Option.some.inj (hc'.symm.trans hd')
          exact htask (heq.symm.trans hsame.symm)

end Calls

/-! ## Runs -/

section Runs

variable {settings : Settings} {s₀ s : Instance} {as : List Action} {out : List Effect}

/-- In every run, the slot of a task goes from one call to the next. -/
theorem run_turns (hnew : Created s₀) (hrun : (worker settings).run s₀ as = some (s, out))
    (hcb : (worker settings).Along (fun s a _ _ => a.CallsBackInTime s) s₀ as)
    (taskId : String) :
    accept (SessionMark.next Effect.mark) none (outputsOf Effect.taskId? taskId out) =
      some (s.callOf taskId) := by
  have hnone : s₀.callOf taskId = none := by
    obtain ⟨input, w, clock, -, rfl⟩ := hnew
    rfl
  rw [← hnone]
  exact Machine.run_tracks (I := CallsInv) (fun _ _ _ _ h hu => h.step hu)
    (fun _ _ _ _ h hu hcb taskId => step_turns h hu hcb taskId) hnew.callsInv hcb hrun taskId

/-- A call gets a slot once. -/
theorem callsFor_nodup (hnew : Created s₀) (hrun : (worker settings).run s₀ as = some (s, out))
    (taskId : String) : (callsFor taskId out).Nodup := by
  rw [List.nodup_iff_count_le_one]
  intro i
  have hacquired : (outputsOf Effect.call? i out).countP Effect.isAcquired ≤ 1 := by
    rw [run_acquisitions hnew hrun i]
    cases s.stage i <;> simp [Stage.acquisitions]
  refine le_trans ?_ hacquired
  rw [callsFor, SessionMark.sessions, outputsOf, List.filterMap_filter, List.count,
    List.countP_filterMap, outputsOf, List.countP_filter]
  refine List.countP_mono_left fun e he h => ?_
  have hbegun : e.mark.begun? = some i := by
    cases hbegun : e.mark.begun? with
    | none => simp [hbegun] at h
    | some k =>
        rw [hbegun] at h
        split at h
        · simpa using h
        · cases h
  obtain ⟨hkind, hcall⟩ := Effect.begun?_mark.mp hbegun
  simp [hkind, hcall]

/-- The calls for a task are those that got its slot. -/
theorem mem_callsFor {taskId : String} {i : Nat} :
    i ∈ callsFor taskId out ↔ .acquired i taskId ∈ out := by
  rw [callsFor, SessionMark.sessions, List.mem_filterMap]
  constructor
  · rintro ⟨e, he, hbegun⟩
    obtain ⟨hmem, hid⟩ := List.mem_filter.mp he
    obtain ⟨hkind, hcall⟩ := Effect.begun?_mark.mp hbegun
    cases e with
    | acquired k id =>
        obtain rfl := Option.some.inj hcall
        obtain rfl := Option.some.inj (of_decide_eq_true hid)
        exact hmem
    | _ => cases hkind
  · intro he
    exact ⟨_, List.mem_filter.mpr ⟨he, decide_eq_true rfl⟩, rfl⟩

theorem emittedFor_filterMap (taskId : String) (out : List Effect) :
    emittedFor taskId out = (outputsOf Effect.taskId? taskId out).filterMap Effect.taskEvent? := by
  rw [emittedFor, outputsOf, List.filterMap_filter]
  refine List.filterMap_congr fun e _ => ?_
  cases e with
  | emitted i event =>
      cases hid : event.taskId? <;>
        simp [Effect.emittedFor?, Effect.taskId?, Effect.taskEvent?, hid]
  | _ => simp [Effect.emittedFor?, Effect.taskEvent?]

/-- What is read within a call is what the call emits, since its events are about its task. -/
theorem readWithin_taskEvent (hnew : Created s₀)
    (hrun : (worker settings).run s₀ as = some (s, out)) {taskId : String} {i : Nat}
    (hi : i ∈ callsFor taskId out) :
    SessionMark.readWithin Effect.mark Effect.taskEvent? i
      (outputsOf Effect.taskId? taskId out) = taskEventsOf i out := by
  obtain ⟨c, hc, -, htask⟩ := run_owned hnew hrun _ (mem_callsFor.mp hi) i rfl
  rw [SessionMark.readWithin, taskEventsOf, outputsOf, outputsOf, List.filter_filter,
    List.filterMap_filter, List.filterMap_filter]
  refine List.filterMap_congr fun e he => ?_
  cases e with
  | emitted k event =>
      cases hsome : event.taskId? with
      | none => simp [Effect.taskEvent?, hsome]
      | some id =>
          by_cases hk : k = i
          · subst hk
            obtain ⟨c', hc', -, hid⟩ := run_owned hnew hrun _ he k rfl
            obtain rfl := Option.some.inj (hc.symm.trans hc')
            obtain rfl : id = taskId := (hid id hsome).trans (htask taskId rfl).symm
            simp [Effect.mark, Effect.taskId?, Effect.call?, hsome]
          · simp [Effect.mark, Effect.call?, hsome, hk]
  | _ => simp [Effect.taskEvent?]

/-- The events of a task are those of its calls, one call after the other. -/
theorem emittedFor_eq (hnew : Created s₀) (hrun : (worker settings).run s₀ as = some (s, out))
    (hcb : (worker settings).Along (fun s a _ _ => a.CallsBackInTime s) s₀ as)
    (taskId : String) :
    emittedFor taskId out = (callsFor taskId out).flatMap fun i => taskEventsOf i out := by
  -- an event of a task is within a call
  have hwithin : ∀ e ∈ outputsOf Effect.taskId? taskId out,
      (∀ i, e.mark ≠ .within i) → e.taskEvent? = none := by
    intro e he hmark
    cases e with
    | emitted k event =>
        cases hevent : event.taskId?.isSome with
        | false => simp [Effect.taskEvent?, hevent]
        | true => exact absurd (by simp [Effect.mark, hevent]) (hmark k)
    | _ => rfl
  rw [emittedFor_filterMap, SessionMark.filterMap_eq_flatMap (run_turns hnew hrun hcb taskId)
    (callsFor_nodup hnew hrun taskId) hwithin]
  exact List.flatMap_congr fun i hi => readWithin_taskEvent hnew hrun hi

/-- A call whose executor has not settled has the slot of its task. -/
theorem Call.isActive_of_not_hasEnded {c : Call} (h : c.phase.hasEnded = false) :
    c.isActive = true := by
  unfold Call.isActive
  cases hp : c.phase with
  | accepted => rfl
  | executing => rfl
  | finishing => rfl
  | settled =>
      rw [hp] at h
      cases h

/-- In every run in which no `emit` throws, no executor calls back after it has settled and none
rejects with an error that cannot be read, the log of a task is the conversations of its calls,
one call after the other.  A call is there once, and only the last conversation may not have
ended. -/
theorem task_log_conversations (hnew : Created s₀)
    (hrun : (worker settings).run s₀ as = some (s, out))
    (hemit : ∀ e ∈ out, e.isThrow = false)
    (hcb : (worker settings).Along (fun s a _ _ => a.CallsBackInTime s) s₀ as)
    (hreadable : ∀ a ∈ as, ∀ i, ¬ a.RejectsUnreadably i) (taskId : String) :
    s.worker.eventStore.getEventsForTask taskId =
        (callsFor taskId out).flatMap (taskEventsOf · out) ∧
      (callsFor taskId out).Nodup ∧
      ∀ i ∈ callsFor taskId out, ∃ c, s.calls[i]? = some c ∧ c.taskId = taskId ∧
        Conversation c.phase.hasEnded (taskEventsOf i out) ∧
        (c.phase.hasEnded = false → (callsFor taskId out).getLast? = some i) := by
  refine ⟨(run_log hnew hrun taskId).1.trans (emittedFor_eq hnew hrun hcb taskId),
    callsFor_nodup hnew hrun taskId, ?_⟩
  intro i hi
  obtain ⟨c, hc, -, htask⟩ := run_owned hnew hrun _ (mem_callsFor.mp hi) i rfl
  obtain rfl : taskId = c.taskId := htask taskId rfl
  have hconversation := (call_conversation_iff hnew hrun hemit hcb hc).mpr fun a ha =>
    hreadable a ha i
  refine ⟨c, hc, rfl, hconversation, ?_⟩
  intro hopen
  -- the call has the slot, so it is the last that got it
  have hcall : s.callOf c.taskId = some i :=
    callOf_eq_some (run_callsInv hnew hrun).exact hc (Call.isActive_of_not_hasEnded hopen)
  have hturns := run_turns hnew hrun hcb c.taskId
  rw [hcall] at hturns
  exact SessionMark.getLast?_sessions hturns

end Runs

/-- A task is executed twice under one id, and its second conversation has not ended. -/
theorem task_log_conversations_twice :
    let env : Int → EmitEnv := fun now => ⟨now, none⟩
    let turn : Int → Turn := fun now => ⟨now, env now, env now⟩
    let submit : TaskSubmit := ⟨"t1", some (.obj [("prompt", .str "a")])⟩
    let as : List Action :=
      [.execute submit (turn 1), .start 0 2, .settle 0 (.ok ⟨"done", 1, 1, 1⟩) (turn 3), .finish 0,
        .execute submit (turn 4), .start 1 5, .callback 1 .onFirstToken (env 6)]
    ∃ s₀ s out, Created s₀ ∧ (worker ⟨0, 0, id⟩).run s₀ as = some (s, out) ∧
      [0, 1].map (fun i => (taskEventsOf i out).map OutboundEvent.ts) = [[1, 3], [4, 6]] ∧
      callsFor "t1" out = [0, 1] ∧
      s.worker.eventStore.getEventsForTask "t1" =
        (callsFor "t1" out).flatMap (taskEventsOf · out) := by
  intro env turn submit as
  have hnew := created_ofDefaults
  have hcheck : ((worker ⟨0, 0, id⟩).run .ofDefaults as).map
      (fun p => ([0, 1].map (fun i => (taskEventsOf i p.2).map OutboundEvent.ts),
        callsFor "t1" p.2, p.2.all fun e => !e.isThrow)) =
        some ([[1, 3], [4, 6]], [0, 1], true) := by
    decide
  obtain ⟨⟨s, out⟩, hrun, hout⟩ := Option.map_eq_some_iff.mp hcheck
  obtain ⟨hts, hout⟩ := Prod.mk.inj hout
  obtain ⟨hcalls, hemit⟩ := Prod.mk.inj hout
  have hemit : ∀ e ∈ out, e.isThrow = false := by simpa using hemit
  have hcb : (worker ⟨0, 0, id⟩).Along (fun s a _ _ => a.CallsBackInTime s) .ofDefaults as :=
    ⟨_, _, rfl, trivial, _, _, rfl, trivial, _, _, rfl, trivial, _, _, rfl, trivial,
      _, _, rfl, trivial, _, _, rfl, trivial, _, _, rfl, ⟨_, rfl, rfl⟩, trivial⟩
  have hreadable : ∀ a ∈ as, ∀ i, ¬ a.RejectsUnreadably i := by
    simp [as, Action.RejectsUnreadably]
  exact ⟨_, s, out, hnew, hrun, hts, hcalls,
    (task_log_conversations hnew hrun hemit hcb hreadable "t1").1⟩

end L0Worker.Worker
