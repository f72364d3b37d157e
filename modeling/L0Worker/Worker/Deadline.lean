import L0Worker.Worker.Lifecycle

/-!
# Aborted before the deadline

A call sets its drain timer when it gets its slot, for the timeout of the function less the
drain buffer, and the timer is to abort the call before the platform ends the function.  The
machine here adds the time to the worker: time may pass between any two steps, and each call
has the time at which it set its timer.  A timer may fire at any time after that.  So what is
said is about the states in which no timer is overdue, as it is the runtime that fires them.

A call that is in flight with neither a timer nor an abort stays so.  There are two ways to
get there: the buffer leaves no time for the timer, or the announcement that comes before the
abort throws.  `meets_deadlines_iff` says that there is no third one.
-/

namespace L0Worker.Worker

/-! ## Timers and aborts, call by call -/

/-- The call is aborted or is going to be. -/
def Call.Guarded (c : Call) : Prop :=
  c.isActive = true → c.drainTimer = true ∨ c.aborted = true

/-- A call that was `c` goes on as `c'` with the same timer and the same signal, unless it
settles. -/
structure Call.Goes (c c' : Call) : Prop where
  aborted : c'.aborted = c.aborted
  timer : c'.isActive = true → c.isActive = true ∧ c'.drainTimer = c.drainTimer

theorem Call.Goes.refl (c : Call) : c.Goes c := ⟨rfl, fun h => ⟨h, rfl⟩⟩

/-- An active call goes on to the end of its `try` or `catch` block. -/
theorem Call.Goes.finishing {c : Call} (h : c.isActive = true) :
    c.Goes { c with phase := .finishing } :=
  ⟨rfl, fun _ => ⟨h, rfl⟩⟩

theorem Call.Goes.guarded {c c' : Call} (h : c.Goes c') (hc : c.Guarded) : c'.Guarded := by
  intro hactive
  obtain ⟨hc', htimer⟩ := h.timer hactive
  rw [htimer, h.aborted]
  exact hc hc'

/-- Call `i`, which was `c`, goes on, and the other calls stay. -/
def GoesOn (i : Nat) (c : Call) (s s' : Instance) : Prop :=
  ∃ c', s'.calls = s.calls.set i c' ∧ c.Goes c'

section Pieces

variable {s : Instance} {i : Nat} {c : Call}

theorem GoesOn.of_calls {s₁ s' : Instance} (h : GoesOn i c s₁ s') (hcalls : s₁.calls = s.calls) :
    GoesOn i c s s' := by
  rw [GoesOn, ← hcalls]
  exact h

theorem setCall_goesOn {c' : Call} (h : c.Goes c') : GoesOn i c s (s.setCall i c') :=
  ⟨c', rfl, h⟩

theorem finallyBlock_goesOn (error : Option Thrown) :
    GoesOn i c s (s.finallyBlock i c error).1 :=
  ⟨_, rfl, rfl, fun h => absurd h Bool.false_ne_true⟩

theorem catchBlock_goesOn (hactive : c.isActive = true) (error : Thrown) (env : EmitEnv) :
    GoesOn i c s (s.catchBlock i c error env).1 := by
  have hcaught := s.catchBlock_caught i c error env
  generalize s.catchBlock i c error env = r at hcaught ⊢
  cases hcaught with
  | @unread thrown hfailure => exact finallyBlock_goesOn (some thrown)
  | reported hfailure henv =>
      exact (setCall_goesOn (.finishing hactive)).of_calls (Instance.report_calls ..)
  | @lost failureClass message thrown hfailure henv =>
      exact (finallyBlock_goesOn (some thrown)).of_calls (Instance.report_calls ..)

theorem tryBlock_goesOn (hc : s.calls[i]? = some c) (hactive : c.isActive = true) (turn : Turn) :
    GoesOn i c s (s.tryBlock i c turn).1 := by
  rw [Instance.tryBlock_eq]
  dsimp only
  cases turn.event.throws with
  | none =>
      obtain ⟨hi, rfl⟩ := List.getElem?_eq_some_iff.mp hc
      refine ⟨s.calls[i], ?_, Call.Goes.refl _⟩
      rw [Instance.report_calls, List.set_getElem_self hi]
      rfl
  | some e =>
      exact (catchBlock_goesOn hactive e turn.failed).of_calls (Instance.report_calls ..)

theorem executorSettled_goesOn (hactive : c.isActive = true) (settings : Settings)
    (startTime : Int) (outcome : Except Thrown ExecutionResult) (turn : Turn) :
    GoesOn i c s (s.executorSettled settings i c startTime outcome turn).1 := by
  cases outcome with
  | error e => exact catchBlock_goesOn hactive e turn.failed
  | ok result =>
      unfold Instance.executorSettled
      dsimp only
      cases turn.event.throws with
      | none =>
          exact (setCall_goesOn (.finishing hactive)).of_calls (Instance.report_calls ..)
      | some e =>
          exact (catchBlock_goesOn hactive e turn.failed).of_calls (Instance.report_calls ..)

end Pieces

/-- What a step does to the timers and the abort signals of the calls. -/
inductive StepTimers (settings : Settings) (s : Instance) (a : Action) (s' : Instance) : Prop where
  | kept (hcalls : s'.calls = s.calls)
  | goesOn {i : Nat} {c : Call} (hc : s.calls[i]? = some c) (hgoes : GoesOn i c s s')
  /-- A call is added, which sets its timer. -/
  | added {c : Call} (htimer : c.isActive = true → c.drainTimer = settings.setsDrainTimer)
      (haborted : c.aborted = false) (hcalls : s'.calls = s.calls ++ [c])
  /-- A drain timer fires. -/
  | fired {i : Nat} {c : Call} {env : EmitEnv} (ha : a = .drainTimer i env)
      (hc : s.calls[i]? = some c) (htimer : c.drainTimer = true)
      (hs' : s' = (s.drainTimerFired i c env).1)

theorem step_timers {settings : Settings} {s s' : Instance} {a : Action} {o : List Effect}
    (hstep : (worker settings).step s a = some (s', o)) : StepTimers settings s a s' := by
  cases step_cases hstep with
  | execute submit turn =>
      rcases s.executeTaskWithEvents_cases settings submit turn with
        ⟨-, reason, heq⟩ | ⟨hadm, slots, c, r, rfl, rfl, rfl, heq⟩
      · rw [heq]
        exact .kept rfl
      · obtain ⟨c', hcalls, hgoes⟩ := tryBlock_goesOn
          (s := s.addCall (s.worker.slots.occupy submit.taskId turn.dateNow)
            (Instance.newCall settings submit.taskId)) List.getElem?_concat_length rfl turn
        rw [heq]
        refine .added (c := c') (fun h => (hgoes.timer h).2) hgoes.aborted (hcalls.trans ?_)
        show (s.calls ++ [_]).set s.calls.length c' = s.calls ++ [c']
        simp
  | start dateNow hc hphase =>
      refine .goesOn hc ⟨_, rfl, rfl, fun _ => ⟨?_, rfl⟩⟩
      rw [Call.isActive, hphase]
  | callback cb env hc => exact .kept (Instance.callback_calls ..)
  | settle outcome turn hc hstart =>
      exact .goesOn hc (executorSettled_goesOn (Phase.isActive_of_startTime hstart) ..)
  | finish hc hphase => exact .goesOn hc (finallyBlock_goesOn none)
  | drainTimer env hc htimer => exact .fired rfl hc htimer rfl
  | _ => exact .kept rfl

/-- A property of single calls is kept by a step if it is kept when a call goes on, when one
is added and when a timer fires. -/
theorem StepTimers.forall_calls {settings : Settings} {s s' : Instance} {a : Action}
    {P : Call → Prop} (h : StepTimers settings s a s') (hs : ∀ c ∈ s.calls, P c)
    (hgoes : ∀ {c c' : Call}, c.Goes c' → P c → P c')
    (hadded : ∀ {c : Call}, (c.isActive = true → c.drainTimer = settings.setsDrainTimer) →
      c.aborted = false → P c)
    (hfired : ∀ {i c env}, a = .drainTimer i env → s.calls[i]? = some c → c.drainTimer = true →
      s' = (s.drainTimerFired i c env).1 → ∀ c ∈ s'.calls, P c) : ∀ c ∈ s'.calls, P c := by
  cases h with
  | kept hcalls => rwa [hcalls]
  | goesOn hc hgoesOn =>
      obtain ⟨c', hcalls, hc'⟩ := hgoesOn
      intro d hd
      rw [hcalls] at hd
      rcases List.mem_or_eq_of_mem_set hd with hd | rfl
      · exact hs d hd
      · exact hgoes hc' (hs _ (List.mem_of_getElem? hc))
  | added htimer haborted hcalls =>
      rw [hcalls]
      exact List.forall_mem_append.mpr ⟨hs, by simpa using hadded htimer haborted⟩
  | fired ha hc htimer hs' => exact hfired ha hc htimer hs'

/-- A call with neither a timer nor an abort stays so. -/
theorem step_unguarded {settings : Settings} {s s' : Instance} {a : Action} {o : List Effect}
    {i : Nat} {c : Call} (h : LifecycleInv s) (hc : s.calls[i]? = some c)
    (htimer : c.drainTimer = false) (haborted : c.aborted = false)
    (hstep : (worker settings).step s a = some (s', o)) :
    ∃ c', s'.calls[i]? = some c' ∧ c'.drainTimer = false ∧ c'.aborted = false := by
  have hi := (List.getElem?_eq_some_iff.mp hc).1
  have htimers := (h.calls.step hstep).timers
  cases step_timers hstep with
  | kept hcalls => exact ⟨c, by rw [hcalls, hc], htimer, haborted⟩
  | @goesOn j d hd hgoesOn =>
      obtain ⟨d', hcalls, hgoes⟩ := hgoesOn
      by_cases hij : j = i
      · subst hij
        obtain rfl := Option.some.inj (hc.symm.trans hd)
        have hself : s'.calls[j]? = some d' := by rw [hcalls, List.getElem?_set_self hi]
        refine ⟨d', hself, ?_, hgoes.aborted.trans haborted⟩
        -- only a call in flight has a timer, and it is the one it had before
        cases hset : d'.drainTimer with
        | false => rfl
        | true =>
            have hkept := (hgoes.timer (htimers j d' hself hset)).2
            rw [← hset, hkept, htimer]
      · exact ⟨c, by rw [hcalls, List.getElem?_set_ne hij, hc], htimer, haborted⟩
  | added hadded _ hcalls =>
      exact ⟨c, by rw [hcalls, List.getElem?_append_left hi, hc], htimer, haborted⟩
  | @fired j d env ha hd hset hs' =>
      have hij : j ≠ i := by
        rintro rfl
        obtain rfl := Option.some.inj (hc.symm.trans hd)
        rw [htimer] at hset
        cases hset
      obtain ⟨d', hcalls⟩ := drainTimerFired_moves s j (h.calls.timers j d hd hset) env
      exact ⟨c, by rw [hs', hcalls.calls, List.getElem?_set_ne hij, hc], htimer, haborted⟩

/-- So it is not aborted later. -/
theorem run_unguarded {settings : Settings} {s s' : Instance} {as : List Action}
    {out : List Effect} {i : Nat} {c : Call} (h : LifecycleInv s) (hc : s.calls[i]? = some c)
    (htimer : c.drainTimer = false) (haborted : c.aborted = false)
    (hrun : (worker settings).run s as = some (s', out)) :
    ∃ c', s'.calls[i]? = some c' ∧ c'.drainTimer = false ∧ c'.aborted = false := by
  have hinv : LifecycleInv s' ∧ ∃ c', s'.calls[i]? = some c' ∧ c'.drainTimer = false ∧
      c'.aborted = false := by
    refine (worker settings).run_invariant (I := fun s => LifecycleInv s ∧ ∃ c' : Call,
      s.calls[i]? = some c' ∧ c'.drainTimer = false ∧ c'.aborted = false) ?_
      ⟨h, c, hc, htimer, haborted⟩ hrun
    rintro s a s' o ⟨hs, c', hc', htimer', haborted'⟩ hstep
    exact ⟨hs.step hstep, step_unguarded hs hc' htimer' haborted' hstep⟩
  exact hinv.2

/-! ## With time -/

/-- A worker and the time, with the time at which each call set its timer. -/
structure Timed where
  worker : Instance
  now : Int
  setAt : List Int

/-- A step of a worker in time. -/
inductive TimedAction where
  /-- Time passes. -/
  | wait (now : Int)
  /-- The worker takes a step, which takes no time. -/
  | act (a : Action)

/-- A worker at this time, with no calls. -/
def Timed.start (worker : Instance) (now : Int) : Timed where
  worker := worker
  now := now
  setAt := []

/-- The step of the worker has been taken; a call that was added set its timer now. -/
def Timed.after (s : Timed) (worker : Instance) : Timed :=
  { s with
    worker
    setAt := s.setAt ++ List.replicate (worker.calls.length - s.worker.calls.length) s.now }

def Timed.step (settings : Settings) (s : Timed) : TimedAction → Option (Timed × List Effect)
  | .wait now => if s.now ≤ now then some ({ s with now }, []) else none
  | .act a => ((Worker.worker settings).step s.worker a).map fun r => (s.after r.1, r.2)

/-- The machine of a worker in time. -/
def timed (settings : Settings) : Machine Timed TimedAction Effect := ⟨Timed.step settings⟩

/-- No drain timer is overdue. -/
def Timed.Punctual (settings : Settings) (s : Timed) : Prop :=
  ∀ (i : Nat) (c : Call) (setAt : Int), s.worker.calls[i]? = some c → s.setAt[i]? = some setAt →
    c.drainTimer = true → s.now < setAt + (settings.functionTimeoutMs - settings.drainBufferMs)

/-- Each call in flight has set up its timer, and it is aborted if the timeout of the function
has passed since. -/
def Timed.MeetsDeadlines (settings : Settings) (s : Timed) : Prop :=
  ∀ (i : Nat) (c : Call), s.worker.calls[i]? = some c → c.isActive = true →
    ∃ setAt, s.setAt[i]? = some setAt ∧
      (setAt + settings.functionTimeoutMs ≤ s.now → c.aborted = true)

/-- When a drain timer fires and the worker does not drain yet, `emit` returns. -/
def AnnouncementReturns (s : Timed) (a : TimedAction) (_ : Timed) (_ : List Effect) : Prop :=
  match a with
  | .act (.drainTimer _ env) => s.worker.worker.stateMachine ≠ .draining → env.throws = none
  | _ => True

/-- What holds in every state while the announcements return. -/
structure TimedInv (s : Timed) : Prop where
  lifecycle : LifecycleInv s.worker
  /-- Each call has the time of its timer. -/
  setAt : s.setAt.length = s.worker.calls.length
  guarded : ∀ c ∈ s.worker.calls, c.Guarded

/-- No step takes a call away. -/
theorem step_length_le {settings : Settings} {s s' : Instance} {a : Action} {o : List Effect}
    (hlive : s.worker.stateMachine.isLive = true)
    (hstep : (worker settings).step s a = some (s', o)) : s.calls.length ≤ s'.calls.length := by
  cases step_timers hstep with
  | kept hcalls => rw [hcalls]
  | goesOn hc hgoesOn =>
      obtain ⟨c', hcalls, -⟩ := hgoesOn
      rw [hcalls, List.length_set]
  | added htimer haborted hcalls =>
      rw [hcalls, List.length_append]
      exact Nat.le_add_right ..
  | @fired i c env ha hc htimer hs' =>
      rcases s.drainTimerFired_cases i c env hlive with ⟨-, heq⟩ | ⟨-, t, p, heq, -, hcalls, -, -⟩
      · rw [hs', heq, Instance.setCall, List.length_set]
      · rw [hs', heq, hcalls, List.length_set]

/-- When the timer of a call fires, the call is aborted if the announcement returns. -/
theorem fired_guarded {s : Instance} (hlive : s.worker.stateMachine.isLive = true)
    (hs : ∀ c ∈ s.calls, c.Guarded) {i : Nat} {c : Call} {env : EmitEnv}
    (hreturns : s.worker.stateMachine ≠ .draining → env.throws = none) :
    ∀ d ∈ (s.drainTimerFired i c env).1.calls, d.Guarded := by
  rcases s.drainTimerFired_cases i c env hlive with ⟨-, heq⟩ | ⟨hne, t, p, heq, -, hcalls, -, -⟩
  · intro d hd
    rw [heq] at hd
    rcases List.mem_or_eq_of_mem_set hd with hd | rfl
    · exact hs d hd
    · exact fun _ => .inr rfl
  · intro d hd
    rw [heq, hcalls] at hd
    rcases List.mem_or_eq_of_mem_set hd with hd | rfl
    · exact hs d hd
    · exact fun _ => .inr (by simp [hreturns hne])

theorem TimedInv.step {settings : Settings} {s s' : Timed} {a : TimedAction} {o : List Effect}
    (h : TimedInv s) (htimer : settings.setsDrainTimer = true)
    (hstep : (timed settings).step s a = some (s', o)) (hreturns : AnnouncementReturns s a s' o) :
    TimedInv s' := by
  cases a with
  | wait now =>
      obtain ⟨-, hstep⟩ := Option.ite_none_right_eq_some.mp hstep
      obtain ⟨rfl, -⟩ := Prod.mk.inj (Option.some.inj hstep)
      exact ⟨h.lifecycle, h.setAt, h.guarded⟩
  | act a =>
      obtain ⟨⟨t, p⟩, hstep', heq⟩ := Option.map_eq_some_iff.mp hstep
      obtain ⟨rfl, rfl⟩ := Prod.mk.inj heq
      have hle := step_length_le h.lifecycle.live hstep'
      refine ⟨h.lifecycle.step hstep', ?_, ?_⟩
      · show (s.setAt ++ List.replicate (t.calls.length - s.worker.calls.length) s.now).length =
          t.calls.length
        rw [List.length_append, List.length_replicate, h.setAt, Nat.add_sub_cancel' hle]
      · refine (step_timers hstep').forall_calls h.guarded (fun hgoes => hgoes.guarded) ?_ ?_
        · exact fun hset _ hactive => .inl ((hset hactive).trans htimer)
        · rintro i c env rfl hc _ rfl
          exact fired_guarded h.lifecycle.live h.guarded hreturns

theorem TimedInv.meetsDeadlines {settings : Settings} {s : Timed} (h : TimedInv s)
    (hbuffer : 0 ≤ settings.drainBufferMs) (hpunctual : s.Punctual settings) :
    s.MeetsDeadlines settings := by
  intro i c hc hactive
  have hi : i < s.setAt.length := by
    rw [h.setAt]
    exact (List.getElem?_eq_some_iff.mp hc).1
  have hset : s.setAt[i]? = some s.setAt[i] := List.getElem?_eq_getElem hi
  refine ⟨_, hset, ?_⟩
  intro hdeadline
  rcases h.guarded c (List.mem_of_getElem? hc) hactive with htimer | haborted
  -- a timer that is still set is not due yet
  · have hdue := hpunctual i c _ hc hset htimer
    omega
  · exact haborted

/-- A state in which no timer is set is punctual, and misses a deadline when a call in flight
that is not aborted is past it. -/
theorem missed_of_call {settings : Settings} {s : Timed} {c : Call} {setAt : Int}
    (hcalls : s.worker.calls = [c]) (hset : s.setAt = [setAt]) (htimer : c.drainTimer = false)
    (hactive : c.isActive = true) (haborted : c.aborted = false)
    (hdeadline : setAt + settings.functionTimeoutMs ≤ s.now) :
    s.Punctual settings ∧ ¬ s.MeetsDeadlines settings := by
  have hc : s.worker.calls[0]? = some c := by rw [hcalls]; rfl
  constructor
  · intro i d t hd _ htimer'
    have hmem := List.mem_of_getElem? hd
    rw [hcalls, List.mem_singleton] at hmem
    rw [hmem, htimer] at htimer'
    cases htimer'
  · intro hmeets
    obtain ⟨t, ht, habort⟩ := hmeets 0 c hc hactive
    rw [hset] at ht
    obtain rfl := Option.some.inj ht
    rw [habort hdeadline] at haborted
    cases haborted

theorem Created.timedInv {w : Instance} (h : Created w) (now : Int) : TimedInv (.start w now) := by
  refine ⟨h.lifecycleInv, ?_, ?_⟩
  · obtain ⟨input, v, clock, -, rfl⟩ := h
    rfl
  · obtain ⟨input, v, clock, -, rfl⟩ := h
    exact List.forall_mem_nil _

/-! ## Along a run -/

/-- When the buffer leaves no time for a timer, a deadline is missed although nothing throws. -/
theorem timerless_missed {settings : Settings} (htimeout : 0 < settings.functionTimeoutMs)
    (hbuffer : settings.functionTimeoutMs ≤ settings.drainBufferMs) :
    let submit : TaskSubmit := ⟨"t1", some (.obj [("prompt", .str "a")])⟩
    let turn : Turn := ⟨0, ⟨0, none⟩, ⟨0, none⟩⟩
    let as : List TimedAction :=
      [.act (.execute submit turn), .wait settings.functionTimeoutMs]
    ∃ w s out, Created w ∧ (timed settings).run (.start w 0) as = some (s, out) ∧
      (timed settings).Along AnnouncementReturns (.start w 0) as ∧ s.Punctual settings ∧
      ¬ s.MeetsDeadlines settings := by
  intro submit turn as
  let w : Instance := .ofDefaults
  let r := w.executeTaskWithEvents settings submit turn
  let u : Timed := (Timed.start w 0).after r.1
  have hexecute : (timed settings).step (.start w 0) (.act (.execute submit turn)) =
      some (u, r.2) := rfl
  have hwait : (timed settings).step u (.wait settings.functionTimeoutMs) =
      some ({ u with now := settings.functionTimeoutMs }, []) := if_pos htimeout.le
  have htimer : settings.setsDrainTimer = false := by
    rw [Settings.setsDrainTimer, Bool.and_eq_false_iff]
    exact .inr (decide_eq_false (by omega))
  have hcalls : r.1.calls = [Instance.newCall settings "t1"] := rfl
  have hdeadline : (0 : Int) + settings.functionTimeoutMs ≤ settings.functionTimeoutMs :=
    (Int.zero_add _).le
  have hmissed : Timed.Punctual settings { u with now := settings.functionTimeoutMs } ∧
      ¬ Timed.MeetsDeadlines settings { u with now := settings.functionTimeoutMs } :=
    missed_of_call hcalls rfl htimer rfl rfl hdeadline
  have hrun : (timed settings).run (.start w 0) as =
      some ({ u with now := settings.functionTimeoutMs }, r.2 ++ []) :=
    (Machine.run_cons_iff _).mpr ⟨_, _, _, hexecute, (Machine.run_singleton_iff _).mpr hwait, rfl⟩
  exact ⟨w, _, _, created_ofDefaults, hrun,
    ⟨_, _, hexecute, trivial, _, _, hwait, trivial, trivial⟩, hmissed⟩

/-- A worker meets its deadlines, in every state without an overdue timer of every run in which
the announcement of the first drain timer returns, exactly when the drain buffer is less than the
timeout of the function. -/
theorem meets_deadlines_iff {settings : Settings} (htimeout : 0 < settings.functionTimeoutMs)
    (hbuffer : 0 ≤ settings.drainBufferMs) :
    (∀ (w : Instance) (now : Int) (as : List TimedAction) (s : Timed) (out : List Effect),
      Created w → (timed settings).run (.start w now) as = some (s, out) →
      (timed settings).Along AnnouncementReturns (.start w now) as → s.Punctual settings →
      s.MeetsDeadlines settings) ↔
      settings.drainBufferMs < settings.functionTimeoutMs := by
  constructor
  · intro hall
    by_contra hle
    obtain ⟨w, s, out, hnew, hrun, halong, hpunctual, hmissed⟩ :=
      timerless_missed htimeout (not_lt.mp hle)
    exact hmissed (hall w 0 _ s out hnew hrun halong hpunctual)
  · intro hlt w now as s out hnew hrun halong hpunctual
    have htimer : settings.setsDrainTimer = true := by
      rw [Settings.setsDrainTimer, Bool.and_eq_true]
      exact ⟨decide_eq_true htimeout, decide_eq_true (by omega)⟩
    have hinv : TimedInv s :=
      halong.invariant (fun _ _ _ _ h hstep hreturns => h.step htimer hstep hreturns)
        (hnew.timedInv now) hrun
    exact hinv.meetsDeadlines hbuffer hpunctual

/-- The buffer is as long as the timeout, and no timer is set: a task is in flight at its
deadline and has not been aborted. -/
theorem deadline_missed :
    let submit : TaskSubmit := ⟨"t1", some (.obj [("prompt", .str "a")])⟩
    let turn : Turn := ⟨0, ⟨0, none⟩, ⟨0, none⟩⟩
    ∃ w s out, Created w ∧ (timed ⟨5000, 5000, id⟩).run (.start w 0)
        [.act (.execute submit turn), .act (.start 0 0), .wait 5000] = some (s, out) ∧
      s.Punctual ⟨5000, 5000, id⟩ ∧ ¬ s.MeetsDeadlines ⟨5000, 5000, id⟩ := by
  intro submit turn
  have hnew := created_ofDefaults
  exact ⟨_, _, _, hnew, rfl, missed_of_call (c := ⟨"t1", .executing 0, true, false, false⟩)
    rfl rfl rfl rfl rfl (by decide)⟩

/-- The drain timer of a task fires after 55 seconds of 60.  The task is still in flight at its
deadline, and it has been aborted. -/
theorem meets_deadlines_iff_aborted :
    let submit : TaskSubmit := ⟨"t1", some (.obj [("prompt", .str "a")])⟩
    let turn : Turn := ⟨0, ⟨0, none⟩, ⟨0, none⟩⟩
    let as : List TimedAction := [.act (.execute submit turn), .act (.start 0 0), .wait 55000,
      .act (.drainTimer 0 ⟨55000, none⟩), .wait 60000]
    ∃ w s out, Created w ∧ (timed ⟨60000, 5000, id⟩).run (.start w 0) as = some (s, out) ∧
      s.Punctual ⟨60000, 5000, id⟩ ∧ s.MeetsDeadlines ⟨60000, 5000, id⟩ ∧
      (s.worker.calls.map Call.isActive) = [true] := by
  intro submit turn as
  have hnew := created_ofDefaults
  obtain ⟨⟨s, out⟩, hrun⟩ : ∃ p, (timed ⟨60000, 5000, id⟩).run (.start .ofDefaults 0) as =
      some p := ⟨_, rfl⟩
  have halong : (timed ⟨60000, 5000, id⟩).Along AnnouncementReturns (.start .ofDefaults 0) as :=
    ⟨_, _, rfl, trivial, _, _, rfl, trivial, _, _, rfl, trivial, _, _, rfl, fun _ => rfl, _, _, rfl,
      trivial, trivial⟩
  have hcalls : s.worker.calls = [⟨"t1", .executing 0, true, false, true⟩] := by
    rw [← (Prod.mk.inj (Option.some.inj hrun)).1]
    rfl
  have hpunctual : s.Punctual ⟨60000, 5000, id⟩ := by
    intro i c t hc _ htimer
    have hmem := List.mem_of_getElem? hc
    rw [hcalls, List.mem_singleton] at hmem
    rw [hmem] at htimer
    cases htimer
  have hmeets := (@meets_deadlines_iff ⟨60000, 5000, id⟩ (by decide) (by decide)).mpr
    (by decide) _ 0 as s out hnew hrun halong hpunctual
  exact ⟨_, s, out, hnew, hrun, hpunctual, hmeets, by rw [hcalls]; rfl⟩

end L0Worker.Worker
