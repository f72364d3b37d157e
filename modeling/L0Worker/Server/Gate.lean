import L0Worker.Server.RunsWorker
import L0Worker.Worker.Lifecycle

/-!
# `DRAINING` is a one-way gate

The lifecycle state does not keep a worker from taking a task: `executeTaskWithEvents`
never looks at it.  What does are the two submit handlers, the one of the standalone server
and the one for Vercel, which test `isAccepting` in the same turn in which the task gets its
slot.  The drain timers move the state from outside that turn.

The machine here has both handlers in front of one worker, so that the runs of either are
among its runs.  `draining_gate` says that the worker never leaves `DRAINING`, announces it
once, takes no task from then on, and asks for no transition that is refused.
-/

namespace L0Worker.Server

open Worker

/-! ## The Vercel handler -/

/-- A request to the Vercel handler. -/
structure VercelRequest where
  method : String
  /-- The submission, if the schema accepts the body, with the reason why its token is
  invalid, if it is. -/
  body : Option (TaskSubmit × Option String)

/-- A response of the Vercel handler. -/
inductive VercelResponse where
  /-- Status 405, `Method not allowed`. -/
  | methodNotAllowed
  /-- A response that the standalone handler gives as well. -/
  | shared (response : Response)
deriving DecidableEq

/-- The handler of `api/submit.ts`, with the start of the stream.  The worker that the first
request creates is there from the start. -/
def vercelHandler (settings : Settings) (w : Instance) (request : VercelRequest) (turn : Turn) :
    (Instance × List Effect) × VercelResponse :=
  if request.method ≠ "POST" then ((w, []), .methodNotAllowed)
  else match request.body with
    | none => ((w, []), .shared .invalidRequest)
    | some (_, some reason) => ((w, []), .shared (.unauthorized reason))
    | some (submit, none) =>
        if !w.worker.stateMachine.isAccepting then
          ((w, []), .shared (.notAccepting w.worker.stateMachine))
        else if !w.worker.slots.hasAvailableSlot then
          ((w, []), .shared (.noSlots w.worker.slots.inflightCount
            w.worker.configManager.runtime.maxConcurrency))
        else (w.executeTaskWithEvents settings submit turn, .shared .stream)

/-! ## Both handlers -/

/-- A step of a worker behind the two handlers. -/
inductive HandlerAction where
  /-- A step of the standalone server. -/
  | standalone (a : ServerAction)
  /-- A request to the Vercel handler. -/
  | vercel (request : VercelRequest) (turn : Turn)

/-- What happened in a step. -/
inductive HandlerEffect where
  | standalone (e : ServerEffect)
  | worker (e : Effect)
  | vercelResponded (response : VercelResponse)

/-- The effect of the worker, if it is one. -/
def HandlerEffect.worker? : HandlerEffect → Option Effect
  | .standalone e => e.worker?
  | .worker e => some e
  | .vercelResponded _ => none

/-- One step. -/
def handlersStep (settings : Settings) (s : ServerState) :
    HandlerAction → Option (ServerState × List HandlerEffect)
  | .standalone a => (s.step settings a).map fun r => (r.1, r.2.map .standalone)
  | .vercel request turn =>
      let r := vercelHandler settings s.worker request turn
      some ({ s with worker := r.1.1 }, r.1.2.map .worker ++ [.vercelResponded r.2])

/-- The machine of a worker behind the two handlers. -/
def handlers (settings : Settings) : Machine ServerState HandlerAction HandlerEffect :=
  ⟨handlersStep settings⟩

/-- Every `emit` of the step returns. -/
def HandlerAction.EmitsReturn : HandlerAction → Prop
  | .standalone (.submit _ turn) | .vercel _ turn =>
      turn.event.throws = none ∧ turn.failed.throws = none
  | .standalone (.worker a) => a.EmitsReturn
  | .standalone _ => True

/-- The effects of the worker. -/
def handlerWorkerEffects (o : List HandlerEffect) : List Effect :=
  o.filterMap HandlerEffect.worker?

@[simp] theorem handlerWorkerEffects_append (o o' : List HandlerEffect) :
    handlerWorkerEffects (o ++ o') = handlerWorkerEffects o ++ handlerWorkerEffects o' :=
  List.filterMap_append ..

@[simp] theorem handlerWorkerEffects_standalone (o : List ServerEffect) :
    handlerWorkerEffects (o.map .standalone) = workerEffects o := by
  rw [handlerWorkerEffects, List.filterMap_map]
  rfl

@[simp] theorem handlerWorkerEffects_vercel (o : List Effect) (response : VercelResponse) :
    handlerWorkerEffects (o.map .worker ++ [.vercelResponded response]) = o := by
  rw [handlerWorkerEffects, List.filterMap_append, List.filterMap_map]
  exact (List.append_nil _).trans List.filterMap_some

/-! ## What a step does to the worker -/

/-- The worker stays, or makes one step, which is a submission only if the worker accepts
tasks. -/
inductive StepGuarded (settings : Settings) (s : ServerState) (a : HandlerAction)
    (s' : ServerState) (o : List HandlerEffect) : Prop where
  | still (hw : s'.worker = s.worker) (ho : handlerWorkerEffects o = [])
  | steps (a' : Action)
      (hguard : ∀ submit turn, a' = .execute submit turn →
        s.worker.worker.stateMachine.isAccepting = true)
      (hreturns : a.EmitsReturn → a'.EmitsReturn)
      (hstep : (Worker.worker settings).step s.worker a' =
        some (s'.worker, handlerWorkerEffects o))

/-- A request to the Vercel handler gets a response and nothing else, or is let through. -/
theorem vercelHandler_cases (settings : Settings) (w : Instance) (request : VercelRequest)
    (turn : Turn) :
    (∃ response, vercelHandler settings w request turn = ((w, []), response)) ∨
      ∃ submit, w.worker.stateMachine.isAccepting = true ∧
        vercelHandler settings w request turn =
          (w.executeTaskWithEvents settings submit turn, .shared .stream) := by
  obtain ⟨method, body⟩ := request
  unfold vercelHandler
  split
  · exact .inl ⟨_, rfl⟩
  · cases body with
    | none => exact .inl ⟨_, rfl⟩
    | some body =>
        obtain ⟨submit, authFailure⟩ := body
        cases authFailure with
        | some reason => exact .inl ⟨_, rfl⟩
        | none =>
            cases haccepting : w.worker.stateMachine.isAccepting with
            | false => exact .inl ⟨.shared (.notAccepting w.worker.stateMachine), by simp⟩
            | true => cases havailable : w.worker.slots.hasAvailableSlot with
              | false =>
                  exact .inl ⟨.shared (.noSlots w.worker.slots.inflightCount
                    w.worker.configManager.runtime.maxConcurrency), by simp⟩
              | true => exact .inr ⟨submit, rfl, by simp⟩

theorem step_guarded {settings : Settings} {s s' : ServerState} {a : HandlerAction}
    {o : List HandlerEffect} (hstep : (handlers settings).step s a = some (s', o)) :
    StepGuarded settings s a s' o := by
  cases a with
  | standalone a =>
      obtain ⟨⟨t, p⟩, hserver, heq⟩ := Option.map_eq_some_iff.mp hstep
      obtain ⟨rfl, rfl⟩ := Prod.mk.inj heq
      cases step_worker hserver with
      | still hw ho => exact .still hw (by rw [handlerWorkerEffects_standalone, ho])
      | @submitted submit turn ha haccepting hworker =>
          subst ha
          refine .steps (.execute submit turn) (fun _ _ _ => haccepting) id ?_
          rw [handlerWorkerEffects_standalone]
          exact hworker
      | @inner a' ha hinner hworker =>
          subst ha
          refine .steps a' ?_ id ?_
          · rintro submit turn rfl
            cases hinner
          · rw [handlerWorkerEffects_standalone]
            exact hworker
  | vercel request turn =>
      obtain ⟨rfl, rfl⟩ := Prod.mk.inj (Option.some.inj hstep)
      rcases vercelHandler_cases settings s.worker request turn with
        ⟨response, heq⟩ | ⟨submit, haccepting, heq⟩
      · rw [heq]
        exact .still rfl rfl
      · rw [heq]
        refine .steps (.execute submit turn) (fun _ _ _ => haccepting) id ?_
        rw [handlerWorkerEffects_vercel]
        rfl

/-! ## The gate -/

/-- What is known along a run: the worker is as it always is, no transition was refused, and
`WORKER_DRAINING` was emitted once if the worker drains and else not at all. -/
structure GateInv (s : ServerState) (out : List HandlerEffect) : Prop where
  worker : LifecycleInv s.worker
  granted : ∀ e ∈ handlerWorkerEffects out, e.refusesTransition = false
  announced : (handlerWorkerEffects out).countP Effect.announcesDraining =
    s.worker.worker.stateMachine.drained

section Steps

variable {settings : Settings} {s s' : ServerState} {a : HandlerAction}
  {out o : List HandlerEffect}

theorem lifecycleInv_of_step (h : LifecycleInv s.worker)
    (hstep : (handlers settings).step s a = some (s', o)) : LifecycleInv s'.worker := by
  cases step_guarded hstep with
  | still hw ho => exact hw ▸ h
  | steps a' hguard hreturns hworker => exact h.step hworker

theorem GateInv.step (h : GateInv s out) (hreturns : a.EmitsReturn)
    (hstep : (handlers settings).step s a = some (s', o)) : GateInv s' (out ++ o) := by
  have hinv := lifecycleInv_of_step h.worker hstep
  cases step_guarded hstep with
  | still hw ho =>
      refine ⟨hinv, ?_, ?_⟩
      · rw [handlerWorkerEffects_append, ho, List.append_nil]
        exact h.granted
      · rw [handlerWorkerEffects_append, List.countP_append, h.announced, ho, hw, List.countP_nil,
          Nat.add_zero]
  | steps a' hguard hreturns' hworker =>
      refine ⟨hinv, ?_, ?_⟩
      · rw [handlerWorkerEffects_append]
        exact List.forall_mem_append.mpr ⟨h.granted, step_granted h.worker.live hworker⟩
      · rw [handlerWorkerEffects_append, List.countP_append, h.announced]
        exact step_announcements h.worker.live (hreturns' hreturns) hworker

/-- The worker drains, and neither takes a task nor announces that it drains. -/
structure StaysClosed (s' : ServerState) (o : List HandlerEffect) : Prop where
  state : s'.worker.worker.stateMachine = .draining
  /-- `TASK_ACCEPTED` is not emitted. -/
  closed : ∀ i event, .emitted i event ∈ handlerWorkerEffects o → event.isAccepted = false
  silent : ∀ e ∈ handlerWorkerEffects o, e.announcesDraining = false

theorem step_staysClosed (h : LifecycleInv s.worker)
    (hd : s.worker.worker.stateMachine = .draining)
    (hstep : (handlers settings).step s a = some (s', o)) : StaysClosed s' o := by
  cases step_guarded hstep with
  | still hw ho => exact ⟨by rw [hw, hd], by simp [ho], by simp [ho]⟩
  | steps a' hguard hreturns hworker =>
      have hstays := draining_stays hd hworker
      refine ⟨hstays.1, ?_, hstays.2⟩
      intro i event hmem
      cases haccepted : event.isAccepted with
      | false => rfl
      | true =>
          -- only a submission accepts, and the handlers have turned it away
          obtain ⟨submit, turn, rfl, -⟩ :=
            (step_accepts_iff h.calls.timers hworker).mp ⟨_, hmem, haccepted⟩
          have haccepting := hguard submit turn rfl
          rw [hd] at haccepting
          cases haccepting

end Steps

/-- Whatever happens after the worker has entered `DRAINING`, the gate stays closed. -/
theorem run_staysClosed {settings : Settings} {s s' : ServerState} {as : List HandlerAction}
    {out : List HandlerEffect} (h : LifecycleInv s.worker)
    (hd : s.worker.worker.stateMachine = .draining)
    (hrun : (handlers settings).run s as = some (s', out)) : StaysClosed s' out := by
  induction as generalizing s out with
  | nil =>
      obtain ⟨rfl, rfl⟩ := Prod.mk.inj (Option.some.inj hrun)
      exact ⟨hd, by simp [handlerWorkerEffects], by simp [handlerWorkerEffects]⟩
  | cons a as ih =>
      obtain ⟨u, o, o', hstep, hrest, rfl⟩ := (Machine.run_cons_iff _).mp hrun
      have hfirst := step_staysClosed h hd hstep
      have hlater := ih (lifecycleInv_of_step h hstep) hfirst.state hrest
      refine ⟨hlater.state, ?_, ?_⟩
      · intro i event hmem
        rw [handlerWorkerEffects_append] at hmem
        rcases List.mem_append.mp hmem with hmem | hmem
        · exact hfirst.closed i event hmem
        · exact hlater.closed i event hmem
      · rw [handlerWorkerEffects_append]
        exact List.forall_mem_append.mpr ⟨hfirst.silent, hlater.silent⟩

theorem run_gateInv {settings : Settings} {s₀ s : ServerState} {as : List HandlerAction}
    {out : List HandlerEffect} (hstart : Started s₀) (hreturns : ∀ a ∈ as, a.EmitsReturn)
    (hrun : (handlers settings).run s₀ as = some (s, out)) : GateInv s out := by
  obtain ⟨w, hnew, rfl⟩ := hstart
  have hstate : w.worker.stateMachine = .ready := by
    obtain ⟨input, v, clock, hv, rfl⟩ := hnew
    obtain ⟨-, configManager, -, rfl⟩ := VercelWorker.of_new hv
    rfl
  refine (handlers settings).run_history
    (J := fun as out s => (∀ a ∈ as, a.EmitsReturn) → GateInv s out) ?_ ?_ hrun hreturns
  · intro as out u a u' o hu ih hstep hreturns
    rw [List.forall_mem_append] at hreturns
    exact (ih hreturns.1).step (hreturns.2 a List.mem_cons_self) hstep
  · rintro -
    refine ⟨hnew.lifecycleInv, List.forall_mem_nil _, ?_⟩
    show 0 = w.worker.stateMachine.drained
    rw [hstate]
    rfl

/-- In every run in which `emit` returns, no transition that the worker asks for is
refused, and `WORKER_DRAINING` was emitted once if the worker drains and else not at all.
If it drains, it drains in every continuation, and no `TASK_ACCEPTED` and no further
`WORKER_DRAINING` is emitted there. -/
theorem draining_gate {settings : Settings} {s₀ s : ServerState} {as : List HandlerAction}
    {out : List HandlerEffect} (hstart : Started s₀) (hreturns : ∀ a ∈ as, a.EmitsReturn)
    (hrun : (handlers settings).run s₀ as = some (s, out)) :
    (∀ i, .transitionRefused i ∉ handlerWorkerEffects out) ∧
      (handlerWorkerEffects out).countP Effect.announcesDraining =
        (if s.worker.worker.stateMachine = .draining then 1 else 0) ∧
      (s.worker.worker.stateMachine = .draining → ∀ bs s' out',
        (handlers settings).run s bs = some (s', out') →
          s'.worker.worker.stateMachine = .draining ∧
          (∀ i event, .emitted i event ∈ handlerWorkerEffects out' →
            event.isAccepted = false ∧ event.isDraining = false)) := by
  have hinv := run_gateInv hstart hreturns hrun
  refine ⟨fun i hmem => Bool.noConfusion (hinv.granted _ hmem), hinv.announced, ?_⟩
  intro hd bs s' out' hrun'
  have hclosed := run_staysClosed hinv.worker hd hrun'
  refine ⟨hclosed.state, ?_⟩
  intro i event hmem
  exact ⟨hclosed.closed i event hmem, hclosed.silent _ hmem⟩

/-- The drain timer of a task in flight fires, and the next request is turned away. -/
theorem draining_gate_oneTask :
    let turn : Turn := ⟨0, ⟨0, none⟩, ⟨0, none⟩⟩
    let submit : String → HandlerAction := fun id =>
      .vercel ⟨"POST", some (⟨id, some (.obj [("prompt", .str "a")])⟩, none)⟩ turn
    let as : List HandlerAction := [submit "t1", .standalone (.worker (.start 0 0)),
      .standalone (.worker (.drainTimer 0 ⟨55000, none⟩)), submit "t2"]
    ∃ s₀ s out, Started s₀ ∧ (handlers ⟨60000, 5000, id⟩).run s₀ as = some (s, out) ∧
      s.worker.calls.length = 1 ∧
      (handlerWorkerEffects out).countP Effect.announcesDraining = 1 := by
  intro turn submit as
  have hstart := started_ofDefaults
  have hreturns : ∀ a ∈ as, a.EmitsReturn := by
    simp [as, submit, turn, HandlerAction.EmitsReturn, Action.EmitsReturn]
  obtain ⟨⟨s, out⟩, hrun⟩ := Option.isSome_iff_exists.mp
    (show ((handlers ⟨60000, 5000, id⟩).run (.init .ofDefaults) as).isSome = true from rfl)
  have hcalls : s.worker.calls.length = 1 ∧ s.worker.worker.stateMachine = .draining := by
    obtain ⟨rfl, rfl⟩ := Prod.mk.inj (Option.some.inj hrun)
    exact ⟨rfl, rfl⟩
  have hgate := (draining_gate hstart hreturns hrun).2.1
  rw [if_pos hcalls.2] at hgate
  exact ⟨_, s, out, hstart, hrun, hcalls.1, hgate⟩

end L0Worker.Server
