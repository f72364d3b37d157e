import L0Worker.Server.Basic
import L0Worker.Worker.Calls

/-!
# A server runs its worker

A step of the server is no step of its worker or exactly one, and a submit request
becomes a call only if it has passed the checks of `handleSubmit`.  So a run of the
server is a run of its worker, and what is proved about runs of a worker holds in
every server.
-/

namespace L0Worker.Server

open Worker

/-! ## The effects of the worker -/

/-- The effects of the worker. -/
def workerEffects (o : List ServerEffect) : List Effect := o.filterMap ServerEffect.worker?

@[simp] theorem workerEffects_append (o o' : List ServerEffect) :
    workerEffects (o ++ o') = workerEffects o ++ workerEffects o' :=
  List.filterMap_append ..

@[simp] theorem workerEffects_map (o : List Effect) : workerEffects (o.map .worker) = o := by
  rw [workerEffects, List.filterMap_map]
  exact List.filterMap_some

@[simp] theorem workerEffects_printed (line : Line) (o : List ServerEffect) :
    workerEffects (.printed line :: o) = workerEffects o := rfl

@[simp] theorem runWorker_effects (s : ServerState) (r : Instance × List Effect) :
    workerEffects (s.runWorker r).2 = r.2 :=
  workerEffects_map r.2

theorem runWorker_silent (s : ServerState) (r : Instance × List Effect) :
    ∀ e ∈ (s.runWorker r).2, ∀ line, e ≠ .printed line := by
  intro e he line heq
  obtain ⟨effect, -, rfl⟩ := List.mem_map.mp he
  cases heq

theorem mem_workerEffects {e : Effect} {out : List ServerEffect} :
    e ∈ workerEffects out ↔ .worker e ∈ out := by
  rw [workerEffects, List.mem_filterMap]
  constructor
  · rintro ⟨f, hf, heq⟩
    cases f with
    | worker effect =>
        obtain rfl := Option.some.inj heq
        exact hf
    | _ => cases heq
  · intro h
    exact ⟨_, h, rfl⟩

/-! ## Steps and runs -/

/-- What a step of the server does to its worker. -/
inductive StepWorker (settings : Settings) (s : ServerState) (a : ServerAction)
    (s' : ServerState) (o : List ServerEffect) : Prop where
  /-- Nothing. -/
  | still (hw : s'.worker = s.worker) (ho : workerEffects o = [])
  /-- It starts a submission that has passed the checks of the handler. -/
  | submitted {submit : TaskSubmit} {turn : Turn} (ha : a = .submit (.request submit none) turn)
      (haccepting : s.worker.worker.stateMachine.isAccepting = true)
      (hstep : (Worker.worker settings).step s.worker (.execute submit turn) =
        some (s'.worker, workerEffects o))
  /-- It is a step of the worker. -/
  | inner {a' : Action} (ha : a = .worker a') (hinner : isInner a' = true)
      (hstep : (Worker.worker settings).step s.worker a' = some (s'.worker, workerEffects o))

theorem waitIteration_workerEffects (settings : Settings) (s : ServerState) (startTime now : Int) :
    workerEffects (s.waitIteration settings startTime now).2 = [] := by
  unfold ServerState.waitIteration
  dsimp only
  split
  · split
    · rfl
    · rfl
  · rfl

theorem step_worker {settings : Settings} {s s' : ServerState} {a : ServerAction}
    {o : List ServerEffect} (hstep : (server settings).step s a = some (s', o)) :
    StepWorker settings s a s' o := by
  cases step_cases hstep with
  | refused turn response hrefused => exact .still rfl rfl
  | submitted submit turn haccepting =>
      refine .submitted rfl haccepting ?_
      rw [workerEffects_append, runWorker_effects]
      exact congrArg some (Prod.ext rfl (List.append_nil _).symm)
  | unauthorized reason startTime now => exact .still rfl rfl
  | drain startTime now =>
      refine .still rfl ?_
      refine (workerEffects_append (.printed (.draining s.workerId) :: _) _).trans ?_
      rw [workerEffects_printed, ServerState.waitForDrained, waitIteration_workerEffects]
      rfl
  | signal startTime now =>
      exact .still rfl (waitIteration_workerEffects settings s startTime now)
  | @poll k d now hd =>
      exact .still rfl (waitIteration_workerEffects settings s d.startTime now)
  | exit hd hreturned => exact .still rfl rfl
  | worker hinner hr =>
      refine .inner rfl hinner ?_
      rw [runWorker_effects]
      exact hr

/-- A run of the server is a run of its worker. -/
theorem run_worker {settings : Settings} {s s' : ServerState} {as : List ServerAction}
    {out : List ServerEffect} (hrun : (server settings).run s as = some (s', out)) :
    ∃ as', (Worker.worker settings).run s.worker as' = some (s'.worker, workerEffects out) := by
  refine Machine.run_composes
    (R := fun s s' out => ∃ as', (Worker.worker settings).run s.worker as' =
      some (s'.worker, workerEffects out)) (fun s => ⟨[], rfl⟩) ?_ ?_ hrun
  · rintro s u t o o' ⟨as, hu⟩ ⟨as', ht⟩
    refine ⟨as ++ as', (Machine.run_append_iff _).mpr ⟨_, _, _, hu, ht, ?_⟩⟩
    exact workerEffects_append o o'
  · intro s a s' o hstep
    cases step_worker hstep with
    | still hw ho => exact ⟨[], by rw [hw, ho]; rfl⟩
    | submitted ha haccepting hstep' => exact ⟨[_], (Machine.run_singleton_iff _).mpr hstep'⟩
    | inner ha hinner hstep' => exact ⟨[_], (Machine.run_singleton_iff _).mpr hstep'⟩

end L0Worker.Server
