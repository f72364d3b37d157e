import L0Worker.Worker.Account

/-!
# Slot ownership and capacity

A slot is only taken below the limit in force, which is the one of the constructor
or of the latest update that was accepted; a call that is turned away leaves no
trace; and a call that got a slot gives it back exactly once.

Two copies of the limit exist, in the configuration and in the slot manager.
`LimitInv` says that they agree with the updates made so far.  A limit may be lowered
below the number of calls in flight, so nothing is said about that number after an
update.
-/

namespace L0Worker.Worker

/-! ## The limit in force -/

/-- `updateConfig` accepts the update. -/
def ConfigUpdate.isAccepted (u : ConfigUpdate) : Bool := u.maxConcurrency.all fun n => !n.lt 1

/-- The limit after an action. -/
def nextLimit (limit : Number) : Action → Number
  | .updateConfig u => if u.isAccepted then u.maxConcurrency.getD limit else limit
  | _ => limit

/-- The limit set by the latest accepted update, or else the first one. -/
def latestLimit (limit : Number) (as : List Action) : Number := as.foldl nextLimit limit

/-- Both copies of the limit are this one, which is allowed. -/
structure LimitInv (limit : Number) (s : Instance) : Prop where
  slots : s.worker.slots.maxConcurrency = limit
  config : s.worker.configManager.runtime.maxConcurrency = limit
  /-- The setters allow it. -/
  allowed : limit.lt 1 = false

theorem LimitInv.of_kept {limit : Number} {s s' : Instance} {slots : JsMap String Slot}
    (h : LimitInv limit s) (hk : SlotsKept s s' slots) : LimitInv limit s' :=
  ⟨hk.limit.trans h.slots, by rw [hk.config]; exact h.config, h.allowed⟩

theorem ConfigManager.update_cases (c : ConfigManager) (u : ConfigUpdate) :
    (u.isAccepted = false ∧ ∃ e, c.update u = .error e) ∨
      (u.isAccepted = true ∧ ∃ c', c.update u = .ok c' ∧
        c'.runtime.maxConcurrency = u.maxConcurrency.getD c.runtime.maxConcurrency) := by
  unfold ConfigManager.update ConfigUpdate.isAccepted
  cases hu : u.maxConcurrency with
  | none => exact .inr ⟨rfl, _, rfl, rfl⟩
  | some n =>
      cases hn : n.lt 1 with
      | true => exact .inl ⟨by simp [hn], _, if_pos hn⟩
      | false => exact .inr ⟨by simp [hn], _, if_neg (by simp [hn]), rfl⟩

/-- The next limit is allowed as well. -/
theorem nextLimit_allowed {limit : Number} (h : limit.lt 1 = false) {u : ConfigUpdate}
    (hu : u.isAccepted = true) : (u.maxConcurrency.getD limit).lt 1 = false := by
  unfold ConfigUpdate.isAccepted at hu
  cases hn : u.maxConcurrency with
  | none => exact h
  | some n => simpa [hn] using hu

theorem nextLimit_of_accepted {limit : Number} {u : ConfigUpdate} (hu : u.isAccepted = true) :
    nextLimit limit (.updateConfig u) = u.maxConcurrency.getD limit :=
  if_pos hu

theorem nextLimit_of_refused {limit : Number} {u : ConfigUpdate} (hu : u.isAccepted = false) :
    nextLimit limit (.updateConfig u) = limit :=
  if_neg (by simp [hu])

/-- An update is accepted or throws, and the listener never throws. -/
theorem LimitInv.updateConfig {limit : Number} {s : Instance} (h : LimitInv limit s)
    (u : ConfigUpdate) :
    ((s.worker.updateConfig u).1 = none ↔ u.isAccepted = true) ∧
      LimitInv (nextLimit limit (.updateConfig u))
        { s with worker := (s.worker.updateConfig u).2 } := by
  unfold VercelWorker.updateConfig
  rcases s.worker.configManager.update_cases u with ⟨hu, e, heq⟩ | ⟨hu, c', heq, hlimit⟩
  · rw [heq, hu, nextLimit_of_refused hu]
    exact ⟨by simp, h.slots, h.config, h.allowed⟩
  · rw [h.config] at hlimit
    have hallowed := nextLimit_allowed h.allowed hu
    rw [heq, nextLimit_of_accepted hu]
    dsimp only
    rw [SlotManager.setMaxConcurrency_of_allowed _ (hlimit ▸ hallowed)]
    exact ⟨by simp [hu], hlimit, hlimit, hallowed⟩

theorem LimitInv.step {limit : Number} {settings : Settings} {s s' : Instance} {a : Action}
    {o : List Effect} (h : LimitInv limit s) (ht : TimersActive s)
    (hstep : (worker settings).step s a = some (s', o)) : LimitInv (nextLimit limit a) s' := by
  by_cases hu : ∃ u, a = .updateConfig u
  · obtain ⟨u, rfl⟩ := hu
    obtain ⟨rfl, -⟩ := Prod.ext_iff.mp (Option.some.inj hstep)
    exact (h.updateConfig u).2
  · have hsame : nextLimit limit a = limit := by
      cases a with
      | updateConfig u => exact absurd ⟨u, rfl⟩ hu
      | _ => rfl
    rw [hsame]
    cases step_moves ht hstep with
    | kept hcalls hslots => exact h.of_kept hslots
    | configured ha hs' => exact absurd ⟨_, ha⟩ hu
    | replaying ha hs' =>
        rw [hs']
        exact ⟨h.slots, h.config, h.allowed⟩
    | moved hc hactive hmoves => exact h.of_kept hmoves.slots
    | @admitted submit turn startedAt c c' ha hadmits htask hactive hmoves =>
        have hadd : LimitInv limit (s.addCall (s.worker.slots.occupy submit.taskId startedAt) c) :=
          ⟨h.slots, h.config, h.allowed⟩
        exact hadd.of_kept hmoves.slots

/-- The limit in every state of every run. -/
theorem run_limitInv {settings : Settings} {input : WorkerConfigInput} {w : VercelWorker}
    {clock : MonotonicClock} {as : List Action} {s : Instance} {out : List Effect}
    (hnew : VercelWorker.new input = some w)
    (hrun : (worker settings).run (.init w clock) as = some (s, out)) :
    LimitInv (latestLimit (input.maxConcurrency.getD 4) as) s := by
  refine (worker settings).run_history
    (J := fun as _ s => LimitInv (latestLimit (input.maxConcurrency.getD 4) as) s) ?_ ?_ hrun
  · intro as out u a u' o hu h hstep
    rw [latestLimit, List.foldl_append]
    exact h.step (run_callsInv ⟨input, w, clock, hnew, rfl⟩ hu).timers hstep
  · obtain ⟨hallowed, configManager, hconfig, rfl⟩ := VercelWorker.of_new hnew
    exact ⟨rfl, hconfig, hallowed⟩

/-! ## Steps that acquire and steps that are turned away -/

/-- A call that is turned away leaves no trace. -/
theorem execute_refused {settings : Settings} {s s' : Instance} {submit : TaskSubmit}
    {turn : Turn} {o : List Effect} (hadm : ¬ s.worker.Admits submit)
    (hstep : (worker settings).step s (.execute submit turn) = some (s', o)) :
    s' = s ∧ ∃ reason, o = [.rejected submit.taskId reason] := by
  have hstep := Option.some.inj hstep
  rcases s.executeTaskWithEvents_cases settings submit turn with
    ⟨-, reason, heq⟩ | ⟨h, -⟩
  · rw [heq] at hstep
    obtain ⟨rfl, rfl⟩ := Prod.mk.inj hstep
    exact ⟨rfl, reason, rfl⟩
  · exact absurd h hadm

/-! ## Ownership and capacity -/

/-- In every state of every run, the slots in use are those of the calls that have not
finished, each for one call; each call acquired its slot once, and released it once
if it has finished and else not at all.  In the next step, whatever it is, a slot is
acquired only below the limit of the latest update that was accepted, and a
submission that is not admitted changes nothing and is only turned away. -/
theorem slot_ownership {settings : Settings} {input : WorkerConfigInput} {w : VercelWorker}
    {clock : MonotonicClock} {as : List Action} {s : Instance} {out : List Effect}
    (hnew : VercelWorker.new input = some w)
    (hrun : (worker settings).run (.init w clock) as = some (s, out)) :
    SlotsExact s ∧
      (∀ (i : Nat) (c : Call), s.calls[i]? = some c →
        (outputsOf Effect.call? i out).countP Effect.isAcquired = 1 ∧
          (outputsOf Effect.call? i out).countP Effect.isReleased = if c.isActive then 0 else 1) ∧
      ∀ a s' o, (worker settings).step s a = some (s', o) →
        (∀ i id, .acquired i id ∈ o →
          (Number.ofNat s.worker.slots.inflightCount).lt
            (latestLimit (input.maxConcurrency.getD 4) as) = true) ∧
        (∀ u, a = .updateConfig u → (o = [.configUpdated none] ↔ u.isAccepted = true)) ∧
        ∀ submit turn, a = .execute submit turn → ¬ s.worker.Admits submit →
          s' = s ∧ ∃ reason, o = [.rejected submit.taskId reason] := by
  have hcreated : Created (.init w clock) := ⟨input, w, clock, hnew, rfl⟩
  have hinv := run_callsInv hcreated hrun
  have hlimit := run_limitInv hnew hrun
  refine ⟨hinv.exact, ?_, ?_⟩
  · intro i c hc
    rw [run_acquisitions hcreated hrun, run_releases hcreated hrun, Instance.stage_of_some hc]
    exact ⟨c.phase.stage_acquisitions, c.stage_releases⟩
  · intro a s' o hstep
    refine ⟨?_, ?_, ?_⟩
    · intro i id hacq
      -- only a submission that is admitted acquires a slot, and it was checked for one
      obtain ⟨submit, turn, -, hadmits⟩ :=
        (step_accepts_iff hinv.timers hstep).mp ⟨_, hacq, rfl⟩
      rw [← hlimit.slots]
      exact hadmits.2.2
    · rintro u rfl
      obtain ⟨-, rfl⟩ := Prod.ext_iff.mp (Option.some.inj hstep)
      rw [← (hlimit.updateConfig u).1]
      simp
    · rintro submit turn rfl hadm
      exact execute_refused hadm hstep

/-- A worker takes one task at a time.  A second submission of the task is turned away
until the executor has failed and the call is over. -/
theorem slot_ownership_duplicate :
    let submit : TaskSubmit := ⟨"t1", some (.obj [("prompt", .str "hi")])⟩
    let turn : Turn := ⟨0, ⟨0, none⟩, ⟨0, none⟩⟩
    ∃ w s out, VercelWorker.new ⟨"w1", some 1, none⟩ = some w ∧
      (worker ⟨0, 0, id⟩).run (.init w ⟨0⟩)
        [.execute submit turn, .execute submit turn, .start 0 0,
          .updateConfig ⟨some 2, none, none⟩, .settle 0 (.error (.value "no")) turn, .finish 0,
          .execute submit turn] = some (s, out) ∧
      s.calls.length = 2 ∧ SlotsExact s := by
  intro submit turn
  let w : VercelWorker := ⟨.ready, ⟨"w1", "1.0.0", ⟨1, ∅, ∅⟩⟩, ⟨.empty, 1⟩, .new 0⟩
  let as : List Action := [.execute submit turn, .execute submit turn, .start 0 0,
    .updateConfig ⟨some 2, none, none⟩, .settle 0 (.error (.value "no")) turn, .finish 0,
    .execute submit turn]
  have hnew : VercelWorker.new ⟨"w1", some 1, none⟩ = some w := rfl
  have hlen : ((worker ⟨0, 0, id⟩).run (.init w ⟨0⟩) as).map (·.1.calls.length) = some 2 := by
    decide
  obtain ⟨⟨s, out⟩, hrun, hcalls⟩ := Option.map_eq_some_iff.mp hlen
  exact ⟨w, s, out, hnew, hrun, hcalls, (slot_ownership hnew hrun).1⟩

end L0Worker.Worker
