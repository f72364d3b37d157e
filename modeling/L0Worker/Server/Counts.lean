import L0Worker.Server.ConfigUpdates
import L0Worker.Server.Status

/-!
# Counts that stay whole

The limit of a worker may be any number that is at least one, but it is a whole number of 32
bits as long as everyone who sets it asks for one.  Then the number of tasks in flight has 32
bits as well, although the limit may be lowered below it: a slot is only taken below the limit
in force.  With a clock that is not set back, every status of such a server is read
(`CountsFit.healthy`).
-/

namespace L0Worker.Server

open Worker
open Supervisor (HealthCheckResult)

/-- A whole number of 32 bits. -/
def FitsU32 (n : Number) : Prop := ∃ k : ℕ, n = .ofNat k ∧ k < 2 ^ 32

/-- The readings of the clock for a status are not before the start of the process, and have 64
bits. -/
structure ClockFits (d : Deployment) (env : RequestEnv) : Prop where
  uptime : 0 ≤ env.uptimeNow - d.startTime ∧ env.uptimeNow - d.startTime < 2 ^ 64
  ts : 0 ≤ env.responseNow ∧ env.responseNow < 2 ^ 64

/-- A request that updates the limit asks for a whole number. -/
def Request.AsksWhole (r : Request) : Prop :=
  ∀ m, r.body.configMessage? = some m → ∀ n, m.update.maxConcurrency = some n → FitsU32 n

def HttpAction.AsksWhole : HttpAction → Prop
  | .request r _ => r.AsksWhole
  | _ => True

/-! ## The worker -/

/-- A step takes a slot only below the limit. -/
theorem step_inflight {settings : Settings} {s s' : Instance} {a : Worker.Action}
    {o : List Effect} (ht : TimersActive s) (hstep : (worker settings).step s a = some (s', o)) :
    s'.worker.slots.inflightCount ≤ s.worker.slots.inflightCount ∨
      s.worker.slots.hasAvailableSlot = true ∧
        s'.worker.slots.inflightCount ≤ s.worker.slots.inflightCount + 1 := by
  have hmoved : ∀ {i c c'} {u : Instance}, Moves i c c' u s' →
      s'.worker.slots.inflightCount ≤ u.worker.slots.inflightCount := by
    intro i c c' u hmoves
    rw [SlotManager.inflightCount, hmoves.slots.slots]
    split
    · exact Nat.le_refl _
    · exact JsMap.size_delete_le _ _
  cases step_moves ht hstep with
  | kept hcalls hslots => exact .inl (by rw [SlotManager.inflightCount, hslots.slots]; rfl)
  | configured ha hs' =>
      refine .inl ?_
      rw [hs', SlotManager.inflightCount, VercelWorker.updateConfig_slots]
      rfl
  | replaying ha hs' => exact .inl (by rw [hs'])
  | moved hc hactive hmoves => exact .inl (hmoved hmoves)
  | @admitted submit turn startedAt c c' ha hadmits htask hactive hmoves =>
      refine .inr ⟨hadmits.2.2, Nat.le_trans (hmoved hmoves) ?_⟩
      show (s.worker.slots.slots.set submit.taskId ⟨submit.taskId, startedAt⟩).order.length ≤ _
      by_cases hhas : s.worker.slots.slots.Has submit.taskId
      · rw [JsMap.order_set_of_has _ hhas]
        exact Nat.le_succ _
      · rw [JsMap.order_set_of_not_has _ hhas, List.length_append]
        rfl

/-! ## The server -/

/-- The limit and the number of tasks in flight are whole numbers of 32 bits. -/
structure CountsFit (s : HttpState) : Prop where
  updates : ∃ updates, UpdatesInv updates s
  limit : FitsU32 s.configured.slotLimit
  inflight : s.server.worker.worker.slots.inflightCount < 2 ^ 32

namespace CountsFit

variable {d : Deployment} {s s' : HttpState} {a : HttpAction} {o : List HttpEffect}

/-- Both copies of the limit agree. -/
theorem limitInv (h : CountsFit s) :
    LimitInv s.configured.slotLimit s.server.worker := by
  obtain ⟨updates, hupdates⟩ := h.updates
  obtain ⟨q, hq, hlimit, hslots⟩ := hupdates.merges.limit
  refine ⟨rfl, hlimit.trans hslots.symm, ?_⟩
  rw [hslots]
  exact not_lt_one_iff.mpr hq

theorem step_limit (h : CountsFit s) (ha : a.AsksWhole)
    (hstep : (http d).step s a = some (s', o)) : FitsU32 s'.configured.slotLimit := by
  obtain ⟨updates, hupdates⟩ := h.updates
  cases step_configured hupdates.calls.timers hupdates.merges hstep with
  | kept hsucceeded hkept =>
      rw [hkept]
      exact h.limit
  | @updated u hsucceeded hreturned hfinite hupdated =>
      obtain ⟨haccepted, hlimit⟩ := h.limitInv.updateConfig u
      rw [hupdated]
      show FitsU32 (s.server.worker.worker.updateConfig u).2.slots.maxConcurrency
      rw [show (s.server.worker.worker.updateConfig u).2.slots.maxConcurrency = _ from hlimit.slots,
        nextLimit_of_accepted (haccepted.mp hreturned)]
      cases hmax : u.maxConcurrency with
      | none => exact h.limit
      | some n =>
          cases a with
          | request r env =>
              rw [succeeded] at hsucceeded
              split at hsucceeded
              · have hu : r.body.configMessage?.map ConfigMessage.update = some u :=
                  Option.toList_eq_singleton_iff.mp hsucceeded
                obtain ⟨m, hm, rfl⟩ := Option.map_eq_some_iff.mp hu
                exact ha m hm n hmax
              · cases hsucceeded
          | _ => cases hsucceeded

theorem step_inflight (h : CountsFit s) (hstep : (http d).step s a = some (s', o)) :
    s'.server.worker.worker.slots.inflightCount < 2 ^ 32 := by
  obtain ⟨updates, hupdates⟩ := h.updates
  have hworker : ∀ {a' o'}, (worker d.settings).step s.server.worker a' =
      some (s'.server.worker, o') →
        s'.server.worker.worker.slots.inflightCount < 2 ^ 32 := by
    intro a' o' hstep'
    obtain hle | ⟨havailable, hle⟩ := Server.step_inflight hupdates.calls.timers hstep'
    · exact Nat.lt_of_le_of_lt hle h.inflight
    · obtain ⟨k, hk, hlt⟩ := h.limit
      have hbelow : (Number.ofNat s.server.worker.worker.slots.inflightCount).lt (.ofNat k) =
          true := hk ▸ havailable
      have hbelow := Nat.cast_lt.mp (of_decide_eq_true hbelow)
      omega
  cases step_server hstep with
  | still hs ho =>
      rw [hs]
      exact h.inflight
  | steps a' out hserver ho =>
      cases step_worker hserver with
      | still hw ho' =>
          rw [hw]
          exact h.inflight
      | submitted ha' haccepting hstep' => exact hworker hstep'
      | inner ha' hinner hstep' => exact hworker hstep'

theorem step (h : CountsFit s) (ha : a.AsksWhole) (hstep : (http d).step s a = some (s', o)) :
    CountsFit s' := by
  obtain ⟨updates, hupdates⟩ := h.updates
  exact ⟨⟨_, hupdates.step hstep⟩, h.step_limit ha hstep, h.step_inflight hstep⟩

/-- A new server, whose worker was given a whole number as its limit. -/
theorem init {input : WorkerConfigInput} {w : VercelWorker} (clock : MonotonicClock)
    (hnew : VercelWorker.new input = some w) (hlimit : FitsU32 w.slots.maxConcurrency) :
    CountsFit (.init (.init (.init w clock))) where
  updates := ⟨[], Created.callsInv ⟨input, w, clock, hnew, rfl⟩, new_merges hnew⟩
  limit := hlimit
  inflight := by
    obtain ⟨-, configManager, -, rfl⟩ := VercelWorker.of_new hnew
    exact Nat.two_pow_pos 32

end CountsFit

/-! ## What the health checker makes of it -/

/-- What the health checker makes of the answer of a server to a status request. -/
def AnswersCheck (d : Deployment) (s : HttpState) (env : RequestEnv)
    (result : HealthCheckResult) : Prop :=
  ∃ address codeText decodeError s' response,
    (http d).step s (.request ⟨"GET", "/api/status", .empty, address⟩ env) =
      some (s', [.responded response]) ∧
    result = (response.reply codeText decodeError).check

/-- The answer of a server with whole counts, at readings of the clock that fit, is that of a
healthy worker. -/
theorem CountsFit.healthy {d : Deployment} {s : HttpState} {env : RequestEnv}
    {result : HealthCheckResult} (h : CountsFit s) (hclock : ClockFits d env)
    (hresult : AnswersCheck d s env result) : ∃ status, result = .healthy status := by
  obtain ⟨address, codeText, decodeError, s', response, hstep, rfl⟩ := hresult
  obtain ⟨-, heq⟩ := Option.ite_none_left_eq_some.mp hstep
  obtain ⟨rfl, hresponse⟩ := Prod.mk.inj (Option.some.inj heq)
  obtain ⟨k, hk, hlt⟩ := h.limit
  have hfits : StatusFits d s env :=
    ⟨⟨k, h.limitInv.config.trans hk, hlt⟩, h.inflight, hclock.uptime, hclock.ts⟩
  have hread := (statusBody_read_iff h.limitInv).mpr hfits
  obtain rfl : HttpResponse.json 200 (s.statusBody d env) = response :=
    HttpEffect.responded.inj (List.cons.inj hresponse).1
  exact (takenAsHealthy_iff.mpr hread).1

end L0Worker.Server
