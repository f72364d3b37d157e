import L0Worker.Server.Http
import L0Worker.Worker.Capacity

/-!
# Updates of the configuration over HTTP

A configuration request is answered with status 200 and applied, or with another status and
without a trace.  The limit is kept twice, and the listener that copies it could raise after
the first copy was set, but it makes the check that was made before.

`config_updates` says what the two limits, the resource caps and the feature flags are after
any run of the server: the limits are equal and at least one, and each key has the value of
the latest successful update that has the key.
-/

namespace L0Worker.Server

open Worker Schema

/-! ## The configuration -/

/-- The configuration that can be updated, with the limit of the slots. -/
structure Configured where
  runtime : RuntimeConfig
  slotLimit : Number

/-- The configuration of a worker. -/
def configured (w : VercelWorker) : Configured :=
  ⟨w.configManager.runtime, w.slots.maxConcurrency⟩

/-- The configuration of the worker of a server. -/
def HttpState.configured (s : HttpState) : Configured := Server.configured s.server.worker.worker

/-- Both limits are one finite number, which is at least one. -/
def Configured.LimitSound (c : Configured) : Prop :=
  ∃ q : ℚ, 1 ≤ q ∧ c.runtime.maxConcurrency = .finite q ∧ c.slotLimit = .finite q

/-- The value of the latest update that has the key. -/
def latestValue {α : Type} (part : ConfigUpdate → Option (Finmap fun _ : String => α))
    (updates : List ConfigUpdate) (key : String) : Option α :=
  (updates.filterMap fun u => (part u).bind fun values => values.lookup key).getLast?

/-- The configuration after these updates. -/
structure Configured.Merges (c : Configured) (updates : List ConfigUpdate) : Prop where
  limit : c.LimitSound
  caps : ∀ key, c.runtime.resourceCaps.lookup key =
    latestValue ConfigUpdate.resourceCaps updates key
  flags : ∀ key, c.runtime.featureFlags.lookup key =
    latestValue ConfigUpdate.featureFlags updates key

/-! ## One update -/

theorem not_lt_one_iff {q : ℚ} : (Number.finite q).lt 1 = false ↔ 1 ≤ q := by
  show decide (q < ((1 : Nat) : ℚ)) = false ↔ 1 ≤ q
  rw [decide_eq_false_iff_not, not_lt, Nat.cast_one]

/-- A merged record has the updated value of a key, or else the old one. -/
theorem lookup_merge {α : Type} {part : ConfigUpdate → Option (Finmap fun _ : String => α)}
    {updates : List ConfigUpdate} {old : Finmap fun _ : String => α}
    (h : ∀ key, old.lookup key = latestValue part updates key) (u : ConfigUpdate) (key : String) :
    ((part u).elim old (· ∪ old)).lookup key = latestValue part (updates ++ [u]) key := by
  unfold latestValue at h ⊢
  rw [List.filterMap_append]
  cases hpart : part u with
  | none =>
      show old.lookup key = _
      rw [h key, List.filterMap_cons_none (by rw [hpart]; rfl), List.filterMap_nil, List.append_nil]
  | some values =>
      show (values ∪ old).lookup key = _
      by_cases hkey : key ∈ values
      · obtain ⟨value, hvalue⟩ := Finmap.mem_iff.mp hkey
        rw [Finmap.lookup_union_left hkey, hvalue,
          List.filterMap_cons_some (by rw [hpart]; exact hvalue), List.filterMap_nil,
          List.getLast?_concat]
      · have hnone : values.lookup key = none := Finmap.lookup_eq_none.mpr hkey
        rw [Finmap.lookup_union_right hkey, h key,
          List.filterMap_cons_none (by rw [hpart]; exact hnone), List.filterMap_nil,
          List.append_nil]

/-- An update is applied, or throws and leaves the worker as it was. -/
theorem updateConfig_cases {w : VercelWorker} {updates : List ConfigUpdate}
    (h : (configured w).Merges updates) {u : ConfigUpdate}
    (hfinite : ∀ n ∈ u.maxConcurrency, n.isFinite = true) :
    ((w.updateConfig u).1 = none ∧ (configured (w.updateConfig u).2).Merges (updates ++ [u])) ∨
      (w.updateConfig u).1.isSome = true ∧ (w.updateConfig u).2 = w := by
  obtain ⟨⟨q, hq, hlimit, hslots⟩, hcaps, hflags⟩ := h
  have hcaps' := lookup_merge hcaps u
  have hflags' := lookup_merge hflags u
  cases hmax : u.maxConcurrency with
  | none =>
      -- the listener sets the limit once more
      have hset : w.slots.setMaxConcurrency w.configManager.runtime.maxConcurrency =
          .ok { w.slots with maxConcurrency := w.configManager.runtime.maxConcurrency } := by
        rw [show w.configManager.runtime.maxConcurrency = .finite q from hlimit]
        exact SlotManager.setMaxConcurrency_of_allowed _ (not_lt_one_iff.mpr hq)
      refine .inl ?_
      simp only [VercelWorker.updateConfig, ConfigManager.update, hmax, Option.getD_none, hset]
      exact ⟨trivial, ⟨q, hq, hlimit, hlimit⟩, hcaps', hflags'⟩
  | some n =>
      cases n with
      | finite r =>
          by_cases hr : 1 ≤ r
          · have hlt := not_lt_one_iff.mpr hr
            have hset := SlotManager.setMaxConcurrency_of_allowed w.slots hlt
            refine .inl ?_
            simp only [VercelWorker.updateConfig, ConfigManager.update, hmax, Option.getD_some,
              hlt, Bool.false_eq_true, if_false, hset]
            exact ⟨trivial, ⟨r, hr, rfl, rfl⟩, hcaps', hflags'⟩
          · have hlt : (Number.finite r).lt 1 = true := by
              simpa using mt not_lt_one_iff.mp hr
            refine .inr ?_
            simp only [VercelWorker.updateConfig, ConfigManager.update, hmax, hlt, if_true]
            exact ⟨rfl, trivial⟩
      | _ => exact absurd (hfinite _ hmax) Bool.false_ne_true

/-- A new worker has the limit it was created with and no other configuration. -/
theorem new_merges {input : WorkerConfigInput} {w : VercelWorker}
    (h : VercelWorker.new input = some w) : (configured w).Merges [] := by
  obtain ⟨hallowed, configManager, -, rfl⟩ := VercelWorker.of_new h
  have hnew : ConfigManager.new input = some configManager := by
    unfold VercelWorker.new at h
    split at h
    · cases h
    · next configManager' hnew =>
      split at h
      · have hw := congrArg VercelWorker.configManager (Option.some.inj h)
        exact hnew.trans (congrArg some hw)
      · cases h
  obtain ⟨hvalid, hnew⟩ := Option.ite_none_left_eq_some.mp hnew
  obtain rfl := Option.some.inj hnew
  refine ⟨?_, fun key => rfl, fun key => rfl⟩
  cases hlimit : input.maxConcurrency.getD 4 with
  | finite q =>
      rw [hlimit] at hallowed
      exact ⟨q, not_lt_one_iff.mp hallowed, rfl, rfl⟩
  | _ => exact absurd (by rw [hlimit]; rfl) hvalid

/-! ## Requests -/

/-- The status of a response. -/
def HttpResponse.status : HttpResponse → Nat
  | .json status _ => status
  | .stream => 200

def HttpEffect.response? : HttpEffect → Option HttpResponse
  | .responded response => some response
  | .server _ => none

/-- The responses of a step. -/
def responses (o : List HttpEffect) : List HttpResponse := o.filterMap HttpEffect.response?

/-- The request is one for `handleConfig`. -/
def Request.isConfig (r : Request) : Prop := r.path = "/api/config" ∧ r.method = "POST"

instance (r : Request) : Decidable r.isConfig := inferInstanceAs (Decidable (_ ∧ _))

/-- The message of a body, if it parses. -/
def Body.configMessage? : Body → Option ConfigMessage
  | .json v => workerConfigUpdateSchema (some v)
  | .empty | .invalid => none

/-- The update of a configuration request that was answered with status 200. -/
def succeeded : HttpAction → List HttpEffect → List ConfigUpdate
  | .request r _, o =>
      if r.isConfig ∧ (responses o).all (·.status = 200) then
        (r.body.configMessage?.map ConfigMessage.update).toList
      else []
  | _, _ => []

/-- A limit in a message is finite. -/
theorem configMessage_finite {body : Body} {m : ConfigMessage} (h : body.configMessage? = some m) :
    ∀ n ∈ m.update.maxConcurrency, n.isFinite = true := by
  cases body with
  | json v =>
      obtain ⟨fields, -, h⟩ := object_eq_some_iff.mp h
      simp only [Option.bind_eq_bind, Option.bind_eq_some_iff] at h
      obtain ⟨_, -, _, -, _, -, limit, hlimit, _, -, _, -, _, -, h⟩ := h
      obtain rfl := Option.some.inj h
      intro n hn
      obtain rfl : limit = some n := hn
      exact (number_eq_some_iff.mp (optional_eq_some_some_iff.mp hlimit).2).2
  | _ => cases h

/-- What a configuration request does: it gets another status than 200 and changes nothing, or
it is applied. -/
inductive ConfigAnswered (s : HttpState) (body : Body) (r : HttpState × List HttpEffect) :
    Prop where
  | refused {response : HttpResponse} (ho : responses r.2 = [response])
      (hstatus : response.status ≠ 200) (hserver : r.1.server = s.server)
  | applied {response : HttpResponse} {m : ConfigMessage} (ho : responses r.2 = [response])
      (hstatus : response.status = 200) (hm : body.configMessage? = some m)
      (hid : m.workerId = s.server.workerId)
      (hw : r.1.server.worker =
        { s.server.worker with worker := (s.server.worker.worker.updateConfig m.update).2 })
      (hreturned : (s.server.worker.worker.updateConfig m.update).1 = none)

theorem configured_of_server {s s' : HttpState} (h : s'.server = s.server) :
    s'.configured = s.configured :=
  congrArg (fun server : ServerState => configured server.worker.worker) h

theorem applyConfig_answered {s : HttpState} {updates : List ConfigUpdate}
    (hmerges : s.configured.Merges updates) {body : Body} {m : ConfigMessage}
    (hm : body.configMessage? = some m) (hid : m.workerId = s.server.workerId)
    (env : RequestEnv) : ConfigAnswered s body (s.applyConfig m env) := by
  rw [HttpState.applyConfig, if_neg (not_not_intro hid)]
  rcases updateConfig_cases hmerges (configMessage_finite hm) with ⟨hnone, -⟩ | ⟨hsome, hkept⟩
  · refine .applied rfl ?_ hm hid rfl hnone
    rw [hnone]
    rfl
  · obtain ⟨e, he⟩ := Option.isSome_iff_exists.mp hsome
    refine .refused rfl ?_ ?_
    · rw [he]
      exact (by decide : (500 : Nat) ≠ 200)
    · dsimp only
      rw [hkept]

theorem handleConfig_answered {d : Deployment} {s : HttpState} {updates : List ConfigUpdate}
    (hmerges : s.configured.Merges updates) {r : Request} (hr : r.isConfig) (env : RequestEnv) :
    ConfigAnswered s r.body (s.handleRequest d r env) := by
  have hother : ∀ {path : String}, path ≠ "/api/config" → r.path ≠ path :=
    fun hne hpath => hne (hpath.symm.trans hr.1)
  have hhandled := handleRequest_handled d s r env
  generalize s.handleRequest d r env = p at hhandled
  cases hhandled with
  | refused answer hstatus => exact .refused rfl hstatus rfl
  | config hpath hmethod hbody hm hid hallowed =>
      exact applyConfig_answered hmerges (by rw [hbody]; exact hm) hid env
  | status hpath => exact absurd hpath (hother (by decide))
  | submit hpath => exact absurd hpath (hother (by decide))
  | replay hpath => exact absurd hpath (hother (by decide))
  | drain hpath => exact absurd hpath (hother (by decide))

/-! ## Everything else -/

theorem configured_of_kept {s s' : Instance} {slots : JsMap String Slot}
    (h : SlotsKept s s' slots) : configured s'.worker = configured s.worker := by
  rw [configured, configured, h.config, h.limit]

/-- A step of the worker other than an update leaves the configuration alone. -/
theorem worker_configured {settings : Settings} {s s' : Instance} {a : Action} {o : List Effect}
    (ht : TimersActive s) (ha : ∀ u, a ≠ .updateConfig u)
    (hstep : (worker settings).step s a = some (s', o)) :
    configured s'.worker = configured s.worker := by
  cases step_moves ht hstep with
  | kept hcalls hslots => exact configured_of_kept hslots
  | configured hupdate hs' => exact absurd hupdate (ha _)
  | replaying hreplay hs' => rw [hs']
  | moved hc hactive hmoves => exact configured_of_kept hmoves.slots
  | admitted hexecute hadmits htask hactive hmoves =>
      have hkept := configured_of_kept hmoves.slots
      exact hkept

theorem server_configured {settings : Settings} {s s' : ServerState} {a : ServerAction}
    {o : List ServerEffect} (ht : TimersActive s.worker)
    (ha : ∀ u, a ≠ .worker (.updateConfig u))
    (hstep : (server settings).step s a = some (s', o)) :
    configured s'.worker.worker = configured s.worker.worker := by
  cases step_worker hstep with
  | still hw ho => rw [hw]
  | submitted hsubmit haccepting hstep' => exact worker_configured ht (by simp) hstep'
  | @inner a' hinner _ hstep' =>
      refine worker_configured ht ?_ hstep'
      rintro u rfl
      exact ha u hinner

/-- A request that is not one for `handleConfig` leaves it alone. -/
theorem handleRequest_configured {d : Deployment} {s : HttpState} {r : Request}
    (ht : TimersActive s.server.worker) (hrunning : s.server.exited = false) (hr : ¬ r.isConfig)
    (env : RequestEnv) : (s.handleRequest d r env).1.configured = s.configured := by
  have hhandled := handleRequest_handled d s r env
  generalize s.handleRequest d r env = p at hhandled
  cases hhandled with
  | refused answer hstatus => rfl
  | status hpath => rfl
  | @submit v m hpath hbody hm hvalid =>
      have hstep : (server d.settings).step s.server
          (.submit (.request ⟨m.taskId, m.payload⟩ none) env.turn) = some _ :=
        if_neg (not_exited hrunning)
      exact server_configured ht (by simp) hstep
  | replay hpath hbody hm hvalid replays => rfl
  | config hpath hmethod => exact absurd ⟨hpath, hmethod⟩ hr
  | drain hpath hallowed =>
      have hstep : (server d.settings).step s.server (.drain none env.drainStart env.drainNow) =
          some _ := if_neg (not_exited hrunning)
      exact server_configured ht (by simp) hstep

theorem resumeReplay_configured (s : HttpState) (k : Nat) (p : PendingReplay) :
    (s.resumeReplay k p).1.configured = s.configured := by
  unfold HttpState.resumeReplay
  dsimp only
  split
  · rfl
  · rfl

/-! ## Along a run -/

/-- What a step does to the configuration. -/
inductive StepConfigured (s : HttpState) (a : HttpAction) (s' : HttpState) (o : List HttpEffect) :
    Prop where
  | kept (hsucceeded : succeeded a o = []) (hkept : s'.configured = s.configured)
  | updated {u : ConfigUpdate} (hsucceeded : succeeded a o = [u])
      (hreturned : (s.server.worker.worker.updateConfig u).1 = none)
      (hfinite : ∀ n ∈ u.maxConcurrency, n.isFinite = true)
      (hupdated : s'.configured = configured (s.server.worker.worker.updateConfig u).2)

theorem step_configured {d : Deployment} {s s' : HttpState} {a : HttpAction} {o : List HttpEffect}
    {updates : List ConfigUpdate} (ht : TimersActive s.server.worker)
    (hmerges : s.configured.Merges updates) (hstep : (http d).step s a = some (s', o)) :
    StepConfigured s a s' o := by
  obtain ⟨hrunning, hstep⟩ := Option.ite_none_left_eq_some.mp hstep
  have hrunning : s.server.exited = false := by simpa using hrunning
  cases a with
  | request r env =>
      by_cases hr : r.isConfig
      · have hanswered := handleConfig_answered (d := d) hmerges hr env
        rw [Option.some.inj hstep] at hanswered
        cases hanswered with
        | refused ho hstatus hserver =>
            refine .kept ?_ (configured_of_server hserver)
            rw [succeeded, ho, if_neg (by simp [hstatus])]
        | @applied response m ho hstatus hm hid hw hreturned =>
            have hsucceeded : succeeded (.request r env) o = [m.update] := by
              rw [succeeded, ho, if_pos ⟨hr, by simp [hstatus]⟩, hm]
              rfl
            refine .updated hsucceeded hreturned (configMessage_finite hm) ?_
            rw [HttpState.configured, hw]
      · have hkept := handleRequest_configured (d := d) ht hrunning hr env
        rw [Option.some.inj hstep] at hkept
        exact .kept (if_neg fun h => hr h.1) hkept
  | resumeReplay k =>
      obtain ⟨p, -, hstep⟩ := Option.bind_eq_some_iff.mp hstep
      obtain ⟨-, hstep⟩ := Option.ite_none_left_eq_some.mp hstep
      have hkept := resumeReplay_configured s k p
      rw [Option.some.inj hstep] at hkept
      exact .kept rfl hkept
  | internal a =>
      obtain ⟨hinternal, hstep⟩ := Option.ite_none_right_eq_some.mp hstep
      obtain ⟨r, hr, heq⟩ := Option.map_eq_some_iff.mp hstep
      have ha : ∀ u, a ≠ .worker (.updateConfig u) := by
        rintro u rfl
        exact Bool.false_ne_true hinternal
      have hkept : (s.runServer .null r).1.configured = s.configured := server_configured ht ha hr
      rw [heq] at hkept
      exact .kept rfl hkept

theorem step_callsInv {d : Deployment} {s s' : HttpState} {a : HttpAction} {o : List HttpEffect}
    (h : CallsInv s.server.worker) (hstep : (http d).step s a = some (s', o)) :
    CallsInv s'.server.worker := by
  cases step_server hstep with
  | still hs ho => rwa [hs]
  | steps a' out hstep' ho =>
      cases step_worker hstep' with
      | still hw ho => rwa [hw]
      | submitted hsubmit haccepting hstep'' => exact h.step hstep''
      | inner hinner _ hstep'' => exact h.step hstep''

/-- What holds while the updates that succeeded are these. -/
structure UpdatesInv (updates : List ConfigUpdate) (s : HttpState) : Prop where
  calls : CallsInv s.server.worker
  merges : s.configured.Merges updates

theorem UpdatesInv.step {d : Deployment} {s s' : HttpState} {a : HttpAction} {o : List HttpEffect}
    {updates : List ConfigUpdate} (h : UpdatesInv updates s)
    (hstep : (http d).step s a = some (s', o)) : UpdatesInv (updates ++ succeeded a o) s' := by
  refine ⟨step_callsInv h.calls hstep, ?_⟩
  cases step_configured h.calls.timers h.merges hstep with
  | kept hsucceeded hkept =>
      rw [hsucceeded, List.append_nil, hkept]
      exact h.merges
  | updated hsucceeded hreturned hfinite hupdated =>
      rw [hsucceeded, hupdated]
      rcases updateConfig_cases h.merges hfinite with ⟨-, hmerges⟩ | ⟨hsome, -⟩
      · exact hmerges
      · rw [hreturned] at hsome
        cases hsome

/-- In every state of every run of the server, the limit of the slots is that of the
configuration and at least one, and each cap and each flag has the value of the latest update
that has it, among those answered with status 200.  A further configuration request gets one
response: with status 200 only if its body parses, it names this worker and the update returns,
and otherwise the configuration stays exactly as it was. -/
theorem config_updates {d : Deployment} {s₀ s : HttpState} {as : List HttpAction}
    {updates : List ConfigUpdate} (hstart : Started s₀.server)
    (hrun : ((http d).observe succeeded).run s₀ as = some (s, updates)) :
    s.configured.Merges updates ∧
      ∀ r env s' o, r.isConfig → (http d).step s (.request r env) = some (s', o) →
        ∃ response, responses o = [response] ∧
          (response.status = 200 → ∃ m, r.body.configMessage? = some m ∧
            m.workerId = s.server.workerId ∧
            (s.server.worker.worker.updateConfig m.update).1 = none) ∧
          (response.status ≠ 200 → s'.configured = s.configured) := by
  have hinv : UpdatesInv updates s := by
    refine Machine.run_history _ (J := fun _ updates s => UpdatesInv updates s) ?_ ?_ hrun
    · intro _ updates s a s' o _ hinv hstep
      obtain ⟨out, hstep', rfl⟩ := Machine.observe_step_iff.mp hstep
      exact hinv.step hstep'
    · obtain ⟨w, hcreated, hw⟩ := hstart
      have hcalls : CallsInv s₀.server.worker := by
        rw [hw]
        exact hcreated.callsInv
      refine ⟨hcalls, ?_⟩
      obtain ⟨input, v, clock, hnew, rfl⟩ := hcreated
      rw [HttpState.configured, hw]
      exact new_merges hnew
  refine ⟨hinv.merges, ?_⟩
  intro r env s' o hr hstep
  have hanswered := handleConfig_answered (d := d) hinv.merges hr env
  rw [Option.some.inj (Option.ite_none_left_eq_some.mp hstep).2] at hanswered
  cases hanswered with
  | refused ho hstatus hserver =>
      exact ⟨_, ho, fun h => absurd h hstatus,
        fun _ => configured_of_server hserver⟩
  | applied ho hstatus hm hid hw hreturned =>
      exact ⟨_, ho, fun _ => ⟨_, hm, hid, hreturned⟩, fun h => absurd hstatus h⟩

/-- The limit is set to 2, and then to 1/2 together with a cap.  The second request is answered
with status 500, and neither its limit nor its cap is there. -/
theorem config_updates_refused :
    let auth : AuthConfig := ⟨false, some "secret", fun secret _ => secret, fun _ => "0"⟩
    let d : Deployment := ⟨auth, ⟨0, 5000, id⟩, 0, id, .value ""⟩
    let env : RequestEnv := ⟨⟨5, by decide⟩, ⟨5, ⟨5, none⟩, ⟨5, none⟩⟩, 5, 5, 5, 5⟩
    let update : List (String × Json) → Request := fun fields => ⟨"POST", "/api/config",
      .json (.obj ([("type", .str "WORKER_CONFIG_UPDATE"), ("worker_id", .str "w1"),
        ("effective_ts", .num 0)] ++ fields)), some "127.0.0.1"⟩
    let half : Number := .finite ⟨1, 2, by decide, by decide⟩
    let second := update [("max_concurrency", .num half), ("resource_caps", .obj [("a", .num 1)])]
    ∃ s₀ s updates, Started s₀.server ∧
      ((http d).observe succeeded).run s₀
        [.request (update [("max_concurrency", .num 2)]) env] = some (s, updates) ∧
      updates.length = 1 ∧ s.configured.Merges updates ∧
      ∃ s' response o, (http d).step s (.request second env) = some (s', o) ∧
        responses o = [response] ∧ response.status = 500 ∧ s'.configured = s.configured := by
  intro auth d env update half second
  have hstart : Started (HttpState.init (.init .ofDefaults)).server := started_ofDefaults
  obtain ⟨⟨s, updates⟩, hrun⟩ : ∃ p, ((http d).observe succeeded).run
      (.init (.init .ofDefaults)) [.request (update [("max_concurrency", .num 2)]) env] =
        some p := ⟨_, rfl⟩
  have hlen : updates.length = 1 := by
    rw [← (Prod.mk.inj (Option.some.inj hrun)).2]
    rfl
  obtain ⟨hmerges, hnext⟩ := config_updates hstart hrun
  obtain ⟨⟨s', o⟩, hstep⟩ : ∃ p, (http d).step s (.request second env) = some p := by
    rw [← (Prod.mk.inj (Option.some.inj hrun)).1]
    exact ⟨_, rfl⟩
  obtain ⟨response, ho, -, hkept⟩ := hnext second env s' o ⟨rfl, rfl⟩ hstep
  have hstatus : response.status = 500 := by
    have hresponses : responses o =
        [internalError (.ofMessage "maxConcurrency must be at least 1")] := by
      rw [← (Prod.mk.inj (Option.some.inj hrun)).1] at hstep
      rw [← (Prod.mk.inj (Option.some.inj hstep)).2]
      rfl
    rw [List.singleton_inj.mp (ho.symm.trans hresponses)]
    rfl
  exact ⟨_, s, updates, hstart, hrun, hlen, hmerges, s', response, o, hstep, ho, hstatus,
    hkept (by rw [hstatus]; decide)⟩

end L0Worker.Server
