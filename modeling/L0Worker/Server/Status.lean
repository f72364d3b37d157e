import Mathlib.Data.Nat.Cast.Order.Ring
import L0Worker.Lib.NumberSum
import L0Worker.Server.Http
import L0Worker.Supervisor.Pool
import L0Worker.Worker.Capacity

/-!
# The status and who reads it

The worker writes its status with JavaScript numbers, and the supervisor reads it into
unsigned integers of 32 and 64 bits.  Nothing on the way to the answer makes the numbers
fit: a limit may be any number that is at least one, and the times are differences and
readings of a clock that may be set back.

`status_healthy_iff` says for which states and readings an answer is read.  An answer that
is not read counts as a failed check, although the worker is well.
-/

namespace L0Worker.Server

open Worker Schema
open Supervisor (WorkerStatus HealthCheckResult ManagedWorker PoolConfig)

/-! ## The decoder -/

/-- An unsigned integer below `bound`. -/
def unsigned (bound : Nat) : Schema Nat
  | some (.num (.finite q)) =>
      if q.den = 1 ∧ 0 ≤ q.num ∧ q.num.toNat < bound then some q.num.toNat else none
  | _ => none

def u32 : Schema UInt32 := fun v => (unsigned (2 ^ 32) v).map UInt32.ofNat

def u64 : Schema UInt64 := fun v => (unsigned (2 ^ 64) v).map UInt64.ofNat

/-- The decoder of `WorkerStatus`, for an object. -/
def workerStatusDecoder : Schema WorkerStatus :=
  object fun fields => do
    let workerId ← string (fields.lookup "workerId")
    let state ← string (fields.lookup "state")
    let protocolVersion ← string.default "" (fields.lookup "protocolVersion")
    let maxConcurrency ← u32 (fields.lookup "maxConcurrency")
    let inflight ← u32 (fields.lookup "inflight")
    let availableSlots ← u32 (fields.lookup "availableSlots")
    let uptimeMs ← u64.default 0 (fields.lookup "uptimeMs")
    let ts ← u64 (fields.lookup "ts")
    return { workerId, state, protocolVersion, maxConcurrency, inflight, availableSlots, uptimeMs,
             ts }

/-- What a request of the health checker meets. -/
inductive Reply where
  /-- A response, with the text of its status, its body as far as it is JSON, and what the
  decoder says of a body it cannot read. -/
  | response (code : Nat) (codeText : String) (body : Option Json) (decodeError : String)
  | connectFailed (error : String)
  | timedOut (error : String)
  | failed (error : String)

/-- `HealthChecker::check`. -/
def Reply.check : Reply → HealthCheckResult
  | .response code codeText body decodeError =>
      if 200 ≤ code ∧ code < 300 then
        match body.bind fun v => workerStatusDecoder (some v) with
        | some status => .healthy status
        | none => .unhealthy ("Invalid response: " ++ decodeError)
      else .unhealthy ("HTTP " ++ codeText)
  | .connectFailed error => .unreachable ("Connection failed: " ++ error)
  | .timedOut error => .unreachable ("Timeout: " ++ error)
  | .failed error => .unhealthy ("Request failed: " ++ error)

/-- The response as the health checker gets it. -/
def HttpResponse.reply (codeText decodeError : String) : HttpResponse → Reply
  | .json code body => .response code codeText (some body) decodeError
  | .stream => .response 200 codeText none decodeError

/-! ## Numbers that fit -/

theorem unsigned_ofNat (bound k : Nat) :
    unsigned bound (some (.num (.ofNat k))) = if k < bound then some k else none := by
  simp [unsigned, Number.ofNat]

theorem unsigned_ofInt (bound : Nat) (n : Int) :
    unsigned bound (some (.num (.ofInt n))) =
      if 0 ≤ n ∧ n < bound then some n.toNat else none := by
  have hiff : (0 ≤ n ∧ n.toNat < bound) ↔ 0 ≤ n ∧ n < bound := by omega
  simp [unsigned, Number.ofInt, hiff]

theorem ofNumber_ofNat (k : Nat) : Json.ofNumber (.ofNat k) = .num (.ofNat k) := rfl

/-- A number is read only if it is an integer in range. -/
theorem unsigned_ofNumber_isSome_iff {bound : Nat} {n : Number} :
    (unsigned bound (some (.ofNumber n))).isSome = true ↔ ∃ k, n = .ofNat k ∧ k < bound := by
  cases n with
  | finite q =>
      constructor
      · intro h
        simp only [Json.ofNumber, Number.isFinite, if_true, unsigned, Option.isSome_ite] at h
        obtain ⟨hden, hnum, hlt⟩ := h
        refine ⟨q.num.toNat, ?_, hlt⟩
        have hq : q = ((q.num.toNat : Nat) : ℚ) := by
          have hcast : ((q.num.toNat : Nat) : Int) = q.num := Int.toNat_of_nonneg hnum
          calc q = (q.num : ℚ) := (Rat.coe_int_num_of_den_eq_one hden).symm
            _ = (((q.num.toNat : Nat) : Int) : ℚ) := by rw [hcast]
            _ = ((q.num.toNat : Nat) : ℚ) := Int.cast_natCast _
        exact congrArg Number.finite hq
      · rintro ⟨k, hk, hlt⟩
        rw [hk]
        show (unsigned bound (some (.num (.ofNat k)))).isSome = true
        rw [unsigned_ofNat, if_pos hlt]
        rfl
  | _ => simp [Json.ofNumber, Number.isFinite, unsigned, Number.ofNat]

theorem u32_ofNat {k : Nat} (h : k < 2 ^ 32) :
    u32 (some (.num (.ofNat k))) = some (UInt32.ofNat k) := by
  rw [u32, unsigned_ofNat, if_pos h]
  rfl

theorem u64_ofInt {n : Int} (h0 : 0 ≤ n) (h : n < 2 ^ 64) :
    u64 (some (.num (.ofInt n))) = some (UInt64.ofNat n.toNat) := by
  rw [u64, unsigned_ofInt, if_pos ⟨h0, h⟩]
  rfl

theorem isSome_of_u32 {v : Option Json} {n : UInt32} (h : u32 v = some n) :
    (unsigned (2 ^ 32) v).isSome = true := by
  obtain ⟨k, hk, -⟩ := Option.map_eq_some_iff.mp h
  rw [hk]
  rfl

theorem isSome_of_u64 {v : Option Json} {n : UInt64} (h : u64 v = some n) :
    (unsigned (2 ^ 64) v).isSome = true := by
  obtain ⟨k, hk, -⟩ := Option.map_eq_some_iff.mp h
  rw [hk]
  rfl

/-- `availableCount` for numbers of 32 bits. -/
theorem availableCount_ofNat {limit inflight : Nat} (hlimit : limit < 2 ^ 32)
    (hinflight : inflight < 2 ^ 32) :
    Number.max 0 ((Number.ofNat limit).add (Number.neg (.ofNat inflight))) =
      .ofNat (limit - inflight) := by
  have hneg : Number.neg (.ofNat inflight) = .ofInt (-inflight) := by
    simp [Number.neg, Number.ofNat, Number.ofInt]
  have hsum : (Number.ofNat limit).add (.ofInt (-inflight)) = .ofInt (limit + -inflight) :=
    Number.add_ofInt (m := limit) (by omega)
  have hzero : (0 : Number) = .ofInt 0 := rfl
  have hfinite : ∀ n : Int, Number.ofInt n ≠ .nan := fun _ => Number.noConfusion
  rw [hneg, hsum, Number.max, hzero, if_neg (by simp [hfinite])]
  rcases Nat.lt_or_ge inflight limit with hlt | hge
  · rw [if_pos (Number.ofInt_lt_ofInt_iff.mpr (by omega)), Number.ofNat, Number.ofInt,
      Nat.cast_sub hlt.le]
    congr 1
    push_cast
    ring
  · rw [if_neg (fun h => absurd (Number.ofInt_lt_ofInt_iff.mp h) (by omega)),
      Nat.sub_eq_zero_of_le hge]
    rfl

/-! ## When a status is read -/

section Reading

variable {d : Deployment} {s : HttpState} {env : RequestEnv}

/-- The numbers of a status fit the fields they are read into. -/
structure StatusFits (d : Deployment) (s : HttpState) (env : RequestEnv) : Prop where
  /-- The limit is an integer of 32 bits. -/
  limit : ∃ k, s.server.worker.worker.configManager.runtime.maxConcurrency = .ofNat k ∧ k < 2 ^ 32
  inflight : s.server.worker.worker.slots.inflightCount < 2 ^ 32
  /-- The clock is not before the start. -/
  uptime : 0 ≤ env.uptimeNow - d.startTime ∧ env.uptimeNow - d.startTime < 2 ^ 64
  ts : 0 ≤ env.responseNow ∧ env.responseNow < 2 ^ 64

/-- The answer is taken for that of a healthy worker, and no entry of a pool is killed for
it. -/
def TakenAsHealthy (reply : Reply) : Prop :=
  (∃ status, reply.check = .healthy status) ∧
    ∀ (config : PoolConfig) now id port isRunning (m : ManagedWorker),
      (m.check config now id port reply.check isRunning).kill = false

/-- An answer with status 200 is taken for healthy exactly when it is read. -/
theorem takenAsHealthy_iff {body : Json} {codeText decodeError : String} :
    TakenAsHealthy ((HttpResponse.json 200 body).reply codeText decodeError) ↔
      (workerStatusDecoder (some body)).isSome = true := by
  have hcheck : ((HttpResponse.json 200 body).reply codeText decodeError).check =
      match workerStatusDecoder (some body) with
      | some status => .healthy status
      | none => .unhealthy ("Invalid response: " ++ decodeError) := rfl
  unfold TakenAsHealthy
  rw [hcheck]
  cases workerStatusDecoder (some body) with
  | none => simp
  | some status => simp [ManagedWorker.check]

/-- The decoder on a status: the numbers are all it may refuse. -/
theorem workerStatusDecoder_statusBody :
    workerStatusDecoder (some (s.statusBody d env)) = do
      let w := s.server.worker.worker
      let maxConcurrency ← u32 (some (.ofNumber w.configManager.runtime.maxConcurrency))
      let inflight ← u32 (some (.num (.ofNat w.slots.inflightCount)))
      let availableSlots ← u32 (some (.ofNumber
        (.max 0 (w.slots.maxConcurrency.add (Number.neg (.ofNat w.slots.inflightCount))))))
      let uptimeMs ← u64 (some (.num (.ofInt (env.uptimeNow - d.startTime))))
      let ts ← u64 (some (.num (.ofInt env.responseNow)))
      return ⟨w.configManager.workerId, w.stateMachine.text, w.configManager.protocolVersion,
        maxConcurrency, inflight, availableSlots, uptimeMs, ts⟩ := rfl

theorem statusBody_read_iff {limit : Number} (hlimit : LimitInv limit s.server.worker) :
    (workerStatusDecoder (some (s.statusBody d env))).isSome = true ↔ StatusFits d s env := by
  have hconfig : s.server.worker.worker.slots.maxConcurrency =
      s.server.worker.worker.configManager.runtime.maxConcurrency :=
    hlimit.slots.trans hlimit.config.symm
  rw [workerStatusDecoder_statusBody]
  constructor
  · intro h
    obtain ⟨status, h⟩ := Option.isSome_iff_exists.mp h
    simp only [Option.bind_eq_bind, Option.bind_eq_some_iff] at h
    obtain ⟨limit, hmax, inflight, hinflight, _, -, uptime, huptime, ts, hts, -⟩ := h
    have hmax := isSome_of_u32 hmax
    have hinflight := isSome_of_u32 hinflight
    have huptime := isSome_of_u64 huptime
    have hts := isSome_of_u64 hts
    rw [unsigned_ofNat, Option.isSome_ite] at hinflight
    rw [unsigned_ofInt, Option.isSome_ite] at huptime hts
    exact ⟨unsigned_ofNumber_isSome_iff.mp hmax, hinflight, huptime, hts⟩
  · rintro ⟨⟨k, hk, hlt⟩, hinflight, huptime, hts⟩
    have havailable : k - s.server.worker.worker.slots.inflightCount < 2 ^ 32 := by omega
    dsimp only
    rw [hconfig, hk, availableCount_ofNat hlt hinflight, ofNumber_ofNat, ofNumber_ofNat,
      u32_ofNat hlt, u32_ofNat hinflight, u32_ofNat havailable, u64_ofInt huptime.1 huptime.2,
      u64_ofInt hts.1 hts.2]
    rfl

end Reading

/-! ## Along a run -/

/-- In every state of every run of a server that has not ended, the answer to a status
request is taken for that of a healthy worker exactly when the limit is an integer of 32
bits, fewer than 2³² tasks are in flight, and the clock is neither before the start of the
process nor negative nor beyond 64 bits. -/
theorem status_healthy_iff {d : Deployment} {s₀ s : HttpState} {as : List HttpAction}
    {out : List HttpEffect} (hstart : Started s₀.server)
    (hrun : (http d).run s₀ as = some (s, out)) (hrunning : s.server.exited = false)
    (body : Body) (address : Option String) (env : RequestEnv) (codeText decodeError : String) :
    ∃ response, (http d).step s (.request ⟨"GET", "/api/status", body, address⟩ env) =
        some (s, [.responded response]) ∧
      (TakenAsHealthy (response.reply codeText decodeError) ↔ StatusFits d s env) := by
  obtain ⟨as', out', hserver, -⟩ := http_run_server hrun
  obtain ⟨as', hworker⟩ := run_worker hserver
  obtain ⟨w, ⟨input, v, clock, hnew, rfl⟩, hinit⟩ := hstart
  rw [hinit] at hworker
  have hlimit := run_limitInv hnew hworker
  refine ⟨.json 200 (s.statusBody d env), if_neg (not_exited hrunning), ?_⟩
  rw [takenAsHealthy_iff]
  exact statusBody_read_iff hlimit

/-- The limit is set to 1.5 from localhost, which is accepted.  The next status is not read,
and a pool that kills after two failed checks kills the worker when it is not read again. -/
theorem fractional_limit_not_read :
    let limit : Number := .finite ⟨3, 2, by decide, by decide⟩
    let auth : AuthConfig := ⟨false, some "secret", fun secret _ => secret, fun _ => "0"⟩
    let d : Deployment := ⟨auth, ⟨0, 5000, id⟩, 0, id, .value ""⟩
    let env : RequestEnv := ⟨⟨5, by decide⟩, ⟨5, ⟨5, none⟩, ⟨5, none⟩⟩, 5, 5, 5, 5⟩
    let update : Request := ⟨"POST", "/api/config",
      .json (.obj [("type", .str "WORKER_CONFIG_UPDATE"), ("worker_id", .str "w1"),
        ("max_concurrency", .num limit), ("effective_ts", .num 0)]), some "127.0.0.1"⟩
    let status : Request := ⟨"GET", "/api/status", .empty, some "127.0.0.1"⟩
    ∃ s₀ s out response, Started s₀.server ∧
      (http d).run s₀ [.request update env] = some (s, out) ∧
      httpWorkerEffects out = [.configUpdated none] ∧
      (http d).step s (.request status env) = some (s, [.responded response]) ∧
      ¬ TakenAsHealthy (response.reply "OK" "invalid type: floating point") ∧
      (ManagedWorker.check ⟨1, 3000, 1000, 30000, 5, 2, 3010⟩ 9 "w1" 3000
        (response.reply "OK" "invalid type: floating point").check true
        ⟨⟨"w1", 3000, 1⟩, .healthy, 0, 1, none⟩).kill = true := by
  intro limit auth d env update status
  refine ⟨.init (.init .ofDefaults), _, _, _, started_ofDefaults, rfl, rfl, rfl, ?_, rfl⟩
  rw [takenAsHealthy_iff]
  exact Bool.false_ne_true

/-- A new worker is taken for healthy. -/
theorem status_healthy_iff_newWorker :
    let auth : AuthConfig := ⟨false, none, fun secret _ => secret, fun _ => "0"⟩
    let d : Deployment := ⟨auth, ⟨0, 5000, id⟩, 0, id, .value ""⟩
    let env : RequestEnv := ⟨⟨5, by decide⟩, ⟨5, ⟨5, none⟩, ⟨5, none⟩⟩, 5, 5, 5, 5⟩
    ∃ s₀ response, Started s₀.server ∧
      (http d).step s₀ (.request ⟨"GET", "/api/status", .empty, none⟩ env) =
        some (s₀, [.responded response]) ∧
      TakenAsHealthy (response.reply "OK" "") := by
  intro auth d env
  have hstart : Started (HttpState.init (.init .ofDefaults)).server := started_ofDefaults
  have hrun : (http d).run (.init (.init .ofDefaults)) [] =
      some (.init (.init .ofDefaults), []) := rfl
  obtain ⟨response, hstep, hiff⟩ := status_healthy_iff hstart hrun rfl .empty none env "OK" ""
  refine ⟨_, response, hstart, hstep, hiff.mpr ?_⟩
  exact ⟨⟨4, rfl, by decide⟩, by decide, by decide, by decide⟩

end L0Worker.Server
