import Mathlib.Data.List.Count
import L0Worker.Lib.JsonText
import L0Worker.Server.RunsWorker
import L0Worker.Supervisor.Pool

/-!
# How often a drain is announced

The handler of drain requests and the handler of signals share no flag.  Each prints
`worker.draining` and starts a loop of its own, and each loop that returns prints
`worker.drained`.  So a process prints one `worker.draining` for each accepted request
and each signal, and the supervisor, which asks over HTTP and then sends a signal as a
backup, reads two of them.  A signal that comes before the handlers are registered is not
announced at all.

`drains_once_iff` says that a drain is announced once exactly when it is asked for once, and
not while the process is starting.
-/

namespace L0Worker.Server

open Worker

/-! ## Lines -/

/-- The step is an accepted drain request or a signal. -/
def ServerAction.startsDrain : ServerAction → Bool
  | .drain none _ _ | .signal _ _ => true
  | _ => false

def Line.isDraining : Line → Bool
  | .draining _ => true
  | .drained _ _ => false

def Line.isDrained : Line → Bool
  | .draining _ => false
  | .drained _ _ => true

/-- The line that is printed, if one is. -/
def ServerEffect.line? : ServerEffect → Option Line
  | .printed line => some line
  | _ => none

/-- The lines that are printed, in order. -/
def lines (out : List ServerEffect) : List Line := out.filterMap ServerEffect.line?

theorem lines_append (o o' : List ServerEffect) : lines (o ++ o') = lines o ++ lines o' :=
  List.filterMap_append ..

/-! ## The reader of the lines -/

/-- The field `event` of a line. -/
def Line.event : Line → String
  | .draining _ => "worker.draining"
  | .drained _ _ => "worker.drained"

def Line.workerId : Line → String
  | .draining id | .drained id _ => id

/-- The object that is printed. -/
def Line.object : Line → Json
  | .drained id (some pendingTasks) =>
      .obj [("event", .str "worker.drained"), ("workerId", .str id), ("timedOut", .bool true),
        ("pendingTasks", .num (.ofNat pendingTasks))]
  | line => .obj [("event", .str line.event), ("workerId", .str line.workerId)]

/-- The line as the stdout reader of the supervisor takes it apart. -/
def Line.toStdout (line : Line) : Supervisor.Line :=
  .event line.event none (some line.workerId) line.object.stringify

/-- What the pool sends for the lines of a process.  It takes the event of the `k`-th line
when it is in the state `(pool k).1`, at the time `(pool k).2`. -/
def poolEvents (config : Supervisor.PoolConfig)
    (pool : ℕ → Supervisor.World × Supervisor.Instant) :
    List Line → List Supervisor.PoolEvent
  | [] => []
  | line :: rest =>
      (match line.toStdout.toEvent with
        | some event => ((pool 0).1.handleWorkerEvent config (pool 0).2 event).2
        | none => []) ++ poolEvents config (fun k => pool (k + 1)) rest

/-- The event that announces a line. -/
def Line.announcement : Line → Supervisor.PoolEvent
  | .draining id => .workerDraining id
  | .drained id _ => .workerDrained id

theorem poolEvents_eq (config : Supervisor.PoolConfig)
    (pool : ℕ → Supervisor.World × Supervisor.Instant) (ls : List Line) :
    poolEvents config pool ls = ls.map Line.announcement := by
  induction ls generalizing pool with
  | nil => rfl
  | cons line ls ih =>
      rw [poolEvents, ih, List.map_cons]
      cases line with
      | draining id => rfl
      | drained id pendingTasks => rfl

/-! ## What the lines count -/

section Steps

variable {settings : Settings} {s s' : ServerState} {a : ServerAction} {o : List ServerEffect}

/-- What a step does to the drains and what it prints. -/
inductive StepDrains (s : ServerState) (a : ServerAction) (s' : ServerState) (ls : List Line) :
    Prop where
  | silent (ha : a.startsDrain = false) (hdrains : s'.drains = s.drains) (hls : ls = [])
  | started {d : DrainLoop} {ended : List Line} (ha : a.startsDrain = true)
      (hdrains : s'.drains = s.drains ++ [d]) (hls : ls = .draining s.workerId :: ended)
      (hended : d.returned = false ∧ ended = [] ∨
        d.returned = true ∧ ∃ pending, ended = [.drained s.workerId pending])
  | polled {k : ℕ} {d d' : DrainLoop} (ha : a.startsDrain = false) (hd : s.drains[k]? = some d)
      (hwaiting : d.returned = false) (hdrains : s'.drains = s.drains.set k d')
      (hended : d'.returned = false ∧ ls = [] ∨
        d'.returned = true ∧ ∃ pending, ls = [.drained s.workerId pending])

theorem waitIteration_lines (s : ServerState) (startTime now : Int) :
    (s.waitIteration settings startTime now).1 = false ∧
        lines (s.waitIteration settings startTime now).2 = [] ∨
      (s.waitIteration settings startTime now).1 = true ∧
        ∃ pending, lines (s.waitIteration settings startTime now).2 =
          [.drained s.workerId pending] := by
  unfold ServerState.waitIteration
  dsimp only
  split
  · split
    · exact .inr ⟨rfl, _, rfl⟩
    · exact .inl ⟨rfl, rfl⟩
  · exact .inr ⟨rfl, none, rfl⟩

/-- A loop that is polled has not returned. -/
theorem poll_waiting {k : ℕ} {now : Int} {d : DrainLoop} (hd : s.drains[k]? = some d)
    (hstep : (server settings).step s (.poll k now) = some (s', o)) : d.returned = false := by
  obtain ⟨-, hstep⟩ := Option.ite_none_left_eq_some.mp hstep
  obtain ⟨d', hd', hstep⟩ := Option.bind_eq_some_iff.mp hstep
  obtain rfl := Option.some.inj (hd.symm.trans hd')
  exact Bool.eq_false_iff.mpr (Option.ite_none_left_eq_some.mp hstep).1

theorem runWorker_lines (s : ServerState) (r : Instance × List Effect) :
    lines (s.runWorker r).2 = [] := by
  refine List.filterMap_eq_nil_iff.mpr fun e he => ?_
  obtain ⟨effect, -, rfl⟩ := List.mem_map.mp he
  rfl

theorem step_drains (hstep : (server settings).step s a = some (s', o)) :
    StepDrains s a s' (lines o) := by
  cases step_cases hstep with
  | refused turn response hrefused => exact .silent rfl rfl rfl
  | submitted submit turn haccepting =>
      refine .silent rfl rfl ?_
      rw [lines_append, runWorker_lines]
      rfl
  | unauthorized reason startTime now => exact .silent rfl rfl rfl
  | drain startTime now =>
      refine .started rfl rfl ?_ (waitIteration_lines s startTime now)
      rw [List.cons_append]
      show Line.draining s.workerId :: lines (_ ++ [_]) = _
      rw [lines_append]
      exact congrArg _ (List.append_nil _)
  | signal startTime now => exact .started rfl rfl rfl (waitIteration_lines s startTime now)
  | @poll k d now hd =>
      exact .polled rfl hd (poll_waiting hd hstep) rfl (waitIteration_lines s d.startTime now)
  | exit hd hreturned => exact .silent rfl rfl rfl
  | @worker a r hinner hr => exact .silent rfl rfl (runWorker_lines s r)

end Steps

/-! ## Runs -/

/-- What the lines of a run count, and which of them is the first. -/
structure LinesCount (as : List ServerAction) (ls : List Line) (s : ServerState) : Prop where
  /-- One `worker.draining` for each request and each signal. -/
  draining : ls.countP Line.isDraining = as.countP ServerAction.startsDrain
  /-- One loop for each. -/
  loops : s.drains.length = as.countP ServerAction.startsDrain
  /-- One `worker.drained` for each loop that has returned. -/
  drained : ls.countP Line.isDrained = s.drains.countP DrainLoop.returned
  first : ∀ line ∈ ls.head?, line.isDraining = true

theorem drained_count {id : String} {returned : Bool} {ended : List Line}
    (h : returned = false ∧ ended = [] ∨
      returned = true ∧ ∃ pending, ended = [.drained id pending]) :
    ended.countP Line.isDraining = 0 ∧ ended.countP Line.isDrained = if returned then 1 else 0 := by
  rcases h with ⟨rfl, rfl⟩ | ⟨rfl, pending, rfl⟩
  · exact ⟨rfl, rfl⟩
  · exact ⟨rfl, rfl⟩

theorem head_append {ls ls' : List Line} (h : ∀ line ∈ ls.head?, line.isDraining = true)
    (h' : ls = [] → ∀ line ∈ ls'.head?, line.isDraining = true) :
    ∀ line ∈ (ls ++ ls').head?, line.isDraining = true := by
  cases ls with
  | nil => exact h' rfl
  | cons line ls => exact h

theorem LinesCount.step {settings : Settings} {s s' : ServerState} {as : List ServerAction}
    {a : ServerAction} {ls : List Line} {o : List ServerEffect} (h : LinesCount as ls s)
    (hstep : (server settings).step s a = some (s', o)) :
    LinesCount (as ++ [a]) (ls ++ lines o) s' := by
  have hcount : (as ++ [a]).countP ServerAction.startsDrain =
      as.countP ServerAction.startsDrain + if a.startsDrain then 1 else 0 := by
    rw [List.countP_append, List.countP_singleton]
  cases step_drains hstep with
  | silent ha hdrains hls =>
      rw [ha, if_neg Bool.false_ne_true, Nat.add_zero] at hcount
      rw [hls, List.append_nil]
      exact ⟨hcount ▸ h.draining, by rw [hdrains, hcount, h.loops],
        hdrains ▸ h.drained, h.first⟩
  | @started d ended ha hdrains hls hended =>
      rw [ha, if_pos rfl] at hcount
      obtain ⟨hnone, hone⟩ := drained_count hended
      refine ⟨?_, ?_, ?_, head_append h.first fun _ line hline => ?_⟩
      · rw [hls, List.countP_append, List.countP_cons_of_pos rfl, hnone, hcount, h.draining]
      · rw [hdrains, List.length_append, hcount, h.loops]
        rfl
      · rw [hls, List.countP_append, List.countP_cons_of_neg Bool.false_ne_true, hone, hdrains,
          List.countP_append, List.countP_singleton, h.drained]
      · rw [hls] at hline
        obtain rfl := Option.some.inj hline
        rfl
  | @polled k d d' ha hd hwaiting hdrains hended =>
      rw [ha, if_neg Bool.false_ne_true, Nat.add_zero] at hcount
      obtain ⟨hnone, hone⟩ := drained_count hended
      obtain ⟨hk, hget⟩ := List.getElem?_eq_some_iff.mp hd
      refine ⟨?_, ?_, ?_, head_append h.first fun hnil => ?_⟩
      · rw [List.countP_append, hnone, hcount, h.draining]
        rfl
      · rw [hdrains, List.length_set, hcount, h.loops]
      · rw [List.countP_append, hone, hdrains, List.countP_set hk, hget, hwaiting,
          if_neg Bool.false_ne_true, h.drained]
        rfl
      -- the loop was started by a step that has printed a line
      · have hzero : as.countP ServerAction.startsDrain = 0 := by rw [← h.draining, hnil]; rfl
        rw [← h.loops] at hzero
        omega

theorem run_linesCount {settings : Settings} {s₀ s : ServerState} {as : List ServerAction}
    {out : List ServerEffect} (hstart : Started s₀)
    (hrun : (server settings).run s₀ as = some (s, out)) : LinesCount as (lines out) s := by
  obtain ⟨w, -, rfl⟩ := hstart
  refine (server settings).run_history (J := fun as out s => LinesCount as (lines out) s) ?_ ?_ hrun
  · intro as out u a u' o _ hu hstep
    rw [lines_append]
    exact hu.step hstep
  · exact ⟨rfl, rfl, rfl, fun line hline => by cases hline⟩

/-- A drain is announced once: by the process, and by the supervisor that reads its lines. -/
structure DrainsOnce (out : List ServerEffect) : Prop where
  draining : (lines out).countP Line.isDraining = 1
  drained : (lines out).countP Line.isDrained ≤ 1
  /-- A `worker.drained` comes after `worker.draining`. -/
  ordered : ∀ before after id pending, lines out = before ++ .drained id pending :: after →
    ∃ id', .draining id' ∈ before
  supervisor : ∀ config pool, ∃ id,
    poolEvents config pool (lines out) = [.workerDraining id] ∨
      ∃ id', poolEvents config pool (lines out) = [.workerDraining id, .workerDrained id']

theorem length_eq_count (ls : List Line) :
    ls.length = ls.countP Line.isDraining + ls.countP Line.isDrained := by
  induction ls with
  | nil => rfl
  | cons line ls ih =>
      rw [List.length_cons, ih, List.countP_cons, List.countP_cons]
      cases line with
      | draining id => exact Nat.add_right_comm _ _ 1
      | drained id pending => rfl

/-- A `worker.draining`, and at most one `worker.drained` after it. -/
theorem lines_shape {ls : List Line} (hdraining : ls.countP Line.isDraining = 1)
    (hdrained : ls.countP Line.isDrained ≤ 1)
    (hfirst : ∀ line ∈ ls.head?, line.isDraining = true) :
    ∃ id, ls = [.draining id] ∨ ∃ id' pending, ls = [.draining id, .drained id' pending] := by
  have hlength : ls.length ≤ 2 := by
    rw [length_eq_count, hdraining]
    exact Nat.add_le_add_left hdrained 1
  cases ls with
  | nil => cases hdraining
  | cons line rest => cases line with
    | drained id pending => cases hfirst _ rfl
    | draining id =>
        refine ⟨id, ?_⟩
        rw [List.countP_cons_of_pos rfl, Nat.add_eq_right] at hdraining
        cases rest with
        | nil => exact .inl rfl
        | cons line rest => cases line with
          | draining id' =>
              rw [List.countP_cons_of_pos rfl] at hdraining
              cases hdraining
          | drained id' pending =>
              have hrest : rest.length ≤ 0 :=
                Nat.le_of_succ_le_succ (Nat.le_of_succ_le_succ hlength)
              rw [List.eq_nil_of_length_eq_zero (Nat.le_zero.mp hrest)]
              exact .inr ⟨id', pending, rfl⟩

theorem drainsOnce_of_shape {out : List ServerEffect} {id : String}
    (h : lines out = [.draining id] ∨
      ∃ id' pending, lines out = [.draining id, .drained id' pending]) : DrainsOnce out := by
  have hordered : ∀ before after id' pending, lines out = before ++ .drained id' pending :: after →
      ∃ id', .draining id' ∈ before := by
    intro before after id' pending heq
    cases before with
    | nil =>
        rcases h with h | ⟨_, _, h⟩
        · cases heq.symm.trans h
        · cases heq.symm.trans h
    | cons line before =>
        refine ⟨id, ?_⟩
        rcases h with h | ⟨_, _, h⟩
        · rw [(List.cons.inj (heq.symm.trans h)).1]
          exact List.mem_cons_self
        · rw [(List.cons.inj (heq.symm.trans h)).1]
          exact List.mem_cons_self
  rcases h with h | ⟨id', pending, h⟩
  · refine ⟨by rw [h]; rfl, by rw [h]; exact Nat.zero_le 1, hordered, fun config pool => ?_⟩
    exact ⟨id, .inl (by rw [poolEvents_eq, h]; rfl)⟩
  · refine ⟨by rw [h]; rfl, by rw [h]; exact Nat.le_refl 1, hordered, fun config pool => ?_⟩
    exact ⟨id, .inr ⟨id', by rw [poolEvents_eq, h]; rfl⟩⟩

/-- A server announces a drain once exactly when one drain request is accepted or one signal
is handled. -/
theorem server_drains_once_iff {settings : Settings} {s₀ s : ServerState} {as : List ServerAction}
    {out : List ServerEffect} (hstart : Started s₀)
    (hrun : (server settings).run s₀ as = some (s, out)) :
    DrainsOnce out ↔ as.countP ServerAction.startsDrain = 1 := by
  have hcount := run_linesCount hstart hrun
  constructor
  · intro honce
    rw [← hcount.draining, honce.draining]
  · intro hone
    have hdrained : (lines out).countP Line.isDrained ≤ 1 := by
      rw [hcount.drained, ← hone, ← hcount.loops]
      exact List.countP_le_length
    obtain ⟨id, hshape⟩ := lines_shape (hcount.draining.trans hone) hdrained hcount.first
    exact drainsOnce_of_shape hshape

/-! ## From the start of the process -/

/-- The step is an accepted drain request or a signal. -/
def ProcessAction.asksDrain : ProcessAction → Bool
  | .registered => false
  | .server a => a.startsDrain

def ProcessState.isStarting : ProcessState → Bool
  | .starting _ => true
  | _ => false

/-- No drain is asked for while the process is starting. -/
def AsksInTime (settings : Settings) (p : ProcessState) (as : List ProcessAction) : Prop :=
  (process settings).Along (fun p a _ _ => a.asksDrain = true → p.isStarting = false) p as

section Process

variable {settings : Settings} {s : ServerState} {p : ProcessState} {as : List ProcessAction}
variable {out : List ServerEffect}

theorem killed_stuck (hrun : (process settings).run .killed as = some (p, out)) : as = [] := by
  cases as with
  | nil => rfl
  | cons a as =>
      obtain ⟨u, o, o', hu, -⟩ := (process settings).run_cons_iff.mp hrun
      cases hu

/-- What serves is a server. -/
theorem run_serving (hrun : (process settings).run (.serving s) as = some (p, out)) :
    ∃ bs s', as = bs.map .server ∧ (server settings).run s bs = some (s', out) := by
  induction as generalizing s out with
  | nil =>
      obtain ⟨-, rfl⟩ := Prod.mk.inj (Option.some.inj hrun)
      exact ⟨[], s, rfl, rfl⟩
  | cons a as ih =>
      obtain ⟨u, o, o', hu, ht, rfl⟩ := (process settings).run_cons_iff.mp hrun
      cases a with
      | registered => cases hu
      | server a =>
          obtain ⟨r, hr, heq⟩ := Option.map_eq_some_iff.mp hu
          obtain ⟨rfl, rfl⟩ := Prod.mk.inj heq
          obtain ⟨bs, s', rfl, hbs⟩ := ih ht
          exact ⟨a :: bs, s', rfl, (server settings).run_cons_iff.mpr ⟨_, _, _, hr, hbs, rfl⟩⟩

theorem serving_asksInTime (hrun : (process settings).run (.serving s) as = some (p, out)) :
    AsksInTime settings (.serving s) as := by
  induction as generalizing s out with
  | nil => trivial
  | cons a as ih =>
      obtain ⟨u, o, o', hu, ht, rfl⟩ := (process settings).run_cons_iff.mp hrun
      refine (Machine.along_cons_iff hu).mpr ⟨fun _ => rfl, ?_⟩
      cases a with
      | registered => cases hu
      | server a =>
          obtain ⟨r, -, heq⟩ := Option.map_eq_some_iff.mp hu
          obtain ⟨rfl, -⟩ := Prod.mk.inj heq
          exact ih ht

theorem countP_asksDrain (bs : List ServerAction) :
    (bs.map ProcessAction.server).countP ProcessAction.asksDrain =
      bs.countP ServerAction.startsDrain := by
  rw [List.countP_map]
  rfl

theorem not_drainsOnce_of_silent (h : lines out = []) : ¬ DrainsOnce out := by
  intro honce
  have hone := honce.draining
  rw [h] at hone
  cases hone

/-- A drain is announced once exactly when one drain request is accepted or one signal arrives,
and not while the process is starting. -/
theorem drains_once_iff {worker : Instance} (hnew : Created worker)
    (hrun : (process settings).run (.starting worker) as = some (p, out)) :
    DrainsOnce out ↔
      as.countP ProcessAction.asksDrain = 1 ∧ AsksInTime settings (.starting worker) as := by
  cases as with
  | nil =>
      obtain ⟨-, rfl⟩ := Prod.mk.inj (Option.some.inj hrun)
      exact iff_of_false (not_drainsOnce_of_silent rfl) fun h => by cases h.1
  | cons a as =>
      obtain ⟨u, o, o', hu, ht, rfl⟩ := (process settings).run_cons_iff.mp hrun
      cases a with
      | registered =>
          obtain ⟨rfl, rfl⟩ := Prod.mk.inj (Option.some.inj hu)
          have hintime : AsksInTime settings (.starting worker) (.registered :: as) :=
            (Machine.along_cons_iff hu).mpr
              ⟨fun h => absurd h Bool.false_ne_true, serving_asksInTime ht⟩
          obtain ⟨bs, s', rfl, hbs⟩ := run_serving ht
          rw [and_iff_left hintime, List.countP_cons_of_neg Bool.false_ne_true, countP_asksDrain]
          exact server_drains_once_iff ⟨worker, hnew, rfl⟩ hbs
      | server a =>
          cases a with
          | signal startTime now =>
              obtain ⟨rfl, rfl⟩ := Prod.mk.inj (Option.some.inj hu)
              obtain rfl := killed_stuck ht
              obtain ⟨-, rfl⟩ := Prod.mk.inj (Option.some.inj ht)
              refine iff_of_false (not_drainsOnce_of_silent rfl) fun h => ?_
              cases ((Machine.along_cons_iff hu).mp h.2).1 rfl
          | _ => cases hu

end Process

/-- A task is in flight.  The supervisor sends a drain request, and then the signal. -/
theorem backup_signal_drains_again :
    ¬ ∀ (settings : Settings) (worker : Instance) (p : ProcessState) (as : List ProcessAction)
        (out : List ServerEffect), Created worker →
        (process settings).run (.starting worker) as = some (p, out) →
        (∃ a ∈ as, a.asksDrain = true) → DrainsOnce out := by
  intro claim
  let turn : Turn := ⟨0, ⟨0, none⟩, ⟨0, none⟩⟩
  let as : List ProcessAction :=
    [.registered, .server (.submit (.request ⟨"t1", some (.obj [("prompt", .str "a")])⟩ none) turn),
      .server (.drain none 1 1), .server (.signal 2 2)]
  have hlines : ((process ⟨0, 5000, id⟩).run (.starting .ofDefaults) as).map
      (fun r => (lines r.2).countP Line.isDraining) = some 2 := rfl
  obtain ⟨⟨p, out⟩, hrun, htwo⟩ := Option.map_eq_some_iff.mp hlines
  have honce := claim ⟨0, 5000, id⟩ _ p as out created_ofDefaults hrun
    ⟨.server (.drain none 1 1), by simp [as], rfl⟩
  cases honce.draining.symm.trans htwo

/-- The drain of a worker with one task in flight, which completes. -/
theorem drains_once_iff_oneRequest :
    let turn : Turn := ⟨0, ⟨0, none⟩, ⟨0, none⟩⟩
    let as : List ProcessAction := .registered :: List.map .server
      [.submit (.request ⟨"t1", some (.obj [("prompt", .str "a")])⟩ none) turn,
        .worker (.start 0 0), .drain none 1 1, .worker (.settle 0 (.ok ⟨"done", 1, 1, 1⟩) turn),
        .worker (.finish 0), .poll 0 51, .exit 0]
    ∃ worker p out, Created worker ∧
      (process ⟨0, 5000, id⟩).run (.starting worker) as = some (p, out) ∧ DrainsOnce out := by
  intro turn as
  have hruns : ((process ⟨0, 5000, id⟩).run (.starting .ofDefaults) as).isSome = true := rfl
  obtain ⟨⟨p, out⟩, hrun⟩ := Option.isSome_iff_exists.mp hruns
  have hintime : AsksInTime ⟨0, 5000, id⟩ (.starting .ofDefaults) as := by
    obtain ⟨u, o, o', hu, ht, rfl⟩ := (process ⟨0, 5000, id⟩).run_cons_iff.mp hrun
    obtain ⟨rfl, rfl⟩ := Prod.mk.inj (Option.some.inj hu)
    exact (Machine.along_cons_iff hu).mpr
      ⟨fun h => absurd h Bool.false_ne_true, serving_asksInTime ht⟩
  exact ⟨_, p, out, created_ofDefaults, hrun,
    (drains_once_iff created_ofDefaults hrun).mpr ⟨rfl, hintime⟩⟩

end L0Worker.Server
