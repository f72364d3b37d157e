import L0Worker.Worker.Events
import L0Worker.Worker.Reports

/-!
# The two output hashes of a task

A replay compares the expected hash with that of the last completion in the log, and
`getRecordedOutputHash` returns that of the first.  A task id may be submitted again once it
was released, so the log of a task may hold several completions.

`hashesAgree_iff` says that the two agree in every state of a run exactly if every completion
repeats the hashes that the log has for its task.
-/

namespace L0Worker.Worker

/-! ## Completions in a log -/

/-- The output hash of a `TASK_COMPLETED` event. -/
def OutboundEvent.outputHash? : OutboundEvent → Option String
  | .taskCompleted _ _ _ hash _ _ => some hash
  | _ => none

/-- The output hashes of the completions in the log of a task. -/
def MemoryEventStore.outputHashes (s : MemoryEventStore) (taskId : String) : List String :=
  (s.getEventsForTask taskId).filterMap OutboundEvent.outputHash?

/-- One reader stops at the first completion. -/
theorem getRecordedOutputHash_eq (s : MemoryEventStore) (taskId : String) :
    getRecordedOutputHash s taskId = (s.outputHashes taskId).head? :=
  (List.head?_filterMap ..).symm

/-- The other one goes on to the last. -/
theorem lastOutputHash_eq (events : List OutboundEvent) :
    lastOutputHash events = (events.filterMap OutboundEvent.outputHash?).getLast? := by
  induction events using List.reverseRecOn with
  | nil => rfl
  | append_singleton events event ih =>
      unfold lastOutputHash at ih ⊢
      rw [List.foldl_append, ih, List.filterMap_append]
      cases event with
      | taskCompleted id workerId metrics hash output ts => simp [OutboundEvent.outputHash?]
      | _ => simp [OutboundEvent.outputHash?]

/-- What a replay reports for an expected hash is what the recorded hash says. -/
def HashesAgree (s : MemoryEventStore) : Prop :=
  ∀ taskId expected, s.HasTask taskId →
    (replayWithValidation s taskId (some expected)).outputHashMatch =
      (getRecordedOutputHash s taskId).map (· == expected)

theorem outputHashMatch_eq {s : MemoryEventStore} {taskId : String} (h : s.HasTask taskId)
    (expected : String) :
    (replayWithValidation s taskId (some expected)).outputHashMatch =
      (s.outputHashes taskId).getLast?.map (· == expected) := by
  rw [replayWithValidation, if_pos h, MemoryEventStore.outputHashes, ← lastOutputHash_eq]
  unfold replaySuccess
  dsimp only
  cases lastOutputHash (s.getEventsForTask taskId) <;> rfl

/-- The log of a task starts and ends with the same output hash. -/
def MemoryEventStore.OneHash (s : MemoryEventStore) (taskId : String) : Prop :=
  (s.outputHashes taskId).head? = (s.outputHashes taskId).getLast?

instance (s : MemoryEventStore) (taskId : String) : Decidable (s.OneHash taskId) :=
  inferInstanceAs (Decidable (_ = _))

theorem hashesAgree_iff_oneHash {s : MemoryEventStore} : HashesAgree s ↔ ∀ id, s.OneHash id := by
  unfold HashesAgree MemoryEventStore.OneHash
  constructor
  · intro h taskId
    by_cases hstored : s.HasTask taskId
    · have hmap := fun expected =>
        (outputHashMatch_eq hstored expected).symm.trans (h taskId expected hstored)
      rw [getRecordedOutputHash_eq] at hmap
      -- expect the last hash
      cases hlast : (s.outputHashes taskId).getLast? with
      | none => rw [List.head?_eq_none_iff, List.getLast?_eq_none_iff.mp hlast]
      | some hash =>
          have heq := hmap hash
          rw [hlast, Option.map_some, beq_self_eq_true] at heq
          obtain ⟨first, hfirst, hsame⟩ := Option.map_eq_some_iff.mp heq.symm
          rw [hfirst, beq_iff_eq.mp hsame]
    · have hevents : s.getEventsForTask taskId = [] := by
        rw [MemoryEventStore.getEventsForTask, JsMap.get?_eq_none_iff.mpr hstored]
        rfl
      rw [MemoryEventStore.outputHashes, hevents]
      rfl
  · intro h taskId expected hstored
    rw [outputHashMatch_eq hstored, getRecordedOutputHash_eq, h taskId]

/-- This is the result that the loop of a replay reports. -/
theorem replayLoop_result {s : Instance} {j : Nat} {r : ReplayCall}
    (h : s.worker.eventStore.HasTask r.taskId) :
    .replaySettled j (.ok (replayWithValidation s.worker.eventStore r.taskId
      r.expectedOutputHash)) ∈ (s.replayLoop j r none).2 := by
  rw [replayWithValidation, if_pos h]
  exact List.mem_append_right _ (List.mem_singleton_self _)

/-! ## Completions in a step -/

/-- The task and the output hash, if a completion was recorded. -/
def Effect.completion? : Effect → Option (String × String)
  | .recorded _ taskId event => event.outputHash?.map fun hash => (taskId, hash)
  | _ => none

/-- The completions that were recorded. -/
def completions (o : List Effect) : List (String × String) := o.filterMap Effect.completion?

theorem completions_append (o o' : List Effect) :
    completions (o ++ o') = completions o ++ completions o' :=
  List.filterMap_append ..

/-- Effects whose events complete no task. -/
theorem completions_of_events {o : List Effect}
    (h : AllEvents (fun event => event.isCompleted = false) o) : completions o = [] := by
  refine List.filterMap_eq_nil_iff.mpr fun e he => ?_
  cases e with
  | recorded k taskId event =>
      have hevent := h _ he event rfl
      cases event with
      | taskCompleted => cases hevent
      | _ => rfl
  | _ => rfl

/-- The completion that is recorded when the executor settles. -/
def completionOf (settings : Settings) (c : Call) (outcome : Except Thrown ExecutionResult)
    (turn : Turn) : List (String × String) :=
  match outcome, turn.event.throws with
  | .ok result, none => [(c.taskId, settings.sha256 result.content)]
  | _, _ => []

theorem completions_executorSettled (s : Instance) (i : Nat) (c : Call) (settings : Settings)
    (startTime : Int) (outcome : Except Thrown ExecutionResult) (turn : Turn) :
    completions (s.executorSettled settings i c startTime outcome turn).2 =
      completionOf settings c outcome turn := by
  have hcatch : ∀ (s : Instance) (e : Thrown),
      completions (s.catchBlock i c e turn.failed).2 = [] := fun s e =>
    completions_of_events (catchBlock_events s i c e turn.failed fun _ _ _ _ _ _ => rfl)
  cases outcome with
  | error e => exact hcatch s e
  | ok result =>
      unfold Instance.executorSettled completionOf
      dsimp only
      cases hthrows : turn.event.throws with
      | none =>
          rw [Instance.report_returns hthrows]
          rfl
      | some e =>
          rw [completions_append, Instance.report_throws hthrows, hcatch]
          rfl

/-- The completions of a step are those of an executor that settles. -/
def Action.completions (settings : Settings) (s : Instance) : Action → List (String × String)
  | .settle i outcome turn => s.calls[i]?.elim [] fun c => completionOf settings c outcome turn
  | _ => []

theorem step_completions {settings : Settings} {s s' : Instance} {a : Action} {o : List Effect}
    (hstep : (worker settings).step s a = some (s', o)) :
    completions o = a.completions settings s := by
  cases a with
  | settle i outcome turn =>
      cases step_cases hstep with
      | settle outcome turn hc hstart =>
          rw [completions_executorSettled, Action.completions, hc]
          rfl
  | _ => exact completions_of_events (step_not_completed hstep fun _ _ _ h => nomatch h)

/-- The log of a task grows by the completions that are recorded for it. -/
theorem step_outputHashes {settings : Settings} {s s' : Instance} {a : Action} {o : List Effect}
    (hkeeps : s.worker.eventStore.Keeps) (hstep : (worker settings).step s a = some (s', o))
    (taskId : String) :
    s'.worker.eventStore.outputHashes taskId = s.worker.eventStore.outputHashes taskId ++
      (a.completions settings s).filterMap fun p => if p.1 = taskId then some p.2 else none := by
  rw [← step_completions hstep]
  unfold MemoryEventStore.outputHashes
  rw [((step_reports hstep).store hkeeps).2 taskId, List.filterMap_append, completions,
    List.filterMap_filterMap, List.filterMap_filterMap]
  congr 1
  refine List.filterMap_congr fun e _ => ?_
  cases e with
  | recorded k id event =>
      by_cases hid : id = taskId
      · rw [Effect.recordedFor?, if_pos hid, Effect.completion?, Option.bind_some]
        cases event.outputHash? with
        | none => rfl
        | some hash => exact (if_pos hid).symm
      · rw [Effect.recordedFor?, if_neg hid, Effect.completion?]
        cases event.outputHash? with
        | none => rfl
        | some hash => exact (if_neg hid).symm
  | _ => rfl

/-! ## Runs in which the hashes agree -/

/-- A completion that is recorded has the output hashes that the log has for its task. -/
def Action.Repeats (settings : Settings) (s : Instance) (a : Action) : Prop :=
  ∀ p ∈ a.completions settings s, ∀ hash ∈ s.worker.eventStore.outputHashes p.1, p.2 = hash

instance (settings : Settings) (s : Instance) (a : Action) : Decidable (a.Repeats settings s) :=
  inferInstanceAs (Decidable (∀ _ ∈ _, ∀ _ ∈ _, _))

/-- All completions in the log of a task have the same output hash. -/
def MemoryEventStore.Uniform (s : MemoryEventStore) (taskId : String) : Prop :=
  ∀ hash ∈ s.outputHashes taskId, ∀ hash' ∈ s.outputHashes taskId, hash = hash'

theorem oneHash_of_uniform {s : MemoryEventStore} {taskId : String} (h : s.Uniform taskId) :
    s.OneHash taskId := by
  unfold MemoryEventStore.Uniform at h
  unfold MemoryEventStore.OneHash
  cases hhashes : s.outputHashes taskId with
  | nil => rfl
  | cons first hashes =>
      rw [hhashes] at h
      obtain ⟨last, hlast⟩ : ∃ last, (first :: hashes).getLast? = some last :=
        ⟨_, List.getLast?_eq_some_getLast (List.cons_ne_nil _ _)⟩
      rw [List.head?_cons, hlast, h first List.mem_cons_self last (List.mem_of_getLast? hlast)]

/-- A uniform log starts and ends with the same hash after a completion exactly if that one
repeats the hash. -/
theorem head?_eq_getLast?_concat_iff {hashes : List String}
    (h : ∀ hash ∈ hashes, ∀ hash' ∈ hashes, hash = hash') (hash : String) :
    (hashes ++ [hash]).head? = (hashes ++ [hash]).getLast? ↔ ∀ hash' ∈ hashes, hash = hash' := by
  cases hashes with
  | nil => simp
  | cons first hashes =>
      rw [List.getLast?_concat, List.cons_append, List.head?_cons, Option.some.injEq]
      constructor
      · rintro rfl hash' hmem
        exact h first List.mem_cons_self hash' hmem
      · intro hall
        exact (hall first List.mem_cons_self).symm

theorem uniform_concat {hashes : List String} {hash : String}
    (h : ∀ hash ∈ hashes, ∀ hash' ∈ hashes, hash = hash') (hall : ∀ hash' ∈ hashes, hash = hash') :
    ∀ hash₁ ∈ hashes ++ [hash], ∀ hash₂ ∈ hashes ++ [hash], hash₁ = hash₂ := by
  intro hash₁ h₁ hash₂ h₂
  rcases List.mem_append.mp h₁ with h₁ | h₁
  · rcases List.mem_append.mp h₂ with h₂ | h₂
    · exact h hash₁ h₁ hash₂ h₂
    · rw [List.mem_singleton.mp h₂, hall hash₁ h₁]
  · rw [List.mem_singleton.mp h₁]
    rcases List.mem_append.mp h₂ with h₂ | h₂
    · exact hall hash₂ h₂
    · rw [List.mem_singleton.mp h₂]

/-- At most one completion is recorded in a step. -/
theorem Action.completions_eq (settings : Settings) (s : Instance) (a : Action) :
    a.completions settings s = [] ∨ ∃ p, a.completions settings s = [p] := by
  cases a with
  | settle i outcome turn =>
      simp only [Action.completions]
      cases s.calls[i]? with
      | none => exact .inl rfl
      | some c =>
          simp only [Option.elim_some, completionOf]
          split
          · exact .inr ⟨_, rfl⟩
          · exact .inl rfl
  | _ => exact .inl rfl

/-- The hashes agree after a step exactly if it repeats the hash of the log, and then the log
is uniform as well. -/
theorem step_oneHash_iff {settings : Settings} {s s' : Instance} {a : Action} {o : List Effect}
    (hkeeps : s.worker.eventStore.Keeps) (huniform : ∀ id, s.worker.eventStore.Uniform id)
    (hstep : (worker settings).step s a = some (s', o)) :
    ((∀ id, s'.worker.eventStore.OneHash id) ↔ a.Repeats settings s) ∧
      (a.Repeats settings s → ∀ id, s'.worker.eventStore.Uniform id) := by
  have hgrows := step_outputHashes hkeeps hstep
  unfold Action.Repeats MemoryEventStore.OneHash MemoryEventStore.Uniform
  rcases a.completions_eq settings s with hnil | ⟨p, hp⟩
  · have hsame : ∀ id, s'.worker.eventStore.outputHashes id =
        s.worker.eventStore.outputHashes id := by
      intro id
      rw [hgrows id, hnil, List.filterMap_nil, List.append_nil]
    simp only [hsame, hnil]
    refine ⟨iff_of_true (fun id => ?_) (List.forall_mem_nil _), fun _ => huniform⟩
    exact oneHash_of_uniform (huniform id)
  · have hown : s'.worker.eventStore.outputHashes p.1 =
        s.worker.eventStore.outputHashes p.1 ++ [p.2] := by
      simp [hgrows p.1, hp]
    -- the log of another task is what it was
    have hother : ∀ id, p.1 ≠ id → s'.worker.eventStore.outputHashes id =
        s.worker.eventStore.outputHashes id := by
      intro id hid
      simp [hgrows id, hp, hid]
    rw [hp, List.forall_mem_singleton, ← head?_eq_getLast?_concat_iff (huniform p.1)]
    refine ⟨⟨fun h => hown ▸ h p.1, ?_⟩, ?_⟩
    · intro h id
      by_cases hid : p.1 = id
      · rw [← hid, hown]
        exact h
      · rw [hother id hid]
        exact oneHash_of_uniform (huniform id)
    · intro h id
      by_cases hid : p.1 = id
      · rw [← hid, hown]
        exact uniform_concat (huniform p.1)
          ((head?_eq_getLast?_concat_iff (huniform p.1) p.2).mp h)
      · rw [hother id hid]
        exact huniform id

/-- In every state of a run of a new worker, for every task and every expected hash, the two
output hashes agree, if and only if every completion that is recorded for a task repeats the
hash of those that were recorded for it before. -/
theorem hashesAgree_iff {settings : Settings} {s₀ : Instance} (hnew : Created s₀)
    (as : List Action) :
    (worker settings).Along (fun _ _ s' _ => HashesAgree s'.worker.eventStore) s₀ as ↔
      (worker settings).Along (fun s a _ _ => a.Repeats settings s) s₀ as := by
  obtain ⟨hkeeps, hempty⟩ := hnew.keeps
  refine Machine.Along.congr
    (I := fun s => s.worker.eventStore.Keeps ∧ ∀ id, s.worker.eventStore.Uniform id) ?_ ?_ ?_
  · rintro s a s' o ⟨hkeeps, huniform⟩ hstep
    rw [hashesAgree_iff_oneHash]
    exact (step_oneHash_iff hkeeps huniform hstep).1
  · rintro s a s' o ⟨hkeeps, huniform⟩ hstep h
    obtain ⟨hiff, hnext⟩ := step_oneHash_iff hkeeps huniform hstep
    exact ⟨((step_reports hstep).store hkeeps).1,
      hnext (hiff.mp (hashesAgree_iff_oneHash.mp h))⟩
  · refine ⟨hkeeps, fun id => ?_⟩
    rw [MemoryEventStore.Uniform, MemoryEventStore.outputHashes, hempty]
    exact List.forall_mem_nil _

/-- A task that is submitted and executed twice, with one output. -/
theorem hashesAgree_iff_repeated :
    let turn : Turn := ⟨1, ⟨1, none⟩, ⟨1, none⟩⟩
    let submit : TaskSubmit := ⟨"t1", some (.obj [("prompt", .str "p")])⟩
    let settings : Settings := ⟨0, 0, fun _ =>
      "ca978112ca1bbdcafac231b39a23dc4da786eff8147c4e72b9807785afee48bb"⟩
    let as : List Action :=
      [.execute submit turn, .start 0 2, .settle 0 (.ok ⟨"a", 1, 1, 1⟩) turn, .finish 0,
        .execute submit turn, .start 1 3, .settle 1 (.ok ⟨"a", 1, 1, 1⟩) turn]
    ∃ s₀, Created s₀ ∧
      (worker settings).Along (fun _ _ s' _ => HashesAgree s'.worker.eventStore) s₀ as := by
  intro turn submit settings as
  have hnew := created_ofDefaults
  exact ⟨.ofDefaults, hnew, (hashesAgree_iff hnew as).mpr (by decide)⟩

/-- The same with two outputs: the replay compares with the second one, and the recorded hash
is that of the first. -/
theorem not_hashesAgree :
    let turn : Turn := ⟨1, ⟨1, none⟩, ⟨1, none⟩⟩
    let submit : TaskSubmit := ⟨"t1", some (.obj [("prompt", .str "p")])⟩
    let first := "ca978112ca1bbdcafac231b39a23dc4da786eff8147c4e72b9807785afee48bb"
    let second := "3e23e8160039594a33894f6564e1b1348bbd7a0088d42c4acb73eeaed59c009d"
    let settings : Settings := ⟨0, 0, fun content => if content = "a" then first else second⟩
    let as : List Action :=
      [.execute submit turn, .start 0 2, .settle 0 (.ok ⟨"a", 1, 1, 1⟩) turn, .finish 0,
        .execute submit turn, .start 1 3, .settle 1 (.ok ⟨"b", 1, 1, 1⟩) turn]
    ∃ s₀ s out, Created s₀ ∧ (worker settings).run s₀ as = some (s, out) ∧
      ¬ HashesAgree s.worker.eventStore := by
  intro turn submit first second settings as
  have hnew := created_ofDefaults
  refine ⟨.ofDefaults, _, _, hnew, rfl, fun hagree => ?_⟩
  have hsame := hashesAgree_iff_oneHash.mp hagree "t1"
  exact absurd hsame (by decide)

end L0Worker.Worker
