import L0Worker.Lib.EventStream
import L0Worker.Lib.JsonText
import L0Worker.Server.RunsWorker
import L0Worker.Worker.Protocol

/-!
# The stream of a submit request

`emit` writes one frame for each event, and after the call the handler writes `[DONE]`, or
an `ERROR` event when the call has thrown.  It writes nothing more to a client that is gone:
the controller is closed then, so that `emit` throws, and the write after the call does as
well.  The handlers of `server.ts` and of `api/submit.ts` write the same to a client that
stays.

Whatever the strings in the events are, a reader of the stream gets back the texts of the
events, since the text of a JSON value has no line break, and none of them is `[DONE]`,
since they are texts of objects (`submit_stream_reads`).
-/

namespace L0Worker.Server

open Worker

/-! ## The objects that are sent -/

/-- `ProgressStage`. -/
def stageText : ProgressStage → String
  | .firstToken => "first_token"
  | .streaming => "streaming"
  | .toolInvoked => "tool_invoked"
  | .checkpointWritten => "checkpoint_written"

/-- `FailureClass`. -/
def failureText : FailureClass → String
  | .timeout => "timeout"
  | .rateLimited => "rate_limited"
  | .contextLengthExceeded => "context_length_exceeded"
  | .invalidInput => "invalid_input"
  | .modelError => "model_error"
  | .networkError => "network_error"
  | .guardrailViolation => "guardrail_violation"
  | .determinismViolation => "determinism_violation"
  | .aborted => "aborted"
  | .unknown => "unknown"

/-- The fields of an event. -/
def eventFields : OutboundEvent → List (String × Json)
  | .taskAccepted taskId workerId ts =>
      [("type", .str "TASK_ACCEPTED"), ("taskId", .str taskId), ("workerId", .str workerId),
        ("ts", .num (.ofInt ts))]
  | .taskProgress taskId stage metadata ts =>
      [("type", .str "TASK_PROGRESS"), ("taskId", .str taskId), ("stage", .str (stageText stage)),
        ("ts", .num (.ofInt ts))] ++
        (metadata.map fun call => ("metadata",
          Json.obj [("toolName", .str call.toolName), ("toolArgs", call.toolArgs)])).toList
  | .taskCompleted taskId workerId metrics outputHash output ts =>
      [("type", .str "TASK_COMPLETED"), ("taskId", .str taskId), ("workerId", .str workerId),
        ("finalMetrics", .obj [("durationMs", .num (.ofInt metrics.durationMs)),
          ("tokenCount", .num metrics.tokenCount), ("promptTokens", .num metrics.promptTokens),
          ("completionTokens", .num metrics.completionTokens)]),
        ("outputHash", .str outputHash), ("output", .str output), ("ts", .num (.ofInt ts))]
  | .taskFailed taskId workerId failureClass retryable message ts =>
      [("type", .str "TASK_FAILED"), ("taskId", .str taskId), ("workerId", .str workerId),
        ("failureClass", .str (failureText failureClass)), ("retryable", .bool retryable),
        ("message", .str message), ("ts", .num (.ofInt ts))]
  | .workerDraining workerId reason ts =>
      [("type", .str "WORKER_DRAINING"), ("workerId", .str workerId), ("reason", .str reason),
        ("ts", .num (.ofInt ts))]

/-- The fields of an event of the runtime. -/
def runtimeFields (event : L0Event) : List (String × Json) :=
  ("type", .str event.type) :: ("ts", .num event.ts) :: event.fields

/-- The tasks in flight and the limit, as the `catch` block reads them. -/
structure Load where
  inflight : ℕ
  max : Number

/-- The fields of the `ERROR` event of the `catch` block. -/
def errorFields (load : Load) (error : Thrown) : List (String × Json) :=
  let message := errorMessage error
  if message = "No slots available" then
    [("type", .str "ERROR"), ("code", .str "NO_SLOTS"), ("message", .str message),
      ("inflight", .num (.ofNat load.inflight)), ("max", .num load.max)]
  else if message = "Duplicate task ID" then
    [("type", .str "ERROR"), ("code", .str "DUPLICATE_TASK"), ("message", .str message)]
  else [("type", .str "ERROR"), ("message", .str message)]

/-! ## The chunks -/

/-- The chunk of an object. -/
def chunk (fields : List (String × Json)) : String :=
  "data: " ++ (Json.obj fields).stringify ++ "\n\n"

/-- The last chunk, after the call has returned or thrown. -/
def lastChunk (load : Load) : Option Thrown → String
  | none => "data: [DONE]\n\n"
  | some error => chunk (errorFields load error)

/-- The fields of the event that an effect of call `i` passes to `emit`. -/
def sent? (i : ℕ) : Effect → Option (List (String × Json))
  | .emitted j event => if j = i then some (eventFields event) else none
  | .forwarded j event => if j = i then some (runtimeFields event) else none
  | _ => none

/-- How call `i` settles, at the effect that says so. -/
def settled? (i : ℕ) : Effect → Option (Option Thrown)
  | .settled j error => if j = i then some error else none
  | _ => none

/-- An `emit` of call `i` threw. -/
def throwsFor (i : ℕ) : Effect → Bool
  | .emitThrew j _ => decide (j = i)
  | _ => false

/-- `handleSubmit`: what it writes to the stream of call `i`, which is closed when the call
has settled.  `isOpen` says whether the controller takes the last chunk.  It does if the
client stays and no `emit` of the call has thrown, since a closed controller stays closed. -/
def submitChunks (load : Load) (i : ℕ) (isOpen : Bool) : List Effect → List String
  | [] => []
  | e :: out =>
      match settled? i e with
      | some error => if isOpen then [lastChunk load error] else []
      | none => ((sent? i e).map chunk).toList ++
          submitChunks load i (isOpen && !throwsFor i e) out

/-- What `executeTaskWithEvents` throws for a submission that does not get a slot, with what
parsing the payload throws. -/
def rejectionThrown (parseError : Thrown) : Rejection → Thrown
  | .invalidPayload => parseError
  | .duplicate => .ofMessage "Duplicate task ID"
  | .noSlots => .ofMessage "No slots available"

/-- The same for a submission that does not get a slot.  Its call throws before the stream is
read, so that the client is still there. -/
def rejectionChunks (load : Load) (parseError : Thrown) (reason : Rejection) : List String :=
  [lastChunk load (some (rejectionThrown parseError reason))]

/-! ## The events -/

/-- The events that call `i` sends before it settles. -/
def sentBy (i : ℕ) : List Effect → List (List (String × Json))
  | [] => []
  | e :: out =>
      match settled? i e with
      | some _ => []
      | none => (sent? i e).toList ++ sentBy i out

/-- The stream of call `i` is open when the call settles, with a client that `stays` or not. -/
def openAtEnd (i : ℕ) (stays : Bool) (out : List Effect) : Bool :=
  stays && (out.takeWhile fun e => (settled? i e).isNone).all fun e => !throwsFor i e

/-- The events of a stream, with the `ERROR` event if it is open and the call has thrown. -/
def answered (load : Load) (sent : List (List (String × Json))) (isOpen : Bool)
    (error : Option Thrown) : List (List (String × Json)) :=
  sent ++ if isOpen then (error.map (errorFields load)).toList else []

/-- A reader of the chunks gets the texts of the events in order, and `[DONE]` after them if
`done` says so.  No event is read as `[DONE]`. -/
structure StreamReads (events : List (List (String × Json))) (done : Bool)
    (chunks : List String) : Prop where
  read : EventStream.messages (String.join chunks) =
    events.map (fun fields => (Json.obj fields).stringify) ++ if done then ["[DONE]"] else []
  distinct : ∀ fields ∈ events, (Json.obj fields).stringify ≠ "[DONE]"

theorem singleLine_stringify (v : Json) : EventStream.SingleLine v.stringify := by
  intro c hc
  have hc : c ∈ v.text := by rwa [Json.stringify, String.toList_ofList] at hc
  have hprintable := Json.printable_text v c hc
  cases hbreak : EventStream.isBreak c with
  | false => rfl
  | true =>
      rw [EventStream.isBreak, Bool.or_eq_true, decide_eq_true_eq, decide_eq_true_eq] at hbreak
      rcases hbreak with rfl | rfl <;> simp at hprintable

/-- The text of an object begins with a brace. -/
theorem stringify_ne_done (fields : List (String × Json)) :
    (Json.obj fields).stringify ≠ "[DONE]" := by
  intro h
  have htext : (Json.obj fields).text = "[DONE]".toList := by
    rw [← h, Json.stringify, String.toList_ofList]
  cases htext

theorem chunks_read (events : List (List (String × Json))) (done : Bool) {chunks : List String}
    (h : chunks = (events.map fun fields => (Json.obj fields).stringify).map EventStream.frame ++
      if done then [EventStream.frame "[DONE]"] else []) : StreamReads events done chunks := by
  refine ⟨?_, fun fields _ => stringify_ne_done fields⟩
  have hframes : chunks = (events.map (fun fields => (Json.obj fields).stringify) ++
      if done then ["[DONE]"] else []).map EventStream.frame := by
    rw [h, List.map_append]
    cases done <;> rfl
  rw [hframes]
  refine EventStream.messages_frames (List.forall_mem_append.mpr ⟨?_, ?_⟩)
  · intro data hdata
    obtain ⟨fields, -, rfl⟩ := List.mem_map.mp hdata
    exact singleLine_stringify _
  · cases done with
    | false => exact List.forall_mem_nil _
    | true =>
        refine List.forall_mem_singleton.mpr ?_
        unfold EventStream.SingleLine
        simp [EventStream.isBreak]

/-! ## A call settles once -/

/-- How often a call at this stage has settled. -/
def settlements : Stage → ℕ
  | .settled _ => 1
  | _ => 0

def isSettled : Effect → Bool
  | .settled _ _ => true
  | _ => false

theorem next_settlements {late : Bool} {q q' : Stage} {e : Effect} (h : q.next late e = some q') :
    settlements q' = settlements q + if isSettled e then 1 else 0 := by
  unfold Stage.next at h
  split at h
  all_goals grind [settlements, isSettled, Stage.listens, Stage.isOpen]

/-- The effects that settle call `i` are those among its own. -/
theorem settled?_isSome (i : ℕ) (e : Effect) :
    (settled? i e).isSome = (decide (e.call? = some i) && isSettled e) := by
  cases e with
  | settled j error =>
      by_cases hj : j = i
      · simp [settled?, Effect.call?, isSettled, hj]
      · simp [settled?, Effect.call?, isSettled, hj]
  | _ => simp [settled?, isSettled]

section Runs

variable {settings : Settings} {w₀ w : Instance} {as : List Action} {out : List Effect} {i : ℕ}

/-- The effect that settles a call is the first one that does. -/
theorem findSome?_settled (hnew : Created w₀)
    (hrun : (Worker.worker settings).run w₀ as = some (w, out)) {error : Option Thrown}
    (h : .settled i error ∈ out) : out.findSome? (settled? i) = some error := by
  have hmem : error ∈ out.filterMap (settled? i) :=
    List.mem_filterMap.mpr ⟨_, h, if_pos rfl⟩
  have hlate : (Worker.worker settings).Along (fun s a _ _ => true = true ∨ a.CallsBackInTime s)
      w₀ as := Machine.along_of_actions (fun _ _ _ _ _ => .inl rfl) hrun
  have hcount : settlements (w.stage i) =
      settlements .idle + (outputsOf Effect.call? i out).countP isSettled :=
    accept_countP isSettled settlements next_settlements (run_tracks hnew hrun hlate i)
  have hlength : (out.filterMap (settled? i)).length ≤ 1 := by
    rw [List.length_filterMap_eq_countP]
    simp only [settled?_isSome]
    rw [outputsOf, List.countP_filter] at hcount
    have hle : settlements (w.stage i) ≤ 1 := by cases w.stage i <;> simp [settlements]
    have hidle : settlements .idle = 0 := rfl
    simp only [Bool.and_comm] at hcount ⊢
    omega
  rw [← List.head?_filterMap]
  match hfilter : out.filterMap (settled? i), hlength with
  | [], _ => rw [hfilter] at hmem; cases hmem
  | [error'], _ =>
      rw [hfilter] at hmem
      exact congrArg some (List.mem_singleton.mp hmem).symm

theorem submitChunks_eq (load : Load) {error : Option Thrown} {out : List Effect}
    (stays : Bool) (h : out.findSome? (settled? i) = some error) :
    submitChunks load i stays out = (sentBy i out).map chunk ++
      if openAtEnd i stays out then [lastChunk load error] else [] := by
  induction out generalizing stays with
  | nil => cases h
  | cons e out ih =>
      rw [List.findSome?_cons] at h
      rw [submitChunks, sentBy, openAtEnd, List.takeWhile_cons]
      cases hsettled : settled? i e with
      | some error' =>
          rw [hsettled] at h
          obtain rfl := Option.some.inj h
          simp
      | none =>
          rw [hsettled] at h
          have hopen : openAtEnd i (stays && !throwsFor i e) out = (stays &&
              (e :: out.takeWhile fun e => (settled? i e).isNone).all fun e => !throwsFor i e) := by
            rw [openAtEnd, List.all_cons, Bool.and_assoc]
          dsimp only
          rw [ih _ h, hopen, List.map_append, List.append_assoc]
          cases sent? i e <;> rfl

theorem lastChunk_reads (load : Load) (sent : List (List (String × Json))) (isOpen : Bool)
    (error : Option Thrown) :
    StreamReads (answered load sent isOpen error) (isOpen && error.isNone)
      (sent.map chunk ++ if isOpen then [lastChunk load error] else []) := by
  refine chunks_read _ _ ?_
  rw [List.map_map]
  cases isOpen with
  | false => simp [answered, EventStream.frame, chunk, Function.comp_def]
  | true =>
      cases error with
      | none => simp [answered, lastChunk, EventStream.frame, chunk, Function.comp_def]
      | some e => simp [answered, lastChunk, EventStream.frame, chunk, Function.comp_def]

/-- The stream of a submission that got a slot is read as its events.  If it is open when the
call settles, one `[DONE]` follows if the call has returned, and the `ERROR` event and no
`[DONE]` if it has thrown.  If it is not, nothing follows.  The stream of a submission that
got no slot is read as the `ERROR` event. -/
theorem submit_stream_reads {s₀ s : ServerState} {as : List ServerAction}
    {out : List ServerEffect} (hstart : Started s₀)
    (hrun : (server settings).run s₀ as = some (s, out)) (load : Load) (parseError : Thrown) :
    (∀ i error, .worker (.settled i error) ∈ out → ∀ stays,
        StreamReads
          (answered load (sentBy i (workerEffects out)) (openAtEnd i stays (workerEffects out))
            error)
          (openAtEnd i stays (workerEffects out) && error.isNone)
          (submitChunks load i stays (workerEffects out))) ∧
      ∀ taskId reason, .worker (.rejected taskId reason) ∈ out →
        StreamReads [errorFields load (rejectionThrown parseError reason)] false
          (rejectionChunks load parseError reason) := by
  obtain ⟨w₀, hnew, rfl⟩ := hstart
  obtain ⟨as', hworker⟩ := run_worker hrun
  constructor
  · intro i error hsettled stays
    rw [submitChunks_eq load stays
      (findSome?_settled hnew hworker (mem_workerEffects.mpr hsettled))]
    exact lastChunk_reads load _ _ error
  · intro taskId reason hrejected
    exact lastChunk_reads load [] true (some (rejectionThrown parseError reason))

end Runs

/-- A second submission of a task in flight: its stream has no `[DONE]`. -/
theorem duplicate_stream_not_done :
    ¬ ∀ (settings : Settings) (s₀ s : ServerState) (as : List ServerAction)
        (out : List ServerEffect) (load : Load) (parseError : Thrown), Started s₀ →
        (server settings).run s₀ as = some (s, out) →
        (∀ i error, .worker (.settled i error) ∈ out →
          StreamReads (answered load (sentBy i (workerEffects out)) true error) true
            (submitChunks load i true (workerEffects out))) ∧
        ∀ taskId reason, .worker (.rejected taskId reason) ∈ out →
          StreamReads [errorFields load (rejectionThrown parseError reason)] true
            (rejectionChunks load parseError reason) := by
  intro claim
  let turn : Turn := ⟨0, ⟨0, none⟩, ⟨0, none⟩⟩
  let submit : ServerAction :=
    .submit (.request ⟨"t1", some (.obj [("prompt", .str "a")])⟩ none) turn
  have hstart := started_ofDefaults
  have hruns : ((server ⟨0, 5000, id⟩).run (.init .ofDefaults) [submit, submit]).isSome = true :=
    rfl
  obtain ⟨⟨s, out⟩, hrun⟩ := Option.isSome_iff_exists.mp hruns
  have hrejected : .worker (.rejected "t1" .duplicate) ∈ out := by
    obtain ⟨-, rfl⟩ := Prod.mk.inj (Option.some.inj hrun)
    exact List.mem_of_getElem? (i := 4) rfl
  have hread := ((claim _ _ s _ out ⟨1, 4⟩ (.value "") hstart hrun).2 _ _ hrejected).read
  have hactual := (lastChunk_reads ⟨1, 4⟩ [] true (some (.ofMessage "Duplicate task ID"))).read
  have hlength := congrArg List.length (hread.symm.trans hactual)
  cases hlength

/-- A task whose output is the end of a stream itself. -/
theorem submit_stream_reads_done :
    let turn : Turn := ⟨0, ⟨0, none⟩, ⟨0, none⟩⟩
    let as : List ServerAction :=
      [.submit (.request ⟨"t1", some (.obj [("prompt", .str "a")])⟩ none) turn,
        .worker (.start 0 0),
        .worker (.settle 0 (.ok ⟨"\n\ndata: [DONE]\n\n", 1, 1, 1⟩) turn), .worker (.finish 0)]
    ∃ s₀ s out, Started s₀ ∧ (server ⟨0, 5000, id⟩).run s₀ as = some (s, out) ∧
      StreamReads (sentBy 0 (workerEffects out)) true
        (submitChunks ⟨0, 4⟩ 0 true (workerEffects out)) := by
  intro turn as
  have hstart := started_ofDefaults
  have hruns : ((server ⟨0, 5000, id⟩).run (.init .ofDefaults) as).isSome = true := rfl
  obtain ⟨⟨s, out⟩, hrun⟩ := Option.isSome_iff_exists.mp hruns
  have hsettled : .worker (.settled 0 none) ∈ out := by
    obtain ⟨-, rfl⟩ := Prod.mk.inj (Option.some.inj hrun)
    exact List.mem_of_getElem? (i := 7) rfl
  have hopen : openAtEnd 0 true (workerEffects out) = true := by
    obtain ⟨-, rfl⟩ := Prod.mk.inj (Option.some.inj hrun)
    rfl
  have hreads := (submit_stream_reads hstart hrun ⟨0, 4⟩ (.value "")).1 0 none hsettled true
  rw [answered, hopen] at hreads
  exact ⟨_, s, out, hstart, hrun, by simpa using hreads⟩

end L0Worker.Server
