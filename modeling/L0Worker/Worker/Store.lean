import L0Worker.Worker.Basic

/-!
# The event store and the replayer

`MemoryEventStore` keeps for each task the events recorded for it, in order.
Its functions are asynchronous only in name: each does all its work before it
first yields.  The array that `getEventsForTask` returns is the one `record`
pushes to, so whoever holds it sees later events as well.
-/

namespace L0Worker.Worker

/-! ## The store -/

/-- The in-memory event store. -/
structure MemoryEventStore where
  /-- The events of each task. -/
  events : JsMap String (List OutboundEvent)
  /-- The number of tasks to keep, zero for no limit. -/
  maxTasks : Nat

namespace MemoryEventStore

/-- The constructor. -/
def new (maxTasks : Nat) : MemoryEventStore := ⟨.empty, maxTasks⟩

/-- `hasTask`. -/
def HasTask (s : MemoryEventStore) (taskId : String) : Prop := s.events.Has taskId

instance (s : MemoryEventStore) (taskId : String) : Decidable (s.HasTask taskId) :=
  inferInstanceAs (Decidable (s.events.Has taskId))

/-- The events that are left after room was made for a task. -/
def evict (s : MemoryEventStore) (taskId : String) : JsMap String (List OutboundEvent) :=
  if 0 < s.maxTasks ∧ ¬ s.HasTask taskId ∧ s.maxTasks ≤ s.events.size then
    match s.events.order with
    | [] => s.events
    -- an empty id is falsy, so it is not deleted
    | oldestKey :: _ => if oldestKey = "" then s.events else s.events.delete oldestKey
  else s.events

/-- `record`. -/
def record (s : MemoryEventStore) (taskId : String) (event : OutboundEvent) :
    MemoryEventStore :=
  let events := s.evict taskId
  { s with events := events.set taskId ((events.get? taskId).getD [] ++ [event]) }

/-- `getEventsForTask`. -/
def getEventsForTask (s : MemoryEventStore) (taskId : String) : List OutboundEvent :=
  (s.events.get? taskId).getD []

/-- `getOutputHash`: the hash of the first `TASK_COMPLETED` event. -/
def getOutputHash (s : MemoryEventStore) (taskId : String) : Option String :=
  (s.getEventsForTask taskId).findSome? fun event =>
    match event with
    | .taskCompleted _ _ _ hash _ _ => some hash
    | _ => none

/-- `clearTask`. -/
def clearTask (s : MemoryEventStore) (taskId : String) : MemoryEventStore :=
  { s with events := s.events.delete taskId }

/-- `clear`. -/
def clear (s : MemoryEventStore) : MemoryEventStore := { s with events := .empty }

/-- `size`. -/
def size (s : MemoryEventStore) : Nat := s.events.size

@[simp] theorem record_maxTasks (s : MemoryEventStore) (taskId : String)
    (event : OutboundEvent) : (s.record taskId event).maxTasks = s.maxTasks := rfl

/-- Without a limit nothing is evicted. -/
theorem evict_of_unlimited {s : MemoryEventStore} (h : s.maxTasks = 0) (taskId : String) :
    s.evict taskId = s.events := by
  unfold evict
  rw [if_neg]
  rintro ⟨hpos, -⟩
  omega

/-- Without a limit, recording appends to the events of the task. -/
theorem getEventsForTask_record {s : MemoryEventStore} (h : s.maxTasks = 0) (taskId : String)
    (event : OutboundEvent) :
    (s.record taskId event).getEventsForTask taskId = s.getEventsForTask taskId ++ [event] := by
  simp only [record, getEventsForTask, evict_of_unlimited h, JsMap.get?_set, Option.getD_some]

/-- Without a limit, recording leaves other tasks alone. -/
theorem getEventsForTask_record_of_ne {s : MemoryEventStore} (h : s.maxTasks = 0)
    {taskId id : String} (event : OutboundEvent) (hne : id ≠ taskId) :
    (s.record taskId event).getEventsForTask id = s.getEventsForTask id := by
  simp only [record, getEventsForTask, evict_of_unlimited h, JsMap.get?_set_of_ne _ _ hne]

theorem hasTask_record {s : MemoryEventStore} (h : s.maxTasks = 0) {taskId id : String}
    {event : OutboundEvent} :
    (s.record taskId event).HasTask id ↔ id = taskId ∨ s.HasTask id := by
  simp only [record, HasTask, evict_of_unlimited h, JsMap.has_set]

end MemoryEventStore

/-! ## Replay -/

/-- The result of a replay. -/
structure ReplayResult where
  success : Bool
  eventsReplayed : Nat
  /-- Whether the output hash is the expected one. -/
  outputHashMatch : Option Bool
  error : Option String
deriving Repr, DecidableEq

/-- The result for a task without recorded events. -/
def replayNotFound (taskId : String) : ReplayResult where
  success := false
  eventsReplayed := 0
  outputHashMatch := none
  error := some ("No recorded events for task " ++ taskId)

/-- The output hash of the last `TASK_COMPLETED` event. -/
def lastOutputHash (events : List OutboundEvent) : Option String :=
  events.foldl (fun outputHash event =>
    match event with
    | .taskCompleted _ _ _ hash _ _ => some hash
    | _ => outputHash) none

/-- The result after all events were re-emitted. -/
def replaySuccess (events : List OutboundEvent) (expectedOutputHash : Option String) :
    ReplayResult where
  success := true
  eventsReplayed := events.length
  outputHashMatch :=
    match expectedOutputHash, lastOutputHash events with
    | some expected, some hash => some (hash == expected)
    | _, _ => none
  error := none

/-- `replayWithValidation`, when nothing else happens while it awaits and `emit` returns. -/
def replayWithValidation (eventStore : MemoryEventStore) (taskId : String)
    (expectedOutputHash : Option String) : ReplayResult :=
  if eventStore.HasTask taskId then
    replaySuccess (eventStore.getEventsForTask taskId) expectedOutputHash
  else replayNotFound taskId

/-- `getRecordedOutputHash`. -/
def getRecordedOutputHash (eventStore : MemoryEventStore) (taskId : String) : Option String :=
  eventStore.getOutputHash taskId

end L0Worker.Worker
