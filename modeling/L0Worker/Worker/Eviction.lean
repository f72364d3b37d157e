import L0Worker.Lib.Machine
import L0Worker.Lib.Streak
import L0Worker.Worker.Store

/-!
# Eviction

What the limit on the number of tasks does to the event store.  The machine here makes the
calls of the store in any order and notes each, so that a property of a step can look back:
how long a task has been in the store, and what was recorded for it.

* `fifo_iff`: the store is a bounded queue unless a task whose id is empty becomes the oldest
  one, for its id is falsy.
* `complete_iff`: a task whose events were evicted is recorded with its later events only,
  unless it is cleared first.
-/

namespace L0Worker.Worker

namespace MemoryEventStore

/-! ## Calls -/

/-- A call that changes the store. -/
inductive Call where
  | record (taskId : String) (event : OutboundEvent)
  | clearTask (taskId : String)
  | clear

/-- The store after a call. -/
def call (s : MemoryEventStore) : Call → MemoryEventStore
  | .record taskId event => s.record taskId event
  | .clearTask taskId => s.clearTask taskId
  | .clear => s.clear

/-- A call that was made, and the store after it. -/
structure Note where
  made : Call
  after : MemoryEventStore

/-- The machine of the calls. -/
def calls : Machine MemoryEventStore Call Note :=
  ⟨fun s a => some (s.call a, [⟨a, s.call a⟩])⟩

theorem calls_step {p p' : MemoryEventStore × List Note} {a : Call} {o : List Note}
    (h : calls.withHistory.step p a = some (p', o)) :
    p' = (p.1.call a, p.2 ++ [⟨a, p.1.call a⟩]) := by
  cases h
  rfl

/-- The number of calls for which a task has been in the store. -/
def heldFor (taskId : String) (log : List Note) : Nat :=
  streak (fun note => if note.after.HasTask taskId then .counts else .resets) log

/-- No other stored task has been in the store for as long. -/
def Oldest (s : MemoryEventStore) (log : List Note) (taskId : String) : Prop :=
  s.HasTask taskId ∧
    ∀ id, s.HasTask id → id ≠ taskId → heldFor id log < heldFor taskId log

/-- A new task is recorded at capacity. -/
def Crowded (n : Nat) (s : MemoryEventStore) (taskId : String) : Prop :=
  ¬ s.HasTask taskId ∧ n ≤ s.size

/-- The call leaves at most `n` tasks, and evicts the oldest task if a new one comes at
capacity, and no task otherwise. -/
structure FifoCall (n : Nat) (p : MemoryEventStore × List Note) (a : Call)
    (p' : MemoryEventStore × List Note) : Prop where
  bounded : p'.1.size ≤ n
  keeps : ∀ taskId event, a = .record taskId event → ¬ p.1.Crowded n taskId →
    ∀ id, p.1.HasTask id → p'.1.HasTask id
  evicts : ∀ taskId event, a = .record taskId event → p.1.Crowded n taskId →
    ∃ oldest, p.1.Oldest p.2 oldest ∧ ∀ id, p.1.HasTask id → (p'.1.HasTask id ↔ id ≠ oldest)

/-- The oldest task does not have the empty id when a new one comes at capacity. -/
def OldestNamed (n : Nat) (p : MemoryEventStore × List Note) (a : Call) : Prop :=
  ∀ taskId event, a = .record taskId event → p.1.Crowded n taskId → ¬ p.1.Oldest p.2 ""

/-! ## What a call does to the tasks -/

section Calls

variable {n : Nat} {s : MemoryEventStore} {taskId : String}

theorem evict_of_not_crowded (h : ¬ s.Crowded s.maxTasks taskId) :
    s.evict taskId = s.events :=
  if_neg fun hcrowded => h hcrowded.2

theorem evict_of_crowded (hpos : 0 < s.maxTasks) (h : s.Crowded s.maxTasks taskId)
    {oldest : String} {rest : List String} (horder : s.events.order = oldest :: rest) :
    s.evict taskId = if oldest = "" then s.events else s.events.delete oldest := by
  unfold evict
  rw [if_pos ⟨hpos, h.1, h.2⟩, horder]

/-- Eviction only removes. -/
theorem order_evict (s : MemoryEventStore) (taskId : String) :
    (s.evict taskId).order.Sublist s.events.order := by
  unfold evict
  split
  · split
    · exact List.Sublist.refl _
    · split
      · exact List.Sublist.refl _
      · exact List.erase_sublist
  · exact List.Sublist.refl _

/-- A task that is not stored does not come back by making room for it. -/
theorem not_has_evict (h : ¬ s.HasTask taskId) : ¬ (s.evict taskId).Has taskId := fun hhas =>
  h (JsMap.mem_order_iff.mp ((order_evict s taskId).subset (JsMap.mem_order_iff.mpr hhas)))

/-- The tasks that stay keep their order, and at most one is added, at the end. -/
theorem order_call (s : MemoryEventStore) (a : Call) :
    ∃ (kept : List String) (added : Option String),
      (s.call a).events.order = kept ++ added.toList ∧ kept.Sublist s.events.order ∧
        ∀ id ∈ added, ¬ s.HasTask id := by
  cases a with
  | record taskId event =>
      have hsublist := order_evict s taskId
      by_cases hstored : s.HasTask taskId
      · have hevict := evict_of_not_crowded fun h => h.1 hstored
        refine ⟨(s.evict taskId).order, none, ?_, hsublist, by simp⟩
        show ((s.evict taskId).set taskId _).order = _
        rw [JsMap.order_set_of_has _ (hevict ▸ hstored), Option.toList_none, List.append_nil]
      · exact ⟨(s.evict taskId).order, some taskId,
          JsMap.order_set_of_not_has _ (not_has_evict hstored), hsublist, by simpa using hstored⟩
  | clearTask taskId =>
      exact ⟨s.events.order.erase taskId, none, (List.append_nil _).symm, List.erase_sublist,
        by simp⟩
  | clear => exact ⟨[], none, rfl, List.nil_sublist _, by simp⟩

/-- A new task is one more than what is left. -/
theorem size_record_of_new (event : OutboundEvent) (h : ¬ s.HasTask taskId) :
    (s.record taskId event).size = (s.evict taskId).size + 1 := by
  show ((s.evict taskId).set taskId _).order.length = _
  rw [JsMap.order_set_of_not_has _ (not_has_evict h), List.length_append]
  rfl

/-- A stored task gets the event, and no task comes or goes. -/
theorem size_record_of_stored (event : OutboundEvent) (h : s.HasTask taskId) :
    (s.record taskId event).size = s.size := by
  have hevict := evict_of_not_crowded fun hcrowded => hcrowded.1 h
  show ((s.evict taskId).set taskId _).order.length = _
  rw [hevict, JsMap.order_set_of_has _ h]
  rfl

theorem call_maxTasks (s : MemoryEventStore) (a : Call) : (s.call a).maxTasks = s.maxTasks := by
  cases a <;> rfl

end Calls

/-! ## The order is that of age -/

theorem heldFor_concat (taskId : String) (log : List Note) (note : Note) :
    heldFor taskId (log ++ [note]) =
      if note.after.HasTask taskId then heldFor taskId log + 1 else 0 := by
  unfold heldFor
  rw [streak_concat]
  split <;> rfl

/-- The tasks are listed from the one that has been in the store longest. -/
structure Queued (n : Nat) (p : MemoryEventStore × List Note) : Prop where
  maxTasks : p.1.maxTasks = n
  held : ∀ id, p.1.HasTask id ↔ 0 < heldFor id p.2
  order : p.1.events.order.Pairwise fun id id' => heldFor id' p.2 < heldFor id p.2

theorem queued_new (n : Nat) : Queued n (new n, []) where
  maxTasks := rfl
  held id := by
    constructor
    · intro hhas
      exact absurd hhas (JsMap.not_has_empty id)
    · intro hpos
      exact absurd hpos (Nat.lt_irrefl 0)
  order := List.Pairwise.nil

section Queue

variable {n : Nat} {p : MemoryEventStore × List Note}

theorem Queued.call (h : Queued n p) (a : Call) :
    Queued n (p.1.call a, p.2 ++ [⟨a, p.1.call a⟩]) where
  maxTasks := (call_maxTasks p.1 a).trans h.maxTasks
  held id := by
    rw [heldFor_concat]
    split
    · next hhas => exact iff_of_true hhas (Nat.succ_pos _)
    · next hhas => exact iff_of_false hhas (Nat.lt_irrefl 0)
  order := by
    obtain ⟨kept, added, horder, hsublist, hnew⟩ := order_call p.1 a
    have hheld : ∀ id ∈ kept ++ added.toList,
        heldFor id (p.2 ++ [⟨a, p.1.call a⟩]) = heldFor id p.2 + 1 := by
      intro id hid
      rw [← horder] at hid
      rw [heldFor_concat]
      exact if_pos (JsMap.mem_order_iff.mp hid)
    have hzero : ∀ id ∈ added.toList, heldFor id p.2 = 0 := by
      intro id hid
      have hstored := hnew id (Option.mem_toList.mp hid)
      exact Nat.eq_zero_of_not_pos fun hpos => hstored ((h.held id).mpr hpos)
    show (p.1.call a).events.order.Pairwise _
    rw [horder, List.pairwise_append]
    refine ⟨?_, ?_, ?_⟩
    · refine (h.order.sublist hsublist).imp_of_mem fun hid hid' hlt => ?_
      rw [hheld _ (List.mem_append_left _ hid), hheld _ (List.mem_append_left _ hid')]
      exact Nat.succ_lt_succ hlt
    · cases added <;> simp
    · intro id hid id' hid'
      rw [hheld _ (List.mem_append_left _ hid), hheld _ (List.mem_append_right _ hid'),
        hzero id' hid']
      exact Nat.succ_lt_succ ((h.held id).mp (JsMap.mem_order_iff.mp (hsublist.subset hid)))

/-- The first task of the order is the oldest one. -/
theorem Queued.oldest_iff (h : Queued n p) {first : String} {rest : List String}
    (horder : p.1.events.order = first :: rest) {id : String} :
    p.1.Oldest p.2 id ↔ id = first := by
  have hpairwise := h.order
  rw [horder, List.pairwise_cons] at hpairwise
  have hmem : ∀ id, p.1.HasTask id ↔ id = first ∨ id ∈ rest := by
    intro id
    rw [← List.mem_cons, ← horder]
    exact JsMap.mem_order_iff.symm
  constructor
  · rintro ⟨hstored, holdest⟩
    rcases (hmem id).mp hstored with rfl | hrest
    · rfl
    · by_contra hne
      have hlt := holdest first ((hmem first).mpr (.inl rfl)) (Ne.symm hne)
      exact absurd (hpairwise.1 id hrest) (Nat.lt_asymm hlt)
  · rintro rfl
    refine ⟨(hmem id).mpr (.inl rfl), fun id' hstored hne => ?_⟩
    exact hpairwise.1 id' (((hmem id').mp hstored).resolve_left hne)

end Queue

/-! ## Bounded and first in, first out -/

section Fifo

variable {n : Nat} {p : MemoryEventStore × List Note} {taskId : String}

/-- At capacity there is a first task. -/
theorem exists_first (hn : 1 ≤ n) (h : p.1.Crowded n taskId) :
    ∃ first rest, p.1.events.order = first :: rest := by
  cases horder : p.1.events.order with
  | nil =>
      have hsize : n ≤ p.1.events.order.length := h.2
      rw [horder, List.length_nil] at hsize
      omega
  | cons first rest => exact ⟨first, rest, rfl⟩

/-- The room that is made at capacity, if the oldest task is not the one with the empty id. -/
theorem Queued.evict_eq (h : Queued n p) (hn : 1 ≤ n) (hcrowded : p.1.Crowded n taskId)
    {first : String} {rest : List String} (horder : p.1.events.order = first :: rest) :
    p.1.evict taskId = if first = "" then p.1.events else p.1.events.delete first := by
  refine evict_of_crowded ?_ ?_ horder
  · rw [h.maxTasks]
    exact hn
  · rw [h.maxTasks]
    exact hcrowded

/-- Unless its id is empty, the oldest task is evicted at capacity. -/
theorem Queued.evicts_oldest (h : Queued n p) (hn : 1 ≤ n) (hcrowded : p.1.Crowded n taskId)
    (hnamed : ¬ p.1.Oldest p.2 "") :
    ∃ first, p.1.Oldest p.2 first ∧ p.1.evict taskId = p.1.events.delete first := by
  obtain ⟨first, rest, horder⟩ := exists_first hn hcrowded
  have holdest := (h.oldest_iff horder).mpr rfl
  refine ⟨first, holdest, ?_⟩
  rw [h.evict_eq hn hcrowded horder, if_neg]
  rintro rfl
  exact hnamed holdest

/-- A record that does not come at capacity evicts nothing. -/
theorem Queued.evict_eq_of_not_crowded (h : Queued n p) (hcrowded : ¬ p.1.Crowded n taskId) :
    p.1.evict taskId = p.1.events :=
  evict_of_not_crowded (h.maxTasks.symm ▸ hcrowded)

theorem hasTask_record_iff {s : MemoryEventStore} {event : OutboundEvent} {id : String} :
    (s.record taskId event).HasTask id ↔ id = taskId ∨ (s.evict taskId).Has id :=
  JsMap.has_set

/-- Whether a call is one of a bounded queue depends on the id of the oldest task. -/
theorem fifoCall_iff (hn : 1 ≤ n) (h : Queued n p) (hsize : p.1.size ≤ n) (a : Call) :
    FifoCall n p a (p.1.call a, p.2 ++ [⟨a, p.1.call a⟩]) ↔ OldestNamed n p a := by
  constructor
  · rintro hfifo taskId event rfl hcrowded holdest
    obtain ⟨first, rest, horder⟩ := exists_first hn hcrowded
    obtain rfl := (h.oldest_iff horder).mp holdest
    -- nothing is evicted, and one task more is stored
    have hevict := h.evict_eq hn hcrowded horder
    rw [if_pos rfl] at hevict
    have hbounded : (p.1.record taskId event).size ≤ n := hfifo.bounded
    rw [size_record_of_new event hcrowded.1, hevict] at hbounded
    have hcapacity : n ≤ p.1.events.size := hcrowded.2
    omega
  · intro hnamed
    refine ⟨?_, ?_, ?_⟩
    · cases a with
      | record taskId event =>
          show (p.1.record taskId event).size ≤ n
          by_cases hstored : p.1.HasTask taskId
          · rwa [size_record_of_stored event hstored]
          rw [size_record_of_new event hstored]
          by_cases hcrowded : p.1.Crowded n taskId
          · obtain ⟨first, hfirst, hevict⟩ :=
              h.evicts_oldest hn hcrowded (hnamed taskId event rfl hcrowded)
            have hdelete : (p.1.events.delete first).size + 1 = p.1.size :=
              JsMap.size_delete_of_has hfirst.1
            rw [hevict, hdelete]
            exact hsize
          · rw [h.evict_eq_of_not_crowded hcrowded]
            exact Nat.lt_of_not_le fun hcapacity => hcrowded ⟨hstored, hcapacity⟩
      | clearTask taskId => exact Nat.le_trans (JsMap.size_delete_le _ _) hsize
      | clear => exact Nat.zero_le n
    · rintro taskId event rfl hcrowded id hstored
      refine hasTask_record_iff.mpr (.inr ?_)
      rw [h.evict_eq_of_not_crowded hcrowded]
      exact hstored
    · rintro taskId event rfl hcrowded
      obtain ⟨first, hfirst, hevict⟩ :=
        h.evicts_oldest hn hcrowded (hnamed taskId event rfl hcrowded)
      refine ⟨first, hfirst, fun id hstored => ?_⟩
      show (p.1.record taskId event).HasTask id ↔ id ≠ first
      rw [hasTask_record_iff, hevict, JsMap.has_delete]
      constructor
      · rintro (rfl | ⟨hne, -⟩)
        · exact absurd hstored hcrowded.1
        · exact hne
      · intro hne
        exact .inr ⟨hne, hstored⟩

/-- The event store is a bounded queue along a run exactly if no task is recorded at capacity
while the oldest one has the empty id. -/
theorem fifo_iff {n : Nat} (hn : 1 ≤ n) (as : List Call) :
    calls.withHistory.Along (fun p a p' _ => FifoCall n p a p') (new n, []) as ↔
      calls.withHistory.Along (fun p a _ _ => OldestNamed n p a) (new n, []) as := by
  refine Machine.Along.congr (I := fun p => Queued n p ∧ p.1.size ≤ n) ?_ ?_
    ⟨queued_new n, Nat.zero_le n⟩
  · rintro p a p' o ⟨hqueued, hsize⟩ hstep
    rw [calls_step hstep]
    exact fifoCall_iff hn hqueued hsize a
  · rintro p a p' o ⟨hqueued, -⟩ hstep hfifo
    rw [calls_step hstep] at hfifo ⊢
    exact ⟨hqueued.call a, hfifo.bounded⟩

/-- Two tasks with names in a store for one. -/
theorem fifo_iff_named :
    calls.withHistory.Along (fun p a p' _ => FifoCall 1 p a p') (new 1, [])
      [.record "a" (.taskAccepted "a" "w1" 0), .record "b" (.taskAccepted "b" "w1" 0)] := by
  refine (fifo_iff (le_refl 1) _).mpr ⟨_, _, rfl, ?_, _, _, rfl, ?_, trivial⟩
  · intro taskId event _ hcrowded
    exact absurd hcrowded.2 (by decide)
  · intro taskId event _ _ holdest
    exact absurd holdest.1 (by decide)

/-- A task with the empty id stays, and the store has two tasks. -/
theorem not_fifo :
    ¬ calls.withHistory.Along (fun p a p' _ => FifoCall 1 p a p') (new 1, [])
      [.record "" (.taskAccepted "" "w1" 0), .record "b" (.taskAccepted "b" "w1" 0)] := by
  rintro ⟨p, _, hfirst, -, p', _, hsecond, hfifo, -⟩
  cases hfirst
  cases hsecond
  exact absurd hfifo.bounded (by decide)

end Fifo

/-! ## Complete or absent -/

/-- What a call does to the events that were recorded for a task since it was cleared. -/
def recordedAfter (taskId : String) (events : List OutboundEvent) : Call → List OutboundEvent
  | .record id event => if id = taskId then events ++ [event] else events
  | .clearTask id => if id = taskId then [] else events
  | .clear => []

/-- The events that were recorded for a task since it was last cleared. -/
def recorded (taskId : String) (log : List Note) : List OutboundEvent :=
  log.foldl (fun events note => recordedAfter taskId events note.made) []

/-- Each task is complete or absent. -/
def Complete (p : MemoryEventStore × List Note) : Prop :=
  ∀ id, p.1.getEventsForTask id = [] ∨ p.1.getEventsForTask id = recorded id p.2

/-- No task whose events were evicted is recorded again. -/
def NotResumed (p : MemoryEventStore × List Note) (a : Call) : Prop :=
  ∀ taskId event, a = .record taskId event → ¬ p.1.HasTask taskId → recorded taskId p.2 = []

theorem recorded_concat (taskId : String) (log : List Note) (note : Note) :
    recorded taskId (log ++ [note]) = recordedAfter taskId (recorded taskId log) note.made := by
  rw [recorded, List.foldl_append]
  rfl

section Complete

variable {s : MemoryEventStore} {p : MemoryEventStore × List Note} {taskId id : String}

theorem getEventsForTask_of_not_has (h : ¬ s.HasTask id) : s.getEventsForTask id = [] := by
  rw [getEventsForTask, JsMap.get?_eq_none_iff.mpr h, Option.getD_none]

/-- A task that is not evicted keeps its events. -/
theorem get?_evict_of_has (h : (s.evict taskId).Has id) :
    (s.evict taskId).get? id = s.events.get? id := by
  unfold evict at h ⊢
  split at h
  · next hroom =>
    rw [if_pos hroom]
    split at h
    · rfl
    · split at h
      · next hempty => rw [if_pos hempty]
      · next hempty =>
        rw [if_neg hempty]
        exact JsMap.get?_delete_of_ne _ (JsMap.has_delete.mp h).1
  · next hroom => rw [if_neg hroom]

/-- The task that is recorded is not evicted. -/
theorem get?_evict_self (s : MemoryEventStore) (taskId : String) :
    (s.evict taskId).get? taskId = s.events.get? taskId := by
  by_cases hhas : (s.evict taskId).Has taskId
  · exact get?_evict_of_has hhas
  · have hnew : ¬ s.HasTask taskId := fun hstored =>
      hhas (evict_of_not_crowded (fun hcrowded => hcrowded.1 hstored) ▸ hstored)
    rw [JsMap.get?_eq_none_iff.mpr hhas, JsMap.get?_eq_none_iff.mpr hnew]

/-- A task that is in the store after a call had its events before it, and got the event that
is recorded for it. -/
theorem stored_call {a : Call} (h : (s.call a).HasTask id) :
    (∃ event, a = .record id event ∧
      (s.call a).getEventsForTask id = s.getEventsForTask id ++ [event]) ∨
    (s.HasTask id ∧ (s.call a).getEventsForTask id = s.getEventsForTask id ∧
      ∀ events, recordedAfter id events a = events) := by
  cases a with
  | record taskId event =>
      by_cases hid : id = taskId
      · subst hid
        refine .inl ⟨event, rfl, ?_⟩
        show (((s.evict id).set id _).get? id).getD [] = _
        rw [JsMap.get?_set, get?_evict_self]
        rfl
      · have hevict := (hasTask_record_iff.mp h).resolve_left hid
        have hget := get?_evict_of_has hevict
        refine .inr ⟨?_, ?_, fun events => if_neg (Ne.symm hid)⟩
        · exact JsMap.mem_order_iff.mp
            ((order_evict s taskId).subset (JsMap.mem_order_iff.mpr hevict))
        · show (((s.evict taskId).set taskId _).get? id).getD [] = _
          rw [JsMap.get?_set_of_ne _ _ hid, hget]
          rfl
  | clearTask taskId =>
      obtain ⟨hne, hstored⟩ := JsMap.has_delete.mp h
      refine .inr ⟨hstored, ?_, fun events => if_neg (Ne.symm hne)⟩
      show ((s.events.delete taskId).get? id).getD [] = _
      rw [JsMap.get?_delete_of_ne _ hne]
      rfl
  | clear => exact absurd h (JsMap.not_has_empty id)

/-- A stored task has events. -/
def Filled (s : MemoryEventStore) : Prop := ∀ id, s.HasTask id → s.getEventsForTask id ≠ []

theorem Filled.call (h : s.Filled) (a : Call) : (s.call a).Filled := by
  intro id hstored
  rcases stored_call hstored with ⟨event, -, hevents⟩ | ⟨hbefore, hevents, -⟩
  · rw [hevents]
    exact List.append_ne_nil_of_right_ne_nil _ (List.cons_ne_nil _ _)
  · rw [hevents]
    exact h id hbefore

/-- Whether a call keeps every task complete or absent depends on whether it is for a task
with earlier events. -/
theorem complete_call_iff (hfilled : p.1.Filled) (hcomplete : Complete p) (a : Call) :
    Complete (p.1.call a, p.2 ++ [⟨a, p.1.call a⟩]) ↔ NotResumed p a := by
  constructor
  · rintro h taskId event rfl hnew
    have hstored : (p.1.call (.record taskId event)).HasTask taskId :=
      hasTask_record_iff.mpr (.inl rfl)
    have hevents : (p.1.record taskId event).getEventsForTask taskId = [event] := by
      rcases stored_call hstored with ⟨event', heq, hevents⟩ | ⟨hbefore, -⟩
      · cases heq
        rw [getEventsForTask_of_not_has hnew] at hevents
        exact hevents
      · exact absurd hbefore hnew
    rcases h taskId with hnil | heq
    · cases hevents.symm.trans hnil
    · rw [recorded_concat] at heq
      have happend : [event] = recorded taskId p.2 ++ [event] :=
        (hevents.symm.trans heq).trans (if_pos rfl)
      exact List.self_eq_append_left.mp happend
  · intro h id
    by_cases hstored : (p.1.call a).HasTask id
    · right
      rw [recorded_concat]
      rcases stored_call hstored with ⟨event, rfl, hevents⟩ | ⟨hbefore, hevents, hsame⟩
      · have hrecorded : p.1.getEventsForTask id = recorded id p.2 := by
          by_cases hbefore : p.1.HasTask id
          · exact (hcomplete id).resolve_left (hfilled id hbefore)
          · rw [getEventsForTask_of_not_has hbefore, h id event rfl hbefore]
        rw [hevents, hrecorded]
        exact (if_pos rfl).symm
      · rw [hevents, hsame]
        exact (hcomplete id).resolve_left (hfilled id hbefore)
    · exact .inl (getEventsForTask_of_not_has hstored)

/-- Every task is complete or absent along a run exactly if none is recorded again after its
events were evicted. -/
theorem complete_iff (maxTasks : Nat) (as : List Call) :
    calls.withHistory.Along (fun _ _ p' _ => Complete p') (new maxTasks, []) as ↔
      calls.withHistory.Along (fun p a _ _ => NotResumed p a) (new maxTasks, []) as := by
  refine Machine.Along.congr (I := fun p => p.1.Filled ∧ Complete p) ?_ ?_ ⟨?_, ?_⟩
  · rintro p a p' o ⟨hfilled, hcomplete⟩ hstep
    rw [calls_step hstep]
    exact complete_call_iff hfilled hcomplete a
  · rintro p a p' o ⟨hfilled, -⟩ hstep hcomplete
    rw [calls_step hstep] at hcomplete ⊢
    exact ⟨hfilled.call a, hcomplete⟩
  · exact fun id hstored => absurd hstored (JsMap.not_has_empty id)
  · exact fun id => .inl (getEventsForTask_of_not_has (JsMap.not_has_empty id))

/-- A store for one task that is recorded again after another one: only the tail is left. -/
theorem not_complete :
    ¬ calls.withHistory.Along (fun _ _ p' _ => Complete p') (new 1, [])
      [.record "a" (.taskAccepted "a" "w1" 0), .record "b" (.taskAccepted "b" "w1" 1),
        .record "a" (.taskFailed "a" "w1" .timeout true "" 2)] := by
  rintro ⟨p, _, hfirst, -, p', _, hsecond, -, p'', _, hthird, hcomplete, -⟩
  cases hfirst
  cases hsecond
  cases hthird
  rcases hcomplete "a" with h | h
  · exact absurd (congrArg List.length h) (by decide)
  · exact absurd (congrArg List.length h) (by decide)

/-! ## Without a limit -/

/-- The events of a task that is not stored are those since it was cleared: none. -/
structure Unlimited (p : MemoryEventStore × List Note) : Prop where
  maxTasks : p.1.maxTasks = 0
  filled : p.1.Filled
  complete : Complete p
  absent : ∀ id, ¬ p.1.HasTask id → recorded id p.2 = []

theorem Unlimited.call (h : Unlimited p) (a : Call) :
    Unlimited (p.1.call a, p.2 ++ [⟨a, p.1.call a⟩]) where
  maxTasks := (call_maxTasks p.1 a).trans h.maxTasks
  filled := h.filled.call a
  complete := (complete_call_iff h.filled h.complete a).mpr
    fun taskId _ _ hnew => h.absent taskId hnew
  absent id hgone := by
    rw [recorded_concat]
    cases a with
    | record taskId event =>
        have hstored := mt (hasTask_record h.maxTasks).mpr hgone
        rw [not_or] at hstored
        exact (if_neg (Ne.symm hstored.1)).trans (h.absent id hstored.2)
    | clearTask taskId =>
        by_cases hid : taskId = id
        · exact if_pos hid
        · have hstored : ¬ p.1.HasTask id := fun hstored =>
            hgone (JsMap.has_delete.mpr ⟨Ne.symm hid, hstored⟩)
          exact (if_neg hid).trans (h.absent id hstored)
    | clear => rfl

/-- Without a limit every task is complete or absent in every state reached. -/
theorem complete_of_unlimited {as : List Call} {out : List Note}
    (hrun : calls.withHistory.run (new 0, []) as = some (p, out)) : Complete p := by
  have hnew : Unlimited (new 0, []) := by
    refine ⟨rfl, ?_, ?_, fun _ _ => rfl⟩
    · exact fun id hstored => absurd hstored (JsMap.not_has_empty id)
    · exact fun id => .inl (getEventsForTask_of_not_has (JsMap.not_has_empty id))
  refine (calls.withHistory.run_invariant (I := Unlimited) ?_ hnew hrun).complete
  intro p a p' o h hstep
  rw [calls_step hstep]
  exact h.call a

end Complete

end MemoryEventStore

end L0Worker.Worker
