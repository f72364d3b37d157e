import Mathlib.Data.List.Basic

/-!
# Bounded channels

A first-in first-out channel that holds at most `capacity` elements.  The bound
is a field, so a channel that holds more cannot be built.  `send` is partial: it
waits while the channel is full.  `recv` is partial: it waits while the channel
is empty.
-/

namespace L0Worker

/-- A channel of bounded capacity. -/
structure Channel (α : Type*) (capacity : Nat) where
  /-- The unread elements, oldest first. -/
  queue : List α
  /-- The capacity is kept. -/
  length_le : queue.length ≤ capacity
deriving DecidableEq

namespace Channel

variable {α : Type*} {capacity : Nat}

/-- The channel nothing was sent on. -/
def empty : Channel α capacity := ⟨[], Nat.zero_le capacity⟩

/-- There is no free place. -/
def Full (c : Channel α capacity) : Prop := c.queue.length = capacity

instance (c : Channel α capacity) : Decidable c.Full := inferInstanceAs (Decidable (_ = _))

/-- Put an element at the end, if there is a free place. -/
def send (c : Channel α capacity) (a : α) : Option (Channel α capacity) :=
  if h : c.queue.length < capacity then
    some ⟨c.queue ++ [a], by rw [List.length_append]; exact h⟩
  else none

/-- Take the oldest element, if there is one. -/
def recv (c : Channel α capacity) : Option (α × Channel α capacity) :=
  match h : c.queue with
  | [] => none
  | a :: rest =>
      some (a, ⟨rest, Nat.le_trans (Nat.le_succ _) (by simpa [h] using c.length_le)⟩)

@[simp] theorem queue_empty : (empty : Channel α capacity).queue = [] := rfl

theorem send_eq_none_iff {c : Channel α capacity} {a : α} : c.send a = none ↔ c.Full := by
  have := c.length_le
  unfold send Full
  split
  · simp only [reduceCtorEq, false_iff]
    omega
  · simp only [true_iff]
    omega

theorem queue_of_send {c c' : Channel α capacity} {a : α} (h : c.send a = some c') :
    c'.queue = c.queue ++ [a] := by
  unfold send at h
  split at h
  · rw [← Option.some.inj h]
  · cases h

theorem length_of_send {c c' : Channel α capacity} {a : α} (h : c.send a = some c') :
    c'.queue.length = c.queue.length + 1 := by
  rw [queue_of_send h, List.length_append, List.length_singleton]

/-- A channel with a free place accepts an element. -/
theorem exists_send {c : Channel α capacity} (h : c.queue.length < capacity) (a : α) :
    ∃ c', c.send a = some c' := by
  rw [← Option.ne_none_iff_exists', Ne, send_eq_none_iff]
  exact Nat.ne_of_lt h

end Channel

end L0Worker
