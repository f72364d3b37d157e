import Mathlib.Data.List.Basic

/-!
# Broadcast channels

A channel on which every receiver gets every value that is sent after it subscribed, as long as
it keeps up.  The channel holds the last `capacity` values.  A receiver that is further behind
is told how many values it has missed and goes on with the oldest that is held.

A receiver is known by its place in the list of cursors.  `Reads` says what a receiver gets
between two positions in what was sent: whatever it gets is in order and nothing comes twice
(`Reads.sublist`), and it gets everything exactly if it was never told that it lagged
(`Reads.reads_all_iff`).
-/

namespace L0Worker

/-- A broadcast channel. -/
structure Broadcast (α : Type*) (capacity : ℕ) where
  /-- All values sent so far. -/
  sent : List α
  /-- For each receiver, how many values come before the next one it reads. -/
  cursors : List ℕ
  cursors_le : ∀ next ∈ cursors, next ≤ sent.length
deriving DecidableEq

/-- What a receiver gets. -/
inductive Received (α : Type*) where
  | value (a : α)
  | lagged (missed : ℕ)
deriving DecidableEq

namespace Received

variable {α : Type*}

/-- The value, if the receiver gets one. -/
def value? : Received α → Option α
  | .value a => some a
  | .lagged _ => none

end Received

namespace Broadcast

variable {α : Type*} {capacity : ℕ}

/-- The channel nothing was sent on. -/
def empty : Broadcast α capacity := ⟨[], [], List.forall_mem_nil _⟩

/-- Send a value. -/
def send (c : Broadcast α capacity) (a : α) : Broadcast α capacity where
  sent := c.sent ++ [a]
  cursors := c.cursors
  cursors_le next hnext := by
    rw [List.length_append]
    exact Nat.le_add_right_of_le (c.cursors_le next hnext)

/-- A new receiver, for what is sent from now on. -/
def subscribe (c : Broadcast α capacity) : Broadcast α capacity where
  sent := c.sent
  cursors := c.cursors ++ [c.sent.length]
  cursors_le := List.forall_mem_append.mpr
    ⟨c.cursors_le, List.forall_mem_singleton.mpr (Nat.le_refl _)⟩

/-- Move a receiver. -/
def moveTo (c : Broadcast α capacity) (i next : ℕ) (h : next ≤ c.sent.length) :
    Broadcast α capacity where
  sent := c.sent
  cursors := c.cursors.set i next
  cursors_le next' hnext' := by
    obtain hmem | rfl := List.mem_or_eq_of_mem_set hnext'
    · exact c.cursors_le next' hmem
    · exact h

/-- What receiver `i` gets next, if there is something. -/
def recv (c : Broadcast α capacity) (i : ℕ) : Option (Received α × Broadcast α capacity) :=
  match c.cursors[i]? with
  | none => none
  | some next =>
      if capacity < c.sent.length - next then
        some (.lagged (c.sent.length - next - capacity),
          c.moveTo i (c.sent.length - capacity) (Nat.sub_le _ _))
      else if h : next < c.sent.length then
        some (.value c.sent[next], c.moveTo i (next + 1) h)
      else none

/-- What receiver `i` has not read yet. -/
def waiting (c : Broadcast α capacity) (i : ℕ) : List α :=
  match c.cursors[i]? with
  | none => []
  | some next => c.sent.drop next

end Broadcast

/-! ## What a receiver gets -/

/-- What a receiver gets on the way from one position to another. -/
inductive Reads {α : Type*} (sent : List α) : ℕ → List (Received α) → ℕ → Prop where
  | nil (p : ℕ) : Reads sent p [] p
  | value {p q : ℕ} {a : α} {items : List (Received α)} (ha : sent[p]? = some a)
      (h : Reads sent (p + 1) items q) : Reads sent p (.value a :: items) q
  | lagged {p q missed : ℕ} {items : List (Received α)} (hmissed : 0 < missed)
      (hle : p + missed ≤ sent.length) (h : Reads sent (p + missed) items q) :
      Reads sent p (.lagged missed :: items) q

namespace Reads

variable {α : Type*} {sent : List α} {p q r : ℕ} {items items' : List (Received α)}

theorem append (h : Reads sent p items q) (h' : Reads sent q items' r) :
    Reads sent p (items ++ items') r := by
  induction h with
  | nil p => exact h'
  | value ha _ ih => exact .value ha (ih h')
  | lagged hmissed hle _ ih => exact .lagged hmissed hle (ih h')

/-- What was read stays so when more is sent. -/
theorem sent_append (h : Reads sent p items q) (more : List α) :
    Reads (sent ++ more) p items q := by
  induction h with
  | nil p => exact .nil p
  | value ha _ ih =>
      have hlt := (List.getElem?_eq_some_iff.mp ha).1
      exact .value ((List.getElem?_append_left hlt).trans ha) ih
  | lagged hmissed hle _ ih =>
      refine .lagged hmissed ?_ ih
      rw [List.length_append]
      exact Nat.le_add_right_of_le hle

/-- The values come in the order in which they were sent, and none comes twice. -/
theorem sublist (h : Reads sent p items q) :
    (items.filterMap Received.value? ++ sent.drop q).Sublist (sent.drop p) := by
  induction h with
  | nil p => exact List.Sublist.refl _
  | @value p q a items ha _ ih =>
      obtain ⟨hlt, rfl⟩ := List.getElem?_eq_some_iff.mp ha
      rw [List.drop_eq_getElem_cons hlt]
      exact ih.cons_cons _
  | @lagged p q missed items _ _ _ ih =>
      rw [← List.drop_drop] at ih
      exact ih.trans (List.drop_sublist missed _)

theorem le_length (h : Reads sent p items q) (hp : p ≤ sent.length) : q ≤ sent.length := by
  induction h with
  | nil p => exact hp
  | value ha _ ih => exact ih (List.getElem?_eq_some_iff.mp ha).1
  | lagged _ hle _ ih => exact ih hle

/-- A receiver that was never told that it lagged has everything. -/
theorem complete (h : Reads sent p items q) (hitems : ∀ item ∈ items, item.value?.isSome = true) :
    items.filterMap Received.value? ++ sent.drop q = sent.drop p := by
  induction h with
  | nil p => rfl
  | @value p q a items ha _ ih =>
      obtain ⟨hlt, rfl⟩ := List.getElem?_eq_some_iff.mp ha
      rw [List.drop_eq_getElem_cons hlt, ← ih (List.forall_mem_cons.mp hitems).2]
      rfl
  | lagged _ _ _ _ => exact nomatch (List.forall_mem_cons.mp hitems).1

/-- A receiver that was told that it lagged has fewer values than it advanced. -/
theorem length_lt (h : Reads sent p items q) {item : Received α} (hmem : item ∈ items)
    (hlagged : item.value? = none) : p + (items.filterMap Received.value?).length < q := by
  have hle : ∀ {p items q}, Reads sent p items q →
      p + (items.filterMap Received.value?).length ≤ q := by
    intro p items q h
    induction h with
    | nil p => exact Nat.le_refl p
    | value _ _ ih =>
        rw [List.filterMap_cons]
        simp only [Received.value?, List.length_cons]
        omega
    | lagged _ _ _ ih =>
        rw [List.filterMap_cons]
        simp only [Received.value?]
        omega
  induction h with
  | nil p => cases hmem
  | value _ _ ih =>
      obtain rfl | hmem := List.mem_cons.mp hmem
      · cases hlagged
      · have := ih hmem
        rw [List.filterMap_cons]
        simp only [Received.value?, List.length_cons]
        omega
  | lagged hmissed _ h _ =>
      have := hle h
      rw [List.filterMap_cons]
      simp only [Received.value?]
      omega

/-- What a receiver has and what waits for it is everything exactly if it was never told that
it lagged. -/
theorem reads_all_iff (h : Reads sent p items q) (hp : p ≤ sent.length) :
    items.filterMap Received.value? ++ sent.drop q = sent.drop p ↔
      ∀ item ∈ items, item.value?.isSome = true := by
  refine ⟨fun heq item hmem => ?_, h.complete⟩
  by_contra hnone
  have hlt := h.length_lt hmem (Option.not_isSome_iff_eq_none.mp hnone)
  have hq := h.le_length hp
  have hlength := congrArg List.length heq
  rw [List.length_append, List.length_drop, List.length_drop] at hlength
  omega

end Reads

namespace Broadcast

variable {α : Type*} {capacity : ℕ} {c c' : Broadcast α capacity} {i : ℕ} {item : Received α}

/-- What a receiver gets is read from where it stands, and it is told that it lags exactly if
more values wait than the channel holds. -/
theorem recv_spec (h : c.recv i = some (item, c')) :
    ∃ p q, c.cursors[i]? = some p ∧ c'.sent = c.sent ∧ c'.cursors = c.cursors.set i q ∧
      Reads c.sent p [item] q ∧ (item.value?.isSome = true ↔ (c.waiting i).length ≤ capacity) := by
  unfold recv at h
  unfold waiting
  cases hp : c.cursors[i]? with
  | none =>
      rw [hp] at h
      cases h
  | some p =>
      rw [hp] at h
      dsimp only at h ⊢
      rw [List.length_drop]
      split at h
      · next hlag =>
        cases h
        have hle : p + (c.sent.length - p - capacity) = c.sent.length - capacity := by omega
        refine ⟨p, c.sent.length - capacity, rfl, rfl, rfl, ?_, ?_⟩
        · refine .lagged (by omega) (by omega) ?_
          rw [hle]
          exact .nil _
        · exact ⟨nofun, fun hlength => absurd hlag (Nat.not_lt.mpr hlength)⟩
      · next hkeeps =>
        split at h
        · next hlt =>
          cases h
          refine ⟨p, p + 1, rfl, rfl, rfl, ?_, ?_⟩
          · exact .value (List.getElem?_eq_getElem hlt) (.nil _)
          · exact ⟨fun _ => Nat.not_lt.mp hkeeps, fun _ => rfl⟩
        · cases h

end Broadcast

end L0Worker
