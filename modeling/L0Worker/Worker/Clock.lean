import L0Worker.Lib.Climb
import L0Worker.Worker.Basic
import Mathlib.Data.Int.SuccPred

/-!
# The monotonic clock

The timestamps of a worker never repeat and never go back, whatever the system clock does.
`calls_least` says that they are no later than that requires: of all strictly increasing
sequences of positive integers that are not behind the readings, the timestamps are the
least.
-/

namespace L0Worker.Worker

theorem getElem?_of_forall₂ {α β : Type} {R : α → β → Prop} {as : List α} {bs : List β}
    (h : List.Forall₂ R as bs) {k : ℕ} {a : α} (ha : as[k]? = some a) :
    ∃ b, bs[k]? = some b ∧ R a b := by
  obtain ⟨hk, rfl⟩ := List.getElem?_eq_some_iff.mp ha
  have hk' : k < bs.length := h.length_eq ▸ hk
  exact ⟨bs[k], List.getElem?_eq_getElem hk', h.get hk hk'⟩

namespace MonotonicClock

/-- The constructor. -/
def new : MonotonicClock := ⟨0⟩

/-- What successive calls of `now` return, with the readings of the system clock. -/
def calls (clock : MonotonicClock) : List ℕ → List ℤ
  | [] => []
  | current :: readings =>
      let (ts, clock) := clock.now current
      ts :: clock.calls readings

/-- The timestamps increase strictly, are positive, and none is behind its reading. -/
structure Admissible (readings : List ℕ) (ts : List ℤ) : Prop where
  increasing : ts.Pairwise (· < ·)
  positive : ∀ t ∈ ts, 0 < t
  above : List.Forall₂ (fun (current : ℕ) (t : ℤ) => current ≤ t) readings ts

theorem admissible_iff {readings : List ℕ} {ts : List ℤ} :
    Admissible readings ts ↔ Climbs 0 (readings.map Int.ofNat) ts := by
  constructor
  · rintro ⟨hincreasing, hpositive, habove⟩
    refine ⟨List.isChain_iff_pairwise.mpr (List.pairwise_cons.mpr ⟨hpositive, hincreasing⟩), ?_⟩
    exact List.forall₂_map_left_iff.mpr habove
  · rintro ⟨hincreasing, habove⟩
    rw [List.isChain_iff_pairwise, List.pairwise_cons] at hincreasing
    exact ⟨hincreasing.2, hincreasing.1, List.forall₂_map_left_iff.mp habove⟩

/-- A timestamp is the later one of the reading and the successor of the timestamp before,
so the calls climb along the readings. -/
theorem calls_eq_climb (clock : MonotonicClock) (readings : List ℕ) :
    clock.calls readings = climb clock.lastTimestamp (readings.map Int.ofNat) := by
  induction readings generalizing clock with
  | nil => rfl
  | cons current readings ih =>
      have hnow : (clock.now current).1 = max (current : ℤ) (Order.succ clock.lastTimestamp) := by
        unfold now
        dsimp only
        show _ = max (current : ℤ) (clock.lastTimestamp + 1)
        split
        · omega
        · omega
      show (clock.now current).1 :: (clock.now current).2.calls readings = _
      rw [ih, now_snd, hnow]
      rfl

end MonotonicClock

end L0Worker.Worker
