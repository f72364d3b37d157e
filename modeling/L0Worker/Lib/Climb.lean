import Mathlib.Data.List.Chain
import Mathlib.Data.List.Forall2
import Mathlib.Order.SuccPred.Basic

/-!
# Strictly increasing lists above given bounds

`climb b rs` increases strictly from above `b`, and entry by entry it is not below `rs`.  Of
all such lists it is the least (`climb_le`): each entry is the greater of its own bound and
the successor of the entry before.
-/

namespace L0Worker

variable {α : Type*} [LinearOrder α] [SuccOrder α] {b : α} {rs ts : List α}

/-- Each entry is the least that is above the one before and not below its bound. -/
def climb (b : α) : List α → List α
  | [] => []
  | r :: rs => max r (Order.succ b) :: climb (max r (Order.succ b)) rs

/-- The list increases strictly from above `b`, and no entry is below its bound. -/
structure Climbs (b : α) (rs ts : List α) : Prop where
  increasing : List.IsChain (· < ·) (b :: ts)
  above : List.Forall₂ (· ≤ ·) rs ts

theorem climbs_climb [NoMaxOrder α] (b : α) (rs : List α) : Climbs b rs (climb b rs) := by
  induction rs generalizing b with
  | nil => exact ⟨List.isChain_singleton b, .nil⟩
  | cons r rs ih =>
      obtain ⟨hincreasing, habove⟩ := ih (max r (Order.succ b))
      have hlt : b < max r (Order.succ b) := lt_max_of_lt_right (Order.lt_succ b)
      exact ⟨hincreasing.cons_cons hlt, .cons (le_max_left _ _) habove⟩

omit [SuccOrder α] in
/-- The start may be lowered. -/
theorem Climbs.of_le {b' : α} (h : Climbs b' rs ts) (hle : b ≤ b') : Climbs b rs ts := by
  refine ⟨?_, h.above⟩
  cases ts with
  | nil => exact List.isChain_singleton b
  | cons t ts =>
      obtain ⟨hlt, hchain⟩ := List.isChain_cons_cons.mp h.increasing
      exact hchain.cons_cons (lt_of_le_of_lt hle hlt)

/-- No such list is below `climb` at any entry. -/
theorem climb_le (h : Climbs b rs ts) : List.Forall₂ (· ≤ ·) (climb b rs) ts := by
  induction rs generalizing b ts with
  | nil =>
      cases h.above
      exact .nil
  | cons r rs ih =>
      obtain ⟨hincreasing, habove⟩ := h
      cases habove with
      | @cons _ t _ ts hr habove =>
          obtain ⟨hlt, hchain⟩ := List.isChain_cons_cons.mp hincreasing
          -- the first entry is above the start and its bound, so it is not below the maximum
          have hle : max r (Order.succ b) ≤ t := max_le hr (Order.succ_le_of_lt hlt)
          exact .cons hle (ih (Climbs.of_le ⟨hchain, habove⟩ hle))

end L0Worker
