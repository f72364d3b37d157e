import Mathlib.Data.List.Basic
import Mathlib.Data.List.Induction

/-!
# Streaks

A counter that some entries of a log raise, some set back to zero and others leave alone
holds the length of the current streak.  `le_streak_iff` says what that is in terms of the
log: some end of it holds so many raising entries, and none that sets the counter back.
-/

namespace L0Worker

/-- What an entry of a log does to a counter. -/
inductive Mark where
  | counts
  | resets
  /-- The counter is left alone. -/
  | skipped
deriving DecidableEq

/-- The counter after an entry. -/
def Mark.apply (n : Nat) : Mark → Nat
  | .counts => n + 1
  | .resets => 0
  | .skipped => n

variable {α : Type*} {mark : α → Mark} {log : List α}

/-- The counter after a log. -/
def streak (mark : α → Mark) (log : List α) : Nat :=
  log.foldl (fun n a => (mark a).apply n) 0

@[simp] theorem streak_nil : streak mark [] = 0 := rfl

theorem streak_concat (log : List α) (a : α) :
    streak mark (log ++ [a]) = (mark a).apply (streak mark log) := by
  rw [streak, List.foldl_append]
  rfl

/-- A log that is skipped altogether. -/
theorem streak_eq_zero (h : ∀ a ∈ log, mark a = .skipped) : streak mark log = 0 := by
  induction log using List.reverseRecOn with
  | nil => rfl
  | append_singleton log a ih =>
      rw [streak_concat, h a (List.mem_append_right _ (List.mem_singleton_self a))]
      exact ih fun b hb => h b (List.mem_append_left _ hb)

/-- The last `n` entries that count were not followed by one that resets. -/
theorem le_streak_iff {n : Nat} :
    n ≤ streak mark log ↔
      ∃ recent, recent <:+ log ∧ (∀ a ∈ recent, mark a ≠ .resets) ∧
        n ≤ recent.countP fun a => mark a = .counts := by
  induction log using List.reverseRecOn generalizing n with
  | nil =>
      constructor
      · intro h
        exact ⟨[], List.suffix_rfl, List.forall_mem_nil _, h⟩
      · rintro ⟨recent, hsuffix, -, h⟩
        rwa [List.suffix_nil.mp hsuffix] at h
  | append_singleton log a ih =>
      rw [streak_concat]
      constructor
      · intro h
        cases hmark : mark a with
        | resets =>
            rw [hmark] at h
            exact ⟨[], List.nil_suffix, List.forall_mem_nil _, h⟩
        | _ =>
            have hle : n - (if mark a = .counts then 1 else 0) ≤ streak mark log := by
              rw [hmark] at h ⊢
              simp only [Mark.apply, reduceCtorEq, ↓reduceIte] at h ⊢
              omega
            obtain ⟨recent, hsuffix, hreset, hcount⟩ := ih.mp hle
            refine ⟨recent ++ [a], ?_, ?_, ?_⟩
            · obtain ⟨before, rfl⟩ := hsuffix
              exact ⟨before, by rw [List.append_assoc]⟩
            · rw [List.forall_mem_append]
              exact ⟨hreset, List.forall_mem_singleton.mpr (by simp [hmark])⟩
            · rw [List.countP_append, List.countP_singleton]
              simp only [decide_eq_true_eq]
              omega
      · rintro ⟨recent, hsuffix, hreset, hcount⟩
        obtain rfl | ⟨init, rfl, hinit⟩ := List.suffix_concat_iff.mp hsuffix
        · exact Nat.le_trans hcount (Nat.zero_le _)
        · rw [List.forall_mem_append, List.forall_mem_singleton] at hreset
          rw [List.countP_append, List.countP_singleton] at hcount
          have hle : init.countP (fun a => mark a = .counts) ≤ streak mark log :=
            ih.mpr ⟨init, hinit, hreset.1, Nat.le_refl _⟩
          cases hmark : mark a with
          | resets => exact absurd hmark hreset.2
          | counts =>
              simp only [hmark, Mark.apply, decide_true, ↓reduceIte] at hcount ⊢
              omega
          | skipped =>
              simp only [hmark, Mark.apply, reduceCtorEq, decide_false, Bool.false_eq_true,
                ↓reduceIte] at hcount ⊢
              omega

end L0Worker
