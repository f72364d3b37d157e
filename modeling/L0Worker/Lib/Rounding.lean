import Mathlib.Algebra.Order.Field.Power
import Mathlib.Algebra.Order.Ring.Rat
import Mathlib.Data.Int.Log
import Mathlib.Data.Rat.Floor
import Mathlib.Tactic.Linarith
import Mathlib.Tactic.Positivity
import Mathlib.Tactic.Ring

/-!
# Rounding to a binary floating point format

The nonnegative numbers of a format are the `m * 2 ^ e` with a significand `m` of so many
binary digits and an exponent `e` that is not too small.  A rational is rounded to the
nearest of them, to the one with the even significand if it is halfway between two, and
overflows when the result is too large.  Signs are left to the user.
-/

namespace L0Worker

/-- A binary format. -/
structure FloatFormat where
  /-- The binary digits of a significand. -/
  digits : ℕ
  /-- The least exponent of the last digit. -/
  minExponent : ℤ
  /-- All numbers are below this power of two. -/
  maxExponent : ℤ
  digits_pos : 0 < digits

/-- The double precision of IEEE 754. -/
def binary64 : FloatFormat where
  digits := 53
  minExponent := -1074
  maxExponent := 1024
  digits_pos := by decide

/-! ## Rounding to an integer -/

/-- The nearest natural number, the even one halfway between two. -/
def roundEven (x : ℚ) : ℕ :=
  let n := ⌊x⌋₊
  if x - n < 1 / 2 then n
  else if 1 / 2 < x - n then n + 1
  else if n % 2 = 0 then n else n + 1

/-- A natural number is its own nearest. -/
@[simp] theorem roundEven_natCast (n : ℕ) : roundEven n = n := by
  simp [roundEven]

/-- Rounding does not pass a natural number. -/
theorem roundEven_le {x : ℚ} {n : ℕ} (hx : 0 ≤ x) (h : x < n) : roundEven x ≤ n := by
  have hfloor : ⌊x⌋₊ < n := (Nat.floor_lt hx).mpr h
  unfold roundEven
  dsimp only
  split
  · omega
  · split
    · omega
    · split
      · omega
      · omega

theorem le_roundEven {x : ℚ} {n : ℕ} (h : (n : ℚ) ≤ x) : n ≤ roundEven x := by
  have hfloor : n ≤ ⌊x⌋₊ := Nat.le_floor h
  unfold roundEven
  dsimp only
  split
  · exact hfloor
  · split
    · omega
    · split
      · exact hfloor
      · omega

/-! ## Rounding to a format -/

namespace FloatFormat

variable (F : FloatFormat)

/-- The exponent of the last digit kept. -/
def lastExponent (q : ℚ) : ℤ := max (Int.log 2 q + 1 - F.digits) F.minExponent

/-- The number of the format next to `q`, `none` where it overflows. -/
def round (q : ℚ) : Option ℚ :=
  let e := F.lastExponent q
  let v : ℚ := roundEven (q / 2 ^ e) * 2 ^ e
  if v < 2 ^ F.maxExponent then some v else none

/-- A multiple of the power of two of the last digit is not rounded. -/
theorem round_of_multiple {q : ℚ} {n : ℕ} (h : q = n * 2 ^ F.lastExponent q)
    (hmax : q < 2 ^ F.maxExponent) : F.round q = some q := by
  have hdiv : q / 2 ^ F.lastExponent q = n := by
    rw [div_eq_iff (by positivity)]
    exact h
  unfold round
  dsimp only
  rw [hdiv, roundEven_natCast, ← h, if_pos hmax]

@[simp] theorem round_zero : F.round 0 = some 0 :=
  F.round_of_multiple (n := 0) (by simp) (by positivity)

/-- A number whose significand has no more digits than the format has is not rounded. -/
theorem round_of_lt {m : ℕ} {e : ℤ} (hm : m < 2 ^ F.digits) (he : F.minExponent ≤ e)
    (hmax : (m : ℚ) * 2 ^ e < 2 ^ F.maxExponent) :
    F.round ((m : ℚ) * 2 ^ e) = some ((m : ℚ) * 2 ^ e) := by
  rcases Nat.eq_zero_or_pos m with rfl | hpos
  · simp
  have hq : 0 < (m : ℚ) * 2 ^ e := by positivity
  have hlog : Int.log 2 ((m : ℚ) * 2 ^ e) < F.digits + e := by
    refine (Int.lt_zpow_iff_log_lt (by decide) hq).mp ?_
    have hm' : (m : ℚ) < 2 ^ F.digits := by exact_mod_cast hm
    have h2 : (0 : ℚ) < 2 ^ e := by positivity
    calc (m : ℚ) * 2 ^ e < 2 ^ F.digits * 2 ^ e := mul_lt_mul_of_pos_right hm' h2
      _ = ((2 : ℕ) : ℚ) ^ ((F.digits : ℤ) + e) := by
        rw [Nat.cast_ofNat, zpow_add₀ (by norm_num), zpow_natCast]
  have hle : F.lastExponent ((m : ℚ) * 2 ^ e) ≤ e := by
    unfold lastExponent
    omega
  -- The significand is shifted to where the last digit is.
  obtain ⟨k, hk⟩ := Int.le.dest hle
  refine F.round_of_multiple (n := m * 2 ^ k) ?_ hmax
  generalize F.lastExponent ((m : ℚ) * 2 ^ e) = last at hk
  subst hk
  rw [zpow_add₀ (by norm_num), zpow_natCast]
  push_cast
  ring

/-- The same when the significand is the first power of two with one digit more. -/
theorem round_of_le {m : ℕ} {e : ℤ} (hm : m ≤ 2 ^ F.digits) (he : F.minExponent ≤ e)
    (hmax : (m : ℚ) * 2 ^ e < 2 ^ F.maxExponent) :
    F.round ((m : ℚ) * 2 ^ e) = some ((m : ℚ) * 2 ^ e) := by
  rcases hm.lt_or_eq with hlt | rfl
  · exact F.round_of_lt hlt he hmax
  have hshift : ((2 ^ F.digits : ℕ) : ℚ) * 2 ^ e = ((1 : ℕ) : ℚ) * 2 ^ ((F.digits : ℤ) + e) := by
    rw [zpow_add₀ (by norm_num), zpow_natCast]
    push_cast
    ring
  rw [hshift] at hmax ⊢
  exact F.round_of_lt (Nat.one_lt_two_pow F.digits_pos.ne') (by omega) hmax

/-- What rounding gives is in the format. -/
theorem round_eq_some {q v : ℚ} (hq : 0 ≤ q) (h : F.round q = some v) :
    ∃ (m : ℕ) (e : ℤ), v = m * 2 ^ e ∧ m ≤ 2 ^ F.digits ∧ F.minExponent ≤ e ∧
      v < 2 ^ F.maxExponent := by
  unfold round at h
  dsimp only at h
  obtain ⟨hmax, hv⟩ := Option.ite_none_right_eq_some.mp h
  obtain rfl := Option.some.inj hv
  refine ⟨_, _, rfl, ?_, le_max_right _ _, hmax⟩
  refine roundEven_le (by positivity) ?_
  rw [div_lt_iff₀ (by positivity)]
  calc q < ((2 : ℕ) : ℚ) ^ (Int.log 2 q + 1) := Int.lt_zpow_succ_log_self (by decide) q
    _ ≤ 2 ^ ((F.digits : ℤ) + F.lastExponent q) := by
      rw [Nat.cast_ofNat]
      refine zpow_le_zpow_right₀ (by norm_num) ?_
      unfold lastExponent
      omega
    _ = ((2 ^ F.digits : ℕ) : ℚ) * 2 ^ F.lastExponent q := by
      rw [zpow_add₀ (by norm_num), zpow_natCast]
      push_cast
      ring

/-- Rounding does not pass a power of two. -/
theorem le_round {q v : ℚ} {k : ℤ} (hk : F.minExponent ≤ k) (hq : 2 ^ k ≤ q)
    (h : F.round q = some v) : 2 ^ k ≤ v := by
  have hpos : 0 < q := lt_of_lt_of_le (by positivity) hq
  unfold round at h
  dsimp only at h
  obtain ⟨-, hv⟩ := Option.ite_none_right_eq_some.mp h
  obtain rfl := Option.some.inj hv
  have hlog : k ≤ Int.log 2 q :=
    (Int.zpow_le_iff_le_log (by decide) hpos).mp (by simpa using hq)
  have hlast : F.lastExponent q ≤ Int.log 2 q := by
    have hdigits := F.digits_pos
    unfold lastExponent
    omega
  -- The leading digit is kept.
  obtain ⟨n, hn⟩ := Int.le.dest hlast
  have hpow : (2 : ℚ) ^ Int.log 2 q = ((2 ^ n : ℕ) : ℚ) * 2 ^ F.lastExponent q := by
    rw [← hn, zpow_add₀ (by norm_num), zpow_natCast]
    push_cast
    ring
  have hle : ((2 ^ n : ℕ) : ℚ) ≤ q / 2 ^ F.lastExponent q := by
    rw [le_div_iff₀ (by positivity), ← hpow]
    simpa using Int.zpow_log_le_self (b := 2) (by decide) hpos
  calc (2 : ℚ) ^ k ≤ 2 ^ Int.log 2 q := zpow_le_zpow_right₀ (by norm_num) hlog
    _ = ((2 ^ n : ℕ) : ℚ) * 2 ^ F.lastExponent q := hpow
    _ ≤ roundEven (q / 2 ^ F.lastExponent q) * 2 ^ F.lastExponent q :=
      mul_le_mul_of_nonneg_right (by exact_mod_cast le_roundEven hle) (by positivity)

/-- Rounding twice is rounding once. -/
theorem round_round {q v : ℚ} (hq : 0 ≤ q) (h : F.round q = some v) : F.round v = some v := by
  obtain ⟨m, e, rfl, hm, he, hmax⟩ := F.round_eq_some hq h
  exact F.round_of_le hm he hmax

end FloatFormat

end L0Worker
