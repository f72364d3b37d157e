import L0Worker.Lib.JsonNumber
import Mathlib.Algebra.BigOperators.Ring.Finset

/-!
# Adding numbers

Addition rounds to double precision, so it is neither exact nor associative.  It is exact where
the sum has double precision, as a whole number up to `2 ^ 53` has.  A sum of whole numbers
beyond that is rounded, and it stays beyond: it compares with a smaller whole number as it
would without rounding.
-/

namespace L0Worker

namespace Number

/-! ## Numbers that are not rounded -/

/-- A count up to `2 ^ 53` is not rounded. -/
theorem ofMagnitude_natCast {n : ℕ} (h : n ≤ 2 ^ 53) : ofMagnitude n = .ofNat n := by
  have hround : binary64.round n = some (n : ℚ) := by
    have hmax : (n : ℚ) * 2 ^ (0 : ℤ) < 2 ^ binary64.maxExponent := by
      have hn : (n : ℚ) ≤ 2 ^ (53 : ℤ) := by exact_mod_cast h
      calc (n : ℚ) * 2 ^ (0 : ℤ) = n := by simp
        _ ≤ 2 ^ (53 : ℤ) := hn
        _ < 2 ^ (1024 : ℤ) := zpow_lt_zpow_right₀ (by norm_num) (by norm_num)
    simpa using binary64.round_of_le (e := 0) h (by decide) hmax
  rw [ofMagnitude, hround]
  rfl

theorem isDouble_ofNat {n : ℕ} (h : n ≤ 2 ^ 53) : (ofNat n).IsDouble := by
  rw [← ofMagnitude_natCast h]
  exact isDouble_ofMagnitude (Nat.cast_nonneg n)

theorem isDouble_ofInt {n : ℤ} (h : n.natAbs ≤ 2 ^ 53) : (ofInt n).IsDouble := by
  have habs : |(n : ℚ)| = (n.natAbs : ℕ) := by
    rw [← Int.cast_abs, Int.abs_eq_natAbs, Int.cast_natCast]
  have hdouble : (ofNat n.natAbs).IsDouble := isDouble_ofNat h
  show binary64.round |(n : ℚ)| = some |(n : ℚ)|
  rw [habs]
  simpa [ofNat, IsDouble] using hdouble

/-- A number of double precision is not rounded. -/
theorem ofRat_of_isDouble {v : ℚ} (h : (finite v).IsDouble) : ofRat v = .finite v := by
  have hround : binary64.round |v| = some |v| := h
  unfold ofRat
  split
  · next hneg =>
    rw [abs_of_neg hneg] at hround
    rw [ofMagnitude, hround]
    simp [neg]
  · next hpos =>
    rw [abs_of_nonneg (not_lt.mp hpos)] at hround
    rw [ofMagnitude, hround]

theorem add_finite {a b : ℚ} (h : (finite (a + b)).IsDouble) :
    (finite a).add (.finite b) = .finite (a + b) :=
  ofRat_of_isDouble h

theorem add_ofInt {m n : ℤ} (h : (m + n).natAbs ≤ 2 ^ 53) :
    (ofInt m).add (ofInt n) = .ofInt (m + n) := by
  have hdouble : (ofInt (m + n)).IsDouble := isDouble_ofInt h
  unfold ofInt at hdouble ⊢
  rw [Int.cast_add] at hdouble ⊢
  exact add_finite hdouble

/-! ## Comparing a sum -/

theorem ofInt_lt_ofInt_iff {m n : ℤ} : (ofInt m).lt (.ofInt n) = true ↔ m < n := by
  simp [ofInt, lt]

/-- A rounded number from `2 ^ 53` on is still one. -/
theorem ofMagnitude_large {q : ℚ} (hq : 2 ^ (53 : ℤ) ≤ q) :
    ofMagnitude q = .infinity ∨ ∃ v : ℚ, ofMagnitude q = .finite v ∧ 2 ^ (53 : ℤ) ≤ v := by
  unfold ofMagnitude
  cases hround : binary64.round q with
  | none => exact .inl rfl
  | some v => exact .inr ⟨v, rfl, binary64.le_round (by decide) hq hround⟩

/-- It is above every smaller whole number. -/
theorem ofMagnitude_not_lt {q : ℚ} (hq : 2 ^ (53 : ℤ) ≤ q) {n : ℤ} (hn : n < 2 ^ 53) :
    (ofMagnitude q).lt (.ofInt n) = false := by
  rcases ofMagnitude_large hq with h | ⟨v, h, hv⟩
  · rw [h]
    rfl
  · have hn' : (n : ℚ) ≤ 2 ^ (53 : ℤ) := by exact_mod_cast hn.le
    rw [h]
    simp [lt, ofInt, hn'.trans hv]

/-- The opposite of it is below every larger whole number. -/
theorem neg_ofMagnitude_lt {q : ℚ} (hq : 2 ^ (53 : ℤ) ≤ q) {n : ℤ} (hn : -2 ^ 53 < n) :
    (ofMagnitude q).neg.lt (.ofInt n) = true := by
  rcases ofMagnitude_large hq with h | ⟨v, h, hv⟩
  · rw [h]
    rfl
  · have hn' : -(2 : ℚ) ^ (53 : ℤ) < n := by exact_mod_cast hn
    have hlt : -v < n := by linarith
    rw [h]
    simpa [neg, lt, ofInt] using hlt

/-- The sum of two whole numbers compares with a whole number below `2 ^ 53` as it would
without rounding. -/
theorem add_ofInt_lt_iff {m n k : ℤ} (hk : k.natAbs < 2 ^ 53) :
    ((ofInt m).add (ofInt n)).lt (.ofInt k) = true ↔ m + n < k := by
  rcases Nat.lt_or_ge (2 ^ 53) (m + n).natAbs with hlarge | hsmall
  · have hsum : (ofInt m).add (ofInt n) = ofRat ((m + n : ℤ) : ℚ) := by
      rw [Int.cast_add]
      rfl
    rw [hsum, ofRat]
    split
    · next hneg =>
      have hneg' : m + n < 0 := by exact_mod_cast hneg
      have hq : (2 : ℚ) ^ (53 : ℤ) ≤ -((m + n : ℤ) : ℚ) := by
        have hle : (2 : ℤ) ^ 53 ≤ -(m + n) := by omega
        exact_mod_cast hle
      exact iff_of_true (neg_ofMagnitude_lt hq (by omega)) (by omega)
    · next hpos =>
      have hpos' : 0 ≤ m + n := by exact_mod_cast not_lt.mp hpos
      have hq : (2 : ℚ) ^ (53 : ℤ) ≤ ((m + n : ℤ) : ℚ) := by
        have hle : (2 : ℤ) ^ 53 ≤ m + n := by omega
        exact_mod_cast hle
      exact iff_of_false (Bool.eq_false_iff.mp (ofMagnitude_not_lt hq (by omega))) (by omega)
  · rw [add_ofInt hsmall]
    exact ofInt_lt_ofInt_iff

/-! ## Sums of lists -/

/-- The sum of a list of numbers, from the left. -/
def sum (ns : List Number) : Number := ns.foldl add 0

/-- Adding from the left is exact while the partial sums have double precision. -/
theorem foldl_add_finite {vs : List ℚ} {a : ℚ}
    (h : ∀ k, (finite (a + (vs.take k).sum)).IsDouble) :
    (vs.map finite).foldl add (.finite a) = .finite (a + vs.sum) := by
  induction vs generalizing a with
  | nil => simp
  | cons v vs ih =>
      have hfirst : (finite (a + v)).IsDouble := by simpa using h 1
      rw [List.map_cons, List.foldl_cons, add_finite hfirst, ih, List.sum_cons, add_assoc]
      intro k
      have hnext := h (k + 1)
      rwa [List.take_succ_cons, List.sum_cons, ← add_assoc] at hnext

theorem sum_finite {vs : List ℚ} (h : ∀ k, (finite (vs.take k).sum).IsDouble) :
    sum (vs.map finite) = .finite vs.sum := by
  have hpartial : ∀ k, (finite (0 + (vs.take k).sum)).IsDouble := by
    intro k
    rw [zero_add]
    exact h k
  have hsum := foldl_add_finite hpartial
  rw [zero_add] at hsum
  exact hsum

/-- A total of numbers, as they are added one by one from the left. -/
structure IsTotal (total : Number) (ns : List Number) : Prop where
  left : total = sum ns
  /-- It is exact while the partial sums have double precision. -/
  exact : ∀ vs : List ℚ, ns = vs.map finite → (∀ k, (finite (vs.take k).sum).IsDouble) →
    total = .finite vs.sum

theorem isTotal_sum (ns : List Number) : IsTotal (sum ns) ns where
  left := rfl
  exact vs hns hdouble := by rw [hns, sum_finite hdouble]

/-- The partial sums of counts have double precision if their sum is at most `2 ^ 53`. -/
theorem isDouble_sum_take {ns : List ℕ} (h : ns.sum ≤ 2 ^ 53) (k : ℕ) :
    (finite ((ns.map (Nat.cast : ℕ → ℚ)).take k).sum).IsDouble := by
  have htake : ((ns.map (Nat.cast : ℕ → ℚ)).take k).sum = ((ns.take k).sum : ℕ) := by
    rw [← List.map_take, Nat.cast_list_sum]
  have hle : (ns.take k).sum ≤ ns.sum := by
    rw [← List.sum_take_add_sum_drop ns k]
    exact Nat.le_add_right ..
  rw [htake]
  exact isDouble_ofNat (hle.trans h)

/-- So their total is exact. -/
theorem IsTotal.of_counts {total : Number} {ns : List ℕ} (h : IsTotal total (ns.map ofNat))
    (hle : ns.sum ≤ 2 ^ 53) : total = .ofNat ns.sum := by
  have htotal := h.exact (ns.map Nat.cast) (by rw [List.map_map]; rfl) (isDouble_sum_take hle)
  rw [htotal, ← Nat.cast_list_sum]
  rfl

end Number

end L0Worker
