import L0Worker.Lib.Rounding
import Mathlib.Data.List.DropRight

/-!
# Decimal numerals

A decimal is a natural number times a power of ten.  It is written as JavaScript writes
numbers, and read by the grammar of JSON numerals, without the sign in both cases.  What is
written is read back as a decimal of the same value, whatever follows it that cannot
continue a numeral (`parse_text`).

A number of a binary format is written as the decimal with the fewest digits that is
rounded to it (`shortest`).
-/

namespace L0Worker

/-- `digits * 10 ^ exponent`. -/
structure Decimal where
  digits : ℕ
  exponent : ℤ
deriving DecidableEq

namespace Decimal

def value (d : Decimal) : ℚ := d.digits * 10 ^ d.exponent

/-! ## Writing -/

/-- The digits after the point, with the point unless there are none. -/
def fractionText (frac : List Char) : List Char := if frac = [] then [] else '.' :: frac

/-- The exponent of a numeral, if it has one. -/
def exponentText : Option ℤ → List Char
  | none => []
  | some e => 'e' :: (if e < 0 then '-' else '+') :: Nat.toDigits 10 e.natAbs

/-- A numeral with its integral digits, its fractional digits and its exponent. -/
def numeral (int frac : List Char) (exponent : Option ℤ) : List Char :=
  int ++ (fractionText frac ++ exponentText exponent)

/-- The digits without the zeros at the end. -/
def significant (d : Decimal) : List Char := (Nat.toDigits 10 d.digits).rdropWhile (· = '0')

/-- The number of digits before the point, or minus the number of zeros after it. -/
def point (d : Decimal) : ℤ := (Nat.toDigits 10 d.digits).length + d.exponent

/-- `Number::toString`, from the decimal that is to be written. -/
def text (d : Decimal) : List Char :=
  let s := d.significant
  let n := d.point
  if s.length ≤ n ∧ n ≤ 21 then numeral (s ++ List.replicate (n - s.length).toNat '0') [] none
  else if 0 < n ∧ n ≤ 21 then numeral (s.take n.toNat) (s.drop n.toNat) none
  else if -6 < n ∧ n ≤ 0 then numeral ['0'] (List.replicate (-n).toNat '0' ++ s) none
  else numeral (s.take 1) (s.drop 1) (some (n - 1))

/-! ## Reading -/

/-- The digits after a point, if there is one. -/
def parseFraction : List Char → Option (List Char × List Char)
  | [] => some ([], [])
  | c :: cs =>
      if c = '.' then
        let digits := cs.takeWhile Char.isDigit
        if digits = [] then none else some (digits, cs.dropWhile Char.isDigit)
      else some ([], c :: cs)

/-- At least one digit. -/
def parseDigits (cs : List Char) : Option (ℕ × List Char) :=
  let digits := cs.takeWhile Char.isDigit
  if digits = [] then none
  else some (Nat.ofDigitChars 10 digits 0, cs.dropWhile Char.isDigit)

/-- The exponent, if there is one. -/
def parseExponent : List Char → Option (ℤ × List Char)
  | [] => some (0, [])
  | c :: cs =>
      if c = 'e' ∨ c = 'E' then
        match cs with
        | [] => none
        | s :: cs =>
            if s = '-' then (parseDigits cs).map fun r => (-(r.1 : ℤ), r.2)
            else if s = '+' then (parseDigits cs).map fun r => ((r.1 : ℤ), r.2)
            else (parseDigits (s :: cs)).map fun r => ((r.1 : ℤ), r.2)
      else some (0, c :: cs)

/-- A JSON numeral without its sign.  A zero in front of other digits is refused. -/
def parse (cs : List Char) : Option (Decimal × List Char) :=
  let int := cs.takeWhile Char.isDigit
  if int = [] ∨ (int.head? = some '0' ∧ int ≠ ['0']) then none
  else do
    let (frac, cs) ← parseFraction (cs.dropWhile Char.isDigit)
    let (exponent, cs) ← parseExponent cs
    return (⟨Nat.ofDigitChars 10 (int ++ frac) 0, exponent - frac.length⟩, cs)

/-- What is read starts with a digit. -/
theorem head_of_parse {cs : List Char} {r : Decimal × List Char} (h : parse cs = some r) :
    ∃ c cs', cs = c :: cs' ∧ c.isDigit = true := by
  unfold parse at h
  dsimp only at h
  split at h
  · cases h
  · next hint =>
    cases cs with
    | nil => simp at hint
    | cons c cs =>
        refine ⟨c, cs, rfl, ?_⟩
        by_contra hdigit
        simp [hdigit] at hint

theorem parseFraction_length {cs digits rest : List Char}
    (h : parseFraction cs = some (digits, rest)) : rest.length ≤ cs.length := by
  cases cs with
  | nil =>
      cases h
      simp
  | cons c cs =>
      simp only [parseFraction] at h
      split at h
      · split at h
        · cases h
        · cases h
          exact (List.dropWhile_suffix _).length_le.trans (by simp)
      · cases h
        simp

theorem parseDigits_length {cs rest : List Char} {n : ℕ} (h : parseDigits cs = some (n, rest)) :
    rest.length ≤ cs.length := by
  simp only [parseDigits] at h
  split at h
  · cases h
  · cases h
    exact (List.dropWhile_suffix _).length_le

theorem parseExponent_length {cs rest : List Char} {e : ℤ}
    (h : parseExponent cs = some (e, rest)) : rest.length ≤ cs.length := by
  have hdigits : ∀ {cs : List Char} {f : ℕ × List Char → ℤ × List Char}, (∀ r, (f r).2 = r.2) →
      (parseDigits cs).map f = some (e, rest) → rest.length ≤ cs.length := by
    intro cs f hf hmap
    obtain ⟨r, hr, heq⟩ := Option.map_eq_some_iff.mp hmap
    have hrest : r.2 = rest := by rw [← hf r, heq]
    exact hrest ▸ parseDigits_length hr
  cases cs with
  | nil =>
      cases h
      simp
  | cons c cs =>
      simp only [parseExponent] at h
      split at h
      · cases cs with
        | nil => cases h
        | cons s cs =>
            dsimp only at h
            split at h
            · exact (hdigits (fun _ => rfl) h).trans (by simp; omega)
            · split at h
              · exact (hdigits (fun _ => rfl) h).trans (by simp; omega)
              · exact (hdigits (fun _ => rfl) h).trans (by simp)
      · cases h
        simp

/-- A numeral is not empty. -/
theorem parse_length {cs rest : List Char} {d : Decimal} (h : parse cs = some (d, rest)) :
    rest.length < cs.length := by
  obtain ⟨c, cs', rfl, hdigit⟩ := head_of_parse h
  simp only [parse, List.takeWhile_cons, List.dropWhile_cons, hdigit, if_true] at h
  split at h
  · cases h
  · simp only [Option.bind_eq_bind, Option.bind_eq_some_iff] at h
    obtain ⟨⟨frac, cs₁⟩, hfrac, ⟨e, cs₂⟩, he, h⟩ := h
    cases h
    have h₁ : cs₁.length ≤ (cs'.dropWhile Char.isDigit).length := parseFraction_length hfrac
    have h₂ : cs₂.length ≤ cs₁.length := parseExponent_length he
    have h₃ : (cs'.dropWhile Char.isDigit).length ≤ cs'.length :=
      (List.dropWhile_suffix _).length_le
    simp only [List.length_cons]
    omega

/-- A numeral ends where this follows. -/
def Ends (rest : List Char) : Prop :=
  ∀ c ∈ rest.head?, c.isDigit = false ∧ c ≠ '.' ∧ c ≠ 'e' ∧ c ≠ 'E'

/-- The digits at the start of a text are found when no digit follows. -/
theorem takeWhile_isDigit {digits rest : List Char} (hdigits : ∀ c ∈ digits, c.isDigit = true)
    (hrest : ∀ c ∈ rest.head?, c.isDigit = false) :
    (digits ++ rest).takeWhile Char.isDigit = digits ∧
      (digits ++ rest).dropWhile Char.isDigit = rest := by
  rw [List.takeWhile_append_of_pos hdigits, List.dropWhile_append_of_pos hdigits]
  cases rest with
  | nil => simp
  | cons c cs => simp [hrest c rfl]

theorem parseDigits_append {digits rest : List Char} (hne : digits ≠ [])
    (hdigits : ∀ c ∈ digits, c.isDigit = true) (hrest : ∀ c ∈ rest.head?, c.isDigit = false) :
    parseDigits (digits ++ rest) = some (Nat.ofDigitChars 10 digits 0, rest) := by
  obtain ⟨htake, hdrop⟩ := takeWhile_isDigit hdigits hrest
  simp [parseDigits, htake, hdrop, hne]

theorem isDigit_of_mem_toDigits {n : ℕ} : ∀ c ∈ Nat.toDigits 10 n, c.isDigit = true :=
  fun _ hc => Nat.isDigit_of_mem_toDigits (by decide) (by decide) hc

/-- The exponent of a numeral is read back. -/
theorem parseExponent_text {rest : List Char} (hrest : Ends rest) (exponent : Option ℤ) :
    parseExponent (exponentText exponent ++ rest) = some (exponent.getD 0, rest) := by
  cases exponent with
  | none =>
      cases rest with
      | nil => rfl
      | cons c cs =>
          obtain ⟨-, -, he, hE⟩ := hrest c rfl
          simp [exponentText, parseExponent, he, hE]
  | some e =>
      have hdigits := parseDigits_append Nat.toDigits_ne_nil
        (isDigit_of_mem_toDigits (n := e.natAbs)) fun c hc => (hrest c hc).1
      rw [Nat.ofDigitChars_ten_toDigits] at hdigits
      by_cases hneg : e < 0
      · simp only [exponentText, parseExponent, hneg, if_true, List.cons_append, hdigits,
          true_or, Option.map_some, Option.getD_some]
        congr 2
        omega
      · simp only [exponentText, parseExponent, hneg, if_false, List.cons_append, hdigits,
          true_or, if_true, Option.map_some, Option.getD_some]
        show (if '+' = '-' then _ else _) = _
        simp
        omega

/-- The fractional digits of a numeral are read back. -/
theorem parseFraction_text {frac rest : List Char} (hfrac : ∀ c ∈ frac, c.isDigit = true)
    (hrest : ∀ c ∈ rest.head?, c.isDigit = false ∧ c ≠ '.') :
    parseFraction (fractionText frac ++ rest) = some (frac, rest) := by
  by_cases hnil : frac = []
  · cases rest with
    | nil => simp [fractionText, parseFraction, hnil]
    | cons c cs => simp [fractionText, parseFraction, hnil, (hrest c rfl).2]
  · obtain ⟨htake, hdrop⟩ := takeWhile_isDigit hfrac fun c hc => (hrest c hc).1
    simp [fractionText, parseFraction, hnil, htake, hdrop]

/-- No digit and no point follow the fractional digits. -/
theorem head_exponentText {rest : List Char} (hrest : Ends rest) (exponent : Option ℤ) :
    ∀ c ∈ (exponentText exponent ++ rest).head?, c.isDigit = false ∧ c ≠ '.' := by
  cases exponent with
  | none => exact fun c hc => ⟨(hrest c hc).1, (hrest c hc).2.1⟩
  | some e => simp [exponentText]

/-- No digit follows the integral digits. -/
theorem head_fractionText (frac : List Char) {rest : List Char}
    (hrest : ∀ c ∈ rest.head?, c.isDigit = false ∧ c ≠ '.') :
    ∀ c ∈ (fractionText frac ++ rest).head?, c.isDigit = false := by
  unfold fractionText
  split
  · exact fun c hc => (hrest c hc).1
  · simp

/-- A numeral is read back. -/
theorem parse_numeral {int frac rest : List Char} {exponent : Option ℤ} (hne : int ≠ [])
    (hint : ∀ c ∈ int, c.isDigit = true) (hzero : int.head? = some '0' → int = ['0'])
    (hfrac : ∀ c ∈ frac, c.isDigit = true) (hrest : Ends rest) :
    parse (numeral int frac exponent ++ rest) =
      some (⟨Nat.ofDigitChars 10 (int ++ frac) 0, exponent.getD 0 - frac.length⟩, rest) := by
  have hexp := head_exponentText hrest exponent
  obtain ⟨htake, hdrop⟩ := takeWhile_isDigit hint (head_fractionText frac hexp)
  have hnumeral : numeral int frac exponent ++ rest =
      int ++ (fractionText frac ++ (exponentText exponent ++ rest)) := by
    simp [numeral]
  unfold parse
  dsimp only
  rw [hnumeral, htake, hdrop, parseFraction_text hfrac hexp,
    if_neg (by simpa [hne] using hzero)]
  simp [parseExponent_text hrest]

/-! ## What is written is read back -/

/-- A positive number does not start with a zero. -/
theorem head_toDigits_ne_zero {n : ℕ} (h : 0 < n) : (Nat.toDigits 10 n).head? ≠ some '0' := by
  induction n using Nat.strong_induction_on with
  | _ n ih =>
      rcases Nat.lt_or_ge n 10 with hlt | hge
      · simp [Nat.toDigits_of_lt_base hlt]
        omega
      · have hdiv := ih (n / 10) (by omega) (by omega)
        obtain ⟨c, cs, hcs⟩ : ∃ c cs, Nat.toDigits 10 (n / 10) = c :: cs :=
          List.exists_cons_of_ne_nil Nat.toDigits_ne_nil
        rw [hcs] at hdiv
        rw [Nat.toDigits_of_base_le (by decide) hge, hcs]
        exact hdiv

section Text

variable (d : Decimal)

/-- Only zeros are dropped. -/
theorem toDigits_eq : ∃ z, Nat.toDigits 10 d.digits = d.significant ++ List.replicate z '0' := by
  refine ⟨((Nat.toDigits 10 d.digits).rtakeWhile (· = '0')).length, ?_⟩
  rw [← List.eq_replicate_iff.mpr ⟨rfl, fun c hc => by simpa using List.mem_rtakeWhile_imp hc⟩]
  exact List.rdropWhile_append_rtakeWhile.symm

theorem isDigit_of_mem_significant : ∀ c ∈ d.significant, c.isDigit = true := by
  obtain ⟨z, hz⟩ := d.toDigits_eq
  exact fun c hc => isDigit_of_mem_toDigits c (hz ▸ List.mem_append_left _ hc)

/-- What is written is digits, a point and an exponent. -/
theorem mem_numeral {int frac : List Char} {exponent : Option ℤ}
    (hint : ∀ c ∈ int, c.isDigit = true) (hfrac : ∀ c ∈ frac, c.isDigit = true) {c : Char}
    (hc : c ∈ numeral int frac exponent) : c.isDigit = true ∨ c ∈ ['.', 'e', '-', '+'] := by
  rcases List.mem_append.mp hc with hc | hc
  · exact .inl (hint c hc)
  rcases List.mem_append.mp hc with hc | hc
  · unfold fractionText at hc
    split at hc
    · cases hc
    · rcases List.mem_cons.mp hc with rfl | hc
      · simp
      · exact .inl (hfrac c hc)
  · cases exponent with
    | none => cases hc
    | some e =>
        rcases List.mem_cons.mp hc with rfl | hc
        · simp
        rcases List.mem_cons.mp hc with rfl | hc
        · split <;> simp
        · exact .inl (isDigit_of_mem_toDigits c hc)

theorem mem_text {c : Char} (hc : c ∈ d.text) : c.isDigit = true ∨ c ∈ ['.', 'e', '-', '+'] := by
  have hdigits := d.isDigit_of_mem_significant
  have hzeros : ∀ n, ∀ c ∈ List.replicate n '0', c.isDigit = true := by
    intro n c hc
    rw [List.eq_of_mem_replicate hc]
    decide
  unfold text at hc
  dsimp only at hc
  split at hc
  · exact mem_numeral (List.forall_mem_append.mpr ⟨hdigits, hzeros _⟩) (List.forall_mem_nil _) hc
  · split at hc
    · exact mem_numeral (fun c hc => hdigits c (List.mem_of_mem_take hc))
        (fun c hc => hdigits c (List.mem_of_mem_drop hc)) hc
    · split at hc
      · exact mem_numeral (hzeros 1) (List.forall_mem_append.mpr ⟨hzeros _, hdigits⟩) hc
      · exact mem_numeral (fun c hc => hdigits c (List.mem_of_mem_take hc))
          (fun c hc => hdigits c (List.mem_of_mem_drop hc)) hc

variable {d}

theorem significant_ne_nil (h : 0 < d.digits) : d.significant ≠ [] := by
  intro hnil
  obtain ⟨z, hz⟩ := d.toDigits_eq
  have hdigits : d.digits = 0 := by
    rw [← Nat.ofDigitChars_ten_toDigits (n := d.digits), hz, hnil]
    simp
  omega

theorem head_significant (h : 0 < d.digits) : d.significant.head? ≠ some '0' := by
  obtain ⟨z, hz⟩ := d.toDigits_eq
  obtain ⟨c, cs, hcs⟩ := List.exists_cons_of_ne_nil (significant_ne_nil h)
  have hhead := head_toDigits_ne_zero h
  rw [hz, hcs] at hhead
  rw [hcs]
  exact hhead

/-- The value, from the significant digits and the point. -/
theorem value_eq (d : Decimal) : d.value =
    (Nat.ofDigitChars 10 d.significant 0 : ℚ) * 10 ^ (d.point - d.significant.length) := by
  obtain ⟨z, hz⟩ := d.toDigits_eq
  have hdigits : d.digits = 10 ^ z * Nat.ofDigitChars 10 d.significant 0 := by
    rw [← Nat.ofDigitChars_replicate_zero, ← Nat.ofDigitChars_append, ← hz,
      Nat.ofDigitChars_ten_toDigits]
  have hpoint : d.point - d.significant.length = z + d.exponent := by
    simp only [point, hz, List.length_append, List.length_replicate]
    omega
  rw [hpoint, zpow_add₀ (by norm_num), zpow_natCast, value, hdigits]
  push_cast
  ring

/-- The value of what is read in the place of a decimal. -/
theorem value_of_digits {int frac : List Char} {e : ℤ} {j : ℕ}
    (hdigits : Nat.ofDigitChars 10 (int ++ frac) 0 =
      10 ^ j * Nat.ofDigitChars 10 d.significant 0)
    (he : e - frac.length + j = d.point - d.significant.length) :
    (⟨Nat.ofDigitChars 10 (int ++ frac) 0, e - frac.length⟩ : Decimal).value = d.value := by
  rw [value_eq d, ← he, zpow_add₀ (by norm_num), zpow_natCast, value, hdigits]
  push_cast
  ring

/-- The first digits, when there are any, do not start with a zero either. -/
theorem take_significant (h : 0 < d.digits) {k : ℕ} (hk : 0 < k) :
    d.significant.take k ≠ [] ∧ ((d.significant.take k).head? = some '0' →
      d.significant.take k = ['0']) := by
  refine ⟨by simp [significant_ne_nil h, hk.ne'], ?_⟩
  rw [List.head?_take, if_neg hk.ne']
  exact fun h0 => absurd h0 (head_significant h)

/-- What is written is read back, up to the value. -/
theorem parse_text (h : 0 < d.digits) {rest : List Char} (hrest : Ends rest) :
    ∃ d' : Decimal, parse (d.text ++ rest) = some (d', rest) ∧ d'.value = d.value := by
  have hne := significant_ne_nil h
  have hall := isDigit_of_mem_significant d
  have hlen : 0 < d.significant.length := List.length_pos_iff.mpr hne
  have hzeros : ∀ k, ∀ c ∈ List.replicate k '0', c.isDigit = true := by
    intro k c hc
    rw [List.eq_of_mem_replicate hc]
    rfl
  have htake : ∀ k, ∀ c ∈ d.significant.take k, c.isDigit = true :=
    fun k c hc => hall c (List.mem_of_mem_take hc)
  have hdrop : ∀ k, ∀ c ∈ d.significant.drop k, c.isDigit = true :=
    fun k c hc => hall c (List.mem_of_mem_drop hc)
  unfold text
  dsimp only
  split
  · -- An integer, with the zeros that were dropped.
    next hn =>
    refine ⟨_, parse_numeral (by simp [hne]) (List.forall_mem_append.mpr ⟨hall, hzeros _⟩) ?_
      (by simp) hrest, value_of_digits (j := (d.point - d.significant.length).toNat) ?_ ?_⟩
    · rw [List.head?_append_of_ne_nil _ hne]
      exact fun h0 => absurd h0 (head_significant h)
    · rw [List.append_nil, Nat.ofDigitChars_append, Nat.ofDigitChars_replicate_zero]
    · simp
      omega
  · split
    · -- The point is among the digits.
      next hn =>
      obtain ⟨hint, hzero⟩ := take_significant h (k := d.point.toNat) (by omega)
      refine ⟨_, parse_numeral hint (htake _) hzero (hdrop _) hrest,
        value_of_digits (j := 0) ?_ ?_⟩
      · simp
      · simp
        omega
    · split
      · -- Zeros come between the point and the digits.
        next hn =>
        refine ⟨_, parse_numeral (by simp) (by simp) (by simp)
          (List.forall_mem_append.mpr ⟨hzeros _, hall⟩) hrest, value_of_digits (j := 0) ?_ ?_⟩
        · simp [Nat.ofDigitChars_append, Nat.ofDigitChars_cons]
        · simp
          omega
      · -- One digit before the point, and an exponent.
        obtain ⟨hint, hzero⟩ := take_significant h (k := 1) (by omega)
        refine ⟨_, parse_numeral hint (htake _) hzero (hdrop _) hrest,
          value_of_digits (j := 0) ?_ ?_⟩
        · rw [List.take_append_drop]
          simp
        · simp
          omega

end Text

end Decimal

/-! ## The shortest decimal of a number -/

namespace FloatFormat

variable (F : FloatFormat)

/-- The two decimals with so many digits around a number, the nearer one first. -/
def candidates (v : ℚ) (digits : ℕ) : List Decimal :=
  let e := Int.log 10 v + 1 - digits
  let x := v / 10 ^ e
  let n := roundEven x
  [⟨n, e⟩, ⟨if n ≤ x then n + 1 else n - 1, e⟩]

/-- A decimal that is the number itself. -/
def exact (v : ℚ) : Decimal :=
  let j := (-F.minExponent).toNat
  ⟨⌊v * 10 ^ j⌋₊, -j⟩

/-- The decimal with the fewest digits that is rounded to the number, the nearest of them.
The number itself is there for a format of which the digits tried are not enough. -/
def shortest (v : ℚ) : Decimal :=
  (((List.range F.digits).flatMap fun k => candidates v (k + 1)).find? fun d =>
    decide (F.round d.value = some v)).getD (F.exact v)

/-- A number of the format is a decimal. -/
theorem value_exact {v : ℚ} (hv : 0 ≤ v) (h : F.round v = some v) : (F.exact v).value = v := by
  obtain ⟨m, e, rfl, -, he, -⟩ := F.round_eq_some hv h
  have hj : e = (e + (-F.minExponent).toNat).toNat - (-F.minExponent).toNat := by omega
  unfold exact Decimal.value
  dsimp only
  generalize (-F.minExponent).toNat = j at hj
  generalize (e + j).toNat = i at hj
  subst hj
  have hint : (m : ℚ) * 2 ^ ((i : ℤ) - j) * 10 ^ j = ((m * 2 ^ i * 5 ^ j : ℕ) : ℚ) := by
    rw [zpow_sub₀ (by norm_num), zpow_natCast, zpow_natCast,
      show (10 : ℚ) = 2 * 5 by norm_num, mul_pow]
    push_cast
    field_simp
  rw [hint, Nat.floor_natCast, ← hint, zpow_neg, zpow_natCast]
  field_simp

/-- The shortest decimal of a number is rounded to it. -/
theorem round_shortest {v : ℚ} (hv : 0 ≤ v) (h : F.round v = some v) :
    F.round (F.shortest v).value = some v := by
  unfold shortest
  cases hfind : ((List.range F.digits).flatMap fun k => candidates v (k + 1)).find? fun d =>
      decide (F.round d.value = some v) with
  | none =>
      rw [Option.getD_none, F.value_exact hv h]
      exact h
  | some d => simpa using List.find?_some hfind

/-- The shortest decimal of a positive number is not zero. -/
theorem digits_shortest_pos {v : ℚ} (hv : 0 < v) (h : F.round v = some v) :
    0 < (F.shortest v).digits := by
  refine Nat.pos_of_ne_zero fun hzero => ?_
  have hvalue : (F.shortest v).value = 0 := by simp [Decimal.value, hzero]
  have hround := F.round_shortest hv.le h
  rw [hvalue, F.round_zero] at hround
  exact hv.ne (Option.some.inj hround)

end FloatFormat

end L0Worker
