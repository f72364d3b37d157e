import L0Worker.Lib.NumberSum

/-!
# Numbers in strings

The two ways in which JavaScript reads a number from a string.  `parseInt` reads the digits
at the start and ignores what follows them.  The conversion `Number` takes the whole string,
with a fraction, an exponent or another base, and an empty string as zero.  Both skip white
space at the start.

The decimal text of a count that has double precision is read back by `Number`
(`ofString_toString`).
-/

namespace L0Worker

namespace NumberText

/-! ## Reading -/

/-- The characters that are skipped: white space, line terminators and the byte order mark. -/
def isWhiteSpace (c : Char) : Bool :=
  let n := c.toNat
  (0x9 ≤ n && n ≤ 0xD) || n == 0x20 || n == 0xA0 || n == 0x1680 || (0x2000 ≤ n && n ≤ 0x200A)
    || n == 0x2028 || n == 0x2029 || n == 0x202F || n == 0x205F || n == 0x3000 || n == 0xFEFF

/-- An optional sign: whether it is a minus, and the rest. -/
def splitSign : List Char → Bool × List Char
  | '-' :: cs => (true, cs)
  | '+' :: cs => (false, cs)
  | cs => (false, cs)

/-- A number with a sign, rounded. -/
def signed (negative : Bool) (q : ℚ) : Number :=
  if negative then (Number.ofMagnitude q).neg else .ofMagnitude q

/-- `parseInt(text, 10)`. -/
def parseInt (text : String) : Number :=
  let (negative, cs) := splitSign (text.toList.dropWhile isWhiteSpace)
  match Decimal.parseDigits cs with
  | none => .nan
  | some (n, _) => signed negative n

/-- The value of a digit of any base up to 16. -/
def digitValue? (c : Char) : Option ℕ :=
  if '0' ≤ c ∧ c ≤ '9' then some (c.toNat - '0'.toNat)
  else if 'a' ≤ c ∧ c ≤ 'f' then some (c.toNat - 'a'.toNat + 10)
  else if 'A' ≤ c ∧ c ≤ 'F' then some (c.toNat - 'A'.toNat + 10)
  else none

/-- At least one digit of a base, and nothing else. -/
def radixLiteral (base : ℕ) (cs : List Char) : Option ℕ :=
  if cs = [] then none
  else cs.foldlM (fun n c => do
    let d ← digitValue? c
    if d < base then some (n * base + d) else none) 0

/-- A decimal without a sign, and nothing else.  Unlike in a numeral of JSON there may be
zeros in front, and digits are required on one side of the point only. -/
def decimalLiteral (cs : List Char) : Option ℚ :=
  let int := cs.takeWhile Char.isDigit
  let (frac, rest) := match cs.dropWhile Char.isDigit with
    | '.' :: cs => (cs.takeWhile Char.isDigit, cs.dropWhile Char.isDigit)
    | cs => ([], cs)
  if int = [] ∧ frac = [] then none
  else
    match Decimal.parseExponent rest with
    | some (e, []) => some (Decimal.value ⟨Nat.ofDigitChars 10 (int ++ frac) 0, e - frac.length⟩)
    | _ => none

/-- A decimal with an optional sign, or an infinity. -/
def signedLiteral (cs : List Char) : Number :=
  let (negative, cs) := splitSign cs
  if cs = "Infinity".toList then if negative then .negInfinity else .infinity
  else
    match decimalLiteral cs with
    | none => .nan
    | some q => signed negative q

/-- `Number(text)`. -/
def ofString (text : String) : Number :=
  let ofRadix (base : ℕ) (cs : List Char) : Number :=
    match radixLiteral base cs with
    | none => .nan
    | some n => .ofMagnitude n
  match (text.toList.dropWhile isWhiteSpace).rdropWhile isWhiteSpace with
  | [] => 0
  | '0' :: 'x' :: cs | '0' :: 'X' :: cs => ofRadix 16 cs
  | '0' :: 'o' :: cs | '0' :: 'O' :: cs => ofRadix 8 cs
  | '0' :: 'b' :: cs | '0' :: 'B' :: cs => ofRadix 2 cs
  | cs => signedLiteral cs

/-! ## Texts of counts -/

section Counts

variable {cs rest : List Char}

theorem not_isWhiteSpace_of_isDigit {c : Char} (h : c.isDigit = true) : isWhiteSpace c = false := by
  have hrange : 48 ≤ c.toNat ∧ c.toNat ≤ 57 := by
    simpa [Char.isDigit, UInt32.le_iff_toNat_le] using h
  simp [isWhiteSpace]
  omega

theorem splitSign_of_isDigit {c : Char} (h : c.isDigit = true) :
    splitSign (c :: cs) = (false, c :: cs) := by
  have hminus : c ≠ '-' := by
    rintro rfl
    cases h
  have hplus : c ≠ '+' := by
    rintro rfl
    cases h
  simp [splitSign, hminus, hplus]

/-- The text of a count starts with a digit. -/
theorem toDigits_cons (n : ℕ) : ∃ c cs, Nat.toDigits 10 n = c :: cs ∧ c.isDigit = true := by
  cases hdigits : Nat.toDigits 10 n with
  | nil => exact absurd hdigits Nat.toDigits_ne_nil
  | cons c cs =>
      refine ⟨c, cs, rfl, Decimal.isDigit_of_mem_toDigits (n := n) c ?_⟩
      rw [hdigits]
      exact List.mem_cons_self

theorem decimalLiteral_toDigits (n : ℕ) : decimalLiteral (Nat.toDigits 10 n) = some (n : ℚ) := by
  have hends : ∀ c ∈ ([] : List Char).head?, c.isDigit = false := by simp
  have hsplit := Decimal.takeWhile_isDigit (Decimal.isDigit_of_mem_toDigits (n := n)) hends
  rw [List.append_nil] at hsplit
  unfold decimalLiteral
  rw [hsplit.1, hsplit.2]
  simp [Nat.toDigits_ne_nil, Decimal.parseExponent, Decimal.value, Nat.ofDigitChars_ten_toDigits]

/-- `Number` reads the text of a count. -/
theorem ofString_toString {n : ℕ} (h : n ≤ 2 ^ 53) : ofString (toString n) = .ofNat n := by
  have hdigits := Decimal.isDigit_of_mem_toDigits (n := n)
  have htext : (toString n).toList = Nat.toDigits 10 n := by
    rw [Nat.toString_eq_ofList_toDigits, String.toList_ofList]
  have hspace : ∀ c ∈ Nat.toDigits 10 n, isWhiteSpace c = false :=
    fun c hc => not_isWhiteSpace_of_isDigit (hdigits c hc)
  have hdrop : (Nat.toDigits 10 n).dropWhile isWhiteSpace = Nat.toDigits 10 n := by
    rw [List.dropWhile_eq_self_iff]
    exact fun hlt => by simp [hspace _ (List.getElem_mem hlt)]
  have hrdrop : (Nat.toDigits 10 n).rdropWhile isWhiteSpace = Nat.toDigits 10 n := by
    rw [List.rdropWhile_eq_self_iff]
    exact fun hne => by simp [hspace _ (List.getLast_mem hne)]
  have hliteral : signedLiteral (Nat.toDigits 10 n) = .ofNat n := by
    have hdecimal := decimalLiteral_toDigits n
    obtain ⟨c, cs, hcs, hdigit⟩ := toDigits_cons n
    have hinfinity : c :: cs ≠ "Infinity".toList := by
      intro heq
      obtain rfl : c = 'I' := (List.cons.inj heq).1
      cases hdigit
    rw [hcs] at hdecimal ⊢
    rw [signedLiteral, splitSign_of_isDigit hdigit]
    dsimp only
    rw [if_neg hinfinity, hdecimal]
    exact Number.ofMagnitude_natCast h
  rw [ofString, htext, hdrop, hrdrop]
  -- no base is named, since the second character is a digit too
  split
  · next hnil => exact absurd hnil Nat.toDigits_ne_nil
  all_goals first
    | exact hliteral
    | next heq =>
      rw [heq] at hdigits
      exact absurd (hdigits _ (List.mem_cons_of_mem _ List.mem_cons_self)) (by decide)

end Counts

end NumberText

end L0Worker
