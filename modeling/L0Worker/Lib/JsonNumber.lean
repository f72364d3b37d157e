import L0Worker.Lib.Decimal
import L0Worker.Lib.JsValue

/-!
# Numbers in a JSON text

A number is printed as the shortest decimal that is rounded to it, and a numeral is rounded
to double precision.  A number of double precision is read back from its text, so its text
determines it.
-/

namespace L0Worker

namespace Number

/-- A finite number has double precision. -/
def IsDouble : Number → Prop
  | .finite v => binary64.round |v| = some |v|
  | _ => True

instance : (n : Number) → Decidable n.IsDouble
  | .finite v => inferInstanceAs (Decidable (binary64.round |v| = some |v|))
  | .nan | .negInfinity | .infinity => isTrue trivial

/-- The text of a nonnegative number. -/
def magnitudeText (v : ℚ) : List Char := if v = 0 then ['0'] else (binary64.shortest v).text

/-- What `JSON.stringify` writes for a number. -/
def jsonText : Number → List Char
  | .finite v => if v < 0 then '-' :: magnitudeText (-v) else magnitudeText v
  | _ => "null".toList

/-- The text of a number as a string. -/
def text : Number → List Char
  | .nan => "NaN".toList
  | .negInfinity => "-Infinity".toList
  | .infinity => "Infinity".toList
  | .finite v => (finite v).jsonText

/-- A numeral of a JSON text. -/
def parse : List Char → Option (Number × List Char)
  | [] => none
  | c :: cs =>
      if c = '-' then (Decimal.parse cs).map fun r => ((ofMagnitude r.1.value).neg, r.2)
      else (Decimal.parse (c :: cs)).map fun r => (ofMagnitude r.1.value, r.2)

/-- A numeral is not empty. -/
theorem parse_length {cs rest : List Char} {n : Number} (h : parse cs = some (n, rest)) :
    rest.length < cs.length := by
  cases cs with
  | nil => cases h
  | cons c cs =>
      simp only [parse] at h
      split at h
      · obtain ⟨r, hr, heq⟩ := Option.map_eq_some_iff.mp h
        cases heq
        exact (Decimal.parse_length hr).trans (by simp)
      · obtain ⟨r, hr, heq⟩ := Option.map_eq_some_iff.mp h
        cases heq
        exact Decimal.parse_length hr

theorem isDouble_neg {n : Number} (h : n.IsDouble) : n.neg.IsDouble := by
  cases n with
  | finite v => simpa [neg, IsDouble] using h
  | _ => trivial

/-- A rounded number has double precision. -/
theorem isDouble_ofMagnitude {q : ℚ} (hq : 0 ≤ q) : (ofMagnitude q).IsDouble := by
  unfold ofMagnitude
  cases hround : binary64.round q with
  | none => trivial
  | some v =>
      obtain ⟨m, e, rfl, -, -, -⟩ := binary64.round_eq_some hq hround
      show binary64.round |_| = some |_|
      rw [abs_of_nonneg (by positivity)]
      exact binary64.round_round hq hround

theorem isDouble_parse {cs rest : List Char} {n : Number} (h : parse cs = some (n, rest)) :
    n.IsDouble := by
  have hmagnitude : ∀ d : Decimal, (ofMagnitude d.value).IsDouble :=
    fun d => isDouble_ofMagnitude (by unfold Decimal.value; positivity)
  cases cs with
  | nil => cases h
  | cons c cs =>
      simp only [parse] at h
      split at h
      · obtain ⟨r, -, hr⟩ := Option.map_eq_some_iff.mp h
        cases hr
        exact isDouble_neg (hmagnitude r.1)
      · obtain ⟨r, -, hr⟩ := Option.map_eq_some_iff.mp h
        cases hr
        exact hmagnitude r.1

/-- The text of a nonnegative number is read back. -/
theorem parse_magnitudeText {v : ℚ} (hv : 0 ≤ v) (h : binary64.round v = some v)
    {rest : List Char} (hrest : Decimal.Ends rest) :
    ∃ d, Decimal.parse (magnitudeText v ++ rest) = some (d, rest) ∧
      ofMagnitude d.value = .finite v := by
  unfold magnitudeText
  split
  · next hzero =>
    subst hzero
    have hparse : Decimal.parse (Decimal.numeral ['0'] [] none ++ rest) = _ :=
      Decimal.parse_numeral (by simp) (by simp) (by simp) (by simp) hrest
    refine ⟨_, hparse, ?_⟩
    simp [Decimal.value, Nat.ofDigitChars_cons, ofMagnitude]
  · next hzero =>
    have hpos := lt_of_le_of_ne hv (Ne.symm hzero)
    obtain ⟨d, hd, hvalue⟩ := Decimal.parse_text (binary64.digits_shortest_pos hpos h) hrest
    refine ⟨d, hd, ?_⟩
    rw [ofMagnitude, hvalue, binary64.round_shortest hv h]

/-- A finite number is read back.  Its text starts with a digit or a sign. -/
theorem parse_jsonText {v : ℚ} (h : (finite v).IsDouble) {rest : List Char}
    (hrest : Decimal.Ends rest) :
    ∃ c cs, (finite v).jsonText ++ rest = c :: cs ∧ (c = '-' ∨ c.isDigit = true) ∧
      parse (c :: cs) = some (.finite v, rest) := by
  by_cases hneg : v < 0
  · have hround : binary64.round (-v) = some (-v) := by
      have hdouble : binary64.round |v| = some |v| := h
      rwa [abs_of_neg hneg] at hdouble
    obtain ⟨d, hd, hvalue⟩ := parse_magnitudeText (by linarith) hround hrest
    refine ⟨'-', magnitudeText (-v) ++ rest, by simp [jsonText, hneg], .inl rfl, ?_⟩
    simp [parse, hd, hvalue, neg]
  · have hnonneg : 0 ≤ v := not_lt.mp hneg
    have hround : binary64.round v = some v := by
      have hdouble : binary64.round |v| = some |v| := h
      rwa [abs_of_nonneg hnonneg] at hdouble
    obtain ⟨d, hd, hvalue⟩ := parse_magnitudeText hnonneg hround hrest
    obtain ⟨c, cs, hcs, hdigit⟩ := Decimal.head_of_parse hd
    have hsign : c ≠ '-' := by
      rintro rfl
      exact absurd hdigit (by decide)
    refine ⟨c, cs, by simpa [jsonText, hneg] using hcs, .inr hdigit, ?_⟩
    rw [hcs] at hd
    simp [parse, hsign, hd, hvalue]

/-! ## Texts determine numbers -/

theorem mem_magnitudeText {v : ℚ} {c : Char} (hc : c ∈ magnitudeText v) :
    c.isDigit = true ∨ c ∈ ['.', 'e', '-', '+'] := by
  unfold magnitudeText at hc
  split at hc
  · rw [List.mem_singleton.mp hc]
    exact .inl (by decide)
  · exact Decimal.mem_text _ hc

/-- A text has letters, digits, points and signs. -/
theorem mem_text {n : Number} {c : Char} (hc : c ∈ n.text) :
    c.isAlphanum = true ∨ c ∈ ['.', '-', '+'] := by
  have hmagnitude : ∀ {v}, c ∈ magnitudeText v → c.isAlphanum = true ∨ c ∈ ['.', '-', '+'] := by
    intro v hv
    rcases mem_magnitudeText hv with hdigit | hsign
    · exact .inl (by simp [Char.isAlphanum, hdigit])
    · simp only [List.mem_cons, List.not_mem_nil, or_false] at hsign ⊢
      rcases hsign with rfl | rfl | rfl | rfl <;> simp
  have hletters : ∀ name : String, (name.toList.all fun c => c.isAlphanum || c == '-') = true →
      c ∈ name.toList → c.isAlphanum = true ∨ c ∈ ['.', '-', '+'] := by
    intro name hname hc
    have hletter := List.all_eq_true.mp hname c hc
    rw [Bool.or_eq_true, beq_iff_eq] at hletter
    exact hletter.imp id fun hminus => by simp [hminus]
  cases n with
  | nan => exact hletters "NaN" (by decide) hc
  | negInfinity => exact hletters "-Infinity" (by decide) hc
  | infinity => exact hletters "Infinity" (by decide) hc
  | finite v =>
      have hc : c ∈ (finite v).jsonText := hc
      unfold jsonText at hc
      dsimp only at hc
      split at hc
      · rcases List.mem_cons.mp hc with rfl | hc
        · simp
        · exact hmagnitude hc
      · exact hmagnitude hc

/-- The text of a finite number is a numeral. -/
theorem parse_text {v : ℚ} (h : (finite v).IsDouble) :
    parse (finite v).text = some (finite v, []) := by
  have hends : Decimal.Ends [] := by simp [Decimal.Ends]
  obtain ⟨c, cs, htext, -, hparse⟩ := parse_jsonText h hends
  rw [List.append_nil] at htext
  show parse (finite v).jsonText = _
  rw [htext, hparse]

/-- The other texts are not. -/
theorem parse_text_of_not_finite {n : Number} (h : n.isFinite = false) : parse n.text = none := by
  cases n with
  | finite v => cases h
  | nan => rfl
  | negInfinity => rfl
  | infinity => rfl

/-- A number is determined by its text. -/
theorem text_injective {m n : Number} (hm : m.IsDouble) (hn : n.IsDouble)
    (h : m.text = n.text) : m = n := by
  have hparse := congrArg parse h
  cases m with
  | finite v =>
      rw [parse_text hm] at hparse
      cases n with
      | finite w =>
          rw [parse_text hn] at hparse
          exact (Prod.mk.inj (Option.some.inj hparse)).1
      | _ =>
          rw [parse_text_of_not_finite rfl] at hparse
          cases hparse
  | _ =>
      rw [parse_text_of_not_finite rfl] at hparse
      cases n with
      | finite w =>
          rw [parse_text hn] at hparse
          cases hparse
      | _ =>
          revert h
          decide

end Number

end L0Worker
