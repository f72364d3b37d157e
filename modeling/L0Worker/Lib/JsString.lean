import L0Worker.Lib.Utf16

/-!
# Strings as code units

A JavaScript string is a sequence of UTF-16 code units, not all of which stand for characters:
a surrogate may be without its other half.  When the string is written as UTF-8, each such
surrogate is written as `U+FFFD`, so different strings may have the same bytes.  A string is
the only one with its bytes exactly when `U+FFFD` is not among them
(`toUtf8_determines_iff`).
-/

namespace L0Worker

open JsonString Utf16

/-- A JavaScript string. -/
@[ext] structure JsString where
  units : List ℕ
  bounded : ∀ u ∈ units, u < 0x10000
deriving DecidableEq

namespace Utf16

theorem toNat_ofNat {n : ℕ} (h : n.isValidChar) : (Char.ofNat n).toNat = n := by
  rw [Char.ofNat, dif_pos h]
  rfl

theorem ofChar_of_lt {c : Char} (h : c.toNat < 0x10000) : ofChar c = [c.toNat] := if_pos h

theorem ofChar_of_le {c : Char} (h : 0x10000 ≤ c.toNat) :
    ofChar c = [0xD800 + (c.toNat - 0x10000) / 0x400, 0xDC00 + (c.toNat - 0x10000) % 0x400] :=
  if_neg (not_lt.mpr h)

theorem lt_of_mem_ofChar {c : Char} {u : ℕ} (h : u ∈ ofChar c) : u < 0x10000 := by
  have hvalid : c.toNat < 0xD800 ∨ 0xDFFF < c.toNat ∧ c.toNat < 0x110000 := c.valid
  rcases Nat.lt_or_ge c.toNat 0x10000 with hlt | hge
  · rw [ofChar_of_lt hlt, List.mem_singleton] at h
    rwa [h]
  · rw [ofChar_of_le hge, List.mem_pair] at h
    omega

/-! ## Surrogates without their other half -/

/-- A code unit that is the first half of a pair is not read as a character. -/
theorem charOf_of_isHigh {u : ℕ} (h : isHigh u = true) : charOf u = '\uFFFD' := by
  simp [charOf, h]

/-- A code unit that is read as a character is written as itself. -/
theorem ofChar_charOf {u : ℕ} (hu : u < 0x10000) (h : charOf u ≠ '\uFFFD') :
    ofChar (charOf u) = [u] := by
  unfold charOf at h ⊢
  split at h
  · exact absurd rfl h
  · next hsurrogate =>
    have hvalid : u.isValidChar := by
      simp [isHigh, isLow] at hsurrogate
      simp only [Nat.isValidChar]
      omega
    have htoNat : (Char.ofNat u).toNat = u := toNat_ofNat hvalid
    rw [if_neg hsurrogate, ofChar_of_lt (by rw [htoNat]; exact hu), htoNat]

/-- A pair is written as itself. -/
theorem ofChar_pair {u v : ℕ} (hu : isHigh u = true) (hv : isLow v = true) :
    ofChar (Char.ofNat (0x10000 + (u - 0xD800) * 0x400 + (v - 0xDC00))) = [u, v] := by
  simp only [isHigh, isLow, Bool.and_eq_true, decide_eq_true_eq] at hu hv
  generalize hn : 0x10000 + (u - 0xD800) * 0x400 + (v - 0xDC00) = n
  have hvalid : n.isValidChar := by
    simp only [Nat.isValidChar]
    omega
  have htoNat : (Char.ofNat n).toNat = n := toNat_ofNat hvalid
  have hfirst : 0xD800 + (n - 0x10000) / 0x400 = u := by omega
  have hsecond : 0xDC00 + (n - 0x10000) % 0x400 = v := by omega
  rw [ofChar_of_le (by omega), htoNat, hfirst, hsecond]

/-- A pair is not `U+FFFD`. -/
theorem pair_ne {u v : ℕ} (hu : isHigh u = true) (hv : isLow v = true) :
    Char.ofNat (0x10000 + (u - 0xD800) * 0x400 + (v - 0xDC00)) ≠ '\uFFFD' := by
  intro h
  have hunits := ofChar_pair hu hv
  rw [h] at hunits
  cases hunits

/-- Code units among whose characters there is no `U+FFFD` are written again as they were. -/
theorem flatMap_decodeUnits {us : List ℕ} (hbounded : ∀ u ∈ us, u < 0x10000)
    (h : '\uFFFD' ∉ decodeUnits us) : (decodeUnits us).flatMap ofChar = us := by
  induction us using decodeUnits.induct with
  | case1 => rfl
  | case2 u =>
      have hchar : charOf u ≠ '\uFFFD' := fun hu => h (List.mem_singleton.mpr hu.symm)
      simp [decodeUnits, ofChar_charOf (hbounded u List.mem_cons_self) hchar]
  | case3 u v us hpair ih =>
      have hhalves := Bool.and_eq_true_iff.mp hpair
      rw [decodeUnits, if_pos hpair] at h ⊢
      rw [List.flatMap_cons, ofChar_pair hhalves.1 hhalves.2,
        ih (fun w hw => hbounded w (by simp [hw])) fun hw => h (List.mem_cons_of_mem _ hw)]
      rfl
  | case4 u v us hpair ih =>
      rw [decodeUnits, if_neg hpair] at h ⊢
      have hchar : charOf u ≠ '\uFFFD' := fun hu => h (List.mem_cons.mpr (.inl hu.symm))
      rw [List.flatMap_cons, ofChar_charOf (hbounded u List.mem_cons_self) hchar,
        ih (fun w hw => hbounded w (List.mem_cons_of_mem _ hw))
          fun hw => h (List.mem_cons_of_mem _ hw)]
      rfl

/-- A code unit that is not the first half of a pair is read by itself. -/
theorem decodeUnits_cons {u : ℕ} (h : isHigh u = false) (us : List ℕ) :
    decodeUnits (u :: us) = charOf u :: decodeUnits us := by
  cases us with
  | nil => rfl
  | cons v us => simp [decodeUnits, h]

/-- The code units of a text do not start with the second half of a pair. -/
theorem decodeUnits_cons_flatMap (u : ℕ) (cs : List Char) :
    decodeUnits (u :: cs.flatMap ofChar) = charOf u :: cs := by
  cases cs with
  | nil => rfl
  | cons c cs =>
      have hdecode := decodeUnits_flatMap (c :: cs)
      have hvalid : c.toNat < 0xD800 ∨ 0xDFFF < c.toNat ∧ c.toNat < 0x110000 := c.valid
      obtain ⟨v, vs, hv, hlow⟩ : ∃ v vs, ofChar c = v :: vs ∧ isLow v = false := by
        rcases Nat.lt_or_ge c.toNat 0x10000 with hlt | hge
        · exact ⟨_, _, ofChar_of_lt hlt, (isHigh_toNat c).2⟩
        · refine ⟨_, _, ofChar_of_le hge, ?_⟩
          simp only [isLow, Bool.and_eq_false_iff, decide_eq_false_iff_not]
          omega
      rw [List.flatMap_cons, hv, List.cons_append] at hdecode ⊢
      rw [decodeUnits, if_neg (by simp [hlow]), hdecode]

theorem decodeUnits_append_flatMap (us : List ℕ) (cs : List Char) :
    decodeUnits (us ++ cs.flatMap ofChar) = decodeUnits us ++ cs := by
  induction us using decodeUnits.induct with
  | case1 => exact decodeUnits_flatMap cs
  | case2 u => exact decodeUnits_cons_flatMap u cs
  | case3 u v us hpair ih =>
      rw [decodeUnits, if_pos hpair, List.cons_append, List.cons_append, decodeUnits,
        if_pos hpair, ih]
      rfl
  | case4 u v us hpair ih =>
      rw [decodeUnits, if_neg hpair, List.cons_append, List.cons_append, decodeUnits,
        if_neg hpair, ← List.cons_append, ih]
      rfl

/-- Other code units that are read as `U+FFFD` too. -/
def other (u : ℕ) : ℕ := if u = 0xFFFD then 0xDC00 else 0xFFFD

theorem other_spec (u : ℕ) (us : List ℕ) :
    other u ≠ u ∧ other u < 0x10000 ∧ decodeUnits (other u :: us) = '\uFFFD' :: decodeUnits us := by
  unfold other
  split
  · next hu => exact ⟨by omega, by omega, decodeUnits_cons rfl us⟩
  · next hu => exact ⟨fun heq => hu heq.symm, by omega, decodeUnits_cons rfl us⟩

/-- The first `U+FFFD` of a text may come from another code unit. -/
theorem exists_other {us : List ℕ} (hbounded : ∀ u ∈ us, u < 0x10000)
    (h : '\uFFFD' ∈ decodeUnits us) :
    ∃ vs, vs ≠ us ∧ (∀ v ∈ vs, v < 0x10000) ∧ decodeUnits vs = decodeUnits us := by
  induction us using decodeUnits.induct with
  | case1 => cases h
  | case2 u =>
      have hchar : charOf u = '\uFFFD' := (List.mem_singleton.mp h).symm
      obtain ⟨hne, hlt, hdecode⟩ := other_spec u []
      refine ⟨[other u], by simpa using hne, by simpa using hlt, ?_⟩
      rw [hdecode, decodeUnits, decodeUnits, hchar]
  | case3 u v us hpair ih =>
      have hhalves := Bool.and_eq_true_iff.mp hpair
      rw [decodeUnits, if_pos hpair] at h ⊢
      have hrest : '\uFFFD' ∈ decodeUnits us :=
        (List.mem_cons.mp h).resolve_left (pair_ne hhalves.1 hhalves.2).symm
      obtain ⟨vs, hne, hlt, hdecode⟩ := ih (fun w hw => hbounded w (by simp [hw])) hrest
      refine ⟨u :: v :: vs, by simpa using hne, ?_, ?_⟩
      · have hu := hbounded u List.mem_cons_self
        have hv := hbounded v (List.mem_cons_of_mem _ List.mem_cons_self)
        simpa [hu, hv] using hlt
      · rw [decodeUnits, if_pos hpair, hdecode]
  | case4 u v us hpair ih =>
      have hu := hbounded u List.mem_cons_self
      have htail : ∀ w ∈ v :: us, w < 0x10000 := fun w hw => hbounded w (List.mem_cons_of_mem _ hw)
      rw [decodeUnits, if_neg hpair] at h ⊢
      by_cases hchar : charOf u = '\uFFFD'
      · obtain ⟨hne, hlt, hdecode⟩ := other_spec u (v :: us)
        refine ⟨other u :: v :: us, by simpa using hne, ?_, by rw [hdecode, hchar]⟩
        exact List.forall_mem_cons.mpr ⟨hlt, htail⟩
      · obtain ⟨vs, hne, hlt, hdecode⟩ :=
          ih htail ((List.mem_cons.mp h).resolve_left (Ne.symm hchar))
        refine ⟨u :: vs, by simpa using hne, List.forall_mem_cons.mpr ⟨hu, hlt⟩, ?_⟩
        -- the code unit before is no surrogate, so it does not pair with what comes now
        have hhigh : isHigh u = false := Bool.eq_false_iff.mpr fun h => hchar (charOf_of_isHigh h)
        rw [decodeUnits_cons hhigh, hdecode]

end Utf16

namespace JsString

/-- The code units of a text. -/
def ofString (s : String) : JsString where
  units := codeUnits s
  bounded u hu := by
    obtain ⟨c, -, hc⟩ := List.mem_flatMap.mp hu
    exact lt_of_mem_ofChar hc

instance : Coe String JsString := ⟨ofString⟩

@[simp] theorem units_ofString (s : String) : (ofString s).units = codeUnits s := rfl

instance : Append JsString where
  append s t := ⟨s.units ++ t.units, List.forall_mem_append.mpr ⟨s.bounded, t.bounded⟩⟩

@[simp] theorem units_append (s t : JsString) : (s ++ t).units = s.units ++ t.units := rfl

/-- The characters of a string, with `U+FFFD` for a surrogate without its other half. -/
def chars (s : JsString) : List Char := decodeUnits s.units

/-- The bytes of a string in UTF-8. -/
def toUtf8 (s : JsString) : ByteArray := (String.ofList s.chars).toByteArray

theorem toUtf8_eq_iff {s t : JsString} : s.toUtf8 = t.toUtf8 ↔ s.chars = t.chars := by
  rw [toUtf8, toUtf8, String.toByteArray_inj, String.ofList_inj]

@[simp] theorem chars_ofString (s : String) : (ofString s).chars = s.toList :=
  decodeUnits_flatMap s.toList

theorem ofString_injective : Function.Injective ofString :=
  fun _ _ h => codeUnits_injective (congrArg units h)

theorem chars_append_ofString (s : JsString) (t : String) :
    (s ++ ofString t).chars = s.chars ++ t.toList :=
  decodeUnits_append_flatMap s.units t.toList

/-- Every character of the string is in it as it is, and none is `U+FFFD`. -/
def IsText (s : JsString) : Prop := '\uFFFD' ∉ s.chars

instance (s : JsString) : Decidable s.IsText := inferInstanceAs (Decidable (¬ _))

/-- A string is determined by its bytes exactly when they have no `U+FFFD`. -/
theorem toUtf8_determines_iff {s : JsString} :
    (∀ t : JsString, t.toUtf8 = s.toUtf8 → t = s) ↔ s.IsText := by
  constructor
  · intro hall hmem
    obtain ⟨vs, hne, hbounded, hdecode⟩ := exists_other s.bounded hmem
    have heq := hall ⟨vs, hbounded⟩ (toUtf8_eq_iff.mpr hdecode)
    exact hne (congrArg units heq)
  · intro htext t ht
    have hchars := toUtf8_eq_iff.mp ht
    have hs := flatMap_decodeUnits s.bounded htext
    have htext' : t.IsText := by rwa [IsText, hchars]
    have ht' := flatMap_decodeUnits t.bounded htext'
    refine JsString.ext ?_
    rw [← hs, ← ht']
    exact congrArg (List.flatMap ofChar) hchars

end JsString

end L0Worker
