import L0Worker.Lib.JsonString
import Mathlib.Data.List.Lex

/-!
# UTF-16

The code units of a string, which are what JavaScript counts and compares.  They determine
the string (`codeUnits_injective`).  In UTF-8 a character takes at least as many bytes as it
has code units, and more of them unless it is an ASCII character, so the two lengths of a
string agree exactly for ASCII strings (`utf8ByteSize_eq_utf16Length_iff`).
-/

namespace L0Worker

namespace Utf16

/-- The code units of a character. -/
def ofChar (c : Char) : List ℕ :=
  if c.toNat < 0x10000 then [c.toNat]
  else [0xD800 + (c.toNat - 0x10000) / 0x400, 0xDC00 + (c.toNat - 0x10000) % 0x400]

/-- The code units of a string. -/
def codeUnits (s : String) : List ℕ := s.toList.flatMap ofChar

theorem codeUnits_append (s t : String) : codeUnits (s ++ t) = codeUnits s ++ codeUnits t := by
  simp [codeUnits]

/-- A character below the surrogates is in a string if its code unit is. -/
theorem toNat_mem_codeUnits_iff {c : Char} {s : String} (hc : c.toNat < 0xD800) :
    c.toNat ∈ codeUnits s ↔ c ∈ s.toList := by
  have hchar : ∀ d : Char, c.toNat ∈ ofChar d ↔ c = d := by
    intro d
    have hinj : c.toNat = d.toNat ↔ c = d := Char.toNat_inj
    have hne : ¬ d.toNat < 0x10000 → c ≠ d := by
      rintro hd rfl
      omega
    unfold ofChar
    split
    · rw [List.mem_singleton, hinj]
    · next hd =>
      rw [List.mem_pair]
      exact iff_of_false (by omega) (hne hd)
  simp [codeUnits, hchar]

/-! ## Code units determine the string -/

/-- A character below the surrogate pairs is read by itself, and a pair as one character. -/
theorem decodeUnits_ofChar (c : Char) (units : List ℕ) :
    JsonString.decodeUnits (ofChar c ++ units) = c :: JsonString.decodeUnits units := by
  have hvalid : c.toNat < 0xD800 ∨ 0xDFFF < c.toNat ∧ c.toNat < 0x110000 := c.valid
  obtain ⟨hhigh, hlow⟩ := JsonString.isHigh_toNat c
  unfold ofChar
  split
  · have hchar : JsonString.charOf c.toNat = c := by
      simp [JsonString.charOf, hhigh, hlow]
    cases units with
    | nil => simp [JsonString.decodeUnits, hchar]
    | cons u units => simp [JsonString.decodeUnits, hchar, hhigh]
  · next hge =>
    have hfirst : JsonString.isHigh (0xD800 + (c.toNat - 0x10000) / 0x400) = true := by
      simp only [JsonString.isHigh, Bool.and_eq_true, decide_eq_true_eq]
      omega
    have hsecond : JsonString.isLow (0xDC00 + (c.toNat - 0x10000) % 0x400) = true := by
      simp only [JsonString.isLow, Bool.and_eq_true, decide_eq_true_eq]
      omega
    have hvalue : 0x10000 + (0xD800 + (c.toNat - 0x10000) / 0x400 - 0xD800) * 0x400 +
        (0xDC00 + (c.toNat - 0x10000) % 0x400 - 0xDC00) = c.toNat := by
      omega
    simp only [List.cons_append, List.nil_append, JsonString.decodeUnits, hfirst, hsecond,
      Bool.and_self, ↓reduceIte, hvalue, Char.ofNat_toNat]

theorem decodeUnits_flatMap (cs : List Char) :
    JsonString.decodeUnits (cs.flatMap ofChar) = cs := by
  induction cs with
  | nil => rfl
  | cons c cs ih => rw [List.flatMap_cons, decodeUnits_ofChar, ih]

theorem codeUnits_injective : Function.Injective codeUnits := by
  intro s s' h
  have hdecode := congrArg JsonString.decodeUnits h
  rw [codeUnits, codeUnits, decodeUnits_flatMap, decodeUnits_flatMap] at hdecode
  exact String.toList_inj.mp hdecode

/-! ## Lengths -/

theorem length_ofChar (c : Char) :
    (ofChar c).length = if c.toNat < 0x10000 then 1 else 2 := by
  unfold ofChar
  split <;> rfl

/-- `length` counts the code units. -/
theorem utf16Length_eq (s : String) : utf16Length s = (codeUnits s).length := by
  have hfold : ∀ (cs : List Char) (n : ℕ),
      cs.foldl (fun n c => if c.toNat < 0x10000 then n + 1 else n + 2) n =
        n + (cs.flatMap ofChar).length := by
    intro cs
    induction cs with
    | nil => simp
    | cons c cs ih =>
        intro n
        rw [List.foldl_cons, ih, List.flatMap_cons, List.length_append, length_ofChar]
        split <;> omega
  rw [utf16Length, hfold, Nat.zero_add, codeUnits]

/-- The string has ASCII characters only. -/
def IsAscii (s : String) : Prop := ∀ c ∈ s.toList, c.toNat < 0x80

instance (s : String) : Decidable (IsAscii s) :=
  List.decidableBAll (fun c : Char => c.toNat < 0x80) s.toList

/-- A character takes no fewer bytes than code units, and more unless it is ASCII. -/
theorem utf8Size_spec (c : Char) :
    (ofChar c).length ≤ c.utf8Size ∧ ((ofChar c).length = c.utf8Size ↔ c.toNat < 0x80) := by
  have hval : c.val.toNat = c.toNat := rfl
  rw [length_ofChar, Char.utf8Size]
  simp only [UInt32.le_iff_toNat_le, hval, UInt32.toNat_ofNatLT]
  split_ifs <;> omega

/-- The characters together take no fewer bytes than code units. -/
theorem length_flatMap_spec (cs : List Char) :
    (cs.flatMap ofChar).length ≤ (String.ofList cs).utf8ByteSize ∧
      ((cs.flatMap ofChar).length = (String.ofList cs).utf8ByteSize ↔
        ∀ c ∈ cs, c.toNat < 0x80) := by
  induction cs with
  | nil => simp
  | cons c cs ih =>
      obtain ⟨hle, hiff⟩ := utf8Size_spec c
      obtain ⟨hles, hiffs⟩ := ih
      rw [List.flatMap_cons, List.length_append, String.ofList_cons, String.utf8ByteSize_append,
        String.utf8ByteSize_singleton, List.forall_mem_cons, ← hiff, ← hiffs]
      omega

theorem utf8ByteSize_eq_utf16Length_iff {s : String} :
    s.utf8ByteSize = utf16Length s ↔ IsAscii s := by
  obtain ⟨-, hiff⟩ := length_flatMap_spec s.toList
  rw [String.ofList_toList] at hiff
  rw [utf16Length_eq, codeUnits, eq_comm]
  exact hiff

end Utf16

end L0Worker
