import L0Worker.Lib.JsValue

/-!
# String literals of JSON

How `JSON.stringify` quotes a string and how `JSON.parse` reads a literal.  A literal is
read as UTF-16 code units and then decoded, since an escape gives one code unit.  A string
here has characters only, so a surrogate without its other half is decoded as `U+FFFD`.
-/

namespace L0Worker

namespace JsonString

/-! ## Quoting -/

/-- The characters that are escaped by a letter, with the letter. -/
def shortEscapes : List (Char × Char) :=
  [('"', '"'), ('\\', '\\'), ('\x08', 'b'), ('\x0c', 'f'), ('\n', 'n'), ('\r', 'r'), ('\t', 't')]

/-- A character in a literal. -/
def escape (c : Char) : List Char :=
  match shortEscapes.lookup c with
  | some letter => ['\\', letter]
  | none =>
      if c.toNat < 0x20 then
        ['\\', 'u', '0', '0', Nat.digitChar (c.toNat / 16), Nat.digitChar (c.toNat % 16)]
      else [c]

/-- `QuoteJSONString`. -/
def quote (s : String) : List Char := '"' :: (s.toList.flatMap escape ++ ['"'])

/-! ## Reading -/

/-- What an escaped letter stands for. -/
def unescape (letter : Char) : Option Char :=
  (('/', '/') :: shortEscapes.map Prod.swap).lookup letter

/-- A hexadecimal digit. -/
def hexValue (c : Char) : Option ℕ :=
  if '0' ≤ c ∧ c ≤ '9' then some (c.toNat - 48)
  else if 'a' ≤ c ∧ c ≤ 'f' then some (c.toNat - 87)
  else if 'A' ≤ c ∧ c ≤ 'F' then some (c.toNat - 55)
  else none

/-- Where the reader of a literal is. -/
inductive Position where
  | plain
  /-- After a backslash. -/
  | escaped
  /-- In a code unit, with the digits that are missing and what was read of it. -/
  | hex (missing unit : ℕ)

/-- A code unit in front of those that are read after it. -/
def push (unit : ℕ) (rest : Option (List ℕ × List Char)) : Option (List ℕ × List Char) :=
  rest.map fun r => (unit :: r.1, r.2)

/-- The code units up to the closing quote.  A character that is not escaped stands for
itself, as one number. -/
def parseUnits : Position → List Char → Option (List ℕ × List Char)
  | _, [] => none
  | .plain, c :: cs =>
      if c = '"' then some ([], cs)
      else if c = '\\' then parseUnits .escaped cs
      else if c.toNat < 0x20 then none
      else push c.toNat (parseUnits .plain cs)
  | .escaped, c :: cs =>
      if c = 'u' then parseUnits (.hex 3 0) cs
      else (unescape c).bind fun c => push c.toNat (parseUnits .plain cs)
  | .hex missing unit, c :: cs =>
      (hexValue c).bind fun digit =>
        match missing with
        | 0 => push (unit * 16 + digit) (parseUnits .plain cs)
        | missing + 1 => parseUnits (.hex missing (unit * 16 + digit)) cs

/-- The first half of a surrogate pair. -/
def isHigh (u : ℕ) : Bool := 0xD800 ≤ u && u < 0xDC00

/-- The second half of a surrogate pair. -/
def isLow (u : ℕ) : Bool := 0xDC00 ≤ u && u < 0xE000

/-- The character of a code unit by itself. -/
def charOf (u : ℕ) : Char := if isHigh u || isLow u then '\uFFFD' else Char.ofNat u

/-- The characters of code units. -/
def decodeUnits : List ℕ → List Char
  | [] => []
  | [u] => [charOf u]
  | u :: v :: us =>
      if isHigh u && isLow v then
        Char.ofNat (0x10000 + (u - 0xD800) * 0x400 + (v - 0xDC00)) :: decodeUnits us
      else charOf u :: decodeUnits (v :: us)

/-- A literal after its opening quote. -/
def parse (cs : List Char) : Option (String × List Char) :=
  (parseUnits .plain cs).map fun r => (String.ofList (decodeUnits r.1), r.2)

/-- A literal is not empty. -/
theorem parseUnits_length {position : Position} {cs rest : List Char} {us : List ℕ}
    (h : parseUnits position cs = some (us, rest)) : rest.length < cs.length := by
  induction cs generalizing position us with
  | nil => cases position <;> cases h
  | cons c cs ih =>
      have hpush : ∀ {u us}, push u (parseUnits .plain cs) = some (us, rest) →
          rest.length < (c :: cs).length := by
        intro u us hu
        obtain ⟨r, hr, heq⟩ := Option.map_eq_some_iff.mp hu
        cases heq
        exact (ih hr).trans (by simp)
      cases position with
      | plain =>
          simp only [parseUnits] at h
          split at h
          · cases h
            simp
          · split at h
            · exact (ih h).trans (by simp)
            · split at h
              · cases h
              · exact hpush h
      | escaped =>
          simp only [parseUnits] at h
          split at h
          · exact (ih h).trans (by simp)
          · obtain ⟨c', -, h⟩ := Option.bind_eq_some_iff.mp h
            exact hpush h
      | hex missing unit =>
          simp only [parseUnits] at h
          obtain ⟨digit, -, h⟩ := Option.bind_eq_some_iff.mp h
          cases missing with
          | zero => exact hpush h
          | succ missing => exact (ih h).trans (by simp)

theorem parse_length {cs rest : List Char} {s : String} (h : parse cs = some (s, rest)) :
    rest.length < cs.length := by
  obtain ⟨r, hr, heq⟩ := Option.map_eq_some_iff.mp h
  cases heq
  exact parseUnits_length hr

/-! ## What is quoted is read back -/

theorem hexValue_digitChar : ∀ n < 16, hexValue n.digitChar = some n := by decide

/-- An escaped letter is read back. -/
theorem unescape_of_mem : ∀ e ∈ shortEscapes, unescape e.2 = some e.1 ∧ e.2 ≠ 'u' := by decide

/-- A character that stands for itself is neither a quote nor a backslash. -/
theorem ne_of_lookup {c : Char} (h : shortEscapes.lookup c = none) : c ≠ '"' ∧ c ≠ '\\' := by
  constructor
  · rintro rfl
    simp [shortEscapes] at h
  · rintro rfl
    simp [shortEscapes] at h

/-- A character of a literal is read back. -/
theorem parseUnits_escape (c : Char) (rest : List Char) :
    parseUnits .plain (escape c ++ rest) = push c.toNat (parseUnits .plain rest) := by
  unfold escape
  cases hlookup : shortEscapes.lookup c with
  | some letter =>
      obtain ⟨l₁, l₂, hl, -⟩ := List.lookup_eq_some_iff.mp hlookup
      obtain ⟨hletter, hu⟩ := unescape_of_mem (c, letter) (by simp [hl])
      simp [parseUnits, hletter, hu]
  | none =>
      dsimp only
      split
      · next hlt =>
        have hhigh := hexValue_digitChar (c.toNat / 16) (by omega)
        have hlow := hexValue_digitChar (c.toNat % 16) (by omega)
        have hzero : hexValue '0' = some 0 := hexValue_digitChar 0 (by decide)
        have hdiv : c.toNat / 16 * 16 + c.toNat % 16 = c.toNat := by omega
        simp [parseUnits, hhigh, hlow, hzero, hdiv]
      · next hge =>
        obtain ⟨hquote, hslash⟩ := ne_of_lookup hlookup
        simp [parseUnits, hquote, hslash, hge]

theorem parseUnits_quote (cs rest : List Char) :
    parseUnits .plain (cs.flatMap escape ++ '"' :: rest) = some (cs.map Char.toNat, rest) := by
  induction cs with
  | nil => simp [parseUnits]
  | cons c cs ih => simp [parseUnits_escape, ih, push]

/-- A character is not half of a surrogate pair. -/
theorem isHigh_toNat (c : Char) : isHigh c.toNat = false ∧ isLow c.toNat = false := by
  have hvalid : c.toNat < 0xD800 ∨ 0xDFFF < c.toNat ∧ c.toNat < 0x110000 := c.valid
  simp [isHigh, isLow]
  omega

theorem decodeUnits_toNat (cs : List Char) : decodeUnits (cs.map Char.toNat) = cs := by
  have hchar : ∀ c : Char, charOf c.toNat = c := by
    intro c
    simp [charOf, isHigh_toNat]
  induction cs with
  | nil => rfl
  | cons c cs ih =>
      cases cs with
      | nil => simp [decodeUnits, hchar]
      | cons c' cs => simpa [decodeUnits, hchar, isHigh_toNat] using ih

/-- A quoted string is read back. -/
theorem parse_quote (s : String) (rest : List Char) :
    ∃ cs, quote s ++ rest = '"' :: cs ∧ parse cs = some (s, rest) := by
  refine ⟨s.toList.flatMap escape ++ '"' :: rest, by simp [quote], ?_⟩
  simp [parse, parseUnits_quote, decodeUnits_toNat]

end JsonString

end L0Worker
