import L0Worker.Lib.Rounding

/-!
# Values of JavaScript

Numbers as far as they are compared and added, readings of the clock, JSON values, and the
string functions used to measure a token and to look for a phrase in a message regardless of
case.
-/

namespace L0Worker

/-- A JavaScript number.  The finite ones are taken as rationals. -/
inductive Number where
  | nan
  | negInfinity
  | finite (value : ℚ)
  | infinity
deriving DecidableEq

namespace Number

instance (n : Nat) : OfNat Number n := ⟨.finite n⟩

/-- The number of a count. -/
def ofNat (n : Nat) : Number := .finite n

/-- The operator `<`, false when an operand is `NaN`. -/
def lt : Number → Number → Bool
  | .nan, _ | _, .nan => false
  | .finite a, .finite b => decide (a < b)
  | .negInfinity, .negInfinity | .infinity, _ | .finite _, .negInfinity => false
  | .negInfinity, _ | .finite _, .infinity => true

/-- `Number.isFinite`. -/
def isFinite : Number → Bool
  | .finite _ => true
  | _ => false

/-- The number of an integer. -/
def ofInt (n : Int) : Number := .finite n

/-- The operator `-` before a number. -/
def neg : Number → Number
  | .nan => .nan
  | .negInfinity => .infinity
  | .finite a => .finite (-a)
  | .infinity => .negInfinity

/-- A nonnegative rational, rounded to double precision. -/
def ofMagnitude (q : ℚ) : Number :=
  match binary64.round q with
  | some v => .finite v
  | none => .infinity

/-- A rational, rounded to double precision. -/
def ofRat (q : ℚ) : Number := if q < 0 then (ofMagnitude (-q)).neg else ofMagnitude q

/-- The operator `+`. -/
def add : Number → Number → Number
  | .nan, _ | _, .nan | .infinity, .negInfinity | .negInfinity, .infinity => .nan
  | .finite a, .finite b => ofRat (a + b)
  | .infinity, _ | _, .infinity => .infinity
  | .negInfinity, _ | _, .negInfinity => .negInfinity

/-- `Math.max`. -/
def max (a b : Number) : Number :=
  if a = .nan ∨ b = .nan then .nan else if a.lt b then b else a

end Number

/-- A time value: a reading of the clock in whole milliseconds, at most a hundred million days
from the epoch. -/
structure TimeValue where
  ms : Int
  bounded : ms.natAbs ≤ 8640000000000000
deriving DecidableEq

/-- A JSON value.  The keys of an object are distinct. -/
inductive Json where
  | null
  | bool (value : Bool)
  | num (value : Number)
  | str (value : String)
  | arr (items : List Json)
  | obj (fields : List (String × Json))

namespace Json

/-- A property of a value that is not `null`, `none` for `undefined`.  It is one that only
an object can have. -/
def field? (name : String) : Json → Option Json
  | .obj fields => fields.lookup name
  | _ => none

/-- The value counts as true. -/
def truthy : Json → Bool
  | .null => false
  | .bool value => value
  | .num value => value ≠ .nan && value ≠ 0
  | .str value => value ≠ ""
  | .arr _ | .obj _ => true

/-- What `JSON.stringify` makes of a number. -/
def ofNumber (n : Number) : Json := if n.isFinite then .num n else .null

end Json

/-- `String.prototype.length`: the number of UTF-16 code units. -/
def utf16Length (s : String) : Nat :=
  s.toList.foldl (fun n c => if c.toNat < 0x10000 then n + 1 else n + 2) 0

/-- `String.prototype.toLowerCase` for one character, on the characters whose
lower case has an ASCII letter.  The other characters are left alone. -/
def lowerChar (c : Char) : List Char :=
  if c = '\u212A' then ['k'] -- the Kelvin sign
  else if c = '\u0130' then ['i', '\u0307'] -- the capital I with a dot above
  else [c.toLower]

/-- `String.prototype.toLowerCase`, as far as a search for ASCII text can see. -/
def toLowerCase (s : String) : List Char := s.toList.flatMap lowerChar

/-- The characters of the phrase occur in a row. -/
def occurs (phrase : List Char) : List Char → Bool
  | [] => phrase.isEmpty
  | c :: cs => phrase.isPrefixOf (c :: cs) || occurs phrase cs

/-- `String.prototype.includes`. -/
def includes (s : List Char) (phrase : String) : Bool := occurs phrase.toList s

end L0Worker
