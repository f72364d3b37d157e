import L0Worker.Lib.JsValue

/-!
# Schemas

Validators in the manner of zod.  A schema reads a JSON value or `undefined` and gives what
the value parses to, or fails.  An object schema reads the fields it names and drops the
others, and a field that is not there is `undefined`.  Nothing here speaks of a particular
message.
-/

namespace L0Worker

/-- A schema.  It reads a value, `none` for `undefined`, and gives `none` where `safeParse`
reports an error. -/
abbrev Schema (α : Type) := Option Json → Option α

namespace Schema

variable {α β : Type}

/-! ## Values -/

/-- `z.unknown()`. -/
def unknown : Schema (Option Json) := fun v => some v

/-- `z.unknown()` for a value that is there. -/
def defined : Schema Json := fun v => v

/-- `z.string()`. -/
def string : Schema String
  | some (.str s) => some s
  | _ => none

/-- `z.number()`, which only takes finite numbers. -/
def number : Schema Number
  | some (.num n) => if n.isFinite then some n else none
  | _ => none

/-- `z.boolean()`. -/
def boolean : Schema Bool
  | some (.bool b) => some b
  | _ => none

/-- `z.enum(values)`, with the names the values are given. -/
def enum (values : List (String × α)) : Schema α
  | some (.str s) => values.lookup s
  | _ => none

/-- `z.literal(text)`. -/
def literal (text : String) : Schema Unit := enum [(text, ())]

/-! ## Composed schemas -/

/-- A further check of the parsed value. -/
def check (s : Schema α) (p : α → Bool) : Schema α := fun v => (s v).filter p

/-- `z.number().positive()`. -/
def positive : Schema Number := number.check (Number.lt 0)

/-- `optional()`. -/
def optional (s : Schema α) : Schema (Option α)
  | none => some none
  | some v => (s (some v)).map some

/-- `default(value)`. -/
def default (s : Schema α) (value : α) : Schema α
  | none => some value
  | some v => s (some v)

/-- `z.array(s)`. -/
def array (s : Schema α) : Schema (List α)
  | some (.arr items) => items.mapM fun v => s (some v)
  | _ => none

/-- `z.record(z.string(), s)`, which skips the key `__proto__`. -/
def record (s : Schema α) : Schema (List (String × α))
  | some (.obj fields) =>
      (fields.filter fun f => f.1 ≠ "__proto__").mapM fun f => (s (some f.2)).map fun a => (f.1, a)
  | _ => none

/-- `z.object(shape)`: the shape reads the fields. -/
def object (shape : List (String × Json) → Option α) : Schema α
  | some (.obj fields) => shape fields
  | _ => none

/-- `z.discriminatedUnion(key, options)`: the option whose literal stands in the field. -/
def discriminatedUnion (key : String) (options : List (String × Schema α)) : Schema α :=
  object fun fields =>
    match fields.lookup key with
    | some (.str name) => (options.lookup name).bind fun s => s (some (.obj fields))
    | _ => none

/-! ## What a schema accepts -/

theorem object_eq_some_iff {shape : List (String × Json) → Option α} {v : Option Json} {a : α} :
    object shape v = some a ↔ ∃ fields, v = some (.obj fields) ∧ shape fields = some a := by
  cases v with
  | none => simp [object]
  | some j => cases j with
    | obj fields => simp [object]
    | _ => simp [object]

theorem string_eq_some_iff {v : Option Json} {s : String} :
    string v = some s ↔ v = some (.str s) := by
  cases v with
  | none => simp [string]
  | some j => cases j with
    | str t => simp [string]
    | _ => simp [string]

theorem number_eq_some_iff {v : Option Json} {n : Number} :
    number v = some n ↔ v = some (.num n) ∧ n.isFinite = true := by
  cases v with
  | none => simp [number]
  | some j => cases j with
    | num m =>
        simp only [number, Option.ite_none_right_eq_some, Option.some.injEq, Json.num.injEq]
        constructor
        · rintro ⟨hm, rfl⟩
          exact ⟨rfl, hm⟩
        · rintro ⟨rfl, hm⟩
          exact ⟨hm, rfl⟩
    | _ => simp [number]

theorem check_eq_some_iff {s : Schema α} {p : α → Bool} {v : Option Json} {a : α} :
    s.check p v = some a ↔ s v = some a ∧ p a = true :=
  Option.filter_eq_some_iff

/-- An optional value that is there was parsed. -/
theorem optional_eq_some_some_iff {s : Schema α} {v : Option Json} {a : α} :
    s.optional v = some (some a) ↔ v.isSome = true ∧ s v = some a := by
  cases v with
  | none => simp [optional]
  | some j => simp [optional]

/-- An object that names no option is not accepted. -/
theorem discriminatedUnion_eq_none {key : String} {options : List (String × Schema α)}
    {fields : List (String × Json)} {name : String} (hname : fields.lookup key = some (.str name))
    (h : name ∉ options.map Prod.fst) :
    discriminatedUnion key options (some (.obj fields)) = none := by
  have hoption : options.lookup name = none := by
    rw [List.lookup_eq_none_iff]
    intro option hmem
    simp only [bne_iff_ne, ne_eq]
    rintro rfl
    exact h (List.mem_map_of_mem hmem)
  show (match fields.lookup key with | some (.str name) => _ | _ => none) = none
  rw [hname]
  dsimp only
  rw [hoption]
  rfl

end Schema

end L0Worker
