import L0Worker.Lib.JsonNumber
import L0Worker.Lib.JsonString
import L0Worker.Lib.OwnKeys

/-!
# JSON texts

`JSON.stringify` and `JSON.parse`.  The fields of an object are in the order of JavaScript.
What is parsed is well formed (`wellFormed_parse`): its numbers have double precision and
the keys of its objects are in order.

The parser recurs on a number that bounds how deep it goes.  Every step reads a character,
so a bound above the length of the text is never reached (`parseValue_congr`).
-/

namespace L0Worker

namespace Json

/-! ## Printing -/

/-- What follows the first element of a list, up to the closing bracket. -/
def restText (close : Char) : List (List Char) → List Char
  | [] => [close]
  | t :: ts => ',' :: (t ++ restText close ts)

/-- The elements of a list after the opening bracket, from their texts. -/
def listText (close : Char) : List (List Char) → List Char
  | [] => [close]
  | t :: ts => t ++ restText close ts

mutual

/-- `SerializeJSONProperty`. -/
def text : Json → List Char
  | .null => "null".toList
  | .bool true => "true".toList
  | .bool false => "false".toList
  | .num n => n.jsonText
  | .str s => JsonString.quote s
  | .arr items => '[' :: listText ']' (itemTexts items)
  | .obj fields => '{' :: listText '}' (fieldTexts fields)

def itemTexts : List Json → List (List Char)
  | [] => []
  | v :: items => text v :: itemTexts items

def fieldTexts : List (String × Json) → List (List Char)
  | [] => []
  | (key, v) :: fields => (JsonString.quote key ++ ':' :: text v) :: fieldTexts fields

end

/-- `JSON.stringify`. -/
def stringify (v : Json) : String := String.ofList v.text

mutual

/-- The value that the printed text stands for: a number that is not finite becomes
`null`. -/
def wire : Json → Json
  | .num n => ofNumber n
  | .arr items => .arr (wireItems items)
  | .obj fields => .obj (wireFields fields)
  | v => v

def wireItems : List Json → List Json
  | [] => []
  | v :: items => wire v :: wireItems items

def wireFields : List (String × Json) → List (String × Json)
  | [] => []
  | (key, v) :: fields => (key, wire v) :: wireFields fields

end

/-- The text of a field. -/
def fieldText (f : String × Json) : List Char := JsonString.quote f.1 ++ ':' :: text f.2

@[simp] theorem itemTexts_eq (items : List Json) : itemTexts items = items.map text := by
  induction items with
  | nil => rfl
  | cons v items ih => simp [itemTexts, ih]

@[simp] theorem fieldTexts_eq (fields : List (String × Json)) :
    fieldTexts fields = fields.map fieldText := by
  induction fields with
  | nil => rfl
  | cons f fields ih => simp [fieldTexts, fieldText, ih]

@[simp] theorem wireItems_eq (items : List Json) : wireItems items = items.map wire := by
  induction items with
  | nil => rfl
  | cons v items ih => simp [wireItems, ih]

@[simp] theorem wireFields_eq (fields : List (String × Json)) :
    wireFields fields = fields.map fun f => (f.1, f.2.wire) := by
  induction fields with
  | nil => rfl
  | cons f fields ih => simp [wireFields, ih]

theorem lookup_wireFields (fields : List (String × Json)) (name : String) :
    (wireFields fields).lookup name = (fields.lookup name).map wire := by
  induction fields with
  | nil => rfl
  | cons f fields ih =>
      rw [wireFields, List.lookup_cons, List.lookup_cons, ih]
      cases name == f.1 <;> rfl

/-! ## The characters of a text -/

/-- No control character. -/
def Printable (cs : List Char) : Prop := ∀ c ∈ cs, 0x20 ≤ c.toNat

theorem printable_of_all {cs : List Char} (h : cs.all (fun c => 0x20 ≤ c.toNat) = true) :
    Printable cs := by
  intro c hc
  exact of_decide_eq_true (List.all_eq_true.mp h c hc)

theorem Printable.append {cs cs' : List Char} (h : Printable cs) (h' : Printable cs') :
    Printable (cs ++ cs') :=
  List.forall_mem_append.mpr ⟨h, h'⟩

theorem Printable.cons {c : Char} {cs : List Char} (hc : 0x20 ≤ c.toNat) (h : Printable cs) :
    Printable (c :: cs) :=
  List.forall_mem_cons.mpr ⟨hc, h⟩

/-- Control characters are escaped. -/
theorem printable_escape (c : Char) : Printable (JsonString.escape c) := by
  have hletters : (JsonString.shortEscapes.all fun e => 0x20 ≤ e.2.toNat) = true := by decide
  have hdigits : ∀ n < 16, 0x20 ≤ (Nat.digitChar n).toNat := by decide
  have hnil : Printable [] := List.forall_mem_nil _
  unfold JsonString.escape
  split
  · next letter hletter =>
    obtain ⟨before, after, hsplit, -⟩ := List.lookup_eq_some_iff.mp hletter
    have hmem : (c, letter) ∈ JsonString.shortEscapes :=
      hsplit ▸ List.mem_append_right before List.mem_cons_self
    exact .cons (by decide) (.cons (of_decide_eq_true (List.all_eq_true.mp hletters _ hmem)) hnil)
  · split
    · next hcontrol =>
      have hhigh : c.toNat / 16 < 16 := by omega
      have hlow : c.toNat % 16 < 16 := Nat.mod_lt _ (by decide)
      exact .cons (by decide) (.cons (by decide) (.cons (by decide) (.cons (by decide)
        (.cons (hdigits _ hhigh) (.cons (hdigits _ hlow) hnil)))))
    · next hprintable => exact .cons (Nat.le_of_not_lt hprintable) hnil

theorem printable_quote (s : String) : Printable (JsonString.quote s) := by
  refine .cons (by decide) (.append (fun c hc => ?_) (.cons (by decide) (List.forall_mem_nil _)))
  obtain ⟨c', -, hc⟩ := List.mem_flatMap.mp hc
  exact printable_escape c' c hc

theorem printable_jsonText (n : Number) : Printable n.jsonText := by
  have hmagnitude : ∀ v, Printable (Number.magnitudeText v) := by
    intro v c hc
    rcases Number.mem_magnitudeText hc with hdigit | hsign
    · exact Nat.le_trans (by decide) (Char.isDigit_iff_toNat.mp hdigit).1
    · simp only [List.mem_cons, List.not_mem_nil, or_false] at hsign
      rcases hsign with rfl | rfl | rfl | rfl <;> decide
  have hnull : Printable "null".toList := printable_of_all (by decide)
  cases n with
  | finite v =>
      unfold Number.jsonText
      dsimp only
      split
      · exact .cons (by decide) (hmagnitude _)
      · exact hmagnitude v
  | _ => exact hnull

theorem printable_listText {close : Char} (hclose : 0x20 ≤ close.toNat)
    {ts : List (List Char)} (h : ∀ t ∈ ts, Printable t) : Printable (listText close ts) := by
  have hrest : ∀ ts : List (List Char), (∀ t ∈ ts, Printable t) →
      Printable (restText close ts) := by
    intro ts h
    induction ts with
    | nil => exact .cons hclose (List.forall_mem_nil _)
    | cons t ts ih =>
        obtain ⟨ht, hts⟩ := List.forall_mem_cons.mp h
        exact .cons (by decide) (ht.append (ih hts))
  cases ts with
  | nil => exact .cons hclose (List.forall_mem_nil _)
  | cons t ts =>
      obtain ⟨ht, hts⟩ := List.forall_mem_cons.mp h
      exact ht.append (hrest ts hts)

mutual

/-- A text has no control character. -/
theorem printable_text : (v : Json) → Printable v.text
  | .null => printable_of_all (by decide)
  | .bool true => printable_of_all (by decide)
  | .bool false => printable_of_all (by decide)
  | .num n => printable_jsonText n
  | .str s => printable_quote s
  | .arr items => .cons (by decide) (printable_listText (by decide) (printable_itemTexts items))
  | .obj fields => .cons (by decide) (printable_listText (by decide) (printable_fieldTexts fields))

theorem printable_itemTexts : (items : List Json) → ∀ t ∈ itemTexts items, Printable t
  | [] => List.forall_mem_nil _
  | v :: items => List.forall_mem_cons.mpr ⟨printable_text v, printable_itemTexts items⟩

theorem printable_fieldTexts :
    (fields : List (String × Json)) → ∀ t ∈ fieldTexts fields, Printable t
  | [] => List.forall_mem_nil _
  | (key, v) :: fields =>
      List.forall_mem_cons.mpr
        ⟨(printable_quote key).append (.cons (by decide) (printable_text v)),
          printable_fieldTexts fields⟩

end

/-! ## Parsing -/

/-- The white space of JSON. -/
def isSpace (c : Char) : Bool := c = ' ' || c = '\t' || c = '\n' || c = '\r'

/-- The first character that is not white space, and what follows it. -/
def next (cs : List Char) : Option (Char × List Char) :=
  match cs.dropWhile isSpace with
  | [] => none
  | c :: cs => some (c, cs)

/-- The rest of a keyword. -/
def keyword (letters : List Char) (v : Json) (cs : List Char) : Option (Json × List Char) :=
  if letters.isPrefixOf cs then some (v, cs.drop letters.length) else none

section Lists

variable {α : Type} (close : Char) (p : List Char → Option (α × List Char))

/-- The elements after the first, up to the closing bracket.  The number bounds how many
there are. -/
def parseRest : ℕ → List Char → Option (List α × List Char)
  | 0, _ => none
  | fuel + 1, cs => do
      let (c, cs) ← next cs
      if c = close then return ([], cs)
      if c = ',' then
        let (a, cs) ← p cs
        let (rest, cs) ← parseRest fuel cs
        return (a :: rest, cs)
      none

/-- The elements after the opening bracket. -/
def parseList (fuel : ℕ) (cs : List Char) : Option (List α × List Char) := do
  let (c, cs') ← next cs
  if c = close then return ([], cs')
  let (a, cs) ← p cs
  let (rest, cs) ← parseRest close p fuel cs
  return (a :: rest, cs)

end Lists

/-- A key with its value. -/
def parseField (p : List Char → Option (Json × List Char)) (cs : List Char) :
    Option ((String × Json) × List Char) := do
  let (c, cs) ← next cs
  if c = '"' then
    let (key, cs) ← JsonString.parse cs
    let (c, cs) ← next cs
    if c = ':' then
      let (v, cs) ← p cs
      return ((key, v), cs)
  none

/-- A value.  The number bounds how deep the value is and how long its lists are. -/
def parseValue : ℕ → List Char → Option (Json × List Char)
  | 0, _ => none
  | fuel + 1, cs => do
      let (c, cs) ← next cs
      if c = '"' then (JsonString.parse cs).map fun r => (.str r.1, r.2)
      else if c = '[' then
        (parseList ']' (parseValue fuel) fuel cs).map fun r => (.arr r.1, r.2)
      else if c = '{' then
        (parseList '}' (parseField (parseValue fuel)) fuel cs).map fun r =>
          (.obj (OwnKeys.ofEntries r.1), r.2)
      else if c = 'n' then keyword "ull".toList .null cs
      else if c = 't' then keyword "rue".toList (.bool true) cs
      else if c = 'f' then keyword "alse".toList (.bool false) cs
      else (Number.parse (c :: cs)).map fun r => (.num r.1, r.2)

/-- `JSON.parse`, `none` where it throws. -/
def parse (s : String) : Option Json := do
  let (v, rest) ← parseValue (s.toList.length + 1) s.toList
  if rest.all isSpace then return v
  none

/-! ## What is parsed -/

/-- Every number has double precision, and the keys of every object are in order. -/
inductive WellFormed : Json → Prop where
  | null : WellFormed .null
  | bool (b : Bool) : WellFormed (.bool b)
  | num {n : Number} (hn : n.IsDouble) : WellFormed (.num n)
  | str (s : String) : WellFormed (.str s)
  | arr {items : List Json} (hitems : ∀ v ∈ items, WellFormed v) : WellFormed (.arr items)
  | obj {fields : List (String × Json)} (hordered : OwnKeys.Ordered fields)
      (hfields : ∀ f ∈ fields, WellFormed f.2) : WellFormed (.obj fields)

section Lists

variable {α : Type} {close : Char} {p : List Char → Option (α × List Char)} {P : α → Prop}

/-- The rest of a list is over, or goes on with a comma and an element. -/
theorem parseRest_eq_some {fuel : ℕ} {cs rest : List Char} {as : List α}
    (h : parseRest close p (fuel + 1) cs = some (as, rest)) :
    ∃ c cs', next cs = some (c, cs') ∧ ((as = [] ∧ rest = cs') ∨ ∃ a cs₁ as',
      as = a :: as' ∧ p cs' = some (a, cs₁) ∧ parseRest close p fuel cs₁ = some (as', rest)) := by
  simp only [parseRest, Option.bind_eq_bind, Option.bind_eq_some_iff] at h
  obtain ⟨⟨c, cs'⟩, hnext, h⟩ := h
  refine ⟨c, cs', hnext, ?_⟩
  split at h
  · cases h
    exact .inl ⟨rfl, rfl⟩
  · split at h
    · simp only [Option.bind_eq_some_iff] at h
      obtain ⟨⟨a, cs₁⟩, ha, ⟨as', cs₂⟩, has, h⟩ := h
      cases h
      exact .inr ⟨a, cs₁, as', rfl, ha, has⟩
    · cases h

/-- A list is empty, or starts with an element. -/
theorem parseList_eq_some {fuel : ℕ} {cs rest : List Char} {as : List α}
    (h : parseList close p fuel cs = some (as, rest)) :
    (as = [] ∧ ∃ c, next cs = some (c, rest)) ∨ ∃ a cs₁ as',
      as = a :: as' ∧ p cs = some (a, cs₁) ∧ parseRest close p fuel cs₁ = some (as', rest) := by
  simp only [parseList, Option.bind_eq_bind, Option.bind_eq_some_iff] at h
  obtain ⟨⟨c, cs'⟩, hnext, h⟩ := h
  split at h
  · cases h
    exact .inl ⟨rfl, c, hnext⟩
  · simp only [Option.bind_eq_some_iff] at h
    obtain ⟨⟨a, cs₁⟩, ha, ⟨as', cs₂⟩, has, h⟩ := h
    cases h
    exact .inr ⟨a, cs₁, as', rfl, ha, has⟩

/-- The elements of a list are what the parser of elements gives. -/
theorem forall_of_parseRest (hp : ∀ {cs a rest}, p cs = some (a, rest) → P a) {fuel : ℕ}
    {cs rest : List Char} {as : List α} (h : parseRest close p fuel cs = some (as, rest)) :
    ∀ a ∈ as, P a := by
  induction fuel generalizing cs as with
  | zero => cases h
  | succ fuel ih =>
      obtain ⟨c, cs', -, ⟨rfl, -⟩ | ⟨a, cs₁, as', rfl, ha, has⟩⟩ := parseRest_eq_some h
      · simp
      · exact List.forall_mem_cons.mpr ⟨hp ha, ih has⟩

theorem forall_of_parseList (hp : ∀ {cs a rest}, p cs = some (a, rest) → P a) {fuel : ℕ}
    {cs rest : List Char} {as : List α} (h : parseList close p fuel cs = some (as, rest)) :
    ∀ a ∈ as, P a := by
  obtain ⟨rfl, -⟩ | ⟨a, cs₁, as', rfl, ha, has⟩ := parseList_eq_some h
  · simp
  · exact List.forall_mem_cons.mpr ⟨hp ha, forall_of_parseRest hp has⟩

end Lists

/-- How a value starts, and what it is. -/
inductive Parsed (fuel : ℕ) (c : Char) (cs : List Char) : Json → List Char → Prop where
  | str {s : String} {rest : List Char} (h : JsonString.parse cs = some (s, rest)) :
      Parsed fuel c cs (.str s) rest
  | arr {items : List Json} {rest : List Char}
      (h : parseList ']' (parseValue fuel) fuel cs = some (items, rest)) :
      Parsed fuel c cs (.arr items) rest
  | obj {fields : List (String × Json)} {rest : List Char}
      (h : parseList '}' (parseField (parseValue fuel)) fuel cs = some (fields, rest)) :
      Parsed fuel c cs (.obj (OwnKeys.ofEntries fields)) rest
  | keyword {letters : List Char} {v : Json} {rest : List Char} (hv : v.WellFormed)
      (h : keyword letters v cs = some (v, rest)) : Parsed fuel c cs v rest
  | num {n : Number} {rest : List Char} (h : Number.parse (c :: cs) = some (n, rest)) :
      Parsed fuel c cs (.num n) rest

theorem eq_of_keyword {letters cs rest : List Char} {v v' : Json}
    (h : keyword letters v cs = some (v', rest)) : v' = v ∧ rest.length ≤ cs.length := by
  unfold keyword at h
  split at h
  · cases h
    exact ⟨rfl, by simp⟩
  · cases h

theorem parsed_of_parseValue {fuel : ℕ} {cs rest : List Char} {v : Json}
    (h : parseValue (fuel + 1) cs = some (v, rest)) :
    ∃ c cs', next cs = some (c, cs') ∧ Parsed fuel c cs' v rest := by
  simp only [parseValue, Option.bind_eq_bind, Option.bind_eq_some_iff] at h
  obtain ⟨⟨c, cs'⟩, hnext, h⟩ := h
  refine ⟨c, cs', hnext, ?_⟩
  split at h
  · obtain ⟨r, hr, heq⟩ := Option.map_eq_some_iff.mp h
    cases heq
    exact .str hr
  · split at h
    · obtain ⟨r, hr, heq⟩ := Option.map_eq_some_iff.mp h
      cases heq
      exact .arr hr
    · split at h
      · obtain ⟨r, hr, heq⟩ := Option.map_eq_some_iff.mp h
        cases heq
        exact .obj hr
      · have hkeyword : ∀ {letters : List Char} {w : Json}, w.WellFormed →
            keyword letters w cs' = some (v, rest) → Parsed fuel c cs' v rest := by
          intro letters w hw hword
          obtain ⟨rfl, -⟩ := eq_of_keyword hword
          exact .keyword hw hword
        split at h
        · exact hkeyword .null h
        · split at h
          · exact hkeyword (.bool true) h
          · split at h
            · exact hkeyword (.bool false) h
            · obtain ⟨r, hr, heq⟩ := Option.map_eq_some_iff.mp h
              cases heq
              exact .num hr

theorem next_length {cs cs' : List Char} {c : Char} (h : next cs = some (c, cs')) :
    cs'.length < cs.length := by
  unfold next at h
  split at h
  · cases h
  · next heq =>
    cases h
    have hle := (List.dropWhile_suffix isSpace (l := cs)).length_le
    rw [heq, List.length_cons] at hle
    omega

/-- The value of a field is parsed by the parser of values. -/
theorem parseField_eq_some {p : List Char → Option (Json × List Char)} {cs rest : List Char}
    {f : String × Json} (h : parseField p cs = some (f, rest)) :
    ∃ cs', cs'.length < cs.length ∧ p cs' = some (f.2, rest) := by
  simp only [parseField, Option.bind_eq_bind, Option.bind_eq_some_iff] at h
  obtain ⟨⟨c, cs₁⟩, hnext, h⟩ := h
  split at h
  · simp only [Option.bind_eq_some_iff] at h
    obtain ⟨⟨key, cs₂⟩, hkey, ⟨c', cs₃⟩, hnext', h⟩ := h
    split at h
    · simp only [Option.bind_eq_some_iff] at h
      obtain ⟨⟨v, cs₄⟩, hv, h⟩ := h
      cases h
      refine ⟨cs₃, ?_, hv⟩
      have h₁ : cs₁.length < cs.length := next_length hnext
      have h₂ : cs₂.length < cs₁.length := JsonString.parse_length hkey
      have h₃ : cs₃.length < cs₂.length := next_length hnext'
      omega
    · cases h
  · cases h

/-- What is parsed is well formed. -/
theorem wellFormed_parseValue {fuel : ℕ} {cs rest : List Char} {v : Json}
    (h : parseValue fuel cs = some (v, rest)) : v.WellFormed := by
  induction fuel generalizing cs v rest with
  | zero => cases h
  | succ fuel ih =>
      obtain ⟨c, cs', -, hparsed⟩ := parsed_of_parseValue h
      cases hparsed with
      | str h => exact .str _
      | arr h => exact .arr (forall_of_parseList ih h)
      | obj h =>
          refine .obj (OwnKeys.ordered_ofEntries _) fun f hf => ?_
          refine forall_of_parseList (P := fun f => f.2.WellFormed) ?_ h f
            (OwnKeys.mem_ofEntries hf)
          intro cs f rest hfield
          obtain ⟨cs', -, hv⟩ := parseField_eq_some hfield
          exact ih hv
      | keyword hv h => exact hv
      | num h => exact .num (Number.isDouble_parse h)

theorem wellFormed_parse {s : String} {v : Json} (h : parse s = some v) : v.WellFormed := by
  simp only [parse, Option.bind_eq_bind, Option.bind_eq_some_iff] at h
  obtain ⟨⟨v', rest⟩, hv, h⟩ := h
  split at h
  · cases h
    exact wellFormed_parseValue hv
  · cases h

/-! ## The bound on the recursion is never reached -/

section Lists

variable {α : Type} {close : Char} {p p' : List Char → Option (α × List Char)}

/-- The rest of a list is not empty, if no element is. -/
theorem parseRest_length
    (hp : ∀ {cs a rest}, p cs = some (a, rest) → rest.length < cs.length) {fuel : ℕ}
    {cs rest : List Char} {as : List α} (h : parseRest close p fuel cs = some (as, rest)) :
    rest.length < cs.length := by
  induction fuel generalizing cs as with
  | zero => cases h
  | succ fuel ih =>
      obtain ⟨c, cs', hnext, ⟨-, rfl⟩ | ⟨a, cs₁, as', -, ha, has⟩⟩ := parseRest_eq_some h
      · exact next_length hnext
      · exact (ih has).trans ((hp ha).trans (next_length hnext))

theorem parseList_length
    (hp : ∀ {cs a rest}, p cs = some (a, rest) → rest.length < cs.length) {fuel : ℕ}
    {cs rest : List Char} {as : List α} (h : parseList close p fuel cs = some (as, rest)) :
    rest.length < cs.length := by
  obtain ⟨-, c, hnext⟩ | ⟨a, cs₁, as', -, ha, has⟩ := parseList_eq_some h
  · exact next_length hnext
  · exact (parseRest_length hp has).trans (hp ha)

/-- Parsers that agree on the texts below a length parse the same rest of a list there. -/
theorem parseRest_congr (hlen : ∀ {cs a rest}, p cs = some (a, rest) → rest.length < cs.length)
    {k : ℕ} (hp : ∀ cs, cs.length < k → p cs = p' cs) (fuel fuel' : ℕ) {cs : List Char}
    (hfuel : cs.length < fuel) (hfuel' : cs.length < fuel') (hk : cs.length ≤ k) :
    parseRest close p fuel cs = parseRest close p' fuel' cs := by
  induction fuel generalizing fuel' cs with
  | zero => omega
  | succ fuel ih =>
      cases fuel' with
      | zero => omega
      | succ fuel' =>
          cases hnext : next cs with
          | none => simp [parseRest, hnext]
          | some r =>
              obtain ⟨c, cs'⟩ := r
              have h₁ := next_length hnext
              simp only [parseRest, hnext, Option.bind_eq_bind, Option.bind_some]
              rw [← hp cs' (by omega)]
              cases ha : p cs' with
              | none => rfl
              | some r =>
                  obtain ⟨a, cs₁⟩ := r
                  have h₂ := hlen ha
                  simp only [Option.bind_some]
                  rw [ih fuel' (by omega) (by omega) (by omega)]

theorem parseList_congr (hlen : ∀ {cs a rest}, p cs = some (a, rest) → rest.length < cs.length)
    {k : ℕ} (hp : ∀ cs, cs.length < k → p cs = p' cs) (fuel fuel' : ℕ) {cs : List Char}
    (hfuel : cs.length ≤ fuel) (hfuel' : cs.length ≤ fuel') (hk : cs.length < k) :
    parseList close p fuel cs = parseList close p' fuel' cs := by
  unfold parseList
  rw [← hp cs hk]
  cases ha : p cs with
  | none => rfl
  | some r =>
      obtain ⟨a, cs₁⟩ := r
      have h₁ := hlen ha
      simp only [Option.bind_eq_bind, Option.bind_some]
      rw [parseRest_congr hlen hp fuel fuel' (by omega) (by omega) (by omega)]

end Lists

theorem parseField_length {p : List Char → Option (Json × List Char)}
    (hp : ∀ {cs v rest}, p cs = some (v, rest) → rest.length < cs.length) {cs rest : List Char}
    {f : String × Json} (h : parseField p cs = some (f, rest)) : rest.length < cs.length := by
  obtain ⟨cs', hlt, hv⟩ := parseField_eq_some h
  exact (hp hv).trans hlt

theorem parseField_congr {p p' : List Char → Option (Json × List Char)} {k : ℕ}
    (hp : ∀ cs, cs.length < k → p cs = p' cs) {cs : List Char} (hk : cs.length ≤ k) :
    parseField p cs = parseField p' cs := by
  unfold parseField
  cases hnext : next cs with
  | none => rfl
  | some r =>
      obtain ⟨c, cs₁⟩ := r
      have h₁ := next_length hnext
      simp only [Option.bind_eq_bind, Option.bind_some]
      cases hkey : JsonString.parse cs₁ with
      | none => rfl
      | some r =>
          obtain ⟨key, cs₂⟩ := r
          have h₂ := JsonString.parse_length hkey
          simp only [Option.bind_some]
          cases hnext' : next cs₂ with
          | none => rfl
          | some r =>
              obtain ⟨c', cs₃⟩ := r
              have h₃ := next_length hnext'
              simp only [Option.bind_some]
              rw [hp cs₃ (by omega)]

/-- A value is not empty. -/
theorem parseValue_length {fuel : ℕ} {cs rest : List Char} {v : Json}
    (h : parseValue fuel cs = some (v, rest)) : rest.length < cs.length := by
  induction fuel generalizing cs v rest with
  | zero => cases h
  | succ fuel ih =>
      obtain ⟨c, cs', hnext, hparsed⟩ := parsed_of_parseValue h
      have hlt := next_length hnext
      cases hparsed with
      | str h => exact (JsonString.parse_length h).trans hlt
      | arr h => exact (parseList_length ih h).trans hlt
      | obj h => exact (parseList_length (parseField_length ih) h).trans hlt
      | keyword hv h => exact (eq_of_keyword h).2.trans_lt hlt
      | num h =>
          have hle := Number.parse_length h
          rw [List.length_cons] at hle
          omega

/-- A text is parsed the same with any bound above its length. -/
theorem parseValue_congr (fuel fuel' : ℕ) {cs : List Char} (hfuel : cs.length < fuel)
    (hfuel' : cs.length < fuel') : parseValue fuel cs = parseValue fuel' cs := by
  induction fuel generalizing fuel' cs with
  | zero => omega
  | succ fuel ih =>
      cases fuel' with
      | zero => omega
      | succ fuel' =>
          have hp : ∀ cs', cs'.length < cs.length → parseValue fuel cs' = parseValue fuel' cs' :=
            fun cs' hlt => ih fuel' (by omega) (by omega)
          simp only [parseValue]
          cases hnext : next cs with
          | none => simp only [Option.bind_eq_bind, Option.bind_none]
          | some r =>
              obtain ⟨c, cs'⟩ := r
              have hlt := next_length hnext
              simp only [Option.bind_eq_bind, Option.bind_some]
              rw [parseList_congr parseValue_length hp fuel fuel' (by omega) (by omega) hlt,
                parseList_congr (parseField_length parseValue_length)
                  (fun cs' hlt' => parseField_congr hp hlt'.le) fuel fuel' (by omega) (by omega)
                  hlt]

end Json

end L0Worker
