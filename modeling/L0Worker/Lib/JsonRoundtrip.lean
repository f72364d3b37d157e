import L0Worker.Lib.JsonText

/-!
# What is printed is parsed

Parsing the text of a value gives the value back (`parse_stringify`), up to the numbers that
are not finite, which are printed as `null`.  Each element of a list is read up to the comma
or the bracket that follows it, and a numeral ends there.
-/

namespace L0Worker

namespace Json

@[simp] theorem next_cons {c : Char} {cs : List Char} (h : isSpace c = false) :
    next (c :: cs) = some (c, cs) := by
  simp [next, h]

section Lists

variable {α : Type} {close : Char} {p : List Char → Option (α × List Char)}

/-- An element is printed as this text and parsed as this value. -/
def Reads (p : List Char → Option (α × List Char)) (close : Char) (t : List Char) (a : α) : Prop :=
  (∃ c cs, t = c :: cs ∧ isSpace c = false ∧ c ≠ close) ∧
    ∀ rest, Decimal.Ends rest → p (t ++ rest) = some (a, rest)

/-- A numeral ends before a comma or a bracket. -/
theorem ends_cons {c : Char} {cs : List Char} (h : c = ',' ∨ c = ']' ∨ c = '}') :
    Decimal.Ends (c :: cs) := by
  intro c' hc'
  obtain rfl : c = c' := by simpa using hc'
  rcases h with rfl | rfl | rfl
  · decide
  · decide
  · decide

theorem ends_restText (hclose : close = ']' ∨ close = '}') (ts : List (List Char))
    (rest : List Char) : Decimal.Ends (restText close ts ++ rest) := by
  cases ts with
  | nil => exact ends_cons (.inr hclose)
  | cons t ts => exact ends_cons (.inl rfl)

/-- The rest of a list is parsed, if its elements are. -/
theorem parseRest_restText (hclose : close = ']' ∨ close = '}') {ts : List (List Char)}
    {as : List α} (h : List.Forall₂ (Reads p close) ts as) (rest : List Char) (fuel : ℕ)
    (hfuel : ts.length < fuel) :
    parseRest close p fuel (restText close ts ++ rest) = some (as, rest) := by
  have hspace : isSpace close = false := by
    rcases hclose with rfl | rfl
    · decide
    · decide
  have hcomma : ',' ≠ close := by
    rcases hclose with rfl | rfl
    · decide
    · decide
  induction h generalizing fuel with
  | nil =>
      cases fuel with
      | zero => omega
      | succ fuel => simp [restText, parseRest, hspace]
  | @cons t a ts as ht _ ih =>
      cases fuel with
      | zero => omega
      | succ fuel =>
          have hlt : ts.length < fuel := by simpa using hfuel
          have hcommaSpace : isSpace ',' = false := by decide
          simp [restText, parseRest, hcommaSpace, hcomma, ht.2 _ (ends_restText hclose ts rest),
            ih fuel hlt]

/-- A list is parsed, if its elements are. -/
theorem parseList_listText (hclose : close = ']' ∨ close = '}') {ts : List (List Char)}
    {as : List α} (h : List.Forall₂ (Reads p close) ts as) (rest : List Char) (fuel : ℕ)
    (hfuel : ts.length ≤ fuel) :
    parseList close p fuel (listText close ts ++ rest) = some (as, rest) := by
  cases h with
  | nil =>
      have hspace : isSpace close = false := by
        rcases hclose with rfl | rfl
        · decide
        · decide
      simp [listText, parseList, hspace]
  | @cons t a ts as ht hts =>
      obtain ⟨⟨c, cs, rfl, hspace, hc⟩, hparse⟩ := ht
      have helem := hparse _ (ends_restText hclose ts rest)
      have hrest := parseRest_restText hclose hts rest fuel hfuel
      rw [List.cons_append] at helem
      simp [listText, parseList, hspace, hc, helem, hrest]

/-- An element is no longer than its list, and there are no more of them than characters. -/
theorem length_restText (close : Char) (ts : List (List Char)) :
    ts.length < (restText close ts).length ∧
      ∀ t ∈ ts, t.length < (restText close ts).length := by
  induction ts with
  | nil => simp [restText]
  | cons t ts ih =>
      obtain ⟨hcount, helem⟩ := ih
      simp only [restText, List.length_cons, List.length_append, List.forall_mem_cons]
      refine ⟨by omega, by omega, fun t' ht' => ?_⟩
      have hlt := helem t' ht'
      omega

theorem length_listText (close : Char) (ts : List (List Char)) :
    ts.length ≤ (listText close ts).length ∧
      ∀ t ∈ ts, t.length ≤ (listText close ts).length := by
  cases ts with
  | nil => simp [listText]
  | cons t ts =>
      obtain ⟨hcount, helem⟩ := length_restText close ts
      simp only [listText, List.length_cons, List.length_append, List.forall_mem_cons]
      refine ⟨by omega, by omega, fun t' ht' => ?_⟩
      have hlt := helem t' ht'
      omega

end Lists

/-- A field is printed and parsed, if its value is. -/
theorem reads_field {p : List Char → Option (Json × List Char)} {f : String × Json} {v : Json}
    (h : ∀ rest, Decimal.Ends rest → p (f.2.text ++ rest) = some (v, rest)) :
    Reads (parseField p) '}' (fieldText f) (f.1, v) := by
  have hquote : isSpace '"' = false := by decide
  have hcolon : isSpace ':' = false := by decide
  refine ⟨⟨'"', _, rfl, hquote, by decide⟩, fun rest hrest => ?_⟩
  obtain ⟨cs, hcs, hkey⟩ := JsonString.parse_quote f.1 (':' :: (f.2.text ++ rest))
  have htext : fieldText f ++ rest = '"' :: cs := by
    rw [← hcs]
    simp [fieldText]
  simp [htext, parseField, hquote, hkey, hcolon, h rest hrest]

/-- A numeral starts like no other value. -/
theorem head_numeral {c : Char} (h : c = '-' ∨ c.isDigit = true) :
    isSpace c = false ∧ ∀ c' ∈ ['"', '[', '{', 'n', 't', 'f', ']'], c ≠ c' := by
  have hne : ∀ c' : Char, c' ≠ '-' ∧ c'.isDigit = false → c ≠ c' := by
    rintro c' ⟨hsign, hdigit⟩ rfl
    rcases h with rfl | h
    · exact hsign rfl
    · rw [h] at hdigit
      cases hdigit
  constructor
  · simp [isSpace, hne ' ' (by decide), hne '\t' (by decide), hne '\n' (by decide),
      hne '\r' (by decide)]
  · simp [hne '"' (by decide), hne '[' (by decide), hne '{' (by decide), hne 'n' (by decide),
      hne 't' (by decide), hne 'f' (by decide), hne ']' (by decide)]

section FirstCharacter

variable (fuel : ℕ) (cs : List Char)

theorem parseValue_string : parseValue (fuel + 1) ('"' :: cs) =
    (JsonString.parse cs).map fun r => (.str r.1, r.2) := rfl

theorem parseValue_array : parseValue (fuel + 1) ('[' :: cs) =
    (parseList ']' (parseValue fuel) fuel cs).map fun r => (.arr r.1, r.2) := rfl

theorem parseValue_object : parseValue (fuel + 1) ('{' :: cs) =
    (parseList '}' (parseField (parseValue fuel)) fuel cs).map fun r =>
      (.obj (OwnKeys.ofEntries r.1), r.2) := rfl

end FirstCharacter

theorem reads_null (fuel : ℕ) : Reads (parseValue (fuel + 1)) ']' null.text null :=
  ⟨⟨'n', _, rfl, by decide, by decide⟩, fun _ _ => rfl⟩

/-- A number is parsed from its text. -/
theorem reads_num {n : Number} (hn : n.IsDouble) (fuel : ℕ) :
    Reads (parseValue (fuel + 1)) ']' n.jsonText (ofNumber n) := by
  cases n with
  | finite v =>
      have hend : Decimal.Ends [] := by simp [Decimal.Ends]
      obtain ⟨c, cs, hcs, hnumeral, -⟩ := Number.parse_jsonText hn hend
      obtain ⟨hspace, hne⟩ := head_numeral hnumeral
      rw [List.append_nil] at hcs
      refine ⟨⟨c, cs, hcs, hspace, hne ']' (by simp)⟩, fun rest hrest => ?_⟩
      obtain ⟨c, cs, hcs, hnumeral, hparse⟩ := Number.parse_jsonText hn hrest
      obtain ⟨hspace, hne⟩ := head_numeral hnumeral
      simp only [List.forall_mem_cons] at hne
      obtain ⟨h₁, h₂, h₃, h₄, h₅, h₆, -⟩ := hne
      simp [hcs, parseValue, hspace, h₁, h₂, h₃, h₄, h₅, h₆, hparse, ofNumber, Number.isFinite]
  -- the other numbers are printed as `null`
  | _ => exact reads_null fuel

/-- A value is parsed from its text. -/
theorem reads_text {v : Json} (h : v.WellFormed) {fuel : ℕ} (hfuel : v.text.length ≤ fuel) :
    Reads (parseValue (fuel + 1)) ']' v.text v.wire := by
  induction h generalizing fuel with
  | null => exact reads_null fuel
  | bool b =>
      cases b with
      | true => exact ⟨⟨'t', _, rfl, by decide, by decide⟩, fun _ _ => rfl⟩
      | false => exact ⟨⟨'f', _, rfl, by decide, by decide⟩, fun _ _ => rfl⟩
  | num hn => exact reads_num hn fuel
  | str s =>
      refine ⟨⟨'"', _, rfl, by decide, by decide⟩, fun rest _ => ?_⟩
      obtain ⟨cs, hcs, hparse⟩ := JsonString.parse_quote s rest
      show parseValue (fuel + 1) (JsonString.quote s ++ rest) = some (.str s, rest)
      rw [hcs, parseValue_string, hparse]
      rfl
  | @arr items hitems ih =>
      refine ⟨⟨'[', _, rfl, by decide, by decide⟩, fun rest _ => ?_⟩
      obtain ⟨hcount, helem⟩ := length_listText ']' (items.map text)
      simp only [text, itemTexts_eq, List.length_cons] at hfuel
      have hforall : List.Forall₂ (Reads (parseValue fuel) ']') (items.map text)
          (items.map wire) := by
        rw [List.forall₂_map_left_iff, List.forall₂_map_right_iff, List.forall₂_same]
        intro v hv
        have hlength := helem v.text (List.mem_map_of_mem hv)
        obtain ⟨k, rfl⟩ : ∃ k, fuel = k + 1 := ⟨fuel - 1, by omega⟩
        exact ih v hv (by omega)
      have hlist := parseList_listText (.inl rfl) hforall rest fuel (by omega)
      rw [text, wire, itemTexts_eq, wireItems_eq, List.cons_append, parseValue_array, hlist]
      rfl
  | @obj fields hordered hfields ih =>
      refine ⟨⟨'{', _, rfl, by decide, by decide⟩, fun rest _ => ?_⟩
      obtain ⟨hcount, helem⟩ := length_listText '}' (fields.map fieldText)
      simp only [text, fieldTexts_eq, List.length_cons] at hfuel
      have hforall : List.Forall₂ (Reads (parseField (parseValue fuel)) '}')
          (fields.map fieldText) (fields.map fun f => (f.1, f.2.wire)) := by
        rw [List.forall₂_map_left_iff, List.forall₂_map_right_iff, List.forall₂_same]
        intro f hf
        have hlength := helem (fieldText f) (List.mem_map_of_mem hf)
        obtain ⟨k, rfl⟩ : ∃ k, fuel = k + 1 := ⟨fuel - 1, by omega⟩
        simp only [fieldText, List.length_append, List.length_cons] at hlength
        exact reads_field (ih f hf (by omega)).2
      have hlist := parseList_listText (.inr rfl) hforall rest fuel (by omega)
      -- Printing does not change the keys.
      have hkeys : OwnKeys.Ordered (fields.map fun f => (f.1, f.2.wire)) :=
        List.pairwise_map.mpr hordered
      rw [text, wire, fieldTexts_eq, wireFields_eq, List.cons_append, parseValue_object, hlist,
        Option.map_some, OwnKeys.ofEntries_of_ordered hkeys]

/-- What was printed is parsed as the value it stands for. -/
theorem parse_stringify {v : Json} (h : v.WellFormed) : parse (stringify v) = some v.wire := by
  have hreads := (reads_text h le_rfl).2 [] (by simp [Decimal.Ends])
  rw [List.append_nil] at hreads
  have htext : (stringify v).toList = v.text := String.toList_ofList
  unfold parse
  rw [htext, hreads]
  rfl

end Json

end L0Worker
