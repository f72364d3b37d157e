import L0Worker.Worker.Canonical

/-!
# What the canonical form loses

Do payloads that differ have different hashes?  `sortKeys` copies the fields of an object
by plain assignment, and assigning to `__proto__` sets the prototype, so a field with this
name is dropped; and `JSON.stringify` writes `null` for the infinite numbers that
`JSON.parse` makes of large numerals.

`kept` is what is left of a value.  Two values have one canonical text exactly when what is
kept of them is equal up to the order of keys (`text_eq_iff`).
-/

namespace L0Worker.Worker

mutual

/-- The value without fields named `__proto__`, and with `null` for numbers that are not
finite. -/
def kept : Json → Json
  | .num n => Json.ofNumber n
  | .arr items => .arr (keptItems items)
  | .obj fields => .obj (keptFields fields)
  | v => v

def keptItems : List Json → List Json
  | [] => []
  | v :: items => kept v :: keptItems items

def keptFields : List (String × Json) → List (String × Json)
  | [] => []
  | (key, v) :: fields =>
      if key = "__proto__" then keptFields fields else (key, kept v) :: keptFields fields

end

@[simp] theorem keptItems_eq (items : List Json) : keptItems items = items.map kept := by
  induction items with
  | nil => rfl
  | cons v items ih => simp [keptItems, ih]

theorem keptFields_keys (fields : List (String × Json)) :
    (keptFields fields).map Prod.fst = (fields.map Prod.fst).filter (· ≠ "__proto__") := by
  induction fields with
  | nil => rfl
  | cons f fields ih =>
      obtain ⟨key, v⟩ := f
      by_cases hkey : key = "__proto__"
      · rw [keptFields, if_pos hkey, ih, List.map_cons,
          List.filter_cons_of_neg (by simpa using hkey)]
      · rw [keptFields, if_neg hkey, List.map_cons, ih, List.map_cons,
          List.filter_cons_of_pos (by simpa using hkey)]

theorem lookup_keptFields (fields : List (String × Json)) (key : String) :
    (keptFields fields).lookup key =
      if key = "__proto__" then none else (fields.lookup key).map kept := by
  induction fields with
  | nil =>
      split
      · rfl
      · rfl
  | cons f fields ih =>
      obtain ⟨key', v⟩ := f
      by_cases hkey' : key' = "__proto__"
      · rw [keptFields, if_pos hkey', ih]
        split
        · rfl
        · next hkey =>
          rw [List.lookup_cons, beq_eq_false_iff_ne.mpr fun heq => hkey (heq.trans hkey')]
      · rw [keptFields, if_neg hkey', List.lookup_cons, List.lookup_cons, ih]
        cases hbeq : key == key' with
        | true =>
            have hkey : key ≠ "__proto__" := fun hkey => hkey' ((eq_of_beq hbeq).symm.trans hkey)
            simp only [if_neg hkey]
            rfl
        | false => rfl

/-! ## Assigning in sorted order -/

theorem lookup_setField {α : Type} (key : String) (value : α) (fields : List (String × α))
    (key' : String) :
    (OwnKeys.setField key value fields).lookup key' =
      if key' = key then some value else fields.lookup key' := by
  induction fields with
  | nil =>
      rw [OwnKeys.setField, List.lookup_cons]
      split
      · next hbeq => rw [if_pos (eq_of_beq hbeq)]
      · next hbeq => rw [if_neg (ne_of_beq_false hbeq)]
  | cons f fields ih =>
      unfold OwnKeys.setField
      split
      · next hf =>
        rw [List.lookup_cons, List.lookup_cons, hf]
        cases hbeq : key' == key with
        | true => rw [if_pos (eq_of_beq hbeq)]
        | false => rw [if_neg (ne_of_beq_false hbeq)]
      · next hf =>
        split
        · rw [List.lookup_cons]
          cases hbeq : key' == key with
          | true => rw [if_pos (eq_of_beq hbeq)]
          | false => rw [if_neg (ne_of_beq_false hbeq)]
        · rw [List.lookup_cons, List.lookup_cons, ih]
          cases hbeq : key' == f.1 with
          | true =>
              have hne : key' ≠ key := fun heq => hf ((eq_of_beq hbeq).symm.trans heq)
              simp only [if_neg hne]
          | false => rfl

theorem lookup_assignKey (fields sorted : List (String × Json)) (key key' : String) :
    (assignKey fields sorted key).lookup key' =
      if key' = key ∧ key ≠ "__proto__" then (fields.lookup key).or (sorted.lookup key')
      else sorted.lookup key' := by
  unfold assignKey assign
  cases fields.lookup key with
  | none => simp
  | some v =>
      by_cases hkey : key = "__proto__"
      · simp [hkey]
      · simp [hkey, lookup_setField]

/-- The values of the keys are those of the fields, apart from `__proto__`. -/
theorem lookup_foldl_assignKey (fields : List (String × Json)) (keys : List String)
    (sorted : List (String × Json)) (key : String) :
    (keys.foldl (assignKey fields) sorted).lookup key =
      if key ∈ keys ∧ key ≠ "__proto__" then (fields.lookup key).or (sorted.lookup key)
      else sorted.lookup key := by
  induction keys generalizing sorted with
  | nil => simp
  | cons key' keys ih =>
      rw [List.foldl_cons, ih, lookup_assignKey]
      by_cases hkey : key = key'
      · subst hkey
        by_cases hproto : key = "__proto__"
        · simp [hproto]
        · cases fields.lookup key <;> simp [hproto]
      · simp [hkey]

theorem lookup_assignSorted (fields : List (String × Json)) (key : String) :
    (assignSorted fields).lookup key = if key = "__proto__" then none else fields.lookup key := by
  rw [assignSorted, lookup_foldl_assignKey]
  have hsort : key ∈ (fields.map Prod.fst).insertionSort KeyLE ↔ key ∈ fields.map Prod.fst :=
    (List.perm_insertionSort KeyLE _).mem_iff
  by_cases hproto : key = "__proto__"
  · simp [hproto]
  · cases hlookup : fields.lookup key with
    | none => simp [hproto]
    | some v =>
        have hmem : key ∈ fields.map Prod.fst := lookup_isSome.mp (by rw [hlookup]; rfl)
        rw [if_pos ⟨hsort.mpr hmem, hproto⟩, if_neg hproto]
        rfl

/-! ## The canonical value of what is kept -/

/-- Printing a value replaces the numbers in it, field by field. -/
theorem wire_setField (key : String) (v : Json) (fields : List (String × Json)) :
    (OwnKeys.setField key v fields).map (fun f => (f.1, f.2.wire)) =
      OwnKeys.setField key v.wire (fields.map fun f => (f.1, f.2.wire)) := by
  induction fields with
  | nil => rfl
  | cons f fields ih =>
      simp only [OwnKeys.setField, List.map_cons]
      split
      · rfl
      · split
        · rfl
        · rw [List.map_cons, ih]

/-- The keys without `__proto__`, in the same order. -/
theorem sort_filter (keys : List String) :
    (keys.filter (· ≠ "__proto__")).insertionSort KeyLE =
      (keys.insertionSort KeyLE).filter (· ≠ "__proto__") := by
  have hperm : ((keys.filter (· ≠ "__proto__")).insertionSort KeyLE).Perm
      ((keys.insertionSort KeyLE).filter (· ≠ "__proto__")) :=
    (List.perm_insertionSort KeyLE _).trans ((List.perm_insertionSort KeyLE keys).filter _).symm
  exact hperm.eq_of_pairwise' (List.pairwise_insertionSort KeyLE _)
    ((List.pairwise_insertionSort KeyLE keys).filter _)

/-- Assigning to `__proto__` adds no field. -/
theorem assignKey_proto (fields sorted : List (String × Json)) :
    assignKey fields sorted "__proto__" = sorted := by
  unfold assignKey
  cases fields.lookup "__proto__" with
  | none => rfl
  | some v => exact if_pos rfl

theorem foldl_assignKey_wire {fields fields' : List (String × Json)}
    (hlookup : ∀ key, key ≠ "__proto__" →
      fields'.lookup key = (fields.lookup key).map Json.wire) (keys : List String)
    (sorted : List (String × Json)) :
    (keys.foldl (assignKey fields) sorted).map (fun f => (f.1, f.2.wire)) =
      (keys.filter (· ≠ "__proto__")).foldl (assignKey fields')
        (sorted.map fun f => (f.1, f.2.wire)) := by
  induction keys generalizing sorted with
  | nil => rfl
  | cons key keys ih =>
      rw [List.foldl_cons, ih]
      by_cases hproto : key = "__proto__"
      · rw [hproto, assignKey_proto, List.filter_cons_of_neg (by simp)]
      · rw [List.filter_cons_of_pos (by simpa using hproto), List.foldl_cons]
        refine congrArg (List.foldl (assignKey fields') · _) ?_
        unfold assignKey assign
        rw [hlookup key hproto]
        cases fields.lookup key with
        | none => rfl
        | some v =>
            simp only [if_neg hproto, Option.map_some]
            exact wire_setField key v sorted

/-- What is printed of the canonical value is the canonical value of what is kept. -/
theorem wire_sortKeys {v : Json} (h : v.WellFormed) : (sortKeys v).wire = sortKeys (kept v) := by
  induction h with
  | null => rfl
  | bool b => rfl
  | @num n hn =>
      show Json.ofNumber n = sortKeys (Json.ofNumber n)
      unfold Json.ofNumber
      split
      · rfl
      · rfl
  | str s => rfl
  | @arr items hitems ih =>
      rw [sortKeys, kept, sortKeys, Json.wire, sortItems_eq, keptItems_eq, sortItems_eq,
        Json.wireItems_eq, List.map_map, List.map_map]
      exact congrArg Json.arr (List.map_congr_left ih)
  | @obj fields hordered hfields ih =>
      rw [sortKeys, kept, sortKeys, Json.wire, Json.wireFields_eq, assignSorted, assignSorted]
      have hkeys : ∀ fields : List (String × Json),
          (sortFields fields).map Prod.fst = fields.map Prod.fst := by
        intro fields
        rw [sortFields_eq, List.map_map]
        rfl
      rw [hkeys, hkeys, keptFields_keys, sort_filter, @foldl_assignKey_wire _
        (sortFields (keptFields fields))]
      · rfl
      · intro key hproto
        rw [lookup_sortFields, lookup_sortFields, lookup_keptFields, if_neg hproto]
        cases hlookup : fields.lookup key with
        | none => rfl
        | some v => exact congrArg some (ih _ (mem_of_lookup hlookup)).symm

/-- The text of a value is that of what is printed of it. -/
theorem text_wire {v : Json} (h : v.WellFormed) : v.wire.text = v.text := by
  induction h with
  | null => rfl
  | bool b => rfl
  | @num n hn => cases n <;> rfl
  | str s => rfl
  | @arr items hitems ih =>
      simp only [Json.wire, Json.text, Json.wireItems_eq, Json.itemTexts_eq, List.map_map]
      exact congrArg (fun ts => '[' :: Json.listText ']' ts) (List.map_congr_left ih)
  | @obj fields hordered hfields ih =>
      simp only [Json.wire, Json.text, Json.wireFields_eq, Json.fieldTexts_eq, List.map_map]
      refine congrArg (fun ts => '{' :: Json.listText '}' ts) (List.map_congr_left ?_)
      intro f hf
      exact congrArg (JsonString.quote f.1 ++ ':' :: ·) (ih f hf)

/-! ## Values whose fields are all assigned -/

/-- No object has a field `__proto__`, or two fields with one key. -/
inductive Assignable : Json → Prop where
  | null : Assignable .null
  | bool (b : Bool) : Assignable (.bool b)
  | num (n : Number) : Assignable (.num n)
  | str (s : String) : Assignable (.str s)
  | arr {items : List Json} (hitems : ∀ v ∈ items, Assignable v) : Assignable (.arr items)
  | obj {fields : List (String × Json)} (hnodup : (fields.map Prod.fst).Nodup)
      (hproto : "__proto__" ∉ fields.map Prod.fst)
      (hfields : ∀ key v, fields.lookup key = some v → Assignable v) : Assignable (.obj fields)

theorem assignable_kept {v : Json} (h : v.WellFormed) : Assignable (kept v) := by
  induction h with
  | null => exact .null
  | bool b => exact .bool b
  | @num n hn =>
      show Assignable (Json.ofNumber n)
      unfold Json.ofNumber
      split
      · exact .num n
      · exact .null
  | str s => exact .str s
  | arr hitems ih =>
      rw [kept, keptItems_eq]
      exact .arr (List.forall_mem_map.mpr ih)
  | @obj fields hordered hfields ih =>
      have hnodup : (fields.map Prod.fst).Nodup :=
        List.pairwise_map.mpr (hordered.imp fun hbefore => hbefore.1)
      rw [kept]
      refine .obj ?_ ?_ fun key v hv => ?_
      · rw [keptFields_keys]
        exact hnodup.filter _
      · rw [keptFields_keys]
        simp
      · rw [lookup_keptFields] at hv
        obtain ⟨-, hv⟩ := Option.ite_none_left_eq_some.mp hv
        obtain ⟨u, hu, rfl⟩ := Option.map_eq_some_iff.mp hv
        exact ih _ (mem_of_lookup hu)

/-- Of such an object the canonical value has every field. -/
theorem lookup_canonical {fields : List (String × Json)}
    (hproto : "__proto__" ∉ fields.map Prod.fst) (key : String) :
    (assignSorted (sortFields fields)).lookup key = (fields.lookup key).map sortKeys := by
  rw [lookup_assignSorted, lookup_sortFields]
  split
  · next hkey =>
    have hnone : fields.lookup key = none := by
      rw [← Option.not_isSome_iff_eq_none, lookup_isSome, hkey]
      exact hproto
    rw [hnone]
    rfl
  · rfl

theorem same_of_sortKeys_eq {v w : Json} (hv : Assignable v) (hw : Assignable w)
    (heq : sortKeys v = sortKeys w) : SameUpToOrder v w := by
  induction hv generalizing w with
  | @arr items hitems ih =>
      cases hw with
      | @arr items' hitems' =>
          rw [sortKeys, sortKeys, sortItems_eq, sortItems_eq] at heq
          have heq := Json.arr.inj heq
          refine .arr (by simpa using congrArg List.length heq) fun i v w hv hw => ?_
          have hi : (items.map sortKeys)[i]? = (items'.map sortKeys)[i]? := by rw [heq]
          rw [List.getElem?_map, List.getElem?_map, hv, hw] at hi
          exact ih v (List.mem_of_getElem? hv) (hitems' w (List.mem_of_getElem? hw))
            (Option.some.inj hi)
      | _ => cases heq
  | @obj fields hnodup hproto hfields ih =>
      cases hw with
      | @obj fields' hnodup' hproto' hfields' =>
          rw [sortKeys, sortKeys] at heq
          have hlookup : ∀ key,
              (fields.lookup key).map sortKeys = (fields'.lookup key).map sortKeys := by
            intro key
            rw [← lookup_canonical hproto, ← lookup_canonical hproto', Json.obj.inj heq]
          refine .obj ((List.perm_ext_iff_of_nodup hnodup hnodup').mpr fun key => ?_) ?_
          · rw [← lookup_isSome, ← lookup_isSome, ← Option.isSome_map (f := sortKeys), hlookup,
              Option.isSome_map]
          · intro key v w hv hw
            have hkey := hlookup key
            rw [hv, hw] at hkey
            exact ih key v hv (hfields' key w hw) (Option.some.inj hkey)
      | _ => cases heq
  | _ =>
      cases hw with
      | arr hitems => cases heq
      | obj hnodup hproto hfields => cases heq
      -- a scalar is its own canonical value
      | _ => exact (congrArg (SameUpToOrder _) heq).mp (.refl _)

/-! ## What the canonical text tells -/

/-- Two values have one canonical text exactly when what is kept of them is equal up to the
order of keys. -/
theorem text_eq_iff {v w : Json} (hv : v.WellFormed) (hw : w.WellFormed) :
    (sortKeys v).stringify = (sortKeys w).stringify ↔ SameUpToOrder (kept v) (kept w) := by
  constructor
  · intro htext
    have hparse := parse_sortKeys hv
    rw [htext, parse_sortKeys hw, wire_sortKeys hv, wire_sortKeys hw] at hparse
    exact same_of_sortKeys_eq (assignable_kept hv) (assignable_kept hw)
      (Option.some.inj hparse).symm
  · intro hsame
    have hwire := sortKeys_eq hsame
    rw [← wire_sortKeys hv, ← wire_sortKeys hw] at hwire
    rw [Json.stringify, Json.stringify, ← text_wire (wellFormed_sortKeys hv), hwire,
      text_wire (wellFormed_sortKeys hw)]

/-- The canonical form tells the values apart, unless they are equal up to the order of keys,
and so does the hash unless two texts have one hash. -/
structure LosesNothing (v w : Json) : Prop where
  text : (sortKeys v).stringify = (sortKeys w).stringify → SameUpToOrder v w
  hash : ∀ sha256 : String → String, hashPayload sha256 v = hashPayload sha256 w →
    SameUpToOrder v w ∨ ∃ t t', t ≠ t' ∧ sha256 t = sha256 t'

/-- The values differ, but not in what is kept of them: they differ in fields `__proto__`
and in infinite numbers only. -/
def DifferInDropped (v w : Json) : Prop :=
  ¬ SameUpToOrder v w ∧ SameUpToOrder (kept v) (kept w)

/-- The canonical form loses nothing exactly for the values that do not differ in fields
`__proto__` and infinite numbers only. -/
theorem losesNothing_iff {s t : String} {v w : Json} (hv : Json.parse s = some v)
    (hw : Json.parse t = some w) : LosesNothing v w ↔ ¬ DifferInDropped v w := by
  have htext := text_eq_iff (Json.wellFormed_parse hv) (Json.wellFormed_parse hw)
  constructor
  · rintro hnothing ⟨hdiffer, hkept⟩
    exact hdiffer (hnothing.text (htext.mpr hkept))
  · intro hdropped
    have hsame : (sortKeys v).stringify = (sortKeys w).stringify → SameUpToOrder v w := by
      intro heq
      by_contra hdiffer
      exact hdropped ⟨hdiffer, htext.mp heq⟩
    refine ⟨hsame, fun sha256 hhash => ?_⟩
    by_cases heq : (sortKeys v).stringify = (sortKeys w).stringify
    · exact .inl (hsame heq)
    · exact .inr ⟨_, _, heq, hhash⟩

/-- An object with a field `__proto__`, and the empty object. -/
theorem proto_is_dropped :
    ¬ ∀ (s t : String) (v w : Json), Json.parse s = some v → Json.parse t = some w →
        (sortKeys v).stringify = (sortKeys w).stringify → SameUpToOrder v w := by
  intro claim
  have hv : (Json.obj [("__proto__", .str "a")]).WellFormed :=
    .obj (List.pairwise_singleton _ _) (List.forall_mem_singleton.mpr (.str "a"))
  have hw : (Json.obj []).WellFormed := .obj .nil (List.forall_mem_nil _)
  cases claim _ _ _ _ (Json.parse_stringify hv) (Json.parse_stringify hw) rfl with
  | obj hkeys hfields => cases hkeys.length_eq

/-- Two objects that differ in the order of their keys. -/
theorem losesNothing_iff_reordered :
    let v : Json := .obj [("b", .null), ("a", .bool true)]
    let w : Json := .obj [("a", .bool true), ("b", .null)]
    LosesNothing v w := by
  intro v w
  have hv : v.WellFormed := by
    refine .obj ?_ (List.forall_mem_cons.mpr ⟨.null, List.forall_mem_singleton.mpr (.bool true)⟩)
    unfold OwnKeys.Ordered OwnKeys.Before
    decide
  have hw : w.WellFormed := by
    refine .obj ?_ (List.forall_mem_cons.mpr ⟨.bool true, List.forall_mem_singleton.mpr .null⟩)
    unfold OwnKeys.Ordered OwnKeys.Before
    decide
  have hsame : SameUpToOrder v w :=
    .reorder (by decide) (.cons ⟨rfl, .refl _⟩ (.cons ⟨rfl, .refl _⟩ .nil)) (.swap _ _ _)
  exact (losesNothing_iff (Json.parse_stringify hv) (Json.parse_stringify hw)).mpr
    fun hdropped => hdropped.1 hsame

end L0Worker.Worker
