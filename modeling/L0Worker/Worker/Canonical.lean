import L0Worker.Lib.JsonRoundtrip
import L0Worker.Lib.Utf16
import Mathlib.Data.List.Sort

/-!
# The canonical form of a payload

`hashPayload` hashes the text of a payload whose keys were sorted at every depth, so that
payloads that differ in the order of keys only have one hash (`hashPayload_eq`).

The sorted keys are assigned to a fresh object, and `JSON.stringify` writes them in the order
in which the object lists them, array indices first, which is not the sorted one.  Nothing
depends on that: the two objects get the same assignments in the same order.
-/

namespace L0Worker.Worker

open Utf16

/-! ## Sorting keys -/

/-- The order of `Array.prototype.sort` on strings. -/
def KeyLE (key key' : String) : Prop := codeUnits key ≤ codeUnits key'

instance : DecidableRel KeyLE := fun _ _ => inferInstanceAs (Decidable (_ ≤ _))

instance : Std.Total KeyLE := ⟨fun _ _ => le_total _ _⟩

instance : IsTrans String KeyLE := ⟨fun _ _ _ => le_trans⟩

instance : Std.Antisymm KeyLE := ⟨fun _ _ h h' => codeUnits_injective (le_antisymm h h')⟩

/-- `sorted[key] = value`.  Assigning to `__proto__` sets the prototype, which is no key. -/
def assign (fields : List (String × Json)) (key : String) (value : Json) :
    List (String × Json) :=
  if key = "__proto__" then fields else OwnKeys.setField key value fields

/-- Assign the value of a key. -/
def assignKey (fields sorted : List (String × Json)) (key : String) : List (String × Json) :=
  match fields.lookup key with
  | none => sorted
  | some v => assign sorted key v

/-- The fresh object, which gets the values of the keys in sorted order. -/
def assignSorted (fields : List (String × Json)) : List (String × Json) :=
  ((fields.map Prod.fst).insertionSort KeyLE).foldl (assignKey fields) []

mutual

/-- `sortKeys`.  No JSON value has a function `toJSON`. -/
def sortKeys : Json → Json
  | .arr items => .arr (sortItems items)
  | .obj fields => .obj (assignSorted (sortFields fields))
  | v => v

def sortItems : List Json → List Json
  | [] => []
  | v :: items => sortKeys v :: sortItems items

def sortFields : List (String × Json) → List (String × Json)
  | [] => []
  | (key, v) :: fields => (key, sortKeys v) :: sortFields fields

end

/-- `hashPayload`, with the hash of a text. -/
def hashPayload (sha256 : String → String) (payload : Json) : String :=
  sha256 (sortKeys payload).stringify

@[simp] theorem sortItems_eq (items : List Json) : sortItems items = items.map sortKeys := by
  induction items with
  | nil => rfl
  | cons v items ih => simp [sortItems, ih]

@[simp] theorem sortFields_eq (fields : List (String × Json)) :
    sortFields fields = fields.map fun f => (f.1, sortKeys f.2) := by
  induction fields with
  | nil => rfl
  | cons f fields ih => simp [sortFields, ih]

/-! ## The canonical value -/

section Fields

variable {fields : List (String × Json)}

theorem mem_of_lookup {key : String} {v : Json} (h : fields.lookup key = some v) :
    (key, v) ∈ fields := by
  obtain ⟨before, after, rfl, -⟩ := List.lookup_eq_some_iff.mp h
  exact List.mem_append_right before List.mem_cons_self

/-- A key has a value exactly if it is listed. -/
theorem lookup_isSome {key : String} :
    (fields.lookup key).isSome = true ↔ key ∈ fields.map Prod.fst := by
  rw [List.lookup_isSome_iff, List.mem_map]
  constructor
  · rintro ⟨f, hf, heq⟩
    exact ⟨f, hf, (beq_iff_eq.mp heq).symm⟩
  · rintro ⟨f, hf, rfl⟩
    exact ⟨f, hf, beq_self_eq_true f.1⟩

/-- The assignments keep the keys in the order of JavaScript, and add fields of the value
only. -/
theorem foldl_assignKey (keys : List String) {sorted : List (String × Json)}
    (h : OwnKeys.Ordered sorted ∧ ∀ f ∈ sorted, f ∈ fields) :
    OwnKeys.Ordered (keys.foldl (assignKey fields) sorted) ∧
      ∀ f ∈ keys.foldl (assignKey fields) sorted, f ∈ fields := by
  induction keys generalizing sorted with
  | nil => exact h
  | cons key keys ih =>
      refine ih ?_
      unfold assignKey
      split
      · exact h
      · next v hv =>
        unfold assign
        split
        · exact h
        · refine ⟨h.1.setField key v, fun f hf => ?_⟩
          rcases OwnKeys.mem_setField hf with hf | rfl
          · exact h.2 f hf
          · exact mem_of_lookup hv

theorem assignSorted_spec (fields : List (String × Json)) :
    OwnKeys.Ordered (assignSorted fields) ∧ ∀ f ∈ assignSorted fields, f ∈ fields :=
  foldl_assignKey _ ⟨List.Pairwise.nil, List.forall_mem_nil _⟩

end Fields

/-- The canonical value of a value that was parsed could have been parsed as well. -/
theorem wellFormed_sortKeys {v : Json} (h : v.WellFormed) : (sortKeys v).WellFormed := by
  induction h with
  | null => exact .null
  | bool b => exact .bool b
  | num hn => exact .num hn
  | str s => exact .str s
  | arr _ ih =>
      rw [sortKeys, sortItems_eq]
      exact .arr (List.forall_mem_map.mpr ih)
  | @obj fields _ _ ih =>
      rw [sortKeys, sortFields_eq]
      obtain ⟨hordered, hmem⟩ := assignSorted_spec (fields.map fun f => (f.1, sortKeys f.2))
      refine .obj hordered fun f hf => ?_
      obtain ⟨g, hg, rfl⟩ := List.mem_map.mp (hmem f hf)
      exact ih g hg

/-- The canonical text is read back as the canonical value. -/
theorem parse_sortKeys {v : Json} (h : v.WellFormed) :
    Json.parse (sortKeys v).stringify = some (sortKeys v).wire :=
  Json.parse_stringify (wellFormed_sortKeys h)

/-! ## Values up to the order of keys -/

/-- The values are equal up to the order of the keys of objects, at any depth. -/
inductive SameUpToOrder : Json → Json → Prop where
  | refl (v : Json) : SameUpToOrder v v
  | arr {items items' : List Json} (hlength : items.length = items'.length)
      (hitems : ∀ (i : ℕ) (v w : Json), items[i]? = some v → items'[i]? = some w →
        SameUpToOrder v w) :
      SameUpToOrder (.arr items) (.arr items')
  | obj {fields fields' : List (String × Json)}
      (hkeys : (fields.map Prod.fst).Perm (fields'.map Prod.fst))
      (hfields : ∀ key v w, fields.lookup key = some v → fields'.lookup key = some w →
        SameUpToOrder v w) :
      SameUpToOrder (.obj fields) (.obj fields')

theorem exists_mem_of_forall₂ {α β : Type} {R : α → β → Prop} {as : List α} {bs : List β}
    (h : List.Forall₂ R as bs) {b : β} (hb : b ∈ bs) : ∃ a ∈ as, R a b := by
  induction h with
  | nil => cases hb
  | cons hR _ ih =>
      rcases List.mem_cons.mp hb with rfl | hb
      · exact ⟨_, List.mem_cons_self, hR⟩
      · obtain ⟨a, ha, hR⟩ := ih hb
        exact ⟨a, List.mem_cons_of_mem _ ha, hR⟩

/-- The fields of an object may be reordered, and their values replaced by such values. -/
theorem SameUpToOrder.reorder {fields replaced fields' : List (String × Json)}
    (hnodup : (fields.map Prod.fst).Nodup)
    (hvalues : List.Forall₂ (fun f g => f.1 = g.1 ∧ SameUpToOrder f.2 g.2) fields replaced)
    (hperm : replaced.Perm fields') : SameUpToOrder (.obj fields) (.obj fields') := by
  have hkeys : fields.map Prod.fst = replaced.map Prod.fst := by
    rw [← List.forall₂_eq_eq_eq, List.forall₂_map_left_iff, List.forall₂_map_right_iff]
    exact hvalues.imp fun _ _ h => h.1
  refine .obj (hkeys ▸ hperm.map Prod.fst) fun key v w hv hw => ?_
  obtain ⟨f, hf, hkey, hsame⟩ :=
    exists_mem_of_forall₂ hvalues (hperm.mem_iff.mpr (mem_of_lookup hw))
  -- no other field has the key
  obtain rfl : f = (key, v) := List.inj_on_of_nodup_map hnodup hf (mem_of_lookup hv) hkey
  exact hsame

/-- The sorted keys are those of any other order. -/
theorem sort_eq_of_perm {keys keys' : List String} (h : keys.Perm keys') :
    keys.insertionSort KeyLE = keys'.insertionSort KeyLE :=
  ((List.perm_insertionSort KeyLE keys).trans
    (h.trans (List.perm_insertionSort KeyLE keys').symm)).eq_of_pairwise'
    (List.pairwise_insertionSort KeyLE keys) (List.pairwise_insertionSort KeyLE keys')

theorem lookup_sortFields (fields : List (String × Json)) (key : String) :
    (sortFields fields).lookup key = (fields.lookup key).map sortKeys := by
  induction fields with
  | nil => rfl
  | cons f fields ih =>
      obtain ⟨key', v⟩ := f
      simp only [sortFields, List.lookup_cons]
      cases key == key' with
      | true => rfl
      | false => exact ih

/-- The fresh object depends on the keys up to order and on the value of each. -/
theorem assignSorted_congr {fields fields' : List (String × Json)}
    (hkeys : (fields.map Prod.fst).Perm (fields'.map Prod.fst))
    (hlookup : ∀ key, fields.lookup key = fields'.lookup key) :
    assignSorted fields = assignSorted fields' := by
  have hassign : assignKey fields = assignKey fields' := by
    funext sorted key
    rw [assignKey, assignKey, hlookup key]
  rw [assignSorted, assignSorted, sort_eq_of_perm hkeys, hassign]

theorem sortKeys_eq {v w : Json} (h : SameUpToOrder v w) : sortKeys v = sortKeys w := by
  induction h with
  | refl v => rfl
  | @arr items items' hlength hitems ih =>
      have heq : items.map sortKeys = items'.map sortKeys := by
        refine List.ext_getElem (by simpa using hlength) fun i hi hi' => ?_
        rw [List.length_map] at hi hi'
        rw [List.getElem_map, List.getElem_map]
        exact ih i _ _ (List.getElem?_eq_getElem hi) (List.getElem?_eq_getElem hi')
      rw [sortKeys, sortKeys, sortItems_eq, sortItems_eq, heq]
  | @obj fields fields' hkeys hfields ih =>
      rw [sortKeys, sortKeys]
      refine congrArg Json.obj (assignSorted_congr ?_ fun key => ?_)
      · simpa [Function.comp_def] using hkeys
      -- a key has a value in both or in neither
      · rw [lookup_sortFields, lookup_sortFields]
        cases hv : fields.lookup key with
        | none =>
            have hnone : fields'.lookup key = none := by
              rw [← Option.not_isSome_iff_eq_none, lookup_isSome, ← hkeys.mem_iff,
                ← lookup_isSome, hv]
              simp
            rw [hnone]
        | some v =>
            have hsome : (fields'.lookup key).isSome = true := by
              rw [lookup_isSome, ← hkeys.mem_iff, ← lookup_isSome, hv]
              rfl
            obtain ⟨w, hw⟩ := Option.isSome_iff_exists.mp hsome
            rw [hw]
            exact congrArg some (ih key v w hv hw)

/-- Payloads that are equal up to the order of keys have one canonical text, and one hash. -/
theorem hashPayload_eq {v w : Json} (h : SameUpToOrder v w) (sha256 : String → String) :
    (sortKeys v).stringify = (sortKeys w).stringify ∧
      hashPayload sha256 v = hashPayload sha256 w := by
  rw [hashPayload, hashPayload, sortKeys_eq h]
  exact ⟨rfl, rfl⟩

/-- Objects with an integer-like key, whose other keys are in another order at two levels. -/
theorem hashPayload_eq_nested :
    let v : Json := .obj [("2", .null), ("b", .obj [("y", .num 1), ("x", .num 2)]), ("a", .null)]
    let w : Json := .obj [("2", .null), ("a", .null), ("b", .obj [("x", .num 2), ("y", .num 1)])]
    (sortKeys v).stringify = (sortKeys w).stringify ∧ hashPayload id v = hashPayload id w := by
  have hinner : SameUpToOrder (.obj [("y", .num 1), ("x", .num 2)])
      (.obj [("x", .num 2), ("y", .num 1)]) :=
    .reorder (by decide) (.cons ⟨rfl, .refl _⟩ (.cons ⟨rfl, .refl _⟩ .nil)) (.swap _ _ _)
  refine hashPayload_eq (.reorder (by decide) ?_ (.cons _ (.swap _ _ _))) id
  exact .cons ⟨rfl, .refl _⟩ (.cons ⟨rfl, hinner⟩ (.cons ⟨rfl, .refl _⟩ .nil))

end L0Worker.Worker
