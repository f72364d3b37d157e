import L0Worker.Lib.FinmapModify

/-!
# Maps that remember insertion order

The `Map` of JavaScript: a finite map together with the order in which its keys
were inserted.  Setting a key that is present keeps its place, and a key that was
deleted comes back at the end.  The order lists the keys, each once, and this is
a field, so the two components cannot drift apart.
-/

namespace L0Worker

/-- A map with its keys in the order of insertion. -/
structure JsMap (κ ν : Type*) [DecidableEq κ] where
  toFinmap : Finmap fun _ : κ => ν
  /-- The keys, oldest first. -/
  order : List κ
  lists : toFinmap.Lists order

namespace JsMap

variable {κ ν : Type*} [DecidableEq κ]

/-- The map without keys. -/
def empty : JsMap κ ν := ⟨∅, [], List.nodup_nil, by simp⟩

/-- The key is present. -/
def Has (m : JsMap κ ν) (k : κ) : Prop := k ∈ m.toFinmap

instance (m : JsMap κ ν) (k : κ) : Decidable (m.Has k) := inferInstanceAs (Decidable (_ ∈ _))

/-- The value of a key. -/
def get? (m : JsMap κ ν) (k : κ) : Option ν := m.toFinmap.lookup k

/-- The number of keys. -/
def size (m : JsMap κ ν) : Nat := m.order.length

/-- Set the value of a key. -/
def set (m : JsMap κ ν) (k : κ) (v : ν) : JsMap κ ν where
  toFinmap := m.toFinmap.insert k v
  order := if k ∈ m.toFinmap then m.order else m.order ++ [k]
  lists := by
    obtain ⟨hnd, hkeys⟩ := m.lists
    split
    · next hk =>
      refine ⟨hnd, ?_⟩
      rw [hkeys]
      ext k'
      simp only [Finmap.mem_keys, Finmap.mem_insert]
      exact ⟨.inr, fun h => h.elim (fun he => he ▸ hk) id⟩
    · next hk =>
      refine ⟨?_, ?_⟩
      · refine List.nodup_append.mpr ⟨hnd, List.nodup_singleton k, ?_⟩
        intro k' hk' k'' hk'' heq
        rw [heq, List.mem_singleton.mp hk''] at hk'
        exact hk (m.lists.mem_iff.mp hk')
      · ext k'
        rw [List.toFinset_append, hkeys]
        simp [Finmap.mem_keys, Finmap.mem_insert]

/-- Remove a key. -/
def delete (m : JsMap κ ν) (k : κ) : JsMap κ ν where
  toFinmap := m.toFinmap.erase k
  order := m.order.erase k
  lists := by
    obtain ⟨hnd, -⟩ := m.lists
    refine ⟨hnd.erase k, ?_⟩
    ext k'
    simp [Finmap.mem_keys, hnd.mem_erase_iff, m.lists.mem_iff]

@[simp] theorem not_has_empty (k : κ) : ¬ (empty : JsMap κ ν).Has k := Finmap.notMem_empty

@[simp] theorem get?_empty (k : κ) : (empty : JsMap κ ν).get? k = none := Finmap.lookup_empty k

@[simp] theorem get?_set (m : JsMap κ ν) (k : κ) (v : ν) : (m.set k v).get? k = some v :=
  Finmap.lookup_insert _

theorem get?_set_of_ne (m : JsMap κ ν) {k k' : κ} (v : ν) (h : k' ≠ k) :
    (m.set k v).get? k' = m.get? k' :=
  Finmap.lookup_insert_of_ne _ h

@[simp] theorem has_set {m : JsMap κ ν} {k k' : κ} {v : ν} :
    (m.set k v).Has k' ↔ k' = k ∨ m.Has k' :=
  Finmap.mem_insert

@[simp] theorem has_delete {m : JsMap κ ν} {k k' : κ} :
    (m.delete k).Has k' ↔ k' ≠ k ∧ m.Has k' :=
  Finmap.mem_erase

theorem get?_delete_of_ne (m : JsMap κ ν) {k k' : κ} (h : k' ≠ k) :
    (m.delete k).get? k' = m.get? k' :=
  Finmap.lookup_erase_ne h

/-- A key has a value exactly if it is present. -/
theorem get?_eq_none_iff {m : JsMap κ ν} {k : κ} : m.get? k = none ↔ ¬ m.Has k :=
  Finmap.lookup_eq_none

theorem order_set_of_has {m : JsMap κ ν} {k : κ} (v : ν) (h : m.Has k) :
    (m.set k v).order = m.order :=
  if_pos h

theorem order_set_of_not_has {m : JsMap κ ν} {k : κ} (v : ν) (h : ¬ m.Has k) :
    (m.set k v).order = m.order ++ [k] :=
  if_neg h

theorem mem_order_iff {m : JsMap κ ν} {k : κ} : k ∈ m.order ↔ m.Has k := m.lists.mem_iff

theorem size_delete_of_has {m : JsMap κ ν} {k : κ} (h : m.Has k) :
    (m.delete k).size + 1 = m.size := by
  have hmem := mem_order_iff.mpr h
  have hpos := List.length_pos_of_mem hmem
  show (m.order.erase k).length + 1 = m.order.length
  rw [List.length_erase_of_mem hmem]
  omega

theorem size_delete_le (m : JsMap κ ν) (k : κ) : (m.delete k).size ≤ m.size :=
  List.erase_sublist.length_le

end JsMap

end L0Worker
