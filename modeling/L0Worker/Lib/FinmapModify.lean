import Mathlib.Data.Finmap
import Mathlib.Data.Finset.Union
import Mathlib.Data.Finset.Option

/-!
# Updating one key of a finite map

`Finmap.modify` applies a function to the value of a key that is present and
leaves the map alone otherwise, as a mutable lookup does.  `Finmap.image`
collects what a function makes of the values.  `Finmap.Lists` says that a list
of keys is an enumeration of the map, which is what iterating over a hash map
gives: every key once, in no particular order.
-/

namespace Finmap

variable {α β : Type*} [DecidableEq α]

/-- Apply `f` to the value of a key, if the key is present. -/
def modify (a : α) (f : β → β) (s : Finmap fun _ : α => β) : Finmap fun _ : α => β :=
  match s.lookup a with
  | some b => s.insert a (f b)
  | none => s

@[simp] theorem lookup_modify (a : α) (f : β → β) (s : Finmap fun _ : α => β) :
    (s.modify a f).lookup a = (s.lookup a).map f := by
  unfold modify
  cases h : s.lookup a with
  | none => simp [h]
  | some b => simp

theorem lookup_modify_of_ne {a a' : α} (f : β → β) (s : Finmap fun _ : α => β) (h : a' ≠ a) :
    (s.modify a f).lookup a' = s.lookup a' := by
  unfold modify
  cases s.lookup a with
  | none => rfl
  | some b => exact lookup_insert_of_ne _ h

/-- Modifying a value does not change which keys are present. -/
@[simp] theorem mem_modify {a a' : α} {f : β → β} {s : Finmap fun _ : α => β} :
    a' ∈ s.modify a f ↔ a' ∈ s := by
  by_cases h : a' = a
  · subst h
    rw [mem_iff, mem_iff, lookup_modify]
    simp
  · rw [mem_iff, mem_iff, lookup_modify_of_ne f s h]

/-- The values of the map under `f`. -/
def image {γ : Type*} [DecidableEq γ] (f : β → γ) (s : Finmap fun _ : α => β) : Finset γ :=
  s.keys.biUnion fun a => ((s.lookup a).map f).toFinset

theorem mem_image {γ : Type*} [DecidableEq γ] {f : β → γ} {s : Finmap fun _ : α => β} {c : γ} :
    c ∈ s.image f ↔ ∃ a b, s.lookup a = some b ∧ f b = c := by
  simp only [image, Finset.mem_biUnion, Option.mem_toFinset, Option.mem_def,
    Option.map_eq_some_iff]
  constructor
  · rintro ⟨a, -, b, hb, rfl⟩
    exact ⟨a, b, hb, rfl⟩
  · rintro ⟨a, b, hb, rfl⟩
    exact ⟨a, mem_keys.mpr (mem_of_lookup_eq_some hb), b, hb, rfl⟩

/-- The list enumerates the keys of the map, each once. -/
def Lists (s : Finmap fun _ : α => β) (order : List α) : Prop :=
  order.Nodup ∧ order.toFinset = s.keys

instance (s : Finmap fun _ : α => β) (order : List α) : Decidable (s.Lists order) :=
  inferInstanceAs (Decidable (_ ∧ _))

theorem Lists.mem_iff {s : Finmap fun _ : α => β} {order : List α} (h : s.Lists order) {a : α} :
    a ∈ order ↔ a ∈ s := by
  rw [← List.mem_toFinset, h.2, mem_keys]

/-- Two enumerations of a map differ in the order only. -/
theorem Lists.perm {s : Finmap fun _ : α => β} {order order' : List α} (h : s.Lists order)
    (h' : s.Lists order') : order.Perm order' :=
  List.perm_of_nodup_nodup_toFinset_eq h.1 h'.1 (h.2.trans h'.2.symm)

end Finmap
