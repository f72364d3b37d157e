import L0Worker.Lib.JsValue
import Mathlib.Data.List.Induction

/-!
# The order of the keys of an object

An object made by assigning one field after the other, as `JSON.parse` does.  Its keys that
are array indices come first, in increasing order, and then the other keys in the order in
which they were first assigned.  A later value for a key takes the place of the earlier one.
-/

namespace L0Worker

namespace OwnKeys

variable {α : Type}

/-- The array index a key is, if it is one: a numeral below `2 ^ 32 - 1`. -/
def arrayIndex? (key : String) : Option ℕ :=
  let n := Nat.ofDigitChars 10 key.toList 0
  if Nat.toDigits 10 n = key.toList ∧ n < 2 ^ 32 - 1 then some n else none

/-- The first key is an array index and the second is a larger one or none. -/
def indexBefore (key key' : String) : Bool :=
  match arrayIndex? key, arrayIndex? key' with
  | some n, some n' => n < n'
  | some _, none => true
  | none, _ => false

/-- Assign a field. -/
def setField (key : String) (value : α) : List (String × α) → List (String × α)
  | [] => [(key, value)]
  | f :: fields =>
      if f.1 = key then (key, value) :: fields
      else if indexBefore key f.1 then (key, value) :: f :: fields
      else f :: setField key value fields

/-- The object of the fields, assigned in order. -/
def ofEntries (entries : List (String × α)) : List (String × α) :=
  entries.foldl (fun fields e => setField e.1 e.2 fields) []

/-- The first key may stand before the second. -/
def Before (key key' : String) : Prop := key ≠ key' ∧ indexBefore key' key = false

/-- The keys are in order, each once. -/
def Ordered (fields : List (String × α)) : Prop :=
  fields.Pairwise fun f f' => Before f.1 f'.1

/-- Distinct names are in order. -/
theorem ordered_of_names {fields : List (String × α)}
    (hnames : ∀ key ∈ fields.map Prod.fst, arrayIndex? key = none)
    (hdistinct : (fields.map Prod.fst).Nodup) : Ordered fields := by
  rw [List.Nodup, List.pairwise_map] at hdistinct
  refine hdistinct.imp_of_mem fun {f f'} _ hf' hne => ⟨hne, ?_⟩
  rw [indexBefore, hnames f'.1 (List.mem_map_of_mem hf')]

/-- Of two array indices, only one is before the other. -/
theorem before_of_indexBefore {key key' : String} (h : indexBefore key key' = true) :
    indexBefore key' key = false := by
  simp only [indexBefore] at h ⊢
  cases hkey : arrayIndex? key with
  | none => simp [hkey] at h
  | some n =>
      cases hkey' : arrayIndex? key' with
      | none => rfl
      | some n' =>
          simp [hkey, hkey'] at h ⊢
          omega

/-- An array index that is put before a key may stand before those after it. -/
theorem Before.insert {key key' key'' : String} (h : indexBefore key key' = true)
    (h' : Before key' key'') : Before key key'' := by
  obtain ⟨-, hafter⟩ := h'
  constructor
  · rintro rfl
    rw [h] at hafter
    cases hafter
  · simp only [indexBefore] at h hafter ⊢
    cases hkey : arrayIndex? key with
    | none => simp [hkey] at h
    | some n =>
        cases hkey'' : arrayIndex? key'' with
        | none => rfl
        | some n'' =>
            cases hkey' : arrayIndex? key' with
            | none => simp [hkey', hkey''] at hafter
            | some n' =>
                simp [hkey, hkey', hkey''] at h hafter ⊢
                omega

/-- The fields after assigning one are the fields before, or the one that is assigned. -/
theorem mem_setField {key : String} {value : α} {fields : List (String × α)}
    {f : String × α} (h : f ∈ setField key value fields) : f ∈ fields ∨ f = (key, value) := by
  induction fields with
  | nil => simpa [setField] using h
  | cons g fields ih =>
      unfold setField at h
      split at h
      · rcases List.mem_cons.mp h with rfl | h
        · exact .inr rfl
        · exact .inl (List.mem_cons_of_mem _ h)
      · split at h
        · rcases List.mem_cons.mp h with rfl | h
          · exact .inr rfl
          · exact .inl h
        · rcases List.mem_cons.mp h with rfl | h
          · exact .inl List.mem_cons_self
          · exact (ih h).imp_left (List.mem_cons_of_mem _)

/-- Assigning a field keeps the keys in order. -/
theorem Ordered.setField {fields : List (String × α)} (h : Ordered fields) (key : String)
    (value : α) : Ordered (setField key value fields) := by
  induction fields with
  | nil => exact List.pairwise_singleton _ _
  | cons f fields ih =>
      obtain ⟨hf, hfields⟩ := List.pairwise_cons.mp h
      unfold OwnKeys.setField
      split
      · next heq =>
        subst heq
        exact List.pairwise_cons.mpr ⟨hf, hfields⟩
      · next hne =>
        split
        · next hbefore =>
          refine List.pairwise_cons.mpr ⟨?_, h⟩
          intro g hg
          rcases List.mem_cons.mp hg with rfl | hg
          · exact ⟨Ne.symm hne, before_of_indexBefore hbefore⟩
          · exact Before.insert hbefore (hf g hg)
        · next hbefore =>
          refine List.pairwise_cons.mpr ⟨?_, ih hfields⟩
          intro g hg
          rcases mem_setField hg with hg | rfl
          · exact hf g hg
          · exact ⟨hne, by simpa using hbefore⟩

/-- A field whose key may stand after all others is put last. -/
theorem setField_append {fields : List (String × α)} {key : String} {value : α}
    (h : ∀ f ∈ fields, Before f.1 key) :
    setField key value fields = fields ++ [(key, value)] := by
  induction fields with
  | nil => rfl
  | cons f fields ih =>
      obtain ⟨hf, hfields⟩ := List.forall_mem_cons.mp h
      simp [setField, hf.1, hf.2, ih hfields]

/-- Fields that are in order are assigned as they are. -/
theorem ofEntries_of_ordered {fields : List (String × α)} (h : Ordered fields) :
    ofEntries fields = fields := by
  induction fields using List.reverseRecOn with
  | nil => rfl
  | append_singleton fields f ih =>
      obtain ⟨hfields, -, hf⟩ := List.pairwise_append.mp h
      have hofEntries := ih hfields
      unfold ofEntries at hofEntries ⊢
      rw [List.foldl_append, hofEntries]
      exact setField_append fun g hg => hf g hg f (List.mem_singleton_self f)

/-- The keys of an object are in order. -/
theorem ordered_ofEntries (entries : List (String × α)) : Ordered (ofEntries entries) := by
  induction entries using List.reverseRecOn with
  | nil => exact List.Pairwise.nil
  | append_singleton entries e ih =>
      unfold ofEntries at ih ⊢
      rw [List.foldl_append]
      exact ih.setField e.1 e.2

/-- The fields of an object are among those that were assigned. -/
theorem mem_ofEntries {entries : List (String × α)} {f : String × α} (h : f ∈ ofEntries entries) :
    f ∈ entries := by
  induction entries using List.reverseRecOn with
  | nil => exact h
  | append_singleton entries e ih =>
      unfold ofEntries at ih h
      rw [List.foldl_append] at h
      rcases mem_setField h with h | rfl
      · exact List.mem_append_left _ (ih h)
      · simp

end OwnKeys

end L0Worker
