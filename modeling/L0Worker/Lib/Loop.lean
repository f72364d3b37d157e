import Mathlib.Data.List.Basic

/-!
# Loops that write

`forEach` runs a step for each element of a list, threads the state through and
collects what the steps write.  Its rule is the induction over the list with an
invariant that may mention the elements still to come.
-/

namespace L0Worker

/-- Run a step for each element of a list and collect the outputs. -/
def forEach {σ τ ε : Type*} (step : σ → τ → σ × List ε) : σ → List τ → σ × List ε
  | s, [] => (s, [])
  | s, t :: ts =>
      let (s', out) := step s t
      let (s'', out') := forEach step s' ts
      (s'', out ++ out')

variable {σ τ ε : Type*} {step : σ → τ → σ × List ε}

@[simp] theorem forEach_nil (s : σ) : forEach step s [] = (s, []) := rfl

theorem forEach_cons (s : σ) (t : τ) (ts : List τ) :
    forEach step s (t :: ts) =
      ((forEach step (step s t).1 ts).1, (step s t).2 ++ (forEach step (step s t).1 ts).2) := rfl

/-- A loop over two lists is two loops. -/
theorem forEach_append (s : σ) (ts us : List τ) :
    forEach step s (ts ++ us) =
      ((forEach step (forEach step s ts).1 us).1,
        (forEach step s ts).2 ++ (forEach step (forEach step s ts).1 us).2) := by
  induction ts generalizing s with
  | nil => rfl
  | cons t ts ih =>
      rw [List.cons_append, forEach_cons, ih, forEach_cons]
      exact Prod.ext rfl (List.append_assoc ..).symm

/-- The last iteration of a loop. -/
theorem forEach_concat_fst (s : σ) (ts : List τ) (t : τ) :
    (forEach step s (ts ++ [t])).1 = (step (forEach step s ts).1 t).1 := by
  induction ts generalizing s with
  | nil => rfl
  | cons u ts ih => exact ih (step s u).1

/-- The keys of what is selected for a list of keys are among them, in order. -/
theorem map_filterMap_sublist {κ : Type*} {select : κ → Option τ} {key : τ → κ}
    (h : ∀ k t, select k = some t → key t = k) (ks : List κ) :
    ((ks.filterMap select).map key).Sublist ks := by
  induction ks with
  | nil => exact List.Sublist.slnil
  | cons k ks ih =>
      rw [List.filterMap_cons]
      cases hk : select k with
      | none => exact ih.cons k
      | some t =>
          rw [List.map_cons, h k t hk]
          exact ih.cons_cons k

/-- A loop writes what its iterations write. -/
theorem forEach_forall_output {P : ε → Prop} (hstep : ∀ s t, ∀ e ∈ (step s t).2, P e) (ts : List τ)
    (s : σ) : ∀ e ∈ (forEach step s ts).2, P e := by
  induction ts generalizing s with
  | nil => exact List.forall_mem_nil P
  | cons t ts ih =>
      rw [forEach_cons, List.forall_mem_append]
      exact ⟨hstep s t, ih (step s t).1⟩

/-- A loop ends in a state that satisfies the invariant for no remaining element. -/
theorem forEach_rec {I : List τ → σ → Prop}
    (hstep : ∀ t ts s, I (t :: ts) s → I ts (step s t).1) {ts : List τ} {s : σ} (hs : I ts s) :
    I [] (forEach step s ts).1 := by
  induction ts generalizing s with
  | nil => exact hs
  | cons t ts ih => exact ih (hstep t ts s hs)

end L0Worker
