import Mathlib.Logic.Relation

/-!
# Loops with a body

A body looks at the state at the head of a loop, and either goes on with another state or
leaves the loop with a result.  `Ends body n s r` says that the loop from `s` leaves with `r`
after it has gone on `n` times, and `Visits body s t` that it comes to the head with `t`.

A variant that the body lowers bounds how often the loop goes on (`ends_of_variant`), an
invariant of the body holds at every visit (`Visits.invariant`), and a function that unfolds
like the loop computes its result (`Ends.eq`).
-/

namespace L0Worker

namespace While

variable {σ β : Type*}

/-- The loop from a state leaves with a result after it has gone on this many times. -/
inductive Ends (body : σ → σ ⊕ β) : Nat → σ → β → Prop where
  | leave {s : σ} {r : β} (h : body s = .inr r) : Ends body 0 s r
  | next {n : Nat} {s t : σ} {r : β} (h : body s = .inl t) (hrest : Ends body n t r) :
      Ends body (n + 1) s r

/-- The loop from a state comes to the head with this one. -/
def Visits (body : σ → σ ⊕ β) : σ → σ → Prop :=
  Relation.ReflTransGen fun s t => body s = .inl t

variable {body : σ → σ ⊕ β} {n : Nat} {s t : σ} {r : β}

/-- A loop whose body lowers a variant ends. -/
theorem ends_of_variant {V : σ → Nat} (hvariant : ∀ s t, body s = .inl t → V t < V s) (s : σ) :
    ∃ n ≤ V s, ∃ r, Ends body n s r := by
  induction hv : V s using Nat.strongRecOn generalizing s with
  | ind v ih =>
      cases hbody : body s with
      | inr r => exact ⟨0, Nat.zero_le v, r, .leave hbody⟩
      | inl t =>
          have hlt : V t < v := hv ▸ hvariant s t hbody
          obtain ⟨n, hn, r, hends⟩ := ih (V t) hlt t rfl
          exact ⟨n + 1, Nat.lt_of_le_of_lt hn hlt, r, .next hbody hends⟩

/-- What the body keeps holds at every visit. -/
theorem Visits.invariant {I : σ → Prop} (hbody : ∀ s t, I s → body s = .inl t → I t) (hs : I s)
    (h : Visits body s t) : I t := by
  induction h with
  | refl => exact hs
  | tail _ hnext ih => exact hbody _ _ ih hnext

/-- A loop that ends leaves from a state that it visits. -/
theorem Ends.leaves (h : Ends body n s r) : ∃ t, Visits body s t ∧ body t = .inr r := by
  induction h with
  | leave h => exact ⟨_, .refl, h⟩
  | next h _ ih =>
      obtain ⟨t, hvisits, hleave⟩ := ih
      exact ⟨t, hvisits.head h, hleave⟩

/-- A function that is the same before and after the body goes on, and that is the result
where the body leaves, computes the result of the loop. -/
theorem Ends.eq {f : σ → β} (hnext : ∀ s t, body s = .inl t → f s = f t)
    (hleave : ∀ s r, body s = .inr r → f s = r) (h : Ends body n s r) : f s = r := by
  induction h with
  | leave h => exact hleave _ _ h
  | next h _ ih => exact (hnext _ _ h).trans ih

end While

end L0Worker
