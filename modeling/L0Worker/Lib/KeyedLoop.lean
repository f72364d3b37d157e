import L0Worker.Lib.Automaton
import L0Worker.Lib.Loop
import Mathlib.Data.List.Nodup

/-!
# Loops over distinct keys

The body of a loop often works on the part of the state that one key names and writes
about that key only.  `Framed` says so, for a `view` of the state by keys and under an
invariant of the loop.  A loop over distinct keys then does at each key what one iteration
does there (`Framed.forEach_at`).  When that depends on nothing but the view of the key,
the order of the iterations does not matter (`Framed.perm`): the views in the end are the
same, and so is what is written about each key.
-/

namespace L0Worker

variable {σ τ ε κ ν : Type*}

/-- Under an invariant, an iteration touches only its own key, and writes about it only. -/
structure Framed (step : σ → τ → σ × List ε) (key : τ → κ) (part : ε → Option κ)
    (view : σ → κ → ν) (I : σ → Prop) : Prop where
  invariant : ∀ s t, I s → I (step s t).1
  other : ∀ s t k, I s → key t ≠ k → view (step s t).1 k = view s k
  outputs : ∀ s t, ∀ e ∈ (step s t).2, part e = some (key t)

namespace Framed

variable {step : σ → τ → σ × List ε} {key : τ → κ} {part : ε → Option κ} {view : σ → κ → ν}
  {I : σ → Prop} {s s' : σ} {ts us : List τ} {t : τ} {k : κ}

/-- A coarser view. -/
theorem map {μ : Type*} (h : Framed step key part view I) (f : ν → μ) :
    Framed step key part (fun s k => f (view s k)) I :=
  ⟨h.invariant, fun s t k hs hk => congrArg f (h.other s t k hs hk), h.outputs⟩

theorem forEach_invariant (h : Framed step key part view I) (hs : I s) :
    I (forEach step s ts).1 :=
  forEach_rec (I := fun _ s => I s) (fun t _ s hs => h.invariant s t hs) hs

theorem forEach_outputs (h : Framed step key part view I) :
    ∀ e ∈ (forEach step s ts).2, (part e).isSome :=
  forEach_forall_output (fun s t e he => by rw [h.outputs s t e he]; rfl) ts s

variable [DecidableEq κ]

/-- A key that the loop does not visit. -/
theorem forEach_other (h : Framed step key part view I) (hs : I s) (hk : k ∉ ts.map key) :
    view (forEach step s ts).1 k = view s k ∧ outputsOf part k (forEach step s ts).2 = [] := by
  induction ts generalizing s with
  | nil => exact ⟨rfl, rfl⟩
  | cons t ts ih =>
      rw [List.map_cons, List.mem_cons, not_or] at hk
      obtain ⟨hview, hout⟩ := ih (h.invariant s t hs) hk.2
      rw [forEach_cons, outputsOf_append, hout, List.append_nil]
      refine ⟨hview.trans (h.other s t k hs (Ne.symm hk.1)), outputsOf_eq_nil fun e he hpart => ?_⟩
      exact hk.1 (Option.some.inj (hpart.symm.trans (h.outputs s t e he)))

/-- At a key that the loop visits, it does what one iteration does. -/
theorem forEach_at (h : Framed step key part view I) (hs : I s) (hnd : (ts.map key).Nodup)
    (ht : t ∈ ts) :
    ∃ s₁, I s₁ ∧ view s₁ (key t) = view s (key t) ∧
      view (forEach step s ts).1 (key t) = view (step s₁ t).1 (key t) ∧
      outputsOf part (key t) (forEach step s ts).2 = (step s₁ t).2 := by
  obtain ⟨before, after, rfl⟩ := List.append_of_mem ht
  rw [List.map_append, List.map_cons, List.nodup_middle, List.nodup_cons, List.mem_append,
    not_or] at hnd
  obtain ⟨⟨hbefore, hafter⟩, -⟩ := hnd
  have hs₁ : I (forEach step s before).1 := h.forEach_invariant hs
  obtain ⟨hview, hout⟩ := h.forEach_other hs hbefore
  obtain ⟨hview', hout'⟩ := h.forEach_other (h.invariant _ t hs₁) hafter
  refine ⟨(forEach step s before).1, hs₁, hview, ?_, ?_⟩
  · rw [forEach_append, forEach_cons]
    exact hview'
  · rw [forEach_append, forEach_cons, outputsOf_append, outputsOf_append, hout, hout',
      List.nil_append, List.append_nil, outputsOf_eq_self (h.outputs _ t)]

end Framed

variable [DecidableEq κ]

/-- Lists that agree part by part are permutations of each other. -/
theorem perm_of_outputsOf {part : ε → Option κ} {o o' : List ε}
    (ho : ∀ e ∈ o, (part e).isSome) (ho' : ∀ e ∈ o', (part e).isSome)
    (h : ∀ k, outputsOf part k o = outputsOf part k o') : o.Perm o' := by
  classical
  rw [List.perm_iff_count]
  intro e
  cases hpart : part e with
  | none =>
      have hnot : ∀ {l : List ε}, (∀ e ∈ l, (part e).isSome) → e ∉ l := by
        intro l hl he
        have hsome := hl e he
        rw [hpart] at hsome
        cases hsome
      rw [List.count_eq_zero_of_not_mem (hnot ho), List.count_eq_zero_of_not_mem (hnot ho')]
  | some k =>
      have hcount : ∀ l : List ε, (outputsOf part k l).count e = l.count e := fun l =>
        List.count_filter (decide_eq_true hpart)
      rw [← hcount o, h k, hcount o']

/-- The order of the iterations does not matter. -/
theorem Framed.perm {step : σ → τ → σ × List ε} {key : τ → κ} {part : ε → Option κ}
    {view : σ → κ → ν} {I : σ → Prop} {s s' : σ} {ts us : List τ}
    (h : Framed step key part view I)
    (hself : ∀ s s' t, I s → I s' → view s (key t) = view s' (key t) →
      view (step s t).1 (key t) = view (step s' t).1 (key t) ∧ (step s t).2 = (step s' t).2)
    (hs : I s) (hs' : I s') (hview : ∀ k, view s k = view s' k) (hnd : (ts.map key).Nodup)
    (hperm : ts.Perm us) :
    (∀ k, view (forEach step s ts).1 k = view (forEach step s' us).1 k) ∧
      (∀ k, outputsOf part k (forEach step s ts).2 = outputsOf part k (forEach step s' us).2) ∧
      (forEach step s ts).2.Perm (forEach step s' us).2 := by
  have hnd' : (us.map key).Nodup := (hperm.map key).nodup_iff.mp hnd
  have hkey : ∀ k, view (forEach step s ts).1 k = view (forEach step s' us).1 k ∧
      outputsOf part k (forEach step s ts).2 = outputsOf part k (forEach step s' us).2 := by
    intro k
    by_cases hk : k ∈ ts.map key
    · obtain ⟨t, ht, rfl⟩ := List.mem_map.mp hk
      obtain ⟨u, hu, hviewu, hat, hout⟩ := h.forEach_at hs hnd ht
      obtain ⟨v, hv, hviewv, hat', hout'⟩ := h.forEach_at hs' hnd' (hperm.mem_iff.mp ht)
      obtain ⟨hsame, hsame'⟩ :=
        hself u v t hu hv (hviewu.trans ((hview (key t)).trans hviewv.symm))
      exact ⟨hat.trans (hsame.trans hat'.symm), hout.trans (hsame'.trans hout'.symm)⟩
    · have hk' : k ∉ us.map key := fun hmem => hk ((hperm.map key).mem_iff.mpr hmem)
      obtain ⟨hat, hout⟩ := h.forEach_other hs hk
      obtain ⟨hat', hout'⟩ := h.forEach_other hs' hk'
      exact ⟨hat.trans ((hview k).trans hat'.symm), hout.trans hout'.symm⟩
  exact ⟨fun k => (hkey k).1, fun k => (hkey k).2,
    perm_of_outputsOf h.forEach_outputs h.forEach_outputs fun k => (hkey k).2⟩

end L0Worker
