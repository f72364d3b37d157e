import L0Worker.Lib.Machine

/-!
# Automata and machines with many parts

An automaton reads letters one by one and may get stuck.  A machine often
consists of many parts that take turns, each of which is supposed to behave as
one automaton says.  The outputs of such a machine carry the part they belong to.

`Machine.run_tracks` lifts this from one step to runs: when the outputs of every
step, restricted to a part, take the automaton from the stage of the part before
the step to its stage after it, the same holds of the outputs of a run.  What
follows from reading a word, by `accept_history`, then holds of every part.
-/

namespace L0Worker

variable {σ α : Type*}

/-- Read a word. -/
def accept (next : σ → α → Option σ) : σ → List α → Option σ
  | q, [] => some q
  | q, a :: as => (next q a).bind fun q' => accept next q' as

@[simp] theorem accept_nil (next : σ → α → Option σ) (q : σ) : accept next q [] = some q := rfl

@[simp] theorem accept_cons (next : σ → α → Option σ) (q : σ) (a : α) (as : List α) :
    accept next q (a :: as) = (next q a).bind fun q' => accept next q' as := rfl

theorem accept_append (next : σ → α → Option σ) (q : σ) (as bs : List α) :
    accept next q (as ++ bs) = (accept next q as).bind fun q' => accept next q' bs := by
  induction as generalizing q with
  | nil => rfl
  | cons a as ih =>
      rw [List.cons_append, accept_cons, accept_cons, Option.bind_assoc]
      congr 1
      funext q'
      exact ih q'

/-- What holds at the start and is kept by every letter holds of every word read. -/
theorem accept_history {next : σ → α → Option σ} {J : List α → σ → Prop} {q₀ : σ}
    (h₀ : J [] q₀) (hnext : ∀ as q a q', J as q → next q a = some q' → J (as ++ [a]) q')
    {as : List α} {q : σ} (h : accept next q₀ as = some q) : J as q := by
  -- from the end, so that `J` is known before the last letter
  induction as using List.reverseRecOn generalizing q with
  | nil => exact Option.some.inj h ▸ h₀
  | append_singleton as a ih =>
      rw [accept_append] at h
      obtain ⟨q₁, h₁, h⟩ := Option.bind_eq_some_iff.mp h
      rw [accept_cons] at h
      obtain ⟨q₂, h₂, h⟩ := Option.bind_eq_some_iff.mp h
      exact hnext as q₁ a q (ih h₁) (Option.some.inj h ▸ h₂)

/-- Stages that count the letters of a kind. -/
theorem accept_countP {next : σ → α → Option σ} (p : α → Bool) (count : σ → Nat)
    (hnext : ∀ {q a q'}, next q a = some q' → count q' = count q + if p a then 1 else 0)
    {q₀ : σ} {as : List α} {q : σ} (h : accept next q₀ as = some q) :
    count q = count q₀ + as.countP p := by
  refine accept_history (J := fun as q => count q = count q₀ + as.countP p) rfl ?_ h
  intro as q a q' has hq
  rw [List.countP_append, List.countP_singleton, ← Nat.add_assoc, ← has, hnext hq]

/-- Letters read from stages that are kept to. -/
theorem accept_forall {next : σ → α → Option σ} (I : σ → Prop) (p : α → Prop)
    (hnext : ∀ {q a q'}, I q → next q a = some q' → p a ∧ I q') {q q' : σ} {as : List α}
    (hq : I q) (h : accept next q as = some q') : ∀ a ∈ as, p a := by
  induction as generalizing q with
  | nil => exact List.forall_mem_nil p
  | cons a as ih =>
      obtain ⟨q₁, h₁, h⟩ := Option.bind_eq_some_iff.mp h
      obtain ⟨ha, hq₁⟩ := hnext hq h₁
      exact List.forall_mem_cons.mpr ⟨ha, ih hq₁ h⟩

/-- The outputs of one part. -/
def outputsOf {ε ι : Type*} [DecidableEq ι] (part : ε → Option ι) (i : ι) (o : List ε) :
    List ε :=
  o.filter fun e => decide (part e = some i)

section Parts

variable {ε ι Q : Type*} [DecidableEq ι] {part : ε → Option ι}

@[simp] theorem outputsOf_nil (i : ι) : outputsOf part i [] = [] := rfl

theorem outputsOf_append (i : ι) (o o' : List ε) :
    outputsOf part i (o ++ o') = outputsOf part i o ++ outputsOf part i o' :=
  List.filter_append ..

/-- Outputs that all belong to one part. -/
theorem outputsOf_eq_self {i : ι} {o : List ε} (h : ∀ e ∈ o, part e = some i) :
    outputsOf part i o = o := by
  refine List.filter_eq_self.mpr ?_
  intro e he
  exact decide_eq_true (h e he)

theorem outputsOf_eq_nil {i : ι} {o : List ε} (h : ∀ e ∈ o, part e ≠ some i) :
    outputsOf part i o = [] := by
  refine List.filter_eq_nil_iff.mpr ?_
  intro e he
  rw [decide_eq_true_eq]
  exact h e he

/-- When, under an invariant, every step that satisfies `P` takes the automaton of
each part from its stage before to its stage after, every run along `P` does. -/
theorem Machine.run_tracks {M : Machine σ α ε} {I : σ → Prop} {P : σ → α → σ → List ε → Prop}
    {next : Q → ε → Option Q} {stage : σ → ι → Q}
    (hI : ∀ s a s' o, I s → M.step s a = some (s', o) → I s')
    (hstep : ∀ s a s' o, I s → M.step s a = some (s', o) → P s a s' o →
      ∀ i, accept next (stage s i) (outputsOf part i o) = some (stage s' i))
    {s t : σ} {as : List α} {out : List ε} (hs : I s) (h : M.Along P s as)
    (hrun : M.run s as = some (t, out)) (i : ι) :
    accept next (stage s i) (outputsOf part i out) = some (stage t i) := by
  induction as generalizing s out with
  | nil =>
      simp only [Machine.run_nil, Option.some.injEq, Prod.mk.injEq] at hrun
      obtain ⟨rfl, rfl⟩ := hrun
      rfl
  | cons a as ih =>
      obtain ⟨u, o, o', hu, ht, rfl⟩ := M.run_cons_iff.mp hrun
      rw [Machine.along_cons_iff hu] at h
      rw [outputsOf_append, accept_append, hstep s a u o hs hu h.1 i, Option.bind_some,
        ih (hI s a u o hs hu) h.2 ht]

end Parts

/-- When every step that satisfies `P` leads from states that fit a stage to states
that fit a stage the automaton reaches by its outputs, every run along `P` does. -/
theorem Machine.run_follows {σ α ε Q : Type*} {M : Machine σ α ε}
    {P : σ → α → σ → List ε → Prop} {next : Q → ε → Option Q} {R : σ → Q → Prop}
    (hstep : ∀ s a s' o q, R s q → M.step s a = some (s', o) → P s a s' o →
      ∃ q', accept next q o = some q' ∧ R s' q')
    {s t : σ} {q : Q} {as : List α} {out : List ε} (hs : R s q) (h : M.Along P s as)
    (hrun : M.run s as = some (t, out)) : ∃ q', accept next q out = some q' ∧ R t q' := by
  induction as generalizing s q out with
  | nil =>
      simp only [Machine.run_nil, Option.some.injEq, Prod.mk.injEq] at hrun
      obtain ⟨rfl, rfl⟩ := hrun
      exact ⟨q, rfl, hs⟩
  | cons a as ih =>
      obtain ⟨u, o, o', hu, ht, rfl⟩ := M.run_cons_iff.mp hrun
      rw [Machine.along_cons_iff hu] at h
      obtain ⟨q₁, hq₁, hu'⟩ := hstep s a u o q hs hu h.1
      obtain ⟨q₂, hq₂, ht'⟩ := ih hu' h.2 ht
      exact ⟨q₂, by rw [accept_append, hq₁, Option.bind_some, hq₂], ht'⟩

end L0Worker
