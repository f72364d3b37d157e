import Mathlib.Data.List.Basic
import Mathlib.Data.List.Induction
import Mathlib.Order.Lattice

/-!
# Machines and their runs

A machine reads an action, moves from one state to the next and writes a list
of outputs.  The step function is partial: `none` says that the action is not
enabled in the state.  Nothing here speaks of a particular program.

`Machine.run` executes a list of actions.  `Machine.Along P` says that every
step of such an execution is enabled and satisfies `P`, which may look at the
state before, the action, the state after and the outputs.

Two kinds of rule carry an argument from one step to a whole run.

* `run_invariant`, `run_history` and `Along.invariant` carry an invariant of
  states, of the history together with the state, and of states under a
  condition on each step; `run_composes` carries a relation between the state
  before, the state after and the outputs, such as `Increases`.
* `Along.congr` and `Along.mono` compare two step properties under an
  invariant.  `Along.congr` is the rule behind every "holds exactly when"
  about runs.
-/

namespace L0Worker

/-- A machine over states `σ` that reads actions `α` and writes outputs `ε`. -/
structure Machine (σ α ε : Type*) where
  /-- One step, `none` where the action is not enabled. -/
  step : σ → α → Option (σ × List ε)

namespace Machine

variable {σ α ε : Type*}

/-! ## Runs -/

/-- Execute the actions in order and collect the outputs. -/
def run (M : Machine σ α ε) : σ → List α → Option (σ × List ε)
  | s, [] => some (s, [])
  | s, a :: as =>
      (M.step s a).bind fun p => (M.run p.1 as).map fun q => (q.1, p.2 ++ q.2)

variable (M : Machine σ α ε)

@[simp] theorem run_nil (s : σ) : M.run s [] = some (s, []) := rfl

theorem run_cons_iff {s t : σ} {a : α} {as : List α} {out : List ε} :
    M.run s (a :: as) = some (t, out) ↔
      ∃ u o o', M.step s a = some (u, o) ∧ M.run u as = some (t, o') ∧ out = o ++ o' := by
  simp only [run, Option.bind_eq_some_iff, Option.map_eq_some_iff, Prod.exists, Prod.mk.injEq]
  constructor
  · rintro ⟨u, o, hu, t', o', ht, rfl, rfl⟩
    exact ⟨u, o, o', hu, ht, rfl⟩
  · rintro ⟨u, o, o', hu, ht, rfl⟩
    exact ⟨u, o, hu, t, o', ht, rfl, rfl⟩

/-- A run splits at any point of its action list. -/
theorem run_append_iff {s t : σ} {as bs : List α} {out : List ε} :
    M.run s (as ++ bs) = some (t, out) ↔
      ∃ u o o', M.run s as = some (u, o) ∧ M.run u bs = some (t, o') ∧ out = o ++ o' := by
  induction as generalizing s out with
  | nil =>
      constructor
      · intro h
        exact ⟨s, [], out, rfl, h, rfl⟩
      · rintro ⟨u, o, o', hu, ht, rfl⟩
        simp only [run_nil, Option.some.injEq, Prod.mk.injEq] at hu
        obtain ⟨rfl, rfl⟩ := hu
        simpa using ht
  | cons a as ih =>
      rw [List.cons_append, run_cons_iff]
      constructor
      · rintro ⟨u, o, o', hu, ht, rfl⟩
        obtain ⟨v, p, p', hv, hv', rfl⟩ := ih.mp ht
        exact ⟨v, o ++ p, p', M.run_cons_iff.mpr ⟨u, o, p, hu, hv, rfl⟩, hv',
          (List.append_assoc o p p').symm⟩
      · rintro ⟨v, o, o', hv, ht, rfl⟩
        obtain ⟨u, p, p', hu, hu', rfl⟩ := M.run_cons_iff.mp hv
        exact ⟨u, p, p' ++ o', hu, ih.mpr ⟨v, p', o', hu', ht, rfl⟩, List.append_assoc p p' o'⟩

theorem run_singleton_iff {s t : σ} {a : α} {out : List ε} :
    M.run s [a] = some (t, out) ↔ M.step s a = some (t, out) := by
  rw [run_cons_iff]
  constructor
  · rintro ⟨u, o, o', hu, ht, rfl⟩
    simp only [run_nil, Option.some.injEq, Prod.mk.injEq] at ht
    obtain ⟨rfl, rfl⟩ := ht
    simpa using hu
  · intro h
    exact ⟨t, out, [], h, rfl, (List.append_nil out).symm⟩

/-- The last step of a run. -/
theorem run_concat_iff {s t : σ} {as : List α} {a : α} {out : List ε} :
    M.run s (as ++ [a]) = some (t, out) ↔
      ∃ u o o', M.run s as = some (u, o) ∧ M.step u a = some (t, o') ∧ out = o ++ o' := by
  simp only [run_append_iff, run_singleton_iff]

/-- Every action of a run was a step of it. -/
theorem run_step_of_mem {s t : σ} {as : List α} {a : α} {out : List ε}
    (hrun : M.run s as = some (t, out)) (ha : a ∈ as) :
    ∃ u v o, M.step u a = some (v, o) ∧ ∀ e ∈ o, e ∈ out := by
  obtain ⟨before, after, rfl⟩ := List.append_of_mem ha
  obtain ⟨u, o, o', -, hu, rfl⟩ := M.run_append_iff.mp hrun
  obtain ⟨v, p, p', hv, -, rfl⟩ := M.run_cons_iff.mp hu
  exact ⟨u, v, p, hv, fun e he => List.mem_append_right o (List.mem_append_left p' he)⟩

/-! ## Invariants of a run -/

/-- An invariant of every step holds at the end of every run. -/
theorem run_invariant {I : σ → Prop}
    (hstep : ∀ s a s' o, I s → M.step s a = some (s', o) → I s')
    {s t : σ} {as : List α} {out : List ε} (hs : I s) (hrun : M.run s as = some (t, out)) :
    I t := by
  induction as generalizing s out with
  | nil =>
      simp only [run_nil, Option.some.injEq, Prod.mk.injEq] at hrun
      exact hrun.1 ▸ hs
  | cons a as ih =>
      obtain ⟨u, o, o', hu, ht, -⟩ := M.run_cons_iff.mp hrun
      exact ih (hstep s a u o hs hu) ht

/-- A property of the actions and outputs so far together with the state, kept
by every step, holds at the end of every run. -/
theorem run_history {J : List α → List ε → σ → Prop} {s : σ}
    (hstep : ∀ as out u a u' o, M.run s as = some (u, out) → J as out u →
      M.step u a = some (u', o) → J (as ++ [a]) (out ++ o) u')
    (hs : J [] [] s) {t : σ} {as : List α} {out : List ε}
    (hrun : M.run s as = some (t, out)) : J as out t := by
  -- from the end, so that `J` is known where the last step starts
  induction as using List.reverseRecOn generalizing t out with
  | nil =>
      simp only [run_nil, Option.some.injEq, Prod.mk.injEq] at hrun
      obtain ⟨rfl, rfl⟩ := hrun
      exact hs
  | append_singleton as a ih =>
      obtain ⟨u, o, o', hu, ht, rfl⟩ := M.run_concat_iff.mp hrun
      exact hstep as o u a t o' hu (ih hu) ht

/-! ## Steps that a run has taken -/

/-- Somewhere in the run from `s`, a state and the action taken in it satisfy `P`. -/
def Sometime (P : σ → α → Prop) (s : σ) (as : List α) : Prop :=
  ∃ before a after u o, as = before ++ a :: after ∧ M.run s before = some (u, o) ∧ P u a

variable {M} in
theorem Sometime.append {P : σ → α → Prop} {s : σ} {as : List α} (h : M.Sometime P s as)
    (bs : List α) : M.Sometime P s (as ++ bs) := by
  obtain ⟨before, a, after, u, o, rfl, hrun, hP⟩ := h
  exact ⟨before, a, after ++ bs, u, o, by rw [List.append_assoc, List.cons_append], hrun, hP⟩

theorem sometime_last {P : σ → α → Prop} {s u : σ} {as : List α} {a : α} {out : List ε}
    (hrun : M.run s as = some (u, out)) (hP : P u a) : M.Sometime P s (as ++ [a]) :=
  ⟨as, a, [], u, out, rfl, hrun, hP⟩

/-! ## Properties of every step of a run -/

/-- Every step of the actions from `s` is enabled and satisfies `P`. -/
def Along (M : Machine σ α ε) (P : σ → α → σ → List ε → Prop) : σ → List α → Prop
  | _, [] => True
  | s, a :: as => ∃ s' o, M.step s a = some (s', o) ∧ P s a s' o ∧ M.Along P s' as

variable {M}

@[simp] theorem along_nil {P : σ → α → σ → List ε → Prop} (s : σ) : M.Along P s [] := trivial

theorem along_cons_iff {P : σ → α → σ → List ε → Prop} {s u : σ} {a : α} {as : List α}
    {o : List ε} (hu : M.step s a = some (u, o)) :
    M.Along P s (a :: as) ↔ P s a u o ∧ M.Along P u as := by
  constructor
  · rintro ⟨u', o', hu', hP, has⟩
    rw [hu] at hu'
    obtain ⟨rfl, rfl⟩ := Prod.mk.inj (Option.some.inj hu')
    exact ⟨hP, has⟩
  · rintro ⟨hP, has⟩
    exact ⟨u, o, hu, hP, has⟩

/-- Whether every step of the actions satisfies `P` is found by executing them. -/
instance decidableAlong {P : σ → α → σ → List ε → Prop}
    [∀ s a s' o, Decidable (P s a s' o)] : (s : σ) → (as : List α) → Decidable (M.Along P s as)
  | _, [] => isTrue trivial
  | s, a :: as =>
      match h : M.step s a with
      | none => isFalse fun ⟨_, _, hs, _⟩ => by rw [h] at hs; cases hs
      | some (s', _) =>
          have : Decidable (M.Along P s' as) := decidableAlong s' as
          decidable_of_iff _ (along_cons_iff h).symm

/-- A property of every step whose action meets a condition holds along every run
that consists of such actions. -/
theorem along_of_actions {P : σ → α → σ → List ε → Prop} {s t : σ} {as : List α}
    {out : List ε} (hP : ∀ a ∈ as, ∀ s s' o, P s a s' o) (hrun : M.run s as = some (t, out)) :
    M.Along P s as := by
  induction as generalizing s out with
  | nil => trivial
  | cons a as ih =>
      obtain ⟨u, o, o', hu, ht, -⟩ := M.run_cons_iff.mp hrun
      exact ⟨u, o, hu, hP a List.mem_cons_self s u o,
        ih (fun b hb => hP b (List.mem_cons_of_mem a hb)) ht⟩

/-- A property of the actions alone. -/
theorem along_of_forall_mem {G : α → Prop} {s t : σ} {as : List α} {out : List ε}
    (hG : ∀ a ∈ as, G a) (hrun : M.run s as = some (t, out)) :
    M.Along (fun _ a _ _ => G a) s as :=
  along_of_actions (fun a ha _ _ _ => hG a ha) hrun

namespace Along

/-- Under an invariant that the steps satisfying `P` keep, `P` may be replaced by
a property it implies. -/
theorem mono {I : σ → Prop} {P Q : σ → α → σ → List ε → Prop}
    (hPQ : ∀ s a s' o, I s → M.step s a = some (s', o) → P s a s' o → Q s a s' o)
    (hI : ∀ s a s' o, I s → M.step s a = some (s', o) → P s a s' o → I s')
    {s : σ} {as : List α} (hs : I s) (h : M.Along P s as) : M.Along Q s as := by
  induction as generalizing s with
  | nil => trivial
  | cons a as ih =>
      obtain ⟨u, o, hu, hP, has⟩ := h
      exact ⟨u, o, hu, hPQ s a u o hs hu hP, ih (hI s a u o hs hu hP) has⟩

/-- Two step properties that agree wherever the invariant holds agree along
every run, when the steps that satisfy them keep the invariant. -/
theorem congr {I : σ → Prop} {P Q : σ → α → σ → List ε → Prop}
    (hPQ : ∀ s a s' o, I s → M.step s a = some (s', o) → (P s a s' o ↔ Q s a s' o))
    (hI : ∀ s a s' o, I s → M.step s a = some (s', o) → P s a s' o → I s')
    {s : σ} {as : List α} (hs : I s) : M.Along P s as ↔ M.Along Q s as := by
  constructor
  · exact mono (fun s a s' o h hu => (hPQ s a s' o h hu).mp) hI hs
  · exact mono (fun s a s' o h hu => (hPQ s a s' o h hu).mpr)
      (fun s a s' o h hu hQ => hI s a s' o h hu ((hPQ s a s' o h hu).mpr hQ)) hs

/-- An invariant kept by the steps that satisfy `P` holds at the end of a run
along `P`. -/
theorem invariant {I : σ → Prop} {P : σ → α → σ → List ε → Prop}
    (hI : ∀ s a s' o, I s → M.step s a = some (s', o) → P s a s' o → I s')
    {s t : σ} {as : List α} {out : List ε} (hs : I s) (h : M.Along P s as)
    (hrun : M.run s as = some (t, out)) : I t := by
  induction as generalizing s out with
  | nil =>
      simp only [run_nil, Option.some.injEq, Prod.mk.injEq] at hrun
      exact hrun.1 ▸ hs
  | cons a as ih =>
      obtain ⟨u, o, o', hu, ht, -⟩ := M.run_cons_iff.mp hrun
      rw [along_cons_iff hu] at h
      exact ih (hI s a u o hs hu h.1) h.2 ht

/-- A property of single outputs holds of the outputs of every step exactly when
it holds of the outputs of the run. -/
theorem forall_output_iff {R : ε → Prop} {s t : σ} {as : List α} {out : List ε}
    (hrun : M.run s as = some (t, out)) :
    M.Along (fun _ _ _ o => ∀ e ∈ o, R e) s as ↔ ∀ e ∈ out, R e := by
  induction as generalizing s out with
  | nil =>
      simp only [run_nil, Option.some.injEq, Prod.mk.injEq] at hrun
      obtain ⟨-, rfl⟩ := hrun
      simp
  | cons a as ih =>
      obtain ⟨u, o, o', hu, ht, rfl⟩ := M.run_cons_iff.mp hrun
      rw [along_cons_iff hu, ih ht, List.forall_mem_append]

/-- A property of the actions alone holds along a run exactly when it holds of its actions. -/
theorem forall_action_iff {G : α → Prop} {s t : σ} {as : List α} {out : List ε}
    (hrun : M.run s as = some (t, out)) :
    M.Along (fun _ a _ _ => G a) s as ↔ ∀ a ∈ as, G a := by
  refine ⟨fun h => ?_, fun hG => along_of_forall_mem hG hrun⟩
  clear hrun
  induction as generalizing s with
  | nil => exact List.forall_mem_nil G
  | cons a as ih =>
      obtain ⟨u, o, -, hG, has⟩ := h
      exact List.forall_mem_cons.mpr ⟨hG, ih has⟩

/-- Two runs along `P`, one after the other. -/
theorem append {P : σ → α → σ → List ε → Prop} {s u : σ} {as bs : List α} {out : List ε}
    (h : M.Along P s as) (hrun : M.run s as = some (u, out)) (h' : M.Along P u bs) :
    M.Along P s (as ++ bs) := by
  induction as generalizing s out with
  | nil =>
      simp only [run_nil, Option.some.injEq, Prod.mk.injEq] at hrun
      rw [List.nil_append, hrun.1]
      exact h'
  | cons a as ih =>
      obtain ⟨t, o, ht, hP, has⟩ := h
      obtain ⟨t', o', o'', ht', hrest, -⟩ := M.run_cons_iff.mp hrun
      obtain ⟨rfl, rfl⟩ := Prod.mk.inj (Option.some.inj (ht.symm.trans ht'))
      exact ⟨t, o, ht, hP, ih has hrest⟩

/-- The last step of a run along `P`. -/
theorem last {P : σ → α → σ → List ε → Prop} {s : σ} {as : List α} {a : α}
    (h : M.Along P s (as ++ [a])) :
    ∃ u o v o', M.run s as = some (u, o) ∧ M.step u a = some (v, o') ∧
      M.run s (as ++ [a]) = some (v, o ++ o') ∧ P u a v o' := by
  induction as generalizing s with
  | nil =>
      obtain ⟨v, o, hv, hP, -⟩ := h
      exact ⟨s, [], v, o, rfl, hv, M.run_singleton_iff.mpr hv, hP⟩
  | cons b as ih =>
      obtain ⟨t, p, ht, -, has⟩ := h
      obtain ⟨u, o, v, o', hu, hv, hv', hP⟩ := ih has
      refine ⟨u, p ++ o, v, o', M.run_cons_iff.mpr ⟨t, p, o, ht, hu, rfl⟩, hv, ?_, hP⟩
      exact M.run_cons_iff.mpr ⟨t, p, o ++ o', ht, hv', List.append_assoc p o o'⟩

theorem and_iff {P Q : σ → α → σ → List ε → Prop} {s : σ} {as : List α} :
    M.Along (fun s a s' o => P s a s' o ∧ Q s a s' o) s as ↔ M.Along P s as ∧ M.Along Q s as := by
  induction as generalizing s with
  | nil => simp
  | cons a as ih =>
      constructor
      · rintro ⟨u, o, hu, hPQ, has⟩
        exact ⟨⟨u, o, hu, hPQ.1, (ih.mp has).1⟩, ⟨u, o, hu, hPQ.2, (ih.mp has).2⟩⟩
      · rintro ⟨⟨u, o, hu, hP, has⟩, hQ⟩
        rw [along_cons_iff hu] at hQ
        exact ⟨u, o, hu, ⟨hP, hQ.1⟩, ih.mpr ⟨has, hQ.2⟩⟩

end Along

/-! ## Steps that compose -/

/-- A relation between two states and the outputs on the way, when it composes and
every step satisfies it, is satisfied by every run. -/
theorem run_composes {R : σ → σ → List ε → Prop} (hnil : ∀ s, R s s [])
    (happend : ∀ {s u t o o'}, R s u o → R u t o' → R s t (o ++ o'))
    (hstep : ∀ {s a s' o}, M.step s a = some (s', o) → R s s' o)
    {s t : σ} {as : List α} {out : List ε} (hrun : M.run s as = some (t, out)) : R s t out := by
  induction as generalizing s out with
  | nil =>
      simp only [run_nil, Option.some.injEq, Prod.mk.injEq] at hrun
      obtain ⟨rfl, rfl⟩ := hrun
      exact hnil s
  | cons a as ih =>
      obtain ⟨u, o, o', hu, ht, rfl⟩ := M.run_cons_iff.mp hrun
      exact happend (hstep hu) (ih ht)

/-! ## Machines whose steps are runs of another -/

/-- When every step of a machine is a run of another, so is every run of it. -/
theorem run_flatMap {β : Type*} {N : Machine σ β ε} {f : β → List α}
    (hstep : ∀ {s b s' o}, N.step s b = some (s', o) → M.run s (f b) = some (s', o))
    {s t : σ} {bs : List β} {out : List ε} (hrun : N.run s bs = some (t, out)) :
    M.run s (bs.flatMap f) = some (t, out) := by
  induction bs generalizing s out with
  | nil => exact hrun
  | cons b bs ih =>
      obtain ⟨u, o, o', hu, ht, rfl⟩ := N.run_cons_iff.mp hrun
      rw [List.flatMap_cons]
      exact M.run_append_iff.mpr ⟨u, o, o', hstep hu, ih ht, rfl⟩

/-! ## The history as part of the state -/

/-- The machine with its outputs so far as a part of its state, for properties of a
step that look back. -/
def withHistory (M : Machine σ α ε) : Machine (σ × List ε) α ε where
  step p a := (M.step p.1 a).map fun q => ((q.1, p.2 ++ q.2), q.2)

theorem withHistory_step_iff {p p' : σ × List ε} {a : α} {o : List ε} :
    M.withHistory.step p a = some (p', o) ↔ M.step p.1 a = some (p'.1, o) ∧ p'.2 = p.2 ++ o := by
  obtain ⟨s', h'⟩ := p'
  simp only [withHistory, Option.map_eq_some_iff, Prod.mk.injEq, Prod.exists]
  constructor
  · rintro ⟨t, q, ht, ⟨rfl, rfl⟩, rfl⟩
    exact ⟨ht, rfl⟩
  · rintro ⟨ht, rfl⟩
    exact ⟨s', o, ht, ⟨rfl, rfl⟩, rfl⟩

/-! ## Other outputs -/

/-- The machine that writes what is read off each step instead. -/
def observe {ζ : Type*} (M : Machine σ α ε) (f : α → List ε → List ζ) : Machine σ α ζ where
  step s a := (M.step s a).map fun p => (p.1, f a p.2)

theorem observe_step_iff {ζ : Type*} {f : α → List ε → List ζ} {s s' : σ} {a : α} {o : List ζ} :
    (M.observe f).step s a = some (s', o) ↔ ∃ out, M.step s a = some (s', out) ∧ o = f a out := by
  simp only [observe, Option.map_eq_some_iff, Prod.mk.injEq, Prod.exists]
  constructor
  · rintro ⟨u, out, hu, rfl, rfl⟩
    exact ⟨out, hu, rfl⟩
  · rintro ⟨out, hu, rfl⟩
    exact ⟨s', out, hu, rfl, rfl⟩

theorem observe_step {ζ : Type*} {f : α → List ε → List ζ} {s s' : σ} {a : α} {out : List ε}
    (h : M.step s a = some (s', out)) : (M.observe f).step s a = some (s', f a out) :=
  observe_step_iff.mpr ⟨out, h, rfl⟩

/-- The machine that writes what is read off the state before each step and its action. -/
def record {ζ : Type*} (M : Machine σ α ε) (f : σ → α → List ζ) : Machine σ α ζ where
  step s a := (M.step s a).map fun p => (p.1, f s a)

theorem record_step_iff {ζ : Type*} {f : σ → α → List ζ} {s s' : σ} {a : α} {o : List ζ} :
    (M.record f).step s a = some (s', o) ↔ (∃ out, M.step s a = some (s', out)) ∧ o = f s a := by
  simp only [record, Option.map_eq_some_iff, Prod.mk.injEq, Prod.exists]
  constructor
  · rintro ⟨u, out, hu, rfl, rfl⟩
    exact ⟨⟨out, hu⟩, rfl⟩
  · rintro ⟨⟨out, hu⟩, rfl⟩
    exact ⟨s', out, hu, rfl, rfl⟩

end Machine

/-! ## Outputs in increasing order -/

/-- The keys among the outputs increase strictly, from above `b` up to `b'`. -/
structure Increases {β ε : Type*} [LinearOrder β] (key : ε → Option β) (b b' : β)
    (o : List ε) : Prop where
  le : b ≤ b'
  sorted : (o.filterMap key).Pairwise (· < ·)
  within : ∀ k ∈ o.filterMap key, b < k ∧ k ≤ b'

namespace Increases

variable {β ε : Type*} [LinearOrder β] {key : ε → Option β} {b b' b'' : β} {o o' : List ε}

theorem nil (b : β) : Increases key b b [] :=
  ⟨le_refl b, List.Pairwise.nil, List.forall_mem_nil _⟩

/-- Outputs without a key, while the bound may rise. -/
theorem of_silent (hle : b ≤ b') (h : o.filterMap key = []) : Increases key b b' o :=
  ⟨hle, h ▸ List.Pairwise.nil, h ▸ List.forall_mem_nil _⟩

/-- Outputs of which one has a key, above the old bound and equal to the new one. -/
theorem of_single (hlt : b < b') (h : o.filterMap key = [b']) : Increases key b b' o := by
  refine ⟨le_of_lt hlt, h ▸ List.pairwise_singleton _ _, h ▸ ?_⟩
  exact List.forall_mem_singleton.mpr ⟨hlt, le_refl b'⟩

theorem append (h : Increases key b b' o) (h' : Increases key b' b'' o') :
    Increases key b b'' (o ++ o') := by
  refine ⟨le_trans h.le h'.le, ?_, ?_⟩
  · rw [List.filterMap_append, List.pairwise_append]
    exact ⟨h.sorted, h'.sorted, fun k hk k' hk' =>
      lt_of_le_of_lt (h.within k hk).2 (h'.within k' hk').1⟩
  · intro k hk
    rw [List.filterMap_append] at hk
    rcases List.mem_append.mp hk with hk | hk
    · exact ⟨(h.within k hk).1, le_trans (h.within k hk).2 h'.le⟩
    · exact ⟨lt_of_le_of_lt h.le (h'.within k hk).1, (h'.within k hk).2⟩

end Increases

end L0Worker
