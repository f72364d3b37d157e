import L0Worker.Lib.Emitter
import L0Worker.Worker.Basic

/-!
# Listeners

The state machine and the configuration manager notify listeners the same way: a
successful change calls the functions of a copy of the array, and what `onTransition` and
`onUpdate` return removes the first element of the array that is the same function.

`unsubscribes_own_iff`: an unsubscribe removes its own registration, unless it is called
again while the same function has another one.  `hears_transitions_iff`: a listener hears
of every transition once and in order, unless a listener that is called before it makes
another transition or throws.
-/

namespace L0Worker.Worker

open Emitter

/-! ## The two classes -/

/-- `transition` up to the call of the listeners, and the `from` and `to` they get. -/
def WorkerState.notifying (state target : WorkerState) :
    Option (WorkerState × WorkerState × WorkerState) :=
  match state.transition target with
  | .ok state' => some (state', state, target)
  | .error _ => none

/-- `WorkerStateMachine` with its listeners. -/
def stateMachine (F : Type) [DecidableEq F] :
    Machine (Emitter WorkerState F (WorkerState × WorkerState)) (EmitterAction F WorkerState)
      (EmitterEffect F (WorkerState × WorkerState)) :=
  Emitter.machine F WorkerState.notifying

/-- `update` up to the call of the listeners.  They get the object `runtime` itself. -/
def ConfigManager.notifying (c : ConfigManager) (u : ConfigUpdate) :
    Option (ConfigManager × Unit) :=
  match c.update u with
  | .ok c' => some (c', ())
  | .error _ => none

/-- `ConfigManager` with its listeners. -/
def configManager (F : Type) [DecidableEq F] :
    Machine (Emitter ConfigManager F Unit) (EmitterAction F ConfigUpdate) (EmitterEffect F Unit) :=
  Emitter.machine F ConfigManager.notifying

/-! ## Unsubscribing -/

/-- In both classes, unsubscribes remove their own registrations exactly when none is
called again while its function has a registration left. -/
theorem unsubscribes_own_iff (F : Type) [DecidableEq F] (config : ConfigManager)
    (as : List (EmitterAction F WorkerState)) (bs : List (EmitterAction F ConfigUpdate)) :
    ((stateMachine F).Along (fun s a s' _ => OwnOnly WorkerState.notifying s a s') (.new .boot) as ↔
        (stateMachine F).Along (fun s a _ _ => s.CallsOnce a) (.new .boot) as) ∧
      ((configManager F).Along (fun s a s' _ => OwnOnly ConfigManager.notifying s a s')
          (.new config) bs ↔
        (configManager F).Along (fun s a _ _ => s.CallsOnce a) (.new config) bs) :=
  ⟨along_ownOnly_iff (new_notified _) as, along_ownOnly_iff (new_notified _) bs⟩

/-- A function is registered twice, and the first unsubscribe is called twice. -/
theorem unsubscribe_twice_removes_other :
    ¬ ∀ as : List (EmitterAction String WorkerState),
        ((stateMachine String).run (.new .boot) as).isSome = true →
        (stateMachine String).Along (fun s a s' _ => OwnOnly WorkerState.notifying s a s')
          (.new .boot) as := by
  intro claim
  let as : List (EmitterAction String WorkerState) :=
    [.subscribe "log", .subscribe "log", .unsubscribe 0, .unsubscribe 0]
  obtain ⟨s₁, o₁, h₁, -, s₂, o₂, h₂, -, s₃, o₃, h₃, -, s₄, o₄, h₄, hown, -⟩ := claim as rfl
  obtain ⟨rfl, rfl⟩ := Prod.mk.inj (Option.some.inj h₁)
  obtain ⟨rfl, rfl⟩ := Prod.mk.inj (Option.some.inj h₂)
  obtain ⟨rfl, rfl⟩ := Prod.mk.inj (Option.some.inj h₃)
  obtain ⟨rfl, rfl⟩ := Prod.mk.inj (Option.some.inj h₄)
  have hnotified := hown.notified "log"
  cases hnotified

/-! ## The order of notifications -/

/-- How far a state is in the lifecycle. -/
def WorkerState.rank : WorkerState → ℕ
  | .boot => 0
  | .ready => 1
  | .accepting => 2
  | .draining => 3
  | .offline => 4

theorem rank_lt_of_mem (state : WorkerState) :
    ∀ target ∈ transitions state, state.rank < target.rank := by
  cases state <;> decide

/-- A transition that is made. -/
theorem notifying_eq_some {state target state' : WorkerState} {b : WorkerState × WorkerState}
    (h : state.notifying target = some (state', b)) :
    target ∈ transitions state ∧ state' = target ∧ b = (state, target) := by
  unfold WorkerState.notifying WorkerState.transition WorkerState.canTransition at h
  cases hmem : (transitions state).elem target with
  | false =>
      rw [hmem] at h
      cases h
  | true =>
      rw [hmem] at h
      obtain ⟨rfl, rfl⟩ := Prod.mk.inj (Option.some.inj h)
      exact ⟨List.mem_of_elem_eq_true hmem, rfl, rfl⟩

/-- No transition is made twice. -/
theorem notifying_climbs :
    Climbing WorkerState.notifying (fun b => b.2.rank) WorkerState.rank := by
  intro state target state' b h
  obtain ⟨hmem, rfl, rfl⟩ := notifying_eq_some h
  exact ⟨rank_lt_of_mem state _ hmem, Nat.le_refl _⟩

/-- Transitions of which each goes on where the one before it ended. -/
def Chained : WorkerState → WorkerState → List (WorkerState × WorkerState) → Prop
  | a, b, [] => a = b
  | a, b, x :: xs => x.1 = a ∧ Chained x.2 b xs

theorem Chained.append {a b c : WorkerState} {xs ys : List (WorkerState × WorkerState)}
    (h : Chained a b xs) (h' : Chained b c ys) : Chained a c (xs ++ ys) := by
  induction xs generalizing a with
  | nil =>
      obtain rfl := h
      exact h'
  | cons x xs ih => exact ⟨h.1, ih h.2⟩

theorem Chained.isChain {a b : WorkerState} {xs : List (WorkerState × WorkerState)}
    (h : Chained a b xs) : xs.IsChain fun x y => y.1 = x.2 := by
  induction xs generalizing a with
  | nil => exact .nil
  | cons x xs ih =>
      cases xs with
      | nil => exact .singleton x
      | cons y xs => exact .cons_cons h.2.1 (ih h.2)

/-- The listener is notified of every transition once and in order, from where the
previous one led. -/
structure HearsTransitions {F : Type} (k : ℕ)
    (out : List (EmitterEffect F (WorkerState × WorkerState))) : Prop where
  told : told k out = changes out
  chained : (Emitter.told k out).IsChain fun x y => y.1 = x.2

section Runs

variable {F : Type} [DecidableEq F] {s₀ s s' : Emitter WorkerState F (WorkerState × WorkerState)}
  {a : EmitterAction F WorkerState} {as₀ as : List (EmitterAction F WorkerState)}
  {out₀ out o : List (EmitterEffect F (WorkerState × WorkerState))} {k : ℕ}

/-- The transitions of a step lead from the state before it to the state after it. -/
theorem step_chained (hstep : (stateMachine F).step s a = some (s', o)) :
    Chained s.subject s'.subject (changes o) := by
  cases a with
  | subscribe f =>
      obtain ⟨rfl, rfl⟩ := Prod.mk.inj (Option.some.inj hstep)
      rfl
  | unsubscribe k =>
      obtain ⟨hd, -, hstep⟩ := Option.map_eq_some_iff.mp hstep
      obtain ⟨rfl, rfl⟩ := Prod.mk.inj hstep
      rfl
  | change target =>
      have hstep : s.change WorkerState.notifying target = (s', o) := Option.some.inj hstep
      unfold change at hstep
      cases hmade : s.subject.notifying target with
      | none =>
          rw [hmade] at hstep
          obtain ⟨rfl, rfl⟩ := Prod.mk.inj hstep
          rfl
      | some p =>
          obtain ⟨state', b⟩ := p
          rw [hmade] at hstep
          obtain ⟨rfl, rfl⟩ := Prod.mk.inj hstep
          obtain ⟨-, rfl, rfl⟩ := notifying_eq_some hmade
          rw [next_subject]
          refine ⟨rfl, ?_⟩
          exact (congrArg (Chained state' state') (next_changes _)).mpr rfl
  | returns =>
      obtain ⟨-, hstep⟩ := Option.ite_none_left_eq_some.mp hstep
      have hnext : s.next = (s', o) := Option.some.inj hstep
      have hsubject : s'.subject = s.subject := by rw [← next_subject s, hnext]
      have hchanges : changes o = [] := by rw [← next_changes s, hnext]
      rw [hsubject, hchanges]
      rfl
  | throws =>
      obtain ⟨-, hstep⟩ := Option.ite_none_left_eq_some.mp hstep
      obtain ⟨rfl, rfl⟩ := Prod.mk.inj (Option.some.inj hstep)
      rfl

theorem run_chained (hrun : (stateMachine F).run s as = some (s', out)) :
    Chained s.subject s'.subject (changes out) := by
  refine Machine.run_composes (R := fun s s' out => Chained s.subject s'.subject (changes out))
    ?_ ?_ step_chained hrun
  · intro s
    rfl
  · intro s u t o o' hu ht
    have hchanges : changes (o ++ o') = changes o ++ changes o' := List.filterMap_append
    rw [hchanges]
    exact hu.append ht

theorem run_sound (hrun : (stateMachine F).run (.new .boot) as = some (s, out)) :
    Sound (fun b => b.2.rank) WorkerState.rank s := by
  refine (stateMachine F).run_invariant
    (I := fun s => Sound (fun b => b.2.rank) WorkerState.rank s) ?_ (sound_new _) hrun
  intro s a s' o h hstep
  exact h.step notifying_climbs hstep

/-- A listener that is registered throughout a run, at whose ends no loop has still to
call it, hears of its transitions exactly when none is made while a loop has still to call
it, and no loop that has to is left by a throw. -/
theorem hears_transitions_iff (hreach : (stateMachine F).run (.new .boot) as₀ = some (s₀, out₀))
    (hrun : (stateMachine F).run s₀ as = some (s, out)) (hlists : s₀.Lists k)
    (hthroughout : (stateMachine F).Along (fun _ _ s' _ => s'.Lists k) s₀ as)
    (hstart : s₀.due k = []) (hend : s.due k = []) :
    HearsTransitions k out ↔
      (stateMachine F).Along (fun s a _ _ => Undisturbed WorkerState.notifying k s a) s₀ as := by
  have htold : HearsTransitions k out ↔ InOrder k out := by
    constructor
    · intro h
      exact h.told
    · intro h
      refine ⟨h, ?_⟩
      rw [show told k out = changes out from h]
      exact (run_chained hrun).isChain
  exact htold.trans
    (inOrder_iff notifying_climbs (run_sound hreach) hlists hthroughout hrun hstart hend)

end Runs

/-- Of two listeners, the first makes a transition when it is called. -/
theorem nested_transition_reorders :
    ¬ ∀ (s₀ s : Emitter WorkerState String (WorkerState × WorkerState))
        (as₀ as : List (EmitterAction String WorkerState))
        (out₀ out : List (EmitterEffect String (WorkerState × WorkerState))) (k : ℕ),
        (stateMachine String).run (.new .boot) as₀ = some (s₀, out₀) →
        (stateMachine String).run s₀ as = some (s, out) → s₀.Lists k →
        (stateMachine String).Along (fun _ _ s' _ => s'.Lists k) s₀ as →
        s₀.loops = [] → s.loops = [] → HearsTransitions k out := by
  intro claim
  let as₀ : List (EmitterAction String WorkerState) := [.subscribe "first", .subscribe "second"]
  let as : List (EmitterAction String WorkerState) :=
    [.change .ready, .change .accepting, .returns, .returns, .returns, .returns]
  have htold := (claim _ _ as₀ as _ _ 1 rfl rfl (by decide) (by decide) rfl rfl).told
  cases htold

/-- Two listeners, of which the second unsubscribes itself when it is called. -/
theorem hears_transitions_iff_removal :
    let as₀ : List (EmitterAction String WorkerState) := [.subscribe "first", .subscribe "second"]
    let as : List (EmitterAction String WorkerState) :=
      [.change .ready, .returns, .unsubscribe 1, .returns, .change .draining, .returns]
    ∃ s₀ s out₀ out, (stateMachine String).run (.new .boot) as₀ = some (s₀, out₀) ∧
      (stateMachine String).run s₀ as = some (s, out) ∧ HearsTransitions 0 out := by
  intro as₀ as
  exact ⟨_, _, _, _, rfl, rfl, (@hears_transitions_iff String _ _ _ as₀ as _ _ 0 rfl rfl
    (by decide) (by decide) rfl rfl).mpr (by decide)⟩

end L0Worker.Worker
