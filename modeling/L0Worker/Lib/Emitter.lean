import Mathlib.Data.List.Count
import Mathlib.Data.List.Nodup
import L0Worker.Lib.Machine

/-!
# Emitters

An emitter holds a subject and an array of listeners.  A change of the subject copies the
array and calls the listeners of the copy one after the other.  Subscribing pushes a
function and returns a handle, and calling the handle removes the first element of the
array that is the same function.

A listener is arbitrary code: while it runs it may subscribe, call a handle, or make a
change of its own, which starts a loop inside the loop that called it.  So a run is any
sequence of such actions together with the returns and the throws of the listener that
runs, and the loops form a stack.

Two laws are compared with this.  A handle should remove its own registration only
(`along_ownOnly_iff`).  A listener should hear of every change once and in order
(`along_undisturbed_iff`), which is about what it was told and what the running loops have
still to tell it.
-/

namespace L0Worker

/-! ## State -/

/-- An element of the array, with the number of the call that pushed it. -/
structure Registration (F : Type*) where
  number : ℕ
  function : F

/-- What a call of subscribe returned. -/
structure Handle (F : Type*) where
  function : F
  /-- Whether it was called.  No step reads this. -/
  called : Bool

/-- A loop over a copy of the array. -/
structure Notification (F β : Type*) where
  argument : β
  /-- The listeners that have not been called yet. -/
  rest : List (Registration F)

/-- The state of an emitter. -/
structure Emitter (σ F β : Type*) where
  subject : σ
  listeners : List (Registration F)
  /-- The handles, oldest first. -/
  handles : List (Handle F)
  /-- The loops that run, innermost first. -/
  loops : List (Notification F β)

inductive EmitterAction (F α : Type*) where
  | subscribe (f : F)
  /-- The handle of the call with this number is called. -/
  | unsubscribe (k : ℕ)
  | change (x : α)
  /-- The listener that runs returns. -/
  | returns
  /-- The listener that runs throws, and so does the change whose loop called it. -/
  | throws

inductive EmitterEffect (F β : Type*) where
  | changed (argument : β)
  /-- The change was refused. -/
  | refused
  | called (r : Registration F) (argument : β)

/-- The change that is made, if one is. -/
def EmitterEffect.change? {F β : Type*} : EmitterEffect F β → Option β
  | .changed argument => some argument
  | _ => none

/-- What the listener with this number is called with, if it is. -/
def EmitterEffect.told? {F β : Type*} (k : ℕ) : EmitterEffect F β → Option β
  | .called r argument => if r.number = k then some argument else none
  | _ => none

/-- What a loop has still to call the listener with this number with. -/
def Notification.due {F β : Type*} (k : ℕ) (l : Notification F β) : List β :=
  List.replicate ((l.rest.map Registration.number).count k) l.argument

/-- The effect is a call of this function. -/
def EmitterEffect.isCall {F β : Type*} [DecidableEq F] (f : F) : EmitterEffect F β → Bool
  | .called r _ => r.function = f
  | _ => false

namespace Emitter

variable {σ F α β : Type*}

def new (subject : σ) : Emitter σ F β := ⟨subject, [], [], []⟩

/-! ## Steps -/

/-- The innermost loop calls its next listener or ends. -/
def next (s : Emitter σ F β) : Emitter σ F β × List (EmitterEffect F β) :=
  match s.loops with
  | [] => (s, [])
  | ⟨_, []⟩ :: outer => ({ s with loops := outer }, [])
  | ⟨argument, r :: rest⟩ :: outer =>
      ({ s with loops := ⟨argument, rest⟩ :: outer }, [.called r argument])

def subscribe (s : Emitter σ F β) (f : F) : Emitter σ F β :=
  { s with
    listeners := s.listeners ++ [⟨s.handles.length, f⟩]
    handles := s.handles ++ [⟨f, false⟩] }

/-- The first element with this function leaves the array. -/
def remove [DecidableEq F] (f : F) (listeners : List (Registration F)) : List (Registration F) :=
  listeners.eraseP fun r => r.function = f

def unsubscribe [DecidableEq F] (s : Emitter σ F β) (k : ℕ) (h : Handle F) : Emitter σ F β :=
  { s with
    listeners := remove h.function s.listeners
    handles := s.handles.set k ⟨h.function, true⟩ }

/-- A change, refused or followed by the start of its loop. -/
def change (make : σ → α → Option (σ × β)) (s : Emitter σ F β) (x : α) :
    Emitter σ F β × List (EmitterEffect F β) :=
  match make s.subject x with
  | none => (s, [.refused])
  | some (subject, argument) =>
      let r := next { s with subject, loops := ⟨argument, s.listeners⟩ :: s.loops }
      (r.1, .changed argument :: r.2)

def step [DecidableEq F] (make : σ → α → Option (σ × β)) (s : Emitter σ F β) :
    EmitterAction F α → Option (Emitter σ F β × List (EmitterEffect F β))
  | .subscribe f => some (s.subscribe f, [])
  | .unsubscribe k => s.handles[k]?.map fun h => (s.unsubscribe k h, [])
  | .change x => some (s.change make x)
  | .returns => if s.loops.isEmpty then none else some s.next
  | .throws => if s.loops.isEmpty then none else some ({ s with loops := s.loops.tail }, [])

/-- The machine of an emitter whose subject changes by `make`. -/
def machine (F : Type*) [DecidableEq F] (make : σ → α → Option (σ × β)) :
    Machine (Emitter σ F β) (EmitterAction F α) (EmitterEffect F β) :=
  ⟨step make⟩

/-! ## Handles and registrations -/

theorem next_listeners (s : Emitter σ F β) :
    s.next.1.listeners = s.listeners ∧ s.next.1.handles = s.handles := by
  unfold next
  split
  · exact ⟨rfl, rfl⟩
  · exact ⟨rfl, rfl⟩
  · exact ⟨rfl, rfl⟩

section Handles

variable [DecidableEq F] {make : σ → α → Option (σ × β)} {s s' : Emitter σ F β}
  {a : EmitterAction F α} {o : List (EmitterEffect F β)}

/-- How often a function is in the array. -/
def notified (s : Emitter σ F β) (f : F) : ℕ := s.listeners.countP fun r => r.function = f

/-- The registrations of a function whose handle has not been called. -/
def live (s : Emitter σ F β) (f : F) : ℕ :=
  s.handles.countP fun h => h.function = f ∧ h.called = false

/-- The actions of a change whose listeners return. -/
def notify (s : Emitter σ F β) (x : α) : List (EmitterAction F α) :=
  .change x :: List.replicate s.listeners.length .returns

/-- What it requires of a step that handles remove their own registrations only: every
function is in the array once for each of its live registrations, so that a change calls
it as often, and a handle that was called does nothing. -/
structure OwnOnly (make : σ → α → Option (σ × β)) (s : Emitter σ F β) (a : EmitterAction F α)
    (s' : Emitter σ F β) : Prop where
  notified : ∀ f, s'.notified f = s'.live f
  calls : ∀ x p, make s'.subject x = some p → ∃ t out,
    (machine F make).run s' (s'.notify x) = some (t, out) ∧
      ∀ f, out.countP (EmitterEffect.isCall f) = s'.live f
  again : ∀ k h, a = .unsubscribe k → s.handles[k]? = some h → h.called = true →
    s'.listeners = s.listeners

/-- A handle that was called is called again only when its function has no live
registration. -/
def CallsOnce (s : Emitter σ F β) (a : EmitterAction F α) : Prop :=
  ∀ k h, a = .unsubscribe k → s.handles[k]? = some h → h.called = true → s.live h.function = 0

theorem notified_subscribe (s : Emitter σ F β) (f g : F) :
    (s.subscribe f).notified g = s.notified g + if f = g then 1 else 0 := by
  simp only [notified, subscribe, List.countP_append, List.countP_singleton, decide_eq_true_eq]

theorem live_subscribe (s : Emitter σ F β) (f g : F) :
    (s.subscribe f).live g = s.live g + if f = g then 1 else 0 := by
  simp only [live, subscribe, List.countP_append, List.countP_singleton, decide_eq_true_eq,
    and_true]

/-- The function is not in the array, or its first registration leaves it. -/
theorem remove_cases (f : F) (rs : List (Registration F)) :
    ((∀ r ∈ rs, r.function ≠ f) ∧ remove f rs = rs) ∨
      ∃ before r after, rs = before ++ r :: after ∧ r.function = f ∧
        remove f rs = before ++ after := by
  induction rs with
  | nil => exact .inl ⟨List.forall_mem_nil _, rfl⟩
  | cons r rs ih =>
      by_cases hr : r.function = f
      · refine .inr ⟨[], r, rs, rfl, hr, ?_⟩
        exact List.eraseP_cons_of_pos (decide_eq_true hr)
      · have hcons : remove f (r :: rs) = r :: remove f rs :=
          List.eraseP_cons_of_neg (by rw [decide_eq_true_eq]; exact hr)
        rw [hcons]
        rcases ih with ⟨hno, heq⟩ | ⟨before, r', after, heq, hr', hremove⟩
        · exact .inl ⟨List.forall_mem_cons.mpr ⟨hr, hno⟩, congrArg _ heq⟩
        · exact .inr ⟨r :: before, r', after, congrArg _ heq, hr', congrArg _ hremove⟩

theorem notified_unsubscribe (s : Emitter σ F β) (k : ℕ) (h : Handle F) (g : F) :
    (s.unsubscribe k h).notified g = s.notified g - if h.function = g then 1 else 0 := by
  show (remove h.function s.listeners).countP _ = s.listeners.countP _ - _
  rcases remove_cases h.function s.listeners with ⟨hno, heq⟩ | ⟨before, r, after, hs, hr, heq⟩
  · rw [heq]
    split
    case isTrue hg =>
      rw [List.countP_eq_zero.mpr]
      intro r hr
      rw [decide_eq_true_eq, ← hg]
      exact hno r hr
    case isFalse hg => rfl
  · rw [heq, hs, List.countP_append, List.countP_append, List.countP_cons, hr]
    simp only [decide_eq_true_eq]
    omega

theorem live_unsubscribe {k : ℕ} {h : Handle F} (hk : s.handles[k]? = some h) (g : F) :
    (s.unsubscribe k h).live g =
      s.live g - if h.function = g ∧ h.called = false then 1 else 0 := by
  obtain ⟨hlt, hget⟩ := List.getElem?_eq_some_iff.mp hk
  show (s.handles.set k ⟨h.function, true⟩).countP _ = s.handles.countP _ - _
  rw [List.countP_set hlt, hget]
  simp only [decide_eq_true_eq, Bool.true_eq_false, and_false, if_false, Nat.add_zero]

theorem remove_eq_of_notified {f : F} (h : s.notified f = 0) :
    remove f s.listeners = s.listeners := by
  refine List.eraseP_of_forall_not fun r hr => ?_
  exact List.countP_eq_zero.mp h r hr

/-- A step subscribes, calls a handle, or leaves the registrations alone. -/
inductive StepHandles (s : Emitter σ F β) : EmitterAction F α → Emitter σ F β → Prop where
  | subscribed (f : F) : StepHandles s (.subscribe f) (s.subscribe f)
  | unsubscribed {k : ℕ} {h : Handle F} (hk : s.handles[k]? = some h) :
      StepHandles s (.unsubscribe k) (s.unsubscribe k h)
  | kept {a : EmitterAction F α} {s' : Emitter σ F β} (ha : ∀ k, a ≠ .unsubscribe k)
      (hlisteners : s'.listeners = s.listeners) (hhandles : s'.handles = s.handles) :
      StepHandles s a s'

theorem step_handles (hstep : (machine F make).step s a = some (s', o)) : StepHandles s a s' := by
  cases a with
  | subscribe f =>
      obtain ⟨rfl, -⟩ := Prod.mk.inj (Option.some.inj hstep)
      exact .subscribed f
  | unsubscribe k =>
      obtain ⟨h, hk, hstep⟩ := Option.map_eq_some_iff.mp hstep
      obtain ⟨rfl, -⟩ := Prod.mk.inj hstep
      exact .unsubscribed hk
  | change x =>
      obtain rfl : (s.change make x).1 = s' := congrArg Prod.fst (Option.some.inj hstep)
      unfold change
      split
      · exact .kept (fun k hk => nomatch hk) rfl rfl
      · exact .kept (fun k hk => nomatch hk) (next_listeners _).1 (next_listeners _).2
  | returns =>
      obtain ⟨-, hstep⟩ := Option.ite_none_left_eq_some.mp hstep
      obtain rfl : s.next.1 = s' := congrArg Prod.fst (Option.some.inj hstep)
      exact .kept (fun k hk => nomatch hk) (next_listeners s).1 (next_listeners s).2
  | throws =>
      obtain ⟨-, hstep⟩ := Option.ite_none_left_eq_some.mp hstep
      obtain ⟨rfl, -⟩ := Prod.mk.inj (Option.some.inj hstep)
      exact .kept (fun k hk => nomatch hk) rfl rfl

/-- A loop whose listeners return calls them in order. -/
theorem run_returns (s : Emitter σ F β) (argument : β) (rest : List (Registration F))
    (outer : List (Notification F β)) :
    (machine F make).run { s with loops := ⟨argument, rest⟩ :: outer }
        (List.replicate (rest.length + 1) .returns) =
      some ({ s with loops := outer }, rest.map fun r => .called r argument) := by
  induction rest with
  | nil => rfl
  | cons r rest ih =>
      refine (machine F make).run_cons_iff.mpr ⟨_, [.called r argument], _, rfl, ih, rfl⟩

/-- The same from the start of the loop. -/
theorem run_next (s : Emitter σ F β) (argument : β) (rest : List (Registration F))
    (outer : List (Notification F β)) :
    ∃ o, (machine F make).run (next { s with loops := ⟨argument, rest⟩ :: outer }).1
        (List.replicate rest.length .returns) = some ({ s with loops := outer }, o) ∧
      (next { s with loops := ⟨argument, rest⟩ :: outer }).2 ++ o =
        rest.map fun r => .called r argument := by
  cases rest with
  | nil => exact ⟨[], rfl, rfl⟩
  | cons r rest => exact ⟨_, run_returns s argument rest outer, rfl⟩

/-- A change whose listeners return calls the functions in the array. -/
theorem run_notify {x : α} {p : σ × β} (hmake : make s.subject x = some p) :
    ∃ t, (machine F make).run s (s.notify x) =
      some (t, .changed p.2 :: s.listeners.map fun r => .called r p.2) := by
  have hstep : (machine F make).step s (.change x) = some (s.change make x) := rfl
  rw [change, hmake] at hstep
  obtain ⟨o, hrun, hcalls⟩ :=
    @run_next _ _ _ _ _ make { s with subject := p.1 } p.2 s.listeners s.loops
  refine ⟨_, (machine F make).run_cons_iff.mpr ⟨_, _, _, hstep, hrun, ?_⟩⟩
  rw [List.cons_append, ← hcalls]

theorem countP_called (f : F) (argument : β) (rs : List (Registration F)) :
    (rs.map fun r => EmitterEffect.called r argument).countP (EmitterEffect.isCall f) =
      rs.countP fun r => r.function = f :=
  List.countP_map

theorem OwnOnly.of_notified (hnotified : ∀ f, s'.notified f = s'.live f)
    (hagain : ∀ k h, a = .unsubscribe k → s.handles[k]? = some h → h.called = true →
      s'.listeners = s.listeners) : OwnOnly make s a s' := by
  refine ⟨hnotified, fun x p hmake => ?_, hagain⟩
  obtain ⟨t, hrun⟩ := run_notify hmake
  refine ⟨t, _, hrun, fun f => ?_⟩
  rw [List.countP_cons_of_neg Bool.false_ne_true, countP_called]
  exact hnotified f

/-- One step from a state in which every function is notified as it should be. -/
theorem ownOnly_iff (hinv : ∀ f, s.notified f = s.live f)
    (hstep : (machine F make).step s a = some (s', o)) :
    OwnOnly make s a s' ↔ s.CallsOnce a := by
  cases step_handles hstep with
  | subscribed f =>
      refine iff_of_true (.of_notified (fun g => ?_) fun k h ha => nomatch ha) fun k h ha =>
        nomatch ha
      rw [notified_subscribe, live_subscribe, hinv]
  | @unsubscribed k h hk =>
      constructor
      · intro hown k' h' ha hk' hcalled
        obtain rfl := EmitterAction.unsubscribe.inj ha
        obtain rfl := Option.some.inj (hk.symm.trans hk')
        -- the function has lost a registration and none of its live ones
        have hnotified := hown.notified h.function
        rw [notified_unsubscribe, live_unsubscribe hk, hinv, if_pos rfl,
          if_neg fun hno => by rw [hcalled] at hno; exact Bool.noConfusion hno.2] at hnotified
        omega
      · intro honce
        cases hcalled : h.called with
        | false =>
            refine .of_notified (fun g => ?_) fun k' h' ha hk' hcalled' => ?_
            · rw [notified_unsubscribe, live_unsubscribe hk, hinv, hcalled]
              simp only [and_true]
            · obtain rfl := EmitterAction.unsubscribe.inj ha
              obtain rfl := Option.some.inj (hk.symm.trans hk')
              rw [hcalled] at hcalled'
              cases hcalled'
        | true =>
            have hzero : s.notified h.function = 0 := by
              rw [hinv]
              exact honce k h rfl hk hcalled
            have hlisteners : (s.unsubscribe k h).listeners = s.listeners :=
              remove_eq_of_notified hzero
            refine .of_notified (fun g => ?_) fun _ _ _ _ _ => hlisteners
            rw [live_unsubscribe hk, if_neg fun hno => by
              rw [hcalled] at hno; exact Bool.noConfusion hno.2, Nat.sub_zero, ← hinv]
            exact congrArg _ hlisteners
  | kept ha hlisteners hhandles =>
      refine iff_of_true (.of_notified (fun g => ?_) fun k h hk => absurd hk (ha k)) fun k h hk =>
        absurd hk (ha k)
      rw [notified, hlisteners, live, hhandles]
      exact hinv g

/-- Handles remove their own registrations along a run exactly when none is called again
while its function has a live registration. -/
theorem along_ownOnly_iff (hinv : ∀ f, s.notified f = s.live f) (as : List (EmitterAction F α)) :
    (machine F make).Along (fun s a s' _ => OwnOnly make s a s') s as ↔
      (machine F make).Along (fun s a _ _ => s.CallsOnce a) s as := by
  refine Machine.Along.congr (I := fun s => ∀ f, s.notified f = s.live f) ?_ ?_ hinv
  · intro s a s' o hs hstep
    exact ownOnly_iff hs hstep
  · intro s a s' o _ _ hown
    exact hown.notified

theorem new_notified (subject : σ) (f : F) :
    (new subject : Emitter σ F β).notified f = (new subject : Emitter σ F β).live f := rfl

end Handles

/-! ## What a listener is told -/

section Told

/-- The changes that were made, in order. -/
def changes (out : List (EmitterEffect F β)) : List β := out.filterMap EmitterEffect.change?

/-- What the listener with this number was called with, in order. -/
def told (k : ℕ) (out : List (EmitterEffect F β)) : List β :=
  out.filterMap (EmitterEffect.told? k)

/-- The listener with this number is in the array. -/
def Lists (s : Emitter σ F β) (k : ℕ) : Prop := k ∈ s.listeners.map Registration.number

/-- What the loops that run have still to call the listener with, in the order in which
they will. -/
def due (s : Emitter σ F β) (k : ℕ) : List β := s.loops.flatMap (Notification.due k)

/-- The listener hears of every change once and in order. -/
def InOrder (k : ℕ) (out : List (EmitterEffect F β)) : Prop := told k out = changes out

/-- No change is made while a loop has still to call the listener, and no loop that has
to call it is left by a throw. -/
def Undisturbed (make : σ → α → Option (σ × β)) (k : ℕ) (s : Emitter σ F β) :
    EmitterAction F α → Prop
  | .change x => (make s.subject x).isSome = true → s.due k = []
  | .throws => ∀ l ∈ s.loops.head?, l.due k = []
  | _ => True

instance (s : Emitter σ F β) (k : ℕ) : Decidable (s.Lists k) :=
  inferInstanceAs (Decidable (k ∈ s.listeners.map Registration.number))

instance [DecidableEq β] (make : σ → α → Option (σ × β)) (k : ℕ) (s : Emitter σ F β) :
    (a : EmitterAction F α) → Decidable (Undisturbed make k s a)
  | .change x => inferInstanceAs (Decidable ((make s.subject x).isSome = true → s.due k = []))
  | .throws => inferInstanceAs (Decidable (∀ l ∈ s.loops.head?, l.due k = []))
  | .subscribe _ | .unsubscribe _ | .returns => isTrue trivial

theorem told_called (k : ℕ) (r : Registration F) (argument : β) (rest : List (Registration F)) :
    told k [.called r argument] ++ Notification.due k ⟨argument, rest⟩ =
      Notification.due k ⟨argument, r :: rest⟩ := by
  by_cases hr : r.number = k
  · have htold : told k [EmitterEffect.called r argument] = [argument] :=
      List.filterMap_cons_some (if_pos hr)
    have hcount : ((r :: rest).map Registration.number).count k =
        (rest.map Registration.number).count k + 1 := by
      rw [List.map_cons, hr, List.count_cons_self]
    rw [htold, Notification.due, Notification.due, hcount]
    rfl
  · have htold : told k [EmitterEffect.called r argument] = [] :=
      List.filterMap_cons_none (if_neg hr)
    have hcount : ((r :: rest).map Registration.number).count k =
        (rest.map Registration.number).count k := by
      rw [List.map_cons, List.count_cons_of_ne hr]
    rw [htold, Notification.due, Notification.due, hcount]
    rfl

/-- When the innermost loop goes on, the listener is told what it would have been told
anyway. -/
theorem next_due (s : Emitter σ F β) (k : ℕ) : told k s.next.2 ++ s.next.1.due k = s.due k := by
  obtain ⟨subject, listeners, handles, loops⟩ := s
  cases loops with
  | nil => rfl
  | cons l outer =>
      obtain ⟨argument, rest⟩ := l
      cases rest with
      | nil => rfl
      | cons r rest =>
          show told k [.called r argument] ++
              (Notification.due k ⟨argument, rest⟩ ++ outer.flatMap (Notification.due k)) =
            Notification.due k ⟨argument, r :: rest⟩ ++ outer.flatMap (Notification.due k)
          rw [← List.append_assoc, told_called]

theorem next_changes (s : Emitter σ F β) : changes s.next.2 = [] := by
  unfold next
  split
  · rfl
  · rfl
  · rfl

/-! ### Every change is new -/

variable {make : σ → α → Option (σ × β)} {rank : β → ℕ} {bound : σ → ℕ}

/-- A change ranks above what the subject has reached, and the subject reaches it. -/
def Climbing (make : σ → α → Option (σ × β)) (rank : β → ℕ) (bound : σ → ℕ) : Prop :=
  ∀ s x t b, make s x = some (t, b) → bound s < rank b ∧ rank b ≤ bound t

/-- The numbers in the array differ, and the changes that the loops tell of are no later
than the subject. -/
structure Sound (rank : β → ℕ) (bound : σ → ℕ) (s : Emitter σ F β) : Prop where
  numbers : (s.listeners.map Registration.number).Nodup
  handled : ∀ r ∈ s.listeners, r.number < s.handles.length
  past : ∀ l ∈ s.loops, rank l.argument ≤ bound s.subject

theorem sound_new (subject : σ) : Sound rank bound (new subject : Emitter σ F β) :=
  ⟨List.nodup_nil, List.forall_mem_nil _, List.forall_mem_nil _⟩

theorem next_subject (s : Emitter σ F β) : s.next.1.subject = s.subject := by
  unfold next
  split
  · rfl
  · rfl
  · rfl

theorem next_past {n : ℕ} {s : Emitter σ F β} (h : ∀ l ∈ s.loops, rank l.argument ≤ n) :
    ∀ l ∈ s.next.1.loops, rank l.argument ≤ n := by
  obtain ⟨subject, listeners, handles, loops⟩ := s
  cases loops with
  | nil => exact h
  | cons l outer =>
      obtain ⟨argument, rest⟩ := l
      obtain ⟨hl, houter⟩ := List.forall_mem_cons.mp h
      cases rest with
      | nil => exact houter
      | cons r rest => exact List.forall_mem_cons.mpr ⟨hl, houter⟩

theorem sound_next {s : Emitter σ F β} (h : Sound rank bound s) : Sound rank bound s.next.1 := by
  obtain ⟨hlisteners, hhandles⟩ := next_listeners s
  refine ⟨hlisteners ▸ h.numbers, hhandles ▸ hlisteners ▸ h.handled, ?_⟩
  rw [next_subject]
  exact next_past h.past

theorem sound_subscribe {s : Emitter σ F β} (h : Sound rank bound s) (f : F) :
    Sound rank bound (s.subscribe f) := by
  refine ⟨?_, ?_, h.past⟩
  · show ((s.listeners ++ [_]).map Registration.number).Nodup
    rw [List.map_append, List.nodup_append]
    refine ⟨h.numbers, List.nodup_singleton _, fun n hn m hm heq => ?_⟩
    obtain ⟨r, hr, rfl⟩ := List.mem_map.mp hn
    obtain rfl := List.mem_singleton.mp hm
    exact Nat.ne_of_lt (h.handled r hr) heq
  · intro r hr
    show r.number < (s.handles ++ [_]).length
    rw [List.length_append]
    rcases List.mem_append.mp hr with hr | hr
    · exact Nat.lt_succ_of_lt (h.handled r hr)
    · obtain rfl := List.mem_singleton.mp hr
      exact Nat.lt_succ_self _

theorem sound_unsubscribe [DecidableEq F] {s : Emitter σ F β} (h : Sound rank bound s) (k : ℕ)
    (hd : Handle F) : Sound rank bound (s.unsubscribe k hd) := by
  have hsub : (s.unsubscribe k hd).listeners.Sublist s.listeners := List.eraseP_sublist
  refine ⟨h.numbers.sublist (hsub.map _), fun r hr => ?_, h.past⟩
  show r.number < (s.handles.set k _).length
  rw [List.length_set]
  exact h.handled r (hsub.subset hr)

theorem Sound.step [DecidableEq F] (hmake : Climbing make rank bound) {s s' : Emitter σ F β}
    {a : EmitterAction F α} {o : List (EmitterEffect F β)} (h : Sound rank bound s)
    (hstep : (machine F make).step s a = some (s', o)) : Sound rank bound s' := by
  cases a with
  | subscribe f =>
      obtain ⟨rfl, -⟩ := Prod.mk.inj (Option.some.inj hstep)
      exact sound_subscribe h f
  | unsubscribe k =>
      obtain ⟨hd, -, hstep⟩ := Option.map_eq_some_iff.mp hstep
      obtain ⟨rfl, -⟩ := Prod.mk.inj hstep
      exact sound_unsubscribe h k hd
  | change x =>
      obtain rfl : (s.change make x).1 = s' := congrArg Prod.fst (Option.some.inj hstep)
      unfold change
      split
      case h_1 => exact h
      case h_2 t b hmade =>
        obtain ⟨hlt, hle⟩ := hmake _ _ _ _ hmade
        have hpast : ∀ l ∈ ⟨b, s.listeners⟩ :: s.loops, rank l.argument ≤ bound t :=
          List.forall_mem_cons.mpr
            ⟨hle, fun l hl =>
              Nat.le_trans (h.past l hl) (Nat.le_of_lt (Nat.lt_of_lt_of_le hlt hle))⟩
        exact sound_next ⟨h.numbers, h.handled, hpast⟩
  | returns =>
      obtain ⟨-, hstep⟩ := Option.ite_none_left_eq_some.mp hstep
      obtain rfl : s.next.1 = s' := congrArg Prod.fst (Option.some.inj hstep)
      exact sound_next h
  | throws =>
      obtain ⟨-, hstep⟩ := Option.ite_none_left_eq_some.mp hstep
      obtain ⟨rfl, -⟩ := Prod.mk.inj (Option.some.inj hstep)
      exact ⟨h.numbers, h.handled, fun l hl => h.past l (List.mem_of_mem_tail hl)⟩

/-! ### One step and one listener -/

/-- What a step does to what the listener has been told and what it is still to be told. -/
inductive Tells (make : σ → α → Option (σ × β)) (k : ℕ) (s : Emitter σ F β)
    (a : EmitterAction F α) (s' : Emitter σ F β) (o : List (EmitterEffect F β)) : Prop where
  /-- No change is made.  What the loop that is left by a throw had to tell is lost. -/
  | quiet (lost : List β) (hdue : s.due k = lost ++ (told k o ++ s'.due k))
      (hchanges : changes o = []) (hundisturbed : Undisturbed make k s a ↔ lost = [])
  /-- A new change is told before the older ones. -/
  | made (b : β) (hnew : b ∉ s.due k) (hdue : told k o ++ s'.due k = b :: s.due k)
      (hchanges : changes o = [b]) (hundisturbed : Undisturbed make k s a ↔ s.due k = [])

/-- A loop that starts has to call a listener in the array once. -/
theorem due_listeners {s : Emitter σ F β} (h : Sound rank bound s) {k : ℕ} (hlists : s.Lists k)
    (argument : β) : Notification.due k ⟨argument, s.listeners⟩ = [argument] := by
  rw [Notification.due, List.count_eq_one_of_mem h.numbers hlists]
  rfl

theorem mem_due_rank {s : Emitter σ F β} (h : Sound rank bound s) {k : ℕ} {b : β}
    (hb : b ∈ s.due k) : rank b ≤ bound s.subject := by
  obtain ⟨l, hl, hb⟩ := List.mem_flatMap.mp hb
  rw [List.eq_of_mem_replicate hb]
  exact h.past l hl

theorem step_tells [DecidableEq F] (hmake : Climbing make rank bound) {s s' : Emitter σ F β}
    {a : EmitterAction F α} {o : List (EmitterEffect F β)} {k : ℕ} (h : Sound rank bound s)
    (hlists : s.Lists k) (hstep : (machine F make).step s a = some (s', o)) :
    Tells make k s a s' o := by
  cases a with
  | subscribe f =>
      obtain ⟨rfl, rfl⟩ := Prod.mk.inj (Option.some.inj hstep)
      exact .quiet [] rfl rfl (iff_of_true trivial rfl)
  | unsubscribe k' =>
      obtain ⟨hd, -, hstep⟩ := Option.map_eq_some_iff.mp hstep
      obtain ⟨rfl, rfl⟩ := Prod.mk.inj hstep
      exact .quiet [] rfl rfl (iff_of_true trivial rfl)
  | change x =>
      have hstep : s.change make x = (s', o) := Option.some.inj hstep
      unfold change at hstep
      cases hmade : make s.subject x with
      | none =>
          rw [hmade] at hstep
          obtain ⟨rfl, rfl⟩ := Prod.mk.inj hstep
          refine .quiet [] rfl rfl (iff_of_true (fun hsome => ?_) rfl)
          rw [hmade] at hsome
          cases hsome
      | some p =>
          obtain ⟨t, b⟩ := p
          rw [hmade] at hstep
          obtain ⟨rfl, rfl⟩ := Prod.mk.inj hstep
          obtain ⟨hlt, -⟩ := hmake _ _ _ _ hmade
          have hnext := next_due { s with subject := t, loops := ⟨b, s.listeners⟩ :: s.loops } k
          have hdue : due { s with subject := t, loops := ⟨b, s.listeners⟩ :: s.loops } k =
              b :: s.due k := by
            rw [due, List.flatMap_cons, due_listeners h hlists]
            rfl
          refine .made b (fun hb => ?_) (hnext.trans hdue) ?_ ?_
          · exact Nat.not_lt_of_le (mem_due_rank h hb) hlt
          · exact congrArg (b :: ·) (next_changes _)
          · exact ⟨fun hgood => hgood (by rw [hmade]; rfl), fun hnone _ => hnone⟩
  | returns =>
      obtain ⟨-, hstep⟩ := Option.ite_none_left_eq_some.mp hstep
      obtain ⟨rfl, rfl⟩ := Prod.mk.inj (Option.some.inj hstep)
      exact .quiet [] (next_due s k).symm (next_changes s) (iff_of_true trivial rfl)
  | throws =>
      obtain ⟨-, hstep⟩ := Option.ite_none_left_eq_some.mp hstep
      obtain ⟨rfl, rfl⟩ := Prod.mk.inj (Option.some.inj hstep)
      obtain ⟨subject, listeners, handles, loops⟩ := s
      cases loops with
      | nil => exact .quiet [] rfl rfl (iff_of_true (fun l hl => nomatch hl) rfl)
      | cons l outer =>
          refine .quiet (l.due k) rfl rfl ⟨fun hgood => hgood l rfl, fun hnone l' hl' => ?_⟩
          obtain rfl := Option.some.inj hl'
          exact hnone

/-- After `D` was told and `T` was changed: what was told and is due is what was changed
after the step, exactly when it was before the step and the step disturbs nothing. -/
theorem Tells.eq_iff {k : ℕ} {s s' : Emitter σ F β} {a : EmitterAction F α}
    {o : List (EmitterEffect F β)} {D T : List β} (h : Tells make k s a s' o)
    (hlen : (D ++ s.due k).length ≤ T.length) :
    D ++ told k o ++ s'.due k = T ++ changes o ↔
      D ++ s.due k = T ∧ Undisturbed make k s a := by
  rw [List.append_assoc]
  cases h with
  | quiet lost hdue hchanges hundisturbed =>
      rw [hundisturbed, hchanges, List.append_nil]
      constructor
      · intro heq
        have hlost : lost = [] := by
          rw [hdue, ← heq] at hlen
          simp only [List.length_append] at hlen
          exact List.eq_nil_of_length_eq_zero (by omega)
        rw [hlost] at hdue
        exact ⟨by rw [hdue]; exact heq, hlost⟩
      · rintro ⟨heq, rfl⟩
        rw [← heq, hdue]
        rfl
  | made b hnew hdue hchanges hundisturbed =>
      rw [hundisturbed, hdue, hchanges]
      constructor
      · intro heq
        rcases List.eq_nil_or_concat (s.due k) with hnil | ⟨init, last, hlast⟩
        · rw [hnil] at heq ⊢
          exact ⟨by rw [List.append_nil]; exact List.append_cancel_right heq, rfl⟩
        -- the oldest change that is due would be the new one
        · rw [hlast, List.concat_eq_append, ← List.cons_append, ← List.append_assoc] at heq
          have hb := List.singleton_inj.mp (List.append_inj_right' heq rfl)
          refine absurd ?_ hnew
          rw [hlast, List.concat_eq_append, hb]
          exact List.mem_append_right init List.mem_cons_self
      · rintro ⟨heq, hnone⟩
        rw [hnone, List.append_nil] at heq
        rw [hnone, heq]

theorem Tells.length_le {k : ℕ} {s s' : Emitter σ F β} {a : EmitterAction F α}
    {o : List (EmitterEffect F β)} {D T : List β} (h : Tells make k s a s' o)
    (hlen : (D ++ s.due k).length ≤ T.length) :
    (D ++ told k o ++ s'.due k).length ≤ (T ++ changes o).length := by
  rw [List.append_assoc]
  cases h with
  | quiet lost hdue hchanges hundisturbed =>
      rw [hdue] at hlen
      rw [hchanges, List.append_nil]
      simp only [List.length_append] at hlen ⊢
      omega
  | made b hnew hdue hchanges hundisturbed =>
      rw [hdue, hchanges]
      simp only [List.length_append, List.length_cons, List.length_nil] at hlen ⊢
      omega

/-! ### Runs -/

variable [DecidableEq F]

theorem told_and_due_iff (hmake : Climbing make rank bound) {s t : Emitter σ F β}
    {as : List (EmitterAction F α)} {out : List (EmitterEffect F β)} {k : ℕ} {D T : List β}
    (h : Sound rank bound s) (hlists : s.Lists k)
    (hthroughout : (machine F make).Along (fun _ _ s' _ => s'.Lists k) s as)
    (hrun : (machine F make).run s as = some (t, out))
    (hlen : (D ++ s.due k).length ≤ T.length) :
    D ++ told k out ++ t.due k = T ++ changes out ↔
      D ++ s.due k = T ∧ (machine F make).Along (fun s a _ _ => Undisturbed make k s a) s as := by
  induction as generalizing s out D T with
  | nil =>
      obtain ⟨rfl, rfl⟩ := Prod.mk.inj (Option.some.inj hrun)
      show D ++ [] ++ _ = T ++ [] ↔ _
      rw [List.append_nil, List.append_nil]
      exact ⟨fun heq => ⟨heq, trivial⟩, And.left⟩
  | cons a as ih =>
      obtain ⟨u, o, o', hstep, hrest, rfl⟩ := (machine F make).run_cons_iff.mp hrun
      have htells := step_tells hmake h hlists hstep
      rw [Machine.along_cons_iff hstep] at hthroughout ⊢
      have hih := @ih u o' (D ++ told k o) (T ++ changes o) (h.step hmake hstep) hthroughout.1
        hthroughout.2 hrest (htells.length_le hlen)
      rw [htells.eq_iff hlen, and_assoc] at hih
      have htold : told k (o ++ o') = told k o ++ told k o' := List.filterMap_append
      have hchanges : changes (o ++ o') = changes o ++ changes o' := List.filterMap_append
      rw [← hih, htold, hchanges, ← List.append_assoc, ← List.append_assoc]

/-- A listener hears of every change once and in order along a run at whose ends nothing
is due exactly when no change is made while a loop has still to call it and no loop that
has to is left by a throw. -/
theorem inOrder_iff (hmake : Climbing make rank bound) {s t : Emitter σ F β}
    {as : List (EmitterAction F α)} {out : List (EmitterEffect F β)} {k : ℕ}
    (h : Sound rank bound s) (hlists : s.Lists k)
    (hthroughout : (machine F make).Along (fun _ _ s' _ => s'.Lists k) s as)
    (hrun : (machine F make).run s as = some (t, out)) (hstart : s.due k = [])
    (hend : t.due k = []) :
    InOrder k out ↔ (machine F make).Along (fun s a _ _ => Undisturbed make k s a) s as := by
  have hiff := @told_and_due_iff _ _ _ _ _ _ _ _ hmake _ _ _ _ k [] [] h hlists hthroughout hrun
    (by rw [hstart]; exact Nat.le_refl 0)
  rw [hstart, hend, List.append_nil] at hiff
  exact hiff.trans ⟨And.right, fun halong => ⟨rfl, halong⟩⟩

end Told

end Emitter

end L0Worker
