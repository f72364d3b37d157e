import L0Worker.Worker.Protocol

/-!
# What following the account means

The stages of a call count its effects of certain kinds: the slots it acquired and
released, the terminal events it recorded, and the failed attempts to report
`TASK_FAILED`.  Together with `run_tracks` this says how often each of them happens
in a run, from where the call is at its end.
-/

namespace L0Worker.Worker

/-! ## Kinds of effects -/

/-- A slot was acquired. -/
def Effect.isAcquired : Effect → Bool
  | .acquired _ _ => true
  | _ => false

/-- A slot was released. -/
def Effect.isReleased : Effect → Bool
  | .released _ _ => true
  | _ => false

/-- A terminal event was emitted. -/
def Effect.emitsTerminal : Effect → Bool
  | .emitted _ event => event.isTerminal
  | _ => false

/-- A submission was accepted: a slot was acquired or `TASK_ACCEPTED` was emitted. -/
def Effect.accepts : Effect → Bool
  | .acquired _ _ => true
  | .emitted _ event => event.isAccepted
  | _ => false

/-- A terminal event was recorded. -/
def Effect.recordsTerminal : Effect → Bool
  | .recorded _ _ event => event.isTerminal
  | _ => false

/-- The `catch` block threw, at the `emit` of `TASK_FAILED` or before, which nothing catches. -/
def Effect.losesTerminal : Effect → Bool
  | .emitThrew _ (.taskFailed _ _ _ _ _ _) | .catchThrew _ => true
  | _ => false

/-! ## Counting them by stage -/

/-- The slots acquired by a stage. -/
def Stage.acquisitions : Stage → Nat
  | .idle => 0
  | _ => 1

/-- The slots released by a stage. -/
def Stage.releases : Stage → Nat
  | .released _ | .settled _ => 1
  | _ => 0

/-- The terminal events emitted by a stage. -/
def Stage.endings : Stage → Nat
  | .closing | .closed | .released true | .settled true => 1
  | _ => 0

/-- The terminal events recorded by a stage. -/
def Stage.terminals : Stage → Nat
  | .closed | .released true | .settled true => 1
  | _ => 0

/-- The terminal events lost by a stage. -/
def Stage.losses : Stage → Nat
  | .lost | .released false | .settled false => 1
  | _ => 0

@[simp] theorem Phase.stage_acquisitions (p : Phase) : p.stage.acquisitions = 1 := by
  cases p with
  | settled error => cases error with
    | none => rfl
    | some e => rfl
  | _ => rfl

/-- A call has released its slot exactly when it has finished. -/
theorem Call.stage_releases (c : Call) :
    c.phase.stage.releases = if c.isActive then 0 else 1 := by
  unfold Call.isActive
  cases c.phase with
  | settled error => cases error with
    | none => rfl
    | some e => rfl
  | _ => rfl

/-- A call that has finished recorded its terminal event or lost it. -/
theorem Phase.stage_settled (error : Option Thrown) :
    (Phase.settled error).stage.terminals + (Phase.settled error).stage.losses = 1 := by
  cases error with
  | none => rfl
  | some e => rfl

/-! The account is a finite table, and each count is checked entry by entry. -/

section Counts

variable {late : Bool} {q q' : Stage} {e : Effect}

theorem Stage.next_acquisitions (h : q.next late e = some q') :
    q'.acquisitions = q.acquisitions + if e.isAcquired then 1 else 0 := by
  unfold Stage.next at h
  split at h
  all_goals grind [Stage.acquisitions, Effect.isAcquired, Stage.listens, Stage.isOpen]

theorem Stage.next_releases (h : q.next late e = some q') :
    q'.releases = q.releases + if e.isReleased then 1 else 0 := by
  unfold Stage.next at h
  split at h
  all_goals grind [Stage.releases, Effect.isReleased, Stage.listens, Stage.isOpen]

theorem Stage.next_endings (h : q.next late e = some q') :
    q'.endings = q.endings + if e.emitsTerminal then 1 else 0 := by
  unfold Stage.next at h
  split at h
  all_goals
    grind [Stage.endings, Effect.emitsTerminal, OutboundEvent.isTerminal, Stage.listens,
      Stage.isOpen]

theorem Stage.next_terminals (h : q.next late e = some q') :
    q'.terminals = q.terminals + if e.recordsTerminal then 1 else 0 := by
  unfold Stage.next at h
  split at h
  all_goals
    grind [Stage.terminals, Effect.recordsTerminal, OutboundEvent.isTerminal, Stage.listens,
      Stage.isOpen]

theorem Stage.next_losses (h : q.next late e = some q') :
    q'.losses = q.losses + if e.losesTerminal then 1 else 0 := by
  unfold Stage.next at h
  split at h
  all_goals grind [Stage.losses, Effect.losesTerminal, Stage.listens, Stage.isOpen]

end Counts

/-! ## Accepting a submission -/

/-- The call was announced, or will not be any more. -/
def Stage.isPastAcceptance : Stage → Bool
  | .idle | .acquired => false
  | _ => true

theorem Stage.next_past {late : Bool} {q q' : Stage} {e : Effect}
    (hq : q.isPastAcceptance = true) (h : q.next late e = some q') :
    e.accepts = false ∧ q'.isPastAcceptance = true := by
  unfold Stage.next at h
  split at h
  all_goals
    grind [Stage.isPastAcceptance, Effect.accepts, OutboundEvent.isAccepted, Stage.listens,
      Stage.isOpen]

theorem Phase.stage_past (p : Phase) : p.stage.isPastAcceptance = true := by
  cases p with
  | settled error => cases error with
    | none => rfl
    | some e => rfl
  | _ => rfl

/-- A step accepts a submission exactly when it is one that the worker admits. -/
theorem step_accepts_iff {settings : Settings} {s s' : Instance} {a : Action} {o : List Effect}
    (ht : TimersActive s) (hstep : (worker settings).step s a = some (s', o)) :
    (∃ e ∈ o, e.accepts = true) ↔
      ∃ submit turn, a = .execute submit turn ∧ s.worker.Admits submit := by
  constructor
  · rintro ⟨e, he, haccepts⟩
    by_contra hno
    -- no call is new, so the call that is driven was past its acceptance before
    have hcalls : ∀ (i : Nat) (c' : Call), s'.calls[i]? = some c' → ∃ c, s.calls[i]? = some c := by
      intro i c' hc'
      cases step_moves ht hstep with
      | kept hcalls hslots => exact ⟨c', hcalls ▸ hc'⟩
      | configured ha hs' => exact ⟨c', by rw [hs'] at hc'; exact hc'⟩
      | replaying ha hs' => exact ⟨c', by rw [hs'] at hc'; exact hc'⟩
      | moved hc hactive hmoves =>
          have hlt := (List.getElem?_eq_some_iff.mp hc').1
          rw [hmoves.calls, List.length_set] at hlt
          exact ⟨_, List.getElem?_eq_getElem hlt⟩
      | admitted ha hadmits htask hactive hmoves => exact absurd ⟨_, _, ha, hadmits⟩ hno
    cases step_drives ht hstep (Or.inl (rfl : true = true)) with
    | silent hcalls' hnone hreplay =>
        have hcall := hnone e he
        cases e with
        | acquired i id => cases hcall
        | emitted i event => cases hcall
        | _ => cases haccepts
    | @driven i c' hc' hdrives =>
        obtain ⟨c, hc⟩ := hcalls i c' hc'
        have hfollows := hdrives.follows
        rw [Instance.stage_of_some hc] at hfollows
        have hpast := accept_forall (Stage.isPastAcceptance · = true) (Effect.accepts · = false)
          Stage.next_past c.phase.stage_past hfollows e he
        rw [haccepts] at hpast
        cases hpast
  · rintro ⟨submit, turn, rfl, hadm⟩
    have hstep := Option.some.inj hstep
    rcases s.executeTaskWithEvents_cases settings submit turn with
      ⟨h, -⟩ | ⟨-, slots, c, r, -, -, -, heq⟩
    · exact absurd hadm h
    · rw [heq] at hstep
      obtain ⟨-, rfl⟩ := Prod.mk.inj hstep
      exact ⟨_, List.mem_cons_self, rfl⟩

/-! ## Counting them in a run -/

section Runs

variable {settings : Settings} {s₀ s : Instance} {as : List Action} {out : List Effect}

/-- In every run, late callbacks included, every call follows the account. -/
theorem run_follows (hnew : Created s₀) (hrun : (worker settings).run s₀ as = some (s, out))
    (i : Nat) :
    accept (Stage.next true) .idle (outputsOf Effect.call? i out) = some (s.stage i) :=
  run_tracks hnew hrun (Machine.along_of_actions (fun _ _ _ _ _ => .inl rfl) hrun) i

theorem run_acquisitions (hnew : Created s₀)
    (hrun : (worker settings).run s₀ as = some (s, out)) (i : Nat) :
    (outputsOf Effect.call? i out).countP Effect.isAcquired = (s.stage i).acquisitions := by
  have h := accept_countP Effect.isAcquired Stage.acquisitions Stage.next_acquisitions
    (run_follows hnew hrun i)
  simpa [Stage.acquisitions] using h.symm

theorem run_releases (hnew : Created s₀)
    (hrun : (worker settings).run s₀ as = some (s, out)) (i : Nat) :
    (outputsOf Effect.call? i out).countP Effect.isReleased = (s.stage i).releases := by
  have h := accept_countP Effect.isReleased Stage.releases Stage.next_releases
    (run_follows hnew hrun i)
  simpa [Stage.releases] using h.symm

theorem run_endings (hnew : Created s₀)
    (hrun : (worker settings).run s₀ as = some (s, out)) (i : Nat) :
    (outputsOf Effect.call? i out).countP Effect.emitsTerminal = (s.stage i).endings := by
  have h := accept_countP Effect.emitsTerminal Stage.endings Stage.next_endings
    (run_follows hnew hrun i)
  simpa [Stage.endings] using h.symm

theorem run_terminals (hnew : Created s₀)
    (hrun : (worker settings).run s₀ as = some (s, out)) (i : Nat) :
    (outputsOf Effect.call? i out).countP Effect.recordsTerminal = (s.stage i).terminals := by
  have h := accept_countP Effect.recordsTerminal Stage.terminals Stage.next_terminals
    (run_follows hnew hrun i)
  simpa [Stage.terminals] using h.symm

theorem run_losses (hnew : Created s₀)
    (hrun : (worker settings).run s₀ as = some (s, out)) (i : Nat) :
    (outputsOf Effect.call? i out).countP Effect.losesTerminal = (s.stage i).losses := by
  have h := accept_countP Effect.losesTerminal Stage.losses Stage.next_losses
    (run_follows hnew hrun i)
  simpa [Stage.losses] using h.symm

theorem mem_outputsOf_call {i : Nat} {e : Effect} :
    e ∈ outputsOf Effect.call? i out ↔ e ∈ out ∧ e.call? = some i := by
  rw [outputsOf, List.mem_filter, decide_eq_true_eq]

/-- A call has acquired a slot exactly when it has left the first stage. -/
theorem run_acquired_iff (hnew : Created s₀)
    (hrun : (worker settings).run s₀ as = some (s, out)) (i : Nat) :
    (∃ id, .acquired i id ∈ out) ↔ 0 < (s.stage i).acquisitions := by
  rw [← run_acquisitions hnew hrun i, List.countP_pos_iff]
  constructor
  · rintro ⟨id, hmem⟩
    exact ⟨_, mem_outputsOf_call.mpr ⟨hmem, rfl⟩, rfl⟩
  · rintro ⟨e, hmem, hkind⟩
    obtain ⟨hout, hcall⟩ := mem_outputsOf_call.mp hmem
    cases e with
    | acquired k id =>
        obtain rfl := Option.some.inj hcall
        exact ⟨id, hout⟩
    | _ => cases hkind

/-- A call has emitted a terminal event exactly when its stage says so. -/
theorem run_ended_iff (hnew : Created s₀)
    (hrun : (worker settings).run s₀ as = some (s, out)) (i : Nat) :
    (∃ event, .emitted i event ∈ out ∧ event.isTerminal = true) ↔ 0 < (s.stage i).endings := by
  rw [← run_endings hnew hrun i, List.countP_pos_iff]
  constructor
  · rintro ⟨event, hmem, hterminal⟩
    exact ⟨_, mem_outputsOf_call.mpr ⟨hmem, rfl⟩, hterminal⟩
  · rintro ⟨e, hmem, hkind⟩
    obtain ⟨hout, hcall⟩ := mem_outputsOf_call.mp hmem
    cases e with
    | emitted k event =>
        obtain rfl := Option.some.inj hcall
        exact ⟨event, hout, hkind⟩
    | _ => cases hkind

end Runs

/-! ## Effects are about the task of their call -/

/-- Every effect of a call is about the task of the call. -/
def EffectsOwned (s : Instance) (o : List Effect) : Prop :=
  ∀ e ∈ o, ∀ i, e.call? = some i → ∃ c, s.calls[i]? = some c ∧ e.IsOf i c.taskId

/-- Calls stay, with their tasks. -/
def CallsPersist (s s' : Instance) : Prop :=
  ∀ (i : Nat) (c : Call), s.calls[i]? = some c →
    ∃ c', s'.calls[i]? = some c' ∧ c'.taskId = c.taskId

theorem Moves.persist {s s' : Instance} {i : Nat} {c c' : Call} (hc : s.calls[i]? = some c)
    (hm : Moves i c c' s s') : CallsPersist s s' := by
  intro j d hd
  by_cases hj : j = i
  · subst hj
    obtain rfl := Option.some.inj (hc.symm.trans hd)
    refine ⟨c', ?_, hm.taskId⟩
    rw [hm.calls, List.getElem?_set_self (List.getElem?_eq_some_iff.mp hc).1]
  · refine ⟨d, ?_, rfl⟩
    rw [hm.calls, List.getElem?_set_ne (Ne.symm hj), hd]

theorem StepMoves.persist {s s' : Instance} {a : Action} (h : StepMoves s a s') :
    CallsPersist s s' := by
  cases h with
  | kept hcalls hslots =>
      intro j d hd
      exact ⟨d, by rw [hcalls, hd], rfl⟩
  | configured ha hs' =>
      intro j d hd
      exact ⟨d, by rw [hs']; exact hd, rfl⟩
  | replaying ha hs' =>
      intro j d hd
      exact ⟨d, by rw [hs']; exact hd, rfl⟩
  | moved hc hactive hmoves => exact hmoves.persist hc
  | admitted ha hadmits htask hactive hmoves =>
      intro j d hd
      refine hmoves.persist List.getElem?_concat_length j d ?_
      exact (getElem?_concat_of_ne (Nat.ne_of_lt (List.getElem?_eq_some_iff.mp hd).1)).trans hd

theorem EffectsOwned.persist {s s' : Instance} {o : List Effect} (h : EffectsOwned s o)
    (hp : CallsPersist s s') : EffectsOwned s' o := by
  intro e he i hi
  obtain ⟨c, hc, -, hown⟩ := h e he i hi
  obtain ⟨c', hc', htask⟩ := hp i c hc
  exact ⟨c', hc', hi, htask ▸ hown⟩

theorem StepDrives.owned {late : Bool} {s s' : Instance} {a : Action} {o : List Effect}
    (h : StepDrives late s a s' o) : EffectsOwned s' o := by
  intro e he j hj
  cases h with
  | silent hcalls hnone hreplay =>
      rw [hnone e he] at hj
      cases hj
  | driven hc hdrives =>
      have hown := hdrives.own e he
      obtain rfl := Option.some.inj (hj.symm.trans hown.1)
      exact ⟨_, hc, hown⟩

/-- In every run, every effect of a call is about the task of the call. -/
theorem run_owned {settings : Settings} {s₀ s : Instance} {as : List Action}
    {out : List Effect} (hnew : Created s₀)
    (hrun : (worker settings).run s₀ as = some (s, out)) : EffectsOwned s out := by
  -- old effects stay owned because calls keep their tasks
  refine (worker settings).run_history (J := fun _ out s => EffectsOwned s out) ?_
    (fun e he => absurd he List.not_mem_nil) hrun
  intro as out u a u' o hu hown hstep
  have hinv := run_callsInv hnew hu
  intro e he
  rcases List.mem_append.mp he with he | he
  · exact hown.persist (step_moves hinv.timers hstep).persist e he
  · exact (step_drives hinv.timers hstep (Or.inl (rfl : true = true))).owned e he

end L0Worker.Worker
