import L0Worker.Lib.Automaton

/-!
# Sessions that take turns

A resource that one session holds at a time.  Letters mark where a session begins and ends,
and which letters are within one.  A word is well formed when a session begins only while
there is none, and when letters are only within the session there is (`SessionMark.next`).

The session there is is the one that began last (`getLast?_sessions`).  If no session begins
twice, the sessions do not mix: what is read within sessions is what is read within the first,
then what is read within the second, and so on (`filterMap_eq_flatMap`).
-/

namespace L0Worker

/-- What a letter says about sessions. -/
inductive SessionMark (ι : Type*) where
  | begins (i : ι)
  | within (i : ι)
  | ends (i : ι)
  | outside
deriving DecidableEq

namespace SessionMark

variable {ι ε β : Type*}

/-- The session that begins. -/
def begun? : SessionMark ι → Option ι
  | .begins i => some i
  | _ => none

/-- The sessions, in the order in which they begin. -/
def sessions (mark : ε → SessionMark ι) (out : List ε) : List ι :=
  out.filterMap fun e => (mark e).begun?

theorem sessions_cons {mark : ε → SessionMark ι} {e : ε} {out : List ε} :
    sessions mark (e :: out) = (mark e).begun?.toList ++ sessions mark out := by
  unfold sessions
  rw [List.filterMap_cons]
  cases (mark e).begun? <;> rfl

variable [DecidableEq ι]

/-- The session there is after a letter. -/
def move : SessionMark ι → Option ι → Option (Option ι)
  | .begins i, none => some (some i)
  | .within i, some j => if i = j then some (some j) else none
  | .ends i, some j => if i = j then some none else none
  | .outside, q => some q
  | _, _ => none

/-- The session there is, letter by letter. -/
def next (mark : ε → SessionMark ι) (q : Option ι) (e : ε) : Option (Option ι) := (mark e).move q

/-- What is read within a session. -/
def readWithin (mark : ε → SessionMark ι) (f : ε → Option β) (i : ι) (out : List ε) : List β :=
  (out.filter fun e => decide (mark e = .within i)).filterMap f

/-- A letter in a well-formed word. -/
inductive Goes : Option ι → SessionMark ι → Option ι → Prop where
  | begins (i : ι) : Goes none (.begins i) (some i)
  | within (i : ι) : Goes (some i) (.within i) (some i)
  | ends (i : ι) : Goes (some i) (.ends i) none
  | outside (q : Option ι) : Goes q .outside q

section Words

variable {mark : ε → SessionMark ι} {f : ε → Option β} {q q' : Option ι}
variable {e : ε} {out : List ε} {i : ι}

/-- Letters that are outside can be left out. -/
theorem accept_filter {p : ε → Bool} (h : ∀ e ∈ out, p e = false → mark e = .outside) :
    accept (next mark) q (out.filter p) = accept (next mark) q out := by
  induction out generalizing q with
  | nil => rfl
  | cons e out ih =>
      obtain ⟨he, hout⟩ := List.forall_mem_cons.mp h
      cases hp : p e with
      | true =>
          rw [List.filter_cons_of_pos hp, accept_cons, accept_cons]
          exact congrArg _ (funext fun q' => ih hout)
      | false =>
          have hnext : next mark q e = some q := by
            rw [next, he hp]
            rfl
          rw [List.filter_cons_of_neg (by simp [hp]), accept_cons, hnext, ih hout]
          rfl

theorem next_goes (h : next mark q e = some q') : Goes q (mark e) q' := by
  unfold next at h
  generalize mark e = m at h
  unfold move at h
  split at h
  · obtain rfl := Option.some.inj h
    exact .begins _
  · obtain ⟨rfl, hq⟩ := Option.ite_none_right_eq_some.mp h
    obtain rfl := Option.some.inj hq
    exact .within _
  · obtain ⟨rfl, hq⟩ := Option.ite_none_right_eq_some.mp h
    obtain rfl := Option.some.inj hq
    exact .ends _
  · obtain rfl := Option.some.inj h
    exact .outside _
  · cases h

theorem readWithin_cons_of_ne (h : mark e ≠ .within i) :
    readWithin mark f i (e :: out) = readWithin mark f i out := by
  simp [readWithin, h]

theorem readWithin_cons (h : mark e = .within i) :
    readWithin mark f i (e :: out) = (f e).toList ++ readWithin mark f i out := by
  unfold readWithin
  rw [List.filter_cons_of_pos (by simp [h]), List.filterMap_cons]
  cases f e <;> rfl

/-- Nothing is within a session that there is not and that does not begin. -/
theorem readWithin_eq_nil (h : accept (next mark) q out = some q') (hq : q ≠ some i)
    (hi : i ∉ sessions mark out) : readWithin mark f i out = [] := by
  induction out generalizing q with
  | nil => rfl
  | cons e out ih =>
      obtain ⟨q₁, hq₁, h⟩ := Option.bind_eq_some_iff.mp h
      rw [sessions_cons, List.mem_append, not_or] at hi
      have hgoes := next_goes hq₁
      generalize hmark : mark e = m at hgoes hi
      cases hgoes with
      | begins j =>
          have hj : j ≠ i := fun hj => hi.1 (by simp [begun?, hj])
          rw [readWithin_cons_of_ne (by simp [hmark])]
          exact ih h (by simpa using hj) hi.2
      | within j =>
          have hj : j ≠ i := fun hj => hq (congrArg some hj)
          rw [readWithin_cons_of_ne (by simp [hmark, hj])]
          exact ih h hq hi.2
      | ends j =>
          rw [readWithin_cons_of_ne (by simp [hmark])]
          exact ih h (Option.some_ne_none i).symm hi.2
      | outside =>
          rw [readWithin_cons_of_ne (by simp [hmark])]
          exact ih h hq hi.2

/-- The session there is began last. -/
theorem getLast?_sessions (h : accept (next mark) q out = some (some i)) :
    (q.toList ++ sessions mark out).getLast? = some i := by
  induction out generalizing q with
  | nil =>
      obtain rfl := Option.some.inj h
      rfl
  | cons e out ih =>
      obtain ⟨q₁, hq₁, h⟩ := Option.bind_eq_some_iff.mp h
      have hlast := ih h
      rw [sessions_cons]
      have hgoes := next_goes hq₁
      generalize mark e = m at hgoes ⊢
      cases hgoes with
      | begins j => exact hlast
      | within j => exact hlast
      | ends j => exact List.mem_getLast?_append_of_mem_getLast? hlast
      | outside => exact hlast

/-- A letter that is within none of these sessions. -/
theorem flatMap_readWithin_cons {l : List ι} (h : ∀ j ∈ l, mark e ≠ .within j) :
    (l.flatMap fun j => readWithin mark f j (e :: out)) =
      l.flatMap fun j => readWithin mark f j out :=
  List.flatMap_congr fun j hj => readWithin_cons_of_ne (h j hj)

/-- The sessions do not mix. -/
theorem filterMap_eq_flatMap (h : accept (next mark) q out = some q')
    (hdistinct : (q.toList ++ sessions mark out).Nodup)
    (hwithin : ∀ e ∈ out, (∀ i, mark e ≠ .within i) → f e = none) :
    out.filterMap f =
      (q.toList ++ sessions mark out).flatMap fun i => readWithin mark f i out := by
  induction out generalizing q with
  | nil =>
      rw [List.filterMap_nil]
      exact (List.flatMap_eq_nil_iff.mpr fun i _ => rfl).symm
  | cons e out ih =>
      obtain ⟨q₁, hq₁, h⟩ := Option.bind_eq_some_iff.mp h
      obtain ⟨he, hwithin⟩ := List.forall_mem_cons.mp hwithin
      rw [sessions_cons] at hdistinct ⊢
      have hgoes := next_goes hq₁
      generalize hmark : mark e = m at hgoes hdistinct he ⊢
      cases hgoes with
      | begins i =>
          rw [List.filterMap_cons_none (he (by simp)), ih h hdistinct hwithin]
          exact (flatMap_readWithin_cons (by simp [hmark])).symm
      | within i =>
          obtain ⟨hi, -⟩ := List.nodup_cons.mp hdistinct
          have hothers : ∀ j ∈ sessions mark out, mark e ≠ .within j := by
            intro j hj heq
            obtain rfl := SessionMark.within.inj (hmark.symm.trans heq)
            exact hi hj
          have hrest : out.filterMap f =
              (i :: sessions mark out).flatMap fun i => readWithin mark f i out :=
            ih h hdistinct hwithin
          have hletter : (e :: out).filterMap f = (f e).toList ++ out.filterMap f := by
            rw [List.filterMap_cons]
            cases f e <;> rfl
          show _ = (i :: sessions mark out).flatMap _
          rw [hletter, hrest, List.flatMap_cons, List.flatMap_cons, readWithin_cons hmark,
            flatMap_readWithin_cons hothers, List.append_assoc]
      | ends i =>
          obtain ⟨hi, hdistinct⟩ := List.nodup_cons.mp hdistinct
          have hended : readWithin mark f i out = [] :=
            readWithin_eq_nil h (Option.some_ne_none i).symm hi
          show _ = (i :: sessions mark out).flatMap _
          rw [List.filterMap_cons_none (he (by simp)), ih h hdistinct hwithin,
            flatMap_readWithin_cons (by simp [hmark]), List.flatMap_cons, hended]
          rfl
      | outside =>
          rw [List.filterMap_cons_none (he (by simp)), ih h hdistinct hwithin]
          exact (flatMap_readWithin_cons (by simp [hmark])).symm

end Words

end SessionMark

end L0Worker
