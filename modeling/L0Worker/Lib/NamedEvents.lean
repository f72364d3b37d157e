import L0Worker.Lib.EventStream

/-!
# Event streams with named events

A message of an event stream may have a name, the value of its `event` field, and a line that
begins with a colon is a comment.  What a server writes as `Block`s is read back as the names
and the data of the messages (`namedMessages_blocks`), with comments anywhere in between.
-/

namespace L0Worker

namespace EventStream

/-! ## Reading -/

/-- The messages of the lines with their names, after the name and the data of the first one so
far.  A message without a name is called `message`, and a blank line without data before it ends
nothing but the name. -/
def dispatchNamed (name data : List Char) : List (List Char) → List (List Char × List Char)
  | [] => []
  | line :: rest =>
      if line = [] then
        if data = [] then dispatchNamed [] [] rest
        else
          (if name = [] then "message".toList else name, data.dropLast) :: dispatchNamed [] [] rest
      else if (field line).1 = "event".toList then dispatchNamed (field line).2 data rest
      else if (field line).1 = "data".toList then
        dispatchNamed name (data ++ (field line).2 ++ ['\n']) rest
      else dispatchNamed name data rest

/-- The names and the data of the messages of a stream. -/
def namedMessages (stream : String) : List (String × String) :=
  let cs := stream.toList
  let cs := if cs.head? = some '\uFEFF' then cs.drop 1 else cs
  (dispatchNamed [] [] (lines [] cs)).map fun m => (String.ofList m.1, String.ofList m.2)

/-! ## Writing -/

/-- What a server writes at a time. -/
inductive Block where
  | message (name data : String)
  | comment (text : String)
deriving Repr, DecidableEq

namespace Block

/-- The text of a block. -/
def text : Block → String
  | .message name data => "event: " ++ name ++ "\ndata: " ++ data ++ "\n\n"
  | .comment text => ": " ++ text ++ "\n\n"

/-- The message, if the block is one. -/
def message? : Block → Option (String × String)
  | .message name data => some (name, data)
  | .comment _ => none

/-- The lines of the block are lines, and a message has a name. -/
def Proper : Block → Prop
  | .message name data => SingleLine name ∧ name ≠ "" ∧ SingleLine data
  | .comment text => SingleLine text

end Block

/-! ## What was written is read back -/

theorem field_event (value : List Char) :
    field ("event: ".toList ++ value) = ("event".toList, value) := rfl

theorem dispatchNamed_message {name : List Char} (hname : name ≠ []) (data : List Char)
    (rest : List (List Char)) :
    dispatchNamed [] [] (("event: ".toList ++ name) :: ("data: ".toList ++ data) :: [] :: rest) =
      (name, data) :: dispatchNamed [] [] rest := by
  have hevent : "event: ".toList ++ name ≠ [] := List.cons_ne_nil _ _
  have hline : "data: ".toList ++ data ≠ [] := List.cons_ne_nil _ _
  have hfield : "data".toList ≠ "event".toList := by decide
  have hdata : [] ++ data ++ ['\n'] ≠ [] :=
    List.append_ne_nil_of_right_ne_nil _ (List.cons_ne_nil _ _)
  rw [dispatchNamed, if_neg hevent, field_event, if_pos rfl, dispatchNamed, if_neg hline,
    field_data, if_neg hfield, if_pos rfl, dispatchNamed, if_pos rfl, if_neg hdata,
    if_neg hname, List.dropLast_concat]
  rfl

theorem dispatchNamed_comment (text : List Char) (rest : List (List Char)) :
    dispatchNamed [] [] ((": ".toList ++ text) :: [] :: rest) = dispatchNamed [] [] rest := by
  have hline : ": ".toList ++ text ≠ [] := List.cons_ne_nil _ _
  have hfield : (field (": ".toList ++ text)).1 = [] := rfl
  rw [dispatchNamed, if_neg hline, hfield, if_neg (by decide), if_neg (by decide), dispatchNamed,
    if_pos rfl, if_pos rfl]

/-- The lines of a block are read up to its blank line. -/
theorem dispatchNamed_block {b : Block} (h : b.Proper) (cs : List Char) :
    dispatchNamed [] [] (lines [] (b.text.toList ++ cs)) =
      (b.message?.map fun m => (m.1.toList, m.2.toList)).toList ++
        dispatchNamed [] [] (lines [] cs) := by
  have hunbroken : ∀ {letters : List Char} {text : String}, (∀ c ∈ letters, isBreak c = false) →
      SingleLine text → ∀ c ∈ letters ++ text.toList, isBreak c = false :=
    fun hletters htext => List.forall_mem_append.mpr ⟨hletters, htext⟩
  cases b with
  | message name data =>
      obtain ⟨hname, hne, hdata⟩ := h
      have htext : (Block.message name data).text.toList ++ cs =
          ("event: ".toList ++ name.toList) ++ '\n' ::
            (("data: ".toList ++ data.toList) ++ '\n' :: '\n' :: cs) := by
        simp [Block.text]
      have hname' : name.toList ≠ [] := by simpa using hne
      rw [htext, lines_append (hunbroken (by simp [isBreak]) hname),
        lines_append (hunbroken (by simp [isBreak]) hdata), lines_newline]
      exact dispatchNamed_message hname' data.toList (lines [] cs)
  | comment text =>
      have htext : (Block.comment text).text.toList ++ cs =
          (": ".toList ++ text.toList) ++ '\n' :: '\n' :: cs := by
        simp [Block.text]
      rw [htext, lines_append (hunbroken (by simp [isBreak]) h), lines_newline]
      exact dispatchNamed_comment text.toList (lines [] cs)

/-- The messages of blocks are those that were written. -/
theorem namedMessages_blocks {blocks : List Block} (h : ∀ b ∈ blocks, b.Proper) :
    namedMessages (String.join (blocks.map Block.text)) = blocks.filterMap Block.message? := by
  have hdispatch : dispatchNamed [] [] (lines [] (String.join (blocks.map Block.text)).toList) =
      (blocks.filterMap Block.message?).map fun m => (m.1.toList, m.2.toList) := by
    induction blocks with
    | nil => rfl
    | cons b blocks ih =>
        obtain ⟨hb, hblocks⟩ := List.forall_mem_cons.mp h
        rw [List.map_cons, String.join_cons, String.toList_append, dispatchNamed_block hb,
          ih hblocks]
        cases b with
        | message name data => rfl
        | comment text => rfl
  have hhead : (String.join (blocks.map Block.text)).toList.head? ≠ some '\uFEFF' := by
    cases blocks with
    | nil => exact fun h => nomatch h
    | cons b blocks =>
        rw [List.map_cons, String.join_cons, String.toList_append]
        cases b with
        | message name data => simp [Block.text]
        | comment text => simp [Block.text]
  rw [namedMessages]
  simp only [if_neg hhead]
  rw [hdispatch, List.map_map]
  refine (List.map_congr_left fun m _ => ?_).trans (List.map_id _)
  rw [Function.comp_apply, String.ofList_toList, String.ofList_toList]
  rfl

end EventStream

end L0Worker
