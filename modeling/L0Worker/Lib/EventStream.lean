import Mathlib.Data.List.Basic
import Mathlib.Data.List.TakeWhile

/-!
# Event streams

How a reader of server-sent events takes a stream apart, and that a text without line
breaks is read back from the frame `data: ` … blank line (`messages_frames`), whatever is in
it otherwise.

A line ends with a line feed, a carriage return or both.  A field is what stands before the
first colon of a line, and its value is what follows, without one leading space.  A blank
line ends a message, whose data are the values of its `data` fields.
-/

namespace L0Worker

namespace EventStream

/-! ## Reading -/

def isBreak (c : Char) : Bool := c = '\n' || c = '\r'

/-- The complete lines of a stream, after the start of the first one. -/
def lines (start : List Char) : List Char → List (List Char)
  | [] => []
  | '\r' :: '\n' :: cs => start :: lines [] cs
  | c :: cs => if isBreak c then start :: lines [] cs else lines (start ++ [c]) cs

/-- The name and the value of a field. -/
def field (line : List Char) : List Char × List Char :=
  let value := (line.dropWhile (· ≠ ':')).drop 1
  (line.takeWhile (· ≠ ':'), if value.head? = some ' ' then value.drop 1 else value)

/-- The messages of the lines, after the data of the first one so far.  Every value in the
data is followed by a line feed, and the last of these is no part of the message.  Without
data there is no message. -/
def dispatch (data : List Char) : List (List Char) → List (List Char)
  | [] => []
  | line :: rest =>
      if line = [] then
        if data = [] then dispatch [] rest else data.dropLast :: dispatch [] rest
      else if (field line).1 = "data".toList then
        dispatch (data ++ (field line).2 ++ ['\n']) rest
      else dispatch data rest

/-- The messages of a stream. -/
def messages (stream : String) : List String :=
  let cs := stream.toList
  -- a byte order mark at the start is skipped
  let cs := if cs.head? = some '\uFEFF' then cs.drop 1 else cs
  (dispatch [] (lines [] cs)).map String.ofList

/-! ## Writing -/

/-- A message of one line. -/
def frame (data : String) : String := "data: " ++ data ++ "\n\n"

/-- The text has no line break. -/
def SingleLine (data : String) : Prop := ∀ c ∈ data.toList, isBreak c = false

/-! ## What was written is read back -/

theorem lines_newline (start cs : List Char) : lines start ('\n' :: cs) = start :: lines [] cs := by
  rw [lines]
  · rfl
  · intro cs' h
    cases h

theorem lines_cons {c : Char} (hc : isBreak c = false) (start cs : List Char) :
    lines start (c :: cs) = lines (start ++ [c]) cs := by
  rw [lines]
  · rw [hc, if_neg Bool.false_ne_true]
  · rintro cs' rfl
    cases hc

/-- A line is read up to its end. -/
theorem lines_append {line : List Char} (h : ∀ c ∈ line, isBreak c = false)
    (start cs : List Char) : lines start (line ++ '\n' :: cs) = (start ++ line) :: lines [] cs := by
  induction line generalizing start with
  | nil =>
      rw [List.append_nil]
      exact lines_newline start cs
  | cons c line ih =>
      obtain ⟨hc, hline⟩ := List.forall_mem_cons.mp h
      rw [List.cons_append, lines_cons hc, ih hline, List.append_assoc]
      rfl

/-- The lines of a frame. -/
theorem lines_frame {data : String} (h : SingleLine data) (cs : List Char) :
    lines [] ((frame data).toList ++ cs) =
      ("data: ".toList ++ data.toList) :: [] :: lines [] cs := by
  have hname : ∀ c ∈ "data: ".toList, isBreak c = false := by
    simp [isBreak]
  have hbreaks : ∀ c ∈ "data: ".toList ++ data.toList, isBreak c = false :=
    List.forall_mem_append.mpr ⟨hname, h⟩
  have hframe : (frame data).toList ++ cs =
      ("data: ".toList ++ data.toList) ++ '\n' :: '\n' :: cs := by
    rw [frame, String.toList_append, String.toList_append, List.append_assoc]
    rfl
  rw [hframe, lines_append hbreaks, lines_newline]
  rfl

theorem field_data (value : List Char) :
    field ("data: ".toList ++ value) = ("data".toList, value) := rfl

theorem dispatch_frame (data : List Char) (rest : List (List Char)) :
    dispatch [] (("data: ".toList ++ data) :: [] :: rest) = data :: dispatch [] rest := by
  have hne : "data: ".toList ++ data ≠ [] := List.cons_ne_nil _ _
  have hdata : [] ++ data ++ ['\n'] ≠ [] :=
    List.append_ne_nil_of_right_ne_nil _ (List.cons_ne_nil _ _)
  rw [dispatch, if_neg hne, field_data, if_pos rfl, dispatch, if_pos rfl, if_neg hdata,
    List.dropLast_concat]
  rfl

/-- The messages of frames are the texts that were framed. -/
theorem messages_frames {datas : List String} (h : ∀ data ∈ datas, SingleLine data) :
    messages (String.join (datas.map frame)) = datas := by
  have hdispatch : dispatch [] (lines [] (String.join (datas.map frame)).toList) =
      datas.map String.toList := by
    induction datas with
    | nil => rfl
    | cons data datas ih =>
        obtain ⟨hdata, hdatas⟩ := List.forall_mem_cons.mp h
        rw [List.map_cons, String.join_cons, String.toList_append, lines_frame hdata,
          dispatch_frame, ih hdatas, List.map_cons]
  have hhead : (String.join (datas.map frame)).toList.head? ≠ some '\uFEFF' := by
    cases datas with
    | nil => exact fun h => nomatch h
    | cons data datas =>
        rw [List.map_cons, String.join_cons, String.toList_append, frame, String.toList_append,
          String.toList_append]
        intro h
        cases h
  rw [messages]
  simp only [if_neg hhead]
  rw [hdispatch, List.map_map]
  exact (List.map_congr_left fun data _ => String.ofList_toList).trans (List.map_id datas)

end EventStream

end L0Worker
