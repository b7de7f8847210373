import Mathlib.Data.List.Basic

/-! Streams of self-delimiting frames. The first `head` items of a frame tell its size, so a
receiver that has as many unread items knows how far the frame reaches in the stream. -/

namespace SNFrame.Library.Framing

variable {α : Type*}

structure Format (α : Type*) where
  head : Nat
  size : List α → Nat
  headed : ∀ items, head ≤ size items
  header : ∀ items more, head ≤ items.length → size (items ++ more) = size items

def Format.IsFrame (format : Format α) (frame : List α) : Prop :=
  frame.length = format.size frame

theorem Format.IsFrame.head_le {format : Format α} {frame : List α} (framed : format.IsFrame frame) :
    format.head ≤ frame.length := by
  rw [framed]
  exact format.headed frame

/-- A header read from the stream announces the length of the frame that lies there. -/
theorem Format.size_of_aligned (format : Format α) {unread later frame rest : List α}
    (aligned : unread ++ later = frame ++ rest) (framed : format.IsFrame frame)
    (long : format.head ≤ unread.length) : format.size unread = frame.length :=
  calc
    format.size unread = format.size (unread ++ later) := (format.header unread later long).symm
    _ = format.size (frame ++ rest) := by rw [aligned]
    _ = format.size frame := format.header frame rest framed.head_le
    _ = frame.length := framed.symm

theorem take_of_aligned {unread later frame rest : List α} (aligned : unread ++ later = frame ++ rest)
    (whole : frame.length ≤ unread.length) : unread.take frame.length = frame := by
  have front := congrArg (List.take frame.length) aligned
  rwa [List.take_append_of_le_length whole, List.take_left] at front

theorem drop_of_aligned {unread later frame rest : List α} (aligned : unread ++ later = frame ++ rest)
    (whole : frame.length ≤ unread.length) : unread.drop frame.length ++ later = rest := by
  have back := congrArg (List.drop frame.length) aligned
  rwa [List.drop_append_of_le_length whole, List.drop_left] at back

/-- The frames whose last item is among the first `count` items of the stream. -/
def arrived : List (List α) → Nat → List (List α)
  | [], _ => []
  | frame :: frames, count =>
      if frame.length ≤ count then frame :: arrived frames (count - frame.length) else []

theorem arrived_append (before after : List (List α)) (count : Nat) :
    arrived (before ++ after) (before.flatten.length + count) = before ++ arrived after count := by
  induction before with
  | nil => simp
  | cons frame before ih =>
    have rest : frame.length + before.flatten.length + count - frame.length =
        before.flatten.length + count := by omega
    simp only [List.cons_append, List.flatten_cons, List.length_append, arrived, rest, ih]
    rw [if_pos (by omega)]

theorem arrived_eq_nil_iff (frames : List (List α)) (count : Nat) :
    arrived frames count = [] ↔ ∀ frame ∈ frames.head?, count < frame.length := by
  cases frames with
  | nil => simp [arrived]
  | cons frame frames => simp [arrived]

/-- The frames that lie whole at the beginning of the items, as their headers announce them. -/
def Format.whole (format : Format α) : Nat → List α → List (List α)
  | 0, _ => []
  | count + 1, items =>
      if format.head ≤ items.length ∧ format.size items ≤ items.length then
        items.take (format.size items) :: format.whole count (items.drop (format.size items))
      else []

/-- In a stream of frames, the headers announce the frames that have arrived. -/
theorem Format.whole_eq_arrived (format : Format α) (headed : 0 < format.head) (count : Nat)
    {items later : List α} {frames : List (List α)} (framed : ∀ frame ∈ frames, format.IsFrame frame)
    (aligned : items ++ later = frames.flatten) (enough : items.length ≤ count) :
    format.whole count items = arrived frames items.length := by
  induction count generalizing items frames with
  | zero =>
    have nothing : items.length = 0 := Nat.le_zero.mp enough
    rw [Format.whole, nothing, eq_comm, arrived_eq_nil_iff]
    intro frame first
    have here := (framed frame (List.mem_of_mem_head? first)).head_le
    omega
  | succ count ih =>
    cases frames with
    | nil =>
      have nothing : items = [] := List.append_eq_nil_iff.mp aligned |>.1
      simp only [Format.whole, nothing, List.length_nil, arrived]
      rw [if_neg (by omega)]
    | cons frame frames =>
      have here : format.IsFrame frame := framed frame List.mem_cons_self
      have headLe := here.head_le
      rw [List.flatten_cons] at aligned
      by_cases long : format.head ≤ items.length
      · have size := format.size_of_aligned aligned here long
        by_cases whole : frame.length ≤ items.length
        · have rest := ih (fun other inside => framed other (List.mem_cons_of_mem _ inside))
            (drop_of_aligned aligned whole) (by rw [List.length_drop]; omega)
          rw [List.length_drop] at rest
          simp only [Format.whole, arrived, size, if_pos whole, if_pos (And.intro long whole), rest,
            take_of_aligned aligned whole]
        · simp only [Format.whole, arrived, size, if_neg whole]
          rw [if_neg fun both => whole both.2]
      · simp only [Format.whole, arrived]
        rw [if_neg fun both => long both.1, if_neg (by omega)]

end SNFrame.Library.Framing
