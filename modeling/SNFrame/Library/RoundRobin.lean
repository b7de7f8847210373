import Mathlib.Data.List.Nodup
import Mathlib.Data.List.Range

/-! Turns of a round over a number of places: in any full round each place has one turn, so that
the turns of two places never differ by more than one. -/

namespace SNFrame.Library.RoundRobin

/-- So many turns of a round over `size` places, from the turn `first` on. -/
def turns (size first count : Nat) : List Nat := (List.range' first count).map (· % size)

@[simp] theorem turns_length (size first count : Nat) :
    (turns size first count).length = count := by
  simp [turns]

theorem turns_append (size first count more : Nat) :
    turns size first (count + more) =
      turns size first count ++ turns size (first + count) more := by
  rw [turns, ← List.range'_append_1, List.map_append]
  rfl

theorem turns_one (size first : Nat) : turns size first 1 = [first % size] := rfl

/-- A stretch of consecutive turns. -/
theorem turns_stretch {size first count : Nat} {before window after : List Nat}
    (split : turns size first count = before ++ window ++ after) :
    window = turns size (first + before.length) window.length := by
  have counted := congrArg List.length split
  simp only [turns_length, List.length_append] at counted
  rw [counted, turns_append, turns_append] at split
  have front := List.append_inj split (by simp)
  exact (List.append_inj front.1 (by simp)).2.symm

section Count
variable {size place : Nat}

/-- In a full round each place has one turn. -/
theorem count_round (inside : place < size) (first : Nat) :
    (turns size first size).count place = 1 := by
  induction first with
  | zero =>
    have round : turns size 0 size = List.range size := by
      rw [turns, ← List.range_eq_range']
      refine (List.map_congr_left ?_).trans (List.map_id _)
      intro turn listed
      exact Nat.mod_eq_of_lt (List.mem_range.mp listed)
    rw [round]
    exact List.count_eq_one_of_mem List.nodup_range (List.mem_range.mpr inside)
  | succ first ih =>
    -- One turn on, the round gains the place that it has lost.
    have slides : turns size first 1 ++ turns size (first + 1) size =
        turns size first size ++ turns size (first + size) 1 := by
      rw [← turns_append, ← turns_append, Nat.add_comm]
    have counted := congrArg (List.count place) slides
    rw [List.count_append, List.count_append, turns_one, turns_one, Nat.add_mod_right, ih]
      at counted
    omega

/-- Less than a round leaves each place with one turn at most. -/
theorem count_le_one (inside : place < size) (first : Nat) {count : Nat} (short : count ≤ size) :
    (turns size first count).count place ≤ 1 := by
  have split := turns_append size first count (size - count)
  have round := count_round inside first
  rw [Nat.add_sub_cancel' short] at split
  rw [split, List.count_append] at round
  omega

theorem count_bounds (inside : place < size) (rounds first rest : Nat) (short : rest ≤ size) :
    rounds ≤ (turns size first (size * rounds + rest)).count place ∧
      (turns size first (size * rounds + rest)).count place ≤ rounds + 1 := by
  induction rounds generalizing first with
  | zero =>
    rw [Nat.mul_zero, Nat.zero_add]
    exact ⟨Nat.zero_le _, count_le_one inside first short⟩
  | succ rounds ih =>
    have split : size * (rounds + 1) + rest = size + (size * rounds + rest) := by
      rw [Nat.mul_succ]
      omega
    have later := ih (first + size)
    rw [split, turns_append, List.count_append, count_round inside first]
    omega

/-- The turns of two places never differ by more than one. -/
theorem count_balanced {other : Nat} (inside : place < size) (also : other < size)
    (first count : Nat) :
    (turns size first count).count place ≤ (turns size first count).count other + 1 := by
  have positive : 0 < size := Nat.zero_lt_of_lt inside
  have short := (Nat.mod_lt count positive).le
  have upper := (count_bounds inside (count / size) first (count % size) short).2
  have lower := (count_bounds also (count / size) first (count % size) short).1
  rw [Nat.div_add_mod] at upper lower
  omega

theorem count_outside (outside : size ≤ place) (positive : 0 < size) (first count : Nat) :
    (turns size first count).count place = 0 := by
  apply List.count_eq_zero.mpr
  intro listed
  obtain ⟨turn, -, rfl⟩ := List.mem_map.mp listed
  have := Nat.mod_lt turn positive
  omega

end Count

end SNFrame.Library.RoundRobin
