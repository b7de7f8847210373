import SNFrame.Library.Bounds
import SNFrame.Library.Octet

/-! The string functions of C, on strings in one buffer of a known size. -/

namespace SNFrame.Library.CString
open Octet Bounds Code

/-- The place of the first byte from here on at which the search stops, and that byte. The room is
what the buffer has from here on: a search that gets to its end reads past it. -/
def scan (stop : Byte → Bool) (base : Nat) : Nat → Nat → Code Byte (Nat × Byte)
  | 0, place => do
      let byte ← read base place
      pure (place, byte)
  | room + 1, place => do
      let byte ← read base place
      if stop byte then pure (place, byte) else scan stop base room (place + 1)

/-- The length of the string at a place of a buffer of the given size. -/
def strlen (size base place : Nat) : Code Byte Nat := do
  let (terminator, _) ← scan (· = 0) base (size - place) place
  pure (terminator - place)

def strchr (size base place : Nat) (char : Byte) : Code Byte (Option Nat) := do
  let (found, byte) ← scan (fun byte => byte = char || byte = 0) base (size - place) place
  pure (if byte = char then some found else none)

/-- The bytes of a string, as the constructor of `std::string` copies them. -/
def copyString (base : Nat) : Nat → Nat → Code Byte (List Byte)
  | 0, place => do
      let _ ← read base place
      pure []
  | room + 1, place => do
      let byte ← read base place
      if byte = 0 then pure []
      else do
        let bytes ← copyString base room (place + 1)
        pure (byte :: bytes)

/-- Bytes stored one after the other. -/
def storeAll (base : Nat) : Nat → List Byte → Code Byte Unit
  | _, [] => pure ()
  | place, byte :: bytes => do
      write base place byte
      storeAll base (place + 1) bytes

/-- The buffer has this string at this place. -/
def StringAt (buf : List Byte) (place : Nat) (text : List Byte) : Prop :=
  ∃ before rest, buf = before ++ (text ++ 0 :: rest) ∧ before.length = place ∧ 0 ∉ text

section Strings
variable {buf before text rest : List Byte} {base place size : Nat}

theorem StringAt.append (held : StringAt buf place text) (more : List Byte) :
    StringAt (buf ++ more) place text := by
  obtain ⟨before, rest, rfl, rfl, plain⟩ := held
  exact ⟨before, rest ++ more, by simp, rfl, plain⟩

theorem stringAt_intro (before : List Byte) (plain : 0 ∉ text) (rest : List Byte) :
    StringAt (before ++ (text ++ 0 :: rest)) before.length text :=
  ⟨before, rest, rfl, rfl, plain⟩

/-- The end of a string is a string. -/
theorem StringAt.tail {left right : List Byte} (held : StringAt buf place (left ++ right)) :
    StringAt buf (place + left.length) right := by
  obtain ⟨before, rest, rfl, rfl, plain⟩ := held
  refine ⟨before ++ left, rest, by simp, List.length_append, ?_⟩
  exact fun member => plain (List.mem_append_right _ member)

theorem StringAt.room (held : StringAt buf place text) :
    text.length ≤ buf.length - place ∧ place < buf.length := by
  obtain ⟨before, rest, rfl, rfl, -⟩ := held
  simp only [List.length_append, List.length_cons]
  omega

theorem scan_runs {stop : Byte → Bool} {last : Byte} {room : Nat} (from_base : base ≤ before.length)
    (passes : ∀ byte ∈ text, stop byte = false) (stops : stop last = true)
    (enough : text.length ≤ room) :
    Runs (scan stop base room before.length) (before ++ (text ++ last :: rest))
      (before.length + text.length, last) (before ++ (text ++ last :: rest)) := by
  induction text generalizing before room with
  | nil =>
    cases room with
    | zero => exact (runs_read from_base).bind (runs_pure _ _)
    | succ room =>
      apply (runs_read from_base).bind
      rw [stops, if_pos rfl]
      exact runs_pure _ _
  | cons byte text ih =>
    obtain ⟨more, rfl⟩ := Nat.exists_eq_succ_of_ne_zero (Nat.ne_of_gt (Nat.zero_lt_of_lt enough))
    rw [List.forall_mem_cons] at passes
    have shape : before ++ (byte :: text ++ last :: rest) =
        (before ++ [byte]) ++ (text ++ last :: rest) := by simp
    have length : (before ++ [byte]).length = before.length + 1 := by simp
    have later : Runs (scan stop base more (before ++ [byte]).length)
        (before ++ [byte] ++ (text ++ last :: rest)) _ _ :=
      ih (by omega) passes.2 (Nat.le_of_succ_le_succ enough)
    rw [← shape, length] at later
    apply (runs_read from_base).bind
    rw [passes.1, if_neg Bool.false_ne_true]
    rw [List.length_cons, ← Nat.add_assoc, Nat.add_right_comm]
    exact later

theorem strlen_runs (held : StringAt buf place text) (sized : buf.length = size)
    (from_base : base ≤ place) : Runs (strlen size base place) buf text.length buf := by
  have room := held.room.1
  obtain ⟨before, rest, rfl, rfl, plain⟩ := held
  have scanned : Runs (scan (· = 0) base (size - before.length) before.length)
      (before ++ (text ++ 0 :: rest)) (before.length + text.length, 0)
      (before ++ (text ++ 0 :: rest)) := by
    apply scan_runs from_base _ rfl (sized ▸ room)
    intro byte member
    exact decide_eq_false fun zero => plain (zero ▸ member)
  have counted : before.length + text.length - before.length = text.length := by omega
  refine scanned.bind ?_
  change Runs (pure (before.length + text.length - before.length)) _ _ _
  rw [counted]
  exact runs_pure _ _

variable {char : Byte}

theorem strchr_absent (held : StringAt buf place text) (sized : buf.length = size)
    (from_base : base ≤ place) (absent : char ∉ text) (some_char : char ≠ 0) :
    Runs (strchr size base place char) buf none buf := by
  have room := held.room.1
  obtain ⟨before, rest, rfl, rfl, plain⟩ := held
  have passes : ∀ byte ∈ text, (byte = char || byte = 0 : Bool) = false := by
    intro byte member
    rw [Bool.or_eq_false_iff, decide_eq_false_iff_not, decide_eq_false_iff_not]
    exact ⟨fun same => absent (same ▸ member), fun same => plain (same ▸ member)⟩
  refine (scan_runs from_base passes (by simp) (sized ▸ room)).bind ?_
  change Runs (pure (if (0 : Byte) = char then some (before.length + text.length) else none)) _ _ _
  rw [if_neg some_char.symm]
  exact runs_pure _ _

/-- The first place of a character that the string has. -/
theorem strchr_first {left right : List Byte}
    (held : StringAt buf place (left ++ char :: right)) (sized : buf.length = size)
    (from_base : base ≤ place) (absent : char ∉ left) :
    Runs (strchr size base place char) buf (some (place + left.length)) buf := by
  have room := held.room.1
  obtain ⟨before, rest, rfl, rfl, plain⟩ := held
  have passes : ∀ byte ∈ left, (byte = char || byte = 0 : Bool) = false := by
    intro byte member
    rw [Bool.or_eq_false_iff, decide_eq_false_iff_not, decide_eq_false_iff_not]
    exact ⟨fun same => absent (same ▸ member),
      fun same => plain (List.mem_append_left _ (same ▸ member))⟩
  rw [List.length_append] at room
  have scanned : Runs (scan (fun byte => byte = char || byte = 0) base (size - before.length)
      before.length) (before ++ (left ++ char :: (right ++ 0 :: rest)))
      (before.length + left.length, char) _ :=
    scan_runs from_base passes (by simp) (by omega)
  rw [List.append_assoc, List.cons_append]
  refine scanned.bind ?_
  change Runs (pure (if char = char then some (before.length + left.length) else none)) _ _ _
  rw [if_pos rfl]
  exact runs_pure _ _

theorem copyString_runs {room : Nat} (held : StringAt buf place text) (from_base : base ≤ place)
    (enough : text.length ≤ room) : Runs (copyString base room place) buf text buf := by
  obtain ⟨before, rest, rfl, rfl, plain⟩ := held
  induction text generalizing before room with
  | nil =>
    cases room with
    | zero => exact (runs_read from_base).bind (runs_pure _ _)
    | succ room => exact (runs_read from_base).bind (runs_pure _ _)
  | cons byte text ih =>
    obtain ⟨more, rfl⟩ := Nat.exists_eq_succ_of_ne_zero (Nat.ne_of_gt (Nat.zero_lt_of_lt enough))
    rw [List.mem_cons, not_or] at plain
    have shape : before ++ (byte :: text ++ 0 :: rest) =
        (before ++ [byte]) ++ (text ++ 0 :: rest) := by simp
    have length : (before ++ [byte]).length = before.length + 1 := by simp
    have later := ih (Nat.le_of_succ_le_succ enough) (before ++ [byte]) plain.2
      (by omega)
    rw [← shape, length] at later
    apply (runs_read from_base).bind
    rw [if_neg (Ne.symm plain.1)]
    exact later.bind (runs_pure _ _)

theorem storeAll_runs {old bytes : List Byte} (from_base : base ≤ before.length)
    (same_length : old.length = bytes.length) :
    Runs (storeAll base before.length bytes) (before ++ (old ++ rest)) ()
      (before ++ (bytes ++ rest)) := by
  induction bytes generalizing before old with
  | nil =>
    rw [List.length_eq_zero_iff.mp same_length]
    exact runs_pure _ _
  | cons byte bytes ih =>
    obtain ⟨first, old, rfl⟩ := List.exists_cons_of_length_eq_add_one same_length
    have length : (before ++ [byte]).length = before.length + 1 := by simp
    have later : Runs (storeAll base (before ++ [byte]).length bytes)
        (before ++ [byte] ++ (old ++ rest)) () (before ++ [byte] ++ (bytes ++ rest)) :=
      ih (by omega) (Nat.succ.inj same_length)
    rw [length, List.append_assoc, List.append_assoc] at later
    exact (runs_write from_base).bind later

/-- More bytes than the buffer has room for. -/
theorem storeAll_past {old bytes : List Byte} (from_base : base ≤ before.length)
    (longer : old.length < bytes.length) :
    ¬(storeAll base before.length bytes).AllInside (before ++ old) := by
  induction bytes generalizing before old with
  | nil => exact absurd longer (Nat.not_lt_zero _)
  | cons byte bytes ih =>
    cases old with
    | nil => exact write_past (by simp) _
    | cons first old =>
      have length : (before ++ [byte]).length = before.length + 1 := by simp
      have later : ¬(storeAll base (before ++ [byte]).length bytes).AllInside
          (before ++ [byte] ++ old) := ih (by omega) (Nat.lt_of_succ_lt_succ longer)
      rw [length, List.append_assoc] at later
      intro inside
      exact later ((allInside_bind (runs_write from_base)).mp inside)

end Strings

end SNFrame.Library.CString
