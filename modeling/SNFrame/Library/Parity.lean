import Mathlib.Tactic.Common
import SNFrame.Library.Octet

/-! Words that are checked by an exclusive or: which changes of such a word are seen. -/

namespace SNFrame.Library.Parity
open Octet

variable {Index : Type} {positions : List Index}

/-- The exclusive or of what a word holds at these positions. -/
def parity (positions : List Index) (word : Index → Byte) : Byte := xorAll (positions.map word)

@[simp] theorem parity_nil (word : Index → Byte) : parity [] word = 0#8 := rfl

@[simp] theorem parity_cons (position : Index) (positions : List Index) (word : Index → Byte) :
    parity (position :: positions) word = word position ^^^ parity positions word := rfl

/-- The difference of two words. -/
def change (word other : Index → Byte) : Index → Byte := fun position =>
  word position ^^^ other position

private theorem xor_middle (a b c d : Byte) : a ^^^ b ^^^ (c ^^^ d) = a ^^^ c ^^^ (b ^^^ d) := by
  rw [BitVec.xor_assoc, BitVec.xor_assoc, ← BitVec.xor_assoc b c, BitVec.xor_comm b c,
    BitVec.xor_assoc c b]

/-- The parity of a difference is the difference of the parities. -/
theorem parity_change (positions : List Index) (word other : Index → Byte) :
    parity positions (change word other) = parity positions word ^^^ parity positions other := by
  induction positions with
  | nil => exact (BitVec.xor_self (x := 0#8)).symm
  | cons position positions ih => rw [parity_cons, ih, change, xor_middle, parity_cons, parity_cons]

/-- A change of an even word is not seen exactly when its own parity is zero. -/
theorem even_iff_change {word : Index → Byte} (even : parity positions word = 0#8)
    (other : Index → Byte) :
    parity positions other = 0#8 ↔ parity positions (change word other) = 0#8 := by
  rw [parity_change, even, BitVec.zero_xor]

theorem parity_zero {word : Index → Byte} (zero : ∀ position ∈ positions, word position = 0#8) :
    parity positions word = 0#8 := by
  induction positions with
  | nil => rfl
  | cons position positions ih =>
    rw [List.forall_mem_cons] at zero
    rw [parity_cons, zero.1, ih zero.2, BitVec.zero_xor]

/-- A word that is zero at all positions but one has the byte there for its parity. -/
theorem parity_single {word : Index → Byte} {position : Index} (distinct : positions.Nodup)
    (inside : position ∈ positions)
    (elsewhere : ∀ other ∈ positions, other ≠ position → word other = 0#8) :
    parity positions word = word position := by
  induction positions with
  | nil => exact absurd inside List.not_mem_nil
  | cons first positions ih =>
    rw [List.nodup_cons] at distinct
    rw [List.forall_mem_cons] at elsewhere
    rcases List.mem_cons.mp inside with rfl | later
    · have rest : parity positions word = 0#8 := by
        apply parity_zero
        intro other member
        exact elsewhere.2 other member fun same => distinct.1 (same ▸ member)
      rw [parity_cons, rest, BitVec.xor_zero]
    · have apart : first ≠ position := fun same => distinct.1 (same ▸ later)
      rw [parity_cons, elsewhere.1 apart, ih distinct.2 later elsewhere.2, BitVec.zero_xor]

/-- Every change at exactly one position is seen. -/
theorem single_change_seen {word other : Index → Byte} {position : Index}
    (distinct : positions.Nodup) (inside : position ∈ positions)
    (changed : other position ≠ word position)
    (kept : ∀ place ∈ positions, place ≠ position → other place = word place) :
    parity positions (change word other) ≠ 0#8 := by
  have zero : ∀ place ∈ positions, place ≠ position → change word other place = 0#8 := by
    intro place member apart
    rw [change, kept place member apart, BitVec.xor_self]
  rw [parity_single distinct inside zero, change]
  intro same
  exact changed (BitVec.xor_eq_zero_iff.mp same).symm

end SNFrame.Library.Parity
