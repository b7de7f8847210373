import Mathlib.Tactic.Common
import SNFrame.Library.Octet

/-! Numbers and their decimal texts. -/

namespace SNFrame.Library.Decimal
open Octet

def MINUS : Byte := 0x2d

def isDigit (byte : Byte) : Bool := 0x30 ≤ byte && byte ≤ 0x39

def digitByte (digit : Char) : Byte := BitVec.ofNat 8 digit.toNat

/-- The decimal text of a number. -/
def decimal (n : Nat) : List Byte := (Nat.toDigits 10 n).map digitByte

/-- What `%d` prints. -/
def signed : Int → List Byte
  | .ofNat n => decimal n
  | .negSucc n => MINUS :: decimal (n + 1)

/-- A text of digits, read as an unsigned number. -/
def unsigned (text : List Byte) : Option Nat :=
  if text ≠ [] ∧ text.all isDigit then
    some (text.foldl (fun n byte => 10 * n + (byte.toNat - 0x30)) 0)
  else none

/-! ### Digits -/

theorem digitByte_toNat {digit : Char} (is_digit : digit.isDigit = true) :
    (digitByte digit).toNat = digit.toNat ∧ isDigit (digitByte digit) = true := by
  have bounds : 48 ≤ digit.toNat ∧ digit.toNat ≤ 57 := Char.isDigit_iff_toNat.mp is_digit
  have value : (digitByte digit).toNat = digit.toNat := by
    rw [digitByte, BitVec.toNat_ofNat, Nat.mod_eq_of_lt (by omega)]
  refine ⟨value, ?_⟩
  rw [isDigit, Bool.and_eq_true, decide_eq_true_eq, decide_eq_true_eq, BitVec.le_def, BitVec.le_def,
    value]
  exact bounds

theorem decimal_digits (n : Nat) : (decimal n).all isDigit = true := by
  rw [decimal, List.all_map, List.all_eq_true]
  intro digit member
  exact (digitByte_toNat (Nat.isDigit_of_mem_toDigits (by decide) (by decide) member)).2

theorem decimal_ne_nil (n : Nat) : decimal n ≠ [] := by
  rw [decimal, ne_eq, List.map_eq_nil_iff]
  exact Nat.toDigits_ne_nil

/-- The digits as bytes have the value that they have as characters. -/
theorem foldl_digitByte {digits : List Char} (all_digits : ∀ digit ∈ digits, digit.isDigit = true)
    (start : Nat) :
    (digits.map digitByte).foldl (fun n byte => 10 * n + (byte.toNat - 0x30)) start =
      Nat.ofDigitChars 10 digits start := by
  induction digits generalizing start with
  | nil => rfl
  | cons digit digits ih =>
    rw [List.forall_mem_cons] at all_digits
    rw [List.map_cons, List.foldl_cons, ih all_digits.2, (digitByte_toNat all_digits.1).1,
      Nat.ofDigitChars_cons]
    rfl

/-- Printing and reading back. -/
theorem unsigned_decimal (n : Nat) : unsigned (decimal n) = some n := by
  have digits : ∀ digit ∈ Nat.toDigits 10 n, digit.isDigit = true :=
    fun digit member => Nat.isDigit_of_mem_toDigits (by decide) (by decide) member
  rw [unsigned, if_pos ⟨decimal_ne_nil n, decimal_digits n⟩, decimal, foldl_digitByte digits,
    Nat.ofDigitChars_ten_toDigits]

theorem decimal_length_le_iff {places : Nat} (some_place : 0 < places) (n : Nat) :
    (decimal n).length ≤ places ↔ n < 10 ^ places := by
  rw [decimal, List.length_map]
  exact Nat.length_toDigits_le_iff (by decide) some_place

/-! ### Signed numbers -/

/-- Only the text of a number that is not negative is one of an unsigned number. -/
theorem unsigned_signed_iff (i : Int) (n : Nat) : unsigned (signed i) = some n ↔ i = n := by
  cases i with
  | ofNat m =>
    rw [signed, unsigned_decimal, Option.some.injEq]
    exact Int.ofNat_inj.symm
  | negSucc m =>
    have minus : (signed (.negSucc m)).all isDigit = false := rfl
    rw [unsigned, minus]
    simp

/-- The text is a string of C. -/
theorem zero_not_mem_signed (i : Int) : 0 ∉ signed i := by
  have digits (n : Nat) : 0 ∉ decimal n := by
    intro member
    exact absurd (List.all_eq_true.mp (decimal_digits n) 0 member) (by decide)
  cases i with
  | ofNat n => exact digits n
  | negSucc n =>
    rw [signed, List.mem_cons, not_or]
    exact ⟨by decide, digits (n + 1)⟩

/-- A sign takes one of the places. -/
theorem signed_length_le_iff {places : Nat} (some_place : 0 < places) (i : Int) :
    (signed i).length ≤ places + 1 ↔ -(10 ^ places : Nat) < i ∧ i < (10 ^ (places + 1) : Nat) := by
  have positive := Nat.pow_pos (n := places) (show 0 < 10 by decide)
  cases i with
  | ofNat m =>
    rw [signed, decimal_length_le_iff (Nat.succ_pos _)]
    simp only [Int.ofNat_eq_natCast, Int.ofNat_lt]
    omega
  | negSucc m =>
    have also := Nat.pow_pos (n := places + 1) (show 0 < 10 by decide)
    rw [signed, List.length_cons, Nat.succ_le_succ_iff, decimal_length_le_iff some_place]
    omega

end SNFrame.Library.Decimal
