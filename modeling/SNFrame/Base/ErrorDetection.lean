import SNFrame.Base.Checksum
import SNFrame.Library.Parity

/-! Which corruptions of a frame `check` sees. The checksum byte is one of the bytes that it
guards, so an accepted frame is a word of even parity. -/

namespace SNFrame.Base.ErrorDetection
open Library.Octet Library.Parity PbBuf Checksum

/-- The length field, the checksum byte and the body: the places 24 to `m_len` - 1. -/
def guarded (mLen : Int) : List Nat := List.range' 24 (mLen - 24).toNat

theorem guarded_nodup (mLen : Int) : (guarded mLen).Nodup := List.nodup_range'

theorem mem_guarded {mLen : Int} {addr : Nat} : addr ∈ guarded mLen ↔ 24 ≤ addr ∧ addr < mLen := by
  rw [guarded, List.mem_range'_1]
  omega

variable {heap corrupted : Heap} {msg other : IMString}

theorem xor_swap (a b c d : Byte) : a ^^^ (b ^^^ (c ^^^ d)) = c ^^^ (a ^^^ b ^^^ d) := by
  rw [← BitVec.xor_assoc b c, BitVec.xor_comm b c, BitVec.xor_assoc c b, ← BitVec.xor_assoc a c,
    BitVec.xor_comm a c, BitVec.xor_assoc c a, BitVec.xor_assoc a b]

/-- The guarded bytes are the two of the length field, the checksum byte and the body. -/
theorem parity_guarded (memory : Nat → Byte) (len : Nat) (body : 0 < len) :
    parity (guarded (HEAD_LEN + len : Nat)) memory = memory offCheck ^^^ frameSum len memory := by
  have size : (((HEAD_LEN + len : Nat) : Int) - 24).toNat = len + 1 + 1 + 1 := by
    simp only [HEAD_LEN]
    omega
  have rest : parity (List.range' HEAD_LEN len) memory =
      xorAll ((List.range' HEAD_LEN len).map memory) := rfl
  rw [guarded, size, List.range'_succ, List.range'_succ, List.range'_succ, parity_cons,
    parity_cons, parity_cons, frameSum_body len memory body, ← rest]
  exact xor_swap ..

/-- A message with a body is accepted exactly when its guarded bytes have even parity. -/
theorem check_iff_even (block : msg.mData.isSome = true) (body : (HEAD_LEN : Int) < msg.mLen) :
    check heap msg = true ↔ parity (guarded msg.mLen) (view heap msg) = 0#8 := by
  obtain ⟨len, size⟩ : ∃ len : Nat, msg.mLen = (HEAD_LEN + len : Nat) :=
    ⟨(msg.mLen - HEAD_LEN).toNat, by omega⟩
  have some_byte : 0 < len := by omega
  have count : (((HEAD_LEN + len : Nat) : Int) - (HEAD_LEN : Int)).toNat = len := by omega
  rw [check, if_pos block, checkProg_run, size, count, parity_guarded _ _ some_byte, beq_iff_eq,
    BitVec.xor_eq_zero_iff]

theorem block_of_check (accepted : check heap msg = true) : msg.mData.isSome = true := by
  rw [check] at accepted
  split_ifs at accepted with block
  exact block

/-- Of the messages of the same length `check` accepts exactly those that differ from an accepted
one by bytes of even parity, and none that differs in exactly one byte. -/
theorem check_detects_iff (body : (HEAD_LEN : Int) < msg.mLen) (accepted : check heap msg = true)
    (block : other.mData.isSome = true) (same_length : other.mLen = msg.mLen) :
    (check corrupted other = true ↔
      parity (guarded msg.mLen) (change (view heap msg) (view corrupted other)) = 0#8) ∧
    ∀ addr : Nat, 24 ≤ addr → addr < msg.mLen → view corrupted other addr ≠ view heap msg addr →
      (∀ place ∈ guarded msg.mLen, place ≠ addr →
        view corrupted other place = view heap msg place) → check corrupted other = false := by
  have even := (check_iff_even (block_of_check accepted) body).mp accepted
  have seen : check corrupted other = true ↔
      parity (guarded msg.mLen) (change (view heap msg) (view corrupted other)) = 0#8 := by
    rw [check_iff_even block (same_length ▸ body), same_length]
    exact even_iff_change even _
  refine ⟨seen, ?_⟩
  intro addr above below changed kept
  have odd := single_change_seen (guarded_nodup msg.mLen) (mem_guarded.mpr ⟨above, below⟩)
    changed kept
  rw [← Bool.not_eq_true, seen]
  exact odd

/-- A header with these bytes in the places from 24 on, the fourth of them a body of one byte. -/
def oneByteFrame (tail : List Byte) : IMString := held (List.replicate 24 0 ++ tail) []

/-- A change of the checksum byte and the body is passed, one of the length field is not. -/
theorem check_detects_frames :
    check ⟨true, fun _ => 0⟩ (oneByteFrame [0, 1, 6, 7]) = true ∧
      check ⟨true, fun _ => 0⟩ (oneByteFrame [0, 2, 4, 5]) = false := by
  let heap : Heap := ⟨true, fun _ => 0⟩
  have body : (HEAD_LEN : Int) < (oneByteFrame [0, 1, 4, 5]).mLen := by decide
  have accepted : check heap (oneByteFrame [0, 1, 4, 5]) = true := by decide
  have even := (@check_detects_iff heap heap _ (oneByteFrame [0, 1, 6, 7]) body accepted rfl rfl).1
  have odd := (@check_detects_iff heap heap _ (oneByteFrame [0, 2, 4, 5]) body accepted rfl rfl).2
  exact ⟨even.mpr (by decide), odd 25 (by decide) (by decide) (by decide) (by decide)⟩

end SNFrame.Base.ErrorDetection
