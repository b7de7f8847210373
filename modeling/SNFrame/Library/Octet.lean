import Mathlib.Data.BitVec

/-! Words as a little-endian host keeps them in memory, and the byte swaps that carry them
to and from network order. -/

namespace SNFrame.Library.Octet

abbrev Byte := BitVec 8

/-- The byte that a little-endian host stores at the given offset of a word. -/
def byteAt {width : Nat} (word : BitVec width) (offset : Nat) : Byte :=
  word.extractLsb' (8 * offset) 8

/-- The word that a little-endian host loads from two consecutive bytes. -/
def word16 (b0 b1 : Byte) : BitVec 16 := b1 ++ b0

/-- The word that a little-endian host loads from four consecutive bytes. -/
def word32 (b0 b1 b2 b3 : Byte) : BitVec 32 := b3 ++ b2 ++ b1 ++ b0

def swap16 (word : BitVec 16) : BitVec 16 := byteAt word 0 ++ byteAt word 1

def swap32 (word : BitVec 32) : BitVec 32 :=
  byteAt word 0 ++ byteAt word 1 ++ byteAt word 2 ++ byteAt word 3

@[simp] theorem word16_bytes (word : BitVec 16) :
    word16 (byteAt word 0) (byteAt word 1) = word := by
  unfold word16 byteAt
  ext i bound
  simp
  grind

@[simp] theorem word32_bytes (word : BitVec 32) :
    word32 (byteAt word 0) (byteAt word 1) (byteAt word 2) (byteAt word 3) = word := by
  unfold word32 byteAt
  ext i bound
  simp
  grind

/-- Network order puts the first byte of memory on top. -/
theorem swap16_word16 (b0 b1 : Byte) : swap16 (word16 b0 b1) = b0 ++ b1 := by
  unfold swap16 word16 byteAt
  ext i bound
  simp
  grind

theorem swap32_word32 (b0 b1 b2 b3 : Byte) :
    swap32 (word32 b0 b1 b2 b3) = b0 ++ b1 ++ b2 ++ b3 := by
  unfold swap32 word32 byteAt
  ext i bound
  simp
  grind

@[simp] theorem swap16_swap16 (word : BitVec 16) : swap16 (swap16 word) = word := by
  rw [← word16_bytes word, swap16_word16]
  exact swap16_word16 ..

@[simp] theorem swap32_swap32 (word : BitVec 32) : swap32 (swap32 word) = word := by
  rw [← word32_bytes word, swap32_word32]
  exact swap32_word32 ..

/-- The low half of a loaded double word is the word at the same address. -/
theorem word32_low (b0 b1 b2 b3 : Byte) :
    (word32 b0 b1 b2 b3).setWidth 16 = word16 b0 b1 := by
  unfold word32 word16
  ext i bound
  simp
  grind

private theorem append_quarters (b0 b1 b2 b3 : Byte) :
    b0 ++ b1 ++ b2 ++ b3 = (b0 ++ b1) ++ (b2 ++ b3) := by
  ext i bound
  simp
  grind

/-- A loaded double word in network order is its two words in network order. -/
theorem swap32_word32_halves (b0 b1 b2 b3 : Byte) :
    swap32 (word32 b0 b1 b2 b3) = swap16 (word16 b0 b1) ++ swap16 (word16 b2 b3) := by
  rw [swap32_word32, append_quarters, swap16_word16, swap16_word16]

/-- Two swapped words that lie next to each other are one swapped double word. -/
theorem swap32_halves (first second : BitVec 16) :
    swap32 (word32 (byteAt (swap16 first) 0) (byteAt (swap16 first) 1)
      (byteAt (swap16 second) 0) (byteAt (swap16 second) 1)) = first ++ second := by
  rw [swap32_word32_halves, word16_bytes, word16_bytes, swap16_swap16, swap16_swap16]

theorem append_toNat {width lower : Nat} (high : BitVec width) (low : BitVec lower) :
    (high ++ low).toNat = high.toNat * 2 ^ lower + low.toNat := by
  rw [BitVec.toNat_append, Nat.shiftLeft_eq, Nat.mul_comm,
    ← Nat.two_pow_add_eq_or_of_lt low.isLt]

def xorAll (bytes : List Byte) : Byte := bytes.foldr (· ^^^ ·) 0#8

@[simp] theorem xorAll_nil : xorAll [] = 0#8 := rfl

@[simp] theorem xorAll_cons (byte : Byte) (bytes : List Byte) :
    xorAll (byte :: bytes) = byte ^^^ xorAll bytes := rfl

end SNFrame.Library.Octet
