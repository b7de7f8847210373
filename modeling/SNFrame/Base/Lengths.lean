import SNFrame.Base.FrameCodec

/-! The lengths of a message. A body has one length as an argument of the encoders, as the field
`len` of the header, in `m_len` and in `m_alloc`; the first passes through 16 bits. -/

namespace SNFrame.Base.Lengths
open Library.Footprint Library.Octet PbBuf Checksum FrameCodec

/-- A block has the size that `m_alloc` says. -/
def Sized (msg : IMString) : Prop := ∀ data, msg.mData = some data → msg.mAlloc = data.length

/-- The field `len` of the header, of a message with a buffer. -/
def headerLen (msg : IMString) : Option Nat :=
  msg.mData.map fun data =>
    (ntohs (word16 (data.getD offLen 0) (data.getD (offLen + 1) 0))).toNat

/-! ### What the programs store -/

/-- The addresses that `set_data` and `set_pb` store to, for a body of `n` bytes. -/
def bodyStores (n : Nat) : List Nat := [24, 25] ++ List.range' HEAD_LEN n ++ [26]

theorem bodyStores_below (n : Nat) (bound : Int) :
    (∀ addr ∈ bodyStores n, (addr : Int) < bound) ↔ (HEAD_LEN + n : Nat) ≤ bound := by
  simp only [bodyStores, List.mem_append, List.mem_cons, List.not_mem_nil, or_false,
    List.mem_range'_1, HEAD_LEN]
  constructor
  · intro below
    have sum := below 26 (by omega)
    cases n with
    | zero => omega
    | succ n =>
      have last := below (27 + n) (by omega)
      omega
  · intro room addr stored
    omega

/-- What `set_data` copies of its argument. -/
def copied (buf : Option (List Byte)) (len : BitVec 16) : List Byte := (buf.getD []).take len.toNat

theorem copied_length (buf : Option (List Byte)) (len : BitVec 16) :
    (copied buf len).length ≤ len.toNat :=
  List.length_take_le ..

theorem setDataProg_stores (buf : Option (List Byte)) (len : BitVec 16) (memory : Nat → Byte) :
    (setDataProg buf len).stores memory = bodyStores (copied buf len).length := by
  cases buf with
  | none => simp [setDataProg, bodyStores, copied, offLen, offCheck]
  | some bytes => simp [setDataProg, bodyStores, copied, offLen, offCheck, memcpy_stores]

theorem setPbProg_stores (pb : MessageLite) (complete : pb.serializes = true)
    (memory : Nat → Byte) : (setPbProg pb).stores memory = bodyStores pb.byteSize := by
  simp [setPbProg, complete, bodyStores, offLen, offCheck, memcpy_stores, MessageLite.byteSize]

theorem setChecksumProg_stores (len : Nat) (memory : Nat → Byte) :
    (setChecksumProg len).stores memory = bodyStores 0 := by
  simp [setChecksumProg, bodyStores, offLen, offCheck]

/-- What is stored behind the field `len` leaves it as it was written. -/
theorem len_kept {A : Type} (word : BitVec 16) (rest : Unit → Prog Nat Byte A)
    (memory : Nat → Byte)
    (apart : ∀ addr ∈ (rest ()).stores ((storeU16 offLen word).run memory).2, 26 ≤ addr) :
    Holds16 ((storeU16 offLen word >>= rest).run memory).2 offLen word := by
  have field := storeU16_holds offLen word memory
  rw [Prog.run_bind]
  constructor
  · rw [Prog.run_frame _ _ offLen fun stored => absurd (apart _ stored) (by decide)]
    exact field.1
  · rw [Prog.run_frame _ _ (offLen + 1) fun stored => absurd (apart _ stored) (by decide)]
    exact field.2

theorem setDataProg_len (buf : Option (List Byte)) (len : BitVec 16) (memory : Nat → Byte) :
    Holds16 ((setDataProg buf len).run memory).2 offLen (htons len) := by
  apply len_kept
  intro addr stored
  cases buf with
  | none => simp [offCheck] at stored; omega
  | some bytes => simp [memcpy_stores, offCheck, HEAD_LEN] at stored; omega

theorem setPbProg_len (pb : MessageLite) (memory : Nat → Byte) :
    Holds16 ((setPbProg pb).run memory).2 offLen (htons (BitVec.ofNat 16 pb.byteSize)) := by
  apply len_kept
  intro addr stored
  by_cases complete : pb.serializes = true
  · simp [complete, memcpy_stores, offCheck, HEAD_LEN] at stored
    omega
  · simp [complete] at stored

theorem setChecksumProg_len (len : Nat) (memory : Nat → Byte) :
    Holds16 ((setChecksumProg len).run memory).2 offLen (htons (BitVec.ofNat 16 len)) := by
  apply len_kept
  intro addr stored
  simp [offCheck] at stored
  omega

/-- The field `len` is read back from a block with a header. -/
theorem headerLen_exec {A : Type} (heap : Heap) {msg : IMString} {data : List Byte}
    (program : Prog Nat Byte A) {word : BitVec 16} (live : msg.mData = some data)
    (headed : HEAD_LEN ≤ data.length)
    (holds : Holds16 (program.run (view heap msg)).2 offLen (htons word)) :
    headerLen (exec heap msg program).2 = some word.toNat := by
  have size : blockSize msg = data.length := by rw [blockSize, live, Option.getD_some]
  have low := exec_byteOf heap msg program offLen (by rw [size]; exact headed.trans' (by decide))
  have high := exec_byteOf heap msg program (offLen + 1)
    (by rw [size]; exact headed.trans' (by decide))
  rw [holds.1] at low
  rw [holds.2] at high
  obtain ⟨block, isBlock⟩ : ∃ block, (exec heap msg program).2.mData = some block := by
    simp [exec, live]
  simp only [byteOf, isBlock, Option.getD_some] at low high
  rw [headerLen, isBlock, Option.map_some, low, high, word16_bytes]
  exact congrArg (fun word => some (BitVec.toNat word)) (swap16_swap16 word)

/-! ### Growth -/

/-- The sum of `set_data` and `set_pb`, in 16 bits. -/
def total (len : BitVec 16) : BitVec 16 := len + BitVec.ofNat 16 HEAD_LEN

theorem total_exact {len : BitVec 16} (small : len.toNat ≤ 65508) :
    (total len).toNat = HEAD_LEN + len.toNat := by
  simp only [total, BitVec.toNat_add, BitVec.toNat_ofNat, HEAD_LEN]
  omega

theorem total_wraps {len : BitVec 16} (large : ¬len.toNat ≤ 65508) :
    (total len).toNat < HEAD_LEN := by
  have bound := len.isLt
  simp only [total, BitVec.toNat_add, BitVec.toNat_ofNat, HEAD_LEN]
  omega

/-- The message as `set_data` has it before it writes, and the answer of `resize`. -/
def grown (heap : Heap) (msg : IMString) (len : BitVec 16) : Bool × IMString :=
  if msg.mAlloc < (total len).toNat then resize heap msg (total len).toNat else (false, msg)

/-- The three ends of the growth. -/
inductive Growth (heap : Heap) (msg : IMString) (size : Nat) : Bool × IMString → Prop where
  | enough (room : (size : Int) ≤ msg.mAlloc) : Growth heap msg size (false, msg)
  | refused (short : msg.mAlloc < size) (failed : heap.malloc = false) :
      Growth heap msg size (false, msg)
  | grew (short : msg.mAlloc < size) (malloc : heap.malloc = true) (data : List Byte)
      (length : data.length = size) :
      Growth heap msg size (true, { msg with mData := some data, mAlloc := size })

theorem grown_cases (heap : Heap) (msg : IMString) (len : BitVec 16) :
    Growth heap msg (total len).toNat (grown heap msg len) := by
  unfold grown
  by_cases short : msg.mAlloc < (total len).toNat
  · rw [if_pos short, resize, if_neg (not_le.mpr short)]
    by_cases malloc : heap.malloc = true
    · rw [if_pos malloc]
      exact .grew short malloc _ (by simp)
    · rw [if_neg malloc]
      exact .refused short (Bool.eq_false_iff.mpr malloc)
  · rw [if_neg short]
    exact .enough (not_lt.mp short)

theorem setData_eq (heap : Heap) (msg : IMString) (buf : Option (List Byte)) (len : BitVec 16) :
    setData heap msg buf len =
      if (grown heap msg len).2.mData.isSome then
        (true, { (exec heap (grown heap msg len).2 (setDataProg buf len)).2 with
          mLen := (total len).toNat })
      else grown heap msg len := rfl

/-! ### What each call stores -/

def setDataStores (heap : Heap) (msg : IMString) (buf : Option (List Byte)) (len : BitVec 16) :
    List Nat :=
  let msg := (grown heap msg len).2
  if msg.mData.isSome then (setDataProg buf len).stores (view heap msg) else []

def setPbStores (heap : Heap) (msg : IMString) (pb : MessageLite) : List Nat :=
  if msg.mData.isSome then (setPbProg pb).stores (view heap msg) else []

def setChecksumStores (heap : Heap) (msg : IMString) : List Nat :=
  let len := msg.mLen - HEAD_LEN
  if len < 0 then [] else (setChecksumProg len.toNat).stores (view heap msg)

/-- The call refuses, or the lengths of the message agree and it has stored inside the block. -/
def LengthsAgree (result : Bool × IMString) (stores : List Nat) (body : Nat) (mLen : Int) : Prop :=
  result.1 = false ∨ (headerLen result.2 = some body ∧ result.2.mLen = mLen ∧
    ∀ addr ∈ stores, (addr : Int) < result.2.mAlloc)

theorem lengthsAgree_done {msg : IMString} {stores : List Nat} {body : Nat} {mLen : Int} :
    LengthsAgree (true, msg) stores body mLen ↔ headerLen msg = some body ∧ msg.mLen = mLen ∧
      ∀ addr ∈ stores, (addr : Int) < msg.mAlloc := by
  simp [LengthsAgree]

/-- `set_data` finds no buffer, or the sum fits in 16 bits and what it writes fits in the block,
which it does when the block has been made to. -/
def SetDataFits (heap : Heap) (msg : IMString) (buf : Option (List Byte)) (len : BitVec 16) :
    Prop :=
  (msg.mData = none ∧ ((total len).toNat ≤ msg.mAlloc ∨ heap.malloc = false)) ∨
    (len.toNat ≤ 65508 ∧
      (heap.malloc = true ∨ (HEAD_LEN + (copied buf len).length : Nat) ≤ msg.mAlloc))

def SetPbFits (msg : IMString) (pb : MessageLite) : Prop :=
  msg.mData = none ∨ pb.serializes = false ∨ pb.byteSize ≤ 65508

def SetChecksumFits (msg : IMString) : Prop :=
  msg.mLen < HEAD_LEN ∨
    (msg.mData.isSome ∧ (HEAD_LEN : Int) ≤ msg.mAlloc ∧ msg.mLen ≤ HEAD_LEN + 65535)

section Calls
variable (heap : Heap) {msg : IMString}

/-- The end of `set_data` on a message that has a block of the size `m_alloc`. -/
theorem written_agree_iff {grown : IMString} {data : List Byte} (live : grown.mData = some data)
    (sized : grown.mAlloc = data.length) (buf : Option (List Byte)) (len : BitVec 16) :
    LengthsAgree (true, { (exec heap grown (setDataProg buf len)).2 with
        mLen := (total len).toNat }) ((setDataProg buf len).stores (view heap grown)) len.toNat
        (HEAD_LEN + len.toNat : Nat) ↔
      len.toNat ≤ 65508 ∧ (HEAD_LEN + (copied buf len).length : Nat) ≤ grown.mAlloc := by
  rw [setDataProg_stores, lengthsAgree_done]
  constructor
  · rintro ⟨-, mLen, below⟩
    have room := (bodyStores_below _ _).mp below
    refine ⟨?_, room⟩
    by_contra large
    have wraps := total_wraps large
    simp only at mLen
    omega
  · rintro ⟨small, room⟩
    have headed : HEAD_LEN ≤ data.length := by omega
    refine ⟨?_, ?_, (bodyStores_below _ _).mpr room⟩
    · exact headerLen_exec heap _ live headed (setDataProg_len buf len _)
    · rw [total_exact small]

theorem setData_agree_iff (sized : Sized msg) (buf : Option (List Byte)) (len : BitVec 16) :
    LengthsAgree (setData heap msg buf len) (setDataStores heap msg buf len) len.toNat
      (HEAD_LEN + len.toNat : Nat) ↔ SetDataFits heap msg buf len := by
  have short := copied_length buf len
  have growth := grown_cases heap msg len
  simp only [setData_eq, setDataStores]
  revert growth
  generalize grown heap msg len = after
  intro growth
  cases growth with
  | enough room =>
    cases live : msg.mData with
    | none => simp [LengthsAgree, SetDataFits, live, room]
    | some data =>
      simp only [Option.isSome_some, if_true]
      rw [written_agree_iff heap live (sized data live)]
      simp only [SetDataFits, live, reduceCtorEq, false_and, false_or]
      refine and_congr_right fun small => ?_
      rw [total_exact small] at room
      exact ⟨.inr, fun _ => by omega⟩
  | refused lacks failed =>
    cases live : msg.mData with
    | none => simp [LengthsAgree, SetDataFits, live, failed]
    | some data =>
      simp only [Option.isSome_some, if_true]
      rw [written_agree_iff heap live (sized data live)]
      simp [SetDataFits, live, failed]
  | grew lacks malloc data length =>
    simp only [Option.isSome_some, if_true]
    rw [written_agree_iff heap rfl (by rw [length])]
    have none : ¬(total len).toNat ≤ msg.mAlloc := not_le.mpr lacks
    simp only [SetDataFits, malloc, none, Bool.true_eq_false, or_self, and_false, false_or,
      true_or, and_true, and_iff_left_iff_imp]
    intro small
    rw [total_exact small]
    omega

theorem setPb_agree_iff (sized : Sized msg) (pb : MessageLite)
    (given : msg.mData.isSome → (HEAD_LEN + pb.byteSize : Nat) ≤ msg.mAlloc) :
    LengthsAgree (setPb heap msg pb) (setPbStores heap msg pb) pb.byteSize
      (HEAD_LEN + pb.byteSize : Nat) ↔ SetPbFits msg pb := by
  cases live : msg.mData with
  | none => simp [LengthsAgree, SetPbFits, setPb, live]
  | some data =>
    have room := given (by rw [live]; rfl)
    have size := sized data live
    by_cases complete : pb.serializes = true
    · have answer : (exec heap msg (setPbProg pb)).1 = true := by
        simp only [exec, setPbProg_run pb complete]
      simp only [setPb, setPbStores, live, Option.isSome_some, if_true, answer,
        setPbProg_stores pb complete, lengthsAgree_done]
      constructor
      · rintro ⟨-, mLen, -⟩
        refine .inr (.inr ?_)
        by_contra large
        have bound := (BitVec.ofNat 16 (pb.byteSize + HEAD_LEN)).isLt
        simp only [HEAD_LEN] at mLen bound
        omega
      · rintro (none | failed | small)
        · rw [live] at none
          cases none
        · rw [complete] at failed
          cases failed
        · refine ⟨?_, ?_, (bodyStores_below _ _).mpr room⟩
          · have header := headerLen_exec heap _ live (by omega) (setPbProg_len pb (view heap msg))
            rw [BitVec.toNat_ofNat, Nat.mod_eq_of_lt (by omega)] at header
            exact header
          · simp only [BitVec.toNat_ofNat, HEAD_LEN]
            omega
    · have refuses : (exec heap msg (setPbProg pb)).1 = false := by
        simp [exec, setPbProg, complete]
      have answer : (setPb heap msg pb).1 = false := by
        simp only [setPb, live, Option.isSome_some, if_true, refuses, Bool.false_eq_true, if_false]
      exact iff_of_true (.inl answer) (.inr (.inl (Bool.eq_false_iff.mpr complete)))

theorem setChecksum_agree_iff (sized : Sized msg) :
    LengthsAgree (setChecksum heap msg) (setChecksumStores heap msg) (msg.mLen - HEAD_LEN).toNat
      msg.mLen ↔ SetChecksumFits msg := by
  by_cases headless : msg.mLen - HEAD_LEN < 0
  · have fits : SetChecksumFits msg := .inl (by omega)
    simp only [setChecksum, if_pos headless]
    exact iff_of_true (.inl rfl) fits
  · simp only [setChecksum, setChecksumStores, if_neg headless, setChecksumProg_stores,
      lengthsAgree_done]
    constructor
    · rintro ⟨header, -, below⟩
      have room := (bodyStores_below _ _).mp below
      cases live : msg.mData with
      | none => simp [headerLen, exec, live] at header
      | some data =>
        refine .inr ⟨by rw [live]; rfl, room, ?_⟩
        have size := sized data live
        have headed : HEAD_LEN ≤ data.length := by
          change ((HEAD_LEN + 0 : Nat) : Int) ≤ msg.mAlloc at room
          omega
        rw [headerLen_exec heap _ live headed (setChecksumProg_len _ (view heap msg)),
          Option.some.injEq] at header
        have bound := (BitVec.ofNat 16 (msg.mLen - HEAD_LEN).toNat).isLt
        omega
    · rintro (short | ⟨isSome, room, small⟩)
      · omega
      · obtain ⟨data, live⟩ := Option.isSome_iff_exists.mp isSome
        have size := sized data live
        refine ⟨?_, rfl, (bodyStores_below _ _).mpr room⟩
        rw [headerLen_exec heap _ live (by omega) (setChecksumProg_len _ (view heap msg)),
          BitVec.toNat_ofNat, Nat.mod_eq_of_lt (by omega)]

end Calls

/-- When the encoders cut no length silently: when they refuse, or the length of the body with
the header fits in 16 bits and the block is large enough. -/
theorem lengths_agree_iff (heap : Heap) (msg : IMString) (sized : Sized msg) :
    (∀ buf len, LengthsAgree (setData heap msg buf len) (setDataStores heap msg buf len) len.toNat
        (HEAD_LEN + len.toNat : Nat) ↔ SetDataFits heap msg buf len) ∧
      (∀ pb, (msg.mData.isSome → (HEAD_LEN + pb.byteSize : Nat) ≤ msg.mAlloc) →
        (LengthsAgree (setPb heap msg pb) (setPbStores heap msg pb) pb.byteSize
          (HEAD_LEN + pb.byteSize : Nat) ↔ SetPbFits msg pb)) ∧
      (LengthsAgree (setChecksum heap msg) (setChecksumStores heap msg)
        (msg.mLen - HEAD_LEN).toNat msg.mLen ↔ SetChecksumFits msg) :=
  ⟨setData_agree_iff heap sized, setPb_agree_iff heap sized, setChecksum_agree_iff heap sized⟩

/-- The surroundings of a call that gets its memory. -/
def roomy : Heap := ⟨true, fun _ => 0⟩

/-- A message as `init` leaves it. -/
def initialised : IMString := (init roomy).2

theorem initialised_sized : Sized initialised := by
  rintro data ⟨⟩
  rfl

theorem lengths_agree_iff_initialised :
    (LengthsAgree (setData roomy initialised none 0) (setDataStores roomy initialised none 0) 0
        (HEAD_LEN + 0 : Nat) ↔ SetDataFits roomy initialised none 0) ∧
      (LengthsAgree (setPb roomy initialised ⟨[1], true, by decide⟩)
        (setPbStores roomy initialised ⟨[1], true, by decide⟩) 1 (HEAD_LEN + 1 : Nat) ↔
        SetPbFits initialised ⟨[1], true, by decide⟩) ∧
      (LengthsAgree (setChecksum roomy initialised) (setChecksumStores roomy initialised)
        (initialised.mLen - HEAD_LEN).toNat initialised.mLen ↔ SetChecksumFits initialised) := by
  obtain ⟨data, pb, checksum⟩ := lengths_agree_iff roomy initialised initialised_sized
  exact ⟨data none 0, pb ⟨[1], true, by decide⟩ (by decide), checksum⟩

/-- 65509 bytes and a header are 65536: `set_data` keeps its block of 128 bytes, copies the body
over it and past it, and leaves a message of length 0. -/
theorem length_wraps :
    let body : List Byte := List.replicate 65509 0
    (setData roomy initialised (some body) 65509).1 = true ∧
      (setData roomy initialised (some body) 65509).2.mLen = 0 ∧
      (setData roomy initialised (some body) 65509).2.mAlloc = 128 ∧
      65535 ∈ setDataStores roomy initialised (some body) 65509 ∧
      ¬LengthsAgree (setData roomy initialised (some body) 65509)
        (setDataStores roomy initialised (some body) 65509) 65509 (HEAD_LEN + 65509 : Nat) := by
  intro body
  have zero : (total 65509).toNat = 0 := by decide
  have kept : grown roomy initialised 65509 = (false, initialised) := by
    rw [grown, zero, if_neg (by decide)]
  have done : setData roomy initialised (some body) 65509 =
      (true, { (exec roomy initialised (setDataProg (some body) 65509)).2 with mLen := 0 }) := by
    rw [setData_eq, kept, if_pos (by rfl), zero]
    rfl
  have stored : setDataStores roomy initialised (some body) 65509 = bodyStores 65509 := by
    have length : (copied (some body) 65509).length = 65509 := by
      rw [copied, Option.getD_some, List.length_take, List.length_replicate]
      decide
    simp only [setDataStores, kept]
    rw [if_pos (by rfl), setDataProg_stores, length]
  rw [done, stored]
  refine ⟨rfl, rfl, rfl, ?_, ?_⟩
  · simp only [bodyStores, List.mem_append, List.mem_range'_1, HEAD_LEN]
    omega
  · rw [lengthsAgree_done]
    rintro ⟨-, mLen, -⟩
    cases mLen

/-! ### When the growth fails -/

/-- `set_data` asks `resize` for a larger block, and `resize` returns false. -/
def GrowthFails (heap : Heap) (msg : IMString) (len : BitVec 16) : Prop :=
  msg.mAlloc < (total len).toNat ∧ (resize heap msg (total len).toNat).1 = false

/-- `set_data` as a transaction: without the larger block it refuses and has changed nothing,
and when it accepts the message holds the whole body. -/
structure Atomic (heap : Heap) (msg : IMString) (body : List Byte) : Prop where
  refuses : GrowthFails heap msg (BitVec.ofNat 16 body.length) →
    setData heap msg (some body) (BitVec.ofNat 16 body.length) = (false, msg) ∧
      ∀ addr ∈ setDataStores heap msg (some body) (BitVec.ofNat 16 body.length),
        (addr : Int) < msg.mAlloc
  completes : (setData heap msg (some body) (BitVec.ofNat 16 body.length)).1 = true →
    (setData heap msg (some body) (BitVec.ofNat 16 body.length)).2.mLen =
        (HEAD_LEN + body.length : Nat) ∧
      (setData heap msg (some body) (BitVec.ofNat 16 body.length)).2.bytes.drop HEAD_LEN = body

section Failure
variable {heap : Heap} {msg : IMString} {body : List Byte}

theorem growthFails_iff (len : BitVec 16) :
    GrowthFails heap msg len ↔ msg.mAlloc < (total len).toNat ∧ heap.malloc = false := by
  refine and_congr_right fun short => ?_
  rw [resize, if_neg (not_le.mpr short)]
  by_cases malloc : heap.malloc = true
  · simp [malloc]
  · simp [malloc]

theorem total_body (fits : HEAD_LEN + body.length ≤ 65535) :
    (total (BitVec.ofNat 16 body.length)).toNat = HEAD_LEN + body.length := by
  simp only [HEAD_LEN] at fits
  have size : (BitVec.ofNat 16 body.length).toNat = body.length := by
    rw [BitVec.toNat_ofNat]
    omega
  rw [total_exact (by omega), size]

/-- A body that is copied to a block with room for it is the body of the message. -/
theorem exec_holds_body (fits : HEAD_LEN + body.length ≤ 65535)
    (room : HEAD_LEN + body.length ≤ blockSize msg) :
    ({ (exec heap msg (setDataProg (some body) (BitVec.ofNat 16 body.length))).2 with
      mLen := (HEAD_LEN + body.length : Nat) } : IMString).bytes.drop HEAD_LEN = body := by
  rw [setDataProg_eq body (by omega)]
  refine drop_bytes rfl ?_ fun i inside => ?_
  · exact (exec_blockSize heap msg (frameBodyProg body)).symm ▸ room
  · have here := exec_byteOf heap msg (frameBodyProg body) (HEAD_LEN + i) (by omega)
    exact here.trans (frameBodyProg_copies body _ i inside)

theorem grown_refused (fits : HEAD_LEN + body.length ≤ 65535)
    (short : msg.mAlloc < (HEAD_LEN + body.length : Nat)) (failed : heap.malloc = false) :
    grown heap msg (BitVec.ofNat 16 body.length) = (false, msg) := by
  rw [grown, total_body fits, if_pos short, resize, if_neg (not_le.mpr short), failed]
  rfl

/-- When a live buffer cannot grow `set_data` goes on all the same. -/
theorem not_atomic_of_refused (fits : HEAD_LEN + body.length ≤ 65535)
    (live : msg.mData.isSome = true) (short : msg.mAlloc < (HEAD_LEN + body.length : Nat))
    (failed : heap.malloc = false) : ¬Atomic heap msg body := by
  intro atomic
  have fails : GrowthFails heap msg (BitVec.ofNat 16 body.length) := by
    rw [growthFails_iff, total_body fits]
    exact ⟨short, failed⟩
  have answer := congrArg Prod.fst (atomic.refuses fails).1
  rw [setData_eq, grown_refused fits short failed, if_pos live] at answer
  cases answer

theorem atomic_of_grown (sized : Sized msg) (fits : HEAD_LEN + body.length ≤ 65535)
    (grows : ¬(msg.mData.isSome = true ∧ msg.mAlloc < (HEAD_LEN + body.length : Nat) ∧
      heap.malloc = false)) : Atomic heap msg body := by
  have sum := total_body fits
  have growth := grown_cases heap msg (BitVec.ofNat 16 body.length)
  constructor
  · rw [growthFails_iff, sum]
    rintro ⟨short, failed⟩
    have dead : ¬msg.mData.isSome = true := fun live => grows ⟨live, short, failed⟩
    simp only [setData_eq, setDataStores, grown_refused fits short failed, if_neg dead]
    exact ⟨trivial, fun addr stored => absurd stored List.not_mem_nil⟩
  · intro answer
    rw [setData_eq, sum] at answer ⊢
    rw [sum] at growth
    revert answer growth
    generalize grown heap msg (BitVec.ofNat 16 body.length) = after
    intro growth answer
    by_cases live : after.2.mData.isSome = true
    · rw [if_pos live]
      refine ⟨rfl, exec_holds_body fits ?_⟩
      cases growth with
      | enough room =>
        obtain ⟨data, block⟩ : ∃ data, msg.mData = some data := Option.isSome_iff_exists.mp live
        have size := sized data block
        simp only [blockSize, block, Option.getD_some]
        omega
      | refused short failed => exact absurd ⟨live, short, failed⟩ grows
      | grew short malloc data length =>
        simp only [blockSize, Option.getD_some]
        omega
    · rw [if_neg live] at answer
      cases growth with
      | enough room => cases answer
      | refused short failed => cases answer
      | grew short malloc data length => exact absurd rfl live

end Failure

/-- `set_data` is atomic unless a buffer that is too small cannot grow: it then goes on with the
small one. -/
theorem atomic_iff_grown (heap : Heap) (msg : IMString) (sized : Sized msg) (body : List Byte)
    (fits : HEAD_LEN + body.length ≤ 65535) :
    Atomic heap msg body ↔ ¬(msg.mData.isSome = true ∧
      msg.mAlloc < (HEAD_LEN + body.length : Nat) ∧ heap.malloc = false) :=
  ⟨fun atomic grows => not_atomic_of_refused fits grows.1 grows.2.1 grows.2.2 atomic,
    atomic_of_grown sized fits⟩

theorem atomic_iff_grown_one_byte :
    Atomic roomy initialised [1] ↔ ¬(initialised.mData.isSome = true ∧
      initialised.mAlloc < (HEAD_LEN + [(1 : Byte)].length : Nat) ∧ roomy.malloc = false) :=
  atomic_iff_grown roomy initialised initialised_sized [1] (by decide)

/-- 102 bytes do not go into the 128 bytes of a new message with their header; when there is no
memory `set_data` writes past the block all the same and returns true. -/
theorem written_without_growth :
    let body : List Byte := List.replicate 102 0
    let full : Heap := ⟨false, fun _ => 0⟩
    (resize full initialised 129).1 = false ∧
      (setData full initialised (some body) 102).1 = true ∧
      (setData full initialised (some body) 102).2.mLen = 129 ∧
      (setData full initialised (some body) 102).2.mAlloc = 128 ∧
      128 ∈ setDataStores full initialised (some body) 102 ∧ ¬Atomic full initialised body := by
  intro body full
  refine ⟨rfl, by decide +kernel, by decide +kernel, by decide +kernel, by decide +kernel, ?_⟩
  exact not_atomic_of_refused (by decide) rfl (by decide) rfl

end SNFrame.Base.Lengths
