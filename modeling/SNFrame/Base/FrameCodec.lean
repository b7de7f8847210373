import Mathlib.Data.List.GetD
import SNFrame.Base.Checksum

/-! The frame codec as a whole: what each of the calls that build a message writes, what it
leaves alone, and what the getters and `check` then answer. The three calls write three
regions of the frame that do not meet, so their order does not matter. -/

namespace SNFrame.Base.FrameCodec
open Library.Footprint Library.Octet PbBuf Checksum

/-! ### Words in memory -/

def Holds16 (memory : Nat → Byte) (addr : Nat) (word : BitVec 16) : Prop :=
  memory addr = byteAt word 0 ∧ memory (addr + 1) = byteAt word 1

def Holds32 (memory : Nat → Byte) (addr : Nat) (word : BitVec 32) : Prop :=
  memory addr = byteAt word 0 ∧ memory (addr + 1) = byteAt word 1 ∧
    memory (addr + 2) = byteAt word 2 ∧ memory (addr + 3) = byteAt word 3

theorem storeU16_holds (addr : Nat) (word : BitVec 16) (memory : Nat → Byte) :
    Holds16 ((storeU16 addr word).run memory).2 addr word := by
  simp [storeU16, Holds16]

@[simp] theorem storeU16_stores (addr : Nat) (word : BitVec 16) (memory : Nat → Byte) :
    (storeU16 addr word).stores memory = [addr, addr + 1] := by
  simp [storeU16]

@[simp] theorem storeU32_stores (addr : Nat) (word : BitVec 32) (memory : Nat → Byte) :
    (storeU32 addr word).stores memory = [addr, addr + 1, addr + 2, addr + 3] := by
  simp [storeU32]

@[simp] theorem loadU16_run {memory : Nat → Byte} {addr : Nat} {word : BitVec 16}
    (holds : Holds16 memory addr word) : ((loadU16 addr).run memory).1 = word := by
  simp [loadU16, holds.1, holds.2]

@[simp] theorem loadU32_run {memory : Nat → Byte} {addr : Nat} {word : BitVec 32}
    (holds : Holds32 memory addr word) : ((loadU32 addr).run memory).1 = word := by
  simp [loadU32, holds.1, holds.2.1, holds.2.2.1, holds.2.2.2]

theorem memcpy_stores (addr : Nat) (bytes : List Byte) (memory : Nat → Byte) :
    (memcpy addr bytes).stores memory = List.range' addr bytes.length := by
  induction bytes generalizing addr memory with
  | nil => rfl
  | cons byte rest ih =>
    simp only [memcpy, Prog.stores_bind, Prog.stores_write, ih, List.length_cons, List.range'_succ,
      List.singleton_append]

theorem memcpy_run (addr : Nat) (bytes : List Byte) (memory : Nat → Byte) (i : Nat)
    (inside : i < bytes.length) :
    ((memcpy addr bytes).run memory).2 (addr + i) = bytes.getD i 0 := by
  induction bytes generalizing addr memory i with
  | nil => exact absurd inside (Nat.not_lt_zero i)
  | cons byte rest ih =>
    simp only [memcpy, Prog.run_bind, Prog.run_write]
    cases i with
    | zero =>
      have untouched : addr ∉ (memcpy (addr + 1) rest).stores (Function.update memory addr byte) := by
        rw [memcpy_stores, List.mem_range'_1]
        omega
      simp [Prog.run_frame _ _ addr untouched]
    | succ i =>
      have later := ih (addr + 1) (Function.update memory addr byte) i
        (Nat.lt_of_succ_lt_succ inside)
      rw [show addr + (i + 1) = addr + 1 + i by omega, later]
      rfl

/-! ### What each call writes -/

structure TagSet (srvId sockId : BitVec 32) (memory : Nat → Byte) : Prop where
  first : memory 0 = TAG_HEAD_1
  second : memory 1 = TAG_HEAD_2
  srv : Holds32 memory offConnServerId (htonl srvId)
  sock : Holds32 memory offSocketId (htonl sockId)

structure HeadSet (number sid cid : BitVec 16) (version : Byte) (memory : Nat → Byte) : Prop where
  ver : memory offVer = version
  msgId : Holds16 memory offMsgId (htons number)
  service : Holds16 memory offServiceId (htons sid)
  cmd : Holds16 memory offCmdId (htons cid)

structure BodySet (body : List Byte) (memory : Nat → Byte) : Prop where
  len : Holds16 memory offLen (htons (BitVec.ofNat 16 body.length))
  sum : memory offCheck = memory 24 ^^^ memory 25 ^^^ xorAll body
  bytes : ∀ i, i < body.length → memory (HEAD_LEN + i) = body.getD i 0

theorem setTagProg_set (srvId sockId : BitVec 32) (memory : Nat → Byte) :
    TagSet srvId sockId ((setTagProg srvId sockId).run memory).2 := by
  refine ⟨?_, ?_, ?_, ?_⟩ <;>
    simp [setTagProg, storeU32, Holds32, offConnServerId, offSocketId]

theorem setTagProg_stores (srvId sockId : BitVec 32) (memory : Nat → Byte) :
    ∀ addr ∈ (setTagProg srvId sockId).stores memory, addr < 10 := by
  simp [setTagProg, offConnServerId, offSocketId]

theorem setBodyHeadProg_set (number sid cid : BitVec 16) (version : Byte) (memory : Nat → Byte)
    (numbered : number ≠ 0) (service : sid ≠ 0) (cmd : cid ≠ 0) (versioned : version ≠ 0) :
    HeadSet number sid cid version ((setBodyHeadProg number sid cid version).run memory).2 := by
  simp only [setBodyHeadProg, onlyIf, if_pos numbered, if_pos service, if_pos cmd, if_pos versioned]
  refine ⟨?_, ?_, ?_, ?_⟩ <;>
    simp [storeU16, Holds16, offVer, offMsgId, offServiceId, offCmdId]

theorem mem_stores_onlyIf {condition : Prop} [Decidable condition]
    {program : Prog Nat Byte Unit} {memory : Nat → Byte} {addr : Nat}
    (stored : addr ∈ (onlyIf condition program).stores memory) :
    addr ∈ program.stores memory := by
  unfold onlyIf at stored
  split at stored
  · exact stored
  · exact absurd stored (by simp)

theorem setBodyHeadProg_stores (number sid cid : BitVec 16) (version : Byte)
    (memory : Nat → Byte) :
    ∀ addr ∈ (setBodyHeadProg number sid cid version).stores memory, 11 ≤ addr ∧ addr < 20 := by
  intro addr stored
  simp only [setBodyHeadProg, Prog.stores_bind, List.mem_append, Prog.stores_write,
    List.mem_singleton] at stored
  obtain rfl | rfl | stored | stored | stored | stored := stored
  · decide
  · decide
  all_goals
    have written := mem_stores_onlyIf stored
    simp [offVer, offMsgId, offServiceId, offCmdId] at written
    omega

/-- What `set_data` and `set_pb` have in common. -/
def frameBodyProg (body : List Byte) : Prog Nat Byte Unit := do
  storeU16 offLen (htons (BitVec.ofNat 16 body.length))
  memcpy HEAD_LEN body
  let c ← checksum body.length
  Prog.write offCheck c

theorem setDataProg_eq (body : List Byte) (small : body.length < 2 ^ 16) :
    setDataProg (some body) (BitVec.ofNat 16 body.length) = frameBodyProg body := by
  have size : (BitVec.ofNat 16 body.length).toNat = body.length := Nat.mod_eq_of_lt small
  simp only [setDataProg, size, List.take_length, frameBodyProg]

theorem setPbProg_run (pb : MessageLite) (complete : pb.serializes = true) (memory : Nat → Byte) :
    (setPbProg pb).run memory = (true, ((frameBodyProg pb.payload).run memory).2) := by
  simp only [setPbProg, complete, if_true, MessageLite.byteSize, Prog.run_bind, checksum_run,
    Prog.run_write, Prog.run_pure, frameBodyProg]

theorem frameBodyProg_stores (body : List Byte) (memory : Nat → Byte) :
    ∀ addr ∈ (frameBodyProg body).stores memory, 24 ≤ addr ∧ addr < HEAD_LEN + body.length := by
  intro addr stored
  simp only [frameBodyProg, Prog.stores_bind, List.mem_append, storeU16_stores, memcpy_stores,
    checksum_stores, Prog.stores_write, List.mem_cons, List.mem_range'_1, List.not_mem_nil, or_false,
    false_or] at stored
  simp only [offLen, offCheck, HEAD_LEN] at stored ⊢
  omega

/-- The body arrives in memory as it is, be it empty. -/
theorem frameBodyProg_copies (body : List Byte) (memory : Nat → Byte) (i : Nat)
    (inside : i < body.length) :
    ((frameBodyProg body).run memory).2 (HEAD_LEN + i) = body.getD i 0 := by
  have apart : HEAD_LEN + i ≠ offCheck := by
    simp only [HEAD_LEN, offCheck]
    omega
  simp only [frameBodyProg, Prog.run_bind, checksum_run, Prog.run_write]
  rw [Function.update_of_ne apart]
  exact memcpy_run HEAD_LEN body _ i inside

theorem frameBodyProg_set (body : List Byte) (memory : Nat → Byte) (some_byte : 0 < body.length) :
    BodySet body ((frameBodyProg body).run memory).2 := by
  let word := htons (BitVec.ofNat 16 body.length)
  let written := ((memcpy HEAD_LEN body).run ((storeU16 offLen word).run memory).2).2
  have final : ((frameBodyProg body).run memory).2 =
      Function.update written offCheck (frameSum body.length written) := by
    simp only [frameBodyProg, Prog.run_bind, checksum_run, Prog.run_write, written, word]
  have headerKept : ∀ addr, addr < HEAD_LEN →
      written addr = ((storeU16 offLen word).run memory).2 addr := by
    intro addr inside
    refine Prog.run_frame _ _ addr ?_
    rw [memcpy_stores, List.mem_range'_1]
    omega
  have copied : ∀ i, i < body.length → written (HEAD_LEN + i) = body.getD i 0 :=
    fun i inside => memcpy_run HEAD_LEN body _ i inside
  have bodyAgain : (List.range' HEAD_LEN body.length).map written = body := by
    apply List.ext_getElem
    · simp
    · intro i left right
      simp [copied i right, right]
  have field := storeU16_holds offLen word memory
  have b24 : written 24 = byteAt word 0 := (headerKept 24 (by decide)).trans field.1
  have b25 : written 25 = byteAt word 1 := (headerKept 25 (by decide)).trans field.2
  refine ⟨⟨?_, ?_⟩, ?_, fun i inside => frameBodyProg_copies body memory i inside⟩
  · rw [final]
    simpa [offLen, offCheck] using b24
  · rw [final]
    simpa [offLen, offCheck] using b25
  · rw [final, Function.update_self, frameSum_body _ _ some_byte, bodyAgain]
    simp [offCheck]

/-! ### The block of a message -/

def byteOf (msg : IMString) (addr : Nat) : Byte := (msg.mData.getD []).getD addr 0

def blockSize (msg : IMString) : Nat := (msg.mData.getD []).length

/-- A message with a block of `m_alloc` bytes that has room for a header. -/
structure Ready (msg : IMString) : Prop where
  live : msg.mData.isSome = true
  alloc : msg.mAlloc = blockSize msg
  headed : HEAD_LEN ≤ blockSize msg

theorem view_inside (heap : Heap) (msg : IMString) (addr : Nat) (inside : addr < blockSize msg) :
    view heap msg addr = byteOf msg addr := by
  simp only [blockSize] at inside
  simp [view, byteOf, inside]

section Exec
variable {A : Type} (heap : Heap) (msg : IMString) (program : Prog Nat Byte A)

theorem exec_blockSize : blockSize (exec heap msg program).2 = blockSize msg := by
  cases data : msg.mData <;> simp [exec, blockSize, data]

theorem exec_byteOf (addr : Nat) (inside : addr < blockSize msg) :
    byteOf (exec heap msg program).2 addr = (program.run (view heap msg)).2 addr := by
  cases data : msg.mData with
  | none => simp [blockSize, data] at inside
  | some bytes =>
    simp only [blockSize, data, Option.getD_some] at inside
    simp [exec, byteOf, data, inside]

/-- A call leaves alone what its program does not store to. -/
theorem exec_frame (addr : Nat) (inside : addr < blockSize msg)
    (untouched : addr ∉ program.stores (view heap msg)) :
    byteOf (exec heap msg program).2 addr = byteOf msg addr := by
  rw [exec_byteOf heap msg program addr inside, Prog.run_frame _ _ addr untouched,
    view_inside heap msg addr inside]

theorem exec_ready (ready : Ready msg) : Ready (exec heap msg program).2 := by
  refine ⟨?_, ?_, ?_⟩
  · simpa [exec] using ready.live
  · rw [exec_blockSize]
    exact ready.alloc
  · rw [exec_blockSize]
    exact ready.headed

end Exec

/-- A call on a message: the block may grow, and only bytes of one region change. -/
structure Kept (touched : Nat → Prop) (msg next : IMString) : Prop where
  ready : Ready next
  grows : blockSize msg ≤ blockSize next
  frame : ∀ addr, addr < blockSize msg → ¬touched addr → byteOf next addr = byteOf msg addr

theorem Kept.trans {touched : Nat → Prop} {msg middle next : IMString}
    (first : Kept (fun _ => False) msg middle) (second : Kept touched middle next) :
    Kept touched msg next where
  ready := second.ready
  grows := first.grows.trans second.grows
  frame addr inside outside := by
    rw [second.frame addr (Nat.lt_of_lt_of_le inside first.grows) outside,
      first.frame addr inside id]

theorem Kept.withLen {touched : Nat → Prop} {msg next : IMString} (kept : Kept touched msg next)
    (len : Int) : Kept touched msg { next with mLen := len } :=
  ⟨⟨kept.ready.live, kept.ready.alloc, kept.ready.headed⟩, kept.grows, kept.frame⟩

theorem exec_kept {A : Type} (heap : Heap) {msg : IMString} (ready : Ready msg)
    (program : Prog Nat Byte A) (touched : Nat → Prop)
    (stores : ∀ addr ∈ program.stores (view heap msg), touched addr) :
    Kept touched msg (exec heap msg program).2 :=
  ⟨exec_ready heap msg program ready, le_of_eq (exec_blockSize heap msg program).symm,
    fun addr inside outside =>
      exec_frame heap msg program addr inside fun stored => outside (stores addr stored)⟩

/-- `resize` keeps the bytes of the block and gives it the size that is asked for. -/
theorem resize_kept (heap : Heap) {msg : IMString} (size : Nat) (ready : Ready msg)
    (malloc : heap.malloc = true) (grows : blockSize msg ≤ size) :
    Kept (fun _ => False) msg (resize heap msg size).2 ∧
      size ≤ blockSize (resize heap msg size).2 := by
  have alloc := ready.alloc
  have headed := ready.headed
  unfold resize
  by_cases enough : msg.mAlloc ≥ size
  · rw [if_pos enough]
    exact ⟨⟨ready, le_rfl, fun _ _ _ => rfl⟩, by simp only; omega⟩
  · rw [if_neg enough, if_pos malloc]
    have grown : blockSize { msg with
        mData := some ((List.range (size : Int).toNat).map (view heap msg)),
        mAlloc := size } = size := by
      simp [blockSize]
    refine ⟨⟨⟨rfl, by rw [grown], by rw [grown]; omega⟩, by rw [grown]; exact grows,
      fun addr inside _ => ?_⟩, le_of_eq grown.symm⟩
    rw [← view_inside heap msg addr inside]
    simp [byteOf, Nat.lt_of_lt_of_le inside grows]

/-! ### The calls -/

def TagRegion (addr : Nat) : Prop := addr < 10
def HeadRegion (addr : Nat) : Prop := 11 ≤ addr ∧ addr < 20
def BodyRegion (addr : Nat) : Prop := 24 ≤ addr

/-- The message holds a frame with the given body. -/
structure Carries (body : List Byte) (msg : IMString) : Prop where
  set : BodySet body (byteOf msg)
  mLen : msg.mLen = (HEAD_LEN + body.length : Nat)
  inside : HEAD_LEN + body.length ≤ blockSize msg

section Congruence
variable {memory other : Nat → Byte}

theorem TagSet.congr {srvId sockId : BitVec 32} (set : TagSet srvId sockId memory)
    (agree : ∀ addr, TagRegion addr → other addr = memory addr) : TagSet srvId sockId other := by
  have same : ∀ addr, addr < 10 → other addr = memory addr := agree
  refine ⟨?_, ?_, ?_, ?_⟩
  · rw [same 0 (by decide), set.first]
  · rw [same 1 (by decide), set.second]
  · have srv := set.srv
    simp only [Holds32, offConnServerId] at srv ⊢
    rwa [same 2 (by decide), same 3 (by decide), same 4 (by decide), same 5 (by decide)]
  · have sock := set.sock
    simp only [Holds32, offSocketId] at sock ⊢
    rwa [same 6 (by decide), same 7 (by decide), same 8 (by decide), same 9 (by decide)]

theorem HeadSet.congr {number sid cid : BitVec 16} {version : Byte}
    (set : HeadSet number sid cid version memory)
    (agree : ∀ addr, HeadRegion addr → other addr = memory addr) :
    HeadSet number sid cid version other := by
  have same : ∀ addr, 11 ≤ addr ∧ addr < 20 → other addr = memory addr := agree
  refine ⟨?_, ?_, ?_, ?_⟩
  · rw [same offVer (by decide), set.ver]
  · have msgId := set.msgId
    simp only [Holds16, offMsgId] at msgId ⊢
    rwa [same 14 (by decide), same 15 (by decide)]
  · have service := set.service
    simp only [Holds16, offServiceId] at service ⊢
    rwa [same 16 (by decide), same 17 (by decide)]
  · have cmd := set.cmd
    simp only [Holds16, offCmdId] at cmd ⊢
    rwa [same 18 (by decide), same 19 (by decide)]

theorem BodySet.congr {body : List Byte} (set : BodySet body memory)
    (agree : ∀ addr, BodyRegion addr → addr < HEAD_LEN + body.length → other addr = memory addr) :
    BodySet body other := by
  have same : ∀ addr, 24 ≤ addr → addr < HEAD_LEN + body.length → other addr = memory addr := agree
  have b24 : other 24 = memory 24 := same 24 (by decide) (by rw [HEAD_LEN]; omega)
  have b25 : other 25 = memory 25 := same 25 (by decide) (by rw [HEAD_LEN]; omega)
  have b26 : other offCheck = memory offCheck :=
    same 26 (by decide) (by rw [HEAD_LEN]; omega)
  refine ⟨?_, ?_, ?_⟩
  · have len := set.len
    simp only [Holds16, offLen] at len ⊢
    rwa [b24, b25]
  · rw [b24, b25, b26, set.sum]
  · intro i inside
    rw [same (HEAD_LEN + i) (by rw [HEAD_LEN]; omega) (by omega), set.bytes i inside]

end Congruence

section Calls
variable (heap : Heap) {msg : IMString} (ready : Ready msg)
include ready

theorem setTag_kept (srvId sockId : BitVec 32) :
    Kept TagRegion msg (setTag heap msg srvId sockId) := by
  rw [setTag, if_pos ready.live]
  exact exec_kept heap ready _ _ (setTagProg_stores srvId sockId _)

theorem setTag_mLen (srvId sockId : BitVec 32) :
    (setTag heap msg srvId sockId).mLen = msg.mLen := by
  rw [setTag, if_pos ready.live]
  rfl

theorem setTag_set (srvId sockId : BitVec 32) :
    TagSet srvId sockId (byteOf (setTag heap msg srvId sockId)) := by
  rw [setTag, if_pos ready.live]
  refine (setTagProg_set srvId sockId (view heap msg)).congr fun addr inside => ?_
  refine exec_byteOf heap msg _ addr (Nat.lt_of_lt_of_le ?_ ready.headed)
  exact Nat.lt_trans inside (by decide)

theorem setBodyHead_kept (number sid cid : BitVec 16) (version : Byte) :
    Kept HeadRegion msg (setBodyHead heap msg number sid cid version) := by
  rw [setBodyHead, if_pos ready.live]
  exact exec_kept heap ready _ _ (setBodyHeadProg_stores number sid cid version _)

theorem setBodyHead_mLen (number sid cid : BitVec 16) (version : Byte) :
    (setBodyHead heap msg number sid cid version).mLen = msg.mLen := by
  rw [setBodyHead, if_pos ready.live]
  rfl

theorem setBodyHead_set (number sid cid : BitVec 16) (version : Byte) (numbered : number ≠ 0)
    (service : sid ≠ 0) (cmd : cid ≠ 0) (versioned : version ≠ 0) :
    HeadSet number sid cid version (byteOf (setBodyHead heap msg number sid cid version)) := by
  rw [setBodyHead, if_pos ready.live]
  refine (setBodyHeadProg_set number sid cid version (view heap msg) numbered service cmd
    versioned).congr fun addr inside => ?_
  refine exec_byteOf heap msg _ addr (Nat.lt_of_lt_of_le ?_ ready.headed)
  exact Nat.lt_trans inside.2 (by decide)

/-- The body is stored and summed in a block that has room for it. -/
theorem exec_frameBody_carries (body : List Byte) (some_byte : 0 < body.length)
    (fits : HEAD_LEN + body.length ≤ blockSize msg) :
    Kept BodyRegion msg (exec heap msg (frameBodyProg body)).2 ∧
      Carries body { (exec heap msg (frameBodyProg body)).2 with
        mLen := (HEAD_LEN + body.length : Nat) } := by
  have stores := frameBodyProg_stores body (view heap msg)
  refine ⟨exec_kept heap ready _ _ fun addr stored => (stores addr stored).1, ?_, rfl, ?_⟩
  · refine (frameBodyProg_set body (view heap msg) some_byte).congr fun addr _ inside => ?_
    exact exec_byteOf heap msg _ addr (Nat.lt_of_lt_of_le inside fits)
  · exact (exec_blockSize heap msg (frameBodyProg body)).symm ▸ fits

theorem setData_carries (body : List Byte) (malloc : heap.malloc = true)
    (some_byte : 0 < body.length) (small : body.length ≤ 65508) :
    Kept BodyRegion msg (setData heap msg (some body) (BitVec.ofNat 16 body.length)).2 ∧
      Carries body (setData heap msg (some body) (BitVec.ofNat 16 body.length)).2 := by
  have total : (BitVec.ofNat 16 body.length + BitVec.ofNat 16 HEAD_LEN).toNat =
      HEAD_LEN + body.length := by
    simp only [BitVec.toNat_add, BitVec.toNat_ofNat, HEAD_LEN]
    omega
  have alloc := ready.alloc
  have room : Kept (fun _ => False) msg
      (if msg.mAlloc < (HEAD_LEN + body.length : Nat) then
        resize heap msg (HEAD_LEN + body.length : Nat) else (false, msg)).2 ∧
      HEAD_LEN + body.length ≤ blockSize
        (if msg.mAlloc < (HEAD_LEN + body.length : Nat) then
          resize heap msg (HEAD_LEN + body.length : Nat) else (false, msg)).2 := by
    split
    · exact resize_kept heap _ ready malloc (by omega)
    · exact ⟨⟨ready, le_rfl, fun _ _ _ => rfl⟩, by simp only; omega⟩
  simp only [setData, total]
  obtain ⟨kept, fits⟩ := room
  rw [if_pos kept.ready.live]
  simp only [setDataProg_eq body (by omega)]
  have written := exec_frameBody_carries heap kept.ready body some_byte fits
  exact ⟨(kept.trans written.1).withLen _, written.2⟩

theorem setPb_carries (pb : MessageLite) (complete : pb.serializes = true)
    (some_byte : 0 < pb.payload.length) (small : pb.payload.length ≤ 65508)
    (fits : HEAD_LEN + pb.payload.length ≤ blockSize msg) :
    Kept BodyRegion msg (setPb heap msg pb).2 ∧ Carries pb.payload (setPb heap msg pb).2 := by
  have total : (BitVec.ofNat 16 (pb.byteSize + HEAD_LEN)).toNat = HEAD_LEN + pb.payload.length := by
    simp only [BitVec.toNat_ofNat, MessageLite.byteSize, HEAD_LEN]
    omega
  have answer : (exec heap msg (setPbProg pb)).1 = true := by
    simp only [exec, setPbProg_run pb complete]
  have written : (exec heap msg (setPbProg pb)).2 =
      (exec heap msg (frameBodyProg pb.payload)).2 := by
    simp only [exec, setPbProg_run pb complete]
  have carries := exec_frameBody_carries heap ready pb.payload some_byte fits
  simp only [setPb, if_pos ready.live, answer, if_true, total, written]
  exact ⟨carries.1.withLen _, carries.2⟩

end Calls

/-! ### Any order of the calls -/

/-- The calls that fill in a message. -/
inductive Call where
  | tag (srvId sockId : BitVec 32)
  | bodyHead (number sid cid : BitVec 16) (version : Byte)
  | data (body : List Byte)
  | pb (message : MessageLite)

namespace Call

def apply (heap : Heap) (msg : IMString) : Call → IMString
  | tag srvId sockId => setTag heap msg srvId sockId
  | bodyHead number sid cid version => setBodyHead heap msg number sid cid version
  | data body => (setData heap msg (some body) (BitVec.ofNat 16 body.length)).2
  | pb message => (setPb heap msg message).2

def Region : Call → Nat → Prop
  | tag .. => TagRegion
  | bodyHead .. => HeadRegion
  | data _ | pb _ => BodyRegion

/-- What is in the message after the call. -/
def Done (msg : IMString) : Call → Prop
  | tag srvId sockId => TagSet srvId sockId (byteOf msg)
  | bodyHead number sid cid version => HeadSet number sid cid version (byteOf msg)
  | data body => Carries body msg
  | pb message => Carries message.payload msg

/-- The arguments that a call accepts; `set_pb` does not make room for its body. -/
def Fits (msg : IMString) : Call → Prop
  | tag .. => True
  | bodyHead number sid cid version => number ≠ 0 ∧ sid ≠ 0 ∧ cid ≠ 0 ∧ version ≠ 0
  | data body => 0 < body.length ∧ body.length ≤ 65508
  | pb message => message.serializes = true ∧ 0 < message.payload.length ∧
      message.payload.length ≤ 65508 ∧ HEAD_LEN + message.payload.length ≤ blockSize msg

/-- Two calls that write different regions. -/
def Apart (call other : Call) : Prop := ∀ addr, call.Region addr → ¬other.Region addr

theorem apply_done (heap : Heap) {msg : IMString} (call : Call) (malloc : heap.malloc = true)
    (ready : Ready msg) (fits : call.Fits msg) :
    Kept call.Region msg (call.apply heap msg) ∧ call.Done (call.apply heap msg) := by
  cases call with
  | tag srvId sockId => exact ⟨setTag_kept heap ready .., setTag_set heap ready ..⟩
  | bodyHead number sid cid version =>
    obtain ⟨numbered, service, cmd, versioned⟩ := fits
    exact ⟨setBodyHead_kept heap ready .., setBodyHead_set heap ready _ _ _ _ numbered service cmd
      versioned⟩
  | data body => exact setData_carries heap ready body malloc fits.1 fits.2
  | pb message =>
    obtain ⟨complete, some_byte, small, room⟩ := fits
    exact setPb_carries heap ready message complete some_byte small room

theorem apply_mLen (heap : Heap) {msg : IMString} (call : Call) (ready : Ready msg)
    (header : ∀ addr, BodyRegion addr → ¬call.Region addr) :
    (call.apply heap msg).mLen = msg.mLen := by
  cases call with
  | tag srvId sockId => exact setTag_mLen heap ready ..
  | bodyHead number sid cid version => exact setBodyHead_mLen heap ready ..
  | data body => exact absurd (show BodyRegion 24 from le_rfl) (header 24 le_rfl)
  | pb message => exact absurd (show BodyRegion 24 from le_rfl) (header 24 le_rfl)

theorem carries_of_kept {body : List Byte} {touched : Nat → Prop} {msg next : IMString}
    (carries : Carries body msg) (kept : Kept touched msg next)
    (header : ∀ addr, BodyRegion addr → ¬touched addr) (mLen : next.mLen = msg.mLen) :
    Carries body next where
  set := carries.set.congr fun addr inBody inside =>
    kept.frame addr (Nat.lt_of_lt_of_le inside carries.inside) (header addr inBody)
  mLen := mLen.trans carries.mLen
  inside := carries.inside.trans kept.grows

/-- What one call has done, a call that writes another region leaves done. -/
theorem done_keeps (heap : Heap) {msg : IMString} (call other : Call) (ready : Ready msg)
    (apart : call.Apart other) (kept : Kept other.Region msg (other.apply heap msg))
    (done : call.Done msg) : call.Done (other.apply heap msg) := by
  have headed := ready.headed
  cases call with
  | tag srvId sockId =>
    refine TagSet.congr done fun addr inside => kept.frame addr ?_ (apart addr inside)
    exact Nat.lt_of_lt_of_le (Nat.lt_trans inside (by decide)) headed
  | bodyHead number sid cid version =>
    refine HeadSet.congr done fun addr inside => kept.frame addr ?_ (apart addr inside)
    exact Nat.lt_of_lt_of_le (Nat.lt_trans inside.2 (by decide)) headed
  | data body => exact carries_of_kept done kept apart (apply_mLen heap other ready apart)
  | pb message => exact carries_of_kept done kept apart (apply_mLen heap other ready apart)

theorem fits_keeps {touched : Nat → Prop} {msg next : IMString} {call : Call}
    (kept : Kept touched msg next) (fits : call.Fits msg) : call.Fits next := by
  cases call with
  | tag srvId sockId => trivial
  | bodyHead number sid cid version => exact fits
  | data body => exact fits
  | pb message =>
    obtain ⟨complete, some_byte, small, room⟩ := fits
    exact ⟨complete, some_byte, small, room.trans kept.grows⟩

end Call

/-- The calls in the order of the list, each with the allocator it meets. -/
def build (msg : IMString) (calls : List (Heap × Call)) : IMString :=
  calls.foldl (fun msg each => each.2.apply each.1 msg) msg

/-- Calls that write different regions have all had their effect at the end, whatever their
order. -/
theorem build_done (calls : List (Heap × Call)) {msg : IMString} (done : List Call)
    (ready : Ready msg) (malloc : ∀ each ∈ calls, each.1.malloc = true)
    (fits : ∀ each ∈ calls, each.2.Fits msg) (before : ∀ call ∈ done, call.Done msg)
    (apart : ∀ call ∈ done, ∀ each ∈ calls, call.Apart each.2)
    (pairwise : calls.Pairwise fun first second => first.2.Apart second.2) :
    Ready (build msg calls) ∧ (∀ call ∈ done, call.Done (build msg calls)) ∧
      ∀ each ∈ calls, each.2.Done (build msg calls) := by
  induction calls generalizing msg done with
  | nil => exact ⟨ready, before, fun _ none => nomatch none⟩
  | cons first calls ih =>
    obtain ⟨kept, now⟩ := first.2.apply_done first.1 (malloc first List.mem_cons_self) ready
      (fits first List.mem_cons_self)
    have rest := ih (first.2 :: done) kept.ready
      (fun each inside => malloc each (List.mem_cons_of_mem _ inside))
      (fun each inside => Call.fits_keeps kept (fits each (List.mem_cons_of_mem _ inside)))
      (by
        intro call inside
        obtain rfl | inside := List.mem_cons.mp inside
        · exact now
        · exact Call.done_keeps first.1 call first.2 ready (apart call inside first List.mem_cons_self)
            kept (before call inside))
      (by
        intro call inside each later
        obtain rfl | inside := List.mem_cons.mp inside
        · exact (List.pairwise_cons.mp pairwise).1 each later
        · exact apart call inside each (List.mem_cons_of_mem _ later))
      (List.pairwise_cons.mp pairwise).2
    refine ⟨rest.1, fun call inside => rest.2.1 call (List.mem_cons_of_mem _ inside), ?_⟩
    intro each inside
    obtain here | inside := List.mem_cons.mp inside
    · rw [here]
      exact rest.2.1 first.2 List.mem_cons_self
    · exact rest.2.2 each inside

/-! ### What the getters answer -/

section Getters
variable (heap : Heap) {msg : IMString} (ready : Ready msg)
include ready

theorem view_header (addr : Nat) (inside : addr < HEAD_LEN) : view heap msg addr = byteOf msg addr :=
  view_inside heap msg addr (Nat.lt_of_lt_of_le inside ready.headed)

theorem holds16_view {addr : Nat} {word : BitVec 16} (inside : addr + 2 ≤ HEAD_LEN)
    (holds : Holds16 (byteOf msg) addr word) : Holds16 (view heap msg) addr word := by
  unfold Holds16
  rw [view_header heap ready addr (by omega), view_header heap ready (addr + 1) (by omega)]
  exact holds

theorem holds32_view {addr : Nat} {word : BitVec 32} (inside : addr + 4 ≤ HEAD_LEN)
    (holds : Holds32 (byteOf msg) addr word) : Holds32 (view heap msg) addr word := by
  unfold Holds32
  rw [view_header heap ready addr (by omega), view_header heap ready (addr + 1) (by omega),
    view_header heap ready (addr + 2) (by omega), view_header heap ready (addr + 3) (by omega)]
  exact holds

theorem getField16 {addr : Nat} {word : BitVec 16} (inside : addr + 2 ≤ HEAD_LEN)
    (holds : Holds16 (byteOf msg) addr (htons word)) :
    getField heap msg (ntohs <$> loadU16 addr) = word := by
  rw [getField, if_pos ready.live, Prog.run_map, loadU16_run (holds16_view heap ready inside holds)]
  exact swap16_swap16 word

theorem getField32 {addr : Nat} {word : BitVec 32} (inside : addr + 4 ≤ HEAD_LEN)
    (holds : Holds32 (byteOf msg) addr (htonl word)) :
    getField heap msg (ntohl <$> loadU32 addr) = word := by
  rw [getField, if_pos ready.live, Prog.run_map, loadU32_run (holds32_view heap ready inside holds)]
  exact swap32_swap32 word

theorem getters_tag {srvId sockId : BitVec 32} (set : TagSet srvId sockId (byteOf msg)) :
    getSrvId heap msg = srvId ∧ getSocketId heap msg = sockId :=
  ⟨getField32 heap ready (by decide) set.srv, getField32 heap ready (by decide) set.sock⟩

/-- The 32-bit load of `get_packge_number` is cut to its low half, which is `msgId`; the one of
`get_protocl` covers `serviceId` and `cmdId`. -/
theorem getters_head {number sid cid : BitVec 16} {version : Byte}
    (set : HeadSet number sid cid version (byteOf msg)) :
    getMsgId heap msg = number ∧ getPackgeNumber heap msg = number ∧ getSid heap msg = sid ∧
      getCmd heap msg = cid ∧ getVersion heap msg = version ∧
      getProtocl heap msg = sid ++ cid := by
  have msgId := holds16_view heap ready (by decide) set.msgId
  have service := holds16_view heap ready (by decide) set.service
  have cmd := holds16_view heap ready (by decide) set.cmd
  refine ⟨getField16 heap ready (by decide) set.msgId, ?_,
    getField16 heap ready (by decide) set.service, getField16 heap ready (by decide) set.cmd, ?_, ?_⟩
  · simp only [getPackgeNumber, getField, if_pos ready.live, Prog.run_map, loadU32, Prog.run_bind,
      Prog.run_read, Prog.run_pure, word32_low, msgId.1, msgId.2, word16_bytes]
    exact swap16_swap16 number
  · simp only [getVersion, getField, if_pos ready.live, Prog.run_read]
    rw [view_header heap ready offVer (by decide), set.ver]
  · have second : Holds16 (view heap msg) (offServiceId + 2) (htons cid) := cmd
    simp only [getProtocl, getField, if_pos ready.live, Prog.run_map, loadU32, Prog.run_bind,
      Prog.run_read, Prog.run_pure, service.1, service.2, second.1]
    rw [show offServiceId + 3 = offServiceId + 2 + 1 from rfl, second.2]
    exact swap32_halves sid cid

end Getters

section Carried
variable {msg : IMString} {body : List Byte}

theorem length_bytes (mLen : msg.mLen = (HEAD_LEN + body.length : Nat))
    (inside : HEAD_LEN + body.length ≤ blockSize msg) :
    msg.bytes.length = HEAD_LEN + body.length := by
  simp only [blockSize] at inside
  simp only [IMString.bytes, mLen, Int.toNat_natCast, List.length_take]
  omega

theorem getD_bytes (mLen : msg.mLen = (HEAD_LEN + body.length : Nat)) (addr : Nat)
    (inside : addr < HEAD_LEN + body.length) : msg.bytes.getD addr 0 = byteOf msg addr := by
  simp only [IMString.bytes, mLen, Int.toNat_natCast, byteOf, List.getD, List.getElem?_take,
    if_pos inside]

theorem drop_bytes (mLen : msg.mLen = (HEAD_LEN + body.length : Nat))
    (inside : HEAD_LEN + body.length ≤ blockSize msg)
    (copied : ∀ i, i < body.length → byteOf msg (HEAD_LEN + i) = body.getD i 0) :
    msg.bytes.drop HEAD_LEN = body := by
  have size := length_bytes mLen inside
  apply List.ext_getElem
  · rw [List.length_drop, size]
    omega
  · intro i left right
    have here := getD_bytes mLen (HEAD_LEN + i) (by omega)
    rw [copied i right, List.getD_eq_getElem _ _ (by omega), List.getD_eq_getElem _ _ right] at here
    rw [List.getElem_drop]
    exact here

theorem bytes_length (carries : Carries body msg) : msg.bytes.length = HEAD_LEN + body.length :=
  length_bytes carries.mLen carries.inside

theorem bytes_getD (carries : Carries body msg) (addr : Nat)
    (inside : addr < HEAD_LEN + body.length) : msg.bytes.getD addr 0 = byteOf msg addr :=
  getD_bytes carries.mLen addr inside

theorem bytes_body (carries : Carries body msg) : msg.bytes.drop HEAD_LEN = body :=
  drop_bytes carries.mLen carries.inside carries.set.bytes

/-- The message is a frame at the beginning of its block. -/
theorem held_of_carries (ready : Ready msg) (carries : Carries body msg) :
    msg = held msg.bytes ((msg.mData.getD []).drop (HEAD_LEN + body.length)) := by
  have size := bytes_length carries
  have alloc := ready.alloc
  have mLen := carries.mLen
  obtain ⟨data, live⟩ := Option.isSome_iff_exists.mp ready.live
  obtain ⟨mData, mAlloc, len⟩ := msg
  simp only at live mLen
  subst live mLen
  simp only [blockSize, Option.getD_some] at alloc
  subst alloc
  have whole : IMString.bytes ⟨some data, data.length, (HEAD_LEN + body.length : Nat)⟩ ++
      data.drop (HEAD_LEN + body.length) = data := by
    simp only [IMString.bytes, Option.getD_some, Int.toNat_natCast, List.take_append_drop]
  simp only [held, Option.getD_some, whole, size]

theorem goodSum_of_carries (carries : Carries body msg) : goodSum msg.bytes = true := by
  have headed : ∀ addr, addr < HEAD_LEN → addr < HEAD_LEN + body.length :=
    fun addr inside => Nat.lt_add_right _ inside
  rw [goodSum, bytes_getD carries offCheck (headed _ (by decide)),
    bytes_getD carries 24 (headed _ (by decide)), bytes_getD carries 25 (headed _ (by decide)),
    bytes_body carries, carries.set.sum]
  exact beq_self_eq_true _

theorem check_of_carries (heap : Heap) (ready : Ready msg) (carries : Carries body msg)
    (some_byte : 0 < body.length) : check heap msg = true := by
  rw [held_of_carries ready carries, check_held _ _ _ (by rw [bytes_length carries]; omega)]
  exact goodSum_of_carries carries

theorem getters_body (heap : Heap) (ready : Ready msg) (carries : Carries body msg)
    (small : body.length ≤ 65508) :
    (getDataLen heap msg).toNat = body.length ∧ (dataLen msg).toNat = body.length ∧
      (getData msg).map (List.take body.length) = some body := by
  refine ⟨?_, ?_, ?_⟩
  · rw [getDataLen, getField16 heap ready (by decide) carries.set.len]
    exact Nat.mod_eq_of_lt (by omega)
  · have body_size : msg.mLen - (HEAD_LEN : Int) = (body.length : Int) := by
      rw [carries.mLen]
      omega
    rw [dataLen, body_size]
    simp only [BitVec.ofInt_natCast, BitVec.toNat_ofNat]
    omega
  · obtain ⟨data, live⟩ := Option.isSome_iff_exists.mp ready.live
    have here := bytes_body carries
    simp only [IMString.bytes, live, Option.getD_some, carries.mLen, Int.toNat_natCast,
      List.drop_take, Nat.add_sub_cancel_left] at here
    simp only [getData, live, Option.map_some, here]

end Carried

end SNFrame.Base.FrameCodec
