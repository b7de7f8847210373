import Mathlib.Tactic.Common
import SNFrame.Base.PbBuf

/-! What the checksum of a frame is, which bytes its computation loads, and when its
verdict is a property of the frame alone. -/

namespace SNFrame.Base.Checksum
open Library.Footprint Library.Octet PbBuf

/-- The value the checksum loop leaves for a body of the given length. -/
def frameSum (len : Nat) (memory : Nat → Byte) : Byte :=
  memory 24 ^^^ memory 25 ^^^ memory HEAD_LEN ^^^
    xorAll ((List.range' (HEAD_LEN + 1) (len - 1)).map memory)

theorem xorLoop_run (count i : Nat) (c : Byte) (memory : Nat → Byte) :
    (xorLoop count i c).run memory =
      (c ^^^ xorAll ((List.range' (HEAD_LEN + i) count).map memory), memory) := by
  induction count generalizing i c with
  | zero => simp [xorLoop]
  | succ count ih =>
    simp only [xorLoop, Prog.run_bind, Prog.run_read, ih, List.range'_succ, List.map_cons,
      xorAll_cons, Nat.add_assoc, BitVec.xor_assoc]

theorem xorLoop_loads (count i : Nat) (c : Byte) (memory : Nat → Byte) :
    (xorLoop count i c).loads memory = List.range' (HEAD_LEN + i) count := by
  induction count generalizing i c with
  | zero => rfl
  | succ count ih =>
    simp only [xorLoop, Prog.loads_bind, Prog.loads_read, Prog.run_read, ih, List.range'_succ,
      List.singleton_append, Nat.add_assoc]

theorem xorLoop_stores (count i : Nat) (c : Byte) (memory : Nat → Byte) :
    (xorLoop count i c).stores memory = [] := by
  induction count generalizing i c with
  | zero => rfl
  | succ count ih =>
    simp only [xorLoop, Prog.stores_bind, Prog.stores_read, Prog.run_read, ih, List.append_nil]

@[simp] theorem checksum_run (len : Nat) (memory : Nat → Byte) :
    (checksum len).run memory = (frameSum len memory, memory) := by
  simp only [checksum, Prog.run_bind, Prog.run_read, xorLoop_run, frameSum]

@[simp] theorem checksum_loads (len : Nat) (memory : Nat → Byte) :
    (checksum len).loads memory = 24 :: 25 :: HEAD_LEN :: List.range' (HEAD_LEN + 1) (len - 1) := by
  simp only [checksum, Prog.loads_bind, Prog.run_read, Prog.loads_read, xorLoop_loads,
    List.singleton_append]

@[simp] theorem checksum_stores (len : Nat) (memory : Nat → Byte) :
    (checksum len).stores memory = [] := by
  simp only [checksum, Prog.stores_bind, Prog.stores_read, xorLoop_stores, List.append_nil]

/-- For a body that is not empty the first byte is an ordinary one. -/
theorem frameSum_body (len : Nat) (memory : Nat → Byte) (body : 0 < len) :
    frameSum len memory =
      memory 24 ^^^ memory 25 ^^^ xorAll ((List.range' HEAD_LEN len).map memory) := by
  obtain ⟨rest, rfl⟩ := Nat.exists_eq_add_of_lt body
  simp only [frameSum, Nat.zero_add, Nat.add_sub_cancel, List.range'_succ, List.map_cons,
    xorAll_cons, BitVec.xor_assoc]

@[simp] theorem storeU16_loads (addr : Nat) (word : BitVec 16) (memory : Nat → Byte) :
    (storeU16 addr word).loads memory = [] := by simp [storeU16]

@[simp] theorem memcpy_loads (addr : Nat) (bytes : List Byte) (memory : Nat → Byte) :
    (memcpy addr bytes).loads memory = [] := by
  induction bytes generalizing addr memory with
  | nil => rfl
  | cons byte rest ih => simp only [memcpy, Prog.loads_bind, Prog.loads_write, ih, List.append_nil]

/-! ### Footprints of the four copies of the loop -/

theorem checkProg_run (mLen : Int) (memory : Nat → Byte) :
    (checkProg mLen).run memory =
      (memory offCheck == frameSum (mLen - HEAD_LEN).toNat memory, memory) := by
  simp [checkProg]

theorem checkProg_loads (mLen : Int) (memory : Nat → Byte) :
    (checkProg mLen).loads memory =
      (checksum (mLen - HEAD_LEN).toNat).loads memory ++ [offCheck] := by
  simp [checkProg]

theorem setChecksumProg_loads (len : Nat) (memory : Nat → Byte) :
    (setChecksumProg len).loads memory = (checksum len).loads memory := by
  simp [setChecksumProg]

theorem setDataProg_loads (buf : Option (List Byte)) (len : BitVec 16) (memory : Nat → Byte) :
    (setDataProg buf len).loads memory = (checksum len.toNat).loads memory := by
  cases buf <;> simp [setDataProg]

theorem setPbProg_loads (pb : MessageLite) (memory : Nat → Byte) :
    (setPbProg pb).loads memory =
      if pb.serializes then (checksum pb.byteSize).loads memory else [] := by
  by_cases complete : pb.serializes = true <;> simp [setPbProg, complete]

/-! ### Confinement -/

/-- The program loads nothing past the frame, and its answer and the checksum byte it leaves
are the same in any two memories that agree on the frame. -/
def Confined {A : Type} (program : Prog Nat Byte A) (frame : Nat) : Prop :=
  ∀ memory, (∀ addr ∈ program.loads memory, addr < frame) ∧
    ∀ other, (∀ addr, addr < frame → memory addr = other addr) →
      (program.run memory).1 = (program.run other).1 ∧
        (program.run memory).2 offCheck = (program.run other).2 offCheck

/-- Confinement of the loads is enough: the answer is a function of what is loaded. -/
theorem confined_iff_loads {A : Type} (program : Prog Nat Byte A) (frame : Nat)
    (headed : HEAD_LEN ≤ frame) :
    Confined program frame ↔ ∀ memory, ∀ addr ∈ program.loads memory, addr < frame := by
  constructor
  · exact fun confined memory => (confined memory).1
  · intro inside memory
    refine ⟨inside memory, fun other agree => ?_⟩
    have same := Prog.run_congr program (· < frame) memory other (inside memory) agree
    exact ⟨same.1, same.2.2 offCheck (Nat.lt_of_lt_of_le (by decide) headed)⟩

theorem checksum_loads_inside (len : Nat) (memory : Nat → Byte) :
    (∀ addr ∈ (checksum len).loads memory, addr < HEAD_LEN + len) ↔ 0 < len := by
  simp only [checksum_loads, List.mem_cons, List.mem_range'_1, forall_eq_or_imp, HEAD_LEN]
  constructor
  · intro inside
    omega
  · intro body
    refine ⟨by omega, by omega, by omega, fun addr bounds => ?_⟩
    omega

theorem confined_of_checksum {A : Type} (program : Prog Nat Byte A) (len : Nat)
    (loads : ∀ memory, program.loads memory = (checksum len).loads memory) :
    Confined program (HEAD_LEN + len) ↔ 0 < len := by
  rw [confined_iff_loads program _ (Nat.le_add_right ..)]
  simp only [loads, checksum_loads_inside, forall_const]

theorem checkProg_confined (len : Nat) :
    Confined (checkProg ((HEAD_LEN + len : Nat) : Int)) (HEAD_LEN + len) ↔ 0 < len := by
  rw [confined_iff_loads _ _ (Nat.le_add_right ..)]
  have body : (((HEAD_LEN + len : Nat) : Int) - (HEAD_LEN : Int)).toNat = len := by omega
  simp only [checkProg_loads, body, List.mem_append, or_imp, forall_and, checksum_loads_inside,
    forall_const, List.mem_singleton, forall_eq]
  simp only [offCheck, HEAD_LEN]
  omega

/-- A block that begins with the given frame and goes on with other bytes. -/
def held (frame slack : List Byte) : IMString :=
  ⟨some (frame ++ slack), ((frame ++ slack).length : Nat), (frame.length : Nat)⟩

@[simp] theorem held_isSome (frame slack : List Byte) : (held frame slack).mData.isSome = true := rfl

@[simp] theorem held_mLen (frame slack : List Byte) :
    (held frame slack).mLen = (frame.length : Nat) := rfl

@[simp] theorem held_bytes (frame slack : List Byte) : (held frame slack).bytes = frame := by
  simp [IMString.bytes, held]

/-- The frame's own test: byte 26 is the exclusive or of the length field and the body. -/
def goodSum (frame : List Byte) : Bool :=
  frame.getD offCheck 0 == (frame.getD 24 0 ^^^ frame.getD 25 0 ^^^ xorAll (frame.drop HEAD_LEN))

theorem view_held (heap : Heap) (frame slack : List Byte) (addr : Nat)
    (inside : addr < frame.length) : view heap (held frame slack) addr = frame.getD addr 0 := by
  simp [view, held, List.getElem?_append_left inside, inside]

theorem range_map_view (heap : Heap) (frame slack : List Byte) (start : Nat)
    (inside : start ≤ frame.length) :
    (List.range' start (frame.length - start)).map (view heap (held frame slack)) =
      frame.drop start := by
  apply List.ext_getElem
  · simp
  · intro i left right
    simp only [List.length_map, List.length_range'] at left
    have bound : start + i < frame.length := by omega
    simp [view_held heap frame slack _ bound, bound]

/-- On a frame with a body the verdict of `check` is the frame's own test, whatever memory
surrounds the frame. -/
theorem check_held (heap : Heap) (frame slack : List Byte) (body : HEAD_LEN < frame.length) :
    check heap (held frame slack) = goodSum frame := by
  have size : (((frame.length : Nat) : Int) - (HEAD_LEN : Int)).toNat = frame.length - HEAD_LEN := by
    omega
  have bound := body
  simp only [HEAD_LEN] at bound
  simp only [check, held_isSome, if_true, held_mLen, checkProg_run, size, goodSum]
  rw [frameSum_body _ _ (Nat.sub_pos_of_lt body), range_map_view heap frame slack HEAD_LEN body.le]
  simp only [offCheck, view_held heap frame slack _ (show 24 < frame.length by omega),
    view_held heap frame slack _ (show 25 < frame.length by omega),
    view_held heap frame slack _ (show 26 < frame.length by omega)]

/-- An empty body leaves the verdict to the byte that follows the frame. -/
theorem check_held_empty (heap : Heap) (frame : List Byte) (headed : frame.length = HEAD_LEN) :
    check heap (held frame []) =
      (frame.getD offCheck 0 == (frame.getD 24 0 ^^^ frame.getD 25 0 ^^^ heap.beyond HEAD_LEN)) := by
  have past : view heap (held frame []) HEAD_LEN = heap.beyond HEAD_LEN := by
    simp [view, held, headed]
  have bound : frame.length = 27 := headed
  simp only [check, held_isSome, if_true, held_mLen, checkProg_run, headed, Int.sub_self,
    Int.toNat_zero, frameSum, Nat.zero_sub, List.range'_zero, List.map_nil, xorAll_nil,
    BitVec.xor_zero, past]
  simp only [offCheck, view_held heap frame [] _ (show 24 < frame.length by omega),
    view_held heap frame [] _ (show 25 < frame.length by omega),
    view_held heap frame [] _ (show 26 < frame.length by omega)]

private theorem xor_cancel_left (a b : Byte) : a ^^^ (a ^^^ b) = b := by
  rw [← BitVec.xor_assoc, BitVec.xor_self, BitVec.zero_xor]

/-- Copied to a block of its own size, a frame with an empty body can be accepted and can be
refused, so no verdict from before the copy survives. -/
theorem check_copy_iff (frame slack : List Byte) (len : Nat)
    (sized : frame.length = HEAD_LEN + len) :
    (∀ heap other, check heap (held frame slack) = check other (held frame [])) ↔ 0 < len := by
  constructor
  · intro same
    by_contra empty
    have headed : frame.length = HEAD_LEN := by omega
    let field := frame.getD 24 0 ^^^ frame.getD 25 0
    let stored := frame.getD offCheck 0
    have accepted := same ⟨true, fun _ => 0⟩ ⟨true, fun _ => field ^^^ stored⟩
    have refused := same ⟨true, fun _ => 0⟩ ⟨true, fun _ => field ^^^ (stored ^^^ 1)⟩
    rw [accepted, check_held_empty _ frame headed, check_held_empty _ frame headed] at refused
    change (stored == field ^^^ (field ^^^ stored)) =
      (stored == field ^^^ (field ^^^ (stored ^^^ 1))) at refused
    rw [xor_cancel_left, xor_cancel_left, beq_self_eq_true] at refused
    have unchanged : stored ^^^ 0 = stored ^^^ 1 := by simpa using refused
    exact absurd ((BitVec.xor_right_inj stored).mp unchanged) (by decide)
  · intro body heap other
    have long : HEAD_LEN < frame.length := by omega
    rw [check_held heap frame slack long, check_held other frame [] long]

/-- `check` and the three writers are confined to the frame, and the verdict survives the
copy that the receiver makes, exactly for the frames that have a body. -/
theorem checksum_confined_iff (len : Nat) (buf : Option (List Byte)) (size : BitVec 16)
    (pb : MessageLite) (frame slack : List Byte) (sized : frame.length = HEAD_LEN + len) :
    (Confined (checkProg ((HEAD_LEN + len : Nat) : Int)) (HEAD_LEN + len) ↔ 0 < len) ∧
    (Confined (setChecksumProg len) (HEAD_LEN + len) ↔ 0 < len) ∧
    (Confined (setDataProg buf size) (HEAD_LEN + size.toNat) ↔ 0 < size.toNat) ∧
    (Confined (setPbProg pb) (HEAD_LEN + pb.byteSize) ↔
      pb.serializes = false ∨ 0 < pb.byteSize) ∧
    ((∀ heap other, check heap (held frame slack) = check other (held frame [])) ↔ 0 < len) := by
  refine ⟨checkProg_confined len, confined_of_checksum _ _ (setChecksumProg_loads len),
    confined_of_checksum _ _ (setDataProg_loads buf size), ?_, check_copy_iff frame slack len sized⟩
  by_cases complete : pb.serializes = true
  · simp only [complete, Bool.true_eq_false, false_or]
    exact confined_of_checksum _ _ fun memory => by rw [setPbProg_loads, if_pos complete]
  · rw [confined_iff_loads _ _ (Nat.le_add_right ..)]
    simp [setPbProg_loads, complete]

/-- The message that `ServiceNode::heartBeat` builds: a header and no body. -/
def heartBeatMsg (heap : Heap) (sidOther cidHeartbeat : BitVec 16) (nid : BitVec 32) : IMString :=
  { setTag heap (setBodyHead heap (init heap).2 1 sidOther cidHeartbeat 1) nid 0 with
    mLen := (HEAD_LEN : Int) }

theorem checksum_confined_heartbeat :
    Confined (checkProg ((HEAD_LEN + 1 : Nat) : Int)) (HEAD_LEN + 1) ∧
      ¬Confined (checkProg ((HEAD_LEN + 0 : Nat) : Int)) (HEAD_LEN + 0) :=
  ⟨(checksum_confined_iff 1 none 1 ⟨[], true, by decide⟩ (List.replicate 28 0) []
      (by decide)).1.mpr (by decide),
    fun confined => absurd ((checksum_confined_iff 0 none 1 ⟨[], true, by decide⟩
      (List.replicate 27 0) [] (by decide)).1.mp confined) (by decide)⟩

/-- A heartbeat passes `check` where it is built, in the 128 zeroed bytes of `init`, and fails
it in a block of 27 bytes that is followed by a byte other than 0. -/
theorem heartbeat_verdict_moves :
    let sender : Heap := ⟨true, fun _ => 0⟩
    let receiver : Heap := ⟨true, fun _ => 1⟩
    let msg := heartBeatMsg sender 7 3 5
    msg.mLen = HEAD_LEN ∧ check sender msg = true ∧
      check receiver (held msg.bytes []) = false ∧
      HEAD_LEN ∈ (checkProg msg.mLen).loads (view sender msg) := by
  decide +kernel

end SNFrame.Base.Checksum
