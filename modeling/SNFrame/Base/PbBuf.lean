import Mathlib.Data.List.Range
import SNFrame.Library.Footprint
import SNFrame.Library.Octet

/-! The message buffer `msg_t` and the frame codec of PbBuf. A frame is a packed header of
27 bytes, whose fields are in network order, and a body; one byte of the header is the
exclusive or of the length field and the body.

Every function that reads or writes through `m_data` is a memory program over the addresses
counted from `m_data`, so that a load past the end of the buffer is not hidden: it returns
what happens to lie there, which is a parameter. -/

namespace SNFrame.Base.PbBuf
open Library.Footprint Library.Octet

def HEAD_LEN : Nat := 27
def BUFSIZE : Nat := 128
def TAG_HEAD_1 : Byte := 0x7e
def TAG_HEAD_2 : Byte := 0xaa

/-! Offsets of the packed struct `CommonHeader`. -/

def offConnServerId : Nat := 2
def offSocketId : Nat := 6
def offVer : Nat := 13
def offMsgId : Nat := 14
def offServiceId : Nat := 16
def offCmdId : Nat := 18
def offCompanyId : Nat := 20
def offLen : Nat := 24
def offCheck : Nat := 26

/-- The class `IMString`, alias `msg_t`. `mData` is NULL or the block it points to. -/
structure IMString where
  mData : Option (List Byte)
  mAlloc : Int
  mLen : Int
  deriving DecidableEq, Repr

/-- What the allocator does for one call, and the bytes that lie past a block: address `i`
of a block of `n` bytes holds `beyond i` when `n ≤ i`. -/
structure Heap where
  malloc : Bool
  beyond : Nat → Byte

def IMString.null : IMString := ⟨none, 0, 0⟩

/-- The first `m_len` bytes: the frame that the message holds. -/
def IMString.bytes (msg : IMString) : List Byte := (msg.mData.getD []).take msg.mLen.toNat

/-- Memory as seen from `m_data`. -/
def view (heap : Heap) (msg : IMString) (addr : Nat) : Byte :=
  ((msg.mData.getD [])[addr]?).getD (heap.beyond addr)

/-- Run a program on the block of a message; stores past its end are lost. -/
def exec {A : Type} (heap : Heap) (msg : IMString) (program : Prog Nat Byte A) : A × IMString :=
  let done := program.run (view heap msg)
  (done.1, { msg with mData := msg.mData.map fun data => (List.range data.length).map done.2 })

/-! ### Allocation -/

def bufalloc (heap : Heap) (len : Int) : Bool × IMString :=
  if heap.malloc then (true, ⟨some (List.replicate len.toNat 0), len, 0⟩) else (false, .null)

def init (heap : Heap) : Bool × IMString :=
  if heap.malloc then (true, ⟨some (List.replicate BUFSIZE 0), BUFSIZE, 0⟩) else (false, .null)

/-- `realloc` keeps the old bytes and leaves the new ones indeterminate. -/
def resize (heap : Heap) (msg : IMString) (newLenth : Int) : Bool × IMString :=
  if msg.mAlloc ≥ newLenth then (true, msg)
  else if heap.malloc then
    (true, { msg with
      mData := some ((List.range newLenth.toNat).map (view heap msg))
      mAlloc := newLenth })
  else (false, msg)

/-! ### Loads and stores of words -/

def htons : BitVec 16 → BitVec 16 := swap16
def ntohs : BitVec 16 → BitVec 16 := swap16
def htonl : BitVec 32 → BitVec 32 := swap32
def ntohl : BitVec 32 → BitVec 32 := swap32

def storeU16 (addr : Nat) (word : BitVec 16) : Prog Nat Byte Unit := do
  Prog.write addr (byteAt word 0)
  Prog.write (addr + 1) (byteAt word 1)

def storeU32 (addr : Nat) (word : BitVec 32) : Prog Nat Byte Unit := do
  Prog.write addr (byteAt word 0)
  Prog.write (addr + 1) (byteAt word 1)
  Prog.write (addr + 2) (byteAt word 2)
  Prog.write (addr + 3) (byteAt word 3)

def loadU16 (addr : Nat) : Prog Nat Byte (BitVec 16) := do
  let b0 ← Prog.read addr
  let b1 ← Prog.read (addr + 1)
  pure (word16 b0 b1)

def loadU32 (addr : Nat) : Prog Nat Byte (BitVec 32) := do
  let b0 ← Prog.read addr
  let b1 ← Prog.read (addr + 1)
  let b2 ← Prog.read (addr + 2)
  let b3 ← Prog.read (addr + 3)
  pure (word32 b0 b1 b2 b3)

def memcpy (addr : Nat) : List Byte → Prog Nat Byte Unit
  | [] => pure ()
  | byte :: rest => do
      Prog.write addr byte
      memcpy (addr + 1) rest

/-! ### The header -/

def setTagProg (srvId sockId : BitVec 32) : Prog Nat Byte Unit := do
  Prog.write 0 TAG_HEAD_1
  Prog.write 1 TAG_HEAD_2
  storeU32 offConnServerId (htonl srvId)
  storeU32 offSocketId (htonl sockId)

def setTag (heap : Heap) (msg : IMString) (srvId sockId : BitVec 32) : IMString :=
  if msg.mData.isSome then (exec heap msg (setTagProg srvId sockId)).2 else msg

def onlyIf (condition : Prop) [Decidable condition] (program : Prog Nat Byte Unit) :
    Prog Nat Byte Unit :=
  if condition then program else pure ()

/-- A zero argument leaves its field as it is. -/
def setBodyHeadProg (number sid cid : BitVec 16) (verssion : Byte) : Prog Nat Byte Unit := do
  Prog.write 11 102
  Prog.write 12 35
  onlyIf (verssion ≠ 0) (Prog.write offVer verssion)
  onlyIf (number ≠ 0) (storeU16 offMsgId (htons number))
  onlyIf (sid ≠ 0) (storeU16 offServiceId (htons sid))
  onlyIf (cid ≠ 0) (storeU16 offCmdId (htons cid))

def setBodyHead (heap : Heap) (msg : IMString) (number sid cid : BitVec 16)
    (verssion : Byte) : IMString :=
  if msg.mData.isSome then (exec heap msg (setBodyHeadProg number sid cid verssion)).2 else msg

/-! ### The checksum

The four copies of the loop in the source start from the first body byte, which they take
unconditionally, and then run `i` from 1 to `len - 1`. -/

def xorLoop : Nat → Nat → Byte → Prog Nat Byte Byte
  | 0, _, c => pure c
  | count + 1, i, c => do
      let byte ← Prog.read (HEAD_LEN + i)
      xorLoop count (i + 1) (c ^^^ byte)

def checksum (len : Nat) : Prog Nat Byte Byte := do
  let b24 ← Prog.read 24
  let b25 ← Prog.read 25
  let first ← Prog.read HEAD_LEN
  xorLoop (len - 1) 1 (b24 ^^^ b25 ^^^ first)

def setDataProg (buf : Option (List Byte)) (len : BitVec 16) : Prog Nat Byte Unit := do
  storeU16 offLen (htons len)
  match buf with
  | some bytes => memcpy HEAD_LEN (bytes.take len.toNat)
  | none => pure ()
  let c ← checksum len.toNat
  Prog.write offCheck c

/-- The sum is taken in 16 bits; a failed `resize` of a live buffer does not stop the copy. -/
def setData (heap : Heap) (msg : IMString) (buf : Option (List Byte)) (len : BitVec 16) :
    Bool × IMString :=
  let total : BitVec 16 := len + BitVec.ofNat 16 HEAD_LEN
  let grown := if msg.mAlloc < total.toNat then resize heap msg total.toNat else (false, msg)
  if grown.2.mData.isSome then
    (true, { (exec heap grown.2 (setDataProg buf len)).2 with mLen := total.toNat })
  else grown

/-- A protobuf message, as far as the codec uses it: the bytes that `SerializeToArray` writes
and whether it succeeds. `ByteSize` is their number, which protobuf keeps below 2^31. -/
structure MessageLite where
  payload : List Byte
  serializes : Bool
  small : payload.length < 2 ^ 31

def MessageLite.byteSize (pb : MessageLite) : Nat := pb.payload.length

def setPbProg (pb : MessageLite) : Prog Nat Byte Bool := do
  storeU16 offLen (htons (BitVec.ofNat 16 pb.byteSize))
  if pb.serializes then
    memcpy HEAD_LEN pb.payload
    let c ← checksum pb.byteSize
    Prog.write offCheck c
    pure true
  else pure false

def setPb (heap : Heap) (msg : IMString) (pb : MessageLite) : Bool × IMString :=
  if msg.mData.isSome then
    let total : BitVec 16 := BitVec.ofNat 16 (pb.byteSize + HEAD_LEN)
    let done := exec heap msg (setPbProg pb)
    if done.1 then (true, { done.2 with mLen := total.toNat }) else done
  else (false, msg)

def setChecksumProg (len : Nat) : Prog Nat Byte Unit := do
  storeU16 offLen (htons (BitVec.ofNat 16 len))
  let c ← checksum len
  Prog.write offCheck c

def setChecksum (heap : Heap) (msg : IMString) : Bool × IMString :=
  let len := msg.mLen - HEAD_LEN
  if len < 0 then (false, msg)
  else (true, (exec heap msg (setChecksumProg len.toNat)).2)

def checkProg (mLen : Int) : Prog Nat Byte Bool := do
  let c ← checksum (mLen - HEAD_LEN).toNat
  let stored ← Prog.read offCheck
  pure (stored == c)

def check (heap : Heap) (msg : IMString) : Bool :=
  if msg.mData.isSome then ((checkProg msg.mLen).run (view heap msg)).1 else false

/-! ### Getters -/

/-- The getters share one shape: 0 for a NULL buffer, else a few loads. -/
def getField {A : Type} [Zero A] (heap : Heap) (msg : IMString) (program : Prog Nat Byte A) : A :=
  if msg.mData.isSome then (program.run (view heap msg)).1 else 0

/-- NULL, or the bytes of the block from the returned pointer on. -/
def getData (msg : IMString) : Option (List Byte) := msg.mData.map (·.drop HEAD_LEN)

def dataLen (msg : IMString) : BitVec 32 := BitVec.ofInt 32 (msg.mLen - HEAD_LEN)

def getCompanyId (heap : Heap) (msg : IMString) : BitVec 32 :=
  getField heap msg (ntohl <$> loadU32 offCompanyId)

/-- A 32-bit load narrowed to 16 bits. -/
def getPackgeNumber (heap : Heap) (msg : IMString) : BitVec 16 :=
  getField heap msg ((fun word => ntohs (word.setWidth 16)) <$> loadU32 offMsgId)

def getDataLen (heap : Heap) (msg : IMString) : BitVec 16 :=
  getField heap msg (ntohs <$> loadU16 offLen)

def getProtocl (heap : Heap) (msg : IMString) : BitVec 32 :=
  getField heap msg (ntohl <$> loadU32 offServiceId)

def getSid (heap : Heap) (msg : IMString) : BitVec 16 :=
  getField heap msg (ntohs <$> loadU16 offServiceId)

def getCmd (heap : Heap) (msg : IMString) : BitVec 16 :=
  getField heap msg (ntohs <$> loadU16 offCmdId)

def getMsgId (heap : Heap) (msg : IMString) : BitVec 16 :=
  getField heap msg (ntohs <$> loadU16 offMsgId)

def getVersion (heap : Heap) (msg : IMString) : Byte :=
  getField heap msg (Prog.read offVer)

def getSrvId (heap : Heap) (msg : IMString) : BitVec 32 :=
  getField heap msg (ntohl <$> loadU32 offConnServerId)

def getSocketId (heap : Heap) (msg : IMString) : BitVec 32 :=
  getField heap msg (ntohl <$> loadU32 offSocketId)

end SNFrame.Base.PbBuf
