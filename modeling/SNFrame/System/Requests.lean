import SNFrame.Core.NodeMgr
import SNFrame.Receive.Parcels
import SNFrame.System.Delivery

/-! The frames of authentication as the receiver sees them: which frames are requests or responses,
and that the messages of the program are what they are built to be. -/

namespace SNFrame.System.Requests
open Library.Octet Library.Footprint Base.PbBuf Base.Checksum Base.FrameCodec Core.TcpParse Core.NodeMgr
open Receive.Parcels Receive.RoundTrip Send.SendStream Delivery

/-! ### The header of a frame -/

/-- The getters read the header only, which lies in the frame. -/
def sidOf (frame : List Byte) : BitVec 16 := getSid ⟨true, fun _ => 0⟩ (held frame [])

def cmdOf (frame : List Byte) : BitVec 16 := getCmd ⟨true, fun _ => 0⟩ (held frame [])

theorem loadU16_held {frame : List Byte} (heap other : Heap) {addr : Nat}
    (inside : addr + 2 ≤ frame.length) :
    getField heap (held frame []) (ntohs <$> loadU16 addr) =
      getField other (held frame []) (ntohs <$> loadU16 addr) := by
  have within : ∀ at_, at_ < frame.length →
      view heap (held frame []) at_ = view other (held frame []) at_ := by
    intro at_ below
    have size : at_ < blockSize (held frame []) := by
      simpa only [blockSize, held, List.append_nil, Option.getD_some] using below
    rw [view_inside heap _ _ size, view_inside other _ _ size]
  simp only [getField, held_isSome, if_true, Prog.run_map, loadU16, Prog.run_bind, Prog.run_read,
    Prog.run_pure, within addr (by omega), within (addr + 1) (by omega)]

theorem getSid_held {frame : List Byte} (headed : HEAD_LEN ≤ frame.length) (heap : Heap) :
    getSid heap (held frame []) = sidOf frame :=
  loadU16_held heap _ (le_trans (by decide) headed)

theorem getCmd_held {frame : List Byte} (headed : HEAD_LEN ≤ frame.length) (heap : Heap) :
    getCmd heap (held frame []) = cmdOf frame :=
  loadU16_held heap _ (le_trans (by decide) headed)

/-! ### Requests and responses -/

section Frames
variable (proto : Proto) (frame : List Byte)

/-- `NodeMgr::parse` takes the frame for a message with this command. -/
def Commands (cid : BitVec 16) : Prop := sidOf frame = proto.SID_OTHER ∧ cmdOf frame = cid

/-- A message of authentication, by its command and by what parses it. -/
structure Kind where
  cid : BitVec 16
  parse : List Byte → Option (BitVec 16 × BitVec 32)

abbrev requestKind : Kind := ⟨proto.CID_OTHER_AUTHENTICATION_REQ, proto.parseAuthenticationReq⟩

abbrev responseKind : Kind := ⟨proto.CID_OTHER_AUTHENTICATION_RSP, proto.parseAuthenticationRsp⟩

/-- A frame that `NodeMgr::parse` takes for such a message, with the ids that it carries. -/
structure Carrying (kind : Kind) (ids : BitVec 16 × BitVec 32) : Prop where
  commands : Commands proto frame kind.cid
  ids : kind.parse (payload (held frame [])) = some ids

abbrev IsRequest (ids : BitVec 16 × BitVec 32) : Prop :=
  Carrying proto frame (requestKind proto) ids

abbrev IsResponse (ids : BitVec 16 × BitVec 32) : Prop :=
  Carrying proto frame (responseKind proto) ids

/-- A frame that is no message of authentication. -/
structure Plain : Prop where
  parcel : Parcel frame
  request : ¬Commands proto frame proto.CID_OTHER_AUTHENTICATION_REQ
  response : ¬Commands proto frame proto.CID_OTHER_AUTHENTICATION_RSP

end Frames

theorem Carrying.unique {proto : Proto} {frame : List Byte} {kind : Kind}
    {ids other : BitVec 16 × BitVec 32} (one : Carrying proto frame kind ids)
    (two : Carrying proto frame kind other) : ids = other :=
  Option.some.inj (one.ids.symm.trans two.ids)

theorem Carrying.not_other {proto : Proto} {frame : List Byte} {kind : Kind} {other : BitVec 16}
    {ids : BitVec 16 × BitVec 32} (carrying : Carrying proto frame kind ids)
    (apart : kind.cid ≠ other) :
    ¬Commands proto frame other :=
  fun commands => apart (carrying.commands.2.symm.trans commands.2)

/-! ### The messages of the program -/

section Letters
variable {letter : Letter} {msg : IMString} (written : letter.WrittenIn msg)
include written

theorem written_parcel : Parcel msg.bytes :=
  ⟨(written_framed written).sized, (written_framed written).tag⟩

theorem written_names : sidOf msg.bytes = letter.sid ∧ cmdOf msg.bytes = letter.cid := by
  have reads := reads_of_built ⟨true, fun _ => 0⟩ (written_held written) letter.small
  exact ⟨reads.service, reads.cmd⟩

theorem written_payload : payload (held msg.bytes []) = letter.body := by
  have reads := reads_of_built ⟨true, fun _ => 0⟩ (written_held written) letter.small
  obtain ⟨data, has, front⟩ := Option.map_eq_some_iff.mp reads.data
  rw [payload, has, Option.getD_some, reads.size, front]

end Letters

/-- What protobuf and the generated ids promise: a message that serializes is not empty, and
parsing gives its fields back. -/
structure Promised (pb : MessageLite) : Prop where
  serializes : pb.serializes = true
  someByte : 0 < pb.payload.length
  small : pb.payload.length ≤ 65508

structure Generated (proto : Proto) : Prop where
  other : proto.SID_OTHER ≠ 0
  router : proto.SID_ROUTER ≠ 0 ∧ proto.SID_ROUTER ≠ proto.SID_OTHER
  commands : proto.CID_OTHER_AUTHENTICATION_REQ ≠ 0 ∧ proto.CID_OTHER_AUTHENTICATION_RSP ≠ 0 ∧
    proto.CID_ROUTER_CLIENT_REGISTER_REQ ≠ 0
  apart : proto.CID_OTHER_AUTHENTICATION_REQ ≠ proto.CID_OTHER_AUTHENTICATION_RSP
  requests : ∀ sid nid, Promised (proto.authenticationReq sid nid) ∧
    proto.parseAuthenticationReq (proto.authenticationReq sid nid).payload = some (sid, nid)
  responses : ∀ sid nid, Promised (proto.authenticationRsp sid nid) ∧
    proto.parseAuthenticationRsp (proto.authenticationRsp sid nid).payload = some (sid, nid)
  registers : Promised proto.registerServerReq

section Built
variable {proto : Proto} {heap : Heap} {sid cid : BitVec 16} {pb : MessageLite} {msg : IMString}

/-- The letter that `buildMsg` writes. -/
def letterOf (sid cid : BitVec 16) (pb : MessageLite) (named : sid ≠ 0 ∧ cid ≠ 0)
    (promised : Promised pb) : Letter where
  srvId := 0
  sockId := 0
  number := 1
  sid := sid
  cid := cid
  version := 1
  body := pb.payload
  nonzero := ⟨by decide, named.1, named.2, by decide⟩
  someByte := promised.someByte
  small := promised.small

theorem buildMsg_written (named : sid ≠ 0 ∧ cid ≠ 0) (promised : Promised pb)
    (built : buildMsg heap sid cid pb = some msg) :
    (letterOf sid cid pb named promised).WrittenIn msg := by
  by_cases malloc : heap.malloc = true
  · have fresh : bufalloc heap (pb.byteSize + HEAD_LEN : Nat) =
        (true, ⟨some (List.replicate (pb.byteSize + HEAD_LEN) 0),
          (pb.byteSize + HEAD_LEN : Nat), 0⟩) := by
      rw [bufalloc, if_pos malloc, Int.toNat_natCast]
    have obtained := Obtained.bufalloc malloc (pb.byteSize + HEAD_LEN : Nat) (by omega)
    have fills : Fills (bufalloc heap (pb.byteSize + HEAD_LEN : Nat)).2 pb.payload (.pb pb) := by
      refine .pb pb promised.serializes rfl ?_
      rw [fresh, MessageLite.byteSize]
      simp only
      omega
    have made : Built 0 0 1 sid cid 1 pb.payload (build (bufalloc heap
        (pb.byteSize + HEAD_LEN : Nat)).2 [(heap, .tag 0 0), (heap, .bodyHead 1 sid cid 1),
          (heap, .pb pb)]) :=
      built_of_calls obtained.ready fills promised.someByte promised.small
        ⟨by decide, named.1, named.2, by decide⟩ (List.Perm.refl _) (by simpa using malloc)
    have same : msg = build (bufalloc heap (pb.byteSize + HEAD_LEN : Nat)).2
        [(heap, .tag 0 0), (heap, .bodyHead 1 sid cid 1), (heap, .pb pb)] := by
      have done : (bufalloc heap (pb.byteSize + HEAD_LEN : Nat)).1 = true := by rw [fresh]
      simp only [buildMsg] at built
      push_cast at done
      rw [if_pos done, Option.some.injEq] at built
      rw [← built]
      push_cast
      rfl
    rw [same]
    exact made
  · simp [buildMsg, bufalloc, malloc] at built

/-- A message of authentication that the program builds is sound, and its frame is taken for what it
is. -/
theorem buildMsg_carrying (kind : Kind) (named : proto.SID_OTHER ≠ 0 ∧ kind.cid ≠ 0)
    (promised : Promised pb) {ids : BitVec 16 × BitVec 32} (parses : kind.parse pb.payload = some ids)
    (built : buildMsg heap proto.SID_OTHER kind.cid pb = some msg) :
    Sound msg ∧ Parcel msg.bytes ∧ Carrying proto msg.bytes kind ids := by
  have written := buildMsg_written named promised built
  refine ⟨written_sound written, written_parcel written, written_names written, ?_⟩
  rw [written_payload written]
  exact parses

theorem buildMsg_plain (named : sid ≠ 0 ∧ cid ≠ 0) (promised : Promised pb)
    (apart : sid ≠ proto.SID_OTHER) (built : buildMsg heap sid cid pb = some msg) :
    Sound msg ∧ Plain proto msg.bytes := by
  have written := buildMsg_written named promised built
  have other : sidOf msg.bytes ≠ proto.SID_OTHER := by
    rw [(written_names written).1]
    exact apart
  exact ⟨written_sound written, written_parcel written, fun commands => other commands.1,
    fun commands => other commands.1⟩

end Built

end SNFrame.System.Requests
