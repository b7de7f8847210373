import SNFrame.Receive.Session

/-! The receive state under arbitrary input. Whatever bytes arrive and however they are cut,
no access of `parse` leaves its buffer, no counter goes below zero, and at every return the
fields of the connection agree with each other. -/

namespace SNFrame.Receive.ReceiveInvariant
open Library.Octet Library.Framing Library.Transition Base.PbBuf Core.Receiving Core.TcpParse
open Assembler Refinement Session

/-- What holds of the receiving fields whenever `parse` has returned. -/
structure ReceiveInv (conn : RecvPkt) : Prop where
  nonneg : 0 ≤ conn.bufLen
  short : conn.bufLen < HEAD_LEN
  lessNonneg : 0 ≤ conn.lessPktLen
  idle : conn.lessPktLen = 0 → conn.pkt = .null
  headed : 0 < conn.lessPktLen → HEAD_LEN ≤ conn.pkt.mLen
  alloc : 0 < conn.lessPktLen → conn.pkt.mLen + conn.lessPktLen = conn.pkt.mAlloc
  field : 0 < conn.lessPktLen →
    conn.pkt.mAlloc = HEAD_LEN + (lenField (conn.pkt.mData.getD [])).toNat
  block : 0 < conn.lessPktLen → ∃ data, conn.pkt.mData = some data ∧ data.length = conn.pkt.mAlloc

theorem receiveInv_of_represents {conn : RecvPkt} {state : Assembly} (rep : Represents 0 conn state)
    (short : state.unread.length < HEAD_LEN) : ReceiveInv conn := by
  have count := rep.count
  have pkt := rep.pkt
  cases started : state.pending with
  | none =>
    rw [started] at pkt
    obtain ⟨less, null⟩ := pkt
    exact ⟨by omega, by omega, by omega, fun _ => null, fun _ => by omega, fun _ => by omega,
      fun _ => by omega, fun _ => by omega⟩
  | some pending =>
    rw [started] at pkt
    obtain ⟨less, tail, unset, pktIs⟩ := pkt
    have positive := pending.short
    have headed := pending.headed
    have total := pending.total
    have stored : lenField (pending.got ++ tail) = lenField pending.got := by
      have long : 26 < pending.got.length := headed
      simp only [lenField, getD_append pending.got tail 24 (by omega),
        getD_append pending.got tail 25 (by omega)]
    refine ⟨by omega, by omega, by omega, fun _ => by omega, fun _ => ?_, fun _ => ?_, fun _ => ?_,
      fun _ => ⟨pending.got ++ tail, by rw [pktIs, collecting], ?_⟩⟩
    · rw [pktIs, collecting]
      simp only
      omega
    · rw [pktIs, collecting]
      simp only
      omega
    · rw [pktIs, collecting]
      simp only [Option.getD_some, stored, frameLen] at total ⊢
      omega
    · rw [pktIs, collecting, List.length_append, unset]

/-- The next call of `Connection::read` has room, and does not fault or pass a length that is
not positive to `recv`, whatever `recv` returns. -/
def ReadsOn (conn : RecvPkt) : Prop :=
  0 < RECV_BUF_LEN - conn.bufLen ∧ ∀ outcomes, ∃ trace,
    Core.Receiving.read outcomes conn = .ok trace ∧ ∀ asked ∈ trace.asked, 0 < asked

theorem readsOn_of_represents {conn : RecvPkt} {state : Assembly} (rep : Represents 0 conn state)
    (short : state.unread.length < HEAD_LEN) : ReadsOn conn := by
  constructor
  · have count := rep.count
    simp only [RECV_BUF_LEN, HEAD_LEN] at short ⊢
    omega
  · intro outcomes
    obtain ⟨trace, runs, -, -, positive⟩ := read_refines outcomes rep
    exact ⟨trace, runs, positive⟩

/-- `parse` on the bytes of one more read: it returns, no access is outside a buffer and no
counter is lowered below zero, since each of these would end the call with a fault. -/
def ParsesOn (sids : ServiceID) (conn : RecvPkt) : Prop :=
  ∀ read : Read, read.Fits conn → ∃ stored parsed out, recvInto conn read.chunk = .ok stored ∧
    parseWithin sids read.iterations read.ambient stored = .ok (some (parsed, out))

theorem parsesOn_of_represents (sids : ServiceID) {conn : RecvPkt} {state : Assembly}
    (rep : Represents 0 conn state) : ParsesOn sids conn := by
  intro read fits
  obtain ⟨stored, stores, rep'⟩ := recvInto_represents rep read.chunk fits.room
  obtain ⟨last, out, ended⟩ := assemble_fits sids rep fits
  have call := parseWithin_refines sids read.iterations read.ambient rep'
  simp only [ended] at call
  obtain ⟨parsed, returned, -⟩ := call
  exact ⟨stored, parsed, out, stores, returned⟩

/-- Whatever bytes are received, in whatever reads, every return of `parse` leaves the receive
state invariant, and no call faults. -/
theorem receive_invariant (sids : ServiceID) (reads : List Read)
    (fits : Throughout (serve sids) (fun link read => read.Fits link.conn) .fresh reads) :
    ∃ link, run (serve sids) .fresh reads = some link ∧ ReceiveInv link.conn ∧
      ReadsOn link.conn ∧ ParsesOn sids link.conn := by
  let inv : Link → Prop := fun link =>
    ∃ state, Represents 0 link.conn state ∧ state.unread.length < HEAD_LEN
  have preserved : ∀ link read next, inv link → read.Fits link.conn →
      serve sids link read = some next → inv next := by
    rintro link read next ⟨state, rep, -⟩ - served
    obtain ⟨last, out, ended, rep', -⟩ := serve_spec rep served
    exact ⟨last, rep', assemble_short _ _ ended⟩
  have enabled : ∀ link read, inv link → read.Fits link.conn →
      ∃ next, serve sids link read = some next := by
    rintro link read ⟨state, rep, -⟩ fits
    exact serve_returns sids rep fits
  have initial : inv .fresh := ⟨.fresh, fresh_represents, by decide⟩
  obtain ⟨link, reached⟩ := run_of_throughout inv _ preserved enabled initial fits
  obtain ⟨state, rep, short⟩ := invariant_of_throughout inv _ preserved initial fits reached
  exact ⟨link, reached, receiveInv_of_represents rep short, readsOn_of_represents rep short,
    parsesOn_of_represents sids rep⟩

/-- Bytes without a tag, the beginning of a frame, and its end with another frame. -/
def garbageAndFrames : List Read :=
  [⟨List.replicate 29 0x55 ++ [TAG_HEAD_1], roomy, 100⟩, ⟨0xaa :: tenZeroes.take 30, roomy, 100⟩,
    ⟨tenZeroes.drop 30 ++ tenZeroes, roomy, 100⟩]

theorem roomy_garbageAndFrames (read : Read) (inside : read ∈ garbageAndFrames) (n : Nat) :
    (read.ambient n).malloc = true := by
  simp only [garbageAndFrames, List.mem_cons, List.not_mem_nil, or_false] at inside
  obtain rfl | rfl | rfl := inside
  · rfl
  · rfl
  · rfl

theorem receive_invariant_garbage_and_frames :
    ∃ link, run (serve ⟨1, 2, 3, 4⟩) .fresh garbageAndFrames = some link ∧
      link.dispatched.length = 2 ∧
      ReceiveInv link.conn ∧ ReadsOn link.conn ∧ ParsesOn ⟨1, 2, 3, 4⟩ link.conn := by
  have dispatched : (run (serve ⟨1, 2, 3, 4⟩) .fresh garbageAndFrames).map
      (fun link => link.dispatched.length) = some 2 := by
    decide +kernel
  obtain ⟨link, reached, holds⟩ := receive_invariant ⟨1, 2, 3, 4⟩ garbageAndFrames
    (throughout_fits roomy_garbageAndFrames (by decide +kernel))
  rw [reached, Option.map_some, Option.some.injEq] at dispatched
  exact ⟨link, reached, dispatched, holds⟩

end SNFrame.Receive.ReceiveInvariant
