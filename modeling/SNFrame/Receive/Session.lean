import SNFrame.Library.Transition
import SNFrame.Receive.FrameStream
import SNFrame.Receive.Refinement

/-! A connection over a whole run of reads, each followed by `parse`. -/

namespace SNFrame.Receive.Session
open Library.Octet Library.Framing Library.Transition Base.PbBuf Base.Checksum Core.Receiving
open Core.TcpParse Assembler Refinement FrameStream

/-- What one read appends to `buf`, and what the call of `parse` after it meets: its loop is
followed for the given number of iterations. -/
structure Read where
  chunk : List Byte
  ambient : Nat → Ambient
  iterations : Nat

/-- A connection with its history: all bytes received and all messages dispatched. -/
structure Link where
  conn : RecvPkt
  received : List Byte
  dispatched : List Dispatch

def Link.fresh : Link := ⟨.fresh, [], []⟩

/-- A read and the call of `parse` after it, when the bytes fit and the call returns. -/
def serve (sids : ServiceID) (link : Link) (read : Read) : Option Link :=
  match recvInto link.conn read.chunk with
  | .error _ => none
  | .ok conn =>
      match parseWithin sids read.iterations read.ambient conn with
      | .ok (some (conn, out)) =>
          some ⟨conn, link.received ++ read.chunk, link.dispatched ++ out⟩
      | _ => none

/-- `buf[0..buf_len)`. -/
def unreadBytes (conn : RecvPkt) : List Byte := conn.buf.bytes.take conn.bufLen.toNat

theorem unreadBytes_represents {conn : RecvPkt} {state : Assembly} (rep : Represents 0 conn state) :
    unreadBytes conn = state.unread := by
  have count : conn.bufLen.toNat = state.unread.length := by
    have same := rep.count
    omega
  have unread : conn.buf.bytes.take state.unread.length = state.unread := rep.unread
  rw [unreadBytes, count, unread]

theorem pktBytes_represents {conn : RecvPkt} {state : Assembly} (rep : Represents 0 conn state) :
    conn.pkt.bytes = match state.pending with
      | none => []
      | some pending => pending.got := by
  have pkt := rep.pkt
  cases started : state.pending with
  | none =>
    rw [started] at pkt
    rw [pkt.2]
    rfl
  | some pending =>
    rw [started] at pkt
    obtain ⟨-, tail, -, pktIs⟩ := pkt
    rw [pktIs]
    simp [IMString.bytes, collecting]

theorem inHand_represents {conn : RecvPkt} {state : Assembly} (rep : Represents 0 conn state) :
    conn.pkt.bytes ++ unreadBytes conn = state.inHand := by
  rw [pktBytes_represents rep, unreadBytes_represents rep]
  rfl

/-- A read that is served runs the receiver on lists over the unread bytes and the new ones. -/
theorem serve_spec {sids : ServiceID} {link next : Link} {read : Read} {state : Assembly}
    (rep : Represents 0 link.conn state) (served : serve sids link read = some next) :
    ∃ last out, assemble sids read.iterations read.ambient
        { state with unread := state.unread ++ read.chunk } = some (last, out) ∧
      Represents 0 next.conn last ∧ next.received = link.received ++ read.chunk ∧
      next.dispatched = link.dispatched ++ out := by
  unfold serve at served
  split at served
  · cases served
  · next conn stored =>
    obtain ⟨conn', stored', rep'⟩ := recvInto_represents rep read.chunk (fits_of_recvInto stored)
    rw [stored] at stored'
    cases stored'
    split at served
    · next finish out returned =>
      obtain ⟨last, ended, rep''⟩ := parseWithin_spec rep' returned
      cases served
      exact ⟨last, out, ended, rep'', rfl, rfl⟩
    · cases served

/-- The read fits, allocation succeeds and the loop is followed to its end. -/
structure Read.Fits (read : Read) (conn : RecvPkt) : Prop where
  room : (read.chunk.length : Int) ≤ RECV_BUF_LEN - conn.bufLen
  malloc : ∀ n, (read.ambient n).malloc = true
  iterations : conn.bufLen + read.chunk.length ≤ read.iterations

theorem assemble_fits (sids : ServiceID) {conn : RecvPkt} {read : Read} {state : Assembly}
    (rep : Represents 0 conn state) (fits : read.Fits conn) :
    ∃ last out, assemble sids read.iterations read.ambient
      { state with unread := state.unread ++ read.chunk } = some (last, out) := by
  have enough : (state.unread ++ read.chunk).length ≤ read.iterations := by
    have count := rep.count
    have iterations := fits.iterations
    rw [List.length_append]
    omega
  exact assemble_returns sids read.iterations read.ambient fits.malloc _ enough

theorem serve_returns (sids : ServiceID) {link : Link} {read : Read} {state : Assembly}
    (rep : Represents 0 link.conn state) (fits : read.Fits link.conn) :
    ∃ next, serve sids link read = some next := by
  obtain ⟨conn, stored, rep'⟩ := recvInto_represents rep read.chunk fits.room
  obtain ⟨last, out, ended⟩ := assemble_fits sids rep fits
  have call := parseWithin_refines sids read.iterations read.ambient rep'
  simp only [ended] at call
  obtain ⟨finish, returned, -⟩ := call
  exact ⟨⟨finish, link.received ++ read.chunk, link.dispatched ++ out⟩, by
    simp only [serve, stored, returned]⟩

/-! ### A stream of frames -/

/-- The bytes received, this read's included, begin the stream. -/
def Cuts (frames : List (List Byte)) (link : Link) (read : Read) : Prop :=
  link.received ++ read.chunk <+: frames.flatten

/-- The connection of a run over the stream, as `parse` leaves it. -/
structure InStream (frames : List (List Byte)) (link : Link) (state : Assembly) : Prop where
  rep : Represents 0 link.conn state
  short : state.unread.length < HEAD_LEN
  stream : ∃ later, link.received ++ later = frames.flatten ∧
    Progress frames later state link.dispatched

theorem fresh_inStream (frames : List (List Byte)) : InStream frames .fresh .fresh :=
  ⟨fresh_represents, by decide, frames.flatten, rfl, fresh_progress frames⟩

/-- The next bytes of the stream are received and parsed. -/
theorem inStream_parsed {sids : ServiceID} {frames : List (List Byte)}
    (framed : ∀ frame ∈ frames, Framed frame) {link : Link} {state last : Assembly}
    {chunk : List Byte} {count : Nat} {ambient : Nat → Ambient} {conn : RecvPkt}
    {out : List Dispatch} (here : InStream frames link state)
    (cuts : link.received ++ chunk <+: frames.flatten)
    (ended : assemble sids count ambient { state with unread := state.unread ++ chunk } =
      some (last, out)) (rep : Represents 0 conn last) :
    InStream frames ⟨conn, link.received ++ chunk, link.dispatched ++ out⟩ last := by
  obtain ⟨later, total, progress⟩ := here.stream
  obtain ⟨rest, whole⟩ := cuts
  have split : later = chunk ++ rest := by
    rw [← whole, List.append_assoc] at total
    exact List.append_cancel_left total
  rw [split] at progress
  exact ⟨rep, assemble_short _ _ ended, rest, whole,
    assemble_progress framed _ _ (progress_receive progress) ended⟩

theorem serve_inStream {sids : ServiceID} {frames : List (List Byte)}
    (framed : ∀ frame ∈ frames, Framed frame) {link next : Link} {read : Read} {state : Assembly}
    (here : InStream frames link state) (cuts : Cuts frames link read)
    (served : serve sids link read = some next) :
    ∃ last out, assemble sids read.iterations read.ambient
        { state with unread := state.unread ++ read.chunk } = some (last, out) ∧
      InStream frames next last := by
  obtain ⟨last, out, ended, rep, received, dispatched⟩ := serve_spec here.rep served
  have there := inStream_parsed framed here cuts ended rep
  rw [← received, ← dispatched] at there
  exact ⟨last, out, ended, there⟩

/-- Reads that fit are served to the end of the run. -/
theorem run_inStream (sids : ServiceID) {frames : List (List Byte)}
    (framed : ∀ frame ∈ frames, Framed frame) {reads : List Read}
    (cut : Throughout (serve sids)
      (fun link read => Cuts frames link read ∧ read.Fits link.conn) .fresh reads) :
    ∃ link state, run (serve sids) .fresh reads = some link ∧ InStream frames link state := by
  have preserved : ∀ link read next, (∃ state, InStream frames link state) →
      Cuts frames link read ∧ read.Fits link.conn → serve sids link read = some next →
      ∃ state, InStream frames next state := by
    rintro link read next ⟨state, here⟩ ⟨cuts, -⟩ served
    obtain ⟨last, -, -, there⟩ := serve_inStream framed here cuts served
    exact ⟨last, there⟩
  have enabled : ∀ link read, (∃ state, InStream frames link state) →
      Cuts frames link read ∧ read.Fits link.conn → ∃ next, serve sids link read = some next := by
    rintro link read ⟨state, here⟩ ⟨-, fits⟩
    exact serve_returns sids here.rep fits
  have initial : ∃ state, InStream frames .fresh state := ⟨.fresh, fresh_inStream frames⟩
  obtain ⟨link, reached⟩ := run_of_throughout _ _ preserved enabled initial cut
  obtain ⟨state, here⟩ := invariant_of_throughout _ _ preserved initial cut reached
  exact ⟨link, state, reached, here⟩

/-- Every cut of a stream of frames into reads is received without loss: at every return of
`parse` the bytes received are a number of frames, then the partial frame in `pkt`, then what
is left in `buf`, and the messages dispatched are those frames whose checksum is right. -/
theorem stream_integrity (sids : ServiceID) (frames : List (List Byte))
    (framed : ∀ frame ∈ frames, Framed frame) (reads : List Read)
    (cut : Throughout (serve sids)
      (fun link read => Cuts frames link read ∧ read.Fits link.conn) .fresh reads) :
    ∃ link, run (serve sids) .fresh reads = some link ∧
      (link.conn.lessPktLen = 0 → link.conn.pkt.bytes = []) ∧
      ∃ k, link.received = (frames.take k).flatten ++ link.conn.pkt.bytes ++ unreadBytes link.conn ∧
        link.dispatched.map (fun each => each.msg.bytes) = (frames.take k).filter goodSum := by
  obtain ⟨link, state, reached, rep, -, later, total, before, after, split, atCut⟩ :=
    run_inStream sids framed cut
  refine ⟨link, reached, ?_, before.length, ?_, ?_⟩
  · intro idle
    have pkt := rep.pkt
    rw [pktBytes_represents rep]
    cases started : state.pending with
    | none => rfl
    | some pending =>
      rw [started] at pkt
      have less := pkt.1
      have short := pending.short
      omega
  · rw [List.append_assoc, inHand_represents rep, split, List.take_left]
    exact received_of_cut (split ▸ total) atCut
  · rw [split, List.take_left]
    exact atCut.bytes

/-! ### Two frames -/

/-- The part of `Fits` that can be computed. -/
def Read.HasRoom (read : Read) (conn : RecvPkt) : Prop :=
  (read.chunk.length : Int) ≤ RECV_BUF_LEN - conn.bufLen ∧
    conn.bufLen + read.chunk.length ≤ read.iterations
  deriving Decidable

theorem throughout_fits {sids : ServiceID} {link : Link} {reads : List Read}
    (mallocs : ∀ read ∈ reads, ∀ n, (read.ambient n).malloc = true)
    (room : Throughout (serve sids) (fun link read => read.HasRoom link.conn) link reads) :
    Throughout (serve sids) (fun link read => read.Fits link.conn) link reads := by
  have allocates : Throughout (serve sids)
      (fun _ read => ∀ n, (read.ambient n).malloc = true) link reads :=
    throughout_of_mem link reads fun _ => mallocs
  refine (throughout_congr (fun _ => True) (fun _ _ _ _ _ _ => trivial) ?_ trivial reads).mpr
    (throughout_and.mpr ⟨room, allocates⟩)
  intro start read _
  exact ⟨fun fits => ⟨⟨fits.room, fits.iterations⟩, fits.malloc⟩,
    fun both => ⟨both.1.1, both.2, both.1.2⟩⟩

/-- A frame of 37 bytes: a header, and a body of ten zero bytes with the sum of its length. -/
def tenZeroes : List Byte :=
  [TAG_HEAD_1, TAG_HEAD_2] ++ List.replicate 23 0 ++ [10, 10] ++ List.replicate 10 0

theorem tenZeroes_framed : Framed tenZeroes := ⟨rfl, by decide, by decide⟩

/-- The same with another last byte. -/
def tenBroken : List Byte :=
  [TAG_HEAD_1, TAG_HEAD_2] ++ List.replicate 23 0 ++ [10, 10] ++ List.replicate 9 0 ++ [1]

theorem tenBroken_framed : Framed tenBroken := ⟨rfl, by decide, by decide⟩

/-- The surroundings of a call whose allocations succeed. -/
def roomy (_ : Nat) : Ambient := ⟨⟨true, fun _ => 0⟩, 0⟩

/-- The changed frame and the other one, cut inside each of them. -/
def cutInside : List Read :=
  [⟨(tenBroken ++ tenZeroes).take 30, roomy, 30⟩,
    ⟨((tenBroken ++ tenZeroes).drop 30).take 20, roomy, 74⟩,
    ⟨(tenBroken ++ tenZeroes).drop 50, roomy, 74⟩]

theorem roomy_cutInside (read : Read) (inside : read ∈ cutInside) (n : Nat) :
    (read.ambient n).malloc = true := by
  simp only [cutInside, List.mem_cons, List.not_mem_nil, or_false] at inside
  obtain rfl | rfl | rfl := inside
  · rfl
  · rfl
  · rfl

theorem stream_integrity_two_frames :
    ∃ link, run (serve ⟨1, 2, 3, 4⟩) .fresh cutInside = some link ∧
      (link.conn.lessPktLen = 0 → link.conn.pkt.bytes = []) ∧
      ∃ k, link.received = (List.take k [tenBroken, tenZeroes]).flatten ++
          link.conn.pkt.bytes ++ unreadBytes link.conn ∧
        link.dispatched.map (fun each => each.msg.bytes) =
          (List.take k [tenBroken, tenZeroes]).filter goodSum := by
  have room : Throughout (serve ⟨1, 2, 3, 4⟩)
      (fun link read => link.received ++ read.chunk <+: [tenBroken, tenZeroes].flatten ∧
        read.HasRoom link.conn) .fresh cutInside := by
    decide +kernel
  have fits := throughout_fits roomy_cutInside (throughout_and.mp room).2
  exact stream_integrity ⟨1, 2, 3, 4⟩ [tenBroken, tenZeroes]
    (by simpa using ⟨tenBroken_framed, tenZeroes_framed⟩) cutInside
    (throughout_and.mpr ⟨(throughout_and.mp room).1, fits⟩)

end SNFrame.Receive.Session
