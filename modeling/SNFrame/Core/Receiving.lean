import SNFrame.Base.PbBuf

/-! The receiving half of the class Connection: the array `buf`, the message `pkt` that a
partial frame is collected in, and `Connection::read`, which fills the array. Copies check
their ranges and the byte counters check their sign, so an access outside a buffer or a count
below zero is a fault and not a silent no-op. -/

namespace SNFrame.Core.Receiving
open Library.Octet Base.PbBuf

def RECV_BUF_LEN : Nat := 16 * 1024

inductive Fault where
  | readOutside
  | writeOutside
  | negativeCount
  deriving DecidableEq, Repr

def splice (target : List Byte) (off : Nat) (source : List Byte) : List Byte :=
  target.take off ++ source ++ target.drop (off + source.length)

theorem splice_length (target source : List Byte) (off : Nat)
    (inside : off + source.length ≤ target.length) :
    (splice target off source).length = target.length := by
  simp only [splice, List.length_append, List.length_take, List.length_drop]
  omega

/-- The array `char buf[RECV_BUF_LEN]`. -/
structure RecvBuf where
  bytes : List Byte
  sized : bytes.length = RECV_BUF_LEN

namespace RecvBuf

def zero : RecvBuf := ⟨List.replicate RECV_BUF_LEN 0, List.length_replicate⟩

def byte (buf : RecvBuf) (off : Int) : Except Fault Byte :=
  if 0 ≤ off ∧ off < RECV_BUF_LEN then .ok (buf.bytes.getD off.toNat 0) else .error .readOutside

/-- The source of a `memcpy` of `len` bytes from `buf + off`. -/
def slice (buf : RecvBuf) (off len : Int) : Except Fault (List Byte) :=
  if 0 ≤ off ∧ 0 ≤ len ∧ off + len ≤ RECV_BUF_LEN then
    .ok ((buf.bytes.drop off.toNat).take len.toNat)
  else .error .readOutside

/-- The destination of a copy of `source` to `buf + off`. -/
def put (buf : RecvBuf) (off : Int) (source : List Byte) : Except Fault RecvBuf :=
  if inside : 0 ≤ off ∧ off + source.length ≤ RECV_BUF_LEN then
    .ok ⟨splice buf.bytes off.toNat source, by
      rw [splice_length _ _ _ (by rw [buf.sized]; omega), buf.sized]⟩
  else .error .writeOutside

end RecvBuf

/-- The destination of a copy of `source` to `msg.m_data + off`. -/
def putMsg (msg : IMString) (off : Int) (source : List Byte) : Except Fault IMString :=
  match msg.mData with
  | none => .error .writeOutside
  | some data =>
      if 0 ≤ off ∧ off + source.length ≤ data.length then
        .ok { msg with mData := some (splice data off.toNat source) }
      else .error .writeOutside

/-- A subtraction from a byte counter. -/
def lower (count taken : Int) : Except Fault Int :=
  if taken ≤ count then .ok (count - taken) else .error .negativeCount

theorem lower_ok {count taken : Int} (enough : taken ≤ count) :
    lower count taken = .ok (count - taken) := if_pos enough

/-- The fields under the comment "recv pkt". -/
structure RecvPkt where
  buf : RecvBuf
  bufLen : Int
  pkt : IMString
  lessPktLen : Int

/-- As the constructor leaves the fields. -/
def RecvPkt.fresh : RecvPkt := ⟨.zero, 0, .null, 0⟩

/-- `Connection::clear`. -/
def clear (_ : RecvPkt) : RecvPkt := ⟨.zero, 0, .null, 0⟩

inductive Errno where
  | EINTR
  | EAGAIN
  | EWOULDBLOCK
  | other
  deriving DecidableEq, Repr

/-- The results `IO_ERROR`, `IO_CLOSED`, `IO_FINISH` and `IO_AGAIN`. -/
inductive IoResult where
  | error
  | closed
  | finish
  | again
  deriving DecidableEq, Repr

inductive ConnState where
  | STATE_AUTH
  | STATE_CONNECTED
  | STATE_ERROR
  | STATE_CLOSED
  | STATE_NONE
  deriving DecidableEq, Repr

/-- One return of `recv`: a count with that many bytes, 0 being the peer's orderly close, or
-1 and an errno. -/
inductive RecvResult where
  | bytes (chunk : List Byte)
  | failed (errno : Errno)
  deriving DecidableEq, Repr

/-- What a call of `Connection::read` does: the connection and the result it returns (none
while it waits inside `recv`), the lengths it passed to `recv` and the bytes it was given. -/
structure ReadTrace where
  conn : RecvPkt
  result : Option IoResult
  asked : List Int
  received : List Byte

def ReadTrace.after (asked : Int) (received : List Byte) (rest : ReadTrace) : ReadTrace :=
  { rest with asked := asked :: rest.asked, received := received ++ rest.received }

/-- The guard `while (recv_len)`. A negative length would reach `recv` as a huge `size_t`. -/
def whileRoom (recvLen : Int) (conn : RecvPkt) (body : Except Fault ReadTrace) :
    Except Fault ReadTrace :=
  if recvLen = 0 then .ok ⟨conn, some .finish, [], []⟩
  else if recvLen < 0 then .error .writeOutside
  else body

/-- What `recv` has stored at `buf + buf_len` is counted. -/
def recvInto (conn : RecvPkt) (chunk : List Byte) : Except Fault RecvPkt := do
  let buf ← conn.buf.put conn.bufLen chunk
  .ok { conn with buf := buf, bufLen := conn.bufLen + chunk.length }

/-- The loop of `Connection::read`. The kernel hands over at most the length it is asked for. -/
def readLoop : List RecvResult → Int → RecvPkt → Except Fault ReadTrace
  | [], recvLen, conn => whileRoom recvLen conn (.ok ⟨conn, none, [recvLen], []⟩)
  | .failed errno :: outcomes, recvLen, conn => whileRoom recvLen conn <|
      match errno with
      | .EINTR => (readLoop outcomes recvLen conn).map (.after recvLen [])
      | .EAGAIN | .EWOULDBLOCK => .ok ⟨conn, some .again, [recvLen], []⟩
      | .other => .ok ⟨conn, some .error, [recvLen], []⟩
  | .bytes chunk :: outcomes, recvLen, conn => whileRoom recvLen conn <|
      let got := chunk.take recvLen.toNat
      if got = [] then .ok ⟨conn, some .closed, [recvLen], []⟩
      else do
        let conn ← recvInto conn got
        (readLoop outcomes (recvLen - got.length) conn).map (.after recvLen got)

/-- `Connection::read`. -/
def read (outcomes : List RecvResult) (conn : RecvPkt) : Except Fault ReadTrace :=
  readLoop outcomes (RECV_BUF_LEN - conn.bufLen) conn

end SNFrame.Core.Receiving
