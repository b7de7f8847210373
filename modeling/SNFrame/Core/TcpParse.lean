import SNFrame.Core.Receiving

/-! `TcpServer::parse`: the loop that cuts the received bytes into frames, and `TcpServer::read`,
which calls it. `data` is kept as an offset into `buf`. -/

namespace SNFrame.Core.TcpParse
open Library.Octet Base.PbBuf Receiving

/-- The service ids of the generated protobuf header that the core compares with. -/
structure ServiceID where
  SID_ROUTER : BitVec 16
  SID_OTHER : BitVec 16
  SID_DB_PROXY : BitVec 16
  SID_USER_STATE : BitVec 16

/-- What one iteration of the loop meets outside the buffers: the allocator, the memory past
the message it checks, and `conn->nid`, which an earlier common message may have changed. -/
structure Ambient extends Heap where
  nid : BitVec 32

/-- A message leaves `parse` for `parseCommonProto` or for `handler`. -/
inductive Dispatch where
  | common (msg : IMString)
  | handler (msg : IMString) (id : BitVec 32)
  deriving DecidableEq, Repr

def Dispatch.msg : Dispatch → IMString
  | common msg => msg
  | handler msg _ => msg

/-- The end of both branches that complete a frame: a wrong checksum drops it. -/
def deliver (sids : ServiceID) (ambient : Ambient) (msg : IMString) : List Dispatch :=
  if check ambient.toHeap msg then
    let sid := getSid ambient.toHeap msg
    if sid = sids.SID_ROUTER ∨ sid = sids.SID_OTHER then [.common msg]
    else [.handler msg ambient.nid]
  else []

/-- One iteration either goes back to the loop guard or leaves by `break`. -/
inductive Flow where
  | next (data : Int) (conn : RecvPkt) (out : List Dispatch)
  | leave (data : Int) (conn : RecvPkt) (out : List Dispatch)

/-- The search loop of the resync branch: the first `i` from the given one on at which the tag
begins, or the end of the search. -/
def findTag (buf : RecvBuf) (data : Int) : Nat → Int → Except Fault Int
  | 0, i => .ok i
  | count + 1, i => do
      let b0 ← buf.byte (data + i)
      if b0 = TAG_HEAD_1 then
        let b1 ← buf.byte (data + i + 1)
        if b1 = TAG_HEAD_2 then .ok i else findTag buf data count (i + 1)
      else findTag buf data count (i + 1)

/-- The test of `data[0]` and `data[1]`. -/
def atTag (buf : RecvBuf) (data : Int) : Except Fault Bool := do
  let b0 ← buf.byte data
  if b0 = TAG_HEAD_1 then
    let b1 ← buf.byte (data + 1)
    .ok (b1 = TAG_HEAD_2)
  else .ok false

/-- `ntohs(*(uint16_t*)(data + 24))`. -/
def dataLenAt (buf : RecvBuf) (data : Int) : Except Fault (BitVec 16) := do
  let b0 ← buf.byte (data + 24)
  let b1 ← buf.byte (data + 25)
  .ok (ntohs (word16 b0 b1))

/-- A whole frame lies in `buf`. -/
def wholeFrame (sids : ServiceID) (ambient : Ambient) (data : Int) (conn : RecvPkt)
    (pktLen : Int) : Except Fault Flow :=
  let fresh := bufalloc ambient.toHeap pktLen
  if fresh.1 then do
    let source ← conn.buf.slice data pktLen
    let msg ← putMsg fresh.2 0 source
    let msg := { msg with mLen := pktLen }
    let bufLen ← lower conn.bufLen pktLen
    .ok (.next (data + pktLen) { conn with bufLen := bufLen } (deliver sids ambient msg))
  else .ok (.next data conn [])

/-- The beginning of a frame lies in `buf`: "not enough a pkt". -/
def startPartial (ambient : Ambient) (data : Int) (conn : RecvPkt) (pktLen : Int) :
    Except Fault Flow :=
  let fresh := bufalloc ambient.toHeap pktLen
  if fresh.1 then do
    let source ← conn.buf.slice data conn.bufLen
    let pkt ← putMsg fresh.2 0 source
    let lessPktLen ← lower pktLen conn.bufLen
    .ok (.leave data { conn with
      pkt := { pkt with mLen := conn.bufLen }
      lessPktLen := lessPktLen
      bufLen := 0 } [])
  else .ok (.next data { conn with pkt := fresh.2 } [])

/-- No tag at `data`: look for one. The test after the search uses the `buf_len` that a
successful search has already lowered. -/
def resync (data : Int) (conn : RecvPkt) : Except Fault Flow := do
  let i ← findTag conn.buf data (conn.bufLen - 1).toNat 0
  let found := i < conn.bufLen - 1
  let data := if found then data + i else data
  let bufLen ← if found then lower conn.bufLen i else .ok conn.bufLen
  if i = bufLen - 1 then .ok (.leave data (clear conn) [])
  else .ok (.next data { conn with bufLen := bufLen } [])

/-- The rest of the partial frame lies in `buf`. The assignment moves the buffer out of `pkt`,
which is then zeroed. -/
def finishPartial (sids : ServiceID) (ambient : Ambient) (data : Int) (conn : RecvPkt) :
    Except Fault Flow := do
  let lessPktLen := conn.lessPktLen
  let source ← conn.buf.slice data lessPktLen
  let pkt ← putMsg conn.pkt conn.pkt.mLen source
  let msg := { pkt with mLen := pkt.mLen + lessPktLen }
  let bufLen ← lower conn.bufLen lessPktLen
  .ok (.next (data + lessPktLen) { conn with pkt := .null, lessPktLen := 0, bufLen := bufLen }
    (deliver sids ambient msg))

def extendPartial (data : Int) (conn : RecvPkt) : Except Fault Flow := do
  let source ← conn.buf.slice data conn.bufLen
  let pkt ← putMsg conn.pkt conn.pkt.mLen source
  let lessPktLen ← lower conn.lessPktLen conn.bufLen
  .ok (.next data { conn with
    pkt := { pkt with mLen := pkt.mLen + conn.bufLen }
    lessPktLen := lessPktLen
    bufLen := 0 } [])

/-- The body of the loop. -/
def parseIter (sids : ServiceID) (ambient : Ambient) (data : Int) (conn : RecvPkt) :
    Except Fault Flow := do
  if conn.lessPktLen = 0 then
    if ← atTag conn.buf data then
      if conn.bufLen ≥ HEAD_LEN then
        let dataLen ← dataLenAt conn.buf data
        let pktLen : Int := dataLen.toNat + HEAD_LEN
        if conn.bufLen ≥ pktLen then wholeFrame sids ambient data conn pktLen
        else startPartial ambient data conn pktLen
      else .ok (.next data conn [])
    else resync data conn
  else if conn.bufLen ≥ conn.lessPktLen then finishPartial sids ambient data conn
  else extendPartial data conn

/-- The loop, for a given number of iterations; `none` when they do not suffice. Iteration
`n` runs in the surroundings `ambient n`. -/
def parseLoop (sids : ServiceID) : Nat → (Nat → Ambient) → Int → RecvPkt → List Dispatch →
    Except Fault (Option (Int × RecvPkt × List Dispatch))
  | fuel, ambient, data, conn, out =>
    if conn.bufLen < HEAD_LEN then .ok (some (data, conn, out))
    else match fuel with
    | 0 => .ok none
    | fuel + 1 => do
        match ← parseIter sids (ambient 0) data conn with
        | .next data conn more =>
            parseLoop sids fuel (fun n => ambient (n + 1)) data conn (out ++ more)
        | .leave data conn more => .ok (some (data, conn, out ++ more))

/-- The move of the unread bytes to the start of `buf`. -/
def moveDown (data : Int) (conn : RecvPkt) : Except Fault RecvPkt :=
  if conn.bufLen ≠ 0 ∧ data ≠ 0 then do
    let rest ← conn.buf.slice data conn.bufLen
    let buf ← conn.buf.put 0 rest
    .ok { conn with buf := buf }
  else .ok conn

def parseWithin (sids : ServiceID) (fuel : Nat) (ambient : Nat → Ambient) (conn : RecvPkt) :
    Except Fault (Option (RecvPkt × List Dispatch)) := do
  match ← parseLoop sids fuel ambient 0 conn [] with
  | none => .ok none
  | some (data, conn, out) => .ok (some (← moveDown data conn, out))

/-- `TcpServer::parse`. While allocation succeeds every iteration takes a byte off the unread
ones, so that their number bounds the iterations. -/
def parse (sids : ServiceID) (ambient : Nat → Ambient) (conn : RecvPkt) :
    Except Fault (Option (RecvPkt × List Dispatch)) :=
  parseWithin sids conn.bufLen.toNat ambient conn

/-- What one call of `TcpServer::read` meets: the returns of `recv`, and the surroundings of
`parse`. -/
structure ReadEvent where
  outcomes : List RecvResult
  ambient : Nat → Ambient
  iterations : Nat

/-- The call either parses what it received or gives the connection a new state. -/
inductive ReadEnd where
  | parsed (conn : RecvPkt) (out : List Dispatch)
  | failed (conn : RecvPkt) (state : ConnState)

/-- `TcpServer::read` up to the failure handling. None while the call is inside `recv` or
`parse`. -/
def readThenParse (sids : ServiceID) (event : ReadEvent) (conn : RecvPkt) :
    Except Fault (Option ReadEnd) := do
  let trace ← read event.outcomes conn
  match trace.result with
  | none => .ok none
  | some .error => .ok (some (.failed trace.conn .STATE_ERROR))
  | some .closed => .ok (some (.failed trace.conn .STATE_CLOSED))
  | some _ =>
      match ← parseWithin sids event.iterations event.ambient trace.conn with
      | none => .ok none
      | some (conn, out) => .ok (some (.parsed conn out))

end SNFrame.Core.TcpParse
