import Mathlib.Logic.Function.Basic
import SNFrame.Core.Sending
import SNFrame.Core.TcpParse
import SNFrame.Library.Table

/-! Connections and the class NetManager. Objects of one kind are numbered in the order of
their creation and the number stands for the pointer; a queue is an object of its own, which a
connection can hand over. An operation through a pointer to a queue that has been deleted has
no result. -/

namespace SNFrame.Core.NetManager
open Library.Octet Library.Table Base.PbBuf Receiving Sending TcpParse

def AE_READABLE : BitVec 16 := 1
def AE_WRITABLE : BitVec 16 := 2
def AE_ACCEPTABLE : BitVec 16 := 4

/-- The attribute `flag`, which the constructor does not set. -/
inductive ConnFlag where
  | unset
  | conn_client
  | conn_server
  deriving DecidableEq, Repr

/-- The class Connection. `addr` is the pointer to the object; `revent` and `wevent` say whether
libevent has the event; `cb` is the argument of the callback `notifyNodeState`, the only one. -/
structure Connection where
  addr : Nat
  flag : ConnFlag
  sid : BitVec 16
  nid : BitVec 32
  fd : Int
  revent : Bool
  wevent : Bool
  evs : BitVec 16
  state : ConnState
  recv : RecvPkt
  outBuffer : Nat
  cache : Bool
  send : SendPkt
  cb : Option Nat

def Connection.fresh (addr outBuffer : Nat) (fd : Int) : Connection where
  addr := addr
  flag := .unset
  sid := 0
  nid := 0
  fd := fd
  revent := false
  wevent := false
  evs := 0
  state := .STATE_NONE
  recv := .fresh
  outBuffer := outBuffer
  cache := true
  send := .fresh
  cb := none

/-- `LibEvent::addFileEvent`, which looks at one bit of the mask. -/
def Connection.addEvent (conn : Connection) (mask : BitVec 16) : Connection :=
  if mask &&& AE_READABLE ≠ 0 then { conn with revent := true }
  else if mask &&& AE_WRITABLE ≠ 0 then { conn with wevent := true }
  else if mask &&& AE_ACCEPTABLE ≠ 0 then { conn with revent := true }
  else conn

/-- `LibEvent::delFileEvent`. -/
def Connection.delEvent (conn : Connection) (mask : BitVec 16) : Connection :=
  { conn with
    revent := conn.revent && mask &&& AE_READABLE = 0
    wevent := conn.wevent && mask &&& AE_WRITABLE = 0 }

/-- The table `m_conns`, the queues that exist and the number of the next object. -/
structure Net where
  conns : List Connection
  queues : Nat → Option (List IMString)
  next : Nat

namespace Net

def empty : Net := ⟨[], fun _ => none, 0⟩

def deref (net : Net) (addr : Nat) : Option Connection := lookup Connection.addr addr net.conns

/-- An assignment to fields of the object behind a pointer. -/
def assign (net : Net) (addr : Nat) (f : Connection → Connection) : Net :=
  { net with conns := update Connection.addr addr f net.conns }

/-- The search loops `while (it != m_conns.end())` over the descriptors. -/
def findFd (net : Net) (fd : Int) : Option Connection := net.conns.find? (·.fd = fd)

def addFileEvent (net : Net) (fd : Int) (mask : BitVec 16) : Net :=
  match net.findFd fd with
  | none => net
  | some conn =>
      if conn.evs &&& mask ≠ 0 then net
      else net.assign conn.addr fun conn => { conn with evs := conn.evs ||| mask }.addEvent mask

def delFileEvent (net : Net) (fd : Int) (mask : BitVec 16) : Net :=
  match net.findFd fd with
  | none => net
  | some conn =>
      let ev := conn.evs &&& mask
      if ev ≠ 0 then
        net.assign conn.addr fun conn => { conn with evs := conn.evs &&& ~~~mask }.delEvent ev
      else net

/-- `delete` of a queue. -/
def deleteQueue (net : Net) (queue : Nat) : Net :=
  { net with queues := Function.update net.queues queue none }

/-- `closeConnection`, with the destructor of Connection. -/
def closeConnection (net : Net) (fd : Int) : Net :=
  match net.findFd fd with
  | none => net
  | some conn =>
      let net := if conn.cache then net.deleteQueue conn.outBuffer else net
      { net with conns := remove Connection.addr conn.addr net.conns }

/-- `new Connection()` with its queue, and `push_back`. -/
def create (net : Net) (fd : Int) : Net where
  conns := net.conns ++ [.fresh net.next net.next fd]
  queues := Function.update net.queues net.next (some [])
  next := net.next + 1

/-- `IMQueue::push` through a pointer. -/
def push (net : Net) (queue : Nat) (msg : IMString) : Option Net :=
  (net.queues queue).map fun msgs =>
    { net with queues := Function.update net.queues queue (some (msgs ++ [msg])) }

/-- The four send functions: the first connection that matches gets the message, and its write
event if its state is one of those. -/
def sendFirst (net : Net) (isTarget : Connection → Bool) (arms : ConnState → Bool)
    (msg : IMString) : Option (Int × Net) :=
  match net.conns.find? isTarget with
  | none => some (-1, net)
  | some conn => (net.push conn.outBuffer msg).map fun net =>
      (0, if arms conn.state then net.addFileEvent conn.fd AE_WRITABLE else net)

def connectedOrAuth (state : ConnState) : Bool :=
  state = .STATE_CONNECTED || state = .STATE_AUTH

def sendSock (net : Net) (msg : IMString) (fd : Int) : Option (Int × Net) :=
  net.sendFirst (·.fd = fd) (· = .STATE_CONNECTED) msg

def sendNode (net : Net) (msg : IMString) (nid : BitVec 32) : Option (Int × Net) :=
  net.sendFirst (·.nid = nid) connectedOrAuth msg

def sendDb (sids : ServiceID) (net : Net) (msg : IMString) : Option (Int × Net) :=
  net.sendFirst (·.sid = sids.SID_DB_PROXY) connectedOrAuth msg

def sendState (sids : ServiceID) (net : Net) (msg : IMString) : Option (Int × Net) :=
  net.sendFirst (·.sid = sids.SID_USER_STATE) connectedOrAuth msg

/-- `NetServer::connect` over `NetManager::connect`, given what `createClient` returns. The
kernel does not return a descriptor that is open. -/
def connect (net : Net) (fd : Int) : Option (Net × Option Nat) :=
  if fd > 0 then
    if (net.findFd fd).isSome then none
    else
      let addr := net.next
      let net := net.create fd
      let net := net.assign addr fun conn => { conn with flag := .conn_client }
      some (net.addFileEvent fd AE_READABLE, some addr)
  else some (net, none)

/-- `NetServer::init` over `NetManager::listen`, given what `createServer` returns. -/
def listen (net : Net) (fd : Int) : Option Net :=
  if fd > 0 then
    if (net.findFd fd).isSome then none
    else some ((net.create fd).addFileEvent fd AE_ACCEPTABLE)
  else some net

/-- What `NetServer::accept` meets: the descriptor, and whether making it nonblocking and the
allocation succeed. -/
structure AcceptEvent where
  fd : Int
  nonblocking : Bool
  allocated : Bool

/-- `NetServer::accept`. -/
def accept (net : Net) (event : AcceptEvent) : Option Net :=
  if event.fd ≤ 0 then some net
  else if (net.findFd event.fd).isSome then none
  else if event.nonblocking && event.allocated then
    let addr := net.next
    let net := net.create event.fd
    let net := net.assign addr fun conn =>
      { conn with flag := .conn_server, state := .STATE_AUTH }
    some (net.addFileEvent event.fd AE_READABLE)
  else some net

/-- `Connection::setCache`. -/
def setCache (net : Net) (addr cache : Nat) : Option Net :=
  (net.deref addr).map fun conn =>
    (net.deleteQueue conn.outBuffer).assign addr fun conn => { conn with outBuffer := cache }

/-- `Connection::write` on the connection and its queue. -/
def writeConn (net : Net) (addr : Nat) (outcomes : List SendResult) :
    Option (Net × Option IoResult × List Byte) := do
  let conn ← net.deref addr
  let queue ← net.queues conn.outBuffer
  let trace := Sending.write outcomes queue conn.send
  let net := { net with queues := Function.update net.queues conn.outBuffer (some trace.queue) }
  some (net.assign addr fun conn => { conn with send := trace.send }, trace.result, trace.accepted)

/-- `Connection::empty` on the connection and its queue. -/
def emptyConn (net : Net) (conn : Connection) : Option Bool :=
  (net.queues conn.outBuffer).map fun queue => Sending.empty queue conn.send

end Net

end SNFrame.Core.NetManager
