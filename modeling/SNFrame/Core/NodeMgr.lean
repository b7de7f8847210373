import SNFrame.Core.NetManager

/-! Nodes, services and the class NodeMgr over the connection table, and the two event
callbacks of TcpServer. What a step meets outside the program (the descriptor that a connect
returns, the returns of `recv` and `send`, the allocator) comes with the step. -/

namespace SNFrame.Core.NodeMgr
open Library.Octet Library.Table Base.PbBuf Receiving Sending TcpParse NetManager

inductive NodeState where
  | NODE_UNABLE
  | NODE_AUTH
  | NODE_ABLE
  | NODE_ERROR
  | NODE_CLOSED
  deriving DecidableEq, Repr

/-- The size of `ip` and of `m_ip`. -/
def IP_LEN : Nat := 16

/-- The string has room in such an array, with its terminator. -/
def Fits (text : List Byte) : Prop := (text.takeWhile (· ≠ 0)).length < IP_LEN

instance decidableFits (text : List Byte) : Decidable (Fits text) :=
  inferInstanceAs (Decidable (_ < _))

/-- A string in `m_ip`. -/
structure Address where
  chars : List Byte
  fits : chars.length < IP_LEN
  deriving DecidableEq

/-- What the constructor of Node stores. -/
def Address.empty : Address := ⟨[], by decide⟩

/-- The `strcpy` of `setAddrs`. It has no result when it writes behind the array. -/
def strcpy (ip : List Byte) : Option Address :=
  if fits : Fits ip then some ⟨ip.takeWhile (· ≠ 0), fits⟩ else none

theorem strcpy_of_fits {ip : List Byte} (fits : Fits ip) :
    ∃ address, strcpy ip = some address := ⟨_, dif_pos fits⟩

theorem fits_of_strcpy {ip : List Byte} {address : Address} (copied : strcpy ip = some address) :
    Fits ip := by
  by_contra longer
  cases (dif_neg longer).symm.trans copied

/-- The class Node, less the port, which only `connect` reads. -/
structure Node where
  addr : Nat
  m_num : Nat
  m_id : BitVec 32
  m_ip : Address
  m_type : BitVec 16
  m_state : NodeState
  m_context : Option Nat
  m_persist : Bool
  deriving DecidableEq

namespace Node

/-- The constructor. -/
def fresh (addr : Nat) (sid : BitVec 16) (nid : BitVec 32) : Node :=
  ⟨addr, 0, nid, .empty, sid, .NODE_UNABLE, none, true⟩

def setAddrs (node : Node) (ip : Address) : Node := { node with m_ip := ip }

def setState (node : Node) (state : NodeState) : Node :=
  { node with m_num := if node.m_state = .NODE_AUTH then 0 else node.m_num, m_state := state }

/-- The counter moves only when the node is persistent. -/
def needReconnect (node : Node) : Bool × Node :=
  if node.m_persist then (node.m_num < 4, { node with m_num := node.m_num + 1 }) else (false, node)

end Node

structure ServiceNode where
  m_sid : BitVec 16
  m_nodes : List Node

/-- What leaves the program other than through a connection's queue. -/
inductive Effect where
  | sendBlock (fd : Int) (msg : IMString)
  | notifyApp (msg : IMString) (id : BitVec 32)
  | dispatch (addr : Nat) (message : Dispatch)

/-- The connection table, the service table and the effects so far. -/
structure Sys where
  net : Net
  services : List ServiceNode
  nextNode : Nat
  effects : List Effect

/-- `ServerStatus`, as far as `srvinfoBroadcast` reads it. -/
structure ServerStatus where
  is_enable : Bool
  node_id : BitVec 32
  server_ip : List Byte
  server_port : BitVec 32
  service_type : List (BitVec 16)
  deriving DecidableEq

/-- The types of the enabled servers, in the order of the two loops. -/
def listed (servers : List ServerStatus) : List (BitVec 16 × ServerStatus) :=
  (servers.filter (·.is_enable)).flatMap fun server => server.service_type.map (·, server)

/-- The command ids and the messages of the generated protobuf code. -/
structure Proto extends ServiceID where
  CID_OTHER_AUTHENTICATION_REQ : BitVec 16
  CID_OTHER_AUTHENTICATION_RSP : BitVec 16
  CID_ROUTER_CLIENT_REGISTER_REQ : BitVec 16
  /-- `ParseFromArray` of `IMAuthenticationReq`: type and node id. -/
  parseAuthenticationReq : List Byte → Option (BitVec 16 × BitVec 32)
  /-- `ParseFromArray` of `IMAuthenticationRsp`: type and node id. -/
  parseAuthenticationRsp : List Byte → Option (BitVec 16 × BitVec 32)
  /-- `ParseFromArray` of `ServerStatusPush`: the list of servers. -/
  parseStatusPush : List Byte → Option (List ServerStatus)
  authenticationReq : BitVec 16 → BitVec 32 → MessageLite
  authenticationRsp : BitVec 16 → BitVec 32 → MessageLite
  registerServerReq : MessageLite

/-- What the visit of one node, or one registration, meets outside the program: the descriptors
that its connects return, the allocator, whether the configuration is there, and its
`RouteServerIP1`. -/
structure Visit where
  fds : Nat → Int
  heap : Heap
  configured : Bool
  routerIP : List Byte

/-- `bufalloc`, `set_tag`, `set_body_head` and `set_pb`, as all requests are built. -/
def buildMsg (heap : Heap) (sid cid : BitVec 16) (pb : MessageLite) : Option IMString :=
  let fresh := bufalloc heap (pb.byteSize + HEAD_LEN)
  if fresh.1 then
    some (setPb heap (setBodyHead heap (setTag heap fresh.2 0 0) 1 sid cid 1) pb).2
  else none

/-- `get_data` and `data_len` as the arguments of `ParseFromArray`. -/
def payload (msg : IMString) : List Byte := ((getData msg).getD []).take (dataLen msg).toNat

namespace Sys

def findService (sys : Sys) (sid : BitVec 16) : Option ServiceNode :=
  sys.services.find? (·.m_sid = sid)

/-- `NodeMgr::findNode`. -/
def findNode (sys : Sys) (sid : BitVec 16) (nid : BitVec 32) : Option Node := do
  let snode ← sys.findService sid
  snode.m_nodes.find? (·.m_id = nid)

def derefNode (sys : Sys) (addr : Nat) : Option Node :=
  (sys.services.flatMap ServiceNode.m_nodes).find? (·.addr = addr)

/-- An assignment to fields of the node behind a pointer. -/
def assignNode (sys : Sys) (addr : Nat) (f : Node → Node) : Sys :=
  { sys with services := sys.services.map fun snode =>
      { snode with m_nodes := update Node.addr addr f snode.m_nodes } }

def eraseNode (sys : Sys) (addr : Nat) : Sys :=
  { sys with services := sys.services.map fun snode =>
      { snode with m_nodes := remove Node.addr addr snode.m_nodes } }

/-- `push_back` on the nodes of the first service of that type. -/
def pushNode (node : Node) : List ServiceNode → Option (List ServiceNode)
  | [] => none
  | snode :: rest =>
      if snode.m_sid = node.m_type then
        some ({ snode with m_nodes := snode.m_nodes ++ [node] } :: rest)
      else (pushNode node rest).map (snode :: ·)

/-- `NodeMgr::addNode`, with the pointer that it returns. -/
def addNode (sys : Sys) (sid : BitVec 16) (nid : BitVec 32) : Option (Sys × Nat) :=
  (pushNode (.fresh sys.nextNode sid nid) sys.services).map fun services =>
    ({ sys with services := services, nextNode := sys.nextNode + 1 }, sys.nextNode)

def log (sys : Sys) (effect : Effect) : Sys := { sys with effects := sys.effects ++ [effect] }

/-- `notifyNodeState`, the callback of a connection. `set_tag` and `set_body_head` meet a NULL
buffer and do nothing, and `bufalloc` then starts the message afresh. -/
def notifyNodeState (sys : Sys) (heap : Heap) (addr : Nat) (state : ConnState) : Option Sys :=
  (sys.derefNode addr).map fun node =>
    let nodeState := if state = .STATE_ERROR then NodeState.NODE_ERROR else .NODE_CLOSED
    let sys := sys.assignNode addr (·.setState nodeState)
    let msg := bufalloc heap 27
    if msg.1 then sys.log (.notifyApp msg.2 node.m_id) else sys

/-- `Connection::setState`. -/
def setState (sys : Sys) (heap : Heap) (addr : Nat) (state : ConnState) : Option Sys :=
  match sys.net.deref addr with
  | none => none
  | some conn =>
      let sys := { sys with net := sys.net.assign addr fun conn => { conn with state := state } }
      if state = .STATE_CLOSED ∨ state = .STATE_ERROR then
        match conn.cb with
        | none => some sys
        | some node => sys.notifyNodeState heap node state
      else some sys

/-- The tail of the two callbacks after a failed read or write. -/
def fail (sys : Sys) (heap : Heap) (addr : Nat) (state : ConnState) : Option Sys := do
  let sys ← sys.setState heap addr state
  let conn ← sys.net.deref addr
  let net := sys.net.delFileEvent conn.fd (AE_READABLE ||| AE_WRITABLE)
  some { sys with net := if conn.flag ≠ .conn_client then net.closeConnection conn.fd else net }

/-- `TcpServer::write`. -/
def write (sys : Sys) (heap : Heap) (addr : Nat) (outcomes : List SendResult) : Option Sys := do
  let (net, result, _) ← sys.net.writeConn addr outcomes
  let sys := { sys with net := net }
  match result with
  | none => none
  | some .error => sys.fail heap addr .STATE_ERROR
  | some .closed => sys.fail heap addr .STATE_CLOSED
  | some _ =>
      let conn ← net.deref addr
      let drained ← net.emptyConn conn
      some { sys with net := if drained then net.delFileEvent conn.fd AE_WRITABLE else net }

/-- `TcpServer::read`. The messages that `parse` hands on are effects here; handling them is
steps of their own. -/
def read (sids : ServiceID) (sys : Sys) (heap : Heap) (addr : Nat) (event : ReadEvent) :
    Option Sys := do
  let conn ← sys.net.deref addr
  let received := fun (recv : RecvPkt) =>
    { sys with net := sys.net.assign addr fun conn => { conn with recv := recv } }
  match readThenParse sids event conn.recv with
  | .ok (some (.parsed recv out)) =>
      some { received recv with effects := sys.effects ++ out.map (.dispatch addr) }
  | .ok (some (.failed recv state)) => (received recv).fail heap addr state
  | _ => none

/-- `NodeMgr::AuthenticationReq`. -/
def authenticationReq (proto : Proto) (sys : Sys) (heap : Heap) (addr : Nat) (msg : IMString) :
    Option Sys :=
  match proto.parseAuthenticationReq (payload msg) with
  | none => some sys
  | some (sid, nid) => do
      let net := sys.net.assign addr fun conn => { conn with sid := sid, nid := nid }
      let sys ← { sys with net := net }.setState heap addr .STATE_CONNECTED
      let conn ← sys.net.deref addr
      match buildMsg heap proto.SID_OTHER proto.CID_OTHER_AUTHENTICATION_RSP
          (proto.authenticationRsp sid nid) with
      | none => some sys
      | some auth => (sys.net.sendSock auth conn.fd).map fun sent => { sys with net := sent.2 }

/-- `NodeMgr::AuthenticationRsp`. -/
def authenticationRsp (proto : Proto) (sys : Sys) (heap : Heap) (addr : Nat) (msg : IMString) :
    Option Sys :=
  match proto.parseAuthenticationRsp (payload msg) with
  | none => some sys
  | some (sid, nid) =>
      match sys.findNode sid nid with
      | none => some sys
      | some node =>
          (sys.assignNode node.addr (·.setState .NODE_ABLE)).setState heap addr .STATE_CONNECTED

/-- `ServiceNode::AuthenticationReq`. -/
def requestAuthentication (proto : Proto) (sys : Sys) (heap : Heap) (fd : Int) (sid : BitVec 16)
    (nid : BitVec 32) : Sys :=
  match buildMsg heap proto.SID_OTHER proto.CID_OTHER_AUTHENTICATION_REQ
      (proto.authenticationReq sid nid) with
  | none => sys
  | some auth => sys.log (.sendBlock fd auth)

/-- The connects of `registReq`: the first of four that succeeds. -/
def connectTries : Nat → (Nat → Int) → Net → Option (Net × Option Nat)
  | 0, _, net => some (net, none)
  | count + 1, fds, net => do
      let (net, conn) ← net.connect (fds 0)
      match conn with
      | some addr => some (net, some addr)
      | none => connectTries count (fun i => fds (i + 1)) net

/-- `RouterNode::init` and `registReq`. -/
def registReq (proto : Proto) (sys : Sys) (visit : Visit) : Option Sys :=
  if visit.configured then do
    let (net, conn) ← connectTries 4 visit.fds sys.net
    let sys := { sys with net := net }
    match conn with
    | none => some sys
    | some addr =>
        let net := net.assign addr fun conn => { conn with sid := proto.SID_ROUTER, nid := 0 }
        -- `setAddrs` copies the same text into the connection, where nothing reads it
        let ip ← strcpy visit.routerIP
        let sys ← { sys with net := net }.setState visit.heap addr .STATE_CONNECTED
        let (sys, node) ← sys.addNode proto.SID_ROUTER 0
        let sys := sys.assignNode node fun node =>
          { { node.setAddrs ip with m_context := some addr }.setState .NODE_ABLE with
            m_persist := false }
        let conn ← sys.net.deref addr
        match buildMsg visit.heap proto.SID_ROUTER proto.CID_ROUTER_CLIENT_REGISTER_REQ
            proto.registerServerReq with
        | none => some sys
        | some register =>
            (sys.net.sendSock register conn.fd).map fun sent => { sys with net := sent.2 }
  else some sys

/-- The handover in `checkState`: the queue and the callback of the old connection go to the new
one, and the old one is closed. -/
def handOver (net : Net) (addr old : Nat) : Option Net := do
  let oldConn ← net.deref old
  let net ← net.setCache addr oldConn.outBuffer
  let net := net.assign old fun conn => { conn with cache := false }
  let net := net.assign addr fun conn => { conn with cb := oldConn.cb }
  some (net.closeConnection oldConn.fd)

/-- The handover, when the node has an old connection. -/
def takeOver (net : Net) (addr : Nat) : Option Nat → Option Net
  | none => some net
  | some old => handOver net addr old

/-- The branch of `checkState` that reconnects. The copy of `m_ip` into the new connection stays
inside its array, because `m_ip` ends within its own. -/
def reconnect (proto : Proto) (sys : Sys) (visit : Visit) (sid : BitVec 16) (node : Node) :
    Option Sys := do
  let (net, conn) ← sys.net.connect (visit.fds 0)
  let sys := { sys with net := net }
  match conn with
  | none => some sys
  | some addr =>
      let sys := sys.requestAuthentication proto visit.heap (visit.fds 0) sid node.m_id
      let net ← takeOver sys.net addr node.m_context
      let net := net.assign addr fun conn => { conn with sid := sid, nid := node.m_id }
      let sys ← { sys with net := net }.setState visit.heap addr .STATE_AUTH
      some (sys.assignNode node.addr fun node =>
        { node.setState .NODE_AUTH with m_context := some addr })

/-- The old connection of a node that is given up, when it has one. -/
def closeContext (sys : Sys) : Option Nat → Option Sys
  | none => some sys
  | some old => (sys.net.deref old).map fun oldConn =>
      { sys with net := sys.net.closeConnection oldConn.fd }

/-- The branch of `checkState` that gives a node up. -/
def giveUp (proto : Proto) (sys : Sys) (visit : Visit) (sid : BitVec 16) (node : Node) :
    Option Sys := do
  let sys ← (sys.eraseNode node.addr).closeContext node.m_context
  if sid = proto.SID_ROUTER then sys.registReq proto visit else some sys

/-- The body of the loop of `checkState`. -/
def checkNode (proto : Proto) (sid : BitVec 16) (visits : Nat → Visit) (sys : Sys) (addr : Nat) :
    Option Sys := do
  let node ← sys.derefNode addr
  if node.m_state = .NODE_ERROR ∨ node.m_state = .NODE_CLOSED then
    let counted := node.needReconnect
    let sys := sys.assignNode addr fun node => node.needReconnect.2
    if counted.1 then sys.reconnect proto (visits addr) sid counted.2
    else sys.giveUp proto (visits addr) sid counted.2
  else some sys

/-- `ServiceNode::checkState`. A node that `registReq` appends during the loop is in NODE_ABLE,
so the loop reaches it last and passes it by. -/
def checkState (proto : Proto) (sys : Sys) (service : Nat) (visits : Nat → Visit) : Option Sys := do
  let snode ← sys.services[service]?
  (snode.m_nodes.map Node.addr).foldlM (checkNode proto snode.m_sid visits) sys

/-- One listed type of one server in `srvinfoBroadcast`. The answer says whether the loops go
on: a failed connect returns from the function. -/
def addServer (proto : Proto) (sys : Sys) (visit : Visit) (type : BitVec 16)
    (server : ServerStatus) : Option (Sys × Bool) :=
  if (sys.findNode type server.node_id).isSome ∨ (sys.findService type).isNone then
    some (sys, true)
  else do
    let (net, conn) ← sys.net.connect (visit.fds 0)
    let sys := { sys with net := net }
    match conn with
    | none => some (sys, false)
    | some addr =>
        let (sys, node) ← sys.addNode type server.node_id
        let net := sys.net.assign addr fun conn =>
          { conn with sid := type, nid := server.node_id }
        -- the copy into the connection comes first, and the one into the node is the same
        let ip ← strcpy server.server_ip
        let sys ← { sys with net := net }.setState visit.heap addr .STATE_AUTH
        let sys := { sys with net := sys.net.assign addr fun conn => { conn with cb := some node } }
        let sys := sys.assignNode node fun node =>
          { (node.setAddrs ip).setState .NODE_AUTH with m_context := some addr }
        some (sys.requestAuthentication proto visit.heap (visit.fds 0) type server.node_id,
          true)

/-- `RouterNode::srvinfoBroadcast`. -/
def srvinfoBroadcast (proto : Proto) (sys : Sys) (visits : Nat → Visit) (msg : IMString) :
    Option Sys :=
  match proto.parseStatusPush (payload msg) with
  | none => some sys
  | some servers =>
      ((listed servers).zipIdx.foldlM (fun (state : Sys × Bool) each =>
        if state.2 then state.1.addServer proto (visits each.2) each.1.1 each.1.2
        else some state) (sys, true)).map Prod.fst

end Sys

/-- The steps of the event thread and of the senders. -/
inductive Action where
  | listen (fd : Int)
  | accept (event : Net.AcceptEvent)
  | connect (fd : Int)
  | sendSock (msg : IMString) (fd : Int)
  | sendNode (msg : IMString) (nid : BitVec 32)
  | sendDb (msg : IMString)
  | sendState (msg : IMString)
  | read (addr : Nat) (event : ReadEvent) (heap : Heap)
  | write (addr : Nat) (outcomes : List SendResult) (heap : Heap)
  | authenticationReq (addr : Nat) (msg : IMString) (heap : Heap)
  | authenticationRsp (addr : Nat) (msg : IMString) (heap : Heap)
  | checkState (service : Nat) (visits : Nat → Visit)
  | srvinfoBroadcast (msg : IMString) (visits : Nat → Visit)
  | registReq (visit : Visit)

/-- One step. None for a step that cannot be taken: a pointer that is not to an object, a
descriptor that is open already, a copy behind an array, a call that does not return. -/
def step (proto : Proto) (sys : Sys) : Action → Option Sys
  | .listen fd => (sys.net.listen fd).map fun net => { sys with net := net }
  | .accept event => (sys.net.accept event).map fun net => { sys with net := net }
  | .connect fd => (sys.net.connect fd).map fun both => { sys with net := both.1 }
  | .sendSock msg fd => (sys.net.sendSock msg fd).map fun both => { sys with net := both.2 }
  | .sendNode msg nid => (sys.net.sendNode msg nid).map fun both => { sys with net := both.2 }
  | .sendDb msg => (sys.net.sendDb proto.toServiceID msg).map fun both => { sys with net := both.2 }
  | .sendState msg =>
      (sys.net.sendState proto.toServiceID msg).map fun both => { sys with net := both.2 }
  | .read addr event heap => sys.read proto.toServiceID heap addr event
  | .write addr outcomes heap => sys.write heap addr outcomes
  | .authenticationReq addr msg heap => sys.authenticationReq proto heap addr msg
  | .authenticationRsp addr msg heap => sys.authenticationRsp proto heap addr msg
  | .checkState service visits => sys.checkState proto service visits
  | .srvinfoBroadcast msg visits => sys.srvinfoBroadcast proto visits msg
  | .registReq visit => sys.registReq proto visit

end SNFrame.Core.NodeMgr
