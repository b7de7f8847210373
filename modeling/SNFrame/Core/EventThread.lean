import SNFrame.Core.NodeMgr

/-! The event thread call by call. libevent runs one callback after the other. What a callback
still has to do is a handler and the loops around it, and the senders take their steps between
any two of its calls. -/

namespace SNFrame.Core.EventThread
open Library.Octet Base.PbBuf Receiving Sending TcpParse NetManager NodeMgr

/-- A call that comes before the rest of the handler: the event of a new connection, or
`Sender::sendBlock`, which has sent `pos` bytes to the descriptor of a connection. -/
inductive Call where
  | addFileEvent (fd : Int) (mask : BitVec 16)
  | sendBlock (addr : Nat) (msg : IMString) (pos : Nat)

/-! What a handler does next. -/

inductive Failing where
  | setState (state : ConnState)
  | delFileEvent
  | closeConnection

inductive Draining where
  | empty
  | delFileEvent

inductive Confirming where
  | setState
  | sendSock

inductive Reconnecting where
  | request
  | setCache
  | setCb
  | close
  | setNodeInfo
  | setState
  | attach

inductive Registering where
  | setNodeInfo
  | setAddrs
  | setState
  | addNode
  | sendSock

inductive Announcing where
  | addNode
  | setNodeInfo (node : Nat)
  | setAddrs (node : Nat)
  | setState (node : Nat)
  | setCb (node : Nat)
  | attach (node : Nat)
  | request

/-- The handlers: the tails of `TcpServer::read` and `write`, the two of authentication, the
branches of `checkState`, `init` and `registReq`, and the body of `srvinfoBroadcast`. -/
inductive Handler where
  | fail (addr : Nat) (next : Failing)
  | write (addr : Nat) (next : Draining)
  | authenticationReq (addr : Nat) (sid : BitVec 16) (nid : BitVec 32) (next : Confirming)
  | authenticationRsp (addr : Nat)
  | reconnect (sid : BitVec 16) (node addr : Nat) (next : Reconnecting)
  | giveUp (sid : BitVec 16) (old : Option Nat)
  | init
  | connect (tries : Nat)
  | registReq (addr : Nat) (next : Registering)
  | addServer (type : BitVec 16) (server : ServerStatus) (addr : Nat) (next : Announcing)

/-- The loops: the messages of one connection, the nodes of a service, the servers of a push. -/
inductive Loop where
  | parse (addr : Nat)
  | checkState (sid : BitVec 16) (nodes : List Nat)
  | srvinfoBroadcast (servers : List (BitVec 16 × ServerStatus))

/-- Bytes that the kernel has taken in one call of `send`, by `sendBlock` or by
`Connection::write`. -/
inductive Sent where
  | request (bytes : List Byte)
  | queued (bytes : List Byte)

def Sent.bytes : Sent → List Byte
  | request bytes => bytes
  | queued bytes => bytes

/-- The tables, where the event thread is, what each connection has given to the kernel and the
requests for which `sendBlock` has returned 0. -/
structure Machine where
  sys : Sys
  call : Option Call
  handler : Option Handler
  loops : List Loop
  given : Nat → List Sent
  complete : Nat → Option IMString

/-- What one call meets outside the program. -/
structure Surroundings where
  fd : Int
  heap : Heap
  configured : Bool
  routerIP : List Byte
  outcome : SendResult

/-- What a call leaves: the tables, and how the handler goes on. -/
structure Progress where
  sys : Sys
  call : Option Call
  handler : Option Handler

def Progress.done (sys : Sys) : Progress := ⟨sys, none, none⟩

def Progress.next (handler : Handler) (sys : Sys) : Progress := ⟨sys, none, some handler⟩

/-- `NetManager::connect` and `listen` with the fields that are set before `addFileEvent`. -/
def opened (net : Net) (fd : Int) (f : Connection → Connection) : Option (Net × Option Nat) :=
  if fd > 0 then
    if (net.findFd fd).isSome then none
    else some ((net.create fd).assign net.next f, some net.next)
  else some (net, none)

def client (conn : Connection) : Connection := { conn with flag := .conn_client }

def server (conn : Connection) : Connection :=
  { conn with flag := .conn_server, state := .STATE_AUTH }

/-- An assignment through a pointer to a connection. -/
def store (sys : Sys) (addr : Nat) (f : Connection → Connection) : Option Sys :=
  (sys.net.deref addr).map fun _ => { sys with net := sys.net.assign addr f }

/-- `ServiceNode::AuthenticationReq` up to the loop of `sendBlock`. -/
def request (proto : Proto) (heap : Heap) (sys : Sys) (addr : Nat) (sid : BitVec 16)
    (nid : BitVec 32) (handler : Option Handler) : Option Progress :=
  (sys.net.deref addr).map fun conn =>
    ⟨sys.requestAuthentication proto heap conn.fd sid nid,
      (buildMsg heap proto.SID_OTHER proto.CID_OTHER_AUTHENTICATION_REQ
        (proto.authenticationReq sid nid)).map (.sendBlock addr · 0), handler⟩

/-- `Connection::setAddrs`. Nothing reads what it stores, so only the copy is here. -/
def setAddrs (sys : Sys) (addr : Nat) (ip : List Byte) (handler : Handler) : Option Progress := do
  let _ ← sys.net.deref addr
  let _ ← strcpy ip
  some (.next handler sys)

theorem setAddrs_eq {sys : Sys} {addr : Nat} {ip : List Byte} {handler : Handler}
    {progress : Progress} (done : setAddrs sys addr ip handler = some progress) :
    Fits ip ∧ progress = .next handler sys := by
  obtain ⟨conn, -, done⟩ := Option.bind_eq_some_iff.mp done
  obtain ⟨address, copied, done⟩ := Option.bind_eq_some_iff.mp done
  exact ⟨fits_of_strcpy copied, (Option.some.inj done).symm⟩

/-- A built message goes through `sendSock` to the descriptor of a connection. -/
def reply (sys : Sys) (addr : Nat) (msg : Option IMString) : Option Progress := do
  let conn ← sys.net.deref addr
  match msg with
  | none => some (.done sys)
  | some msg => (sys.net.sendSock msg conn.fd).map fun sent => .done { sys with net := sent.2 }

def failCall (around : Surroundings) (sys : Sys) (addr : Nat) : Failing → Option Progress
  | .setState state =>
      (sys.setState around.heap addr state).map (.next (.fail addr .delFileEvent))
  | .delFileEvent => (sys.net.deref addr).map fun conn =>
      .next (.fail addr .closeConnection)
        { sys with net := sys.net.delFileEvent conn.fd (AE_READABLE ||| AE_WRITABLE) }
  | .closeConnection => (sys.net.deref addr).map fun conn =>
      .done { sys with net :=
        if conn.flag ≠ .conn_client then sys.net.closeConnection conn.fd else sys.net }

def writeCall (sys : Sys) (addr : Nat) : Draining → Option Progress
  | .empty => do
      let conn ← sys.net.deref addr
      let drained ← sys.net.emptyConn conn
      some (if drained then .next (.write addr .delFileEvent) sys else .done sys)
  | .delFileEvent => (sys.net.deref addr).map fun conn =>
      .done { sys with net := sys.net.delFileEvent conn.fd AE_WRITABLE }

/-- The branch of `checkState` that reconnects, for the context that the node has. The copy of
`m_ip` after `setNodeInfo` stays inside its array, because `m_ip` ends within its own. -/
def reconnectCall (proto : Proto) (around : Surroundings) (sys : Sys) (sid : BitVec 16)
    (node : Node) (addr : Nat) : Reconnecting → Option Nat → Option Progress
  | .request, _ => request proto around.heap sys addr sid node.m_id
      (some (.reconnect sid node.addr addr .setCache))
  | .setCache, some old => do
      let oldConn ← sys.net.deref old
      let net ← sys.net.setCache addr oldConn.outBuffer
      let net := net.assign old fun conn => { conn with cache := false }
      some (.next (.reconnect sid node.addr addr .setCb) { sys with net := net })
  | .setCb, some old => do
      let oldConn ← sys.net.deref old
      let sys ← store sys addr fun conn => { conn with cb := oldConn.cb }
      some (.next (.reconnect sid node.addr addr .close) sys)
  | .close, some old => (sys.net.deref old).map fun oldConn =>
      .next (.reconnect sid node.addr addr .setNodeInfo)
        { sys with net := sys.net.closeConnection oldConn.fd }
  | .setCache, none | .setCb, none | .close, none =>
      some (.next (.reconnect sid node.addr addr .setNodeInfo) sys)
  | .setNodeInfo, _ => (store sys addr fun conn => { conn with sid := sid, nid := node.m_id }).map
      (.next (.reconnect sid node.addr addr .setState))
  | .setState, _ => (sys.setState around.heap addr .STATE_AUTH).map
      (.next (.reconnect sid node.addr addr .attach))
  | .attach, _ => some (.done (sys.assignNode node.addr fun node =>
      { node.setState .NODE_AUTH with m_context := some addr }))

def registCall (proto : Proto) (around : Surroundings) (sys : Sys) (addr : Nat) :
    Registering → Option Progress
  | .setNodeInfo => (store sys addr fun conn =>
      { conn with sid := proto.SID_ROUTER, nid := 0 }).map (.next (.registReq addr .setAddrs))
  | .setAddrs => setAddrs sys addr around.routerIP (.registReq addr .setState)
  | .setState =>
      (sys.setState around.heap addr .STATE_CONNECTED).map (.next (.registReq addr .addNode))
  | .addNode => do
      let (sys, node) ← sys.addNode proto.SID_ROUTER 0
      let ip ← strcpy around.routerIP
      some (.next (.registReq addr .sendSock) (sys.assignNode node fun node =>
        { { node.setAddrs ip with m_context := some addr }.setState .NODE_ABLE with
          m_persist := false }))
  | .sendSock => reply sys addr (buildMsg around.heap proto.SID_ROUTER
      proto.CID_ROUTER_CLIENT_REGISTER_REQ proto.registerServerReq)

def addServerCall (proto : Proto) (around : Surroundings) (sys : Sys) (type : BitVec 16)
    (server : ServerStatus) (addr : Nat) : Announcing → Option Progress
  | .addNode => match sys.addNode type server.node_id with
      | none => some (.done sys)
      | some (sys, node) => some (.next (.addServer type server addr (.setNodeInfo node)) sys)
  | .setNodeInfo node => (store sys addr fun conn =>
      { conn with sid := type, nid := server.node_id }).map
        (.next (.addServer type server addr (.setAddrs node)))
  | .setAddrs node =>
      setAddrs sys addr server.server_ip (.addServer type server addr (.setState node))
  | .setState node => (sys.setState around.heap addr .STATE_AUTH).map
      (.next (.addServer type server addr (.setCb node)))
  | .setCb node => (store sys addr fun conn => { conn with cb := some node }).map
      (.next (.addServer type server addr (.attach node)))
  | .attach node => (strcpy server.server_ip).map fun ip =>
      .next (.addServer type server addr .request) (sys.assignNode node fun node =>
        { (node.setAddrs ip).setState .NODE_AUTH with m_context := some addr })
  | .request => request proto around.heap sys addr type server.node_id none

/-- The next call of a handler. -/
def handlerCall (proto : Proto) (around : Surroundings) (sys : Sys) : Handler → Option Progress
  | .fail addr next => failCall around sys addr next
  | .write addr next => writeCall sys addr next
  | .authenticationReq addr sid nid .setState =>
      (sys.setState around.heap addr .STATE_CONNECTED).map
        (.next (.authenticationReq addr sid nid .sendSock))
  | .authenticationReq addr sid nid .sendSock => reply sys addr (buildMsg around.heap
      proto.SID_OTHER proto.CID_OTHER_AUTHENTICATION_RSP (proto.authenticationRsp sid nid))
  | .authenticationRsp addr => (sys.setState around.heap addr .STATE_CONNECTED).map .done
  | .reconnect sid place addr next => (sys.derefNode place).bind fun node =>
      reconnectCall proto around sys sid node addr next node.m_context
  | .giveUp sid old => (sys.closeContext old).map fun sys =>
      if sid = proto.SID_ROUTER then .next .init sys else .done sys
  | .init => some (if around.configured then .next (.connect 4) sys else .done sys)
  | .connect 0 => some (.done sys)
  | .connect (tries + 1) => do
      let (net, conn) ← opened sys.net around.fd client
      let sys := { sys with net := net }
      match conn with
      | none => some (.next (.connect tries) sys)
      | some addr => some ⟨sys, some (.addFileEvent around.fd AE_READABLE),
          some (.registReq addr .setNodeInfo)⟩
  | .registReq addr next => registCall proto around sys addr next
  | .addServer type server addr next => addServerCall proto around sys type server addr next

/-- The body of the loop of `checkState` up to the branches. -/
def visit (around : Surroundings) (sys : Sys) (sid : BitVec 16) (place : Nat) :
    Option Progress := do
  let node ← sys.derefNode place
  if node.m_state = .NODE_ERROR ∨ node.m_state = .NODE_CLOSED then
    let sys := sys.assignNode place fun node => node.needReconnect.2
    if node.needReconnect.1 then do
      let (net, conn) ← opened sys.net around.fd client
      let sys := { sys with net := net }
      match conn with
      | none => some (.done sys)
      | some addr => some ⟨sys, some (.addFileEvent around.fd AE_READABLE),
          some (.reconnect sid place addr .request)⟩
    else some (.next (.giveUp sid node.m_context) (sys.eraseNode place))
  else some (.done sys)

/-- The body of the loops of `srvinfoBroadcast` up to the new connection. -/
def announce (around : Surroundings) (sys : Sys) (type : BitVec 16) (server : ServerStatus) :
    Option (Progress × Bool) :=
  if (sys.findNode type server.node_id).isSome ∨ (sys.findService type).isNone then
    some (.done sys, true)
  else do
    let (net, conn) ← opened sys.net around.fd client
    let sys := { sys with net := net }
    match conn with
    | none => some (.done sys, false)
    | some addr => some (⟨sys, some (.addFileEvent around.fd AE_READABLE),
        some (.addServer type server addr .addNode)⟩, true)

namespace Machine

def idle (sys : Sys) : Machine := ⟨sys, none, none, [], fun _ => [], fun _ => none⟩

/-- The machine after a call, inside these loops. -/
def goOn (machine : Machine) (loops : List Loop) (progress : Progress) : Machine :=
  { machine with
    sys := progress.sys, call := progress.call, handler := progress.handler, loops := loops }

/-- A send function of a worker, which takes its step under `m_lock`. -/
def sender (machine : Machine) (sent : Option (Int × Net)) : Option Machine :=
  sent.map fun both => { machine with sys := { machine.sys with net := both.2 } }

/-- One turn of the loop of `Sender::sendBlock`. The kernel takes at most what it is given. -/
def sendBlock (machine : Machine) (outcome : SendResult) (addr : Nat) (msg : IMString)
    (pos : Nat) : Machine :=
  if msg.mLen = pos then
    { machine with
      call := none, complete := Function.update machine.complete addr (some msg) }
  else match outcome with
    | .sent count =>
        let accepted := (msg.bytes.drop pos).take count
        if accepted = [] then { machine with call := none }
        else { machine with
          call := some (.sendBlock addr msg (pos + accepted.length))
          given := Function.update machine.given addr (machine.given addr ++ [.request accepted]) }
    | .failed .other => { machine with call := none }
    | .failed _ => machine

/-- The event thread goes on with its callback. -/
def go (proto : Proto) (machine : Machine) (around : Surroundings) : Option Machine :=
  match machine.call, machine.handler, machine.loops with
  | some (.addFileEvent fd mask), _, _ => some { machine with
      sys := { machine.sys with net := machine.sys.net.addFileEvent fd mask }, call := none }
  | some (.sendBlock addr msg pos), _, _ => some (machine.sendBlock around.outcome addr msg pos)
  | none, some handler, loops =>
      (handlerCall proto around machine.sys handler).map (machine.goOn loops)
  | none, none, .checkState _ [] :: rest => some { machine with loops := rest }
  | none, none, .checkState sid (place :: places) :: rest =>
      (visit around machine.sys sid place).map (machine.goOn (.checkState sid places :: rest))
  | none, none, .srvinfoBroadcast [] :: rest => some { machine with loops := rest }
  | none, none, .srvinfoBroadcast ((type, server) :: servers) :: rest =>
      (announce around machine.sys type server).map fun each =>
        machine.goOn (if each.2 then .srvinfoBroadcast servers :: rest else rest) each.1
  | none, none, _ => none

end Machine

inductive Event where
  | sendSock (msg : IMString) (fd : Int)
  | sendNode (msg : IMString) (nid : BitVec 32)
  | sendDb (msg : IMString)
  | sendState (msg : IMString)
  | listen (fd : Int)
  | accept (event : Net.AcceptEvent)
  | read (addr : Nat) (event : ReadEvent)
  | write (addr : Nat) (outcomes : List SendResult)
  | checkState (service : Nat)
  | registReq
  | authenticationReq (msg : IMString)
  | authenticationRsp (msg : IMString)
  | srvinfoBroadcast (msg : IMString)
  | parsed
  | go (around : Surroundings)

namespace Machine

/-- The start of a callback, when the event thread is in none. The read event of a listening
connection calls `accept`: it was added with AE_ACCEPTABLE. -/
def begin (proto : Proto) (machine : Machine) : Event → Option Machine
  | .listen fd => (opened machine.sys.net fd id).map fun both =>
      machine.goOn [] ⟨{ machine.sys with net := both.1 },
        both.2.map fun _ => .addFileEvent fd AE_ACCEPTABLE, none⟩
  | .accept event =>
      if event.nonblocking && event.allocated then
        (opened machine.sys.net event.fd server).map fun both =>
          machine.goOn [] ⟨{ machine.sys with net := both.1 },
            both.2.map fun _ => .addFileEvent event.fd AE_READABLE, none⟩
      else some machine
  | .read addr event => do
      let conn ← machine.sys.net.deref addr
      let received := fun (recv : RecvPkt) => { machine.sys with
        net := machine.sys.net.assign addr fun conn => { conn with recv := recv } }
      if conn.revent && conn.evs &&& AE_ACCEPTABLE = 0 then
        match readThenParse proto.toServiceID event conn.recv with
        | .ok (some (.parsed recv out)) =>
            some (machine.goOn [.parse addr] (.done { received recv with
              effects := machine.sys.effects ++ out.map (.dispatch addr) }))
        | .ok (some (.failed recv state)) =>
            some (machine.goOn [] (.next (.fail addr (.setState state)) (received recv)))
        | _ => none
      else none
  | .write addr outcomes => do
      let conn ← machine.sys.net.deref addr
      let (net, result, accepted) ← machine.sys.net.writeConn addr outcomes
      let sys := { machine.sys with net := net }
      let machine : Machine := { machine with
        given := Function.update machine.given addr (machine.given addr ++ [.queued accepted]) }
      if conn.wevent then
        match result with
        | none => none
        | some .error =>
            some (machine.goOn [] (.next (.fail addr (.setState .STATE_ERROR)) sys))
        | some .closed =>
            some (machine.goOn [] (.next (.fail addr (.setState .STATE_CLOSED)) sys))
        | some _ => some (machine.goOn [] (.next (.write addr .empty) sys))
      else none
  | .checkState service => (machine.sys.services[service]?).map fun snode =>
      { machine with loops := [.checkState snode.m_sid (snode.m_nodes.map Node.addr)] }
  | .registReq => some { machine with handler := some .init }
  | _ => none

/-- A message that `parse` hands on, in the callback for its connection. -/
def message (proto : Proto) (machine : Machine) (addr : Nat) (rest : List Loop) :
    Event → Option Machine
  | .authenticationReq msg =>
      match proto.parseAuthenticationReq (payload msg) with
      | none => some machine
      | some (sid, nid) =>
          (store machine.sys addr fun conn => { conn with sid := sid, nid := nid }).map fun sys =>
            machine.goOn machine.loops (.next (.authenticationReq addr sid nid .setState) sys)
  | .authenticationRsp msg =>
      match proto.parseAuthenticationRsp (payload msg) with
      | none => some machine
      | some (sid, nid) => some <|
          match machine.sys.findNode sid nid with
          | none => machine
          | some node => machine.goOn machine.loops (.next (.authenticationRsp addr)
              (machine.sys.assignNode node.addr (·.setState .NODE_ABLE)))
  | .srvinfoBroadcast msg =>
      match proto.parseStatusPush (payload msg) with
      | none => some machine
      | some servers => some { machine with
          loops := .srvinfoBroadcast (listed servers) :: machine.loops }
  | .parsed => some { machine with loops := rest }
  | _ => none

end Machine

/-- A step of a sender or of the event thread. -/
def step (proto : Proto) (machine : Machine) : Event → Option Machine
  | .sendSock msg fd => machine.sender (machine.sys.net.sendSock msg fd)
  | .sendNode msg nid => machine.sender (machine.sys.net.sendNode msg nid)
  | .sendDb msg => machine.sender (machine.sys.net.sendDb proto.toServiceID msg)
  | .sendState msg => machine.sender (machine.sys.net.sendState proto.toServiceID msg)
  | .go around => machine.go proto around
  | event =>
      match machine.call, machine.handler, machine.loops with
      | none, none, [] => machine.begin proto event
      | none, none, .parse addr :: rest => machine.message proto addr rest event
      | _, _, _ => none

end SNFrame.Core.EventThread
