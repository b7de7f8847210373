import SNFrame.Core.Heartbeat
import SNFrame.Core.NodeId
import SNFrame.Core.Timer

/-! `parseCommonProto`: the messages that the core itself handles, by service and command, and the
timer that a register response starts. -/

namespace SNFrame.Core.CommonProto
open Library.Octet Base.PbBuf NetManager NodeMgr Heartbeat Timer

structure RouterProto extends HeartbeatProto where
  CID_ROUTER_CLIENT_REGISTER_RSP : BitVec 16
  CID_ROUTER_PUSH_SERVER_STATUS : BitVec 16
  /-- `ParseFromArray` of the register response: the node id. -/
  parseRegisterServerRsp : List Byte → Option (BitVec 32)

/-- The id in a register response, if there is one, has room in the buffer of `set_id`. -/
def RouterProto.idFits (proto : RouterProto) (msg : IMString) : Bool :=
  (proto.parseRegisterServerRsp (payload msg)).all fun nid => NodeId.Fits nid

/-- The callbacks in the list of Timer: `NodeMgr::timer`, and what others have registered. -/
inductive TimerHandler where
  | nodeMgr
  | other (id : Nat)
  deriving DecidableEq

/-- The program with the timer, and the id that the router has given to this node. -/
structure Host where
  clock : Clock
  timer : Timer TimerHandler
  m_id : BitVec 32

/-- What the handling of one message meets: its connection, the allocator, and what the connects
of a push meet. -/
structure Arrival where
  addr : Nat
  msg : IMString
  heap : Heap
  visits : Nat → Visit

namespace Host

def withSys (host : Host) (sys : Sys) : Host :=
  { host with clock := { host.clock with sys := sys } }

/-- `NodeMgr::start`. -/
def start (host : Host) : Host := { host with timer := host.timer.addTimer .nodeMgr 1 }

/-- `RouterNode::set_id`, less the copy of the id in the configuration. It has no result when the
text of the id runs over its buffer. -/
def setId (host : Host) (nid : BitVec 32) : Option Host :=
  if NodeId.Fits nid then some { host with m_id := nid } else none

/-- `RouterNode::registRsp`. The result code is only logged. -/
def registRsp (proto : RouterProto) (host : Host) (msg : IMString) : Option Host :=
  match proto.parseRegisterServerRsp (payload msg) with
  | none => some host
  | some nid => (host.setId nid).map start

/-- `NodeMgr::parse`. -/
def parse (proto : RouterProto) (host : Host) (arrival : Arrival) : Option Host :=
  let cid := getCmd arrival.heap arrival.msg
  if cid = proto.CID_OTHER_AUTHENTICATION_REQ then
    (host.clock.sys.authenticationReq proto.toProto arrival.heap arrival.addr arrival.msg).map
      host.withSys
  else if cid = proto.CID_OTHER_AUTHENTICATION_RSP then
    (host.clock.sys.authenticationRsp proto.toProto arrival.heap arrival.addr arrival.msg).map
      host.withSys
  else some host

/-- `RouterNode::parse`. -/
def parseRouter (proto : RouterProto) (host : Host) (arrival : Arrival) : Option Host :=
  let cid := getCmd arrival.heap arrival.msg
  if cid = proto.CID_ROUTER_CLIENT_REGISTER_RSP then host.registRsp proto arrival.msg
  else if cid = proto.CID_ROUTER_PUSH_SERVER_STATUS then
    (host.clock.sys.srvinfoBroadcast proto.toProto arrival.visits arrival.msg).map host.withSys
  else some host

/-- `ServiceNode::parse`. Only the one of RouterNode does anything. -/
def parseService (proto : RouterProto) (host : Host) (snode : ServiceNode) (arrival : Arrival) :
    Option Host :=
  if snode.m_sid = proto.SID_ROUTER then host.parseRouter proto arrival else some host

def parseCommonProto (proto : RouterProto) (host : Host) (arrival : Arrival) : Option Host :=
  let sid := getSid arrival.heap arrival.msg
  if sid = proto.SID_OTHER then host.parse proto arrival
  else match host.clock.sys.findService sid with
    | some snode => host.parseService proto snode arrival
    | none => some host

/-- One call of a callback by `serverCron`. What the callbacks of others do is steps of their
own. -/
def callTimer (proto : RouterProto) (around : Nat → Around) (host : Host)
    (call : Nat × TimerHandler) : Option Host :=
  match call.2 with
  | .nodeMgr =>
      (cron proto.toHeartbeatProto (around call.1) host.clock).map ({ host with clock := · })
  | .other _ => some host

/-- `Timer::serverCron`. -/
def serverCron (proto : RouterProto) (around : Nat → Around) (host : Host) : Option Host :=
  let (timer, calls) := host.timer.serverCron
  calls.foldlM (callTimer proto around) { host with timer := timer }

end Host

/-- A message for the core, a tick, a timer that somebody registers, or another step of the event
thread or of a sender. -/
inductive Event where
  | message (arrival : Arrival)
  | serverCron (around : Nat → Around)
  | addTimer (id : Nat) (sec : Int)
  | action (action : Action)

def step (proto : RouterProto) (host : Host) : Event → Option Host
  | .message arrival => host.parseCommonProto proto arrival
  | .serverCron around => host.serverCron proto around
  | .addTimer id sec =>
      some { host with timer := Timer.addTimer host.timer (.other id) sec }
  | .action action =>
      (NodeMgr.step proto.toProto host.clock.sys action).map host.withSys

end SNFrame.Core.CommonProto
