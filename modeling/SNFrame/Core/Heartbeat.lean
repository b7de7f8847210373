import SNFrame.Base.Checksum
import SNFrame.Core.NodeMgr

/-! The timer of NodeMgr, and the heartbeats to the nodes that are able. The counter `loop` of
`heartBeat` is a static local, so that all services have the same. -/

namespace SNFrame.Core.Heartbeat
open Base.PbBuf Base.Checksum NetManager NodeMgr

structure HeartbeatProto extends Proto where
  CID_OTHER_HEARTBEAT : BitVec 16

/-- A heartbeat in a queue: the call of `cron`, counted from 0, the node and its connection. -/
structure Beat where
  tick : Nat
  node : Nat
  conn : Nat
  deriving DecidableEq

/-- The program with the static counter, the number of calls of `cron` that have returned and the
heartbeats that `sendSock` has queued. -/
structure Clock where
  sys : Sys
  loop : BitVec 32
  ticks : Nat
  beats : List Beat

/-- `init` and the header, when there is memory for it. -/
def heartbeat (proto : HeartbeatProto) (heap : Heap) (nid : BitVec 32) : Option IMString :=
  if (init heap).1 then
    some (heartBeatMsg heap proto.SID_OTHER proto.CID_OTHER_HEARTBEAT nid)
  else none

/-- `sendSock` of a heartbeat on the connection of a node. -/
def sendBeat (proto : HeartbeatProto) (heap : Heap) (clock : Clock) (node context : Nat) :
    Option Clock := do
  let conn ← clock.sys.net.deref context
  match heartbeat proto heap conn.nid with
  | none => some clock
  | some msg =>
      let (result, net) ← clock.sys.net.sendSock msg conn.fd
      let beat := if result = 0 then [⟨clock.ticks, node, context⟩] else []
      some { clock with sys := { clock.sys with net := net }, beats := clock.beats ++ beat }

/-- The body of the loop of `heartBeat`. -/
def beatNode (proto : HeartbeatProto) (heaps : Nat → Heap) (clock : Clock) (node : Node) :
    Option Clock :=
  if node.m_state = .NODE_ABLE then
    match node.m_context with
    | none => some clock
    | some context => sendBeat proto (heaps node.addr) clock node.addr context
  else some clock

/-- `ServiceNode::heartBeat`. The early return leaves the counter as it is. -/
def heartBeat (proto : HeartbeatProto) (heaps : Nat → Heap) (clock : Clock) (service : Nat) :
    Option Clock :=
  if clock.loop % 300 ≠ 0 then some clock
  else do
    let snode ← clock.sys.services[service]?
    let clock ← snode.m_nodes.foldlM (beatNode proto heaps) clock
    some { clock with loop := clock.loop + 1 }

/-- What a call of `cron` meets outside the program: the visits of each service, and the allocator
for each heartbeat. -/
structure Around where
  visits : Nat → Nat → Visit
  heaps : Nat → Heap

/-- The body of the loop of `cron`. -/
def serve (proto : HeartbeatProto) (around : Around) (clock : Clock) (service : Nat) :
    Option Clock := do
  let sys ← clock.sys.checkState proto.toProto service (around.visits service)
  heartBeat proto around.heaps { clock with sys := sys } service

/-- `NodeMgr::cron`. -/
def cron (proto : HeartbeatProto) (around : Around) (clock : Clock) : Option Clock := do
  let clock ← (List.range clock.sys.services.length).foldlM (serve proto around) clock
  some { clock with ticks := clock.ticks + 1 }

/-- A step of the event thread or of a sender, or a call of the timer. -/
inductive Event where
  | action (action : Action)
  | cron (around : Around)

def step (proto : HeartbeatProto) (clock : Clock) : Event → Option Clock
  | .action action =>
      (NodeMgr.step proto.toProto clock.sys action).map fun sys => { clock with sys := sys }
  | .cron around => cron proto around clock

end SNFrame.Core.Heartbeat
