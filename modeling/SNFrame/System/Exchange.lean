import SNFrame.System.Processes
import SNFrame.System.Registration
import SNFrame.System.Requests
import SNFrame.System.Traffic

/-! The processes as the tables of their objects, and the changes that their steps make on the
tables, on the messages still to be handled and on the wires. -/

namespace SNFrame.System.Exchange
open Library.Octet Library.Transition Base.PbBuf Core.Receiving Core.Sending Core.TcpParse
open Core.NetManager Core.NodeMgr Core.CommonProto Receive.Callback Receive.Parcels
open Send.SendStream Ownership Tables Turns
open Registration Simulation Supervision Processes Requests Traffic
open Base.Checksum (held)

/-- The connections and the nodes of all processes, with the number of the next connection of
each process. -/
structure World where
  conns : Endpoint → Option Owned
  nodes : Endpoint → Option Node
  next : Nat → Nat
  inbox : Nat → List (Nat × Dispatch)
  wires : Wires

namespace World

/-- No connection, no node, nothing on the wires. -/
def empty : World := ⟨fun _ => none, fun _ => none, fun _ => 0, fun _ => [], .idle⟩

def objects (world : World) (p : Nat) : Objects :=
  ⟨fun addr => world.conns (p, addr), fun place => world.nodes (p, place)⟩

def setConn (world : World) (e : Endpoint) (owned : Option Owned) : World :=
  { world with conns := Function.update world.conns e owned }

def setNode (world : World) (e : Endpoint) (node : Option Node) : World :=
  { world with nodes := Function.update world.nodes e node }

/-- The call of a callback of a connection of the process. -/
def notify (world : World) (p : Nat) (cb : Option Nat) (state : ConnState) : World :=
  { world with
    nodes := fun e =>
      if e.1 = p ∧ cb = some e.2 then (world.nodes e).map (·.setState (nodeStateOf state))
      else world.nodes e }

/-- The connection that is the context of the node is gone. -/
def dropContext (world : World) (p : Nat) (node : Node) : World :=
  match node.m_context with
  | none => world
  | some context => world.setConn (p, context) none

/-- A new connection of the process. -/
def create (world : World) (p : Nat) (owned : Owned) : World :=
  { world.setConn (p, world.next p) (some owned) with
    next := Function.update world.next p (world.next p + 1) }

/-- The process has handled a message. -/
def handled (world : World) (p : Nat) : World :=
  { world with inbox := Function.update world.inbox p (world.inbox p).tail }

def post (world : World) (p addr : Nat) (out : List Dispatch) : World :=
  { world with
    inbox := Function.update world.inbox p
      (world.inbox p ++ out.map fun message => (addr, message)) }

end World

/-- The wires once the request has gone through `sendBlock`, when there was memory for it. -/
def ask (wires : Wires) (e : Endpoint) (sent : Nat) : Option IMString → Wires
  | none => wires
  | some msg => wires.sendBlock e msg sent

/-- A connection that differs in its events only, where events of a broken one stay away. -/
structure Rests (before after : Connection) : Prop extends Follows before after where
  sid : after.sid = before.sid
  nid : after.nid = before.nid
  recv : after.recv = before.recv
  send : after.send = before.send

theorem Rests.refl (conn : Connection) : Rests conn conn :=
  ⟨.refl conn, rfl, rfl, rfl, rfl⟩

/-- A connection that has sent and received nothing. -/
structure Unused (owned : Owned) : Prop where
  recv : owned.conn.recv = .fresh
  send : owned.conn.send = .fresh
  queue : owned.queue = []
  cb : owned.conn.cb = none
  kept : Kept owned.conn
  starts : owned.conn.state = .STATE_NONE ∨ owned.conn.state = .STATE_AUTH

/-- A client that has sent and received nothing. -/
structure Client (owned : Owned) : Prop extends Unused owned where
  flag : owned.conn.flag = .conn_client
  plain : owned.conn.evs &&& AE_ACCEPTABLE = 0

/-- No other node has the connection of this one. -/
def Alone (world : World) (p : Nat) (node : Node) : Prop :=
  ∀ place other context, world.nodes (p, place) = some other → other.m_context = some context →
    node.m_context = some context → place = node.addr

/-- The world once a process has a new client. -/
def dialling (world : World) (p : Nat) (owned : Owned) : World :=
  { world.create p owned with wires := world.wires.dial (p, world.next p) }

/-- The new client of the process with its node. -/
def installed (world : World) (p : Nat) (owned left : Owned) (place : Nat) (node : Node) : World :=
  ((dialling world p owned).setConn (p, world.next p) (some left)).setNode (p, place) (some node)

/-- The new client takes the place of the context of the node. -/
def replaced (world : World) (p addr : Nat) (node : Node) (left : Owned) : World :=
  ((world.dropContext p node).setConn (p, addr) (some left)).setNode (p, node.addr)
    (some (attached node addr))

section Change
variable (proto : Proto)

/-- What a step does. Connections are broken, and nodes given up, between two callbacks only, when
no message is still to be handled. -/
inductive Change (world : World) : World → Prop
  /-- A socket that listens, or a client that has not heard from the other process. -/
  | opened {p : Nat} {owned : Owned} (unused : Unused owned)
      (flag : owned.conn.flag ≠ .conn_server) :
      Change world { world.create p owned with
        wires := if owned.conn.flag = .conn_client then world.wires.dial (p, world.next p)
          else world.wires }
  | joined {p : Nat} {caller : Endpoint} {owned : Owned} (unused : Unused owned)
      (flag : owned.conn.flag = .conn_server) (pending : world.wires.pending caller = true) :
      Change world { world.create p owned with
        wires := world.wires.join caller (p, world.next p) }
  | refused {caller : Endpoint} :
      Change world { world with wires := world.wires.refuse caller }
  | posted {e : Endpoint} {owned : Owned} {conn : Connection} {msg : IMString}
      (here : world.conns e = some owned) (rests : Rests owned.conn conn)
      (sound : Sound msg) (plain : Plain proto msg.bytes) :
      Change world (world.setConn e (some ⟨conn, owned.queue ++ [msg]⟩))
  | wrote {e : Endpoint} {owned : Owned} {conn : Connection} {outcomes : List SendResult}
      (here : world.conns e = some owned) (rests : Rests (owned.written outcomes).conn conn)
      (whole : world.wires.severed e = true →
        (write outcomes owned.queue owned.conn.send).accepted = []) :
      Change world { world.setConn e (some ⟨conn, (owned.written outcomes).queue⟩) with
        wires := world.wires.give e (write outcomes owned.queue owned.conn.send).accepted }
  | parsed {e : Endpoint} {owned : Owned} {event : ReadEvent} {recv : RecvPkt}
      {out : List Dispatch} (here : world.conns e = some owned)
      (registered : owned.conn.revent = true) (plain : owned.conn.evs &&& AE_ACCEPTABLE = 0)
      (arrived : world.wires.received e ++ (handed owned.conn.recv event).1 <+:
        world.wires.arrives e)
      (ended : readThenParse proto.toServiceID event owned.conn.recv =
        .ok (some (.parsed recv out))) :
      Change world { (world.setConn e (some ⟨{ owned.conn with recv := recv }, owned.queue⟩)).post
          e.1 e.2 out with
        wires := world.wires.receive e (handed owned.conn.recv event).1 }
  | broke {e : Endpoint} {owned : Owned} {recv : RecvPkt} {state : ConnState}
      (idle : world.inbox e.1 = []) (here : world.conns e = some owned)
      (registered : owned.conn.wevent = true ∨ owned.conn.evs &&& AE_ACCEPTABLE = 0)
      (broken : Broken state) :
      Change world ((world.notify e.1 owned.conn.cb state).setConn e
        (if owned.conn.flag = .conn_client then
          some ⟨withoutEvent (AE_READABLE ||| AE_WRITABLE)
            { owned.conn with recv := recv, state := state }, owned.queue⟩
        else none))
  /-- Bytes that were received before the failure. -/
  | spilt {e : Endpoint} {chunk : List Byte}
      (finished : ∀ owned, world.conns e = some owned → Broken owned.conn.state)
      (arrived : world.wires.received e ++ chunk <+: world.wires.arrives e) :
      Change world { world with wires := world.wires.receive e chunk }
  | counted {e : Endpoint} {node : Node} (here : world.nodes e = some node) :
      Change world (world.setNode e (some node.needReconnect.2))
  | launched {p place sent : Nat} {owned : Owned} {type : BitVec 16} {nid : BitVec 32}
      {ip : Address} {request : Option IMString} (client : Client owned)
      (absent : world.nodes (p, place) = none)
      (asks : ∀ msg, request = some msg → Parcel msg.bytes ∧
        IsRequest proto msg.bytes (type, nid)) :
      Change world { installed world p owned ⟨waiting owned.conn owned.conn.outBuffer type nid
          (some place), []⟩ place (serverNode place (world.next p) type nid ip) with
        wires := ask (world.wires.dial (p, world.next p)) (p, world.next p) sent request }
  | enlisted {p place : Nat} {owned : Owned} {sid : BitVec 16} {nid : BitVec 32} {node : Node}
      (client : Client owned) (absent : world.nodes (p, place) = none)
      (single : node.m_persist = false) :
      Change world (installed world p owned ⟨{ owned.conn with
        sid := sid, nid := nid, state := .STATE_CONNECTED }, []⟩ place node)
  | resumed {p outBuffer sent : Nat} {owned : Owned} {node : Node} {queue : List IMString}
      {request : Option IMString} (idle : world.inbox p = []) (client : Client owned)
      (found : world.nodes (p, node.addr) = some node) (persistent : node.m_persist = true)
      (alone : Alone world p node) (inherits : Inherits (world.objects p) node queue)
      (asks : ∀ msg, request = some msg → Parcel msg.bytes ∧
        IsRequest proto msg.bytes (node.m_type, node.m_id)) :
      Change world { replaced (dialling world p owned) p (world.next p) node ⟨waiting owned.conn
          outBuffer node.m_type node.m_id ((world.objects p).callbackOf node), queue⟩ with
        wires := ask (world.wires.dial (p, world.next p)) (p, world.next p) sent request }
  | removed {p : Nat} {node : Node} (idle : world.inbox p = [])
      (found : world.nodes (p, node.addr) = some node) (alone : Alone world p node) :
      Change world ((world.dropContext p node).setNode (p, node.addr) none)
  | skipped {p : Nat} : Change world (world.handled p)
  | answered {e : Endpoint} {owned : Owned} {message : Dispatch}
      {rest : List (Nat × Dispatch)} {ids : BitVec 16 × BitVec 32} {conn : Connection}
      {response : Option IMString} (head : world.inbox e.1 = (e.2, message) :: rest)
      (here : world.conns e = some owned)
      (asked : ∀ frame, message.msg = held frame [] → Parcel frame → IsRequest proto frame ids)
      (rests : Rests { owned.conn with sid := ids.1, nid := ids.2, state := .STATE_CONNECTED } conn)
      (answers : ∀ msg, response = some msg → Sound msg ∧ Parcel msg.bytes ∧
        IsResponse proto msg.bytes ids) :
      Change world ((world.handled e.1).setConn e (some ⟨conn, owned.queue ++ response.toList⟩))
  | confirmed {e : Endpoint} {owned : Owned} {message : Dispatch}
      {rest : List (Nat × Dispatch)} {node : Node} (head : world.inbox e.1 = (e.2, message) :: rest)
      (here : world.conns e = some owned) (found : world.nodes (e.1, node.addr) = some node)
      (responds : ∀ frame, message.msg = held frame [] → Parcel frame →
        IsResponse proto frame (node.m_type, node.m_id))
      (leads : ∀ place other, world.nodes (e.1, place) = some other → other.m_persist = true →
        (other.m_type, other.m_id) = (node.m_type, node.m_id) → other = node) :
      Change world (((world.handled e.1).setNode (e.1, node.addr)
        (some (node.setState .NODE_ABLE))).setConn e
          (some (inState .STATE_CONNECTED owned)))

abbrev Changes : World → World → Prop := Relation.ReflTransGen (Change proto)

end Change

/-! ### The tables of one process -/

section Objects
variable (world : World)

@[simp] theorem objects_setConn (p addr : Nat) (owned : Option Owned) :
    (world.setConn (p, addr) owned).objects p = (world.objects p).setConn addr owned := by
  simp only [World.objects, World.setConn, Objects.setConn, Objects.mk.injEq, and_true]
  funext other
  by_cases same : other = addr
  · rw [same, Function.update_self, Function.update_self]
  · rw [Function.update_of_ne same, Function.update_of_ne fun equal => same (Prod.mk.inj equal).2]

@[simp] theorem objects_setNode (p place : Nat) (node : Option Node) :
    (world.setNode (p, place) node).objects p = (world.objects p).setNode place node := by
  simp only [World.objects, World.setNode, Objects.setNode, Objects.mk.injEq, true_and]
  funext other
  by_cases same : other = place
  · rw [same, Function.update_self, Function.update_self]
  · rw [Function.update_of_ne same, Function.update_of_ne fun equal => same (Prod.mk.inj equal).2]

theorem objects_setConn_of_ne {p q : Nat} (apart : q ≠ p) (addr : Nat) (owned : Option Owned) :
    (world.setConn (p, addr) owned).objects q = world.objects q := by
  simp only [World.objects, World.setConn, Objects.mk.injEq, and_true]
  funext other
  exact Function.update_of_ne (fun equal => apart (Prod.mk.inj equal).1) ..

theorem objects_setNode_of_ne {p q : Nat} (apart : q ≠ p) (place : Nat) (node : Option Node) :
    (world.setNode (p, place) node).objects q = world.objects q := by
  simp only [World.objects, World.setNode, Objects.mk.injEq, true_and]
  funext other
  exact Function.update_of_ne (fun equal => apart (Prod.mk.inj equal).1) ..

@[simp] theorem objects_notify (p : Nat) (cb : Option Nat) (state : ConnState) :
    (world.notify p cb state).objects p = (world.objects p).notify cb state := by
  have conns := (world.objects p).notify_conns cb state
  have nodes := (world.objects p).notify_nodes cb state
  generalize (world.objects p).notify cb state = after at conns nodes
  obtain ⟨afterConns, afterNodes⟩ := after
  simp only [World.objects, World.notify, Objects.mk.injEq, true_and]
  refine ⟨conns.symm, ?_⟩
  funext place
  exact (nodes place).symm

theorem objects_notify_of_ne {p q : Nat} (apart : q ≠ p) (cb : Option Nat) (state : ConnState) :
    (world.notify p cb state).objects q = world.objects q := by
  simp only [World.objects, World.notify, apart, false_and, if_false]

@[simp] theorem objects_dropContext (p : Nat) (node : Node) :
    (world.dropContext p node).objects p = (world.objects p).dropContext node := by
  cases context : node.m_context with
  | none => simp only [World.dropContext, Objects.dropContext, context]
  | some old => simp only [World.dropContext, Objects.dropContext, context, objects_setConn]

end Objects

end SNFrame.System.Exchange
