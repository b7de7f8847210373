import SNFrame.Core.EventThread
import SNFrame.Library.Transition
import SNFrame.System.Arming
import SNFrame.System.Interleaving

/-! Which connections have been given a node id, and which of them `sendNode` finds. -/

namespace SNFrame.System.Identity
open Library.Octet Library.Table Library.Transition Base.PbBuf Core.Receiving Core.Sending
open Core.TcpParse Core.NetManager Core.EventThread
open Core.NodeMgr (Sys Node Proto ServerStatus Effect payload)
open Interleaving (Held idle_held step_held step_onward)
open Positions (New handlerHolds)
open Sight (View Sees)

/-- The call of `Connection::setNodeInfo` that the handler makes next, if it is one: the
connection and the node id. -/
def handlerInfo (sys : Sys) : Handler → Option (Nat × BitVec 32)
  | .reconnect _ place addr .setNodeInfo =>
      (sys.derefNode place).map fun node => (addr, node.m_id)
  | .registReq addr .setNodeInfo => some (addr, 0)
  | .addServer _ server addr (.setNodeInfo _) => some (addr, server.node_id)
  | _ => none

/-- The call of `setNodeInfo` that a step makes: by the handlers of the event thread, or by
`NodeMgr::AuthenticationReq` for a message of the connection. -/
def nodeInfo (proto : Proto) (machine : Machine) : Event → Option (Nat × BitVec 32)
  | .go _ =>
      match machine.call, machine.handler with
      | none, some handler => handlerInfo machine.sys handler
      | _, _ => none
  | .authenticationReq msg =>
      match machine.call, machine.handler, machine.loops with
      | none, none, .parse addr :: _ =>
          (proto.parseAuthenticationReq (payload msg)).map fun ids => (addr, ids.2)
      | _, _, _ => none
  | _ => none

/-- The event thread with the calls of `setNodeInfo` so far, the last one first. -/
structure Traced where
  machine : Machine
  infos : List (Nat × BitVec 32)

def traced (proto : Proto) (state : Traced) (event : Event) : Option Traced :=
  (step proto state.machine event).map fun next =>
    ⟨next, (nodeInfo proto state.machine event).toList ++ state.infos⟩

/-- The node id that a connection was given last; the constructor sets 0. -/
def label (infos : List (Nat × BitVec 32)) (addr : Nat) : BitVec 32 :=
  ((lookup Prod.fst addr infos).map Prod.snd).getD 0

/-- Each connection has the id that it was given. -/
structure Labelled (label : Nat → BitVec 32) (net : Net) : Prop where
  each : ∀ conn ∈ net.conns, conn.nid = label conn.addr
  below : ∀ conn ∈ net.conns, conn.addr < net.next
  fresh : ∀ addr, net.next ≤ addr → label addr = 0

/-! ### The operations of NetManager -/

section Operations
variable {label : Nat → BitVec 32} {net next : Net}

theorem Labelled.of_conns (labelled : Labelled label net) (conns : next.conns = net.conns)
    (same : next.next = net.next) : Labelled label next where
  each := conns ▸ labelled.each
  below := by rw [conns, same]; exact labelled.below
  fresh := by rw [same]; exact labelled.fresh

theorem Labelled.of_sublist (labelled : Labelled label net)
    (conns : ∀ conn ∈ next.conns, conn ∈ net.conns) (same : next.next = net.next) :
    Labelled label next where
  each conn inside := labelled.each conn (conns conn inside)
  below conn inside := by rw [same]; exact labelled.below conn (conns conn inside)
  fresh := by rw [same]; exact labelled.fresh

/-- The assignment keeps the pointer and the node id. -/
def KeepsId (f : Connection → Connection) : Prop :=
  ∀ conn, (f conn).addr = conn.addr ∧ (f conn).nid = conn.nid

theorem Labelled.assign (labelled : Labelled label net) (addr : Nat)
    {f : Connection → Connection} (keeps : KeepsId f) : Labelled label (net.assign addr f) where
  each conn inside := by
    obtain ⟨old, oldIn, rfl⟩ := mem_update.mp inside
    have here := labelled.each old oldIn
    split_ifs
    · rwa [(keeps old).1, (keeps old).2]
    · exact here
  below conn inside := by
    obtain ⟨old, oldIn, rfl⟩ := mem_update.mp inside
    have here := labelled.below old oldIn
    split_ifs
    · rwa [(keeps old).1]
    · exact here
  fresh := labelled.fresh

/-- `setNodeInfo`. -/
theorem Labelled.setNodeInfo (labelled : Labelled label net) {addr : Nat} {conn : Connection}
    (found : net.deref addr = some conn) (sid : BitVec 16) (nid : BitVec 32) :
    Labelled (Function.update label addr nid)
      (net.assign addr fun conn => { conn with sid := sid, nid := nid }) where
  each conn inside := by
    obtain ⟨old, oldIn, rfl⟩ := mem_update.mp inside
    by_cases same : old.addr = addr
    · rw [if_pos same, ← same, Function.update_self]
    · rw [if_neg same, Function.update_of_ne same]
      exact labelled.each old oldIn
  below conn inside := by
    obtain ⟨old, oldIn, rfl⟩ := mem_update.mp inside
    have here := labelled.below old oldIn
    split_ifs <;> exact here
  fresh other above := by
    obtain ⟨inside, rfl⟩ := mem_of_lookup found
    have under := labelled.below conn inside
    rw [Function.update_of_ne (by simp only [Net.assign] at above; omega)]
    exact labelled.fresh other above

theorem addEvent_keepsId (mask : BitVec 16) : KeepsId fun conn => conn.addEvent mask := by
  intro conn
  simp only [Connection.addEvent]
  split_ifs <;> exact ⟨rfl, rfl⟩

theorem Labelled.addFileEvent (labelled : Labelled label net) (fd : Int) (mask : BitVec 16) :
    Labelled label (net.addFileEvent fd mask) := by
  unfold Net.addFileEvent
  cases net.findFd fd with
  | none => exact labelled
  | some conn =>
    simp only
    split_ifs
    · exact labelled
    · exact labelled.assign _ fun conn => addEvent_keepsId mask _

theorem Labelled.delFileEvent (labelled : Labelled label net) (fd : Int) (mask : BitVec 16) :
    Labelled label (net.delFileEvent fd mask) := by
  unfold Net.delFileEvent
  cases net.findFd fd with
  | none => exact labelled
  | some conn =>
    simp only
    split_ifs
    · exact labelled.assign _ fun _ => ⟨rfl, rfl⟩
    · exact labelled

theorem Labelled.closeConnection (labelled : Labelled label net) (fd : Int) :
    Labelled label (net.closeConnection fd) := by
  unfold Net.closeConnection
  cases net.findFd fd with
  | none => exact labelled
  | some conn =>
    simp only
    split_ifs <;> exact labelled.of_sublist (fun other inside => (mem_remove.mp inside).1) rfl

theorem Labelled.create (labelled : Labelled label net) (fd : Int) :
    Labelled label (net.create fd) where
  each conn inside := by
    obtain old | new := List.mem_append.mp inside
    · exact labelled.each conn old
    · cases List.mem_singleton.mp new
      exact (labelled.fresh net.next le_rfl).symm
  below conn inside := by
    obtain old | new := List.mem_append.mp inside
    · exact (labelled.below conn old).trans (Nat.lt_succ_self _)
    · cases List.mem_singleton.mp new
      exact Nat.lt_succ_self _
  fresh addr above := labelled.fresh addr (Nat.le_of_succ_le above)

theorem Labelled.opened (labelled : Labelled label net) {fd : Int} {f : Connection → Connection}
    (keeps : KeepsId f) {both : Net × Option Nat}
    (done : Core.EventThread.opened net fd f = some both) : Labelled label both.1 := by
  unfold Core.EventThread.opened at done
  split_ifs at done
  · cases done
    exact (labelled.create fd).assign _ keeps
  · cases done
    exact labelled

theorem Labelled.sendFirst (labelled : Labelled label net) {isTarget : Connection → Bool}
    {arms : ConnState → Bool} {msg : IMString} {sent : Int × Net}
    (done : net.sendFirst isTarget arms msg = some sent) : Labelled label sent.2 := by
  unfold Net.sendFirst at done
  cases found : net.conns.find? isTarget with
  | none =>
    simp only [found] at done
    cases done
    exact labelled
  | some conn =>
    simp only [found] at done
    obtain ⟨pushed, push, rfl⟩ := Option.map_eq_some_iff.mp done
    obtain ⟨msgs, -, rfl⟩ := Option.map_eq_some_iff.mp push
    have after : Labelled label { net with
        queues := Function.update net.queues conn.outBuffer (some (msgs ++ [msg])) } :=
      labelled.of_conns rfl rfl
    simp only
    split_ifs
    · exact after.addFileEvent _ _
    · exact after

end Operations

/-! ### The calls of the event thread -/

/-- The labels after a call that may have been `setNodeInfo`. -/
def relabel (label : Nat → BitVec 32) : Option (Nat × BitVec 32) → Nat → BitVec 32
  | none => label
  | some (addr, nid) => Function.update label addr nid

section Calls
variable {label : Nat → BitVec 32} {sys after : Sys} {addr : Nat} {around : Surroundings}
  {proto : Proto} {progress : Progress}

theorem store_labelled (labelled : Labelled label sys.net) {f : Connection → Connection}
    (keeps : KeepsId f) (done : store sys addr f = some after) : Labelled label after.net := by
  obtain ⟨conn, -, rfl⟩ := Option.map_eq_some_iff.mp done
  exact labelled.assign addr keeps

theorem setNodeInfo_labelled (labelled : Labelled label sys.net) {sid : BitVec 16}
    {nid : BitVec 32}
    (done : store sys addr (fun conn => { conn with sid := sid, nid := nid }) = some after) :
    Labelled (relabel label (some (addr, nid))) after.net := by
  obtain ⟨conn, found, rfl⟩ := Option.map_eq_some_iff.mp done
  exact labelled.setNodeInfo found sid nid

theorem notifyNodeState_net {heap : Heap} {place : Nat} {state : ConnState}
    (done : sys.notifyNodeState heap place state = some after) : after.net = sys.net := by
  obtain ⟨node, -, rfl⟩ := Option.map_eq_some_iff.mp done
  dsimp only
  split_ifs <;> rfl

theorem setState_labelled (labelled : Labelled label sys.net) {heap : Heap} {state : ConnState}
    (done : sys.setState heap addr state = some after) : Labelled label after.net := by
  have assigned := labelled.assign addr (f := fun conn => { conn with state := state })
    fun _ => ⟨rfl, rfl⟩
  unfold Sys.setState at done
  cases found : sys.net.deref addr with
  | none => simp [found] at done
  | some conn =>
    simp only [found] at done
    split_ifs at done
    · cases back : conn.cb with
      | none =>
        rw [back] at done
        cases done
        exact assigned
      | some place =>
        rw [back] at done
        rw [notifyNodeState_net done]
        exact assigned
    · cases done
      exact assigned

theorem reply_labelled (labelled : Labelled label sys.net) {msg : Option IMString}
    (done : reply sys addr msg = some progress) : Labelled label progress.sys.net := by
  obtain ⟨conn, -, rest⟩ := Option.bind_eq_some_iff.mp done
  cases msg with
  | none =>
    cases rest
    exact labelled
  | some msg =>
    obtain ⟨sent, sends, rfl⟩ := Option.map_eq_some_iff.mp rest
    exact labelled.sendFirst sends

theorem request_labelled (labelled : Labelled label sys.net) {heap : Heap} {sid : BitVec 16}
    {nid : BitVec 32} {handler : Option Handler}
    (done : request proto heap sys addr sid nid handler = some progress) :
    Labelled label progress.sys.net := by
  obtain ⟨conn, -, rfl⟩ := Option.map_eq_some_iff.mp done
  simp only [Sys.requestAuthentication]
  split
  · exact labelled
  · exact labelled

theorem failCall_labelled (labelled : Labelled label sys.net) {next : Failing}
    (done : failCall around sys addr next = some progress) : Labelled label progress.sys.net := by
  cases next with
  | setState state =>
    obtain ⟨after, set, rfl⟩ := Option.map_eq_some_iff.mp done
    exact setState_labelled labelled set
  | delFileEvent =>
    obtain ⟨conn, -, rfl⟩ := Option.map_eq_some_iff.mp done
    exact labelled.delFileEvent _ _
  | closeConnection =>
    obtain ⟨conn, -, rfl⟩ := Option.map_eq_some_iff.mp done
    simp only [Progress.done]
    split_ifs
    · exact labelled.closeConnection _
    · exact labelled

theorem writeCall_labelled (labelled : Labelled label sys.net) {next : Draining}
    (done : writeCall sys addr next = some progress) : Labelled label progress.sys.net := by
  cases next with
  | empty =>
    obtain ⟨conn, -, rest⟩ := Option.bind_eq_some_iff.mp done
    obtain ⟨drained, -, rest⟩ := Option.bind_eq_some_iff.mp rest
    cases rest
    split_ifs <;> exact labelled
  | delFileEvent =>
    obtain ⟨conn, -, rfl⟩ := Option.map_eq_some_iff.mp done
    exact labelled.delFileEvent _ _

theorem reconnectCall_labelled (labelled : Labelled label sys.net) {sid : BitVec 16}
    {place : Nat} {node : Node} (found : sys.derefNode place = some node) {next : Reconnecting}
    {context : Option Nat}
    (done : reconnectCall proto around sys sid node addr next context = some progress) :
    Labelled (relabel label (handlerInfo sys (.reconnect sid place addr next)))
      progress.sys.net := by
  cases next with
  | request => exact request_labelled labelled done
  | setCache =>
    cases context with
    | none =>
      cases done
      exact labelled
    | some old =>
      obtain ⟨oldConn, -, rest⟩ := Option.bind_eq_some_iff.mp done
      obtain ⟨net, cached, rest⟩ := Option.bind_eq_some_iff.mp rest
      obtain ⟨conn, -, rfl⟩ := Option.map_eq_some_iff.mp cached
      cases rest
      have unqueued : Labelled label (sys.net.deleteQueue conn.outBuffer) := labelled.of_conns rfl rfl
      have cached := unqueued.assign addr (f := fun conn =>
        { conn with outBuffer := oldConn.outBuffer }) fun _ => ⟨rfl, rfl⟩
      exact cached.assign old (f := fun conn => { conn with cache := false }) fun _ => ⟨rfl, rfl⟩
  | setCb =>
    cases context with
    | none =>
      cases done
      exact labelled
    | some old =>
      obtain ⟨oldConn, -, rest⟩ := Option.bind_eq_some_iff.mp done
      obtain ⟨stored, store, rest⟩ := Option.bind_eq_some_iff.mp rest
      cases rest
      exact store_labelled labelled (by intro conn; exact ⟨rfl, rfl⟩) store
  | close =>
    cases context with
    | none =>
      cases done
      exact labelled
    | some old =>
      obtain ⟨oldConn, -, rfl⟩ := Option.map_eq_some_iff.mp done
      exact labelled.closeConnection _
  | setNodeInfo =>
    obtain ⟨stored, store, rfl⟩ := Option.map_eq_some_iff.mp done
    rw [handlerInfo, found, Option.map_some]
    exact setNodeInfo_labelled labelled store
  | setState =>
    obtain ⟨set, sets, rfl⟩ := Option.map_eq_some_iff.mp done
    exact setState_labelled labelled sets
  | attach =>
    cases done
    exact labelled

theorem registCall_labelled (labelled : Labelled label sys.net) {next : Registering}
    (done : registCall proto around sys addr next = some progress) :
    Labelled (relabel label (handlerInfo sys (.registReq addr next))) progress.sys.net := by
  cases next with
  | setNodeInfo =>
    obtain ⟨stored, store, rfl⟩ := Option.map_eq_some_iff.mp done
    exact setNodeInfo_labelled labelled store
  | setAddrs =>
    obtain ⟨-, rfl⟩ := setAddrs_eq done
    exact labelled
  | setState =>
    obtain ⟨set, sets, rfl⟩ := Option.map_eq_some_iff.mp done
    exact setState_labelled labelled sets
  | addNode =>
    obtain ⟨added, adds, done⟩ := Option.bind_eq_some_iff.mp done
    obtain ⟨ip, -, done⟩ := Option.bind_eq_some_iff.mp done
    cases done
    obtain ⟨services, -, rfl⟩ := Option.map_eq_some_iff.mp adds
    exact labelled
  | sendSock => exact reply_labelled labelled done

theorem addServerCall_labelled (labelled : Labelled label sys.net) {type : BitVec 16}
    {server : ServerStatus} {next : Announcing}
    (done : addServerCall proto around sys type server addr next = some progress) :
    Labelled (relabel label (handlerInfo sys (.addServer type server addr next)))
      progress.sys.net := by
  cases next with
  | addNode =>
    cases adds : sys.addNode type server.node_id with
    | none =>
      simp only [addServerCall, adds] at done
      cases done
      exact labelled
    | some added =>
      simp only [addServerCall, adds] at done
      obtain ⟨services, -, rfl⟩ := Option.map_eq_some_iff.mp adds
      cases done
      exact labelled
  | setNodeInfo node =>
    obtain ⟨stored, store, rfl⟩ := Option.map_eq_some_iff.mp done
    exact setNodeInfo_labelled labelled store
  | setAddrs node =>
    obtain ⟨-, rfl⟩ := setAddrs_eq done
    exact labelled
  | setState node =>
    obtain ⟨set, sets, rfl⟩ := Option.map_eq_some_iff.mp done
    exact setState_labelled labelled sets
  | setCb node =>
    obtain ⟨stored, store, rfl⟩ := Option.map_eq_some_iff.mp done
    exact store_labelled labelled (by intro conn; exact ⟨rfl, rfl⟩) store
  | attach node =>
    obtain ⟨ip, -, rfl⟩ := Option.map_eq_some_iff.mp done
    exact labelled
  | request => exact request_labelled labelled done

theorem closeContext_labelled (labelled : Labelled label sys.net) {old : Option Nat}
    (done : sys.closeContext old = some after) : Labelled label after.net := by
  cases old with
  | none =>
    cases done
    exact labelled
  | some old =>
    obtain ⟨oldConn, -, rfl⟩ := Option.map_eq_some_iff.mp done
    exact labelled.closeConnection _

theorem client_keepsId : KeepsId client := fun _ => ⟨rfl, rfl⟩

theorem server_keepsId : KeepsId server := fun _ => ⟨rfl, rfl⟩

theorem handlerCall_labelled (labelled : Labelled label sys.net) {handler : Handler}
    (done : handlerCall proto around sys handler = some progress) :
    Labelled (relabel label (handlerInfo sys handler)) progress.sys.net := by
  cases handler with
  | fail addr next => exact failCall_labelled labelled done
  | write addr next => exact writeCall_labelled labelled done
  | authenticationReq addr sid nid next =>
    cases next with
    | setState =>
      obtain ⟨set, sets, rfl⟩ := Option.map_eq_some_iff.mp done
      exact setState_labelled labelled sets
    | sendSock => exact reply_labelled labelled done
  | authenticationRsp addr =>
    obtain ⟨set, sets, rfl⟩ := Option.map_eq_some_iff.mp done
    exact setState_labelled labelled sets
  | reconnect sid place addr next =>
    obtain ⟨node, found, call⟩ := Option.bind_eq_some_iff.mp done
    exact reconnectCall_labelled labelled found call
  | giveUp sid old =>
    obtain ⟨closed, closes, rfl⟩ := Option.map_eq_some_iff.mp done
    have kept := closeContext_labelled labelled closes
    split_ifs <;> exact kept
  | init =>
    simp only [handlerCall, Option.some.injEq] at done
    subst done
    split_ifs <;> exact labelled
  | connect tries =>
    cases tries with
    | zero =>
      cases done
      exact labelled
    | succ tries =>
      obtain ⟨⟨net, conn⟩, opens, rest⟩ := Option.bind_eq_some_iff.mp done
      have kept := labelled.opened client_keepsId opens
      cases conn <;> cases rest <;> exact kept
  | registReq addr next => exact registCall_labelled labelled done
  | addServer type server addr next => exact addServerCall_labelled labelled done

theorem visit_labelled (labelled : Labelled label sys.net) {sid : BitVec 16} {place : Nat}
    (done : visit around sys sid place = some progress) : Labelled label progress.sys.net := by
  obtain ⟨node, -, rest⟩ := Option.bind_eq_some_iff.mp done
  split_ifs at rest
  · obtain ⟨⟨net, conn⟩, opens, rest⟩ := Option.bind_eq_some_iff.mp rest
    have kept := labelled.opened client_keepsId opens
    cases conn <;> cases rest <;> exact kept
  · cases rest
    exact labelled
  · cases rest
    exact labelled

theorem announce_labelled (labelled : Labelled label sys.net) {type : BitVec 16}
    {server : ServerStatus} {each : Progress × Bool}
    (done : announce around sys type server = some each) : Labelled label each.1.sys.net := by
  unfold announce at done
  split_ifs at done
  · cases done
    exact labelled
  · obtain ⟨⟨net, conn⟩, opens, rest⟩ := Option.bind_eq_some_iff.mp done
    have kept := labelled.opened client_keepsId opens
    cases conn <;> cases rest <;> exact kept

end Calls

/-! ### The steps -/

section Steps
variable {label : Nat → BitVec 32} {proto : Proto} {machine next : Machine}

theorem writeConn_labelled {net : Net} (labelled : Labelled label net) {addr : Nat}
    {outcomes : List SendResult} {written : Net × Option IoResult × List Byte}
    (done : net.writeConn addr outcomes = some written) : Labelled label written.1 := by
  obtain ⟨conn, -, rest⟩ := Option.bind_eq_some_iff.mp done
  obtain ⟨queue, -, rest⟩ := Option.bind_eq_some_iff.mp rest
  cases rest
  let queues := Function.update net.queues conn.outBuffer
    (some (Core.Sending.write outcomes queue conn.send).queue)
  have queued : Labelled label { net with queues := queues } := labelled.of_conns rfl rfl
  exact queued.assign addr (f := fun other =>
    { other with send := (Core.Sending.write outcomes queue conn.send).send }) fun _ => ⟨rfl, rfl⟩

theorem sender_labelled (labelled : Labelled label machine.sys.net)
    {isTarget : Connection → Bool} {arms : ConnState → Bool} {msg : IMString}
    (done : machine.sender (machine.sys.net.sendFirst isTarget arms msg) = some next) :
    Labelled label next.sys.net := by
  obtain ⟨sent, sends, rfl⟩ := Option.map_eq_some_iff.mp done
  exact labelled.sendFirst sends

theorem sendBlock_sys (machine : Machine) (outcome : SendResult) (addr : Nat) (msg : IMString)
    (pos : Nat) : (machine.sendBlock outcome addr msg pos).sys = machine.sys := by
  unfold Machine.sendBlock
  split_ifs
  · rfl
  · cases outcome with
    | sent count =>
      dsimp only
      split_ifs <;> rfl
    | failed errno => cases errno <;> rfl

theorem go_labelled (labelled : Labelled label machine.sys.net) {around : Surroundings}
    (done : machine.go proto around = some next) :
    Labelled (relabel label (nodeInfo proto machine (.go around))) next.sys.net := by
  obtain ⟨sys, call, handler, loops, given, complete⟩ := machine
  cases call with
  | some call =>
    cases call with
    | addFileEvent fd mask =>
      cases done
      exact labelled.addFileEvent fd mask
    | sendBlock addr msg pos =>
      cases done
      rw [sendBlock_sys]
      exact labelled
  | none =>
    cases handler with
    | some handler =>
      obtain ⟨progress, called, rfl⟩ := Option.map_eq_some_iff.mp done
      exact handlerCall_labelled labelled called
    | none =>
      cases loops with
      | nil => cases done
      | cons loop rest =>
        cases loop with
        | parse addr => cases done
        | checkState sid places =>
          cases places with
          | nil =>
            cases done
            exact labelled
          | cons place places =>
            obtain ⟨progress, visited, rfl⟩ := Option.map_eq_some_iff.mp done
            exact visit_labelled labelled visited
        | srvinfoBroadcast servers =>
          cases servers with
          | nil =>
            cases done
            exact labelled
          | cons server servers =>
            obtain ⟨⟨progress, more⟩, announced, rfl⟩ := Option.map_eq_some_iff.mp done
            exact announce_labelled labelled announced

theorem begin_labelled (labelled : Labelled label machine.sys.net) {event : Event}
    (done : machine.begin proto event = some next) : Labelled label next.sys.net := by
  cases event with
  | listen fd =>
    obtain ⟨both, opens, rfl⟩ := Option.map_eq_some_iff.mp done
    exact labelled.opened (f := id) (fun _ => ⟨rfl, rfl⟩) opens
  | accept event =>
    simp only [Machine.begin] at done
    split_ifs at done with possible
    · obtain ⟨both, opens, rfl⟩ := Option.map_eq_some_iff.mp done
      exact labelled.opened server_keepsId opens
    · cases done
      exact labelled
  | read addr event =>
    obtain ⟨conn, -, done⟩ := Option.bind_eq_some_iff.mp done
    have received : ∀ recv, Labelled label
        (machine.sys.net.assign addr fun conn => { conn with recv := recv }) :=
      fun recv => labelled.assign addr fun _ => ⟨rfl, rfl⟩
    dsimp only at done
    split_ifs at done with guard
    split at done
    · next recv out parsed =>
      cases done
      exact received recv
    · next recv state failed =>
      cases done
      exact received recv
    · cases done
  | write addr outcomes =>
    obtain ⟨conn, -, done⟩ := Option.bind_eq_some_iff.mp done
    obtain ⟨⟨net, result, accepted⟩, written, done⟩ := Option.bind_eq_some_iff.mp done
    have sent := writeConn_labelled labelled written
    dsimp only at done
    split_ifs at done with registered
    cases result with
    | none => cases done
    | some result => cases result <;> cases done <;> exact sent
  | checkState service =>
    obtain ⟨snode, -, rfl⟩ := Option.map_eq_some_iff.mp done
    exact labelled
  | registReq =>
    cases done
    exact labelled
  | sendSock | sendNode | sendDb | sendState | authenticationReq | authenticationRsp
  | srvinfoBroadcast | parsed | go => cases done

theorem message_labelled (labelled : Labelled label machine.sys.net) {addr : Nat}
    {rest : List Loop} (noCall : machine.call = none) (noHandler : machine.handler = none)
    (inParse : machine.loops = .parse addr :: rest) {event : Event}
    (done : machine.message proto addr rest event = some next) :
    Labelled (relabel label (nodeInfo proto machine event)) next.sys.net := by
  cases event with
  | authenticationReq msg =>
    simp only [nodeInfo, noCall, noHandler, inParse]
    cases parsed : proto.parseAuthenticationReq (payload msg) with
    | none =>
      simp only [Machine.message, parsed] at done
      cases done
      exact labelled
    | some ids =>
      simp only [Machine.message, parsed] at done
      obtain ⟨stored, stores, rfl⟩ := Option.map_eq_some_iff.mp done
      exact setNodeInfo_labelled labelled stores
  | authenticationRsp msg =>
    cases parsed : proto.parseAuthenticationRsp (payload msg) with
    | none =>
      simp only [Machine.message, parsed] at done
      cases done
      exact labelled
    | some ids =>
      simp only [Machine.message, parsed, Option.some.injEq] at done
      subst done
      cases machine.sys.findNode ids.1 ids.2 with
      | none => exact labelled
      | some node => exact labelled
  | srvinfoBroadcast msg =>
    cases parsed : proto.parseStatusPush (payload msg) with
    | none =>
      simp only [Machine.message, parsed] at done
      cases done
      exact labelled
    | some servers =>
      simp only [Machine.message, parsed] at done
      cases done
      exact labelled
  | parsed =>
    cases done
    exact labelled
  | sendSock | sendNode | sendDb | sendState | listen | accept | read | write | checkState
  | registReq | go => cases done

theorem step_labelled (labelled : Labelled label machine.sys.net) {event : Event}
    (done : step proto machine event = some next) :
    Labelled (relabel label (nodeInfo proto machine event)) next.sys.net := by
  cases event with
  | sendSock msg fd => exact sender_labelled labelled done
  | sendNode msg nid => exact sender_labelled labelled done
  | sendDb msg => exact sender_labelled labelled done
  | sendState msg => exact sender_labelled labelled done
  | go around => exact go_labelled labelled done
  | authenticationReq msg =>
    simp only [step] at done
    split at done
    · cases done
    · next noCall noHandler inParse =>
      exact message_labelled labelled noCall noHandler inParse done
    · cases done
  | listen | accept | read | write | checkState | registReq | authenticationRsp
  | srvinfoBroadcast | parsed =>
    simp only [step] at done
    split at done
    · exact begin_labelled labelled done
    · next noCall noHandler inParse =>
      exact message_labelled labelled noCall noHandler inParse done
    · cases done

end Steps

/-! ### The nodes that `sendNode` finds -/

/-- The connection has been given a node id. -/
def Identified (infos : List (Nat × BitVec 32)) (addr : Nat) : Prop := ∃ nid, (addr, nid) ∈ infos

/-- A message that `sendNode` takes is at the end of the queue of the connection that it finds,
and this connection was given that node id. -/
def ToIdentified (state : Traced) (event : Event) : Prop :=
  ∀ msg nid next, event = .sendNode msg nid →
    state.machine.sys.net.sendNode msg nid = some (0, next) →
    ∃ conn msgs, state.machine.sys.net.conns.find? (·.nid = nid) = some conn ∧
      state.machine.sys.net.queues conn.outBuffer = some msgs ∧
      next.queues conn.outBuffer = some (msgs ++ [msg]) ∧ (conn.addr, nid) ∈ state.infos

/-- Every connection that was never given a node id stands behind one that was given the id 0,
when the message is for the node 0. -/
def Guarded (state : Traced) (event : Event) : Prop :=
  ∀ msg, event = .sendNode msg 0 → ∀ before conn after,
    state.machine.sys.net.conns = before ++ conn :: after → ¬Identified state.infos conn.addr →
    ∃ other ∈ before, other.nid = 0 ∧ (other.addr, 0) ∈ state.infos

def beginning (types : List (BitVec 16)) : Traced := ⟨.idle (Supervision.start types), []⟩

theorem relabel_label (infos : List (Nat × BitVec 32)) (info : Option (Nat × BitVec 32)) :
    relabel (label infos) info = label (info.toList ++ infos) := by
  cases info with
  | none => rfl
  | some info =>
    obtain ⟨addr, nid⟩ := info
    funext other
    by_cases same : other = addr
    · simp [relabel, label, lookup, same]
    · simp [relabel, label, lookup, same, Ne.symm same]

section Labels
variable {infos : List (Nat × BitVec 32)} {addr : Nat}

theorem mem_of_label (identified : Identified infos addr) : (addr, label infos addr) ∈ infos := by
  obtain ⟨nid, inside⟩ := identified
  obtain ⟨info, found⟩ : ∃ info, lookup Prod.fst addr infos = some info :=
    Option.isSome_iff_exists.mp (List.find?_isSome.mpr ⟨_, inside, decide_eq_true rfl⟩)
  obtain ⟨here, rfl⟩ := mem_of_lookup found
  rw [label, found]
  exact here

theorem label_of_unidentified (never : ¬Identified infos addr) : label infos addr = 0 := by
  cases found : lookup Prod.fst addr infos with
  | none => rw [label, found, Option.map_none, Option.getD_none]
  | some info =>
    obtain ⟨here, rfl⟩ := mem_of_lookup found
    exact absurd ⟨info.2, here⟩ never

end Labels

theorem traced_labelled {proto : Proto} {state next : Traced} {event : Event}
    (labelled : Labelled (label state.infos) state.machine.sys.net)
    (done : traced proto state event = some next) :
    Labelled (label next.infos) next.machine.sys.net := by
  obtain ⟨machine, stepped, rfl⟩ := Option.map_eq_some_iff.mp done
  have after := step_labelled labelled stepped
  rwa [relabel_label] at after

theorem beginning_labelled (types : List (BitVec 16)) :
    Labelled (label (beginning types).infos) (beginning types).machine.sys.net := by
  constructor <;> simp [beginning, Machine.idle, Supervision.start, Net.empty, label, lookup]

theorem run_labelled {proto : Proto} {types : List (BitVec 16)} {events : List Event}
    {state : Traced} (reached : run (traced proto) (beginning types) events = some state) :
    Labelled (label state.infos) state.machine.sys.net :=
  run_invariant (fun state : Traced => Labelled (label state.infos) state.machine.sys.net)
    (fun _ _ _ labelled done => traced_labelled labelled done) (beginning_labelled types) reached

section Searches
variable {net next : Net} {msg : IMString} {nid : BitVec 32} {answer : Int}

theorem addFileEvent_queues (net : Net) (fd : Int) (mask : BitVec 16) :
    (net.addFileEvent fd mask).queues = net.queues := by
  unfold Net.addFileEvent
  cases net.findFd fd with
  | none => rfl
  | some conn =>
    dsimp only
    split_ifs <;> rfl

/-- `sendNode` returns 0 exactly when its search finds a connection, and has then pushed. -/
theorem sendNode_found (sent : net.sendNode msg nid = some (answer, next)) {conn : Connection}
    (found : net.conns.find? (·.nid = nid) = some conn) :
    answer = 0 ∧ ∃ msgs, net.queues conn.outBuffer = some msgs ∧
      next.queues conn.outBuffer = some (msgs ++ [msg]) := by
  simp only [Net.sendNode, Net.sendFirst, found] at sent
  obtain ⟨pushed, push, same⟩ := Option.map_eq_some_iff.mp sent
  obtain ⟨msgs, queued, rfl⟩ := Option.map_eq_some_iff.mp push
  cases same
  refine ⟨rfl, msgs, queued, ?_⟩
  split_ifs
  · rw [addFileEvent_queues]
    exact Function.update_self ..
  · exact Function.update_self ..

theorem exists_found (sent : net.sendNode msg nid = some (0, next)) :
    ∃ conn, net.conns.find? (·.nid = nid) = some conn := by
  cases found : net.conns.find? (·.nid = nid) with
  | none =>
    simp only [Net.sendNode, Net.sendFirst, found] at sent
    cases sent
  | some conn => exact ⟨conn, rfl⟩

end Searches

/-- At a step that is taken the two conditions agree. -/
theorem toIdentified_iff {proto : Proto} {state next : Traced} {event : Event}
    (labelled : Labelled (label state.infos) state.machine.sys.net)
    (done : traced proto state event = some next) :
    ToIdentified state event ↔ Guarded state event := by
  constructor
  · rintro reaches msg rfl before conn after split never
    obtain ⟨machine, stepped, -⟩ := Option.map_eq_some_iff.mp done
    obtain ⟨⟨answer, net⟩, sent, -⟩ := Option.map_eq_some_iff.mp stepped
    have inside : conn ∈ state.machine.sys.net.conns := by
      rw [split]
      exact List.mem_append_cons_self
    have zero : conn.nid = 0 := by
      rw [labelled.each conn inside, label_of_unidentified never]
    obtain ⟨first, found⟩ : ∃ first, state.machine.sys.net.conns.find? (·.nid = 0) = some first :=
      Option.isSome_iff_exists.mp (List.find?_isSome.mpr ⟨conn, inside, decide_eq_true zero⟩)
    obtain ⟨rfl, -⟩ := sendNode_found sent found
    obtain ⟨other, msgs, found', -, -, given⟩ := reaches msg 0 net rfl sent
    cases found.symm.trans found'
    have apart : conn ≠ first := by
      rintro rfl
      exact never ⟨0, given⟩
    exact ⟨first, mem_before_of_find? found split (decide_eq_true zero) apart,
      by simpa using List.find?_some found, given⟩
  · rintro guarded msg nid net rfl sent
    obtain ⟨conn, found⟩ := exists_found sent
    obtain ⟨-, msgs, queued, grown⟩ := sendNode_found sent found
    have same : conn.nid = nid := by simpa using List.find?_some found
    have here := labelled.each conn (List.mem_of_find?_eq_some found)
    refine ⟨conn, msgs, found, queued, grown, ?_⟩
    by_cases identified : Identified state.infos conn.addr
    · rw [← same, here]
      exact mem_of_label identified
    · have zero : nid = 0 := by rw [← same, here, label_of_unidentified identified]
      subst zero
      obtain ⟨-, before, after, split, earlier⟩ := List.find?_eq_some_iff_append.mp found
      obtain ⟨other, inside, zero, -⟩ := guarded msg rfl before conn after split identified
      have differs := earlier other inside
      simp [zero] at differs

/-- In a run of the program `sendNode` reaches only connections that were given the node id that it
looks for, exactly if no message for the node 0 meets a connection without an id that stands in
front of those with the id 0. -/
theorem reaches_identified_iff (proto : Proto) (types : List (BitVec 16)) (events : List Event)
    {finish : Traced} (reached : run (traced proto) (beginning types) events = some finish) :
    Throughout (traced proto) ToIdentified (beginning types) events ↔
      Throughout (traced proto) Guarded (beginning types) events := by
  apply throughout_iff_of_reached fun state : Traced =>
    Labelled (label state.infos) state.machine.sys.net
  · intro state event next labelled _ done
    exact traced_labelled labelled done
  · intro state event next labelled done
    exact toIdentified_iff labelled done
  · exact beginning_labelled types
  · exact reached

def calm : Surroundings := ⟨0, ⟨true, fun _ => 0⟩, false, [], .sent 0⟩

/-- The program listens. -/
def listening : List Event := [.listen 3, .go calm]

/-- There is nothing to read, and `parse` is called all the same. -/
def nothingToRead : ReadEvent := ⟨[.failed .EAGAIN], fun _ => ⟨⟨true, fun _ => 0⟩, 0⟩, 1⟩

/-- A server connects and authenticates itself as the node 7. -/
def authenticated : List Event :=
  listening ++ [.accept ⟨7, true, true⟩, .go calm, .read 1 nothingToRead,
    .authenticationReq (Arming.withBody [8, 1, 16, 7]), .go calm, .go calm, .parsed]

theorem reaches_identified_iff_authenticated :
    (∃ middle net, run (traced Arming.smallMessages) (beginning []) authenticated = some middle ∧
        middle.machine.sys.net.sendNode .null 7 = some (0, net)) ∧
      (Throughout (traced Arming.smallMessages) ToIdentified (beginning [])
          (authenticated ++ [.sendNode .null 7]) ↔
        Throughout (traced Arming.smallMessages) Guarded (beginning [])
          (authenticated ++ [.sendNode .null 7])) := by
  have answers : (run (traced Arming.smallMessages) (beginning []) authenticated).map (fun state =>
      (state.machine.sys.net.sendNode .null 7).map Prod.fst) = some (some 0) := by
    decide +kernel
  have runs : (run (traced Arming.smallMessages) (beginning [])
      (authenticated ++ [.sendNode .null 7])).isSome = true := by
    decide +kernel
  obtain ⟨middle, reached, answered⟩ := Option.map_eq_some_iff.mp answers
  obtain ⟨⟨answer, net⟩, sent, zero⟩ := Option.map_eq_some_iff.mp answered
  cases zero
  obtain ⟨finish, through⟩ := Option.isSome_iff_exists.mp runs
  exact ⟨⟨middle, net, reached, sent⟩,
    reaches_identified_iff Arming.smallMessages [] _ through⟩

/-- A message for the node 0 is queued on the listening connection, and `sendNode` returns 0. -/
theorem listening_takes_message :
    (∃ middle net, run (traced Arming.smallMessages) (beginning []) listening = some middle ∧
        middle.machine.sys.net.sendNode .null 0 = some (0, net) ∧ middle.infos = []) ∧
      ¬Throughout (traced Arming.smallMessages) ToIdentified (beginning [])
        (listening ++ [.sendNode .null 0]) := by
  have runs : (run (traced Arming.smallMessages) (beginning []) listening).map (fun state =>
      (state.infos, (state.machine.sys.net.sendNode .null 0).map Prod.fst)) =
      some ([], some 0) := by
    decide +kernel
  obtain ⟨middle, reached, same⟩ := Option.map_eq_some_iff.mp runs
  obtain ⟨infos, answers⟩ := Prod.mk.inj same
  obtain ⟨⟨answer, net⟩, sent, zero⟩ := Option.map_eq_some_iff.mp answers
  cases zero
  refine ⟨⟨middle, net, reached, sent, infos⟩, fun all => ?_⟩
  obtain ⟨conn, msgs, -, -, -, given⟩ := condition_of_throughout all reached .null 0 net rfl sent
  rw [infos] at given
  cases given

/-! ### Who takes a message -/

section Peers
variable {proto : Proto} {machine next : Machine} {event : Event} {addr : Nat} {nid : BitVec 32}

/-- A connection for which `setNodeInfo` is called at this event: the program has opened it by
`connect`, or has accepted it and is in `NodeMgr::AuthenticationReq` for one of its messages. -/
def Addressed (machine : Machine) (event : Event) (addr : Nat) : Prop :=
  addr < machine.sys.net.next ∧ ∀ conn, machine.sys.net.deref addr = some conn →
    conn.flag ≠ .unset ∧ (conn.flag = .conn_server → ∃ msg, event = .authenticationReq msg)

/-- Only `connect` and `accept` set the flag, and they set it for the connection that they open. -/
theorem Addressed.step {given : Event} (addressed : Addressed machine given addr)
    (held : Held machine) (done : step proto machine event = some next) :
    Addressed next given addr := by
  obtain ⟨used, flags⟩ := addressed
  obtain ⟨view, sees, stands⟩ := held
  obtain ⟨after, seesNext, -, released⟩ := step_onward sees stands done
  rw [sees.next] at used
  refine ⟨seesNext.next ▸ used.trans_le released.used, fun conn there => ?_⟩
  obtain ⟨old, here, same⟩ := released.flags addr conn used (seesNext.net.of_deref there)
  rw [same]
  exact flags old (sees.net.deref here)

/-- The connection of a handler is a new client. -/
theorem handlerInfo_addressed {view : View} (sees : Sees machine.sys view) {handler : Handler}
    (ready : handlerHolds view handler)
    (info : handlerInfo machine.sys handler = some (addr, nid)) :
    Addressed machine event addr := by
  have client (owner : Option Nat) (new : New view addr owner) : Addressed machine event addr := by
    refine ⟨sees.next ▸ new.below, fun conn found => ?_⟩
    rw [new.client conn (sees.net.of_deref found)]
    exact ⟨nofun, nofun⟩
  cases handler with
  | reconnect sid place other next =>
    cases next with
    | setNodeInfo =>
      obtain ⟨node, -, same⟩ := Option.map_eq_some_iff.mp info
      cases same
      exact client _ ready.1
    | request | setCache | setCb | close | setState | attach => cases info
  | registReq other next =>
    cases next with
    | setNodeInfo =>
      cases info
      exact client _ ready
    | setAddrs | setState | addNode | sendSock => cases info
  | addServer type server other next =>
    cases next with
    | setNodeInfo node =>
      cases info
      exact client _ ready.1
    | addNode | setAddrs | setState | setCb | attach | request => cases info
  | fail | write | authenticationReq | authenticationRsp | giveUp | init | connect => cases info

theorem nodeInfo_addressed (held : Held machine) (done : step proto machine event = some next)
    (info : nodeInfo proto machine event = some (addr, nid)) : Addressed machine event addr := by
  obtain ⟨view, sees, stands⟩ := held
  cases event with
  | go around =>
    simp only [nodeInfo] at info
    split at info
    · next handler noCall inHandler =>
      exact handlerInfo_addressed sees (stands.ready handler inHandler) info
    · cases info
  | authenticationReq msg =>
    simp only [nodeInfo] at info
    split at info
    · next noCall noHandler inParse =>
      obtain ⟨ids, parsed, same⟩ := Option.map_eq_some_iff.mp info
      cases same
      have usable := stands.usable addr (inParse ▸ List.mem_cons_self)
      simp only [step, noCall, noHandler, inParse, Machine.message, parsed] at done
      obtain ⟨stored, stores, -⟩ := Option.map_eq_some_iff.mp done
      obtain ⟨conn, found, -⟩ := Option.map_eq_some_iff.mp stores
      refine ⟨sees.next ▸ sees.net.lt_next (sees.net.of_deref found), fun other there => ?_⟩
      obtain ⟨-, -, set⟩ := usable other (sees.net.of_deref there)
      exact ⟨set, fun _ => ⟨msg, rfl⟩⟩
    · cases info
  | listen | accept | read | write | checkState | registReq | authenticationRsp
  | srvinfoBroadcast | parsed | sendSock | sendNode | sendDb | sendState => cases info

/-- The run calls `setNodeInfo` with the connection and the node id at this event. -/
def Gives (proto : Proto) (start : Traced) (events : List Event) (info : Nat × BitVec 32)
    (event : Event) : Prop :=
  ∃ before after middle, events = before ++ event :: after ∧
    run (traced proto) start before = some middle ∧ nodeInfo proto middle.machine event = some info

theorem Gives.append {start : Traced} {events : List Event} {info : Nat × BitVec 32}
    (gives : Gives proto start events info event) (more : List Event) :
    Gives proto start (events ++ more) info event := by
  obtain ⟨before, after, middle, rfl, reached, info⟩ := gives
  exact ⟨before, after ++ more, middle, by simp, reached, info⟩

theorem traced_held {types : List (BitVec 16)} {events : List Event} {state : Traced}
    (reached : run (traced proto) (beginning types) events = some state) : Held state.machine := by
  apply run_invariant (fun state : Traced => Held state.machine) ?_ (idle_held types) reached
  intro state event next held done
  obtain ⟨machine, stepped, rfl⟩ := Option.map_eq_some_iff.mp done
  exact step_held held stepped

/-- Every id was given by a call that may give it. -/
theorem exists_gives {types : List (BitVec 16)} {events : List Event} {state : Traced}
    (reached : run (traced proto) (beginning types) events = some state)
    (given : (addr, nid) ∈ state.infos) :
    ∃ event, Gives proto (beginning types) events (addr, nid) event ∧
      Addressed state.machine event addr := by
  induction events using List.reverseRecOn generalizing state with
  | nil =>
    cases reached
    cases given
  | append_singleton events event ih =>
    obtain ⟨middle, before, last⟩ := run_append.mp reached
    obtain ⟨after, done, same⟩ := run_cons.mp last
    cases same
    obtain ⟨machine, stepped, rfl⟩ := Option.map_eq_some_iff.mp done
    have held := traced_held before
    rcases List.mem_append.mp given with here | earlier
    · have info := Option.mem_toList.mp here
      have addressed := nodeInfo_addressed held stepped info
      exact ⟨event, ⟨events, [], middle, rfl, before, info⟩, addressed.step held stepped⟩
    · obtain ⟨first, gives, addressed⟩ := ih before earlier
      exact ⟨first, gives.append [event], addressed.step held stepped⟩

end Peers

/-- When the condition is met, the connection that takes a message is neither one that listens,
which has no flag and may have AE_ACCEPTABLE, nor one that has been accepted and has not
authenticated itself with that node id. -/
theorem taken_by_peer (proto : Proto) (types : List (BitVec 16)) (events : List Event)
    {state : Traced} {msg : IMString} {nid : BitVec 32} {next : Net}
    (reached : run (traced proto) (beginning types) events = some state)
    (guarded : Guarded state (.sendNode msg nid))
    (sent : state.machine.sys.net.sendNode msg nid = some (0, next)) :
    ∃ conn msgs, state.machine.sys.net.conns.find? (·.nid = nid) = some conn ∧
      state.machine.sys.net.queues conn.outBuffer = some msgs ∧
      next.queues conn.outBuffer = some (msgs ++ [msg]) ∧
      conn.flag ≠ .unset ∧ conn.evs &&& AE_ACCEPTABLE = 0 ∧
      ∃ event, Gives proto (beginning types) events (conn.addr, nid) event ∧
        (conn.flag = .conn_server → ∃ request, event = .authenticationReq request) := by
  have done : traced proto state (.sendNode msg nid) = some
      ⟨{ state.machine with sys := { state.machine.sys with net := next } }, state.infos⟩ := by
    simp [traced, step, Machine.sender, sent, nodeInfo]
  have reaches := (toIdentified_iff (run_labelled reached) done).mpr guarded
  obtain ⟨conn, msgs, found, queued, grown, given⟩ := reaches msg nid next rfl sent
  obtain ⟨event, gives, -, flags⟩ := exists_gives reached given
  obtain ⟨view, sees, stands⟩ := traced_held reached
  have here := sees.net.of_mem (List.mem_of_find?_eq_some found)
  obtain ⟨set, server⟩ := flags conn (sees.net.deref here)
  refine ⟨conn, msgs, found, queued, grown, set, ?_, event, gives, server⟩
  by_contra listens
  exact set ((stands.sane.kept conn.addr conn here).listening listens).2.2

end SNFrame.System.Identity
