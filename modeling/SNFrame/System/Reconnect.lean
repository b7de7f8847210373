import SNFrame.Send.SendStream
import SNFrame.System.Arming

/-! What a reconnect carries over. The new connection sends what was in the queue of the old
one, and not the message that the old one had begun. -/

namespace SNFrame.System.Reconnect
open Library.Octet Library.Transition Library.Table Base.PbBuf Core.Receiving Core.Sending
open Core.TcpParse Core.NetManager Core.NodeMgr Ownership Tables Turns Simulation Supervision Arming
open Send.SendStream (unsentBytes inProgress)

/-- The messages pushed and not completely sent: the one in progress, then the queue. -/
def notSent (queue : List IMString) (send : SendPkt) : List IMString :=
  (if send.finish then [] else [send.outPkt]) ++ queue

/-- What a connection sends if nothing more is pushed: the rest of the message in progress,
then each message of the queue. -/
def transmits (queue : List IMString) (send : SendPkt) : List (List Byte) :=
  (if send.finish then [] else [send.remaining]) ++ queue.map IMString.bytes

theorem flatten_transmits (queue : List IMString) (send : SendPkt) :
    (transmits queue send).flatten = unsentBytes queue send := by
  simp only [transmits, unsentBytes, inProgress, List.flatten_append]
  split_ifs <;> simp

/-- A call of `write` takes its bytes from the front of them. -/
theorem write_transmits (outcomes : List SendResult) {queue : List IMString} {send : SendPkt}
    (sending : Send.SendStream.Sending queue send) :
    (transmits queue send).flatten = (write outcomes queue send).accepted ++
      (transmits (write outcomes queue send).queue (write outcomes queue send).send).flatten := by
  rw [flatten_transmits, flatten_transmits]
  exact (Send.SendStream.write_sending outcomes sending).2

theorem transmits_fresh (queue : List IMString) :
    transmits queue .fresh = queue.map IMString.bytes := rfl

/-- The queue is all that is not sent if and only if the connection is between two messages. -/
theorem queue_eq_notSent_iff (queue : List IMString) (send : SendPkt) :
    queue.map IMString.bytes = (notSent queue send).map IMString.bytes ↔ send.finish = true := by
  cases finished : send.finish with
  | true => simp [notSent, finished]
  | false =>
    apply iff_of_false
    · intro same
      have lengths := congrArg List.length same
      simp [notSent, finished] at lengths
    · simp

/-! ### One node through the loop of checkState -/

section Loop
variable {sys next : Sys} {proto : Proto} {visits : Nat → Visit} {sid : BitVec 16}

/-- The node is in its place, and its context is that connection. -/
structure Held (place : Nat) (node : Node) (context : Nat) (owned : Owned) (sys : Sys) : Prop where
  tables : ∃ objects, Reads sys objects ∧ Linked objects ∧ objects.nodes place = some node ∧
    objects.conns context = some owned
  link : node.m_context = some context

variable {place context : Nat} {node : Node} {owned : Owned}

/-- The visits to other nodes leave the node and its connection alone. -/
theorem checkNode_held (held : Held place node context owned sys) {other : Nat}
    (differs : other ≠ place) (done : sys.checkNode proto sid visits other = some next) :
    Held place node context owned next := by
  obtain ⟨⟨objects, reads, linked, here, there⟩, link⟩ := held
  obtain ⟨after, afterReads, course, spares⟩ := checkNode_spec reads linked done
  have stillLinked := linked_moves linked (course_moves course)
  refine ⟨⟨after, afterReads, stillLinked, spares.nodes here differs.symm,
    spares.conns there ?_⟩, link⟩
  intro visited found same
  exact differs (linked.distinct found here same link)

theorem run_held {places : List Nat} (absent : place ∉ places)
    (held : Held place node context owned sys)
    (looped : run (Sys.checkNode proto sid visits) sys places = some next) :
    Held place node context owned next := by
  apply invariant_of_throughout _ (fun _ other => other ≠ place) ?_ held ?_ looped
  · intro before other after kept differs visited
    exact checkNode_held kept differs visited
  · apply throughout_of_mem
    rintro state other inside rfl
    exact absent inside

/-- The visit that reconnects gives the node a new connection with the old queue. -/
theorem checkNode_reconnects (held : Held place node context owned sys)
    (failed : node.m_state = .NODE_ERROR ∨ node.m_state = .NODE_CLOSED)
    (persistent : node.m_persist = true) (tries : node.m_num < 4)
    (connects : 0 < (visits place).fds 0)
    (done : sys.checkNode proto sid visits place = some next) :
    ∃ after created fresh, Held place after created fresh next ∧ fresh.conn.send = .fresh ∧
      fresh.queue = owned.queue := by
  obtain ⟨⟨objects, reads, linked, here, there⟩, link⟩ := held
  have pointed : sys.derefNode place = some node := by rw [reads.nodes, here]
  obtain ⟨-, rfl⟩ := reads.mem_of_node here
  obtain ⟨counted, stored⟩ := counted_reads reads here
  have countedLinked := linked_setNode linked here (needReconnect_context node)
  have again : node.needReconnect.1 = true := by
    simp [Node.needReconnect, persistent, tries]
  simp only [Sys.checkNode, pointed, Option.bind_eq_bind, Option.bind_some, if_pos failed, again,
    if_true] at done
  rcases reconnect_cases counted countedLinked stored done with
    ⟨refused, -⟩ | ⟨-, created, fresh, reborn, -, after⟩
  · exact absurd connects refused
  · have context_eq : (attached node.needReconnect.2 created).m_context = some created := rfl
    have resumed := linked_move countedLinked (.resumed reborn.unused reborn.client
      (armed_of_state (by rw [reborn.waits]; decide)) stored context_eq)
    rw [needReconnect_addr] at after resumed
    refine ⟨attached node.needReconnect.2 created, created, fresh,
      ⟨⟨_, after, resumed, Function.update_self .., Function.update_self ..⟩, rfl⟩, reborn.idle,
      reborn.inherits context owned ?_ there⟩
    rw [needReconnect_context, link]

/-- A pass of `checkState` over a failed node that it reconnects. -/
theorem checkState_reconnects {service : Nat} {snode : ServiceNode}
    (held : Held place node context owned sys) (served : sys.services[service]? = some snode)
    (member : node ∈ snode.m_nodes)
    (failed : node.m_state = .NODE_ERROR ∨ node.m_state = .NODE_CLOSED)
    (persistent : node.m_persist = true) (tries : node.m_num < 4)
    (connects : 0 < (visits place).fds 0)
    (done : sys.checkState proto service visits = some next) :
    ∃ after created fresh, Held place after created fresh next ∧ fresh.conn.send = .fresh ∧
      fresh.queue = owned.queue := by
  have inside := List.mem_of_getElem? served
  obtain ⟨⟨objects, reads, linked, here, there⟩, link⟩ := held
  have part := sublist_nodesOf inside
  have placed : place = node.addr := (reads.mem_of_node here).2.symm
  -- the loop visits each node once
  have distinct : (snode.m_nodes.map Node.addr).Nodup := (part.map Node.addr).nodup reads.addrs
  obtain ⟨first, last, split, notFirst, notLast⟩ :=
    split_of_nodup distinct (List.mem_map_of_mem member)
  rw [← placed] at split notFirst notLast
  simp only [Sys.checkState, served, Option.bind_eq_bind, Option.bind_some, foldlM_eq_run, split,
    run_append, run_cons] at done
  obtain ⟨before, early, after, visited, late⟩ := done
  have arrives := run_held notFirst ⟨⟨objects, reads, linked, here, there⟩, link⟩ early
  obtain ⟨stored, created, fresh, leaves, idle, queue⟩ :=
    checkNode_reconnects arrives failed persistent tries connects visited
  exact ⟨stored, created, fresh, run_held notLast leaves late, idle, queue⟩

/-- The new connection of a node that is reconnected sends the queue of the old one. -/
theorem checkState_carries_queue {types : List (BitVec 16)} {actions : List Action}
    (reached : run (step proto) (start types) actions = some sys) {service : Nat}
    {snode : ServiceNode} (served : sys.services[service]? = some snode)
    (member : node ∈ snode.m_nodes)
    (failed : node.m_state = .NODE_ERROR ∨ node.m_state = .NODE_CLOSED)
    (persistent : node.m_persist = true) (tries : node.m_num < 4)
    (link : node.m_context = some context) {old : Connection}
    (pointed : sys.net.deref context = some old) {queue : List IMString}
    (queued : sys.net.queues old.outBuffer = some queue)
    (connects : 0 < (visits node.addr).fds 0)
    (done : sys.checkState proto service visits = some next) :
    ∃ after ∈ nodesOf next.services, after.addr = node.addr ∧ ∃ created new pending,
      after.m_context = some created ∧ next.net.deref created = some new ∧
      next.net.queues new.outBuffer = some pending ∧
      transmits pending new.send = queue.map IMString.bytes := by
  obtain ⟨objects, reads, linked⟩ := run_consistent reached
  have inside : node ∈ nodesOf sys.services :=
    (sublist_nodesOf (List.mem_of_getElem? served)).subset member
  have there : objects.conns context = some ⟨old, queue⟩ := by
    rw [← reads.net.reads]
    exact view_eq_some.mpr ⟨pointed, queued⟩
  have held : Held node.addr node context ⟨old, queue⟩ sys :=
    ⟨⟨objects, reads, linked, reads.node_of_mem inside, there⟩, link⟩
  obtain ⟨after, created, fresh, ⟨⟨last, lastReads, -, stored, opened⟩, attached⟩, idle, same⟩ :=
    checkState_reconnects held served member failed persistent tries connects done
  obtain ⟨listed, placed⟩ := lastReads.mem_of_node stored
  refine ⟨after, listed, placed, created, fresh.conn, fresh.queue, attached,
    lastReads.net.deref opened, lastReads.net.queues opened, ?_⟩
  rw [idle, transmits_fresh, same]

end Loop

/-- In every reachable state, whatever is queued and however far the message in progress has
got: a reconnect loses nothing if and only if no message was in progress. -/
theorem reconnect_keeps_iff_finished (proto : Proto) (types : List (BitVec 16))
    (actions : List Action) (sys : Sys)
    (reached : run (step proto) (start types) actions = some sys) (service : Nat)
    (snode : ServiceNode) (served : sys.services[service]? = some snode) (node : Node)
    (member : node ∈ snode.m_nodes)
    (failed : node.m_state = .NODE_ERROR ∨ node.m_state = .NODE_CLOSED)
    (persistent : node.m_persist = true) (tries : node.m_num < 4) (context : Nat)
    (link : node.m_context = some context) (old : Connection)
    (pointed : sys.net.deref context = some old) (queue : List IMString)
    (queued : sys.net.queues old.outBuffer = some queue) (visits : Nat → Visit)
    (connects : 0 < (visits node.addr).fds 0) (next : Sys)
    (done : sys.checkState proto service visits = some next) :
    ∃ after ∈ nodesOf next.services, after.addr = node.addr ∧ ∃ created new pending,
      after.m_context = some created ∧ next.net.deref created = some new ∧
      next.net.queues new.outBuffer = some pending ∧
      (transmits pending new.send = (notSent queue old.send).map IMString.bytes ↔
        old.send.finish = true) := by
  obtain ⟨after, listed, placed, created, new, pending, attached, found, held, carried⟩ :=
    checkState_carries_queue reached served member failed persistent tries link pointed queued
      connects done
  refine ⟨after, listed, placed, created, new, pending, attached, found, held, ?_⟩
  rw [carried]
  exact queue_eq_notSent_iff queue old.send

/-- A database server is announced, a message is queued for it, and the connection fails when
two bytes of the message are sent. -/
def failedWhileSending : List Action :=
  [.srvinfoBroadcast (withBody [8, 1, 16, 7, 24, 3]) fun _ => freshFd 5,
    .sendNode (withBody [1, 2]) 7,
    .write 0 [.sent 2, .failed .other] ⟨true, fun _ => 0⟩]

/-- The state after these steps, and a reconnect from it. -/
theorem failedWhileSending_state : ∃ sys snode node context old queue next,
    run (step smallMessages) (start [3]) failedWhileSending = some sys ∧
      sys.services[0]? = some snode ∧ node ∈ snode.m_nodes ∧ node.m_state = .NODE_ERROR ∧
      node.m_persist = true ∧ node.m_num < 4 ∧ node.m_context = some context ∧
      sys.net.deref context = some old ∧ sys.net.queues old.outBuffer = some queue ∧
      sys.checkState smallMessages 0 (fun _ => freshFd 6) = some next ∧
      old.send.finish = false := by
  have ends : (do
      let sys ← run (step smallMessages) (start [3]) failedWhileSending
      let snode ← sys.services[0]?
      let node ← snode.m_nodes.head?
      let context ← node.m_context
      let old ← sys.net.deref context
      let _ ← sys.net.queues old.outBuffer
      let _ ← sys.checkState smallMessages 0 fun _ => freshFd 6
      some (decide (node.m_state = .NODE_ERROR ∧ node.m_persist = true ∧ node.m_num < 4 ∧
        old.send.finish = false))) = some true := by decide +kernel
  simp only [Option.bind_eq_bind, Option.bind_eq_some_iff, Option.some.injEq,
    decide_eq_true_eq] at ends
  obtain ⟨sys, reached, snode, served, node, first, context, link, old, pointed, queue, queued,
    next, done, failed, persistent, tries, begun⟩ := ends
  exact ⟨sys, snode, node, context, old, queue, next, reached, served, List.mem_of_head? first,
    failed, persistent, tries, link, pointed, queued, done, begun⟩

/-- The message that was begun is not sent again. -/
theorem begun_message_lost : ∃ sys node context old queue next after created new pending,
    run (step smallMessages) (start [3]) failedWhileSending = some sys ∧
      node ∈ nodesOf sys.services ∧ node.m_state = .NODE_ERROR ∧ node.m_persist = true ∧
      node.m_context = some context ∧ sys.net.deref context = some old ∧
      sys.net.queues old.outBuffer = some queue ∧
      sys.checkState smallMessages 0 (fun _ => freshFd 6) = some next ∧
      after ∈ nodesOf next.services ∧ after.addr = node.addr ∧ after.m_context = some created ∧
      next.net.deref created = some new ∧ next.net.queues new.outBuffer = some pending ∧
      transmits pending new.send ≠ (notSent queue old.send).map IMString.bytes := by
  obtain ⟨sys, snode, node, context, old, queue, next, reached, served, member, failed, persistent,
    tries, link, pointed, queued, done, begun⟩ := failedWhileSending_state
  have connects : 0 < (freshFd 6).fds 0 := by decide
  obtain ⟨after, listed, placed, created, new, pending, attached, found, held, carried⟩ :=
    checkState_carries_queue reached served member (.inl failed) persistent tries link pointed
      queued connects done
  refine ⟨sys, node, context, old, queue, next, after, created, new, pending, reached,
    (sublist_nodesOf (List.mem_of_getElem? served)).subset member, failed, persistent, link,
    pointed, queued, done, listed, placed, attached, found, held, ?_⟩
  rw [carried]
  intro same
  rw [(queue_eq_notSent_iff queue old.send).mp same] at begun
  cases begun

theorem reconnect_keeps_iff_finished_two_bytes : ∃ (old : Connection) (queue : List IMString)
    (next : Sys) (after : Node), ∃ created new pending, after.m_context = some created ∧
      next.net.deref created = some new ∧ next.net.queues new.outBuffer = some pending ∧
      (transmits pending new.send = (notSent queue old.send).map IMString.bytes ↔
        old.send.finish = true) := by
  obtain ⟨sys, snode, node, context, old, queue, next, reached, served, member, failed, persistent,
    tries, link, pointed, queued, done, -⟩ := failedWhileSending_state
  obtain ⟨after, -, -, kept⟩ := reconnect_keeps_iff_finished smallMessages [3] failedWhileSending
    sys reached 0 snode served node member (.inl failed) persistent tries context link old pointed
    queue queued (fun _ => freshFd 6) (by decide) next done
  exact ⟨old, queue, next, after, kept⟩

end SNFrame.System.Reconnect
