import SNFrame.System.Requests
import SNFrame.System.Sight
import SNFrame.System.Supervision

/-! What the functions of the program do to the connections, field by field, to the numbering of
the objects and to the effects. `Turns` says what becomes of the states and of the links; here it
is the queues, what is being sent and received, and the ids. -/

namespace SNFrame.System.Traffic
open Library.Octet Library.Table Base.PbBuf Core.Receiving Core.Sending Core.TcpParse
open Core.NetManager Core.NodeMgr Ownership Tables Turns Handover Simulation Supervision
open Sight

/-! ### Steps that open no connection -/

def Notifies (effect : Effect) : Prop := ∃ msg id, effect = .notifyApp msg id

/-- No object is created, and nothing leaves the program but what the application is told. -/
structure Calm (sys next : Sys) : Prop where
  numbered : next.net.next = sys.net.next
  effects : ∃ more, next.effects = sys.effects ++ more ∧ ∀ effect ∈ more, Notifies effect

theorem Calm.refl (sys : Sys) : Calm sys sys :=
  ⟨rfl, [], (List.append_nil _).symm, fun _ none => nomatch none⟩

theorem Calm.trans {sys middle next : Sys} (first : Calm sys middle) (second : Calm middle next) :
    Calm sys next := by
  obtain ⟨early, earlyIs, earlyNotifies⟩ := first.effects
  obtain ⟨late, lateIs, lateNotifies⟩ := second.effects
  refine ⟨second.numbered.trans first.numbered, early ++ late, ?_, ?_⟩
  · rw [lateIs, earlyIs, List.append_assoc]
  · intro effect inside
    obtain before | after := List.mem_append.mp inside
    · exact earlyNotifies effect before
    · exact lateNotifies effect after

section Calm
variable {sys next : Sys} {addr : Nat} {heap : Heap}

theorem calm_of_same (numbered : next.net.next = sys.net.next)
    (effects : next.effects = sys.effects) : Calm sys next :=
  ⟨numbered, [], by rw [effects, List.append_nil], fun _ none => nomatch none⟩

theorem notifyNodeState_calm {state : ConnState}
    (done : sys.notifyNodeState heap addr state = some next) : Calm sys next := by
  obtain ⟨node, -, rfl⟩ := Option.map_eq_some_iff.mp done
  dsimp only
  by_cases allocated : (bufalloc heap 27).1 = true
  · rw [if_pos allocated]
    refine ⟨rfl, [.notifyApp (bufalloc heap 27).2 node.m_id], rfl, ?_⟩
    intro effect inside
    exact ⟨_, _, List.mem_singleton.mp inside⟩
  · rw [if_neg allocated]
    exact calm_of_same rfl rfl

theorem setState_calm_sys {state : ConnState}
    (done : sys.setState heap addr state = some next) : Calm sys next := by
  unfold Sys.setState at done
  split at done
  · cases done
  · dsimp only at done
    have stored : ∀ f, Calm sys { sys with net := sys.net.assign addr f } :=
      fun f => calm_of_same rfl rfl
    split_ifs at done
    · split at done
      · cases done
        exact stored _
      · exact (stored _).trans (notifyNodeState_calm done)
    · cases done
      exact stored _

theorem fail_calm {state : ConnState} (done : sys.fail heap addr state = some next) :
    Calm sys next := by
  obtain ⟨middle, set, done⟩ := Option.bind_eq_some_iff.mp done
  obtain ⟨conn, -, done⟩ := Option.bind_eq_some_iff.mp done
  cases done
  refine (setState_calm_sys set).trans (calm_of_same ?_ rfl)
  dsimp only
  split_ifs <;> simp

theorem sendFirst_next {net after : Net} {isTarget : Connection → Bool} {arms : ConnState → Bool}
    {msg : IMString} {code : Int} (sent : net.sendFirst isTarget arms msg = some (code, after)) :
    after.next = net.next := by
  unfold Net.sendFirst at sent
  split at sent
  · cases sent
    rfl
  · obtain ⟨pushed, push, same⟩ := Option.map_eq_some_iff.mp sent
    obtain ⟨msgs, -, rfl⟩ := Option.map_eq_some_iff.mp push
    cases same
    split_ifs <;> simp

theorem writeConn_next {net after : Net} {outcomes : List SendResult} {result}
    (wrote : net.writeConn addr outcomes = some (after, result)) : after.next = net.next := by
  obtain ⟨conn, -, wrote⟩ := Option.bind_eq_some_iff.mp wrote
  obtain ⟨queue, -, wrote⟩ := Option.bind_eq_some_iff.mp wrote
  cases wrote
  rfl

theorem write_calm {outcomes : List SendResult} (done : sys.write heap addr outcomes = some next) :
    Calm sys next := by
  obtain ⟨⟨net, result, accepted⟩, wrote, done⟩ := Option.bind_eq_some_iff.mp done
  have stored : Calm sys { sys with net := net } := calm_of_same (writeConn_next wrote) rfl
  dsimp only at done
  split at done
  · cases done
  · exact stored.trans (fail_calm done)
  · exact stored.trans (fail_calm done)
  · obtain ⟨conn, -, done⟩ := Option.bind_eq_some_iff.mp done
    obtain ⟨drained, -, done⟩ := Option.bind_eq_some_iff.mp done
    cases done
    refine stored.trans (calm_of_same ?_ rfl)
    dsimp only
    split_ifs <;> simp

theorem authenticationReq_calm {proto : Proto} {msg : IMString}
    (done : sys.authenticationReq proto heap addr msg = some next) : Calm sys next := by
  unfold Sys.authenticationReq at done
  split at done
  · cases done
    exact .refl _
  · obtain ⟨middle, set, done⟩ := Option.bind_eq_some_iff.mp done
    obtain ⟨conn, -, done⟩ := Option.bind_eq_some_iff.mp done
    have stored := setState_calm_sys set
    have labelled : Calm sys middle := ⟨stored.numbered, stored.effects⟩
    split at done
    · cases done
      exact labelled
    · obtain ⟨⟨code, net⟩, sent, rfl⟩ := Option.map_eq_some_iff.mp done
      exact labelled.trans (calm_of_same (sendFirst_next sent) rfl)

theorem authenticationRsp_calm {proto : Proto} {msg : IMString}
    (done : sys.authenticationRsp proto heap addr msg = some next) : Calm sys next := by
  unfold Sys.authenticationRsp at done
  split at done
  · cases done
    exact .refl _
  · split at done
    · cases done
      exact .refl _
    · have stored := setState_calm_sys done
      exact ⟨stored.numbered, stored.effects⟩

end Calm

/-! ### The exact effects

What `Supervision` says up to the fields that turns look at is said here in full. -/

section Exact
variable {sys next : Sys} {objects : Objects} {addr : Nat} {heap : Heap} {proto : Proto}

/-- A failed client stays without its events, and any other connection goes. -/
theorem fail_reads (reads : Reads sys objects) {owned : Owned}
    (here : objects.conns addr = some owned) {state : ConnState} (failed : Broken state)
    (done : sys.fail heap addr state = some next) :
    Reads next ((objects.notify owned.conn.cb state).setConn addr
      (if owned.conn.flag = .conn_client then
        some ⟨withoutEvent (AE_READABLE ||| AE_WRITABLE) (inState state owned).conn, owned.queue⟩
      else none)) := by
  obtain ⟨middle, set, done⟩ := Option.bind_eq_some_iff.mp done
  have noted := setState_broken reads here failed set
  rw [← Objects.notify_setConn] at noted
  have there : ((objects.notify owned.conn.cb state).setConn addr
      (some (inState state owned))).conns addr = some (inState state owned) :=
    Function.update_self ..
  simp only [noted.net.deref there, Option.bind_eq_bind, Option.bind_some] at done
  have removed : Reads _ (Objects.setConn _ addr (some ⟨withoutEvent (AE_READABLE ||| AE_WRITABLE)
      (inState state owned).conn, owned.queue⟩)) :=
    noted.withNet (delFileEvent_shows noted.net there (AE_READABLE ||| AE_WRITABLE))
  rw [Objects.setConn_setConn] at removed
  by_cases client : (inState state owned).conn.flag = .conn_client
  · rw [if_neg (not_not_intro client)] at done
    rw [if_pos (show owned.conn.flag = .conn_client from client)]
    cases done
    exact removed
  · rw [if_pos client] at done
    rw [if_neg (show owned.conn.flag ≠ .conn_client from client)]
    cases done
    have shown := closeConnection_shows removed.net (Function.update_self ..)
    rw [(withoutEvent_keeps _).fd] at shown
    have closed := removed.withNet shown
    exact ⟨by simpa using closed.net, closed.addrs, closed.below, closed.nodes⟩

theorem connect_next {net after : Net} {fd : Int} {conn : Option Nat}
    (connected : net.connect fd = some (after, conn)) :
    after.next = net.next + if conn.isSome then 1 else 0 := by
  unfold Net.connect at connected
  split_ifs at connected
  · cases connected
    simp [Net.create, Net.assign]
  · cases connected
    simp

theorem connectTries_next {net after : Net} {count : Nat} {fds : Nat → Int} {conn : Option Nat}
    (tried : Sys.connectTries count fds net = some (after, conn)) :
    after.next = net.next + if conn.isSome then 1 else 0 := by
  induction count generalizing fds net with
  | zero =>
    cases tried
    simp
  | succ count ih =>
    simp only [Sys.connectTries, Option.bind_eq_bind] at tried
    obtain ⟨⟨middle, result⟩, connected, rest⟩ := Option.bind_eq_some_iff.mp tried
    have first := connect_next connected
    cases result with
    | none =>
      rw [ih rest, first]
      simp
    | some addr =>
      cases rest
      exact first

/-- What `setState` leaves when it calls no callback. -/
theorem setState_same {state : ConnState} (calm : ¬Broken state)
    (done : sys.setState heap addr state = some next) :
    next.net.next = sys.net.next ∧ next.effects = sys.effects := by
  unfold Sys.setState at done
  split at done
  · cases done
  · rw [if_neg (show ¬(state = .STATE_CLOSED ∨ state = .STATE_ERROR) from calm)] at done
    cases done
    exact ⟨rfl, rfl⟩

theorem addNode_same {sid : BitVec 16} {nid : BitVec 32} {place : Nat}
    (added : sys.addNode sid nid = some (next, place)) :
    next.net = sys.net ∧ next.effects = sys.effects := by
  obtain ⟨services, -, same⟩ := Option.map_eq_some_iff.mp added
  cases same
  exact ⟨rfl, rfl⟩

/-- The connection to the router with the register message in its queue, if there was memory. -/
def Registering (proto : Proto) (addr : Nat) (owned : Owned) : Prop :=
  ∃ fd, owned = routerConn proto addr fd ∨ ∃ heap register,
    buildMsg heap proto.SID_ROUTER proto.CID_ROUTER_CLIENT_REGISTER_REQ proto.registerServerReq =
        some register ∧
      owned = (routerConn proto addr fd).sent (· = .STATE_CONNECTED) register

theorem registReq_reads (reads : Reads sys objects) {visit : Visit}
    (done : sys.registReq proto visit = some next) :
    next.effects = sys.effects ∧ (next.net.next = sys.net.next ∧ Reads next objects ∨
      next.net.next = sys.net.next + 1 ∧ ∃ place owned ip, objects.nodes place = none ∧
        Registering proto sys.net.next owned ∧
        Reads next ((objects.setConn sys.net.next (some owned)).setNode place
          (some (routerNode proto place sys.net.next ip)))) := by
  unfold Sys.registReq at done
  split_ifs at done with configured
  · obtain ⟨⟨net, conn⟩, tried, done⟩ := Option.bind_eq_some_iff.mp done
    have numbered := connectTries_next tried
    rcases connectTries_cases reads.net tried with ⟨rfl, rfl⟩ | ⟨fd, rfl, opened⟩
    · cases done
      exact ⟨rfl, .inl ⟨rfl, reads⟩⟩
    · have created : Reads { sys with net := net }
          (objects.setConn sys.net.next (some ⟨clientConn sys.net.next fd, []⟩)) :=
        reads.withNet opened
      obtain ⟨ip, -, done⟩ := Option.bind_eq_some_iff.mp done
      obtain ⟨middle, set, done⟩ := Option.bind_eq_some_iff.mp done
      have connected := setNodeInfo_reads created (Function.update_self ..) (by decide) set
      have stored := setState_same (by decide) set
      rw [Objects.setConn_setConn] at connected
      obtain ⟨⟨listed, place⟩, added, done⟩ := Option.bind_eq_some_iff.mp done
      have absent := connected.fresh_node
      have kept := addNode_same added
      obtain ⟨rfl, -, stored'⟩ := addNode_reads connected added
      have linked := assignNode_reads stored' (Function.update_self ..)
        (f := fun node => { { node.setAddrs ip with
          m_context := some sys.net.next }.setState .NODE_ABLE with m_persist := false }) fun _ => rfl
      rw [Objects.setNode_setNode] at linked
      change Reads _ ((objects.setConn sys.net.next
        (some (routerConn proto sys.net.next fd))).setNode middle.nextNode
          (some (routerNode proto middle.nextNode sys.net.next ip))) at linked
      have there := Function.update_self sys.net.next (some (routerConn proto sys.net.next fd))
        objects.conns
      obtain ⟨conn, pointed, done⟩ := Option.bind_eq_some_iff.mp done
      cases (linked.net.deref there).symm.trans pointed
      cases built : buildMsg visit.heap proto.SID_ROUTER proto.CID_ROUTER_CLIENT_REGISTER_REQ
          proto.registerServerReq with
      | none =>
        simp only [built, Option.some.injEq] at done
        subst done
        refine ⟨kept.2.trans stored.2, .inr ⟨?_, _, _, ip, absent, ⟨fd, .inl rfl⟩, linked⟩⟩
        change listed.net.next = _
        rw [kept.1, stored.1]
        exact numbered
      | some register =>
        simp only [built] at done
        have armed := sendSock_reads linked there done
        rw [Objects.setNode_setConn, Objects.setConn_setConn] at armed
        obtain ⟨⟨code, after⟩, sent, rfl⟩ := Option.map_eq_some_iff.mp done
        refine ⟨kept.2.trans stored.2, .inr ⟨?_, _, _, ip, absent,
          ⟨fd, .inr ⟨_, register, built, rfl⟩⟩, armed⟩⟩
        change after.next = _
        rw [sendFirst_next sent]
        change listed.net.next = _
        rw [kept.1, stored.1]
        exact numbered
  · cases done
    exact ⟨rfl, .inl ⟨rfl, reads⟩⟩

/-- The request for these ids, if there is memory for it. -/
def requestFor (proto : Proto) (heap : Heap) (sid : BitVec 16) (nid : BitVec 32) :
    Option IMString :=
  buildMsg heap proto.SID_OTHER proto.CID_OTHER_AUTHENTICATION_REQ
    (proto.authenticationReq sid nid)

/-- How a request leaves the program. -/
def requesting (fd : Int) (request : Option IMString) : List Effect :=
  (request.map (Effect.sendBlock fd)).toList

theorem requestAuthentication_same (proto : Proto) (heap : Heap) (sys : Sys) (fd : Int) (sid : BitVec 16) (nid : BitVec 32) :
    (sys.requestAuthentication proto heap fd sid nid).net = sys.net ∧
      (sys.requestAuthentication proto heap fd sid nid).effects =
        sys.effects ++ requesting fd (requestFor proto heap sid nid) := by
  unfold Sys.requestAuthentication requestFor requesting
  split <;> simp_all [Sys.log]

theorem addServer_same {visit : Visit} {type : BitVec 16} {server : ServerStatus} {goesOn : Bool}
    (done : sys.addServer proto visit type server = some (next, goesOn)) :
    next.net.next = sys.net.next ∧ next.effects = sys.effects ∨
      next.net.next = sys.net.next + 1 ∧ next.effects = sys.effects ++
        requesting (visit.fds 0) (requestFor proto visit.heap type server.node_id) := by
  unfold Sys.addServer at done
  split_ifs at done with known
  · cases done
    exact .inl ⟨rfl, rfl⟩
  · obtain ⟨⟨net, conn⟩, connected, done⟩ := Option.bind_eq_some_iff.mp done
    have numbered := connect_next connected
    cases conn with
    | none =>
      cases done
      exact .inl ⟨numbered, rfl⟩
    | some addr =>
      obtain ⟨⟨listed, place⟩, added, done⟩ := Option.bind_eq_some_iff.mp done
      have kept := addNode_same added
      obtain ⟨ip, -, done⟩ := Option.bind_eq_some_iff.mp done
      obtain ⟨middle, set, done⟩ := Option.bind_eq_some_iff.mp done
      have stored := setState_same (by decide) set
      cases done
      obtain ⟨net, effects⟩ := requestAuthentication_same proto visit.heap
        (Sys.assignNode { middle with net := middle.net.assign addr fun conn =>
          { conn with cb := some place } } place fun node =>
            { (node.setAddrs ip).setState .NODE_AUTH with m_context := some addr })
        (visit.fds 0) type server.node_id
      refine .inr ⟨?_, ?_⟩
      · rw [net]
        change middle.net.next = _
        rw [stored.1]
        change listed.net.next = _
        rw [kept.1]
        exact numbered
      · rw [effects]
        change middle.effects ++ _ = _
        rw [stored.2]
        change listed.effects ++ _ = _
        rw [kept.2]

/-- The new connection of a node that waits for the response with these ids. -/
def waiting (conn : Connection) (outBuffer : Nat) (sid : BitVec 16) (nid : BitVec 32)
    (cb : Option Nat) : Connection :=
  { conn with outBuffer := outBuffer, sid := sid, nid := nid, state := .STATE_AUTH, cb := cb }

/-- The messages that the new connection of a node takes over. -/
def Inherits (objects : Objects) (node : Node) (queue : List IMString) : Prop :=
  match node.m_context.bind objects.conns with
  | none => queue = []
  | some gone => queue = gone.queue

theorem takeOver_shows (linked : Linked objects) {node : Node} {net after : Net} {addr : Nat}
    {conn : Connection} (here : objects.nodes node.addr = some node)
    (shown : Shows noStrays net (objects.setConn addr (some ⟨conn, []⟩)).conns)
    (unused : objects.conns addr = none) (uncalled : conn.cb = none)
    (given : Sys.takeOver net addr node.m_context = some after) :
    after.next = net.next ∧ ∃ outBuffer queue, Inherits objects node queue ∧
      Shows noStrays after ((objects.dropContext node).setConn addr (some
        ⟨{ conn with outBuffer := outBuffer, cb := objects.callbackOf node }, queue⟩)).conns := by
  cases context : node.m_context with
  | none =>
    rw [context] at given
    cases given
    refine ⟨rfl, conn.outBuffer, [], ?_, ?_⟩
    · rw [Inherits, context]
      rfl
    · rw [Objects.dropContext, Objects.callbackOf, context]
      change Shows _ _ (objects.setConn addr (some ⟨{ conn with cb := none }, []⟩)).conns
      rw [← uncalled]
      exact shown
  | some old =>
    rw [context, Sys.takeOver] at given
    obtain ⟨gone, there, -⟩ := linked.live here context
    have apart : addr ≠ old := by
      rintro rfl
      rw [unused] at there
      cases there
    have kept := Function.update_of_ne apart.symm (some (Owned.mk conn [])) objects.conns
    have old_there : (objects.setConn addr (some ⟨conn, []⟩)).conns old = some gone :=
      kept.trans there
    have new_there : (objects.setConn addr (some ⟨conn, []⟩)).conns addr = some ⟨conn, []⟩ :=
      Function.update_self ..
    rw [handOver_eq shown new_there old_there apart] at given
    cases given
    refine ⟨rfl, gone.conn.outBuffer, gone.queue, ?_, ?_⟩
    · rw [Inherits, context, Option.bind_some, there]
    · have moved := handed_shows shown new_there old_there apart
      rw [Objects.setConn_conns, Function.update_comm apart, Function.update_idem] at moved
      rw [Objects.dropContext, Objects.callbackOf, context, Option.bind_some, there]
      exact moved

/-- A reconnect fails, or the node waits on a new connection. -/
theorem reconnect_reads (reads : Reads sys objects) (linked : Linked objects) {visit : Visit}
    {sid : BitVec 16} {node : Node} (here : objects.nodes node.addr = some node)
    (done : sys.reconnect proto visit sid node = some next) :
    next.net.next = sys.net.next ∧ next.effects = sys.effects ∧ Reads next objects ∨
      next.net.next = sys.net.next + 1 ∧ next.effects = sys.effects ++
          requesting (visit.fds 0) (requestFor proto visit.heap sid node.m_id) ∧
        ∃ outBuffer queue, Inherits objects node queue ∧
          Reads next (((objects.dropContext node).setConn sys.net.next (some
            ⟨waiting (clientConn sys.net.next (visit.fds 0)) outBuffer sid node.m_id
              (objects.callbackOf node), queue⟩)).setNode node.addr
                (some (attached node sys.net.next))) := by
  unfold Sys.reconnect at done
  obtain ⟨⟨net, conn⟩, connected, done⟩ := Option.bind_eq_some_iff.mp done
  have numbered := connect_next connected
  rcases connect_cases reads.net connected with ⟨failed, rfl, rfl⟩ | ⟨valid, rfl, opened⟩
  · cases done
    exact .inl ⟨numbered, rfl, reads⟩
  · have created : Reads { sys with net := net } (objects.setConn sys.net.next
        (some ⟨clientConn sys.net.next (visit.fds 0), []⟩)) := reads.withNet opened
    have asked := requestAuthentication_reads proto created visit.heap (visit.fds 0) sid node.m_id
    obtain ⟨same, effects⟩ := requestAuthentication_same proto visit.heap
      { sys with net := net } (visit.fds 0) sid node.m_id
    obtain ⟨after, given, done⟩ := Option.bind_eq_some_iff.mp done
    obtain ⟨count, outBuffer, queue, inherits, shown⟩ :=
      takeOver_shows linked here asked.net reads.net.fresh (clientConn_cb ..) given
    have handed := asked.withNet shown
    have given : Reads _ ((objects.dropContext node).setConn sys.net.next (some
        ⟨{ clientConn sys.net.next (visit.fds 0) with
            outBuffer := outBuffer, cb := objects.callbackOf node }, queue⟩)) :=
      ⟨handed.net, handed.addrs, handed.below,
        handed.nodes.trans (objects.dropContext_nodes node).symm⟩
    obtain ⟨middle, set, done⟩ := Option.bind_eq_some_iff.mp done
    have stored := setState_same (by decide) set
    have waits := setNodeInfo_reads given (Function.update_self ..) (by decide) set
    rw [Objects.setConn_setConn] at waits
    cases done
    have there : ((objects.dropContext node).setConn sys.net.next (some
        ⟨waiting (clientConn sys.net.next (visit.fds 0)) outBuffer sid node.m_id
          (objects.callbackOf node), queue⟩)).nodes node.addr = some node := by
      rw [Objects.setConn_nodes, Objects.dropContext_nodes, here]
    have attaches := assignNode_reads waits there (f := fun node => attached node sys.net.next)
      fun _ => rfl
    refine .inr ⟨?_, ?_, outBuffer, queue, inherits, attaches⟩
    · change middle.net.next = _
      rw [stored.1]
      change after.next = _
      rw [count, same]
      exact numbered
    · change middle.effects = _
      rw [stored.2]
      exact effects

/-- The node that is given up is gone with its connection, and its router may register again. -/
theorem giveUp_reads (reads : Reads sys objects) (linked : Linked objects) {visit : Visit}
    {sid : BitVec 16} {node : Node} (here : objects.nodes node.addr = some node)
    (done : sys.giveUp proto visit sid node = some next) :
    ∃ cleared : Sys, cleared.net.next = sys.net.next ∧ cleared.effects = sys.effects ∧
      Reads cleared ((objects.dropContext node).setNode node.addr none) ∧
      (next = cleared ∨ cleared.registReq proto visit = some next) := by
  have erased := eraseNode_reads reads node.addr
  obtain ⟨cleared, closed, done⟩ := Option.bind_eq_some_iff.mp done
  have dropped : cleared.net.next = sys.net.next ∧ cleared.effects = sys.effects ∧
      Reads cleared ((objects.dropContext node).setNode node.addr none) := by
    cases context : node.m_context with
    | none =>
      rw [context, Sys.closeContext] at closed
      cases closed
      rw [Objects.dropContext, context]
      exact ⟨rfl, rfl, erased⟩
    | some old =>
      obtain ⟨gone, there, -⟩ := linked.live here context
      rw [context, Sys.closeContext, erased.net.deref there] at closed
      cases closed
      rw [Objects.dropContext, context]
      exact ⟨closeConnection_next .., rfl, erased.withNet (closeConnection_shows erased.net there)⟩
  refine ⟨cleared, dropped.1, dropped.2.1, dropped.2.2, ?_⟩
  split_ifs at done with router
  · exact .inr done
  · cases done
    exact .inl rfl

end Exact

end SNFrame.System.Traffic
