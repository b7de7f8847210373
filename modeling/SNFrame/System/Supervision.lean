import SNFrame.Library.Transition
import SNFrame.System.Simulation

/-! The supervision of nodes: `registReq`, `srvinfoBroadcast` and `checkState` on the two
tables, and from these what a step of the program does to them. -/

namespace SNFrame.System.Supervision
open Library.Transition Library.Table Base.PbBuf Core.Receiving Core.Sending Core.TcpParse
open Core.NetManager Core.NodeMgr Ownership Tables Turns Handover Simulation

section Steps
variable {sys next : Sys} {objects : Objects} {proto : Proto}

/-! ### New nodes -/

/-- A new client connection has become the context of a new node. -/
structure Launch (objects : Objects) (next : Sys) (addr place : Nat) (owned : Owned)
    (node : Node) : Prop where
  unused : objects.conns addr = none
  client : owned.conn.flag = .conn_client
  armed : Armed owned
  absent : objects.nodes place = none
  context : node.m_context = some addr
  reads : Reads next ((objects.setConn addr (some owned)).setNode place (some node))

theorem Launch.turned {addr place : Nat} {owned : Owned} {node : Node}
    (launch : Launch objects next addr place owned node)
    (installed : Installed place addr owned node) : Turned noFailure objects next :=
  .single launch.reads (.launched launch.unused launch.absent installed launch.armed)

@[simp] theorem clientConn_flag (addr : Nat) (fd : Int) :
    (clientConn addr fd).flag = .conn_client := by
  simp [clientConn]

theorem withEvent_send (conn : Connection) (mask : BitVec 16) :
    (withEvent mask conn).send = conn.send := by
  simp only [withEvent, Connection.addEvent]
  split_ifs <;> rfl

@[simp] theorem clientConn_cb (addr : Nat) (fd : Int) : (clientConn addr fd).cb = none := by
  simp [clientConn, Connection.fresh]

@[simp] theorem clientConn_send (addr : Nat) (fd : Int) : (clientConn addr fd).send = .fresh := by
  simp only [clientConn, withEvent_send, Connection.fresh]

@[simp] theorem clientConn_fd (addr : Nat) (fd : Int) : (clientConn addr fd).fd = fd := by
  simp only [clientConn, withEvent, Connection.addEvent]
  split_ifs <;> rfl

theorem connectTries_cases {net after : Net} {table : Nat → Option Owned}
    (shown : Shows noStrays net table) {count : Nat} {fds : Nat → Int} {conn : Option Nat}
    (done : Sys.connectTries count fds net = some (after, conn)) :
    conn = none ∧ after = net ∨ ∃ fd, conn = some net.next ∧
      Shows noStrays after (Function.update table net.next (some ⟨clientConn net.next fd, []⟩)) := by
  induction count generalizing fds with
  | zero =>
    cases done
    exact .inl ⟨rfl, rfl⟩
  | succ count ih =>
    simp only [Sys.connectTries, Option.bind_eq_bind] at done
    obtain ⟨⟨tried, result⟩, connected, rest⟩ := Option.bind_eq_some_iff.mp done
    rcases connect_cases shown connected with ⟨-, rfl, rfl⟩ | ⟨-, rfl, opened⟩
    · exact ih rest
    · cases rest
      exact .inr ⟨fds 0, rfl, opened⟩

/-- The connection to the router and its node, as `registReq` sets them up. -/
def routerConn (proto : Proto) (addr : Nat) (fd : Int) : Owned :=
  enrolled proto.SID_ROUTER 0 .STATE_CONNECTED ⟨clientConn addr fd, []⟩

def routerNode (proto : Proto) (place addr : Nat) (ip : Address) : Node :=
  { { (Node.fresh place proto.SID_ROUTER 0).setAddrs ip with
      m_context := some addr }.setState .NODE_ABLE with m_persist := false }

theorem installed_router (proto : Proto) (place addr : Nat) (fd : Int) (ip : Address) :
    Installed place addr (routerConn proto addr fd) (routerNode proto place addr ip) := by
  constructor <;>
    simp [routerConn, routerNode, enrolled, inState, Broken, Node.setState, Node.setAddrs]

/-- The registration is sent on the new connection, when there is memory for it. -/
theorem registReq_cases (reads : Reads sys objects) {visit : Visit}
    (done : sys.registReq proto visit = some next) :
    Reads next objects ∨ ∃ addr place owned node, Launch objects next addr place owned node ∧
      Installed place addr owned node := by
  unfold Sys.registReq at done
  split_ifs at done with configured
  · obtain ⟨⟨net, conn⟩, tried, done⟩ := Option.bind_eq_some_iff.mp done
    rcases connectTries_cases reads.net tried with ⟨rfl, rfl⟩ | ⟨fd, rfl, opened⟩
    · cases done
      exact .inl reads
    · right
      have created : Reads { sys with net := net }
          (objects.setConn sys.net.next (some ⟨clientConn sys.net.next fd, []⟩)) :=
        reads.withNet opened
      obtain ⟨ip, -, done⟩ := Option.bind_eq_some_iff.mp done
      obtain ⟨middle, set, done⟩ := Option.bind_eq_some_iff.mp done
      have connected := setNodeInfo_reads created (Function.update_self ..) (by decide) set
      rw [Objects.setConn_setConn] at connected
      obtain ⟨⟨listed, place⟩, added, done⟩ := Option.bind_eq_some_iff.mp done
      have absent := connected.fresh_node
      obtain ⟨rfl, -, stored⟩ := addNode_reads connected added
      have linked := assignNode_reads stored (Function.update_self ..)
        (f := fun node => { { node.setAddrs ip with
          m_context := some sys.net.next }.setState .NODE_ABLE with m_persist := false }) fun _ => rfl
      rw [Objects.setNode_setNode] at linked
      change Reads _ ((objects.setConn sys.net.next (some (routerConn proto sys.net.next fd))).setNode
        middle.nextNode (some (routerNode proto middle.nextNode sys.net.next ip))) at linked
      have there := Function.update_self sys.net.next (some (routerConn proto sys.net.next fd))
        objects.conns
      have installed := installed_router proto middle.nextNode sys.net.next fd ip
      obtain ⟨conn, pointed, done⟩ := Option.bind_eq_some_iff.mp done
      cases (linked.net.deref there).symm.trans pointed
      cases built : buildMsg visit.heap proto.SID_ROUTER proto.CID_ROUTER_CLIENT_REGISTER_REQ
          proto.registerServerReq with
      | none =>
        simp only [built, Option.some.injEq] at done
        subst done
        refine ⟨_, _, _, _, ⟨reads.net.fresh, installed.client, ?_, absent, rfl, linked⟩, installed⟩
        exact armed_of_empty (by simp [routerConn, enrolled, inState, empty, SendPkt.fresh])
      | some register =>
        simp only [built] at done
        have armed := sendSock_reads linked there done
        rw [Objects.setNode_setConn, Objects.setConn_setConn] at armed
        have sent := installed.alike (sent_alike _ (· = .STATE_CONNECTED) register)
        exact ⟨_, _, _, _, ⟨reads.net.fresh, sent.client, armed_sent (by decide) register, absent,
          rfl, armed⟩, sent⟩
  · cases done
    exact .inl reads

/-- The request of authentication leaves the tables alone. -/
theorem requestAuthentication_reads (proto : Proto) (reads : Reads sys objects) (heap : Heap)
    (fd : Int) (sid : BitVec 16) (nid : BitVec 32) :
    Reads (sys.requestAuthentication proto heap fd sid nid) objects := by
  unfold Sys.requestAuthentication
  split
  · exact reads
  · exact reads.log _

/-- The node in NODE_AUTH with its new connection. -/
def attached (node : Node) (addr : Nat) : Node :=
  { node.setState .NODE_AUTH with m_context := some addr }

/-- The connection to a listed server, as `srvinfoBroadcast` sets it up. -/
def serverNodeConn (place addr : Nat) (fd : Int) (type : BitVec 16) (nid : BitVec 32) : Owned :=
  ⟨{ (enrolled type nid .STATE_AUTH ⟨clientConn addr fd, []⟩).conn with cb := some place }, []⟩

/-- The node of a listed server with that connection. -/
def serverNode (place addr : Nat) (type : BitVec 16) (nid : BitVec 32) (ip : Address) : Node :=
  attached ((Node.fresh place type nid).setAddrs ip) addr

theorem installed_server (place addr : Nat) (fd : Int) (type : BitVec 16) (nid : BitVec 32)
    (ip : Address) :
    Installed place addr (serverNodeConn place addr fd type nid)
      (serverNode place addr type nid ip) := by
  constructor <;>
    simp [serverNodeConn, serverNode, enrolled, inState, Broken, attached, Node.setState,
      Node.setAddrs, Node.fresh]

/-- A server that is passed by or not reached leaves the program as it is; the others get a node
with a connection of its own. -/
theorem addServer_launches (reads : Reads sys objects) {visit : Visit} {type : BitVec 16}
    {server : ServerStatus} {goesOn : Bool}
    (done : sys.addServer proto visit type server = some (next, goesOn)) :
    next = sys ∨ 0 < visit.fds 0 ∧ goesOn = true ∧ ∃ ip, strcpy server.server_ip = some ip ∧
      Launch objects next sys.net.next sys.nextNode
        (serverNodeConn sys.nextNode sys.net.next (visit.fds 0) type server.node_id)
        (serverNode sys.nextNode sys.net.next type server.node_id ip) := by
  unfold Sys.addServer at done
  split_ifs at done with known
  · cases done
    exact .inl rfl
  · obtain ⟨⟨net, conn⟩, connected, done⟩ := Option.bind_eq_some_iff.mp done
    rcases connect_cases reads.net connected with ⟨-, rfl, rfl⟩ | ⟨valid, rfl, opened⟩
    · cases done
      exact .inl rfl
    · right
      have created : Reads { sys with net := net } (objects.setConn sys.net.next
          (some ⟨clientConn sys.net.next (visit.fds 0), []⟩)) := reads.withNet opened
      obtain ⟨⟨listed, place⟩, added, done⟩ := Option.bind_eq_some_iff.mp done
      have absent := created.fresh_node
      obtain ⟨rfl, -, stored⟩ := addNode_reads created added
      obtain ⟨ip, copied, done⟩ := Option.bind_eq_some_iff.mp done
      obtain ⟨middle, set, done⟩ := Option.bind_eq_some_iff.mp done
      have waiting := setNodeInfo_reads stored (Function.update_self ..) (by decide) set
      have called := waiting.assign (Function.update_self ..)
        (f := fun conn => { conn with cb := some sys.nextNode })
        ⟨fun _ => rfl, fun _ => rfl, fun _ => rfl, fun _ => rfl⟩
      have linked := assignNode_reads called (Function.update_self ..)
        (f := fun node => attached (node.setAddrs ip) sys.net.next) fun _ => rfl
      cases done
      simp only [Objects.setConn_setConn, Objects.setNode_setConn, Objects.setNode_setNode]
        at linked
      change Reads _ ((objects.setConn sys.net.next (some (serverNodeConn sys.nextNode sys.net.next
        (visit.fds 0) type server.node_id))).setNode sys.nextNode
          (some (serverNode sys.nextNode sys.net.next type server.node_id ip))) at linked
      have unconnected : Armed
          (serverNodeConn sys.nextNode sys.net.next (visit.fds 0) type server.node_id) :=
        armed_of_state (by simp [serverNodeConn, enrolled, inState])
      have client := (installed_server sys.nextNode sys.net.next (visit.fds 0) type server.node_id
        ip).client
      exact ⟨valid, rfl, ip, copied, reads.net.fresh, client, unconnected, absent, rfl,
        requestAuthentication_reads proto linked ..⟩

theorem addServer_cases (reads : Reads sys objects) {visit : Visit} {type : BitVec 16}
    {server : ServerStatus} {goesOn : Bool}
    (done : sys.addServer proto visit type server = some (next, goesOn)) :
    Reads next objects ∨ ∃ addr place owned node, Launch objects next addr place owned node ∧
      Installed place addr owned node := by
  rcases addServer_launches reads done with rfl | ⟨-, -, ip, -, launch⟩
  · exact .inl reads
  · exact .inr ⟨_, _, _, _, launch, installed_server ..⟩

/-! ### Reconnects -/

/-- The connection that replaces the failed one of a node, in STATE_AUTH and with nothing of its
own to send. -/
structure Reborn (objects : Objects) (node : Node) (addr : Nat) (owned : Owned) : Prop where
  unused : objects.conns addr = none
  client : owned.conn.flag = .conn_client
  waits : owned.conn.state = .STATE_AUTH
  idle : owned.conn.send = .fresh
  inherits : ∀ old gone, node.m_context = some old → objects.conns old = some gone →
    owned.queue = gone.queue

/-- The queue of the failed connection goes over before the new one is set up. -/
theorem inherit_shows (linked : Linked objects) {node : Node} {net after : Net} {addr : Nat}
    {new : Owned} (here : objects.nodes node.addr = some node)
    (shown : Shows noStrays net (objects.setConn addr (some new)).conns)
    (unused : objects.conns addr = none) (given : Sys.takeOver net addr node.m_context = some after) :
    ∃ base, Shows noStrays after ((objects.dropContext node).setConn addr (some base)).conns ∧
      base.conn.flag = new.conn.flag ∧ base.conn.send = new.conn.send ∧
      (new.conn.cb = none → base.conn.cb = objects.callbackOf node) ∧
      ∀ old gone, node.m_context = some old → objects.conns old = some gone →
        base.queue = gone.queue := by
  cases context : node.m_context with
  | none =>
    rw [context] at given
    cases given
    refine ⟨new, ?_, rfl, rfl, fun same => ?_, fun _ _ link => nomatch link⟩
    swap
    · rw [same, Objects.callbackOf, context]
      rfl
    rw [Objects.dropContext, context]
    exact shown
  | some old =>
    rw [context, Sys.takeOver] at given
    obtain ⟨gone, there, -⟩ := linked.live here context
    have apart : addr ≠ old := by
      rintro rfl
      rw [unused] at there
      cases there
    have kept := Function.update_of_ne apart.symm (some new) objects.conns
    have old_there : (objects.setConn addr (some new)).conns old = some gone := kept.trans there
    have new_there : (objects.setConn addr (some new)).conns addr = some new :=
      Function.update_self ..
    rw [handOver_eq shown new_there old_there apart] at given
    cases given
    refine ⟨heir new gone, ?_, rfl, rfl, fun _ => ?_, ?_⟩
    · have moved := handed_shows shown new_there old_there apart
      rw [Objects.setConn_conns, Function.update_comm apart, Function.update_idem] at moved
      rw [Objects.dropContext, context]
      exact moved
    · rw [Objects.callbackOf, context, Option.bind_some, there]
      rfl
    · intro other owned link found
      cases link
      cases there.symm.trans found
      rfl

theorem reconnect_cases (reads : Reads sys objects) (linked : Linked objects) {visit : Visit}
    {sid : BitVec 16} {node : Node} (here : objects.nodes node.addr = some node)
    (done : sys.reconnect proto visit sid node = some next) :
    ¬ 0 < visit.fds 0 ∧ Reads next objects ∨
      0 < visit.fds 0 ∧ ∃ addr owned, Reborn objects node addr owned ∧
        owned.conn.cb = objects.callbackOf node ∧
        Reads next (((objects.dropContext node).setConn addr (some owned)).setNode node.addr
          (some (attached node addr))) := by
  unfold Sys.reconnect at done
  obtain ⟨⟨net, conn⟩, connected, done⟩ := Option.bind_eq_some_iff.mp done
  rcases connect_cases reads.net connected with ⟨failed, rfl, rfl⟩ | ⟨valid, rfl, opened⟩
  · cases done
    exact .inl ⟨failed, reads⟩
  · right
    have unused := reads.net.fresh
    have created : Reads { sys with net := net } (objects.setConn sys.net.next
        (some ⟨clientConn sys.net.next (visit.fds 0), []⟩)) := reads.withNet opened
    have asked := requestAuthentication_reads proto created visit.heap (visit.fds 0) sid node.m_id
    obtain ⟨after, given, done⟩ := Option.bind_eq_some_iff.mp done
    obtain ⟨base, shown, flag, send, cb, inherits⟩ :=
      inherit_shows linked here asked.net unused given
    have handed := asked.withNet shown
    have given : Reads _ ((objects.dropContext node).setConn sys.net.next (some base)) :=
      ⟨handed.net, handed.addrs, handed.below,
        handed.nodes.trans (objects.dropContext_nodes node).symm⟩
    obtain ⟨middle, set, done⟩ := Option.bind_eq_some_iff.mp done
    have waiting := setNodeInfo_reads given (Function.update_self ..) (by decide) set
    rw [Objects.setConn_setConn] at waiting
    cases done
    have there : ((objects.dropContext node).setConn sys.net.next
        (some (enrolled sid node.m_id .STATE_AUTH base))).nodes node.addr = some node := by
      rw [Objects.setConn_nodes, Objects.dropContext_nodes, here]
    have stored := assignNode_reads waiting there (f := fun node => attached node sys.net.next)
      fun _ => rfl
    refine ⟨valid, sys.net.next, enrolled sid node.m_id .STATE_AUTH base,
      ⟨unused, ?_, rfl, ?_, inherits⟩, cb (clientConn_cb ..), stored⟩
    · exact flag.trans (clientConn_flag ..)
    · exact send.trans (clientConn_send ..)

/-- A node that is given up leaves with its connection, and the router registers again. -/
theorem giveUp_cases (reads : Reads sys objects) (linked : Linked objects) {visit : Visit}
    {sid : BitVec 16} {node : Node} (here : objects.nodes node.addr = some node)
    (done : sys.giveUp proto visit sid node = some next) :
    Reads next ((objects.dropContext node).setNode node.addr none) ∨
      ∃ addr place owned other,
        Launch ((objects.dropContext node).setNode node.addr none) next addr place owned other ∧
        Installed place addr owned other := by
  have erased := eraseNode_reads reads node.addr
  obtain ⟨cleared, closed, done⟩ := Option.bind_eq_some_iff.mp done
  have dropped : Reads cleared ((objects.dropContext node).setNode node.addr none) := by
    cases context : node.m_context with
    | none =>
      rw [context, Sys.closeContext] at closed
      cases closed
      rw [Objects.dropContext, context]
      exact erased
    | some old =>
      obtain ⟨gone, there, -⟩ := linked.live here context
      rw [context, Sys.closeContext, erased.net.deref there] at closed
      cases closed
      rw [Objects.dropContext, context]
      exact erased.withNet (closeConnection_shows erased.net there)
  split_ifs at done with router
  · exact registReq_cases dropped done
  · cases done
    exact .inl dropped

/-! ### The loop of checkState -/

/-- Apart from one node and its connection, what was in the tables still is. -/
structure Spares (place : Nat) (before after : Objects) : Prop where
  nodes : ∀ {other node}, before.nodes other = some node → other ≠ place →
    after.nodes other = some node
  conns : ∀ {addr owned}, before.conns addr = some owned →
    (∀ node, before.nodes place = some node → node.m_context ≠ some addr) →
    after.conns addr = some owned

theorem Spares.refl (place : Nat) (objects : Objects) : Spares place objects objects :=
  ⟨fun here _ => here, fun here _ => here⟩

theorem ne_of_unused {table : Nat → Option Owned} {addr other : Nat} {owned : Owned}
    (unused : table addr = none) (here : table other = some owned) : other ≠ addr := by
  rintro rfl
  rw [unused] at here
  cases here

theorem spares_cleared {node : Node} (here : objects.nodes node.addr = some node) :
    Spares node.addr objects ((objects.dropContext node).setNode node.addr none) where
  nodes := by
    intro other kept there differs
    rw [Objects.setNode_nodes, Function.update_of_ne differs, Objects.dropContext_nodes, there]
  conns := by
    intro addr owned there apart
    rw [Objects.setNode_conns, objects.dropContext_conns_of_ne (apart node here), there]

theorem Spares.launch {place : Nat} {before : Objects} (spares : Spares place before objects)
    {addr created : Nat} {owned : Owned} {node : Node}
    (launch : Launch objects next addr created owned node) :
    Spares place before ((objects.setConn addr (some owned)).setNode created (some node)) where
  nodes := by
    intro other kept there differs
    have still := spares.nodes there differs
    have apart : other ≠ created := by
      rintro rfl
      rw [launch.absent] at still
      cases still
    rw [Objects.setNode_nodes, Function.update_of_ne apart, Objects.setConn_nodes, still]
  conns := by
    intro other held there apart
    have still := spares.conns there apart
    rw [Objects.setNode_conns, Objects.setConn_conns,
      Function.update_of_ne (ne_of_unused launch.unused still), still]

theorem Reborn.spares {node : Node} {addr : Nat} {owned : Owned}
    (reborn : Reborn objects node addr owned) (here : objects.nodes node.addr = some node)
    (stored : Node) :
    Spares node.addr objects
      (((objects.dropContext node).setConn addr (some owned)).setNode node.addr (some stored)) where
  nodes := by
    intro other kept there differs
    rw [Objects.setNode_nodes, Function.update_of_ne differs, Objects.setConn_nodes,
      Objects.dropContext_nodes, there]
  conns := by
    intro other held there apart
    rw [Objects.setNode_conns, Objects.setConn_conns,
      Function.update_of_ne (ne_of_unused reborn.unused there),
      objects.dropContext_conns_of_ne (apart node here), there]

theorem Spares.counted {node counted : Node} {after : Objects}
    (context : counted.m_context = node.m_context)
    (here : objects.nodes node.addr = some node)
    (spares : Spares node.addr (objects.setNode node.addr (some counted)) after) :
    Spares node.addr objects after where
  nodes := by
    intro other kept there differs
    exact spares.nodes ((Function.update_of_ne differs ..).trans there) differs
  conns := by
    intro addr owned there apart
    apply spares.conns there
    intro stored found
    rw [Objects.setNode_nodes, Function.update_self] at found
    cases found
    rw [context]
    exact apart node here

theorem persistent_of_needReconnect {node : Node} (again : node.needReconnect.1 = true) :
    node.m_persist = true := by
  unfold Node.needReconnect at again
  split_ifs at again with persist
  exact persist

/-- One pass of the loop body. -/
theorem checkNode_spec (reads : Reads sys objects) (linked : Linked objects)
    {visits : Nat → Visit} {sid : BitVec 16} {place : Nat}
    (done : sys.checkNode proto sid visits place = some next) :
    ∃ after, Reads next after ∧ Course noFailure objects after ∧ Spares place objects after := by
  obtain ⟨node, pointed, done⟩ := Option.bind_eq_some_iff.mp done
  have here : objects.nodes place = some node := by rw [← reads.nodes, pointed]
  obtain ⟨-, rfl⟩ := reads.mem_of_node here
  split_ifs at done with failed
  · -- the counter moves first
    obtain ⟨counted, there⟩ := counted_reads reads here
    have counts : Turn noFailure objects (objects.setNode node.addr (some node.needReconnect.2)) :=
      .counted here
    have countedLinked := linked_moves linked (turn_moves counts)
    have context := needReconnect_context node
    dsimp only at done
    split_ifs at done with again
    · rcases reconnect_cases counted countedLinked there done with
        ⟨-, same⟩ | ⟨-, addr, owned, reborn, cb, reads⟩
      · exact ⟨_, same, .single counts, .counted context here (.refl ..)⟩
      · have persistent : node.needReconnect.2.m_persist = true := by
          rw [needReconnect_persist, persistent_of_needReconnect again]
        refine ⟨_, reads, .tail (.single counts) (.resumed reborn.unused there reborn.client
          reborn.waits cb rfl rfl rfl persistent), ?_⟩
        have spares := reborn.spares there (attached node.needReconnect.2 addr)
        rw [needReconnect_addr] at spares ⊢
        exact .counted context here spares
    · have cleared := spares_cleared there
      rcases giveUp_cases counted countedLinked there done with
        same | ⟨addr, created, owned, other, launch, installed⟩
      · refine ⟨_, same, .tail (.single counts) (.removed there), ?_⟩
        rw [needReconnect_addr] at cleared ⊢
        exact .counted context here cleared
      · refine ⟨_, launch.reads, .tail (.tail (.single counts) (.removed there))
          (.launched launch.unused launch.absent installed launch.armed), ?_⟩
        have spares := cleared.launch launch
        rw [needReconnect_addr] at spares ⊢
        exact .counted context here spares
  · cases done
    exact ⟨objects, reads, .refl, .refl ..⟩

theorem checkState_turned (reads : Reads sys objects) (linked : Linked objects)
    {service : Nat} {visits : Nat → Visit}
    (done : sys.checkState proto service visits = some next) : Turned noFailure objects next := by
  obtain ⟨snode, -, done⟩ := Option.bind_eq_some_iff.mp done
  rw [foldlM_eq_run] at done
  apply run_invariant (fun state => Turned noFailure objects state) ?_ (.refl reads) done
  rintro state place after ⟨middle, here, course⟩ visited
  have stillLinked := linked_moves linked (course_moves course)
  obtain ⟨last, there, further, -⟩ := checkNode_spec here stillLinked visited
  exact ⟨last, there, course.trans further⟩

theorem addServer_turned (reads : Reads sys objects) {visit : Visit} {type : BitVec 16}
    {server : ServerStatus} {goesOn : Bool}
    (done : sys.addServer proto visit type server = some (next, goesOn)) :
    Turned noFailure objects next := by
  rcases addServer_cases reads done with same | ⟨addr, place, owned, node, launch, installed⟩
  · exact .refl same
  · exact launch.turned installed

/-- What each addition of a server keeps, a push keeps. -/
theorem srvinfoBroadcast_keeps (inv : Sys → Prop)
    (added : ∀ (sys next : Sys) (visit : Visit) (type : BitVec 16) (server : ServerStatus)
      (goesOn : Bool), inv sys → sys.addServer proto visit type server = some (next, goesOn) →
      inv next)
    {visits : Nat → Visit} {msg : IMString} (initial : inv sys)
    (done : sys.srvinfoBroadcast proto visits msg = some next) : inv next := by
  unfold Sys.srvinfoBroadcast at done
  split at done
  · cases done
    exact initial
  · next servers parsed =>
    obtain ⟨last, looped, rfl⟩ := Option.map_eq_some_iff.mp done
    rw [foldlM_eq_run] at looped
    apply run_invariant (fun state : Sys × Bool => inv state.1) ?_ initial looped
    rintro ⟨state, going⟩ each ⟨after, stillGoing⟩ holds stepped
    dsimp only at stepped
    split_ifs at stepped
    · exact added _ _ _ _ _ _ holds stepped
    · cases stepped
      exact holds

theorem srvinfoBroadcast_turned (reads : Reads sys objects) {visits : Nat → Visit}
    {msg : IMString} (done : sys.srvinfoBroadcast proto visits msg = some next) :
    Turned noFailure objects next := by
  apply srvinfoBroadcast_keeps (Turned noFailure objects) ?_ (.refl reads) done
  rintro state after visit type server goesOn ⟨middle, here, course⟩ added
  exact .after course (addServer_turned here added)

/-! ### Steps of the program -/

/-- The steps that take an old connection into STATE_CONNECTED. -/
def Authenticates : Action → Prop
  | .authenticationReq .. => True
  | .authenticationRsp .. => True
  | _ => False

/-- One connection fails in a step, or none does. -/
theorem step_cases (reads : Reads sys objects) (linked : Linked objects) {action : Action}
    (calm : ¬Authenticates action) (stepped : step proto sys action = some next) :
    (∀ addr, ¬Fails proto.toServiceID sys action addr) ∧ Turned noFailure objects next ∨
      ∃ addr, Fails proto.toServiceID sys action addr ∧
        Breaks (Fails proto.toServiceID sys action) objects addr next := by
  cases action with
  | listen fd =>
    obtain ⟨net, done, rfl⟩ := Option.map_eq_some_iff.mp stepped
    exact .inl ⟨fun _ => id, listen_turned reads done⟩
  | accept event =>
    obtain ⟨net, done, rfl⟩ := Option.map_eq_some_iff.mp stepped
    exact .inl ⟨fun _ => id, accept_turned reads done⟩
  | connect fd =>
    obtain ⟨⟨net, conn⟩, done, rfl⟩ := Option.map_eq_some_iff.mp stepped
    exact .inl ⟨fun _ => id, connect_turned reads done⟩
  | sendSock msg fd =>
    obtain ⟨⟨code, net⟩, done, rfl⟩ := Option.map_eq_some_iff.mp stepped
    exact .inl ⟨fun _ => id, sendFirst_turned reads (by decide) done⟩
  | sendNode msg nid =>
    obtain ⟨⟨code, net⟩, done, rfl⟩ := Option.map_eq_some_iff.mp stepped
    exact .inl ⟨fun _ => id, sendFirst_turned reads (by decide) done⟩
  | sendDb msg =>
    obtain ⟨⟨code, net⟩, done, rfl⟩ := Option.map_eq_some_iff.mp stepped
    exact .inl ⟨fun _ => id, sendFirst_turned reads (by decide) done⟩
  | sendState msg =>
    obtain ⟨⟨code, net⟩, done, rfl⟩ := Option.map_eq_some_iff.mp stepped
    exact .inl ⟨fun _ => id, sendFirst_turned reads (by decide) done⟩
  | read addr event heap =>
    rcases read_cases reads stepped with ⟨holds, turned⟩ | broke
    · refine .inl ⟨?_, turned⟩
      rintro other ⟨rfl, fails⟩
      exact holds ⟨rfl, fails⟩
    · exact .inr ⟨addr, broke⟩
  | write addr outcomes heap =>
    rcases write_cases reads stepped with ⟨holds, turned⟩ | broke
    · refine .inl ⟨?_, turned⟩
      rintro other ⟨rfl, fails⟩
      exact holds ⟨rfl, fails⟩
    · exact .inr ⟨addr, broke⟩
  | authenticationReq addr msg heap => exact absurd trivial calm
  | authenticationRsp addr msg heap => exact absurd trivial calm
  | checkState service visits => exact .inl ⟨fun _ => id, checkState_turned reads linked stepped⟩
  | srvinfoBroadcast msg visits => exact .inl ⟨fun _ => id, srvinfoBroadcast_turned reads stepped⟩
  | registReq visit =>
    rcases registReq_cases reads stepped with same | ⟨addr, place, owned, node, launch, installed⟩
    · exact .inl ⟨fun _ => id, .refl same⟩
    · exact .inl ⟨fun _ => id, launch.turned installed⟩

theorem step_turned (reads : Reads sys objects) (linked : Linked objects) {action : Action}
    (calm : ¬Authenticates action) (stepped : step proto sys action = some next) :
    Turned (Fails proto.toServiceID sys action) objects next := by
  rcases step_cases reads linked calm stepped with ⟨-, turned⟩ | ⟨addr, -, breaks⟩
  · exact turned_of_noFailure turned
  · exact breaks.turned

theorem step_simulated (reads : Reads sys objects) (linked : Linked objects) {action : Action}
    (calm : ¬Authenticates action) (stepped : step proto sys action = some next) :
    Simulated objects next :=
  simulated_of_turned (step_turned reads linked calm stepped)

/-- The state of the program reads as tables with sound links. -/
def Consistent (sys : Sys) : Prop := ∃ objects, Reads sys objects ∧ Linked objects

/-- The program before its first step, with the services of its configuration. -/
def start (types : List (BitVec 16)) : Sys where
  net := .empty
  services := types.map fun type => ⟨type, []⟩
  nextNode := 0
  effects := []

theorem start_nodes (types : List (BitVec 16)) : nodesOf (start types).services = [] := by
  induction types with
  | nil => rfl
  | cons type types ih => exact ih

theorem start_reads (types : List (BitVec 16)) :
    Reads (start types) ⟨fun _ => none, fun _ => none⟩ where
  net := empty_shows
  addrs := by
    rw [start_nodes]
    exact .nil
  below := by
    rw [start_nodes]
    simp
  nodes := by
    funext addr
    change lookup Node.addr addr (nodesOf (start types).services) = none
    rw [start_nodes]
    rfl

theorem start_consistent (types : List (BitVec 16)) : Consistent (start types) :=
  ⟨_, start_reads types, ⟨(nomatch ·), (nomatch ·)⟩⟩

theorem step_consistent (consistent : Consistent sys) {action : Action}
    (stepped : step proto sys action = some next) : Consistent next := by
  obtain ⟨objects, reads, linked⟩ := consistent
  by_cases calm : Authenticates action
  · cases action <;> try exact absurd calm id
    case authenticationReq addr msg heap =>
      rcases authenticationReq_cases reads stepped with
        ⟨-, rfl⟩ | ⟨sid, nid, owned, -, here, ⟨-, after⟩ | ⟨auth, -, after⟩⟩
      · exact ⟨objects, reads, linked⟩
      · exact ⟨_, after, linked_changed linked here rfl⟩
      · exact ⟨_, after, linked_changed linked here (sent_flag ..)⟩
    case authenticationRsp addr msg heap =>
      rcases authenticationRsp_cases reads stepped with
        ⟨-, rfl⟩ | ⟨sid, nid, node, owned, -, -, there, here, after⟩
      · exact ⟨objects, reads, linked⟩
      · have able := linked_setNode linked there
          (show (node.setState .NODE_ABLE).m_context = node.m_context from rfl)
        exact ⟨_, after, linked_changed able here rfl⟩
  · obtain ⟨after, reads, moves⟩ := step_simulated reads linked calm stepped
    exact ⟨after, reads, linked_moves linked moves⟩

/-- In every reachable state the tables are well formed, and the contexts of the nodes are
client connections, one for each node that has one. -/
theorem run_consistent {types : List (BitVec 16)} {actions : List Action}
    (reached : run (step proto) (start types) actions = some sys) : Consistent sys :=
  run_invariant Consistent (fun _ _ _ consistent stepped => step_consistent consistent stepped)
    (start_consistent types) reached

end Steps

end SNFrame.System.Supervision
