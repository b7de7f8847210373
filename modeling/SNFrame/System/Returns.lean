import SNFrame.System.Arming
import SNFrame.System.Links
import SNFrame.System.Services

/-! A step has no result when it follows a pointer to an object that is gone. With what a call
meets outside the program in order, no step does. -/

namespace SNFrame.System.Returns
open Library.Octet Library.Transition Library.Table Base.PbBuf Core.Receiving Core.Sending
open Core.TcpParse Core.NetManager Core.NodeMgr Ownership Tables Turns Handover Simulation
open Supervision Services Links Arming

section Steps
variable {sys next : Sys} {objects : Objects} {proto : Proto} {heap : Heap} {addr : Nat}
  {owned : Owned}

/-- The kernel does not return a descriptor that is open. -/
def Unopened (net : Net) (fd : Int) : Prop := 0 < fd → net.findFd fd = none

theorem connect_returns {net : Net} {fd : Int} (unopened : Unopened net fd) :
    ∃ after conn, net.connect fd = some (after, conn) := by
  unfold Net.connect
  split_ifs with valid used
  · rw [unopened valid] at used
    cases used
  · exact ⟨_, _, rfl⟩
  · exact ⟨_, _, rfl⟩

theorem setState_calm_returns (heap : Heap) (reads : Reads sys objects)
    (here : objects.conns addr = some owned) {state : ConnState} (calm : ¬Broken state) :
    ∃ next, sys.setState heap addr state = some next := by
  simp only [Sys.setState, reads.net.deref here]
  rw [if_neg (show ¬(state = .STATE_CLOSED ∨ state = .STATE_ERROR) from calm)]
  exact ⟨_, rfl⟩

theorem setState_returns (heap : Heap) (reads : Reads sys objects)
    (here : objects.conns addr = some owned)
    (called : ∀ place, owned.conn.cb = some place → ∃ node, objects.nodes place = some node)
    (state : ConnState) : ∃ next, sys.setState heap addr state = some next := by
  simp only [Sys.setState, reads.net.deref here]
  split_ifs
  · cases callback : owned.conn.cb with
    | none => exact ⟨_, rfl⟩
    | some place =>
      obtain ⟨node, there⟩ := called place callback
      have pointed := congrFun (storeState_reads reads here state).nodes place
      rw [Objects.setConn_nodes, there] at pointed
      simp only [Sys.notifyNodeState, pointed, Option.map_some]
      exact ⟨_, rfl⟩
  · exact ⟨_, rfl⟩

theorem fail_returns (reads : Reads sys objects) (bound : Bound objects)
    (here : objects.conns addr = some owned) {state : ConnState} (failed : Broken state) :
    ∃ next, sys.fail heap addr state = some next := by
  have called : ∀ place, owned.conn.cb = some place → ∃ node, objects.nodes place = some node := by
    intro place callback
    obtain ⟨node, there, -⟩ := bound.called here callback
    exact ⟨node, there⟩
  obtain ⟨middle, set⟩ := setState_returns heap reads here called state
  have noted : Reads middle (broken objects addr owned state) :=
    setState_broken reads here failed set
  have there := broken_here objects addr owned state
  simp only [Sys.fail, set, Option.bind_eq_bind, Option.bind_some, noted.net.deref there]
  exact ⟨_, rfl⟩

theorem read_returns (reads : Reads sys objects) (bound : Bound objects)
    (here : objects.conns addr = some owned) {sids : ServiceID} {event : ReadEvent} {ended : ReadEnd}
    (ends : readThenParse sids event owned.conn.recv = .ok (some ended)) :
    ∃ next, sys.read sids heap addr event = some next := by
  have stored := fun recv => reads.assign here (f := fun conn => { conn with recv := recv })
    ⟨fun _ => rfl, fun _ => rfl, fun _ => rfl, fun _ => rfl⟩
  simp only [Sys.read, reads.net.deref here, Option.bind_eq_bind, Option.bind_some, ends]
  cases ended with
  | parsed recv out => exact ⟨_, rfl⟩
  | failed recv state =>
    have changed : Bound (objects.setConn addr
        (some ⟨{ owned.conn with recv := recv }, owned.queue⟩)) := bound_changed bound here rfl rfl
    exact fail_returns (stored recv) changed (Function.update_self ..) (readThenParse_failed ends)

theorem write_returns (reads : Reads sys objects) (bound : Bound objects)
    (here : objects.conns addr = some owned) {outcomes : List SendResult} {result : IoResult}
    (ends : (write outcomes owned.queue owned.conn.send).result = some result) :
    ∃ next, sys.write heap addr outcomes = some next := by
  obtain ⟨net, wrote, shown⟩ := writeConn_shows reads.net here outcomes
  have stored : Reads { sys with net := net }
      (objects.setConn addr (some (owned.written outcomes))) := reads.withNet shown
  have there : (objects.setConn addr (some (owned.written outcomes))).conns addr =
      some (owned.written outcomes) := Function.update_self ..
  have changed : Bound (objects.setConn addr (some (owned.written outcomes))) :=
    bound_changed bound here rfl rfl
  simp only [Sys.write, wrote, Option.bind_eq_bind, Option.bind_some, ends]
  split
  · next none => cases none
  · exact fail_returns stored changed there (.inr rfl)
  · exact fail_returns stored changed there (.inl rfl)
  · simp only [stored.net.deref there, stored.net.emptyConn there, Option.bind_some]
    exact ⟨_, rfl⟩

theorem sendSock_returns (reads : Reads sys objects) (here : objects.conns addr = some owned)
    (msg : IMString) : ∃ next, ((sys.net.sendSock msg owned.conn.fd).map fun sent =>
      { sys with net := sent.2 }) = some next := by
  obtain ⟨net, sent, -⟩ := sendSock_shows reads.net here msg
  rw [sent]
  exact ⟨_, rfl⟩

theorem authenticationReq_returns (reads : Reads sys objects)
    (here : objects.conns addr = some owned) (msg : IMString) :
    ∃ next, sys.authenticationReq proto heap addr msg = some next := by
  unfold Sys.authenticationReq
  split
  · exact ⟨_, rfl⟩
  · next sid nid parsed =>
    have named := reads.assign here (f := fun conn => { conn with sid := sid, nid := nid })
      ⟨fun _ => rfl, fun _ => rfl, fun _ => rfl, fun _ => rfl⟩
    have calm : ¬Broken .STATE_CONNECTED := by decide
    obtain ⟨middle, set⟩ := setState_calm_returns heap named (Function.update_self ..) calm
    have connected := setNodeInfo_reads reads here calm set
    have there := Function.update_self addr (some (enrolled sid nid .STATE_CONNECTED owned))
      objects.conns
    simp only [set, Option.bind_eq_bind, Option.bind_some, connected.net.deref there]
    split
    · exact ⟨_, rfl⟩
    · exact sendSock_returns connected there _

theorem authenticationRsp_returns (reads : Reads sys objects)
    (here : objects.conns addr = some owned) (msg : IMString) :
    ∃ next, sys.authenticationRsp proto heap addr msg = some next := by
  unfold Sys.authenticationRsp
  split
  · exact ⟨_, rfl⟩
  · split
    · exact ⟨_, rfl⟩
    · next sid nid parsed node found =>
      have able := assignNode_reads reads (reads.node_of_find found)
        (f := (·.setState .NODE_ABLE)) fun _ => rfl
      exact setState_calm_returns heap able here (by decide)

theorem connectTries_returns {net : Net} (count : Nat) {fds : Nat → Int}
    (unopened : ∀ tried, Unopened net (fds tried)) :
    ∃ after conn, Sys.connectTries count fds net = some (after, conn) := by
  induction count generalizing fds with
  | zero => exact ⟨_, _, rfl⟩
  | succ count ih =>
    obtain ⟨after, conn, connected⟩ := connect_returns (unopened 0)
    simp only [Sys.connectTries, connected, Option.bind_eq_bind, Option.bind_some]
    cases conn with
    | some addr => exact ⟨_, _, rfl⟩
    | none =>
      have same : after = net := by
        unfold Net.connect at connected
        split_ifs at connected <;> cases connected
        rfl
      rw [same]
      exact ih fun tried => unopened (tried + 1)

theorem pushNode_isSome {node : Node} {services : List ServiceNode} :
    (Sys.pushNode node services).isSome ↔ ∃ snode ∈ services, snode.m_sid = node.m_type := by
  induction services with
  | nil => simp [Sys.pushNode]
  | cons snode rest ih =>
    rw [Sys.pushNode]
    split_ifs with same
    · simp [same]
    · simp [ih, same]

theorem addNode_returns (sys : Sys) {sid : BitVec 16} (nid : BitVec 32)
    (served : sid ∈ (outline sys).map Shelf.m_sid) :
    ∃ next place, sys.addNode sid nid = some (next, place) := by
  obtain ⟨shelf, inside, typed⟩ := List.mem_map.mp served
  obtain ⟨snode, listed, rfl⟩ := List.mem_map.mp inside
  have pushed : (Sys.pushNode (.fresh sys.nextNode sid nid) sys.services).isSome :=
    pushNode_isSome.mpr ⟨snode, listed, typed⟩
  obtain ⟨services, pushed⟩ := Option.isSome_iff_exists.mp pushed
  simp only [Sys.addNode, pushed, Option.map_some]
  exact ⟨_, _, rfl⟩

/-- A registration returns when the router is one of the services and has an address that fits. -/
theorem registReq_returns (reads : Reads sys objects) {visit : Visit}
    (unopened : ∀ tried, Unopened sys.net (visit.fds tried))
    (served : proto.SID_ROUTER ∈ (outline sys).map Shelf.m_sid)
    (fits : Connects visit → Fits visit.routerIP) :
    ∃ next, sys.registReq proto visit = some next := by
  unfold Sys.registReq
  split_ifs with configured
  · obtain ⟨net, conn, tried⟩ := connectTries_returns 4 unopened
    have connects := connectTries_isSome tried
    simp only [tried, Option.bind_eq_bind, Option.bind_some]
    rcases connectTries_cases reads.net tried with ⟨rfl, rfl⟩ | ⟨fd, rfl, opened⟩
    · exact ⟨_, rfl⟩
    · obtain ⟨ip, copied⟩ := strcpy_of_fits (fits ⟨configured, connects.mp rfl⟩)
      have created : Reads { sys with net := net }
          (objects.setConn sys.net.next (some ⟨clientConn sys.net.next fd, []⟩)) :=
        reads.withNet opened
      have calm : ¬Broken .STATE_CONNECTED := by decide
      have named := created.assign (Function.update_self ..)
        (f := fun conn => { conn with sid := proto.SID_ROUTER, nid := 0 })
        ⟨fun _ => rfl, fun _ => rfl, fun _ => rfl, fun _ => rfl⟩
      obtain ⟨middle, set⟩ :=
        setState_calm_returns visit.heap named (Function.update_self ..) calm
      have connected := setNodeInfo_reads created (Function.update_self ..) calm set
      rw [Objects.setConn_setConn] at connected
      have same : outline middle = outline sys := (outline_setState set).trans rfl
      obtain ⟨listed, place, added⟩ := addNode_returns _ 0 (same ▸ served)
      obtain ⟨rfl, -, stored⟩ := addNode_reads connected added
      have linked := assignNode_reads stored (Function.update_self ..)
        (f := fun node => { { node.setAddrs ip with
          m_context := some sys.net.next }.setState .NODE_ABLE with m_persist := false }) fun _ => rfl
      have there := Function.update_self sys.net.next (some (routerConn proto sys.net.next fd))
        objects.conns
      simp only [copied, set, added, Option.bind_some, linked.net.deref there]
      split
      · exact ⟨_, rfl⟩
      · exact sendSock_returns linked there _
  · exact ⟨_, rfl⟩

theorem mem_sids_of_findService {sid : BitVec 16} (served : (sys.findService sid).isSome) :
    sid ∈ (outline sys).map Shelf.m_sid := by
  obtain ⟨snode, found⟩ := Option.isSome_iff_exists.mp served
  have typed : snode.m_sid = sid := by simpa using List.find?_some found
  rw [← typed]
  exact List.mem_map_of_mem (List.mem_map_of_mem (f := shelfOf) (List.mem_of_find?_eq_some found))

theorem addServer_returns (reads : Reads sys objects) {visit : Visit}
    (unopened : Unopened sys.net (visit.fds 0)) {type : BitVec 16} {server : ServerStatus}
    (fits : ¬Settled sys type server.node_id → 0 < visit.fds 0 → Fits server.server_ip) :
    ∃ next, sys.addServer proto visit type server = some next := by
  unfold Sys.addServer
  split_ifs with known
  · exact ⟨_, rfl⟩
  · obtain ⟨net, conn, connected⟩ := connect_returns unopened
    simp only [connected, Option.bind_eq_bind, Option.bind_some]
    rcases connect_cases reads.net connected with ⟨-, rfl, rfl⟩ | ⟨valid, rfl, opened⟩
    · exact ⟨_, rfl⟩
    · obtain ⟨ip, copied⟩ := strcpy_of_fits (fits known valid)
      have created : Reads { sys with net := net } (objects.setConn sys.net.next
          (some ⟨clientConn sys.net.next (visit.fds 0), []⟩)) := reads.withNet opened
      have served : type ∈ (outline sys).map Shelf.m_sid := by
        apply mem_sids_of_findService
        simpa [Option.isSome_iff_ne_none] using (not_or.mp known).2
      obtain ⟨listed, place, added⟩ :=
        addNode_returns { sys with net := net } server.node_id served
      obtain ⟨rfl, -, stored⟩ := addNode_reads created added
      have named := stored.assign (Function.update_self ..)
        (f := fun conn => { conn with sid := type, nid := server.node_id })
        ⟨fun _ => rfl, fun _ => rfl, fun _ => rfl, fun _ => rfl⟩
      obtain ⟨middle, set⟩ := setState_calm_returns visit.heap named
        (Function.update_self ..) (by decide : ¬Broken .STATE_AUTH)
      simp only [added, copied, set, Option.bind_some]
      exact ⟨_, rfl⟩

/-- The old connection of a node is there to hand over its queue. -/
theorem takeOver_returns (bound : Bound objects) {node : Node} {net : Net} {new : Owned}
    (here : objects.nodes node.addr = some node) (unused : objects.conns addr = none)
    (shown : Shows noStrays net (objects.setConn addr (some new)).conns) :
    ∃ after, Sys.takeOver net addr node.m_context = some after := by
  obtain ⟨old, gone, has, there, -⟩ := bound.answered here
  have apart : addr ≠ old := (ne_of_unused unused there).symm
  have new_there : (objects.setConn addr (some new)).conns addr = some new :=
    Function.update_self ..
  have old_there : (objects.setConn addr (some new)).conns old = some gone :=
    (Function.update_of_ne apart.symm ..).trans there
  rw [has, Sys.takeOver, handOver_eq shown new_there old_there apart]
  exact ⟨_, rfl⟩

theorem reconnect_returns (reads : Reads sys objects) (bound : Bound objects) {visit : Visit}
    {sid : BitVec 16} {node : Node} (here : objects.nodes node.addr = some node)
    (unopened : Unopened sys.net (visit.fds 0)) :
    ∃ next, sys.reconnect proto visit sid node = some next := by
  obtain ⟨net, conn, connected⟩ := connect_returns unopened
  simp only [Sys.reconnect, connected, Option.bind_eq_bind, Option.bind_some]
  rcases connect_cases reads.net connected with ⟨-, rfl, rfl⟩ | ⟨-, rfl, opened⟩
  · exact ⟨_, rfl⟩
  · have unused := reads.net.fresh
    have created : Reads { sys with net := net } (objects.setConn sys.net.next
        (some ⟨clientConn sys.net.next (visit.fds 0), []⟩)) := reads.withNet opened
    have asked := requestAuthentication_reads proto created visit.heap (visit.fds 0) sid node.m_id
    obtain ⟨after, given⟩ := takeOver_returns bound here unused asked.net
    obtain ⟨base, shown, -⟩ := inherit_shows bound.linked here asked.net unused given
    have handed := asked.withNet shown
    have handed : Reads _ ((objects.dropContext node).setConn sys.net.next (some base)) :=
      ⟨handed.net, handed.addrs, handed.below,
        handed.nodes.trans (objects.dropContext_nodes node).symm⟩
    have named := handed.assign (Function.update_self ..)
      (f := fun conn => { conn with sid := sid, nid := node.m_id })
      ⟨fun _ => rfl, fun _ => rfl, fun _ => rfl, fun _ => rfl⟩
    obtain ⟨middle, set⟩ := setState_calm_returns visit.heap named
      (Function.update_self ..) (by decide : ¬Broken .STATE_AUTH)
    simp only [given, set, Option.bind_some]
    exact ⟨_, rfl⟩

/-- The descriptors that a registration gets after the old connection is closed. -/
def ReopensFor (visit : Visit) (net : Net) (node : Node) : Prop :=
  ∀ conn, node.m_context.bind net.deref = some conn →
    ∀ tried, Unopened (net.closeConnection conn.fd) (visit.fds tried)

theorem giveUp_returns (reads : Reads sys objects) (bound : Bound objects) {visit : Visit}
    {sid : BitVec 16} {node : Node} (here : objects.nodes node.addr = some node)
    (served : sid ∈ (outline sys).map Shelf.m_sid)
    (unopened : sid = proto.SID_ROUTER → ReopensFor visit sys.net node)
    (fits : sid = proto.SID_ROUTER → Connects visit → Fits visit.routerIP) :
    ∃ next, sys.giveUp proto visit sid node = some next := by
  obtain ⟨old, gone, has, there, -⟩ := bound.answered here
  have erased := eraseNode_reads reads node.addr
  have pointed : sys.net.deref old = some gone.conn := reads.net.deref there
  have cleared := erased.withNet (closeConnection_shows erased.net there)
  have stillServed : sid ∈ (outline (sys.eraseNode node.addr)).map Shelf.m_sid := by
    rw [outline_eraseNode, sids_erase]
    exact served
  simp only [Sys.giveUp, has, Sys.closeContext, erased.net.deref there, Option.map_some,
    Option.bind_eq_bind, Option.bind_some]
  split_ifs with router
  · apply registReq_returns cleared
    · exact unopened router gone.conn (by rw [has, Option.bind_some, pointed])
    · exact router ▸ stillServed
    · exact fits router
  · exact ⟨_, rfl⟩

/-- The descriptors that a visit of `checkState` gets are not open when it gets them. -/
def Reopens (proto : Proto) (sid : BitVec 16) (visits : Nat → Visit) (sys : Sys) (addr : Nat) :
    Prop :=
  ∀ node, sys.derefNode addr = some node → Lost node.m_state →
    (node.needReconnect.1 = true → Unopened sys.net ((visits addr).fds 0)) ∧
    (node.needReconnect.1 = false → sid = proto.SID_ROUTER → ReopensFor (visits addr) sys.net node)

theorem checkNode_returns (reads : Reads sys objects) (bound : Bound objects)
    {visits : Nat → Visit} {sid : BitVec 16} {place : Nat}
    (there : (sys.derefNode place).isSome) (served : sid ∈ (outline sys).map Shelf.m_sid)
    (reopens : Reopens proto sid visits sys place)
    (fits : RegistrationFits proto sid visits sys place) :
    ∃ next, sys.checkNode proto sid visits place = some next := by
  obtain ⟨node, pointed⟩ := Option.isSome_iff_exists.mp there
  have here : objects.nodes place = some node := by rw [← reads.nodes, pointed]
  obtain ⟨-, rfl⟩ := reads.mem_of_node here
  simp only [Sys.checkNode, pointed, Option.bind_eq_bind, Option.bind_some]
  have counts : Turn noFailure objects (objects.setNode node.addr (some node.needReconnect.2)) :=
    .counted here
  obtain ⟨counted, stored⟩ := counted_reads reads here
  split_ifs with failed again
  · exact reconnect_returns counted (turn_bound bound counts) stored
      ((reopens node pointed failed).1 again)
  · apply giveUp_returns counted (turn_bound bound counts) stored
    · rw [outline_counted]
      exact served
    · intro router conn old
      rw [needReconnect_context] at old
      exact (reopens node pointed failed).2 (by simpa using again) router conn old
    · exact fits node pointed failed (by simpa using again)
  · exact ⟨_, rfl⟩

/-- A visit removes only the node that it gives up, so the loop finds the others. -/
theorem visits_return {visits : Nat → Visit} {sid : BitVec 16} {places : List Nat}
    (distinct : places.Nodup) (sound : Sound sys) (served : sid ∈ (outline sys).map Shelf.m_sid)
    (there : ∀ place ∈ places, (sys.derefNode place).isSome)
    (reopens : Throughout (Sys.checkNode proto sid visits) (Reopens proto sid visits) sys places)
    (fits : Throughout (Sys.checkNode proto sid visits) (RegistrationFits proto sid visits) sys
      places) :
    ∃ next, run (Sys.checkNode proto sid visits) sys places = some next := by
  induction places generalizing sys with
  | nil => exact ⟨sys, rfl⟩
  | cons place rest ih =>
    obtain ⟨objects, reads, bound⟩ := sound
    obtain ⟨absent, restDistinct⟩ := List.nodup_cons.mp distinct
    obtain ⟨next, visited⟩ := checkNode_returns reads bound
      (there place List.mem_cons_self) served reopens.1 fits.1
    obtain ⟨after, afterReads, course, spares⟩ := checkNode_spec reads bound.linked visited
    have stillServed : sid ∈ (outline next).map Shelf.m_sid := by
      rw [sids_checkNode reads.below visited]
      exact served
    have stillThere : ∀ other ∈ rest, (next.derefNode other).isSome := by
      intro other inside
      obtain ⟨node, pointed⟩ :=
        Option.isSome_iff_exists.mp (there other (List.mem_cons_of_mem _ inside))
      rw [reads.nodes] at pointed
      have differs : other ≠ place := by
        rintro rfl
        exact absent inside
      rw [afterReads.nodes, spares.nodes pointed differs]
      rfl
    obtain ⟨last, looped⟩ := ih restDistinct ⟨after, afterReads, course_bound bound course⟩
      stillServed stillThere (reopens.2 next visited) (fits.2 next visited)
    exact ⟨last, run_cons.mpr ⟨next, visited, looped⟩⟩

/-- What a call meets outside the program is in order: the descriptors are new, a message or an
event comes on a connection that is there, and `recv` and `send` return. -/
def InOrder (proto : Proto) (sys : Sys) : Action → Prop
  | .listen fd => Unopened sys.net fd
  | .accept event => Unopened sys.net event.fd
  | .connect fd => Unopened sys.net fd
  | .read addr event _ => ∃ conn, sys.net.deref addr = some conn ∧
      ∃ ended, readThenParse proto.toServiceID event conn.recv = .ok (some ended)
  | .write addr outcomes _ => ∃ conn, sys.net.deref addr = some conn ∧
      ∀ queue, sys.net.queues conn.outBuffer = some queue →
        (write outcomes queue conn.send).result.isSome
  | .authenticationReq addr _ _ => (sys.net.deref addr).isSome
  | .authenticationRsp addr _ _ => (sys.net.deref addr).isSome
  | .checkState service visits => ∃ snode, sys.services[service]? = some snode ∧
      Throughout (Sys.checkNode proto snode.m_sid visits) (Reopens proto snode.m_sid visits) sys
        (snode.m_nodes.map Node.addr)
  | .srvinfoBroadcast msg visits => ∀ servers,
      proto.parseStatusPush (payload msg) = some servers →
      Throughout (broadcastStep proto visits)
        (fun state each => Unopened state.1.net ((visits each.2).fds 0)) (sys, true)
        (listed servers).zipIdx
  | .registReq visit => (∀ tried, Unopened sys.net (visit.fds tried)) ∧
      (sys.findService proto.SID_ROUTER).isSome
  | _ => True

theorem checkState_returns (sound : Sound sys) {service : Nat} {snode : ServiceNode}
    (served : sys.services[service]? = some snode) {visits : Nat → Visit}
    (reopens : Throughout (Sys.checkNode proto snode.m_sid visits)
      (Reopens proto snode.m_sid visits) sys (snode.m_nodes.map Node.addr))
    (fits : Throughout (Sys.checkNode proto snode.m_sid visits)
      (RegistrationFits proto snode.m_sid visits) sys (snode.m_nodes.map Node.addr)) :
    ∃ next, sys.checkState proto service visits = some next := by
  obtain ⟨objects, reads, bound⟩ := sound
  have inside := List.mem_of_getElem? served
  have sublist := sublist_nodesOf inside
  have listed : snode.m_sid ∈ (outline sys).map Shelf.m_sid :=
    List.mem_map_of_mem (List.mem_map_of_mem (f := shelfOf) inside)
  have there : ∀ place ∈ snode.m_nodes.map Node.addr, (sys.derefNode place).isSome := by
    intro place member
    obtain ⟨node, nodeIn, rfl⟩ := List.mem_map.mp member
    rw [reads.nodes, reads.node_of_mem (sublist.subset nodeIn)]
    rfl
  obtain ⟨next, looped⟩ := visits_return ((sublist.map _).nodup reads.addrs)
    ⟨objects, reads, bound⟩ listed there reopens fits
  simp only [Sys.checkState, served, Option.bind_eq_bind, Option.bind_some, foldlM_eq_run]
  exact ⟨next, looped⟩

theorem addServer_sound (sound : Sound sys) {visit : Visit} {type : BitVec 16}
    {server : ServerStatus} {goesOn : Bool}
    (done : sys.addServer proto visit type server = some (next, goesOn)) :
    Sound next := by
  obtain ⟨objects, reads, bound⟩ := sound
  obtain ⟨after, afterReads, course⟩ := addServer_turned reads done
  exact ⟨after, afterReads, course_bound bound course⟩

theorem srvinfoBroadcast_returns (sound : Sound sys) {visits : Nat → Visit} {msg : IMString}
    (unopened : ∀ servers, proto.parseStatusPush (payload msg) = some servers →
      Throughout (broadcastStep proto visits)
        (fun state each => Unopened state.1.net ((visits each.2).fds 0)) (sys, true)
        (listed servers).zipIdx)
    (fits : ∀ servers, proto.parseStatusPush (payload msg) = some servers →
      Throughout (broadcastStep proto visits) (CopyFits visits) (sys, true)
        (listed servers).zipIdx) :
    ∃ next, sys.srvinfoBroadcast proto visits msg = some next := by
  cases parsed : proto.parseStatusPush (payload msg) with
  | none =>
    rw [Sys.srvinfoBroadcast, parsed]
    exact ⟨_, rfl⟩
  | some servers =>
    have enabled : ∀ (state : Sys × Bool) each, Sound state.1 →
        Unopened state.1.net ((visits each.2).fds 0) ∧ CopyFits visits state each →
        ∃ next, broadcastStep proto visits state each = some next := by
      rintro ⟨state, going⟩ each ⟨objects, reads, -⟩ ⟨unopened, fits⟩
      simp only [broadcastStep]
      split_ifs with still
      · exact addServer_returns reads unopened (fits still)
      · exact ⟨_, rfl⟩
    have preserved : ∀ (state : Sys × Bool) each (next : Sys × Bool), Sound state.1 →
        Unopened state.1.net ((visits each.2).fds 0) ∧ CopyFits visits state each →
        broadcastStep proto visits state each = some next → Sound next.1 := by
      rintro ⟨state, going⟩ each ⟨after, stillGoing⟩ stateSound - stepped
      simp only [broadcastStep] at stepped
      split_ifs at stepped
      · exact addServer_sound stateSound stepped
      · cases stepped
        exact stateSound
    obtain ⟨last, looped⟩ := run_of_throughout (fun state : Sys × Bool => Sound state.1) _
      preserved enabled sound (throughout_and.mpr ⟨unopened servers parsed, fits servers parsed⟩)
    rw [srvinfoBroadcast_eq parsed, looped]
    exact ⟨_, rfl⟩

theorem sendFirst_returns (reads : Reads sys objects) (isTarget : Connection → Bool)
    (arms : ConnState → Bool) (msg : IMString) :
    (sys.net.sendFirst isTarget arms msg).isSome := by
  rcases sendFirst_cases reads.net isTarget arms msg with
    same | ⟨_, _, _, -, -, sent, -⟩
  · rw [same]
    rfl
  · rw [sent]
    rfl

/-- No step follows a pointer to an object that is gone. -/
theorem step_returns (sound : Sound sys) {action : Action} (inOrder : InOrder proto sys action)
    (fits : AddressesFit proto sys action) : ∃ next, step proto sys action = some next := by
  have kept := sound
  obtain ⟨objects, reads, bound⟩ := sound
  have sends := fun isTarget arms msg =>
    Option.isSome_iff_exists.mp (sendFirst_returns reads isTarget arms msg)
  cases action with
  | listen fd =>
    simp only [step, Net.listen]
    split_ifs with valid used
    · rw [inOrder valid] at used
      cases used
    · exact ⟨_, rfl⟩
    · exact ⟨_, rfl⟩
  | accept event =>
    simp only [step, Net.accept]
    split_ifs with failed used ready
    · exact ⟨_, rfl⟩
    · rw [inOrder (not_le.mp failed)] at used
      cases used
    · exact ⟨_, rfl⟩
    · exact ⟨_, rfl⟩
  | connect fd =>
    obtain ⟨after, conn, connected⟩ := connect_returns inOrder
    simp only [step, connected]
    exact ⟨_, rfl⟩
  | sendSock msg fd =>
    obtain ⟨both, sent⟩ := sends (·.fd = fd) (· = .STATE_CONNECTED) msg
    exact ⟨_, congrArg (Option.map _) sent⟩
  | sendNode msg nid =>
    obtain ⟨both, sent⟩ := sends (·.nid = nid) Net.connectedOrAuth msg
    exact ⟨_, congrArg (Option.map _) sent⟩
  | sendDb msg =>
    obtain ⟨both, sent⟩ := sends (·.sid = proto.SID_DB_PROXY) Net.connectedOrAuth msg
    exact ⟨_, congrArg (Option.map _) sent⟩
  | sendState msg =>
    obtain ⟨both, sent⟩ := sends (·.sid = proto.SID_USER_STATE) Net.connectedOrAuth msg
    exact ⟨_, congrArg (Option.map _) sent⟩
  | read addr event heap =>
    obtain ⟨conn, pointed, ended, ends⟩ := inOrder
    obtain ⟨owned, here, rfl⟩ := reads.conn_of_deref pointed
    exact read_returns reads bound here ends
  | write addr outcomes heap =>
    obtain ⟨conn, pointed, ends⟩ := inOrder
    obtain ⟨owned, here, rfl⟩ := reads.conn_of_deref pointed
    obtain ⟨result, ended⟩ := Option.isSome_iff_exists.mp (ends _ (reads.net.queues here))
    exact write_returns reads bound here ended
  | authenticationReq addr msg heap =>
    obtain ⟨conn, pointed⟩ := Option.isSome_iff_exists.mp inOrder
    obtain ⟨owned, here, -⟩ := reads.conn_of_deref pointed
    exact authenticationReq_returns reads here msg
  | authenticationRsp addr msg heap =>
    obtain ⟨conn, pointed⟩ := Option.isSome_iff_exists.mp inOrder
    obtain ⟨owned, here, -⟩ := reads.conn_of_deref pointed
    exact authenticationRsp_returns reads here msg
  | checkState service visits =>
    obtain ⟨snode, served, reopens⟩ := inOrder
    exact checkState_returns kept served reopens (fits snode served)
  | srvinfoBroadcast msg visits => exact srvinfoBroadcast_returns kept inOrder fits
  | registReq visit =>
    exact registReq_returns reads inOrder.1 (mem_sids_of_findService inOrder.2) fits

end Steps

/-- In every reachable state no table has a pointer to an object that is gone, and no step
follows one: a step whose addresses fit has a result. -/
theorem tables_never_dangle (proto : Proto) (types : List (BitVec 16)) (actions : List Action)
    (sys : Sys) (reached : run (step proto) (start types) actions = some sys) :
    NoDangling sys ∧ ∀ action, InOrder proto sys action → AddressesFit proto sys action →
      ∃ next, step proto sys action = some next :=
  ⟨noDangling_of_sound (run_sound reached), fun _ => step_returns (run_sound reached)⟩

theorem tables_never_dangle_answer : ∃ sys,
    run (step smallMessages) (start [3]) sentBeforeAnswer = some sys ∧ NoDangling sys ∧
      ∀ action, InOrder smallMessages sys action → AddressesFit smallMessages sys action →
        ∃ next, step smallMessages sys action = some next := by
  have returns : (run (step smallMessages) (start [3]) sentBeforeAnswer).isSome := by
    decide +kernel
  obtain ⟨sys, reached⟩ := Option.isSome_iff_exists.mp returns
  exact ⟨sys, reached, tables_never_dangle smallMessages [3] sentBeforeAnswer sys reached⟩

end SNFrame.System.Returns
