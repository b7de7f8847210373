import SNFrame.System.Authentication
import SNFrame.System.Correspondence

/-! Every step of a cluster is a series of changes of the world that it shows. -/

namespace SNFrame.System.Coverage
open Library.Octet Library.Transition Base.PbBuf Core.Receiving Core.Sending Core.TcpParse
open Core.NetManager Core.NodeMgr Core.CommonProto Receive.Callback Receive.Parcels
open Send.SendStream Ownership Tables Turns Registration Simulation Supervision
open Processes Requests Traffic Exchange Correspondence
open Base.Checksum (held)

section Steps
variable {cluster : Cluster} {world : World} {p sent : Nat} {proto : Proto}

/-! ### Nodes -/

theorem objects_dialling (world : World) (p : Nat) (owned : Owned) :
    (dialling world p owned).objects p = (world.objects p).setConn (world.next p) (some owned) :=
  objects_create ..

theorem objects_installed (world : World) (p : Nat) (owned left : Owned) (place : Nat)
    (node : Node) : (installed world p owned left place node).objects p =
      ((world.objects p).setConn (world.next p) (some left)).setNode place (some node) := by
  rw [installed, objects_setNode, objects_setConn, objects_dialling, Objects.setConn_setConn]

theorem objects_installed_of_ne (world : World) {q : Nat} (apart : q ≠ p) (owned left : Owned)
    (place : Nat) (node : Node) :
    (installed world p owned left place node).objects q = world.objects q := by
  rw [installed, objects_setNode_of_ne _ apart, objects_setConn_of_ne _ apart]
  exact objects_create_of_ne world apart owned

theorem installed_here (world : World) (p : Nat) (owned left : Owned) (place : Nat) (node : Node) :
    (installed world p owned left place node).conns (p, world.next p) = some left :=
  Function.update_self ..

theorem installed_setConn (world : World) (p : Nat) (owned left last : Owned) (place : Nat)
    (node : Node) : (installed world p owned left place node).setConn (p, world.next p)
      (some last) = installed world p owned last place node := by
  simp only [installed, World.setConn, World.setNode, Function.update_idem]

/-- A registration that follows what the same step has done to the tables. -/
theorem registReq_series (generated : Generated proto) (shown : Shown cluster world)
    {base : World} {cleared next : Sys} {visit : Visit} (within : Within p world base)
    (reads : Reads cleared (base.objects p))
    (numbered : cleared.net.next = (cluster.sys p).net.next)
    (effects : cleared.effects = (cluster.sys p).effects)
    (done : cleared.registReq proto visit = some next) :
    Series proto base (cluster.enter p sent next) := by
  obtain ⟨unsaid, ⟨same, after⟩ | ⟨number, place, owned, ip, absent, ⟨fd, registering⟩, after⟩⟩ :=
    registReq_reads reads done
  · have calm : Calm (cluster.sys p) next :=
      calm_of_same (same.trans numbered) (unsaid.trans effects)
    exact .refl (shown_of_calm shown within calm after)
  · rw [numbered, shown.next, ← within.next] at after registering number
    have fresh := client_fresh (base.next p) fd
    have enlists : Change proto base (installed base p ⟨clientConn (base.next p) fd, []⟩
        (routerConn proto (base.next p) fd) place (routerNode proto place (base.next p) ip)) :=
      @Change.enlisted proto base p place ⟨clientConn (base.next p) fd, []⟩ proto.SID_ROUTER 0 _
        fresh absent rfl
    rw [← objects_installed base p ⟨clientConn (base.next p) fd, []⟩] at after
    have said : next.effects = (cluster.sys p).effects ++ requesting owned.conn.fd none :=
      (unsaid.trans effects).trans (List.append_nil _).symm
    have shows : owned.conn.flag = .conn_client → Shown (cluster.enter p sent next) _ :=
      fun client => shown_of_client shown within
        (fun q apart => objects_installed_of_ne base apart ..) after (installed_here ..) client
        (number.trans (by rw [within.next, shown.next])) said rfl rfl rfl
    rcases registering with rfl | ⟨heap, register, built, rfl⟩
    · exact ⟨_, shows fresh.flag, .single enlists⟩
    · obtain ⟨sound, plain⟩ := buildMsg_plain ⟨generated.router.1, generated.commands.2.2⟩
        generated.registers generated.router.2 built
      have rests := sent_rests connected_safe register (routerConn proto (base.next p) fd)
      have posts : Change proto (installed base p ⟨clientConn (base.next p) fd, []⟩
          (routerConn proto (base.next p) fd) place (routerNode proto place (base.next p) ip)) _ :=
        .posted (installed_here ..) rests sound plain
      rw [installed_setConn] at posts
      exact ⟨_, shows (rests.flag.trans fresh.flag), .tail (.single enlists) posts⟩

theorem requestFor_asks (generated : Generated proto) {heap : Heap} {sid : BitVec 16}
    {nid : BitVec 32} {msg : IMString} (built : requestFor proto heap sid nid = some msg) :
    Parcel msg.bytes ∧ IsRequest proto msg.bytes (sid, nid) := by
  have both := generated.requests sid nid
  exact (buildMsg_carrying (requestKind proto) ⟨generated.other, generated.commands.1⟩ both.1 both.2
    built).2

/-- A listed server is passed by, or it has a node with a client that asks. -/
theorem addServer_series (generated : Generated proto) (shown : Shown cluster world)
    {visit : Visit} {type : BitVec 16} {server : ServerStatus} {goesOn : Bool} {next : Sys}
    (done : (cluster.sys p).addServer proto visit type server = some (next, goesOn)) :
    Series proto world (cluster.enter p sent next) := by
  have reads := shown.reads p
  rcases addServer_launches reads done with rfl | ⟨-, -, ip, -, launch⟩
  · exact still_series shown (.refl _) reads
  · have after := launch.reads
    have absent := launch.absent
    have numbered : next.net.next = (cluster.sys p).net.next + 1 ∧ next.effects =
        (cluster.sys p).effects ++
          requesting (visit.fds 0) (requestFor proto visit.heap type server.node_id) := by
      apply (addServer_same done).resolve_left
      intro same
      have below := after.net.lt_next (Function.update_self ..)
      rw [same.1] at below
      exact absurd below (lt_irrefl _)
    rw [shown.next] at after numbered
    have fresh := client_fresh (world.next p) (visit.fds 0)
    have fd : (clientConn (world.next p) (visit.fds 0)).fd = visit.fds 0 := clientConn_fd ..
    have launches : Change proto world
        { installed world p ⟨clientConn (world.next p) (visit.fds 0), []⟩
            (serverNodeConn (cluster.sys p).nextNode (world.next p) (visit.fds 0) type
              server.node_id)
            (cluster.sys p).nextNode
            (serverNode (cluster.sys p).nextNode (world.next p) type server.node_id ip) with
          wires := ask (world.wires.dial (p, world.next p)) (p, world.next p) sent
            (requestFor proto visit.heap type server.node_id) } :=
      @Change.launched proto world p _ sent ⟨clientConn (world.next p) (visit.fds 0), []⟩ type
        server.node_id ip _ fresh absent fun msg built => requestFor_asks generated built
    refine ⟨_, ?_, .single launches⟩
    rw [← objects_installed world p ⟨clientConn (world.next p) (visit.fds 0), []⟩] at after
    have said := numbered.2
    rw [← fd] at said
    have there := installed_here world p ⟨clientConn (world.next p) (visit.fds 0), []⟩
      (serverNodeConn (cluster.sys p).nextNode (world.next p) (visit.fds 0) type server.node_id)
      (cluster.sys p).nextNode
      (serverNode (cluster.sys p).nextNode (world.next p) type server.node_id ip)
    refine shown_of_client shown (.refl p world)
      (fun q apart => objects_installed_of_ne world apart ..) after there fresh.flag ?_ said rfl
      rfl rfl
    rw [numbered.1, shown.next]

theorem alone_of_linked {base : World} (linked : Linked (base.objects p)) {node : Node}
    (here : (base.objects p).nodes node.addr = some node) : Alone base p node :=
  fun _ _ _ there context own => linked.distinct there here context own

theorem dropContext_setConn {objects : Objects} {node : Node} {addr : Nat}
    (apart : node.m_context ≠ some addr) (before after : Option Owned) :
    ((objects.setConn addr before).dropContext node).setConn addr after =
      (objects.dropContext node).setConn addr after := by
  cases context : node.m_context with
  | none => simp only [Objects.dropContext, context, Objects.setConn_setConn]
  | some old =>
    rw [context] at apart
    have differs : addr ≠ old := fun equal => apart (congrArg some equal.symm)
    simp only [Objects.dropContext, context, Objects.setConn, Function.update_comm differs,
      Function.update_idem]

theorem replaced_within (world : World) (p addr : Nat) (node : Node) (left : Owned) :
    Within p world (replaced world p addr node left) :=
  (((Within.refl p world).dropContext node).setConn ..).setNode ..

theorem replaced_here (world : World) (p addr : Nat) (node : Node) (left : Owned) :
    (replaced world p addr node left).conns (p, addr) = some left :=
  Function.update_self ..

theorem reconnect_series (generated : Generated proto) (shown : Shown cluster world)
    {base : World} {counted next : Sys} {visit : Visit} {node : Node} (within : Within p world base)
    (idle : world.inbox p = []) (reads : Reads counted (base.objects p))
    (linked : Linked (base.objects p)) (numbered : counted.net.next = (cluster.sys p).net.next)
    (effects : counted.effects = (cluster.sys p).effects)
    (here : (base.objects p).nodes node.addr = some node) (persistent : node.m_persist = true)
    (done : counted.reconnect proto visit node.m_type node = some next) :
    Series proto base (cluster.enter p sent next) := by
  rcases reconnect_reads reads linked here done with
    ⟨same, unsaid, after⟩ | ⟨number, said, outBuffer, queue, inherits, after⟩
  · have calm : Calm (cluster.sys p) next :=
      calm_of_same (same.trans numbered) (unsaid.trans effects)
    exact .refl (shown_of_calm shown within calm after)
  · rw [numbered, shown.next, ← within.next] at after number
    have fresh := client_fresh (base.next p) (visit.fds 0)
    have fd : (clientConn (base.next p) (visit.fds 0)).fd = visit.fds 0 := clientConn_fd ..
    have apart : node.m_context ≠ some (base.next p) := by
      intro context
      obtain ⟨owned, there, -⟩ := linked.live here context
      have unused := reads.net.fresh
      rw [numbered, shown.next, ← within.next, there] at unused
      cases unused
    have same : ((dialling base p ⟨clientConn (base.next p) (visit.fds 0), []⟩).objects p) =
        (base.objects p).setConn (base.next p)
          (some ⟨clientConn (base.next p) (visit.fds 0), []⟩) := objects_dialling ..
    have resumes : Change proto base _ := @Change.resumed proto base p outBuffer sent
      ⟨clientConn (base.next p) (visit.fds 0), []⟩ node queue
      (requestFor proto visit.heap node.m_type node.m_id) ((congrFun within.inbox p).trans idle)
      fresh here persistent (alone_of_linked linked here) inherits
      fun msg built => requestFor_asks generated built
    refine ⟨_, ?_, .single resumes⟩
    have moved := replaced_within (dialling base p ⟨clientConn (base.next p) (visit.fds 0), []⟩) p
      (base.next p) node ⟨waiting (clientConn (base.next p) (visit.fds 0)) outBuffer node.m_type
        node.m_id ((base.objects p).callbackOf node), queue⟩
    have stored : Reads next ((replaced (dialling base p
        ⟨clientConn (base.next p) (visit.fds 0), []⟩) p (base.next p) node
          ⟨waiting (clientConn (base.next p) (visit.fds 0)) outBuffer node.m_type node.m_id
            ((base.objects p).callbackOf node), queue⟩).objects p) := by
      rw [replaced, objects_setNode, objects_setConn, objects_dropContext, same,
        dropContext_setConn apart]
      exact after
    have unsaid : next.effects = (cluster.sys p).effects ++
        requesting (waiting (clientConn (base.next p) (visit.fds 0)) outBuffer node.m_type node.m_id
          ((base.objects p).callbackOf node)).fd
            (requestFor proto visit.heap node.m_type node.m_id) := by
      change _ = _ ++ requesting (clientConn (base.next p) (visit.fds 0)).fd _
      rw [fd, said, effects]
    have there := replaced_here (dialling base p ⟨clientConn (base.next p) (visit.fds 0), []⟩) p
      (base.next p) node ⟨waiting (clientConn (base.next p) (visit.fds 0)) outBuffer node.m_type
        node.m_id ((base.objects p).callbackOf node), queue⟩
    refine shown_of_client shown within (fun q differs => ?_) stored there fresh.flag ?_ unsaid
      ?_ ?_ ?_
    · exact (moved.others q differs).trans (objects_create_of_ne base differs _)
    · rw [number, within.next, shown.next]
    · exact moved.next
    · exact moved.inbox
    · rfl

theorem giveUp_series (generated : Generated proto) (shown : Shown cluster world)
    {base : World} {counted next : Sys} {visit : Visit} {sid : BitVec 16} {node : Node}
    (within : Within p world base) (idle : world.inbox p = [])
    (reads : Reads counted (base.objects p)) (linked : Linked (base.objects p))
    (numbered : counted.net.next = (cluster.sys p).net.next)
    (effects : counted.effects = (cluster.sys p).effects)
    (here : (base.objects p).nodes node.addr = some node)
    (done : counted.giveUp proto visit sid node = some next) :
    Series proto base (cluster.enter p sent next) := by
  obtain ⟨cleared, count, unsaid, after, rest⟩ := giveUp_reads reads linked here done
  have removes : Change proto base ((base.dropContext p node).setNode (p, node.addr) none) :=
    .removed ((congrFun within.inbox p).trans idle) here (alone_of_linked linked here)
  have left : Within p world ((base.dropContext p node).setNode (p, node.addr) none) :=
    (within.dropContext node).setNode ..
  have stored : Reads cleared (((base.dropContext p node).setNode (p, node.addr) none).objects p) := by
    rw [objects_setNode, objects_dropContext]
    exact after
  rcases rest with rfl | registers
  · have calm : Calm (cluster.sys p) next :=
      calm_of_same (count.trans numbered) (unsaid.trans effects)
    exact ⟨_, shown_of_calm shown left calm stored, .single removes⟩
  · exact .after (.single removes) (registReq_series generated shown left stored
      (count.trans numbered) (unsaid.trans effects) registers)

theorem needReconnect_type (node : Node) : node.needReconnect.2.m_type = node.m_type := by
  unfold Node.needReconnect
  split_ifs <;> rfl

/-- The body of the loop of `checkState`, on a node of its service. -/
theorem checkNode_series (generated : Generated proto) (shown : Shown cluster world)
    (linked : Linked (world.objects p)) (idle : world.inbox p = []) {sid : BitVec 16}
    {visits : Nat → Visit} {place : Nat} {next : Sys}
    (typed : ∀ node, (cluster.sys p).derefNode place = some node → node.m_type = sid)
    (done : (cluster.sys p).checkNode proto sid visits place = some next) :
    Series proto world (cluster.enter p sent next) := by
  have reads := shown.reads p
  obtain ⟨node, pointed, done⟩ := Option.bind_eq_some_iff.mp done
  have own := typed node pointed
  have here : (world.objects p).nodes place = some node := by rw [← reads.nodes, pointed]
  obtain ⟨-, rfl⟩ := reads.mem_of_node here
  split_ifs at done with failed
  · -- the counter moves first
    obtain ⟨counted, there⟩ := counted_reads reads here
    have counts : Turn noFailure (world.objects p)
        ((world.objects p).setNode node.addr (some node.needReconnect.2)) := .counted here
    have countedLinked := linked_moves linked (turn_moves counts)
    rw [← objects_setNode] at counted there countedLinked
    have moves : Change proto world (world.setNode (p, node.addr) (some node.needReconnect.2)) :=
      .counted here
    have within := (Within.refl p world).setNode node.addr (some node.needReconnect.2)
    dsimp only at done
    split_ifs at done with again
    · have persistent : node.needReconnect.2.m_persist = true := by
        rw [needReconnect_persist, persistent_of_needReconnect again]
      rw [← own, ← needReconnect_type] at done
      exact .after (.single moves) (reconnect_series generated shown within idle counted
        countedLinked rfl rfl there persistent done)
    · exact .after (.single moves) (giveUp_series generated shown within idle counted
        countedLinked rfl rfl there done)
  · cases done
    exact still_series shown (.refl _) reads

/-- A visit of a node hands on no message. -/
theorem checkNode_requests {sys next : Sys} {objects : Objects} (reads : Reads sys objects)
    (linked : Linked objects) {sid : BitVec 16} {visits : Nat → Visit} {place : Nat}
    (done : sys.checkNode proto sid visits place = some next) :
    ∃ fd request, next.effects = sys.effects ++ requesting fd request := by
  have unsaid : ∀ effects : List Effect, effects = effects ++ requesting 0 none :=
    fun effects => (List.append_nil _).symm
  obtain ⟨node, pointed, done⟩ := Option.bind_eq_some_iff.mp done
  have here : objects.nodes place = some node := by rw [← reads.nodes, pointed]
  obtain ⟨-, rfl⟩ := reads.mem_of_node here
  split_ifs at done with failed
  · obtain ⟨counted, there⟩ := counted_reads reads here
    have counts : Turn noFailure objects (objects.setNode node.addr (some node.needReconnect.2)) :=
      .counted here
    have countedLinked := linked_moves linked (turn_moves counts)
    dsimp only at done
    split_ifs at done
    · rcases reconnect_reads counted countedLinked there done with ⟨-, same, -⟩ | ⟨-, said, -⟩
      · exact ⟨0, none, same.trans (unsaid _)⟩
      · exact ⟨_, _, said⟩
    · obtain ⟨cleared, -, same, after, rfl | registers⟩ :=
        giveUp_reads counted countedLinked there done
      · exact ⟨0, none, same.trans (unsaid _)⟩
      · exact ⟨0, none, ((registReq_reads after registers).1.trans same).trans (unsaid _)⟩
  · cases done
    exact ⟨0, none, unsaid _⟩

theorem enter_inbox {next : Sys} {fd : Int} {request : Option IMString}
    (effects : next.effects = (cluster.sys p).effects ++ requesting fd request) :
    (cluster.enter p sent next).inbox = cluster.inbox := by
  rw [Cluster.enter, effects, List.drop_left]
  cases request with
  | none => rfl
  | some msg =>
    simp only [requesting, Option.map_some, Option.toList_some, List.foldl_cons, List.foldl_nil,
      Cluster.absorb]
    split <;> rfl

theorem reads_unique {sys : Sys} {first second : Objects} (left : Reads sys first)
    (right : Reads sys second) : first = second := by
  obtain ⟨conns, nodes⟩ := first
  obtain ⟨otherConns, otherNodes⟩ := second
  have sameConns : conns = otherConns := left.net.reads.symm.trans right.net.reads
  have sameNodes : nodes = otherNodes := left.nodes.symm.trans right.nodes
  rw [sameConns, sameNodes]

/-- The loop of `checkState` over the nodes of one service, which it finds as they were. -/
theorem visits_series (generated : Generated proto) {sid : BitVec 16} {trips : Nat → Trip}
    (places : List Nat) (distinct : places.Nodup) (shown : Shown cluster world)
    (linked : Linked (world.objects p)) (idle : world.inbox p = [])
    (typed : ∀ place ∈ places, ∃ node, (world.objects p).nodes place = some node ∧
      node.m_type = sid) {next : Cluster}
    (done : places.foldlM (fun cluster place => Cluster.act cluster p (trips place).sent fun sys =>
      sys.checkNode proto sid (fun place => (trips place).toVisit) place) cluster = some next) :
    Series proto world next := by
  induction places generalizing cluster world with
  | nil =>
    cases done
    exact .refl shown
  | cons place places ih =>
    obtain ⟨middle, acted, rest⟩ := Option.bind_eq_some_iff.mp done
    obtain ⟨sys, checked, rfl⟩ := Option.map_eq_some_iff.mp acted
    have reads := shown.reads p
    obtain ⟨missing, others⟩ := List.nodup_cons.mp distinct
    have own : ∀ node, (cluster.sys p).derefNode place = some node → node.m_type = sid := by
      intro node pointed
      obtain ⟨found, there, same⟩ := typed place List.mem_cons_self
      rw [reads.nodes, there] at pointed
      cases pointed
      exact same
    have visited : Series proto world (cluster.enter p (trips place).sent sys) :=
      checkNode_series generated shown linked idle own checked
    obtain ⟨after, now, changes⟩ := visited
    obtain ⟨objects, afterReads, course, spares⟩ := checkNode_spec reads linked checked
    have same : after.objects p = objects := by
      have afterwards := now.reads p
      rw [enter_sys, Function.update_self] at afterwards
      exact reads_unique afterwards afterReads
    obtain ⟨fd, request, effects⟩ := checkNode_requests reads linked checked
    refine .after changes (ih others now ?_ ?_ ?_ rest)
    · rw [same]
      exact linked_moves linked (course_moves course)
    · rw [← congrFun now.inbox p, enter_inbox effects, congrFun shown.inbox p]
      exact idle
    · intro other inside
      obtain ⟨node, there, type⟩ := typed other (List.mem_cons_of_mem _ inside)
      refine ⟨node, ?_, type⟩
      rw [same]
      apply spares.nodes there
      rintro rfl
      exact missing inside

theorem checkState_series (generated : Generated proto) (shown : Shown cluster world)
    (kept : Authentication.Kept (cluster.sys p)) (idle : cluster.inbox p = []) {service : Nat}
    {trips : Nat → Trip} {next : Cluster}
    (done : cluster.checkState proto p service trips = some next) : Series proto world next := by
  have reads := shown.reads p
  obtain ⟨objects, others, linked⟩ := kept.consistent
  cases reads_unique others reads
  obtain ⟨snode, served, done⟩ := Option.bind_eq_some_iff.mp done
  have inside := List.mem_of_getElem? served
  have within : snode.m_nodes.Sublist (nodesOf (cluster.sys p).services) := by
    rw [nodesOf, List.flatMap]
    exact List.sublist_flatten_of_mem (List.mem_map_of_mem inside)
  refine visits_series generated _ ((within.map _).nodup reads.addrs) shown linked
    ((congrFun shown.inbox p).symm.trans idle) ?_ done
  intro place listed
  obtain ⟨node, member, rfl⟩ := List.mem_map.mp listed
  exact ⟨node, reads.node_of_mem (within.subset member), kept.own snode inside node member⟩

theorem srvinfoBroadcast_series (generated : Generated proto) (shown : Shown cluster world)
    {trips : Nat → Trip} {msg : IMString} {next : Cluster}
    (done : cluster.srvinfoBroadcast proto p trips msg = some next) : Series proto world next := by
  unfold Cluster.srvinfoBroadcast at done
  split at done
  · cases done
    exact .refl shown
  · obtain ⟨⟨last, going⟩, looped, rfl⟩ := Option.map_eq_some_iff.mp done
    rw [foldlM_eq_run] at looped
    refine run_invariant (fun state : Cluster × Bool => Series proto world state.1) ?_
      (.refl shown) looped
    rintro ⟨cluster, going⟩ each ⟨after, goesOn⟩ ⟨middle, now, changes⟩ stepped
    dsimp only at stepped
    split_ifs at stepped
    · obtain ⟨⟨sys, more⟩, added, same⟩ := Option.map_eq_some_iff.mp stepped
      cases same
      exact .after changes (addServer_series generated now added)
    · cases stepped
      exact ⟨middle, now, changes⟩

/-! ### Messages -/

section Handled
variable {heap : Heap} {addr : Nat} {message : Dispatch} {rest : List (Nat × Dispatch)}

/-- What `NodeMgr::parse` goes by, for a message that is the copy of a frame. -/
theorem carrying_of_held {msg : IMString} {frame : List Byte} {kind : Kind}
    {ids : BitVec 16 × BitVec 32} (same : msg = held frame []) (parcel : Parcel frame)
    (sid : getSid heap msg = proto.SID_OTHER) (cmd : getCmd heap msg = kind.cid)
    (parsed : kind.parse (payload msg) = some ids) :
    Carrying proto frame kind ids := by
  subst same
  refine ⟨⟨?_, ?_⟩, parsed⟩
  · rw [← getSid_held parcel.headed heap]
    exact sid
  · rw [← getCmd_held parcel.headed heap]
    exact cmd

theorem request_series (generated : Generated proto) (shown : Shown cluster world)
    {msg : IMString} (pending : cluster.inbox p = (addr, .common msg) :: rest)
    (sid : getSid heap msg = proto.SID_OTHER)
    (cmd : getCmd heap msg = proto.CID_OTHER_AUTHENTICATION_REQ) {next : Sys}
    (done : (cluster.sys p).authenticationReq proto heap addr msg = some next) :
    Series proto world (Cluster.enter { cluster with
      inbox := Function.update cluster.inbox p rest } p sent next) := by
  have reads := shown.reads p
  have popped := shown.handled pending
  have calm := authenticationReq_calm done
  have head := (congrFun shown.inbox p).symm.trans pending
  rcases authenticationReq_cases reads done with
    ⟨-, rfl⟩ | ⟨type, nid, owned, parsed, here, answer⟩
  · exact .after (.single .skipped) (still_series popped (.refl _) reads)
  · have asked : ∀ frame, (Dispatch.common msg).msg = held frame [] → Parcel frame →
        IsRequest proto frame (type, nid) :=
      fun frame same parcel => carrying_of_held same parcel sid cmd parsed
    have both := generated.responses type nid
    -- with and without memory for the response
    have answers : ∀ conn response, Rests { owned.conn with
          sid := type, nid := nid, state := .STATE_CONNECTED } conn →
        (∀ auth, response = some auth → buildMsg heap proto.SID_OTHER
          proto.CID_OTHER_AUTHENTICATION_RSP (proto.authenticationRsp type nid) = some auth) →
        Reads next ((world.objects p).setConn addr
          (some ⟨conn, owned.queue ++ response.toList⟩)) →
        Series proto world (Cluster.enter { cluster with
          inbox := Function.update cluster.inbox p rest } p sent next) := by
      intro conn response rests built after
      have responds : ∀ auth, response = some auth → Sound auth ∧ Parcel auth.bytes ∧
          IsResponse proto auth.bytes (type, nid) := fun auth same =>
        buildMsg_carrying (responseKind proto) ⟨generated.other, generated.commands.2.1⟩ both.1 both.2
          (built auth same)
      have answered : Change proto world _ :=
        .answered (e := (p, addr)) head here asked rests responds
      refine ⟨_, shown_of_calm popped ((Within.refl p (world.handled p)).setConn addr _) calm ?_,
        .single answered⟩
      rw [objects_setConn]
      exact after
    rcases answer with ⟨-, after⟩ | ⟨auth, built, after⟩
    · apply answers _ none (.refl _) nofun
      rw [Option.toList_none, List.append_nil]
      exact after
    · apply answers _ (some auth) (sent_rests connected_safe auth
        (enrolled type nid .STATE_CONNECTED owned)) _ after
      rintro other ⟨⟩
      exact built

theorem response_series (shown : Shown cluster world) (kept : Authentication.Kept (cluster.sys p))
    {msg : IMString} (pending : cluster.inbox p = (addr, .common msg) :: rest)
    (sid : getSid heap msg = proto.SID_OTHER)
    (cmd : getCmd heap msg = proto.CID_OTHER_AUTHENTICATION_RSP) {next : Sys}
    (done : (cluster.sys p).authenticationRsp proto heap addr msg = some next) :
    Series proto world (Cluster.enter { cluster with
      inbox := Function.update cluster.inbox p rest } p sent next) := by
  have reads := shown.reads p
  have popped := shown.handled pending
  have calm := authenticationRsp_calm done
  have head := (congrFun shown.inbox p).symm.trans pending
  rcases authenticationRsp_cases reads done with
    ⟨-, rfl⟩ | ⟨type, nid, node, owned, parsed, found, there, here, after⟩
  · exact .after (.single .skipped) (still_series popped (.refl _) reads)
  · obtain ⟨rfl, rfl⟩ := Authentication.ids_of_findNode kept.own found
    have leads : ∀ place other, world.nodes (p, place) = some other → other.m_persist = true →
        (other.m_type, other.m_id) = (node.m_type, node.m_id) → other = node := by
      intro place other present persistent same
      have leads := Authentication.findNode_of_led reads kept.led present persistent
      obtain ⟨type, nid⟩ := Prod.mk.inj same
      rw [type, nid, found] at leads
      exact (Option.some.inj leads).symm
    have confirmed : Change proto world _ := .confirmed (e := (p, addr)) head here there
      (fun frame same parcel => carrying_of_held same parcel sid cmd parsed) leads
    refine ⟨_, shown_of_calm popped (((Within.refl p (world.handled p)).setNode node.addr _).setConn
      addr _) calm ?_, .single confirmed⟩
    rw [objects_setConn, objects_setNode]
    exact after

theorem handle_series {proto : RouterProto} (generated : Generated proto.toProto)
    (shown : Shown cluster world) (kept : Authentication.Kept (cluster.sys p)) {trips : Nat → Trip}
    {next : Cluster} (done : cluster.handle proto p heap trips = some next) :
    Series proto.toProto world next := by
  unfold Cluster.handle at done
  split at done
  · cases done
  · next addr message rest pending =>
    have popped := shown.handled pending
    have skipped : Series proto.toProto world
        { cluster with inbox := Function.update cluster.inbox p rest } :=
      ⟨_, popped, .single .skipped⟩
    dsimp only at done
    split at done
    · unfold Cluster.parseCommonProto at done
      dsimp only at done
      split_ifs at done with other request response router registered fits push
      · obtain ⟨sys, stepped, rfl⟩ := Option.map_eq_some_iff.mp done
        exact request_series generated shown pending other request stepped
      · obtain ⟨sys, stepped, rfl⟩ := Option.map_eq_some_iff.mp done
        exact response_series shown kept pending other response stepped
      · cases done
        exact skipped
      · cases done
        exact skipped
      · exact .after (.single .skipped) (srvinfoBroadcast_series generated popped done)
      · cases done
        exact skipped
      · cases done
        exact skipped
    · cases done
      exact skipped

end Handled

end Steps

/-! ### The steps -/

/-- What the applications and the timer post are messages as the program builds them, but none of
authentication. -/
def PostsPlain (proto : Proto) : Processes.Event → Prop
  | .sendSock msg _ | .sendNode msg _ | .sendDb msg | .sendState msg =>
      Sound msg ∧ Plain proto msg.bytes
  | _ => True

section Cluster
variable {cluster next : Cluster} {world : World} {p : Nat} {event : Processes.Event}

theorem begin_series {proto : Proto} (generated : Generated proto) (shown : Shown cluster world)
    (kept : Authentication.Kept (cluster.sys p)) (idle : cluster.inbox p = [])
    (done : begin proto cluster p event = some next) : Series proto world next := by
  cases event with
  | listen fd =>
    obtain ⟨sys, stepped, rfl⟩ := Option.map_eq_some_iff.mp done
    obtain ⟨net, listened, rfl⟩ := Option.map_eq_some_iff.mp stepped
    exact listen_series shown listened
  | connect fd =>
    obtain ⟨sys, stepped, rfl⟩ := Option.map_eq_some_iff.mp done
    obtain ⟨⟨net, conn⟩, connected, rfl⟩ := Option.map_eq_some_iff.mp stepped
    exact connect_series shown connected
  | accept event caller => exact accept_series shown done
  | read addr event heap => exact read_series shown idle done
  | write addr outcomes heap => exact write_series shown idle done
  | checkState service trips => exact checkState_series generated shown kept idle done
  | registReq visit =>
    obtain ⟨sys, registered, rfl⟩ := Option.map_eq_some_iff.mp done
    exact registReq_series generated shown (.refl p world) (shown.reads p) rfl rfl registered
  | sendSock | sendNode | sendDb | sendState | handle => cases done

/-- Every step of a cluster is a series of changes. -/
theorem step_series {proto : RouterProto} (generated : Generated proto.toProto)
    (shown : Shown cluster world) (kept : Authentication.Kept (cluster.sys p))
    (posts : PostsPlain proto.toProto event)
    (stepped : Processes.step proto cluster (p, event) = some next) :
    Series proto.toProto world next := by
  cases event with
  | sendSock msg fd =>
    obtain ⟨sys, done, rfl⟩ := Option.map_eq_some_iff.mp stepped
    obtain ⟨⟨code, net⟩, sent, rfl⟩ := Option.map_eq_some_iff.mp done
    exact sendFirst_series shown connected_safe posts.1 posts.2 sent
  | sendNode msg nid =>
    obtain ⟨sys, done, rfl⟩ := Option.map_eq_some_iff.mp stepped
    obtain ⟨⟨code, net⟩, sent, rfl⟩ := Option.map_eq_some_iff.mp done
    exact sendFirst_series shown connectedOrAuth_safe posts.1 posts.2 sent
  | sendDb msg =>
    obtain ⟨sys, done, rfl⟩ := Option.map_eq_some_iff.mp stepped
    obtain ⟨⟨code, net⟩, sent, rfl⟩ := Option.map_eq_some_iff.mp done
    exact sendFirst_series shown connectedOrAuth_safe posts.1 posts.2 sent
  | sendState msg =>
    obtain ⟨sys, done, rfl⟩ := Option.map_eq_some_iff.mp stepped
    obtain ⟨⟨code, net⟩, sent, rfl⟩ := Option.map_eq_some_iff.mp done
    exact sendFirst_series shown connectedOrAuth_safe posts.1 posts.2 sent
  | handle heap trips => exact handle_series generated shown kept stepped
  | listen | connect | accept | read | write | checkState | registReq =>
    simp only [Processes.step] at stepped
    split_ifs at stepped with idle
    exact begin_series generated shown kept idle stepped

theorem start_shown (types : Nat → List (BitVec 16)) : Shown (.start types) .empty where
  reads := fun p => start_reads (types p)
  next := fun _ => rfl
  inbox := rfl
  wires := rfl

/-- Every run of a cluster is a series of changes of an empty world. -/
theorem run_series {proto : RouterProto} (generated : Generated proto.toProto)
    {types : Nat → List (BitVec 16)} {events : List (Nat × Processes.Event)}
    (posts : ∀ event ∈ events, PostsPlain proto.toProto event.2)
    (reached : run (Processes.step proto) (.start types) events = some cluster) :
    Series proto.toProto .empty cluster := by
  have initial : (∀ p, Authentication.Kept ((Cluster.start types).sys p)) ∧
      Series proto.toProto .empty (.start types) :=
    ⟨fun p => Authentication.start_kept (types p), .refl (start_shown types)⟩
  have kept := invariant_of_throughout (fun cluster : Cluster =>
    (∀ p, Authentication.Kept (cluster.sys p)) ∧ Series proto.toProto .empty cluster)
    (fun _ event => PostsPlain proto.toProto event.2) ?_ initial
    (throughout_of_mem _ _ fun _ => posts) reached
  · exact kept.2
  rintro cluster ⟨p, event⟩ next ⟨each, world, shown, changes⟩ plain stepped
  refine ⟨fun q => ?_, .after changes (step_series generated shown (each p) plain stepped)⟩
  obtain ⟨own, others⟩ := step_takes stepped
  by_cases equal : q = p
  · rw [equal]
    rcases own with same | ⟨action, done⟩
    · rw [same]
      exact each p
    · exact Authentication.step_kept (each p) done
  · rw [others q equal]
    exact each q

end Cluster

end SNFrame.System.Coverage
