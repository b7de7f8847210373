import Mathlib.Logic.Relation
import SNFrame.Core.NodeMgr
import SNFrame.System.Ownership

/-! The two tables of the program, connections and nodes, as maps from pointers, and the moves
that the program makes on them. What every move preserves holds in every state of every run. -/

namespace SNFrame.System.Tables
open Library.Octet Library.Table Base.PbBuf Core.Receiving Core.Sending Core.TcpParse
open Core.NetManager Core.NodeMgr Ownership

/-- The state that `notifyNodeState` gives the node. -/
def nodeStateOf (state : ConnState) : NodeState :=
  if state = .STATE_ERROR then .NODE_ERROR else .NODE_CLOSED

structure Objects where
  conns : Nat → Option Owned
  nodes : Nat → Option Node

namespace Objects

def setConn (objects : Objects) (addr : Nat) (owned : Option Owned) : Objects :=
  { objects with conns := Function.update objects.conns addr owned }

def setNode (objects : Objects) (addr : Nat) (node : Option Node) : Objects :=
  { objects with nodes := Function.update objects.nodes addr node }

@[simp] theorem setConn_conns (objects : Objects) (addr : Nat) (owned : Option Owned) :
    (objects.setConn addr owned).conns = Function.update objects.conns addr owned := rfl

@[simp] theorem setConn_nodes (objects : Objects) (addr : Nat) (owned : Option Owned) :
    (objects.setConn addr owned).nodes = objects.nodes := rfl

@[simp] theorem setNode_nodes (objects : Objects) (addr : Nat) (node : Option Node) :
    (objects.setNode addr node).nodes = Function.update objects.nodes addr node := rfl

@[simp] theorem setNode_conns (objects : Objects) (addr : Nat) (node : Option Node) :
    (objects.setNode addr node).conns = objects.conns := rfl

@[simp] theorem setConn_setConn (objects : Objects) (addr : Nat) (before after : Option Owned) :
    (objects.setConn addr before).setConn addr after = objects.setConn addr after := by
  simp only [setConn, Function.update_idem]

@[simp] theorem setNode_setNode (objects : Objects) (addr : Nat) (before after : Option Node) :
    (objects.setNode addr before).setNode addr after = objects.setNode addr after := by
  simp only [setNode, Function.update_idem]

@[simp] theorem setNode_setConn (objects : Objects) (addr place : Nat) (node : Option Node)
    (owned : Option Owned) : (objects.setNode place node).setConn addr owned =
      (objects.setConn addr owned).setNode place node := rfl

/-- The connection that is the context of a node is gone. -/
def dropContext (objects : Objects) (node : Node) : Objects :=
  match node.m_context with
  | none => objects
  | some context => objects.setConn context none

@[simp] theorem dropContext_nodes (objects : Objects) (node : Node) :
    (objects.dropContext node).nodes = objects.nodes := by
  unfold dropContext
  split <;> rfl

theorem dropContext_conns_of_ne (objects : Objects) {node : Node} {addr : Nat}
    (other : node.m_context ≠ some addr) :
    (objects.dropContext node).conns addr = objects.conns addr := by
  unfold dropContext
  split
  · rfl
  · next context same =>
    rw [same] at other
    exact Function.update_of_ne (fun equal => other (congrArg some equal.symm)) ..

/-- The call of a callback: the node that is its argument enters a new state. -/
def notify (objects : Objects) (cb : Option Nat) (state : ConnState) : Objects :=
  match cb with
  | none => objects
  | some place => match objects.nodes place with
    | none => objects
    | some node => objects.setNode place (some (node.setState (nodeStateOf state)))

/-- The callback that the new connection of a node takes from the old one. -/
def callbackOf (objects : Objects) (node : Node) : Option Nat :=
  (node.m_context.bind objects.conns).bind (·.conn.cb)

theorem notify_conns (objects : Objects) (cb : Option Nat) (state : ConnState) :
    (objects.notify cb state).conns = objects.conns := by
  unfold notify
  split
  · rfl
  · split <;> rfl

theorem notify_nodes (objects : Objects) (cb : Option Nat) (state : ConnState) (place : Nat) :
    (objects.notify cb state).nodes place =
      if cb = some place then (objects.nodes place).map (·.setState (nodeStateOf state))
      else objects.nodes place := by
  cases cb with
  | none => rfl
  | some other =>
    by_cases same : other = place
    · subst same
      cases here : objects.nodes other with
      | none => simp [notify, here]
      | some node => simp [notify, here]
    · rw [if_neg fun equal => same (Option.some.inj equal)]
      cases here : objects.nodes other with
      | none => simp [notify, here]
      | some node => simp [notify, here, Function.update_of_ne (Ne.symm same)]

theorem notify_setConn (objects : Objects) (cb : Option Nat) (state : ConnState) (addr : Nat)
    (owned : Option Owned) : (objects.notify cb state).setConn addr owned =
      (objects.setConn addr owned).notify cb state := by
  unfold notify
  split
  · rfl
  · next place =>
    rw [setConn_nodes]
    split <;> simp

end Objects

/-- The nodes of all services. -/
def nodesOf (services : List ServiceNode) : List Node := services.flatMap ServiceNode.m_nodes

theorem sublist_nodesOf {services : List ServiceNode} {snode : ServiceNode}
    (inside : snode ∈ services) : snode.m_nodes.Sublist (nodesOf services) := by
  rw [nodesOf, List.flatMap_def]
  exact List.sublist_flatten_of_mem (List.mem_map_of_mem inside)

/-- The state of the program is well formed and reads as these objects. -/
structure Reads (sys : Sys) (objects : Objects) : Prop where
  net : Shows noStrays sys.net objects.conns
  addrs : ((nodesOf sys.services).map Node.addr).Nodup
  below : ∀ node ∈ nodesOf sys.services, node.addr < sys.nextNode
  nodes : sys.derefNode = objects.nodes

/-- The nodes of the services have distinct addresses, and read as this map. -/
structure Placed (sys : Sys) (table : Nat → Option Node) : Prop where
  addrs : ((nodesOf sys.services).map Node.addr).Nodup
  below : ∀ node ∈ nodesOf sys.services, node.addr < sys.nextNode
  nodes : sys.derefNode = table

theorem Reads.placed {sys : Sys} {objects : Objects} (reads : Reads sys objects) :
    Placed sys objects.nodes :=
  ⟨reads.addrs, reads.below, reads.nodes⟩

theorem Placed.reads {sys : Sys} {objects : Objects} (placed : Placed sys objects.nodes)
    (shown : Shows noStrays sys.net objects.conns) : Reads sys objects :=
  ⟨shown, placed.addrs, placed.below, placed.nodes⟩

section Nodes
variable {sys : Sys} {table : Nat → Option Node} {addr : Nat} {node : Node}

theorem Placed.node_of_mem (placed : Placed sys table) (inside : node ∈ nodesOf sys.services) :
    table node.addr = some node := by
  rw [← placed.nodes]
  exact lookup_of_mem placed.addrs inside

theorem Placed.mem_of_node (placed : Placed sys table) (here : table addr = some node) :
    node ∈ nodesOf sys.services ∧ node.addr = addr := by
  rw [← placed.nodes] at here
  exact mem_of_lookup here

theorem Placed.lt_next (placed : Placed sys table) (here : table addr = some node) :
    addr < sys.nextNode := by
  obtain ⟨inside, rfl⟩ := placed.mem_of_node here
  exact placed.below node inside

theorem Placed.fresh_node (placed : Placed sys table) : table sys.nextNode = none := by
  cases here : table sys.nextNode with
  | none => rfl
  | some node => exact absurd (placed.lt_next here) (lt_irrefl _)

theorem Placed.node_of_find (placed : Placed sys table) {sid : BitVec 16} {nid : BitVec 32}
    (found : sys.findNode sid nid = some node) : table node.addr = some node := by
  simp only [Sys.findNode, Option.bind_eq_bind, Option.bind_eq_some_iff] at found
  obtain ⟨snode, service, inside⟩ := found
  apply placed.node_of_mem
  exact List.mem_flatMap.mpr
    ⟨snode, List.mem_of_find?_eq_some service, List.mem_of_find?_eq_some inside⟩

theorem nodesOf_assignNode (sys : Sys) (addr : Nat) (f : Node → Node) :
    nodesOf (sys.assignNode addr f).services = update Node.addr addr f (nodesOf sys.services) := by
  simp only [nodesOf, Sys.assignNode, update, List.flatMap_map, List.map_flatMap]

theorem nodesOf_eraseNode (sys : Sys) (addr : Nat) :
    nodesOf (sys.eraseNode addr).services = remove Node.addr addr (nodesOf sys.services) := by
  simp only [nodesOf, Sys.eraseNode, remove, List.flatMap_map, List.filter_flatMap]

theorem assignNode_placed (placed : Placed sys table) (here : table addr = some node)
    {f : Node → Node} (keeps : ∀ node, (f node).addr = node.addr) :
    Placed (sys.assignNode addr f) (Function.update table addr (some (f node))) where
  addrs := by
    rw [nodesOf_assignNode, map_update Node.addr keeps]
    exact placed.addrs
  below := by
    rw [nodesOf_assignNode]
    intro other inside
    obtain ⟨old, oldIn, rfl⟩ := mem_update.mp inside
    simp only [apply_ite Node.addr, keeps, ite_self]
    exact placed.below old oldIn
  nodes := by
    have found : lookup Node.addr addr (nodesOf sys.services) = some node := by
      rw [← placed.nodes] at here
      exact here
    funext other
    change lookup Node.addr other (nodesOf _) = _
    rw [nodesOf_assignNode, lookup_update keeps]
    by_cases same : other = addr
    · rw [if_pos same, same, Function.update_self, found, Option.map_some]
    · rw [if_neg same, Function.update_of_ne same, ← placed.nodes]
      rfl

theorem eraseNode_placed (placed : Placed sys table) (addr : Nat) :
    Placed (sys.eraseNode addr) (Function.update table addr none) where
  addrs := by
    rw [nodesOf_eraseNode]
    exact (map_remove_sublist _ _ _).nodup placed.addrs
  below := by
    rw [nodesOf_eraseNode]
    intro other inside
    exact placed.below other (mem_remove.mp inside).1
  nodes := by
    funext other
    change lookup Node.addr other (nodesOf _) = _
    rw [nodesOf_eraseNode, lookup_remove]
    by_cases same : other = addr
    · rw [if_pos same, same, Function.update_self]
    · rw [if_neg same, Function.update_of_ne same, ← placed.nodes]
      rfl

theorem nodesOf_pushNode {services after : List ServiceNode}
    (pushed : Sys.pushNode node services = some after) :
    (nodesOf after).Perm (nodesOf services ++ [node]) := by
  induction services generalizing after with
  | nil => cases pushed
  | cons snode rest ih =>
    simp only [Sys.pushNode] at pushed
    split_ifs at pushed with same
    · cases pushed
      simp only [nodesOf, List.flatMap_cons, List.append_assoc]
      exact List.perm_append_comm.append_left _
    · obtain ⟨tail, tailPushed, rfl⟩ := Option.map_eq_some_iff.mp pushed
      simp only [nodesOf, List.flatMap_cons, List.append_assoc]
      exact (ih tailPushed).append_left _

theorem addNode_placed (placed : Placed sys table) {sid : BitVec 16} {nid : BitVec 32} {next : Sys}
    (added : sys.addNode sid nid = some (next, addr)) :
    addr = sys.nextNode ∧ next.net = sys.net ∧ next.nextNode = sys.nextNode + 1 ∧
      Placed next (Function.update table sys.nextNode (some (.fresh sys.nextNode sid nid))) := by
  obtain ⟨services, pushed, same⟩ := Option.map_eq_some_iff.mp added
  cases same
  have perm := nodesOf_pushNode pushed
  have distinct : ((nodesOf sys.services ++ [Node.fresh sys.nextNode sid nid]).map
      Node.addr).Nodup := by
    rw [List.map_append, List.nodup_append]
    refine ⟨placed.addrs, List.nodup_singleton _, ?_⟩
    intro old oldIn new newIn
    obtain ⟨other, inside, rfl⟩ := List.mem_map.mp oldIn
    rw [List.mem_singleton.mp newIn]
    exact ne_of_lt (placed.below other inside)
  refine ⟨rfl, rfl, rfl, (perm.map _).nodup_iff.mpr distinct, ?_, ?_⟩
  · intro other inside
    rcases List.mem_append.mp (perm.mem_iff.mp inside) with inside | inside
    · have small := placed.below other inside
      change other.addr < sys.nextNode + 1
      omega
    · rw [List.mem_singleton.mp inside]
      exact Nat.lt_succ_self _
  · have absent : ∀ old ∈ nodesOf sys.services,
        old.addr ≠ (Node.fresh sys.nextNode sid nid).addr :=
      fun old inside => ne_of_lt (placed.below old inside)
    funext other
    change lookup Node.addr other (nodesOf services) = _
    rw [lookup_perm perm ((perm.map _).nodup_iff.mpr distinct), lookup_append absent]
    by_cases same : other = sys.nextNode
    · rw [same, Function.update_self]
      exact if_pos rfl
    · rw [Function.update_of_ne same, ← placed.nodes]
      exact if_neg same

end Nodes

section Objects
variable {sys : Sys} {objects : Objects} {addr : Nat} {node : Node}

theorem Reads.node_of_mem (reads : Reads sys objects) (inside : node ∈ nodesOf sys.services) :
    objects.nodes node.addr = some node :=
  reads.placed.node_of_mem inside

theorem Reads.mem_of_node (reads : Reads sys objects) (here : objects.nodes addr = some node) :
    node ∈ nodesOf sys.services ∧ node.addr = addr :=
  reads.placed.mem_of_node here

theorem Reads.fresh_node (reads : Reads sys objects) : objects.nodes sys.nextNode = none :=
  reads.placed.fresh_node

theorem Reads.node_of_find (reads : Reads sys objects) {sid : BitVec 16} {nid : BitVec 32}
    (found : sys.findNode sid nid = some node) : objects.nodes node.addr = some node :=
  reads.placed.node_of_find found

theorem assignNode_reads (reads : Reads sys objects) (here : objects.nodes addr = some node)
    {f : Node → Node} (keeps : ∀ node, (f node).addr = node.addr) :
    Reads (sys.assignNode addr f) (objects.setNode addr (some (f node))) :=
  (assignNode_placed reads.placed here keeps).reads reads.net

theorem eraseNode_reads (reads : Reads sys objects) (addr : Nat) :
    Reads (sys.eraseNode addr) (objects.setNode addr none) :=
  (eraseNode_placed reads.placed addr).reads reads.net

theorem addNode_reads (reads : Reads sys objects) {sid : BitVec 16} {nid : BitVec 32} {next : Sys}
    (added : sys.addNode sid nid = some (next, addr)) :
    addr = sys.nextNode ∧ next.net = sys.net ∧
      Reads next (objects.setNode sys.nextNode (some (.fresh sys.nextNode sid nid))) := by
  obtain ⟨same, net, -, placed⟩ := addNode_placed reads.placed added
  exact ⟨same, net, placed.reads (net ▸ reads.net)⟩

end Objects

/-- A change of the connection table alone. -/
theorem Reads.withNet {sys : Sys} {objects : Objects} (reads : Reads sys objects) {net : Net}
    {conns : Nat → Option Owned} (shown : Shows noStrays net conns) :
    Reads { sys with net := net } { objects with conns := conns } :=
  ⟨shown, reads.addrs, reads.below, reads.nodes⟩

theorem Reads.assign {sys : Sys} {objects : Objects} (reads : Reads sys objects) {addr : Nat}
    {owned : Owned} (here : objects.conns addr = some owned) {f : Connection → Connection}
    (keeps : Keeps f) : Reads { sys with net := sys.net.assign addr f }
      (objects.setConn addr (some ⟨f owned.conn, owned.queue⟩)) :=
  reads.withNet (assign_shows reads.net here keeps)

/-- A pointer that is followed is to a connection of the table. -/
theorem Reads.conn_of_deref {sys : Sys} {objects : Objects} (reads : Reads sys objects) {addr : Nat}
    {conn : Connection} (found : sys.net.deref addr = some conn) :
    ∃ owned, objects.conns addr = some owned ∧ owned.conn = conn := by
  obtain ⟨queue, here⟩ := reads.net.exists_of_deref found
  exact ⟨⟨conn, queue⟩, here, rfl⟩

theorem Reads.log {sys : Sys} {objects : Objects} (reads : Reads sys objects) (effect : Effect) :
    Reads (sys.log effect) objects :=
  ⟨reads.net, reads.addrs, reads.below, reads.nodes⟩

/-! ### Moves -/

/-- What is to be sent in STATE_CONNECTED has the write event. -/
def Armed (owned : Owned) : Prop :=
  owned.conn.state = .STATE_CONNECTED → empty owned.queue owned.conn.send = false →
    owned.conn.evs &&& AE_WRITABLE ≠ 0

/-- The contexts of the nodes are client connections, and no two nodes have the same. -/
structure Linked (objects : Objects) : Prop where
  live : ∀ {place node context}, objects.nodes place = some node →
    node.m_context = some context →
    ∃ owned, objects.conns context = some owned ∧ owned.conn.flag = .conn_client
  distinct : ∀ {left right first second context}, objects.nodes left = some first →
    objects.nodes right = some second → first.m_context = some context →
    second.m_context = some context → left = right

/-- What the steps of the program do to the tables, less the transitions into STATE_CONNECTED
of a connection that is not new. -/
inductive Move (objects : Objects) : Objects → Prop
  | opened {addr : Nat} {owned : Owned} (unused : objects.conns addr = none)
      (armed : Armed owned) : Move objects (objects.setConn addr (some owned))
  | changed {addr : Nat} {before after : Owned} (here : objects.conns addr = some before)
      (flag : after.conn.flag = before.conn.flag) (armed : Armed before → Armed after) :
      Move objects (objects.setConn addr (some after))
  | closed {addr : Nat} {owned : Owned} (here : objects.conns addr = some owned)
      (accepted : owned.conn.flag ≠ .conn_client) : Move objects (objects.setConn addr none)
  | noted {place : Nat} {before after : Node} (here : objects.nodes place = some before)
      (context : after.m_context = before.m_context) :
      Move objects (objects.setNode place (some after))
  | launched {addr place : Nat} {owned : Owned} {node : Node}
      (unused : objects.conns addr = none) (client : owned.conn.flag = .conn_client)
      (armed : Armed owned) (absent : objects.nodes place = none)
      (context : node.m_context = some addr) :
      Move objects ((objects.setConn addr (some owned)).setNode place (some node))
  | resumed {addr place : Nat} {owned : Owned} {before after : Node}
      (unused : objects.conns addr = none) (client : owned.conn.flag = .conn_client)
      (armed : Armed owned) (here : objects.nodes place = some before)
      (context : after.m_context = some addr) :
      Move objects
        (((objects.dropContext before).setConn addr (some owned)).setNode place (some after))
  | removed {place : Nat} {before : Node} (here : objects.nodes place = some before) :
      Move objects ((objects.dropContext before).setNode place none)

abbrev Moves : Objects → Objects → Prop := Relation.ReflTransGen Move

section Preserved
variable {objects next : Objects}

/-- A change that keeps the flag of a connection keeps the links. -/
theorem linked_setConn (linked : Linked objects) {addr : Nat} {after : Owned}
    (flag : ∀ before, objects.conns addr = some before →
      before.conn.flag = .conn_client → after.conn.flag = .conn_client) :
    Linked (objects.setConn addr (some after)) where
  live := by
    intro place node context here link
    obtain ⟨owned, found, client⟩ := linked.live here link
    by_cases same : context = addr
    · subst same
      exact ⟨after, Function.update_self .., flag owned found client⟩
    · exact ⟨owned, (Function.update_of_ne same ..).trans found, client⟩
  distinct := linked.distinct

theorem linked_changed (linked : Linked objects) {addr : Nat} {before after : Owned}
    (here : objects.conns addr = some before) (flag : after.conn.flag = before.conn.flag) :
    Linked (objects.setConn addr (some after)) := by
  apply linked_setConn linked
  intro found there client
  cases here.symm.trans there
  exact flag.trans client

theorem linked_setNode (linked : Linked objects) {place : Nat} {before after : Node}
    (here : objects.nodes place = some before) (context : after.m_context = before.m_context) :
    Linked (objects.setNode place (some after)) := by
  -- the node at each place has a context that it had before
  have earlier : ∀ {other node}, (objects.setNode place (some after)).nodes other = some node →
      ∃ old, objects.nodes other = some old ∧ node.m_context = old.m_context := by
    intro other node found
    by_cases same : other = place
    · rw [same, Objects.setNode_nodes, Function.update_self] at found
      cases found
      exact ⟨before, same ▸ here, context⟩
    · rw [Objects.setNode_nodes, Function.update_of_ne same] at found
      exact ⟨node, found, rfl⟩
  constructor
  · intro other node link found has
    obtain ⟨old, was, same⟩ := earlier found
    exact linked.live was (same ▸ has)
  · intro left right first second link leftAt rightAt leftHas rightHas
    obtain ⟨leftOld, leftWas, leftSame⟩ := earlier leftAt
    obtain ⟨rightOld, rightWas, rightSame⟩ := earlier rightAt
    exact linked.distinct leftWas rightWas (leftSame ▸ leftHas) (rightSame ▸ rightHas)

/-- The other nodes keep their links when a node drops its own. -/
theorem live_dropContext (linked : Linked objects) {place other context : Nat}
    {before node : Node} (here : objects.nodes place = some before) (differs : other ≠ place)
    (there : objects.nodes other = some node) (link : node.m_context = some context) :
    ∃ owned, (objects.dropContext before).conns context = some owned ∧
      owned.conn.flag = .conn_client := by
  obtain ⟨owned, found, client⟩ := linked.live there link
  have apart : before.m_context ≠ some context :=
    fun same => differs (linked.distinct there here link same)
  exact ⟨owned, (objects.dropContext_conns_of_ne apart).trans found, client⟩

theorem linked_erase (linked : Linked objects) {place : Nat} {before : Node}
    (here : objects.nodes place = some before) :
    Linked ((objects.dropContext before).setNode place none) := by
  have others : ∀ {other node},
      ((objects.dropContext before).setNode place none).nodes other = some node →
      other ≠ place ∧ objects.nodes other = some node := by
    intro other node found
    rw [Objects.setNode_nodes, Objects.dropContext_nodes] at found
    by_cases same : other = place
    · rw [same, Function.update_self] at found
      cases found
    · rw [Function.update_of_ne same] at found
      exact ⟨same, found⟩
  constructor
  · intro other node context found link
    obtain ⟨differs, there⟩ := others found
    exact live_dropContext linked here differs there link
  · intro left right first second context leftAt rightAt
    exact linked.distinct (others leftAt).2 (others rightAt).2

/-- A new client becomes the context of a node. -/
theorem linked_attach (linked : Linked objects) {addr place : Nat} {owned : Owned} {node : Node}
    (unused : objects.conns addr = none) (client : owned.conn.flag = .conn_client)
    (absent : objects.nodes place = none) (context : node.m_context = some addr) :
    Linked ((objects.setConn addr (some owned)).setNode place (some node)) := by
  -- no other node has the new client
  have apart : ∀ {other old}, objects.nodes other = some old → old.m_context ≠ some addr := by
    intro other old found has
    obtain ⟨held, there, -⟩ := linked.live found has
    rw [unused] at there
    cases there
  have which : ∀ {other now},
      ((objects.setConn addr (some owned)).setNode place (some node)).nodes other = some now →
      other = place ∧ now = node ∨ objects.nodes other = some now := by
    intro other now found
    rw [Objects.setNode_nodes, Objects.setConn_nodes] at found
    by_cases same : other = place
    · rw [same, Function.update_self] at found
      cases found
      exact .inl ⟨same, rfl⟩
    · rw [Function.update_of_ne same] at found
      exact .inr found
  constructor
  · intro other now link found has
    rw [Objects.setNode_conns, Objects.setConn_conns]
    rcases which found with ⟨-, rfl⟩ | old
    · rw [context] at has
      cases has
      exact ⟨owned, Function.update_self .., client⟩
    · obtain ⟨held, there, flag⟩ := linked.live old has
      have differs : link ≠ addr := by
        rintro rfl
        exact apart old has
      exact ⟨held, (Function.update_of_ne differs ..).trans there, flag⟩
  · intro left right first second link leftAt rightAt leftHas rightHas
    rcases which leftAt with ⟨rfl, rfl⟩ | leftOld <;>
      rcases which rightAt with ⟨rfl, rfl⟩ | rightOld
    · rfl
    · exact absurd (rightHas.trans (leftHas.symm.trans context)) (apart rightOld)
    · exact absurd (leftHas.trans (rightHas.symm.trans context)) (apart leftOld)
    · exact linked.distinct leftOld rightOld leftHas rightHas

theorem linked_move (linked : Linked objects) (move : Move objects next) : Linked next := by
  cases move with
  | opened unused _ =>
    apply linked_setConn linked
    intro before here
    rw [unused] at here
    cases here
  | changed here flag _ => exact linked_changed linked here flag
  | @closed addr owned here accepted =>
    refine ⟨?_, linked.distinct⟩
    intro place node context found link
    obtain ⟨held, there, client⟩ := linked.live found link
    have differs : context ≠ addr := by
      rintro rfl
      cases here.symm.trans there
      exact accepted client
    exact ⟨held, (Function.update_of_ne differs ..).trans there, client⟩
  | noted here context => exact linked_setNode linked here context
  | launched unused client _ absent context =>
    exact linked_attach linked unused client absent context
  | @resumed addr place owned before after unused client armed here context =>
    have cleared := linked_erase linked here
    have stillUnused : ((objects.dropContext before).setNode place none).conns addr = none := by
      rw [Objects.setNode_conns]
      by_cases same : before.m_context = some addr
      · obtain ⟨owned, found, -⟩ := linked.live here same
        rw [unused] at found
        cases found
      · rw [objects.dropContext_conns_of_ne same, unused]
    have attached := linked_attach cleared stillUnused client (Function.update_self ..) context
    rw [Objects.setNode_setConn, Objects.setNode_setNode] at attached
    exact attached
  | removed here => exact linked_erase linked here

theorem everywhere_dropContext {law : Owned → Prop} (holds : Everywhere law objects.conns)
    (node : Node) : Everywhere law (objects.dropContext node).conns := by
  unfold Objects.dropContext
  split
  · exact holds
  · exact everywhere_erase holds

theorem armed_move (armed : Everywhere Armed objects.conns) (move : Move objects next) :
    Everywhere Armed next.conns := by
  cases move with
  | opened _ new => exact everywhere_update armed new
  | changed here _ kept => exact everywhere_update armed (kept (armed _ _ here))
  | closed _ _ => exact everywhere_erase armed
  | noted _ _ => exact armed
  | launched _ _ new _ _ => exact everywhere_update armed new
  | resumed _ _ new _ _ => exact everywhere_update (everywhere_dropContext armed _) new
  | removed _ => exact everywhere_dropContext armed _

theorem linked_moves (linked : Linked objects) (moves : Moves objects next) : Linked next := by
  induction moves with
  | refl => exact linked
  | tail _ move ih => exact linked_move ih move

theorem armed_moves (armed : Everywhere Armed objects.conns) (moves : Moves objects next) :
    Everywhere Armed next.conns := by
  induction moves with
  | refl => exact armed
  | tail _ move ih => exact armed_move ih move

end Preserved

end SNFrame.System.Tables
