import SNFrame.Core.EventThread
import SNFrame.System.Turns

/-! The two tables between any two calls of the event thread, as maps from pointers. What the
queues hold is left out: two connections share one while it is handed over. -/

namespace SNFrame.System.Sight
open Library.Octet Library.Table Base.PbBuf Core.Receiving Core.Sending Core.TcpParse
open Core.NetManager Core.NodeMgr Core.EventThread Ownership Tables Turns

/-- The connections have distinct pointers and descriptors, and read as this map. -/
structure Listed (net : Net) (table : Nat → Option Connection) : Prop where
  addrs : (net.conns.map Connection.addr).Nodup
  fds : (net.conns.map Connection.fd).Nodup
  below : ∀ conn ∈ net.conns, conn.addr < net.next
  reads : net.deref = table

section Conns
variable {net : Net} {table : Nat → Option Connection} {addr : Nat} {conn : Connection}

theorem Listed.deref (listed : Listed net table) (here : table addr = some conn) :
    net.deref addr = some conn := by
  rw [listed.reads, here]

theorem Listed.of_deref (listed : Listed net table) (found : net.deref addr = some conn) :
    table addr = some conn := by
  rw [← listed.reads, found]

theorem Listed.mem (listed : Listed net table) (here : table addr = some conn) :
    conn ∈ net.conns ∧ conn.addr = addr :=
  mem_of_lookup (listed.deref here)

theorem Listed.of_mem (listed : Listed net table) (inside : conn ∈ net.conns) :
    table conn.addr = some conn :=
  listed.of_deref (lookup_of_mem listed.addrs inside)

theorem Listed.findFd (listed : Listed net table) (here : table addr = some conn) :
    net.findFd conn.fd = some conn :=
  find?_of_mem listed.fds (listed.mem here).1

theorem Listed.of_findFd (listed : Listed net table) {fd : Int}
    (found : net.findFd fd = some conn) : table conn.addr = some conn ∧ conn.fd = fd :=
  ⟨listed.of_mem (List.mem_of_find?_eq_some found), by simpa using List.find?_some found⟩

theorem Listed.lt_next (listed : Listed net table) (here : table addr = some conn) :
    addr < net.next := by
  obtain ⟨inside, rfl⟩ := listed.mem here
  exact listed.below conn inside

theorem Listed.fresh (listed : Listed net table) : table net.next = none := by
  cases here : table net.next with
  | none => rfl
  | some conn => exact absurd (listed.lt_next here) (lt_irrefl _)

/-- No two connections have one descriptor. -/
theorem Listed.same_addr (listed : Listed net table) {other : Nat} {shared : Connection}
    (here : table addr = some conn) (there : table other = some shared)
    (fds : conn.fd = shared.fd) : addr = other := by
  have found := listed.findFd here
  rw [fds, listed.findFd there] at found
  cases found
  exact (listed.mem here).2.symm.trans (listed.mem there).2

theorem empty_listed : Listed .empty fun _ => none := by
  constructor <;> simp [Net.empty]
  rfl

/-- The queues do not matter. -/
theorem Listed.of_conns (listed : Listed net table) {after : Net} (conns : after.conns = net.conns)
    (next : after.next = net.next) : Listed after table where
  addrs := conns ▸ listed.addrs
  fds := conns ▸ listed.fds
  below := by
    rw [conns, next]
    exact listed.below
  reads := by
    rw [← listed.reads]
    funext other
    rw [Net.deref, conns]
    rfl

@[simp] theorem addFileEvent_next (net : Net) (fd : Int) (mask : BitVec 16) :
    (net.addFileEvent fd mask).next = net.next := by
  unfold Net.addFileEvent
  split
  · rfl
  · split_ifs <;> rfl

@[simp] theorem delFileEvent_next (net : Net) (fd : Int) (mask : BitVec 16) :
    (net.delFileEvent fd mask).next = net.next := by
  unfold Net.delFileEvent
  split
  · rfl
  · dsimp only
    split_ifs <;> rfl

@[simp] theorem closeConnection_next (net : Net) (fd : Int) :
    (net.closeConnection fd).next = net.next := by
  unfold Net.closeConnection
  split
  · rfl
  · dsimp only
    split_ifs <;> rfl

theorem assign_listed (listed : Listed net table) (here : table addr = some conn)
    {f : Connection → Connection} (addrs : ∀ conn, (f conn).addr = conn.addr)
    (fds : ∀ conn, (f conn).fd = conn.fd) :
    Listed (net.assign addr f) (Function.update table addr (some (f conn))) where
  addrs := by
    rw [Net.assign, map_update Connection.addr addrs]
    exact listed.addrs
  fds := by
    rw [Net.assign, map_update Connection.fd fds]
    exact listed.fds
  below := by
    intro other inside
    obtain ⟨old, oldIn, rfl⟩ := mem_update.mp inside
    simp only [apply_ite Connection.addr, addrs, ite_self]
    exact listed.below old oldIn
  reads := by
    funext other
    rw [← listed.reads, Net.deref, Net.assign, lookup_update addrs]
    by_cases same : other = addr
    · rw [if_pos same, same, Function.update_self, ← Net.deref, listed.deref here, Option.map_some]
    · rw [if_neg same, Function.update_of_ne same]
      rfl

theorem addFileEvent_listed (listed : Listed net table) (here : table addr = some conn)
    (mask : BitVec 16) : Listed (net.addFileEvent conn.fd mask)
      (Function.update table addr (some (withEvent mask conn))) := by
  rw [Net.addFileEvent, listed.findFd here]
  simp only [withEvent]
  split_ifs with armed
  · rwa [Function.update_eq_self_iff.mpr here.symm]
  · have there := (listed.mem here).2
    subst there
    have adds := addEvent_keeps mask
    exact assign_listed listed here
      (f := fun conn => { conn with evs := conn.evs ||| mask }.addEvent mask)
      (fun conn => adds.addr _) (fun conn => adds.fd _)

theorem delFileEvent_listed (listed : Listed net table) (here : table addr = some conn)
    (mask : BitVec 16) : Listed (net.delFileEvent conn.fd mask)
      (Function.update table addr (some (withoutEvent mask conn))) := by
  rw [Net.delFileEvent, listed.findFd here]
  simp only [withoutEvent]
  split_ifs with armed
  · have there := (listed.mem here).2
    subst there
    exact assign_listed listed here
      (f := fun other => { other with evs := other.evs &&& ~~~mask }.delEvent (conn.evs &&& mask))
      (fun _ => rfl) (fun _ => rfl)
  · rwa [Function.update_eq_self_iff.mpr here.symm]

theorem closeConnection_listed (listed : Listed net table) (here : table addr = some conn) :
    Listed (net.closeConnection conn.fd) (Function.update table addr none) := by
  have conns : (net.closeConnection conn.fd).conns = remove Connection.addr addr net.conns := by
    have there := (listed.mem here).2
    subst there
    rw [Net.closeConnection, listed.findFd here]
    dsimp only
    split_ifs <;> rfl
  constructor
  · rw [conns]
    exact (map_remove_sublist _ _ _).nodup listed.addrs
  · rw [conns]
    exact (map_remove_sublist _ _ _).nodup listed.fds
  · rw [conns, closeConnection_next]
    intro other inside
    exact listed.below other (mem_remove.mp inside).1
  · funext other
    rw [← listed.reads, Net.deref, conns, lookup_remove]
    by_cases same : other = addr
    · rw [if_pos same, same, Function.update_self]
    · rw [if_neg same, Function.update_of_ne same]
      rfl

theorem create_listed (listed : Listed net table) {fd : Int} (unused : net.findFd fd = none) :
    Listed (net.create fd)
      (Function.update table net.next (some (.fresh net.next net.next fd))) where
  addrs := by
    rw [Net.create, List.map_append, List.nodup_append]
    refine ⟨listed.addrs, List.nodup_singleton _, ?_⟩
    intro old oldIn new newIn
    obtain ⟨other, inside, rfl⟩ := List.mem_map.mp oldIn
    rw [List.mem_singleton.mp newIn]
    exact ne_of_lt (listed.below other inside)
  fds := by
    rw [Net.create, List.map_append, List.nodup_append]
    refine ⟨listed.fds, List.nodup_singleton _, ?_⟩
    intro old oldIn new newIn
    obtain ⟨other, inside, rfl⟩ := List.mem_map.mp oldIn
    rw [List.mem_singleton.mp newIn]
    have apart := List.find?_eq_none.mp unused other inside
    change other.fd ≠ fd
    simpa using apart
  below := by
    intro other inside
    change other.addr < net.next + 1
    rcases List.mem_append.mp inside with inside | inside
    · exact Nat.lt_succ_of_lt (listed.below other inside)
    · rw [List.mem_singleton.mp inside]
      exact Nat.lt_succ_self _
  reads := by
    have absent : ∀ old ∈ net.conns,
        old.addr ≠ (Connection.fresh net.next net.next fd).addr :=
      fun old inside => ne_of_lt (listed.below old inside)
    funext other
    rw [← listed.reads, Net.deref, Net.create, lookup_append absent]
    by_cases same : other = net.next
    · rw [same, Function.update_self]
      exact if_pos rfl
    · rw [Function.update_of_ne same]
      exact if_neg same

/-- A connect fails, or there is a new connection under the next pointer. -/
theorem opened_cases (listed : Listed net table) {fd : Int} {f : Connection → Connection}
    (addrs : ∀ conn, (f conn).addr = conn.addr) (fds : ∀ conn, (f conn).fd = conn.fd)
    {after : Net} {new : Option Nat} (done : opened net fd f = some (after, new)) :
    new = none ∧ after = net ∨ new = some net.next ∧ after.next = net.next + 1 ∧
      Listed after (Function.update table net.next (some (f (.fresh net.next net.next fd)))) := by
  unfold opened at done
  split_ifs at done with valid used
  · cases done
    have unused : net.findFd fd = none := by simpa using used
    have created := create_listed listed unused
    have stored := assign_listed created (Function.update_self ..) addrs fds
    rw [Function.update_idem] at stored
    exact .inr ⟨rfl, rfl, stored⟩
  · cases done
    exact .inl ⟨rfl, rfl⟩

/-- A send finds no connection, or it puts a message into a queue and arms the connection when
its state is one of those. -/
theorem sendFirst_listed (listed : Listed net table) {isTarget : Connection → Bool}
    {arms : ConnState → Bool} {msg : IMString} {code : Int} {after : Net}
    (sent : net.sendFirst isTarget arms msg = some (code, after)) :
    after.next = net.next ∧ (Listed after table ∨ ∃ addr conn, table addr = some conn ∧
      arms conn.state = true ∧
      Listed after (Function.update table addr (some (withEvent AE_WRITABLE conn)))) := by
  unfold Net.sendFirst at sent
  split at sent
  · cases sent
    exact ⟨rfl, .inl listed⟩
  · next conn found =>
    obtain ⟨pushed, push, same⟩ := Option.map_eq_some_iff.mp sent
    obtain ⟨msgs, -, rfl⟩ := Option.map_eq_some_iff.mp push
    have kept : Listed (setQueue net conn.outBuffer (msgs ++ [msg])) table :=
      listed.of_conns rfl rfl
    have here := listed.of_mem (List.mem_of_find?_eq_some found)
    cases same
    split_ifs with armed
    · have added := addFileEvent_listed kept here AE_WRITABLE
      exact ⟨addFileEvent_next _ _ _, .inr ⟨conn.addr, conn, here, armed, added⟩⟩
    · exact ⟨rfl, .inl kept⟩

end Conns

/-- The two tables, and the pointers that are still unused. -/
structure View where
  conns : Nat → Option Connection
  nodes : Nat → Option Node
  next : Nat
  nextNode : Nat

namespace View

def setConn (view : View) (addr : Nat) (conn : Option Connection) : View :=
  { view with conns := Function.update view.conns addr conn }

def setNode (view : View) (place : Nat) (node : Option Node) : View :=
  { view with nodes := Function.update view.nodes place node }

/-- An assignment through a pointer, which may be to no node. -/
def assignNode (view : View) (place : Nat) (f : Node → Node) : View :=
  view.setNode place ((view.nodes place).map f)

theorem assignNode_self (view : View) (place : Nat) (f : Node → Node) :
    (view.assignNode place f).nodes place = (view.nodes place).map f :=
  Function.update_self ..

/-- The call of a callback. -/
def notify (view : View) (cb : Option Nat) (state : ConnState) : View :=
  match cb with
  | none => view
  | some place => view.assignNode place (·.setState (nodeStateOf state))

@[simp] theorem notify_conns (view : View) (cb : Option Nat) (state : ConnState) :
    (view.notify cb state).conns = view.conns := by
  cases cb <;> rfl

@[simp] theorem notify_next (view : View) (cb : Option Nat) (state : ConnState) :
    (view.notify cb state).next = view.next := by
  cases cb <;> rfl

end View

structure Sees (sys : Sys) (view : View) : Prop where
  net : Listed sys.net view.conns
  nodes : Placed sys view.nodes
  next : sys.net.next = view.next
  nextNode : sys.nextNode = view.nextNode

section Sys
variable {sys next : Sys} {view : View} {addr place : Nat} {conn : Connection}

theorem Sees.withNet (sees : Sees sys view) {net : Net} {conns : Nat → Option Connection}
    (listed : Listed net conns) (same : net.next = sys.net.next) :
    Sees { sys with net := net } { view with conns := conns } :=
  ⟨listed, ⟨sees.nodes.addrs, sees.nodes.below, sees.nodes.nodes⟩, same.trans sees.next,
    sees.nextNode⟩

theorem Sees.log (sees : Sees sys view) (effects : List Effect) :
    Sees { sys with effects := effects } view :=
  ⟨sees.net, ⟨sees.nodes.addrs, sees.nodes.below, sees.nodes.nodes⟩, sees.next, sees.nextNode⟩

theorem Sees.assign (sees : Sees sys view) (here : view.conns addr = some conn)
    {f : Connection → Connection} (addrs : ∀ conn, (f conn).addr = conn.addr)
    (fds : ∀ conn, (f conn).fd = conn.fd) :
    Sees { sys with net := sys.net.assign addr f } (view.setConn addr (some (f conn))) :=
  sees.withNet (assign_listed sees.net here addrs fds) rfl

theorem Sees.assignNode (sees : Sees sys view) (place : Nat) {f : Node → Node}
    (keeps : ∀ node, (f node).addr = node.addr) :
    Sees (sys.assignNode place f) (view.assignNode place f) := by
  cases here : view.nodes place with
  | some node =>
    have placed := assignNode_placed sees.nodes here keeps
    rw [View.assignNode, here]
    exact ⟨sees.net, placed, sees.next, sees.nextNode⟩
  | none =>
    have same : nodesOf (sys.assignNode place f).services = nodesOf sys.services := by
      rw [nodesOf_assignNode]
      apply update_of_absent
      intro node inside equal
      rw [← equal, sees.nodes.node_of_mem inside] at here
      cases here
    have kept : view.assignNode place f = view := by
      rw [View.assignNode, View.setNode, here, Option.map_none,
        Function.update_eq_self_iff.mpr here.symm]
    rw [kept]
    refine ⟨sees.net, ⟨same ▸ sees.nodes.addrs, same ▸ sees.nodes.below, ?_⟩, sees.next,
      sees.nextNode⟩
    rw [← sees.nodes.nodes]
    funext other
    change List.find? _ (nodesOf _) = List.find? _ (nodesOf _)
    rw [same]

theorem Sees.eraseNode (sees : Sees sys view) (place : Nat) :
    Sees (sys.eraseNode place) (view.setNode place none) :=
  ⟨sees.net, eraseNode_placed sees.nodes place, sees.next, sees.nextNode⟩

theorem Sees.addNode (sees : Sees sys view) {sid : BitVec 16} {nid : BitVec 32}
    (added : sys.addNode sid nid = some (next, place)) : place = view.nextNode ∧
      Sees next { view.setNode view.nextNode (some (.fresh view.nextNode sid nid)) with
        nextNode := view.nextNode + 1 } := by
  obtain ⟨same, net, count, placed⟩ := addNode_placed sees.nodes added
  rw [sees.nextNode] at same count placed
  exact ⟨same, net ▸ sees.net, placed, net ▸ sees.next, count⟩

theorem Sees.opened (sees : Sees sys view) {fd : Int} {f : Connection → Connection}
    (addrs : ∀ conn, (f conn).addr = conn.addr) (fds : ∀ conn, (f conn).fd = conn.fd)
    {net : Net} {new : Option Nat} (done : opened sys.net fd f = some (net, new)) :
    new = none ∧ net = sys.net ∨ new = some view.next ∧ Sees { sys with net := net }
      { view.setConn view.next (some (f (.fresh view.next view.next fd))) with
        next := view.next + 1 } := by
  rcases opened_cases sees.net addrs fds done with kept | ⟨new, count, listed⟩
  · exact .inl kept
  · rw [sees.next] at new count listed
    exact .inr ⟨new, listed, ⟨sees.nodes.addrs, sees.nodes.below, sees.nodes.nodes⟩, count,
      sees.nextNode⟩

theorem Sees.notifyNodeState (sees : Sees sys view) {heap : Heap} {state : ConnState}
    (done : sys.notifyNodeState heap place state = some next) :
    Sees next (view.notify (some place) state) := by
  obtain ⟨node, -, rfl⟩ := Option.map_eq_some_iff.mp done
  have noted := sees.assignNode place (f := (·.setState (nodeStateOf state))) fun _ => rfl
  dsimp only
  by_cases allocated : (bufalloc heap 27).1 = true
  · rw [if_pos allocated]
    exact noted.log _
  · rw [if_neg allocated]
    exact noted

theorem Sees.callback (sees : Sees sys view) {heap : Heap} {state : ConnState} {cb : Option Nat}
    (done : (match cb with
      | none => some sys
      | some node => sys.notifyNodeState heap node state) = some next) :
    Sees next (view.notify cb state) := by
  cases cb with
  | none =>
    cases done
    exact sees
  | some place => exact sees.notifyNodeState done

/-- `Connection::setState`, which calls the callback when the state is a broken one. -/
theorem Sees.setState (sees : Sees sys view) {heap : Heap} {state : ConnState}
    (done : sys.setState heap addr state = some next) : ∃ conn, view.conns addr = some conn ∧
      Sees next (if Broken state then
        (view.setConn addr (some { conn with state := state })).notify conn.cb state
      else view.setConn addr (some { conn with state := state })) := by
  unfold Sys.setState at done
  split at done
  · cases done
  · next conn found =>
    have here := sees.net.of_deref found
    have stored := sees.assign here (f := fun conn => { conn with state := state })
      (fun _ => rfl) (fun _ => rfl)
    refine ⟨conn, here, ?_⟩
    dsimp only at done
    by_cases broken : state = .STATE_CLOSED ∨ state = .STATE_ERROR
    · rw [if_pos broken] at done
      rw [if_pos (show Broken state from broken)]
      exact stored.callback done
    · rw [if_neg broken] at done
      rw [if_neg (show ¬Broken state from broken)]
      cases done
      exact stored

end Sys

end SNFrame.System.Sight
