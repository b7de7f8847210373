import SNFrame.System.Links
import SNFrame.System.Reconnect

/-! The failure of a connection and the node whose context it is. The callback of the connection
tells the node, and `registReq` installs none. -/

namespace SNFrame.System.Failures
open Library.Octet Library.Transition Library.Table Base.PbBuf Core.Receiving Core.Sending
open Core.TcpParse Core.NetManager Core.NodeMgr Ownership Tables Turns Simulation Supervision
open Arming Links Reconnect

/-- When a read or a write fails, the node whose context has failed is lost in the same call. -/
def ReachesNode (proto : Proto) (sys : Sys) (action : Action) : Prop :=
  ∀ next addr, step proto sys action = some next → Fails proto.toServiceID sys action addr →
    ∀ node ∈ nodesOf next.services, node.m_context = some addr → Lost node.m_state

/-- What `checkState` does with a lost node: a reconnect, or the node is given up. -/
def recover (proto : Proto) (sys : Sys) (visit : Visit) (sid : BitVec 16) (node : Node) :
    Option Sys :=
  let counted := sys.assignNode node.addr fun node => node.needReconnect.2
  if node.needReconnect.1 then counted.reconnect proto visit sid node.needReconnect.2
  else counted.giveUp proto visit sid node.needReconnect.2

/-- The loop of `checkState` comes to each lost node of the service as it is, and recovers it. -/
def Recovers (proto : Proto) (sys : Sys) : Action → Prop
  | .checkState service visits => ∀ next snode, sys.checkState proto service visits = some next →
      sys.services[service]? = some snode → ∀ node ∈ snode.m_nodes, Lost node.m_state →
        ∃ first last before after, snode.m_nodes.map Node.addr = first ++ node.addr :: last ∧
          run (Sys.checkNode proto snode.m_sid visits) sys first = some before ∧
          before.derefNode node.addr = some node ∧
          recover proto before (visits node.addr) snode.m_sid node = some after ∧
          run (Sys.checkNode proto snode.m_sid visits) after last = some next
  | _ => True

def FailureReaches (proto : Proto) (sys : Sys) (action : Action) : Prop :=
  ReachesNode proto sys action ∧ Recovers proto sys action

/-- The node is able or waits for its response. -/
abbrev Alive (node : Node) : Prop := node.m_state = .NODE_ABLE ∨ node.m_state = .NODE_AUTH

/-- No node that is able or waits for its response has a broken connection. -/
def NoneBelievedAlive (sys : Sys) : Prop :=
  ∀ node ∈ nodesOf sys.services, Alive node → ∀ context conn, node.m_context = some context →
    sys.net.deref context = some conn → ¬Broken conn.state

/-- The response that a node gets arrives on its own connection. -/
def OnOwnConnection (proto : Proto) (sys : Sys) : Action → Prop
  | .authenticationRsp addr msg _ => ∀ sid nid node,
      proto.parseAuthenticationRsp (payload msg) = some (sid, nid) →
      sys.findNode sid nid = some node → node.m_context = some addr
  | _ => True

/-- A connection that fails is not one that a node has registered with. -/
def FailsUnregistered (proto : Proto) (sys : Sys) (action : Action) : Prop :=
  ∀ addr, Fails proto.toServiceID sys action addr →
    ∀ node ∈ nodesOf sys.services, node.m_context = some addr → node.m_persist = true

section Steps
variable {sys next : Sys} {objects after : Objects} {proto : Proto}

/-! ### The failing call -/

/-- The callback of a failed connection is for its own node, unless the node registers. -/
theorem cb_of_context (bound : Bound objects) {place addr : Nat} {node : Node} {owned : Owned}
    (there : objects.nodes place = some node) (link : node.m_context = some addr)
    (here : objects.conns addr = some owned) :
    owned.conn.cb = if node.m_persist then some place else none := by
  obtain ⟨context, held, has, found, back⟩ := bound.answered there
  cases link.symm.trans has
  cases here.symm.trans found
  exact back

theorem breaks_reachesNode_iff (reads : Reads sys objects) (bound : Bound objects)
    {fails : Nat → Prop} {addr : Nat} (breaks : Breaks fails objects addr next) :
    (∀ node ∈ nodesOf next.services, node.m_context = some addr → Lost node.m_state) ↔
      ∀ node ∈ nodesOf sys.services, node.m_context = some addr → node.m_persist = true := by
  obtain ⟨owned, state, after, here, broken, afterReads, -, failed⟩ := breaks
  constructor
  · intro reaches node inside link
    by_contra registers
    have there := reads.node_of_mem inside
    have silent := cb_of_context bound there link here
    rw [if_neg registers] at silent
    -- without a callback the node stays able
    have kept : after.nodes node.addr = some node := by
      rw [failed.nodes, Objects.notify_nodes, silent, if_neg (by simp), there]
    have lost := reaches node (afterReads.mem_of_node kept).1 link
    rw [bound.registered there (by simpa using registers)] at lost
    rcases lost with same | same <;> cases same
  · intro persists node inside link
    have there := afterReads.node_of_mem inside
    rw [failed.nodes, Objects.notify_nodes] at there
    split_ifs at there with called
    · obtain ⟨before, -, rfl⟩ := Option.map_eq_some_iff.mp there
      exact lost_nodeStateOf state
    · obtain ⟨insideBefore, -⟩ := reads.mem_of_node there
      have own := cb_of_context bound there link here
      rw [if_pos (persists node insideBefore link)] at own
      exact absurd own called

theorem reachesNode_iff (reads : Reads sys objects) (bound : Bound objects) {action : Action}
    (stepped : step proto sys action = some next) :
    ReachesNode proto sys action ↔ FailsUnregistered proto sys action := by
  have silent : (∀ addr, ¬Fails proto.toServiceID sys action addr) →
      (ReachesNode proto sys action ↔ FailsUnregistered proto sys action) := by
    intro holds
    exact iff_of_true (fun _ addr _ fails => absurd fails (holds addr))
      fun addr fails => absurd fails (holds addr)
  by_cases calm : Authenticates action
  · apply silent
    cases action <;> first | exact fun _ => id | exact absurd calm id
  · rcases step_cases reads bound.linked calm stepped with ⟨holds, -⟩ | ⟨addr, fails, breaks⟩
    · exact silent holds
    · have only : ∀ {other}, Fails proto.toServiceID sys action other → other = addr :=
        fun otherFails => fails_unique otherFails fails
      have exact_failure := breaks_reachesNode_iff reads bound breaks
      constructor
      · intro reaches other otherFails
        cases only otherFails
        exact exact_failure.mp fun node => reaches next addr stepped fails node
      · intro persists last other done otherFails
        cases only otherFails
        cases stepped.symm.trans done
        exact exact_failure.mpr (persists addr fails)

/-! ### The visit that follows -/

theorem recovers_of_sound (sound : Sound sys) (action : Action) : Recovers proto sys action := by
  cases action <;> try trivial
  case checkState service visits =>
    intro next snode done served node member lost
    obtain ⟨objects, reads, bound⟩ := sound
    have part := sublist_nodesOf (List.mem_of_getElem? served)
    have there := reads.node_of_mem (part.subset member)
    obtain ⟨context, owned, link, here, -⟩ := bound.answered there
    -- the loop visits each node once
    have distinct : (snode.m_nodes.map Node.addr).Nodup := (part.map Node.addr).nodup reads.addrs
    obtain ⟨first, last, split⟩ := List.append_of_mem (List.mem_map_of_mem (f := Node.addr) member)
    rw [split] at distinct
    have notFirst : node.addr ∉ first := fun early =>
      (List.nodup_append.mp distinct).2.2 node.addr early node.addr List.mem_cons_self rfl
    simp only [Sys.checkState, served, Option.bind_eq_bind, Option.bind_some, foldlM_eq_run, split,
      run_append, run_cons] at done
    obtain ⟨before, early, after, visited, late⟩ := done
    obtain ⟨⟨tables, beforeReads, -, arrives, -⟩, -⟩ :=
      run_held notFirst ⟨⟨objects, reads, bound.linked, there, here⟩, link⟩ early
    have pointed : before.derefNode node.addr = some node := by rw [beforeReads.nodes, arrives]
    refine ⟨first, last, before, after, split, early, pointed, ?_, late⟩
    have failed : node.m_state = .NODE_ERROR ∨ node.m_state = .NODE_CLOSED := lost
    simp only [Sys.checkNode, pointed, Option.bind_eq_bind, Option.bind_some, if_pos failed]
      at visited
    exact visited

theorem failureReaches_iff (sound : Sound sys) {action : Action}
    (stepped : step proto sys action = some next) :
    FailureReaches proto sys action ↔ FailsUnregistered proto sys action := by
  have recovers : Recovers proto sys action := recovers_of_sound sound action
  obtain ⟨objects, reads, bound⟩ := sound
  rw [FailureReaches, and_iff_left recovers]
  exact reachesNode_iff reads bound stepped

/-! ### Nodes that are believed alive -/

/-- The tables in which no node that is able or waits has a broken connection. -/
structure Trusted (objects : Objects) : Prop where
  unbroken : ∀ {place node context owned}, objects.nodes place = some node → Alive node →
    node.m_context = some context → objects.conns context = some owned → ¬Broken owned.conn.state

theorem trusted_iff (reads : Reads sys objects) : NoneBelievedAlive sys ↔ Trusted objects := by
  constructor
  · refine fun none => ⟨?_⟩
    intro place node context owned there alive link here
    obtain ⟨inside, -⟩ := reads.mem_of_node there
    exact none node inside alive context owned.conn link (reads.net.deref here)
  · intro trusted node inside alive context conn link pointed
    obtain ⟨owned, here, rfl⟩ := reads.conn_of_deref pointed
    exact trusted.unbroken (reads.node_of_mem inside) alive link here

theorem trusted_setConn (trusted : Trusted objects) {addr : Nat} {owned : Owned}
    (calm : ∀ {place node}, objects.nodes place = some node → Alive node →
      node.m_context = some addr → ¬Broken owned.conn.state) :
    Trusted (objects.setConn addr (some owned)) := by
  constructor
  intro place node context held there alive link here
  rcases update_eq_some.mp here with ⟨rfl, same⟩ | ⟨-, was⟩
  · cases same
    exact calm there alive link
  · exact trusted.unbroken there alive link was

/-- A connection that is new is the context of no node. -/
theorem trusted_opened (trusted : Trusted objects) (linked : Linked objects) {addr : Nat}
    (unused : objects.conns addr = none) (owned : Owned) :
    Trusted (objects.setConn addr (some owned)) := by
  apply trusted_setConn trusted
  intro place node there _ link
  obtain ⟨held, here, -⟩ := linked.live there link
  rw [unused] at here
  cases here

/-- A change of one node, when its connection is sound if the new one is believed alive. -/
theorem trusted_setNode (trusted : Trusted objects) {place : Nat} {node : Node}
    (calm : Alive node → ∀ context owned, node.m_context = some context →
      objects.conns context = some owned → ¬Broken owned.conn.state) :
    Trusted (objects.setNode place (some node)) := by
  constructor
  intro other held context owned there alive link here
  rcases update_eq_some.mp there with ⟨-, same⟩ | ⟨-, was⟩
  · cases same
    exact calm alive context owned link here
  · exact trusted.unbroken was alive link here

/-- Objects that go away take nothing from the others. -/
theorem trusted_of_subset (trusted : Trusted objects)
    (conns : ∀ {addr owned}, after.conns addr = some owned → objects.conns addr = some owned)
    (nodes : ∀ {place node}, after.nodes place = some node → objects.nodes place = some node) :
    Trusted after :=
  ⟨fun there alive link here => trusted.unbroken (nodes there) alive link (conns here)⟩

theorem erased_subset {Value : Type} {table : Nat → Option Value} {place other : Nat}
    {value : Value} (found : Function.update table place none other = some value) :
    table other = some value := by
  rcases update_eq_some.mp found with ⟨-, gone⟩ | ⟨-, was⟩
  · cases gone
  · exact was

theorem dropContext_subset {node : Node} {addr : Nat} {owned : Owned}
    (found : (objects.dropContext node).conns addr = some owned) :
    objects.conns addr = some owned := by
  unfold Objects.dropContext at found
  split at found
  · exact found
  · exact erased_subset found

theorem turn_trusted (trusted : Trusted objects) (linked : Linked objects)
    (turn : Turn noFailure objects after) : Trusted after := by
  cases turn with
  | opened unused cb armed => exact trusted_opened trusted linked unused _
  | changed here alike armed =>
    apply trusted_setConn trusted
    intro place node there alive link
    rw [alike.state]
    exact trusted.unbroken there alive link here
  | failed here broken failing => exact failing.elim
  | closed here accepted => exact trusted_of_subset trusted erased_subset id
  | counted here =>
    apply trusted_setNode trusted
    intro alive context owned link found
    rw [Alive, needReconnect_state] at alive
    rw [needReconnect_context] at link
    exact trusted.unbroken here alive link found
  | launched unused absent installed armed =>
    apply trusted_setNode (trusted_opened trusted linked unused _)
    intro _ context held link found
    rw [installed.context] at link
    cases link
    rw [Objects.setConn_conns, Function.update_self] at found
    cases found
    exact installed.unbroken
  | @resumed addr place owned before node unused here client waits cb context =>
    have unbroken : ¬Broken owned.conn.state := by
      rw [waits]
      decide
    have dropped : Trusted (objects.dropContext before) := by
      apply trusted_of_subset trusted dropContext_subset
      intro place node found
      rwa [Objects.dropContext_nodes] at found
    apply trusted_setNode (trusted_setConn dropped fun _ _ _ => unbroken)
    intro _ link held points found
    rw [context] at points
    cases points
    rw [Objects.setConn_conns, Function.update_self] at found
    cases found
    exact unbroken
  | removed here =>
    apply trusted_of_subset trusted
    · exact dropContext_subset
    · intro place node found
      rw [Objects.setNode_nodes, Objects.dropContext_nodes] at found
      exact erased_subset found

theorem course_trusted (trusted : Trusted objects) (linked : Linked objects)
    (course : Course noFailure objects after) : Trusted after := by
  induction course with
  | refl => exact trusted
  | tail before turn ih =>
    exact turn_trusted ih (linked_moves linked (course_moves before)) turn

/-- A connection that fails takes its node with it. -/
theorem breaks_trusted (reads : Reads sys objects) (bound : Bound objects)
    (trusted : Trusted objects) {fails : Nat → Prop} {addr : Nat}
    (breaks : Breaks fails objects addr next)
    (persists : ∀ node ∈ nodesOf sys.services, node.m_context = some addr →
      node.m_persist = true) : NoneBelievedAlive next := by
  obtain ⟨owned, state, after, here, broken, afterReads, -, failed⟩ := breaks
  apply (trusted_iff afterReads).mpr
  constructor
  intro place node context held there alive link found
  rw [failed.nodes, Objects.notify_nodes] at there
  split_ifs at there with called
  · -- the callback has lost this node
    obtain ⟨before, -, rfl⟩ := Option.map_eq_some_iff.mp there
    rcases lost_nodeStateOf state with same | same <;>
      rcases alive with able | waits <;>
      simp [Node.setState, same] at *
  · have differs : context ≠ addr := by
      rintro rfl
      have own := cb_of_context bound there link here
      rw [if_pos (persists node (reads.mem_of_node there).1 link)] at own
      exact called own
    rw [failed.others context differs] at found
    exact trusted.unbroken there alive link found

theorem unbroken_of_connected {state : ConnState} (connected : state = .STATE_CONNECTED) :
    ¬Broken state := by
  rw [connected]
  decide

/-- A connection that enters STATE_CONNECTED. -/
theorem trusted_connected (trusted : Trusted objects) {addr : Nat} {owned : Owned}
    (connected : owned.conn.state = .STATE_CONNECTED) :
    Trusted (objects.setConn addr (some owned)) := by
  apply trusted_setConn trusted
  intro _ _ _ _ _
  exact unbroken_of_connected connected

theorem step_noneBelievedAlive (reads : Reads sys objects) (bound : Bound objects)
    (none : NoneBelievedAlive sys) {action : Action} (own : OnOwnConnection proto sys action)
    (unregistered : FailsUnregistered proto sys action)
    (stepped : step proto sys action = some next) : NoneBelievedAlive next := by
  have trusted := (trusted_iff reads).mp none
  by_cases calm : Authenticates action
  · cases action <;> try exact absurd calm id
    case authenticationReq addr msg heap =>
      rcases authenticationReq_cases reads stepped with
        ⟨-, rfl⟩ | ⟨sid, nid, owned, -, here, ⟨-, after⟩ | ⟨auth, -, after⟩⟩
      · exact none
      · exact (trusted_iff after).mpr (trusted_connected trusted rfl)
      · exact (trusted_iff after).mpr (trusted_connected trusted (sent_alike ..).state)
    case authenticationRsp addr msg heap =>
      rcases authenticationRsp_cases reads stepped with
        ⟨-, rfl⟩ | ⟨sid, nid, node, owned, parsed, found, -, here, after⟩
      · exact none
      · have link := own sid nid node parsed found
        have connected : Trusted (objects.setConn addr (some (inState .STATE_CONNECTED owned))) :=
          trusted_connected trusted rfl
        apply (trusted_iff after).mpr
        rw [Objects.setNode_setConn]
        apply trusted_setNode connected
        intro _ context held points there
        cases link.symm.trans points
        rw [Objects.setConn_conns, Function.update_self] at there
        cases there
        exact unbroken_of_connected rfl
  · rcases step_cases reads bound.linked calm stepped with
      ⟨-, after, afterReads, course⟩ | ⟨addr, fails, breaks⟩
    · exact (trusted_iff afterReads).mpr (course_trusted trusted bound.linked course)
    · exact breaks_trusted reads bound trusted breaks (unregistered addr fails)

theorem start_noneBelievedAlive (types : List (BitVec 16)) : NoneBelievedAlive (start types) := by
  intro node inside
  rw [start_nodes] at inside
  cases inside

end Steps

/-- The exact condition for every failure to reach its node: no connection fails that a node has
registered with. -/
theorem failure_reaches_node_iff (proto : Proto) (types : List (BitVec 16))
    (actions : List Action) (sys : Sys)
    (reached : run (step proto) (start types) actions = some sys) :
    (Throughout (step proto) (FailureReaches proto) (start types) actions ∧
        (Throughout (step proto) (OnOwnConnection proto) (start types) actions →
          Always (step proto) NoneBelievedAlive (start types) actions)) ↔
      Throughout (step proto) (FailsUnregistered proto) (start types) actions := by
  have reaches : Throughout (step proto) (FailureReaches proto) (start types) actions ↔
      Throughout (step proto) (FailsUnregistered proto) (start types) actions := by
    apply throughout_iff_of_reached Sound ?_ ?_ (start_sound types) reached
    · intro before action after sound _ stepped
      exact step_sound sound stepped
    · intro before action after sound stepped
      exact failureReaches_iff sound stepped
  constructor
  · intro both
    exact reaches.mp both.1
  · intro unregistered
    refine ⟨reaches.mpr unregistered, ?_⟩
    intro own
    have always : Always (step proto) (fun state => Sound state ∧ NoneBelievedAlive state)
        (start types) actions := by
      apply always_of_throughout _ _ ?_ ⟨start_sound types, start_noneBelievedAlive types⟩
        (throughout_and.mpr ⟨own, unregistered⟩)
      rintro before action after ⟨sound, none⟩ ⟨ownHere, unregisteredHere⟩ stepped
      refine ⟨step_sound sound stepped, ?_⟩
      obtain ⟨objects, reads, bound⟩ := sound
      exact step_noneBelievedAlive reads bound none ownHere unregisteredHere stepped
    exact always_mono (fun _ => And.right) always

/-- A read that fails. -/
def failingRead : ReadEvent := ⟨[.failed .other], fun _ => ⟨⟨true, fun _ => 0⟩, 0⟩, 0⟩

theorem failingRead_fails (sids : ServiceID) {conn : RecvPkt} (nothing : conn.bufLen = 0) :
    readThenParse sids failingRead conn = .ok (some (.failed conn .STATE_ERROR)) := by
  simp [readThenParse, failingRead, Core.Receiving.read, readLoop, whileRoom, nothing,
    RECV_BUF_LEN, bind, Except.bind]

def registered : List Action := [.registReq (freshFd 5)]

def routerFails : Action := .read 0 failingRead ⟨true, fun _ => 0⟩

/-- The program registers, and a read from the router fails. -/
def routerLost : List Action := registered ++ [routerFails]

/-- The node of the router stays able with a broken connection. -/
theorem router_believed_alive : ∃ sys,
    run (step smallMessages) (start [1]) routerLost = some sys ∧
      ¬(Throughout (step smallMessages) (FailureReaches smallMessages) (start [1]) routerLost ∧
        (Throughout (step smallMessages) (OnOwnConnection smallMessages) (start [1]) routerLost →
          Always (step smallMessages) NoneBelievedAlive (start [1]) routerLost)) := by
  have ends : ((run (step smallMessages) (start [1]) registered).bind fun before =>
      (before.net.deref 0).bind fun conn => (step smallMessages before routerFails).map fun sys =>
        (conn.recv.bufLen, (nodesOf sys.services).map fun node => (node.m_context, node.m_state))) =
      some (0, [(some 0, .NODE_ABLE)]) := by decide +kernel
  obtain ⟨before, reached, ends⟩ := Option.bind_eq_some_iff.mp ends
  obtain ⟨conn, pointed, ends⟩ := Option.bind_eq_some_iff.mp ends
  obtain ⟨sys, stepped, ends⟩ := Option.map_eq_some_iff.mp ends
  obtain ⟨nothing, nodes⟩ := Prod.mk.inj ends
  obtain ⟨node, only, ids⟩ := List.map_eq_singleton_iff.mp nodes
  obtain ⟨link, able⟩ := Prod.mk.inj ids
  have fails : Fails smallMessages.toServiceID before routerFails 0 :=
    ⟨rfl, conn, conn.recv, .STATE_ERROR, pointed, failingRead_fails _ nothing⟩
  refine ⟨sys, run_append.mpr ⟨before, reached, run_cons.mpr ⟨sys, stepped, rfl⟩⟩, ?_⟩
  rintro ⟨reaches, -⟩
  have lost := (condition_of_throughout reaches reached).1 sys 0 stepped fails node
    (by rw [only]; exact List.mem_singleton_self node) link
  rw [able] at lost
  rcases lost with same | same <;> cases same

theorem failure_reaches_node_iff_router : ∃ sys,
    run (step smallMessages) (start [1]) routerLost = some sys ∧
      ((Throughout (step smallMessages) (FailureReaches smallMessages) (start [1]) routerLost ∧
          (Throughout (step smallMessages) (OnOwnConnection smallMessages) (start [1]) routerLost →
            Always (step smallMessages) NoneBelievedAlive (start [1]) routerLost)) ↔
        Throughout (step smallMessages) (FailsUnregistered smallMessages) (start [1])
          routerLost) := by
  have returns : (run (step smallMessages) (start [1]) routerLost).isSome := by decide +kernel
  obtain ⟨sys, reached⟩ := Option.isSome_iff_exists.mp returns
  exact ⟨sys, reached, failure_reaches_node_iff smallMessages [1] routerLost sys reached⟩

end SNFrame.System.Failures
