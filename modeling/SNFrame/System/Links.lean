import SNFrame.System.Supervision

/-! The pointers between connections, nodes and queues. A context leads to a client connection,
and its callback leads back to the node unless the node registers. -/

namespace SNFrame.System.Links
open Library.Octet Library.Transition Library.Table Base.PbBuf Core.Receiving Core.Sending
open Core.TcpParse Core.NetManager Core.NodeMgr Ownership Tables Turns Handover Simulation
open Supervision

/-- Connections and nodes that point at each other. -/
structure Bound (objects : Objects) : Prop where
  linked : Linked objects
  called : ∀ {addr owned place}, objects.conns addr = some owned → owned.conn.cb = some place →
    ∃ node, objects.nodes place = some node ∧ node.m_context = some addr
  answered : ∀ {place node}, objects.nodes place = some node → ∃ addr owned,
    node.m_context = some addr ∧ objects.conns addr = some owned ∧
      owned.conn.cb = if node.m_persist then some place else none
  registered : ∀ {place node}, objects.nodes place = some node → node.m_persist = false →
    node.m_state = .NODE_ABLE

section Turns
variable {fails : Nat → Prop} {objects next : Objects} {addr place : Nat}
  {owned before after : Owned} {node : Node}

/-- The node that a callback leads to is one that reconnects. -/
theorem Bound.persist_of_cb (bound : Bound objects) (here : objects.conns addr = some owned)
    (cb : owned.conn.cb = some place) (there : objects.nodes place = some node) :
    node.m_persist = true := by
  obtain ⟨called, found, link⟩ := bound.called here cb
  cases there.symm.trans found
  obtain ⟨context, other, has, held, back⟩ := bound.answered there
  cases link.symm.trans has
  cases here.symm.trans held
  by_contra registers
  rw [cb, if_neg registers] at back
  cases back

theorem bound_changed (bound : Bound objects) (here : objects.conns addr = some before)
    (flag : after.conn.flag = before.conn.flag) (cb : after.conn.cb = before.conn.cb) :
    Bound (objects.setConn addr (some after)) where
  linked := linked_changed bound.linked here flag
  called := by
    intro other owned place found link
    rcases update_eq_some.mp found with ⟨rfl, same⟩ | ⟨-, was⟩
    · cases same
      exact bound.called here (cb ▸ link)
    · exact bound.called was link
  answered := by
    intro place node there
    obtain ⟨context, owned, has, held, back⟩ := bound.answered there
    by_cases same : context = addr
    · subst same
      cases here.symm.trans held
      exact ⟨context, after, has, Function.update_self .., cb.trans back⟩
    · exact ⟨context, owned, has, (Function.update_of_ne same ..).trans held, back⟩
  registered := bound.registered

/-- A connection that no node has as its context. -/
theorem bound_opened (bound : Bound objects) (unused : objects.conns addr = none)
    (cb : owned.conn.cb = none) : Bound (objects.setConn addr (some owned)) where
  linked := by
    apply linked_setConn bound.linked
    intro before here
    rw [unused] at here
    cases here
  called := by
    intro other held place found link
    rcases update_eq_some.mp found with ⟨-, same⟩ | ⟨-, was⟩
    · cases same
      rw [cb] at link
      cases link
    · exact bound.called was link
  answered := by
    intro place node there
    obtain ⟨context, held, has, found, back⟩ := bound.answered there
    exact ⟨context, held, has,
      (Function.update_of_ne (ne_of_unused unused found) ..).trans found, back⟩
  registered := bound.registered

theorem bound_closed (bound : Bound objects) (here : objects.conns addr = some owned)
    (accepted : owned.conn.flag ≠ .conn_client) : Bound (objects.setConn addr none) where
  linked := linked_move bound.linked (.closed here accepted)
  called := by
    intro other held place found link
    rcases update_eq_some.mp found with ⟨-, gone⟩ | ⟨-, was⟩
    · cases gone
    · exact bound.called was link
  answered := by
    intro place node there
    obtain ⟨context, held, has, found, back⟩ := bound.answered there
    obtain ⟨client, also, flag⟩ := bound.linked.live there has
    have differs : context ≠ addr := by
      rintro rfl
      cases here.symm.trans also
      exact accepted flag
    exact ⟨context, held, has, (Function.update_of_ne differs ..).trans found, back⟩
  registered := bound.registered

/-- A node changes its state or its counter. -/
theorem bound_noted (bound : Bound objects) {old new : Node} (here : objects.nodes place = some old)
    (context : new.m_context = old.m_context) (persist : new.m_persist = old.m_persist)
    (state : new.m_persist = false → new.m_state = .NODE_ABLE) :
    Bound (objects.setNode place (some new)) where
  linked := linked_setNode bound.linked here context
  called := by
    intro addr owned other found link
    obtain ⟨node, there, has⟩ := bound.called found link
    by_cases same : other = place
    · subst same
      cases here.symm.trans there
      exact ⟨new, Function.update_self .., context.trans has⟩
    · exact ⟨node, (Function.update_of_ne same ..).trans there, has⟩
  answered := by
    intro other node found
    rcases update_eq_some.mp found with ⟨rfl, same⟩ | ⟨-, was⟩
    · cases same
      obtain ⟨addr, owned, has, held, back⟩ := bound.answered here
      exact ⟨addr, owned, context.trans has, held, by rw [persist, back]⟩
    · exact bound.answered was
  registered := by
    intro other node found registers
    rcases update_eq_some.mp found with ⟨-, same⟩ | ⟨-, was⟩
    · cases same
      exact state registers
    · exact bound.registered was registers

/-- A callback changes the state of a node that reconnects. -/
theorem bound_notify (bound : Bound objects) (here : objects.conns addr = some owned)
    (state : ConnState) : Bound (objects.notify owned.conn.cb state) := by
  cases cb : owned.conn.cb with
  | none => exact bound
  | some place =>
    obtain ⟨node, there, -⟩ := bound.called here cb
    simp only [Objects.notify, there]
    have persistent := bound.persist_of_cb here cb there
    refine bound_noted bound there rfl rfl ?_
    intro registers
    rw [show (node.setState (nodeStateOf state)).m_persist = node.m_persist from rfl,
      persistent] at registers
    cases registers

/-- A node leaves with its context. -/
theorem bound_erased (bound : Bound objects) (here : objects.nodes place = some node) :
    Bound ((objects.dropContext node).setNode place none) := by
  obtain ⟨context, owned, has, held, back⟩ := bound.answered here
  have dropped : objects.dropContext node = objects.setConn context none := by
    rw [Objects.dropContext, has]
  -- what is left is another connection, and another node with another context
  have conns : ∀ {addr other}, ((objects.dropContext node).setNode place none).conns addr =
      some other → addr ≠ context ∧ objects.conns addr = some other := by
    intro addr other found
    rw [dropped] at found
    rcases update_eq_some.mp found with ⟨-, gone⟩ | both
    · cases gone
    · exact both
  have nodes : ∀ {other left}, ((objects.dropContext node).setNode place none).nodes other =
      some left → other ≠ place ∧ objects.nodes other = some left := by
    intro other left found
    rw [Objects.setNode_nodes, Objects.dropContext_nodes] at found
    rcases update_eq_some.mp found with ⟨-, gone⟩ | both
    · cases gone
    · exact both
  constructor
  · exact linked_erase bound.linked here
  · intro addr other target found link
    obtain ⟨differs, was⟩ := conns found
    obtain ⟨called, there, points⟩ := bound.called was link
    have apart : target ≠ place := by
      rintro rfl
      cases here.symm.trans there
      exact differs (Option.some.inj (points.symm.trans has))
    refine ⟨called, ?_, points⟩
    rw [Objects.setNode_nodes, Function.update_of_ne apart, Objects.dropContext_nodes, there]
  · intro other left found
    obtain ⟨differs, was⟩ := nodes found
    obtain ⟨addr, second, points, there, called⟩ := bound.answered was
    have apart : addr ≠ context := by
      rintro rfl
      exact differs (bound.linked.distinct was here points has)
    refine ⟨addr, second, points, ?_, called⟩
    rw [dropped, Objects.setNode_conns, Objects.setConn_conns, Function.update_of_ne apart, there]
  · intro other left found
    exact bound.registered (nodes found).2

/-- A new client connection and the node whose context it is. -/
theorem bound_attached (bound : Bound objects) (unused : objects.conns addr = none)
    (absent : objects.nodes place = none) (client : owned.conn.flag = .conn_client)
    (context : node.m_context = some addr)
    (cb : owned.conn.cb = if node.m_persist then some place else none)
    (state : node.m_persist = false → node.m_state = .NODE_ABLE) :
    Bound ((objects.setConn addr (some owned)).setNode place (some node)) where
  linked := linked_attach bound.linked unused client absent context
  called := by
    intro other held target found link
    rcases update_eq_some.mp found with ⟨rfl, same⟩ | ⟨-, was⟩
    · cases same
      rw [cb] at link
      split_ifs at link
      cases link
      exact ⟨node, Function.update_self .., context⟩
    · obtain ⟨called, there, points⟩ := bound.called was link
      have apart : target ≠ place := by
        rintro rfl
        rw [absent] at there
        cases there
      exact ⟨called, (Function.update_of_ne apart ..).trans there, points⟩
  answered := by
    intro other left found
    rcases update_eq_some.mp found with ⟨rfl, same⟩ | ⟨-, was⟩
    · cases same
      exact ⟨addr, owned, context, Function.update_self .., cb⟩
    · obtain ⟨link, held, points, there, called⟩ := bound.answered was
      exact ⟨link, held, points,
        (Function.update_of_ne (ne_of_unused unused there) ..).trans there, called⟩
  registered := by
    intro other left found registers
    rcases update_eq_some.mp found with ⟨-, same⟩ | ⟨-, was⟩
    · cases same
      exact state registers
    · exact bound.registered was registers

/-- The callback that a node hands on is its own. -/
theorem Bound.callbackOf (bound : Bound objects) (here : objects.nodes place = some node) :
    objects.callbackOf node = if node.m_persist then some place else none := by
  obtain ⟨addr, owned, has, held, back⟩ := bound.answered here
  rw [Objects.callbackOf, has, Option.bind_some, held, Option.bind_some, back]

theorem turn_bound (bound : Bound objects) (turn : Turn fails objects next) : Bound next := by
  cases turn with
  | opened unused cb _ => exact bound_opened bound unused cb
  | changed here alike _ => exact bound_changed bound here alike.flag alike.cb
  | @failed addr owned state here broken _ =>
    have changed : Bound (objects.setConn addr (some (inState state owned))) :=
      bound_changed bound here rfl rfl
    exact bound_notify changed (Function.update_self ..) state
  | closed here accepted => exact bound_closed bound here accepted
  | counted here =>
    refine bound_noted bound here (needReconnect_context _) (needReconnect_persist _) ?_
    intro registers
    rw [needReconnect_persist] at registers
    rw [needReconnect_state]
    exact bound.registered here registers
  | launched unused absent installed _ =>
    refine bound_attached bound unused absent installed.client installed.context installed.cb ?_
    intro registers
    rw [installed.state, if_neg (by simp [registers])]
  | @resumed addr place owned before after unused here client waits cb context state persist
      persistent =>
    have cleared := bound_erased bound here
    have stillUnused : ((objects.dropContext before).setNode place none).conns addr = none := by
      obtain ⟨link, held, has, there, -⟩ := bound.answered here
      have apart : before.m_context ≠ some addr := by
        intro same
        rw [same] at has
        cases has
        rw [unused] at there
        cases there
      rw [Objects.setNode_conns, objects.dropContext_conns_of_ne apart, unused]
    have attached := bound_attached cleared stillUnused (Function.update_self ..) client context
      (by rw [cb, bound.callbackOf here, persist])
      (fun registers => by rw [persist, persistent] at registers; cases registers)
    rw [Objects.setNode_setConn, Objects.setNode_setNode] at attached
    exact attached
  | removed here => exact bound_erased bound here

theorem course_bound (bound : Bound objects) (course : Course fails objects next) : Bound next := by
  induction course with
  | refl => exact bound
  | tail _ turn ih => exact turn_bound ih turn

end Turns

/-! ### Steps of the program -/

/-- The state of the program reads as tables whose pointers are bound. -/
def Sound (sys : Sys) : Prop := ∃ objects, Reads sys objects ∧ Bound objects

section Steps
variable {sys next : Sys} {proto : Proto}

theorem step_sound (sound : Sound sys) {action : Action}
    (stepped : step proto sys action = some next) : Sound next := by
  obtain ⟨objects, reads, bound⟩ := sound
  by_cases calm : Authenticates action
  · cases action <;> try exact absurd calm id
    case authenticationReq addr msg heap =>
      rcases authenticationReq_cases reads stepped with
        ⟨-, rfl⟩ | ⟨sid, nid, owned, -, here, ⟨-, after⟩ | ⟨auth, -, after⟩⟩
      · exact ⟨objects, reads, bound⟩
      · exact ⟨_, after, bound_changed bound here rfl rfl⟩
      · have alike := sent_alike (enrolled sid nid .STATE_CONNECTED owned)
          (· = .STATE_CONNECTED) auth
        exact ⟨_, after, bound_changed bound here alike.flag alike.cb⟩
    case authenticationRsp addr msg heap =>
      rcases authenticationRsp_cases reads stepped with
        ⟨-, rfl⟩ | ⟨sid, nid, node, owned, -, -, there, here, after⟩
      · exact ⟨objects, reads, bound⟩
      · have able : Bound (objects.setNode node.addr (some (node.setState .NODE_ABLE))) :=
          bound_noted bound there rfl rfl fun _ => rfl
        exact ⟨_, after, bound_changed able here rfl rfl⟩
  · obtain ⟨after, reads, course⟩ := step_turned reads bound.linked calm stepped
    exact ⟨after, reads, course_bound bound course⟩

theorem start_sound (types : List (BitVec 16)) : Sound (start types) :=
  ⟨_, start_reads types, ⟨⟨(nomatch ·), (nomatch ·)⟩, (nomatch ·), (nomatch ·), (nomatch ·)⟩⟩

theorem run_sound {types : List (BitVec 16)} {actions : List Action}
    (reached : run (step proto) (start types) actions = some sys) : Sound sys :=
  run_invariant Sound (fun _ _ _ sound stepped => step_sound sound stepped) (start_sound types)
    reached

/-- The four tables point only at what is there. -/
structure NoDangling (sys : Sys) : Prop where
  fds : (sys.net.conns.map Connection.fd).Nodup
  closes : ∀ conn ∈ sys.net.conns, sys.net.findFd conn.fd = some conn
  contexts : ∀ node ∈ nodesOf sys.services, ∀ context, node.m_context = some context →
    ∃ conn ∈ sys.net.conns, conn.addr = context
  callbacks : ∀ conn ∈ sys.net.conns, ∀ place, conn.cb = some place →
    ∃ node ∈ nodesOf sys.services, node.addr = place
  queued : ∀ conn ∈ sys.net.conns, (sys.net.queues conn.outBuffer).isSome
  owned : ∀ queue, (sys.net.queues queue).isSome → ∃ conn ∈ sys.net.conns,
    conn.outBuffer = queue ∧ conn.cache = true ∧
      ∀ other ∈ sys.net.conns, other.outBuffer = queue → other = conn

theorem noDangling_of_sound (sound : Sound sys) : NoDangling sys := by
  obtain ⟨objects, reads, bound⟩ := sound
  have wf := reads.net.wf
  constructor
  · exact wf.fds
  · intro conn inside
    exact find?_of_mem wf.fds inside
  · intro node inside context link
    obtain ⟨owned, there, -⟩ := bound.linked.live (reads.node_of_mem inside) link
    exact ⟨owned.conn, reads.net.mem there⟩
  · intro conn inside place link
    obtain ⟨queue, here⟩ := reads.net.exists_of_mem inside
    obtain ⟨node, there, -⟩ := bound.called here link
    exact ⟨node, reads.mem_of_node there⟩
  · exact wf.queued
  · intro queue allocated
    obtain ⟨conn, inside, has, deletes⟩ := reads.net.owned queue allocated id
    refine ⟨conn, inside, has, deletes, ?_⟩
    intro other otherIn same
    exact eq_of_key wf.addrs otherIn inside
      (wf.outBuffers other otherIn conn inside (same.trans has.symm))

end Steps

end SNFrame.System.Links
