import SNFrame.System.Tables

/-! The turns of a run: the moves of the two tables with what they do to the callbacks and the
states of connections and nodes. -/

namespace SNFrame.System.Turns
open Library.Table Core.Receiving Core.NetManager Core.NodeMgr Ownership Tables

def inState (state : ConnState) (owned : Owned) : Owned :=
  ⟨{ owned.conn with state := state }, owned.queue⟩

/-- The connection states that a callback is called for. -/
def Broken (state : ConnState) : Prop := state = .STATE_CLOSED ∨ state = .STATE_ERROR

/-- The node states that `checkState` acts on. -/
def Lost (state : NodeState) : Prop := state = .NODE_ERROR ∨ state = .NODE_CLOSED

instance (state : ConnState) : Decidable (Broken state) :=
  inferInstanceAs (Decidable (_ ∨ _))

instance (state : NodeState) : Decidable (Lost state) :=
  inferInstanceAs (Decidable (_ ∨ _))

theorem lost_nodeStateOf (state : ConnState) : Lost (nodeStateOf state) := by
  unfold nodeStateOf
  split_ifs
  · exact .inl rfl
  · exact .inr rfl

/-- Two states of a connection that differ in what it receives and sends, in its events and in
the identity of the node. -/
structure Alike (before after : Owned) : Prop where
  flag : after.conn.flag = before.conn.flag
  state : after.conn.state = before.conn.state
  cb : after.conn.cb = before.conn.cb

/-- A new client connection and the new node whose context it is. A node that registers has no
callback. -/
structure Installed (place addr : Nat) (owned : Owned) (node : Node) : Prop where
  client : owned.conn.flag = .conn_client
  unbroken : ¬Broken owned.conn.state
  context : node.m_context = some addr
  cb : owned.conn.cb = if node.m_persist then some place else none
  state : node.m_state = if node.m_persist then .NODE_AUTH else .NODE_ABLE

theorem Installed.alike {place addr : Nat} {before after : Owned} {node : Node}
    (installed : Installed place addr before node) (alike : Alike before after) :
    Installed place addr after node where
  client := alike.flag.trans installed.client
  unbroken := by
    rw [alike.state]
    exact installed.unbroken
  context := installed.context
  cb := alike.cb.trans installed.cb
  state := installed.state

/-- What the steps of the program do to the tables, less the two handlers of authentication,
when only these connections fail. -/
inductive Turn (fails : Nat → Prop) (objects : Objects) : Objects → Prop
  | opened {addr : Nat} {owned : Owned} (unused : objects.conns addr = none)
      (cb : owned.conn.cb = none) (armed : Armed owned) :
      Turn fails objects (objects.setConn addr (some owned))
  | changed {addr : Nat} {before after : Owned} (here : objects.conns addr = some before)
      (alike : Alike before after) (armed : Armed before → Armed after) :
      Turn fails objects (objects.setConn addr (some after))
  | failed {addr : Nat} {owned : Owned} {state : ConnState}
      (here : objects.conns addr = some owned) (broken : Broken state) (failing : fails addr) :
      Turn fails objects
        ((objects.setConn addr (some (inState state owned))).notify owned.conn.cb state)
  | closed {addr : Nat} {owned : Owned} (here : objects.conns addr = some owned)
      (accepted : owned.conn.flag ≠ .conn_client) : Turn fails objects (objects.setConn addr none)
  | counted {place : Nat} {node : Node} (here : objects.nodes place = some node) :
      Turn fails objects (objects.setNode place (some node.needReconnect.2))
  | launched {addr place : Nat} {owned : Owned} {node : Node}
      (unused : objects.conns addr = none) (absent : objects.nodes place = none)
      (installed : Installed place addr owned node) (armed : Armed owned) :
      Turn fails objects ((objects.setConn addr (some owned)).setNode place (some node))
  | resumed {addr place : Nat} {owned : Owned} {before after : Node}
      (unused : objects.conns addr = none) (here : objects.nodes place = some before)
      (client : owned.conn.flag = .conn_client) (waits : owned.conn.state = .STATE_AUTH)
      (cb : owned.conn.cb = objects.callbackOf before)
      (context : after.m_context = some addr) (state : after.m_state = .NODE_AUTH)
      (persist : after.m_persist = before.m_persist) (persistent : before.m_persist = true) :
      Turn fails objects
        (((objects.dropContext before).setConn addr (some owned)).setNode place (some after))
  | removed {place : Nat} {before : Node} (here : objects.nodes place = some before) :
      Turn fails objects ((objects.dropContext before).setNode place none)

abbrev Course (fails : Nat → Prop) : Objects → Objects → Prop :=
  Relation.ReflTransGen (Turn fails)

def noFailure : Nat → Prop := fun _ => False

variable {fails : Nat → Prop} {objects next : Objects}

theorem unconnected_of_broken {state : ConnState} (broken : Broken state) :
    state ≠ .STATE_CONNECTED := by
  rcases broken with rfl | rfl <;> decide

theorem moves_notify (objects : Objects) (cb : Option Nat) (state : ConnState) :
    Moves objects (objects.notify cb state) := by
  unfold Objects.notify
  split
  · exact .refl
  · split
    · exact .refl
    · next node here => exact .single (.noted here rfl)

@[simp] theorem needReconnect_addr (node : Node) : node.needReconnect.2.addr = node.addr := by
  unfold Node.needReconnect
  split_ifs <;> rfl

@[simp] theorem needReconnect_context (node : Node) :
    node.needReconnect.2.m_context = node.m_context := by
  unfold Node.needReconnect
  split_ifs <;> rfl

@[simp] theorem needReconnect_persist (node : Node) :
    node.needReconnect.2.m_persist = node.m_persist := by
  unfold Node.needReconnect
  split_ifs <;> rfl

@[simp] theorem needReconnect_state (node : Node) :
    node.needReconnect.2.m_state = node.m_state := by
  unfold Node.needReconnect
  split_ifs <;> rfl

/-- The tables after the counter of a node has moved, and where the node is. -/
theorem counted_reads {sys : Sys} {objects : Objects} {node : Node} (reads : Reads sys objects)
    (here : objects.nodes node.addr = some node) :
    Reads (sys.assignNode node.addr fun node => node.needReconnect.2)
      (objects.setNode node.addr (some node.needReconnect.2)) ∧
    (objects.setNode node.addr (some node.needReconnect.2)).nodes node.needReconnect.2.addr =
      some node.needReconnect.2 := by
  refine ⟨assignNode_reads reads here needReconnect_addr, ?_⟩
  rw [needReconnect_addr, Objects.setNode_nodes, Function.update_self]

theorem turn_moves (turn : Turn fails objects next) : Moves objects next := by
  cases turn with
  | opened unused _ armed => exact .single (.opened unused armed)
  | changed here alike armed => exact .single (.changed here alike.flag armed)
  | @failed addr owned state here broken _ =>
    have changed : Move objects (objects.setConn addr (some (inState state owned))) :=
      .changed here rfl fun _ connected => absurd connected (unconnected_of_broken broken)
    exact (moves_notify _ _ _).head changed
  | closed here accepted => exact .single (.closed here accepted)
  | counted here => exact .single (.noted here (needReconnect_context _))
  | launched unused absent installed armed =>
    exact .single (.launched unused installed.client armed absent installed.context)
  | resumed unused here client waits cb context =>
    refine .single (.resumed unused client ?_ here context)
    intro connected
    rw [waits] at connected
    cases connected
  | removed here => exact .single (.removed here)

theorem course_moves (course : Course fails objects next) : Moves objects next := by
  induction course with
  | refl => exact .refl
  | tail _ turn ih => exact ih.trans (turn_moves turn)

theorem turn_mono {also : Nat → Prop} (weaker : ∀ addr, fails addr → also addr)
    (turn : Turn fails objects next) : Turn also objects next := by
  cases turn with
  | opened unused cb armed => exact .opened unused cb armed
  | changed here alike armed => exact .changed here alike armed
  | failed here broken failing => exact .failed here broken (weaker _ failing)
  | closed here accepted => exact .closed here accepted
  | counted here => exact .counted here
  | launched unused absent installed armed => exact .launched unused absent installed armed
  | resumed unused here client waits cb context state persist persistent =>
    exact .resumed unused here client waits cb context state persist persistent
  | removed here => exact .removed here

theorem course_mono {also : Nat → Prop} (weaker : ∀ addr, fails addr → also addr)
    (course : Course fails objects next) : Course also objects next :=
  Relation.ReflTransGen.mono (fun _ _ turn => turn_mono weaker turn) _ _ course

/-- The next state of the program reads as tables that the turns reach. -/
def Turned (fails : Nat → Prop) (objects : Objects) (next : Sys) : Prop :=
  ∃ after, Reads next after ∧ Course fails objects after

section Turned
variable {sys : Sys}

theorem Turned.refl (reads : Reads sys objects) : Turned fails objects sys :=
  ⟨objects, reads, .refl⟩

theorem Turned.single {after : Objects} (reads : Reads sys after) (turn : Turn fails objects after) :
    Turned fails objects sys :=
  ⟨after, reads, .single turn⟩

theorem Turned.after {middle : Objects} (course : Course fails objects middle)
    (turned : Turned fails middle sys) : Turned fails objects sys := by
  obtain ⟨after, reads, further⟩ := turned
  exact ⟨after, reads, course.trans further⟩

end Turned

end SNFrame.System.Turns
