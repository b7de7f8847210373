import SNFrame.System.Services

/-! What the steps of the program do to one node: it stays, it is lost with its connection, a
response makes it able, it is new, or a pass of `checkState` visits it. -/

namespace SNFrame.System.Evolution
open Library.Transition Library.Table Base.PbBuf Core.Receiving Core.NetManager Core.NodeMgr
open Tables Turns Supervision


section Nodes
variable {proto : Proto} {sys next : Sys} {heap : Heap} {table : Nat → Option Node} {place : Nat}

theorem placed_withNet (placed : Placed sys table) (net : Net) :
    Placed { sys with net := net } table :=
  ⟨placed.addrs, placed.below, placed.nodes⟩

theorem placed_log (placed : Placed sys table) (effect : Effect) : Placed (sys.log effect) table :=
  ⟨placed.addrs, placed.below, placed.nodes⟩

theorem placed_request (placed : Placed sys table) (proto : Proto) (heap : Heap) (fd : Int)
    (sid : BitVec 16) (nid : BitVec 32) :
    Placed (sys.requestAuthentication proto heap fd sid nid) table := by
  unfold Sys.requestAuthentication
  split
  · exact placed
  · exact placed_log placed _

/-- A state that is not broken is no concern of the nodes. -/
theorem setState_net {addr : Nat} {state : ConnState} (calm : ¬Broken state)
    (done : sys.setState heap addr state = some next) : ∃ net, next = { sys with net := net } := by
  obtain ⟨conn, found⟩ := Simulation.setState_deref done
  simp only [Sys.setState, found] at done
  rw [if_neg (by exact calm)] at done
  cases done
  exact ⟨_, rfl⟩

theorem notifyNodeState_placed (placed : Placed sys table) {other : Nat} {state : ConnState}
    (done : sys.notifyNodeState heap other state = some next) :
    ∃ node, table other = some node ∧
      Placed next (Function.update table other (some (node.setState (nodeStateOf state)))) := by
  obtain ⟨node, found, rfl⟩ := Option.map_eq_some_iff.mp done
  rw [placed.nodes] at found
  have noted := assignNode_placed placed found (f := (·.setState (nodeStateOf state)))
    fun _ => rfl
  refine ⟨node, found, ?_⟩
  by_cases allocated : (bufalloc heap 27).1
  · rw [if_pos allocated]
    exact placed_log noted _
  · rw [if_neg allocated]
    exact noted

/-- What a step other than a pass over its service does to a node, when responses are allowed to
reach it only in NODE_AUTH. -/
inductive Evolves (allowed : Prop) : Option Node → Option Node → Prop
  | same (node : Option Node) : Evolves allowed node node
  | lost (node : Node) (state : ConnState) :
      Evolves allowed (some node) (some (node.setState (nodeStateOf state)))
  | able {node : Node} (waited : allowed → node.m_state = .NODE_AUTH) :
      Evolves allowed (some node) (some (node.setState .NODE_ABLE))
  | created {node : Node} (waits : node.m_persist = true → node.m_state = .NODE_AUTH) :
      Evolves allowed none (some node)

variable {allowed : Prop}

theorem setState_evolves (placed : Placed sys table) {addr : Nat} {state : ConnState}
    (done : sys.setState heap addr state = some next) :
    ∃ after, Placed next after ∧ Evolves allowed (table place) (after place) := by
  obtain ⟨conn, found⟩ := Simulation.setState_deref done
  simp only [Sys.setState, found] at done
  split_ifs at done with broken
  · cases callback : conn.cb with
    | none =>
      rw [callback] at done
      cases done
      exact ⟨table, placed_withNet placed _, .same _⟩
    | some other =>
      rw [callback] at done
      obtain ⟨node, here, noted⟩ := notifyNodeState_placed (placed_withNet placed _) done
      refine ⟨_, noted, ?_⟩
      by_cases own : place = other
      · subst own
        rw [Function.update_self, here]
        exact .lost node state
      · rw [Function.update_of_ne own]
        exact .same _
  · cases done
    exact ⟨table, placed_withNet placed _, .same _⟩

theorem fail_evolves (placed : Placed sys table) {addr : Nat} {state : ConnState}
    (done : sys.fail heap addr state = some next) :
    ∃ after, Placed next after ∧ Evolves allowed (table place) (after place) := by
  obtain ⟨middle, set, done⟩ := Option.bind_eq_some_iff.mp done
  obtain ⟨conn, -, done⟩ := Option.bind_eq_some_iff.mp done
  obtain ⟨after, middlePlaced, evolves⟩ := setState_evolves placed set
  rw [← Option.some.inj done]
  exact ⟨after, placed_withNet middlePlaced _, evolves⟩

/-- A node stays as it is, and a new one comes to a place from there on where there was none. -/
def Arrives (least place : Nat) (before after : Option Node) : Prop :=
  after = before ∨ least ≤ place ∧ before = none ∧ ∃ node : Node, after = some node ∧
    (node.m_persist = true → node.m_state = .NODE_AUTH)

section Arrives
variable {least : Nat} {before after : Option Node}

theorem Arrives.evolves (arrives : Arrives least place before after) :
    Evolves allowed before after := by
  rcases arrives with rfl | ⟨-, rfl, node, rfl, waits⟩
  · exact .same _
  · exact .created waits

theorem Arrives.same (arrives : Arrives least place before after) (below : place < least) :
    after = before := by
  rcases arrives with same | ⟨above, -⟩
  · exact same
  · exact absurd below (Nat.not_lt.mpr above)

theorem Arrives.with_new (arrives : Arrives least place before (table place)) {addr : Nat}
    (above : least ≤ addr) (absent : table addr = none) {node : Node}
    (waits : node.m_persist = true → node.m_state = .NODE_AUTH) :
    Arrives least place before (Function.update table addr (some node) place) := by
  by_cases own : place = addr
  · subst own
    rw [absent] at arrives
    rw [Function.update_self]
    rcases arrives with rfl | ⟨-, -, other, new, -⟩
    · exact .inr ⟨above, rfl, node, rfl, waits⟩
    · exact nomatch new
  · rw [Function.update_of_ne own]
    exact arrives

end Arrives

/-- The nodes of a state in which so many have been created. -/
structure Later (least : Nat) (next : Sys) (after : Nat → Option Node) : Prop where
  placed : Placed next after
  grows : least ≤ next.nextNode

theorem registReq_later (placed : Placed sys table) {visit : Visit}
    (done : sys.registReq proto visit = some next) :
    Later sys.nextNode next table ∨
      ∃ node : Node, (node.m_persist = true → node.m_state = .NODE_AUTH) ∧
        Later sys.nextNode next (Function.update table sys.nextNode (some node)) := by
  unfold Sys.registReq at done
  split_ifs at done with configured
  · obtain ⟨⟨net, conn⟩, tried, done⟩ := Option.bind_eq_some_iff.mp done
    cases conn with
    | none =>
      cases done
      exact .inl ⟨placed_withNet placed _, le_rfl⟩
    | some addr =>
      obtain ⟨ip, -, done⟩ := Option.bind_eq_some_iff.mp done
      obtain ⟨middle, set, done⟩ := Option.bind_eq_some_iff.mp done
      obtain ⟨changed, rfl⟩ := setState_net (by decide) set
      obtain ⟨⟨listed, created⟩, added, done⟩ := Option.bind_eq_some_iff.mp done
      obtain ⟨pointed, -, done⟩ := Option.bind_eq_some_iff.mp done
      obtain ⟨rfl, -, count, stored⟩ := addNode_placed (placed_withNet placed changed) added
      have linked := assignNode_placed stored (Function.update_self ..) (f := fun node =>
        { { node.setAddrs ip with m_context := some addr }.setState .NODE_ABLE with
          m_persist := false }) fun _ => rfl
      rw [Function.update_idem] at linked
      change Placed _ (Function.update table sys.nextNode
        (some (routerNode proto sys.nextNode addr ip))) at linked
      have more : sys.nextNode ≤ listed.nextNode := count.ge.trans' (Nat.le_succ _)
      refine .inr ⟨routerNode proto sys.nextNode addr ip, nofun, ?_⟩
      split at done
      · cases done
        exact ⟨linked, more⟩
      · obtain ⟨sent, -, rfl⟩ := Option.map_eq_some_iff.mp done
        exact ⟨placed_withNet linked _, more⟩
  · cases done
    exact .inl ⟨placed, le_rfl⟩

theorem addServer_placed (placed : Placed sys table) {visit : Visit} {type : BitVec 16}
    {server : ServerStatus} {goesOn : Bool}
    (done : sys.addServer proto visit type server = some (next, goesOn)) :
    Placed next table ∨ ∃ node : Node, (node.m_persist = true → node.m_state = .NODE_AUTH) ∧
      Placed next (Function.update table sys.nextNode (some node)) := by
  unfold Sys.addServer at done
  split_ifs at done with known
  · cases done
    exact .inl placed
  · obtain ⟨⟨net, conn⟩, -, done⟩ := Option.bind_eq_some_iff.mp done
    cases conn with
    | none =>
      cases done
      exact .inl (placed_withNet placed _)
    | some addr =>
      obtain ⟨⟨listed, created⟩, added, done⟩ := Option.bind_eq_some_iff.mp done
      obtain ⟨rfl, -, -, stored⟩ := addNode_placed (placed_withNet placed net) added
      obtain ⟨ip, -, done⟩ := Option.bind_eq_some_iff.mp done
      obtain ⟨middle, set, done⟩ := Option.bind_eq_some_iff.mp done
      obtain ⟨changed, rfl⟩ := setState_net (by decide) set
      have linked (net : Net) := assignNode_placed (placed_withNet stored net)
        (Function.update_self ..) (f := fun node => attached (node.setAddrs ip) addr) fun _ => rfl
      simp only [Function.update_idem] at linked
      cases done
      exact .inr ⟨serverNode sys.nextNode addr type server.node_id ip, fun _ => rfl,
        placed_request (linked _) ..⟩

/-- A push only adds nodes. -/
theorem srvinfoBroadcast_evolves (placed : Placed sys table) {visits : Nat → Visit}
    {msg : IMString} (done : sys.srvinfoBroadcast proto visits msg = some next) :
    ∃ after, Placed next after ∧ Evolves allowed (table place) (after place) := by
  have added : ∃ after, Placed next after ∧ Arrives 0 place (table place) (after place) := by
    apply srvinfoBroadcast_keeps (fun state => ∃ after, Placed state after ∧
      Arrives 0 place (table place) (after place)) ?_ ⟨table, placed, .inl rfl⟩ done
    rintro state next visit type server goesOn ⟨middle, here, arrived⟩ added
    rcases addServer_placed here added with same | ⟨node, waits, created⟩
    · exact ⟨middle, same, arrived⟩
    · exact ⟨_, created, arrived.with_new (Nat.zero_le _) here.fresh_node waits⟩
  obtain ⟨after, here, arrives⟩ := added
  exact ⟨after, here, arrives.evolves⟩

/-- An authentication response reaches the node at that place only in NODE_AUTH. -/
def AnsweredInAuth (proto : Proto) (place : Nat) (sys : Sys) : Action → Prop
  | .authenticationRsp _ msg _ => ∀ sid nid node,
      proto.parseAuthenticationRsp (payload msg) = some (sid, nid) →
      sys.findNode sid nid = some node → node.addr = place → node.m_state = .NODE_AUTH
  | _ => True

theorem authenticationReq_evolves (placed : Placed sys table) {addr : Nat} {msg : IMString}
    (done : sys.authenticationReq proto heap addr msg = some next) :
    ∃ after, Placed next after ∧ Evolves allowed (table place) (after place) := by
  unfold Sys.authenticationReq at done
  split at done
  · cases done
    exact ⟨table, placed, .same _⟩
  · obtain ⟨middle, set, done⟩ := Option.bind_eq_some_iff.mp done
    obtain ⟨conn, -, done⟩ := Option.bind_eq_some_iff.mp done
    obtain ⟨changed, rfl⟩ := setState_net (by decide) set
    split at done
    · cases done
      exact ⟨table, placed_withNet placed _, .same _⟩
    · obtain ⟨sent, -, rfl⟩ := Option.map_eq_some_iff.mp done
      exact ⟨table, placed_withNet placed _, .same _⟩

theorem authenticationRsp_evolves (placed : Placed sys table) {addr : Nat} {msg : IMString}
    (answered : allowed → AnsweredInAuth proto place sys (.authenticationRsp addr msg heap))
    (done : sys.authenticationRsp proto heap addr msg = some next) :
    ∃ after, Placed next after ∧ Evolves allowed (table place) (after place) := by
  unfold Sys.authenticationRsp at done
  split at done
  · cases done
    exact ⟨table, placed, .same _⟩
  · next sid nid parsed =>
    split at done
    · cases done
      exact ⟨table, placed, .same _⟩
    · next node found =>
      have here := placed.node_of_find found
      obtain ⟨changed, rfl⟩ := setState_net (by decide) done
      have able := assignNode_placed placed here (f := (·.setState .NODE_ABLE)) fun _ => rfl
      refine ⟨_, placed_withNet able _, ?_⟩
      by_cases own : place = node.addr
      · subst own
        rw [Function.update_self, here]
        exact .able fun allows => answered allows sid nid node parsed found rfl
      · rw [Function.update_of_ne own]
        exact .same _

theorem read_evolves (placed : Placed sys table) {sids : Core.TcpParse.ServiceID} {addr : Nat}
    {event : Core.TcpParse.ReadEvent} (done : sys.read sids heap addr event = some next) :
    ∃ after, Placed next after ∧ Evolves allowed (table place) (after place) := by
  obtain ⟨conn, -, done⟩ := Option.bind_eq_some_iff.mp done
  split at done
  · cases done
    exact ⟨table, ⟨placed.addrs, placed.below, placed.nodes⟩, .same _⟩
  · exact fail_evolves (placed_withNet placed _) done
  · cases done

theorem write_evolves (placed : Placed sys table) {addr : Nat}
    {outcomes : List Core.Sending.SendResult} (done : sys.write heap addr outcomes = some next) :
    ∃ after, Placed next after ∧ Evolves allowed (table place) (after place) := by
  obtain ⟨⟨net, result, accepted⟩, -, done⟩ := Option.bind_eq_some_iff.mp done
  have stored := placed_withNet placed net
  dsimp only at done
  split at done
  · cases done
  · exact fail_evolves stored done
  · exact fail_evolves stored done
  · obtain ⟨conn, -, done⟩ := Option.bind_eq_some_iff.mp done
    obtain ⟨drained, -, done⟩ := Option.bind_eq_some_iff.mp done
    rw [← Option.some.inj done]
    exact ⟨table, placed_withNet placed _, .same _⟩

/-! ### The visits of checkState -/

section Visits
variable {visits : Nat → Visit} {sid : BitVec 16} {node : Node}

theorem reconnect_later (placed : Placed sys table) {visit : Visit}
    (here : table node.addr = some node) (done : sys.reconnect proto visit sid node = some next) :
    ¬0 < visit.fds 0 ∧ Later sys.nextNode next table ∨ 0 < visit.fds 0 ∧ ∃ addr,
      Later sys.nextNode next (Function.update table node.addr (some (attached node addr))) := by
  unfold Sys.reconnect at done
  obtain ⟨⟨net, conn⟩, connected, done⟩ := Option.bind_eq_some_iff.mp done
  have valid := Services.connect_isSome connected
  cases conn with
  | none =>
    cases done
    refine .inl ⟨fun positive => ?_, placed_withNet placed _, le_rfl⟩
    exact absurd (valid.mpr positive) nofun
  | some addr =>
    obtain ⟨given, -, done⟩ := Option.bind_eq_some_iff.mp done
    obtain ⟨middle, set, done⟩ := Option.bind_eq_some_iff.mp done
    obtain ⟨changed, rfl⟩ := setState_net (by decide) set
    have asked := placed_request (placed_withNet placed net) proto visit.heap (visit.fds 0) sid
      node.m_id
    have stored := assignNode_placed (placed_withNet asked changed) here
      (f := fun node => attached node addr) fun _ => rfl
    have grows : sys.nextNode ≤ Sys.nextNode (Sys.requestAuthentication proto
        { sys with net := net } visit.heap (visit.fds 0) sid node.m_id) := by
      unfold Sys.requestAuthentication
      split <;> exact le_rfl
    cases done
    exact .inr ⟨valid.mp rfl, addr, stored, grows⟩

theorem giveUp_later (placed : Placed sys table) {visit : Visit}
    (done : sys.giveUp proto visit sid node = some next) :
    Later sys.nextNode next (Function.update table node.addr none) ∨
      Function.update table node.addr none sys.nextNode = none ∧
      ∃ other : Node, (other.m_persist = true → other.m_state = .NODE_AUTH) ∧
        Later sys.nextNode next (Function.update (Function.update table node.addr none) sys.nextNode
          (some other)) := by
  have erased := eraseNode_placed placed node.addr
  obtain ⟨cleared, closed, done⟩ := Option.bind_eq_some_iff.mp done
  obtain ⟨net, rfl⟩ : ∃ net, cleared = { sys.eraseNode node.addr with net := net } := by
    cases context : node.m_context with
    | none =>
      rw [context] at closed
      cases closed
      exact ⟨_, rfl⟩
    | some old =>
      rw [context] at closed
      obtain ⟨gone, -, rfl⟩ := Option.map_eq_some_iff.mp closed
      exact ⟨_, rfl⟩
  split_ifs at done with router
  · rcases registReq_later (placed_withNet erased net) done with same | created
    · exact .inl same
    · exact .inr ⟨erased.fresh_node, created⟩
  · cases done
    exact .inl ⟨placed_withNet erased net, le_rfl⟩

/-- One visit does to another node only that it may be new. -/
theorem checkNode_other (placed : Placed sys table) {other : Nat} (differs : other ≠ place)
    {least : Nat} (grown : least ≤ sys.nextNode) {before : Option Node}
    (arrives : Arrives least place before (table place))
    (done : sys.checkNode proto sid visits other = some next) :
    ∃ after, Later sys.nextNode next after ∧ Arrives least place before (after place) := by
  obtain ⟨node, pointed, done⟩ := Option.bind_eq_some_iff.mp done
  have here : table other = some node := by rw [← placed.nodes, pointed]
  obtain ⟨-, rfl⟩ := placed.mem_of_node here
  split_ifs at done with failed
  · have counted := assignNode_placed placed here (f := fun node => node.needReconnect.2)
      needReconnect_addr
    have own : Function.update table node.addr (some node.needReconnect.2)
        node.needReconnect.2.addr = some node.needReconnect.2 := by
      rw [needReconnect_addr, Function.update_self]
    have aside {table : Nat → Option Node} (changed : Option Node) :
        Function.update table node.addr changed place = table place :=
      Function.update_of_ne differs.symm ..
    dsimp only at done
    split_ifs at done with again
    · rcases reconnect_later counted own done with ⟨-, after⟩ | ⟨-, addr, after⟩
      · exact ⟨_, after, by rwa [aside]⟩
      · rw [needReconnect_addr] at after
        exact ⟨_, after, by rwa [aside, aside]⟩
    · have kept : Arrives least place before (Function.update (Function.update table node.addr
          (some node.needReconnect.2)) node.addr none place) := by rwa [aside, aside]
      rcases giveUp_later counted done with after | ⟨absent, other, waits, after⟩
      · rw [needReconnect_addr] at after
        exact ⟨_, after, kept⟩
      · rw [needReconnect_addr] at after absent
        exact ⟨_, after, kept.with_new grown absent waits⟩
  · cases done
    exact ⟨table, ⟨placed, le_rfl⟩, arrives⟩

/-- The node gets one more attempt in this state. -/
def Attempts (node : Node) : Prop := Lost node.m_state ∧ node.needReconnect.1 = true

instance (node : Node) : Decidable (Attempts node) := inferInstanceAs (Decidable (_ ∧ _))

/-- What the visit does to a node, and its attempts. -/
inductive Visited (connects : Prop) (node : Node) : Option Node → Nat → Prop
  | spared (alive : ¬Lost node.m_state) : Visited connects node (some node) 0
  | refused (lost : Lost node.m_state) (few : node.m_num < 4) (refused : ¬connects) :
      Visited connects node (some { node with m_num := node.m_num + 1 }) 1
  | resumed (lost : Lost node.m_state) (few : node.m_num < 4) (connected : connects) (addr : Nat) :
      Visited connects node (some (attached { node with m_num := node.m_num + 1 } addr)) 1
  | erased (lost : Lost node.m_state) (spent : node.m_persist = true → 4 ≤ node.m_num) :
      Visited connects node none 0

theorem needReconnect_again (again : node.needReconnect.1 = true) :
    node.m_num < 4 ∧ node.needReconnect.2 = { node with m_num := node.m_num + 1 } := by
  have persistent := persistent_of_needReconnect again
  simp only [Node.needReconnect, persistent, if_true, decide_eq_true_eq] at again
  exact ⟨again, by simp [Node.needReconnect, persistent]⟩

theorem needReconnect_spent (spent : ¬node.needReconnect.1 = true) :
    node.m_persist = true → 4 ≤ node.m_num := by
  intro persistent
  simpa [Node.needReconnect, persistent] using spent

theorem checkNode_own (placed : Placed sys table) (here : table place = some node)
    (done : sys.checkNode proto sid visits place = some next) :
    ∃ after, Later sys.nextNode next after ∧ Visited (0 < (visits place).fds 0) node (after place)
      (if Attempts node then 1 else 0) := by
  have pointed : sys.derefNode place = some node := by rw [placed.nodes, here]
  obtain ⟨-, rfl⟩ := placed.mem_of_node here
  simp only [Sys.checkNode, pointed, Option.bind_eq_bind, Option.bind_some] at done
  have counted := assignNode_placed placed here (f := fun node => node.needReconnect.2)
    needReconnect_addr
  have own : Function.update table node.addr (some node.needReconnect.2) node.needReconnect.2.addr =
      some node.needReconnect.2 := by rw [needReconnect_addr, Function.update_self]
  split_ifs at done with failed again
  · rw [if_pos (by exact ⟨failed, again⟩)]
    obtain ⟨few, more⟩ := needReconnect_again again
    rcases reconnect_later counted own done with ⟨refused, after⟩ | ⟨connects, addr, after⟩
    · refine ⟨_, after, ?_⟩
      rw [Function.update_self, more]
      exact .refused failed few refused
    · rw [needReconnect_addr] at after
      refine ⟨_, after, ?_⟩
      rw [Function.update_self, more]
      exact .resumed failed few connects addr
  · rw [if_neg fun both => again both.2]
    have gone : Visited (0 < (visits node.addr).fds 0) node none 0 :=
      .erased failed (needReconnect_spent again)
    rcases giveUp_later counted done with after | ⟨absent, other, -, after⟩
    · rw [needReconnect_addr] at after
      refine ⟨_, after, ?_⟩
      rw [Function.update_self]
      exact gone
    · rw [needReconnect_addr] at after
      refine ⟨_, after, ?_⟩
      have apart : node.addr ≠ sys.nextNode := (placed.lt_next here).ne
      convert gone using 1
      exact (Function.update_of_ne apart ..).trans (Function.update_self ..)
  · cases done
    refine ⟨table, ⟨placed, le_rfl⟩, ?_⟩
    rw [here, if_neg fun both => failed both.1]
    exact .spared failed

end Visits

/-- The steps that make no pass. -/
theorem step_evolves (placed : Placed sys table) {action : Action}
    (plain : ∀ service visits, action ≠ .checkState service visits)
    (stepped : step proto sys action = some next) : ∃ after, Placed next after ∧
      Evolves (AnsweredInAuth proto place sys action) (table place) (after place) := by
  cases action with
  | listen | accept | connect | sendSock | sendNode | sendDb | sendState =>
    obtain ⟨net, -, rfl⟩ := Option.map_eq_some_iff.mp stepped
    exact ⟨table, placed_withNet placed _, .same _⟩
  | read addr event heap => exact read_evolves placed stepped
  | write addr outcomes heap => exact write_evolves placed stepped
  | authenticationReq addr msg heap => exact authenticationReq_evolves placed stepped
  | authenticationRsp addr msg heap => exact authenticationRsp_evolves placed id stepped
  | checkState service visits => exact absurd rfl (plain service visits)
  | srvinfoBroadcast msg visits => exact srvinfoBroadcast_evolves placed stepped
  | registReq visit =>
    rcases registReq_later placed stepped with same | ⟨node, waits, created⟩
    · exact ⟨table, same.placed, .same _⟩
    · have arrives : Arrives 0 place (table place) (table place) := .inl rfl
      exact ⟨_, created.placed, (arrives.with_new (Nat.zero_le _) placed.fresh_node waits).evolves⟩

end Nodes

end SNFrame.System.Evolution
