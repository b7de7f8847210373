import SNFrame.System.NodeTable
import SNFrame.System.Links

/-! The responses of authentication. A node of a push becomes able by a response with its ids;
which connection the response arrives on is not looked at. -/

namespace SNFrame.System.Authentication
open Library.Octet Library.Transition Library.Table Base.PbBuf Core.Receiving Core.Sending
open Core.TcpParse Core.NetManager Core.NodeMgr Ownership Tables Turns Simulation Supervision
open Services Arming NodeTable Links

/-- The response carries the ids of the node. -/
def RespondsTo (proto : Proto) (msg : IMString) (node : Node) : Prop :=
  proto.parseAuthenticationRsp (payload msg) = some (node.m_type, node.m_id)

/-- A node that reconnects is able after a step when it was able, or when it was waiting for the
response that the step receives on its own connection. -/
def OnlyByOwn (proto : Proto) (sys : Sys) (action : Action) : Prop :=
  ∀ next place node, step proto sys action = some next → next.derefNode place = some node →
    node.m_persist = true → node.m_state = .NODE_ABLE →
    ∃ before, sys.derefNode place = some before ∧ (before.m_state = .NODE_ABLE ∨
      before.m_state = .NODE_AUTH ∧ ∃ addr msg heap, action = .authenticationRsp addr msg heap ∧
        RespondsTo proto msg before ∧ before.m_context = some addr)

/-- A response on another connection, or to a lost node, changes neither the state of the node nor
the state of the other connection. -/
def Ignores (proto : Proto) (sys : Sys) : Action → Prop
  | .authenticationRsp addr msg heap => ∀ next, sys.authenticationRsp proto heap addr msg = some next →
      ∀ place node, sys.derefNode place = some node → node.m_persist = true →
        RespondsTo proto msg node → node.m_context ≠ some addr ∨ Lost node.m_state →
        (next.derefNode place).map Node.m_state = some node.m_state ∧
          (node.m_context ≠ some addr → (next.net.deref addr).map Connection.state =
            (sys.net.deref addr).map Connection.state)
  | _ => True

def OwnAnswer (proto : Proto) (sys : Sys) (action : Action) : Prop :=
  OnlyByOwn proto sys action ∧ Ignores proto sys action

/-- A response to a node of a push arrives on the connection of the node while the node waits for
it, or it finds the node able and repeats what holds already. -/
def AnswersOwn (proto : Proto) (sys : Sys) : Action → Prop
  | .authenticationRsp addr msg _ => ∀ place node, sys.derefNode place = some node →
      node.m_persist = true → RespondsTo proto msg node →
        node.m_state = .NODE_AUTH ∧ node.m_context = some addr ∨
          node.m_state = .NODE_ABLE ∧ (node.m_context = some addr ∨
            (sys.net.deref addr).map Connection.state = some .STATE_CONNECTED)
  | _ => True

/-! ### Nodes that reconnect are found by their ids -/

/-- The ids of every node that reconnects lead to the node. -/
def Led (shelves : List Shelf) : Prop :=
  ∀ shelf ∈ shelves, ∀ entry ∈ shelf.entries, entry.m_persist = true →
    find shelves entry.m_type entry.m_id = some entry

section Lists
variable {shelves after : List Shelf} {entry : Entry} {sid : BitVec 16} {nid : BitVec 32}

theorem find_erase {addr : Nat} (found : find shelves sid nid = some entry)
    (stays : entry.addr ≠ addr) : find (erase addr shelves) sid nid = some entry := by
  induction shelves with
  | nil => cases found
  | cons shelf rest ih =>
    rw [find_cons] at found
    rw [erase, List.map_cons, find_cons]
    by_cases typed : shelf.m_sid = sid
    · rw [if_pos typed] at found ⊢
      exact find?_remove found stays
    · rw [if_neg typed] at found ⊢
      exact ih found

theorem led_erase (led : Led shelves) (addr : Nat) : Led (erase addr shelves) := by
  intro shelf inside entry listed persistent
  obtain ⟨old, oldIn, rfl⟩ := List.mem_map.mp inside
  obtain ⟨was, stays⟩ := mem_remove.mp listed
  exact find_erase (led old oldIn entry was persistent) stays

/-- An entry may be inserted when it does not reconnect, or when its ids led nowhere. -/
theorem led_insert (led : Led shelves) (inserted : insert entry shelves = some after)
    (new : entry.m_persist = true → find shelves entry.m_type entry.m_id = none) : Led after := by
  have old : ∀ shelf ∈ shelves, ∀ other ∈ shelf.entries, other.m_persist = true →
      find after other.m_type other.m_id = some other := by
    intro shelf inside other listed persistent
    have found := led shelf inside other listed persistent
    rw [find_insert inserted, found]
    split_ifs <;> rfl
  have last : entry.m_persist = true → find after entry.m_type entry.m_id = some entry := by
    intro persistent
    rw [find_insert inserted, if_pos ⟨rfl, rfl⟩, new persistent, Option.none_or]
  obtain ⟨before, shelf, rest, rfl, -, -, rfl⟩ := insert_cases inserted
  intro held inside other listed persistent
  rcases List.mem_append.mp inside with early | inside
  · exact old held (List.mem_append_left _ early) other listed persistent
  · rcases List.mem_cons.mp inside with rfl | later
    · rcases List.mem_append.mp listed with listed | listed
      · exact old shelf (List.mem_append_right _ List.mem_cons_self) other listed persistent
      · rw [List.mem_singleton.mp listed] at persistent ⊢
        exact last persistent
    · exact old held (List.mem_append_right _ (List.mem_cons_of_mem _ later)) other listed
        persistent

end Lists

section Steps
variable {sys next : Sys} {objects after : Objects} {proto : Proto} {sid : BitVec 16}
  {visits : Nat → Visit}

theorem checkNode_led {addr : Nat} (consistent : Consistent sys) (led : Led (outline sys))
    (done : sys.checkNode proto sid visits addr = some next) : Led (outline next) := by
  obtain ⟨node, -, ⟨-, same⟩ | ⟨-, ⟨-, same⟩ | ⟨-, place, inserted⟩⟩⟩ :=
    outline_checkNode (fresh_of_consistent consistent) done
  · rw [same]
    exact led
  · rw [same]
    exact led_erase led addr
  · exact led_insert (led_erase led addr) inserted nofun

theorem addServer_led {visit : Visit} {type : BitVec 16} {server : ServerStatus} {goesOn : Bool}
    (led : Led (outline sys))
    (done : sys.addServer proto visit type server = some (next, goesOn)) : Led (outline next) := by
  rcases outline_addServer done with ⟨-, rfl⟩ | ⟨-, same⟩ | ⟨missing, inserted⟩
  · exact led
  · rw [same]
    exact led
  · exact led_insert led inserted fun _ => missing

theorem step_led (consistent : Consistent sys) {action : Action} (led : Led (outline sys))
    (stepped : step proto sys action = some next) : Led (outline next) := by
  by_cases still : Lists action
  · cases action <;> try exact absurd still id
    case checkState service visits =>
      obtain ⟨snode, -, looped⟩ := checkState_run stepped
      exact (run_invariant (fun state => Consistent state ∧ Led (outline state))
        (fun _ _ _ holds done => ⟨checkNode_consistent holds.1 done,
          checkNode_led holds.1 holds.2 done⟩) ⟨consistent, led⟩ looped).2
    case srvinfoBroadcast msg visits =>
      exact srvinfoBroadcast_keeps (fun state => Led (outline state))
        (fun _ _ _ _ _ _ holds added => addServer_led holds added) led stepped
    case registReq visit =>
      rcases outline_registReq (fresh_of_consistent consistent) stepped with
        ⟨-, same⟩ | ⟨-, place, inserted⟩
      · rw [same]
        exact led
      · exact led_insert led inserted nofun
  · rw [outline_step still stepped]
    exact led

/-- The lookup by the ids of a node that reconnects answers with this node. -/
theorem findNode_of_led (reads : Reads sys objects) (led : Led (outline sys)) {place : Nat}
    {node : Node} (here : objects.nodes place = some node) (persistent : node.m_persist = true) :
    sys.findNode node.m_type node.m_id = some node := by
  obtain ⟨inside, -⟩ := reads.mem_of_node here
  obtain ⟨snode, served, listed⟩ := List.mem_flatMap.mp inside
  have leads : find (outline sys) node.m_type node.m_id = some (entryOf node) :=
    led (shelfOf snode) (List.mem_map_of_mem served) (entryOf node) (List.mem_map_of_mem listed)
      persistent
  rw [← findNode_outline] at leads
  obtain ⟨found, resolved, same⟩ := Option.map_eq_some_iff.mp leads
  have there := reads.node_of_find resolved
  rw [show found.addr = node.addr from congrArg Entry.addr same,
    reads.node_of_mem inside] at there
  cases there
  exact resolved

/-- A node that a lookup answers with has the ids that were looked up. -/
theorem ids_of_findNode (sorted : OwnService sys) {type : BitVec 16} {nid : BitVec 32}
    {node : Node} (found : sys.findNode type nid = some node) :
    node.m_type = type ∧ node.m_id = nid := by
  simp only [Sys.findNode, Option.bind_eq_bind, Option.bind_eq_some_iff] at found
  obtain ⟨snode, service, resolved⟩ := found
  have typed : snode.m_sid = type := by simpa using List.find?_some service
  have numbered : node.m_id = nid := by simpa using List.find?_some resolved
  have own := sorted snode (List.mem_of_find?_eq_some service) node
    (List.mem_of_find?_eq_some resolved)
  exact ⟨own.trans typed, numbered⟩

/-! ### What the other steps do -/

/-- The able nodes among those that reconnect. -/
def Able (objects : Objects) (place : Nat) : Prop :=
  ∃ node, objects.nodes place = some node ∧ node.m_persist = true ∧ node.m_state = .NODE_ABLE

theorem able_setNode {place other : Nat} {node : Node}
    (able : Able (objects.setNode place (some node)) other) :
    other = place ∧ node.m_persist = true ∧ node.m_state = .NODE_ABLE ∨
      other ≠ place ∧ Able objects other := by
  obtain ⟨held, there, persistent, state⟩ := able
  rcases update_eq_some.mp there with ⟨same, now⟩ | ⟨differs, was⟩
  · cases now
    exact .inl ⟨same, persistent, state⟩
  · exact .inr ⟨differs, held, was, persistent, state⟩

/-- No turn makes a node able that reconnects. -/
theorem turn_able {fails : Nat → Prop} (turn : Turn fails objects after) {place : Nat}
    (able : Able after place) : Able objects place := by
  cases turn with
  | opened | changed | closed => exact able
  | @failed addr owned state here broken failing =>
    obtain ⟨node, there, persistent, state⟩ := able
    rw [Objects.notify_nodes] at there
    split_ifs at there with called
    · obtain ⟨before, was, rfl⟩ := Option.map_eq_some_iff.mp there
      have lost := lost_nodeStateOf ‹ConnState›
      rw [show nodeStateOf _ = NodeState.NODE_ABLE from state] at lost
      rcases lost with same | same <;> cases same
    · exact ⟨node, there, persistent, state⟩
  | @counted other node here =>
    rcases able_setNode able with ⟨rfl, persistent, state⟩ | ⟨-, was⟩
    · rw [needReconnect_persist] at persistent
      rw [needReconnect_state] at state
      exact ⟨node, here, persistent, state⟩
    · exact was
  | launched unused absent installed armed =>
    rcases able_setNode able with ⟨-, persistent, state⟩ | ⟨-, was⟩
    · rw [installed.state, if_pos persistent] at state
      cases state
    · exact was
  | resumed unused here client waits cb context state =>
    rcases able_setNode able with ⟨-, -, waiting⟩ | ⟨-, was⟩
    · rw [state] at waiting
      cases waiting
    · obtain ⟨node, there, kept⟩ := was
      rw [Objects.setConn_nodes, Objects.dropContext_nodes] at there
      exact ⟨node, there, kept⟩
  | removed here =>
    obtain ⟨node, there, kept⟩ := able
    rw [Objects.setNode_nodes, Objects.dropContext_nodes] at there
    rcases update_eq_some.mp there with ⟨-, gone⟩ | ⟨-, was⟩
    · cases gone
    · exact ⟨node, was, kept⟩

theorem course_able {fails : Nat → Prop} (course : Course fails objects after) {place : Nat}
    (able : Able after place) : Able objects place := by
  induction course with
  | refl => exact able
  | tail _ turn ih => exact ih (turn_able turn able)

/-! ### The steps -/

/-- What holds between the steps: the tables are sound, the nodes are in the lists of their own
services, and those that reconnect are found there. -/
structure Kept (sys : Sys) : Prop where
  sound : Sound sys
  own : OwnService sys
  led : Led (outline sys)

theorem Kept.consistent (kept : Kept sys) : Consistent sys := by
  obtain ⟨objects, reads, bound⟩ := kept.sound
  exact ⟨objects, reads, bound.linked⟩

theorem start_kept (types : List (BitVec 16)) : Kept (start types) where
  sound := start_sound types
  own := (start_orderly types).sorted
  led := by
    intro shelf inside
    obtain ⟨snode, served, rfl⟩ := List.mem_map.mp inside
    obtain ⟨type, -, rfl⟩ := List.mem_map.mp served
    exact nofun

theorem step_kept (kept : Kept sys) {action : Action}
    (stepped : step proto sys action = some next) : Kept next where
  sound := step_sound kept.sound stepped
  own := (ownService_iff next).mpr
    (step_sorted kept.consistent ((ownService_iff sys).mp kept.own) stepped)
  led := step_led kept.consistent kept.led stepped

/-- A step that makes no node able keeps the law. -/
theorem onlyByOwn_of_able (reads : Reads sys objects) (afterReads : Reads next after)
    (able : ∀ place, Able after place → Able objects place) {action : Action}
    (stepped : step proto sys action = some next) : OnlyByOwn proto sys action := by
  intro other place node done found persistent state
  cases stepped.symm.trans done
  rw [afterReads.nodes] at found
  obtain ⟨before, here, -, was⟩ := able place ⟨node, found, persistent, state⟩
  exact ⟨before, by rw [reads.nodes, here], .inl was⟩

/-- A response is judged by the node that its ids lead to. -/
theorem answersOwn_iff (reads : Reads sys objects) (kept : Kept sys) {addr : Nat} {msg : IMString}
    {heap : Heap} {type : BitVec 16} {nid : BitVec 32} {node : Node}
    (parsed : proto.parseAuthenticationRsp (payload msg) = some (type, nid))
    (found : sys.findNode type nid = some node) :
    AnswersOwn proto sys (.authenticationRsp addr msg heap) ↔ (node.m_persist = true →
      node.m_state = .NODE_AUTH ∧ node.m_context = some addr ∨
        node.m_state = .NODE_ABLE ∧ (node.m_context = some addr ∨
          (sys.net.deref addr).map Connection.state = some .STATE_CONNECTED)) := by
  have ids := ids_of_findNode kept.own found
  constructor
  · intro answers persistent
    have here := reads.node_of_find found
    rw [← reads.nodes] at here
    exact answers node.addr node here persistent (by rw [RespondsTo, parsed, ids.1, ids.2])
  · intro condition place other here persistent responds
    rw [reads.nodes] at here
    have leads := findNode_of_led reads kept.led here persistent
    cases parsed.symm.trans responds
    cases found.symm.trans leads
    exact condition persistent

/-- The exact condition for a response that is for a node. -/
theorem response_ownAnswer_iff (reads : Reads sys objects) (kept : Kept sys) {addr : Nat}
    {msg : IMString} {heap : Heap} {type : BitVec 16} {nid : BitVec 32} {node : Node}
    {owned : Owned} (parsed : proto.parseAuthenticationRsp (payload msg) = some (type, nid))
    (found : sys.findNode type nid = some node)
    (stepped : sys.authenticationRsp proto heap addr msg = some next)
    (afterReads : Reads next ((objects.setNode node.addr (some (node.setState .NODE_ABLE))).setConn
      addr (some (inState .STATE_CONNECTED owned)))) :
    OwnAnswer proto sys (.authenticationRsp addr msg heap) ↔
      AnswersOwn proto sys (.authenticationRsp addr msg heap) := by
  rw [answersOwn_iff reads kept parsed found]
  have there := reads.node_of_find found
  have ids := ids_of_findNode kept.own found
  have was : sys.derefNode node.addr = some node := by rw [reads.nodes, there]
  have now : next.derefNode node.addr = some (node.setState .NODE_ABLE) := by
    rw [afterReads.nodes, Objects.setConn_nodes, Objects.setNode_nodes, Function.update_self]
  have stateAfter : (next.net.deref addr).map Connection.state = some .STATE_CONNECTED := by
    rw [afterReads.net.deref (Function.update_self ..), Option.map_some]
    rfl
  constructor
  · rintro ⟨only, ignores⟩ persistent
    obtain ⟨before, pointed, able | ⟨waits, _, _, _, same, -, link⟩⟩ :=
      only next node.addr _ stepped now persistent rfl
    · cases was.symm.trans pointed
      refine .inr ⟨able, ?_⟩
      by_cases own : node.m_context = some addr
      · exact .inl own
      · have responds : RespondsTo proto msg node := by rw [RespondsTo, parsed, ids.1, ids.2]
        have unchanged := (ignores next stepped node.addr node was persistent responds
          (.inl own)).2 own
        exact .inr (unchanged.symm.trans stateAfter)
    · cases was.symm.trans pointed
      cases same
      exact .inl ⟨waits, link⟩
  · intro condition
    constructor
    · intro other place held done found' persistent state
      cases stepped.symm.trans done
      rw [afterReads.nodes] at found'
      rcases update_eq_some.mp found' with ⟨rfl, same⟩ | ⟨-, kept⟩
      · cases same
        refine ⟨node, was, ?_⟩
        rcases condition persistent with ⟨waits, own⟩ | ⟨able, -⟩
        · have responds : RespondsTo proto msg node := by rw [RespondsTo, parsed, ids.1, ids.2]
          exact .inr ⟨waits, addr, msg, heap, rfl, responds, own⟩
        · exact .inl able
      · exact ⟨held, by rw [reads.nodes, kept], .inl state⟩
    · intro other done place held pointed persistent responds differs
      cases stepped.symm.trans done
      rw [reads.nodes] at pointed
      have leads := findNode_of_led reads kept.led pointed persistent
      cases parsed.symm.trans responds
      cases found.symm.trans leads
      cases (reads.mem_of_node pointed).2
      rcases condition persistent with ⟨waits, own⟩ | ⟨able, connected⟩
      · rcases differs with other | lost
        · exact absurd own other
        · rw [waits] at lost
          rcases lost with same | same <;> cases same
      · refine ⟨?_, fun other => ?_⟩
        · rw [now, able]
          rfl
        · rw [stateAfter, connected.resolve_left other]

theorem step_ownAnswer_iff (kept : Kept sys) {action : Action}
    (stepped : step proto sys action = some next) :
    OwnAnswer proto sys action ↔ AnswersOwn proto sys action := by
  obtain ⟨objects, reads, bound⟩ := kept.sound
  by_cases calm : Authenticates action
  · cases action <;> try exact absurd calm id
    case authenticationReq addr msg heap =>
      refine iff_of_true ⟨?_, trivial⟩ trivial
      rcases authenticationReq_cases reads stepped with
        ⟨-, rfl⟩ | ⟨sid, nid, owned, -, here, ⟨-, after⟩ | ⟨auth, -, after⟩⟩
      · exact onlyByOwn_of_able reads reads (fun _ => id) stepped
      · exact onlyByOwn_of_able reads after (fun _ => id) stepped
      · exact onlyByOwn_of_able reads after (fun _ => id) stepped
    case authenticationRsp addr msg heap =>
      rcases authenticationRsp_cases reads stepped with
        ⟨unknown, rfl⟩ | ⟨sid, nid, node, owned, parsed, found, -, here, after⟩
      · -- the ids of the response lead to no node
        have strange : ∀ place node, next.derefNode place = some node → node.m_persist = true →
            ¬RespondsTo proto msg node := by
          intro place node pointed persistent responds
          rw [reads.nodes] at pointed
          have leads := findNode_of_led reads kept.led pointed persistent
          rw [unknown _ _ responds] at leads
          cases leads
        apply iff_of_true
        · refine ⟨onlyByOwn_of_able reads reads (fun _ => id) stepped, ?_⟩
          intro _ _ place node pointed persistent responds
          exact absurd responds (strange place node pointed persistent)
        · intro place node pointed persistent responds
          exact absurd responds (strange place node pointed persistent)
      · exact response_ownAnswer_iff reads kept parsed found stepped after
  · obtain ⟨after, afterReads, course⟩ := step_turned reads bound.linked calm stepped
    have only := onlyByOwn_of_able reads afterReads (fun _ => course_able course) stepped
    cases action <;> first | exact iff_of_true ⟨only, trivial⟩ trivial | exact absurd trivial calm

end Steps

/-- The exact condition for a node of a push to become able through its own connection only:
every response to it arrives there while the node waits for it, or repeats what holds. -/
theorem able_by_own_answer_iff (proto : Proto) (types : List (BitVec 16)) (actions : List Action)
    (sys : Sys) (reached : run (step proto) (start types) actions = some sys) :
    Throughout (step proto) (OwnAnswer proto) (start types) actions ↔
      Throughout (step proto) (AnswersOwn proto) (start types) actions := by
  apply throughout_iff_of_reached Kept ?_ ?_ (start_kept types) reached
  · intro before action after kept _ stepped
    exact step_kept kept stepped
  · intro before action after kept stepped
    exact step_ownAnswer_iff kept stepped

/-- A database server is announced, another peer is accepted, and the connection to the server
fails. -/
def failedBesideAnother : List Action :=
  [.srvinfoBroadcast (withBody [8, 1, 16, 7, 24, 3]) fun _ => freshFd 5,
    .accept ⟨6, true, true⟩,
    .read 0 ⟨[.failed .other], fun _ => ⟨⟨true, fun _ => 0⟩, 0⟩, 0⟩ ⟨true, fun _ => 0⟩]

/-- The response of the server, as the other peer sends it. -/
def answerOfAnother : Action := .authenticationRsp 1 (withBody [8, 3, 16, 7]) ⟨true, fun _ => 0⟩

/-- The failed node becomes able by the response of another peer. -/
theorem able_by_another : ∃ sys,
    run (step smallMessages) (start [3]) (failedBesideAnother ++ [answerOfAnother]) = some sys ∧
      ¬Throughout (step smallMessages) (OwnAnswer smallMessages) (start [3])
        (failedBesideAnother ++ [answerOfAnother]) := by
  have ends : ((run (step smallMessages) (start [3]) failedBesideAnother).bind fun failed =>
      (step smallMessages failed answerOfAnother).map fun sys =>
        ((failed.derefNode 0).map Node.m_state,
          (sys.derefNode 0).map fun node => (node.m_persist, node.m_state))) =
      some (some .NODE_ERROR, some (true, .NODE_ABLE)) := by decide +kernel
  obtain ⟨failed, reached, ends⟩ := Option.bind_eq_some_iff.mp ends
  obtain ⟨sys, stepped, ends⟩ := Option.map_eq_some_iff.mp ends
  obtain ⟨before, after⟩ := Prod.mk.inj ends
  obtain ⟨node, pointed, able⟩ := Option.map_eq_some_iff.mp after
  obtain ⟨persistent, state⟩ := Prod.mk.inj able
  refine ⟨sys, run_append.mpr ⟨failed, reached, run_cons.mpr ⟨sys, stepped, rfl⟩⟩, ?_⟩
  intro lawful
  have only := (condition_of_throughout lawful reached).1
  obtain ⟨old, was, becomes⟩ := only sys 0 node stepped pointed persistent state
  rw [was, Option.map_some, Option.some.injEq] at before
  rw [before] at becomes
  rcases becomes with same | ⟨same, -⟩ <;> cases same

theorem able_by_own_answer_iff_beside_another : ∃ sys,
    run (step smallMessages) (start [3]) (failedBesideAnother ++ [answerOfAnother]) = some sys ∧
      (Throughout (step smallMessages) (OwnAnswer smallMessages) (start [3])
          (failedBesideAnother ++ [answerOfAnother]) ↔
        Throughout (step smallMessages) (AnswersOwn smallMessages) (start [3])
          (failedBesideAnother ++ [answerOfAnother])) := by
  have returns : (run (step smallMessages) (start [3])
      (failedBesideAnother ++ [answerOfAnother])).isSome := by decide +kernel
  obtain ⟨sys, reached⟩ := Option.isSome_iff_exists.mp returns
  exact ⟨sys, reached, able_by_own_answer_iff smallMessages [3] _ sys reached⟩

end SNFrame.System.Authentication
