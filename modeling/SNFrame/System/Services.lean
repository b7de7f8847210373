import SNFrame.System.Supervision

/-! The lists of the services: which nodes are in them, by their ids, and what each function does
to the lists. Only `addNode` and `erase` change them. -/

namespace SNFrame.System.Services
open Library.Octet Library.Table Library.Transition Base.PbBuf Core.Receiving Core.Sending
open Core.TcpParse Core.NetManager Core.NodeMgr Tables Turns Supervision

/-- What a list keeps of a node: the object, its two ids and whether it reconnects. -/
structure Entry where
  addr : Nat
  m_id : BitVec 32
  m_type : BitVec 16
  m_persist : Bool
  deriving DecidableEq

def entryOf (node : Node) : Entry := ⟨node.addr, node.m_id, node.m_type, node.m_persist⟩

structure Shelf where
  m_sid : BitVec 16
  entries : List Entry

def shelfOf (snode : ServiceNode) : Shelf := ⟨snode.m_sid, snode.m_nodes.map entryOf⟩

def outline (sys : Sys) : List Shelf := sys.services.map shelfOf

/-! ### Operations on the lists -/

def find (shelves : List Shelf) (sid : BitVec 16) (nid : BitVec 32) : Option Entry :=
  (shelves.find? (·.m_sid = sid)).bind fun shelf => shelf.entries.find? (·.m_id = nid)

def erase (addr : Nat) (shelves : List Shelf) : List Shelf :=
  shelves.map fun shelf => { shelf with entries := remove Entry.addr addr shelf.entries }

/-- At the end of the first list of that type. -/
def insert (entry : Entry) : List Shelf → Option (List Shelf)
  | [] => none
  | shelf :: rest =>
      if shelf.m_sid = entry.m_type then
        some ({ shelf with entries := shelf.entries ++ [entry] } :: rest)
      else (insert entry rest).map (shelf :: ·)

section Operations
variable {shelves after : List Shelf} {entry : Entry} {sid : BitVec 16} {nid : BitVec 32}

theorem find_cons (shelf : Shelf) (rest : List Shelf) (sid : BitVec 16) (nid : BitVec 32) :
    find (shelf :: rest) sid nid =
      if shelf.m_sid = sid then shelf.entries.find? (·.m_id = nid) else find rest sid nid := by
  unfold find
  rw [List.find?_cons]
  by_cases same : shelf.m_sid = sid
  · simp [same]
  · simp [same]

theorem insert_cases (inserted : insert entry shelves = some after) :
    ∃ before shelf rest, shelves = before ++ shelf :: rest ∧ shelf.m_sid = entry.m_type ∧
      (∀ other ∈ before, other.m_sid ≠ entry.m_type) ∧
      after = before ++ { shelf with entries := shelf.entries ++ [entry] } :: rest := by
  induction shelves generalizing after with
  | nil => cases inserted
  | cons shelf rest ih =>
    simp only [insert] at inserted
    split_ifs at inserted with same
    · cases inserted
      exact ⟨[], shelf, rest, rfl, same, nofun, rfl⟩
    · obtain ⟨tail, deeper, rfl⟩ := Option.map_eq_some_iff.mp inserted
      obtain ⟨before, found, others, rfl, typed, differ, rfl⟩ := ih deeper
      refine ⟨shelf :: before, found, others, rfl, typed, ?_, rfl⟩
      intro other inside
      rcases List.mem_cons.mp inside with rfl | inside
      · exact same
      · exact differ other inside

/-- The lookups after an insertion: the entry is found, and what was found still is. -/
theorem find_insert (inserted : insert entry shelves = some after) :
    find after sid nid = if sid = entry.m_type ∧ nid = entry.m_id
      then (find shelves sid nid).or (some entry) else find shelves sid nid := by
  induction shelves generalizing after with
  | nil => cases inserted
  | cons shelf rest ih =>
    simp only [insert] at inserted
    split_ifs at inserted with same
    · cases inserted
      rw [find_cons, find_cons]
      by_cases typed : shelf.m_sid = sid
      · rw [if_pos typed, if_pos typed, List.find?_append]
        subst typed
        by_cases numbered : nid = entry.m_id
        · simp [same, numbered]
        · have other : ¬entry.m_id = nid := fun equal => numbered equal.symm
          simp [numbered, other]
      · have other : sid ≠ entry.m_type := fun equal => typed (same.trans equal.symm)
        simp [typed, other]
    · obtain ⟨tail, deeper, rfl⟩ := Option.map_eq_some_iff.mp inserted
      rw [find_cons, find_cons, ih deeper]
      by_cases typed : shelf.m_sid = sid
      · have other : sid ≠ entry.m_type := fun equal => same (typed.trans equal)
        simp [typed, other]
      · simp [typed]

/-- The types of the lists never change. -/
theorem sids_insert (inserted : insert entry shelves = some after) :
    after.map Shelf.m_sid = shelves.map Shelf.m_sid := by
  obtain ⟨before, shelf, rest, rfl, -, -, rfl⟩ := insert_cases inserted
  simp

theorem sids_erase (addr : Nat) (shelves : List Shelf) :
    (erase addr shelves).map Shelf.m_sid = shelves.map Shelf.m_sid := by
  simp [erase, Function.comp_def]

end Operations

/-! ### What the functions do to the lists -/

section Functions
variable {sys next : Sys} {proto : Proto} {heap : Heap} {addr : Nat}

theorem outline_assignNode (sys : Sys) (addr : Nat) {f : Node → Node}
    (keeps : ∀ node, entryOf (f node) = entryOf node) :
    outline (sys.assignNode addr f) = outline sys := by
  simp only [outline, Sys.assignNode, List.map_map]
  apply List.map_congr_left
  intro snode _
  simp only [Function.comp_apply, shelfOf, map_update entryOf keeps]

theorem outline_eraseNode (sys : Sys) (addr : Nat) :
    outline (sys.eraseNode addr) = erase addr (outline sys) := by
  simp only [outline, Sys.eraseNode, erase, List.map_map]
  apply List.map_congr_left
  intro snode _
  simp only [Function.comp_apply, shelfOf, remove, List.filter_map]
  rfl

theorem insert_pushNode {node : Node} {services after : List ServiceNode}
    (pushed : Sys.pushNode node services = some after) :
    insert (entryOf node) (services.map shelfOf) = some (after.map shelfOf) := by
  induction services generalizing after with
  | nil => cases pushed
  | cons snode rest ih =>
    simp only [Sys.pushNode] at pushed
    have typed : (shelfOf snode).m_sid = (entryOf node).m_type ↔ snode.m_sid = node.m_type := Iff.rfl
    simp only [List.map_cons, insert, typed]
    split_ifs at pushed with same
    · cases pushed
      rw [if_pos same]
      simp [shelfOf]
    · obtain ⟨tail, deeper, rfl⟩ := Option.map_eq_some_iff.mp pushed
      rw [if_neg same, ih deeper]
      rfl

theorem outline_addNode {sid : BitVec 16} {nid : BitVec 32}
    (added : sys.addNode sid nid = some (next, addr)) :
    insert ⟨sys.nextNode, nid, sid, true⟩ (outline sys) = some (outline next) := by
  obtain ⟨services, pushed, same⟩ := Option.map_eq_some_iff.mp added
  cases same
  exact insert_pushNode pushed

/-- No node has the address that the next one gets. -/
def Fresh (sys : Sys) : Prop := ∀ node ∈ nodesOf sys.services, node.addr < sys.nextNode

theorem fresh_eraseNode (fresh : Fresh sys) (addr : Nat) : Fresh (sys.eraseNode addr) := by
  intro node inside
  rw [nodesOf_eraseNode] at inside
  exact fresh node (mem_remove.mp inside).1

theorem fresh_assignNode (fresh : Fresh sys) (addr : Nat) {f : Node → Node}
    (keeps : ∀ node, (f node).addr = node.addr) : Fresh (sys.assignNode addr f) := by
  intro node inside
  rw [nodesOf_assignNode] at inside
  obtain ⟨old, oldIn, rfl⟩ := mem_update.mp inside
  simp only [apply_ite Node.addr, keeps, ite_self]
  exact fresh old oldIn

/-- A change of the node that was put last is a change before it is put there. -/
theorem pushNode_assign {node : Node} {services after : List ServiceNode}
    (absent : ∀ other ∈ nodesOf services, other.addr ≠ node.addr) {f : Node → Node}
    (type : (f node).m_type = node.m_type) (pushed : Sys.pushNode node services = some after) :
    Sys.pushNode (f node) services = some (after.map fun snode =>
      { snode with m_nodes := update Node.addr node.addr f snode.m_nodes }) := by
  have untouched : ∀ rest : List ServiceNode, (∀ other ∈ nodesOf rest, other.addr ≠ node.addr) →
      (rest.map fun snode =>
        { snode with m_nodes := update Node.addr node.addr f snode.m_nodes }) = rest := by
    intro rest apart
    apply (List.map_congr_left ?_).trans (List.map_id _)
    intro snode inside
    rw [update_of_absent fun other held => apart other (List.mem_flatMap.mpr ⟨snode, inside, held⟩)]
    rfl
  induction services generalizing after with
  | nil => cases pushed
  | cons snode rest ih =>
    simp only [nodesOf, List.flatMap_cons, List.forall_mem_append] at absent
    simp only [Sys.pushNode] at pushed ⊢
    rw [type]
    split_ifs at pushed ⊢ with same
    · cases pushed
      rw [List.map_cons, untouched rest absent.2, update, List.map_append]
      have kept := update_of_absent (f := f) absent.1
      rw [update] at kept
      simp [kept]
    · obtain ⟨tail, deeper, rfl⟩ := Option.map_eq_some_iff.mp pushed
      rw [ih absent.2 deeper, List.map_cons, update_of_absent absent.1]
      rfl

theorem outline_addNode_assign (fresh : Fresh sys) {sid : BitVec 16} {nid : BitVec 32}
    (added : sys.addNode sid nid = some (next, addr)) {f : Node → Node}
    (type : ∀ node, (f node).m_type = node.m_type) :
    insert (entryOf (f (.fresh addr sid nid))) (outline sys) =
      some (outline (next.assignNode addr f)) := by
  obtain ⟨services, pushed, same⟩ := Option.map_eq_some_iff.mp added
  cases same
  have absent : ∀ other ∈ nodesOf sys.services, other.addr ≠ sys.nextNode :=
    fun other inside => ne_of_lt (fresh other inside)
  exact insert_pushNode (pushNode_assign absent (type _) pushed)

theorem findService_outline (sys : Sys) (sid : BitVec 16) :
    (sys.findService sid).map shelfOf = (outline sys).find? (·.m_sid = sid) := by
  rw [outline, List.find?_map]
  rfl

theorem findNode_outline (sys : Sys) (sid : BitVec 16) (nid : BitVec 32) :
    (sys.findNode sid nid).map entryOf = find (outline sys) sid nid := by
  rw [find, ← findService_outline, Sys.findNode]
  cases sys.findService sid with
  | none => rfl
  | some snode =>
    simp only [Option.map_some, Option.bind_eq_bind, Option.bind_some, shelfOf, List.find?_map]
    rfl

theorem findNode_isSome (sys : Sys) (sid : BitVec 16) (nid : BitVec 32) :
    (sys.findNode sid nid).isSome = (find (outline sys) sid nid).isSome := by
  rw [← findNode_outline, Option.isSome_map]

theorem outline_notifyNodeState {place : Nat} {state : ConnState}
    (done : sys.notifyNodeState heap place state = some next) : outline next = outline sys := by
  obtain ⟨node, -, rfl⟩ := Option.map_eq_some_iff.mp done
  have noted := outline_assignNode sys place (f := (·.setState
    (if state = .STATE_ERROR then .NODE_ERROR else .NODE_CLOSED))) fun _ => rfl
  dsimp only
  by_cases allocated : (bufalloc heap 27).1
  · rw [if_pos allocated]
    exact noted
  · rw [if_neg allocated]
    exact noted

theorem outline_setState {state : ConnState}
    (done : sys.setState heap addr state = some next) : outline next = outline sys := by
  unfold Sys.setState at done
  split at done
  · cases done
  · dsimp only at done
    split_ifs at done
    · split at done
      · cases done
        rfl
      · exact (outline_notifyNodeState done).trans rfl
    · cases done
      rfl

theorem fresh_setState (fresh : Fresh sys) {state : ConnState}
    (done : sys.setState heap addr state = some next) : Fresh next := by
  unfold Sys.setState at done
  split at done
  · cases done
  · dsimp only at done
    split_ifs at done
    · split at done
      · cases done
        exact fresh
      · obtain ⟨node, -, rfl⟩ := Option.map_eq_some_iff.mp done
        dsimp only
        split_ifs <;> exact fresh_assignNode fresh _ fun _ => rfl
    · cases done
      exact fresh

theorem outline_fail {state : ConnState} (done : sys.fail heap addr state = some next) :
    outline next = outline sys := by
  obtain ⟨middle, set, done⟩ := Option.bind_eq_some_iff.mp done
  obtain ⟨conn, -, done⟩ := Option.bind_eq_some_iff.mp done
  cases done
  have same : outline middle = outline sys := outline_setState set
  exact same

theorem outline_read {sids : ServiceID} {event : ReadEvent}
    (done : sys.read sids heap addr event = some next) : outline next = outline sys := by
  obtain ⟨conn, -, done⟩ := Option.bind_eq_some_iff.mp done
  split at done
  · cases done
    rfl
  · exact (outline_fail done).trans rfl
  · cases done

theorem outline_write {outcomes : List SendResult}
    (done : sys.write heap addr outcomes = some next) : outline next = outline sys := by
  obtain ⟨⟨net, result, accepted⟩, -, done⟩ := Option.bind_eq_some_iff.mp done
  dsimp only at done
  split at done
  · cases done
  · exact (outline_fail done).trans rfl
  · exact (outline_fail done).trans rfl
  · obtain ⟨conn, -, done⟩ := Option.bind_eq_some_iff.mp done
    obtain ⟨drained, -, done⟩ := Option.bind_eq_some_iff.mp done
    cases done
    rfl

theorem outline_authenticationReq {msg : IMString}
    (done : sys.authenticationReq proto heap addr msg = some next) : outline next = outline sys := by
  unfold Sys.authenticationReq at done
  split at done
  · cases done
    rfl
  · obtain ⟨middle, set, done⟩ := Option.bind_eq_some_iff.mp done
    obtain ⟨conn, -, done⟩ := Option.bind_eq_some_iff.mp done
    have same : outline middle = outline sys := (outline_setState set).trans rfl
    split at done
    · cases done
      exact same
    · obtain ⟨sent, -, rfl⟩ := Option.map_eq_some_iff.mp done
      exact same

theorem outline_authenticationRsp {msg : IMString}
    (done : sys.authenticationRsp proto heap addr msg = some next) : outline next = outline sys := by
  unfold Sys.authenticationRsp at done
  split at done
  · cases done
    rfl
  · split at done
    · cases done
      rfl
    · exact (outline_setState done).trans (outline_assignNode sys _ fun _ => rfl)

/-- One of the four connects of a registration succeeds. -/
def Connects (visit : Visit) : Prop :=
  visit.configured = true ∧ ∃ tried < 4, 0 < visit.fds tried

theorem connect_isSome {net after : Net} {fd : Int} {conn : Option Nat}
    (connected : net.connect fd = some (after, conn)) : conn.isSome ↔ 0 < fd := by
  unfold Net.connect at connected
  split_ifs at connected with valid used
  · cases connected
    exact iff_of_true rfl valid
  · cases connected
    exact iff_of_false nofun valid

theorem connectTries_isSome {net after : Net} {count : Nat} {fds : Nat → Int} {conn : Option Nat}
    (done : Sys.connectTries count fds net = some (after, conn)) :
    conn.isSome ↔ ∃ tried < count, 0 < fds tried := by
  induction count generalizing fds net with
  | zero =>
    cases done
    simp
  | succ count ih =>
    obtain ⟨⟨middle, result⟩, connected, rest⟩ := Option.bind_eq_some_iff.mp done
    have first := connect_isSome connected
    cases result with
    | some addr =>
      cases rest
      exact iff_of_true rfl ⟨0, Nat.succ_pos _, first.mp rfl⟩
    | none =>
      rw [ih rest]
      constructor
      · rintro ⟨tried, within, positive⟩
        exact ⟨tried + 1, Nat.succ_lt_succ within, positive⟩
      · rintro ⟨tried, within, positive⟩
        cases tried with
        | zero => exact absurd (first.mpr positive) nofun
        | succ tried => exact ⟨tried, Nat.lt_of_succ_lt_succ within, positive⟩

/-- A registration whose connect succeeds puts a node with the id 0 into the router's list. -/
theorem outline_registReq (fresh : Fresh sys) {visit : Visit}
    (done : sys.registReq proto visit = some next) :
    ¬Connects visit ∧ outline next = outline sys ∨
      Connects visit ∧ ∃ place,
        insert ⟨place, 0, proto.SID_ROUTER, false⟩ (outline sys) = some (outline next) := by
  unfold Sys.registReq at done
  split_ifs at done with configured
  · obtain ⟨⟨net, conn⟩, tried, done⟩ := Option.bind_eq_some_iff.mp done
    have connects := connectTries_isSome tried
    cases conn with
    | none =>
      cases done
      refine .inl ⟨fun succeeds => ?_, rfl⟩
      exact absurd (connects.mpr succeeds.2) nofun
    | some addr =>
      obtain ⟨ip, -, done⟩ := Option.bind_eq_some_iff.mp done
      obtain ⟨middle, set, done⟩ := Option.bind_eq_some_iff.mp done
      obtain ⟨⟨listed, place⟩, added, done⟩ := Option.bind_eq_some_iff.mp done
      obtain ⟨pointed, -, done⟩ := Option.bind_eq_some_iff.mp done
      have same : outline middle = outline sys := (outline_setState set).trans rfl
      have stillFresh : Fresh middle := fresh_setState (by exact fresh) set
      have inserted := outline_addNode_assign stillFresh added (f := fun node =>
        { { node.setAddrs ip with m_context := some addr }.setState .NODE_ABLE with
          m_persist := false }) fun _ => rfl
      rw [same] at inserted
      refine .inr ⟨⟨configured, connects.mp rfl⟩, place, ?_⟩
      split at done
      · cases done
        exact inserted
      · obtain ⟨sent, -, rfl⟩ := Option.map_eq_some_iff.mp done
        exact inserted
  · cases done
    exact .inl ⟨fun succeeds => configured succeeds.1, rfl⟩

theorem outline_requestAuthentication (proto : Proto) (sys : Sys) (heap : Heap) (fd : Int)
    (sid : BitVec 16) (nid : BitVec 32) :
    outline (sys.requestAuthentication proto heap fd sid nid) = outline sys := by
  unfold Sys.requestAuthentication
  split <;> rfl

/-- The lookups after which a push passes a listed server by. -/
def Settled (sys : Sys) (type : BitVec 16) (nid : BitVec 32) : Prop :=
  (sys.findNode type nid).isSome ∨ (sys.findService type).isNone

/-- A listed server is passed by, or its connect fails, or it is put into the list of its type. -/
theorem outline_addServer {visit : Visit} {type : BitVec 16} {server : ServerStatus}
    {goesOn : Bool} (done : sys.addServer proto visit type server = some (next, goesOn)) :
    Settled sys type server.node_id ∧ next = sys ∨
      goesOn = false ∧ outline next = outline sys ∨
      find (outline sys) type server.node_id = none ∧
        insert ⟨sys.nextNode, server.node_id, type, true⟩ (outline sys) = some (outline next) := by
  unfold Sys.addServer at done
  split_ifs at done with known
  · cases done
    exact .inl ⟨known, rfl⟩
  · obtain ⟨⟨net, conn⟩, connected, done⟩ := Option.bind_eq_some_iff.mp done
    cases conn with
    | none =>
      cases done
      exact .inr (.inl ⟨rfl, rfl⟩)
    | some addr =>
      obtain ⟨⟨listed, place⟩, added, done⟩ := Option.bind_eq_some_iff.mp done
      obtain ⟨ip, -, done⟩ := Option.bind_eq_some_iff.mp done
      obtain ⟨middle, set, done⟩ := Option.bind_eq_some_iff.mp done
      have inserted := outline_addNode added
      have same : outline middle = outline listed := (outline_setState set).trans rfl
      cases done
      refine .inr (.inr ⟨?_, inserted.trans (congrArg some ?_)⟩)
      · have missing := (not_or.mp known).1
        rw [findNode_isSome] at missing
        simpa using missing
      · rw [outline_requestAuthentication, ← same]
        exact (outline_assignNode middle place (f := fun node => attached (node.setAddrs ip) addr)
          fun _ => rfl).symm

theorem outline_reconnect {visit : Visit} {sid : BitVec 16} {node : Node}
    (done : sys.reconnect proto visit sid node = some next) : outline next = outline sys := by
  obtain ⟨⟨net, conn⟩, connected, done⟩ := Option.bind_eq_some_iff.mp done
  cases conn with
  | none =>
    cases done
    rfl
  | some addr =>
    obtain ⟨given, -, done⟩ := Option.bind_eq_some_iff.mp done
    obtain ⟨middle, set, done⟩ := Option.bind_eq_some_iff.mp done
    have same : outline middle = outline sys :=
      (outline_setState set).trans (outline_requestAuthentication ..)
    cases done
    exact (outline_assignNode middle _ (f := (attached · addr)) fun _ => rfl).trans same

theorem closeContext_nodes {context : Option Nat} (done : sys.closeContext context = some next) :
    next.services = sys.services ∧ next.nextNode = sys.nextNode := by
  cases context with
  | none =>
    cases done
    exact ⟨rfl, rfl⟩
  | some old =>
    obtain ⟨conn, -, rfl⟩ := Option.map_eq_some_iff.mp done
    exact ⟨rfl, rfl⟩

/-- A node that is given up leaves its list. In the router's list a registration follows. -/
theorem outline_giveUp (fresh : Fresh sys) {visit : Visit} {sid : BitVec 16} {node : Node}
    (done : sys.giveUp proto visit sid node = some next) :
    ¬(sid = proto.SID_ROUTER ∧ Connects visit) ∧ outline next = erase node.addr (outline sys) ∨
      (sid = proto.SID_ROUTER ∧ Connects visit) ∧ ∃ place,
        insert ⟨place, 0, proto.SID_ROUTER, false⟩ (erase node.addr (outline sys)) =
          some (outline next) := by
  obtain ⟨cleared, closed, done⟩ := Option.bind_eq_some_iff.mp done
  obtain ⟨services, nextNode⟩ := closeContext_nodes closed
  have erased : outline cleared = erase node.addr (outline sys) := by
    rw [outline, services, ← outline, outline_eraseNode]
  have stillFresh : Fresh cleared := by
    rw [Fresh, services, nextNode]
    exact fresh_eraseNode fresh node.addr
  split_ifs at done with router
  · rw [← erased]
    rcases outline_registReq stillFresh done with ⟨fails, same⟩ | ⟨connects, inserted⟩
    · exact .inl ⟨fun both => fails both.2, same⟩
    · exact .inr ⟨⟨router, connects⟩, inserted⟩
  · cases done
    exact .inl ⟨fun both => router both.1, erased⟩

/-! ### The loops -/

variable {sid : BitVec 16} {visits : Nat → Visit}

theorem addr_of_derefNode {addr : Nat} {node : Node} (found : sys.derefNode addr = some node) :
    node.addr = addr := by
  simpa using List.find?_some found

theorem outline_counted (sys : Sys) (addr : Nat) :
    outline (sys.assignNode addr fun node => node.needReconnect.2) = outline sys := by
  apply outline_assignNode
  intro node
  unfold Node.needReconnect
  split_ifs <;> rfl

/-- A visit changes the lists only when it gives the node up. -/
theorem outline_checkNode (fresh : Fresh sys) {addr : Nat}
    (done : sys.checkNode proto sid visits addr = some next) :
    ∃ node, sys.derefNode addr = some node ∧
      (¬(Lost node.m_state ∧ node.needReconnect.1 = false) ∧ outline next = outline sys ∨
        (Lost node.m_state ∧ node.needReconnect.1 = false) ∧
          (¬(sid = proto.SID_ROUTER ∧ Connects (visits addr)) ∧
              outline next = erase addr (outline sys) ∨
            (sid = proto.SID_ROUTER ∧ Connects (visits addr)) ∧ ∃ place,
              insert ⟨place, 0, proto.SID_ROUTER, false⟩ (erase addr (outline sys)) =
                some (outline next))) := by
  obtain ⟨node, pointed, done⟩ := Option.bind_eq_some_iff.mp done
  refine ⟨node, pointed, ?_⟩
  have counted := outline_counted sys addr
  split_ifs at done with failed
  · dsimp only at done
    split_ifs at done with again
    · refine .inl ⟨?_, (outline_reconnect done).trans counted⟩
      rintro ⟨-, given⟩
      rw [again] at given
      cases given
    · refine .inr ⟨⟨failed, by simpa using again⟩, ?_⟩
      have given := outline_giveUp (fresh_assignNode fresh addr needReconnect_addr) done
      rwa [needReconnect_addr, addr_of_derefNode pointed, counted] at given
  · cases done
    exact .inl ⟨fun both => failed both.1, rfl⟩

theorem sids_checkNode (fresh : Fresh sys)
    (done : sys.checkNode proto sid visits addr = some next) :
    (outline next).map Shelf.m_sid = (outline sys).map Shelf.m_sid := by
  obtain ⟨node, -, ⟨-, same⟩ | ⟨-, ⟨-, same⟩ | ⟨-, place, inserted⟩⟩⟩ := outline_checkNode fresh done
  · rw [same]
  · rw [same, sids_erase]
  · rw [sids_insert inserted, sids_erase]

/-- The loop of `checkState` as a run of visits. -/
theorem checkState_run {service : Nat} (done : sys.checkState proto service visits = some next) :
    ∃ snode, sys.services[service]? = some snode ∧
      run (Sys.checkNode proto snode.m_sid visits) sys (snode.m_nodes.map Node.addr) =
        some next := by
  obtain ⟨snode, served, done⟩ := Option.bind_eq_some_iff.mp done
  rw [foldlM_eq_run] at done
  exact ⟨snode, served, done⟩

/-- The loops of `srvinfoBroadcast`, which end at the first connect that fails. -/
def broadcastStep (proto : Proto) (visits : Nat → Visit) (state : Sys × Bool)
    (each : (BitVec 16 × ServerStatus) × Nat) : Option (Sys × Bool) :=
  if state.2 then state.1.addServer proto (visits each.2) each.1.1 each.1.2 else some state

theorem srvinfoBroadcast_eq {msg : IMString} {servers : List ServerStatus}
    (parsed : proto.parseStatusPush (payload msg) = some servers) :
    sys.srvinfoBroadcast proto visits msg =
      (run (broadcastStep proto visits) (sys, true) (listed servers).zipIdx).map Prod.fst := by
  rw [Sys.srvinfoBroadcast, parsed]
  simp only [← foldlM_eq_run]
  rfl

/-! ### The addresses that are copied -/

/-- A turn of the loops of a push whose connect succeeds copies an address that fits. -/
def CopyFits (visits : Nat → Visit) (state : Sys × Bool) (each : (BitVec 16 × ServerStatus) × Nat) :
    Prop :=
  state.2 = true → ¬Settled state.1 each.1.1 each.1.2.node_id → 0 < (visits each.2).fds 0 →
    Fits each.1.2.server_ip

/-- The registration that follows a node which is given up copies an address that fits. -/
def RegistrationFits (proto : Proto) (sid : BitVec 16) (visits : Nat → Visit) (sys : Sys)
    (addr : Nat) : Prop :=
  ∀ node, sys.derefNode addr = some node → Lost node.m_state → node.needReconnect.1 = false →
    sid = proto.SID_ROUTER → Connects (visits addr) → Fits (visits addr).routerIP

/-- Every address that the step copies into `ip` and `m_ip` has room there. -/
def AddressesFit (proto : Proto) (sys : Sys) : Action → Prop
  | .registReq visit => Connects visit → Fits visit.routerIP
  | .srvinfoBroadcast msg visits => ∀ servers,
      proto.parseStatusPush (payload msg) = some servers →
      Throughout (broadcastStep proto visits) (CopyFits visits) (sys, true) (listed servers).zipIdx
  | .checkState service visits => ∀ snode, sys.services[service]? = some snode →
      Throughout (Sys.checkNode proto snode.m_sid visits)
        (RegistrationFits proto snode.m_sid visits) sys (snode.m_nodes.map Node.addr)
  | _ => True

theorem fits_of_registReq {visit : Visit} (done : sys.registReq proto visit = some next)
    (connects : Connects visit) : Fits visit.routerIP := by
  rw [Sys.registReq, if_pos connects.1] at done
  obtain ⟨⟨net, conn⟩, tried, done⟩ := Option.bind_eq_some_iff.mp done
  obtain ⟨addr, rfl⟩ := Option.isSome_iff_exists.mp ((connectTries_isSome tried).mpr connects.2)
  obtain ⟨ip, copied, -⟩ := Option.bind_eq_some_iff.mp done
  exact fits_of_strcpy copied

theorem fits_of_addServer {visit : Visit} {type : BitVec 16} {server : ServerStatus}
    {goesOn : Bool} (done : sys.addServer proto visit type server = some (next, goesOn))
    (needed : ¬Settled sys type server.node_id) (valid : 0 < visit.fds 0) :
    Fits server.server_ip := by
  rw [Settled] at needed
  rw [Sys.addServer, if_neg needed] at done
  obtain ⟨⟨net, conn⟩, connected, done⟩ := Option.bind_eq_some_iff.mp done
  obtain ⟨addr, rfl⟩ := Option.isSome_iff_exists.mp ((connect_isSome connected).mpr valid)
  obtain ⟨added, -, done⟩ := Option.bind_eq_some_iff.mp done
  obtain ⟨ip, copied, -⟩ := Option.bind_eq_some_iff.mp done
  exact fits_of_strcpy copied

theorem fits_of_checkNode {sid : BitVec 16} {addr : Nat}
    (done : sys.checkNode proto sid visits addr = some next) :
    RegistrationFits proto sid visits sys addr := by
  intro node pointed lost spent router connects
  obtain ⟨other, found, done⟩ := Option.bind_eq_some_iff.mp done
  cases pointed.symm.trans found
  rw [Lost] at lost
  rw [if_pos lost, if_neg (by simp [spent])] at done
  obtain ⟨cleared, -, done⟩ := Option.bind_eq_some_iff.mp done
  rw [if_pos router] at done
  exact fits_of_registReq done connects

/-- A step that has a result has copied nothing behind an array. -/
theorem fits_of_step {action : Action} (stepped : step proto sys action = some next) :
    AddressesFit proto sys action := by
  cases action <;> try trivial
  case checkState service visits =>
    intro snode served
    obtain ⟨other, found, looped⟩ := checkState_run stepped
    cases served.symm.trans found
    exact throughout_of_reached (fun _ _ _ visited => fits_of_checkNode visited) looped
  case srvinfoBroadcast msg visits =>
    intro servers parsed
    have done : sys.srvinfoBroadcast proto visits msg = some next := stepped
    rw [srvinfoBroadcast_eq parsed] at done
    obtain ⟨last, looped, -⟩ := Option.map_eq_some_iff.mp done
    refine throughout_of_reached ?_ looped
    intro state each after turned going needed valid
    rw [broadcastStep, if_pos going] at turned
    exact fits_of_addServer turned needed valid
  case registReq visit => exact fits_of_registReq stepped

end Functions

end SNFrame.System.Services
