import Mathlib.Data.Finset.Order
import Mathlib.Data.List.Permutation
import SNFrame.Library.EarlyExit
import SNFrame.System.NodeTable
import SNFrame.System.Returns

/-! The servers of a push that cannot be reached. `srvinfoBroadcast` returns at the first connect
that fails, so a push adds the nodes that a scan with an early exit finds. -/

namespace SNFrame.System.Discovery
open Library.Octet Library.Table Library.Transition Library.EarlyExit
open Base.PbBuf Core.Receiving Core.Sending Core.TcpParse Core.NetManager Core.NodeMgr
open Ownership Tables Turns Simulation Supervision Services NodeTable Links Returns Arming

/-- The arguments of `connect`. -/
abbrev Endpoint := List Byte × BitVec 32

def endpoint (server : ServerStatus) : Endpoint := (server.server_ip, server.server_port)

/-- The type and the id of a node. -/
abbrev Key := BitVec 16 × BitVec 32

def key (each : BitVec 16 × ServerStatus) : Key := (each.1, each.2.node_id)

/-- The listed types of an enabled server, each with the outcome of a connect to it. -/
def entries (up : Endpoint → Bool) (server : ServerStatus) : List (Key × Bool) :=
  if server.is_enable then
    server.service_type.map fun type => ((type, server.node_id), up (endpoint server))
  else []

/-- The connects end as the endpoints have it. -/
def Agrees (up : Endpoint → Bool) (servers : List ServerStatus) (visits : Nat → Visit) : Prop :=
  ∀ place entry, (servers.flatMap (entries up))[place]? = some entry →
    (0 < (visits place).fds 0 ↔ entry.2 = true)

/-- A push of these servers has this result. -/
def Pushes (proto : Proto) (sys : Sys) (up : Endpoint → Bool) (servers : List ServerStatus)
    (next : Sys) : Prop :=
  ∃ msg visits, proto.parseStatusPush (payload msg) = some servers ∧
    Agrees up servers visits ∧ sys.srvinfoBroadcast proto visits msg = some next

/-- With descriptors that are not open a push of these servers has a result. -/
def Completes (proto : Proto) (sys : Sys) (up : Endpoint → Bool) (servers : List ServerStatus) :
    Prop :=
  ∀ msg visits, proto.parseStatusPush (payload msg) = some servers → Agrees up servers visits →
    Throughout (broadcastStep proto visits)
      (fun state each => Unopened state.1.net ((visits each.2).fds 0)) (sys, true)
      (listed servers).zipIdx →
    ∃ next, sys.srvinfoBroadcast proto visits msg = some next

/-- The keys whose type has a service. -/
def registered (sys : Sys) : Set Key := {key | (sys.findService key.1).isSome}

/-- The keys of the nodes. -/
def nodeSet (sys : Sys) : Set Key := {key | (sys.findNode key.1 key.2).isSome}

/-- The node has a connection that was not there before, in STATE_AUTH and set up for it. -/
structure Opened (sys next : Sys) (node : Node) (addr : Nat) (conn : Connection) : Prop where
  state : node.m_state = .NODE_AUTH
  context : node.m_context = some addr
  pointed : next.net.deref addr = some conn
  waits : conn.state = .STATE_AUTH
  sid : conn.sid = node.m_type
  nid : conn.nid = node.m_id
  cb : conn.cb = some node.addr
  new : sys.net.deref addr = none

/-- A node is there under the key, and when it is new it alone has its new connection. -/
def Present (sys next : Sys) (key : Key) : Prop :=
  ∃ node, next.findNode key.1 key.2 = some node ∧
    (sys.findNode key.1 key.2 = none → ∃ addr conn, Opened sys next node addr conn ∧
      ∀ other ∈ nodesOf next.services, other.m_context = some addr → other = node)

/-- Every listed server that can be reached is there after the push. -/
def Reveals (proto : Proto) (sys : Sys) (up : Endpoint → Bool) (servers : List ServerStatus) :
    Prop :=
  ∀ next, Pushes proto sys up servers next →
    ∀ key ∈ registered sys, (key, true) ∈ servers.flatMap (entries up) → Present sys next key

/-- Servers that list the same key have the same endpoint. -/
def SameEndpoints (servers : List ServerStatus) : Prop :=
  ∀ left ∈ servers, ∀ right ∈ servers, left.is_enable = true → right.is_enable = true →
    left.node_id = right.node_id → ∀ type ∈ left.service_type, type ∈ right.service_type →
    endpoint left = endpoint right

/-- The nodes after the push do not depend on the order of the servers. -/
def AnyOrder (proto : Proto) (sys : Sys) (up : Endpoint → Bool) (servers : List ServerStatus) :
    Prop :=
  ∀ (other : List ServerStatus) (next after : Sys), other.Perm servers →
    Pushes proto sys up servers next → Pushes proto sys up other after →
    nodeSet after = nodeSet next

/-- When the first entry of a needed key can be reached, its address has room in `ip` and
`m_ip`. -/
def FirstsFit (sys : Sys) (up : Endpoint → Bool) (servers : List ServerStatus) : Prop :=
  ∀ before each after, listed servers = before ++ each :: after →
    key each ∈ registered sys \ nodeSet sys → up (endpoint each.2) = true →
    (∀ other ∈ before, key other ≠ key each) → Fits each.2.server_ip

/-! ### The loops as a scan -/

/-- An entry, with the outcome of a connect to its endpoint. -/
def attempt (up : Endpoint → Bool) (each : BitVec 16 × ServerStatus) : Key × Bool :=
  (key each, up (endpoint each.2))

theorem entries_eq (up : Endpoint → Bool) (servers : List ServerStatus) :
    servers.flatMap (entries up) = (listed servers).map (attempt up) := by
  induction servers with
  | nil => rfl
  | cons server rest ih =>
    have split : listed (server :: rest) =
        (if server.is_enable then server.service_type.map (·, server) else []) ++ listed rest := by
      rw [listed, List.filter_cons]
      split_ifs <;> rfl
    rw [List.flatMap_cons, ih, split, List.map_append, entries]
    split_ifs
    · rw [List.map_map]
      rfl
    · rfl

section Scan
variable {sys next : Sys} {proto : Proto} {visit : Visit} {type : BitVec 16} {nid : BitVec 32}
  {server : ServerStatus} {goesOn : Bool}

theorem addServer_goesOn (done : sys.addServer proto visit type server = some (next, goesOn)) :
    goesOn = true ↔ Settled sys type server.node_id ∨ 0 < visit.fds 0 := by
  unfold Sys.addServer at done
  split_ifs at done with known
  · cases done
    exact iff_of_true rfl (.inl known)
  · obtain ⟨⟨net, conn⟩, connected, done⟩ := Option.bind_eq_some_iff.mp done
    have connects := connect_isSome connected
    cases conn with
    | none =>
      cases done
      refine iff_of_false Bool.false_ne_true ?_
      rintro (settled | valid)
      · exact known settled
      · exact absurd (connects.mpr valid) nofun
    | some addr =>
      obtain ⟨⟨listed, place⟩, -, done⟩ := Option.bind_eq_some_iff.mp done
      obtain ⟨ip, -, done⟩ := Option.bind_eq_some_iff.mp done
      obtain ⟨middle, -, done⟩ := Option.bind_eq_some_iff.mp done
      cases done
      exact iff_of_true rfl (.inr (connects.mp rfl))

theorem settled_iff_not_needed (sys : Sys) (type : BitVec 16) (nid : BitVec 32) :
    Settled sys type nid ↔ (type, nid) ∉ registered sys \ nodeSet sys := by
  have known : (sys.findNode type nid).isSome ↔ (type, nid) ∈ nodeSet sys := Iff.rfl
  have lacks : (sys.findService type).isNone ↔ (type, nid) ∉ registered sys := by
    simp [registered]
  rw [Settled, known, lacks, Set.mem_sdiff, not_and_or, not_not, or_comm]

theorem nodeSet_insert {place : Nat}
    (inserted : insert ⟨place, nid, type, true⟩ (outline sys) = some (outline next)) :
    nodeSet next = Insert.insert (type, nid) (nodeSet sys) := by
  ext ⟨otherType, otherNid⟩
  simp only [nodeSet, Set.mem_ofPred_eq, Set.mem_insert_iff, findNode_isSome,
    find_insert inserted, Prod.mk.injEq]
  split_ifs with same
  · simp [same]
  · simp [same]

theorem registered_addServer (done : sys.addServer proto visit type server = some (next, goesOn)) :
    registered next = registered sys := by
  ext key
  have absent : ∀ state : Sys,
      key ∈ registered state ↔ key.1 ∈ (outline state).map Shelf.m_sid := by
    intro state
    rw [← not_iff_not, ← findService_isNone]
    simp [registered]
  rw [absent, absent, sids_addServer done]

/-- One turn of the loops is one entry of the scan. -/
theorem addServer_discovers (sound : Sound sys) {up : Bool} (agree : 0 < visit.fds 0 ↔ up = true)
    (done : sys.addServer proto visit type server = some (next, goesOn))
    (rest : List (Key × Bool)) :
    discover (registered sys) (nodeSet sys) ((key (type, server), up) :: rest) =
      if goesOn then discover (registered sys) (nodeSet next) rest else nodeSet next := by
  have goes := addServer_goesOn done
  rw [key]
  by_cases settled : Settled sys type server.node_id
  · cases (addServer_of_settled settled visit).symm.trans done
    rw [discover_skip ((settled_iff_not_needed sys type _).mp settled), if_pos rfl]
  · have needed := not_not.mp fun other => settled ((settled_iff_not_needed sys type _).mpr other)
    obtain ⟨objects, reads, -⟩ := sound
    cases up with
    | true =>
      have still : goesOn = true := goes.mpr (.inr (agree.mpr rfl))
      rcases outline_addServer done with ⟨known, -⟩ | ⟨stopped, -⟩ | ⟨-, inserted⟩
      · exact absurd known settled
      · cases stopped.symm.trans still
      · rw [discover_up needed, if_pos still, nodeSet_insert inserted]
    | false =>
      have fails : ¬0 < visit.fds 0 := fun valid => nomatch agree.mp valid
      have stops : goesOn ≠ true := fun still => (goes.mp still).elim settled fails
      rcases addServer_launches reads done with same | ⟨valid, -⟩
      · rw [discover_down needed, if_neg stops, same]
      · exact absurd valid fails

theorem run_stopped (proto : Proto) (visits : Nat → Visit) (sys : Sys)
    (items : List ((BitVec 16 × ServerStatus) × Nat)) :
    run (broadcastStep proto visits) (sys, false) items = some (sys, false) := by
  induction items with
  | nil => rfl
  | cons item rest ih => exact run_cons.mpr ⟨_, rfl, ih⟩

/-- The loops add what the scan finds. -/
theorem run_discovers {visits : Nat → Visit} {up : Endpoint → Bool}
    {list : List (BitVec 16 × ServerStatus)} {begin : Nat} {last : Sys × Bool} (sound : Sound sys)
    (agree : ∀ place each, list[place]? = some each →
      (0 < (visits (begin + place)).fds 0 ↔ up (endpoint each.2) = true))
    (looped : run (broadcastStep proto visits) (sys, true) (list.zipIdx begin) = some last) :
    nodeSet last.1 = discover (registered sys) (nodeSet sys) (list.map (attempt up)) := by
  induction list generalizing sys begin with
  | nil =>
    cases looped
    rfl
  | cons each rest ih =>
    obtain ⟨type, server⟩ := each
    rw [List.zipIdx_cons] at looped
    obtain ⟨⟨middle, goesOn⟩, added, looped⟩ := run_cons.mp looped
    have first : 0 < (visits begin).fds 0 ↔ up (endpoint server) = true := agree 0 _ rfl
    have added : sys.addServer proto (visits begin) type server = some (middle, goesOn) := added
    rw [List.map_cons, attempt, addServer_discovers sound first added]
    cases goesOn with
    | false =>
      rw [run_stopped] at looped
      cases looped
      rfl
    | true =>
      rw [if_pos rfl, ← registered_addServer added]
      apply ih (addServer_sound sound added) ?_ looped
      intro place each inside
      rw [Nat.add_right_comm]
      exact agree (place + 1) each inside

/-- When the first entries fit, every copy of the loops does: while they go on, all entries before
are settled. -/
theorem copies_fit (before : List (BitVec 16 × ServerStatus)) {visits : Nat → Visit}
    {up : Endpoint → Bool} {state : Sys} {rest : List (BitVec 16 × ServerStatus)} {begin : Nat}
    (agree : ∀ place each, rest[place]? = some each →
      (0 < (visits (begin + place)).fds 0 ↔ up (endpoint each.2) = true))
    (fits : ∀ front each back, before ++ rest = front ++ each :: back →
      ¬Settled sys each.1 each.2.node_id → up (endpoint each.2) = true →
      (∀ other ∈ front, key other ≠ key each) → Fits each.2.server_ip)
    (settled : goesOn = true → ∀ other ∈ before, Settled state other.1 other.2.node_id)
    (kept : ∀ type nid, Settled sys type nid → Settled state type nid) :
    Throughout (broadcastStep proto visits) (CopyFits visits) (state, goesOn)
      (rest.zipIdx begin) := by
  induction rest generalizing state goesOn before begin with
  | nil => exact trivial
  | cons each rest ih =>
    rw [List.zipIdx_cons]
    constructor
    · intro going needed valid
      have reached := (agree 0 each rfl).mp valid
      apply fits before each rest rfl (fun old => needed (kept _ _ old)) reached
      intro other inside same
      have there := settled going other inside
      rw [(Prod.mk.inj same).1, (Prod.mk.inj same).2] at there
      exact needed there
    · rintro ⟨next, still⟩ turned
      apply ih (before ++ [each])
      · intro place entry inside
        rw [Nat.add_right_comm]
        exact agree (place + 1) entry inside
      · rw [List.append_assoc]
        exact fits
      · intro going other inside
        have went : goesOn = true := going_of_broadcastStep turned going
        rcases List.mem_append.mp inside with early | last
        · exact @broadcastStep_keeps proto visits _ _ _ (other, 0) (settled went other early) turned
        · rw [List.mem_singleton.mp last]
          rw [broadcastStep, if_pos went] at turned
          have stays : still = true := going
          subst stays
          exact addServer_settles turned
      · intro type nid old
        have held := kept type nid old
        rw [broadcastStep] at turned
        split_ifs at turned
        · exact settled_addServer turned held
        · cases turned
          exact held

end Scan

/-! ### The new nodes -/

section Newcomers
variable {sys now next : Sys} {objects : Objects} {proto : Proto} {visit : Visit}
  {type : BitVec 16} {server : ServerStatus} {goesOn : Bool}

/-- The connections that were there stay as they are. -/
theorem addServer_keeps_conns (reads : Reads sys objects)
    (done : sys.addServer proto visit type server = some (next, goesOn)) {addr : Nat}
    {conn : Connection} (here : sys.net.deref addr = some conn) :
    next.net.deref addr = some conn := by
  rcases addServer_launches reads done with rfl | ⟨-, -, ip, -, launch⟩
  · exact here
  · obtain ⟨owned, there, rfl⟩ := reads.conn_of_deref here
    apply launch.reads.net.deref
    rw [Objects.setNode_conns, Objects.setConn_conns,
      Function.update_of_ne (ne_of_unused launch.unused there), there]

theorem deref_of_unused (reads : Reads sys objects) {addr : Nat}
    (unused : objects.conns addr = none) : sys.net.deref addr = none := by
  cases found : sys.net.deref addr with
  | none => rfl
  | some conn =>
    obtain ⟨owned, there, -⟩ := reads.conn_of_deref found
    cases unused.symm.trans there

/-- A lookup that finds a node finds it also after the next server. -/
theorem addServer_keeps_found (reads : Reads sys objects)
    (done : sys.addServer proto visit type server = some (next, goesOn)) {key : Key} {node : Node}
    (found : sys.findNode key.1 key.2 = some node) : next.findNode key.1 key.2 = some node := by
  have held := findNode_outline sys key.1 key.2
  rw [found, Option.map_some] at held
  have kept : (next.findNode key.1 key.2).map entryOf = some (entryOf node) := by
    rw [findNode_outline]
    rcases outline_addServer done with ⟨-, rfl⟩ | ⟨-, same⟩ | ⟨-, inserted⟩
    · exact held.symm
    · rw [same, held]
    · rw [find_insert inserted, ← held]
      split_ifs <;> rfl
  obtain ⟨other, otherFound, same⟩ := Option.map_eq_some_iff.mp kept
  obtain ⟨after, afterReads, -⟩ := addServer_turned reads done
  have stays := addServer_spares reads done (reads.nodes ▸ reads.node_of_find found)
  have named : other.addr = node.addr := congrArg Entry.addr same
  have there := afterReads.nodes ▸ afterReads.node_of_find otherFound
  rw [named, stays] at there
  rw [otherFound, there]

theorem addr_of_found_new
    (done : now.addServer proto visit type server = some (next, goesOn)) {key : Key} {node : Node}
    (before : now.findNode key.1 key.2 = none) (found : next.findNode key.1 key.2 = some node) :
    node.addr = now.nextNode := by
  have held := findNode_outline now key.1 key.2
  have shown := findNode_outline next key.1 key.2
  rw [before, Option.map_none] at held
  rw [found, Option.map_some] at shown
  rcases outline_addServer done with ⟨-, rfl⟩ | ⟨-, same⟩ | ⟨-, inserted⟩
  · cases before.symm.trans found
  · rw [same, ← held] at shown
    cases shown
  · rw [find_insert inserted, ← held] at shown
    split_ifs at shown
    rw [Option.none_or, Option.some.injEq] at shown
    exact congrArg Entry.addr shown

/-- What a push has done so far: the old connections are there, and a node that is found under a
key which was free is new. -/
structure Progress (sys now : Sys) : Prop where
  sound : Sound now
  conns : ∀ addr conn, sys.net.deref addr = some conn → now.net.deref addr = some conn
  opened : ∀ (key : Key) (node : Node), sys.findNode key.1 key.2 = none →
    now.findNode key.1 key.2 = some node → ∃ addr conn, Opened sys now node addr conn

theorem addServer_progress (progress : Progress sys now)
    (done : now.addServer proto visit type server = some (next, goesOn)) : Progress sys next where
  sound := addServer_sound progress.sound done
  conns addr conn here := by
    obtain ⟨objects, reads, -⟩ := progress.sound
    exact addServer_keeps_conns reads done (progress.conns addr conn here)
  opened := by
    intro key node free found
    obtain ⟨objects, reads, -⟩ := progress.sound
    cases before : now.findNode key.1 key.2 with
    | some old =>
      have kept := addServer_keeps_found reads done before
      cases kept.symm.trans found
      obtain ⟨addr, conn, opened⟩ := progress.opened key node free before
      exact ⟨addr, conn, { opened with
        pointed := addServer_keeps_conns reads done opened.pointed }⟩
    | none =>
      rcases addServer_launches reads done with same | ⟨-, -, ip, -, launch⟩
      · rw [same, before] at found
        cases found
      · have inside := launch.reads.node_of_find found
        rw [addr_of_found_new done before found, Objects.setNode_nodes,
          Function.update_self, Option.some.injEq] at inside
        obtain rfl := inside
        have there := launch.reads.net.deref (Function.update_self ..)
        refine ⟨_, _, rfl, rfl, there, rfl, rfl, rfl, rfl, ?_⟩
        cases old : sys.net.deref now.net.next with
        | none => rfl
        | some conn =>
          have stays := progress.conns _ _ old
          rw [deref_of_unused reads launch.unused] at stays
          cases stays

theorem srvinfoBroadcast_progress (sound : Sound sys) {visits : Nat → Visit} {msg : IMString}
    (done : sys.srvinfoBroadcast proto visits msg = some next) : Progress sys next := by
  apply srvinfoBroadcast_keeps (Progress sys) ?_ ?_ done
  · exact fun _ _ _ _ _ _ progress added => addServer_progress progress added
  · refine ⟨sound, fun _ _ here => here, ?_⟩
    intro key node free found
    cases free.symm.trans found

theorem present_of_mem (sound : Sound sys) {visits : Nat → Visit} {msg : IMString}
    (done : sys.srvinfoBroadcast proto visits msg = some next) {key : Key}
    (inside : key ∈ nodeSet next) : Present sys next key := by
  obtain ⟨node, found⟩ := Option.isSome_iff_exists.mp inside
  refine ⟨node, found, fun free => ?_⟩
  have progress := srvinfoBroadcast_progress sound done
  obtain ⟨addr, conn, opened⟩ := progress.opened key node free found
  obtain ⟨objects, reads, bound⟩ := progress.sound
  refine ⟨addr, conn, opened, ?_⟩
  intro other otherIn same
  have here := reads.node_of_find found
  have there := reads.node_of_mem otherIn
  rw [bound.linked.distinct there here same opened.context, here] at there
  exact (Option.some.inj there).symm

end Newcomers

/-! ### Every push can be made -/

section Existence
variable {sys next : Sys} {objects : Objects} {proto : Proto}

/-- No open descriptor is as large. -/
def Below (net : Net) (bound : Int) : Prop := ∀ fd, bound ≤ fd → net.findFd fd = none

theorem exists_below (net : Net) : ∃ bound, Below net bound := by
  obtain ⟨largest, above⟩ := (net.conns.map Connection.fd).toFinset.exists_le
  refine ⟨largest + 1, fun fd beyond => ?_⟩
  apply List.find?_eq_none.mpr
  intro conn inside same
  have small := above conn.fd (by simpa using ⟨conn, inside, rfl⟩)
  have equal : conn.fd = fd := by simpa using same
  omega

theorem addServer_findFd (reads : Reads sys objects) {visit : Visit} {type : BitVec 16}
    {server : ServerStatus} {goesOn : Bool}
    (done : sys.addServer proto visit type server = some (next, goesOn)) {fd : Int}
    (apart : fd ≠ visit.fds 0) (unused : sys.net.findFd fd = none) :
    next.net.findFd fd = none := by
  rcases addServer_launches reads done with rfl | ⟨-, -, ip, -, launch⟩
  · exact unused
  · apply List.find?_eq_none.mpr
    intro conn inside same
    have equal : conn.fd = fd := by simpa using same
    obtain ⟨queue, here⟩ := launch.reads.net.exists_of_mem inside
    rw [Objects.setNode_conns, Objects.setConn_conns] at here
    by_cases created : conn.addr = sys.net.next
    · rw [created, Function.update_self, Option.some.injEq] at here
      apply apart
      rw [← equal, ← congrArg (fun owned : Owned => owned.conn.fd) here]
      simp [serverNodeConn, enrolled, inState]
    · rw [Function.update_of_ne created] at here
      have found := reads.net.findFd here
      rw [equal, unused] at found
      cases found

/-- Surroundings in which the connects end as the entries say. -/
def surroundings (bound : Int) (list : List (Key × Bool)) (place : Nat) : Visit :=
  freshFd (if (list[place]?).any (·.2) then bound + place else 0)

theorem surroundings_agree {bound : Int} (positive : 0 < bound) (up : Endpoint → Bool)
    (servers : List ServerStatus) :
    Agrees up servers (surroundings bound (servers.flatMap (entries up))) := by
  intro place entry inside
  simp only [surroundings, freshFd, inside, Option.any_some]
  split_ifs with succeeds
  · exact iff_of_true (by omega) succeeds
  · exact iff_of_false (lt_irrefl _) succeeds

theorem unopened_throughout {bound : Int} {list : List (Key × Bool)}
    {items : List (BitVec 16 × ServerStatus)} {begin : Nat} (sound : Sound sys) {goesOn : Bool}
    (below : Below sys.net (bound + begin)) :
    Throughout (broadcastStep proto (surroundings bound list))
      (fun state each => Unopened state.1.net ((surroundings bound list each.2).fds 0))
      (sys, goesOn) (items.zipIdx begin) := by
  induction items generalizing sys begin goesOn with
  | nil => exact trivial
  | cons item rest ih =>
    have fresh : ∀ place : Nat, 0 < (surroundings bound list place).fds 0 →
        (surroundings bound list place).fds 0 = bound + place := by
      intro place valid
      simp only [surroundings, freshFd] at valid ⊢
      split_ifs at valid ⊢
      · rfl
      · exact absurd valid (lt_irrefl _)
    rw [List.zipIdx_cons]
    constructor
    · intro valid
      exact below _ (fresh begin valid).ge
    · rintro ⟨next, still⟩ stepped
      simp only [broadcastStep] at stepped
      split_ifs at stepped
      · apply ih (addServer_sound sound stepped)
        intro fd beyond
        obtain ⟨objects, reads, -⟩ := sound
        push_cast at beyond
        by_cases valid : 0 < (surroundings bound list begin).fds 0
        · apply addServer_findFd reads stepped
          · rw [fresh begin valid]
            omega
          · exact below fd (by omega)
        · rcases addServer_launches reads stepped with rfl | ⟨opens, -⟩
          · exact below fd (by omega)
          · exact absurd opens valid
      · cases stepped
        apply ih sound
        intro fd beyond
        push_cast at beyond
        exact below fd (by omega)

theorem agrees_listed {up : Endpoint → Bool} {servers : List ServerStatus} {visits : Nat → Visit}
    (agrees : Agrees up servers visits) (place : Nat) (each : BitVec 16 × ServerStatus)
    (inside : (listed servers)[place]? = some each) :
    0 < (visits place).fds 0 ↔ up (endpoint each.2) = true := by
  apply agrees place (attempt up each)
  rw [entries_eq, List.getElem?_map, inside, Option.map_some]

/-- With addresses that fit a push has a result. -/
theorem completes_of_firstsFit (sound : Sound sys) {up : Endpoint → Bool}
    {servers : List ServerStatus} (fit : FirstsFit sys up servers) :
    Completes proto sys up servers := by
  intro msg visits parsed agrees unopened
  apply srvinfoBroadcast_returns sound
  · intro others same
    cases parsed.symm.trans same
    exact unopened
  · intro others same
    cases parsed.symm.trans same
    apply @copies_fit sys proto _ [] _ up
    · intro place each inside
      rw [Nat.zero_add]
      exact agrees_listed agrees place each inside
    · intro front each back split needed
      apply fit front each back split
      by_contra other
      exact needed ((settled_iff_not_needed sys each.1 each.2.node_id).mpr other)
    · exact fun _ _ inside => absurd inside List.not_mem_nil
    · exact fun _ _ => id

/-- For all outcomes of the connects there is a run of a push that completes. -/
theorem pushes_exist (sound : Sound sys) {up : Endpoint → Bool} {servers : List ServerStatus}
    (completes : Completes proto sys up servers)
    (pushable : ∃ msg, proto.parseStatusPush (payload msg) = some servers) :
    ∃ next, Pushes proto sys up servers next := by
  obtain ⟨bound, below⟩ := exists_below sys.net
  obtain ⟨msg, parsed⟩ := pushable
  have positive : 0 < max bound 1 := by omega
  have agrees := surroundings_agree positive up servers
  obtain ⟨next, done⟩ := completes msg _ parsed agrees
    (unopened_throughout sound fun fd beyond => below fd (by omega))
  exact ⟨next, msg, _, parsed, agrees, done⟩

end Existence

/-! ### A push of listed servers -/

section Pushes
variable {sys next : Sys} {proto : Proto} {up : Endpoint → Bool} {servers : List ServerStatus}

/-- The nodes after a push are those that the scan finds. -/
theorem pushes_discover (sound : Sound sys) (pushes : Pushes proto sys up servers next) :
    nodeSet next = discover (registered sys) (nodeSet sys) (servers.flatMap (entries up)) := by
  obtain ⟨msg, visits, parsed, agrees, done⟩ := pushes
  rw [srvinfoBroadcast_eq parsed] at done
  obtain ⟨last, looped, rfl⟩ := Option.map_eq_some_iff.mp done
  rw [entries_eq]
  apply run_discovers sound ?_ looped
  intro place each inside
  rw [Nat.zero_add]
  exact agrees_listed agrees place each inside

theorem mem_of_present {key : Key} (present : Present sys next key) : key ∈ nodeSet next := by
  obtain ⟨node, found, -⟩ := present
  exact Option.isSome_of_eq_some found

theorem unhindered_of_reveals (sound : Sound sys) (pushes : Pushes proto sys up servers next)
    (reveals : Reveals proto sys up servers) :
    Unhindered (registered sys) (nodeSet sys) (servers.flatMap (entries up)) := by
  rw [← complete_iff_unhindered]
  intro key isRegistered reachable
  rw [← pushes_discover sound pushes]
  exact mem_of_present (reveals next pushes key isRegistered reachable)

theorem reveals_of_unhindered (sound : Sound sys)
    (free : Unhindered (registered sys) (nodeSet sys) (servers.flatMap (entries up))) :
    Reveals proto sys up servers := by
  intro next pushes key isRegistered reachable
  have inside : key ∈ nodeSet next := by
    rw [pushes_discover sound pushes]
    exact (complete_iff_unhindered ..).mpr free key isRegistered reachable
  obtain ⟨msg, visits, -, -, done⟩ := pushes
  exact present_of_mem sound done inside

theorem registered_run {visits : Nat → Visit} {begin last : Sys × Bool}
    {items : List ((BitVec 16 × ServerStatus) × Nat)}
    (looped : run (broadcastStep proto visits) begin items = some last) :
    registered last.1 = registered begin.1 := by
  refine run_invariant (fun state : Sys × Bool => registered state.1 = registered begin.1) ?_ rfl
    looped
  rintro state item ⟨after, still⟩ same turned
  rw [broadcastStep] at turned
  split_ifs at turned
  · exact (registered_addServer turned).trans same
  · cases turned
    exact same

/-- The first entry of a needed key that can be reached is reached by the loops, when the push
shows the key, and its address is copied. -/
theorem firstsFit_of_reveals (sound : Sound sys) (pushes : Pushes proto sys up servers next)
    (reveals : Reveals proto sys up servers) : FirstsFit sys up servers := by
  intro before each after split needed reachable first
  have shown := pushes_discover sound pushes
  have found : key each ∈ nodeSet next := by
    apply mem_of_present (reveals next pushes (key each) needed.1 _)
    rw [entries_eq, List.mem_map]
    refine ⟨each, split ▸ List.mem_append_cons_self, ?_⟩
    rw [attempt, reachable]
  obtain ⟨msg, visits, parsed, agrees, done⟩ := pushes
  have agreed := agrees_listed agrees
  rw [srvinfoBroadcast_eq parsed, split, List.zipIdx_append, List.zipIdx_cons] at done
  obtain ⟨last, looped, rfl⟩ := Option.map_eq_some_iff.mp done
  obtain ⟨⟨middle, goesOn⟩, early, late⟩ := run_append.mp looped
  have nodes : nodeSet middle =
      discover (registered sys) (nodeSet sys) (before.map (attempt up)) := by
    apply run_discovers sound ?_ early
    intro place other inside
    rw [Nat.zero_add]
    apply agreed
    rw [split, List.getElem?_append_left (List.getElem?_eq_some_iff.mp inside).1, inside]
  have missing : key each ∉ nodeSet middle := by
    rw [nodes]
    intro there
    rcases discover_subset _ _ _ there with old | ⟨-, succeeds⟩
    · exact needed.2 old
    · obtain ⟨other, inside, same⟩ := List.mem_map.mp succeeds
      exact first other inside (Prod.mk.inj same).1
  cases goesOn with
  | false =>
    rw [run_stopped, Option.some.injEq] at late
    subst late
    exact absurd found missing
  | true =>
    obtain ⟨⟨later, still⟩, turned, -⟩ := run_cons.mp late
    have valid : 0 < (visits before.length).fds 0 := by
      apply (agreed before.length each _).mpr reachable
      rw [split, List.getElem?_append_right le_rfl, Nat.sub_self, List.getElem?_cons_zero]
    rw [broadcastStep, if_pos rfl, Nat.zero_add] at turned
    apply fits_of_addServer turned _ valid
    rw [settled_iff_not_needed, not_not]
    refine ⟨?_, missing⟩
    have same : registered middle = registered sys := registered_run early
    rw [same]
    exact needed.1

theorem mem_listed {each : BitVec 16 × ServerStatus} : each ∈ listed servers ↔
    each.2 ∈ servers ∧ each.2.is_enable = true ∧ each.1 ∈ each.2.service_type := by
  obtain ⟨type, server⟩ := each
  simp [listed, and_assoc]

/-- With equal endpoints for equal keys the addresses fit in every order, or in none. -/
theorem firstsFit_of_perm {other : List ServerStatus} (order : other.Perm servers)
    (same : SameEndpoints servers) (fit : FirstsFit sys up servers) : FirstsFit sys up other := by
  intro before each after split needed reachable _
  have inside : each ∈ listed servers := by
    have there : each ∈ listed other := split ▸ List.mem_append_cons_self
    rw [mem_listed] at there ⊢
    exact ⟨order.mem_iff.mp there.1, there.2⟩
  obtain ⟨least, found⟩ : ∃ least, (listed servers).find? (fun other => key other = key each) =
      some least :=
    Option.isSome_iff_exists.mp (List.find?_isSome.mpr ⟨each, inside, decide_eq_true rfl⟩)
  obtain ⟨alike, front, back, first, earlier⟩ := List.find?_eq_some_iff_append.mp found
  have alike : key least = key each := by simpa using alike
  obtain ⟨sameType, sameId⟩ := Prod.mk.inj alike
  have leastIn : least ∈ listed servers := first ▸ List.mem_append_cons_self
  obtain ⟨here, enabled, typed⟩ := mem_listed.mp inside
  obtain ⟨leastHere, leastEnabled, leastTyped⟩ := mem_listed.mp leastIn
  have ends : endpoint least.2 = endpoint each.2 := same least.2 leastHere each.2 here leastEnabled
    enabled sameId least.1 leastTyped (sameType ▸ typed)
  have fits : Fits least.2.server_ip := by
    apply fit front least back first (alike ▸ needed) (ends ▸ reachable)
    intro prior priorIn equal
    have differs := earlier prior priorIn
    simp [equal, alike] at differs
  have address : least.2.server_ip = each.2.server_ip := (Prod.mk.inj ends).1
  exact address ▸ fits

theorem entries_uniform (up : Endpoint → Bool) (server : ServerStatus) :
    ∃ outcome, ∀ entry ∈ entries up server, entry.2 = outcome := by
  refine ⟨up (endpoint server), fun entry inside => ?_⟩
  unfold entries at inside
  split_ifs at inside
  · obtain ⟨type, -, rfl⟩ := List.mem_map.mp inside
    rfl
  · cases inside

theorem anyOrder_iff (sound : Sound sys)
    (exist : ∀ other : List ServerStatus, other.Perm servers →
      ∃ after, Pushes proto sys up other after) :
    AnyOrder proto sys up servers ↔
      Clear (registered sys) (nodeSet sys) (servers.flatMap (entries up)) ∨
        Dark (registered sys) (nodeSet sys) (servers.flatMap (entries up)) := by
  rw [← orderFree_iff (entries_uniform up)]
  constructor
  · intro anyOrder other order
    obtain ⟨next, pushes⟩ := exist servers (.refl _)
    obtain ⟨after, repushes⟩ := exist other order
    rw [← pushes_discover sound pushes, ← pushes_discover sound repushes]
    exact anyOrder other next after order pushes repushes
  · intro free other next after order pushes repushes
    rw [pushes_discover sound pushes, pushes_discover sound repushes]
    exact free other order

end Pushes

/-- From every reachable state a push completes and shows all that can be reached, in any order of
its list, if and only if the addresses fit and no failed connect comes before a needed one that
succeeds; and where equal keys have equal endpoints, none of the needed connects fails, or all
do. -/
theorem push_reveals_iff (proto : Proto) (types : List (BitVec 16)) (actions : List Action)
    (sys : Sys) (reached : run (step proto) (start types) actions = some sys)
    (up : Endpoint → Bool) (servers : List ServerStatus)
    (pushable : ∀ other : List ServerStatus, other.Perm servers →
      ∃ msg, proto.parseStatusPush (payload msg) = some other) :
    (Completes proto sys up servers ∧ Reveals proto sys up servers ∧
        (SameEndpoints servers → AnyOrder proto sys up servers)) ↔
      FirstsFit sys up servers ∧
        Unhindered (registered sys) (nodeSet sys) (servers.flatMap (entries up)) ∧
        (SameEndpoints servers →
          Clear (registered sys) (nodeSet sys) (servers.flatMap (entries up)) ∨
            Dark (registered sys) (nodeSet sys) (servers.flatMap (entries up))) := by
  have sound := run_sound reached
  have inOrder : SameEndpoints servers → FirstsFit sys up servers →
      (AnyOrder proto sys up servers ↔
        Clear (registered sys) (nodeSet sys) (servers.flatMap (entries up)) ∨
          Dark (registered sys) (nodeSet sys) (servers.flatMap (entries up))) := by
    intro same fit
    apply anyOrder_iff sound
    intro other order
    have still : Completes proto sys up other :=
      completes_of_firstsFit sound (firstsFit_of_perm order same fit)
    exact pushes_exist sound still (pushable other order)
  constructor
  · rintro ⟨completes, reveals, anyOrder⟩
    obtain ⟨next, pushes⟩ := pushes_exist sound completes (pushable servers (.refl _))
    have fit := firstsFit_of_reveals sound pushes reveals
    exact ⟨fit, unhindered_of_reveals sound pushes reveals,
      fun same => (inOrder same fit).mp (anyOrder same)⟩
  · rintro ⟨fit, free, clearOrDark⟩
    exact ⟨completes_of_firstsFit sound fit, reveals_of_unhindered sound free,
      fun same => (inOrder same fit).mpr (clearOrDark same)⟩

/-- The texts `10.0.0.1` and `10.0.0.2`. -/
def firstHost : List Byte := [0x31, 0x30, 0x2e, 0x30, 0x2e, 0x30, 0x2e, 0x31]

def secondHost : List Byte := [0x31, 0x30, 0x2e, 0x30, 0x2e, 0x30, 0x2e, 0x32]

/-- Two database servers, the first of which cannot be reached. -/
def firstDown : List ServerStatus :=
  [⟨true, 7, firstHost, 9001, [3]⟩, ⟨true, 8, secondHost, 9002, [3]⟩]

def onlySecond (address : Endpoint) : Bool := address.2 = 9002

/-- The messages of the two orders, told apart by one byte. -/
def twoOrders : Proto :=
  { smallMessages with
    parseStatusPush := fun body => if body = [1] then some firstDown else some firstDown.reverse }

theorem firstDown_order {other : List ServerStatus} (order : other.Perm firstDown) :
    other = firstDown ∨ other = firstDown.reverse :=
  List.perm_pair.mp order

/-- Only the connect at that place of the list succeeds. -/
def onlyAt (up : Nat) (place : Nat) : Visit := freshFd (if place = up then 5 else 0)

theorem firstDown_agrees : Agrees onlySecond firstDown (onlyAt 1) := by
  intro place entry inside
  match place with
  | 0 => cases inside; decide
  | 1 => cases inside; decide
  | _ + 2 => cases inside

theorem firstDown_reverse_agrees : Agrees onlySecond firstDown.reverse (onlyAt 0) := by
  intro place entry inside
  match place with
  | 0 => cases inside; decide
  | 1 => cases inside; decide
  | _ + 2 => cases inside

/-- The server that can be reached is missing, and is there when it comes first. -/
theorem first_down_hides : ¬Reveals twoOrders (start [3]) onlySecond firstDown ∧
    SameEndpoints firstDown ∧ ¬AnyOrder twoOrders (start [3]) onlySecond firstDown := by
  have hidden : ((start [3]).srvinfoBroadcast twoOrders (onlyAt 1) (withBody [1])).map
      (fun next => (next.findNode 3 8).isSome) = some false := by decide +kernel
  have shown : ((start [3]).srvinfoBroadcast twoOrders (onlyAt 0) (withBody [2])).map
      (fun next => (next.findNode 3 8).isSome) = some true := by decide +kernel
  obtain ⟨next, done, missing⟩ := Option.map_eq_some_iff.mp hidden
  obtain ⟨after, redone, found⟩ := Option.map_eq_some_iff.mp shown
  have pushes : Pushes twoOrders (start [3]) onlySecond firstDown next :=
    ⟨withBody [1], onlyAt 1, rfl, firstDown_agrees, done⟩
  have repushes : Pushes twoOrders (start [3]) onlySecond firstDown.reverse after :=
    ⟨withBody [2], onlyAt 0, rfl, firstDown_reverse_agrees, redone⟩
  refine ⟨?_, ?_, ?_⟩
  · intro reveals
    have inside := mem_of_present (reveals next pushes (3, 8) rfl (by decide))
    exact absurd (missing.symm.trans inside) nofun
  · simp [SameEndpoints, firstDown]
  · intro anyOrder
    have same := anyOrder _ next after (List.reverse_perm _) pushes repushes
    have inside : ((3, 8) : Key) ∈ nodeSet after := found
    rw [same] at inside
    exact absurd (missing.symm.trans inside) nofun

theorem push_reveals_iff_two_orders :
    (Completes twoOrders (start [3]) onlySecond firstDown ∧
      Reveals twoOrders (start [3]) onlySecond firstDown ∧
      (SameEndpoints firstDown → AnyOrder twoOrders (start [3]) onlySecond firstDown)) ↔
      FirstsFit (start [3]) onlySecond firstDown ∧
        Unhindered (registered (start [3])) (nodeSet (start [3]))
          (firstDown.flatMap (entries onlySecond)) ∧
        (SameEndpoints firstDown →
          Clear (registered (start [3])) (nodeSet (start [3]))
              (firstDown.flatMap (entries onlySecond)) ∨
            Dark (registered (start [3])) (nodeSet (start [3]))
              (firstDown.flatMap (entries onlySecond))) :=
  push_reveals_iff twoOrders [3] [] (start [3]) rfl onlySecond firstDown (by
    intro other order
    rcases firstDown_order order with rfl | rfl
    · exact ⟨withBody [1], rfl⟩
    · exact ⟨withBody [2], rfl⟩)

end SNFrame.System.Discovery
