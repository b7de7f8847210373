import SNFrame.System.Services
import SNFrame.System.Arming

/-! The node table. A push looks a node up before it inserts one, and so keeps the ids of a list
distinct; a registration inserts without a lookup. -/

namespace SNFrame.System.NodeTable
open Library.Octet Library.Transition Library.Table Base.PbBuf Core.Receiving Core.Sending
open Core.TcpParse Core.NetManager Core.NodeMgr Ownership Tables Turns Simulation Supervision
open Services Arming

/-- No service holds two nodes with one id. -/
def NoDuplicates (sys : Sys) : Prop :=
  ∀ snode ∈ sys.services, (snode.m_nodes.map Node.m_id).Nodup

/-- The nodes of a service have its id. -/
def OwnService (sys : Sys) : Prop :=
  ∀ snode ∈ sys.services, ∀ node ∈ snode.m_nodes, node.m_type = snode.m_sid

/-- All connects of the push succeed. -/
def AllConnect (proto : Proto) (sys : Sys) (visits : Nat → Visit) (msg : IMString) : Prop :=
  ∀ servers, proto.parseStatusPush (payload msg) = some servers →
    ∃ last, run (broadcastStep proto visits) (sys, true) (listed servers).zipIdx =
      some (last, true)

/-- The ids stay distinct, also after each visit of `checkState`. -/
def StaysUnique (proto : Proto) (sys : Sys) : Action → Prop
  | .checkState service visits => ∀ snode, sys.services[service]? = some snode →
      Always (Sys.checkNode proto snode.m_sid visits) NoDuplicates sys
        (snode.m_nodes.map Node.addr)
  | action => ∀ next, step proto sys action = some next → NoDuplicates next

/-- A push leaves every node as it is, and the same push again does nothing when all connects
have succeeded. -/
def PushesOnce (proto : Proto) (sys : Sys) : Action → Prop
  | .srvinfoBroadcast msg visits => ∀ next, sys.srvinfoBroadcast proto visits msg = some next →
      (∀ place node, sys.derefNode place = some node → next.derefNode place = some node) ∧
      (AllConnect proto sys visits msg →
        ∀ again, next.srvinfoBroadcast proto again msg = some next)
  | _ => True

/-- The step has a result, and the node table is after it as it should be. -/
def Lawful (proto : Proto) (sys : Sys) (action : Action) : Prop :=
  (∃ next, step proto sys action = some next) ∧ StaysUnique proto sys action ∧
    (∀ next, step proto sys action = some next → OwnService next) ∧ PushesOnce proto sys action

/-- The step has a result, or has none because it copies an address that does not fit. -/
def Taken (proto : Proto) (sys : Sys) (action : Action) : Prop :=
  AddressesFit proto sys action → ∃ next, step proto sys action = some next

/-- A node that is given up and followed by a registration was the only one with the id 0 in
the router's list, or there is none. -/
def GivesUpAlone (proto : Proto) (sid : BitVec 16) (visits : Nat → Visit) (sys : Sys)
    (addr : Nat) : Prop :=
  ∀ node, sys.derefNode addr = some node → Lost node.m_state → node.needReconnect.1 = false →
    sid = proto.SID_ROUTER → Connects (visits addr) →
    (sys.eraseNode addr).findNode proto.SID_ROUTER 0 = none

/-- No node of the router has the id 0 when a registration connects. -/
def RegistersOnce (proto : Proto) (sys : Sys) : Action → Prop
  | .registReq visit => Connects visit → sys.findNode proto.SID_ROUTER 0 = none
  | .checkState service visits => ∀ snode, sys.services[service]? = some snode →
      Throughout (Sys.checkNode proto snode.m_sid visits)
        (GivesUpAlone proto snode.m_sid visits) sys (snode.m_nodes.map Node.addr)
  | _ => True

/-! ### Lists with distinct ids -/

def Unique (shelves : List Shelf) : Prop :=
  ∀ shelf ∈ shelves, (shelf.entries.map Entry.m_id).Nodup

def Sorted (shelves : List Shelf) : Prop :=
  ∀ shelf ∈ shelves, ∀ entry ∈ shelf.entries, entry.m_type = shelf.m_sid

theorem noDuplicates_iff (sys : Sys) : NoDuplicates sys ↔ Unique (outline sys) := by
  simp [NoDuplicates, Unique, outline, shelfOf, Function.comp_def, entryOf]

theorem ownService_iff (sys : Sys) : OwnService sys ↔ Sorted (outline sys) := by
  simp [OwnService, Sorted, outline, shelfOf, entryOf]

section Lists
variable {shelves after : List Shelf} {entry : Entry}

theorem unique_append {before rest : List Shelf} {shelf : Shelf} :
    Unique (before ++ shelf :: rest) ↔
      Unique before ∧ (shelf.entries.map Entry.m_id).Nodup ∧ Unique rest := by
  simp only [Unique, List.forall_mem_append, List.forall_mem_cons]

theorem find_first {before rest : List Shelf} {shelf : Shelf} {sid : BitVec 16}
    (typed : shelf.m_sid = sid) (differ : ∀ other ∈ before, other.m_sid ≠ sid) (nid : BitVec 32) :
    find (before ++ shelf :: rest) sid nid = shelf.entries.find? (·.m_id = nid) := by
  induction before with
  | nil => rw [List.nil_append, find_cons, if_pos typed]
  | cons other before ih =>
    rw [List.cons_append, find_cons, if_neg (differ other List.mem_cons_self)]
    exact ih fun another inside => differ another (List.mem_cons_of_mem _ inside)

/-- An insertion keeps the ids distinct if and only if a lookup would have found nothing. -/
theorem unique_insert_iff (unique : Unique shelves)
    (inserted : insert entry shelves = some after) :
    Unique after ↔ find shelves entry.m_type entry.m_id = none := by
  obtain ⟨before, shelf, rest, rfl, typed, differ, rfl⟩ := insert_cases inserted
  obtain ⟨beforeUnique, shelfUnique, restUnique⟩ := unique_append.mp unique
  rw [unique_append, find_first typed differ, List.find?_eq_none]
  simp only [beforeUnique, restUnique, true_and, and_true, List.map_append, List.map_cons,
    List.map_nil, List.nodup_append, shelfUnique, List.nodup_singleton, List.mem_map,
    List.mem_singleton, forall_exists_index, and_imp, forall_apply_eq_imp_iff₂, forall_eq,
    decide_eq_true_eq, ne_eq]

theorem unique_erase (unique : Unique shelves) (addr : Nat) : Unique (erase addr shelves) := by
  intro shelf inside
  obtain ⟨old, oldIn, rfl⟩ := List.mem_map.mp inside
  exact (map_remove_sublist addr Entry.m_id old.entries).nodup (unique old oldIn)

theorem sorted_insert (sorted : Sorted shelves) (inserted : insert entry shelves = some after) :
    Sorted after := by
  obtain ⟨before, shelf, rest, rfl, typed, -, rfl⟩ := insert_cases inserted
  simp only [Sorted, List.forall_mem_append, List.forall_mem_cons] at sorted ⊢
  refine ⟨sorted.1, ⟨sorted.2.1, typed.symm, nofun⟩, sorted.2.2⟩

theorem sorted_erase (sorted : Sorted shelves) (addr : Nat) : Sorted (erase addr shelves) := by
  intro shelf inside entry listed
  obtain ⟨old, oldIn, rfl⟩ := List.mem_map.mp inside
  exact sorted old oldIn entry (mem_remove.mp listed).1

end Lists

/-! ### The visits of checkState -/

section Steps
variable {sys next : Sys} {proto : Proto} {sid : BitVec 16} {visits : Nat → Visit}

theorem findNode_eq_none (sys : Sys) (type : BitVec 16) (nid : BitVec 32) :
    sys.findNode type nid = none ↔ find (outline sys) type nid = none := by
  rw [← findNode_outline, Option.map_eq_none_iff]

theorem fresh_of_consistent (consistent : Consistent sys) : Fresh sys := by
  obtain ⟨objects, reads, -⟩ := consistent
  exact reads.below

theorem checkNode_consistent {addr : Nat} (consistent : Consistent sys)
    (done : sys.checkNode proto sid visits addr = some next) : Consistent next := by
  obtain ⟨objects, reads, linked⟩ := consistent
  obtain ⟨after, afterReads, course, -⟩ := checkNode_spec reads linked done
  exact ⟨after, afterReads, linked_moves linked (course_moves course)⟩

/-- One visit keeps the ids distinct if and only if the node was alone, or is not followed by a
registration. -/
theorem checkNode_unique_iff {addr : Nat} (consistent : Consistent sys) (unique : NoDuplicates sys)
    (done : sys.checkNode proto sid visits addr = some next) :
    NoDuplicates next ↔ GivesUpAlone proto sid visits sys addr := by
  rw [noDuplicates_iff] at unique ⊢
  obtain ⟨node, pointed, stays | given⟩ := outline_checkNode (fresh_of_consistent consistent) done
  · obtain ⟨kept, same⟩ := stays
    rw [same]
    refine iff_of_true unique ?_
    intro other found lost spent
    cases pointed.symm.trans found
    exact absurd ⟨lost, spent⟩ kept
  · obtain ⟨⟨lost, spent⟩, ⟨silent, same⟩ | ⟨⟨router, connects⟩, place, inserted⟩⟩ := given
    · rw [same]
      refine iff_of_true (unique_erase unique addr) ?_
      intro _ _ _ _ router connects
      exact absurd ⟨router, connects⟩ silent
    · rw [unique_insert_iff (unique_erase unique addr) inserted, ← outline_eraseNode,
        ← findNode_eq_none]
      constructor
      · intro alone _ _ _ _ _ _
        exact alone
      · intro alone
        exact alone node pointed lost spent router connects

theorem checkNode_sorted {addr : Nat} (consistent : Consistent sys)
    (sorted : Sorted (outline sys))
    (done : sys.checkNode proto sid visits addr = some next) : Sorted (outline next) := by
  obtain ⟨node, -, ⟨-, same⟩ | ⟨-, ⟨-, same⟩ | ⟨-, place, inserted⟩⟩⟩ :=
    outline_checkNode (fresh_of_consistent consistent) done
  · rw [same]
    exact sorted
  · rw [same]
    exact sorted_erase sorted addr
  · exact sorted_insert (sorted_erase sorted addr) inserted

theorem visits_unique_iff {places : List Nat} (consistent : Consistent sys) (unique : NoDuplicates sys)
    (looped : run (Sys.checkNode proto sid visits) sys places = some next) :
    Always (Sys.checkNode proto sid visits) NoDuplicates sys places ↔
      Throughout (Sys.checkNode proto sid visits) (GivesUpAlone proto sid visits) sys places := by
  apply always_iff_throughout Consistent NoDuplicates (fun _ _ => True) _
    (fun _ _ _ still _ done => checkNode_consistent still done) ?_ consistent unique
    (throughout_of_mem _ _ fun _ _ _ => trivial) looped
  intro before place after still unique _ done
  exact checkNode_unique_iff still unique done

/-! ### A push -/

theorem addServer_unique {visit : Visit} {type : BitVec 16} {server : ServerStatus}
    {goesOn : Bool} (unique : Unique (outline sys))
    (done : sys.addServer proto visit type server = some (next, goesOn)) : Unique (outline next) := by
  rcases outline_addServer done with ⟨-, rfl⟩ | ⟨-, same⟩ | ⟨missing, inserted⟩
  · exact unique
  · rw [same]
    exact unique
  · exact (unique_insert_iff unique inserted).mpr missing

theorem addServer_sorted {visit : Visit} {type : BitVec 16} {server : ServerStatus}
    {goesOn : Bool} (sorted : Sorted (outline sys))
    (done : sys.addServer proto visit type server = some (next, goesOn)) : Sorted (outline next) := by
  rcases outline_addServer done with ⟨-, rfl⟩ | ⟨-, same⟩ | ⟨-, inserted⟩
  · exact sorted
  · rw [same]
    exact sorted
  · exact sorted_insert sorted inserted

/-- The node that a push adds is new, so the nodes that were there stay as they are. -/
theorem addServer_spares {objects : Objects} (reads : Reads sys objects) {visit : Visit}
    {type : BitVec 16} {server : ServerStatus} {goesOn : Bool}
    (done : sys.addServer proto visit type server = some (next, goesOn)) {place : Nat} {node : Node}
    (here : sys.derefNode place = some node) : next.derefNode place = some node := by
  rw [reads.nodes] at here
  rcases addServer_cases reads done with same | ⟨addr, created, owned, new, launch, -⟩
  · rw [same.nodes, here]
  · have apart : place ≠ created := by
      rintro rfl
      rw [launch.absent] at here
      cases here
    rw [launch.reads.nodes, Objects.setNode_nodes, Function.update_of_ne apart,
      Objects.setConn_nodes, here]

theorem srvinfoBroadcast_spares (consistent : Consistent sys) {msg : IMString}
    (done : sys.srvinfoBroadcast proto visits msg = some next) {place : Nat} {node : Node}
    (here : sys.derefNode place = some node) : next.derefNode place = some node := by
  refine (srvinfoBroadcast_keeps (fun state =>
    (∃ objects, Reads state objects) ∧ state.derefNode place = some node) ?_ ?_ done).2
  · rintro before after visit type server goesOn ⟨⟨objects, reads⟩, there⟩ added
    obtain ⟨later, laterReads, -⟩ := addServer_turned reads added
    exact ⟨⟨later, laterReads⟩, addServer_spares reads added there⟩
  · obtain ⟨objects, reads, -⟩ := consistent
    exact ⟨⟨objects, reads⟩, here⟩

theorem addServer_of_settled {type : BitVec 16} {server : ServerStatus}
    (settled : Settled sys type server.node_id) (visit : Visit) :
    sys.addServer proto visit type server = some (sys, true) := by
  rw [Sys.addServer]
  exact if_pos settled

theorem findService_isNone (sys : Sys) (sid : BitVec 16) :
    (sys.findService sid).isNone ↔ sid ∉ (outline sys).map Shelf.m_sid := by
  rw [← Option.isNone_map, findService_outline, Option.isNone_iff_eq_none, List.find?_eq_none]
  simp only [decide_eq_true_eq, List.mem_map, not_exists, not_and]

theorem settled_iff (sys : Sys) (type : BitVec 16) (nid : BitVec 32) : Settled sys type nid ↔
    (find (outline sys) type nid).isSome ∨ type ∉ (outline sys).map Shelf.m_sid := by
  rw [Settled, findNode_isSome, findService_isNone]

theorem settled_addServer {visit : Visit} {type : BitVec 16} {server : ServerStatus}
    {goesOn : Bool} (done : sys.addServer proto visit type server = some (next, goesOn))
    {other : BitVec 16} {number : BitVec 32} (settled : Settled sys other number) : Settled next other number := by
  rw [settled_iff] at settled ⊢
  rcases outline_addServer done with ⟨-, rfl⟩ | ⟨-, same⟩ | ⟨-, inserted⟩
  · exact settled
  · rw [same]
    exact settled
  · rw [sids_insert inserted, find_insert inserted]
    refine settled.imp_left fun found => ?_
    split_ifs
    · rw [Option.isSome_or, found, Bool.true_or]
    · exact found

/-- A server that lets the loops go on is settled. -/
theorem addServer_settles {visit : Visit} {type : BitVec 16} {server : ServerStatus}
    (done : sys.addServer proto visit type server = some (next, true)) :
    Settled next type server.node_id := by
  rcases outline_addServer done with ⟨settled, rfl⟩ | ⟨stopped, -⟩ | ⟨-, inserted⟩
  · exact settled
  · cases stopped
  · rw [settled_iff, find_insert inserted, if_pos ⟨rfl, rfl⟩, Option.isSome_or]
    left
    simp

abbrev SettledEach (sys : Sys) (each : (BitVec 16 × ServerStatus) × Nat) : Prop :=
  Settled sys each.1.1 each.1.2.node_id

theorem broadcastStep_keeps {state after : Sys × Bool}
    {each other : (BitVec 16 × ServerStatus) × Nat} (settled : SettledEach state.1 other)
    (done : broadcastStep proto visits state each = some after) : SettledEach after.1 other := by
  simp only [broadcastStep] at done
  split_ifs at done
  · exact settled_addServer done settled
  · cases done
    exact settled

theorem going_of_broadcastStep {state after : Sys × Bool} {each : (BitVec 16 × ServerStatus) × Nat}
    (done : broadcastStep proto visits state each = some after) (going : after.2 = true) :
    state.2 = true := by
  cases running : state.2 with
  | true => rfl
  | false =>
    simp only [broadcastStep, running, Bool.false_eq_true, if_false, Option.some.injEq] at done
    rw [← done, running] at going
    exact going

/-- After a pass in which all connects succeeded every listed server is settled. -/
theorem run_settles {begin last : Sys × Bool} {each : List ((BitVec 16 × ServerStatus) × Nat)}
    (looped : run (broadcastStep proto visits) begin each = some last) (going : last.2 = true) :
    begin.2 = true ∧ ∀ item ∈ each, SettledEach last.1 item := by
  induction each generalizing begin with
  | nil =>
    cases looped
    exact ⟨going, nofun⟩
  | cons item rest ih =>
    obtain ⟨middle, first, deeper⟩ := run_cons.mp looped
    obtain ⟨stillGoing, others⟩ := ih deeper
    have begins := going_of_broadcastStep first stillGoing
    refine ⟨begins, ?_⟩
    intro other inside
    rcases List.mem_cons.mp inside with rfl | inside
    · have settles : SettledEach middle.1 other := by
        simp only [broadcastStep, begins, if_true] at first
        rw [← Prod.eta middle, stillGoing] at first
        exact addServer_settles first
      exact run_invariant (fun state : Sys × Bool => SettledEach state.1 other)
        (fun _ _ _ settled done => broadcastStep_keeps settled done) settles deeper
    · exact others other inside

theorem run_of_settled {each : List ((BitVec 16 × ServerStatus) × Nat)}
    (settled : ∀ item ∈ each, SettledEach sys item) :
    run (broadcastStep proto visits) (sys, true) each = some (sys, true) := by
  induction each with
  | nil => rfl
  | cons item rest ih =>
    have first : broadcastStep proto visits (sys, true) item = some (sys, true) :=
      addServer_of_settled (settled item List.mem_cons_self) _
    exact run_cons.mpr ⟨_, first, ih fun other inside => settled other (List.mem_cons_of_mem _ inside)⟩

/-- The same push again finds every server settled. -/
theorem srvinfoBroadcast_again {msg : IMString} (connects : AllConnect proto sys visits msg)
    (done : sys.srvinfoBroadcast proto visits msg = some next) (again : Nat → Visit) :
    next.srvinfoBroadcast proto again msg = some next := by
  cases parsed : proto.parseStatusPush (payload msg) with
  | none => rw [Sys.srvinfoBroadcast, parsed]
  | some servers =>
    obtain ⟨last, looped⟩ := connects servers parsed
    rw [srvinfoBroadcast_eq parsed, looped] at done
    cases done
    rw [srvinfoBroadcast_eq parsed, run_of_settled (run_settles looped rfl).2]
    rfl

/-! ### Steps of the program -/

/-- The steps that may change the lists. -/
def Lists : Action → Prop
  | .checkState .. => True
  | .srvinfoBroadcast .. => True
  | .registReq .. => True
  | _ => False

theorem outline_step {action : Action} (still : ¬Lists action)
    (stepped : step proto sys action = some next) : outline next = outline sys := by
  cases action with
  | listen | accept | connect | sendSock | sendNode | sendDb | sendState =>
    obtain ⟨net, -, rfl⟩ := Option.map_eq_some_iff.mp stepped
    rfl
  | read => exact outline_read stepped
  | write => exact outline_write stepped
  | authenticationReq => exact outline_authenticationReq stepped
  | authenticationRsp => exact outline_authenticationRsp stepped
  | checkState | srvinfoBroadcast | registReq => exact absurd trivial still

theorem step_sorted (consistent : Consistent sys) {action : Action} (sorted : Sorted (outline sys))
    (stepped : step proto sys action = some next) : Sorted (outline next) := by
  by_cases still : Lists action
  · cases action <;> try exact absurd still id
    case checkState service visits =>
      obtain ⟨snode, -, looped⟩ := checkState_run stepped
      exact (run_invariant (fun state => Consistent state ∧ Sorted (outline state))
        (fun _ _ _ holds done => ⟨checkNode_consistent holds.1 done,
          checkNode_sorted holds.1 holds.2 done⟩) ⟨consistent, sorted⟩ looped).2
    case srvinfoBroadcast msg visits =>
      exact srvinfoBroadcast_keeps (fun state => Sorted (outline state))
        (fun _ _ _ _ _ _ holds added => addServer_sorted holds added) sorted stepped
    case registReq visit =>
      rcases outline_registReq (fresh_of_consistent consistent) stepped with
        ⟨-, same⟩ | ⟨-, place, inserted⟩
      · rw [same]
        exact sorted
      · exact sorted_insert sorted inserted
  · rw [outline_step still stepped]
    exact sorted

theorem sids_addServer {visit : Visit} {type : BitVec 16} {server : ServerStatus}
    {goesOn : Bool} (done : sys.addServer proto visit type server = some (next, goesOn)) :
    (outline next).map Shelf.m_sid = (outline sys).map Shelf.m_sid := by
  rcases outline_addServer done with ⟨-, rfl⟩ | ⟨-, same⟩ | ⟨-, inserted⟩
  · rfl
  · rw [same]
  · exact sids_insert inserted

/-- The services of the table stay as the configuration has them. -/
theorem step_sids (consistent : Consistent sys) {action : Action}
    (stepped : step proto sys action = some next) :
    (outline next).map Shelf.m_sid = (outline sys).map Shelf.m_sid := by
  by_cases still : Lists action
  · cases action <;> try exact absurd still id
    case checkState service visits =>
      obtain ⟨snode, -, looped⟩ := checkState_run stepped
      exact (run_invariant (fun state => Consistent state ∧
          (outline state).map Shelf.m_sid = (outline sys).map Shelf.m_sid)
        (fun _ _ _ holds done => ⟨checkNode_consistent holds.1 done,
          (sids_checkNode (fresh_of_consistent holds.1) done).trans holds.2⟩)
        ⟨consistent, rfl⟩ looped).2
    case srvinfoBroadcast msg visits =>
      exact srvinfoBroadcast_keeps
        (fun state => (outline state).map Shelf.m_sid = (outline sys).map Shelf.m_sid)
        (fun _ _ _ _ _ _ holds added => (sids_addServer added).trans holds) rfl stepped
    case registReq visit =>
      rcases outline_registReq (fresh_of_consistent consistent) stepped with
        ⟨-, same⟩ | ⟨-, place, inserted⟩
      · rw [same]
      · exact sids_insert inserted
  · rw [outline_step still stepped]

/-- The exact condition for the ids to stay distinct in one step. -/
theorem step_unique_iff (consistent : Consistent sys) {action : Action} (unique : NoDuplicates sys)
    (stepped : step proto sys action = some next) :
    StaysUnique proto sys action ↔ RegistersOnce proto sys action := by
  have distinct := (noDuplicates_iff sys).mp unique
  by_cases still : Lists action
  · cases action <;> try exact absurd still id
    case checkState service visits =>
      obtain ⟨snode, served, looped⟩ := checkState_run stepped
      simp only [StaysUnique, RegistersOnce, served, Option.some.injEq, forall_eq']
      exact visits_unique_iff consistent unique looped
    case srvinfoBroadcast msg visits =>
      refine iff_of_true ?_ trivial
      intro after done
      apply (noDuplicates_iff after).mpr
      exact srvinfoBroadcast_keeps (fun state => Unique (outline state))
        (fun _ _ _ _ _ _ holds added => addServer_unique holds added) distinct done
    case registReq visit =>
      simp only [StaysUnique, RegistersOnce, stepped, Option.some.injEq, forall_eq']
      rw [noDuplicates_iff, findNode_eq_none]
      rcases outline_registReq (fresh_of_consistent consistent) stepped with
        ⟨fails, same⟩ | ⟨connects, place, inserted⟩
      · rw [same]
        exact iff_of_true distinct fun succeeds => absurd succeeds fails
      · rw [unique_insert_iff distinct inserted]
        exact ⟨fun alone _ => alone, fun alone => alone connects⟩
  · have kept : ∀ after, step proto sys action = some after → NoDuplicates after := by
      intro after done
      rw [noDuplicates_iff, outline_step still done]
      exact distinct
    cases action <;> first | exact iff_of_true kept trivial | exact absurd trivial still

theorem step_pushesOnce (consistent : Consistent sys) (action : Action) :
    PushesOnce proto sys action := by
  cases action <;> try trivial
  case srvinfoBroadcast msg visits =>
    intro next done
    exact ⟨fun _ _ here => srvinfoBroadcast_spares consistent done here,
      fun connects again => srvinfoBroadcast_again connects done again⟩

/-- What holds between the steps of a lawful run. -/
structure Orderly (sys : Sys) : Prop where
  consistent : Consistent sys
  unique : NoDuplicates sys
  sorted : OwnService sys

theorem lawful_iff {action : Action} (orderly : Orderly sys) (taken : Taken proto sys action) :
    Lawful proto sys action ↔
      RegistersOnce proto sys action ∧ AddressesFit proto sys action := by
  constructor
  · rintro ⟨⟨next, stepped⟩, stays, -⟩
    have once := (step_unique_iff orderly.consistent orderly.unique stepped).mp stays
    exact ⟨once, fits_of_step stepped⟩
  · rintro ⟨once, fits⟩
    obtain ⟨next, stepped⟩ := taken fits
    refine ⟨⟨next, stepped⟩, ?_, ?_, step_pushesOnce orderly.consistent action⟩
    · exact (step_unique_iff orderly.consistent orderly.unique stepped).mpr once
    · intro after done
      apply (ownService_iff after).mpr
      exact step_sorted orderly.consistent ((ownService_iff sys).mp orderly.sorted) done

/-- The state after a step whose states all have distinct ids. -/
theorem unique_of_staysUnique {action : Action} (unique : NoDuplicates sys)
    (stays : StaysUnique proto sys action) (stepped : step proto sys action = some next) :
    NoDuplicates next := by
  cases action
  case checkState service visits =>
    obtain ⟨snode, served, looped⟩ := checkState_run stepped
    exact invariant_of_throughout NoDuplicates _ (fun _ _ after _ good done => good after done)
      unique (stays snode served) looped
  all_goals exact stays next stepped

theorem start_orderly (types : List (BitVec 16)) : Orderly (start types) where
  consistent := start_consistent types
  unique := by
    intro snode inside
    obtain ⟨type, -, rfl⟩ := List.mem_map.mp inside
    exact .nil
  sorted := by
    intro snode inside
    obtain ⟨type, -, rfl⟩ := List.mem_map.mp inside
    exact nofun

end Steps

/-- The exact condition for the node table: a registration that connects finds no node with the
id 0 in the list of the router, and every address that is copied has room for its copy. -/
theorem node_table_lawful_iff (proto : Proto) (types : List (BitVec 16)) (actions : List Action)
    (taken : Throughout (step proto) (Taken proto) (start types) actions) :
    Throughout (step proto) (Lawful proto) (start types) actions ↔
      Throughout (step proto) (RegistersOnce proto) (start types) actions ∧
        Throughout (step proto) (AddressesFit proto) (start types) actions := by
  rw [← throughout_and]
  apply throughout_congr_of_admitted Orderly (Taken proto) ?_ ?_ (start_orderly types) taken
  · intro before action after orderly lawful stepped
    exact ⟨step_consistent orderly.consistent stepped,
      unique_of_staysUnique orderly.unique lawful.2.1 stepped, lawful.2.2.1 after stepped⟩
  · exact fun before action orderly here => lawful_iff orderly here

instance (sys : Sys) : Decidable (NoDuplicates sys) :=
  inferInstanceAs (Decidable (∀ snode ∈ sys.services, (snode.m_nodes.map Node.m_id).Nodup))

/-- The program registers and a push lists another node of the router, whose connection fails.
Four reconnects fail, and the node is given up. -/
def givenUpBesideRouter : List Action :=
  [.registReq (freshFd 5),
    .srvinfoBroadcast (withBody [8, 1, 16, 7, 24, 1]) fun _ => freshFd 6,
    .read 1 ⟨[.failed .other], fun _ => ⟨⟨true, fun _ => 0⟩, 0⟩, 0⟩ ⟨true, fun _ => 0⟩] ++
    List.replicate 4 (.checkState 0 fun _ => freshFd (-1)) ++ [.checkState 0 fun _ => freshFd 7]

/-- The registration that follows puts a second node with the id 0 into the list. -/
theorem registered_twice : ∃ sys,
    run (step smallMessages) (start [1]) givenUpBesideRouter = some sys ∧ ¬NoDuplicates sys := by
  have ends : (run (step smallMessages) (start [1]) givenUpBesideRouter).map
      (fun sys => decide (NoDuplicates sys)) = some false := by decide +kernel
  obtain ⟨sys, reached, unique⟩ := Option.map_eq_some_iff.mp ends
  exact ⟨sys, reached, of_decide_eq_false unique⟩

theorem node_table_lawful_iff_beside_router :
    Throughout (step smallMessages) (Lawful smallMessages) (start [1]) givenUpBesideRouter ↔
      Throughout (step smallMessages) (RegistersOnce smallMessages) (start [1])
          givenUpBesideRouter ∧
        Throughout (step smallMessages) (AddressesFit smallMessages) (start [1])
          givenUpBesideRouter := by
  have returns : (run (step smallMessages) (start [1]) givenUpBesideRouter).isSome := by
    decide +kernel
  obtain ⟨sys, reached⟩ := Option.isSome_iff_exists.mp returns
  have taken : Throughout (step smallMessages) (Taken smallMessages) (start [1])
      givenUpBesideRouter :=
    throughout_of_reached (fun _ _ next stepped _ => ⟨next, stepped⟩) reached
  exact node_table_lawful_iff smallMessages [1] givenUpBesideRouter taken

end SNFrame.System.NodeTable
