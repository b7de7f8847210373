import SNFrame.System.Evolution
import SNFrame.System.Failures

/-! The retry budget of a node: four connects for each outage. `needReconnect` counts the passes,
and `setState` starts the counter again when the node leaves NODE_AUTH, whether it has become able
or is lost once more. -/

namespace SNFrame.System.Retry
open Library.Transition Library.Table Base.PbBuf Core.Receiving Core.NetManager Core.NodeMgr
open Tables Turns Supervision Evolution Arming Failures

/-! ### The connects of checkState -/

/-- The loop body of `checkState`, with the nodes for which `connect` has been called. -/
def checkNodeTried (proto : Proto) (sid : BitVec 16) (visits : Nat → Visit)
    (state : Sys × List Nat) (addr : Nat) : Option (Sys × List Nat) := do
  let node ← state.1.derefNode addr
  if node.m_state = .NODE_ERROR ∨ node.m_state = .NODE_CLOSED then
    let counted := node.needReconnect
    let sys := state.1.assignNode addr fun node => node.needReconnect.2
    if counted.1 then
      (sys.reconnect proto (visits addr) sid counted.2).map fun next => (next, state.2 ++ [addr])
    else (sys.giveUp proto (visits addr) sid counted.2).map fun next => (next, state.2)
  else some state

def checkStateTried (proto : Proto) (sys : Sys) (service : Nat) (visits : Nat → Visit) :
    Option (Sys × List Nat) := do
  let snode ← sys.services[service]?
  (snode.m_nodes.map Node.addr).foldlM (checkNodeTried proto snode.m_sid visits) (sys, [])

/-- A step, with the nodes for which its pass of `checkState` called `connect`. -/
def stepTried (proto : Proto) (sys : Sys) : Action → Option (Sys × List Nat)
  | .checkState service visits => checkStateTried proto sys service visits
  | action => (step proto sys action).map fun next => (next, [])

section Erasure
variable {proto : Proto} {sid : BitVec 16} {visits : Nat → Visit} {sys next : Sys}
  {tried : List Nat} {addr : Nat}

theorem map_pair_iff {A B : Type} {option : Option A} {first : A} {second value : B} :
    option.map (fun a => (a, value)) = some (first, second) ↔
      option = some first ∧ second = value := by
  cases option <;> simp [eq_comm]

/-- The log beside the loop body does not change what the body does. -/
theorem checkNodeTried_iff {after : List Nat} :
    checkNodeTried proto sid visits (sys, tried) addr = some (next, after) ↔
      sys.checkNode proto sid visits addr = some next ∧ ∃ node, sys.derefNode addr = some node ∧
        after = if Attempts node then tried ++ [addr] else tried := by
  cases found : sys.derefNode addr with
  | none => simp [checkNodeTried, Sys.checkNode, found]
  | some node =>
    simp only [checkNodeTried, Sys.checkNode, found, Option.bind_eq_bind, Option.bind_some,
      Option.some.injEq, exists_eq_left']
    by_cases lost : node.m_state = .NODE_ERROR ∨ node.m_state = .NODE_CLOSED
    · have inOutage : Lost node.m_state := lost
      by_cases again : node.needReconnect.1 = true
      · rw [if_pos lost, if_pos lost, if_pos again, if_pos again, if_pos ⟨inOutage, again⟩]
        exact map_pair_iff
      · rw [if_pos lost, if_pos lost, if_neg again, if_neg again, if_neg fun both => again both.2]
        exact map_pair_iff
    · rw [if_neg lost, if_neg lost, if_neg fun both => lost both.1, Option.some.injEq,
        Option.some.injEq, Prod.mk.injEq, eq_comm (a := tried)]

theorem checkNodeTried_fst (tried : List Nat) :
    (checkNodeTried proto sid visits (sys, tried) addr).map Prod.fst =
      sys.checkNode proto sid visits addr := by
  apply Option.ext
  intro after
  rw [Option.map_eq_some_iff]
  constructor
  · rintro ⟨⟨next, log⟩, done, rfl⟩
    exact (checkNodeTried_iff.mp done).1
  · intro done
    obtain ⟨node, found, -⟩ := Option.bind_eq_some_iff.mp done
    exact ⟨_, checkNodeTried_iff.mpr ⟨done, node, found, rfl⟩, rfl⟩

theorem run_tried_fst (places : List Nat) :
    (run (checkNodeTried proto sid visits) (sys, tried) places).map Prod.fst =
      run (Sys.checkNode proto sid visits) sys places := by
  induction places generalizing sys tried with
  | nil => rfl
  | cons place places ih =>
    rw [run, run, ← checkNodeTried_fst tried, Option.map_bind, Option.bind_map]
    congr 1
    funext state
    exact ih

/-- The log beside the step does not change what the step does. -/
theorem stepTried_fst (action : Action) :
    (stepTried proto sys action).map Prod.fst = step proto sys action := by
  cases action with
  | checkState service visits =>
    simp only [stepTried, checkStateTried, step, Sys.checkState, foldlM_eq_run,
      Option.bind_eq_bind, Option.map_bind]
    congr 1
    funext snode
    exact run_tried_fst _
  | _ => simp [stepTried, Option.map_map, Function.comp_def]

end Erasure

/-! ### One pass -/

section Nodes
variable {proto : Proto} {sys next : Sys} {table : Nat → Option Node} {place : Nat}

section Visits
variable {visits : Nat → Visit} {sid : BitVec 16} {node : Node}

/-- The visits of other nodes make no attempt for this one. -/
theorem run_other {places tried after : List Nat} (absent : place ∉ places)
    (placed : Placed sys table)
    (looped : run (checkNodeTried proto sid visits) (sys, tried) places = some (next, after)) :
    ∃ last, Later sys.nextNode next last ∧ Arrives sys.nextNode place (table place) (last place) ∧
      after.count place = tried.count place := by
  refine invariant_of_throughout (fun state : Sys × List Nat => ∃ last,
      Later sys.nextNode state.1 last ∧ Arrives sys.nextNode place (table place) (last place) ∧
        state.2.count place = tried.count place)
    (fun _ other => other ≠ place) ?_ ⟨table, ⟨placed, le_rfl⟩, .inl rfl, rfl⟩ ?_ looped
  · rintro ⟨before, log⟩ other ⟨later, longer⟩ ⟨middle, here, arrived, counts⟩ differs visited
    obtain ⟨done, node, -, logged⟩ := checkNodeTried_iff.mp visited
    obtain ⟨last, there, arrives⟩ := checkNode_other here.placed differs here.grows arrived done
    refine ⟨last, ⟨there.placed, here.grows.trans there.grows⟩, arrives, ?_⟩
    change longer.count place = _
    rw [logged]
    split_ifs
    · rw [List.count_append, List.count_singleton, beq_false_of_ne differs]
      simpa using counts
    · exact counts
  · apply throughout_of_mem
    rintro state other inside rfl
    exact absent inside

/-- A pass over the service of the node visits it once. -/
theorem checkState_own (placed : Placed sys table) (here : table place = some node)
    {service : Nat} {snode : ServiceNode} (served : sys.services[service]? = some snode)
    (member : node ∈ snode.m_nodes) {tried : List Nat}
    (done : checkStateTried proto sys service visits = some (next, tried)) :
    ∃ after, Placed next after ∧
      Visited (0 < (visits place).fds 0) node (after place) (tried.count place) := by
  have part := sublist_nodesOf (List.mem_of_getElem? served)
  have own : place = node.addr := (placed.mem_of_node here).2.symm
  have distinct : (snode.m_nodes.map Node.addr).Nodup := (part.map Node.addr).nodup placed.addrs
  obtain ⟨first, last, split, notFirst, notLast⟩ :=
    split_of_nodup distinct (List.mem_map_of_mem member)
  rw [← own] at split notFirst notLast
  simp only [checkStateTried, served, Option.bind_eq_bind, Option.bind_some, foldlM_eq_run, split,
    run_append, run_cons] at done
  obtain ⟨⟨before, log⟩, early, ⟨after, longer⟩, visit, late⟩ := done
  obtain ⟨arrived, there, arrives, counts⟩ := run_other notFirst placed early
  have below : place < sys.nextNode := placed.lt_next here
  have still : arrived place = some node := (arrives.same below).trans here
  obtain ⟨visited, found, pointed, logged⟩ := checkNodeTried_iff.mp visit
  rw [there.placed.nodes, still] at pointed
  cases pointed
  obtain ⟨left, afterwards, result⟩ := checkNode_own there.placed still visited
  obtain ⟨final, ended, leaves, same⟩ := run_other notLast afterwards.placed late
  have stays : final place = left place :=
    leaves.same (below.trans_le (there.grows.trans afterwards.grows))
  refine ⟨final, ended.placed, ?_⟩
  have count : tried.count place = if Attempts node then 1 else 0 := by
    rw [same, logged]
    split_ifs
    · rw [List.count_append, counts, List.count_singleton_self, List.count_nil]
    · exact counts
  rw [stays, count]
  exact result

/-- A pass over another service, or one without this node, makes no attempt for it. -/
theorem checkState_other (placed : Placed sys table) {service : Nat} {snode : ServiceNode}
    (served : sys.services[service]? = some snode)
    (absent : ∀ node ∈ snode.m_nodes, table place ≠ some node) {tried : List Nat}
    (done : checkStateTried proto sys service visits = some (next, tried)) :
    ∃ after, Later sys.nextNode next after ∧
      Arrives sys.nextNode place (table place) (after place) ∧ tried.count place = 0 := by
  have notListed : place ∉ snode.m_nodes.map Node.addr := by
    rintro listed
    obtain ⟨node, member, rfl⟩ := List.mem_map.mp listed
    have inside := (sublist_nodesOf (List.mem_of_getElem? served)).subset member
    exact absent node member (placed.node_of_mem inside)
  simp only [checkStateTried, served, Option.bind_eq_bind, Option.bind_some,
    foldlM_eq_run] at done
  exact run_other notListed placed done

end Visits

/-! ### The steps -/

/-- The step is a pass over the service of the node. -/
def Passes (sys : Sys) (action : Action) (node : Node) : Prop :=
  ∃ service visits snode, action = .checkState service visits ∧
    sys.services[service]? = some snode ∧ node ∈ snode.m_nodes

/-- The connect that a pass makes for the node at that place succeeds. -/
def Connects (place : Nat) : Action → Prop
  | .checkState _ visits => 0 < (visits place).fds 0
  | _ => False

/-- A step visits the node in a pass, or only does what other steps do to it. -/
theorem stepTried_cases (placed : Placed sys table) (place : Nat) {action : Action}
    {tried : List Nat} (stepped : stepTried proto sys action = some (next, tried)) :
    ∃ after, Placed next after ∧ ((∃ node, table place = some node ∧ Passes sys action node ∧
        Visited (Connects place action) node (after place) (tried.count place)) ∨
      (∀ node, table place = some node → ¬Passes sys action node) ∧
        Evolves (AnsweredInAuth proto place sys action) (table place) (after place) ∧
        tried.count place = 0) := by
  by_cases pass : ∃ service visits, action = .checkState service visits
  · obtain ⟨service, visits, rfl⟩ := pass
    obtain ⟨snode, served, -⟩ := Option.bind_eq_some_iff.mp stepped
    by_cases member : ∃ node ∈ snode.m_nodes, table place = some node
    · obtain ⟨node, inside, here⟩ := member
      obtain ⟨after, afterPlaced, visited⟩ := checkState_own placed here served inside stepped
      exact ⟨after, afterPlaced,
        .inl ⟨node, here, ⟨service, visits, snode, rfl, served, inside⟩, visited⟩⟩
    · obtain ⟨after, afterPlaced, arrives, none_tried⟩ := checkState_other placed served
        (fun node inside here => member ⟨node, inside, here⟩) stepped
      refine ⟨after, afterPlaced.placed, .inr ⟨?_, arrives.evolves, none_tried⟩⟩
      rintro node here ⟨_, _, other, ⟨⟩, found, inside⟩
      cases served.symm.trans found
      exact member ⟨node, inside, here⟩
  · have plain :
        stepTried proto sys action = (step proto sys action).map fun next => (next, []) := by
      cases action <;> first | rfl | exact absurd ⟨_, _, rfl⟩ pass
    rw [plain] at stepped
    obtain ⟨done, rfl⟩ := map_pair_iff.mp stepped
    obtain ⟨after, afterPlaced, evolves⟩ :=
      step_evolves placed (fun service visits same => pass ⟨service, visits, same⟩) done
    refine ⟨after, afterPlaced, .inr ⟨?_, evolves, rfl⟩⟩
    rintro node here ⟨service, visits, snode, same, -⟩
    exact pass ⟨service, visits, same⟩

/-! ### The runs -/

/-- The node at that place is in an outage. -/
def lostAt (sys : Sys) (place : Nat) : Bool :=
  (sys.derefNode place).any fun node => Lost node.m_state

/-- A step beside the number of attempts for that node in its present outage. -/
def traced (proto : Proto) (place : Nat) (state : Sys × Nat) (action : Action) :
    Option (Sys × Nat) :=
  (stepTried proto state.1 action).map fun after =>
    (after.1, if lostAt after.1 place then state.2 + after.2.count place else 0)

/-- The counter of the node counts the attempts of its outage, and is cleared before the next. -/
structure Within (node : Node) (tries : Nat) : Prop where
  counted : Lost node.m_state → node.m_num = tries ∧ tries ≤ 4
  untried : ¬Lost node.m_state → tries = 0
  cleared : ¬Lost node.m_state → node.m_state ≠ .NODE_AUTH → node.m_num = 0

/-- The invariant of the runs, for the node at that place. -/
def Budget (place : Nat) (state : Sys × Nat) : Prop :=
  ∃ table, Placed state.1 table ∧
    ∀ node, table place = some node → node.m_persist = true → Within node state.2

theorem within_alive {node : Node} (alive : ¬Lost node.m_state)
    (cleared : node.m_state ≠ .NODE_AUTH → node.m_num = 0) (tries : Nat) :
    Within node (if Lost node.m_state then tries else 0) := by
  rw [if_neg alive]
  exact ⟨fun lost => absurd lost alive, fun _ => rfl, fun _ => cleared⟩

theorem within_lost {node : Node} {tries : Nat} (lost : Lost node.m_state)
    (counted : node.m_num = tries) (few : tries ≤ 4) :
    Within node (if Lost node.m_state then tries else 0) := by
  rw [if_pos lost]
  exact ⟨fun _ => ⟨counted, few⟩, fun alive => absurd lost alive, fun alive => absurd lost alive⟩

/-- The counter of a node that is lost, from whatever state. -/
theorem Within.setState {node : Node} {tries : Nat} (within : Within node tries)
    (state : NodeState) : (node.setState state).m_num = tries ∧ tries ≤ 4 := by
  by_cases lost : Lost node.m_state
  · have unasked : node.m_state ≠ .NODE_AUTH := by
      intro same
      rw [same] at lost
      exact absurd lost (by decide)
    rw [Node.setState, if_neg unasked]
    exact within.counted lost
  · rw [within.untried lost, Node.setState]
    refine ⟨?_, Nat.zero_le _⟩
    by_cases waits : node.m_state = .NODE_AUTH
    · exact if_pos waits
    · exact (if_neg waits).trans (within.cleared lost waits)

theorem within_of_evolves {allowed : Prop} {before : Option Node} {tries : Nat} {node : Node}
    (allows : allowed) (evolves : Evolves allowed before (some node))
    (kept : ∀ old, before = some old → old.m_persist = true → Within old tries)
    (persistent : node.m_persist = true) :
    Within node (if Lost node.m_state then tries else 0) := by
  cases evolves with
  | same =>
    have within := kept node rfl persistent
    by_cases lost : Lost node.m_state
    · exact within_lost lost (within.counted lost).1 (within.counted lost).2
    · exact within_alive lost (within.cleared lost) tries
  | lost old state =>
    obtain ⟨counted, few⟩ := (kept old rfl persistent).setState (nodeStateOf state)
    exact within_lost (lost_nodeStateOf state) counted few
  | able waited =>
    refine within_alive (by exact (by decide : ¬Lost .NODE_ABLE)) (fun _ => ?_) tries
    rw [Node.setState, if_pos (waited allows)]
  | created waits =>
    have asked := waits persistent
    exact within_alive (by rw [asked]; decide) (fun other => absurd asked other) tries

theorem within_of_visited {connects : Prop} {before node : Node} {tries attempts : Nat}
    (visited : Visited connects before (some node) attempts) (kept : Within before tries) :
    Within node (if Lost node.m_state then tries + attempts else 0) := by
  cases visited with
  | spared alive => exact within_alive alive (kept.cleared alive) _
  | refused lost few =>
    obtain ⟨counted, -⟩ := kept.counted lost
    exact @within_lost { before with m_num := before.m_num + 1 } _ lost
      (by rw [← counted]) (by omega)
  | resumed lost few connected addr =>
    exact within_alive (by exact (by decide : ¬Lost .NODE_AUTH)) (fun other => absurd rfl other) _

theorem persist_of_visited {connects : Prop} {before node : Node} {attempts : Nat}
    (visited : Visited connects before (some node) attempts) :
    node.m_persist = before.m_persist := by
  cases visited <;> rfl

theorem traced_budget {state after : Sys × Nat} {action : Action} (budget : Budget place state)
    (allows : AnsweredInAuth proto place state.1 action)
    (stepped : traced proto place state action = some after) : Budget place after := by
  obtain ⟨table, placed, kept⟩ := budget
  obtain ⟨⟨next, tried⟩, done, rfl⟩ := Option.map_eq_some_iff.mp stepped
  obtain ⟨last, nextPlaced, cases⟩ := stepTried_cases placed place done
  refine ⟨last, nextPlaced, ?_⟩
  intro node there persistent
  have lost : lostAt next place = decide (Lost node.m_state) := by
    rw [lostAt, nextPlaced.nodes, there, Option.any_some]
  simp only [lost, decide_eq_true_eq]
  rw [there] at cases
  rcases cases with ⟨before, here, -, visited⟩ | ⟨-, evolves, none_tried⟩
  · exact within_of_visited visited (kept before here (persist_of_visited visited ▸ persistent))
  · rw [none_tried]
    exact within_of_evolves allows evolves kept persistent

/-- The visit of a node within its budget. -/
theorem visited_spec {connects passes : Prop} {node : Node} {after : Option Node}
    {tries attempts : Nat} (visited : Visited connects node after attempts)
    (within : Within node tries) (persistent : node.m_persist = true) (passed : passes) :
    attempts ≤ 1 ∧ (0 < attempts ↔ passes ∧ Lost node.m_state ∧ tries < 4) ∧
      (after = none ↔ passes ∧ Lost node.m_state ∧ tries = 4) ∧
      (0 < attempts → ∃ left, after = some left ∧
        (connects ∧ left.m_state = .NODE_AUTH ∨ ¬connects ∧ left.m_state = node.m_state)) := by
  cases visited with
  | spared alive =>
    exact ⟨Nat.zero_le _, iff_of_false (lt_irrefl _) fun all => alive all.2.1,
      iff_of_false nofun fun all => alive all.2.1, fun none_made => absurd none_made (lt_irrefl _)⟩
  | refused lost few refused =>
    obtain ⟨counted, -⟩ := within.counted lost
    exact ⟨le_rfl, iff_of_true Nat.one_pos ⟨passed, lost, by omega⟩,
      iff_of_false nofun fun all => by omega, fun _ => ⟨_, rfl, .inr ⟨refused, rfl⟩⟩⟩
  | resumed lost few connected addr =>
    obtain ⟨counted, -⟩ := within.counted lost
    exact ⟨le_rfl, iff_of_true Nat.one_pos ⟨passed, lost, by omega⟩,
      iff_of_false nofun fun all => by omega, fun _ => ⟨_, rfl, .inl ⟨connected, rfl⟩⟩⟩
  | erased lost spent =>
    obtain ⟨counted, few⟩ := within.counted lost
    have many := spent persistent
    exact ⟨Nat.zero_le _, iff_of_false (lt_irrefl _) fun all => by omega,
      iff_of_true rfl ⟨passed, lost, by omega⟩, fun none_made => absurd none_made (lt_irrefl _)⟩

theorem start_budget (place : Nat) (types : List (BitVec 16)) : Budget place (start types, 0) := by
  refine ⟨_, (start_reads types).placed, ?_⟩
  intro node here
  exact nomatch here

/-- In every outage of a node that reconnects, the passes of `checkState` make at most four
attempts, one each, and the node is erased in the pass after four that have failed. The attempts
are counted from the beginning of the outage, whatever there was before. -/
theorem retry_budget (proto : Proto) (types : List (BitVec 16)) (place : Nat)
    (actions : List Action) {sys : Sys} {tries : Nat}
    (reached : run (traced proto place) (start types, 0) actions = some (sys, tries))
    (answered : Throughout (traced proto place) (fun state => AnsweredInAuth proto place state.1)
      (start types, 0) actions) {node : Node} (here : sys.derefNode place = some node)
    (persistent : node.m_persist = true) :
    tries ≤ 4 ∧ (¬Lost node.m_state → tries = 0) ∧
    ∀ action next tried, stepTried proto sys action = some (next, tried) →
      tried.count place ≤ 1 ∧
      (place ∈ tried ↔ Passes sys action node ∧ Lost node.m_state ∧ tries < 4) ∧
      (next.derefNode place = none ↔ Passes sys action node ∧ Lost node.m_state ∧ tries = 4) ∧
      (place ∈ tried → ∃ after, next.derefNode place = some after ∧
        (Connects place action ∧ after.m_state = .NODE_AUTH ∨
          ¬Connects place action ∧ after.m_state = node.m_state)) := by
  obtain ⟨table, placed, kept⟩ := invariant_of_throughout (Budget place) _
    (fun _ _ _ budget allows stepped => traced_budget budget allows stepped)
    (start_budget place types) answered reached
  rw [placed.nodes] at here
  have within : Within node tries := kept node here persistent
  have few : tries ≤ 4 := by
    by_cases lost : Lost node.m_state
    · exact (within.counted lost).2
    · rw [within.untried lost]
      exact Nat.zero_le _
  refine ⟨few, within.untried, ?_⟩
  intro action next tried stepped
  obtain ⟨last, nextPlaced, cases⟩ := stepTried_cases placed place stepped
  rw [nextPlaced.nodes, ← List.count_pos_iff]
  rw [here] at cases
  rcases cases with ⟨before, ⟨⟩, passes, visited⟩ | ⟨passesNot, evolves, none_tried⟩
  · exact visited_spec visited within persistent passes
  · have stays : last place ≠ none := by
      intro gone
      rw [gone] at evolves
      cases evolves
    rw [none_tried]
    have passes := passesNot node rfl
    exact ⟨Nat.zero_le _, iff_of_false (lt_irrefl _) fun all => passes all.1,
      iff_of_false stays fun all => passes all.1, fun none_there => absurd none_there (lt_irrefl _)⟩

end Nodes

/-- A database server is announced, its connection fails, and a first attempt fails. -/
def onceTried : List Action :=
  [.srvinfoBroadcast (withBody [8, 1, 16, 7, 24, 3]) fun _ => freshFd 5,
    .read 0 failingRead ⟨true, fun _ => 0⟩,
    .checkState 0 fun _ => freshFd 0]

/-- The next pass makes the second attempt, and keeps the node. -/
theorem retry_budget_second_attempt : ∃ sys next tried,
    run (traced smallMessages 0) (start [3], 0) onceTried = some (sys, 1) ∧
      stepTried smallMessages sys (.checkState 0 fun _ => freshFd 6) = some (next, tried) ∧
      tried.count 0 ≤ 1 ∧ next.derefNode 0 ≠ none := by
  have runs : ((run (traced smallMessages 0) (start [3], 0) onceTried).bind fun state =>
      (state.1.derefNode 0).bind fun node =>
        (stepTried smallMessages state.1 (.checkState 0 fun _ => freshFd 6)).map fun _ =>
          (state.2, node.m_persist)) = some (1, true) := by decide +kernel
  obtain ⟨⟨sys, tries⟩, reached, runs⟩ := Option.bind_eq_some_iff.mp runs
  obtain ⟨node, here, runs⟩ := Option.bind_eq_some_iff.mp runs
  obtain ⟨⟨next, tried⟩, stepped, same⟩ := Option.map_eq_some_iff.mp runs
  obtain ⟨rfl, persistent⟩ := Prod.mk.inj same
  have answered : Throughout (traced smallMessages 0)
      (fun state => AnsweredInAuth smallMessages 0 state.1) (start [3], 0) onceTried := by
    apply throughout_of_mem
    intro state action inside
    simp only [onceTried, List.mem_cons, List.not_mem_nil, or_false] at inside
    rcases inside with rfl | rfl | rfl <;> exact trivial
  obtain ⟨-, -, budget⟩ := retry_budget smallMessages [3] 0 onceTried reached answered here
    persistent
  obtain ⟨once, -, erased, -⟩ := budget _ next tried stepped
  exact ⟨sys, next, tried, reached, stepped, once, fun gone => nomatch (erased.mp gone).2.2⟩

end SNFrame.System.Retry
