import SNFrame.Core.Heartbeat
import SNFrame.System.Arming

/-! The heartbeats over the calls of the timer. The first call of `heartBeat` takes the counter
from 0 to 1, and 1 is where it stays: the early return does not count. -/

namespace SNFrame.System.Schedule
open Library.Transition Base.PbBuf Base.Checksum Core.Sending Core.NetManager Core.Heartbeat
open Ownership Tables Simulation Supervision
open Core.NodeMgr hiding step

/-! ### The calls that are due a heartbeat -/

/-- Of so many calls, counted from 0, every 300th. -/
def due (calls : Nat) : List Nat := (List.range calls).filter (300 ∣ ·)

theorem due_succ (calls : Nat) :
    due (calls + 1) = due calls ++ if 300 ∣ calls then [calls] else [] := by
  rw [due, List.range_succ, List.filter_append, List.filter_singleton, Bool.cond_decide]
  rfl

theorem due_eq (calls : Nat) :
    due calls = (List.range ((calls + 299) / 300)).map (300 * ·) := by
  induction calls with
  | zero => rfl
  | succ calls ih =>
    rw [due_succ, ih]
    split_ifs with multiple
    · obtain ⟨count, rfl⟩ := multiple
      rw [show (300 * count + 299) / 300 = count by omega,
        show (300 * count + 1 + 299) / 300 = count + 1 by omega, List.range_succ, List.map_append]
      rfl
    · rw [List.append_nil, show (calls + 1 + 299) / 300 = (calls + 299) / 300 by omega]

theorem due_length (calls : Nat) : (due calls).length = (calls + 299) / 300 := by
  rw [due_eq, List.length_map, List.length_range]

theorem nil_eq_due {calls : Nat} : [] = due calls ↔ calls = 0 := by
  rw [eq_comm, ← List.length_eq_zero_iff, due_length]
  omega

theorem single_eq_due {calls : Nat} (called : 0 < calls) : [0] = due calls ↔ calls ≤ 300 := by
  constructor
  · intro same
    have length := due_length calls
    rw [← same, List.length_singleton] at length
    omega
  · intro few
    rw [due_eq, show (calls + 299) / 300 = 1 by omega]
    rfl

/-! ### The heartbeats of one round -/

/-- The calls that queued a heartbeat for this node. -/
def beatsOf (beats : List Beat) (place : Nat) : List Nat :=
  (beats.filter (·.node = place)).map Beat.tick

/-- What `heartBeat` queues for one node. -/
def beatOf (heaps : Nat → Heap) (tick : Nat) (node : Node) : List Beat :=
  if node.m_state = .NODE_ABLE ∧ (heaps node.addr).malloc = true then
    node.m_context.toList.map (⟨tick, node.addr, ·⟩)
  else []

theorem node_of_beatOf {heaps : Nat → Heap} {tick : Nat} {node : Node} {beat : Beat}
    (inside : beat ∈ beatOf heaps tick node) : beat.node = node.addr := by
  unfold beatOf at inside
  split_ifs at inside
  · obtain ⟨context, -, rfl⟩ := List.mem_map.mp inside
    rfl
  · cases inside

theorem beatsOf_append (first rest : List Beat) (place : Nat) :
    beatsOf (first ++ rest) place = beatsOf first place ++ beatsOf rest place := by
  rw [beatsOf, List.filter_append, List.map_append]
  rfl

/-- Nodes at other places have no part in the heartbeats of this one. -/
theorem beatsOf_absent (heaps : Nat → Heap) (tick : Nat) {nodes : List Node} {place : Nat}
    (absent : ∀ node ∈ nodes, node.addr ≠ place) :
    beatsOf (nodes.flatMap (beatOf heaps tick)) place = [] := by
  rw [beatsOf, List.map_eq_nil_iff, List.filter_eq_nil_iff]
  intro beat inside
  obtain ⟨node, listed, queued⟩ := List.mem_flatMap.mp inside
  rw [node_of_beatOf queued, decide_eq_true_eq]
  exact absent node listed

theorem beatsOf_beatOf (heaps : Nat → Heap) (tick : Nat) {node : Node}
    (able : node.m_state = .NODE_ABLE) (linked : node.m_context ≠ none) :
    beatsOf (beatOf heaps tick node) node.addr =
      if (heaps node.addr).malloc = true then [tick] else [] := by
  obtain ⟨context, link⟩ := Option.ne_none_iff_exists'.mp linked
  rw [beatOf, link]
  simp only [able, true_and]
  split_ifs
  · simp [beatsOf]
  · rfl

theorem beatsOf_present (heaps : Nat → Heap) (tick : Nat) {nodes : List Node} {node : Node}
    (distinct : (nodes.map Node.addr).Nodup) (inside : node ∈ nodes)
    (able : node.m_state = .NODE_ABLE) (linked : node.m_context ≠ none) :
    beatsOf (nodes.flatMap (beatOf heaps tick)) node.addr =
      if (heaps node.addr).malloc = true then [tick] else [] := by
  obtain ⟨before, after, rfl⟩ := List.append_of_mem inside
  rw [List.map_append, List.map_cons, List.nodup_middle, List.nodup_cons,
    List.mem_append] at distinct
  have others : ∀ other ∈ before ++ after, other.addr ≠ node.addr := by
    intro other listed same
    apply distinct.1
    rw [← same]
    exact (List.mem_append.mp listed).imp List.mem_map_of_mem List.mem_map_of_mem
  have front := beatsOf_absent heaps tick fun other listed =>
    others other (List.mem_append_left _ listed)
  have back := beatsOf_absent heaps tick fun other listed =>
    others other (List.mem_append_right _ listed)
  calc
    _ = beatsOf (before.flatMap (beatOf heaps tick)) node.addr ++
        (beatsOf (beatOf heaps tick node) node.addr ++
          beatsOf (after.flatMap (beatOf heaps tick)) node.addr) := by
      rw [List.flatMap_append, List.flatMap_cons, beatsOf_append, beatsOf_append]
    _ = beatsOf (beatOf heaps tick node) node.addr := by
      rw [front, back, List.nil_append, List.append_nil]
    _ = _ := beatsOf_beatOf heaps tick able linked

section Rounds
variable (proto : HeartbeatProto) (heaps : Nat → Heap) {clock next : Clock}

/-- The heartbeats leave all but the connection table and their log alone. -/
structure Beaten (clock next : Clock) (beats : List Beat) : Prop where
  services : next.sys.services = clock.sys.services
  consistent : Consistent next.sys
  loop : next.loop = clock.loop
  ticks : next.ticks = clock.ticks
  beats : next.beats = clock.beats ++ beats

theorem Beaten.refl (consistent : Consistent clock.sys) : Beaten clock clock [] :=
  ⟨rfl, consistent, rfl, rfl, (List.append_nil _).symm⟩

theorem Beaten.trans {middle : Clock} {first rest : List Beat} (left : Beaten clock middle first)
    (right : Beaten middle next rest) : Beaten clock next (first ++ rest) where
  services := right.services.trans left.services
  consistent := right.consistent
  loop := right.loop.trans left.loop
  ticks := right.ticks.trans left.ticks
  beats := by rw [right.beats, left.beats, List.append_assoc]

/-- With memory the heartbeat is queued last on the connection, and without it nothing happens. -/
theorem sendBeat_spec {objects : Objects} (reads : Reads clock.sys objects) {context : Nat}
    {owned : Owned} (here : objects.conns context = some owned) (heap : Heap) (node : Nat) :
    (heap.malloc = false ∧ sendBeat proto heap clock node context = some clock) ∨
      heap.malloc = true ∧ ∃ msg net, heartbeat proto heap owned.conn.nid = some msg ∧
        sendBeat proto heap clock node context = some { clock with
          sys := { clock.sys with net := net }
          beats := clock.beats ++ [⟨clock.ticks, node, context⟩] } ∧
        Reads { clock.sys with net := net }
          (objects.setConn context (some (owned.sent (· = .STATE_CONNECTED) msg))) := by
  rw [sendBeat, reads.net.deref here, Option.bind_eq_bind, Option.bind_some]
  cases memory : heap.malloc with
  | false => exact .inl ⟨rfl, by simp [heartbeat, init, memory]⟩
  | true =>
    have built : heartbeat proto heap owned.conn.nid =
        some (heartBeatMsg heap proto.SID_OTHER proto.CID_OTHER_HEARTBEAT owned.conn.nid) := by
      simp [heartbeat, init, memory]
    obtain ⟨net, sent, shown⟩ := sendSock_shows reads.net here
      (heartBeatMsg heap proto.SID_OTHER proto.CID_OTHER_HEARTBEAT owned.conn.nid)
    refine .inr ⟨rfl, _, net, built, ?_, reads.withNet shown⟩
    simp only [built, sent, Option.bind_eq_bind, Option.bind_some, if_pos]

theorem beatNode_spec (consistent : Consistent clock.sys) {node : Node}
    (inside : node ∈ nodesOf clock.sys.services) :
    ∃ next, beatNode proto heaps clock node = some next ∧
      Beaten clock next (beatOf heaps clock.ticks node) := by
  obtain ⟨objects, reads, linked⟩ := consistent
  unfold beatNode beatOf
  by_cases able : node.m_state = .NODE_ABLE
  · cases link : node.m_context with
    | none => exact ⟨clock, by simp [able], by simpa using .refl ⟨objects, reads, linked⟩⟩
    | some context =>
      obtain ⟨owned, here, -⟩ := linked.live (reads.node_of_mem inside) link
      rcases sendBeat_spec proto reads here (heaps node.addr) node.addr with
        ⟨memory, sent⟩ | ⟨memory, msg, net, -, sent, after⟩
      · refine ⟨clock, (if_pos able).trans sent, ?_⟩
        simpa [memory] using .refl ⟨objects, reads, linked⟩
      · refine ⟨_, (if_pos able).trans sent, ?_⟩
        simp only [able, memory, and_self, if_true, Option.toList_some, List.map_cons, List.map_nil]
        exact ⟨rfl, ⟨_, after, linked_changed linked here (sent_flag ..)⟩, rfl, rfl, rfl⟩
  · exact ⟨clock, if_neg able, by simpa [able] using .refl ⟨objects, reads, linked⟩⟩

theorem beatNodes_spec (consistent : Consistent clock.sys) {nodes : List Node}
    (inside : ∀ node ∈ nodes, node ∈ nodesOf clock.sys.services) :
    ∃ next, nodes.foldlM (beatNode proto heaps) clock = some next ∧
      Beaten clock next (nodes.flatMap (beatOf heaps clock.ticks)) := by
  induction nodes generalizing clock with
  | nil => exact ⟨clock, rfl, .refl consistent⟩
  | cons node nodes ih =>
    obtain ⟨middle, visited, beaten⟩ :=
      beatNode_spec proto heaps consistent (inside node List.mem_cons_self)
    obtain ⟨next, rest, further⟩ := ih beaten.consistent fun other listed => by
      rw [beaten.services]
      exact inside other (List.mem_cons_of_mem _ listed)
    rw [beaten.ticks] at further
    refine ⟨next, ?_, beaten.trans further⟩
    rw [List.foldlM_cons, visited]
    exact rest

/-- The first call beats for its service. -/
theorem heartBeat_first (consistent : Consistent clock.sys) (fresh : clock.loop = 0) {service : Nat}
    (done : heartBeat proto heaps clock service = some next) :
    ∃ snode, clock.sys.services[service]? = some snode ∧
      next.loop = 1 ∧ next.ticks = clock.ticks ∧
      next.beats = clock.beats ++ snode.m_nodes.flatMap (beatOf heaps clock.ticks) := by
  rw [heartBeat, fresh, if_neg (by decide)] at done
  obtain ⟨snode, served, done⟩ := Option.bind_eq_some_iff.mp done
  obtain ⟨last, looped, ended⟩ := Option.bind_eq_some_iff.mp done
  obtain ⟨same, visited, beaten⟩ := beatNodes_spec proto heaps consistent
    fun node listed => (sublist_nodesOf (List.mem_of_getElem? served)).mem listed
  cases visited.symm.trans looped
  cases ended
  refine ⟨snode, served, ?_, beaten.ticks, beaten.beats⟩
  change last.loop + 1 = 1
  rw [beaten.loop, fresh]
  rfl

/-- Every other call returns at once. -/
theorem heartBeat_later (counted : clock.loop = 1) (service : Nat) :
    heartBeat proto heaps clock service = some clock := by
  rw [heartBeat, counted]
  rfl

end Rounds

/-! ### A node that stays able -/

/-- The node is in the list of this service, in NODE_ABLE and with a context. -/
def Able (service place : Nat) (sys : Sys) : Prop :=
  ∃ snode ∈ sys.services[service]?, ∃ node ∈ snode.m_nodes,
    node.addr = place ∧ node.m_state = .NODE_ABLE ∧ node.m_context ≠ none

instance (service place : Nat) (sys : Sys) : Decidable (Able service place sys) :=
  inferInstanceAs (Decidable (∃ snode ∈ sys.services[service]?, ∃ node ∈ snode.m_nodes,
    node.addr = place ∧ node.m_state = .NODE_ABLE ∧ node.m_context ≠ none))

/-- The node is able when a call of `cron` begins, and each time `checkState` has returned in it. -/
def StaysAble (proto : HeartbeatProto) (service place : Nat) (clock : Clock) : Event → Prop
  | .action _ => True
  | .cron around => Able service place clock.sys ∧
      Throughout (serve proto around) (fun clock visited =>
        ∀ sys ∈ clock.sys.checkState proto.toProto visited (around.visits visited),
          Able service place sys) clock (List.range clock.sys.services.length)

instance (proto : HeartbeatProto) (service place : Nat) (clock : Clock) :
    ∀ event, Decidable (StaysAble proto service place clock event)
  | .action _ => .isTrue trivial
  | .cron around => inferInstanceAs (Decidable (Able service place clock.sys ∧
      Throughout (serve proto around) (fun clock visited =>
        ∀ sys ∈ clock.sys.checkState proto.toProto visited (around.visits visited),
          Able service place sys) clock (List.range clock.sys.services.length)))

/-- No node stands in two services. -/
theorem apart_of_services {services : List ServiceNode}
    (distinct : ((nodesOf services).map Node.addr).Nodup) {left right : Nat}
    {first second : ServiceNode} (leftAt : services[left]? = some first)
    (rightAt : services[right]? = some second) (apart : left ≠ right) {node other : Node}
    (inside : node ∈ first.m_nodes) (listed : other ∈ second.m_nodes) :
    node.addr ≠ other.addr := by
  rw [nodesOf, List.map_flatMap, List.nodup_flatMap] at distinct
  obtain ⟨leftBound, rfl⟩ := List.getElem?_eq_some_iff.mp leftAt
  obtain ⟨rightBound, rfl⟩ := List.getElem?_eq_some_iff.mp rightAt
  have disjoint := List.pairwise_iff_getElem.mp distinct.2
  intro same
  have here := List.mem_map_of_mem (f := Node.addr) inside
  have there := List.mem_map_of_mem (f := Node.addr) listed
  rw [← same] at there
  rcases Nat.lt_or_gt_of_ne apart with before | after
  · exact disjoint left right leftBound rightBound before here there
  · exact disjoint right left rightBound leftBound after there here

section Calls
variable {proto : HeartbeatProto} {around : Around} {clock next : Clock}

/-- The first heartbeat reaches a node that is able if its service is the first. -/
theorem beatsOf_first {sys : Sys} (distinct : ((nodesOf sys.services).map Node.addr).Nodup)
    {snode : ServiceNode} (served : sys.services[0]? = some snode) {service place : Nat}
    (able : Able service place sys) (heaps : Nat → Heap) (tick : Nat) :
    beatsOf (snode.m_nodes.flatMap (beatOf heaps tick)) place =
      if service = 0 ∧ (heaps place).malloc = true then [tick] else [] := by
  obtain ⟨holder, held, node, inside, rfl, state, linked⟩ := able
  by_cases first : service = 0
  · subst first
    cases served.symm.trans held
    have within := (sublist_nodesOf (List.mem_of_getElem? served)).map Node.addr
    simp only [true_and]
    exact beatsOf_present heaps tick (distinct.sublist within) inside state linked
  · rw [if_neg fun both => first both.1]
    exact beatsOf_absent heaps tick fun other listed =>
      apart_of_services distinct served held (Ne.symm first) listed inside

/-- From the second call of `heartBeat` on, only the system moves. -/
theorem serve_later (counted : clock.loop = 1) {service : Nat}
    (done : serve proto around clock service = some next) :
    next.loop = 1 ∧ next.ticks = clock.ticks ∧ next.beats = clock.beats := by
  obtain ⟨sys, -, beat⟩ := Option.bind_eq_some_iff.mp done
  have returned : heartBeat proto around.heaps { clock with sys := sys } service = some _ :=
    heartBeat_later proto around.heaps (by exact counted) service
  cases returned.symm.trans beat
  exact ⟨counted, rfl, rfl⟩

theorem serves_later (counted : clock.loop = 1) {services : List Nat}
    (done : services.foldlM (serve proto around) clock = some next) :
    next.loop = 1 ∧ next.ticks = clock.ticks ∧ next.beats = clock.beats := by
  rw [foldlM_eq_run] at done
  apply run_invariant (fun state : Clock =>
    state.loop = 1 ∧ state.ticks = clock.ticks ∧ state.beats = clock.beats) ?_
    ⟨counted, rfl, rfl⟩ done
  rintro state service after ⟨loop, ticks, beats⟩ served
  obtain ⟨stays, sameTicks, sameBeats⟩ := serve_later loop served
  exact ⟨stays, sameTicks.trans ticks, sameBeats.trans beats⟩

theorem cron_later (counted : clock.loop = 1) (done : cron proto around clock = some next) :
    next.loop = 1 ∧ next.ticks = clock.ticks + 1 ∧ next.beats = clock.beats := by
  obtain ⟨last, served, ended⟩ := Option.bind_eq_some_iff.mp done
  obtain ⟨loop, ticks, beats⟩ := serves_later counted served
  cases ended
  exact ⟨loop, congrArg (· + 1) ticks, beats⟩

/-- The first call of `cron` queues a heartbeat for the nodes of the first service. -/
theorem cron_first (consistent : Consistent clock.sys) (fresh : clock.loop = 0)
    {service place : Nat} (able : StaysAble proto service place clock (.cron around))
    (done : cron proto around clock = some next) :
    next.loop = 1 ∧ next.ticks = clock.ticks + 1 ∧
      beatsOf next.beats place = beatsOf clock.beats place ++
        if service = 0 ∧ (around.heaps place).malloc = true then [clock.ticks] else [] := by
  obtain ⟨last, served, ended⟩ := Option.bind_eq_some_iff.mp done
  cases ended
  obtain ⟨⟨holder, held, -⟩, during⟩ := able
  have some_service : clock.sys.services.length ≠ 0 := by
    have bound := (List.getElem?_eq_some_iff.mp held).1
    omega
  obtain ⟨count, services⟩ := Nat.exists_eq_succ_of_ne_zero some_service
  rw [services, List.range_succ_eq_map] at during served
  obtain ⟨middle, visited, rest⟩ := Option.bind_eq_some_iff.mp served
  obtain ⟨sys, checked, beat⟩ := Option.bind_eq_some_iff.mp visited
  have action : Core.NodeMgr.step proto.toProto clock.sys (.checkState 0 (around.visits 0)) =
      some sys := checked
  have afterwards : Consistent sys := step_consistent consistent action
  obtain ⟨snode, first, loop, ticks, beats⟩ :=
    heartBeat_first proto around.heaps (by exact afterwards) (by exact fresh) beat
  obtain ⟨loop', ticks', beats'⟩ := serves_later loop rest
  obtain ⟨objects, reads, -⟩ := afterwards
  refine ⟨loop', congrArg (· + 1) (ticks'.trans ticks), ?_⟩
  change beatsOf last.beats place = _
  rw [beats', beats, beatsOf_append,
    beatsOf_first reads.addrs first (during.1 sys checked) around.heaps]

end Calls

/-! ### Runs -/

/-- The program before its first step, with the services of its configuration. -/
def boot (types : List (BitVec 16)) : Clock := ⟨start types, 0, 0, []⟩

def aroundOf : Event → Option Around
  | .action _ => none
  | .cron around => some around

/-- What the first call of `cron` meets. -/
def firstRound (events : List Event) : Option Around := events.findSome? aroundOf

/-- The program before the first call of `cron`. -/
structure Unticked (clock : Clock) : Prop where
  consistent : Consistent clock.sys
  loop : clock.loop = 0
  ticks : clock.ticks = 0
  beats : clock.beats = []

section Runs
variable {proto : HeartbeatProto} {clock next finish : Clock} {events : List Event}

theorem boot_unticked (types : List (BitVec 16)) : Unticked (boot types) :=
  ⟨start_consistent types, rfl, rfl, rfl⟩

theorem run_unticked (unticked : Unticked clock)
    (actions : ∀ event ∈ events, aroundOf event = none)
    (reached : run (step proto) clock events = some finish) : Unticked finish := by
  apply invariant_of_throughout Unticked (fun _ event => aroundOf event = none) ?_ unticked
    (throughout_of_mem _ _ fun _ => actions) reached
  intro start event next unticked other stepped
  cases event with
  | action action =>
    obtain ⟨sys, done, rfl⟩ := Option.map_eq_some_iff.mp stepped
    exact { unticked with consistent := step_consistent unticked.consistent done }
  | cron around => cases other

theorem step_later (counted : clock.loop = 1) {event : Event}
    (stepped : step proto clock event = some next) :
    next.loop = 1 ∧ clock.ticks ≤ next.ticks ∧ next.beats = clock.beats := by
  cases event with
  | action action =>
    obtain ⟨sys, -, rfl⟩ := Option.map_eq_some_iff.mp stepped
    exact ⟨counted, le_rfl, rfl⟩
  | cron around =>
    obtain ⟨loop, ticks, beats⟩ := cron_later counted stepped
    exact ⟨loop, ticks ▸ Nat.le_succ _, beats⟩

theorem run_later (counted : clock.loop = 1)
    (reached : run (step proto) clock events = some finish) :
    clock.ticks ≤ finish.ticks ∧ finish.beats = clock.beats := by
  have stays := run_invariant (fun state : Clock =>
    state.loop = 1 ∧ clock.ticks ≤ state.ticks ∧ state.beats = clock.beats) ?_
    ⟨counted, le_rfl, rfl⟩ reached
  · exact stays.2
  · rintro state event after ⟨loop, ticks, beats⟩ stepped
    obtain ⟨stillLoop, more, same⟩ := step_later loop stepped
    exact ⟨stillLoop, ticks.trans more, same.trans beats⟩

/-- All the heartbeats of a node that stays able: one if the first call of `cron` could send it. -/
theorem run_beats {types : List (BitVec 16)} {service place : Nat}
    (reached : run (step proto) (boot types) events = some finish)
    (able : Throughout (step proto) (StaysAble proto service place) (boot types) events) :
    finish.ticks = 0 ∧ beatsOf finish.beats place = [] ∨
      ∃ around, firstRound events = some around ∧ 0 < finish.ticks ∧
        beatsOf finish.beats place =
          if service = 0 ∧ (around.heaps place).malloc = true then [0] else [] := by
  cases round : firstRound events with
  | none =>
    have actions := List.findSome?_eq_none_iff.mp round
    have unticked := run_unticked (boot_unticked types) actions reached
    exact .inl ⟨unticked.ticks, by rw [unticked.beats]; rfl⟩
  | some around =>
    obtain ⟨before, event, after, rfl, timer, actions⟩ := List.findSome?_eq_some_iff.mp round
    obtain ⟨middle, earlier, rest⟩ := run_append.mp reached
    obtain ⟨next, stepped, later⟩ := run_cons.mp rest
    have unticked := run_unticked (boot_unticked types) actions earlier
    have admitted := condition_of_throughout able earlier
    cases event with
    | action action => cases timer
    | cron other =>
      cases timer
      obtain ⟨loop, ticks, beats⟩ :=
        cron_first unticked.consistent unticked.loop admitted stepped
      obtain ⟨more, same⟩ := run_later loop later
      refine .inr ⟨around, rfl, by omega, ?_⟩
      rw [same, beats, unticked.beats, unticked.ticks]
      rfl

end Runs

/-- A node that stays able is sent the heartbeats that are due exactly if `cron` has not been
called, or the node is of the first service, there was memory for it in the first call, and the
second heartbeat is not due. -/
theorem heartbeats_due_iff (proto : HeartbeatProto) (types : List (BitVec 16)) (events : List Event)
    (service place : Nat) {finish : Clock}
    (reached : run (step proto) (boot types) events = some finish)
    (able : Throughout (step proto) (StaysAble proto service place) (boot types) events) :
    beatsOf finish.beats place = due finish.ticks ↔
      finish.ticks = 0 ∨ service = 0 ∧ finish.ticks ≤ 300 ∧
        ∃ around, firstRound events = some around ∧ (around.heaps place).malloc = true := by
  rcases run_beats reached able with ⟨none, beats⟩ | ⟨around, first, called, beats⟩
  · rw [beats, none]
    exact iff_of_true rfl (.inl rfl)
  · have some_call : finish.ticks ≠ 0 := by omega
    simp only [beats, first, some_call, Option.some.injEq, exists_eq_left', false_or]
    split_ifs with sent
    · rw [single_eq_due called]
      simp only [sent, true_and, and_true]
    · rw [nil_eq_due]
      apply iff_of_false some_call
      rintro ⟨service, -, memory⟩
      exact sent ⟨service, memory⟩

def smallBeats : HeartbeatProto := { Arming.smallMessages with CID_OTHER_HEARTBEAT := 3 }

/-- The router is connected, and the timer calls `cron`. -/
def registeredThenTick : List Event :=
  [.action (.registReq (Arming.freshFd 5)),
    .cron ⟨fun _ _ => Arming.freshFd 6, fun _ => ⟨true, fun _ => 0⟩⟩]

theorem heartbeats_due_iff_one_service : ∃ finish,
    run (step smallBeats) (boot [1]) registeredThenTick = some finish ∧
      (beatsOf finish.beats 0 = due finish.ticks ↔
        finish.ticks = 0 ∨ 0 = 0 ∧ finish.ticks ≤ 300 ∧
          ∃ around, firstRound registeredThenTick = some around ∧
            (around.heaps 0).malloc = true) := by
  have runs : (run (step smallBeats) (boot [1]) registeredThenTick).isSome = true := by
    decide +kernel
  have able : Throughout (step smallBeats) (StaysAble smallBeats 0 0) (boot [1])
      registeredThenTick := by
    decide +kernel
  obtain ⟨finish, reached⟩ := Option.isSome_iff_exists.mp runs
  exact ⟨finish, reached, heartbeats_due_iff smallBeats [1] registeredThenTick 0 0 reached able⟩

/-- With the router second in the table its node gets no heartbeat in the first call of `cron`. -/
theorem second_service_unbeaten : ∃ finish,
    run (step smallBeats) (boot [4, 1]) registeredThenTick = some finish ∧
      Throughout (step smallBeats) (StaysAble smallBeats 1 0) (boot [4, 1]) registeredThenTick ∧
      finish.ticks = 1 ∧ beatsOf finish.beats 0 = [] ∧ due finish.ticks = [0] := by
  have runs : (run (step smallBeats) (boot [4, 1]) registeredThenTick).map
      (fun finish => (finish.ticks, beatsOf finish.beats 0)) = some (1, []) := by
    decide +kernel
  obtain ⟨finish, reached, same⟩ := Option.map_eq_some_iff.mp runs
  obtain ⟨ticks, beats⟩ := Prod.mk.inj same
  refine ⟨finish, reached, by decide +kernel, ticks, beats, ?_⟩
  rw [ticks]
  rfl

end SNFrame.System.Schedule
