import SNFrame.Library.Transition
import SNFrame.System.Callbacks
import SNFrame.System.Failures

/-! The event thread and the senders in any order. Whatever the next call is, `evs` says what
libevent has, no event is added twice, and no connection goes with an event. -/

namespace SNFrame.System.Interleaving
open Library.Octet Library.Table Library.Transition Base.PbBuf Core.Receiving Core.Sending
open Core.TcpParse Core.NetManager Core.EventThread Ownership Tables Turns Sight
open Core.NodeMgr hiding step
open Registration Positions Callbacks
open Simulation (withEvent_flag withEvent_state withEvent_cb readThenParse_failed)
open Supervision (start start_reads)
open Arming (smallMessages)
open Failures (failingRead)

section Calls
variable {sys : Sys} {view : View} {loops : List Loop} {place : Nat}

/-! ### Loops -/

/-- The node that the loop of `checkState` visits is lost, so its connection is broken. -/
theorem visit_onward {around : Surroundings} {sid : BitVec 16} {progress : Progress}
    (sees : Sees sys view) (stands : Stands view none none loops)
    (done : visit around sys sid place = some progress) :
    Onward view progress.sys progress.call progress.handler loops := by
  have sane : Sane view none none := stands.sane
  obtain ⟨node, found, visited⟩ := Option.bind_eq_some_iff.mp done
  rw [sees.nodes.nodes] at found
  have counted := sees.assignNode place (f := fun node => node.needReconnect.2) needReconnect_addr
  have countedSane : Sane (view.assignNode place fun node => node.needReconnect.2) none none := by
    apply sane.assignNode needReconnect_context
    intro node addr conn here lost
    rw [needReconnect_state] at lost
    exact sane.lost place node addr conn here lost
  have stays : Stands (view.assignNode place fun node => node.needReconnect.2) none none loops :=
    stands.done countedSane fun _ _ usable => usable
  split_ifs at visited with lost tries
  · obtain ⟨⟨net, new⟩, opens, rest⟩ := Option.bind_eq_some_iff.mp visited
    rcases counted.opened (f := client) (fun _ => rfl) (fun _ => rfl) opens with
      ⟨rfl, rfl⟩ | ⟨rfl, after⟩
    · cases rest
      exact ⟨_, counted, stays, released_of_conns rfl le_rfl⟩
    · cases rest
      have blank := client_blank view.next view.next around.fd
      refine ⟨_, after, ?_, released_of_update rfl (Nat.le_succ _)
        fun below => absurd below (lt_irrefl _)⟩
      apply stays.open blank nofun after
      · exact (blank.created_sane countedSane).begin view.next
      · intro next same
        cases same
        refine ⟨blank.created_new countedSane _ rfl, fun other there => ?_⟩
        have same := (view.assignNode_self place _).symm.trans there
        rw [found, Option.map_some, Option.some.injEq] at same
        rw [← same, needReconnect_state]
        exact lost
      · exact nofun
  · cases visited
    refine ⟨_, counted.eraseNode place, ?_, released_of_conns rfl le_rfl⟩
    apply stands.next
    · exact countedSane.eraseNode place
    · intro addr conn context here
      exact sane.lost place node addr conn found lost context here
    · exact fun _ _ usable => usable
    · exact nofun
  · cases visited
    exact same_onward sees stands

theorem announce_onward {around : Surroundings} {type : BitVec 16} {server : ServerStatus}
    {progress : Progress} {more : Bool} (sees : Sees sys view)
    (stands : Stands view none none loops)
    (done : announce around sys type server = some (progress, more)) :
    Onward view progress.sys progress.call progress.handler loops := by
  unfold announce at done
  split_ifs at done with known
  · cases done
    exact same_onward sees stands
  · obtain ⟨⟨net, new⟩, opens, rest⟩ := Option.bind_eq_some_iff.mp done
    rcases sees.opened (f := client) (fun _ => rfl) (fun _ => rfl) opens with
      ⟨rfl, rfl⟩ | ⟨rfl, after⟩
    · cases rest
      exact same_onward sees stands
    · cases rest
      have blank := client_blank view.next view.next around.fd
      refine ⟨_, after, ?_, created_released ..⟩
      apply stands.open blank nofun after
      · exact (blank.created_sane stands.sane).begin view.next
      · intro next same
        cases same
        exact blank.created_new stands.sane none rfl
      · exact nofun

end Calls

/-! ### Steps -/

section Steps
variable {proto : Proto} {machine next : Machine} {view : View}

/-- What the machine relies on. -/
def Held (machine : Machine) : Prop :=
  ∃ view, Sees machine.sys view ∧ Stands view machine.call machine.handler machine.loops

theorem sender_onward (sees : Sees machine.sys view)
    (stands : Stands view machine.call machine.handler machine.loops)
    {isTarget : Connection → Bool} {arms : ConnState → Bool} {msg : IMString}
    (safe : ∀ state, arms state = true → state ≠ .STATE_NONE ∧ ¬Broken state)
    (done : machine.sender (machine.sys.net.sendFirst isTarget arms msg) = some next) :
    Onward view next.sys next.call next.handler next.loops := by
  obtain ⟨sent, sends, rfl⟩ := Option.map_eq_some_iff.mp done
  obtain ⟨conns, after, descends, unread, released⟩ := sendFirst_sees sees safe sends
  exact ⟨_, after, stands.descends descends unread, released⟩

theorem idle_adds {handler : Option Handler} {loops : List Loop} (fd : Int) (mask : BitVec 16)
    (pending : none = some (Call.addFileEvent fd mask)) : Adds view fd mask handler loops := by
  cases pending

theorem idle_stands (sane : Sane view none none) : Stands view none none [] where
  sane := sane
  adds := idle_adds
  ready := by
    intro next same
    cases same
  usable := by
    intro addr inside
    cases inside
  alone := by
    intro addr next same
    cases same

/-- The event of a new connection is added. -/
theorem addFileEvent_onward {sys : Sys} {fd : Int} {mask : BitVec 16} {handler : Option Handler}
    {loops : List Loop} (sees : Sees sys view)
    (stands : Stands view (some (.addFileEvent fd mask)) handler loops) :
    Onward view { sys with net := sys.net.addFileEvent fd mask } none handler loops := by
  cases found : sys.net.findFd fd with
  | none =>
    rw [Net.addFileEvent, found]
    apply same_onward sees
    exact ⟨stands.sane, idle_adds, stands.ready, stands.usable, stands.alone⟩
  | some conn =>
    obtain ⟨here, rfl⟩ := sees.net.of_findFd found
    have added := sees.withNet (addFileEvent_listed sees.net here mask) (addFileEvent_next ..)
    refine ⟨_, added, ?_, released_update here rfl le_rfl (withEvent_flag ..)⟩
    cases stands.adds _ _ rfl with
    | reads calm =>
      obtain ⟨unbroken, plain, set⟩ := calm conn.addr conn here rfl
      have descends := descends_update here (withEvent_readable_follows unbroken plain set)
      exact ⟨stands.sane.descends descends, idle_adds,
        fun next same => handlerHolds_descends (stands.ready next same) descends,
        fun addr inside => (stands.usable addr inside).descends descends, stands.alone⟩
    | accepts fresh =>
      obtain ⟨idle, unread, unset⟩ := fresh conn.addr conn here rfl
      have sane : Sane view none none := stands.sane
      apply idle_stands
      apply sane.setConn conn
      · intro other _ failing
        cases failing
      · exact withEvent_acceptable_kept (sane.kept conn.addr conn here) idle unread unset
      · intro broken
        rw [withEvent_state, idle] at broken
        exact absurd broken (by decide)
      · intro place node found lost context
        rw [withEvent_state]
        exact sane.lost place node conn.addr conn found lost context here
      · exact fun _ => ⟨here, withEvent_cb ..⟩
      · intro place callback
        rw [withEvent_cb] at callback
        exact sane.callbacks conn.addr conn place here callback

theorem mem_rest {addr : Nat} {loop : Loop} {rest : List Loop}
    (inside : .parse addr ∈ loop :: rest) (other : loop ≠ .parse addr) : .parse addr ∈ rest :=
  (List.mem_cons.mp inside).resolve_left fun same => other same.symm

/-- `sendBlock` touches neither table. -/
theorem sendBlock_onward {outcome : SendResult} {addr pos : Nat} {msg : IMString}
    (sees : Sees machine.sys view)
    (stands : Stands view machine.call machine.handler machine.loops) :
    Onward view (machine.sendBlock outcome addr msg pos).sys
      (machine.sendBlock outcome addr msg pos).call (machine.sendBlock outcome addr msg pos).handler
      (machine.sendBlock outcome addr msg pos).loops := by
  have stays : ∀ call, (∀ fd mask, call = some (.addFileEvent fd mask) →
      machine.call = some (.addFileEvent fd mask)) →
      Onward view machine.sys call machine.handler machine.loops := by
    intro call pending
    refine ⟨view, sees, ⟨stands.sane, ?_, stands.ready, stands.usable, stands.alone⟩,
      released_of_conns rfl le_rfl⟩
    exact fun fd mask same => stands.adds fd mask (pending fd mask same)
  unfold Machine.sendBlock
  split_ifs with complete
  · exact stays none nofun
  · split
    · dsimp only
      split_ifs
      · exact stays none nofun
      · exact stays (some (.sendBlock ..)) nofun
    · exact stays none nofun
    · exact stays machine.call fun _ _ same => same

theorem go_onward {around : Surroundings} (sees : Sees machine.sys view)
    (stands : Stands view machine.call machine.handler machine.loops)
    (done : machine.go proto around = some next) :
    Onward view next.sys next.call next.handler next.loops := by
  obtain ⟨sys, call, handler, loops, given, complete⟩ := machine
  cases call with
  | some call =>
    cases call with
    | addFileEvent fd mask =>
      cases done
      exact addFileEvent_onward sees stands
    | sendBlock addr msg pos =>
      cases done
      exact sendBlock_onward sees stands
  | none =>
    cases handler with
    | some handler =>
      obtain ⟨progress, called, rfl⟩ := Option.map_eq_some_iff.mp done
      exact handlerCall_onward sees stands called
    | none =>
      cases loops with
      | nil => cases done
      | cons loop rest =>
        have within : ∀ addr, Loop.parse addr ∈ rest → .parse addr ∈ loop :: rest :=
          fun _ inside => List.mem_cons_of_mem _ inside
        cases loop with
        | parse addr => cases done
        | checkState sid places =>
          cases places with
          | nil =>
            cases done
            exact same_onward sees (stands.within within)
          | cons place places =>
            obtain ⟨progress, visited, rfl⟩ := Option.map_eq_some_iff.mp done
            apply visit_onward sees _ visited
            exact stands.within fun addr inside => within addr (mem_rest inside nofun)
        | srvinfoBroadcast servers =>
          cases servers with
          | nil =>
            cases done
            exact same_onward sees (stands.within within)
          | cons server servers =>
            obtain ⟨⟨progress, more⟩, announced, rfl⟩ := Option.map_eq_some_iff.mp done
            apply announce_onward sees _ announced
            apply stands.within
            intro addr inside
            cases more
            · exact within addr inside
            · exact within addr (mem_rest inside nofun)

/-- A callback for a new connection, which has no handler. -/
theorem opened_onward {sys : Sys} {fd : Int} {mask : BitVec 16} {f : Connection → Connection}
    {net : Net} {new : Option Nat} (sees : Sees sys view) (stands : Stands view none none [])
    (addrs : ∀ conn, (f conn).addr = conn.addr) (fds : ∀ conn, (f conn).fd = conn.fd)
    (blank : Blank fd (f (.fresh view.next view.next fd)))
    (adds : ∀ sys, Sees sys (created view (f (.fresh view.next view.next fd))) →
      Adds (created view (f (.fresh view.next view.next fd))) fd mask none [])
    (opens : opened sys.net fd f = some (net, new)) :
    Onward view { sys with net := net } (new.map fun _ => .addFileEvent fd mask) none [] := by
  rcases sees.opened addrs fds opens with ⟨rfl, rfl⟩ | ⟨rfl, after⟩
  · exact same_onward sees stands
  · refine ⟨_, after, ⟨blank.created_sane stands.sane, ?_, nofun, nofun, nofun⟩,
      created_released ..⟩
    intro other pending same
    cases same
    exact adds _ after

theorem writeConn_sees {sys : Sys} {addr : Nat} {outcomes : List SendResult} {net : Net}
    {result : Option IoResult} {accepted : List Byte} (sees : Sees sys view)
    (done : sys.net.writeConn addr outcomes = some (net, result, accepted)) :
    ∃ conns, Sees { sys with net := net } { view with conns := conns } ∧
      Descends view.conns conns ∧ Released view { view with conns := conns } := by
  obtain ⟨conn, found, done⟩ := Option.bind_eq_some_iff.mp done
  obtain ⟨queue, -, done⟩ := Option.bind_eq_some_iff.mp done
  cases done
  have here := sees.net.of_deref found
  have drained : Listed (setQueue sys.net conn.outBuffer
      (Core.Sending.write outcomes queue conn.send).queue) view.conns := sees.net.of_conns rfl rfl
  have stored := assign_listed drained here
    (f := fun other => { other with send := (Core.Sending.write outcomes queue conn.send).send })
    (fun _ => rfl) (fun _ => rfl)
  exact ⟨_, sees.withNet stored rfl, descends_update here (.of_fields rfl rfl rfl rfl rfl rfl rfl),
    released_update here rfl le_rfl rfl⟩

/-- libevent calls back for a connection with its read event, which is not a broken one. -/
theorem usable_of_registered (sane : Sane view none none) {addr : Nat} {conn : Connection}
    (here : view.conns addr = some conn) (registered : conn.revent = true)
    (plain : conn.evs &&& AE_ACCEPTABLE = 0) : Usable view addr := by
  intro other there
  cases here.symm.trans there
  have kept := sane.kept addr conn here
  refine ⟨fun broken => ?_, plain, fun unset => ?_⟩
  · have unregistered := (sane.quiet addr conn here broken nofun).1
    cases registered.symm.trans unregistered
  · exact (kept.readable.mpr registered).elim (· (kept.unread unset)) (· plain)

theorem plain_of_writable {conn : Connection} (kept : Kept conn) (registered : conn.wevent = true) :
    conn.evs &&& AE_ACCEPTABLE = 0 := by
  by_contra listens
  exact kept.writable.mpr registered (kept.unarmed (kept.listening listens).1)

/-- The start of the callback that reads. A failed read goes on with the close. -/
theorem begin_read_onward {addr : Nat} {event : ReadEvent} (sees : Sees machine.sys view)
    (stands : Stands view none none []) (done : machine.begin proto (.read addr event) = some next) :
    Onward view next.sys next.call next.handler next.loops := by
  have sane : Sane view none none := stands.sane
  obtain ⟨conn, found, done⟩ := Option.bind_eq_some_iff.mp done
  have here := sees.net.of_deref found
  have received : ∀ recv, Sees { machine.sys with
      net := machine.sys.net.assign addr fun conn => { conn with recv := recv } }
      (view.setConn addr (some { conn with recv := recv })) :=
    fun recv => sees.assign here (fun _ => rfl) (fun _ => rfl)
  have descends : ∀ recv, Descends view.conns
      (Function.update view.conns addr (some { conn with recv := recv })) :=
    fun recv => descends_update here (.of_fields rfl rfl rfl rfl rfl rfl rfl)
  dsimp only at done
  split_ifs at done with guard
  obtain ⟨registered, plain⟩ := Bool.and_eq_true_iff.mp guard
  have usable := usable_of_registered sane here registered (of_decide_eq_true plain)
  split at done
  · next recv out parsed =>
    cases done
    refine ⟨_, (received recv).log _, ?_, released_update here rfl le_rfl rfl⟩
    refine ⟨sane.descends (descends recv), nofun, nofun, ?_, nofun⟩
    intro other inside
    cases List.mem_singleton.mp inside
    exact usable.descends (descends recv)
  · next recv state failed =>
    cases done
    refine ⟨_, received recv, ?_, released_update here rfl le_rfl rfl⟩
    apply stands.next
    · exact sane.descends (descends recv)
    · refine ⟨readThenParse_failed failed, fun other there => ?_⟩
      exact ((usable.descends (descends recv)) other there).2.1
    · exact fun _ _ usable => usable.descends (descends recv)
    · exact fun _ _ _ _ => List.not_mem_nil
  · cases done

/-- The start of the callback that writes. A failure goes on with the close. -/
theorem begin_write_onward {addr : Nat} {outcomes : List SendResult} (sees : Sees machine.sys view)
    (stands : Stands view none none [])
    (done : machine.begin proto (.write addr outcomes) = some next) :
    Onward view next.sys next.call next.handler next.loops := by
  have sane : Sane view none none := stands.sane
  obtain ⟨conn, found, done⟩ := Option.bind_eq_some_iff.mp done
  have here := sees.net.of_deref found
  obtain ⟨⟨net, result, accepted⟩, written, done⟩ := Option.bind_eq_some_iff.mp done
  obtain ⟨conns, after, descends, released⟩ := writeConn_sees sees written
  dsimp only at done
  split_ifs at done with registered
  have plain := plain_of_writable (sane.kept addr conn here) registered
  have fails : ∀ state, Broken state → Onward view { machine.sys with net := net } none
      (some (.fail addr (.setState state))) [] := by
    intro state broken
    refine ⟨_, after, ?_, released⟩
    apply stands.next
    · exact sane.descends descends
    · refine ⟨broken, fun other there => ?_⟩
      obtain ⟨old, lookup, follows⟩ := descends addr other there
      cases here.symm.trans lookup
      rw [follows.acceptable]
      exact plain
    · exact fun _ _ usable => usable.descends descends
    · exact fun _ _ _ _ => List.not_mem_nil
  split at done
  · cases done
  · cases done
    exact fails .STATE_ERROR (by decide)
  · cases done
    exact fails .STATE_CLOSED (by decide)
  · cases done
    refine ⟨_, after, ?_, released⟩
    exact stands.next (sane.descends descends) trivial
      (fun _ _ usable => usable.descends descends) nofun

/-- The start of a callback. -/
theorem begin_onward {event : Event} (noCall : machine.call = none)
    (noHandler : machine.handler = none) (noLoops : machine.loops = [])
    (sees : Sees machine.sys view) (stands : Stands view none none [])
    (done : machine.begin proto event = some next) :
    Onward view next.sys next.call next.handler next.loops := by
  have sane : Sane view none none := stands.sane
  cases event with
  | listen fd =>
    obtain ⟨both, opens, rfl⟩ := Option.map_eq_some_iff.mp done
    have blank := fresh_blank view.next view.next fd
    exact opened_onward sees stands (fun _ => rfl) (fun _ => rfl) blank
      (fun _ after => blank.accepts after rfl rfl) opens
  | accept event =>
    simp only [Machine.begin] at done
    split_ifs at done with possible
    · obtain ⟨both, opens, rfl⟩ := Option.map_eq_some_iff.mp done
      have blank := server_blank view.next view.next event.fd
      exact opened_onward sees stands (f := server) (fun _ => rfl) (fun _ => rfl) blank
        (fun _ after => blank.reads nofun after none []) opens
    · cases done
      rw [noCall, noHandler, noLoops]
      exact same_onward sees stands
  | read addr event => exact begin_read_onward sees stands done
  | write addr outcomes => exact begin_write_onward sees stands done
  | checkState service =>
    obtain ⟨snode, -, rfl⟩ := Option.map_eq_some_iff.mp done
    apply same_onward sees
    rw [noCall, noHandler]
    apply stands.within
    exact fun addr inside => mem_rest inside nofun
  | registReq =>
    cases done
    apply same_onward sees
    rw [noCall, noLoops]
    exact stands.next sane trivial (fun _ _ usable => usable) nofun
  | sendSock | sendNode | sendDb | sendState | authenticationReq | authenticationRsp
  | srvinfoBroadcast | parsed | go => cases done

/-- A message of the connection whose callback this is. -/
theorem message_onward {addr : Nat} {rest : List Loop} {event : Event}
    (noCall : machine.call = none) (noHandler : machine.handler = none)
    (inParse : machine.loops = .parse addr :: rest) (sees : Sees machine.sys view)
    (stands : Stands view none none (.parse addr :: rest))
    (done : machine.message proto addr rest event = some next) :
    Onward view next.sys next.call next.handler next.loops := by
  have sane : Sane view none none := stands.sane
  have usable := stands.usable addr List.mem_cons_self
  have unparsed : Onward view machine.sys machine.call machine.handler machine.loops := by
    rw [noCall, noHandler, inParse]
    exact same_onward sees stands
  cases event with
  | authenticationReq msg =>
    simp only [Machine.message] at done
    split at done
    · cases done
      exact unparsed
    · obtain ⟨sys, stored, rfl⟩ := Option.map_eq_some_iff.mp done
      obtain ⟨conns, stores, descends, released⟩ := setNodeInfo_sees sees stored
      refine ⟨_, stores, ?_, released⟩
      rw [← inParse] at stands
      exact stands.next (sane.descends descends) (usable.descends descends)
        (fun _ _ usable => usable.descends descends) nofun
  | authenticationRsp msg =>
    simp only [Machine.message] at done
    split at done
    · cases done
      exact unparsed
    · cases done
      split
      · exact unparsed
      · next node found =>
        have noted := sees.assignNode node.addr (f := (·.setState .NODE_ABLE)) fun _ => rfl
        refine ⟨_, noted, ?_, released_of_conns rfl le_rfl⟩
        rw [← inParse] at stands
        apply stands.next
        · apply sane.assignNode (f := (·.setState .NODE_ABLE)) (fun _ => rfl)
          exact fun _ _ _ _ lost => absurd lost (by decide : ¬Lost .NODE_ABLE)
        · exact usable
        · exact fun _ _ usable => usable
        · exact nofun
  | srvinfoBroadcast msg =>
    simp only [Machine.message] at done
    split at done
    · cases done
      exact unparsed
    · cases done
      apply same_onward sees
      rw [noCall, noHandler, inParse]
      apply stands.within
      exact fun addr inside => mem_rest inside nofun
  | parsed =>
    cases done
    apply same_onward sees
    rw [noCall, noHandler]
    apply stands.within
    exact fun addr inside => List.mem_cons_of_mem _ inside
  | sendSock | sendNode | sendDb | sendState | listen | accept | read | write | checkState
  | registReq | go => cases done

/-- A step is one of a sender, or the event thread goes on with its callback, starts one or takes
up the next message. -/
theorem step_cases {event : Event} (done : step proto machine event = some next) :
    (∃ isTarget arms msg, (∀ state, arms state = true → state ≠ .STATE_NONE ∧ ¬Broken state) ∧
        machine.sender (machine.sys.net.sendFirst isTarget arms msg) = some next) ∨
      (∃ around, machine.go proto around = some next) ∨
      machine.call = none ∧ machine.handler = none ∧
        (machine.loops = [] ∧ machine.begin proto event = some next ∨
          ∃ addr rest, machine.loops = .parse addr :: rest ∧
            machine.message proto addr rest event = some next) := by
  cases event with
  | sendSock msg fd => exact .inl ⟨_, _, _, connected_safe, done⟩
  | sendNode msg nid => exact .inl ⟨_, _, _, connectedOrAuth_safe, done⟩
  | sendDb msg => exact .inl ⟨_, _, _, connectedOrAuth_safe, done⟩
  | sendState msg => exact .inl ⟨_, _, _, connectedOrAuth_safe, done⟩
  | go around => exact .inr (.inl ⟨around, done⟩)
  | listen | accept | read | write | checkState | registReq | authenticationReq
  | authenticationRsp | srvinfoBroadcast | parsed =>
    simp only [step] at done
    split at done
    · next noCall noHandler noLoops => exact .inr (.inr ⟨noCall, noHandler, .inl ⟨noLoops, done⟩⟩)
    · next noCall noHandler inParse =>
      exact .inr (.inr ⟨noCall, noHandler, .inr ⟨_, _, inParse, done⟩⟩)
    · cases done

theorem step_onward {event : Event} (sees : Sees machine.sys view)
    (stands : Stands view machine.call machine.handler machine.loops)
    (done : step proto machine event = some next) :
    Onward view next.sys next.call next.handler next.loops := by
  rcases step_cases done with ⟨isTarget, arms, msg, safe, done⟩ | ⟨around, done⟩ |
    ⟨noCall, noHandler, ⟨noLoops, done⟩ | ⟨addr, rest, inParse, done⟩⟩
  · exact sender_onward sees stands safe done
  · exact go_onward sees stands done
  · rw [noCall, noHandler, noLoops] at stands
    exact begin_onward noCall noHandler noLoops sees stands done
  · rw [noCall, noHandler, inParse] at stands
    exact message_onward noCall noHandler inParse sees stands done

theorem idle_held (types : List (BitVec 16)) : Held (Machine.idle (start types)) := by
  have sane : Sane ⟨fun _ => none, fun _ => none, 0, 0⟩ none none := by
    constructor <;> simp [Everywhere]
  refine ⟨⟨fun _ => none, fun _ => none, 0, 0⟩,
    ⟨empty_listed, (start_reads types).placed, rfl, rfl⟩, ?_⟩
  exact idle_stands sane

theorem step_held {event : Event} (held : Held machine)
    (done : step proto machine event = some next) : Held next := by
  obtain ⟨view, sees, stands⟩ := held
  obtain ⟨after, seesNext, standsNext, -⟩ := step_onward sees stands done
  exact ⟨after, seesNext, standsNext⟩

theorem run_held {types : List (BitVec 16)} {events : List Event}
    (reached : run (step proto) (Machine.idle (start types)) events = some machine) :
    Held machine :=
  run_invariant Held (fun _ _ _ held done => step_held held done) (idle_held types) reached

/-- The event that `LibEvent::addFileEvent` would set up for this mask is registered already. -/
def registered (conn : Connection) (mask : BitVec 16) : Bool :=
  if mask &&& AE_READABLE ≠ 0 then conn.revent
  else if mask &&& AE_WRITABLE ≠ 0 then conn.wevent
  else if mask &&& AE_ACCEPTABLE ≠ 0 then conn.revent
  else false

/-- The next call of `NetManager::addFileEvent`: a sender adds AE_WRITABLE to the connection it
finds, the event thread the event of a new connection. -/
def Adding (machine : Machine) (fd : Int) (mask : BitVec 16) : Prop :=
  mask = AE_WRITABLE ∨ machine.call = some (.addFileEvent fd mask)

theorem Adds.unregistered {fd : Int} {mask : BitVec 16} {handler : Option Handler}
    {loops : List Loop} (adds : Adds view fd mask handler loops) {addr : Nat} {conn : Connection}
    (here : view.conns addr = some conn) (same : conn.fd = fd) (agrees : Agrees conn)
    (unset : conn.evs &&& mask = 0) : registered conn mask = false := by
  have unread : conn.evs &&& AE_READABLE = 0 → conn.evs &&& AE_ACCEPTABLE = 0 →
      conn.revent = false := by
    intro reads listens
    apply Bool.eq_false_of_not_eq_true
    intro registered
    exact (agrees.readable.mpr registered).elim (· reads) (· listens)
  cases adds with
  | reads calm => exact unread unset (calm addr conn here same).2.1
  | accepts fresh => exact unread (fresh addr conn here same).2.1 unset

theorem unregistered_of_adding (held : Held machine) {fd : Int} {mask : BitVec 16}
    {conn : Connection} (adding : Adding machine fd mask)
    (found : machine.sys.net.findFd fd = some conn) (unset : conn.evs &&& mask = 0) :
    registered conn mask = false := by
  obtain ⟨view, sees, stands⟩ := held
  obtain ⟨here, same⟩ := sees.net.of_findFd found
  have kept := stands.sane.kept conn.addr conn here
  rcases adding with rfl | pending
  · apply Bool.eq_false_of_not_eq_true
    exact fun registered => kept.writable.mpr registered unset
  · exact Adds.unregistered (stands.adds fd mask pending) here same kept.toAgrees unset

end Steps

/-- In any order of the calls the event bits agree with libevent, `LibEvent::addFileEvent` meets
no event that is registered, and a connection that a call deletes has none. -/
theorem events_agree (proto : Proto) (types : List (BitVec 16)) (events : List Event)
    (machine : Machine)
    (reached : run (step proto) (Machine.idle (start types)) events = some machine) :
    (∀ conn ∈ machine.sys.net.conns, Agrees conn) ∧
      (∀ fd mask conn, Adding machine fd mask → machine.sys.net.findFd fd = some conn →
        conn.evs &&& mask = 0 → registered conn mask = false) ∧
      ∀ event next, step proto machine event = some next → ∀ conn ∈ machine.sys.net.conns,
        next.sys.net.deref conn.addr = none → Unregistered conn := by
  have held := run_held reached
  refine ⟨?_, fun fd mask conn => unregistered_of_adding held, ?_⟩
  · intro conn inside
    obtain ⟨view, sees, stands⟩ := held
    exact (stands.sane.kept conn.addr conn (sees.net.of_mem inside)).toAgrees
  · intro event next done conn inside gone
    obtain ⟨view, sees, stands⟩ := held
    obtain ⟨after, seesNext, -, released⟩ := step_onward sees stands done
    rw [seesNext.net.reads] at gone
    exact released.unregistered conn.addr conn (sees.net.of_mem inside) gone

/-- The outside of a call that needs nothing of it. -/
def nothing : Surroundings := ⟨0, ⟨true, fun _ => 0⟩, false, [], .sent 0⟩

/-- A connection is accepted and its read fails, while a sender looks for it by its node id. What
comes next is `closeConnection`. -/
def acceptedFails : List Event :=
  [.accept ⟨7, true, true⟩, .sendNode .null 0, .go nothing, .read 0 failingRead, .go nothing,
    .sendNode .null 0, .go nothing]

theorem events_agree_accepted : ∃ machine,
    run (step smallMessages) (Machine.idle (start [1])) acceptedFails = some machine ∧
      (∀ conn ∈ machine.sys.net.conns, Agrees conn) ∧
      (∀ fd mask conn, Adding machine fd mask → machine.sys.net.findFd fd = some conn →
        conn.evs &&& mask = 0 → registered conn mask = false) ∧
      ∀ event next, step smallMessages machine event = some next →
        ∀ conn ∈ machine.sys.net.conns, next.sys.net.deref conn.addr = none →
          Unregistered conn := by
  have ends : (run (step smallMessages) (Machine.idle (start [1])) acceptedFails).isSome := by
    decide +kernel
  obtain ⟨machine, reached⟩ := Option.isSome_iff_exists.mp ends
  exact ⟨machine, reached, events_agree smallMessages [1] acceptedFails machine reached⟩

end SNFrame.System.Interleaving
