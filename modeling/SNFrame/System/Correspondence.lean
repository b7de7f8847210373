import SNFrame.System.Exchange
import SNFrame.System.Positions

/-! What the cluster does when one of its processes comes into its next state, as changes of the
world that it shows: messages that are sent, new connections, reads and writes. -/

namespace SNFrame.System.Correspondence
open Library.Octet Library.Transition Base.PbBuf Core.Receiving Core.Sending Core.TcpParse
open Core.NetManager Core.NodeMgr Core.CommonProto Receive.Callback Receive.Parcels
open Send.SendStream Ownership Tables Turns Registration Simulation Supervision
open Processes Requests Traffic Exchange
open Base.Checksum (held)

/-! ### A process comes into its next state -/

structure Shown (cluster : Cluster) (world : World) : Prop where
  reads : ∀ p, Reads (cluster.sys p) (world.objects p)
  next : ∀ p, (cluster.sys p).net.next = world.next p
  inbox : cluster.inbox = world.inbox
  wires : cluster.wires = world.wires

section Enter
variable {cluster : Cluster} {world : World} {p sent : Nat} {next : Sys}

/-- The objects and the numbers of the other processes stay. -/
def Beside (p : Nat) (before after : World) : Prop :=
  ∀ q ≠ p, after.objects q = before.objects q ∧ after.next q = before.next q

theorem shown_of_enter (shown : Shown cluster world) {after : World} (beside : Beside p world after)
    (reads : Reads next (after.objects p)) (number : next.net.next = after.next p)
    (inbox : (cluster.enter p sent next).inbox = after.inbox)
    (wires : (cluster.enter p sent next).wires = after.wires) :
    Shown (cluster.enter p sent next) after := by
  refine ⟨fun q => ?_, fun q => ?_, inbox, wires⟩
  · rw [enter_sys]
    by_cases same : q = p
    · rw [same, Function.update_self]
      exact reads
    · rw [Function.update_of_ne same, (beside q same).1]
      exact shown.reads q
  · rw [enter_sys]
    by_cases same : q = p
    · rw [same, Function.update_self]
      exact number
    · rw [Function.update_of_ne same, (beside q same).2]
      exact shown.next q

theorem dialled_of_same {objects : Objects} (reads : Reads next objects)
    (number : next.net.next = (cluster.sys p).net.next) :
    Cluster.dialled cluster.wires p (cluster.sys p).net next.net = cluster.wires := by
  have absent : next.net.deref (cluster.sys p).net.next = none := by
    rw [← number]
    cases found : next.net.deref next.net.next with
    | none => rfl
    | some conn =>
      obtain ⟨owned, here, -⟩ := reads.conn_of_deref found
      rw [reads.net.fresh] at here
      cases here
  rw [Cluster.dialled, absent]

theorem foldl_notifies {net : Net} {effects : List Effect}
    (notifies : ∀ effect ∈ effects, Notifies effect) (cluster : Cluster) :
    effects.foldl (Cluster.absorb p net sent) cluster = cluster := by
  induction effects with
  | nil => rfl
  | cons effect effects ih =>
    obtain ⟨msg, id, rfl⟩ := notifies effect List.mem_cons_self
    exact ih fun other inside => notifies other (List.mem_cons_of_mem _ inside)

theorem foldl_dispatches {net : Net} {addr : Nat} (out : List Dispatch) (cluster : Cluster) :
    (out.map (Effect.dispatch addr)).foldl (Cluster.absorb p net sent) cluster =
      { cluster with
        inbox := Function.update cluster.inbox p
          (cluster.inbox p ++ out.map fun message => (addr, message)) } := by
  induction out generalizing cluster with
  | nil => simp
  | cons message out ih =>
    rw [List.map_cons, List.foldl_cons, ih]
    simp [Cluster.absorb]

/-- A calm step gives nothing to the wires and hands nothing on. -/
theorem enter_calm {objects : Objects} (reads : Reads next objects)
    (calm : Calm (cluster.sys p) next) : cluster.enter p sent next =
      { cluster with sys := Function.update cluster.sys p next } := by
  obtain ⟨more, effects, notifies⟩ := calm.effects
  rw [Cluster.enter, effects, List.drop_left, foldl_notifies notifies, dialled_of_same reads calm.numbered]

theorem enter_dispatches {objects : Objects} (reads : Reads next objects)
    (number : next.net.next = (cluster.sys p).net.next) {addr : Nat} {out : List Dispatch}
    (effects : next.effects = (cluster.sys p).effects ++ out.map (.dispatch addr)) :
    cluster.enter p sent next = { cluster with
      sys := Function.update cluster.sys p next
      inbox := Function.update cluster.inbox p
        (cluster.inbox p ++ out.map fun message => (addr, message)) } := by
  rw [Cluster.enter, effects, List.drop_left, foldl_dispatches, dialled_of_same reads number]

/-- A new client dials, and its request goes to its own wire. -/
theorem enter_requesting {objects : Objects} (reads : Reads next objects) {owned : Owned}
    (here : objects.conns (cluster.sys p).net.next = some owned)
    (client : owned.conn.flag = .conn_client) {request : Option IMString}
    (effects : next.effects = (cluster.sys p).effects ++ requesting owned.conn.fd request) :
    cluster.enter p sent next = { cluster with
      sys := Function.update cluster.sys p next
      wires := ask (cluster.wires.dial (p, (cluster.sys p).net.next))
        (p, (cluster.sys p).net.next) sent request } := by
  have dials : Cluster.dialled cluster.wires p (cluster.sys p).net next.net =
      cluster.wires.dial (p, (cluster.sys p).net.next) := by
    rw [Cluster.dialled, reads.net.deref here]
    exact if_pos client
  have addr := (reads.net.mem here).2
  rw [Cluster.enter, effects, List.drop_left, dials]
  cases request with
  | none => rfl
  | some msg => simp [requesting, Cluster.absorb, reads.net.findFd here, addr, ask]

/-- A new connection of another kind is none of the wires' business yet. -/
theorem enter_unsaid {objects : Objects} (reads : Reads next objects) {owned : Owned}
    (here : objects.conns (cluster.sys p).net.next = some owned)
    (other : owned.conn.flag ≠ .conn_client)
    (effects : next.effects = (cluster.sys p).effects) :
    cluster.enter p sent next = { cluster with sys := Function.update cluster.sys p next } := by
  have dials : Cluster.dialled cluster.wires p (cluster.sys p).net next.net = cluster.wires := by
    rw [Cluster.dialled, reads.net.deref here]
    exact if_neg other
  rw [Cluster.enter, effects, List.drop_length, dials]
  rfl

/-- The cluster shows a world that the changes reach. -/
def Series (proto : Proto) (world : World) (cluster : Cluster) : Prop :=
  ∃ after, Shown cluster after ∧ Changes proto world after

variable {proto : Proto}

theorem Series.refl (shown : Shown cluster world) : Series proto world cluster :=
  ⟨world, shown, .refl⟩

theorem Series.after {middle : World} (changes : Changes proto world middle)
    (series : Series proto middle cluster) : Series proto world cluster := by
  obtain ⟨last, shown, further⟩ := series
  exact ⟨last, shown, changes.trans further⟩

/-- What a step of the process has done to the tables so far. -/
structure Within (p : Nat) (world base : World) : Prop where
  others : ∀ q ≠ p, base.objects q = world.objects q
  next : base.next = world.next
  inbox : base.inbox = world.inbox
  wires : base.wires = world.wires

theorem Within.refl (p : Nat) (world : World) : Within p world world :=
  ⟨fun _ _ => rfl, rfl, rfl, rfl⟩

theorem Within.setConn {base : World} (within : Within p world base) (addr : Nat)
    (owned : Option Owned) : Within p world (base.setConn (p, addr) owned) where
  others := fun q apart => (objects_setConn_of_ne base apart ..).trans (within.others q apart)
  next := within.next
  inbox := within.inbox
  wires := within.wires

theorem Within.setNode {base : World} (within : Within p world base) (place : Nat)
    (node : Option Node) : Within p world (base.setNode (p, place) node) where
  others := fun q apart => (objects_setNode_of_ne base apart ..).trans (within.others q apart)
  next := within.next
  inbox := within.inbox
  wires := within.wires

theorem Within.dropContext {base : World} (within : Within p world base) (node : Node) :
    Within p world (base.dropContext p node) := by
  unfold World.dropContext
  split
  · exact within
  · exact within.setConn ..

theorem shown_of_calm (shown : Shown cluster world) {base : World} (within : Within p world base)
    (calm : Calm (cluster.sys p) next) (reads : Reads next (base.objects p)) :
    Shown (cluster.enter p sent next) base := by
  have entered : cluster.enter p sent next = _ := enter_calm reads calm
  apply shown_of_enter shown (fun q apart => ⟨within.others q apart, congrFun within.next q⟩) reads
  · rw [calm.numbered, within.next]
    exact shown.next p
  · rw [entered, within.inbox]
    exact shown.inbox
  · rw [entered, within.wires]
    exact shown.wires

theorem still_series (shown : Shown cluster world) (calm : Calm (cluster.sys p) next)
    (reads : Reads next (world.objects p)) : Series proto world (cluster.enter p sent next) :=
  .refl (shown_of_calm shown (.refl p world) calm reads)

end Enter

/-! ### Events of one connection -/

section Rests
variable {conn : Connection}

theorem withEvent_writable_rests (started : conn.state ≠ .STATE_NONE)
    (unbroken : ¬Broken conn.state) : Rests conn (withEvent AE_WRITABLE conn) where
  toFollows := withEvent_writable_follows started unbroken
  sid := by
    rw [withEvent]
    split_ifs <;> rfl
  nid := by
    rw [withEvent]
    split_ifs <;> rfl
  recv := by
    rw [withEvent]
    split_ifs <;> rfl
  send := withEvent_send ..

theorem withoutEvent_rests (conn : Connection) : Rests conn (withoutEvent AE_WRITABLE conn) where
  toFollows := withoutEvent_follows conn
  sid := by
    rw [withoutEvent]
    split_ifs <;> rfl
  nid := by
    rw [withoutEvent]
    split_ifs <;> rfl
  recv := by
    rw [withoutEvent]
    split_ifs <;> rfl
  send := withoutEvent_send ..

/-- A send function arms no connection that is new or broken. -/
def Safe (arms : ConnState → Bool) : Prop :=
  ∀ state, arms state = true → state ≠ .STATE_NONE ∧ ¬Broken state

theorem sent_rests {arms : ConnState → Bool} (safe : Safe arms) (msg : IMString) (owned : Owned) :
    Rests owned.conn (owned.sent arms msg).conn := by
  unfold Owned.sent
  by_cases armed : arms owned.conn.state = true
  · rw [if_pos armed]
    exact withEvent_writable_rests (safe _ armed).1 (safe _ armed).2
  · rw [if_neg armed]
    exact .refl _

theorem connected_safe : Safe (· = .STATE_CONNECTED) := by
  intro state connected
  cases of_decide_eq_true connected
  decide

theorem connectedOrAuth_safe : Safe Net.connectedOrAuth := by
  intro state arms
  cases state <;> revert arms <;> decide

end Rests

section Steps
variable {cluster : Cluster} {world : World} {p sent : Nat} {proto : Proto}

theorem sendFirst_series (shown : Shown cluster world) {isTarget : Connection → Bool}
    {arms : ConnState → Bool} {msg : IMString} {code : Int} {net : Net} (safe : Safe arms)
    (sound : Sound msg) (plain : Plain proto msg.bytes)
    (done : (cluster.sys p).net.sendFirst isTarget arms msg = some (code, net)) :
    Series proto world (cluster.enter p sent { cluster.sys p with net := net }) := by
  have reads := shown.reads p
  have calm : Calm (cluster.sys p) { cluster.sys p with net := net } :=
    calm_of_same (sendFirst_next done) rfl
  rcases sendFirst_cases reads.net isTarget arms msg with
    same | ⟨addr, owned, after, here, -, same, shows⟩
  · rw [same] at done
    cases done
    exact still_series shown calm reads
  · rw [same] at done
    cases done
    have stored : Reads { cluster.sys p with net := net }
        ((world.setConn (p, addr) (some (owned.sent arms msg))).objects p) := by
      rw [objects_setConn]
      exact reads.withNet shows
    exact ⟨_, shown_of_calm shown (.setConn (.refl p world) ..) calm stored,
      .single (.posted here (sent_rests safe msg owned) sound plain)⟩

/-! ### New connections -/

theorem withEvent_fields (mask : BitVec 16) (conn : Connection) :
    (withEvent mask conn).recv = conn.recv ∧ (withEvent mask conn).sid = conn.sid := by
  rw [withEvent]
  constructor <;> split_ifs <;> simp [Connection.addEvent] <;> split_ifs <;> rfl

/-- A blank connection is unused once it has its first event. -/
theorem unused_of_blank {fd : Int} {conn : Connection} {mask : BitVec 16}
    (blank : Positions.Blank fd conn) (recv : conn.recv = .fresh) (send : conn.send = .fresh)
    (starts : conn.state = .STATE_NONE ∨ conn.state = .STATE_AUTH)
    (kept : Kept (withEvent mask conn)) : Unused ⟨withEvent mask conn, []⟩ where
  recv := (withEvent_fields mask conn).1.trans recv
  send := (withEvent_send conn mask).trans send
  queue := rfl
  cb := (withEvent_cb conn mask).trans blank.cb
  kept := kept
  starts := by
    rw [withEvent_state]
    exact starts

theorem client_unused (addr : Nat) (fd : Int) : Unused ⟨clientConn addr fd, []⟩ := by
  have blank := Positions.client_blank addr addr fd
  have kept := withEvent_readable_kept blank.kept (blank.bit _) nofun
  exact unused_of_blank blank rfl rfl (.inl rfl) kept

theorem client_fresh (addr : Nat) (fd : Int) : Client ⟨clientConn addr fd, []⟩ where
  toUnused := client_unused addr fd
  flag := clientConn_flag ..
  plain := by
    have blank := Positions.client_blank addr addr fd
    have follows := withEvent_readable_follows blank.calm (blank.bit _) nofun
    exact follows.acceptable.trans (blank.bit _)

theorem server_unused (addr : Nat) (fd : Int) : Unused ⟨serverConn addr fd, []⟩ := by
  have blank := Positions.server_blank addr addr fd
  have kept := withEvent_readable_kept blank.kept (blank.bit _) nofun
  exact unused_of_blank blank rfl rfl (.inr rfl) kept

theorem listening_unused (addr : Nat) (fd : Int) :
    Unused ⟨withEvent AE_ACCEPTABLE (.fresh addr addr fd), []⟩ := by
  have blank := Positions.fresh_blank addr addr fd
  exact unused_of_blank blank rfl rfl (.inl rfl)
    (withEvent_acceptable_kept blank.kept rfl (blank.bit _) rfl)

theorem opened_client {owned : Owned} (unused : Unused owned)
    (client : owned.conn.flag = .conn_client) : Change proto world (dialling world p owned) := by
  have opened : Change proto world _ :=
    .opened (p := p) unused (by rw [client]; decide)
  rw [if_pos client] at opened
  exact opened

theorem beside_of_created {after : World}
    (others : ∀ q ≠ p, after.objects q = world.objects q)
    (number : after.next = Function.update world.next p (world.next p + 1)) :
    Beside p world after := by
  intro q apart
  rw [number, Function.update_of_ne apart]
  exact ⟨others q apart, rfl⟩

/-- A step with a new client shows the world in which the client has dialled and asked. -/
theorem shown_of_client (shown : Shown cluster world) {next : Sys} {base after : World}
    {owned : Owned} {request : Option IMString} (within : Within p world base)
    (others : ∀ q ≠ p, after.objects q = base.objects q) (reads : Reads next (after.objects p))
    (here : after.conns (p, base.next p) = some owned) (client : owned.conn.flag = .conn_client)
    (number : next.net.next = (cluster.sys p).net.next + 1)
    (effects : next.effects = (cluster.sys p).effects ++ requesting owned.conn.fd request)
    (count : after.next = Function.update base.next p (base.next p + 1))
    (inbox : after.inbox = base.inbox)
    (wires : after.wires = ask (base.wires.dial (p, base.next p)) (p, base.next p) sent request) :
    Shown (cluster.enter p sent next) after := by
  rw [within.next] at here count wires
  have place : (after.objects p).conns (cluster.sys p).net.next = some owned := by
    rw [shown.next]
    exact here
  have entered : cluster.enter p sent next = _ := enter_requesting reads place client effects
  apply shown_of_enter shown (beside_of_created
    (fun q apart => (others q apart).trans (within.others q apart)) count) reads
  · rw [number, count, Function.update_self, shown.next]
  · rw [entered, inbox, within.inbox]
    exact shown.inbox
  · rw [entered, wires, within.wires, shown.next, shown.wires]

theorem objects_create (world : World) (p : Nat) (owned : Owned) :
    (world.create p owned).objects p = (world.objects p).setConn (world.next p) (some owned) :=
  objects_setConn ..

theorem objects_create_of_ne (world : World) {p q : Nat} (apart : q ≠ p) (owned : Owned) :
    (world.create p owned).objects q = world.objects q :=
  objects_setConn_of_ne world apart ..

theorem create_here (world : World) (p : Nat) (owned : Owned) :
    (world.create p owned).conns (p, world.next p) = some owned :=
  Function.update_self ..

theorem connect_series (shown : Shown cluster world) {fd : Int} {net : Net} {conn : Option Nat}
    (done : (cluster.sys p).net.connect fd = some (net, conn)) :
    Series proto world (cluster.enter p sent { cluster.sys p with net := net }) := by
  have reads := shown.reads p
  have numbered := connect_next done
  rcases connect_cases reads.net done with ⟨-, rfl, rfl⟩ | ⟨-, rfl, opened⟩
  · exact still_series shown (.refl _) reads
  · rw [shown.next] at opened
    have unused := client_unused (world.next p) fd
    refine ⟨dialling world p ⟨clientConn (world.next p) fd, []⟩, ?_,
      .single (opened_client unused (clientConn_flag ..))⟩
    have created : Reads { cluster.sys p with net := net }
        ((world.create p ⟨clientConn (world.next p) fd, []⟩).objects p) := by
      rw [objects_create]
      exact reads.withNet opened
    have unsaid : (cluster.sys p).effects = (cluster.sys p).effects ++
        requesting (clientConn (world.next p) fd).fd none := (List.append_nil _).symm
    exact shown_of_client shown (.refl p world) (fun q apart => objects_create_of_ne world apart _)
      created (create_here ..) (clientConn_flag ..) numbered unsaid rfl rfl rfl

theorem listen_next {net after : Net} {fd : Int} (listening : net.listen fd = some after) :
    after = net ∨ after.next = net.next + 1 := by
  unfold Net.listen at listening
  split_ifs at listening
  · cases listening
    exact .inr (by simp [Net.create])
  · cases listening
    exact .inl rfl

/-- A step with a new connection that is no client. -/
theorem shown_of_created (sent : Nat) (shown : Shown cluster world) {net : Net} {owned : Owned}
    (opened : Shows noStrays net
      (Function.update (world.objects p).conns (world.next p) (some owned)))
    (other : owned.conn.flag ≠ .conn_client) (number : net.next = (cluster.sys p).net.next + 1) :
    Shown (cluster.enter p sent { cluster.sys p with net := net }) (world.create p owned) := by
  have reads : Reads { cluster.sys p with net := net } ((world.create p owned).objects p) := by
    rw [objects_create]
    exact (shown.reads p).withNet opened
  have place : ((world.create p owned).objects p).conns (cluster.sys p).net.next = some owned := by
    rw [shown.next]
    exact create_here ..
  have entered : cluster.enter p sent { cluster.sys p with net := net } = _ :=
    enter_unsaid reads place other rfl
  apply shown_of_enter shown
    (beside_of_created (fun q apart => objects_create_of_ne world apart owned) rfl) reads
  · change net.next = Function.update world.next p (world.next p + 1) p
    rw [number, Function.update_self, shown.next]
  · rw [entered]
    exact shown.inbox
  · rw [entered]
    exact shown.wires

theorem Shown.withWires (shown : Shown cluster world) (other : Wires) {wires : Wires} (same : wires = other) :
    Shown { cluster with wires := wires } { world with wires := other } :=
  ⟨shown.reads, shown.next, shown.inbox, same⟩

theorem Shown.handled (shown : Shown cluster world) {addr : Nat} {message : Dispatch}
    {rest : List (Nat × Dispatch)}
    (pending : cluster.inbox p = (addr, message) :: rest) :
    Shown { cluster with inbox := Function.update cluster.inbox p rest } (world.handled p) where
  reads := shown.reads
  next := shown.next
  inbox := by
    rw [World.handled, ← shown.inbox, pending]
    rfl
  wires := shown.wires

/-- A new connection has another number. -/
theorem net_ne_of_shows {sys : Sys} {objects : Objects} (reads : Reads sys objects) {net : Net}
    {owned : Owned}
    (opened : Shows noStrays net (Function.update objects.conns sys.net.next (some owned))) :
    net ≠ sys.net := by
  rintro rfl
  have fresh := reads.net.fresh
  rw [← reads.net.reads, opened.reads, Function.update_self] at fresh
  cases fresh

theorem listen_series (shown : Shown cluster world) {fd : Int} {net : Net}
    (done : (cluster.sys p).net.listen fd = some net) :
    Series proto world (cluster.enter p sent { cluster.sys p with net := net }) := by
  have reads := shown.reads p
  rcases listen_cases reads.net done with rfl | opened
  · exact still_series shown (.refl _) reads
  · have new := (listen_next done).resolve_left (net_ne_of_shows reads opened)
    rw [shown.next] at opened
    have flag : (withEvent AE_ACCEPTABLE (.fresh (world.next p) (world.next p) fd)).flag = .unset :=
      withEvent_flag ..
    have changes : Change proto world _ :=
      .opened (p := p) (listening_unused (world.next p) fd) (by rw [flag]; decide)
    rw [if_neg (by rw [flag]; decide)] at changes
    exact ⟨_, shown_of_created sent shown opened (by rw [flag]; decide) new, .single changes⟩

theorem accept_next {net after : Net} {event : Net.AcceptEvent}
    (accepted : net.accept event = some after) : after = net ∨ after.next = net.next + 1 := by
  unfold Net.accept at accepted
  split_ifs at accepted
  · cases accepted
    exact .inl rfl
  · cases accepted
    exact .inr (by simp [Net.create, Net.assign])
  · cases accepted
    exact .inl rfl

theorem accept_series (shown : Shown cluster world) {event : Net.AcceptEvent}
    {caller : Endpoint} {next : Cluster}
    (done : cluster.accept proto p event caller = some next) : Series proto world next := by
  unfold Cluster.accept at done
  dsimp only at done
  split_ifs at done with pending
  obtain ⟨after, performed, rfl⟩ := Option.map_eq_some_iff.mp done
  obtain ⟨sys, stepped, rfl⟩ := Option.map_eq_some_iff.mp performed
  obtain ⟨net, accepted, rfl⟩ := Option.map_eq_some_iff.mp stepped
  have reads := shown.reads p
  have now : (cluster.enter p 0 { cluster.sys p with net := net }).sys p =
      { cluster.sys p with net := net } := by
    rw [enter_sys, Function.update_self]
  rw [now, shown.next]
  rcases accept_cases reads.net accepted with rfl | opened
  · have absent : ((cluster.sys p).net.deref (world.next p)).isSome = false := by
      rw [← shown.next]
      cases found : (cluster.sys p).net.deref (cluster.sys p).net.next with
      | none => rfl
      | some conn =>
        obtain ⟨owned, here, -⟩ := reads.conn_of_deref found
        rw [reads.net.fresh] at here
        cases here
    have entered : cluster.enter p 0 { cluster.sys p with net := (cluster.sys p).net } = _ :=
      enter_calm reads (.refl _)
    rw [absent]
    have still : Shown (cluster.enter p 0 (cluster.sys p)) world :=
      shown_of_enter shown (fun _ _ => ⟨rfl, rfl⟩) reads (shown.next p)
        (by rw [entered]; exact shown.inbox) (by rw [entered]; exact shown.wires)
    refine ⟨_, still.withWires (world.wires.refuse caller) ?_, .single .refused⟩
    rw [if_neg Bool.false_ne_true, still.wires]
  · have new := (accept_next accepted).resolve_left (net_ne_of_shows reads opened)
    have there : net.deref (cluster.sys p).net.next = _ := opened.deref (Function.update_self ..)
    rw [shown.next] at opened there
    have flag : (serverConn (world.next p) event.fd).flag = .conn_server := withEvent_flag ..
    have created := shown_of_created 0 shown opened (by rw [flag]; decide) new
    rw [there]
    refine ⟨_, created.withWires (world.wires.join caller (p, world.next p)) ?_,
      .single (.joined (server_unused (world.next p) event.fd) flag ?_)⟩
    · rw [Option.isSome_some, if_pos rfl, created.wires]
      rfl
    · rw [← shown.wires]
      exact pending.1

/-! ### Reads and writes -/

/-- The tail of a callback that fails: the connection is broken, and closed when it is no client. -/
theorem fail_changes {base : World} {addr : Nat} {owned : Owned} {recv : RecvPkt}
    {state : ConnState} {heap : Heap} {sys next : Sys}
    (here : base.conns (p, addr) = some owned) (idle : base.inbox p = [])
    (registered : owned.conn.wevent = true ∨ owned.conn.evs &&& AE_ACCEPTABLE = 0)
    (broken : Broken state)
    (reads : Reads sys ((base.objects p).setConn addr
      (some ⟨{ owned.conn with recv := recv }, owned.queue⟩)))
    (done : sys.fail heap addr state = some next) :
    ∃ conns nodes, Changes proto base { base with conns := conns, nodes := nodes } ∧
      Reads next ({ base with conns := conns, nodes := nodes }.objects p) ∧
      (∀ q ≠ p, { base with conns := conns, nodes := nodes }.objects q = base.objects q) ∧
      ∀ left, conns (p, addr) = some left → Broken left.conn.state := by
  have after := fail_reads reads (Function.update_self ..) broken done
  rw [← Objects.notify_setConn, Objects.setConn_setConn] at after
  rw [← objects_notify, ← objects_setConn] at after
  refine ⟨_, _, .single (.broke idle here registered broken), after, fun q apart => ?_,
    fun left there => ?_⟩
  · exact (objects_setConn_of_ne _ apart ..).trans (objects_notify_of_ne base apart ..)
  · have stays := (Function.update_self ..).symm.trans there
    split_ifs at stays
    · cases stays
      rw [withoutEvent_state]
      exact broken

/-- A calm step, but for what the callback itself gives to the wires and takes from them. -/
theorem calm_shown (shown : Shown cluster world) {next : Sys} {after : World}
    (calm : Calm (cluster.sys p) next) (reads : Reads next (after.objects p))
    (others : ∀ q ≠ p, after.objects q = world.objects q)
    (same : after.next = world.next ∧ after.inbox = world.inbox) {wires : Wires}
    (told : wires = after.wires) :
    Shown { cluster.enter p sent next with wires := wires } after := by
  have entered : cluster.enter p sent next = _ := enter_calm reads calm
  have beside : Beside p world { after with wires := world.wires } :=
    fun q apart => ⟨others q apart, congrFun same.1 q⟩
  have there : Reads next ({ after with wires := world.wires }.objects p) := reads
  have quiet : Shown (cluster.enter p sent next) { after with wires := world.wires } := by
    apply shown_of_enter shown beside there
    · rw [calm.numbered, same.1]
      exact shown.next p
    · rw [entered, same.2]
      exact shown.inbox
    · rw [entered]
      exact shown.wires
  exact quiet.withWires _ told

theorem shown_of_dispatches (sent : Nat) (shown : Shown cluster world) {next : Sys} {after : World} {addr : Nat}
    {out : List Dispatch} (reads : Reads next (after.objects p))
    (others : ∀ q ≠ p, after.objects q = world.objects q)
    (number : next.net.next = (cluster.sys p).net.next)
    (effects : next.effects = (cluster.sys p).effects ++ out.map (.dispatch addr)) :
    Shown (cluster.enter p sent next)
      ({ after with next := world.next, inbox := world.inbox, wires := world.wires }.post p addr
        out) := by
  have entered : cluster.enter p sent next = _ := enter_dispatches reads number effects
  refine shown_of_enter shown (fun q apart => ⟨others q apart, rfl⟩) reads ?_ ?_ ?_
  · exact number.trans (shown.next p)
  · rw [entered, shown.inbox]
    rfl
  · rw [entered]
    exact shown.wires

theorem read_series (shown : Shown cluster world) {addr : Nat} {event : ReadEvent} {heap : Heap}
    {next : Cluster} (idle : cluster.inbox p = [])
    (done : cluster.read proto p addr event heap = some next) : Series proto world next := by
  obtain ⟨conn, found, done⟩ := Option.bind_eq_some_iff.mp done
  dsimp only at done
  split_ifs at done with guards
  obtain ⟨registered, plain, arrived⟩ := guards
  obtain ⟨after, performed, rfl⟩ := Option.map_eq_some_iff.mp done
  obtain ⟨sys, stepped, rfl⟩ := Option.map_eq_some_iff.mp performed
  have reads := shown.reads p
  obtain ⟨owned, here, rfl⟩ := reads.conn_of_deref found
  have there : world.conns (p, addr) = some owned := here
  obtain ⟨other, pointed, stepped⟩ := Option.bind_eq_some_iff.mp stepped
  cases found.symm.trans pointed
  have stored := fun recv => reads.assign here (f := fun conn => { conn with recv := recv })
    ⟨fun _ => rfl, fun _ => rfl, fun _ => rfl, fun _ => rfl⟩
  rw [shown.wires] at arrived
  split at stepped
  · next recv out parsed =>
    cases stepped
    have kept := stored recv
    have received : Reads { cluster.sys p with
        net := (cluster.sys p).net.assign addr fun conn => { conn with recv := recv }
        effects := (cluster.sys p).effects ++ out.map (.dispatch addr) }
        ((world.setConn (p, addr) (some ⟨{ owned.conn with recv := recv }, owned.queue⟩)).objects
          p) := by
      rw [objects_setConn]
      exact ⟨kept.net, kept.addrs, kept.below, kept.nodes⟩
    have posts := shown_of_dispatches 0 shown received
      (fun q apart => objects_setConn_of_ne world apart ..) rfl rfl
    refine ⟨_, posts.withWires _ ?_, .single (.parsed there registered plain arrived parsed)⟩
    rw [posts.wires]
    rfl
  · next recv state ended =>
    have broken := readThenParse_failed ended
    obtain ⟨conns, nodes, changes, failed, others, finished⟩ := fail_changes there
      ((congrFun shown.inbox p).symm.trans idle) (.inr plain) broken (stored recv) stepped
    have calm := fail_calm stepped
    have spilt : Change proto { world with conns := conns, nodes := nodes } _ :=
      .spilt finished arrived
    refine ⟨_, calm_shown shown ⟨calm.numbered, calm.effects⟩ ?_ ?_ ?_ ?_, changes.tail spilt⟩
    · exact failed
    · exact others
    · exact ⟨rfl, rfl⟩
    · have entered : cluster.enter p 0 _ = _ := enter_calm failed ⟨calm.numbered, calm.effects⟩
      rw [entered, shown.wires]
  · cases stepped

/-- What `Connection::write` has taken from the queue is given to the kernel. -/
def written (world : World) (e : Endpoint) (outcomes : List SendResult) (owned : Owned)
    (conn : Connection) : World :=
  { world.setConn e (some ⟨conn, (owned.written outcomes).queue⟩) with
    wires := world.wires.give e (Core.Sending.write outcomes owned.queue owned.conn.send).accepted }

theorem write_series (shown : Shown cluster world) {addr : Nat} {outcomes : List SendResult}
    {heap : Heap} {next : Cluster} (idle : cluster.inbox p = [])
    (done : cluster.write proto p addr outcomes heap = some next) : Series proto world next := by
  obtain ⟨conn, found, done⟩ := Option.bind_eq_some_iff.mp done
  have reads := shown.reads p
  obtain ⟨owned, here, rfl⟩ := reads.conn_of_deref found
  have there : world.conns (p, addr) = some owned := here
  obtain ⟨net, wrote, shows⟩ := writeConn_shows reads.net here outcomes
  rw [wrote] at done
  simp only [Option.bind_eq_bind, Option.bind_some] at done
  split_ifs at done with guards
  obtain ⟨registered, whole⟩ := guards
  rw [shown.wires] at whole
  obtain ⟨after, performed, rfl⟩ := Option.map_eq_some_iff.mp done
  obtain ⟨sys, stepped, rfl⟩ := Option.map_eq_some_iff.mp performed
  have stored : Reads { cluster.sys p with net := net }
      ((world.objects p).setConn addr (some (owned.written outcomes))) := reads.withNet shows
  have calm : Calm (cluster.sys p) sys := write_calm stepped
  have writes : ∀ conn, Rests (owned.written outcomes).conn conn →
      Change proto world (written world (p, addr) outcomes owned conn) :=
    fun conn rests => .wrote there rests whole
  have told : ∀ {objects}, Reads sys objects → (cluster.enter p 0 sys).wires = world.wires := by
    intro objects reads
    have entered : cluster.enter p 0 sys = _ := enter_calm reads calm
    rw [entered]
    exact shown.wires
  -- a write that stays connected gives the connection back with what is left of its events
  have ends : ∀ conn, Rests (owned.written outcomes).conn conn →
      Reads sys ((written world (p, addr) outcomes owned conn).objects p) →
      Series proto world { cluster.enter p 0 sys with
        wires := (cluster.enter p 0 sys).wires.give (p, addr)
          (Core.Sending.write outcomes owned.queue owned.conn.send).accepted } := by
    intro conn rests after
    refine ⟨written world (p, addr) outcomes owned conn, ?_, .single (writes conn rests)⟩
    exact calm_shown shown calm after (fun q apart => objects_setConn_of_ne world apart ..)
      ⟨rfl, rfl⟩ (by rw [told after]; rfl)
  have breaks : ∀ state, Broken state →
      Sys.fail { cluster.sys p with net := net } heap addr state = some sys →
      Series proto world { cluster.enter p 0 sys with
        wires := (cluster.enter p 0 sys).wires.give (p, addr)
          (Core.Sending.write outcomes owned.queue owned.conn.send).accepted } := by
    intro state broken failed
    have base : Reads { cluster.sys p with net := net } (((written world (p, addr) outcomes owned
        (owned.written outcomes).conn).objects p).setConn addr (some ⟨{ (owned.written outcomes).conn
          with recv := owned.conn.recv }, (owned.written outcomes).queue⟩)) := by
      change Reads _ (((world.setConn (p, addr) (some (owned.written outcomes))).objects p).setConn
        addr (some (owned.written outcomes)))
      rw [objects_setConn, Objects.setConn_setConn]
      exact stored
    have place : (written world (p, addr) outcomes owned (owned.written outcomes).conn).conns
        (p, addr) = some (owned.written outcomes) := Function.update_self ..
    obtain ⟨conns, nodes, changes, last, others, -⟩ := fail_changes place
      ((congrFun shown.inbox p).symm.trans idle) (.inl registered) broken base failed
    refine ⟨_, ?_, .head (writes _ (.refl _)) changes⟩
    exact calm_shown shown calm last (fun q apart => (others q apart).trans
      (objects_setConn_of_ne world apart ..)) ⟨rfl, rfl⟩ (by rw [told last]; rfl)
  have again : (cluster.sys p).write heap addr outcomes = some sys := stepped
  simp only [Sys.write, wrote, Option.bind_eq_bind, Option.bind_some] at again
  split at again
  · cases again
  · exact breaks _ (.inr rfl) again
  · exact breaks _ (.inl rfl) again
  · have here := Function.update_self addr (some (owned.written outcomes)) (world.objects p).conns
    simp only [stored.net.deref here, stored.net.emptyConn here, Option.bind_some] at again
    by_cases drained : empty (owned.written outcomes).queue (owned.written outcomes).conn.send
    · rw [if_pos drained] at again
      cases again
      apply ends _ (withoutEvent_rests _)
      change Reads _ ((world.setConn (p, addr) (some ⟨withoutEvent AE_WRITABLE
        (owned.written outcomes).conn, (owned.written outcomes).queue⟩)).objects p)
      rw [objects_setConn, ← Objects.setConn_setConn]
      exact stored.withNet (delFileEvent_shows stored.net here AE_WRITABLE)
    · rw [if_neg drained] at again
      cases again
      apply ends _ (.refl _)
      change Reads _ ((world.setConn (p, addr) (some (owned.written outcomes))).objects p)
      rw [objects_setConn]
      exact stored

end Steps

end SNFrame.System.Correspondence
