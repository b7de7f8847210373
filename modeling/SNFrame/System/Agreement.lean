import SNFrame.System.Circuit
import SNFrame.System.Coverage

/-! The agreement of the two ends of a connection on who has been authenticated: what holds of
every connection, node and message of all processes at any point of any run. -/

namespace SNFrame.System.Agreement
open Library.Octet Library.Table Library.Transition Base.PbBuf Core.Receiving Core.Sending
open Core.TcpParse Core.NetManager Core.NodeMgr Core.CommonProto Receive.Parcels Receive.Callback
open Send.SendStream Ownership Tables Turns Registration Supervision Processes Requests Traffic
open Exchange Circuit
open Base.Checksum (held)

/-! ### The invariant -/

/-- What there is of a connection outside its process. -/
structure Spot where
  caller : Bool
  severed : Bool
  given : List Byte
  received : List Byte
  stream : List (List Byte)
  upstream : List (List Byte)

def spot (wires : Wires) (streams : Streams) (e : Endpoint) : Spot :=
  ⟨wires.caller e, wires.severed e, wires.given e, wires.received e, streams e,
    upstream wires streams e⟩

/-- A persistent node of the process with these ids has the connection. -/
def Serves (nodes : Endpoint → Option Node) (e : Endpoint) (ids : BitVec 16 × BitVec 32) : Prop :=
  ∃ place node, nodes (e.1, place) = some node ∧ node.m_persist = true ∧
    node.m_context = some e.2 ∧ (node.m_type, node.m_id) = ids

/-- A connection between two callbacks. What it was asked and told is what it and its node
say. -/
structure Living (proto : Proto) (spot : Spot) (serves : BitVec 16 × BitVec 32 → Prop)
    (owned : Owned) : Prop where
  kept : Kept owned.conn
  quiet : Broken owned.conn.state → Unregistered owned.conn
  calls : Broken owned.conn.state → spot.caller = true
  client : owned.conn.flag = .conn_client ↔ spot.caller = true
  sending : Sending owned.queue owned.conn.send
  pours : spot.severed = false →
    spot.given ++ unsentBytes owned.queue owned.conn.send = spot.stream.flatten
  plain : spot.caller = true → ∀ msg ∈ owned.queue, Plain proto msg.bytes
  pieces : ¬Broken owned.conn.state → owned.conn.evs &&& AE_ACCEPTABLE = 0 →
    InPieces spot.upstream spot.received owned.conn.recv
  asked : ∀ ids, Asked proto spot.stream ids → serves ids
  told : ∀ ids, Told proto spot.stream ids → ¬Broken owned.conn.state →
    owned.conn.state = .STATE_CONNECTED ∧ (owned.conn.sid, owned.conn.nid) = ids
  admitted : owned.conn.state = .STATE_CONNECTED → spot.caller = false →
    Asked proto spot.upstream (owned.conn.sid, owned.conn.nid)

/-- The connection of a persistent node, and whether it has been told that it is authenticated. -/
structure Backed (proto : Proto) (world : World) (streams : Streams) (p place : Nat) (node : Node)
    (addr : Nat) (owned : Owned) : Prop where
  placed : node.addr = place
  context : node.m_context = some addr
  here : world.conns (p, addr) = some owned
  cb : owned.conn.cb = some place
  caller : world.wires.caller (p, addr) = true
  able : node.m_state = .NODE_ABLE → owned.conn.state = .STATE_CONNECTED ∧
    Told proto (upstream world.wires streams (p, addr)) (node.m_type, node.m_id)

/-- A message that is still to be handled is a copy of a frame of the other end, and the
connection is there. -/
structure Awaited (world : World) (streams : Streams) (p : Nat) (entry : Nat × Dispatch)
    (owned : Owned) : Prop where
  here : world.conns (p, entry.1) = some owned
  unbroken : ¬Broken owned.conn.state
  plain : owned.conn.evs &&& AE_ACCEPTABLE = 0
  copy : CopyOf (upstream world.wires streams (p, entry.1)) entry.2

structure Agreed (proto : Proto) (world : World) (streams : Streams) : Prop where
  wired : Wired world.next world.wires streams
  spoken : Spoken proto world.wires streams
  born : ∀ e owned, world.conns e = some owned → e.2 < world.next e.1
  living : ∀ e owned, world.conns e = some owned →
    Living proto (spot world.wires streams e) (Serves world.nodes e) owned
  backed : ∀ p place node, world.nodes (p, place) = some node → node.m_persist = true →
    ∃ addr owned, Backed proto world streams p place node addr owned
  awaited : ∀ p, ∀ entry ∈ world.inbox p, ∃ owned, Awaited world streams p entry owned

theorem empty_agreed (proto : Proto) : Agreed proto .empty fun _ => [] where
  wired := by
    constructor
    · exact fun _ _ => ⟨rfl, rfl, rfl, rfl, rfl, rfl, rfl⟩
    · exact fun _ _ none => nomatch none
    · exact fun _ _ none => nomatch none
    · exact fun _ none => nomatch none
    · exact fun _ => List.nil_prefix
    · exact fun _ => List.nil_prefix
    · exact fun _ _ none => nomatch none
  spoken := by
    constructor
    · exact fun _ _ asked => absurd asked not_carried_nil
    · exact fun _ _ _ asked => absurd asked not_carried_nil
    · exact fun _ _ told => absurd told not_carried_nil
  born := fun _ _ none => nomatch none
  living := fun _ _ none => nomatch none
  backed := fun _ _ _ none => nomatch none
  awaited := fun _ _ none => nomatch none

/-! ### One connection -/

section Living
variable {proto : Proto} {spot_ : Spot} {serves : BitVec 16 × BitVec 32 → Prop} {owned : Owned}

/-- The other end is given more frames to send. -/
theorem Living.grown (living : Living proto spot_ serves owned) {frames : List (List Byte)}
    (grows : spot_.upstream <+: frames) {holds : BitVec 16 × BitVec 32 → Prop}
    (still : ∀ ids, serves ids → holds ids) :
    Living proto { spot_ with upstream := frames } holds owned where
  kept := living.kept
  quiet := living.quiet
  calls := living.calls
  client := living.client
  sending := living.sending
  pours := living.pours
  plain := living.plain
  pieces := by
    intro unbroken listens
    obtain ⟨more, rfl⟩ := grows
    exact (living.pieces unbroken listens).append more
  asked := fun ids asked => still ids (living.asked ids asked)
  told := living.told
  admitted := fun connected server => (living.admitted connected server).mono grows

theorem unsentBytes_append (queue more : List IMString) (send : SendPkt) :
    unsentBytes (queue ++ more) send =
      unsentBytes queue send ++ (more.map IMString.bytes).flatten := by
  rw [unsentBytes, unsentBytes, List.map_append, List.flatten_append, List.append_assoc]

theorem sending_append {queue more : List IMString} {send : SendPkt} (sending : Sending queue send)
    (sound : ∀ msg ∈ more, Sound msg) : Sending (queue ++ more) send where
  bounds := sending.bounds
  current := sending.current
  queued := by
    intro msg inside
    obtain before | new := List.mem_append.mp inside
    · exact sending.queued msg before
    · exact sound msg new

/-- A message of the queue after a write was in the queue before. -/
theorem write_queue (outcomes : List SendResult) (queue : List IMString) (send : SendPkt) :
    (write outcomes queue send).queue ⊆ queue := by
  have taken : ∀ (queue : List IMString) (send : SendPkt)
      (body : List IMString → SendPkt → WriteTrace),
      (∀ queue send, (body queue send).queue ⊆ queue) → (whilePkt queue send body).queue ⊆ queue := by
    intro queue send body within
    simp only [whilePkt]
    cases next : nextPkt queue send with
    | none => exact List.Subset.refl _
    | some both =>
      refine List.Subset.trans (within both.1 both.2) ?_
      unfold nextPkt at next
      split_ifs at next
      · cases next
        exact List.Subset.refl _
      · cases queue with
        | nil => cases next
        | cons msg rest =>
          cases next
          exact List.subset_cons_self msg rest
  unfold write
  induction outcomes generalizing queue send with
  | nil => exact taken queue send _ fun queue _ => List.Subset.refl queue
  | cons outcome outcomes ih =>
    cases outcome with
    | failed errno =>
      apply taken
      intro queue send
      cases errno <;> exact List.Subset.refl queue
    | sent count =>
      apply taken
      intro queue send
      dsimp only
      split_ifs
      · exact List.Subset.refl queue
      · exact ih queue _

theorem Living.rests (living : Living proto spot_ serves owned) {conn : Connection}
    (rests : Rests owned.conn conn) : Living proto spot_ serves ⟨conn, owned.queue⟩ where
  kept := rests.kept living.kept
  quiet := by
    intro broken
    rw [rests.state] at broken
    exact rests.quiet broken (living.quiet broken)
  calls := by
    rw [rests.state]
    exact living.calls
  client := by
    rw [rests.flag]
    exact living.client
  sending := by
    rw [rests.send]
    exact living.sending
  pours := by
    rw [rests.send]
    exact living.pours
  plain := living.plain
  pieces := by
    rw [rests.state, rests.acceptable, rests.recv]
    exact living.pieces
  asked := living.asked
  told := by
    rw [rests.state, rests.sid, rests.nid]
    exact living.told
  admitted := by
    rw [rests.state, rests.sid, rests.nid]
    exact living.admitted

/-- Messages that say nothing but what the connection has been told. -/
theorem Living.pushed (living : Living proto spot_ serves owned) {more : List IMString}
    (sound : ∀ msg ∈ more, Sound msg)
    (plain : spot_.caller = true → ∀ msg ∈ more, Plain proto msg.bytes)
    (asked : ∀ ids, ¬Asked proto (more.map IMString.bytes) ids)
    (told : ∀ ids, Told proto (more.map IMString.bytes) ids →
      owned.conn.state = .STATE_CONNECTED ∧ (owned.conn.sid, owned.conn.nid) = ids) :
    Living proto { spot_ with stream := spot_.stream ++ more.map IMString.bytes } serves
      ⟨owned.conn, owned.queue ++ more⟩ where
  kept := living.kept
  quiet := living.quiet
  calls := living.calls
  client := living.client
  sending := sending_append living.sending sound
  pours := by
    intro whole
    rw [unsentBytes_append, ← List.append_assoc, living.pours whole, List.flatten_append]
  plain := by
    intro caller msg inside
    obtain before | new := List.mem_append.mp inside
    · exact living.plain caller msg before
    · exact plain caller msg new
  pieces := living.pieces
  asked := fun ids said => living.asked ids ((carried_append.mp said).resolve_right (asked ids))
  told := by
    intro ids said unbroken
    obtain before | new := carried_append.mp said
    · exact living.told ids before unbroken
    · exact told ids new
  admitted := living.admitted

theorem Living.written (living : Living proto spot_ serves owned) (outcomes : List SendResult) :
    Living proto { spot_ with
      given := spot_.given ++ (write outcomes owned.queue owned.conn.send).accepted } serves
        (owned.written outcomes) := by
  obtain ⟨sending, pours⟩ := write_sending outcomes living.sending
  have follows : Follows owned.conn (owned.written outcomes).conn := .of_fields rfl rfl rfl rfl rfl rfl rfl
  refine ⟨follows.kept living.kept, living.quiet, living.calls, living.client, sending, fun whole => ?_, fun caller msg inside => ?_,
    living.pieces, living.asked, living.told, living.admitted⟩
  · rw [← living.pours whole, pours, List.append_assoc]
    rfl
  · exact living.plain caller msg (write_queue _ _ _ inside)

theorem Living.received (living : Living proto spot_ serves owned) {bytes : List Byte}
    {recv : RecvPkt} (pieces : ¬Broken owned.conn.state → InPieces spot_.upstream bytes recv) :
    Living proto { spot_ with received := bytes } serves
      ⟨{ owned.conn with recv := recv }, owned.queue⟩ where
  kept := by
    have follows : Follows owned.conn { owned.conn with recv := recv } :=
      .of_fields rfl rfl rfl rfl rfl rfl rfl
    exact follows.kept living.kept
  quiet := living.quiet
  calls := living.calls
  client := living.client
  sending := living.sending
  pours := living.pours
  plain := living.plain
  pieces := fun unbroken _ => pieces unbroken
  asked := living.asked
  told := living.told
  admitted := living.admitted

/-- The connection enters STATE_CONNECTED, as the node that it was asked to be. -/
theorem Living.connected (living : Living proto spot_ serves owned)
    (plain : owned.conn.evs &&& AE_ACCEPTABLE = 0) (unbroken : ¬Broken owned.conn.state)
    {ids : BitVec 16 × BitVec 32} (told : ∀ other, Told proto spot_.stream other → ids = other)
    (admitted : spot_.caller = false → Asked proto spot_.upstream ids) :
    Living proto spot_ serves ⟨{ owned.conn with
      sid := ids.1, nid := ids.2, state := .STATE_CONNECTED }, owned.queue⟩ where
  kept := ⟨⟨living.kept.writable, living.kept.readable⟩, fun listens => absurd plain listens,
    fun none => (by cases none), living.kept.unread⟩
  quiet := fun broken => absurd rfl (unconnected_of_broken broken)
  calls := fun broken => absurd rfl (unconnected_of_broken broken)
  client := living.client
  sending := living.sending
  pours := living.pours
  plain := living.plain
  pieces := fun _ => living.pieces unbroken
  asked := living.asked
  told := fun other said _ => ⟨rfl, told other said⟩
  admitted := fun _ => admitted

/-- The tail of a callback that fails. -/
theorem Living.broken (living : Living proto spot_ serves owned)
    (plain : owned.conn.evs &&& AE_ACCEPTABLE = 0) (recv : RecvPkt) {state : ConnState}
    (broken : Broken state) (caller : spot_.caller = true) :
    Living proto spot_ serves ⟨withoutEvent (AE_READABLE ||| AE_WRITABLE)
      { owned.conn with recv := recv, state := state }, owned.queue⟩ := by
  have kept : Kept { owned.conn with recv := recv, state := state } := by
    refine ⟨⟨living.kept.writable, living.kept.readable⟩, fun listens => absurd plain listens, ?_,
      living.kept.unread⟩
    rintro rfl
    exact absurd broken (by decide)
  obtain ⟨removed, quiet⟩ := withoutEvent_both kept plain
  have failed : Broken (withoutEvent (AE_READABLE ||| AE_WRITABLE)
      { owned.conn with recv := recv, state := state }).state := by
    rw [Simulation.withoutEvent_state]
    exact broken
  refine ⟨removed, fun _ => quiet, fun _ => caller, ?_, ?_, ?_, living.plain,
    fun unbroken => absurd failed unbroken, living.asked, fun _ _ unbroken => absurd failed unbroken,
    fun connected => absurd connected (unconnected_of_broken failed)⟩
  · rw [Simulation.withoutEvent_flag]
    exact living.client
  · rw [Simulation.withoutEvent_send]
    exact living.sending
  · rw [Simulation.withoutEvent_send]
    exact living.pours

/-- The events of a connection that listens are not those of a connection that sends. -/
theorem plain_of_registered (kept : Kept owned.conn)
    (registered : owned.conn.wevent = true ∨ owned.conn.evs &&& AE_ACCEPTABLE = 0) :
    owned.conn.evs &&& AE_ACCEPTABLE = 0 := by
  refine registered.elim (fun writes => ?_) id
  by_contra listens
  exact kept.writable.mpr writes (kept.unarmed (kept.listening listens).1)

theorem unbroken_of_read (quiet : Broken owned.conn.state → Unregistered owned.conn)
    (registered : owned.conn.revent = true) : ¬Broken owned.conn.state := by
  intro broken
  rw [(quiet broken).1] at registered
  cases registered

end Living

/-! ### Changes of one connection -/

/-- The node stays what it is to its connection. -/
structure Stays (before after : Node) : Prop where
  addr : after.addr = before.addr
  context : after.m_context = before.m_context
  type : after.m_type = before.m_type
  id : after.m_id = before.m_id
  persist : after.m_persist = before.m_persist

theorem Stays.refl (node : Node) : Stays node node := ⟨rfl, rfl, rfl, rfl, rfl⟩

section World
variable {proto : Proto} {world after : World} {streams later : Streams} {e : Endpoint}

theorem spot_of_ne (touches : Touches e world.wires after.wires streams later)
    {f : Endpoint} (apart : f ≠ e) : spot after.wires later f =
      { spot world.wires streams f with upstream := upstream after.wires later f } := by
  rw [spot, touches.caller f apart, touches.severed f apart, touches.given f apart,
    touches.received f apart, touches.sent f apart]
  rfl

theorem Backed.still {p place addr : Nat} {node other : Node} {owned new : Owned}
    (backed : Backed proto world streams p place node addr owned) (stays : Stays node other)
    (there : after.conns (p, addr) = some new) (cb : new.conn.cb = owned.conn.cb)
    (caller : after.wires.caller (p, addr) = world.wires.caller (p, addr))
    (grows : upstream world.wires streams (p, addr) <+: upstream after.wires later (p, addr))
    (able : other.m_state = .NODE_ABLE → node.m_state = .NODE_ABLE ∧
      (owned.conn.state = .STATE_CONNECTED → new.conn.state = .STATE_CONNECTED)) :
    Backed proto after later p place other addr new where
  placed := stays.addr.trans backed.placed
  context := stays.context.trans backed.context
  here := there
  cb := cb.trans backed.cb
  caller := caller.trans backed.caller
  able := by
    intro isAble
    obtain ⟨was, still⟩ := able isAble
    obtain ⟨connected, told⟩ := backed.able was
    rw [stays.type, stays.id]
    exact ⟨still connected, told.mono grows⟩

/-- What has to be shown when a step touches one connection. -/
theorem Agreed.touched (agreed : Agreed proto world streams)
    (touches : Touches e world.wires after.wires streams later)
    (wired : Wired after.next after.wires later) (spoken : Spoken proto after.wires later)
    (conns : ∀ f ≠ e, after.conns f = world.conns f) (grows : ∀ p, world.next p ≤ after.next p)
    (born : ∀ owned, after.conns e = some owned → e.2 < after.next e.1)
    (living : ∀ owned, after.conns e = some owned →
      Living proto { spot after.wires later e with upstream := upstream world.wires streams e }
        (Serves after.nodes e) owned)
    (serves : ∀ f ≠ e, ∀ owned, world.conns f = some owned → ∀ ids, Serves world.nodes f ids →
      Serves after.nodes f ids)
    (backed : ∀ p place node, after.nodes (p, place) = some node → node.m_persist = true →
      (∃ addr owned, Backed proto world streams p place node addr owned ∧ (p, addr) ≠ e) ∨
        ∃ addr owned, Backed proto after later p place node addr owned)
    (awaited : ∀ p, ∀ entry ∈ after.inbox p,
      (∃ owned, Awaited world streams p entry owned ∧ (p, entry.1) ≠ e) ∨
        ∃ owned, Awaited after later p entry owned) : Agreed proto after later where
  wired := wired
  spoken := spoken
  born := by
    intro f owned there
    by_cases same : f = e
    · subst same
      exact born owned there
    · rw [conns f same] at there
      exact lt_of_lt_of_le (agreed.born f owned there) (grows f.1)
  living := by
    intro f owned there
    by_cases same : f = e
    · subst same
      exact (living owned there).grown (touches.upstream_grows f) fun _ => id
    · rw [conns f same] at there
      rw [spot_of_ne touches same]
      exact (agreed.living f owned there).grown (touches.upstream_grows f) (serves f same owned there)
  backed := by
    intro p place node found persistent
    rcases backed p place node found persistent with ⟨addr, owned, was, apart⟩ | now
    · refine ⟨addr, owned, was.still (.refl node) ?_ rfl (touches.caller _ apart)
        (touches.upstream_grows _) fun able => ⟨able, id⟩⟩
      rw [conns _ apart]
      exact was.here
    · exact now
  awaited := by
    intro p entry inside
    rcases awaited p entry inside with ⟨owned, was, apart⟩ | now
    · refine ⟨owned, ?_, was.unbroken, was.plain,
        was.copy.mono (touches.upstream_grows _).subset⟩
      rw [conns _ apart]
      exact was.here
    · exact now

/-- A connection goes on: its node, if it has one, is not misled, and neither is what is still to
be handled. -/
theorem Agreed.continued (agreed : Agreed proto world streams) {owned new : Owned}
    (touches : Touches e world.wires after.wires streams later)
    (wired : Wired after.next after.wires later) (spoken : Spoken proto after.wires later)
    (here : world.conns e = some owned) (conns : after.conns = Function.update world.conns e (some new))
    (nodes : after.nodes = world.nodes) (next : after.next = world.next)
    (living : Living proto
      { spot after.wires later e with upstream := upstream world.wires streams e }
      (Serves world.nodes e) new)
    (cb : new.conn.cb = owned.conn.cb) (caller : after.wires.caller e = world.wires.caller e)
    (able : ∀ place node, world.nodes (e.1, place) = some node → node.m_state = .NODE_ABLE →
      owned.conn.cb = some place → owned.conn.state = .STATE_CONNECTED →
        new.conn.state = .STATE_CONNECTED)
    (awaited : ∀ p, ∀ entry ∈ after.inbox p, ∃ old, Awaited world streams p entry old ∧
      ((p, entry.1) = e → ¬Broken new.conn.state ∧ new.conn.evs &&& AE_ACCEPTABLE = 0)) :
    Agreed proto after later := by
  have there : after.conns e = some new := by rw [conns, Function.update_self]
  refine agreed.touched touches wired spoken (fun f apart => ?_) (fun p => le_of_eq (by rw [next]))
    (fun _ _ => by rw [next]; exact agreed.born e owned here) (fun other found => ?_) ?_
    (fun p place node found persistent => ?_) fun p entry inside => ?_
  · rw [conns, Function.update_of_ne apart]
  · cases there.symm.trans found
    rw [nodes]
    exact living
  · rw [nodes]
    exact fun _ _ _ _ _ => id
  · rw [nodes] at found
    obtain ⟨addr, held, backed⟩ := agreed.backed p place node found persistent
    by_cases same : (p, addr) = e
    · subst same
      cases here.symm.trans backed.here
      exact .inr ⟨addr, new, backed.still (.refl node) there cb caller (touches.upstream_grows _)
        fun isAble => ⟨isAble, able place node found isAble backed.cb⟩⟩
    · exact .inl ⟨addr, held, backed, same⟩
  · obtain ⟨old, was, sound⟩ := awaited p entry inside
    by_cases same : (p, entry.1) = e
    · obtain ⟨unbroken, plain⟩ := sound same
      refine .inr ⟨new, ?_, unbroken, plain, was.copy.mono (touches.upstream_grows _).subset⟩
      rw [same, there]
    · exact .inl ⟨old, was, same⟩

/-! ### Sending, receiving and handling -/

theorem setConn_setConn (world : World) (e : Endpoint) (before after : Option Owned) :
    (world.setConn e before).setConn e after = world.setConn e after := by
  simp only [World.setConn, Function.update_idem]

/-- While a message of a connection is to be handled, the connection is whole. -/
theorem Agreed.awaits (agreed : Agreed proto world streams) {owned : Owned}
    (here : world.conns e = some owned) {p : Nat} {entry : Nat × Dispatch}
    (inside : entry ∈ world.inbox p) : ∃ old, Awaited world streams p entry old ∧
      ((p, entry.1) = e → ¬Broken owned.conn.state ∧ owned.conn.evs &&& AE_ACCEPTABLE = 0) := by
  obtain ⟨old, awaited⟩ := agreed.awaited p entry inside
  refine ⟨old, awaited, fun same => ?_⟩
  have was := awaited.here
  rw [same, here, Option.some.injEq] at was
  rw [was]
  exact ⟨awaited.unbroken, awaited.plain⟩

/-- Messages are put into the queue. -/
theorem Agreed.pushed (agreed : Agreed proto world streams) {owned : Owned} {conn : Connection}
    {more : List IMString} (here : world.conns e = some owned) (rests : Rests owned.conn conn)
    (sound : ∀ msg ∈ more, Sound msg) (parcels : ∀ msg ∈ more, Parcel msg.bytes)
    (plain : world.wires.caller e = true → ∀ msg ∈ more, Plain proto msg.bytes)
    (asked : ∀ ids, ¬Asked proto (more.map IMString.bytes) ids)
    (told : ∀ ids, Told proto (more.map IMString.bytes) ids →
      owned.conn.state = .STATE_CONNECTED ∧ (owned.conn.sid, owned.conn.nid) = ids ∧
        Asked proto (upstream world.wires streams e) ids) :
    Agreed proto (world.setConn e (some ⟨conn, owned.queue ++ more⟩))
      (Function.update streams e (streams e ++ more.map IMString.bytes)) := by
  have touches := touches_push e world.wires streams (more.map IMString.bytes)
  have living := ((agreed.living e owned here).rests rests).pushed sound plain asked fun ids said =>
    ⟨rests.state.trans (told ids said).1, by rw [rests.sid, rests.nid, (told ids said).2.1]⟩
  refine agreed.continued touches ?_ ?_ here rfl rfl rfl ?_ rests.cb rfl ?_ ?_
  · apply agreed.wired.touched touches (fun _ => le_rfl) (agreed.born e owned here)
      (agreed.wired.waiting e) _ (agreed.wired.received e)
    · intro frame inside
      rw [Function.update_self] at inside
      obtain before | new := List.mem_append.mp inside
      · exact agreed.wired.parcels e frame before
      · obtain ⟨msg, pushed, rfl⟩ := List.mem_map.mp new
        exact parcels msg pushed
    · rw [Function.update_self, List.flatten_append]
      exact (agreed.wired.given e).trans (List.prefix_append ..)
  · have before : ∀ ids, Asked proto (streams e ++ more.map IMString.bytes) ids →
        Asked proto (streams e) ids := fun ids said =>
      (carried_append.mp said).resolve_right (asked ids)
    apply agreed.spoken.touched touches <;> rw [Function.update_self]
    · exact fun ids said => agreed.spoken.asks e ids (before ids said)
    · exact fun ids other said also =>
        agreed.spoken.once e ids other (before ids said) (before other also)
    · intro ids said
      obtain early | new := carried_append.mp said
      · exact agreed.spoken.tells e ids early
      · exact (told ids new).2.2
  · rw [spot, Function.update_self]
    exact living
  · intro _ _ _ _ _ connected
    exact rests.state.trans connected
  · intro p entry inside
    obtain ⟨old, awaited, whole⟩ := agreed.awaits here inside
    refine ⟨old, awaited, fun same => ?_⟩
    rw [rests.state, rests.acceptable]
    exact whole same

theorem posted_agreed (agreed : Agreed proto world streams) {owned : Owned} {conn : Connection}
    {msg : IMString} (here : world.conns e = some owned) (rests : Rests owned.conn conn)
    (sound : Sound msg) (plain : Plain proto msg.bytes) :
    Agreed proto (world.setConn e (some ⟨conn, owned.queue ++ [msg]⟩))
      (Function.update streams e (streams e ++ [msg.bytes])) := by
  have plainly : ∀ other ∈ [msg], Plain proto other.bytes := by
    intro other inside
    rwa [List.mem_singleton.mp inside]
  have each : ∀ frame ∈ [msg].map IMString.bytes, Plain proto frame := by
    intro frame inside
    obtain ⟨other, pushed, rfl⟩ := List.mem_map.mp inside
    exact plainly other pushed
  refine agreed.pushed here rests ?_ (fun other inside => (plainly other inside).parcel)
    (fun _ => plainly) (fun _ => not_asked_of_plain each)
    fun _ said => absurd said (not_told_of_plain each)
  intro other inside
  rwa [List.mem_singleton.mp inside]

theorem wrote_agreed (agreed : Agreed proto world streams) {owned : Owned} {conn : Connection}
    {outcomes : List SendResult} (here : world.conns e = some owned)
    (rests : Rests (owned.written outcomes).conn conn)
    (whole : world.wires.severed e = true →
      (write outcomes owned.queue owned.conn.send).accepted = []) :
    Agreed proto { world.setConn e (some ⟨conn, (owned.written outcomes).queue⟩) with
      wires := world.wires.give e (write outcomes owned.queue owned.conn.send).accepted }
        streams := by
  have living := agreed.living e owned here
  have touches := touches_give e world.wires streams
    (write outcomes owned.queue owned.conn.send).accepted
  have given : (world.wires.give e (write outcomes owned.queue owned.conn.send).accepted).given e =
      world.wires.given e ++ (write outcomes owned.queue owned.conn.send).accepted :=
    Function.update_self ..
  refine agreed.continued touches ?_ ?_ here rfl rfl rfl ?_ rests.cb rfl ?_ ?_
  · apply agreed.wired.touched touches (fun _ => le_rfl) (agreed.born e owned here)
      (agreed.wired.waiting e) _ (agreed.wired.received e) (agreed.wired.parcels e)
    rw [given]
    cases severed : world.wires.severed e with
    | true =>
      rw [whole severed, List.append_nil]
      exact agreed.wired.given e
    | false =>
      obtain ⟨-, split⟩ := write_sending outcomes living.sending
      have pours := living.pours severed
      rw [split, ← List.append_assoc] at pours
      exact ⟨_, pours⟩
  · exact agreed.spoken.touched touches (agreed.spoken.asks e) (agreed.spoken.once e)
      (agreed.spoken.tells e)
  · have wrote := (living.written outcomes).rests rests
    change Living proto ⟨_, _, (world.wires.give e _).given e, _, _, _⟩ _ _
    rw [given]
    exact wrote
  · intro _ _ _ _ _ connected
    exact rests.state.trans connected
  · intro p entry inside
    obtain ⟨old, awaited, whole⟩ := agreed.awaits here inside
    refine ⟨old, awaited, fun same => ?_⟩
    rw [rests.state, rests.acceptable]
    exact whole same

theorem parsed_agreed (agreed : Agreed proto world streams) {owned : Owned} {event : ReadEvent}
    {recv : RecvPkt} {out : List Dispatch} (here : world.conns e = some owned)
    (registered : owned.conn.revent = true) (plain : owned.conn.evs &&& AE_ACCEPTABLE = 0)
    (arrived : world.wires.received e ++ (handed owned.conn.recv event).1 <+: world.wires.arrives e)
    (ended : readThenParse proto.toServiceID event owned.conn.recv = .ok (some (.parsed recv out))) :
    Agreed proto { (world.setConn e (some ⟨{ owned.conn with recv := recv }, owned.queue⟩)).post
        e.1 e.2 out with
      wires := world.wires.receive e (handed owned.conn.recv event).1 } streams := by
  have living := agreed.living e owned here
  have unbroken := unbroken_of_read living.quiet registered
  obtain ⟨pieces, copies⟩ := parsed_inPieces (agreed.wired.upstream_parcels e)
    (living.pieces unbroken plain) (arrived.trans (agreed.wired.arrives_within e)) ended
  have touches := touches_receive e world.wires streams (handed owned.conn.recv event).1
  have received : (world.wires.receive e (handed owned.conn.recv event).1).received e =
      world.wires.received e ++ (handed owned.conn.recv event).1 := Function.update_self ..
  refine agreed.continued touches ?_ ?_ here rfl rfl rfl ?_ rfl rfl ?_ ?_
  · apply agreed.wired.touched touches (fun _ => le_rfl) (agreed.born e owned here)
      (agreed.wired.waiting e) (agreed.wired.given e) _ (agreed.wired.parcels e)
    rw [received]
    exact arrived
  · exact agreed.spoken.touched touches (agreed.spoken.asks e) (agreed.spoken.once e)
      (agreed.spoken.tells e)
  · change Living proto ⟨_, _, _, (world.wires.receive e _).received e, _, _⟩ _ _
    rw [received]
    exact living.received fun _ => pieces
  · exact fun _ _ _ _ _ => id
  · intro p entry inside
    have early : entry ∈ world.inbox p → _ := agreed.awaits here
    change entry ∈ Function.update world.inbox e.1 (world.inbox e.1 ++
      out.map fun message => (e.2, message)) p at inside
    by_cases own : p = e.1
    · subst own
      rw [Function.update_self] at inside
      obtain before | new := List.mem_append.mp inside
      · exact early before
      · obtain ⟨message, handedOn, rfl⟩ := List.mem_map.mp new
        exact ⟨owned, ⟨here, unbroken, plain, copies message handedOn⟩, fun _ => ⟨unbroken, plain⟩⟩
    · rw [Function.update_of_ne own] at inside
      exact early inside

theorem handled_subset (world : World) (p q : Nat) :
    (world.handled p).inbox q ⊆ world.inbox q := by
  intro entry inside
  change entry ∈ Function.update world.inbox p (world.inbox p).tail q at inside
  by_cases own : q = p
  · rw [own, Function.update_self] at inside
    rw [own]
    exact List.mem_of_mem_tail inside
  · rwa [Function.update_of_ne own] at inside

theorem skipped_agreed (agreed : Agreed proto world streams) (p : Nat) :
    Agreed proto (world.handled p) streams where
  wired := agreed.wired
  spoken := agreed.spoken
  born := agreed.born
  living := agreed.living
  backed := by
    intro q place node found persistent
    obtain ⟨addr, owned, backed⟩ := agreed.backed q place node found persistent
    exact ⟨addr, owned, backed.placed, backed.context, backed.here, backed.cb, backed.caller,
      backed.able⟩
  awaited := by
    intro q entry inside
    obtain ⟨owned, awaited⟩ := agreed.awaited q entry (handled_subset world p q inside)
    exact ⟨owned, awaited.here, awaited.unbroken, awaited.plain, awaited.copy⟩

/-- The message that is handled is a frame of the other end, and the connection is whole. -/
theorem Agreed.heard (agreed : Agreed proto world streams) {owned : Owned} {message : Dispatch}
    {rest : List (Nat × Dispatch)} (head : world.inbox e.1 = (e.2, message) :: rest)
    (here : world.conns e = some owned) : ¬Broken owned.conn.state ∧
      owned.conn.evs &&& AE_ACCEPTABLE = 0 ∧ ∃ frame ∈ upstream world.wires streams e,
        message.msg = held frame [] ∧ Parcel frame := by
  have inside : (e.2, message) ∈ world.inbox e.1 := by
    rw [head]
    exact List.mem_cons_self
  obtain ⟨old, awaited⟩ := agreed.awaited e.1 _ inside
  cases here.symm.trans awaited.here
  obtain ⟨frame, member, same⟩ := awaited.copy
  exact ⟨awaited.unbroken, awaited.plain, frame, member, same,
    agreed.wired.upstream_parcels e frame member⟩

/-- The other end of a connection has the other role. -/
theorem Agreed.opposite (agreed : Agreed proto world streams) {ids : BitVec 16 × BitVec 32}
    (asked : Asked proto (upstream world.wires streams e) ids) : world.wires.caller e = false := by
  cases peer : world.wires.peer e with
  | none =>
    rw [upstream, peer] at asked
    exact absurd asked not_carried_nil
  | some far =>
    rw [upstream_of_peer _ peer] at asked
    have roles := agreed.wired.roles e far peer
    rw [agreed.spoken.asks far ids asked] at roles
    simpa using roles.symm

theorem Agreed.upstream_once (agreed : Agreed proto world streams)
    {ids other : BitVec 16 × BitVec 32} (asked : Asked proto (upstream world.wires streams e) ids)
    (also : Asked proto (upstream world.wires streams e) other) : ids = other := by
  cases peer : world.wires.peer e with
  | none =>
    rw [upstream, peer] at asked
    exact absurd asked not_carried_nil
  | some far =>
    rw [upstream_of_peer _ peer] at asked also
    exact agreed.spoken.once far ids other asked also

/-- What the other end was told, this end has asked for. -/
theorem Agreed.asked_of_told (agreed : Agreed proto world streams) {ids : BitVec 16 × BitVec 32}
    (told : Told proto (upstream world.wires streams e) ids) : Asked proto (streams e) ids := by
  cases peer : world.wires.peer e with
  | none =>
    rw [upstream, peer] at told
    exact absurd told not_carried_nil
  | some far =>
    rw [upstream_of_peer _ peer] at told
    have asked := agreed.spoken.tells far ids told
    rwa [upstream_of_peer _ (agreed.wired.paired e far peer)] at asked

/-- The connection of a message enters STATE_CONNECTED with these ids. -/
theorem Agreed.connected (agreed : Agreed proto world streams) {owned : Owned}
    (here : world.conns e = some owned) (unbroken : ¬Broken owned.conn.state)
    (plain : owned.conn.evs &&& AE_ACCEPTABLE = 0) {ids : BitVec 16 × BitVec 32}
    (told : ∀ other, Told proto (streams e) other → ids = other)
    (admitted : world.wires.caller e = false → Asked proto (upstream world.wires streams e) ids) :
    Agreed proto (world.setConn e (some ⟨{ owned.conn with
      sid := ids.1, nid := ids.2, state := .STATE_CONNECTED }, owned.queue⟩)) streams := by
  have living := (agreed.living e owned here).connected plain unbroken told admitted
  refine agreed.continued (Touches.refl e _ _) agreed.wired agreed.spoken here rfl rfl rfl living rfl
    rfl (fun _ _ _ _ _ _ => rfl) fun p entry inside => ?_
  obtain ⟨old, awaited, -⟩ := agreed.awaits here inside
  exact ⟨old, awaited, fun _ => ⟨show ¬Broken .STATE_CONNECTED by decide, plain⟩⟩

theorem answered_agreed (agreed : Agreed proto world streams) {owned : Owned} {message : Dispatch}
    {rest : List (Nat × Dispatch)} {ids : BitVec 16 × BitVec 32} {conn : Connection}
    {response : Option IMString} (generated : Generated proto)
    (head : world.inbox e.1 = (e.2, message) :: rest) (here : world.conns e = some owned)
    (asked : ∀ frame, message.msg = held frame [] → Parcel frame → IsRequest proto frame ids)
    (rests : Rests { owned.conn with sid := ids.1, nid := ids.2, state := .STATE_CONNECTED } conn)
    (answers : ∀ msg, response = some msg → Sound msg ∧ Parcel msg.bytes ∧
      IsResponse proto msg.bytes ids) :
    Agreed proto ((world.handled e.1).setConn e (some ⟨conn, owned.queue ++ response.toList⟩))
      (Function.update streams e (streams e ++ response.toList.map IMString.bytes)) := by
  obtain ⟨unbroken, plain, frame, member, same, parcel⟩ := agreed.heard head here
  have request : Asked proto (upstream world.wires streams e) ids :=
    ⟨frame, member, asked frame same parcel⟩
  have server := agreed.opposite request
  have entered := (skipped_agreed agreed e.1).connected here unbroken plain
    (fun other told => agreed.upstream_once request (agreed.spoken.tells e other told))
    fun _ => request
  have each : ∀ msg ∈ response.toList, Sound msg ∧ Parcel msg.bytes ∧
      IsResponse proto msg.bytes ids := fun msg inside => answers msg (by simpa using inside)
  have sent := entered.pushed (Function.update_self ..) rests (fun msg inside => (each msg inside).1)
    (fun msg inside => (each msg inside).2.1)
    (fun caller => absurd (server.symm.trans caller) (by decide)) ?_ ?_
  · rwa [setConn_setConn] at sent
  · rintro other ⟨frame, inside, carrying⟩
    obtain ⟨msg, pushed, rfl⟩ := List.mem_map.mp inside
    exact (each msg pushed).2.2.not_other generated.apart.symm carrying.commands
  · rintro other ⟨frame, inside, carrying⟩
    obtain ⟨msg, pushed, rfl⟩ := List.mem_map.mp inside
    cases (each msg pushed).2.2.unique carrying
    exact ⟨rfl, rfl, request⟩

/-! ### Nodes -/

theorem Serves.still {nodes others : Endpoint → Option Node} {ids : BitVec 16 × BitVec 32}
    (serves : Serves nodes e ids)
    (stays : ∀ place node, nodes (e.1, place) = some node → node.m_persist = true →
      node.m_context = some e.2 → ∃ other, others (e.1, place) = some other ∧ Stays node other) :
    Serves others e ids := by
  obtain ⟨place, node, found, persistent, context, rfl⟩ := serves
  obtain ⟨other, there, same⟩ := stays place node found persistent context
  refine ⟨place, other, there, same.persist.trans persistent, same.context.trans context, ?_⟩
  rw [same.type, same.id]

/-- Nodes change their states or their counters. -/
theorem Agreed.noted (agreed : Agreed proto world streams) {nodes : Endpoint → Option Node}
    (comes : ∀ p place node, nodes (p, place) = some node → ∃ old,
      world.nodes (p, place) = some old ∧ Stays old node ∧
        (node.m_state = .NODE_ABLE → old.m_state = .NODE_ABLE ∨ ∀ addr owned,
          Backed proto world streams p place old addr owned →
            owned.conn.state = .STATE_CONNECTED ∧
              Told proto (upstream world.wires streams (p, addr)) (node.m_type, node.m_id)))
    (stays : ∀ f node addr, world.nodes f = some node → node.m_context = some addr →
      ∃ other, nodes f = some other ∧ Stays node other) :
    Agreed proto { world with nodes := nodes } streams where
  wired := agreed.wired
  spoken := agreed.spoken
  born := agreed.born
  living := fun f owned there => (agreed.living f owned there).grown List.prefix_rfl
    fun _ serves => serves.still fun place node found _ => stays (f.1, place) node f.2 found
  backed := by
    intro p place node found persistent
    obtain ⟨old, was, same, able⟩ := comes p place node found
    obtain ⟨addr, owned, backed⟩ := agreed.backed p place old was (same.persist ▸ persistent)
    refine ⟨addr, owned, same.addr.trans backed.placed, same.context.trans backed.context,
      backed.here, backed.cb, backed.caller, fun isAble => ?_⟩
    obtain before | now := able isAble
    · rw [same.type, same.id]
      exact backed.able before
    · exact now addr owned backed
  awaited := by
    intro p entry inside
    obtain ⟨owned, awaited⟩ := agreed.awaited p entry inside
    exact ⟨owned, awaited.here, awaited.unbroken, awaited.plain, awaited.copy⟩

/-- One node. -/
theorem Agreed.setNode (agreed : Agreed proto world streams) {node other : Node} {p place : Nat}
    (found : world.nodes (p, place) = some node) (same : Stays node other)
    (able : other.m_state = .NODE_ABLE → node.m_state = .NODE_ABLE ∨ ∀ addr owned,
      Backed proto world streams p place node addr owned → owned.conn.state = .STATE_CONNECTED ∧
        Told proto (upstream world.wires streams (p, addr)) (other.m_type, other.m_id)) :
    Agreed proto (world.setNode (p, place) (some other)) streams := by
  apply agreed.noted
  · intro q at_ new there
    rcases update_eq_some.mp there with ⟨here, isNew⟩ | ⟨-, was⟩
    · cases isNew
      cases here
      exact ⟨node, found, same, able⟩
    · exact ⟨new, was, .refl new, .inl⟩
  · intro f old _ was _
    by_cases here : f = (p, place)
    · subst here
      cases found.symm.trans was
      exact ⟨other, Function.update_self .., same⟩
    · exact ⟨old, (Function.update_of_ne here ..).trans was, .refl old⟩

theorem counted_agreed (agreed : Agreed proto world streams) {node : Node}
    (here : world.nodes e = some node) :
    Agreed proto (world.setNode e (some node.needReconnect.2)) streams := by
  apply agreed.setNode here
  · unfold Node.needReconnect
    split_ifs
    · exact ⟨rfl, rfl, rfl, rfl, rfl⟩
    · exact .refl node
  · intro able
    rw [needReconnect_state] at able
    exact .inl able

theorem setState_stays (node : Node) (state : NodeState) : Stays node (node.setState state) :=
  ⟨rfl, rfl, rfl, rfl, rfl⟩

theorem confirmed_agreed (agreed : Agreed proto world streams) {owned : Owned}
    {message : Dispatch} {rest : List (Nat × Dispatch)} {node : Node}
    (head : world.inbox e.1 = (e.2, message) :: rest) (here : world.conns e = some owned)
    (found : world.nodes (e.1, node.addr) = some node)
    (responds : ∀ frame, message.msg = held frame [] → Parcel frame →
      IsResponse proto frame (node.m_type, node.m_id))
    (leads : ∀ place other, world.nodes (e.1, place) = some other → other.m_persist = true →
      (other.m_type, other.m_id) = (node.m_type, node.m_id) → other = node) :
    Agreed proto (((world.handled e.1).setNode (e.1, node.addr)
      (some (node.setState .NODE_ABLE))).setConn e
        (some (inState .STATE_CONNECTED owned))) streams := by
  obtain ⟨unbroken, plain, frame, member, same, parcel⟩ := agreed.heard head here
  have told : Told proto (upstream world.wires streams e) (node.m_type, node.m_id) :=
    ⟨frame, member, responds frame same parcel⟩
  have asked := agreed.asked_of_told told
  have caller := agreed.spoken.asks e _ asked
  obtain ⟨place, other, there, persistent, context, ids⟩ := (agreed.living e owned here).asked _ asked
  have alike := leads place other there persistent ids
  subst alike
  have admitted : world.wires.caller e = false →
      Asked proto (upstream world.wires streams e) (owned.conn.sid, owned.conn.nid) :=
    fun server => absurd (caller.symm.trans server) (by decide)
  have untold : ∀ ids, Told proto (streams e) ids → (owned.conn.sid, owned.conn.nid) = ids := by
    intro ids said
    have server := agreed.opposite (agreed.spoken.tells e ids said)
    exact absurd (caller.symm.trans server) (by decide)
  have entered := (skipped_agreed agreed e.1).connected here unbroken plain untold admitted
  refine entered.setNode found (setState_stays _ _) fun _ => .inr fun addr held backed => ?_
  have own : addr = e.2 := Option.some.inj (backed.context.symm.trans context)
  have there := backed.here
  rw [own] at there ⊢
  cases (Function.update_self ..).symm.trans there
  exact ⟨rfl, told⟩

theorem not_able_of_notified (node : Node) (state : ConnState) :
    (node.setState (nodeStateOf state)).m_state ≠ .NODE_ABLE := by
  intro isAble
  change nodeStateOf state = .NODE_ABLE at isAble
  rcases lost_nodeStateOf state with lost | lost <;>
  · rw [lost] at isAble
    cases isAble

theorem notify_agreed (agreed : Agreed proto world streams) (p : Nat) (cb : Option Nat)
    (state : ConnState) : Agreed proto (world.notify p cb state) streams := by
  apply agreed.noted
  · intro q place node there
    by_cases called : q = p ∧ cb = some place
    · rw [if_pos called] at there
      obtain ⟨old, was, rfl⟩ := Option.map_eq_some_iff.mp there
      exact ⟨old, was, setState_stays _ _, fun isAble => absurd isAble (not_able_of_notified old state)⟩
    · rw [if_neg called] at there
      exact ⟨node, there, .refl node, .inl⟩
  · intro f node _ was _
    by_cases called : f.1 = p ∧ cb = some f.2
    · refine ⟨node.setState (nodeStateOf state), ?_, setState_stays _ _⟩
      rw [if_pos called, was]
      rfl
    · refine ⟨node, ?_, .refl node⟩
      rw [if_neg called]
      exact was

/-! ### Connections that go -/

theorem spilt_agreed (agreed : Agreed proto world streams) {chunk : List Byte}
    (finished : ∀ owned, world.conns e = some owned → Broken owned.conn.state)
    (arrived : world.wires.received e ++ chunk <+: world.wires.arrives e) :
    Agreed proto { world with wires := world.wires.receive e chunk } streams := by
  have touches := touches_receive e world.wires streams chunk
  have received : (world.wires.receive e chunk).received e = world.wires.received e ++ chunk :=
    Function.update_self ..
  by_cases born : e.2 < world.next e.1
  · refine agreed.touched touches ?_ ?_ (fun _ _ => rfl) (fun _ => le_rfl) (fun _ _ => born) ?_
      (fun _ _ _ _ _ => id) ?_ ?_
    · apply agreed.wired.touched touches (fun _ => le_rfl) born (agreed.wired.waiting e)
        (agreed.wired.given e) _ (agreed.wired.parcels e)
      rw [received]
      exact arrived
    · exact agreed.spoken.touched touches (agreed.spoken.asks e) (agreed.spoken.once e)
        (agreed.spoken.tells e)
    · intro owned here
      exact (agreed.living e owned here).received fun unbroken => absurd (finished owned here) unbroken
    · intro p place node found persistent
      obtain ⟨addr, owned, backed⟩ := agreed.backed p place node found persistent
      exact .inr ⟨addr, owned, backed.still (.refl node) backed.here rfl rfl
        (touches.upstream_grows _) fun able => ⟨able, id⟩⟩
    · intro p entry inside
      obtain ⟨owned, awaited⟩ := agreed.awaited p entry inside
      exact .inl ⟨owned, awaited, fun same => awaited.unbroken (finished owned (same ▸ awaited.here))⟩
  · have unborn := agreed.wired.unborn e (Nat.le_of_not_lt born)
    rw [Wires.arrives, unborn.peer, List.prefix_nil, List.append_eq_nil_iff] at arrived
    have same : world.wires.receive e chunk = world.wires := by
      rw [arrived.2, Wires.receive, List.append_nil, Function.update_eq_self]
    rw [same]
    exact agreed

/-- A connection goes that no persistent node has, and of which no message is to be handled. -/
theorem Agreed.ended (agreed : Agreed proto world streams) (idle : world.inbox e.1 = [])
    {nodes : Endpoint → Option Node}
    (comes : ∀ f node, nodes f = some node → world.nodes f = some node ∧
      (node.m_persist = true → ¬(f.1 = e.1 ∧ node.m_context = some e.2)))
    (stays : ∀ f node, world.nodes f = some node → nodes f = some node ∨
      f.1 = e.1 ∧ node.m_context = some e.2) :
    Agreed proto { world.setConn e none with nodes := nodes } streams := by
  refine agreed.touched (Touches.refl e _ _) agreed.wired agreed.spoken
    (fun f apart => Function.update_of_ne apart ..) (fun _ => le_rfl) ?_ ?_ ?_ ?_ ?_
  · intro owned there
    cases (Function.update_self ..).symm.trans there
  · intro owned there
    cases (Function.update_self ..).symm.trans there
  · rintro ⟨p, addr⟩ apart _ _ ids serves
    refine serves.still fun place node found _ context => ?_
    obtain kept | gone := stays (p, place) node found
    · exact ⟨node, kept, .refl node⟩
    · have same : (p, addr) = e :=
        Prod.ext gone.1 (Option.some.inj (context.symm.trans gone.2))
      exact absurd same apart
  · intro p place node found persistent
    obtain ⟨was, other⟩ := comes (p, place) node found
    obtain ⟨addr, owned, backed⟩ := agreed.backed p place node was persistent
    refine .inl ⟨addr, owned, backed, fun same => other persistent ?_⟩
    rw [← same]
    exact ⟨rfl, backed.context⟩
  · intro p entry inside
    obtain ⟨owned, awaited⟩ := agreed.awaited p entry inside
    refine .inl ⟨owned, awaited, fun same => ?_⟩
    have own : p = e.1 := congrArg Prod.fst same
    rw [own] at inside
    change entry ∈ world.inbox e.1 at inside
    rw [idle] at inside
    exact List.not_mem_nil inside

/-- A callback that fails tells the node. A client stays, and any other connection goes. -/
theorem broke_agreed (agreed : Agreed proto world streams) {owned : Owned} {recv : RecvPkt}
    {state : ConnState} (idle : world.inbox e.1 = []) (here : world.conns e = some owned)
    (registered : owned.conn.wevent = true ∨ owned.conn.evs &&& AE_ACCEPTABLE = 0)
    (broken : Broken state) :
    Agreed proto ((world.notify e.1 owned.conn.cb state).setConn e
      (if owned.conn.flag = .conn_client then
        some ⟨withoutEvent (AE_READABLE ||| AE_WRITABLE)
          { owned.conn with recv := recv, state := state }, owned.queue⟩
      else none)) streams := by
  have noted := notify_agreed agreed e.1 owned.conn.cb state
  have living := noted.living e owned here
  have plain := plain_of_registered living.kept registered
  split_ifs with client
  · refine noted.continued (Touches.refl e _ _) noted.wired noted.spoken here rfl rfl rfl
      (living.broken plain recv broken (living.client.mp client)) (Simulation.withoutEvent_cb ..) rfl
      ?_ ?_
    · intro place node there able callback
      have called : True ∧ owned.conn.cb = some place := ⟨trivial, callback⟩
      simp only [World.notify] at there
      rw [if_pos called] at there
      obtain ⟨old, -, rfl⟩ := Option.map_eq_some_iff.mp there
      exact absurd able (not_able_of_notified old state)
    · intro p entry inside
      obtain ⟨old, awaited, -⟩ := noted.awaits here inside
      refine ⟨old, awaited, fun same => ?_⟩
      have own : p = e.1 := congrArg Prod.fst same
      rw [own] at inside
      change entry ∈ world.inbox e.1 at inside
      rw [idle] at inside
      exact absurd inside List.not_mem_nil
  · refine noted.ended idle (fun f node found => ⟨found, ?_⟩) fun _ _ found => .inl found
    rintro persistent ⟨own, context⟩
    obtain ⟨addr, held, backed⟩ := noted.backed f.1 f.2 node found persistent
    have same : (f.1, addr) = e := Prod.ext own (Option.some.inj (backed.context.symm.trans context))
    have caller := backed.caller
    rw [same] at caller
    exact client (living.client.mpr caller)

/-- A node goes with its connection. -/
theorem removed_agreed (agreed : Agreed proto world streams) {p : Nat} {node : Node}
    (idle : world.inbox p = []) (found : world.nodes (p, node.addr) = some node)
    (alone : Alone world p node) :
    Agreed proto ((world.dropContext p node).setNode (p, node.addr) none) streams := by
  have others : ∀ f other, f ≠ (p, node.addr) → (world.nodes f = some other ↔
      Function.update world.nodes (p, node.addr) none f = some other) := by
    intro f other apart
    rw [Function.update_of_ne apart]
  cases context : node.m_context with
  | none =>
    rw [World.dropContext, context]
    apply agreed.noted
    · intro q place other there
      rcases update_eq_some.mp there with ⟨-, none⟩ | ⟨-, was⟩
      · cases none
      · exact ⟨other, was, .refl other, .inl⟩
    · intro f other addr was has
      refine ⟨other, (others f other ?_).mp was, .refl other⟩
      rintro rfl
      cases found.symm.trans was
      rw [context] at has
      cases has
  | some old =>
    rw [World.dropContext, context]
    refine agreed.ended (e := (p, old)) idle (fun f other there => ?_) fun f other was => ?_
    · rcases update_eq_some.mp there with ⟨-, none⟩ | ⟨apart, was⟩
      · cases none
      · refine ⟨was, ?_⟩
        rintro - ⟨own, same⟩
        obtain ⟨q, place⟩ := f
        cases own
        exact apart (congrArg (Prod.mk p) (alone place other old was same context))
    · by_cases here : f = (p, node.addr)
      · subst here
        cases found.symm.trans was
        exact .inr ⟨rfl, context⟩
      · exact .inl ((others f other here).mp was)

end World

end SNFrame.System.Agreement
