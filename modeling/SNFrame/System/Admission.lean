import SNFrame.System.Agreement
import SNFrame.System.Ticks

/-! New connections and nodes agree too, and with them all runs: a node that is able and the
connection that the other process has admitted for it say the same. -/

namespace SNFrame.System.Admission
open Library.Octet Library.Table Library.Transition Base.PbBuf Core.Receiving Core.Sending
open Core.TcpParse Core.NetManager Core.NodeMgr Core.CommonProto Receive.Parcels Receive.Callback
open Send.SendStream Ownership Tables Turns Registration Supervision Processes Requests Traffic
open Exchange Circuit Agreement

section World
variable {proto : Proto} {world after : World} {streams later : Streams} {e : Endpoint}

/-! ### New connections -/

theorem unused_living {owned : Owned} (unused : Unused owned) {caller : Bool}
    (client : owned.conn.flag = .conn_client ↔ caller = true) (upstream : List (List Byte))
    (serves : BitVec 16 × BitVec 32 → Prop) :
    Living proto ⟨caller, false, [], [], [], upstream⟩ serves owned where
  kept := unused.kept
  quiet := by
    intro broken
    rcases unused.starts with starts | starts <;>
    · rw [starts] at broken
      exact absurd broken (by decide)
  calls := by
    intro broken
    rcases unused.starts with starts | starts <;>
    · rw [starts] at broken
      exact absurd broken (by decide)
  client := client
  sending := by
    rw [unused.queue, unused.send]
    exact fresh_sending
  pours := by
    intro _
    rw [unused.queue, unused.send]
    rfl
  plain := by
    intro _ msg inside
    rw [unused.queue] at inside
    exact absurd inside List.not_mem_nil
  pieces := by
    intro _ _
    rw [unused.recv]
    exact fresh_inPieces.append upstream
  asked := fun _ asked => absurd asked not_carried_nil
  told := fun _ told => absurd told not_carried_nil
  admitted := by
    intro connected
    rcases unused.starts with starts | starts <;>
    · rw [starts] at connected
      cases connected

/-- A process has one more connection, and perhaps a node for it. -/
theorem created_agreed (agreed : Agreed proto world streams) {p : Nat} {new : Owned}
    (touches : Touches (p, world.next p) world.wires after.wires streams later)
    (wired : Wired after.next after.wires later) (spoken : Spoken proto after.wires later)
    (conns : after.conns = Function.update world.conns (p, world.next p) (some new))
    (next : after.next = Function.update world.next p (world.next p + 1))
    (inbox : after.inbox = world.inbox)
    (living : Living proto { spot after.wires later (p, world.next p) with upstream := [] }
      (Serves after.nodes (p, world.next p)) new)
    (comes : ∀ q place node, after.nodes (q, place) = some node →
      world.nodes (q, place) = some node ∨
        (node.m_persist = true → ∃ addr owned, Backed proto after later q place node addr owned))
    (stays : ∀ f node, world.nodes f = some node → after.nodes f = some node) :
    Agreed proto after later := by
  have unborn := agreed.wired.unborn (p, world.next p) le_rfl
  have silent : upstream world.wires streams (p, world.next p) = [] := by
    rw [upstream, unborn.peer]
  refine agreed.touched touches wired spoken (fun f apart => ?_) (fun q => ?_) (fun _ _ => ?_)
    (fun owned there => ?_) (fun f _ _ _ _ serves => ?_) (fun q place node found persistent => ?_)
    fun q entry inside => ?_
  · rw [conns, Function.update_of_ne apart]
  · rw [next]
    by_cases same : q = p
    · rw [same, Function.update_self]
      exact Nat.le_succ _
    · rw [Function.update_of_ne same]
  · rw [next, Function.update_self]
    exact Nat.lt_succ_self _
  · rw [conns, Function.update_self, Option.some.injEq] at there
    rw [← there, silent]
    exact living
  · exact serves.still fun place node found _ _ => ⟨node, stays _ _ found, .refl node⟩
  · rcases comes q place node found with was | isNew
    · obtain ⟨addr, owned, backed⟩ := agreed.backed q place node was persistent
      refine .inl ⟨addr, owned, backed, fun same => ?_⟩
      have born := agreed.born _ owned backed.here
      rw [same] at born
      exact lt_irrefl _ born
    · exact .inr (isNew persistent)
  · rw [inbox] at inside
    obtain ⟨owned, awaited⟩ := agreed.awaited q entry inside
    refine .inl ⟨owned, awaited, fun same => ?_⟩
    have born := agreed.born _ owned awaited.here
    rw [same] at born
    exact lt_irrefl _ born

theorem update_grows (next : Nat → Nat) (p q : Nat) :
    next q ≤ Function.update next p (next p + 1) q := by
  by_cases same : q = p
  · rw [same, Function.update_self]
    exact Nat.le_succ _
  · rw [Function.update_of_ne same]

theorem wired_dial (wired : Wired world.next world.wires streams) (p : Nat) :
    Wired (Function.update world.next p (world.next p + 1))
      (world.wires.dial (p, world.next p)) streams := by
  have unborn := wired.unborn (p, world.next p) le_rfl
  apply wired.touched (touches_dial unborn.peer) (update_grows world.next p) _ _
    (wired.given _) (wired.received _) (wired.parcels _)
  · rw [Function.update_self]
    exact Nat.lt_succ_self _
  · exact fun _ => ⟨Function.update_self .., unborn.peer⟩

theorem spoken_dial (spoken : Spoken proto world.wires streams) {p : Nat}
    (unborn : Unborn world.wires streams (p, world.next p)) :
    Spoken proto (world.wires.dial (p, world.next p)) streams := by
  apply spoken.plainly (touches_dial unborn.peer) (List.append_nil _).symm
  · exact fun _ none => absurd none List.not_mem_nil
  · exact fun _ => Function.update_self ..

theorem spot_unborn {wires : Wires} (unborn : Unborn wires streams e)
    (frames : List (List Byte)) :
    { spot wires streams e with upstream := frames } = ⟨false, false, [], [], [], frames⟩ := by
  simp only [spot, unborn.caller, unborn.severed, unborn.given, unborn.received, unborn.stream]

theorem spot_dial {wires : Wires} (unborn : Unborn wires streams e) :
    { spot (wires.dial e) streams e with upstream := [] } = ⟨true, false, [], [], [], []⟩ := by
  have caller : (wires.dial e).caller e = true := Function.update_self ..
  simp only [spot, caller]
  simp only [Wires.dial, unborn.severed, unborn.given, unborn.received, unborn.stream]

theorem opened_agreed (agreed : Agreed proto world streams) {p : Nat} {owned : Owned}
    (unused : Unused owned) :
    Agreed proto { world.create p owned with
      wires := if owned.conn.flag = .conn_client then world.wires.dial (p, world.next p)
        else world.wires } streams := by
  have unborn := agreed.wired.unborn (p, world.next p) le_rfl
  by_cases client : owned.conn.flag = .conn_client
  · rw [if_pos client]
    refine created_agreed agreed (touches_dial unborn.peer) (wired_dial agreed.wired p)
      (spoken_dial agreed.spoken unborn) rfl rfl rfl ?_ (fun _ _ _ => .inl) fun _ _ => id
    change Living proto { spot (world.wires.dial (p, world.next p)) _ _ with upstream := [] } _ _
    rw [spot_dial unborn]
    exact unused_living unused (iff_of_true client rfl) _ _
  · rw [if_neg client]
    have touches := Touches.refl (p, world.next p) world.wires streams
    refine created_agreed agreed touches ?_ agreed.spoken rfl rfl rfl ?_ (fun _ _ _ => .inl) fun _ _ => id
    · apply agreed.wired.touched touches (update_grows world.next p) _ _
        (agreed.wired.given _) (agreed.wired.received _) (agreed.wired.parcels _)
      · change _ < Function.update world.next p (world.next p + 1) p
        rw [Function.update_self]
        exact Nat.lt_succ_self _
      · exact agreed.wired.waiting _
    · change Living proto { spot world.wires _ _ with upstream := [] } _ _
      rw [spot_unborn unborn]
      exact unused_living unused (iff_of_false client (by decide)) _ _

theorem joined_agreed (agreed : Agreed proto world streams) {p : Nat} {caller : Endpoint}
    {owned : Owned} (unused : Unused owned) (flag : owned.conn.flag = .conn_server)
    (pending : world.wires.pending caller = true) :
    Agreed proto { world.create p owned with
      wires := world.wires.join caller (p, world.next p) } streams := by
  have unborn := agreed.wired.unborn (p, world.next p) le_rfl
  obtain ⟨calls, single⟩ := agreed.wired.waiting caller pending
  have grows : ∀ f, upstream world.wires streams f <+:
      upstream (world.wires.join caller (p, world.next p)) streams f :=
    upstream_join single unborn.peer
  have kept : ∀ f old, world.conns f = some old →
      Function.update world.conns (p, world.next p) (some owned) f = some old := by
    intro f old here
    rw [Function.update_of_ne, here]
    rintro rfl
    exact lt_irrefl _ (agreed.born _ old here)
  refine ⟨agreed.wired.joined pending, agreed.spoken.joined single unborn.peer, ?_, ?_, ?_, ?_⟩
  · intro f old there
    rcases update_eq_some.mp there with ⟨rfl, -⟩ | ⟨-, was⟩
    · change _ < Function.update world.next p (world.next p + 1) p
      rw [Function.update_self]
      exact Nat.lt_succ_self _
    · exact lt_of_lt_of_le (agreed.born f old was) (update_grows world.next p f.1)
  · intro f old there
    rcases update_eq_some.mp there with ⟨rfl, same⟩ | ⟨-, was⟩
    · cases same
      have server : owned.conn.flag ≠ .conn_client := by
        rw [flag]
        decide
      have living : Living proto ⟨false, false, [], [], [], upstream (world.wires.join caller
          (p, world.next p)) streams (p, world.next p)⟩ (Serves world.nodes (p, world.next p))
          owned := unused_living unused (iff_of_false server (by decide)) _ _
      rw [← spot_unborn unborn] at living
      exact living
    · exact (agreed.living f old was).grown (grows f) fun _ => id
  · intro q place node found persistent
    obtain ⟨addr, old, backed⟩ := agreed.backed q place node found persistent
    exact ⟨addr, old, backed.still (.refl node) (kept _ _ backed.here) rfl rfl (grows _)
      fun able => ⟨able, id⟩⟩
  · intro q entry inside
    obtain ⟨old, awaited⟩ := agreed.awaited q entry inside
    exact ⟨old, kept _ _ awaited.here, awaited.unbroken, awaited.plain,
      awaited.copy.mono (grows _).subset⟩

/-! ### New nodes -/

/-- A new client with a node that is not persistent. -/
theorem enlisted_agreed (agreed : Agreed proto world streams) {p place : Nat} {owned : Owned}
    {sid : BitVec 16} {nid : BitVec 32} {node : Node} (client : Client owned)
    (absent : world.nodes (p, place) = none) (single : node.m_persist = false) :
    Agreed proto (installed world p owned ⟨{ owned.conn with
      sid := sid, nid := nid, state := .STATE_CONNECTED }, []⟩ place node) streams := by
  have unborn := agreed.wired.unborn (p, world.next p) le_rfl
  have unbroken : ¬Broken owned.conn.state := by
    rcases client.starts with starts | starts <;> rw [starts] <;> decide
  refine created_agreed agreed (touches_dial unborn.peer) (wired_dial agreed.wired p)
    (spoken_dial agreed.spoken unborn) (Function.update_idem ..) rfl rfl ?_
    (fun q at_ other there => ?_) fun f other was => ?_
  · change Living proto { spot (world.wires.dial (p, world.next p)) _ _ with upstream := [] } _ _
    rw [spot_dial unborn, ← client.queue]
    have untold : ∀ other, Told proto [] other → (sid, nid) = other :=
      fun _ told => absurd told not_carried_nil
    exact (unused_living client.toUnused (iff_of_true client.flag rfl) [] _).connected client.plain
      unbroken untold fun server => nomatch server
  · rcases update_eq_some.mp there with ⟨-, same⟩ | ⟨-, was⟩
    · cases same
      refine .inr fun persistent => absurd (single.symm.trans persistent) (by decide)
    · exact .inl was
  · refine (Function.update_of_ne ?_ ..).trans was
    rintro rfl
    rw [absent] at was
    cases was

/-- A new client has called, and what of these frames `sendBlock` got rid of is with the kernel. -/
structure Called (e : Endpoint) (wires after : Wires) (streams : Streams)
    (frames : List (List Byte)) : Prop where
  touches : Touches e wires after streams streams
  caller : after.caller e = true
  received : after.received e = []
  given : after.given e <+: frames.flatten
  whole : after.severed e = false → after.given e = frames.flatten

theorem dial_called {wires : Wires} (unborn : Unborn wires streams e) :
    Called e wires (wires.dial e) streams [] where
  touches := touches_dial unborn.peer
  caller := Function.update_self ..
  received := unborn.received
  given := by
    change wires.given e <+: _
    rw [unborn.given]
    exact List.nil_prefix
  whole := fun _ => unborn.given

theorem ask_called {wires : Wires} (unborn : Unborn wires streams e) (sent : Nat)
    (request : Option IMString) : Called e wires (ask (wires.dial e) e sent request) streams
      (request.toList.map IMString.bytes) := by
  have called := dial_called unborn
  cases request with
  | none => exact called
  | some msg =>
    have nothing : (wires.dial e).given e = [] := unborn.given
    have front : ((wires.dial e).give e (msg.bytes.take sent)).given e = msg.bytes.take sent := by
      simp only [Wires.give]
      rw [Function.update_self, nothing, List.nil_append]
    refine ⟨called.touches.trans (touches_sendBlock ..), ?_, ?_, ?_, ?_⟩ <;>
      simp only [ask, Wires.sendBlock, Option.toList_some, List.map_singleton,
        List.flatten_singleton] <;> split_ifs with short
    · exact called.caller
    · exact called.caller
    · exact called.received
    · exact called.received
    · change ((wires.dial e).give e (msg.bytes.take sent)).given e <+: _
      rw [front]
      exact List.take_prefix ..
    · rw [front]
      exact List.take_prefix ..
    · exact fun whole => absurd ((Function.update_self ..).symm.trans whole) (by decide)
    · intro _
      rw [front, List.take_of_length_le (Nat.le_of_not_lt short)]

/-- The new client of a node that waits: the request has gone through `sendBlock`, and the queue
is behind it. -/
theorem waiting_living {owned : Owned} (client : Client owned) {queue : List IMString}
    {request : List (List Byte)} {given : List Byte} {severed : Bool} {outBuffer : Nat}
    {sid : BitVec 16} {nid : BitVec 32} {cb : Option Nat}
    {serves : BitVec 16 × BitVec 32 → Prop} (sound : ∀ msg ∈ queue, Sound msg)
    (plain : ∀ msg ∈ queue, Plain proto msg.bytes)
    (gone : severed = false → given = request.flatten)
    (asks : ∀ ids, Asked proto request ids → serves ids)
    (tells : ∀ ids, ¬Told proto request ids) :
    Living proto ⟨true, severed, given, [], request ++ queue.map IMString.bytes, []⟩ serves
      ⟨Traffic.waiting owned.conn outBuffer sid nid cb, queue⟩ := by
  have each : ∀ frame ∈ queue.map IMString.bytes, Plain proto frame := by
    intro frame inside
    obtain ⟨msg, queued, rfl⟩ := List.mem_map.mp inside
    exact plain msg queued
  refine ⟨?_, fun broken => absurd broken (show ¬Broken .STATE_AUTH by decide), fun _ => rfl,
    iff_of_true client.flag rfl, ?_, fun whole => ?_, fun _ => plain, fun _ _ => ?_,
    fun ids asked => ?_, fun ids told => ?_, fun connected => nomatch connected⟩
  · exact ⟨⟨client.kept.writable, client.kept.readable⟩, fun listens => absurd client.plain listens,
      fun none => (by cases none), client.kept.unread⟩
  · change Sending queue owned.conn.send
    rw [client.send]
    exact sending_append fresh_sending sound
  · change given ++ unsentBytes queue owned.conn.send = (request ++ _).flatten
    rw [client.send, gone whole, List.flatten_append]
    rfl
  · change InPieces [] [] owned.conn.recv
    rw [client.recv]
    exact fresh_inPieces
  · exact asks ids ((carried_append.mp asked).resolve_right (not_asked_of_plain each))
  · exact absurd ((carried_append.mp told).resolve_right (not_told_of_plain each)) (tells ids)

/-- A persistent node waits on a new client, which asks for it. -/
theorem attached_agreed (agreed : Agreed proto world streams) {p place outBuffer : Nat}
    {owned : Owned} {node : Node} {queue : List IMString} {request : List (List Byte)}
    {wires : Wires} (generated : Generated proto) (client : Client owned)
    (called : Called (p, world.next p) world.wires wires streams request)
    (absent : world.nodes (p, place) = none) (placed : node.addr = place)
    (persistent : node.m_persist = true) (sound : ∀ msg ∈ queue, Sound msg)
    (plain : ∀ msg ∈ queue, Plain proto msg.bytes)
    (asks : ∀ frame ∈ request, Parcel frame ∧ IsRequest proto frame (node.m_type, node.m_id)) :
    Agreed proto { installed world p owned ⟨waiting owned.conn outBuffer node.m_type node.m_id
        (some place), queue⟩ place (attached node (world.next p)) with wires := wires }
      (Function.update streams (p, world.next p) (streams (p, world.next p) ++
        (request ++ queue.map IMString.bytes))) := by
  have unborn := agreed.wired.unborn (p, world.next p) le_rfl
  have each : ∀ frame ∈ queue.map IMString.bytes, Plain proto frame := by
    intro frame inside
    obtain ⟨msg, queued, rfl⟩ := List.mem_map.mp inside
    exact plain msg queued
  have only : ∀ ids, Asked proto request ids → (node.m_type, node.m_id) = ids := by
    rintro ids ⟨frame, inside, carrying⟩
    exact (asks frame inside).2.unique carrying
  have untold : ∀ ids, ¬Told proto request ids := by
    rintro ids ⟨frame, inside, carrying⟩
    exact (asks frame inside).2.not_other generated.apart carrying.commands
  generalize theFrames : request ++ queue.map IMString.bytes = frames
  have touches := called.touches.trans (touches_push (p, world.next p) wires streams frames)
  have stream : Function.update streams (p, world.next p) (streams (p, world.next p) ++ frames)
      (p, world.next p) = frames := by
    rw [Function.update_self, unborn.stream, List.nil_append]
  have asked : ∀ ids, Asked proto frames ids → (node.m_type, node.m_id) = ids := by
    rw [← theFrames]
    exact fun ids said =>
      only ids ((carried_append.mp said).resolve_right (not_asked_of_plain each))
  refine created_agreed agreed touches ?_ ?_ (Function.update_idem ..) rfl rfl ?_
    (fun q at_ other there => ?_) fun f other was => ?_
  · apply agreed.wired.touched touches (update_grows world.next p)
    · change _ < Function.update world.next p (world.next p + 1) p
      rw [Function.update_self]
      exact Nat.lt_succ_self _
    · exact fun _ => ⟨called.caller, unborn.peer⟩
    · rw [stream, ← theFrames, List.flatten_append]
      exact called.given.trans (List.prefix_append ..)
    · rw [called.received]
      exact List.nil_prefix
    · rw [stream, ← theFrames]
      intro frame inside
      obtain first | behind := List.mem_append.mp inside
      · exact (asks frame first).1
      · exact (each frame behind).parcel
  · apply agreed.spoken.touched touches <;> rw [stream]
    · exact fun _ _ => called.caller
    · exact fun ids other said also => (asked ids said).symm.trans (asked other also)
    · rw [← theFrames]
      intro ids told
      exact absurd ((carried_append.mp told).resolve_right (not_told_of_plain each)) (untold ids)
  · have here : { spot wires (Function.update streams (p, world.next p)
        (streams (p, world.next p) ++ frames)) (p, world.next p) with upstream := [] } =
        ⟨true, wires.severed (p, world.next p), wires.given (p, world.next p), [],
          request ++ queue.map IMString.bytes, []⟩ := by
      simp only [spot, called.caller, called.received, stream, theFrames]
    change Living proto { spot wires _ _ with upstream := [] } _ _
    rw [here]
    refine waiting_living client sound plain called.whole (fun ids said => ?_) untold
    exact ⟨place, attached node (world.next p), Function.update_self .., persistent, rfl,
      only ids said⟩
  · rcases update_eq_some.mp there with ⟨at_place, same⟩ | ⟨-, was⟩
    · cases same
      cases at_place
      have unable : (attached node (world.next p)).m_state ≠ .NODE_ABLE := by
        change NodeState.NODE_AUTH ≠ .NODE_ABLE
        decide
      exact .inr fun _ => ⟨world.next p, _, placed, rfl, Function.update_self .., rfl,
        called.caller, fun able => absurd able unable⟩
    · exact .inl was
  · refine (Function.update_of_ne ?_ ..).trans was
    rintro rfl
    rw [absent] at was
    cases was

theorem refused_agreed (agreed : Agreed proto world streams) (caller : Endpoint) :
    Agreed proto { world with wires := world.wires.refuse caller } streams where
  wired := agreed.wired.refused caller
  spoken := ⟨agreed.spoken.asks, agreed.spoken.once, agreed.spoken.tells⟩
  born := agreed.born
  living := agreed.living
  backed := by
    intro p place node found persistent
    obtain ⟨addr, owned, backed⟩ := agreed.backed p place node found persistent
    exact ⟨addr, owned, backed.placed, backed.context, backed.here, backed.cb, backed.caller,
      backed.able⟩
  awaited := by
    intro p entry inside
    obtain ⟨owned, awaited⟩ := agreed.awaited p entry inside
    exact ⟨owned, awaited.here, awaited.unbroken, awaited.plain, awaited.copy⟩

theorem launched_agreed (agreed : Agreed proto world streams) {p place sent : Nat} {owned : Owned}
    {type : BitVec 16} {nid : BitVec 32} {ip : Address} {request : Option IMString}
    (generated : Generated proto) (client : Client owned) (absent : world.nodes (p, place) = none)
    (asks : ∀ msg, request = some msg → Parcel msg.bytes ∧ IsRequest proto msg.bytes (type, nid)) :
    ∃ later, Agreed proto { installed world p owned ⟨waiting owned.conn owned.conn.outBuffer type
        nid (some place), []⟩ place (serverNode place (world.next p) type nid ip) with
      wires := ask (world.wires.dial (p, world.next p)) (p, world.next p) sent request } later := by
  have called := ask_called (agreed.wired.unborn (p, world.next p) le_rfl) sent request
  refine ⟨_, @attached_agreed proto world streams agreed p place owned.conn.outBuffer
    owned ((Node.fresh place type nid).setAddrs ip) [] _ _ generated client called absent rfl rfl ?_ ?_ ?_⟩
  · exact fun _ none => absurd none List.not_mem_nil
  · exact fun _ none => absurd none List.not_mem_nil
  · intro frame inside
    obtain ⟨msg, member, rfl⟩ := List.mem_map.mp inside
    exact asks msg (by simpa using member)

/-- A node that comes back with a new connection is a node that goes with its old one, and a new
one in its place. -/
theorem replaced_eq_installed {p old : Nat} {owned new : Owned} {node : Node}
    (context : node.m_context = some old) (apart : (p, world.next p) ≠ (p, old)) :
    replaced (dialling world p owned) p (world.next p) node new =
      installed ((world.dropContext p node).setNode (p, node.addr) none) p owned new node.addr
        (attached node (world.next p)) := by
  simp only [replaced, installed, dialling, World.dropContext, context, World.create, World.setConn,
    World.setNode, World.mk.injEq, Function.update_idem, and_self, and_true]
  rw [Function.update_comm apart, Function.update_idem]

/-- The node goes with its old connection, and comes back with the new one. -/
theorem resumed_agreed (agreed : Agreed proto world streams) {p outBuffer sent : Nat}
    {owned : Owned} {node : Node} {queue : List IMString} {request : Option IMString}
    (generated : Generated proto) (idle : world.inbox p = []) (client : Client owned)
    (found : world.nodes (p, node.addr) = some node) (persistent : node.m_persist = true)
    (alone : Alone world p node) (inherits : Inherits (world.objects p) node queue)
    (asks : ∀ msg, request = some msg → Parcel msg.bytes ∧
      IsRequest proto msg.bytes (node.m_type, node.m_id)) :
    ∃ later, Agreed proto { replaced (dialling world p owned) p (world.next p) node
        ⟨waiting owned.conn outBuffer node.m_type node.m_id ((world.objects p).callbackOf node),
          queue⟩ with
      wires := ask (world.wires.dial (p, world.next p)) (p, world.next p) sent request } later := by
  obtain ⟨old, gone, backed⟩ := agreed.backed p node.addr node found persistent
  have living := agreed.living (p, old) gone backed.here
  have there : (world.objects p).conns old = some gone := backed.here
  have callback : (world.objects p).callbackOf node = some node.addr := by
    rw [Objects.callbackOf, backed.context, Option.bind_some, there, Option.bind_some, backed.cb]
  have taken : queue = gone.queue := by
    rwa [Inherits, backed.context, Option.bind_some, there] at inherits
  have apart : (p, world.next p) ≠ (p, old) := by
    intro same
    have born := agreed.born _ gone backed.here
    rw [← same] at born
    exact lt_irrefl _ born
  have removed := removed_agreed agreed idle found alone
  have called := ask_called (agreed.wired.unborn (p, world.next p) le_rfl) sent request
  have next : ((world.dropContext p node).setNode (p, node.addr) none).next = world.next := by
    rw [World.dropContext, backed.context]
    rfl
  have wires : ((world.dropContext p node).setNode (p, node.addr) none).wires = world.wires := by
    rw [World.dropContext, backed.context]
    rfl
  rw [callback, replaced_eq_installed backed.context apart, ← next, ← wires]
  rw [← next, ← wires] at called
  refine ⟨_, attached_agreed removed generated client called (Function.update_self ..) rfl persistent
    ?_ ?_ ?_⟩
  · rw [taken]
    exact living.sending.queued
  · rw [taken]
    exact living.plain backed.caller
  · intro frame inside
    obtain ⟨msg, member, rfl⟩ := List.mem_map.mp inside
    exact asks msg (by simpa using member)

/-! ### Runs -/

/-- What a change makes of an agreed world. -/
theorem change_agreed (generated : Generated proto) (agreed : Agreed proto world streams)
    (change : Change proto world after) : ∃ later, Agreed proto after later := by
  cases change with
  | opened unused => exact ⟨streams, opened_agreed agreed unused⟩
  | joined unused flag pending => exact ⟨streams, joined_agreed agreed unused flag pending⟩
  | refused => exact ⟨streams, refused_agreed agreed _⟩
  | posted here rests sound plain => exact ⟨_, posted_agreed agreed here rests sound plain⟩
  | wrote here rests whole => exact ⟨streams, wrote_agreed agreed here rests whole⟩
  | parsed here registered plain arrived ended =>
    exact ⟨streams, parsed_agreed agreed here registered plain arrived ended⟩
  | broke idle here registered broken =>
    exact ⟨streams, broke_agreed agreed idle here registered broken⟩
  | spilt finished arrived => exact ⟨streams, spilt_agreed agreed finished arrived⟩
  | counted here => exact ⟨streams, counted_agreed agreed here⟩
  | launched client absent asks => exact launched_agreed agreed generated client absent asks
  | enlisted client absent single => exact ⟨streams, enlisted_agreed agreed client absent single⟩
  | resumed idle client found persistent alone inherits asks =>
    exact resumed_agreed agreed generated idle client found persistent alone inherits asks
  | removed idle found alone => exact ⟨streams, removed_agreed agreed idle found alone⟩
  | skipped => exact ⟨streams, skipped_agreed agreed _⟩
  | answered head here asked rests answers =>
    exact ⟨_, answered_agreed agreed generated head here asked rests answers⟩
  | confirmed head here found responds leads =>
    exact ⟨streams, confirmed_agreed agreed head here found responds leads⟩

/-- The ends of the connections agree after any changes of the empty world. -/
theorem changes_agreed (generated : Generated proto) (changes : Changes proto .empty world) :
    ∃ streams, Agreed proto world streams := by
  induction changes with
  | refl => exact ⟨_, empty_agreed proto⟩
  | tail _ change ih =>
    obtain ⟨streams, agreed⟩ := ih
    exact change_agreed generated agreed change

end World

/-! ### The two ends of a connection -/

section Cluster
variable {proto : RouterProto} {types : Nat → List (BitVec 16)}
  {events : List (Nat × Processes.Event)} {cluster : Cluster}

/-- In every run of any number of processes, whatever the order of their steps and whatever the
kernel makes of their bytes: a persistent node that is able has a connection in STATE_CONNECTED,
and while the other end of it is there, that is an accepted connection in STATE_CONNECTED which
has the type and the id of the node. -/
theorem able_node_admitted (generated : Generated proto.toProto)
    (posts : ∀ event ∈ events, Coverage.PostsPlain proto.toProto event.2)
    (reached : run (Processes.step proto) (.start types) events = some cluster) {p : Nat}
    {node : Node} (listed : node ∈ nodesOf (cluster.sys p).services)
    (persistent : node.m_persist = true) (able : node.m_state = .NODE_ABLE) :
    ∃ addr conn far, node.m_context = some addr ∧ (cluster.sys p).net.deref addr = some conn ∧
      conn.state = .STATE_CONNECTED ∧ cluster.wires.peer (p, addr) = some far ∧
        ∀ server, (cluster.sys far.1).net.deref far.2 = some server →
          server.flag ≠ .conn_client ∧ server.state = .STATE_CONNECTED ∧
            server.sid = node.m_type ∧ server.nid = node.m_id := by
  obtain ⟨world, shown, changes⟩ := Coverage.run_series generated posts reached
  obtain ⟨streams, agreed⟩ := changes_agreed generated changes
  have found : world.nodes (p, node.addr) = some node := (shown.reads p).placed.node_of_mem listed
  obtain ⟨addr, owned, backed⟩ := agreed.backed p node.addr node found persistent
  obtain ⟨connected, told⟩ := backed.able able
  obtain ⟨far, peer⟩ : ∃ far, world.wires.peer (p, addr) = some far := by
    cases peer : world.wires.peer (p, addr) with
    | none =>
      rw [upstream, peer] at told
      exact absurd told not_carried_nil
    | some far => exact ⟨far, rfl⟩
  rw [upstream_of_peer _ peer] at told
  refine ⟨addr, owned.conn, far, backed.context, (shown.reads p).net.deref backed.here, connected,
    ?_, fun server there => ?_⟩
  · rw [shown.wires]
    exact peer
  · obtain ⟨left, here, rfl⟩ := (shown.reads far.1).conn_of_deref there
    have living := agreed.living far left here
    have accepted : world.wires.caller far = false := by
      rw [agreed.wired.roles _ far peer, backed.caller]
      rfl
    have unbroken : ¬Broken left.conn.state := by
      intro broken
      exact absurd (accepted.symm.trans (living.calls broken)) (by decide)
    obtain ⟨entered, ids⟩ := living.told _ told unbroken
    obtain ⟨sid, nid⟩ := Prod.mk.inj ids
    refine ⟨fun client => ?_, entered, sid, nid⟩
    exact absurd (accepted.symm.trans (living.client.mp client)) (by decide)

end Cluster

/-! ### A run of three processes -/

/-- Type and id as protobuf writes them while both are below 128, and else in six bytes. -/
def idsBody (sid : BitVec 16) (nid : BitVec 32) : List Byte :=
  if sid < 128 ∧ nid < 128 then [8, sid.setWidth 8, 16, nid.setWidth 8]
  else [.ofNat 8 (sid.toNat / 2 ^ 8), .ofNat 8 sid.toNat, .ofNat 8 (nid.toNat / 2 ^ 24),
    .ofNat 8 (nid.toNat / 2 ^ 16), .ofNat 8 (nid.toNat / 2 ^ 8), .ofNat 8 nid.toNat]

def idsOf : List Byte → Option (BitVec 16 × BitVec 32)
  | [8, type, 16, nid] => some (type.setWidth 16, nid.setWidth 32)
  | [s1, s0, n3, n2, n1, n0] => some (.ofNat 16 (s1.toNat * 2 ^ 8 + s0.toNat),
      .ofNat 32 (n3.toNat * 2 ^ 24 + n2.toNat * 2 ^ 16 + n1.toNat * 2 ^ 8 + n0.toNat))
  | _ => none

theorem idsBody_length (sid : BitVec 16) (nid : BitVec 32) :
    0 < (idsBody sid nid).length ∧ (idsBody sid nid).length ≤ 6 := by
  unfold idsBody
  split_ifs <;> simp

theorem idsOf_idsBody (sid : BitVec 16) (nid : BitVec 32) :
    idsOf (idsBody sid nid) = some (sid, nid) := by
  unfold idsBody
  split_ifs with small
  · have fields : idsOf [8, sid.setWidth 8, 16, nid.setWidth 8] =
        some ((sid.setWidth 8).setWidth 16, (nid.setWidth 8).setWidth 32) := rfl
    rw [fields, Option.some.injEq, Prod.mk.injEq]
    obtain ⟨type, id⟩ := small
    constructor <;> bv_omega
  · simp only [idsOf, Option.some.injEq, Prod.mk.injEq]
    constructor <;>
    · apply BitVec.eq_of_toNat_eq
      simp only [BitVec.toNat_ofNat]
      omega

def idsMessage (sid : BitVec 16) (nid : BitVec 32) : MessageLite :=
  ⟨idsBody sid nid, true, lt_of_le_of_lt (idsBody_length sid nid).2 (by decide)⟩

def authenticating : RouterProto :=
  { Ticks.smallRouter with
    parseAuthenticationReq := idsOf
    parseAuthenticationRsp := idsOf
    authenticationReq := idsMessage
    authenticationRsp := idsMessage }

theorem authenticating_generated : Generated authenticating.toProto where
  other := by decide
  router := by decide
  commands := by decide
  apart := by decide
  requests := fun sid nid => ⟨⟨rfl, (idsBody_length sid nid).1,
    (idsBody_length sid nid).2.trans (by decide)⟩, idsOf_idsBody sid nid⟩
  responses := fun sid nid => ⟨⟨rfl, (idsBody_length sid nid).1,
    (idsBody_length sid nid).2.trans (by decide)⟩, idsOf_idsBody sid nid⟩
  registers := ⟨rfl, by decide, by decide⟩

/-- The message of that command, and the read that receives it. -/
def frameOf (sid cid : BitVec 16) (pb : MessageLite) : IMString :=
  (buildMsg ⟨true, fun _ => 0⟩ sid cid pb).getD .null

def receiving (msg : IMString) : ReadEvent :=
  ⟨[.bytes msg.bytes, .failed .EAGAIN], fun _ => ⟨⟨true, fun _ => 0⟩, 0⟩, 2⟩

/-- The database proxy 7 is there. -/
def announcement : IMString := frameOf 1 3 ⟨[8, 1, 16, 7, 24, 3], true, by simp⟩

def clientAlone (p : Nat) : List (BitVec 16) := if p = 0 then [1, 3] else []

/-- Process 1 announces the server to process 0, which connects to process 2 and asks; the answer
comes back. -/
def askedAndAnswered : List (Nat × Processes.Event) :=
  let heap : Heap := ⟨true, fun _ => 0⟩
  let trips : Nat → Trip := fun _ => ⟨Arming.freshFd 7, 100⟩
  [(0, .connect 5), (1, .accept ⟨6, true, true⟩ (0, 0)), (1, .sendNode announcement 0),
    (1, .write 0 [.sent 100] heap), (0, .read 0 (receiving announcement) heap),
    (0, .handle heap trips), (2, .accept ⟨8, true, true⟩ (0, 1)),
    (2, .read 0 (receiving (frameOf 2 1 (idsMessage 3 7))) heap), (2, .handle heap trips),
    (2, .write 0 [.sent 100] heap), (0, .read 1 (receiving (frameOf 2 2 (idsMessage 3 7))) heap),
    (0, .handle heap trips)]

theorem announcement_plain : Sound announcement ∧ Plain authenticating.toProto announcement.bytes := by
  have built : (buildMsg ⟨true, fun _ => 0⟩ 1 3 ⟨[8, 1, 16, 7, 24, 3], true, by simp⟩).isSome := by
    decide +kernel
  obtain ⟨msg, same⟩ := Option.isSome_iff_exists.mp built
  have announced : announcement = msg := by rw [announcement, frameOf, same, Option.getD_some]
  rw [announced]
  exact buildMsg_plain (by decide) ⟨rfl, by decide, by decide⟩ (by decide) same

theorem askedAndAnswered_plain :
    ∀ event ∈ askedAndAnswered, Coverage.PostsPlain authenticating.toProto event.2 := by
  simp only [askedAndAnswered, List.forall_mem_cons, Coverage.PostsPlain, announcement_plain,
    List.not_mem_nil, false_implies, implies_true, and_self]

theorem able_node_admitted_answered : ∃ cluster node,
    run (Processes.step authenticating) (.start clientAlone) askedAndAnswered = some cluster ∧
      node ∈ nodesOf (cluster.sys 0).services ∧ ∃ addr conn far, node.m_context = some addr ∧
        (cluster.sys 0).net.deref addr = some conn ∧ conn.state = .STATE_CONNECTED ∧
          cluster.wires.peer (0, addr) = some far ∧
            ∀ server, (cluster.sys far.1).net.deref far.2 = some server →
              server.flag ≠ .conn_client ∧ server.state = .STATE_CONNECTED ∧
                server.sid = node.m_type ∧ server.nid = node.m_id := by
  have ends : (run (Processes.step authenticating) (.start clientAlone) askedAndAnswered).map
      (fun cluster => (nodesOf (cluster.sys 0).services).map fun node =>
        (node.m_persist, node.m_state)) = some [(true, .NODE_ABLE)] := by decide +kernel
  obtain ⟨cluster, reached, nodes⟩ := Option.map_eq_some_iff.mp ends
  obtain ⟨node, listed, facts⟩ : ∃ node ∈ nodesOf (cluster.sys 0).services,
      (node.m_persist, node.m_state) = (true, .NODE_ABLE) := by
    rw [← List.mem_map, nodes]
    exact List.mem_singleton_self _
  obtain ⟨persistent, able⟩ := Prod.mk.inj facts
  exact ⟨cluster, node, reached, listed, able_node_admitted authenticating_generated
    askedAndAnswered_plain reached listed persistent able⟩

/-! ### The other end -/

section Cluster
variable {proto : RouterProto} {types : Nat → List (BitVec 16)}
  {events : List (Nat × Processes.Event)} {cluster : Cluster}

/-- An accepted connection enters STATE_CONNECTED with the type and the id of the node that asked:
while the other end of it is there, it is the context of a persistent node with these. -/
theorem admitted_connection_asked (generated : Generated proto.toProto)
    (posts : ∀ event ∈ events, Coverage.PostsPlain proto.toProto event.2)
    (reached : run (Processes.step proto) (.start types) events = some cluster) {q far : Nat}
    {server : Connection} (there : (cluster.sys q).net.deref far = some server)
    (accepted : server.flag ≠ .conn_client) (connected : server.state = .STATE_CONNECTED) :
    ∃ p addr, cluster.wires.peer (q, far) = some (p, addr) ∧
      ∀ conn, (cluster.sys p).net.deref addr = some conn → conn.flag = .conn_client ∧
        ∃ node ∈ nodesOf (cluster.sys p).services, node.m_persist = true ∧
          node.m_context = some addr ∧ node.m_type = server.sid ∧ node.m_id = server.nid := by
  obtain ⟨world, shown, changes⟩ := Coverage.run_series generated posts reached
  obtain ⟨streams, agreed⟩ := changes_agreed generated changes
  obtain ⟨owned, here, rfl⟩ := (shown.reads q).conn_of_deref there
  have living := agreed.living (q, far) owned here
  have asked := living.admitted connected
    (Bool.eq_false_of_not_eq_true fun caller => accepted (living.client.mpr caller))
  obtain ⟨⟨p, addr⟩, peer⟩ : ∃ near, world.wires.peer (q, far) = some near := by
    cases peer : world.wires.peer (q, far) with
    | none =>
      change Asked proto.toProto (upstream world.wires streams (q, far)) _ at asked
      rw [upstream, peer] at asked
      exact absurd asked not_carried_nil
    | some near => exact ⟨near, rfl⟩
  change Asked proto.toProto (upstream world.wires streams (q, far)) _ at asked
  rw [upstream_of_peer _ peer] at asked
  refine ⟨p, addr, by rw [shown.wires]; exact peer, fun conn near => ?_⟩
  obtain ⟨left, present, rfl⟩ := (shown.reads p).conn_of_deref near
  have calling := agreed.living (p, addr) left present
  obtain ⟨place, node, found, persistent, context, ids⟩ := calling.asked _ asked
  obtain ⟨type, id⟩ := Prod.mk.inj ids
  refine ⟨calling.client.mpr (agreed.spoken.asks _ _ asked), node, ?_, persistent, context, type, id⟩
  exact ((shown.reads p).placed.mem_of_node found).1

end Cluster

theorem admitted_connection_asked_answered : ∃ cluster server,
    run (Processes.step authenticating) (.start clientAlone) askedAndAnswered = some cluster ∧
      (cluster.sys 2).net.deref 0 = some server ∧ server.state = .STATE_CONNECTED ∧
        ∃ p addr, cluster.wires.peer (2, 0) = some (p, addr) ∧
          ∀ conn, (cluster.sys p).net.deref addr = some conn → conn.flag = .conn_client ∧
            ∃ node ∈ nodesOf (cluster.sys p).services, node.m_persist = true ∧
              node.m_context = some addr ∧ node.m_type = server.sid ∧ node.m_id = server.nid := by
  have ends : (run (Processes.step authenticating) (.start clientAlone) askedAndAnswered).bind
      (fun cluster => ((cluster.sys 2).net.deref 0).map fun server =>
        (server.flag, server.state)) = some (.conn_server, .STATE_CONNECTED) := by decide +kernel
  obtain ⟨cluster, reached, ends⟩ := Option.bind_eq_some_iff.mp ends
  obtain ⟨server, there, facts⟩ := Option.map_eq_some_iff.mp ends
  obtain ⟨flag, connected⟩ := Prod.mk.inj facts
  have accepted : server.flag ≠ .conn_client := by
    rw [flag]
    decide
  exact ⟨cluster, server, reached, there, connected, admitted_connection_asked
    authenticating_generated askedAndAnswered_plain reached there accepted connected⟩

end SNFrame.System.Admission
