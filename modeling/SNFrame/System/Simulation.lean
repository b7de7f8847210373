import SNFrame.System.Handover
import SNFrame.System.Turns

/-! Every function of NodeMgr, ServiceNode, RouterNode and TcpServer moves the two tables as
the moves allow. The transitions of an old connection into STATE_CONNECTED are stated exactly. -/

namespace SNFrame.System.Simulation
open Library.Table Base.PbBuf Core.Receiving Core.Sending Core.TcpParse Core.NetManager
open Core.NodeMgr Ownership Tables Turns Handover

/-! ### The write event of one connection -/

theorem armed_of_state {owned : Owned} (state : owned.conn.state ≠ .STATE_CONNECTED) :
    Armed owned :=
  fun connected => absurd connected state

theorem armed_of_empty {owned : Owned}
    (nothing : empty owned.queue owned.conn.send = true) : Armed owned := by
  intro _ something
  rw [nothing] at something
  cases something

@[simp] theorem addEvent_evs (conn : Connection) (mask : BitVec 16) :
    (conn.addEvent mask).evs = conn.evs := by
  simp only [Connection.addEvent]
  split_ifs <;> rfl

@[simp] theorem addEvent_flag (conn : Connection) (mask : BitVec 16) :
    (conn.addEvent mask).flag = conn.flag := by
  simp only [Connection.addEvent]
  split_ifs <;> rfl

@[simp] theorem addEvent_state (conn : Connection) (mask : BitVec 16) :
    (conn.addEvent mask).state = conn.state := by
  simp only [Connection.addEvent]
  split_ifs <;> rfl

@[simp] theorem withEvent_state (conn : Connection) (mask : BitVec 16) :
    (withEvent mask conn).state = conn.state := by
  simp only [withEvent]
  split_ifs <;> simp

@[simp] theorem withEvent_flag (conn : Connection) (mask : BitVec 16) :
    (withEvent mask conn).flag = conn.flag := by
  simp only [withEvent]
  split_ifs <;> simp

@[simp] theorem withoutEvent_flag (conn : Connection) (mask : BitVec 16) :
    (withoutEvent mask conn).flag = conn.flag := by
  simp only [withoutEvent]
  split_ifs <;> rfl

@[simp] theorem withoutEvent_state (conn : Connection) (mask : BitVec 16) :
    (withoutEvent mask conn).state = conn.state := by
  simp only [withoutEvent]
  split_ifs <;> rfl

@[simp] theorem withoutEvent_cb (conn : Connection) (mask : BitVec 16) :
    (withoutEvent mask conn).cb = conn.cb := by
  simp only [withoutEvent]
  split_ifs <;> rfl

@[simp] theorem withoutEvent_send (conn : Connection) (mask : BitVec 16) :
    (withoutEvent mask conn).send = conn.send := by
  simp only [withoutEvent]
  split_ifs <;> rfl

theorem withEvent_writable (conn : Connection) :
    (withEvent AE_WRITABLE conn).evs &&& AE_WRITABLE ≠ 0 := by
  simp only [withEvent]
  split_ifs with armed
  · exact armed
  · rw [addEvent_evs]
    intro none
    have bit := congrArg (fun mask => mask.getLsbD 1) none
    simp [AE_WRITABLE] at bit

theorem armed_sent {owned : Owned} {arms : ConnState → Bool}
    (connected : arms .STATE_CONNECTED = true) (msg : IMString) :
    Armed (owned.sent arms msg) := by
  intro state _
  by_cases armed : arms owned.conn.state
  · simp only [Owned.sent, armed, if_true]
    exact withEvent_writable owned.conn
  · simp only [Owned.sent, armed, Bool.false_eq_true, if_false] at state ⊢
    rw [state] at armed
    exact absurd connected armed

@[simp] theorem addEvent_cb (conn : Connection) (mask : BitVec 16) :
    (conn.addEvent mask).cb = conn.cb := by
  simp only [Connection.addEvent]
  split_ifs <;> rfl

@[simp] theorem withEvent_cb (conn : Connection) (mask : BitVec 16) :
    (withEvent mask conn).cb = conn.cb := by
  simp only [withEvent]
  split_ifs <;> simp

@[simp] theorem sent_flag (owned : Owned) (arms : ConnState → Bool) (msg : IMString) :
    (owned.sent arms msg).conn.flag = owned.conn.flag := by
  simp only [Owned.sent]
  split_ifs <;> simp

/-- A write that starts with nothing to send does nothing. -/
theorem write_of_empty {queue : List IMString} {send : SendPkt}
    (nothing : empty queue send = true) (outcomes : List SendResult) :
    (write outcomes queue send).queue = queue ∧ (write outcomes queue send).send = send := by
  have both : send.finish = true ∧ queue = [] := by simpa [empty] using nothing
  have none : nextPkt queue send = none := by simp [nextPkt, both.1, both.2]
  rcases outcomes with _ | ⟨_ | _, outcomes⟩ <;> simp [write, writeLoop, whilePkt, none]

theorem nonempty_of_written {owned : Owned} {outcomes : List SendResult}
    (something : empty (owned.written outcomes).queue (owned.written outcomes).conn.send = false) :
    empty owned.queue owned.conn.send = false := by
  cases before : empty owned.queue owned.conn.send with
  | false => rfl
  | true =>
    obtain ⟨sameQueue, sameSend⟩ := write_of_empty before outcomes
    simp only [Owned.written, sameQueue, sameSend, before] at something
    cases something

theorem armed_written {owned : Owned} (armed : Armed owned) (outcomes : List SendResult) :
    Armed (owned.written outcomes) :=
  fun state something => armed state (nonempty_of_written something)

/-! ### Steps of the connection table alone -/

/-- The next state of the program reads as tables that the moves reach. -/
def Simulated (objects : Objects) (next : Sys) : Prop :=
  ∃ after, Reads next after ∧ Moves objects after

theorem simulated_of_turned {fails : Nat → Prop} {objects : Objects} {next : Sys}
    (turned : Turned fails objects next) :
    Simulated objects next := by
  obtain ⟨after, reads, course⟩ := turned
  exact ⟨after, reads, course_moves course⟩

section Steps
variable {sys next : Sys} {objects : Objects} {addr : Nat} {owned : Owned} {heap : Heap}

theorem opened_turned (reads : Reads sys objects) {net : Net} {new : Owned}
    (shown : Shows noStrays net (Function.update objects.conns sys.net.next (some new)))
    (state : new.conn.state ≠ .STATE_CONNECTED) (cb : new.conn.cb = none) :
    Turned noFailure objects { sys with net := net } :=
  .single (reads.withNet shown) (.opened reads.net.fresh cb (armed_of_state state))

theorem listen_turned (reads : Reads sys objects) {fd : Int} {net : Net}
    (listening : sys.net.listen fd = some net) : Turned noFailure objects { sys with net := net } := by
  rcases listen_cases reads.net listening with rfl | shown
  · exact .refl reads
  · apply opened_turned reads shown <;> simp [Connection.fresh]

theorem accept_turned (reads : Reads sys objects) {event : Net.AcceptEvent} {net : Net}
    (accepted : sys.net.accept event = some net) : Turned noFailure objects { sys with net := net } := by
  rcases accept_cases reads.net accepted with rfl | shown
  · exact .refl reads
  · apply opened_turned reads shown <;> simp [serverConn, Connection.fresh]

theorem connect_turned (reads : Reads sys objects) {fd : Int} {net : Net} {conn : Option Nat}
    (connected : sys.net.connect fd = some (net, conn)) :
    Turned noFailure objects { sys with net := net } := by
  rcases connect_cases reads.net connected with ⟨-, -, rfl⟩ | ⟨-, -, shown⟩
  · exact .refl reads
  · apply opened_turned reads shown <;> simp [clientConn, Connection.fresh]

theorem sent_alike (owned : Owned) (arms : ConnState → Bool) (msg : IMString) :
    Alike owned (owned.sent arms msg) := by
  constructor <;> simp only [Owned.sent] <;> split_ifs <;> simp

/-- All four send functions arm the connections in STATE_CONNECTED. -/
theorem sendFirst_turned (reads : Reads sys objects) {isTarget : Connection → Bool}
    {arms : ConnState → Bool} (connected : arms .STATE_CONNECTED = true) {msg : IMString}
    {code : Int} {net : Net} (sent : sys.net.sendFirst isTarget arms msg = some (code, net)) :
    Turned noFailure objects { sys with net := net } := by
  rcases sendFirst_cases reads.net isTarget arms msg with
    same | ⟨addr, owned, after, here, -, done, shown⟩
  · rw [same] at sent
    cases sent
    exact .refl reads
  · rw [done] at sent
    cases sent
    have stored : Reads _ (objects.setConn addr (some (owned.sent arms msg))) :=
      reads.withNet shown
    apply Turned.single
    · exact stored
    · exact .changed here (sent_alike owned arms msg) fun _ => armed_sent connected msg

/-! ### States, failures, reads and writes -/

theorem notifyNodeState_reads (reads : Reads sys objects) {place : Nat} {state : ConnState}
    (done : sys.notifyNodeState heap place state = some next) :
    Reads next (objects.notify (some place) state) := by
  obtain ⟨node, found, rfl⟩ := Option.map_eq_some_iff.mp done
  have here : objects.nodes place = some node := by rw [← reads.nodes, found]
  have noted := assignNode_reads reads here (f := (·.setState (nodeStateOf state))) fun _ => rfl
  simp only [Objects.notify, here]
  by_cases allocated : (bufalloc heap 27).1
  · rw [if_pos allocated]
    exact noted.log _
  · rw [if_neg allocated]
    exact noted

theorem storeState_reads (reads : Reads sys objects) (here : objects.conns addr = some owned)
    (state : ConnState) :
    Reads { sys with net := sys.net.assign addr fun conn => { conn with state := state } }
      (objects.setConn addr (some (inState state owned))) :=
  reads.assign here ⟨fun _ => rfl, fun _ => rfl, fun _ => rfl, fun _ => rfl⟩

/-- `Connection::setState` to a broken state calls the callback. -/
theorem setState_broken (reads : Reads sys objects) (here : objects.conns addr = some owned)
    {state : ConnState} (broken : Broken state)
    (done : sys.setState heap addr state = some next) :
    Reads next ((objects.setConn addr (some (inState state owned))).notify owned.conn.cb state) := by
  have stored := storeState_reads reads here state
  simp only [Sys.setState, reads.net.deref here] at done
  rw [if_pos (show state = .STATE_CLOSED ∨ state = .STATE_ERROR from broken)] at done
  cases callback : owned.conn.cb with
  | none =>
    simp only [callback, Option.some.injEq] at done
    subst done
    exact stored
  | some place =>
    simp only [callback] at done
    exact notifyNodeState_reads stored done

theorem setState_calm (reads : Reads sys objects) (here : objects.conns addr = some owned)
    {state : ConnState} (calm : ¬Broken state)
    (done : sys.setState heap addr state = some next) :
    Reads next (objects.setConn addr (some (inState state owned))) := by
  have stored := storeState_reads reads here state
  simp only [Sys.setState, reads.net.deref here] at done
  rw [if_neg (show ¬(state = .STATE_CLOSED ∨ state = .STATE_ERROR) from calm)] at done
  cases done
  exact stored

theorem setState_deref {state : ConnState} (done : sys.setState heap addr state = some next) :
    ∃ conn, sys.net.deref addr = some conn := by
  cases found : sys.net.deref addr with
  | none => simp [Sys.setState, found] at done
  | some conn => exact ⟨conn, rfl⟩

theorem withoutEvent_alike (owned : Owned) (mask : BitVec 16) :
    Alike owned ⟨withoutEvent mask owned.conn, owned.queue⟩ := by
  constructor <;> simp only [withoutEvent] <;> split_ifs <;> rfl

theorem delFileEvent_turned (fails : Nat → Prop) (reads : Reads sys objects)
    (here : objects.conns addr = some owned) (mask : BitVec 16)
    (armed : Armed owned → Armed ⟨withoutEvent mask owned.conn, owned.queue⟩) :
    Reads { sys with net := sys.net.delFileEvent owned.conn.fd mask }
        (objects.setConn addr (some ⟨withoutEvent mask owned.conn, owned.queue⟩)) ∧
      Turn fails objects
        (objects.setConn addr (some ⟨withoutEvent mask owned.conn, owned.queue⟩)) :=
  ⟨reads.withNet (delFileEvent_shows reads.net here mask),
    .changed here (withoutEvent_alike owned mask) armed⟩

/-- The failed connection with its node noted, and before its events are removed. -/
def broken (objects : Objects) (addr : Nat) (owned : Owned) (state : ConnState) : Objects :=
  (objects.setConn addr (some (inState state owned))).notify owned.conn.cb state

theorem broken_here (objects : Objects) (addr : Nat) (owned : Owned) (state : ConnState) :
    (broken objects addr owned state).conns addr = some (inState state owned) := by
  rw [broken, Objects.notify_conns]
  exact Function.update_self ..

/-- The tables once the failed connection has lost its events. It stays in the table only when it
is a client. -/
structure Failed (objects : Objects) (addr : Nat) (owned : Owned) (state : ConnState)
    (after : Objects) : Prop where
  nodes : after.nodes = (objects.notify owned.conn.cb state).nodes
  others : ∀ other ≠ addr, after.conns other = objects.conns other
  stays : owned.conn.flag = .conn_client →
    ∃ held, after.conns addr = some held ∧ held.conn.state = state

theorem fail_cases {fails : Nat → Prop} (reads : Reads sys objects)
    (here : objects.conns addr = some owned) {state : ConnState} (failed : Broken state)
    (failing : fails addr) (done : sys.fail heap addr state = some next) :
    ∃ after, Reads next after ∧ Course fails objects after ∧
      Failed objects addr owned state after := by
  obtain ⟨middle, set, done⟩ := Option.bind_eq_some_iff.mp done
  have noted : Reads middle (broken objects addr owned state) :=
    setState_broken reads here failed set
  have enters : Course fails objects (broken objects addr owned state) :=
    .single (.failed here failed failing)
  have there := broken_here objects addr owned state
  have unconnected : (inState state owned).conn.state ≠ .STATE_CONNECTED :=
    unconnected_of_broken failed
  have nodes : (broken objects addr owned state).nodes =
      (objects.notify owned.conn.cb state).nodes := by
    rw [broken, ← Objects.notify_setConn, Objects.setConn_nodes]
  have others : ∀ other ≠ addr, (broken objects addr owned state).conns other =
      objects.conns other := by
    intro other differs
    rw [broken, Objects.notify_conns, Objects.setConn_conns, Function.update_of_ne differs]
  simp only [noted.net.deref there, Option.bind_eq_bind, Option.bind_some] at done
  obtain ⟨removed, removes⟩ := delFileEvent_turned fails noted there (AE_READABLE ||| AE_WRITABLE)
    fun _ => armed_of_state (by simpa using unconnected)
  have left := Function.update_self addr
    (some (Owned.mk (withoutEvent (AE_READABLE ||| AE_WRITABLE) (inState state owned).conn)
      (inState state owned).queue)) (broken objects addr owned state).conns
  split_ifs at done with accepted
  · cases done
    have sameFd := (withoutEvent_keeps (AE_READABLE ||| AE_WRITABLE)).fd (inState state owned).conn
    have shown := closeConnection_shows removed.net left
    rw [sameFd] at shown
    have closes := removed.withNet shown
    refine ⟨_, closes, (enters.tail removes).tail (.closed left ?_), nodes, ?_, ?_⟩
    · rw [withoutEvent_flag]
      exact accepted
    · intro other differs
      exact (Function.update_of_ne differs ..).trans
        ((Function.update_of_ne differs ..).trans (others other differs))
    · exact fun client => absurd client accepted
  · cases done
    refine ⟨_, removed, enters.tail removes, nodes, ?_, ?_⟩
    · intro other differs
      exact (Function.update_of_ne differs ..).trans (others other differs)
    · exact fun _ => ⟨_, left, withoutEvent_state ..⟩

theorem readThenParse_failed {sids : ServiceID} {event : ReadEvent} {conn recv : RecvPkt}
    {state : ConnState} (ended : readThenParse sids event conn = .ok (some (.failed recv state))) :
    Broken state := by
  unfold readThenParse at ended
  cases trace : Core.Receiving.read event.outcomes conn with
  | error fault => simp [trace, bind, Except.bind] at ended
  | ok trace' =>
    simp only [trace, bind, Except.bind] at ended
    split at ended
    · cases ended
    · cases ended
      exact .inr rfl
    · cases ended
      exact .inl rfl
    · split at ended
      · cases ended
      · split at ended <;> cases ended

/-- The call of `TcpServer::read` or `TcpServer::write` fails, on that connection. -/
def Fails (sids : ServiceID) (sys : Sys) : Action → Nat → Prop
  | .read place event _, addr => place = addr ∧ ∃ conn recv state,
      sys.net.deref addr = some conn ∧
        readThenParse sids event conn.recv = .ok (some (.failed recv state))
  | .write place outcomes _, addr => place = addr ∧ ∃ net accepted,
      sys.net.writeConn addr outcomes = some (net, some .error, accepted) ∨
        sys.net.writeConn addr outcomes = some (net, some .closed, accepted)
  | _, _ => False

theorem fails_unique {sids : ServiceID} {action : Action} {first second : Nat}
    (left : Fails sids sys action first) (right : Fails sids sys action second) :
    first = second := by
  cases action with
  | read | write => exact left.1.symm.trans right.1
  | listen | accept | connect | sendSock | sendNode | sendDb | sendState | authenticationReq
  | authenticationRsp | checkState | srvinfoBroadcast | registReq => exact left.elim

/-- The next state is that of a failed connection. -/
def Breaks (fails : Nat → Prop) (objects : Objects) (addr : Nat) (next : Sys) : Prop :=
  ∃ owned state after, objects.conns addr = some owned ∧ Broken state ∧ Reads next after ∧
    Course fails objects after ∧ Failed objects addr owned state after

/-- A read fails or leaves the nodes alone. -/
theorem read_cases (reads : Reads sys objects) {sids : ServiceID} {event : ReadEvent}
    (done : sys.read sids heap addr event = some next) :
    ¬Fails sids sys (.read addr event heap) addr ∧ Turned noFailure objects next ∨
      Fails sids sys (.read addr event heap) addr ∧
        Breaks (Fails sids sys (.read addr event heap)) objects addr next := by
  obtain ⟨conn, pointed, done⟩ := Option.bind_eq_some_iff.mp done
  obtain ⟨owned, here, rfl⟩ := reads.conn_of_deref pointed
  have stored := fun recv => reads.assign here (f := fun conn => { conn with recv := recv })
    ⟨fun _ => rfl, fun _ => rfl, fun _ => rfl, fun _ => rfl⟩
  split at done
  · next recv out parsed =>
    cases done
    have kept := stored recv
    refine .inl ⟨?_, .single ⟨kept.net, kept.addrs, kept.below, kept.nodes⟩
      (.changed here ⟨rfl, rfl, rfl⟩ fun armed => armed)⟩
    rintro ⟨-, other, recv', state, found, ended⟩
    cases pointed.symm.trans found
    rw [parsed] at ended
    cases ended
  · next recv state ended =>
    have failed := readThenParse_failed ended
    have fails : Fails sids sys (.read addr event heap) addr :=
      ⟨rfl, owned.conn, recv, state, pointed, ended⟩
    obtain ⟨after, afterReads, course, nodes, others, stays⟩ :=
      fail_cases (stored recv) (Function.update_self ..) failed fails done
    have received : Turn (Fails sids sys (.read addr event heap)) objects
        (objects.setConn addr (some ⟨{ owned.conn with recv := recv }, owned.queue⟩)) :=
      .changed here ⟨rfl, rfl, rfl⟩ fun armed => armed
    refine .inr ⟨fails, owned, state, after, here, failed, afterReads, course.head received,
      ?_, ?_, stays⟩
    · rw [nodes, ← Objects.notify_setConn, Objects.setConn_nodes]
    · intro other differs
      exact (others other differs).trans (Function.update_of_ne differs ..)
  · cases done

theorem writeConn_deref {outcomes : List SendResult} {net : Net} {result}
    (wrote : sys.net.writeConn addr outcomes = some (net, result)) :
    ∃ conn, sys.net.deref addr = some conn := by
  cases found : sys.net.deref addr with
  | none => simp [Net.writeConn, found] at wrote
  | some conn => exact ⟨conn, rfl⟩

/-- A write fails or leaves the nodes alone. -/
theorem write_cases (reads : Reads sys objects) {sids : ServiceID} {outcomes : List SendResult}
    (done : sys.write heap addr outcomes = some next) :
    ¬Fails sids sys (.write addr outcomes heap) addr ∧ Turned noFailure objects next ∨
      Fails sids sys (.write addr outcomes heap) addr ∧
        Breaks (Fails sids sys (.write addr outcomes heap)) objects addr next := by
  obtain ⟨⟨net, result⟩, wrote, -⟩ := Option.bind_eq_some_iff.mp done
  obtain ⟨conn, pointed⟩ := writeConn_deref wrote
  obtain ⟨owned, here, -⟩ := reads.conn_of_deref pointed
  obtain ⟨net, wrote, shown⟩ := writeConn_shows reads.net here outcomes
  have stored : Reads { sys with net := net }
      (objects.setConn addr (some (owned.written outcomes))) := reads.withNet shown
  have there : (objects.setConn addr (some (owned.written outcomes))).conns addr =
      some (owned.written outcomes) := Function.update_self ..
  have written : ∀ fails, Turn fails objects
      (objects.setConn addr (some (owned.written outcomes))) :=
    fun fails => .changed here ⟨rfl, rfl, rfl⟩ fun armed => armed_written armed outcomes
  have broke : ∀ {state}, Broken state → Fails sids sys (.write addr outcomes heap) addr →
      Sys.fail { sys with net := net } heap addr state = some next →
      Breaks (Fails sids sys (.write addr outcomes heap)) objects addr next := by
    intro state failed fails done
    obtain ⟨after, afterReads, course, nodes, others, stays⟩ :=
      fail_cases stored there failed fails done
    refine ⟨owned, state, after, here, failed, afterReads, course.head (written _), ?_, ?_, stays⟩
    · rw [nodes, ← Objects.notify_setConn, Objects.setConn_nodes]
      rfl
    · intro other differs
      exact (others other differs).trans (Function.update_of_ne differs ..)
  simp only [Sys.write, wrote, Option.bind_eq_bind, Option.bind_some] at done
  split at done
  · cases done
  · next result =>
    have fails : Fails sids sys (.write addr outcomes heap) addr :=
      ⟨rfl, net, _, .inl (by rw [wrote, ← result])⟩
    exact .inr ⟨fails, broke (.inr rfl) fails done⟩
  · next result =>
    have fails : Fails sids sys (.write addr outcomes heap) addr :=
      ⟨rfl, net, _, .inr (by rw [wrote, ← result])⟩
    exact .inr ⟨fails, broke (.inl rfl) fails done⟩
  · next result notError notClosed ended =>
    left
    constructor
    · rintro ⟨-, other, accepted, same | same⟩
      · rw [wrote, Option.some.injEq, Prod.mk.injEq, Prod.mk.injEq] at same
        exact notError (Option.some.inj (ended.symm.trans same.2.1))
      · rw [wrote, Option.some.injEq, Prod.mk.injEq, Prod.mk.injEq] at same
        exact notClosed (Option.some.inj (ended.symm.trans same.2.1))
    · simp only [stored.net.deref there, stored.net.emptyConn there, Option.bind_some] at done
      by_cases drained : empty (owned.written outcomes).queue (owned.written outcomes).conn.send
      · rw [if_pos drained] at done
        cases done
        obtain ⟨removed, turn⟩ := delFileEvent_turned noFailure stored there AE_WRITABLE fun _ =>
          armed_of_empty (by rw [withoutEvent_send]; exact drained)
        exact ⟨_, removed, .tail (.single (written _)) turn⟩
      · rw [if_neg drained] at done
        cases done
        exact .single stored (written _)

theorem Breaks.turned {fails : Nat → Prop} (breaks : Breaks fails objects addr next) :
    Turned fails objects next := by
  obtain ⟨_, _, after, -, -, reads, course, -⟩ := breaks
  exact ⟨after, reads, course⟩

theorem turned_of_noFailure {fails : Nat → Prop} (turned : Turned noFailure objects next) :
    Turned fails objects next := by
  obtain ⟨after, reads, course⟩ := turned
  exact ⟨after, reads, course_mono (fun _ never => never.elim) course⟩

/-! ### Authentication -/

/-- A connection with the identity of a node, in a new state. -/
def enrolled (sid : BitVec 16) (nid : BitVec 32) (state : ConnState) (owned : Owned) : Owned :=
  inState state ⟨{ owned.conn with sid := sid, nid := nid }, owned.queue⟩

/-- `setNodeInfo`, and then `setState`. -/
theorem setNodeInfo_reads (reads : Reads sys objects) (here : objects.conns addr = some owned)
    {sid : BitVec 16} {nid : BitVec 32} {state : ConnState}
    (calm : ¬Broken state)
    (done : ({ sys with net := sys.net.assign addr fun conn =>
      { conn with sid := sid, nid := nid } } : Sys).setState heap addr state = some next) :
    Reads next (objects.setConn addr (some (enrolled sid nid state owned))) := by
  have named := reads.assign here (f := fun conn => { conn with sid := sid, nid := nid })
    ⟨fun _ => rfl, fun _ => rfl, fun _ => rfl, fun _ => rfl⟩
  have stored := setState_calm named (Function.update_self ..) calm done
  rw [Objects.setConn_setConn] at stored
  exact stored

theorem deref_of_assign {net : Net} {f : Connection → Connection} {conn : Connection}
    (found : (net.assign addr f).deref addr = some conn)
    (keeps : ∀ conn, (f conn).addr = conn.addr) : ∃ was, net.deref addr = some was := by
  rw [Net.deref, Net.assign, lookup_update keeps, if_pos rfl] at found
  obtain ⟨was, there, -⟩ := Option.map_eq_some_iff.mp found
  exact ⟨was, there⟩

/-- A message to the descriptor of a connection is in the queue of that connection. -/
theorem sendSock_reads (reads : Reads sys objects) (here : objects.conns addr = some owned)
    {msg : IMString} (done : ((sys.net.sendSock msg owned.conn.fd).map fun sent =>
      { sys with net := sent.2 }) = some next) :
    Reads next (objects.setConn addr (some (owned.sent (· = .STATE_CONNECTED) msg))) := by
  obtain ⟨net, sent, shown⟩ := sendSock_shows reads.net here msg
  rw [sent, Option.map_some, Option.some.injEq] at done
  subst done
  exact reads.withNet shown

/-- The response is sent on the connection that asked, when there is memory for it. -/
theorem authenticationReq_cases {proto : Proto} {msg : IMString} (reads : Reads sys objects)
    (done : sys.authenticationReq proto heap addr msg = some next) :
    proto.parseAuthenticationReq (payload msg) = none ∧ next = sys ∨
      ∃ sid nid owned, proto.parseAuthenticationReq (payload msg) = some (sid, nid) ∧
        objects.conns addr = some owned ∧
        (buildMsg heap proto.SID_OTHER proto.CID_OTHER_AUTHENTICATION_RSP
            (proto.authenticationRsp sid nid) = none ∧
          Reads next (objects.setConn addr (some (enrolled sid nid .STATE_CONNECTED owned))) ∨
        ∃ auth, buildMsg heap proto.SID_OTHER proto.CID_OTHER_AUTHENTICATION_RSP
            (proto.authenticationRsp sid nid) = some auth ∧
          Reads next (objects.setConn addr (some
            ((enrolled sid nid .STATE_CONNECTED owned).sent (· = .STATE_CONNECTED) auth)))) := by
  unfold Sys.authenticationReq at done
  cases parsed : proto.parseAuthenticationReq (payload msg) with
  | none =>
    simp only [parsed, Option.some.injEq] at done
    exact .inl ⟨rfl, done.symm⟩
  | some both =>
    obtain ⟨sid, nid⟩ := both
    right
    simp only [parsed, Option.bind_eq_bind] at done
    obtain ⟨middle, set, done⟩ := Option.bind_eq_some_iff.mp done
    obtain ⟨conn, pointed⟩ := setState_deref set
    obtain ⟨was, pointed⟩ := deref_of_assign pointed fun _ => rfl
    obtain ⟨owned, here, -⟩ := reads.conn_of_deref pointed
    have connected := setNodeInfo_reads reads here (by decide) set
    have there := Function.update_self addr (some (enrolled sid nid .STATE_CONNECTED owned))
      objects.conns
    refine ⟨sid, nid, owned, rfl, here, ?_⟩
    simp only [connected.net.deref there, Option.bind_some] at done
    cases built : buildMsg heap proto.SID_OTHER proto.CID_OTHER_AUTHENTICATION_RSP
        (proto.authenticationRsp sid nid) with
    | none =>
      simp only [built, Option.some.injEq] at done
      subst done
      exact .inl ⟨rfl, connected⟩
    | some auth =>
      simp only [built] at done
      have stored := sendSock_reads connected there done
      rw [Objects.setConn_setConn] at stored
      exact .inr ⟨auth, rfl, stored⟩

theorem authenticationRsp_cases {proto : Proto} {msg : IMString} (reads : Reads sys objects)
    (done : sys.authenticationRsp proto heap addr msg = some next) :
    (∀ sid nid, proto.parseAuthenticationRsp (payload msg) = some (sid, nid) →
        sys.findNode sid nid = none) ∧ next = sys ∨
      ∃ sid nid node owned, proto.parseAuthenticationRsp (payload msg) = some (sid, nid) ∧
        sys.findNode sid nid = some node ∧ objects.nodes node.addr = some node ∧
        objects.conns addr = some owned ∧
        Reads next ((objects.setNode node.addr (some (node.setState .NODE_ABLE))).setConn addr
          (some (inState .STATE_CONNECTED owned))) := by
  unfold Sys.authenticationRsp at done
  cases parsed : proto.parseAuthenticationRsp (payload msg) with
  | none =>
    simp only [parsed, Option.some.injEq] at done
    exact .inl ⟨fun _ _ none => (nomatch none), done.symm⟩
  | some both =>
    obtain ⟨sid, nid⟩ := both
    simp only [parsed] at done
    cases found : sys.findNode sid nid with
    | none =>
      simp only [found, Option.some.injEq] at done
      refine .inl ⟨?_, done.symm⟩
      rintro _ _ ⟨⟩
      exact found
    | some node =>
      simp only [found] at done
      obtain ⟨conn, pointed⟩ := setState_deref done
      obtain ⟨owned, here, -⟩ := reads.conn_of_deref pointed
      have there := reads.node_of_find found
      have able := assignNode_reads reads there (f := (·.setState .NODE_ABLE)) fun _ => rfl
      have connected := setState_calm able here (by decide) done
      exact .inr ⟨sid, nid, node, owned, rfl, found, there, here, connected⟩

end Steps

end SNFrame.System.Simulation
