import SNFrame.System.Supervision

/-! Pending output and the write event. Every step but two arms what it leaves to be sent; the
two are the transitions into STATE_CONNECTED that send nothing. -/

namespace SNFrame.System.Arming
open Library.Octet Library.Transition Library.Table Base.PbBuf Core.Receiving Core.Sending
open Core.NetManager Core.NodeMgr Ownership Tables Turns Simulation Supervision

/-- Every connection in STATE_CONNECTED with something to send has AE_WRITABLE in `evs`. -/
def PendingArmed (net : Net) : Prop :=
  ∀ conn ∈ net.conns, conn.state = .STATE_CONNECTED → net.emptyConn conn = some false →
    conn.evs &&& AE_WRITABLE ≠ 0

/-- The connection has nothing to send, or its write event. -/
def Ready (net : Net) (conn : Connection) : Prop :=
  net.emptyConn conn = some true ∨ conn.evs &&& AE_WRITABLE ≠ 0

/-- A response that makes a node able, or a request whose response cannot be allocated, comes
on a connection that has nothing to send or its write event. -/
def ReadyWhenConnected (proto : Proto) (sys : Sys) : Action → Prop
  | .authenticationRsp addr msg _ => ∀ sid nid,
      proto.parseAuthenticationRsp (payload msg) = some (sid, nid) →
      (sys.findNode sid nid).isSome →
      ∀ conn, sys.net.deref addr = some conn → Ready sys.net conn
  | .authenticationReq addr msg heap => ∀ sid nid,
      proto.parseAuthenticationReq (payload msg) = some (sid, nid) →
      buildMsg heap proto.SID_OTHER proto.CID_OTHER_AUTHENTICATION_RSP
        (proto.authenticationRsp sid nid) = none →
      ∀ conn, sys.net.deref addr = some conn → Ready sys.net conn
  | _ => True

section Steps
variable {sys next : Sys} {objects : Objects} {proto : Proto}

theorem pendingArmed_iff (reads : Reads sys objects) :
    PendingArmed sys.net ↔ Everywhere Armed objects.conns := by
  constructor
  · intro pending addr owned here state something
    have nonempty := reads.net.emptyConn here
    rw [something] at nonempty
    exact pending owned.conn (reads.net.mem here).1 state nonempty
  · intro armed conn inside state nonempty
    obtain ⟨queue, here⟩ := reads.net.exists_of_mem inside
    have something := reads.net.emptyConn here
    rw [nonempty, Option.some.injEq] at something
    exact armed conn.addr ⟨conn, queue⟩ here state something.symm

/-- A connection that is taken into STATE_CONNECTED as it is was ready for that. -/
theorem armed_iff_ready (after : Owned) {before : Owned} {addr : Nat} (reads : Reads sys objects)
    (here : objects.conns addr = some before) (connected : after.conn.state = .STATE_CONNECTED)
    (queue : after.queue = before.queue) (send : after.conn.send = before.conn.send)
    (evs : after.conn.evs = before.conn.evs) :
    Armed after ↔ ∀ conn, sys.net.deref addr = some conn → Ready sys.net conn := by
  simp only [reads.net.deref here, Option.some.injEq, forall_eq', Ready, reads.net.emptyConn here,
    ← queue, ← send, ← evs]
  constructor
  · intro armed
    cases nothing : empty after.queue after.conn.send with
    | true => exact .inl rfl
    | false => exact .inr (armed connected nothing)
  · rintro (nothing | armed)
    · exact armed_of_empty nothing
    · exact fun _ _ => armed

theorem step_pendingArmed_iff (reads : Reads sys objects) (linked : Linked objects)
    (pending : PendingArmed sys.net) {action : Action}
    (stepped : step proto sys action = some next) :
    PendingArmed next.net ↔ ReadyWhenConnected proto sys action := by
  have armed := (pendingArmed_iff reads).mp pending
  by_cases calm : Authenticates action
  · cases action <;> try exact absurd calm id
    case authenticationReq addr msg heap =>
      rcases authenticationReq_cases reads stepped with
        ⟨unparsed, rfl⟩ | ⟨sid, nid, owned, parsed, here, ⟨unbuilt, after⟩ | ⟨auth, built, after⟩⟩
      · simp only [ReadyWhenConnected, unparsed, pending, reduceCtorEq, false_implies, implies_true]
      · rw [pendingArmed_iff after, Objects.setConn_conns, everywhere_update_iff armed,
          armed_iff_ready (enrolled sid nid .STATE_CONNECTED owned) reads here rfl rfl rfl rfl]
        constructor
        · intro ready _ _ _ _
          exact ready
        · intro condition
          exact condition sid nid parsed unbuilt
      · apply iff_of_true
        · rw [pendingArmed_iff after, Objects.setConn_conns, everywhere_update_iff armed]
          exact armed_sent (by decide) auth
        · intro other node same unbuilt
          cases parsed.symm.trans same
          rw [built] at unbuilt
          cases unbuilt
    case authenticationRsp addr msg heap =>
      rcases authenticationRsp_cases reads stepped with
        ⟨unknown, rfl⟩ | ⟨sid, nid, node, owned, parsed, found, -, here, after⟩
      · apply iff_of_true pending
        intro sid nid parsed known
        rw [unknown sid nid parsed] at known
        cases known
      · rw [pendingArmed_iff after, Objects.setConn_conns, Objects.setNode_conns,
          everywhere_update_iff armed,
          armed_iff_ready (inState .STATE_CONNECTED owned) reads here rfl rfl rfl rfl]
        constructor
        · intro ready _ _ _ _
          exact ready
        · intro condition
          exact condition sid nid parsed (by rw [found]; rfl)
  · obtain ⟨after, afterReads, moves⟩ := step_simulated reads linked calm stepped
    have still := (pendingArmed_iff afterReads).mpr (armed_moves armed moves)
    cases action <;> first | exact iff_of_true still trivial | exact absurd trivial calm

theorem start_pendingArmed (types : List (BitVec 16)) : PendingArmed (start types).net :=
  fun _ inside => nomatch inside

end Steps

/-- The exact condition for pending output to be armed in every state of a run. -/
theorem pending_armed_iff_ready (proto : Proto) (types : List (BitVec 16)) (actions : List Action)
    (sys : Sys) (reached : run (step proto) (start types) actions = some sys) :
    Always (step proto) (fun sys => PendingArmed sys.net) (start types) actions ↔
      Throughout (step proto) (ReadyWhenConnected proto) (start types) actions := by
  have preserved : ∀ before action after, Consistent before → True →
      step proto before action = some after → Consistent after :=
    fun _ _ _ consistent _ stepped => step_consistent consistent stepped
  have exact_step : ∀ before action after, Consistent before → PendingArmed before.net → True →
      step proto before action = some after →
      (PendingArmed after.net ↔ ReadyWhenConnected proto before action) := by
    rintro before action after ⟨objects, reads, linked⟩ pending - stepped
    exact step_pendingArmed_iff reads linked pending stepped
  exact always_iff_throughout Consistent _ (fun _ _ => True) _ preserved exact_step
    (start_consistent types) (start_pendingArmed types)
    (throughout_of_mem _ _ fun _ _ _ => trivial) reached

instance (net : Net) : Decidable (PendingArmed net) :=
  inferInstanceAs (Decidable (∀ conn ∈ net.conns, conn.state = .STATE_CONNECTED →
    net.emptyConn conn = some false → conn.evs &&& AE_WRITABLE ≠ 0))

def parseIds : List Byte → Option (BitVec 16 × BitVec 32)
  | [8, type, 16, nid] => some (type.setWidth 16, nid.setWidth 32)
  | _ => none

/-- The text `127.0.0.1`. -/
def localhost : List Byte := [0x31, 0x32, 0x37, 0x2e, 0x30, 0x2e, 0x30, 0x2e, 0x31]

/-- Messages whose numbers are below 128, so that each is one byte. -/
def smallMessages : Proto where
  SID_ROUTER := 1
  SID_OTHER := 2
  SID_DB_PROXY := 3
  SID_USER_STATE := 4
  CID_OTHER_AUTHENTICATION_REQ := 1
  CID_OTHER_AUTHENTICATION_RSP := 2
  CID_ROUTER_CLIENT_REGISTER_REQ := 1
  parseAuthenticationReq := parseIds
  parseAuthenticationRsp := parseIds
  parseStatusPush
    | [8, enabled, 16, nid, 24, type] =>
        some [⟨enabled ≠ 0, nid.setWidth 32, localhost, 9000, [type.setWidth 16]⟩]
    | _ => none
  authenticationReq sid nid := ⟨[8, sid.setWidth 8, 16, nid.setWidth 8], true, by simp⟩
  authenticationRsp sid nid := ⟨[8, sid.setWidth 8, 16, nid.setWidth 8], true, by simp⟩
  registerServerReq := ⟨[8, 1], true, by simp⟩

/-- A message with that body. -/
def withBody (body : List Byte) : IMString :=
  ⟨some (List.replicate HEAD_LEN 0 ++ body), HEAD_LEN + body.length, HEAD_LEN + body.length⟩

/-- Surroundings in which memory is there and the next connect returns this descriptor. -/
def freshFd (fd : Int) : Visit := ⟨fun _ => fd, ⟨true, fun _ => 0⟩, true, localhost⟩

/-- A database server is announced, `sendSock` queues a message before the server has answered,
and the answer comes. -/
def sentBeforeAnswer : List Action :=
  [.srvinfoBroadcast (withBody [8, 1, 16, 7, 24, 3]) fun _ => freshFd 5,
    .sendSock (withBody [1, 2]) 5,
    .authenticationRsp 0 (withBody [8, 3, 16, 7]) ⟨true, fun _ => 0⟩]

/-- The message stays in the queue without the write event. -/
theorem unarmed_after_answer : ∃ sys,
    run (step smallMessages) (start [3]) sentBeforeAnswer = some sys ∧ ¬PendingArmed sys.net := by
  have ends : (run (step smallMessages) (start [3]) sentBeforeAnswer).map
      (fun sys => decide (PendingArmed sys.net)) = some false := by decide +kernel
  obtain ⟨sys, reached, pending⟩ := Option.map_eq_some_iff.mp ends
  exact ⟨sys, reached, of_decide_eq_false pending⟩

theorem pending_armed_iff_ready_answer : ∃ sys,
    run (step smallMessages) (start [3]) sentBeforeAnswer = some sys ∧
      (Always (step smallMessages) (fun sys => PendingArmed sys.net) (start [3]) sentBeforeAnswer ↔
        Throughout (step smallMessages) (ReadyWhenConnected smallMessages) (start [3])
          sentBeforeAnswer) := by
  have returns : (run (step smallMessages) (start [3]) sentBeforeAnswer).isSome := by
    decide +kernel
  obtain ⟨sys, reached⟩ := Option.isSome_iff_exists.mp returns
  exact ⟨sys, reached,
    pending_armed_iff_ready smallMessages [3] sentBeforeAnswer sys reached⟩

end SNFrame.System.Arming
