import SNFrame.Library.Transition
import SNFrame.System.Simulation

/-! The write callback against the senders. `TcpServer::write` drains the queue, tests whether it
is empty and removes the write event in three steps, and the send functions take their step
between any two of these. -/

namespace SNFrame.System.Wakeup
open Library.Octet Library.Transition Base.PbBuf Core.Receiving Core.Sending Core.TcpParse
open Core.NetManager Ownership Tables Simulation

/-- Where the event thread is in `TcpServer::write` for the connection. -/
inductive Place where
  | outside
  | drained
  | foundEmpty
  deriving DecidableEq

structure Machine where
  net : Net
  thread : Place

inductive Event where
  | sendSock (msg : IMString) (fd : Int)
  | sendNode (msg : IMString) (nid : BitVec 32)
  | sendDb (msg : IMString)
  | sendState (msg : IMString)
  | drain (outcomes : List SendResult)
  | test
  | delete

def Machine.sent (machine : Machine) (sent : Option (Int × Net)) : Option Machine :=
  sent.map fun both => { machine with net := both.2 }

/-- A step of a sender, or of the event thread on the connection behind the pointer. A write that
fails takes the connection out of STATE_CONNECTED and is no step here. -/
def step (sids : ServiceID) (addr : Nat) (machine : Machine) : Event → Option Machine
  | .sendSock msg fd => machine.sent (machine.net.sendSock msg fd)
  | .sendNode msg nid => machine.sent (machine.net.sendNode msg nid)
  | .sendDb msg => machine.sent (machine.net.sendDb sids msg)
  | .sendState msg => machine.sent (machine.net.sendState sids msg)
  | .drain outcomes =>
      match machine.thread, machine.net.writeConn addr outcomes with
      | .outside, some (net, some .finish, _) => some ⟨net, .drained⟩
      | .outside, some (net, some .again, _) => some ⟨net, .drained⟩
      | _, _ => none
  | .test =>
      match machine.thread, (machine.net.deref addr).bind machine.net.emptyConn with
      | .drained, some true => some ⟨machine.net, .foundEmpty⟩
      | .drained, some false => some ⟨machine.net, .outside⟩
      | _, _ => none
  | .delete =>
      match machine.thread, machine.net.deref addr with
      | .foundEmpty, some conn =>
          some ⟨machine.net.delFileEvent conn.fd AE_WRITABLE, .outside⟩
      | _, _ => none

/-- The write event is in `evs` and with libevent. -/
def Registered (conn : Connection) : Prop := conn.evs &&& AE_WRITABLE ≠ 0 ∧ conn.wevent = true

/-- Outside `TcpServer::write`, a connection with unsent data has AE_WRITABLE registered. -/
def Awake (addr : Nat) (machine : Machine) : Prop :=
  machine.thread = .outside → ∀ conn, machine.net.deref addr = some conn →
    machine.net.emptyConn conn = some false → Registered conn

/-- The write event is removed only while the connection is still empty. -/
def DeletesWhenEmpty (addr : Nat) (machine : Machine) : Event → Prop
  | .delete => ∀ conn, machine.net.deref addr = some conn →
      machine.net.emptyConn conn = some true
  | _ => True

/-! ### One connection -/

/-- What the steps do to the connection, and to the place of the event thread. -/
inductive Acts : Event → Place → Owned → Place → Owned → Prop
  | elsewhere {event : Event} (sends : event ≠ .delete) (place : Place) (owned : Owned) :
      Acts event place owned place owned
  | sent {event : Event} (sends : event ≠ .delete) (place : Place) (owned : Owned)
      {arms : ConnState → Bool} (connected : arms .STATE_CONNECTED = true) (msg : IMString) :
      Acts event place owned place (owned.sent arms msg)
  | drained (outcomes : List SendResult) (owned : Owned) :
      Acts (.drain outcomes) .outside owned .drained (owned.written outcomes)
  | foundEmpty (owned : Owned) : Acts .test .drained owned .foundEmpty owned
  | foundMore (owned : Owned) : Acts .test .drained owned .outside owned
  | deleted (owned : Owned) :
      Acts .delete .foundEmpty owned .outside ⟨withoutEvent AE_WRITABLE owned.conn, owned.queue⟩

/-- The connection table shows this connection behind the pointer. -/
def Serves (addr : Nat) (owned : Owned) (machine : Machine) : Prop :=
  ∃ table, Shows (fun _ => True) machine.net table ∧ table addr = some owned

section Steps
variable {sids : ServiceID} {addr : Nat} {machine next : Machine} {owned : Owned}

theorem send_acts (serves : Serves addr owned machine) {event : Event} (sends : event ≠ .delete)
    {isTarget : Connection → Bool} {arms : ConnState → Bool}
    (connected : arms .STATE_CONNECTED = true) {msg : IMString}
    (done : machine.sent (machine.net.sendFirst isTarget arms msg) = some next) :
    ∃ after, Serves addr after next ∧ Acts event machine.thread owned next.thread after := by
  obtain ⟨table, shown, here⟩ := serves
  obtain ⟨⟨code, net⟩, sent, rfl⟩ := Option.map_eq_some_iff.mp done
  rcases sendFirst_cases shown isTarget arms msg with
    same | ⟨place, target, after, there, -, given, stored⟩
  · cases sent.symm.trans same
    exact ⟨owned, ⟨table, shown, here⟩, .elsewhere sends ..⟩
  · cases sent.symm.trans given
    by_cases target_here : addr = place
    · subst target_here
      cases here.symm.trans there
      exact ⟨_, ⟨_, stored, Function.update_self ..⟩, .sent sends _ _ connected msg⟩
    · have kept := Function.update_of_ne target_here (some (target.sent arms msg)) table
      exact ⟨owned, ⟨_, stored, kept.trans here⟩, .elsewhere sends ..⟩

theorem step_acts (serves : Serves addr owned machine) {event : Event}
    (stepped : step sids addr machine event = some next) :
    ∃ after, Serves addr after next ∧ Acts event machine.thread owned next.thread after := by
  cases event with
  | sendSock msg fd => exact send_acts serves (nomatch ·) (by decide) stepped
  | sendNode msg nid => exact send_acts serves (nomatch ·) (by decide) stepped
  | sendDb msg => exact send_acts serves (nomatch ·) (by decide) stepped
  | sendState msg => exact send_acts serves (nomatch ·) (by decide) stepped
  | drain outcomes =>
    obtain ⟨table, shown, here⟩ := serves
    obtain ⟨net, wrote, stored⟩ := writeConn_shows shown here outcomes
    simp only [step, wrote] at stepped
    have left : Serves addr (owned.written outcomes) ⟨net, .drained⟩ :=
      ⟨_, stored, Function.update_self ..⟩
    split at stepped
    · next outside result =>
      obtain ⟨rfl, -⟩ := Prod.mk.inj (Option.some.inj result)
      cases stepped
      rw [outside]
      exact ⟨_, left, .drained outcomes owned⟩
    · next outside result =>
      obtain ⟨rfl, -⟩ := Prod.mk.inj (Option.some.inj result)
      cases stepped
      rw [outside]
      exact ⟨_, left, .drained outcomes owned⟩
    · cases stepped
  | test =>
    have kept := serves
    obtain ⟨table, shown, here⟩ := serves
    simp only [step, shown.deref here, Option.bind_some, shown.emptyConn here] at stepped
    split at stepped
    · next drained nothing =>
      cases stepped
      rw [drained]
      exact ⟨owned, kept, .foundEmpty owned⟩
    · next drained something =>
      cases stepped
      rw [drained]
      exact ⟨owned, kept, .foundMore owned⟩
    · cases stepped
  | delete =>
    obtain ⟨table, shown, here⟩ := serves
    simp only [step, shown.deref here] at stepped
    split at stepped
    · next conn tested same =>
      cases same
      cases stepped
      rw [tested]
      exact ⟨_, ⟨_, delFileEvent_shows shown here AE_WRITABLE, Function.update_self ..⟩,
        .deleted owned⟩
    · cases stepped

/-! ### The write event of the connection -/

/-- The connection is in STATE_CONNECTED, and the event in `evs` is with libevent. -/
structure Serving (owned : Owned) : Prop where
  connected : owned.conn.state = .STATE_CONNECTED
  agrees : owned.conn.evs &&& AE_WRITABLE ≠ 0 → owned.conn.wevent = true

/-- Unsent data has the write event. -/
def Wakes (owned : Owned) : Prop :=
  empty owned.queue owned.conn.send = false → Registered owned.conn

theorem withEvent_wevent {conn : Connection}
    (agrees : conn.evs &&& AE_WRITABLE ≠ 0 → conn.wevent = true) :
    (withEvent AE_WRITABLE conn).wevent = true := by
  simp only [withEvent]
  split_ifs with armed
  · exact agrees armed
  · rfl

theorem registered_withEvent (serving : Serving owned) :
    Registered (withEvent AE_WRITABLE owned.conn) :=
  ⟨withEvent_writable owned.conn, withEvent_wevent serving.agrees⟩

theorem sent_conn (serving : Serving owned) {arms : ConnState → Bool}
    (connected : arms .STATE_CONNECTED = true) (msg : IMString) :
    (owned.sent arms msg).conn = withEvent AE_WRITABLE owned.conn := by
  simp only [Owned.sent, serving.connected, connected, if_true]

theorem withoutEvent_unregistered (conn : Connection) :
    (withoutEvent AE_WRITABLE conn).evs &&& AE_WRITABLE = 0 := by
  simp only [withoutEvent]
  split_ifs with armed
  · change conn.evs &&& ~~~AE_WRITABLE &&& AE_WRITABLE = 0
    rw [BitVec.and_assoc]
    simp
  · simpa using armed

variable {event : Event} {place later : Place} {after : Owned}

theorem acts_serving (serving : Serving owned) (acts : Acts event place owned later after) :
    Serving after := by
  cases acts with
  | elsewhere => exact serving
  | sent _ _ _ connected msg =>
    constructor <;> rw [sent_conn serving connected msg]
    · rw [withEvent_state, serving.connected]
    · exact fun _ => withEvent_wevent serving.agrees
  | drained outcomes => exact ⟨serving.connected, serving.agrees⟩
  | foundEmpty => exact serving
  | foundMore => exact serving
  | deleted =>
    constructor
    · rw [withoutEvent_state, serving.connected]
    · exact fun armed => absurd (withoutEvent_unregistered owned.conn) armed

theorem wakes_written (wakes : Wakes owned) (outcomes : List SendResult) :
    Wakes (owned.written outcomes) :=
  fun something => wakes (nonempty_of_written something)

/-- Until the thread has found the queue empty, unsent data keeps its write event. -/
theorem acts_wakes (serving : Serving owned) (wakes : place ≠ .foundEmpty → Wakes owned)
    (acts : Acts event place owned later after) (kept : event ≠ .delete) :
    later ≠ .foundEmpty → Wakes after := by
  intro there
  cases acts with
  | elsewhere => exact wakes there
  | sent _ _ _ connected msg =>
    intro _
    rw [sent_conn serving connected msg]
    exact registered_withEvent serving
  | drained outcomes => exact wakes_written (wakes (nomatch ·)) outcomes
  | foundEmpty => exact absurd rfl there
  | foundMore => exact wakes (nomatch ·)
  | deleted => exact absurd rfl kept

theorem acts_delete (acts : Acts .delete place owned later after) :
    later = .outside ∧ after = ⟨withoutEvent AE_WRITABLE owned.conn, owned.queue⟩ := by
  cases acts with
  | elsewhere sends => exact absurd rfl sends
  | sent sends => exact absurd rfl sends
  | deleted => exact ⟨rfl, rfl⟩

theorem wakes_deleted_iff : Wakes ⟨withoutEvent AE_WRITABLE owned.conn, owned.queue⟩ ↔
    empty owned.queue owned.conn.send = true := by
  simp only [Wakes, withoutEvent_send]
  constructor
  · intro wakes
    cases nothing : empty owned.queue owned.conn.send with
    | true => rfl
    | false => exact absurd (withoutEvent_unregistered owned.conn) (wakes nothing).1
  · intro nothing something
    rw [nothing] at something
    cases something

/-! ### Runs -/

/-- A connection that stays in STATE_CONNECTED is behind the pointer. -/
def Stays (addr : Nat) (machine : Machine) : Prop :=
  ∃ owned, Serves addr owned machine ∧ Serving owned

/-- The event thread has found the queue empty, or unsent data has its write event. -/
def Guarded (addr : Nat) (machine : Machine) : Prop :=
  machine.thread ≠ .foundEmpty → ∀ owned, Serves addr owned machine → Wakes owned

/-- A pointer that is followed is to the one connection. -/
theorem forall_conn_iff (serves : Serves addr owned machine) {law : Connection → Prop} :
    (∀ conn, machine.net.deref addr = some conn → law conn) ↔ law owned.conn := by
  obtain ⟨table, shown, here⟩ := serves
  simp only [shown.deref here, Option.some.injEq, forall_eq']

theorem Serves.emptyConn (serves : Serves addr owned machine) :
    machine.net.emptyConn owned.conn = some (empty owned.queue owned.conn.send) := by
  obtain ⟨table, shown, here⟩ := serves
  exact shown.emptyConn here

theorem Serves.unique {other : Owned} (serves : Serves addr owned machine)
    (serves' : Serves addr other machine) : owned = other := by
  obtain ⟨table, shown, here⟩ := serves
  obtain ⟨second, shown', there⟩ := serves'
  rw [← shown.reads] at here
  rw [← shown'.reads, here] at there
  exact Option.some.inj there

theorem awake_iff (serves : Serves addr owned machine) :
    Awake addr machine ↔ (machine.thread = .outside → Wakes owned) := by
  simp only [Awake, forall_conn_iff serves, serves.emptyConn, Option.some.injEq, Wakes]

theorem guarded_iff (serves : Serves addr owned machine) :
    Guarded addr machine ↔ (machine.thread ≠ .foundEmpty → Wakes owned) := by
  constructor
  · intro guarded inside
    exact guarded inside owned serves
  · intro guarded inside other serves'
    rw [← serves.unique serves']
    exact guarded inside

theorem step_stays (stays : Stays addr machine)
    (stepped : step sids addr machine event = some next) : Stays addr next := by
  obtain ⟨owned, serves, serving⟩ := stays
  obtain ⟨after, serves', acts⟩ := step_acts serves stepped
  exact ⟨after, serves', acts_serving serving acts⟩

/-- One step loses no wakeup unless it removes the event of a connection that is not empty. -/
theorem step_awake (stays : Stays addr machine) (guarded : Guarded addr machine)
    (stepped : step sids addr machine event = some next) :
    (Awake addr next ↔ DeletesWhenEmpty addr machine event) ∧
      (Awake addr next → Guarded addr next) := by
  obtain ⟨owned, serves, serving⟩ := stays
  obtain ⟨after, serves', acts⟩ := step_acts serves stepped
  rw [awake_iff serves', guarded_iff serves']
  by_cases deletes : event = .delete
  · subst deletes
    obtain ⟨outside, rfl⟩ := acts_delete acts
    rw [outside, wakes_deleted_iff, DeletesWhenEmpty, forall_conn_iff serves, serves.emptyConn]
    constructor
    · simp
    · intro awake _
      exact awake rfl
  · have wakes := acts_wakes serving ((guarded_iff serves).mp guarded) acts deletes
    refine ⟨iff_of_true ?_ ?_, fun _ => wakes⟩
    · intro outside
      apply wakes
      rw [outside]
      decide
    · cases event <;> trivial

end Steps

/-- No wakeup is lost, in any interleaving, if and only if each removal of the write event still
finds the connection empty. -/
theorem awake_iff_deletes_when_empty (sids : ServiceID) (addr : Nat) (net : Net) (wf : Wf net)
    (conn : Connection) (pointed : net.deref addr = some conn)
    (connected : conn.state = .STATE_CONNECTED)
    (agrees : conn.evs &&& AE_WRITABLE ≠ 0 → conn.wevent = true)
    (begins : Awake addr ⟨net, .outside⟩) (events : List Event) (last : Machine)
    (reached : run (step sids addr) ⟨net, .outside⟩ events = some last) :
    Always (step sids addr) (Awake addr) ⟨net, .outside⟩ events ↔
      Throughout (step sids addr) (DeletesWhenEmpty addr) ⟨net, .outside⟩ events := by
  obtain ⟨queue, here⟩ := wf.shows.exists_of_deref pointed
  have serves : Serves addr ⟨conn, queue⟩ ⟨net, .outside⟩ := ⟨_, wf.shows, here⟩
  have stays : Stays addr ⟨net, .outside⟩ := ⟨_, serves, connected, agrees⟩
  have guarded : Guarded addr ⟨net, .outside⟩ :=
    (guarded_iff serves).mpr fun _ => (awake_iff serves).mp begins rfl
  have preserved : ∀ machine event next, Stays addr machine → True →
      step sids addr machine event = some next → Stays addr next :=
    fun _ _ _ stays _ stepped => step_stays stays stepped
  have regained : ∀ machine event next, Stays addr machine → Guarded addr machine → True →
      step sids addr machine event = some next → Awake addr next → Guarded addr next :=
    fun _ _ _ stays guarded _ stepped => (step_awake stays guarded stepped).2
  have exact_step : ∀ machine event next, Stays addr machine → Guarded addr machine → True →
      step sids addr machine event = some next →
      (Awake addr next ↔ DeletesWhenEmpty addr machine event) :=
    fun _ _ _ stays guarded _ stepped => (step_awake stays guarded stepped).1
  exact always_iff_throughout_of_held (Stays addr) (Guarded addr) _ (fun _ _ => True) _ preserved
    regained exact_step stays guarded (throughout_of_mem _ _ fun _ _ _ => trivial) reached

/-- A client connection in STATE_CONNECTED with nothing to send. -/
def connectedClient : Connection :=
  { Connection.fresh 0 0 5 with
    flag := .conn_client, revent := true, evs := AE_READABLE, state := .STATE_CONNECTED }

def oneConnection : Net where
  conns := [connectedClient]
  queues := Function.update (fun _ => none) 0 (some [])
  next := 1

theorem oneConnection_wf : Wf oneConnection := by
  constructor <;> simp [oneConnection, connectedClient, Connection.fresh]

theorem oneConnection_awake : Awake 0 ⟨oneConnection, .outside⟩ := by
  intro _ conn pointed something
  have nothing : (oneConnection.deref 0).bind oneConnection.emptyConn = some true := by decide
  rw [pointed, Option.bind_some, something] at nothing
  cases nothing

/-- The message that is sent while the thread is between its test and the removal. -/
def sentBeforeDelete : List Event :=
  [.sendSock ⟨some [1, 2], 2, 2⟩ 5, .drain [.sent 2], .test,
    .sendSock ⟨some [3, 4], 2, 2⟩ 5, .delete]

/-- It is left in the queue without the write event. -/
theorem wakeup_lost : ∃ last, Wf oneConnection ∧ Awake 0 ⟨oneConnection, .outside⟩ ∧
    run (step ⟨1, 2, 3, 4⟩ 0) ⟨oneConnection, .outside⟩ sentBeforeDelete = some last ∧
      ¬Awake 0 last := by
  have ends : (do
      let last ← run (step ⟨1, 2, 3, 4⟩ 0) ⟨oneConnection, .outside⟩ sentBeforeDelete
      let conn ← last.net.deref 0
      some (decide (last.thread = .outside ∧ last.net.emptyConn conn = some false ∧
        conn.wevent = false))) = some true := by decide +kernel
  simp only [Option.bind_eq_bind, Option.bind_eq_some_iff, Option.some.injEq,
    decide_eq_true_eq] at ends
  obtain ⟨last, reached, conn, pointed, outside, something, unregistered⟩ := ends
  refine ⟨last, oneConnection_wf, oneConnection_awake, reached, ?_⟩
  intro awake
  have registered := (awake outside conn pointed something).2
  rw [unregistered] at registered
  cases registered

theorem awake_iff_deletes_when_empty_one_connection : ∃ last,
    run (step ⟨1, 2, 3, 4⟩ 0) ⟨oneConnection, .outside⟩ sentBeforeDelete = some last ∧
      (Always (step ⟨1, 2, 3, 4⟩ 0) (Awake 0) ⟨oneConnection, .outside⟩ sentBeforeDelete ↔
        Throughout (step ⟨1, 2, 3, 4⟩ 0) (DeletesWhenEmpty 0) ⟨oneConnection, .outside⟩
          sentBeforeDelete) := by
  have returns : (run (step ⟨1, 2, 3, 4⟩ 0) ⟨oneConnection, .outside⟩ sentBeforeDelete).isSome := by
    decide +kernel
  obtain ⟨last, reached⟩ := Option.isSome_iff_exists.mp returns
  exact ⟨last, reached, awake_iff_deletes_when_empty ⟨1, 2, 3, 4⟩ 0 oneConnection oneConnection_wf
    connectedClient rfl rfl (by decide) oneConnection_awake sentBeforeDelete last reached⟩

end SNFrame.System.Wakeup
