import SNFrame.System.Registration

/-! Where the event thread stands in a callback, and what it relies on there. What the senders
do leaves all of it. -/

namespace SNFrame.System.Positions
open Library.Octet Library.Table Base.PbBuf Core.Receiving Core.Sending
open Core.TcpParse Core.NetManager Core.NodeMgr Core.EventThread Ownership Tables Turns Sight
open Registration

/-- The connection can receive messages and be confirmed. -/
def Usable (view : View) (addr : Nat) : Prop :=
  ∀ conn, view.conns addr = some conn →
    ¬Broken conn.state ∧ conn.evs &&& AE_ACCEPTABLE = 0 ∧ conn.flag ≠ .unset

/-- A new client connection that no node has as its context yet. -/
structure New (view : View) (addr : Nat) (owner : Option Nat) : Prop where
  unclaimed : ∀ place node, view.nodes place = some node → node.m_context ≠ some addr
  below : addr < view.next
  conn : ∀ conn, view.conns addr = some conn →
    conn.evs &&& AE_ACCEPTABLE = 0 ∧ (conn.cb = none ∨ conn.cb = owner)
  client : ∀ conn, view.conns addr = some conn → conn.flag = .conn_client

/-- The node has no connection. -/
def Vacant (view : View) (place : Nat) : Prop :=
  ∀ node old, view.nodes place = some node → node.m_context = some old → view.conns old = none

/-! What a handler relies on. -/

def failingHolds (view : View) (addr : Nat) : Failing → Prop
  | .setState state => Broken state ∧
      ∀ conn, view.conns addr = some conn → conn.evs &&& AE_ACCEPTABLE = 0
  | .delFileEvent => ∀ conn, view.conns addr = some conn →
      Broken conn.state ∧ conn.evs &&& AE_ACCEPTABLE = 0
  | .closeConnection => ∀ conn, view.conns addr = some conn → Broken conn.state

def reconnectingHolds (view : View) (place addr : Nat) : Reconnecting → Prop
  | .request | .setCache | .setCb | .close => New view addr (some place) ∧
      ∀ node, view.nodes place = some node → Lost node.m_state
  | .setNodeInfo | .setState | .attach => New view addr (some place) ∧ Vacant view place

def registeringHolds (view : View) (addr : Nat) : Registering → Prop
  | .setNodeInfo | .setAddrs | .setState | .addNode => New view addr none
  | .sendSock => True

def announcingHolds (view : View) (addr : Nat) : Announcing → Prop
  | .addNode => New view addr none
  | .setNodeInfo node | .setAddrs node | .setState node | .setCb node | .attach node =>
      New view addr (some node) ∧ Vacant view node ∧ node < view.nextNode
  | .request => True

def handlerHolds (view : View) : Handler → Prop
  | .fail addr next => failingHolds view addr next
  | .authenticationReq addr _ _ .setState | .authenticationRsp addr => Usable view addr
  | .reconnect _ place addr next => reconnectingHolds view place addr next
  | .giveUp _ old => ∀ addr conn, old = some addr → view.conns addr = some conn →
      Broken conn.state
  | .registReq addr next => registeringHolds view addr next
  | .addServer _ _ addr next => announcingHolds view addr next
  | .authenticationReq _ _ _ .sendSock | .write _ _ | .init | .connect _ => True

/-- The connection whose events are about to be removed. -/
def failing : Option Handler → Option Nat
  | some (.fail addr .delFileEvent) => some addr
  | _ => none

/-- The new connection that may have a callback before it is the context of the node. -/
def raw : Option Handler → Option Nat
  | some (.reconnect _ _ addr _) => some addr
  | some (.addServer _ _ _ .request) => none
  | some (.addServer _ _ addr _) => some addr
  | _ => none

/-- The event of a new connection that is about to be added. -/
inductive Adds (view : View) (fd : Int) : BitVec 16 → Option Handler → List Loop → Prop where
  | reads {handler : Option Handler} {loops : List Loop}
      (calm : ∀ addr conn, view.conns addr = some conn → conn.fd = fd →
        ¬Broken conn.state ∧ conn.evs &&& AE_ACCEPTABLE = 0 ∧ conn.flag ≠ .unset) :
      Adds view fd AE_READABLE handler loops
  | accepts (fresh : ∀ addr conn, view.conns addr = some conn → conn.fd = fd →
        conn.state = .STATE_NONE ∧ conn.evs &&& AE_READABLE = 0 ∧ conn.flag = .unset) :
      Adds view fd AE_ACCEPTABLE none []

/-- The tables and the position of the event thread. -/
structure Stands (view : View) (call : Option Call) (handler : Option Handler)
    (loops : List Loop) : Prop where
  sane : Sane view (failing handler) (raw handler)
  adds : ∀ fd mask, call = some (.addFileEvent fd mask) → Adds view fd mask handler loops
  ready : ∀ next, handler = some next → handlerHolds view next
  usable : ∀ addr, .parse addr ∈ loops → Usable view addr
  alone : ∀ addr next, handler = some (.fail addr next) → ∀ other, .parse other ∉ loops

/-- A connection goes out of the table only when neither of its events is registered, its pointer
stays used, and its flag is the one that it was made with. -/
structure Released (before after : View) : Prop where
  used : before.next ≤ after.next
  flags : ∀ addr conn, addr < before.next → after.conns addr = some conn →
    ∃ old, before.conns addr = some old ∧ conn.flag = old.flag
  unregistered : ∀ addr conn, before.conns addr = some conn → after.conns addr = none →
    Unregistered conn

/-- What a call leaves. -/
def Onward (view : View) (sys : Sys) (call : Option Call) (handler : Option Handler)
    (loops : List Loop) : Prop :=
  ∃ after, Sees sys after ∧ Stands after call handler loops ∧ Released view after

section Descent
variable {view : View} {conns : Nat → Option Connection} {addr place : Nat}

theorem Usable.descends (usable : Usable view addr) (descends : Descends view.conns conns) :
    Usable { view with conns := conns } addr := by
  intro conn there
  obtain ⟨old, here, follows⟩ := descends addr conn there
  rw [follows.state, follows.acceptable, follows.flag]
  exact usable old here

theorem New.descends {owner : Option Nat} (new : New view addr owner)
    (descends : Descends view.conns conns) : New { view with conns := conns } addr owner where
  unclaimed := new.unclaimed
  below := new.below
  conn := by
    intro conn there
    obtain ⟨old, here, follows⟩ := descends addr conn there
    rw [follows.cb, follows.acceptable]
    exact new.conn old here
  client := by
    intro conn there
    obtain ⟨old, here, follows⟩ := descends addr conn there
    rw [follows.flag]
    exact new.client old here

theorem Vacant.descends (vacant : Vacant view place) (descends : Descends view.conns conns) :
    Vacant { view with conns := conns } place := by
  intro node old found context
  change conns old = none
  cases there : conns old with
  | none => rfl
  | some conn =>
    obtain ⟨before, here, -⟩ := descends old conn there
    rw [vacant node old found context] at here
    cases here

theorem handlerHolds_descends {handler : Handler} (holds : handlerHolds view handler)
    (descends : Descends view.conns conns) :
    handlerHolds { view with conns := conns } handler := by
  cases handler with
  | fail addr next =>
    cases next with
    | setState state =>
      refine ⟨holds.1, fun conn there => ?_⟩
      obtain ⟨old, here, follows⟩ := descends addr conn there
      rw [follows.acceptable]
      exact holds.2 old here
    | delFileEvent =>
      intro conn there
      obtain ⟨old, here, follows⟩ := descends addr conn there
      rw [follows.acceptable, follows.state]
      exact holds old here
    | closeConnection =>
      intro conn there
      obtain ⟨old, here, follows⟩ := descends addr conn there
      rw [follows.state]
      exact holds old here
  | write => trivial
  | authenticationReq addr sid nid next =>
    cases next with
    | setState => exact Usable.descends holds descends
    | sendSock => trivial
  | authenticationRsp addr => exact Usable.descends holds descends
  | reconnect sid place addr next =>
    cases next with
    | request | setCache | setCb | close => exact ⟨holds.1.descends descends, holds.2⟩
    | setNodeInfo | setState | attach =>
      exact ⟨holds.1.descends descends, holds.2.descends descends⟩
  | giveUp sid old =>
    intro addr conn same there
    obtain ⟨before, here, follows⟩ := descends addr conn there
    rw [follows.state]
    exact holds addr before same here
  | init => trivial
  | connect => trivial
  | registReq addr next =>
    cases next with
    | setNodeInfo | setAddrs | setState | addNode => exact New.descends holds descends
    | sendSock => trivial
  | addServer type nid addr next =>
    cases next with
    | addNode => exact New.descends holds descends
    | setNodeInfo node | setAddrs node | setState node | setCb node | attach node =>
      exact ⟨holds.1.descends descends, holds.2.1.descends descends, holds.2.2⟩
    | request => trivial

theorem Adds.descends {fd : Int} {mask : BitVec 16} {handler : Option Handler} {loops : List Loop}
    (adds : Adds view fd mask handler loops) (descends : Descends view.conns conns)
    (unread : Unread view.conns conns) :
    Adds { view with conns := conns } fd mask handler loops := by
  cases adds with
  | reads calm =>
    apply Adds.reads
    intro addr conn there same
    obtain ⟨old, here, follows⟩ := descends addr conn there
    rw [follows.state, follows.acceptable, follows.flag]
    exact calm addr old here (follows.fd.symm.trans same)
  | accepts fresh =>
    apply Adds.accepts
    intro addr conn there same
    obtain ⟨old, here, follows⟩ := descends addr conn there
    obtain ⟨found, lookup, reads⟩ := unread addr conn there
    cases here.symm.trans lookup
    rw [follows.state, reads, follows.flag]
    exact fresh addr old here (follows.fd.symm.trans same)

theorem Stands.descends {call : Option Call} {handler : Option Handler} {loops : List Loop}
    (stands : Stands view call handler loops) (descends : Descends view.conns conns)
    (unread : Unread view.conns conns) :
    Stands { view with conns := conns } call handler loops where
  sane := stands.sane.descends descends
  adds := fun fd mask pending => (stands.adds fd mask pending).descends descends unread
  ready := fun next same => handlerHolds_descends (stands.ready next same) descends
  usable := fun addr inside => (stands.usable addr inside).descends descends
  alone := stands.alone

end Descent

section Released
variable {before after : View} {addr : Nat}

theorem released_of_conns (same : after.conns = before.conns)
    (used : before.next ≤ after.next) : Released before after := by
  refine ⟨used, fun addr conn _ there => ?_, fun addr conn here gone => ?_⟩
  · rw [same] at there
    exact ⟨conn, there, rfl⟩
  · rw [same, here] at gone
    cases gone

theorem eq_none_of_update {conns : Nat → Option Connection} {conn : Connection} {other : Nat}
    (gone : Function.update conns addr (some conn) other = none) : conns other = none := by
  by_cases equal : other = addr
  · rw [equal, Function.update_self] at gone
    cases gone
  · rwa [Function.update_of_ne equal] at gone

theorem released_of_update {conn : Connection}
    (same : after.conns = Function.update before.conns addr (some conn))
    (used : before.next ≤ after.next) (flag : addr < before.next →
      ∃ old, before.conns addr = some old ∧ conn.flag = old.flag) : Released before after := by
  refine ⟨used, fun other new below there => ?_, fun other old here gone => ?_⟩
  · rw [same] at there
    rcases update_eq_some.mp there with ⟨rfl, equal⟩ | ⟨-, was⟩
    · cases equal
      exact flag below
    · exact ⟨new, was, rfl⟩
  · rw [same] at gone
    rw [eq_none_of_update gone] at here
    cases here

/-- A connection that is there is changed. -/
theorem released_update {old conn : Connection} (here : before.conns addr = some old)
    (same : after.conns = Function.update before.conns addr (some conn))
    (used : before.next ≤ after.next) (flag : conn.flag = old.flag) : Released before after :=
  released_of_update same used fun _ => ⟨old, here, flag⟩

theorem released_erase (unregistered : ∀ conn, before.conns addr = some conn → Unregistered conn)
    (same : after.conns = Function.update before.conns addr none)
    (used : before.next ≤ after.next) : Released before after := by
  refine ⟨used, fun other conn _ there => ?_, fun other old here gone => ?_⟩
  · rw [same] at there
    rcases update_eq_some.mp there with ⟨-, equal⟩ | ⟨-, was⟩
    · cases equal
    · exact ⟨conn, was, rfl⟩
  · rw [same] at gone
    by_cases equal : other = addr
    · rw [equal] at here
      exact unregistered old here
    · rw [Function.update_of_ne equal, here] at gone
      cases gone

end Released

section Calls
variable {sys : Sys} {view : View} {loops : List Loop} {handler : Handler} {addr place : Nat}
  {conn : Connection}

/-- A callback goes on with another handler. -/
theorem Stands.next {before : Option Handler} (stands : Stands view none before loops)
    {after : View} (sane : Sane after (failing (some handler)) (raw (some handler)))
    (holds : handlerHolds after handler)
    (usable : ∀ addr, .parse addr ∈ loops → Usable view addr → Usable after addr)
    (alone : ∀ addr next, handler = .fail addr next → ∀ other, .parse other ∉ loops) :
    Stands after none (some handler) loops where
  sane := sane
  adds := nofun
  ready := by
    intro next same
    cases same
    exact holds
  usable := fun addr inside => usable addr inside (stands.usable addr inside)
  alone := fun addr next same => alone addr next (Option.some.inj same)

theorem Stands.done {before : Option Handler} (stands : Stands view none before loops)
    {after : View} (sane : Sane after none none)
    (usable : ∀ addr, .parse addr ∈ loops → Usable view addr → Usable after addr) :
    Stands after none none loops where
  sane := sane
  adds := nofun
  ready := nofun
  usable := fun addr inside => usable addr inside (stands.usable addr inside)
  alone := nofun

theorem Stands.within {rest : List Loop} (stands : Stands view none none loops)
    (within : ∀ addr, .parse addr ∈ rest → .parse addr ∈ loops) : Stands view none none rest where
  sane := stands.sane
  adds := nofun
  ready := nofun
  usable := fun addr inside => stands.usable addr (within addr inside)
  alone := nofun

theorem usable_setConn (calm : ¬Broken conn.state) (plain : conn.evs &&& AE_ACCEPTABLE = 0)
    (set : conn.flag ≠ .unset) {other : Nat} (usable : Usable view other) :
    Usable (view.setConn addr (some conn)) other := by
  intro new there
  rcases update_eq_some.mp there with ⟨-, same⟩ | ⟨-, was⟩
  · cases same
    exact ⟨calm, plain, set⟩
  · exact usable new was

theorem usable_setState (plain : conn.evs &&& AE_ACCEPTABLE = 0) {state : ConnState}
    (calm : ¬Broken state) (set : conn.flag ≠ .unset) {other : Nat} (usable : Usable view other) :
    Usable (view.setConn addr (some { conn with state := state })) other := by
  apply usable_setConn
  · exact calm
  · exact plain
  · exact set
  · exact usable

theorem New.setConn {owner : Option Nat} (new : New view addr owner)
    (plain : conn.evs &&& AE_ACCEPTABLE = 0) (cb : conn.cb = none ∨ conn.cb = owner)
    (client : conn.flag = .conn_client) : New (view.setConn addr (some conn)) addr owner where
  unclaimed := new.unclaimed
  below := new.below
  conn := by
    intro other there
    rcases update_eq_some.mp there with ⟨-, same⟩ | ⟨differs, -⟩
    · cases same
      exact ⟨plain, cb⟩
    · exact absurd rfl differs
  client := by
    intro other there
    rcases update_eq_some.mp there with ⟨-, same⟩ | ⟨differs, -⟩
    · cases same
      exact client
    · exact absurd rfl differs

theorem New.set {owner : Option Nat} (new : New view addr owner)
    (here : view.conns addr = some conn) : conn.flag ≠ .unset := by
  rw [new.client conn here]
  exact nofun

theorem Vacant.setConn (vacant : Vacant view place) (here : view.conns addr = some conn)
    (after : Connection) : Vacant (view.setConn addr (some after)) place := by
  intro node old found context
  have gone := vacant node old found context
  have differs : old ≠ addr := by
    rintro rfl
    cases gone.symm.trans here
  exact (Function.update_of_ne differs ..).trans gone

theorem vacant_of_none {node : Node} (found : view.nodes place = some node)
    (context : node.m_context = none) : Vacant view place := by
  intro other old here attached
  cases found.symm.trans here
  cases context.symm.trans attached

/-- The new connection of a node enters its state. -/
theorem New.enter {owner : Option Nat} (new : New view addr owner)
    (sane : Sane view none (raw (some handler))) (here : view.conns addr = some conn)
    (state : ConnState) (started : state ≠ .STATE_NONE) (calm : ¬Broken state) :
    Sane (view.setConn addr (some { conn with state := state })) none (raw (some handler)) ∧
      New (view.setConn addr (some { conn with state := state })) addr owner ∧
      ∀ other, Usable view other →
        Usable (view.setConn addr (some { conn with state := state })) other := by
  obtain ⟨plain, cb⟩ := new.conn conn here
  refine ⟨?_, new.setConn plain cb (new.client conn here),
    fun _ => usable_setState plain calm (new.set here)⟩
  exact sane.enter here plain started calm fun place node found _ => new.unclaimed place node found

/-- The new connection of a node gets its callback. -/
theorem New.setCb {owner : Option Nat} (new : New view addr owner)
    (sane : Sane view none (some addr)) (here : view.conns addr = some conn) (cb : Option Nat)
    (own : cb = none ∨ cb = owner) (below : ∀ place, cb = some place → place < view.nextNode) :
    Sane (view.setConn addr (some { conn with cb := cb })) none (some addr) ∧
      New (view.setConn addr (some { conn with cb := cb })) addr owner ∧
      ∀ other, Usable view other →
        Usable (view.setConn addr (some { conn with cb := cb })) other := by
  refine ⟨?_, new.setConn (new.conn conn here).1 own (new.client conn here), ?_⟩
  · apply sane.setConn conn
    · exact nofun
    · exact kept_cb (sane.kept addr conn here) cb
    · exact fun broken _ => sane.quiet addr conn here broken nofun
    · intro place node found lost context
      exact sane.lost place node addr conn found lost context here
    · exact fun attached => absurd rfl attached
    · exact below
  · intro other usable new there
    rcases update_eq_some.mp there with ⟨rfl, same⟩ | ⟨-, was⟩
    · cases same
      exact usable conn here
    · exact usable new was

/-- The node of a pushed server is new, and has no connection. -/
theorem New.announced (new : New view addr none) (type : BitVec 16) (nid : BitVec 32) :
    announcingHolds { view.setNode view.nextNode (some (.fresh view.nextNode type nid)) with
      nextNode := view.nextNode + 1 } addr (.setNodeInfo view.nextNode) := by
  refine ⟨⟨?_, new.below, ?_, new.client⟩, ?_, Nat.lt_succ_self _⟩
  · intro place node there
    rcases update_eq_some.mp there with ⟨-, same⟩ | ⟨-, was⟩
    · cases same
      exact nofun
    · exact new.unclaimed place node was
  · intro conn here
    obtain ⟨plain, uncalled⟩ := new.conn conn here
    exact ⟨plain, .inl (uncalled.elim id id)⟩
  · intro node old there context
    cases (Function.update_self view.nextNode _ view.nodes).symm.trans there
    cases context

/-! ### New connections -/

/-- A connection as `connect`, `accept` and `listen` make it. -/
structure Blank (fd : Int) (conn : Connection) : Prop where
  fd : conn.fd = fd
  evs : conn.evs = 0
  unregistered : Unregistered conn
  cb : conn.cb = none
  calm : ¬Broken conn.state

theorem client_blank (addr outBuffer : Nat) (fd : Int) :
    Blank fd (client (.fresh addr outBuffer fd)) :=
  ⟨rfl, rfl, ⟨rfl, rfl⟩, rfl, (by decide : ¬Broken .STATE_NONE)⟩

theorem server_blank (addr outBuffer : Nat) (fd : Int) :
    Blank fd (server (.fresh addr outBuffer fd)) :=
  ⟨rfl, rfl, ⟨rfl, rfl⟩, rfl, (by decide : ¬Broken .STATE_AUTH)⟩

theorem fresh_blank (addr outBuffer : Nat) (fd : Int) : Blank fd (.fresh addr outBuffer fd) :=
  ⟨rfl, rfl, ⟨rfl, rfl⟩, rfl, (by decide : ¬Broken .STATE_NONE)⟩

def created (view : View) (conn : Connection) : View :=
  { view.setConn view.next (some conn) with next := view.next + 1 }

section Blank
variable {fd : Int}

theorem Blank.bit (blank : Blank fd conn) (mask : BitVec 16) : conn.evs &&& mask = 0 := by
  rw [blank.evs]
  exact BitVec.zero_and

theorem Blank.kept (blank : Blank fd conn) : Kept conn := by
  obtain ⟨unread, unarmed⟩ := blank.unregistered
  refine ⟨⟨?_, ?_⟩, fun listens => absurd (blank.bit _) listens, fun _ => blank.bit _,
    fun _ => blank.bit _⟩
  · simp only [blank.bit, unarmed, ne_eq, not_true_eq_false, Bool.false_eq_true]
  · simp only [blank.bit, unread, ne_eq, not_true_eq_false, or_self, Bool.false_eq_true]

theorem Blank.created_sane (blank : Blank fd conn) {failing raw : Option Nat}
    (sane : Sane view failing raw) : Sane (created view conn) failing raw :=
  sane.create blank.kept blank.calm blank.cb

theorem Blank.created_usable (blank : Blank fd conn) (set : conn.flag ≠ .unset) {other : Nat}
    (usable : Usable view other) : Usable (created view conn) other :=
  usable_setConn blank.calm (blank.bit _) set usable

theorem created_released (view : View) (conn : Connection) : Released view (created view conn) :=
  released_of_update rfl (Nat.le_succ _) fun below => absurd below (lt_irrefl _)

theorem Blank.created_new (blank : Blank fd conn) {failing raw : Option Nat}
    (sane : Sane view failing raw) (owner : Option Nat) (client : conn.flag = .conn_client) :
    New (created view conn) view.next owner where
  unclaimed := fun place node found context =>
    absurd (sane.contexts place node view.next found context) (lt_irrefl _)
  below := Nat.lt_succ_self _
  conn := by
    intro new there
    have here : (created view conn).conns view.next = some conn := Function.update_self ..
    cases here.symm.trans there
    exact ⟨blank.bit _, .inl blank.cb⟩
  client := by
    intro new there
    have here : (created view conn).conns view.next = some conn := Function.update_self ..
    cases here.symm.trans there
    exact client

/-- The new connection is the only one with its descriptor. -/
theorem Blank.only (blank : Blank fd conn) (sees : Sees sys (created view conn)) {other : Nat}
    {found : Connection} (there : (created view conn).conns other = some found)
    (same : found.fd = fd) : found = conn := by
  have here : (created view conn).conns view.next = some conn := Function.update_self ..
  cases sees.net.same_addr here there (blank.fd.trans same.symm)
  exact Option.some.inj (there.symm.trans here)

theorem Blank.reads (blank : Blank fd conn) (set : conn.flag ≠ .unset)
    (sees : Sees sys (created view conn)) (handler : Option Handler) (loops : List Loop) :
    Adds (created view conn) fd AE_READABLE handler loops := by
  apply Adds.reads
  intro other found there same
  cases blank.only sees there same
  exact ⟨blank.calm, blank.bit _, set⟩

theorem Blank.accepts (blank : Blank fd conn)
    (sees : Sees sys (created view conn)) (waits : conn.state = .STATE_NONE)
    (unset : conn.flag = .unset) :
    Adds (created view conn) fd AE_ACCEPTABLE none [] := by
  apply Adds.accepts
  intro other found there same
  cases blank.only sees there same
  exact ⟨waits, blank.bit _, unset⟩

/-- The handler goes on with the new connection, whose read event comes first. -/
theorem Stands.open {before after : Option Handler} (stands : Stands view none before loops)
    (blank : Blank fd conn) (set : conn.flag ≠ .unset) (sees : Sees sys (created view conn))
    (sane : Sane (created view conn) (failing after) (raw after))
    (ready : ∀ next, after = some next → handlerHolds (created view conn) next)
    (alone : ∀ addr next, after = some (.fail addr next) → ∀ other, .parse other ∉ loops) :
    Stands (created view conn) (some (.addFileEvent fd AE_READABLE)) after loops where
  sane := sane
  adds := by
    intro other mask pending
    cases pending
    exact blank.reads set sees after loops
  ready := ready
  usable := fun addr inside => blank.created_usable set (stands.usable addr inside)
  alone := alone

end Blank

end Calls

end SNFrame.System.Positions
