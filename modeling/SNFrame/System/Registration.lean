import SNFrame.System.Sight
import SNFrame.System.Simulation

/-! The events of a connection in `evs` and in libevent, and what holds of the two tables
between any two calls of the event thread. -/

namespace SNFrame.System.Registration
open Library.Octet Library.Table Base.PbBuf Core.Receiving Core.Sending Core.TcpParse
open Core.NetManager Core.NodeMgr Core.EventThread Ownership Tables Turns Sight
open Simulation (addEvent_evs addEvent_state withEvent_flag withEvent_state withEvent_cb
  withoutEvent_state)

/-! ### One connection -/

/-- What `evs` says is what libevent has. -/
structure Agrees (conn : Connection) : Prop where
  writable : conn.evs &&& AE_WRITABLE ≠ 0 ↔ conn.wevent = true
  readable : conn.evs &&& AE_READABLE ≠ 0 ∨ conn.evs &&& AE_ACCEPTABLE ≠ 0 ↔ conn.revent = true

/-- Neither event is registered, and the destructor may free them. -/
def Unregistered (conn : Connection) : Prop := conn.revent = false ∧ conn.wevent = false

/-- A listening connection is the only one with AE_ACCEPTABLE, and its state stays STATE_NONE. It
is also the only one whose flag nobody sets, and it is not read. -/
structure Kept (conn : Connection) : Prop extends Agrees conn where
  listening : conn.evs &&& AE_ACCEPTABLE ≠ 0 →
    conn.state = .STATE_NONE ∧ conn.evs &&& AE_READABLE = 0 ∧ conn.flag = .unset
  unarmed : conn.state = .STATE_NONE → conn.evs &&& AE_WRITABLE = 0
  unread : conn.flag = .unset → conn.evs &&& AE_READABLE = 0

section Bits
variable {conn : Connection}

theorem or_and_of_apart {mask bit : BitVec 16} (apart : mask &&& bit = 0) (evs : BitVec 16) :
    (evs ||| mask) &&& bit = evs &&& bit := by
  rw [BitVec.and_or_distrib_right, apart]
  exact BitVec.or_zero

theorem and_not_and_of_apart {mask bit : BitVec 16} (apart : mask &&& bit = 0)
    (evs : BitVec 16) : evs &&& ~~~mask &&& bit = evs &&& bit := by
  have rest : ~~~mask &&& bit = bit := by
    calc ~~~mask &&& bit = (mask &&& bit) ||| (~~~mask &&& bit) := by
          rw [apart]
          exact BitVec.zero_or.symm
      _ = (mask ||| ~~~mask) &&& bit := BitVec.and_or_distrib_right.symm
      _ = bit := by rw [BitVec.or_not_self, BitVec.allOnes_and]
  rw [BitVec.and_assoc, rest]

theorem and_not_and_of_within {mask bit : BitVec 16} (within : mask &&& bit = bit)
    (evs : BitVec 16) : evs &&& ~~~mask &&& bit = 0 := by
  calc evs &&& ~~~mask &&& bit = evs &&& ~~~mask &&& (mask &&& bit) := by rw [within]
    _ = evs &&& (~~~mask &&& mask) &&& bit := by simp only [BitVec.and_assoc]
    _ = 0 := by simp

theorem addEvent_readable (conn : Connection) :
    conn.addEvent AE_READABLE = { conn with revent := true } := rfl

theorem addEvent_writable (conn : Connection) :
    conn.addEvent AE_WRITABLE = { conn with wevent := true } := rfl

theorem addEvent_acceptable (conn : Connection) :
    conn.addEvent AE_ACCEPTABLE = { conn with revent := true } := rfl

theorem withEvent_writable_kept (kept : Kept conn) (started : conn.state ≠ .STATE_NONE) :
    Kept (withEvent AE_WRITABLE conn) := by
  rw [withEvent, addEvent_writable]
  split_ifs with armed
  · exact kept
  · constructor
    · constructor
      · exact iff_of_true (by rw [or_and_self]; decide) rfl
      · simpa (disch := decide) only [or_and_of_apart] using kept.readable
    · simpa (disch := decide) only [or_and_of_apart] using kept.listening
    · exact fun none => absurd none started
    · simpa (disch := decide) only [or_and_of_apart] using kept.unread

theorem withEvent_readable_kept (kept : Kept conn) (plain : conn.evs &&& AE_ACCEPTABLE = 0)
    (set : conn.flag ≠ .unset) : Kept (withEvent AE_READABLE conn) := by
  rw [withEvent, addEvent_readable]
  split_ifs with armed
  · exact kept
  · constructor
    · constructor
      · simpa (disch := decide) only [or_and_of_apart] using kept.writable
      · exact iff_of_true (.inl (by rw [or_and_self]; decide)) rfl
    · intro listens
      rw [or_and_of_apart (by decide)] at listens
      exact absurd plain listens
    · simpa (disch := decide) only [or_and_of_apart] using kept.unarmed
    · exact fun unset => absurd unset set

theorem withEvent_acceptable_kept (kept : Kept conn) (none : conn.state = .STATE_NONE)
    (unread : conn.evs &&& AE_READABLE = 0) (unset : conn.flag = .unset) :
    Kept (withEvent AE_ACCEPTABLE conn) := by
  rw [withEvent, addEvent_acceptable]
  split_ifs with armed
  · exact kept
  · constructor
    · constructor
      · simpa (disch := decide) only [or_and_of_apart] using kept.writable
      · exact iff_of_true (.inr (by rw [or_and_self]; decide)) rfl
    · refine fun _ => ⟨none, ?_, unset⟩
      simpa (disch := decide) only [or_and_of_apart] using unread
    · simpa (disch := decide) only [or_and_of_apart] using kept.unarmed
    · simpa (disch := decide) only [or_and_of_apart] using kept.unread

theorem and_and_of_within (evs mask : BitVec 16) {bit : BitVec 16}
    (within : mask &&& bit = bit) : evs &&& mask &&& bit = evs &&& bit := by
  rw [BitVec.and_assoc, within]

theorem Agrees.unregistered (agrees : Agrees conn) (unread : conn.evs &&& AE_READABLE = 0)
    (unarmed : conn.evs &&& AE_WRITABLE = 0) (plain : conn.evs &&& AE_ACCEPTABLE = 0) :
    Unregistered conn := by
  constructor
  · apply Bool.eq_false_of_not_eq_true
    intro registered
    exact (agrees.readable.mpr registered).elim (· unread) (· plain)
  · apply Bool.eq_false_of_not_eq_true
    intro registered
    exact agrees.writable.mpr registered unarmed

/-- The tail of a callback that fails removes both events. -/
theorem withoutEvent_both (kept : Kept conn) (plain : conn.evs &&& AE_ACCEPTABLE = 0) :
    Kept (withoutEvent (AE_READABLE ||| AE_WRITABLE) conn) ∧
      Unregistered (withoutEvent (AE_READABLE ||| AE_WRITABLE) conn) := by
  rw [withoutEvent]
  split_ifs with armed
  · have unread : conn.evs &&& ~~~(AE_READABLE ||| AE_WRITABLE) &&& AE_READABLE = 0 :=
      and_not_and_of_within (by decide) _
    have unarmed : conn.evs &&& ~~~(AE_READABLE ||| AE_WRITABLE) &&& AE_WRITABLE = 0 :=
      and_not_and_of_within (by decide) _
    have still : conn.evs &&& ~~~(AE_READABLE ||| AE_WRITABLE) &&& AE_ACCEPTABLE = 0 := by
      rw [and_not_and_of_apart (by decide), plain]
    have removed : Unregistered ({ conn with evs := conn.evs &&& ~~~(AE_READABLE ||| AE_WRITABLE)
        }.delEvent (conn.evs &&& (AE_READABLE ||| AE_WRITABLE))) := by
      simp only [Unregistered, Connection.delEvent, Bool.and_eq_false_iff, decide_eq_false_iff_not]
      rw [and_and_of_within _ _ (by decide), and_and_of_within _ _ (by decide)]
      constructor
      · cases registered : conn.revent with
        | false => exact .inl rfl
        | true => exact .inr ((kept.readable.mpr registered).resolve_right (not_not_intro plain))
      · cases registered : conn.wevent with
        | false => exact .inl rfl
        | true => exact .inr (kept.writable.mpr registered)
    obtain ⟨noRead, noWrite⟩ := removed
    refine ⟨⟨⟨iff_of_false (not_not_intro unarmed) ?_, iff_of_false ?_ ?_⟩, ?_, ?_, ?_⟩, noRead,
      noWrite⟩
    · simp [noWrite]
    · rintro (reads | listens)
      · exact reads unread
      · exact listens still
    · simp [noRead]
    · exact fun listens => absurd still listens
    · exact fun _ => unarmed
    · exact fun _ => unread
  · have none := not_not.mp armed
    have unread : conn.evs &&& AE_READABLE = 0 := by
      rw [← and_and_of_within conn.evs (AE_READABLE ||| AE_WRITABLE) (by decide), none]
      rfl
    have unarmed : conn.evs &&& AE_WRITABLE = 0 := by
      rw [← and_and_of_within conn.evs (AE_READABLE ||| AE_WRITABLE) (by decide), none]
      rfl
    exact ⟨kept, kept.unregistered unread unarmed plain⟩

theorem delEvent_writable {evs : BitVec 16} (armed : evs &&& AE_WRITABLE ≠ 0)
    (conn : Connection) : conn.delEvent (evs &&& AE_WRITABLE) = { conn with wevent := false } := by
  have apart : evs &&& AE_WRITABLE &&& AE_READABLE = 0 := by
    rw [BitVec.and_assoc]
    exact BitVec.and_zero
  have within : evs &&& AE_WRITABLE &&& AE_WRITABLE ≠ 0 := by
    rwa [and_and_of_within _ _ (by decide)]
  simp only [Connection.delEvent, apart, within, decide_true, decide_false, Bool.and_true,
    Bool.and_false]

/-- What can become of a connection while its state and its callback stay. -/
structure Follows (before after : Connection) : Prop where
  flag : after.flag = before.flag
  fd : after.fd = before.fd
  state : after.state = before.state
  cb : after.cb = before.cb
  acceptable : after.evs &&& AE_ACCEPTABLE = before.evs &&& AE_ACCEPTABLE
  kept : Kept before → Kept after
  quiet : Broken before.state → Unregistered before → Unregistered after

theorem Follows.refl (conn : Connection) : Follows conn conn :=
  ⟨rfl, rfl, rfl, rfl, rfl, id, fun _ => id⟩

theorem Follows.trans {first second third : Connection} (before : Follows first second)
    (after : Follows second third) : Follows first third where
  flag := after.flag.trans before.flag
  fd := after.fd.trans before.fd
  state := after.state.trans before.state
  cb := after.cb.trans before.cb
  acceptable := after.acceptable.trans before.acceptable
  kept := fun kept => after.kept (before.kept kept)
  quiet := by
    intro broken unregistered
    apply after.quiet
    · rwa [before.state]
    · exact before.quiet broken unregistered

/-- A change of other fields. -/
theorem Follows.of_fields {before after : Connection} (flag : after.flag = before.flag)
    (fd : after.fd = before.fd) (state : after.state = before.state) (cb : after.cb = before.cb)
    (evs : after.evs = before.evs) (revent : after.revent = before.revent)
    (wevent : after.wevent = before.wevent) : Follows before after where
  flag := flag
  fd := fd
  state := state
  cb := cb
  acceptable := by rw [evs]
  kept := by
    rintro ⟨⟨writable, readable⟩, listening, unarmed, unread⟩
    exact ⟨⟨by rwa [evs, wevent], by rwa [evs, revent]⟩, by rwa [evs, state, flag], by rwa [evs, state],
      by rwa [evs, flag]⟩
  quiet := by
    intro _ unregistered
    rwa [Unregistered, revent, wevent]

theorem withEvent_fd (conn : Connection) (mask : BitVec 16) :
    (withEvent mask conn).fd = conn.fd := by
  rw [withEvent]
  split_ifs
  · rfl
  · exact (addEvent_keeps mask).fd _

/-- An event that is added to a connection that is not broken. -/
theorem withEvent_follows {mask : BitVec 16} (unbroken : ¬Broken conn.state)
    (apart : mask &&& AE_ACCEPTABLE = 0) (kept : Kept conn → Kept (withEvent mask conn)) :
    Follows conn (withEvent mask conn) where
  flag := withEvent_flag ..
  fd := withEvent_fd ..
  state := withEvent_state ..
  cb := withEvent_cb ..
  acceptable := by
    rw [withEvent]
    split_ifs
    · rfl
    · rw [addEvent_evs]
      exact or_and_of_apart apart _
  kept := kept
  quiet := fun broken => absurd broken unbroken

theorem withEvent_writable_follows (started : conn.state ≠ .STATE_NONE)
    (unbroken : ¬Broken conn.state) : Follows conn (withEvent AE_WRITABLE conn) :=
  withEvent_follows unbroken (by decide) fun kept => withEvent_writable_kept kept started

theorem withEvent_readable_follows (unbroken : ¬Broken conn.state)
    (plain : conn.evs &&& AE_ACCEPTABLE = 0) (set : conn.flag ≠ .unset) :
    Follows conn (withEvent AE_READABLE conn) :=
  withEvent_follows unbroken (by decide) fun kept => withEvent_readable_kept kept plain set

/-- A sender leaves the read event. -/
theorem withEvent_writable_readable (conn : Connection) :
    (withEvent AE_WRITABLE conn).evs &&& AE_READABLE = conn.evs &&& AE_READABLE := by
  rw [withEvent]
  split_ifs
  · rfl
  · rw [addEvent_evs]
    exact or_and_of_apart (by decide) _

/-- The queue is empty, and the write event goes. -/
theorem withoutEvent_follows (conn : Connection) :
    Follows conn (withoutEvent AE_WRITABLE conn) := by
  rw [withoutEvent]
  split_ifs with armed
  · have unarmed : conn.evs &&& ~~~AE_WRITABLE &&& AE_WRITABLE = 0 :=
      and_not_and_of_within (by decide) _
    rw [delEvent_writable armed]
    refine ⟨rfl, rfl, rfl, rfl, and_not_and_of_apart (by decide) _, ?_, ?_⟩
    · intro kept
      constructor
      · constructor
        · exact iff_of_false (not_not_intro unarmed) Bool.false_ne_true
        · simpa (disch := decide) only [and_not_and_of_apart] using kept.readable
      · simpa (disch := decide) only [and_not_and_of_apart] using kept.listening
      · exact fun _ => unarmed
      · simpa (disch := decide) only [and_not_and_of_apart] using kept.unread
    · exact fun _ unregistered => ⟨unregistered.1, rfl⟩
  · exact .refl conn

end Bits

/-! ### The tables -/

/-- Every connection comes from one that was there. -/
def Descends (before after : Nat → Option Connection) : Prop :=
  ∀ addr conn, after addr = some conn → ∃ old, before addr = some old ∧ Follows old conn

/-- No read event is added. -/
def Unread (before after : Nat → Option Connection) : Prop :=
  ∀ addr conn, after addr = some conn → ∃ old, before addr = some old ∧
    conn.evs &&& AE_READABLE = old.evs &&& AE_READABLE

/-- What holds between two calls, but for the connection whose events a failing callback is
about to remove, and for the new one that is not yet the context of its node. -/
structure Sane (view : View) (failing raw : Option Nat) : Prop where
  kept : Everywhere Kept view.conns
  quiet : ∀ addr conn, view.conns addr = some conn → Broken conn.state → failing ≠ some addr →
    Unregistered conn
  lost : ∀ place node addr conn, view.nodes place = some node → Lost node.m_state →
    node.m_context = some addr → view.conns addr = some conn → Broken conn.state
  called : ∀ addr conn place, view.conns addr = some conn → conn.cb = some place →
    raw ≠ some addr → ∀ other node, view.nodes other = some node →
      (node.m_context = some addr ↔ other = place)
  contexts : ∀ place node addr, view.nodes place = some node → node.m_context = some addr →
    addr < view.next
  callbacks : ∀ addr conn place, view.conns addr = some conn → conn.cb = some place →
    place < view.nextNode

section Tables
variable {view : View} {failing raw : Option Nat} {addr place : Nat} {conn : Connection}

theorem Descends.refl (conns : Nat → Option Connection) : Descends conns conns :=
  fun _ conn here => ⟨conn, here, .refl conn⟩

theorem Descends.trans {first second third : Nat → Option Connection}
    (before : Descends first second) (after : Descends second third) : Descends first third := by
  intro addr new there
  obtain ⟨middle, inside, follows⟩ := after addr new there
  obtain ⟨old, here, first⟩ := before addr middle inside
  exact ⟨old, here, first.trans follows⟩

theorem descends_update {conns : Nat → Option Connection} (here : conns addr = some conn)
    {after : Connection} (follows : Follows conn after) :
    Descends conns (Function.update conns addr (some after)) := by
  intro other new there
  rcases update_eq_some.mp there with ⟨rfl, same⟩ | ⟨-, was⟩
  · cases same
    exact ⟨conn, here, follows⟩
  · exact ⟨new, was, .refl new⟩

theorem descends_erase (conns : Nat → Option Connection) (addr : Nat) :
    Descends conns (Function.update conns addr none) := by
  intro other new there
  rcases update_eq_some.mp there with ⟨-, none⟩ | ⟨-, was⟩
  · cases none
  · exact ⟨new, was, .refl new⟩

theorem Sane.descends (sane : Sane view failing raw) {conns : Nat → Option Connection}
    (descends : Descends view.conns conns) : Sane { view with conns := conns } failing raw where
  kept := by
    intro addr new there
    obtain ⟨old, here, follows⟩ := descends addr new there
    exact follows.kept (sane.kept addr old here)
  quiet := by
    intro addr new there broken other
    obtain ⟨old, here, follows⟩ := descends addr new there
    rw [follows.state] at broken
    exact follows.quiet broken (sane.quiet addr old here broken other)
  lost := by
    intro place node addr new found lost context there
    obtain ⟨old, here, follows⟩ := descends addr new there
    rw [follows.state]
    exact sane.lost place node addr old found lost context here
  called := by
    intro addr new place there callback
    obtain ⟨old, here, follows⟩ := descends addr new there
    rw [follows.cb] at callback
    exact sane.called addr old place here callback
  contexts := sane.contexts
  callbacks := by
    intro addr new place there callback
    obtain ⟨old, here, follows⟩ := descends addr new there
    rw [follows.cb] at callback
    exact sane.callbacks addr old place here callback

/-- A change of one connection, which may be the one that fails or the new one. -/
theorem Sane.setConn (sane : Sane view failing raw) (conn : Connection) {left : Option Nat}
    {after : Connection}
    (apart : ∀ other, other ≠ addr → failing ≠ some other) (kept : Kept after)
    (quiet : Broken after.state → left ≠ some addr → Unregistered after)
    (lost : ∀ place node, view.nodes place = some node → Lost node.m_state →
      node.m_context = some addr → Broken after.state)
    (called : raw ≠ some addr → view.conns addr = some conn ∧ after.cb = conn.cb)
    (callbacks : ∀ place, after.cb = some place → place < view.nextNode) :
    Sane (view.setConn addr (some after)) left raw where
  kept := everywhere_update sane.kept kept
  quiet := by
    intro other new there broken others
    rcases update_eq_some.mp there with ⟨rfl, same⟩ | ⟨differs, was⟩
    · cases same
      exact quiet broken others
    · exact sane.quiet other new was broken (apart other differs)
  lost := by
    intro place node other new found isLost context there
    rcases update_eq_some.mp there with ⟨rfl, same⟩ | ⟨-, was⟩
    · cases same
      exact lost place node found isLost context
    · exact sane.lost place node other new found isLost context was
  called := by
    intro other new place there callback attached
    rcases update_eq_some.mp there with ⟨rfl, same⟩ | ⟨-, was⟩
    · cases same
      obtain ⟨here, sameCb⟩ := called attached
      exact sane.called other conn place here (sameCb ▸ callback) attached
    · exact sane.called other new place was callback attached
  contexts := sane.contexts
  callbacks := by
    intro other new place there callback
    rcases update_eq_some.mp there with ⟨rfl, same⟩ | ⟨-, was⟩
    · cases same
      exact callbacks place callback
    · exact sane.callbacks other new place was callback

theorem Sane.setNode (sane : Sane view failing raw) {node after : Node}
    (here : view.nodes place = some node) (context : after.m_context = node.m_context)
    (lost : Lost after.m_state → ∀ addr conn, node.m_context = some addr →
      view.conns addr = some conn → Broken conn.state) :
    Sane (view.setNode place (some after)) failing raw where
  kept := sane.kept
  quiet := sane.quiet
  lost := by
    intro other new addr conn there isLost attached found
    rcases update_eq_some.mp there with ⟨rfl, same⟩ | ⟨-, was⟩
    · cases same
      exact lost isLost addr conn (context ▸ attached) found
    · exact sane.lost other new addr conn was isLost attached found
  called := by
    intro addr conn callee found callback attached other new there
    rcases update_eq_some.mp there with ⟨rfl, same⟩ | ⟨-, was⟩
    · cases same
      rw [context]
      exact sane.called addr conn callee found callback attached other node here
    · exact sane.called addr conn callee found callback attached other new was
  contexts := by
    intro other new addr there attached
    rcases update_eq_some.mp there with ⟨rfl, same⟩ | ⟨-, was⟩
    · cases same
      exact sane.contexts other node addr here (context ▸ attached)
    · exact sane.contexts other new addr was attached
  callbacks := sane.callbacks

theorem setNode_of_none (absent : view.nodes place = none) : view.setNode place none = view := by
  rw [View.setNode, Function.update_eq_self_iff.mpr absent.symm]

/-- A change of a node that keeps its context. -/
theorem Sane.assignNode (sane : Sane view failing raw) {f : Node → Node}
    (context : ∀ node, (f node).m_context = node.m_context)
    (lost : ∀ node addr conn, view.nodes place = some node → Lost (f node).m_state →
      node.m_context = some addr → view.conns addr = some conn → Broken conn.state) :
    Sane (view.assignNode place f) failing raw := by
  cases here : view.nodes place with
  | none =>
    rw [View.assignNode, here, Option.map_none, setNode_of_none here]
    exact sane
  | some node =>
    rw [View.assignNode, here, Option.map_some]
    exact sane.setNode here (context node) fun isLost addr conn => lost node addr conn here isLost

/-- The callback of a connection that has just broken. -/
theorem Sane.notify (sane : Sane view failing raw) {cb : Option Nat} {state : ConnState}
    (owner : ∀ place, cb = some place → ∀ node addr conn, view.nodes place = some node →
      node.m_context = some addr → view.conns addr = some conn → Broken conn.state) :
    Sane (view.notify cb state) failing raw := by
  cases cb with
  | none => exact sane
  | some place =>
    exact sane.assignNode (fun _ => rfl) fun node addr conn here _ =>
      owner place rfl node addr conn here

/-- `Connection::setState`, but for the callback. -/
theorem kept_state (kept : Kept conn) (plain : conn.evs &&& AE_ACCEPTABLE = 0) {state : ConnState}
    (started : state ≠ .STATE_NONE) : Kept { conn with state := state } :=
  ⟨⟨kept.writable, kept.readable⟩, fun listens => absurd plain listens,
    fun none => absurd none started, kept.unread⟩

theorem kept_cb (kept : Kept conn) (cb : Option Nat) : Kept { conn with cb := cb } :=
  ⟨⟨kept.writable, kept.readable⟩, kept.listening, kept.unarmed, kept.unread⟩

theorem Sane.enter (sane : Sane view none raw) (here : view.conns addr = some conn)
    (plain : conn.evs &&& AE_ACCEPTABLE = 0) {state : ConnState} (started : state ≠ .STATE_NONE)
    (calm : ¬Broken state) (free : ∀ place node, view.nodes place = some node →
      Lost node.m_state → node.m_context ≠ some addr) :
    Sane (view.setConn addr (some { conn with state := state })) none raw := by
  apply sane.setConn conn
  · exact nofun
  · exact kept_state (sane.kept addr conn here) plain started
  · exact fun broken => absurd broken calm
  · exact fun place node found lost context => absurd context (free place node found lost)
  · exact fun _ => ⟨here, rfl⟩
  · exact fun place callback => sane.callbacks addr conn place here callback

/-- A new node. -/
theorem Sane.addNode (sane : Sane view failing raw) {node : Node} (able : ¬Lost node.m_state)
    (context : ∀ addr, node.m_context = some addr → addr < view.next ∧
      ∀ conn, view.conns addr = some conn → conn.cb = none) :
    Sane { view.setNode view.nextNode (some node) with nextNode := view.nextNode + 1 }
      failing raw where
  kept := sane.kept
  quiet := sane.quiet
  lost := by
    intro other new addr conn there isLost attached found
    rcases update_eq_some.mp there with ⟨-, same⟩ | ⟨-, was⟩
    · cases same
      exact absurd isLost able
    · exact sane.lost other new addr conn was isLost attached found
  called := by
    intro addr conn callee found callback attached other new there
    rcases update_eq_some.mp there with ⟨rfl, same⟩ | ⟨-, was⟩
    · cases same
      apply iff_of_false
      · intro claims
        rw [(context addr claims).2 conn found] at callback
        cases callback
      · exact (sane.callbacks addr conn callee found callback).ne'
    · exact sane.called addr conn callee found callback attached other new was
  contexts := by
    intro other new addr there attached
    rcases update_eq_some.mp there with ⟨-, same⟩ | ⟨-, was⟩
    · cases same
      exact (context addr attached).1
    · exact sane.contexts other new addr was attached
  callbacks := fun addr conn callee found callback =>
    Nat.lt_succ_of_lt (sane.callbacks addr conn callee found callback)

theorem Sane.eraseNode (sane : Sane view failing raw) (place : Nat) :
    Sane (view.setNode place none) failing raw where
  kept := sane.kept
  quiet := sane.quiet
  lost := by
    intro other new addr conn there
    rcases update_eq_some.mp there with ⟨-, none⟩ | ⟨-, was⟩
    · cases none
    · exact sane.lost other new addr conn was
  called := by
    intro addr conn callee found callback attached other new there
    rcases update_eq_some.mp there with ⟨-, none⟩ | ⟨-, was⟩
    · cases none
    · exact sane.called addr conn callee found callback attached other new was
  contexts := by
    intro other new addr there
    rcases update_eq_some.mp there with ⟨-, none⟩ | ⟨-, was⟩
    · cases none
    · exact sane.contexts other new addr was
  callbacks := sane.callbacks

/-- A new connection. -/
theorem Sane.create (sane : Sane view failing raw) (kept : Kept conn)
    (calm : ¬Broken conn.state) (cb : conn.cb = none) :
    Sane { view.setConn view.next (some conn) with next := view.next + 1 } failing raw where
  kept := everywhere_update sane.kept kept
  quiet := by
    intro other new there broken
    rcases update_eq_some.mp there with ⟨-, same⟩ | ⟨-, was⟩
    · cases same
      exact absurd broken calm
    · exact sane.quiet other new was broken
  lost := by
    intro place node other new found isLost context there
    rcases update_eq_some.mp there with ⟨rfl, -⟩ | ⟨-, was⟩
    · exact absurd (sane.contexts place node _ found context) (lt_irrefl _)
    · exact sane.lost place node other new found isLost context was
  called := by
    intro other new callee there callback
    rcases update_eq_some.mp there with ⟨-, same⟩ | ⟨-, was⟩
    · cases same
      rw [cb] at callback
      cases callback
    · exact sane.called other new callee was callback
  contexts := fun place node other found context =>
    Nat.lt_succ_of_lt (sane.contexts place node other found context)
  callbacks := by
    intro other new callee there callback
    rcases update_eq_some.mp there with ⟨-, same⟩ | ⟨-, was⟩
    · cases same
      rw [cb] at callback
      cases callback
    · exact sane.callbacks other new callee was callback

/-- A connection that is not yet the context of its node is left out. -/
theorem Sane.begin (sane : Sane view failing none) (addr : Nat) :
    Sane view failing (some addr) :=
  ⟨sane.kept, sane.quiet, sane.lost,
    fun other conn callee found callback _ => sane.called other conn callee found callback nofun,
    sane.contexts, sane.callbacks⟩

/-- It is back when it has no callback. -/
theorem Sane.finish (sane : Sane view failing (some addr))
    (uncalled : ∀ conn, view.conns addr = some conn → conn.cb = none) : Sane view failing none := by
  refine ⟨sane.kept, sane.quiet, sane.lost, ?_, sane.contexts, sane.callbacks⟩
  intro other conn callee found callback _
  by_cases same : other = addr
  · subst same
    rw [uncalled conn found] at callback
    cases callback
  · exact sane.called other conn callee found callback
      fun equal => same (Option.some.inj equal).symm

/-- The new connection becomes the context of its node. -/
theorem Sane.attach (sane : Sane view none (some addr)) {f : Node → Node}
    (context : ∀ node, (f node).m_context = some addr) (able : ∀ node, ¬Lost (f node).m_state)
    (unclaimed : ∀ other node, view.nodes other = some node → node.m_context ≠ some addr)
    (below : addr < view.next)
    (own : ∀ conn, view.conns addr = some conn → conn.cb = none ∨ conn.cb = some place)
    (vacant : ∀ node old, view.nodes place = some node → node.m_context = some old →
      view.conns old = none) : Sane (view.assignNode place f) none none := by
  have owned : ∀ conn callee, view.conns addr = some conn → conn.cb = some callee →
      callee = place := by
    intro conn callee found callback
    rcases own conn found with none | own
    · rw [none] at callback
      cases callback
    · exact Option.some.inj (callback.symm.trans own)
  have others : ∀ other conn callee, other ≠ addr → view.conns other = some conn →
      conn.cb = some callee → ∀ another node, view.nodes another = some node →
        (node.m_context = some other ↔ another = callee) :=
    fun other conn callee differs found callback =>
      sane.called other conn callee found callback fun equal => differs (Option.some.inj equal).symm
  cases here : view.nodes place with
  | none =>
    rw [View.assignNode, here, Option.map_none, setNode_of_none here]
    refine ⟨sane.kept, sane.quiet, sane.lost, ?_, sane.contexts, sane.callbacks⟩
    intro other conn callee found callback _ another node there
    by_cases same : other = addr
    · subst same
      apply iff_of_false (unclaimed another node there)
      intro equal
      rw [equal, owned conn callee found callback, here] at there
      cases there
    · exact others other conn callee same found callback another node there
  | some node =>
    rw [View.assignNode, here, Option.map_some]
    refine ⟨sane.kept, sane.quiet, ?_, ?_, ?_, sane.callbacks⟩
    · intro other new another conn there isLost attached found
      rcases update_eq_some.mp there with ⟨-, same⟩ | ⟨-, was⟩
      · cases same
        exact absurd isLost (able node)
      · exact sane.lost other new another conn was isLost attached found
    · intro other conn callee found callback _ another new there
      by_cases same : other = addr
      · subst same
        cases owned conn callee found callback
        rcases update_eq_some.mp there with ⟨rfl, same⟩ | ⟨differs, was⟩
        · cases same
          exact iff_of_true (context node) rfl
        · exact iff_of_false (unclaimed another new was) differs
      · rcases update_eq_some.mp there with ⟨rfl, equal⟩ | ⟨-, was⟩
        · cases equal
          apply iff_of_false
          · rw [context]
            exact fun equal => same (Option.some.inj equal).symm
          · intro equal
            have claims :=
              (others other conn callee same found callback another node here).mpr equal
            have gone := vacant node other here claims
            cases gone.symm.trans found
        · exact others other conn callee same found callback another new was
    · intro other new another there attached
      rcases update_eq_some.mp there with ⟨-, same⟩ | ⟨-, was⟩
      · cases same
        rw [context] at attached
        cases attached
        exact below
      · exact sane.contexts other new another was attached

end Tables

end SNFrame.System.Registration
