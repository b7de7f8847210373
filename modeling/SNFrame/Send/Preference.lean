import SNFrame.Send.Routing

/-! Whether a message goes to a connection that is up, when the table has one that matches. -/

namespace SNFrame.Send.Preference
open Library.Table Base.PbBuf Core.Receiving Core.TcpParse Core.NetManager System.Ownership Routing

/-- The send functions of the class NetManager. -/
def send (sids : ServiceID) (net : Net) (msg : IMString) : Target → Option (Int × Net)
  | .sock fd => net.sendSock msg fd
  | .node nid => net.sendNode msg nid
  | .db => net.sendDb sids msg
  | .state => net.sendState sids msg

theorem send_eq (sids : ServiceID) (net : Net) (msg : IMString) (target : Target) :
    send sids net msg target = net.sendFirst (target.isTarget sids) target.arms msg := by
  cases target <;> rfl

/-- A match that is up: in STATE_CONNECTED or STATE_AUTH for the functions that take a node or a
service. -/
def Live (sids : ServiceID) (target : Target) (conn : Connection) : Prop :=
  target.isTarget sids conn = true ∧ target.arms conn.state = true

/-- The queue of the connection has the message at its end. -/
def Grew (net next : Net) (msg : IMString) (conn : Connection) : Prop :=
  ∃ msgs, net.queues conn.outBuffer = some msgs ∧ next.queues conn.outBuffer = some (msgs ++ [msg])

/-- The message is with a live match, whose write event is armed. -/
def OnLive (sids : ServiceID) (target : Target) (net next : Net) (msg : IMString) : Prop :=
  ∃ before conn after armed, net.conns = before ++ conn :: after ∧ Live sids target conn ∧
    Grew net next msg conn ∧ next.conns = before ++ armed :: after ∧ armed.evs &&& AE_WRITABLE ≠ 0

/-- The message is with a match that is not up, and no connection has been armed. -/
def Captured (sids : ServiceID) (target : Target) (net next : Net) (msg : IMString) : Prop :=
  ∃ conn ∈ net.conns, target.isTarget sids conn = true ∧ target.arms conn.state = false ∧
    Grew net next msg conn ∧ next.conns = net.conns

theorem gained_armed {arms : ConnState → Bool} {conn : Connection}
    (arm : arms conn.state = true) : (gained arms conn).evs &&& AE_WRITABLE ≠ 0 := by
  by_cases armed : conn.evs &&& AE_WRITABLE = 0
  · rw [gained, if_pos ⟨arm, armed⟩, or_and_self]
    decide
  · rwa [gained, if_neg fun both => armed both.2]

section Preference
variable {net next : Net} {msgs : List IMString} {msg : IMString} {first : Connection}

/-- Only one queue has grown, and it is that of one connection. -/
theorem eq_of_grew (wf : Wf net) (inside : first ∈ net.conns)
    (queues : next.queues = Function.update net.queues first.outBuffer (some (msgs ++ [msg])))
    {conn : Connection} (there : conn ∈ net.conns) (grew : Grew net next msg conn) :
    conn = first := by
  obtain ⟨old, was, now⟩ := grew
  apply eq_of_key wf.addrs there inside
  apply wf.outBuffers conn there first inside
  by_contra apart
  rw [queues, Function.update_of_ne apart, was] at now
  simpa using congrArg (Option.map List.length) now

end Preference

/-- The message goes to the first match, whatever its state: to one that is up exactly if the
first match is up, and else a connection that is down captures it. -/
theorem live_iff_first_live {sids : ServiceID} {net : Net} (wf : Wf net) (target : Target)
    (msg : IMString) (live : ∃ conn ∈ net.conns, Live sids target conn) :
    ∃ first next, net.conns.find? (target.isTarget sids) = some first ∧
      send sids net msg target = some (0, next) ∧ Grew net next msg first ∧
      (OnLive sids target net next msg ↔ target.arms first.state = true) ∧
      (Captured sids target net next msg ↔ target.arms first.state = false) := by
  obtain ⟨conn, inside, hit, -⟩ := live
  obtain ⟨first, found⟩ : ∃ first, net.conns.find? (target.isTarget sids) = some first :=
    Option.isSome_iff_exists.mp (List.find?_isSome.mpr ⟨conn, inside, hit⟩)
  obtain ⟨matched, before, after, split, -⟩ := List.find?_eq_some_iff_append.mp found
  have here := List.mem_of_find?_eq_some found
  obtain ⟨msgs, next, queued, sent, conns, queues⟩ :=
    sendFirst_split wf split target.arms msg found
  have grew : Grew net next msg first := ⟨msgs, queued, by rw [queues, Function.update_self]⟩
  refine ⟨first, next, found, (send_eq ..).trans sent, grew, ⟨?_, fun up => ?_⟩, ⟨?_, fun down => ?_⟩⟩
  · rintro ⟨left, other, right, armed, table, up, grown, -⟩
    have same := eq_of_grew wf here queues (by simp [table]) grown
    rw [← same]
    exact up.2
  · exact ⟨before, first, after, _, split, ⟨matched, up⟩, grew, conns, gained_armed up⟩
  · rintro ⟨other, there, -, down, grown, -⟩
    rw [← eq_of_grew wf here queues there grown]
    exact down
  · refine ⟨first, here, matched, down, grew, ?_⟩
    rw [conns, split, gained, if_neg (by simp [down])]

/-- Two connections to database servers: the first has failed, the second is up. -/
def failedThenUp : Net where
  conns := [{ Connection.fresh 0 0 5 with sid := 3, state := .STATE_ERROR },
    { Connection.fresh 1 1 6 with sid := 3, state := .STATE_CONNECTED }]
  queues := fun queue => if queue < 2 then some [] else none
  next := 2

theorem failedThenUp_wf : Wf failedThenUp := by
  constructor <;> simp [failedThenUp, Connection.fresh]

theorem live_iff_first_live_down :
    ∃ first next, failedThenUp.conns.find? (Target.db.isTarget ⟨1, 2, 3, 4⟩) = some first ∧
      send ⟨1, 2, 3, 4⟩ failedThenUp .null .db = some (0, next) ∧
      Grew failedThenUp next .null first ∧
      (OnLive ⟨1, 2, 3, 4⟩ .db failedThenUp next .null ↔ Target.db.arms first.state = true) ∧
      (Captured ⟨1, 2, 3, 4⟩ .db failedThenUp next .null ↔ Target.db.arms first.state = false) :=
  live_iff_first_live failedThenUp_wf .db .null
    ⟨_, List.mem_cons_of_mem _ List.mem_cons_self, rfl, rfl⟩

/-- The connection that has failed captures the message. -/
theorem failed_captures :
    (∃ conn ∈ failedThenUp.conns, Live ⟨1, 2, 3, 4⟩ .db conn) ∧
      ∃ next, failedThenUp.sendDb ⟨1, 2, 3, 4⟩ .null = some (0, next) ∧
        next.queues 0 = some [.null] ∧ next.queues 1 = some [] ∧
        ¬OnLive ⟨1, 2, 3, 4⟩ .db failedThenUp next .null := by
  refine ⟨⟨_, List.mem_cons_of_mem _ List.mem_cons_self, rfl, rfl⟩, _, rfl, rfl, rfl, ?_⟩
  rintro ⟨before, conn, after, armed, split, up, ⟨msgs, queued, grown⟩, -, -⟩
  have inside : conn ∈ failedThenUp.conns := by simp [split]
  simp only [failedThenUp, List.mem_cons, List.not_mem_nil, or_false] at inside
  cases inside with
  | inl first =>
    subst first
    cases up.2
  | inr second =>
    subst second
    cases queued
    cases grown

end SNFrame.Send.Preference
