import SNFrame.Receive.Dispatch
import SNFrame.System.Arming

/-! What a node whose connection breaks tells the application. `notifyNodeState` writes the header
before the message has a buffer, and `bufalloc` leaves an empty message with a zero header. -/

namespace SNFrame.System.Notification
open Library.Octet Library.Footprint Library.Transition Base.PbBuf Core.NetManager
open Core.Receiving Core.PbProtocolHandler Core.NodeMgr Turns Supervision Arming Receive.Dispatch

/-- The message is a whole header with the id and the service of the node, and the handler looks up
the callback of that service and command 0. -/
structure Meaningful (heap : Heap) (node : Node) (msg : IMString) : Prop where
  live : msg.mData.isSome
  headed : HEAD_LEN ≤ msg.mLen
  within : msg.mLen ≤ msg.mAlloc
  srvId : getSrvId heap msg = node.m_id
  sid : getSid heap msg = node.m_type
  key : getProtocl heap msg = protocolId node.m_type 0

/-! ### The three calls -/

/-- What the calls of `notifyNodeState` do to its message, in their order. -/
def headerCalls (heap : Heap) (node : Node) : List (IMString → IMString) :=
  [fun msg => setTag heap msg node.m_id 0,
    fun msg => setBodyHead heap msg 0 node.m_type 0 1,
    fun _ => (bufalloc heap 27).2]

/-- The message when the calls have returned. -/
def notification (heap : Heap) (node : Node) : IMString :=
  (headerCalls heap node).foldl (fun msg call => call msg) .null

/-- All zeroes: the setters met no buffer, and `bufalloc` starts the message afresh. -/
def blank : IMString := ⟨some (List.replicate 27 0), 27, 0⟩

theorem notification_eq {heap : Heap} (allocated : heap.malloc = true) (node : Node) :
    notification heap node = blank := by
  change (bufalloc heap 27).2 = blank
  rw [bufalloc, if_pos allocated]
  rfl

theorem blank_meaningless (heap : Heap) (node : Node) : ¬Meaningful heap node blank := by
  intro meaningful
  exact absurd meaningful.headed (by decide)

theorem blank_key (heap : Heap) : getProtocl heap blank = protocolId 0 0 := by
  have zero (addr : Nat) (inside : addr < 27) : view heap blank addr = 0 := by
    simp only [view, blank, Option.getD_some, List.getElem?_replicate_of_lt inside]
  simp only [getProtocl, getField, blank, Option.isSome_some, if_true, loadU32, Prog.run_map,
    Prog.run_bind, Prog.run_read, Prog.run_pure]
  change ntohl (word32 (view heap blank 16) (view heap blank 17) (view heap blank 18)
    (view heap blank 19)) = _
  rw [zero 16 (by decide), zero 17 (by decide), zero 18 (by decide), zero 19 (by decide)]
  decide

/-- The handler takes it for a message of service 0 and command 0. -/
theorem blank_dispatched {Callback : Type} (calls : List (Regist Callback)) (heap : Heap)
    (arg : Nat) : handler (registered calls) heap ⟨blank, arg⟩ =
      match (latest calls 0 0).bind (·.cb) with
      | some cb => [(cb, ⟨blank, arg⟩)]
      | none => [] := by
  rw [handler, blank_key, registered_eq_latest]
  cases latest calls 0 0 with
  | none => rfl
  | some call => cases call.cb <;> rfl

/-! ### The change of a connection -/

section Change
variable {sys after : Sys} {heap : Heap} {addr : Nat} {conn : Connection} {state : ConnState}

/-- The callback passes its message on when there is memory for it. -/
theorem notifyNodeState_effects {place : Nat}
    (done : sys.notifyNodeState heap place state = some after) :
    ∃ node, sys.derefNode place = some node ∧ after.effects = sys.effects ++
      if heap.malloc then [.notifyApp (notification heap node) node.m_id] else [] := by
  obtain ⟨node, there, rfl⟩ := Option.map_eq_some_iff.mp done
  refine ⟨node, there, ?_⟩
  cases allocated : heap.malloc with
  | false => simp [bufalloc, allocated, Sys.assignNode]
  | true =>
    have same : notification heap node = (bufalloc heap 27).2 := rfl
    rw [same]
    simp [bufalloc, allocated, Sys.assignNode, Sys.log]

/-- A change to STATE_ERROR or STATE_CLOSED passes a message when the connection has a callback and
there is memory. -/
theorem setState_effects (here : sys.net.deref addr = some conn) (broken : Broken state)
    (done : sys.setState heap addr state = some after) :
    (conn.cb = none ∨ heap.malloc = false) ∧ after.effects = sys.effects ∨
      heap.malloc = true ∧ ∃ node, conn.cb.bind sys.derefNode = some node ∧
        after.effects = sys.effects ++ [.notifyApp (notification heap node) node.m_id] := by
  simp only [Sys.setState, here] at done
  rw [if_pos (by exact broken)] at done
  cases callback : conn.cb with
  | none =>
    rw [callback] at done
    cases done
    exact .inl ⟨.inl rfl, rfl⟩
  | some place =>
    rw [callback] at done
    obtain ⟨node, there, effects⟩ := notifyNodeState_effects done
    cases allocated : heap.malloc with
    | false =>
      rw [allocated] at effects
      exact .inl ⟨.inr rfl, by simpa using effects⟩
    | true =>
      rw [allocated] at effects
      exact .inr ⟨rfl, node, there, by simpa using effects⟩

/-- The messages that the change passes to the application are meaningful exactly when it passes
none: the connection has no callback, or there is no memory for the message. -/
theorem notifications_meaningful_iff (here : sys.net.deref addr = some conn)
    (broken : Broken state) (done : sys.setState heap addr state = some after) (seen : Heap) :
    (∀ msg id, .notifyApp msg id ∈ after.effects.drop sys.effects.length →
      ∃ node, conn.cb.bind sys.derefNode = some node ∧ id = node.m_id ∧
        Meaningful seen node msg) ↔ conn.cb = none ∨ heap.malloc = false := by
  rcases setState_effects here broken done with ⟨silent, same⟩ | ⟨allocated, node, there, passed⟩
  · refine iff_of_true ?_ silent
    intro msg id inside
    rw [same, List.drop_length] at inside
    exact absurd inside List.not_mem_nil
  · rw [notification_eq allocated] at passed
    refine iff_of_false ?_ ?_
    · intro meaningful
      obtain ⟨other, -, -, right⟩ := meaningful blank node.m_id (by simp [passed])
      exact blank_meaningless seen other right
    · rintro (silent | failed)
      · rw [silent] at there
        exact nomatch there
      · exact nomatch allocated.symm.trans failed

end Change

/-! ### A run -/

/-- A database server with the id 7 is announced. -/
def announced : List Action :=
  [.srvinfoBroadcast (withBody [8, 1, 16, 7, 24, 3]) fun _ => freshFd 5]

/-- The connection to the server is there, with its callback, and can be closed. -/
theorem announced_closes (heap : Heap) (either : heap = ⟨true, fun _ => 0⟩ ∨
    heap = ⟨false, fun _ => 0⟩) : ∃ sys conn after,
    run (step smallMessages) (start [3]) announced = some sys ∧ sys.net.deref 0 = some conn ∧
      sys.setState heap 0 .STATE_CLOSED = some after ∧ conn.cb ≠ none := by
  have closes : ((run (step smallMessages) (start [3]) announced).bind fun sys =>
      (sys.net.deref 0).bind fun conn => (sys.setState heap 0 .STATE_CLOSED).map fun _ =>
        conn.cb.isSome) = some true := by
    rcases either with rfl | rfl <;> decide +kernel
  obtain ⟨sys, reached, closes⟩ := Option.bind_eq_some_iff.mp closes
  obtain ⟨conn, here, closes⟩ := Option.bind_eq_some_iff.mp closes
  obtain ⟨after, done, callback⟩ := Option.map_eq_some_iff.mp closes
  exact ⟨sys, conn, after, reached, here, done, Option.isSome_iff_ne_none.mp callback⟩

theorem closed_connection_misreported : ∃ sys conn after,
    run (step smallMessages) (start [3]) announced = some sys ∧ sys.net.deref 0 = some conn ∧
      sys.setState ⟨true, fun _ => 0⟩ 0 .STATE_CLOSED = some after ∧
      ¬∀ msg id, .notifyApp msg id ∈ after.effects.drop sys.effects.length →
        ∃ node, conn.cb.bind sys.derefNode = some node ∧ id = node.m_id ∧
          Meaningful ⟨true, fun _ => 0⟩ node msg := by
  obtain ⟨sys, conn, after, reached, here, done, callback⟩ := announced_closes _ (.inl rfl)
  refine ⟨sys, conn, after, reached, here, done, fun meaningful => ?_⟩
  rcases setState_effects here (.inl rfl) done with
    ⟨none_set | failed, -⟩ | ⟨allocated, node, -, passed⟩
  · exact callback none_set
  · exact nomatch failed
  · rw [notification_eq allocated] at passed
    obtain ⟨other, -, -, right⟩ := meaningful blank node.m_id (by simp [passed])
    exact blank_meaningless _ other right

theorem notifications_meaningful_iff_no_memory : ∃ sys conn after,
    run (step smallMessages) (start [3]) announced = some sys ∧ sys.net.deref 0 = some conn ∧
      sys.setState ⟨false, fun _ => 0⟩ 0 .STATE_CLOSED = some after ∧
      ∀ msg id, .notifyApp msg id ∈ after.effects.drop sys.effects.length →
        ∃ node, conn.cb.bind sys.derefNode = some node ∧ id = node.m_id ∧
          Meaningful ⟨true, fun _ => 0⟩ node msg := by
  obtain ⟨sys, conn, after, reached, here, done, -⟩ := announced_closes _ (.inr rfl)
  exact ⟨sys, conn, after, reached, here, done,
    (notifications_meaningful_iff here (.inl rfl) done _).mpr (.inr rfl)⟩

end SNFrame.System.Notification
