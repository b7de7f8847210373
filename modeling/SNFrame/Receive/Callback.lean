import SNFrame.Receive.Session

/-! The callbacks of the read event, up to the one that meets the peer's close. -/

namespace SNFrame.Receive.Callback
open Library.Octet Library.Framing Library.Transition Base.PbBuf Base.Checksum Core.Receiving
open Core.TcpParse Assembler Refinement FrameStream Session

/-- A connection with its history, and the state that a failed callback has marked it with. -/
structure Life where
  link : Link
  ended : Option ConnState

def Life.fresh : Life := ⟨.fresh, none⟩

def handed (conn : RecvPkt) (event : ReadEvent) : List Byte × Option IoResult :=
  incoming event.outcomes (room conn)

/-- One callback. A connection that has failed is torn down and has no further ones. -/
def callback (sids : ServiceID) (life : Life) (event : ReadEvent) : Option Life :=
  if life.ended.isSome then none
  else
    let received := life.link.received ++ (handed life.link.conn event).1
    match readThenParse sids event life.link.conn with
    | .ok (some (.parsed conn out)) => some ⟨⟨conn, received, life.link.dispatched ++ out⟩, none⟩
    | .ok (some (.failed conn state)) => some ⟨⟨conn, received, life.link.dispatched⟩, some state⟩
    | _ => none

/-- The three ends of a callback, over the state that the connection represents. -/
inductive Ends (sids : ServiceID) (link : Link) (event : ReadEvent) (state : Assembly) : Life → Prop
  | parsed {last : Assembly} {out : List Dispatch} {conn : RecvPkt}
      (stays : (handed link.conn event).2 ≠ some .closed)
      (assembled : assemble sids event.iterations event.ambient
        { state with unread := state.unread ++ (handed link.conn event).1 } = some (last, out))
      (rep : Represents 0 conn last) :
      Ends sids link event state
        ⟨⟨conn, link.received ++ (handed link.conn event).1, link.dispatched ++ out⟩, none⟩
  | error {conn : RecvPkt} (stays : (handed link.conn event).2 ≠ some .closed) :
      Ends sids link event state
        ⟨⟨conn, link.received ++ (handed link.conn event).1, link.dispatched⟩, some .STATE_ERROR⟩
  | closed {conn : RecvPkt} (closed : (handed link.conn event).2 = some .closed) :
      Ends sids link event state
        ⟨⟨conn, link.received ++ (handed link.conn event).1, link.dispatched⟩, some .STATE_CLOSED⟩

theorem callback_ends {sids : ServiceID} {life next : Life} {event : ReadEvent}
    {state : Assembly} (rep : Represents 0 life.link.conn state)
    (stepped : callback sids life event = some next) : Ends sids life.link event state next := by
  obtain ⟨trace, runs, rep', matched, -⟩ := read_refines event.outcomes rep
  have received : (handed life.link.conn event).1 = trace.received := by rw [handed, ← matched]
  have result : (handed life.link.conn event).2 = trace.result := by rw [handed, ← matched]
  rw [← received] at rep'
  have parses : (handed life.link.conn event).2 ≠ some .closed →
      ∀ conn out, parseWithin sids event.iterations event.ambient trace.conn =
        .ok (some (conn, out)) →
      Ends sids life.link event state ⟨⟨conn, life.link.received ++ (handed life.link.conn event).1,
        life.link.dispatched ++ out⟩, none⟩ := by
    intro stays conn out returned
    obtain ⟨last, assembled, rep''⟩ := parseWithin_spec rep' returned
    exact .parsed stays assembled rep''
  unfold callback at stepped
  split at stepped
  · cases stepped
  · simp only [readThenParse, runs, bind, Except.bind] at stepped
    cases io : trace.result with
    | none => simp [io] at stepped
    | some io' =>
      rw [io] at result
      cases io' with
      | error =>
        simp only [io] at stepped
        cases stepped
        exact .error (by simp [result])
      | closed =>
        simp only [io] at stepped
        cases stepped
        exact .closed result
      | finish | again =>
        simp only [io] at stepped
        cases returned : parseWithin sids event.iterations event.ambient trace.conn with
        | error fault => simp [returned] at stepped
        | ok answer =>
          cases answer with
          | none => simp [returned] at stepped
          | some both =>
            simp only [returned] at stepped
            cases stepped
            exact parses (by simp [result]) _ _ returned

/-! ### The close -/

/-- The bytes received, this callback's included, begin the stream. -/
def CutsAt (frames : List (List Byte)) (life : Life) (event : ReadEvent) : Prop :=
  life.link.received ++ (handed life.link.conn event).1 <+: frames.flatten

/-- At the close, every valid frame that has arrived has been dispatched. -/
def Delivered (frames : List (List Byte)) (life : Life) : Prop :=
  life.ended = some .STATE_CLOSED →
    life.link.dispatched.map (fun each => each.msg.bytes) =
      (arrived frames life.link.received.length).filter goodSum

/-- What `pkt` and `buf` hold before the callback, with what the callback receives. -/
def pendingBytes (life : Life) (event : ReadEvent) : List Byte :=
  life.link.conn.pkt.bytes ++ unreadBytes life.link.conn ++ (handed life.link.conn event).1

/-- The callback does not meet the close, or it meets it with no valid frame lying whole in the
partial frame, the unread bytes and the bytes it has received itself. -/
def ClosesEmpty (life : Life) (event : ReadEvent) : Prop :=
  (handed life.link.conn event).2 = some .closed →
    (format.whole (pendingBytes life event).length (pendingBytes life event)).filter goodSum = []

def Living (frames : List (List Byte)) (life : Life) : Prop :=
  life.ended = none → ∃ state, InStream frames life.link state

theorem ended_of_callback {sids : ServiceID} {life next : Life} {event : ReadEvent}
    (stepped : callback sids life event = some next) : life.ended = none := by
  unfold callback at stepped
  split at stepped
  · cases stepped
  · next alive => simpa using alive

theorem callback_living {sids : ServiceID} {frames : List (List Byte)}
    (framed : ∀ frame ∈ frames, Framed frame) {life next : Life} {event : ReadEvent}
    (living : Living frames life) (cuts : CutsAt frames life event)
    (stepped : callback sids life event = some next) : Living frames next := by
  obtain ⟨state, here⟩ := living (ended_of_callback stepped)
  intro alive
  cases callback_ends here.rep stepped with
  | parsed _ assembled rep => exact ⟨_, inStream_parsed framed here cuts assembled rep⟩
  | error => cases alive
  | closed => cases alive

theorem callback_delivered_iff {sids : ServiceID} {frames : List (List Byte)}
    (framed : ∀ frame ∈ frames, Framed frame) {life next : Life} {event : ReadEvent}
    (living : Living frames life) (cuts : CutsAt frames life event)
    (stepped : callback sids life event = some next) :
    Delivered frames next ↔ ClosesEmpty life event := by
  obtain ⟨state, here⟩ := living (ended_of_callback stepped)
  cases callback_ends here.rep stepped with
  | parsed stays => exact iff_of_true (fun ended => nomatch ended) fun closed => absurd closed stays
  | error stays => exact iff_of_true (fun ended => nomatch ended) fun closed => absurd closed stays
  | closed closed =>
    obtain ⟨rep, -, later, total, before, after, rfl, cut⟩ := here
    obtain ⟨rest, whole⟩ := cuts
    have received := received_of_cut total cut
    have held : pendingBytes life event = state.inHand ++ (handed life.link.conn event).1 := by
      rw [pendingBytes, inHand_represents rep]
    have aligned : pendingBytes life event ++ rest = after.flatten := by
      rw [received, List.flatten_append, List.append_assoc, List.append_assoc] at whole
      rw [held, List.append_assoc]
      exact List.append_cancel_left whole
    have announced := format.whole_eq_arrived (by decide) (pendingBytes life event).length
      (fun frame inside => (framed frame (List.mem_append_right _ inside)).sized) aligned le_rfl
    have size : (life.link.received ++ (handed life.link.conn event).1).length =
        before.flatten.length + (pendingBytes life event).length := by
      rw [received, held, List.append_assoc, List.length_append]
    simp only [Delivered, ClosesEmpty, closed, forall_const, announced, size, arrived_append,
      List.filter_append, cut.bytes]
    rw [eq_comm, List.append_right_eq_self]

/-- No frame is lost at the close in exactly the runs in which the callback that meets the
close finds no whole valid frame in hand. -/
theorem delivered_iff_closesEmpty (sids : ServiceID) (frames : List (List Byte))
    (framed : ∀ frame ∈ frames, Framed frame) (events : List ReadEvent) (life : Life)
    (cut : Throughout (callback sids) (CutsAt frames) .fresh events)
    (reached : run (callback sids) .fresh events = some life) :
    Always (callback sids) (Delivered frames) .fresh events ↔
      Throughout (callback sids) ClosesEmpty .fresh events :=
  always_iff_throughout (Living frames) _ _ _
    (fun _ _ _ living cuts stepped => callback_living framed living cuts stepped)
    (fun _ _ _ living _ cuts stepped => callback_delivered_iff framed living cuts stepped)
    (fun _ => ⟨.fresh, fresh_inStream frames⟩) (fun ended => nomatch ended) cut reached

/-- A frame and the close in one callback: nothing is parsed. -/
theorem frame_lost_at_close :
    Framed tenZeroes ∧ goodSum tenZeroes = true ∧
      ∃ life, run (callback ⟨1, 2, 3, 4⟩) .fresh [⟨[.bytes tenZeroes, .bytes []], roomy, 37⟩] =
          some life ∧
        life.ended = some .STATE_CLOSED ∧ life.link.received = tenZeroes ∧
        life.link.dispatched = [] ∧ ¬Delivered [tenZeroes] life := by
  refine ⟨tenZeroes_framed, by decide, ?_⟩
  have ends : (run (callback ⟨1, 2, 3, 4⟩) .fresh
        [⟨[.bytes tenZeroes, .bytes []], roomy, 37⟩]).map
      (fun life => (life.ended, life.link.received, life.link.dispatched)) =
        some (some .STATE_CLOSED, tenZeroes, []) := by
    decide +kernel
  obtain ⟨life, reached, fields⟩ := Option.map_eq_some_iff.mp ends
  simp only [Prod.mk.injEq] at fields
  obtain ⟨ended, received, dispatched⟩ := fields
  refine ⟨life, reached, ended, received, dispatched, fun delivered => ?_⟩
  have all := delivered ended
  rw [received, dispatched] at all
  exact absurd all (by decide)

theorem delivered_iff_closesEmpty_one_callback :
    ∃ life, run (callback ⟨1, 2, 3, 4⟩) .fresh [⟨[.bytes tenZeroes, .bytes []], roomy, 37⟩] =
        some life ∧
      (Always (callback ⟨1, 2, 3, 4⟩) (Delivered [tenZeroes]) .fresh
          [⟨[.bytes tenZeroes, .bytes []], roomy, 37⟩] ↔
        Throughout (callback ⟨1, 2, 3, 4⟩) ClosesEmpty .fresh
          [⟨[.bytes tenZeroes, .bytes []], roomy, 37⟩]) := by
  have ends : (run (callback ⟨1, 2, 3, 4⟩) .fresh
      [⟨[.bytes tenZeroes, .bytes []], roomy, 37⟩]).isSome = true := by
    decide +kernel
  obtain ⟨life, reached⟩ := Option.isSome_iff_exists.mp ends
  exact ⟨life, reached, delivered_iff_closesEmpty ⟨1, 2, 3, 4⟩ [tenZeroes]
    (by simpa using tenZeroes_framed) _ life ⟨⟨[], by decide⟩, fun _ _ => trivial⟩ reached⟩

end SNFrame.Receive.Callback
