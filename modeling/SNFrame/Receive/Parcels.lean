import SNFrame.Receive.Callback

/-! A stream of parcels: frames of which nothing is asked but the tag and the length field, so
that a heartbeat, which has no body, is one too. What `parse` hands on are parcels of the
stream. -/

namespace SNFrame.Receive.Parcels
open Library.Octet Library.Framing Base.PbBuf Base.Checksum Core.Receiving Core.TcpParse Assembler
open Refinement FrameStream Session Callback

structure Parcel (frame : List Byte) : Prop where
  sized : format.IsFrame frame
  tag : tagged frame = true

theorem Parcel.headed {frame : List Byte} (parcel : Parcel frame) : HEAD_LEN ≤ frame.length :=
  parcel.sized.head_le

/-- The message is the copy of one of the frames. -/
def CopyOf (frames : List (List Byte)) (dispatch : Dispatch) : Prop :=
  ∃ frame ∈ frames, dispatch.msg = held frame []

theorem CopyOf.mono {frames more : List (List Byte)} {dispatch : Dispatch}
    (copy : CopyOf frames dispatch) (inside : frames ⊆ more) : CopyOf more dispatch := by
  obtain ⟨frame, member, same⟩ := copy
  exact ⟨frame, inside member, same⟩

/-- The receiver is between two frames of the stream whose last `later` bytes are still to
come. -/
structure Between (frames : List (List Byte)) (later : List Byte) (state : Assembly) : Prop where
  cut : ∃ before after, frames = before ++ after ∧ state.inHand ++ later = after.flatten

theorem deliver_copy {sids : ServiceID} {ambient : Ambient} {frames : List (List Byte)}
    {frame : List Byte} (inside : frame ∈ frames) :
    ∀ dispatch ∈ deliver sids ambient (held frame []), CopyOf frames dispatch := by
  intro dispatch delivered
  simp only [deliver] at delivered
  split_ifs at delivered
  · rw [List.mem_singleton.mp delivered]
    exact ⟨frame, inside, rfl⟩
  · rw [List.mem_singleton.mp delivered]
    exact ⟨frame, inside, rfl⟩
  · exact absurd delivered List.not_mem_nil

section Step
variable {frames : List (List Byte)} {later : List Byte} {state : Assembly}

/-- An iteration leaves the receiver between two frames, and hands on copies of them. -/
theorem step_between (sids : ServiceID) (ambient : Ambient)
    (parcels : ∀ frame ∈ frames, Parcel frame)
    (between : Between frames later state) (long : HEAD_LEN ≤ state.unread.length) :
    match step sids ambient state long with
    | .next state' out => Between frames later state' ∧ ∀ dispatch ∈ out, CopyOf frames dispatch
    | .leave state' => Between frames later state' := by
  obtain ⟨before, after, cut, aligned⟩ := between.cut
  have some_byte : 0 < state.unread.length := Nat.lt_of_lt_of_le (by decide) long
  obtain ⟨unread, pending⟩ := state
  simp only at long some_byte
  have none_yet : ∀ dispatch ∈ ([] : List Dispatch), CopyOf frames dispatch :=
    fun _ none => nomatch none
  cases pending with
  | none =>
    simp only [Assembly.inHand, List.nil_append] at aligned
    obtain ⟨frame, rest, rfl⟩ := exists_head_frame aligned some_byte
    have inside : frame ∈ frames := by simp [cut]
    have here := parcels frame inside
    rw [List.flatten_cons] at aligned
    have tag : tagged unread = true := by
      rw [tagged_of_aligned aligned (le_trans (by decide) long)
        (le_trans (by decide) here.headed), here.tag]
    have size : frameLen unread = frame.length := format.size_of_aligned aligned here.sized long
    simp only [step, tag, if_true]
    by_cases malloc : ambient.malloc = true
    · by_cases whole : frameLen unread ≤ unread.length
      · simp only [malloc, if_true, dif_pos whole]
        rw [size] at whole ⊢
        rw [take_of_aligned aligned whole]
        exact ⟨⟨before ++ [frame], rest, by simpa using cut, drop_of_aligned aligned whole⟩,
          deliver_copy inside⟩
      · simp only [malloc, if_true, dif_neg whole]
        exact ⟨before, frame :: rest, cut, by simpa [Assembly.inHand, Pending.begin] using aligned⟩
    · simp only [malloc, Bool.false_eq_true, if_false]
      exact ⟨⟨before, frame :: rest, cut, by simpa [Assembly.inHand] using aligned⟩, none_yet⟩
  | some pending =>
    simp only [Assembly.inHand, List.append_assoc] at aligned
    have begun : 0 < pending.got.length := Nat.lt_of_lt_of_le (by decide) pending.headed
    obtain ⟨frame, rest, rfl⟩ := exists_head_frame aligned begun
    have inside : frame ∈ frames := by simp [cut]
    have here := parcels frame inside
    rw [List.flatten_cons] at aligned
    have size : pending.got.length + pending.less = frame.length := by
      rw [pending.total]
      exact format.size_of_aligned aligned here.sized pending.headed
    simp only [step]
    by_cases whole : pending.less ≤ unread.length
    · simp only [dif_pos whole]
      rw [← List.append_assoc] at aligned
      have arrivedAll : frame.length ≤ (pending.got ++ unread).length := by
        rw [List.length_append]
        omega
      have taken := take_of_aligned aligned arrivedAll
      have dropped := drop_of_aligned aligned arrivedAll
      rw [← size, List.take_length_add_append] at taken
      rw [← size, List.drop_length_add_append] at dropped
      rw [taken]
      exact ⟨⟨before ++ [frame], rest, by simpa using cut, dropped⟩, deliver_copy inside⟩
    · simp only [dif_neg whole]
      exact ⟨⟨before, frame :: rest, cut, by simpa [Assembly.inHand, Pending.extend] using aligned⟩,
        none_yet⟩

end Step

theorem assemble_between {sids : ServiceID} {frames : List (List Byte)} {later : List Byte}
    (parcels : ∀ frame ∈ frames, Parcel frame) (count : Nat) (ambient : Nat → Ambient)
    {state last : Assembly} {out : List Dispatch} (between : Between frames later state)
    (ended : assemble sids count ambient state = some (last, out)) :
    Between frames later last ∧ ∀ dispatch ∈ out, CopyOf frames dispatch := by
  have kept := assemble_induction
    (fun state so_far => Between frames later state ∧ ∀ dispatch ∈ so_far, CopyOf frames dispatch)
    ?_ ?_ count ambient [] ⟨between, fun _ none => nomatch none⟩ ended
  · exact kept
  · intro ambient state long next more so_far here moved
    have there := step_between sids ambient parcels here.1 long
    rw [moved] at there
    refine ⟨there.1, fun dispatch inside => ?_⟩
    obtain early | late := List.mem_append.mp inside
    · exact here.2 dispatch early
    · exact there.2 dispatch late
  · intro ambient state long next so_far here moved
    have there := step_between sids ambient parcels here.1 long
    rw [moved] at there
    exact ⟨there, here.2⟩

/-! ### The connection -/

/-- The connection has received these bytes of the stream, and keeps what belongs to the next
frames. -/
structure InPieces (frames : List (List Byte)) (received : List Byte) (conn : RecvPkt) : Prop where
  here : ∃ state later, Represents 0 conn state ∧ state.unread.length < HEAD_LEN ∧
    received ++ later = frames.flatten ∧ Between frames later state

theorem fresh_inPieces : InPieces [] [] .fresh :=
  ⟨.fresh, [], fresh_represents, by decide, rfl, ⟨[], [], rfl, rfl⟩⟩

/-- More frames come behind the others. -/
theorem InPieces.append {frames : List (List Byte)} {received : List Byte} {conn : RecvPkt}
    (pieces : InPieces frames received conn) (more : List (List Byte)) :
    InPieces (frames ++ more) received conn := by
  obtain ⟨state, later, rep, short, total, ⟨before, after, cut, aligned⟩⟩ := pieces.here
  refine ⟨state, later ++ more.flatten, rep, short, ?_, ⟨before, after ++ more, ?_, ?_⟩⟩
  · rw [← List.append_assoc, total, List.flatten_append]
  · rw [cut, List.append_assoc]
  · rw [← List.append_assoc, aligned, List.flatten_append]

/-- A callback that parses: it received the next bytes of the stream, and hands on copies of its
frames. -/
theorem parsed_inPieces {sids : ServiceID} {frames : List (List Byte)} {received : List Byte}
    {conn recv : RecvPkt} {event : ReadEvent} {out : List Dispatch}
    (parcels : ∀ frame ∈ frames, Parcel frame) (pieces : InPieces frames received conn)
    (cuts : received ++ (handed conn event).1 <+: frames.flatten)
    (ended : readThenParse sids event conn = .ok (some (.parsed recv out))) :
    InPieces frames (received ++ (handed conn event).1) recv ∧
      ∀ dispatch ∈ out, CopyOf frames dispatch := by
  obtain ⟨state, later, rep, short, total, between⟩ := pieces.here
  have stepped : callback sids ⟨⟨conn, received, []⟩, none⟩ event =
      some ⟨⟨recv, received ++ (handed conn event).1, out⟩, none⟩ := by
    simp only [callback, Option.isSome_none, Bool.false_eq_true, if_false, ended, List.nil_append]
  obtain ⟨rest, whole⟩ := cuts
  have split : later = (handed conn event).1 ++ rest := by
    rw [← whole, List.append_assoc] at total
    exact List.append_cancel_left total
  obtain ⟨before, after, cut, aligned⟩ := between.cut
  have fed : Between frames rest { state with unread := state.unread ++ (handed conn event).1 } := by
    refine ⟨before, after, cut, ?_⟩
    rw [split] at aligned
    simpa only [Assembly.inHand, List.append_assoc] using aligned
  have ends := callback_ends rep stepped
  generalize settled : (⟨⟨recv, received ++ (handed conn event).1, out⟩, none⟩ : Life) = life at ends
  cases ends with
  | @parsed last more finish stays assembled rep' =>
    simp only [Life.mk.injEq, Link.mk.injEq, List.nil_append] at settled
    obtain ⟨⟨rfl, -, rfl⟩, -⟩ := settled
    obtain ⟨after', copies⟩ := assemble_between parcels _ _ fed assembled
    exact ⟨⟨last, rest, rep', assemble_short _ _ assembled, whole, after'⟩, copies⟩
  | error => simp only [Life.mk.injEq, reduceCtorEq, and_false] at settled
  | closed => simp only [Life.mk.injEq, reduceCtorEq, and_false] at settled

end SNFrame.Receive.Parcels
