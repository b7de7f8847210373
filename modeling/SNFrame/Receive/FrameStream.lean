import SNFrame.Receive.Assembler

/-! A stream of frames through the receiver on lists. The invariant cuts the stream between
two frames: the ones before the cut have been dispatched or refused, and the ones after it
begin with the bytes in hand. -/

namespace SNFrame.Receive.FrameStream
open Library.Octet Library.Framing Base.PbBuf Base.Checksum Core.TcpParse Assembler

/-- A frame with its tag, a length field that is right, and a body. -/
structure Framed (frame : List Byte) : Prop where
  sized : format.IsFrame frame
  tag : tagged frame = true
  body : HEAD_LEN < frame.length

/-- The receiver is at a cut of the stream whose last `later` bytes have not been received. -/
structure AtCut (before after : List (List Byte)) (later : List Byte) (state : Assembly)
    (out : List Dispatch) : Prop where
  inHand : state.inHand ++ later = after.flatten
  dispatched : out.map Dispatch.msg = (before.filter goodSum).map fun frame => held frame []

theorem AtCut.bytes {before after : List (List Byte)} {later : List Byte} {state : Assembly}
    {out : List Dispatch} (cut : AtCut before after later state out) :
    out.map (fun each => each.msg.bytes) = before.filter goodSum :=
  calc
    out.map (fun each => each.msg.bytes) = (out.map Dispatch.msg).map IMString.bytes := by
      rw [List.map_map]
      rfl
    _ = before.filter goodSum := by
      rw [cut.dispatched, List.map_map]
      simp [Function.comp_def]

def Progress (frames : List (List Byte)) (later : List Byte) (state : Assembly)
    (out : List Dispatch) : Prop :=
  ∃ before after, frames = before ++ after ∧ AtCut before after later state out

theorem fresh_progress (frames : List (List Byte)) : Progress frames frames.flatten .fresh [] :=
  ⟨[], frames, rfl, rfl, rfl⟩

theorem deliver_held (sids : ServiceID) (ambient : Ambient) (frame : List Byte)
    (body : HEAD_LEN < frame.length) :
    (deliver sids ambient (held frame [])).map Dispatch.msg =
      ([frame].filter goodSum).map fun frame => held frame [] := by
  unfold deliver
  rw [check_held _ _ _ body]
  by_cases good : goodSum frame = true
  · simp only [good, if_true, List.filter_cons_of_pos, List.filter_nil, List.map_cons, List.map_nil]
    split <;> rfl
  · simp [good]

theorem tagged_of_aligned {unread later frame rest : List Byte}
    (aligned : unread ++ later = frame ++ rest) (long : 2 ≤ unread.length)
    (whole : 2 ≤ frame.length) : tagged unread = tagged frame := by
  have b0 : unread.getD 0 0 = frame.getD 0 0 := by
    rw [← getD_append unread later 0 (by omega), aligned, getD_append frame rest 0 (by omega)]
  have b1 : unread.getD 1 0 = frame.getD 1 0 := by
    rw [← getD_append unread later 1 (by omega), aligned, getD_append frame rest 1 (by omega)]
  simp only [tagged, b0, b1]

/-- Bytes in hand are the beginning of the first frame after the cut. -/
theorem exists_head_frame {bytes later : List Byte} {after : List (List Byte)}
    (aligned : bytes ++ later = after.flatten) (some_byte : 0 < bytes.length) :
    ∃ frame rest, after = frame :: rest := by
  cases after with
  | nil =>
    have nothing := congrArg List.length aligned
    simp only [List.length_append, List.flatten_nil, List.length_nil] at nothing
    omega
  | cons frame rest => exact ⟨frame, rest, rfl⟩

section Step
variable (sids : ServiceID) (ambient : Ambient) {frames before rest : List (List Byte)}
  {later frame unread : List Byte} {out : List Dispatch}

/-- The receiver takes the first frame after the cut: the cut moves behind it. -/
theorem progress_consume (cut : frames = before ++ frame :: rest)
    (dispatched : out.map Dispatch.msg = (before.filter goodSum).map fun frame => held frame [])
    (body : HEAD_LEN < frame.length) (aligned : unread ++ later = rest.flatten) :
    Progress frames later ⟨unread, none⟩ (out ++ deliver sids ambient (held frame [])) := by
  refine ⟨before ++ [frame], rest, by simpa using cut, aligned, ?_⟩
  rw [List.map_append, List.filter_append, List.map_append, dispatched,
    deliver_held sids ambient frame body]

theorem step_progress {state : Assembly} (framed : ∀ frame ∈ frames, Framed frame)
    (progress : Progress frames later state out) (long : HEAD_LEN ≤ state.unread.length) :
    match step sids ambient state long with
    | .next state' more => Progress frames later state' (out ++ more)
    | .leave state' => Progress frames later state' out := by
  obtain ⟨before, after, cut, aligned, dispatched⟩ := progress
  have some_byte : 0 < state.unread.length := Nat.lt_of_lt_of_le (by decide) long
  obtain ⟨unread, pending⟩ := state
  simp only at long some_byte
  cases pending with
  | none =>
    simp only [Assembly.inHand, List.nil_append] at aligned
    obtain ⟨frame, rest, rfl⟩ := exists_head_frame aligned some_byte
    have here : Framed frame := framed frame (by simp [cut])
    rw [List.flatten_cons] at aligned
    have tag : tagged unread = true := by
      rw [tagged_of_aligned aligned (le_trans (by decide) long)
        (le_trans (by decide) here.sized.head_le), here.tag]
    have size : frameLen unread = frame.length := format.size_of_aligned aligned here.sized long
    simp only [step, tag, if_true]
    by_cases malloc : ambient.malloc = true
    · by_cases whole : frameLen unread ≤ unread.length
      · simp only [malloc, if_true, dif_pos whole]
        rw [size] at whole ⊢
        rw [take_of_aligned aligned whole]
        exact progress_consume sids ambient cut dispatched here.body (drop_of_aligned aligned whole)
      · simp only [malloc, if_true, dif_neg whole]
        refine ⟨before, frame :: rest, cut, ?_, dispatched⟩
        simpa [Assembly.inHand, Pending.begin] using aligned
    · simp only [malloc, Bool.false_eq_true, if_false, List.append_nil]
      exact ⟨before, frame :: rest, cut, by simpa [Assembly.inHand] using aligned, dispatched⟩
  | some pending =>
    simp only [Assembly.inHand, List.append_assoc] at aligned
    have begun : 0 < pending.got.length := Nat.lt_of_lt_of_le (by decide) pending.headed
    obtain ⟨frame, rest, rfl⟩ := exists_head_frame aligned begun
    have here : Framed frame := framed frame (by simp [cut])
    rw [List.flatten_cons] at aligned
    have size : pending.got.length + pending.less = frame.length := by
      rw [pending.total]
      exact format.size_of_aligned aligned here.sized pending.headed
    simp only [step]
    by_cases whole : pending.less ≤ unread.length
    · simp only [dif_pos whole]
      rw [← List.append_assoc] at aligned
      have arrivedAll : frame.length ≤ (pending.got ++ unread).length := by
        rw [List.length_append]
        omega
      have taken := take_of_aligned aligned arrivedAll
      have dropped := drop_of_aligned aligned arrivedAll
      rw [← size, List.take_length_add_append] at taken
      rw [← size, List.drop_length_add_append] at dropped
      rw [taken]
      exact progress_consume sids ambient cut dispatched here.body dropped
    · simp only [dif_neg whole, List.append_nil]
      refine ⟨before, frame :: rest, cut, ?_, dispatched⟩
      simpa [Assembly.inHand, Pending.extend] using aligned

end Step

/-- The whole loop keeps the receiver at a cut of the stream. -/
theorem assemble_progress {sids : ServiceID} {frames : List (List Byte)} {later : List Byte}
    (framed : ∀ frame ∈ frames, Framed frame) (count : Nat) (ambient : Nat → Ambient)
    {state last : Assembly} {out more : List Dispatch} (progress : Progress frames later state out)
    (ended : assemble sids count ambient state = some (last, more)) :
    Progress frames later last (out ++ more) := by
  refine assemble_induction (Progress frames later) ?_ ?_ count ambient out progress ended
  · intro ambient state long next more so_far here moved
    have kept := step_progress sids ambient framed here long
    rwa [moved] at kept
  · intro ambient state long next so_far here moved
    have kept := step_progress sids ambient framed here long
    rwa [moved] at kept

/-- Bytes that arrive are the next bytes of the stream. -/
theorem progress_receive {frames : List (List Byte)} {chunk later : List Byte} {state : Assembly}
    {out : List Dispatch} (progress : Progress frames (chunk ++ later) state out) :
    Progress frames later { state with unread := state.unread ++ chunk } out := by
  obtain ⟨before, after, cut, aligned, dispatched⟩ := progress
  refine ⟨before, after, cut, ?_, dispatched⟩
  simpa only [Assembly.inHand, List.append_assoc] using aligned

/-! ### What has arrived -/

def BeginsWithFrame (bytes : List Byte) : Prop :=
  HEAD_LEN ≤ bytes.length ∧ frameLen bytes ≤ bytes.length

/-- Nothing complete is held back. -/
def Settled (state : Assembly) : Prop :=
  match state.pending with
  | none => ¬BeginsWithFrame state.unread
  | some pending => state.unread.length < pending.less

section Arrived
variable {before after : List (List Byte)} {received later : List Byte} {state : Assembly}
  {out : List Dispatch}

theorem received_of_cut (total : received ++ later = (before ++ after).flatten)
    (cut : AtCut before after later state out) : received = before.flatten ++ state.inHand := by
  have whole : received ++ later = before.flatten ++ state.inHand ++ later := by
    rw [total, List.flatten_append, List.append_assoc, cut.inHand]
  exact List.append_cancel_right whole

/-- With less than a header unread, only a frame whose last bytes are unread is held back. -/
theorem settled_iff_arrived (framed : ∀ frame ∈ after, Framed frame)
    (cut : AtCut before after later state out) (short : state.unread.length < HEAD_LEN) :
    Settled state ↔ arrived after state.inHand.length = [] := by
  have aligned := cut.inHand
  rw [arrived_eq_nil_iff]
  obtain ⟨unread, pending⟩ := state
  cases pending with
  | none =>
    have settled : ¬BeginsWithFrame unread :=
      fun both => Nat.not_le.mpr short both.1
    refine iff_of_true settled ?_
    intro frame first
    have headLe : HEAD_LEN ≤ frame.length :=
      (framed frame (List.mem_of_mem_head? first)).sized.head_le
    exact Nat.lt_of_lt_of_le short headLe
  | some pending =>
    simp only [Assembly.inHand, List.append_assoc] at aligned
    have begun : 0 < pending.got.length := Nat.lt_of_lt_of_le (by decide) pending.headed
    obtain ⟨frame, rest, rfl⟩ := exists_head_frame aligned begun
    have here : Framed frame := framed frame List.mem_cons_self
    have size : pending.got.length + pending.less = frame.length := by
      rw [pending.total]
      exact format.size_of_aligned aligned here.sized pending.headed
    simp only [Settled, Assembly.inHand, List.length_append, List.head?_cons, Option.mem_some_iff,
      forall_eq']
    omega

end Arrived

end SNFrame.Receive.FrameStream
