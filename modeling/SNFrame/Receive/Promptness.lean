import SNFrame.Receive.Session

/-! How soon a frame is dispatched. The loop guard of `parse`, which waits for a header, also
holds back the last bytes of a partial frame when they are fewer than a header's. -/

namespace SNFrame.Receive.Promptness
open Library.Octet Library.Framing Library.Transition Base.PbBuf Base.Checksum Core.Receiving
open Core.TcpParse Assembler Refinement FrameStream Session

/-- No complete frame is held back: neither one that is being collected nor one at the start
of `buf`, and every frame that has arrived has been dispatched. -/
structure Prompt (frames : List (List Byte)) (link : Link) : Prop where
  tail : 0 < link.conn.lessPktLen → link.conn.bufLen < link.conn.lessPktLen
  idle : link.conn.lessPktLen = 0 → ¬BeginsWithFrame (unreadBytes link.conn)
  delivered : link.dispatched.map (fun each => each.msg.bytes) = arrived frames link.received.length

/-- The read does not complete a frame with less than a header's length in `buf`. -/
def NoShortTail (link : Link) (read : Read) : Prop :=
  ¬(0 < link.conn.lessPktLen ∧ link.conn.lessPktLen ≤ link.conn.bufLen + read.chunk.length ∧
    link.conn.bufLen + read.chunk.length < HEAD_LEN)

theorem prompt_iff_settled {frames : List (List Byte)} {link : Link} {state : Assembly}
    (framed : ∀ frame ∈ frames, Framed frame) (good : ∀ frame ∈ frames, goodSum frame = true)
    (here : InStream frames link state) : Prompt frames link ↔ Settled state := by
  obtain ⟨rep, short, later, total, before, after, rfl, cut⟩ := here
  have count := rep.count
  have pkt := rep.pkt
  have unread := unreadBytes_represents rep
  constructor
  · intro prompt
    unfold Settled
    cases started : state.pending with
    | none =>
      rw [started] at pkt
      simpa only [unread] using prompt.idle pkt.1
    | some pending =>
      rw [started] at pkt
      have less := pkt.1
      have positive := pending.short
      have tail := prompt.tail (by omega)
      simp only
      omega
  · intro settled
    have afterFramed : ∀ frame ∈ after, Framed frame :=
      fun frame inside => framed frame (List.mem_append_right _ inside)
    have nothing := (settled_iff_arrived afterFramed cut short).mp settled
    refine ⟨?_, ?_, ?_⟩
    · intro collects
      unfold Settled at settled
      cases started : state.pending with
      | none =>
        rw [started] at pkt
        have idle := pkt.1
        omega
      | some pending =>
        rw [started] at pkt settled
        have less := pkt.1
        simp only at settled
        omega
    · intro _ both
      rw [unread] at both
      exact Nat.not_le.mpr short both.1
    · have received := received_of_cut total cut
      rw [cut.bytes, received, List.length_append, arrived_append, nothing, List.append_nil]
      exact List.filter_eq_self.mpr fun frame inside => good frame (List.mem_append_left _ inside)

theorem noShortTail_iff {link : Link} {read : Read} {state : Assembly}
    (rep : Represents 0 link.conn state) :
    NoShortTail link read ↔ (state.unread.length + read.chunk.length < HEAD_LEN →
      ∀ pending, state.pending = some pending →
        state.unread.length + read.chunk.length < pending.less) := by
  have count := rep.count
  have pkt := rep.pkt
  unfold NoShortTail
  cases started : state.pending with
  | none =>
    rw [started] at pkt
    have idle := pkt.1
    simp [idle]
  | some pending =>
    rw [started] at pkt
    have less := pkt.1
    have positive := pending.short
    simp only [Option.some.injEq, forall_eq']
    omega

theorem serve_prompt_iff {sids : ServiceID} {frames : List (List Byte)} {link next : Link}
    {read : Read} {state : Assembly} (framed : ∀ frame ∈ frames, Framed frame)
    (good : ∀ frame ∈ frames, goodSum frame = true) (here : InStream frames link state)
    (cuts : Cuts frames link read) (served : serve sids link read = some next) :
    Prompt frames next ↔ NoShortTail link read := by
  obtain ⟨last, out, ended, there⟩ := serve_inStream framed here cuts served
  rw [prompt_iff_settled framed good there, noShortTail_iff here.rep, ← List.length_append]
  by_cases short : (state.unread ++ read.chunk).length < HEAD_LEN
  · -- the loop guard keeps `parse` from doing anything
    rw [assemble_idle _ _ short] at ended
    cases ended
    unfold Settled
    cases state.pending with
    | none => exact iff_of_true (fun both => Nat.not_le.mpr short both.1) fun _ _ other => nomatch other
    | some pending => simp only [short, forall_const, Option.some.injEq, forall_eq']
  · have drained := assemble_drained _ _ (Nat.not_lt.mp short) ended
    have settled : Settled last := by
      unfold Settled
      cases started : last.pending with
      | none => exact fun both => Nat.not_le.mpr there.short both.1
      | some pending =>
        rw [started] at drained
        obtain drained | drained := drained
        · cases drained
        · simp only [drained, List.length_nil]
          exact pending.short
    exact iff_of_true settled fun other => absurd other short

/-- A stream of valid frames is dispatched promptly in exactly the runs in which no read
completes a frame while less than a header's length is in `buf`. -/
theorem prompt_iff_noShortTail (sids : ServiceID) (frames : List (List Byte))
    (framed : ∀ frame ∈ frames, Framed frame) (good : ∀ frame ∈ frames, goodSum frame = true)
    (reads : List Read) (link : Link) (cut : Throughout (serve sids) (Cuts frames) .fresh reads)
    (reached : run (serve sids) .fresh reads = some link) :
    Always (serve sids) (Prompt frames) .fresh reads ↔
      Throughout (serve sids) NoShortTail .fresh reads := by
  refine always_iff_throughout (fun link => ∃ state, InStream frames link state) _ _ _ ?_ ?_
    ⟨.fresh, fresh_inStream frames⟩ ?_ cut reached
  · rintro link read next ⟨state, here⟩ cuts served
    obtain ⟨last, -, -, there⟩ := serve_inStream framed here cuts served
    exact ⟨last, there⟩
  · rintro link read next ⟨state, here⟩ - cuts served
    exact serve_prompt_iff framed good here cuts served
  · exact (prompt_iff_settled framed good (fresh_inStream frames)).mpr fun both =>
      absurd both.1 (by decide)

theorem prompt_iff_noShortTail_one_read :
    ∃ link, run (serve ⟨1, 2, 3, 4⟩) .fresh [⟨tenZeroes, roomy, 37⟩] = some link ∧
      (Always (serve ⟨1, 2, 3, 4⟩) (Prompt [tenZeroes]) .fresh [⟨tenZeroes, roomy, 37⟩] ↔
        Throughout (serve ⟨1, 2, 3, 4⟩) NoShortTail .fresh [⟨tenZeroes, roomy, 37⟩]) := by
  have fits : Read.Fits ⟨tenZeroes, roomy, 37⟩ Link.fresh.conn :=
    ⟨by decide, fun _ => rfl, by decide⟩
  obtain ⟨link, served⟩ := serve_returns ⟨1, 2, 3, 4⟩ fresh_represents fits
  have reached := run_cons.mpr ⟨link, served, run_nil link⟩
  exact ⟨link, reached, prompt_iff_noShortTail ⟨1, 2, 3, 4⟩ [tenZeroes]
    (by simpa using tenZeroes_framed) (by decide) _ link ⟨⟨[], by decide⟩, fun _ _ => trivial⟩
    reached⟩

/-- Read as 30 bytes and 7 bytes, a valid frame has arrived and stays in `pkt` and `buf`. -/
theorem short_tail_held_back :
    Framed tenZeroes ∧ goodSum tenZeroes = true ∧
      ∃ link, run (serve ⟨1, 2, 3, 4⟩) .fresh
          [⟨tenZeroes.take 30, roomy, 30⟩, ⟨tenZeroes.drop 30, roomy, 37⟩] = some link ∧
        link.received = tenZeroes ∧ link.dispatched = [] ∧ ¬Prompt [tenZeroes] link := by
  refine ⟨tenZeroes_framed, by decide, ?_⟩
  have ends : (run (serve ⟨1, 2, 3, 4⟩) .fresh
        [⟨tenZeroes.take 30, roomy, 30⟩, ⟨tenZeroes.drop 30, roomy, 37⟩]).map
      (fun link => (link.received, link.dispatched, link.conn.lessPktLen, link.conn.bufLen)) =
        some (tenZeroes, [], 7, 7) := by
    decide +kernel
  obtain ⟨link, reached, fields⟩ := Option.map_eq_some_iff.mp ends
  simp only [Prod.mk.injEq] at fields
  obtain ⟨received, dispatched, less, bufLen⟩ := fields
  refine ⟨link, reached, received, dispatched, fun prompt => ?_⟩
  have tail := prompt.tail (by omega)
  omega

end SNFrame.Receive.Promptness
