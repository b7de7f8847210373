import Mathlib.Data.List.GetD
import SNFrame.Receive.Assembler

/-! `TcpServer::parse`, with its pointer into `buf`, its counters and its range checks, does
what the receiver on lists does; in particular none of its accesses is outside a buffer. -/

namespace SNFrame.Receive.Refinement
open Library.Octet Library.Framing Base.PbBuf Base.Checksum Core.Receiving Core.TcpParse Assembler

/-- The message `pkt` while a frame is collected in it: the rest of its block is still unset. -/
def collecting (pending : Pending) (tail : List Byte) : IMString :=
  ⟨some (pending.got ++ tail), (pending.got.length + pending.less : Nat), (pending.got.length : Nat)⟩

def PktRepresents (lessPktLen : Int) (pkt : IMString) : Option Pending → Prop
  | none => lessPktLen = 0 ∧ pkt = .null
  | some pending => lessPktLen = pending.less ∧
      ∃ tail : List Byte, tail.length = pending.less ∧ pkt = collecting pending tail

/-- The connection, read from `buf + data` on, is the given state. -/
structure Represents (data : Int) (conn : RecvPkt) (state : Assembly) : Prop where
  start : 0 ≤ data
  room : data + conn.bufLen ≤ RECV_BUF_LEN
  count : conn.bufLen = state.unread.length
  unread : (conn.buf.bytes.drop data.toNat).take state.unread.length = state.unread
  pkt : PktRepresents conn.lessPktLen conn.pkt state.pending

theorem fresh_represents : Represents 0 .fresh .fresh where
  start := le_refl _
  room := by decide
  count := rfl
  unread := rfl
  pkt := ⟨rfl, rfl⟩

section Reading
variable {data : Int} {conn : RecvPkt} {state : Assembly} (rep : Represents data conn state)
include rep

theorem byte_represents (i : Nat) (inside : i < state.unread.length) :
    conn.buf.byte (data + i) = .ok (state.unread.getD i 0) := by
  have start := rep.start
  have room := rep.room
  have count := rep.count
  have offset : (data + i).toNat = data.toNat + i := by omega
  have here : (conn.buf.bytes.getD (data + i).toNat 0) = state.unread.getD i 0 := by
    conv_rhs => rw [← rep.unread]
    simp only [List.getD, List.getElem?_take, if_pos inside, List.getElem?_drop, offset]
  rw [RecvBuf.byte, if_pos (by omega), here]

theorem slice_represents (len : Nat) (inside : len ≤ state.unread.length) :
    conn.buf.slice data len = .ok (state.unread.take len) := by
  have start := rep.start
  have room := rep.room
  have count := rep.count
  have here : (conn.buf.bytes.drop data.toNat).take len = state.unread.take len := by
    conv_rhs => rw [← rep.unread]
    rw [List.take_take, Nat.min_eq_left inside]
  rw [RecvBuf.slice, if_pos (by omega), Int.toNat_natCast, here]

/-- Reading on: the pointer moves over bytes that are no longer counted. -/
theorem advance_represents (len : Nat) (inside : len ≤ state.unread.length) :
    Represents (data + len) { conn with bufLen := conn.bufLen - len }
      { state with unread := state.unread.drop len } where
  start := by
    have start := rep.start
    omega
  room := by
    have room := rep.room
    simp only
    omega
  count := by
    have count := rep.count
    simp only [List.length_drop]
    omega
  unread := by
    have offset : (data + len).toNat = data.toNat + len := by
      have start := rep.start
      omega
    conv_rhs => rw [← rep.unread]
    simp only [List.length_drop, offset, List.drop_take, List.drop_drop]
  pkt := rep.pkt

theorem atTag_represents (long : 2 ≤ state.unread.length) :
    atTag conn.buf data = .ok (tagged state.unread) := by
  have b0 : conn.buf.byte data = .ok (state.unread.getD 0 0) := by
    simpa only [Nat.cast_zero, Int.add_zero] using byte_represents rep 0 (by omega)
  have b1 : conn.buf.byte (data + 1) = .ok (state.unread.getD 1 0) :=
    byte_represents rep 1 (by omega)
  by_cases first : state.unread.getD 0 0 = TAG_HEAD_1
  · simp only [atTag, tagged, b0, b1, bind, Except.bind, first, if_true, decide_true, Bool.true_and]
  · simp only [atTag, tagged, b0, bind, Except.bind, first, if_false, decide_false, Bool.false_and]

theorem dataLenAt_represents (long : HEAD_LEN ≤ state.unread.length) :
    dataLenAt conn.buf data = .ok (lenField state.unread) := by
  simp only [HEAD_LEN] at long
  have b24 : conn.buf.byte (data + 24) = .ok (state.unread.getD 24 0) :=
    byte_represents rep 24 (by omega)
  have b25 : conn.buf.byte (data + 25) = .ok (state.unread.getD 25 0) :=
    byte_represents rep 25 (by omega)
  simp only [dataLenAt, lenField, b24, b25, bind, Except.bind]

/-- The search finds the first tag of what is unread, or runs to its end. -/
theorem findTag_represents (count i : Nat) (whole : i + count + 1 = state.unread.length) :
    findTag conn.buf data count i =
      .ok (match firstTag (state.unread.drop i) with
        | some j => ((i + j : Nat) : Int)
        | none => ((i + count : Nat) : Int)) := by
  induction count generalizing i with
  | zero =>
    have last : (state.unread.drop i).length = 1 := by
      rw [List.length_drop]
      omega
    obtain ⟨b0, single⟩ := List.length_eq_one_iff.mp last
    simp only [findTag, single, firstTag, Nat.add_zero]
  | succ count ih =>
    have step1 : state.unread.drop i = state.unread.getD i 0 :: state.unread.drop (i + 1) := by
      rw [List.drop_eq_getElem_cons (show i < state.unread.length by omega), List.getD_eq_getElem]
    have step2 : state.unread.drop (i + 1) =
        state.unread.getD (i + 1) 0 :: state.unread.drop (i + 2) := by
      rw [List.drop_eq_getElem_cons (show i + 1 < state.unread.length by omega),
        List.getD_eq_getElem]
    have b0 := byte_represents rep i (by omega)
    have b1 : conn.buf.byte (data + i + 1) = .ok (state.unread.getD (i + 1) 0) := by
      rw [Int.add_assoc]
      exact byte_represents rep (i + 1) (by omega)
    have rest := ih (i + 1) (by omega)
    rw [step2] at rest
    by_cases here : state.unread.getD i 0 = TAG_HEAD_1 ∧ state.unread.getD (i + 1) 0 = TAG_HEAD_2
    · simp only [findTag, b0, b1, bind, Except.bind, if_pos here.1, if_pos here.2]
      simp only [step1, step2, firstTag, if_pos here, Nat.add_zero]
    · have later : findTag conn.buf data (count + 1) i = findTag conn.buf data count (i + 1) := by
        by_cases first : state.unread.getD i 0 = TAG_HEAD_1
        · simp only [findTag, b0, b1, bind, Except.bind, if_pos first,
            if_neg fun second => here ⟨first, second⟩]
        · simp only [findTag, b0, bind, Except.bind, if_neg first]
      rw [later]
      refine rest.trans ?_
      rw [step1, step2]
      simp only [firstTag, if_neg here]
      cases firstTag (state.unread.getD (i + 1) 0 :: state.unread.drop (i + 2)) with
      | none =>
        simp only [Option.map_none, Except.ok.injEq]
        omega
      | some j =>
        simp only [Option.map_some, Except.ok.injEq]
        omega

end Reading

/-! ### The branches of the loop -/

theorem putMsg_fresh (heap : Heap) (malloc : heap.malloc = true) (len : Nat) (source : List Byte)
    (fits : source.length ≤ len) :
    putMsg (bufalloc heap len).2 0 source =
      .ok ⟨some (source ++ List.replicate (len - source.length) 0), len, 0⟩ := by
  have room : (0 : Int) ≤ 0 ∧ 0 + (source.length : Int) ≤ (List.replicate len (0 : Byte)).length := by
    rw [List.length_replicate]
    omega
  simp only [putMsg, bufalloc, malloc, if_true, Int.toNat_natCast, if_pos room, splice,
    Int.toNat_zero, List.take_zero, List.nil_append, Nat.zero_add, List.drop_replicate]

theorem putMsg_collecting (pending : Pending) (tail source : List Byte)
    (unset : tail.length = pending.less) (fits : source.length ≤ pending.less) :
    putMsg (collecting pending tail) pending.got.length source =
      .ok ⟨some (pending.got ++ source ++ tail.drop source.length),
        (pending.got.length + pending.less : Nat), pending.got.length⟩ := by
  have room : (0 : Int) ≤ pending.got.length ∧
      (pending.got.length : Int) + source.length ≤ (pending.got ++ tail).length := by
    rw [List.length_append]
    omega
  simp only [putMsg, collecting, if_pos room, splice, Int.toNat_natCast, List.take_left,
    List.drop_append]
  rw [List.drop_eq_nil_of_le (Nat.le_add_right ..), Nat.add_sub_cancel_left, List.nil_append]

inductive FlowRepresents : Flow → Move → Prop where
  | next {data : Int} {conn : RecvPkt} {state : Assembly} {out : List Dispatch}
      (rep : Represents data conn state) : FlowRepresents (.next data conn out) (.next state out)
  | leave {data : Int} {conn : RecvPkt} {state : Assembly}
      (rep : Represents data conn state) : FlowRepresents (.leave data conn []) (.leave state)

section Branches
variable {data : Int} {conn : RecvPkt} {state : Assembly} (rep : Represents data conn state)
  (sids : ServiceID) (ambient : Ambient)
include rep

theorem wholeFrame_refines (idle : state.pending = none)
    (whole : frameLen state.unread ≤ state.unread.length) (malloc : ambient.malloc = true) :
    ∃ flow, wholeFrame sids ambient data conn (frameLen state.unread : Nat) = .ok flow ∧
      FlowRepresents flow (.next ⟨state.unread.drop (frameLen state.unread), none⟩
        (deliver sids ambient (held (state.unread.take (frameLen state.unread)) []))) := by
  have size : (state.unread.take (frameLen state.unread)).length = frameLen state.unread := by
    rw [List.length_take, Nat.min_eq_left whole]
  have copied := putMsg_fresh ambient.toHeap malloc (frameLen state.unread) _ (le_of_eq size)
  have success : (bufalloc ambient.toHeap (frameLen state.unread : Nat)).1 = true := by
    rw [bufalloc, if_pos malloc]
  have moved := advance_represents rep (frameLen state.unread) whole
  rw [idle] at moved
  have count := rep.count
  have lowered := lower_ok (show (frameLen state.unread : Int) ≤ conn.bufLen by omega)
  refine ⟨_, ?_, .next moved⟩
  simp only [wholeFrame, success, if_true, slice_represents rep _ whole, copied, lowered, bind,
    Except.bind, held, List.append_nil, size, Nat.sub_self, List.replicate_zero]

theorem startPartial_refines (long : HEAD_LEN ≤ state.unread.length)
    (partly : ¬frameLen state.unread ≤ state.unread.length) (malloc : ambient.malloc = true) :
    ∃ flow, startPartial ambient data conn (frameLen state.unread : Nat) = .ok flow ∧
      FlowRepresents flow (.leave ⟨[], some (.begin state.unread long partly)⟩) := by
  have fits : state.unread.length ≤ frameLen state.unread := by omega
  have copied := putMsg_fresh ambient.toHeap malloc (frameLen state.unread) state.unread fits
  have success : (bufalloc ambient.toHeap (frameLen state.unread : Nat)).1 = true := by
    rw [bufalloc, if_pos malloc]
  have source := slice_represents rep state.unread.length le_rfl
  rw [List.take_length, ← rep.count] at source
  have total : state.unread.length + (frameLen state.unread - state.unread.length) =
      frameLen state.unread := by omega
  have collects : Represents data
      { conn with
        pkt := ⟨some (state.unread ++
          List.replicate (frameLen state.unread - state.unread.length) 0),
          (frameLen state.unread : Nat), conn.bufLen⟩
        lessPktLen := (frameLen state.unread : Nat) - conn.bufLen
        bufLen := 0 } ⟨[], some (.begin state.unread long partly)⟩ := by
    have start := rep.start
    have room := rep.room
    have count := rep.count
    refine ⟨start, by simp only; omega, rfl, rfl, ?_,
      List.replicate (frameLen state.unread - state.unread.length) 0, List.length_replicate, ?_⟩
    · simp only [Pending.begin]
      omega
    · simp only [collecting, Pending.begin, total, count]
  have count := rep.count
  have lowered := lower_ok (show conn.bufLen ≤ (frameLen state.unread : Int) by omega)
  exact ⟨_, by
    simp only [startPartial, success, if_true, source, copied, lowered, bind, Except.bind],
    .leave collects⟩

theorem clear_represents (cleared : RecvPkt) : Represents data (clear cleared) .fresh := by
  have start := rep.start
  have room := rep.room
  have count := rep.count
  exact ⟨start, by simp only [clear]; omega, rfl, rfl, rfl, rfl⟩

/-- The two ends of a search that finds a tag. -/
theorem resync_found (long : HEAD_LEN ≤ state.unread.length) {i : Nat}
    (found : firstTag state.unread = some i) :
    resync data conn = .ok (if i = state.unread.length - i - 1 then
      .leave (data + i) (clear conn) []
    else .next (data + i) { conn with bufLen := conn.bufLen - i } []) := by
  simp only [HEAD_LEN] at long
  have count := rep.count
  have steps : (conn.bufLen - 1).toNat = state.unread.length - 1 := by omega
  have search := findTag_represents rep (state.unread.length - 1) 0 (by omega)
  simp only [List.drop_zero, Nat.zero_add, Nat.cast_zero, found] at search
  have inside := firstTag_lt _ _ found
  have reached : ((i : Nat) : Int) < conn.bufLen - 1 := by omega
  have lowered := lower_ok (show ((i : Nat) : Int) ≤ conn.bufLen by omega)
  by_cases slip : i = state.unread.length - i - 1
  · rw [if_pos slip]
    simp only [resync, steps, search, bind, Except.bind, if_pos reached, lowered]
    rw [if_pos (by omega)]
  · rw [if_neg slip]
    simp only [resync, steps, search, bind, Except.bind, if_pos reached, lowered]
    rw [if_neg (by omega)]

theorem resync_lost (long : HEAD_LEN ≤ state.unread.length)
    (missing : firstTag state.unread = none) :
    resync data conn = .ok (.leave data (clear conn) []) := by
  simp only [HEAD_LEN] at long
  have count := rep.count
  have steps : (conn.bufLen - 1).toNat = state.unread.length - 1 := by omega
  have search := findTag_represents rep (state.unread.length - 1) 0 (by omega)
  have last : ((state.unread.length - 1 : Nat) : Int) = conn.bufLen - 1 := by omega
  simp only [List.drop_zero, Nat.zero_add, Nat.cast_zero, missing, last] at search
  simp only [resync, steps, search, bind, Except.bind, lt_irrefl, if_false, if_true]

theorem resync_refines (idle : state.pending = none) (long : HEAD_LEN ≤ state.unread.length) :
    ∃ flow, resync data conn = .ok flow ∧
      FlowRepresents flow (match firstTag state.unread with
        | some i =>
            if i = state.unread.length - i - 1 then .leave .fresh
            else .next ⟨state.unread.drop i, none⟩ []
        | none => .leave .fresh) := by
  cases found : firstTag state.unread with
  | none => exact ⟨_, resync_lost rep long found, .leave (clear_represents rep conn)⟩
  | some i =>
    have inside := firstTag_lt _ _ found
    have moved := advance_represents rep i (by omega)
    rw [idle] at moved
    refine ⟨_, resync_found rep long found, ?_⟩
    by_cases slip : i = state.unread.length - i - 1
    · simp only [if_pos slip]
      exact .leave (clear_represents moved conn)
    · simp only [if_neg slip]
      exact .next moved

theorem finishPartial_refines (pending : Pending) (started : state.pending = some pending)
    (whole : pending.less ≤ state.unread.length) :
    ∃ flow, finishPartial sids ambient data conn = .ok flow ∧
      FlowRepresents flow (.next ⟨state.unread.drop pending.less, none⟩
        (deliver sids ambient (held (pending.got ++ state.unread.take pending.less) []))) := by
  have pkt := rep.pkt
  rw [started] at pkt
  obtain ⟨less, tail, unset, pktIs⟩ := pkt
  have size : (state.unread.take pending.less).length = pending.less := by
    rw [List.length_take, Nat.min_eq_left whole]
  have copied := putMsg_collecting pending tail _ unset (le_of_eq size)
  rw [size, List.drop_eq_nil_of_le (le_of_eq unset), List.append_nil] at copied
  have moved := advance_represents rep pending.less whole
  have emptied : Represents (data + pending.less)
      { conn with pkt := .null, lessPktLen := 0, bufLen := conn.bufLen - pending.less }
      ⟨state.unread.drop pending.less, none⟩ :=
    ⟨moved.start, moved.room, moved.count, moved.unread, rfl, rfl⟩
  refine ⟨_, ?_, .next emptied⟩
  have source := slice_represents rep _ whole
  have count := rep.count
  have lowered := lower_ok (show (pending.less : Int) ≤ conn.bufLen by omega)
  simp only [collecting] at pktIs
  simp only [finishPartial, less, source, pktIs, bind, Except.bind]
  simp only [collecting] at copied
  simp only [copied, lowered]
  simp only [held, List.append_nil, List.length_append, size, Nat.cast_add]

theorem extendPartial_refines (pending : Pending) (started : state.pending = some pending)
    (partly : ¬pending.less ≤ state.unread.length) :
    ∃ flow, extendPartial data conn = .ok flow ∧
      FlowRepresents flow (.next ⟨[], some (pending.extend state.unread partly)⟩ []) := by
  have pkt := rep.pkt
  rw [started] at pkt
  obtain ⟨less, tail, unset, pktIs⟩ := pkt
  have copied := putMsg_collecting pending tail state.unread unset (by omega)
  have source := slice_represents rep state.unread.length le_rfl
  rw [List.take_length, ← rep.count] at source
  have collects : Represents data
      { conn with
        pkt := ⟨some (pending.got ++ state.unread ++ tail.drop state.unread.length),
          (pending.got.length + pending.less : Nat), pending.got.length + conn.bufLen⟩
        lessPktLen := conn.lessPktLen - conn.bufLen
        bufLen := 0 } ⟨[], some (pending.extend state.unread partly)⟩ := by
    have start := rep.start
    have room := rep.room
    have count := rep.count
    refine ⟨start, by simp only; omega, rfl, rfl, ?_, tail.drop state.unread.length, ?_, ?_⟩
    · simp only [Pending.extend]
      omega
    · simp only [Pending.extend, List.length_drop, unset]
    · have total : pending.got.length + state.unread.length + (pending.less - state.unread.length) =
          pending.got.length + pending.less := by omega
      simp only [collecting, Pending.extend, List.length_append, total, count, Nat.cast_add]
  have count := rep.count
  have lowered := lower_ok (show conn.bufLen ≤ conn.lessPktLen by omega)
  refine ⟨_, ?_, .next collects⟩
  simp only [collecting] at pktIs copied
  simp only [extendPartial, source, pktIs, bind, Except.bind]
  simp only [copied, lowered]

/-- No buffer for a frame that begins here: the branch falls through to the loop guard. -/
theorem noBuffer_refines (idle : state.pending = none) (failed : ambient.malloc = false)
    (pktLen : Int) :
    ∃ flow, (if conn.bufLen ≥ pktLen then wholeFrame sids ambient data conn pktLen
        else startPartial ambient data conn pktLen) = .ok flow ∧
      FlowRepresents flow (.next ⟨state.unread, none⟩ []) := by
  have pkt := rep.pkt
  rw [idle] at pkt
  have same : state = ⟨state.unread, none⟩ := by rw [← idle]
  have unchanged : { conn with pkt := IMString.null } = conn := by rw [← pkt.2]
  refine ⟨.next data conn [], ?_, .next (same ▸ rep)⟩
  split
  · simp only [wholeFrame, bufalloc, failed, Bool.false_eq_true, if_false]
  · simp only [startPartial, bufalloc, failed, Bool.false_eq_true, if_false, unchanged]

/-- One iteration of the source is one step of the receiver on lists, without a fault. -/
theorem parseIter_refines (long : HEAD_LEN ≤ state.unread.length) :
    ∃ flow, parseIter sids ambient data conn = .ok flow ∧
      FlowRepresents flow (step sids ambient state long) := by
  have count := rep.count
  have enough : conn.bufLen ≥ (HEAD_LEN : Int) := by omega
  have pkt := rep.pkt
  cases started : state.pending with
  | none =>
    rw [started] at pkt
    have tag := atTag_represents rep (le_trans (by decide) long)
    simp only [parseIter, pkt.1, if_true, tag, bind, Except.bind, step, started]
    by_cases here : tagged state.unread = true
    · simp only [here, if_true, if_pos enough, dataLenAt_represents rep long, ← Nat.cast_add]
      change ∃ flow, (if conn.bufLen ≥ (frameLen state.unread : Nat) then
        wholeFrame sids ambient data conn (frameLen state.unread : Nat) else
        startPartial ambient data conn (frameLen state.unread : Nat)) = .ok flow ∧ _
      by_cases malloc : ambient.malloc = true
      · rw [if_pos malloc]
        by_cases whole : frameLen state.unread ≤ state.unread.length
        · rw [if_pos (by omega), dif_pos whole]
          exact wholeFrame_refines rep sids ambient started whole malloc
        · rw [if_neg (by omega), dif_neg whole]
          exact startPartial_refines rep ambient long whole malloc
      · rw [if_neg malloc]
        exact noBuffer_refines rep sids ambient started (Bool.eq_false_iff.mpr malloc) _
    · simp only [here, Bool.false_eq_true, if_false]
      exact resync_refines rep started long
  | some pending =>
    rw [started] at pkt
    have positive := pending.short
    have less := pkt.1
    simp only [parseIter, step, started]
    rw [if_neg (by omega)]
    by_cases whole : pending.less ≤ state.unread.length
    · rw [if_pos (by omega), dif_pos whole]
      exact finishPartial_refines rep sids ambient pending started whole
    · rw [if_neg (by omega), dif_neg whole]
      exact extendPartial_refines rep pending started whole

end Branches

/-! ### The whole call -/

/-- What the loop answers, out of the given iterations or with a connection, against what the
receiver on lists answers. -/
inductive EndRepresents (out : List Dispatch) :
    Option (Int × RecvPkt × List Dispatch) → Option (Assembly × List Dispatch) → Prop where
  | unfinished : EndRepresents out none none
  | ended {data : Int} {conn : RecvPkt} {last : Assembly} {more : List Dispatch}
      (rep : Represents data conn last) :
      EndRepresents out (some (data, conn, out ++ more)) (some (last, more))

theorem EndRepresents.stays (out : List Dispatch) {data : Int} {conn : RecvPkt} {state : Assembly}
    (rep : Represents data conn state) :
    EndRepresents out (some (data, conn, out)) (some (state, [])) := by
  have ends : EndRepresents out (some (data, conn, out ++ [])) (some (state, [])) := .ended rep
  rwa [List.append_nil] at ends

theorem EndRepresents.after {out first : List Dispatch}
    {found : Option (Int × RecvPkt × List Dispatch)} {expected : Option (Assembly × List Dispatch)}
    (rest : EndRepresents (out ++ first) found expected) :
    EndRepresents out found (expected.map fun rest => (rest.1, first ++ rest.2)) := by
  cases rest with
  | unfinished => exact .unfinished
  | ended rep =>
    rw [List.append_assoc]
    exact .ended rep

theorem parseLoop_refines (sids : ServiceID) (fuel : Nat) (ambient : Nat → Ambient) {data : Int}
    {conn : RecvPkt} {state : Assembly} (rep : Represents data conn state) (out : List Dispatch) :
    ∃ found, parseLoop sids fuel ambient data conn out = .ok found ∧
      EndRepresents out found (assemble sids fuel ambient state) := by
  have count := rep.count
  induction fuel generalizing ambient data conn state out with
  | zero =>
    by_cases long : HEAD_LEN ≤ state.unread.length
    · refine ⟨none, by rw [parseLoop, if_neg (by omega)], ?_⟩
      rw [assemble, dif_pos long]
      exact .unfinished
    · refine ⟨_, by rw [parseLoop, if_pos (by omega)], ?_⟩
      rw [assemble, dif_neg long]
      exact .stays out rep
  | succ fuel ih =>
    rw [parseLoop, assemble]
    by_cases long : HEAD_LEN ≤ state.unread.length
    · obtain ⟨flow, runs, matched⟩ := parseIter_refines rep sids (ambient 0) long
      rw [if_neg (by omega), dif_pos long]
      simp only [runs, bind, Except.bind]
      cases moved : step sids (ambient 0) state long with
      | next later more =>
        rw [moved] at matched
        cases matched with
        | next rep' =>
          obtain ⟨found, rest, ends⟩ :=
            ih (fun n => ambient (n + 1)) rep' (out ++ more) rep'.count
          exact ⟨found, rest, ends.after⟩
      | leave later =>
        rw [moved] at matched
        cases matched with
        | leave rep' => exact ⟨_, rfl, .ended rep'⟩
    · refine ⟨_, by rw [if_pos (by omega)], ?_⟩
      rw [dif_neg long]
      exact .stays out rep

theorem slice_splice_zero (buf : RecvBuf) (source : List Byte)
    (fits : source.length ≤ RECV_BUF_LEN) :
    ∃ moved, buf.put 0 source = .ok moved ∧
      (moved.bytes.drop 0).take source.length = source := by
  have room : (0 : Int) ≤ 0 ∧ 0 + (source.length : Int) ≤ RECV_BUF_LEN := by omega
  refine ⟨_, by rw [RecvBuf.put, dif_pos room], ?_⟩
  simp only [splice, Int.toNat_zero, List.take_zero, List.nil_append, List.drop_zero,
    List.take_left']

theorem moveDown_represents {data : Int} {conn : RecvPkt} {state : Assembly}
    (rep : Represents data conn state) :
    ∃ conn', moveDown data conn = .ok conn' ∧ Represents 0 conn' state := by
  have start := rep.start
  have room := rep.room
  have count := rep.count
  by_cases move : conn.bufLen ≠ 0 ∧ data ≠ 0
  · have source := slice_represents rep state.unread.length le_rfl
    rw [List.take_length, ← count] at source
    obtain ⟨buf, put, here⟩ := slice_splice_zero conn.buf state.unread (by omega)
    refine ⟨{ conn with buf := buf }, ?_, le_rfl, by simp only; omega, count, here, rep.pkt⟩
    rw [moveDown, if_pos move]
    simp only [source, put, bind, Except.bind]
  · refine ⟨conn, by rw [moveDown, if_neg move], le_rfl, by omega, count, ?_, rep.pkt⟩
    by_cases empty : conn.bufLen = 0
    · have nothing : state.unread = [] := List.length_eq_zero_iff.mp (by omega)
      rw [nothing]
      rfl
    · have still : data = 0 := by
        by_contra other
        exact move ⟨empty, other⟩
      have unread := rep.unread
      rwa [still] at unread

/-- The whole call: it does not fault, it returns when the loop ends, and then it leaves the
connection that the receiver on lists leaves. -/
theorem parseWithin_refines (sids : ServiceID) (fuel : Nat) (ambient : Nat → Ambient)
    {conn : RecvPkt} {state : Assembly} (rep : Represents 0 conn state) :
    match assemble sids fuel ambient state with
    | none => parseWithin sids fuel ambient conn = .ok none
    | some (last, out) => ∃ conn', parseWithin sids fuel ambient conn = .ok (some (conn', out)) ∧
        Represents 0 conn' last := by
  obtain ⟨found, loop, ends⟩ := parseLoop_refines sids fuel ambient rep []
  generalize assemble sids fuel ambient state = expected at ends
  cases ends with
  | unfinished => simp only [parseWithin, loop, bind, Except.bind]
  | ended rep' =>
    obtain ⟨conn', down, rep''⟩ := moveDown_represents rep'
    refine ⟨conn', ?_, rep''⟩
    simp only [parseWithin, loop, down, bind, Except.bind, List.nil_append]

theorem parseWithin_spec {sids : ServiceID} {fuel : Nat} {ambient : Nat → Ambient}
    {conn conn' : RecvPkt} {state : Assembly} {out : List Dispatch} (rep : Represents 0 conn state)
    (returned : parseWithin sids fuel ambient conn = .ok (some (conn', out))) :
    ∃ last, assemble sids fuel ambient state = some (last, out) ∧ Represents 0 conn' last := by
  have call := parseWithin_refines sids fuel ambient rep
  split at call
  · rw [call] at returned
    cases returned
  · next last more ended =>
    obtain ⟨finish, found, rep'⟩ := call
    rw [found] at returned
    cases returned
    exact ⟨last, ended, rep'⟩

/-- Bytes stored behind the unread ones, as `Connection::read` stores what `recv` returns. -/
theorem recvInto_represents {conn : RecvPkt} {state : Assembly} (rep : Represents 0 conn state)
    (chunk : List Byte) (fits : (chunk.length : Int) ≤ RECV_BUF_LEN - conn.bufLen) :
    ∃ conn', recvInto conn chunk = .ok conn' ∧
      Represents 0 conn' { state with unread := state.unread ++ chunk } := by
  have count := rep.count
  have room : 0 ≤ conn.bufLen ∧ conn.bufLen + (chunk.length : Int) ≤ RECV_BUF_LEN := by omega
  have stored : conn.buf.bytes.take state.unread.length = state.unread := rep.unread
  have put : recvInto conn chunk = .ok { conn with
      buf := ⟨splice conn.buf.bytes conn.bufLen.toNat chunk, by
        rw [splice_length _ _ _ (by rw [conn.buf.sized]; omega), conn.buf.sized]⟩
      bufLen := conn.bufLen + chunk.length } := by
    simp only [recvInto, RecvBuf.put, dif_pos room, bind, Except.bind]
  refine ⟨_, put, le_rfl, by simp only; omega, ?_, ?_, rep.pkt⟩
  · simp only [List.length_append, Nat.cast_add, count]
  · have offset : conn.bufLen.toNat = state.unread.length := by omega
    simp only [splice, offset, stored, Int.toNat_zero, List.drop_zero, List.take_left']

theorem fits_of_recvInto {conn conn' : RecvPkt} {chunk : List Byte}
    (stored : recvInto conn chunk = .ok conn') :
    (chunk.length : Int) ≤ RECV_BUF_LEN - conn.bufLen := by
  simp only [recvInto, RecvBuf.put, bind, Except.bind] at stored
  split at stored
  · cases stored
  · next room =>
    split at room
    · omega
    · cases room

/-! ### `Connection::read` -/

def room (conn : RecvPkt) : Nat := (RECV_BUF_LEN - conn.bufLen).toNat

/-- The bytes that the kernel hands over in one call with that much room, and how the call
ends. -/
def incoming : List RecvResult → Nat → List Byte × Option IoResult
  | [], room => if room = 0 then ([], some .finish) else ([], none)
  | .failed errno :: outcomes, room =>
      if room = 0 then ([], some .finish)
      else match errno with
        | .EINTR => incoming outcomes room
        | .EAGAIN | .EWOULDBLOCK => ([], some .again)
        | .other => ([], some .error)
  | .bytes chunk :: outcomes, room =>
      if room = 0 then ([], some .finish)
      else
        let got := chunk.take room
        if got = [] then ([], some .closed)
        else
          let rest := incoming outcomes (room - got.length)
          (got ++ rest.1, rest.2)

theorem whileRoom_pos {room : Nat} (conn : RecvPkt) (body : Except Fault ReadTrace)
    (space : room ≠ 0) : whileRoom room conn body = body := by
  rw [whileRoom, if_neg (by omega), if_neg (by omega)]

theorem readLoop_full (outcomes : List RecvResult) (conn : RecvPkt) :
    readLoop outcomes 0 conn = .ok ⟨conn, some .finish, [], []⟩ := by
  cases outcomes with
  | nil => rfl
  | cons outcome outcomes => cases outcome <;> rfl

theorem incoming_full (outcomes : List RecvResult) : incoming outcomes 0 = ([], some .finish) := by
  cases outcomes with
  | nil => rfl
  | cons outcome outcomes => cases outcome <;> rfl

/-- A call of `Connection::read` stores what the kernel hands over behind the unread bytes, and
every length that it passes to `recv` is positive. -/
theorem readLoop_refines (outcomes : List RecvResult) {conn : RecvPkt} {state : Assembly}
    (rep : Represents 0 conn state) (room : Nat) (space : (room : Int) = RECV_BUF_LEN - conn.bufLen) :
    ∃ trace, readLoop outcomes room conn = .ok trace ∧
      Represents 0 trace.conn { state with unread := state.unread ++ trace.received } ∧
      (trace.received, trace.result) = incoming outcomes room ∧ ∀ asked ∈ trace.asked, 0 < asked := by
  induction outcomes generalizing conn state room with
  | nil =>
    have unchanged : Represents 0 conn { state with unread := state.unread ++ [] } := by
      rwa [List.append_nil]
    by_cases full : room = 0
    · subst full
      exact ⟨_, readLoop_full [] conn, unchanged, rfl, fun _ none => nomatch none⟩
    · refine ⟨_, by rw [readLoop, whileRoom_pos conn _ full], unchanged, ?_, ?_⟩
      · simp only [incoming, if_neg full]
      · simpa using Nat.pos_of_ne_zero full
  | cons outcome outcomes ih =>
    have unchanged : Represents 0 conn { state with unread := state.unread ++ [] } := by
      rwa [List.append_nil]
    by_cases full : room = 0
    · subst full
      exact ⟨_, readLoop_full _ conn, unchanged, (incoming_full _).symm, fun _ none => nomatch none⟩
    · have positive : 0 < room := Nat.pos_of_ne_zero full
      cases outcome with
      | failed errno =>
        simp only [readLoop, whileRoom_pos conn _ full, incoming, if_neg full]
        cases errno with
        | EINTR =>
          obtain ⟨trace, runs, rep', matched, lengths⟩ := ih rep room space
          refine ⟨trace.after room [], by simp only [runs, Except.map], rep', matched, ?_⟩
          simpa [ReadTrace.after, positive] using lengths
        | EAGAIN | EWOULDBLOCK | other => exact ⟨_, rfl, unchanged, rfl, by simpa using positive⟩
      | bytes chunk =>
        simp only [readLoop, whileRoom_pos conn _ full, incoming, if_neg full, Int.toNat_natCast]
        by_cases none : chunk.take room = []
        · simp only [none, if_true]
          exact ⟨_, rfl, unchanged, rfl, by simpa using positive⟩
        · simp only [none, if_false]
          have fits : (chunk.take room).length ≤ room := by
            rw [List.length_take]
            exact Nat.min_le_left ..
          obtain ⟨conn', stored, rep'⟩ := recvInto_represents rep (chunk.take room) (by omega)
          have counted : conn'.bufLen = conn.bufLen + (chunk.take room).length := by
            have before := rep.count
            have after := rep'.count
            simp only [List.length_append] at after
            omega
          obtain ⟨trace, runs, rep'', matched, lengths⟩ :=
            ih rep' (room - (chunk.take room).length) (by omega)
          have rest : (room : Int) - (chunk.take room).length =
              (room - (chunk.take room).length : Nat) := by omega
          simp only [stored, bind, Except.bind, rest, runs, Except.map]
          refine ⟨_, rfl, ?_, ?_, ?_⟩
          · simpa only [ReadTrace.after, List.append_assoc] using rep''
          · simp only [ReadTrace.after, ← matched]
          · simpa [ReadTrace.after, positive] using lengths

theorem read_refines (outcomes : List RecvResult) {conn : RecvPkt} {state : Assembly}
    (rep : Represents 0 conn state) :
    ∃ trace, read outcomes conn = .ok trace ∧
      Represents 0 trace.conn { state with unread := state.unread ++ trace.received } ∧
      (trace.received, trace.result) = incoming outcomes (room conn) ∧
      ∀ asked ∈ trace.asked, 0 < asked := by
  have space : (room conn : Int) = RECV_BUF_LEN - conn.bufLen := by
    have capacity := rep.room
    rw [room]
    omega
  unfold Core.Receiving.read
  rw [← space]
  exact readLoop_refines outcomes rep (room conn) space

end SNFrame.Receive.Refinement
