import SNFrame.Receive.Session

/-! The resync branch of `parse`. Its search lowers `buf_len` when it finds a tag, and the test
after it, whether the search has failed, compares the index with the lowered count. -/

namespace SNFrame.Receive.Resync
open Library.Octet Base.PbBuf Base.Checksum Core.Receiving Core.TcpParse
open Assembler Refinement FrameStream Session

/-- `data[0..buf_len)`. -/
def unreadAt (data : Int) (conn : RecvPkt) : List Byte :=
  (conn.buf.bytes.drop data.toNat).take conn.bufLen.toNat

/-- A tag begins at the given index and none before it. -/
def FirstPair (bytes : List Byte) (i : Nat) : Prop :=
  tagged (bytes.drop i) = true ∧ ∀ j < i, tagged (bytes.drop j) = false

theorem not_tagged_of_short {bytes : List Byte} (short : bytes.length ≤ 1) :
    tagged bytes = false := by
  have apart : (0 : Byte) ≠ TAG_HEAD_2 := by decide
  have missing : bytes.getD 1 0 = 0 := List.getD_eq_default _ _ short
  simp only [tagged, missing, decide_eq_false apart, Bool.and_false]

theorem tagged_cons (b0 b1 : Byte) (rest : List Byte) :
    tagged (b0 :: b1 :: rest) = decide (b0 = TAG_HEAD_1 ∧ b1 = TAG_HEAD_2) := by
  simp [tagged]

theorem firstPair_zero (bytes : List Byte) : FirstPair bytes 0 ↔ tagged bytes = true := by
  simp [FirstPair]

theorem firstPair_succ {b0 : Byte} {rest : List Byte} (i : Nat) :
    FirstPair (b0 :: rest) (i + 1) ↔ tagged (b0 :: rest) = false ∧ FirstPair rest i := by
  constructor
  · rintro ⟨here, before⟩
    exact ⟨before 0 (Nat.succ_pos i), here, fun j earlier => before (j + 1) (Nat.succ_lt_succ earlier)⟩
  · rintro ⟨head, here, before⟩
    refine ⟨here, fun j earlier => ?_⟩
    cases j with
    | zero => exact head
    | succ j => exact before j (Nat.lt_of_succ_lt_succ earlier)

theorem no_firstPair_of_short {bytes : List Byte} (short : bytes.length ≤ 1) (i : Nat) :
    ¬FirstPair bytes i := by
  intro pair
  have untagged : tagged (bytes.drop i) = false :=
    not_tagged_of_short ((List.length_drop ▸ Nat.sub_le ..).trans short)
  rw [pair.1] at untagged
  cases untagged

theorem firstTag_iff (bytes : List Byte) (i : Nat) :
    firstTag bytes = some i ↔ FirstPair bytes i := by
  induction bytes generalizing i with
  | nil =>
    have none : ¬FirstPair [] i := no_firstPair_of_short (by decide) i
    simp [firstTag, none]
  | cons b0 tail ih =>
    cases tail with
    | nil =>
      have none : ¬FirstPair [b0] i := no_firstPair_of_short (le_refl [b0].length) i
      simp [firstTag, none]
    | cons b1 rest =>
      by_cases here : b0 = TAG_HEAD_1 ∧ b1 = TAG_HEAD_2
      · rw [firstTag, if_pos here]
        cases i with
        | zero => simp [firstPair_zero, tagged_cons, here]
        | succ i => simp [firstPair_succ, tagged_cons, here]
      · rw [firstTag, if_neg here]
        cases i with
        | zero => simp [firstPair_zero, tagged_cons, here]
        | succ i => simp [firstPair_succ, tagged_cons, here, ih]

theorem firstTag_eq_none (bytes : List Byte) :
    firstTag bytes = none ↔ ∀ i, tagged (bytes.drop i) = false := by
  constructor
  · intro none
    by_contra somewhere
    simp only [not_forall, Bool.not_eq_false] at somewhere
    have first : FirstPair bytes (Nat.find somewhere) :=
      ⟨Nat.find_spec somewhere, fun j earlier => Bool.not_eq_true _ ▸ Nat.find_min somewhere earlier⟩
    rw [(firstTag_iff ..).mpr first] at none
    cases none
  · intro missing
    cases found : firstTag bytes with
    | none => rfl
    | some i =>
      have pair := ((firstTag_iff ..).mp found).1
      rw [missing i] at pair
      cases pair

/-- An iteration of the loop that collects no frame. -/
structure Searching (data : Int) (conn : RecvPkt) : Prop where
  start : 0 ≤ data
  room : data + conn.bufLen ≤ RECV_BUF_LEN
  long : HEAD_LEN ≤ conn.bufLen
  idle : conn.lessPktLen = 0
  pkt : conn.pkt = .null

theorem unreadAt_length {data : Int} {conn : RecvPkt} (searching : Searching data conn) :
    ((unreadAt data conn).length : Int) = conn.bufLen := by
  obtain ⟨start, room, long, -, -⟩ := searching
  rw [unreadAt, List.length_take, List.length_drop, conn.buf.sized]
  simp only [HEAD_LEN] at long
  omega

theorem searching_represents {data : Int} {conn : RecvPkt} (searching : Searching data conn) :
    Represents data conn ⟨unreadAt data conn, none⟩ where
  start := searching.start
  room := searching.room
  count := (unreadAt_length searching).symm
  unread := by
    have count : (unreadAt data conn).length = conn.bufLen.toNat := by
      have same := unreadAt_length searching
      omega
    rw [count]
    rfl
  pkt := ⟨searching.idle, searching.pkt⟩

theorem deliver_checked (sids : ServiceID) {ambient : Ambient} {msg : IMString}
    (valid : check ambient.toHeap msg = true) :
    ∃ first, deliver sids ambient msg = [first] ∧ first.msg = msg := by
  unfold deliver
  rw [if_pos valid]
  by_cases common : getSid ambient.toHeap msg = sids.SID_ROUTER ∨
      getSid ambient.toHeap msg = sids.SID_OTHER
  · exact ⟨.common msg, if_pos common, rfl⟩
  · exact ⟨.handler msg ambient.nid, if_neg common, rfl⟩

/-- A valid frame at the front is what the loop dispatches first, however often it has to ask
for the buffer. -/
theorem assemble_dispatches (sids : ServiceID) (count : Nat) (ambient : Nat → Ambient)
    {unread : List Byte} {last : Assembly} {out : List Dispatch} (tag : tagged unread = true)
    (whole : frameLen unread ≤ unread.length)
    (valid : ∀ n, check (ambient n).toHeap (held (unread.take (frameLen unread)) []) = true)
    (ended : assemble sids count ambient ⟨unread, none⟩ = some (last, out)) :
    ∃ first more, out = first :: more ∧ first.msg = held (unread.take (frameLen unread)) [] := by
  have long : HEAD_LEN ≤ unread.length := (format.headed unread).trans whole
  induction count generalizing ambient out with
  | zero =>
    rw [assemble, dif_pos long] at ended
    cases ended
  | succ count ih =>
    rw [assemble, dif_pos long] at ended
    by_cases malloc : (ambient 0).malloc = true
    · obtain ⟨first, delivered, msg⟩ := deliver_checked sids (valid 0)
      simp only [step, if_pos tag, if_pos malloc, dif_pos whole, delivered] at ended
      obtain ⟨rest, -, same⟩ := Option.map_eq_some_iff.mp ended
      cases same
      exact ⟨first, rest.2, rfl, msg⟩
    · simp only [step, if_pos tag, if_neg malloc] at ended
      obtain ⟨rest, continues, same⟩ := Option.map_eq_some_iff.mp ended
      cases same
      exact ih (fun n => ambient (n + 1)) (fun n => valid (n + 1)) continues

/-- What resynchronisation owes to the bytes from the first tag on: only those before it are
discarded, and if a valid frame begins there, it is what the call dispatches next. -/
structure Resynchronises (sids : ServiceID) (data : Int) (conn : RecvPkt) (i : Nat) : Prop where
  discards : ∀ ambient, parseIter sids ambient data conn =
    .ok (.next (data + i) { conn with bufLen := conn.bufLen - i } [])
  keeps : unreadAt (data + i) { conn with bufLen := conn.bufLen - i } = (unreadAt data conn).drop i
  dispatches : ∀ frame rest, (unreadAt data conn).drop i = frame ++ rest →
    frame.length = frameLen frame → ∀ ambient,
    (∀ n, check (ambient n).toHeap (held frame []) = true) →
      ∀ count last after out, parseLoop sids count ambient data conn [] =
        .ok (some (last, after, out)) → ∃ first more, out = first :: more ∧ first.msg = held frame []
  returns : ∀ ambient, (∀ n, (ambient n).malloc = true) →
    ∃ finish, parseLoop sids conn.bufLen.toNat ambient data conn [] = .ok (some finish)

section Branch
variable {data : Int} {conn : RecvPkt} {i : Nat}

theorem parseIter_searching (sids : ServiceID) (ambient : Ambient)
    (searching : Searching data conn) (untagged : tagged (unreadAt data conn) = false) :
    parseIter sids ambient data conn = resync data conn := by
  have rep := searching_represents searching
  have long : 2 ≤ (unreadAt data conn).length := by
    have count := unreadAt_length searching
    have headed := searching.long
    simp only [HEAD_LEN] at headed
    omega
  have tag := atTag_represents rep long
  simp only [parseIter, searching.idle, if_true, tag, untagged, bind, Except.bind,
    Bool.false_eq_true, if_false]

/-- The test after the search takes the tag in the middle for a failed search. -/
theorem parseIter_firstPair (sids : ServiceID) (ambient : Ambient)
    (searching : Searching data conn) (first : FirstPair (unreadAt data conn) i) (later : 1 ≤ i) :
    parseIter sids ambient data conn = .ok (if conn.bufLen = 2 * i + 1 then
      .leave (data + i) (clear conn) []
    else .next (data + i) { conn with bufLen := conn.bufLen - i } []) := by
  have rep := searching_represents searching
  have count := unreadAt_length searching
  have headed := searching.long
  have found := (firstTag_iff ..).mpr first
  have inside := firstTag_lt _ _ found
  rw [parseIter_searching sids ambient searching (first.2 0 later),
    resync_found rep (show HEAD_LEN ≤ (unreadAt data conn).length by omega) found]
  simp only
  congr 1
  by_cases middle : conn.bufLen = 2 * i + 1
  · rw [if_pos middle, if_pos (by omega)]
  · rw [if_neg middle, if_neg (by omega)]

theorem not_resynchronises_of_middle (sids : ServiceID) (searching : Searching data conn)
    (first : FirstPair (unreadAt data conn) i) (later : 1 ≤ i)
    (middle : conn.bufLen = 2 * i + 1) : ¬Resynchronises sids data conn i := by
  intro resynchronises
  have iteration := parseIter_firstPair sids ⟨⟨true, fun _ => 0⟩, 0⟩ searching first later
  rw [resynchronises.discards, if_pos middle] at iteration
  cases iteration

theorem unreadAt_advance (searching : Searching data conn) (inside : i ≤ (unreadAt data conn).length) :
    unreadAt (data + i) { conn with bufLen := conn.bufLen - i } = (unreadAt data conn).drop i := by
  have rep := advance_represents (searching_represents searching) i inside
  have count : (conn.bufLen - i).toNat = ((unreadAt data conn).drop i).length := by
    have same : conn.bufLen - i = (((unreadAt data conn).drop i).length : Int) := rep.count
    omega
  unfold unreadAt at count ⊢
  simp only [count]
  exact rep.unread

/-- Past the search the receiver on lists is at the tag. -/
theorem assemble_resynced (sids : ServiceID) (count : Nat) (ambient : Nat → Ambient)
    {unread : List Byte} {last : Assembly} {out : List Dispatch} (long : HEAD_LEN ≤ unread.length)
    (first : FirstPair unread i) (later : 1 ≤ i) (apart : i ≠ unread.length - i - 1)
    (ended : assemble sids count ambient ⟨unread, none⟩ = some (last, out)) :
    ∃ count ambient', (∀ n, ∃ m, ambient' n = ambient m) ∧
      assemble sids count ambient' ⟨unread.drop i, none⟩ = some (last, out) := by
  have found := (firstTag_iff ..).mpr first
  rw [assemble, dif_pos long] at ended
  cases count with
  | zero => cases ended
  | succ count =>
    have untagged : ¬tagged unread = true := Bool.eq_false_iff.mp (first.2 0 later)
    simp only [step, if_neg untagged, found, if_neg apart] at ended
    obtain ⟨rest, continues, same⟩ := Option.map_eq_some_iff.mp ended
    cases same
    exact ⟨count, fun n => ambient (n + 1), fun n => ⟨n + 1, rfl⟩, continues⟩

theorem parseLoop_ended {sids : ServiceID} {count : Nat} {ambient : Nat → Ambient}
    {state : Assembly} {last : Int} {after : RecvPkt} {out : List Dispatch}
    (rep : Represents data conn state)
    (returned : parseLoop sids count ambient data conn [] = .ok (some (last, after, out))) :
    ∃ final, assemble sids count ambient state = some (final, out) := by
  obtain ⟨found, loop, ends⟩ := parseLoop_refines sids count ambient rep []
  rw [returned] at loop
  cases loop
  generalize assemble sids count ambient state = expected at ends ⊢
  cases ends with
  | ended => exact ⟨_, rfl⟩

theorem parseLoop_returns (sids : ServiceID) (ambient : Nat → Ambient) {state : Assembly}
    (rep : Represents data conn state) (malloc : ∀ n, (ambient n).malloc = true) :
    ∃ finish, parseLoop sids conn.bufLen.toNat ambient data conn [] = .ok (some finish) := by
  have count := rep.count
  obtain ⟨last, out, ended⟩ :=
    assemble_returns sids conn.bufLen.toNat ambient malloc state (by omega)
  obtain ⟨found, loop, ends⟩ := parseLoop_refines sids conn.bufLen.toNat ambient rep []
  rw [ended] at ends
  cases ends with
  | ended => exact ⟨_, loop⟩

theorem resynchronises_of_apart (sids : ServiceID) (searching : Searching data conn)
    (first : FirstPair (unreadAt data conn) i) (later : 1 ≤ i)
    (apart : conn.bufLen ≠ 2 * i + 1) : Resynchronises sids data conn i where
  discards ambient := by
    rw [parseIter_firstPair sids ambient searching first later, if_neg apart]
  keeps := by
    have inside := firstTag_lt _ _ ((firstTag_iff ..).mpr first)
    exact unreadAt_advance searching (by omega)
  dispatches := by
    intro frame rest here sized ambient valid count last after out returned
    have counted := unreadAt_length searching
    have headed := searching.long
    have inside := firstTag_lt _ _ ((firstTag_iff ..).mpr first)
    obtain ⟨final, ended⟩ := parseLoop_ended (searching_represents searching) returned
    obtain ⟨steps, ambient', among, ended⟩ := assemble_resynced sids count ambient
      (show HEAD_LEN ≤ (unreadAt data conn).length by omega) first later (by omega) ended
    have tag := first.1
    rw [here] at ended tag
    have long : HEAD_LEN ≤ frame.length := sized ▸ format.headed frame
    have size : frameLen (frame ++ rest) = frame.length := by
      rw [frameLen_append _ _ long, ← sized]
    have taken : (frame ++ rest).take (frameLen (frame ++ rest)) = frame := by
      rw [size, List.take_left]
    have whole : frameLen (frame ++ rest) ≤ (frame ++ rest).length := by
      rw [size, List.length_append]
      exact Nat.le_add_right ..
    have validHere : ∀ n, check (ambient' n).toHeap
        (held ((frame ++ rest).take (frameLen (frame ++ rest))) []) = true := by
      intro n
      obtain ⟨m, same⟩ := among n
      rw [taken, same]
      exact valid m
    have dispatched := assemble_dispatches sids steps ambient' tag whole validHere ended
    rwa [taken] at dispatched
  returns ambient malloc := parseLoop_returns sids ambient (searching_represents searching) malloc

/-- Resynchronisation keeps everything from the first tag on, unless there are as many bytes
before the tag as behind its first one. -/
theorem resynchronises_iff_apart (sids : ServiceID) (data : Int) (conn : RecvPkt) (i : Nat)
    (searching : Searching data conn) (first : FirstPair (unreadAt data conn) i) (later : 1 ≤ i) :
    Resynchronises sids data conn i ↔ conn.bufLen ≠ 2 * i + 1 :=
  ⟨fun resynchronises middle =>
      not_resynchronises_of_middle sids searching first later middle resynchronises,
    resynchronises_of_apart sids searching first later⟩

end Branch

/-- What a fresh connection has after its first bytes. -/
theorem searching_of_received (bytes : List Byte) (long : HEAD_LEN ≤ bytes.length)
    (fits : bytes.length ≤ RECV_BUF_LEN) :
    ∃ conn, recvInto .fresh bytes = .ok conn ∧ Searching 0 conn ∧ unreadAt 0 conn = bytes ∧
      conn.bufLen = bytes.length := by
  obtain ⟨conn, stored, rep⟩ := recvInto_represents fresh_represents bytes (by
    simp only [RecvPkt.fresh]
    omega)
  have count : conn.bufLen = bytes.length := rep.count
  refine ⟨conn, stored, ⟨le_rfl, rep.room, by omega, rep.pkt.1, rep.pkt.2⟩, ?_, count⟩
  rw [unreadAt, count]
  exact rep.unread

theorem resynchronises_iff_apart_one_byte :
    ∃ conn, recvInto .fresh (0 :: tenZeroes) = .ok conn ∧
      (Resynchronises ⟨1, 2, 3, 4⟩ 0 conn 1 ↔ conn.bufLen ≠ 2 * (1 : Nat) + 1) := by
  obtain ⟨conn, stored, searching, unread, -⟩ :=
    searching_of_received (0 :: tenZeroes) (by decide) (by decide)
  refine ⟨conn, stored, resynchronises_iff_apart ⟨1, 2, 3, 4⟩ 0 conn 1 searching ?_ le_rfl⟩
  rw [unread]
  exact (firstTag_iff ..).mp rfl

/-- 36 bytes of garbage before a valid frame of 37 bytes: `parse` forgets all of them. -/
theorem frame_forgotten :
    ∃ conn, recvInto .fresh (List.replicate 36 0 ++ tenZeroes) = .ok conn ∧
      Searching 0 conn ∧ FirstPair (unreadAt 0 conn) 36 ∧
      (unreadAt 0 conn).drop 36 = tenZeroes ∧ Framed tenZeroes ∧ goodSum tenZeroes = true ∧
      (∃ after, parse ⟨1, 2, 3, 4⟩ roomy conn = .ok (some (after, [])) ∧ after.bufLen = 0) ∧
      ¬Resynchronises ⟨1, 2, 3, 4⟩ 0 conn 36 := by
  obtain ⟨conn, stored, searching, unread, count⟩ :=
    searching_of_received (List.replicate 36 0 ++ tenZeroes) (by decide) (by decide)
  have first : FirstPair (unreadAt 0 conn) 36 := by
    rw [unread]
    exact (firstTag_iff ..).mp (by decide)
  have middle : conn.bufLen = 2 * (36 : Nat) + 1 := by
    rw [count]
    decide
  have call := parseWithin_refines ⟨1, 2, 3, 4⟩ conn.bufLen.toNat roomy
    (searching_represents searching)
  have forgets : assemble ⟨1, 2, 3, 4⟩ conn.bufLen.toNat roomy ⟨unreadAt 0 conn, none⟩ =
      some (.fresh, []) := by
    rw [middle, unread]
    rfl
  rw [forgets] at call
  obtain ⟨after, returned, rep⟩ := call
  refine ⟨conn, stored, searching, first, by rw [unread]; rfl, tenZeroes_framed, by decide,
    ⟨after, returned, rep.count⟩, ?_⟩
  exact not_resynchronises_of_middle _ searching first (by decide) middle

end SNFrame.Receive.Resync
