import SNFrame.Receive.Resync

/-! Where in the stream a dispatched message begins. The bytes in hand are always the last ones
received, so that an iteration that has `n` of them begins `n` bytes before the end. -/

namespace SNFrame.Receive.Placement
open Library.Octet Library.Transition Base.PbBuf Base.Checksum Core.Receiving Core.TcpParse
open Assembler Refinement FrameStream Session Resync

/-- The place in the stream of the first byte in hand. -/
def place (received : Nat) (conn : RecvPkt) : Int := received - (conn.pkt.mLen + conn.bufLen)

/-- A message and the place at which it begins. -/
abbrev Placed := Int × Dispatch

/-- The loop of `parse` after `received` bytes, with the places of the messages. -/
def placedLoop (sids : ServiceID) (received : Nat) : Nat → (Nat → Ambient) → Int → RecvPkt →
    List Placed → Except Fault (Option (Int × RecvPkt × List Placed))
  | fuel, ambient, data, conn, out =>
    if conn.bufLen < HEAD_LEN then .ok (some (data, conn, out))
    else match fuel with
    | 0 => .ok none
    | fuel + 1 =>
        match parseIter sids (ambient 0) data conn with
        | .error fault => .error fault
        | .ok (.next data' conn' more) =>
            placedLoop sids received fuel (fun n => ambient (n + 1)) data' conn'
              (out ++ more.map fun each => (place received conn, each))
        | .ok (.leave data' conn' more) =>
            .ok (some (data', conn', out ++ more.map fun each => (place received conn, each)))

/-- The rest of a call of `parse`, from an iteration on. -/
def placedParse (sids : ServiceID) (received fuel : Nat) (ambient : Nat → Ambient) (data : Int)
    (conn : RecvPkt) : Except Fault (Option (RecvPkt × List Placed)) :=
  match placedLoop sids received fuel ambient data conn [] with
  | .error fault => .error fault
  | .ok none => .ok none
  | .ok (some (data, conn, out)) =>
      match moveDown data conn with
      | .error fault => .error fault
      | .ok conn => .ok (some (conn, out))

theorem placedLoop_erased (sids : ServiceID) (received fuel : Nat) (ambient : Nat → Ambient)
    (data : Int) (conn : RecvPkt) (out : List Placed) :
    parseLoop sids fuel ambient data conn (out.map Prod.snd) =
      (placedLoop sids received fuel ambient data conn out).map
        (Option.map fun ended => (ended.1, ended.2.1, ended.2.2.map Prod.snd)) := by
  induction fuel generalizing ambient data conn out with
  | zero =>
    unfold parseLoop placedLoop
    split_ifs
    · rfl
    · rfl
  | succ fuel ih =>
    unfold parseLoop placedLoop
    split_ifs
    · rfl
    · simp only
      cases parseIter sids (ambient 0) data conn with
      | error fault => rfl
      | ok flow =>
        cases flow with
        | next data' conn' more =>
          have rest := ih (fun n => ambient (n + 1)) data' conn'
            (out ++ more.map fun each => (place received conn, each))
          simpa [Function.comp_def, bind, Except.bind] using rest
        | leave data' conn' more => simp [Function.comp_def, bind, Except.bind, Except.map]

/-- Without the places it is `parse`. -/
theorem placedParse_erased (sids : ServiceID) (received fuel : Nat) (ambient : Nat → Ambient)
    (conn : RecvPkt) :
    parseWithin sids fuel ambient conn = (placedParse sids received fuel ambient 0 conn).map
      (Option.map fun ended => (ended.1, ended.2.map Prod.snd)) := by
  have loop := placedLoop_erased sids received fuel ambient 0 conn []
  unfold parseWithin placedParse
  rw [List.map_nil] at loop
  rw [loop]
  cases placedLoop sids received fuel ambient 0 conn [] with
  | error fault => rfl
  | ok found =>
    cases found with
    | none => rfl
    | some ended =>
      simp only [Except.map, Option.map_some, bind, Except.bind]
      cases moveDown ended.1 ended.2.1 with
      | error fault => rfl
      | ok after => rfl

/-! ### The places are right -/

theorem hand_represents {data : Int} {conn : RecvPkt} {state : Assembly}
    (rep : Represents data conn state) :
    conn.pkt.mLen + conn.bufLen = (state.inHand.length : Int) := by
  have count := rep.count
  have pkt := rep.pkt
  unfold Assembly.inHand
  rw [List.length_append]
  cases started : state.pending with
  | none =>
    rw [started] at pkt
    have empty : conn.pkt.mLen = 0 := by rw [pkt.2]; rfl
    simp only [List.length_nil]
    omega
  | some pending =>
    rw [started] at pkt
    obtain ⟨-, tail, -, pktIs⟩ := pkt
    have got : conn.pkt.mLen = (pending.got.length : Int) := by rw [pktIs]; rfl
    simp only
    omega

theorem deliver_bytes {sids : ServiceID} {ambient : Ambient} {frame : List Byte}
    {each : Dispatch} (delivered : each ∈ deliver sids ambient (held frame [])) :
    each.msg.bytes = frame := by
  by_cases valid : check ambient.toHeap (held frame []) = true
  · obtain ⟨first, only, msg⟩ := deliver_checked sids valid
    rw [only] at delivered
    rw [List.mem_singleton.mp delivered, msg, held_bytes]
  · rw [deliver, if_neg valid] at delivered
    cases delivered

/-- What an iteration leaves in hand is the end of what it had, and what it dispatches is the
beginning. -/
theorem step_hand {sids : ServiceID} {ambient : Ambient} {state later : Assembly}
    {long : HEAD_LEN ≤ state.unread.length} {out : List Dispatch}
    (moved : step sids ambient state long = .next later out) :
    later.inHand <:+ state.inHand ∧ ∀ each ∈ out, each.msg.bytes <+: state.inHand := by
  obtain ⟨unread, pending⟩ := state
  cases pending with
  | none =>
    simp only [step] at moved
    split_ifs at moved with tag malloc whole
    · cases moved
      refine ⟨List.drop_suffix _ _, fun each delivered => ?_⟩
      rw [deliver_bytes delivered]
      exact List.take_prefix _ _
    · cases moved
      exact ⟨List.suffix_refl _, fun each none => absurd none List.not_mem_nil⟩
    · split at moved
      · split_ifs at moved
        cases moved
        exact ⟨List.drop_suffix _ _, fun each none => absurd none List.not_mem_nil⟩
      · cases moved
  | some pending =>
    simp only [step] at moved
    split_ifs at moved with whole
    · cases moved
      constructor
      · exact (List.drop_suffix _ _).trans (List.suffix_append _ _)
      · intro each delivered
        rw [deliver_bytes delivered]
        exact (List.prefix_append_right_inj pending.got).mpr (List.take_prefix _ _)
    · cases moved
      refine ⟨?_, fun each none => absurd none List.not_mem_nil⟩
      simp [Assembly.inHand, Pending.extend]

theorem step_leaves_hand {sids : ServiceID} {ambient : Ambient} {state later : Assembly}
    {long : HEAD_LEN ≤ state.unread.length} (moved : step sids ambient state long = .leave later) :
    later.inHand <:+ state.inHand := by
  obtain ⟨unread, pending⟩ := state
  cases pending with
  | none =>
    simp only [step] at moved
    split_ifs at moved
    · cases moved
      simp [Assembly.inHand, Pending.begin]
    · split at moved
      · split_ifs at moved
        cases moved
        exact List.nil_suffix
      · cases moved
        exact List.nil_suffix
  | some pending =>
    simp only [step] at moved
    split_ifs at moved

/-- The bytes in hand are the last of the stream and begin at the given place or later. -/
def Behind (start : Nat) (received : List Byte) (state : Assembly) : Prop :=
  ∃ gone, received = gone ++ state.inHand ∧ start ≤ gone.length

theorem Behind.suffix {start : Nat} {received : List Byte} {state later : Assembly}
    (behind : Behind start received state) (left : later.inHand <:+ state.inHand) :
    Behind start received later := by
  obtain ⟨gone, whole, from_⟩ := behind
  obtain ⟨taken, split⟩ := left
  refine ⟨gone ++ taken, ?_, ?_⟩
  · rw [whole, ← split, List.append_assoc]
  · rw [List.length_append]
    omega

/-- A message lies in the stream where its place says, at the given place or later. -/
def LiesIn (start : Nat) (received : List Byte) (placed : Placed) : Prop :=
  ∃ before after, received = before ++ placed.2.msg.bytes ++ after ∧
    placed.1 = before.length ∧ start ≤ before.length

theorem LiesIn.more {start : Nat} {received : List Byte} {placed : Placed}
    (lies : LiesIn start received placed) (chunk : List Byte) :
    LiesIn start (received ++ chunk) placed := by
  obtain ⟨before, after, whole, at_, from_⟩ := lies
  exact ⟨before, after ++ chunk, by rw [whole, List.append_assoc], at_, from_⟩

theorem liesIn_of_prefix {start : Nat} {received : List Byte} {data : Int} {conn : RecvPkt}
    {state : Assembly} {each : Dispatch} (rep : Represents data conn state)
    (behind : Behind start received state) (begins : each.msg.bytes <+: state.inHand) :
    LiesIn start received (place received.length conn, each) := by
  obtain ⟨gone, whole, from_⟩ := behind
  obtain ⟨after, split⟩ := begins
  refine ⟨gone, after, ?_, ?_, from_⟩
  · rw [whole, ← split, List.append_assoc]
  · have hand := hand_represents rep
    have total := congrArg List.length whole
    rw [List.length_append] at total
    simp only [place]
    omega

theorem placedLoop_lies {sids : ServiceID} {start : Nat} {received : List Byte} {fuel : Nat}
    {ambient : Nat → Ambient} {data data' : Int} {conn conn' : RecvPkt} {state : Assembly}
    {out out' : List Placed} (rep : Represents data conn state)
    (behind : Behind start received state) (lie : ∀ each ∈ out, LiesIn start received each)
    (returned : placedLoop sids received.length fuel ambient data conn out =
      .ok (some (data', conn', out'))) :
    ∃ last, Represents data' conn' last ∧ Behind start received last ∧
      ∀ each ∈ out', LiesIn start received each := by
  have count := rep.count
  induction fuel generalizing ambient data conn state out with
  | zero =>
    unfold placedLoop at returned
    split_ifs at returned
    · cases returned
      exact ⟨state, rep, behind, lie⟩
    · cases returned
  | succ fuel ih =>
    unfold placedLoop at returned
    split_ifs at returned with short
    · cases returned
      exact ⟨state, rep, behind, lie⟩
    · have long : HEAD_LEN ≤ state.unread.length := by omega
      obtain ⟨flow, runs, matched⟩ := parseIter_refines rep sids (ambient 0) long
      simp only [runs] at returned
      cases moved : step sids (ambient 0) state long with
      | next later more =>
        rw [moved] at matched
        cases matched with
        | next rep' =>
          obtain ⟨left, begin_⟩ := step_hand moved
          refine ih rep' (behind.suffix left) ?_ returned rep'.count
          intro each inside
          rcases List.mem_append.mp inside with before | new
          · exact lie each before
          · obtain ⟨message, delivered, rfl⟩ := List.mem_map.mp new
            exact liesIn_of_prefix rep behind (begin_ message delivered)
      | leave later =>
        rw [moved] at matched
        cases matched with
        | leave rep' =>
          cases returned
          refine ⟨later, rep', behind.suffix (step_leaves_hand moved), ?_⟩
          simpa using lie

theorem placedParse_lies {sids : ServiceID} {start : Nat} {received : List Byte} {fuel : Nat}
    {ambient : Nat → Ambient} {data : Int} {conn after : RecvPkt} {state : Assembly}
    {out : List Placed} (rep : Represents data conn state) (behind : Behind start received state)
    (returned : placedParse sids received.length fuel ambient data conn =
      .ok (some (after, out))) :
    ∃ last, Represents 0 after last ∧ Behind start received last ∧
      ∀ each ∈ out, LiesIn start received each := by
  unfold placedParse at returned
  cases loop : placedLoop sids received.length fuel ambient data conn [] with
  | error fault =>
    rw [loop] at returned
    cases returned
  | ok found =>
    rw [loop] at returned
    cases found with
    | none => cases returned
    | some ended =>
      obtain ⟨data', conn', out'⟩ := ended
      obtain ⟨last, rep', behind', lie⟩ :=
        placedLoop_lies rep behind (fun each none => absurd none List.not_mem_nil) loop
      obtain ⟨moved, down, rep''⟩ := moveDown_represents rep'
      simp only [down] at returned
      cases returned
      exact ⟨last, rep'', behind', lie⟩

/-! ### Over a run of reads -/

/-- A connection, all the bytes received, and the messages with their places among them. -/
structure History where
  conn : RecvPkt
  received : List Byte
  dispatched : List Placed

def History.link (history : History) : Link :=
  ⟨history.conn, history.received, history.dispatched.map Prod.snd⟩

/-- A read and the call of `parse` after it. -/
def placedServe (sids : ServiceID) (history : History) (read : Read) : Option History :=
  match recvInto history.conn read.chunk with
  | .error _ => none
  | .ok conn =>
      match placedParse sids (history.received ++ read.chunk).length read.iterations read.ambient 0
        conn with
      | .ok (some (conn, out)) =>
          some ⟨conn, history.received ++ read.chunk, history.dispatched ++ out⟩
      | _ => none

theorem placedServe_erased (sids : ServiceID) (history : History) (read : Read) :
    (placedServe sids history read).map History.link = serve sids history.link read := by
  unfold placedServe serve History.link
  cases recvInto history.conn read.chunk with
  | error fault => rfl
  | ok conn =>
    simp only [placedParse_erased sids (history.received ++ read.chunk).length read.iterations
      read.ambient conn]
    cases placedParse sids (history.received ++ read.chunk).length read.iterations read.ambient 0
      conn with
    | error fault => rfl
    | ok found =>
      cases found with
      | none => rfl
      | some ended => simp [Except.map]

/-- Every message lies where its place says, and none begins before the given place. -/
def InPlace (start : Nat) (history : History) : Prop :=
  (∃ state, Represents 0 history.conn state ∧ Behind start history.received state) ∧
    ∀ each ∈ history.dispatched, LiesIn start history.received each

theorem placedServe_inPlace {sids : ServiceID} {start : Nat} {history next : History} {read : Read}
    (inPlace : InPlace start history) (served : placedServe sids history read = some next) :
    InPlace start next := by
  obtain ⟨⟨state, rep, gone, whole, from_⟩, lie⟩ := inPlace
  unfold placedServe at served
  split at served
  · cases served
  · next conn stored =>
    obtain ⟨conn', stored', rep'⟩ := recvInto_represents rep read.chunk (fits_of_recvInto stored)
    rw [stored] at stored'
    cases stored'
    split at served
    · next after out returned =>
      cases served
      have behind : Behind start (history.received ++ read.chunk)
          { state with unread := state.unread ++ read.chunk } := by
        refine ⟨gone, ?_, from_⟩
        rw [whole]
        simp only [Assembly.inHand, List.append_assoc]
      obtain ⟨last, rep'', behind', new⟩ := placedParse_lies rep' behind returned
      refine ⟨⟨last, rep'', behind'⟩, fun each inside => ?_⟩
      rcases List.mem_append.mp inside with before | here
      · exact (lie each before).more read.chunk
      · exact new each here
    · cases served

theorem run_inPlace {sids : ServiceID} {start : Nat} {history finish : History}
    {reads : List Read} (inPlace : InPlace start history)
    (reached : run (placedServe sids) history reads = some finish) : InPlace start finish :=
  run_invariant (InPlace start) (fun _ _ _ => placedServe_inPlace) inPlace reached

/-! ### A tag cut in two -/

/-- The rest of a call of `parse`, from an iteration on, and the reads after it. The stream is
counted from `data`. -/
def continued (sids : ServiceID) (count : Nat) (ambient : Nat → Ambient) (data : Int)
    (conn : RecvPkt) (reads : List Read) : Option History :=
  match placedParse sids (unreadAt data conn).length count ambient data conn with
  | .ok (some (after, out)) => run (placedServe sids) ⟨after, unreadAt data conn, out⟩ reads
  | _ => none

/-- The frame that begins with the last of the unread bytes is dispatched. -/
def Survives (sids : ServiceID) (count : Nat) (ambient : Nat → Ambient) (data : Int)
    (conn : RecvPkt) (reads : List Read) (frame : List Byte) : Prop :=
  ∃ history, continued sids count ambient data conn reads = some history ∧
    ∃ each, (conn.bufLen - 1, each) ∈ history.dispatched ∧ each.msg.bytes = frame

section Split
variable {data : Int} {conn : RecvPkt}

/-- When no tag is found nothing is kept, neither the last byte. -/
theorem parseIter_untagged (sids : ServiceID) (ambient : Ambient) (searching : Searching data conn)
    (missing : ∀ i, tagged ((unreadAt data conn).drop i) = false) :
    parseIter sids ambient data conn = .ok (.leave data (clear conn) []) := by
  have count := unreadAt_length searching
  have headed := searching.long
  rw [parseIter_searching sids ambient searching (missing 0)]
  exact resync_lost (searching_represents searching)
    (show HEAD_LEN ≤ (unreadAt data conn).length by omega) ((firstTag_eq_none _).mpr missing)

theorem continued_inPlace {sids : ServiceID} {count : Nat} {ambient : Nat → Ambient}
    {reads : List Read} {history : History} (searching : Searching data conn)
    (missing : ∀ i, tagged ((unreadAt data conn).drop i) = false)
    (reached : continued sids count ambient data conn reads = some history) :
    InPlace (unreadAt data conn).length history := by
  have long : ¬conn.bufLen < (HEAD_LEN : Nat) := not_lt.mpr searching.long
  unfold continued at reached
  split at reached
  · next after out returned =>
    apply run_inPlace _ reached
    unfold placedParse placedLoop at returned
    rw [if_neg long] at returned
    cases count with
    | zero => cases returned
    | succ count =>
      simp only [parseIter_untagged sids (ambient 0) searching missing, moveDown, clear, ne_eq,
        not_true_eq_false, false_and, if_false] at returned
      cases returned
      refine ⟨⟨.fresh, fresh_represents, unreadAt data conn, ?_, le_rfl⟩, ?_⟩
      · exact (List.append_nil _).symm
      · exact fun each none => absurd none List.not_mem_nil
  · cases reached

/-- When no tag is found no message is ever dispatched that begins with one of the bytes that
were unread, so that a tag of which the last one is the first byte is lost with its frame. -/
theorem split_tag_lost (sids : ServiceID) (count : Nat) (ambient : Nat → Ambient) (data : Int)
    (conn : RecvPkt) (searching : Searching data conn)
    (missing : ∀ i, tagged ((unreadAt data conn).drop i) = false) (reads : List Read)
    (frame : List Byte) : ¬Survives sids count ambient data conn reads frame := by
  rintro ⟨history, reached, each, dispatched, -⟩
  have inPlace := continued_inPlace searching missing reached
  obtain ⟨before, after, -, at_, from_⟩ := inPlace.2 _ dispatched
  have length := unreadAt_length searching
  simp only at at_
  omega

end Split

/-- 27 bytes without a tag, of which the last is the first byte of one. -/
def halfTag : List Byte := List.replicate 26 0 ++ [TAG_HEAD_1]

theorem split_tag_lost_half_tag :
    ∃ conn, recvInto .fresh halfTag = .ok conn ∧
      ¬Survives ⟨1, 2, 3, 4⟩ 27 roomy 0 conn [⟨tenZeroes.tail, roomy, 36⟩] tenZeroes := by
  obtain ⟨conn, stored, searching, unread, -⟩ :=
    searching_of_received halfTag (by decide) (by decide)
  refine ⟨conn, stored, split_tag_lost ⟨1, 2, 3, 4⟩ 27 roomy 0 conn searching ?_ _ _⟩
  rw [unread]
  exact (firstTag_eq_none halfTag).mp (by decide)

/-- A valid frame of which the first byte ends one read and the others are the next read: it has
arrived, and nothing is dispatched. -/
theorem frame_lost_at_cut :
    ∃ conn, recvInto .fresh halfTag = .ok conn ∧ Searching 0 conn ∧
      (∀ i, tagged ((unreadAt 0 conn).drop i) = false) ∧
      (unreadAt 0 conn).getLast? = some TAG_HEAD_1 ∧
      TAG_HEAD_1 :: tenZeroes.tail = tenZeroes ∧ Framed tenZeroes ∧ goodSum tenZeroes = true ∧
      (∃ history, continued ⟨1, 2, 3, 4⟩ 27 roomy 0 conn [⟨tenZeroes.tail, roomy, 36⟩] =
        some history ∧ history.dispatched = []) ∧
      ¬Survives ⟨1, 2, 3, 4⟩ 27 roomy 0 conn [⟨tenZeroes.tail, roomy, 36⟩] tenZeroes := by
  obtain ⟨conn, stored, searching, unread, -⟩ :=
    searching_of_received halfTag (by decide) (by decide)
  have ends : ((recvInto .fresh halfTag).toOption.bind fun conn =>
      (continued ⟨1, 2, 3, 4⟩ 27 roomy 0 conn [⟨tenZeroes.tail, roomy, 36⟩]).map
        fun history => history.dispatched.length) = some 0 := by
    decide +kernel
  rw [stored] at ends
  obtain ⟨history, reached, none⟩ := Option.map_eq_some_iff.mp ends
  have nothing := List.length_eq_zero_iff.mp none
  refine ⟨conn, stored, searching, ?_, ?_, rfl, tenZeroes_framed, by decide,
    ⟨history, reached, nothing⟩, ?_⟩
  · rw [unread]
    exact (firstTag_eq_none halfTag).mp (by decide)
  · rw [unread]
    rfl
  · rintro ⟨other, same, each, dispatched, -⟩
    cases reached.symm.trans same
    rw [nothing] at dispatched
    cases dispatched

end SNFrame.Receive.Placement
