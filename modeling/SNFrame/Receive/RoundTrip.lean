import SNFrame.Base.FrameCodec
import SNFrame.Receive.Session

/-! From the calls that build a message to the receiver that gets its bytes. -/

namespace SNFrame.Receive.RoundTrip
open Library.Octet Library.Framing Library.Transition Base.PbBuf Base.Checksum Base.FrameCodec
open Core.Receiving Core.TcpParse Assembler Refinement FrameStream Session

/-- A message from `bufalloc` or `init`, with room for a header. -/
inductive Obtained : IMString → Prop where
  | bufalloc {heap : Heap} (malloc : heap.malloc = true) (len : Int) (room : HEAD_LEN ≤ len) :
      Obtained (bufalloc heap len).2
  | init {heap : Heap} (malloc : heap.malloc = true) : Obtained (init heap).2

theorem Obtained.ready {msg : IMString} (obtained : Obtained msg) : Ready msg := by
  cases obtained with
  | bufalloc malloc len room =>
    rw [Base.PbBuf.bufalloc, if_pos malloc]
    refine ⟨rfl, ?_, ?_⟩ <;> simp only [blockSize, Option.getD_some, List.length_replicate] <;> omega
  | init malloc =>
    rw [Base.PbBuf.init, if_pos malloc]
    refine ⟨rfl, ?_, ?_⟩ <;> simp only [blockSize, Option.getD_some, List.length_replicate]
    decide

/-- The calls that set the body to the given bytes. -/
inductive Fills (msg : IMString) (body : List Byte) : Call → Prop where
  | data : Fills msg body (.data body)
  | pb (message : MessageLite) (complete : message.serializes = true) (same : message.payload = body)
      (room : HEAD_LEN + body.length ≤ msg.mAlloc) : Fills msg body (.pb message)

theorem Fills.apart {msg : IMString} {body : List Byte} {call : Call} (fills : Fills msg body call) :
    call.Region = BodyRegion := by
  cases fills <;> rfl

theorem Fills.fits {msg : IMString} {body : List Byte} {call : Call} (fills : Fills msg body call)
    (ready : Ready msg) (some_byte : 0 < body.length) (small : body.length ≤ 65508) :
    call.Fits msg := by
  cases fills with
  | data => exact ⟨some_byte, small⟩
  | pb message complete same room =>
    have alloc := ready.alloc
    subst same
    exact ⟨complete, some_byte, small, by omega⟩

theorem Fills.carries {msg next : IMString} {body : List Byte} {call : Call}
    (fills : Fills msg body call) (done : call.Done next) : Carries body next := by
  cases fills with
  | data => exact done
  | pb message complete same room => exact same ▸ done

theorem tag_apart_head (srvId sockId : BitVec 32) (number sid cid : BitVec 16) (version : Byte) :
    (Call.tag srvId sockId).Apart (.bodyHead number sid cid version) := by
  intro addr inside other
  simp only [Call.Region, TagRegion, HeadRegion] at inside other
  omega

theorem apart_symm {call other : Call} (apart : call.Apart other) : other.Apart call :=
  fun addr inside also => apart addr also inside

theorem tag_apart_fills {msg : IMString} {body : List Byte} {call : Call}
    (fills : Fills msg body call) (srvId sockId : BitVec 32) :
    (Call.tag srvId sockId).Apart call := by
  intro addr inside other
  rw [fills.apart] at other
  simp only [Call.Region, TagRegion, BodyRegion] at inside other
  omega

theorem head_apart_fills {msg : IMString} {body : List Byte} {call : Call}
    (fills : Fills msg body call) (number sid cid : BitVec 16) (version : Byte) :
    (Call.bodyHead number sid cid version).Apart call := by
  intro addr inside other
  rw [fills.apart] at other
  simp only [Call.Region, HeadRegion, BodyRegion] at inside other
  omega

/-- The message after the three calls, in any order. -/
structure Built (srvId sockId : BitVec 32) (number sid cid : BitVec 16) (version : Byte)
    (body : List Byte) (msg : IMString) : Prop where
  ready : Ready msg
  tag : TagSet srvId sockId (byteOf msg)
  head : HeadSet number sid cid version (byteOf msg)
  carries : Carries body msg

theorem built_of_calls {msg : IMString} {body : List Byte} {fill : Call} {srvId sockId : BitVec 32}
    {number sid cid : BitVec 16} {version : Byte} {calls : List (Heap × Call)} (ready : Ready msg)
    (fills : Fills msg body fill) (some_byte : 0 < body.length) (small : body.length ≤ 65508)
    (nonzero : number ≠ 0 ∧ sid ≠ 0 ∧ cid ≠ 0 ∧ version ≠ 0)
    (order : (calls.map Prod.snd).Perm [.tag srvId sockId, .bodyHead number sid cid version, fill])
    (malloc : ∀ each ∈ calls, each.1.malloc = true) :
    Built srvId sockId number sid cid version body (build msg calls) := by
  have fits : ∀ each ∈ calls, each.2.Fits msg := by
    intro each inside
    have listed := order.mem_iff.mp (List.mem_map_of_mem (f := Prod.snd) inside)
    simp only [List.mem_cons, List.not_mem_nil, or_false] at listed
    obtain call | call | call := listed
    · rw [call]
      trivial
    · rw [call]
      exact nonzero
    · rw [call]
      exact fills.fits ready some_byte small
  have pairwise : calls.Pairwise fun first second => first.2.Apart second.2 := by
    rw [← List.pairwise_map (f := Prod.snd) (R := Call.Apart)]
    refine (order.pairwise_iff fun apart => apart_symm apart).mpr ?_
    simp only [List.pairwise_cons, List.mem_cons, List.not_mem_nil, or_false, forall_eq_or_imp,
      forall_eq, List.Pairwise.nil, and_true, false_implies, implies_true]
    exact ⟨⟨tag_apart_head srvId sockId number sid cid version, tag_apart_fills fills srvId sockId⟩,
      head_apart_fills fills number sid cid version⟩
  obtain ⟨final, -, done⟩ := build_done calls [] ready malloc fits (fun _ none => nomatch none)
    (fun _ none => nomatch none) pairwise
  have each_done : ∀ call ∈ [.tag srvId sockId, .bodyHead number sid cid version, fill],
      call.Done (build msg calls) := by
    intro call listed
    obtain ⟨each, inside, same⟩ := List.mem_map.mp (order.mem_iff.mpr listed)
    rw [← same]
    exact done each inside
  exact ⟨final, each_done (.tag srvId sockId) (by simp),
    each_done (.bodyHead number sid cid version) (by simp),
    fills.carries (each_done fill (by simp))⟩

theorem framed_of_built {srvId sockId : BitVec 32} {number sid cid : BitVec 16} {version : Byte}
    {body : List Byte} {msg : IMString} (built : Built srvId sockId number sid cid version body msg)
    (some_byte : 0 < body.length) (small : body.length ≤ 65508) : Framed msg.bytes := by
  have size := bytes_length built.carries
  have header : ∀ addr, addr < HEAD_LEN → msg.bytes.getD addr 0 = byteOf msg addr :=
    fun addr inside => bytes_getD built.carries addr (Nat.lt_add_right _ inside)
  have len := built.carries.set.len
  refine ⟨?_, ?_, by omega⟩
  · have field : lenField msg.bytes = BitVec.ofNat 16 body.length := by
      simp only [lenField, header 24 (by decide), header 25 (by decide)]
      simp only [Holds16, offLen] at len
      rw [len.1, len.2, word16_bytes]
      exact swap16_swap16 _
    change msg.bytes.length = (lenField msg.bytes).toNat + HEAD_LEN
    rw [field, size, BitVec.toNat_ofNat, Nat.mod_eq_of_lt (by omega), Nat.add_comm]
  · simp only [tagged, header 0 (by decide), header 1 (by decide), built.tag.first, built.tag.second,
      decide_true, Bool.and_self]

/-! ### What follows of the message -/

/-- The getters give back what was set. -/
structure Reads (heap : Heap) (srvId sockId : BitVec 32) (number sid cid : BitVec 16)
    (version : Byte) (body : List Byte) (msg : IMString) : Prop where
  srv : getSrvId heap msg = srvId
  sock : getSocketId heap msg = sockId
  msgId : getMsgId heap msg = number
  packge : getPackgeNumber heap msg = number
  service : getSid heap msg = sid
  cmd : getCmd heap msg = cid
  ver : getVersion heap msg = version
  protocl : (getProtocl heap msg).toNat = sid.toNat * 65536 + cid.toNat
  len : (getDataLen heap msg).toNat = body.length
  size : (dataLen msg).toNat = body.length
  data : (getData msg).map (List.take body.length) = some body

theorem reads_of_built (heap : Heap) {srvId sockId : BitVec 32} {number sid cid : BitVec 16}
    {version : Byte} {body : List Byte} {msg : IMString}
    (built : Built srvId sockId number sid cid version body msg) (small : body.length ≤ 65508) :
    Reads heap srvId sockId number sid cid version body msg := by
  obtain ⟨srv, sock⟩ := getters_tag heap built.ready built.tag
  obtain ⟨msgId, packge, service, cmd, ver, protocl⟩ :=
    getters_head heap built.ready built.head
  obtain ⟨len, size, data⟩ := getters_body heap built.ready built.carries small
  have both : (getProtocl heap msg).toNat = sid.toNat * 65536 + cid.toNat := by
    rw [protocl, append_toNat]
    rfl
  exact ⟨srv, sock, msgId, packge, service, cmd, ver, both, len, size, data⟩

/-- `set_tag` or `set_body_head`, with any arguments. -/
inductive Rewrites : Call → Prop where
  | tag (srvId sockId : BitVec 32) : Rewrites (.tag srvId sockId)
  | bodyHead (number sid cid : BitVec 16) (version : Byte) :
      Rewrites (.bodyHead number sid cid version)

theorem rewritten_carries {body : List Byte} (calls : List (Heap × Call)) {msg : IMString}
    (header : ∀ each ∈ calls, Rewrites each.2) (ready : Ready msg) (carries : Carries body msg) :
    Ready (build msg calls) ∧ Carries body (build msg calls) := by
  induction calls generalizing msg with
  | nil => exact ⟨ready, carries⟩
  | cons first calls ih =>
    have kept : Kept first.2.Region msg (first.2.apply first.1 msg) ∧
        (∀ addr, BodyRegion addr → ¬first.2.Region addr) := by
      cases call : first.2 with
      | tag srvId sockId =>
        refine ⟨setTag_kept first.1 ready srvId sockId, fun addr inBody inside => ?_⟩
        simp only [Call.Region, TagRegion, BodyRegion] at inBody inside
        omega
      | bodyHead number sid cid version =>
        refine ⟨setBodyHead_kept first.1 ready number sid cid version, fun addr inBody inside => ?_⟩
        simp only [Call.Region, HeadRegion, BodyRegion] at inBody inside
        omega
      | data body =>
        have rewrites := header first List.mem_cons_self
        rw [call] at rewrites
        cases rewrites
      | pb message =>
        have rewrites := header first List.mem_cons_self
        rw [call] at rewrites
        cases rewrites
    exact ih (fun each inside => header each (List.mem_cons_of_mem _ inside)) kept.1.ready
      (Call.carries_of_kept carries kept.1 kept.2 (Call.apply_mLen first.1 first.2 ready kept.2))

/-- A good frame at the head of a stream is the first message dispatched, once a header's length
of what follows it has arrived. -/
theorem first_dispatched {frame : List Byte} {more : List (List Byte)} {link : Link}
    {state : Assembly} (framed : ∀ each ∈ frame :: more, Framed each) (good : goodSum frame = true)
    (here : InStream (frame :: more) link state)
    (long : frame.length + HEAD_LEN ≤ link.received.length) :
    ∃ first, link.dispatched.head? = some first ∧ first.msg = held frame [] := by
  obtain ⟨rep, short, later, total, before, after, split, cut⟩ := here
  have received := received_of_cut (split ▸ total) cut
  cases before with
  | nil =>
    exfalso
    rw [List.nil_append] at split
    subst split
    rw [received] at long
    have aligned := cut.inHand
    obtain ⟨unread, pending⟩ := state
    cases pending with
    | none =>
      simp only [List.flatten_nil, List.nil_append, Assembly.inHand] at long short
      omega
    | some pending =>
      simp only [List.flatten_nil, List.nil_append, Assembly.inHand, List.length_append] at long
      simp only [Assembly.inHand, List.append_assoc, List.flatten_cons] at aligned
      have size : pending.got.length + pending.less = frame.length := by
        rw [pending.total]
        exact format.size_of_aligned aligned (framed frame List.mem_cons_self).sized pending.headed
      have positive := pending.short
      simp only at short
      omega
  | cons first before =>
    obtain ⟨rfl, -⟩ := List.cons_eq_cons.mp split
    have dispatched := cut.dispatched
    rw [List.filter_cons_of_pos good, List.map_cons] at dispatched
    cases out : link.dispatched with
    | nil => simp [out] at dispatched
    | cons each rest =>
      rw [out, List.map_cons, List.cons_eq_cons] at dispatched
      exact ⟨each, rfl, dispatched.1⟩

/-- The frame codec round trip: whatever the order of the calls, the message has the length of
its frame, passes `check`, gives back what was set, keeps its checksum while the header is
rewritten, and is the first message that a receiver of its bytes dispatches. -/
theorem frame_round_trip (sids : ServiceID) (msg : IMString) (obtained : Obtained msg)
    (srvId sockId : BitVec 32) (number sid cid : BitVec 16) (version : Byte)
    (nonzero : number ≠ 0 ∧ sid ≠ 0 ∧ cid ≠ 0 ∧ version ≠ 0) (body : List Byte)
    (some_byte : 0 < body.length) (small : body.length ≤ 65508) (fill : Call)
    (fills : Fills msg body fill) (calls : List (Heap × Call))
    (order : (calls.map Prod.snd).Perm [.tag srvId sockId, .bodyHead number sid cid version, fill])
    (malloc : ∀ each ∈ calls, each.1.malloc = true) :
    (build msg calls).mLen = (HEAD_LEN + body.length : Nat) ∧
    (∀ heap, check heap (build msg calls) = true ∧
      Reads heap srvId sockId number sid cid version body (build msg calls)) ∧
    (∀ heap rewrites, (∀ each ∈ rewrites, Rewrites each.2) →
      check heap (build (build msg calls) rewrites) = true) ∧
    ∀ more reads, (∀ frame ∈ more, Framed frame) →
      Throughout (serve sids) (fun link read => Cuts ((build msg calls).bytes :: more) link read ∧
        read.Fits link.conn) .fresh reads →
      ∃ link, run (serve sids) .fresh reads = some link ∧
        (HEAD_LEN + body.length + HEAD_LEN ≤ link.received.length →
          ∃ first, link.dispatched.head? = some first ∧
            first.msg = held (build msg calls).bytes []) := by
  have built := built_of_calls obtained.ready fills some_byte small nonzero order malloc
  refine ⟨built.carries.mLen, fun heap => ⟨check_of_carries heap built.ready built.carries some_byte,
    reads_of_built heap built small⟩, fun heap rewrites header => ?_, fun more reads framed cut => ?_⟩
  · obtain ⟨ready, carries⟩ := rewritten_carries rewrites header built.ready built.carries
    exact check_of_carries heap ready carries some_byte
  · have all : ∀ frame ∈ (build msg calls).bytes :: more, Framed frame := by
      intro frame inside
      obtain rfl | inside := List.mem_cons.mp inside
      · exact framed_of_built built some_byte small
      · exact framed frame inside
    obtain ⟨link, state, reached, here⟩ := run_inStream sids all cut
    refine ⟨link, reached, fun long => ?_⟩
    rw [← bytes_length built.carries] at long
    exact first_dispatched all (goodSum_of_carries built.carries) here long

theorem frame_round_trip_one_byte :
    let heap : Heap := ⟨true, fun _ => 0⟩
    let msg := build (init heap).2 [(heap, .data [5]), (heap, .tag 1 2), (heap, .bodyHead 1 2 3 1)]
    msg.mLen = 28 ∧ check heap msg = true ∧ Reads heap 1 2 1 2 3 1 [5] msg := by
  intro heap msg
  obtain ⟨mLen, answers, -⟩ := frame_round_trip ⟨1, 2, 3, 4⟩ (init heap).2 (.init rfl) 1 2 1 2 3 1
    (by decide) [5] (by decide) (by decide) (.data [5]) .data
    [(heap, .data [5]), (heap, .tag 1 2), (heap, .bodyHead 1 2 3 1)]
    (show ([.data [5]] ++ [.tag 1 2, .bodyHead 1 2 3 1] : List Call).Perm
      ([.tag 1 2, .bodyHead 1 2 3 1] ++ [.data [5]]) from List.perm_append_comm)
    (by simp [heap])
  exact ⟨mLen, answers heap⟩

end SNFrame.Receive.RoundTrip
