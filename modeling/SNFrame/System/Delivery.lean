import SNFrame.Receive.RoundTrip
import SNFrame.Send.SendStream

/-! One direction of a connection between two processes: the messages that the one builds and
pushes, the bytes that its `write` hands to the kernel, and what the `read` and `parse` of the
other make of them. Between the two lies the byte stream of TCP. -/

namespace SNFrame.System.Delivery
open Library.Octet Library.Framing Library.Transition Base.PbBuf Base.Checksum Base.FrameCodec
open Core.Receiving Core.TcpParse Receive.Assembler Receive.Refinement Receive.FrameStream
open Receive.Session Receive.RoundTrip Send.SendStream

/-- What a caller has to say in one message. -/
structure Letter where
  srvId : BitVec 32
  sockId : BitVec 32
  number : BitVec 16
  sid : BitVec 16
  cid : BitVec 16
  version : Byte
  body : List Byte
  nonzero : number ≠ 0 ∧ sid ≠ 0 ∧ cid ≠ 0 ∧ version ≠ 0
  someByte : 0 < body.length
  small : body.length ≤ 65508

def Letter.WrittenIn (letter : Letter) (msg : IMString) : Prop :=
  Built letter.srvId letter.sockId letter.number letter.sid letter.cid letter.version letter.body
    msg

/-- The calls that write a letter into a message: `set_tag`, `set_body_head` and one of
`set_data` and `set_pb`, in any order. -/
structure Posting where
  letter : Letter
  msg : IMString
  obtained : Obtained msg
  fill : Call
  fills : Fills msg letter.body fill
  calls : List (Heap × Call)
  order : (calls.map Prod.snd).Perm [.tag letter.srvId letter.sockId,
    .bodyHead letter.number letter.sid letter.cid letter.version, fill]
  malloc : ∀ each ∈ calls, each.1.malloc = true

def Posting.message (posting : Posting) : IMString := build posting.msg posting.calls

theorem Posting.written (posting : Posting) : posting.letter.WrittenIn posting.message :=
  built_of_calls posting.obtained.ready posting.fills posting.letter.someByte posting.letter.small
    posting.letter.nonzero posting.order posting.malloc

section Written
variable {letter : Letter} {msg : IMString} (written : letter.WrittenIn msg)
include written

theorem written_framed : Framed msg.bytes :=
  framed_of_built written letter.someByte letter.small

theorem written_goodSum : goodSum msg.bytes = true := goodSum_of_carries written.carries

theorem written_sound : Sound msg := by
  have mLen := written.carries.mLen
  have inside := written.carries.inside
  simp only [blockSize] at inside
  simp only [Sound]
  omega

/-- The copy that the receiver makes of the frame holds the letter too. -/
theorem written_held : letter.WrittenIn (held msg.bytes []) := by
  have size := bytes_length written.carries
  have same : ∀ addr, addr < HEAD_LEN + letter.body.length →
      byteOf (held msg.bytes []) addr = byteOf msg addr := by
    intro addr inside
    rw [← bytes_getD written.carries addr inside]
    simp only [byteOf, held, List.append_nil, Option.getD_some]
  have room : blockSize (held msg.bytes []) = HEAD_LEN + letter.body.length := by
    simp only [blockSize, held, List.append_nil, Option.getD_some, size]
  constructor
  · exact ⟨rfl, by rw [room]; simp only [held, List.append_nil, size], by rw [room]; omega⟩
  · exact written.tag.congr fun addr inside => same addr (by
      simp only [TagRegion] at inside
      rw [HEAD_LEN]
      omega)
  · exact written.head.congr fun addr inside => same addr (by
      simp only [HeadRegion] at inside
      rw [HEAD_LEN]
      omega)
  · exact ⟨written.carries.set.congr fun addr _ inside => same addr inside,
      by rw [held_mLen, size], le_of_eq room.symm⟩

end Written

/-! ### The channel -/

/-- The sending half of the one connection, the receiving half of the other, and the letters
posted so far. -/
structure Channel where
  output : Output
  link : Link
  letters : List Letter

def Channel.fresh : Channel := ⟨.fresh, .fresh, []⟩

inductive Event where
  | post (posting : Posting)
  | write (outcomes : List Core.Sending.SendResult)
  | read (call : Read)

/-- `Connection::push`, `TcpServer::write` and `TcpServer::read`, in any order. The stream hands
over accepted bytes only, and each of them once and in its place. -/
def step (sids : ServiceID) (channel : Channel) : Event → Option Channel
  | .post posting =>
      (Send.SendStream.step channel.output (.push posting.message)).map fun output =>
        { channel with output := output, letters := channel.letters ++ [posting.letter] }
  | .write outcomes =>
      (Send.SendStream.step channel.output (.write outcomes)).map fun output =>
        { channel with output := output }
  | .read call =>
      if channel.link.received ++ call.chunk <+: channel.output.accepted then
        (serve sids channel.link call).map fun link => { channel with link := link }
      else none

/-- The dispatched message is the letter: every getter gives back what was set, and it went to
`parseCommonProto` or to `handler` by the letter's service. -/
structure Delivers (sids : ServiceID) (letter : Letter) (dispatch : Dispatch) : Prop where
  reads : ∀ heap, Reads heap letter.srvId letter.sockId letter.number letter.sid letter.cid
    letter.version letter.body dispatch.msg
  route : dispatch = .common dispatch.msg ↔
    letter.sid = sids.SID_ROUTER ∨ letter.sid = sids.SID_OTHER

/-- A dispatched message has passed `check` and the comparison of its service. -/
def Delivered (sids : ServiceID) (dispatch : Dispatch) : Prop :=
  ∃ ambient, dispatch ∈ deliver sids ambient dispatch.msg

theorem deliver_delivered {sids : ServiceID} {ambient : Ambient} {msg : IMString}
    {dispatch : Dispatch} (inside : dispatch ∈ deliver sids ambient msg) :
    Delivered sids dispatch := by
  have same : dispatch.msg = msg := by
    unfold deliver at inside
    grind [Dispatch.msg]
  exact ⟨ambient, same.symm ▸ inside⟩

theorem step_delivered {sids : ServiceID} {ambient : Ambient} {state later : Assembly}
    {long : HEAD_LEN ≤ state.unread.length} {out : List Dispatch}
    (moved : Receive.Assembler.step sids ambient state long = .next later out) :
    ∀ dispatch ∈ out, Delivered sids dispatch := by
  intro dispatch inside
  have from_deliver : ∃ msg, dispatch ∈ deliver sids ambient msg := by
    unfold Receive.Assembler.step at moved
    grind
  obtain ⟨msg, delivered⟩ := from_deliver
  exact deliver_delivered delivered

theorem assemble_delivered {sids : ServiceID} (count : Nat) (ambient : Nat → Ambient)
    {state last : Assembly} {out : List Dispatch}
    (ended : assemble sids count ambient state = some (last, out)) :
    ∀ dispatch ∈ out, Delivered sids dispatch := by
  have whole : ∀ dispatch ∈ [] ++ out, Delivered sids dispatch := by
    refine assemble_induction (fun _ so_far => ∀ dispatch ∈ so_far, Delivered sids dispatch)
      ?_ ?_ count ambient [] (fun _ none => nomatch none) ended
    · intro ambient state long later more so_far here moved dispatch inside
      obtain before | added := List.mem_append.mp inside
      · exact here dispatch before
      · exact step_delivered moved dispatch added
    · intro ambient state long later so_far here moved
      exact here
  exact whole

theorem delivers_of_written {sids : ServiceID} {letter : Letter} {msg : IMString}
    {dispatch : Dispatch} (written : letter.WrittenIn msg) (delivered : Delivered sids dispatch)
    (same : dispatch.msg = held msg.bytes []) : Delivers sids letter dispatch := by
  have reads : ∀ heap, Reads heap letter.srvId letter.sockId letter.number letter.sid letter.cid
      letter.version letter.body dispatch.msg :=
    fun heap => same ▸ reads_of_built heap (written_held written) letter.small
  refine ⟨reads, ?_⟩
  obtain ⟨ambient, inside⟩ := delivered
  have service := (reads ambient.toHeap).service
  unfold deliver at inside
  simp only [service] at inside
  split at inside
  · by_cases common : letter.sid = sids.SID_ROUTER ∨ letter.sid = sids.SID_OTHER
    · rw [if_pos common] at inside
      exact iff_of_true (List.mem_singleton.mp inside) common
    · rw [if_neg common] at inside
      have handled := List.mem_singleton.mp inside
      refine iff_of_false (fun other => ?_) common
      rw [handled] at other
      cases other
  · cases inside

/-! ### The invariant of the channel -/

/-- The letters are written in the messages pushed, the stream received begins the stream of
their frames, and the receiver stands at a cut of it. -/
structure Flows (sids : ServiceID) (channel : Channel) : Prop where
  sending : SendInv channel.output
  written : List.Forall₂ Letter.WrittenIn channel.letters channel.output.pushed
  behind : channel.link.received <+: channel.output.accepted
  receiving : ∃ state, InStream (channel.output.pushed.map IMString.bytes) channel.link state
  delivered : ∀ dispatch ∈ channel.link.dispatched, Delivered sids dispatch

theorem fresh_flows (sids : ServiceID) : Flows sids .fresh where
  sending := ⟨fresh_sending, rfl⟩
  written := .nil
  behind := List.nil_prefix
  receiving := ⟨.fresh, fresh_inStream _⟩
  delivered := fun _ none => nomatch none

theorem pushed_written {letters : List Letter} {pushed : List IMString}
    (written : List.Forall₂ Letter.WrittenIn letters pushed) :
    ∀ msg ∈ pushed, ∃ letter : Letter, letter.WrittenIn msg := by
  induction written with
  | nil => exact fun _ none => nomatch none
  | cons first _ ih =>
    intro msg inside
    obtain rfl | inside := List.mem_cons.mp inside
    · exact ⟨_, first⟩
    · exact ih msg inside

theorem pushed_framed {letters : List Letter} {pushed : List IMString}
    (written : List.Forall₂ Letter.WrittenIn letters pushed) :
    ∀ frame ∈ pushed.map IMString.bytes, Framed frame := by
  intro frame inside
  obtain ⟨msg, pushedMsg, rfl⟩ := List.mem_map.mp inside
  obtain ⟨letter, here⟩ := pushed_written written msg pushedMsg
  exact written_framed here

/-- More frames behind the ones of the stream change nothing for what has been received. -/
theorem inStream_append {frames more : List (List Byte)} {link : Link} {state : Assembly}
    (here : InStream frames link state) : InStream (frames ++ more) link state := by
  obtain ⟨rep, short, later, total, before, after, split, cut⟩ := here
  refine ⟨rep, short, later ++ more.flatten, ?_, before, after ++ more, ?_, ?_, cut.dispatched⟩
  · rw [← List.append_assoc, total, List.flatten_append]
  · rw [split, List.append_assoc]
  · rw [← List.append_assoc, cut.inHand, List.flatten_append]

theorem accepted_prefix_pushed {output : Output} (sending : SendInv output) :
    output.accepted <+: (output.pushed.map IMString.bytes).flatten :=
  ⟨unsentBytes output.queue output.send, sending.stream⟩

theorem step_flows {sids : ServiceID} {channel next : Channel} {event : Event}
    (flows : Flows sids channel) (stepped : step sids channel event = some next) :
    Flows sids next := by
  cases event with
  | post posting =>
    simp only [step] at stepped
    obtain ⟨output, pushed, rfl⟩ := Option.map_eq_some_iff.mp stepped
    have sound : PushesSound (.push posting.message) := written_sound posting.written
    have sending := step_sendInv flows.sending sound pushed
    cases pushed
    refine ⟨sending, ?_, flows.behind, ?_, flows.delivered⟩
    · exact List.rel_append flows.written (.cons posting.written .nil)
    · obtain ⟨state, here⟩ := flows.receiving
      refine ⟨state, ?_⟩
      simp only [List.map_append]
      exact inStream_append here
  | write outcomes =>
    simp only [step] at stepped
    obtain ⟨output, wrote, rfl⟩ := Option.map_eq_some_iff.mp stepped
    have sending :=
      step_sendInv flows.sending (show PushesSound (.write outcomes) from trivial) wrote
    cases wrote
    exact ⟨sending, flows.written, flows.behind.trans (List.prefix_append ..), flows.receiving,
      flows.delivered⟩
  | read call =>
    simp only [step] at stepped
    split at stepped
    · next available =>
      obtain ⟨link, served, rfl⟩ := Option.map_eq_some_iff.mp stepped
      obtain ⟨state, here⟩ := flows.receiving
      have cuts : Cuts (channel.output.pushed.map IMString.bytes) channel.link call :=
        available.trans (accepted_prefix_pushed flows.sending)
      obtain ⟨last, out, ended, there⟩ :=
        serve_inStream (pushed_framed flows.written) here cuts served
      obtain ⟨last', out', ended', -, received, dispatched⟩ := serve_spec here.rep served
      rw [ended] at ended'
      cases ended'
      refine ⟨flows.sending, flows.written, received ▸ available, ⟨last, there⟩, ?_⟩
      intro dispatch inside
      simp only [dispatched] at inside
      obtain before | added := List.mem_append.mp inside
      · exact flows.delivered dispatch before
      · exact assemble_delivered _ _ ended dispatch added
    · cases stepped

theorem run_flows {sids : ServiceID} {events : List Event} {channel : Channel}
    (reached : run (step sids) .fresh events = some channel) : Flows sids channel :=
  run_invariant (Flows sids) (fun _ _ _ flows stepped => step_flows flows stepped)
    (fresh_flows sids) reached

/-! ### What arrives -/

theorem forall₂_delivers {sids : ServiceID} {letters : List Letter} {pushed : List IMString}
    {dispatched : List Dispatch} (written : List.Forall₂ Letter.WrittenIn letters pushed)
    (same : dispatched.map Dispatch.msg = pushed.map fun msg => held msg.bytes [])
    (delivered : ∀ dispatch ∈ dispatched, Delivered sids dispatch) :
    List.Forall₂ (Delivers sids) letters dispatched := by
  induction written generalizing dispatched with
  | nil =>
    rw [List.map_nil, List.map_eq_nil_iff] at same
    exact same ▸ .nil
  | cons first _ ih =>
    cases dispatched with
    | nil => cases same
    | cons dispatch rest =>
      rw [List.map_cons, List.map_cons, List.cons_eq_cons] at same
      have here := delivers_of_written first (delivered dispatch List.mem_cons_self) same.1
      exact .cons here (ih same.2 fun other inside =>
        delivered other (List.mem_cons_of_mem _ inside))

/-- The receiver's cut of the stream, seen from the letters: the ones before it are delivered. -/
theorem flows_cut {sids : ServiceID} {channel : Channel} (flows : Flows sids channel) :
    ∃ state k later, Represents 0 channel.link.conn state ∧ state.unread.length < HEAD_LEN ∧
      k ≤ channel.letters.length ∧
      List.Forall₂ (Delivers sids) (channel.letters.take k) channel.link.dispatched ∧
      channel.link.received ++ later = (channel.output.pushed.map IMString.bytes).flatten ∧
      state.inHand ++ later = ((channel.output.pushed.drop k).map IMString.bytes).flatten := by
  obtain ⟨state, rep, short, later, total, before, after, split, cut⟩ := flows.receiving
  have lengths := flows.written.length_eq
  have sizes := congrArg List.length split
  rw [List.length_map, List.length_append] at sizes
  have front : (channel.output.pushed.take before.length).map IMString.bytes = before := by
    rw [List.map_take, split, List.take_left]
  have back : (channel.output.pushed.drop before.length).map IMString.bytes = after := by
    rw [List.map_drop, split, List.drop_left]
  have good : before.filter goodSum = before := by
    rw [List.filter_eq_self]
    intro frame inside
    rw [← front] at inside
    obtain ⟨msg, taken, rfl⟩ := List.mem_map.mp inside
    obtain ⟨letter, here⟩ := pushed_written flows.written msg (List.mem_of_mem_take taken)
    exact written_goodSum here
  have same : channel.link.dispatched.map Dispatch.msg =
      (channel.output.pushed.take before.length).map fun msg => held msg.bytes [] := by
    rw [cut.dispatched, good]
    conv_lhs => rw [← front]
    rw [List.map_map]
    rfl
  refine ⟨state, before.length, later, rep, short, by omega, ?_, total, ?_⟩
  · exact forall₂_delivers (List.forall₂_take before.length flows.written) same flows.delivered
  · rw [back]
    exact cut.inHand

/-- Whatever the interleaving of posts, writes and reads, and however the bytes are cut on
their way, the messages dispatched are the first letters posted: in order, each once, with every
field and the body as they were set, and sent on by their service. -/
theorem letters_delivered_in_order (sids : ServiceID) (events : List Event) (channel : Channel)
    (reached : run (step sids) .fresh events = some channel) :
    ∃ k, k ≤ channel.letters.length ∧
      List.Forall₂ (Delivers sids) (channel.letters.take k) channel.link.dispatched := by
  obtain ⟨state, k, later, -, -, inside, delivers, -, -⟩ := flows_cut (run_flows reached)
  exact ⟨k, inside, delivers⟩

/-- A body of one byte for service 3, command 1. -/
def oneByte : Letter :=
  ⟨1, 2, 1, 3, 1, 1, [5], by decide, by decide, by decide⟩

def oneBytePosting : Posting where
  letter := oneByte
  msg := (init ⟨true, fun _ => 0⟩).2
  obtained := .init rfl
  fill := .data [5]
  fills := .data
  calls := [(⟨true, fun _ => 0⟩, .tag 1 2), (⟨true, fun _ => 0⟩, .bodyHead 1 3 1 1),
    (⟨true, fun _ => 0⟩, .data [5])]
  order := List.Perm.refl _
  malloc := by simp

/-- The message is pushed, sent by two calls of `send` and received by two reads. -/
def oneBytePosted : List Event :=
  [.post oneBytePosting, .write [.sent 20, .failed .EAGAIN], .write [.sent 20],
    .read ⟨oneBytePosting.message.bytes.take 27, roomy, 27⟩,
    .read ⟨oneBytePosting.message.bytes.drop 27, roomy, 28⟩]

theorem letters_delivered_in_order_one :
    ∃ channel, run (step ⟨1, 2, 3, 4⟩) .fresh (oneBytePosted.take 4) = some channel ∧
      channel.letters.length = 1 ∧ ∃ k, k ≤ channel.letters.length ∧
        List.Forall₂ (Delivers ⟨1, 2, 3, 4⟩) (channel.letters.take k) channel.link.dispatched := by
  have returns : (run (step ⟨1, 2, 3, 4⟩) .fresh (oneBytePosted.take 4)).map
      (fun channel => channel.letters.length) = some 1 := by decide +kernel
  obtain ⟨channel, reached, posted⟩ := Option.map_eq_some_iff.mp returns
  exact ⟨channel, reached, posted, letters_delivered_in_order _ _ channel reached⟩

/-- Once the sender has sent everything and the receiver has read everything, every letter has
been dispatched, except for one that `parse` keeps in `pkt` because fewer than a header's bytes
of it came last. -/
theorem letters_all_delivered (sids : ServiceID) (events : List Event) (channel : Channel)
    (reached : run (step sids) .fresh events = some channel)
    (drained : Core.Sending.empty channel.output.queue channel.output.send = true)
    (arrived : channel.link.received = channel.output.accepted) :
    channel.letters.length = channel.link.dispatched.length +
      if channel.link.conn.lessPktLen = 0 then 0 else 1 := by
  have flows := run_flows reached
  obtain ⟨state, k, later, rep, short, inside, delivers, total, aligned⟩ := flows_cut flows
  have counted := delivers.length_eq
  rw [List.length_take, Nat.min_eq_left inside] at counted
  have lengths := flows.written.length_eq
  have nothingLater : later = [] := by
    have stream := flows.sending.stream
    simp only [Core.Sending.empty, Bool.and_eq_true, List.isEmpty_iff] at drained
    simp only [unsentBytes, inProgress, drained.1, drained.2, if_true, List.map_nil,
      List.flatten_nil, List.append_nil] at stream
    rw [arrived, ← stream] at total
    exact List.append_cancel_left (total.trans (List.append_nil _).symm)
  rw [nothingLater, List.append_nil] at aligned
  have framed : ∀ frame ∈ (channel.output.pushed.drop k).map IMString.bytes, Framed frame := by
    intro frame inRest
    obtain ⟨msg, dropped, rfl⟩ := List.mem_map.mp inRest
    exact pushed_framed flows.written _ (List.mem_map_of_mem (List.mem_of_mem_drop dropped))
  have rest : (channel.output.pushed.drop k).length =
      if channel.link.conn.lessPktLen = 0 then 0 else 1 := by
    rw [← List.length_map (f := IMString.bytes)]
    generalize (channel.output.pushed.drop k).map IMString.bytes = after at aligned framed
    have pkt := rep.pkt
    obtain ⟨unread, pending⟩ := state
    simp only at short
    cases pending with
    | none =>
      rw [if_pos pkt.1]
      cases after with
      | nil => rfl
      | cons frame rest =>
        have body := (framed frame List.mem_cons_self).body
        have size := congrArg List.length aligned
        simp only [Assembly.inHand, List.nil_append, List.flatten_cons, List.length_append] at size
        omega
    | some pending =>
      have positive := pending.short
      have less := pkt.1
      rw [if_neg (by omega)]
      simp only [Assembly.inHand] at aligned
      have begun : 0 < pending.got.length := Nat.lt_of_lt_of_le (by decide) pending.headed
      obtain ⟨frame, rest, rfl⟩ := exists_head_frame aligned begun
      rw [List.flatten_cons] at aligned
      have here := framed frame List.mem_cons_self
      have whole : pending.got.length + pending.less = frame.length := by
        rw [pending.total]
        exact format.size_of_aligned aligned here.sized pending.headed
      cases rest with
      | nil => rfl
      | cons second rest =>
        have body := (framed second (List.mem_cons_of_mem _ List.mem_cons_self)).body
        have size := congrArg List.length aligned
        simp only [List.flatten_cons, List.length_append] at size
        omega
  rw [List.length_drop] at rest
  omega

theorem letters_all_delivered_short_tail :
    ∃ channel, run (step ⟨1, 2, 3, 4⟩) .fresh oneBytePosted = some channel ∧
      channel.link.conn.lessPktLen = 1 ∧
      channel.letters.length = channel.link.dispatched.length +
        if channel.link.conn.lessPktLen = 0 then 0 else 1 := by
  have returns : (run (step ⟨1, 2, 3, 4⟩) .fresh oneBytePosted).map (fun channel =>
      (Core.Sending.empty channel.output.queue channel.output.send,
        decide (channel.link.received = channel.output.accepted), channel.link.conn.lessPktLen)) =
      some (true, true, 1) := by decide +kernel
  obtain ⟨channel, reached, fields⟩ := Option.map_eq_some_iff.mp returns
  simp only [Prod.mk.injEq, decide_eq_true_eq] at fields
  obtain ⟨drained, arrived, held⟩ := fields
  exact ⟨channel, reached, held, letters_all_delivered _ _ channel reached drained arrived⟩

end SNFrame.System.Delivery
