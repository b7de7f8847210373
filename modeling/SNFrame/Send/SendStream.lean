import SNFrame.Core.Sending
import SNFrame.Library.Transition

/-! The stream that a connection sends. The bytes accepted by the kernel, the rest of the
message in progress and the queue, one after the other, are the messages pushed. -/

namespace SNFrame.Send.SendStream
open Library.Octet Library.Transition Base.PbBuf Core.Receiving Core.Sending

/-- The `m_len` bytes of a message lie in its block. -/
def Sound (msg : IMString) : Prop :=
  0 ≤ msg.mLen ∧ msg.mLen ≤ ((msg.mData.getD []).length : Nat)

theorem bytes_length_of_sound {msg : IMString} (sound : Sound msg) :
    (msg.bytes.length : Int) = msg.mLen := by
  have bounds := sound
  simp only [Sound] at bounds
  simp only [IMString.bytes, List.length_take]
  omega

/-- The sending half of a connection, with all bytes accepted and all messages pushed so far. -/
structure Output where
  queue : List IMString
  send : SendPkt
  accepted : List Byte
  pushed : List IMString

def Output.fresh : Output := ⟨[], .fresh, [], []⟩

inductive Event where
  | push (msg : IMString)
  | write (outcomes : List SendResult)

/-- `Connection::push` and `Connection::write`. A write whose list of returns is too short is
seen inside `send`, and the next write resumes it there. -/
def step (output : Output) : Event → Option Output
  | .push msg =>
      some { output with queue := output.queue ++ [msg], pushed := output.pushed ++ [msg] }
  | .write outcomes =>
      let trace := Core.Sending.write outcomes output.queue output.send
      some ⟨trace.queue, trace.send, output.accepted ++ trace.accepted, output.pushed⟩

/-- What is still to be sent of the message in progress, if there is one. -/
def inProgress (send : SendPkt) : List Byte := if send.finish then [] else send.remaining

/-- The bytes that a queue and a message in progress still have to send. -/
def unsentBytes (queue : List IMString) (send : SendPkt) : List Byte :=
  inProgress send ++ (queue.map IMString.bytes).flatten

structure SendBounds (send : SendPkt) : Prop where
  nonneg : 0 ≤ send.sendLen
  busy : send.finish = false → send.sendLen ≤ send.outPkt.mLen
  idle : send.finish = true → send.sendLen = 0

/-- The fields of the message in progress agree, and what is to be sent is sound. -/
structure Sending (queue : List IMString) (send : SendPkt) : Prop where
  bounds : SendBounds send
  current : send.finish = false → Sound send.outPkt
  queued : ∀ msg ∈ queue, Sound msg

theorem fresh_sending : Sending [] .fresh where
  bounds := ⟨le_rfl, (nomatch ·), fun _ => rfl⟩
  current := (nomatch ·)
  queued := fun _ none => nomatch none

/-- Taking the next message moves its bytes from the queue to the message in progress. -/
theorem nextPkt_sending {queue rest : List IMString} {send next : SendPkt}
    (sending : Sending queue send) (taken : nextPkt queue send = some (rest, next)) :
    next.finish = false ∧ Sending rest next ∧ unsentBytes rest next = unsentBytes queue send := by
  unfold nextPkt at taken
  by_cases busy : send.finish = false
  · rw [if_pos busy] at taken
    cases taken
    exact ⟨busy, sending, rfl⟩
  · rw [if_neg busy] at taken
    have idle : send.finish = true := by simpa using busy
    have start := sending.bounds.idle idle
    cases queue with
    | nil => cases taken
    | cons msg queue =>
      cases taken
      have sound := sending.queued msg List.mem_cons_self
      refine ⟨rfl, ⟨⟨sending.bounds.nonneg, fun _ => ?_, fun finished => nomatch finished⟩,
        fun _ => sound, fun other inside => sending.queued other (List.mem_cons_of_mem _ inside)⟩, ?_⟩
      · simp only [start]
        exact sound.1
      · simp [unsentBytes, inProgress, SendPkt.remaining, start, idle]

/-- Accepted bytes leave the front of what is to be sent. -/
theorem advance_sending {queue : List IMString} {send : SendPkt} {accepted rest : List Byte}
    (sending : Sending queue send) (busy : send.finish = false)
    (split : send.remaining = accepted ++ rest) :
    Sending queue (send.advance accepted.length) ∧
      unsentBytes queue send = accepted ++ unsentBytes queue (send.advance accepted.length) := by
  have sound := sending.current busy
  have size := bytes_length_of_sound sound
  have nonneg := sending.bounds.nonneg
  have inside := sending.bounds.busy busy
  have left : ((accepted.length + rest.length : Nat) : Int) = send.outPkt.mLen - send.sendLen := by
    rw [← List.length_append, ← split, SendPkt.remaining, List.length_drop]
    omega
  by_cases ends : send.sendLen + accepted.length = send.outPkt.mLen
  · have advanced : send.advance accepted.length = { send with sendLen := 0, finish := true } := by
      simp only [SendPkt.advance, if_pos ends]
    have nothing : rest = [] := List.length_eq_zero_iff.mp (by omega)
    rw [advanced]
    constructor
    · exact ⟨⟨le_rfl, (nomatch ·), fun _ => rfl⟩, (nomatch ·), sending.queued⟩
    · simp [unsentBytes, inProgress, busy, split, nothing]
  · have advanced : send.advance accepted.length =
        { send with sendLen := send.sendLen + accepted.length } := by
      simp only [SendPkt.advance, if_neg ends]
    rw [advanced]
    constructor
    · refine ⟨⟨?_, fun _ => ?_, fun finished => absurd finished ?_⟩, fun _ => sound, sending.queued⟩
      · simp only
        omega
      · simp only
        omega
      · simp only [busy]
        decide
    · have offset : (send.sendLen + accepted.length).toNat =
          send.sendLen.toNat + accepted.length := by omega
      have later : send.outPkt.bytes.drop (send.sendLen + accepted.length).toNat = rest := by
        rw [offset, ← List.drop_drop]
        change send.remaining.drop accepted.length = rest
        rw [split, List.drop_left]
      simp only [unsentBytes, inProgress, busy, Bool.false_eq_true, if_false, SendPkt.remaining, later]
      rw [← List.append_assoc, ← split]
      rfl

/-- The whole loop: whatever `send` returns, what it has accepted and what is left are what was
to be sent. -/
theorem write_sending (outcomes : List SendResult) {queue : List IMString} {send : SendPkt}
    (sending : Sending queue send) :
    Sending (write outcomes queue send).queue (write outcomes queue send).send ∧
      unsentBytes queue send = (write outcomes queue send).accepted ++
        unsentBytes (write outcomes queue send).queue (write outcomes queue send).send := by
  unfold write
  induction outcomes generalizing queue send with
  | nil =>
    simp only [writeLoop, whilePkt]
    cases taken : nextPkt queue send with
    | none => exact ⟨sending, rfl⟩
    | some both =>
      obtain ⟨-, kept, same⟩ := nextPkt_sending sending taken
      exact ⟨kept, same.symm⟩
  | cons outcome outcomes ih =>
    cases outcome with
    | failed errno =>
      simp only [writeLoop, whilePkt]
      cases taken : nextPkt queue send with
      | none => exact ⟨sending, rfl⟩
      | some both =>
        obtain ⟨-, kept, same⟩ := nextPkt_sending sending taken
        cases errno <;> exact ⟨kept, same.symm⟩
    | sent count =>
      simp only [writeLoop, whilePkt]
      cases taken : nextPkt queue send with
      | none => exact ⟨sending, rfl⟩
      | some both =>
        obtain ⟨busy, kept, same⟩ := nextPkt_sending sending taken
        simp only
        by_cases nothing : both.2.remaining.take count = []
        · rw [if_pos nothing]
          exact ⟨kept, same.symm⟩
        · rw [if_neg nothing]
          obtain ⟨advanced, front⟩ :=
            advance_sending kept busy (List.take_append_drop count both.2.remaining).symm
          obtain ⟨final, back⟩ := ih advanced
          refine ⟨final, ?_⟩
          rw [← same, front, back]
          simp only [WriteTrace.after, List.append_assoc]

/-! ### Runs -/

/-- What holds at every point of a run. -/
structure SendInv (output : Output) : Prop where
  sending : Sending output.queue output.send
  stream : output.accepted ++ unsentBytes output.queue output.send =
    (output.pushed.map IMString.bytes).flatten

/-- The messages pushed are sound. -/
def PushesSound : Event → Prop
  | .push msg => Sound msg
  | .write _ => True

theorem step_sendInv {output next : Output} {event : Event} (inv : SendInv output)
    (sound : PushesSound event) (stepped : step output event = some next) :
    SendInv next := by
  obtain ⟨sending, stream⟩ := inv
  cases event with
  | push msg =>
    cases stepped
    constructor
    · refine ⟨sending.bounds, sending.current, fun other inside => ?_⟩
      obtain inside | inside := List.mem_append.mp inside
      · exact sending.queued other inside
      · rw [List.mem_singleton.mp inside]
        exact sound
    · simp only [unsentBytes, List.map_append, List.flatten_append] at stream ⊢
      rw [← List.append_assoc, ← List.append_assoc, List.append_assoc output.accepted, stream]
  | write outcomes =>
    cases stepped
    obtain ⟨kept, split⟩ := write_sending outcomes sending
    constructor
    · exact kept
    · rw [List.append_assoc, ← split]
      exact stream

/-- In every run of `push` and `write`, with any returns of `send`, no byte of the messages
pushed is skipped, repeated or moved. -/
theorem send_stream (events : List Event) (output : Output)
    (sound : ∀ msg, Event.push msg ∈ events → Sound msg)
    (reached : run step .fresh events = some output) :
    output.accepted ++ (if output.send.finish then [] else
        output.send.outPkt.bytes.drop output.send.sendLen.toNat) ++
      (output.queue.map IMString.bytes).flatten = (output.pushed.map IMString.bytes).flatten ∧
    0 ≤ output.send.sendLen ∧
    (output.send.finish = false → output.send.sendLen ≤ output.send.outPkt.mLen) ∧
    (output.send.finish = true → output.send.sendLen = 0) := by
  have initial : SendInv .fresh := ⟨fresh_sending, rfl⟩
  have admitted : ∀ event ∈ events, PushesSound event := by
    intro event inside
    cases event with
    | push msg => exact sound msg inside
    | write outcomes => exact trivial
  have inv : SendInv output := invariant_of_throughout SendInv (fun _ => PushesSound)
    (fun _ _ _ inv sound stepped => step_sendInv inv sound stepped) initial
    (throughout_of_mem _ _ fun _ => admitted) reached
  have stream := inv.stream
  have bounds := inv.sending.bounds
  refine ⟨?_, bounds.nonneg, bounds.busy, bounds.idle⟩
  rw [List.append_assoc]
  exact stream

/-- Two messages, sent as 2 bytes, a full socket, and then the rest of the first. -/
theorem send_stream_two_messages :
    let events : List Event := [.push ⟨some [1, 2, 3], 3, 3⟩, .push ⟨some [4, 5], 2, 2⟩,
      .write [.sent 2, .failed .EAGAIN], .write [.sent 9]]
    ∃ output, run step .fresh events = some output ∧ output.accepted = [1, 2, 3] ∧
      output.accepted ++ (if output.send.finish then [] else
          output.send.outPkt.bytes.drop output.send.sendLen.toNat) ++
        (output.queue.map IMString.bytes).flatten = (output.pushed.map IMString.bytes).flatten := by
  intro events
  have sound : ∀ msg, Event.push msg ∈ events → Sound msg := by
    simp [events, Sound]
  have accepts : (run step .fresh events).map Output.accepted = some [1, 2, 3] := by decide
  obtain ⟨output, reached, accepted⟩ := Option.map_eq_some_iff.mp accepts
  exact ⟨output, reached, accepted, (send_stream events output sound reached).1⟩

end SNFrame.Send.SendStream
