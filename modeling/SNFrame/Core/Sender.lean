import SNFrame.Core.Sending

/-! The class Sender: `sendBlock`, which stays in `send` until the whole message is out. The
other functions hand the message to the queue of a connection. -/

namespace SNFrame.Core.Sender
open Library.Octet Base.PbBuf Receiving Sending

/-- One call of `send`: where it starts, counted from `m_data`, how much it asks for and what it
returns, if it does. -/
structure SendCall where
  offset : Int
  length : Int
  outcome : Option SendResult
  deriving DecidableEq

/-- What a call of `sendBlock` returns (none while it is inside `send`) and the calls of `send`
that it makes. -/
structure BlockTrace where
  result : Option Int
  calls : List SendCall
  deriving DecidableEq

def BlockTrace.after (call : SendCall) (rest : BlockTrace) : BlockTrace :=
  { rest with calls := call :: rest.calls }

/-- The returns below the loop. -/
def blockResult (sendLen : Int) : Int := if sendLen = 0 then 0 else -1

/-- The loop of `Sender::sendBlock`. -/
def sendLoop : List SendResult → Int → Int → BlockTrace
  | [], pos, sendLen =>
      if sendLen ≠ 0 then ⟨none, [⟨pos, sendLen, none⟩]⟩ else ⟨some (blockResult sendLen), []⟩
  | outcome :: outcomes, pos, sendLen =>
      if sendLen ≠ 0 then
        BlockTrace.after ⟨pos, sendLen, some outcome⟩ <|
          match outcome with
          | .sent 0 => ⟨some (blockResult sendLen), []⟩
          | .failed .EINTR | .failed .EWOULDBLOCK | .failed .EAGAIN =>
              sendLoop outcomes pos sendLen
          | .failed .other => ⟨some (blockResult sendLen), []⟩
          | .sent ret => sendLoop outcomes (pos + ret) (sendLen - ret)
      else ⟨some (blockResult sendLen), []⟩

/-- `Sender::sendBlock`. -/
def sendBlock (msg : IMString) (outcomes : List SendResult) : BlockTrace :=
  sendLoop outcomes 0 msg.mLen

/-! ### What the kernel has accepted -/

/-- The addresses, counted from `m_data`, of the bytes that one call has accepted. -/
def SendCall.taken (call : SendCall) : List Nat :=
  match call.outcome with
  | some (.sent count) => List.range' call.offset.toNat count
  | _ => []

/-- The same for all calls, in the order of the calls. -/
def BlockTrace.accepted (trace : BlockTrace) : List Nat := trace.calls.flatMap SendCall.taken

/-- The bytes that lie there. -/
def BlockTrace.bytes (heap : Heap) (msg : IMString) (trace : BlockTrace) : List Byte :=
  trace.accepted.map (view heap msg)

/-- The kernel accepts at most what it is given. -/
def SendCall.Permitted (call : SendCall) : Prop :=
  match call.outcome with
  | some (.sent count) => (count : Int) ≤ call.length
  | _ => True

instance (call : SendCall) : Decidable call.Permitted :=
  match call with
  | ⟨_, length, some (.sent count)⟩ => inferInstanceAs (Decidable ((count : Int) ≤ length))
  | ⟨_, _, some (.failed _)⟩ => .isTrue trivial
  | ⟨_, _, none⟩ => .isTrue trivial

end SNFrame.Core.Sender
