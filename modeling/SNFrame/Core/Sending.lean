import SNFrame.Core.Receiving

/-! The sending half of the class Connection: the message in progress, `Connection::nextPkt`
and `Connection::write`. The queue behind `out_buffer` is another object, which two
connections can hand over, so it is passed in and out. -/

namespace SNFrame.Core.Sending
open Library.Octet Base.PbBuf Receiving

/-- The fields under the comment "for send", less `out_buffer` and `cache`. -/
structure SendPkt where
  outPkt : IMString
  finish : Bool
  sendLen : Int
  deriving DecidableEq

/-- As the constructor leaves the fields. -/
def SendPkt.fresh : SendPkt := ⟨.null, true, 0⟩

/-- `Connection::empty`. -/
def empty (queue : List IMString) (send : SendPkt) : Bool := send.finish && queue.isEmpty

/-- `Connection::nextPkt`: none when there is nothing to send. -/
def nextPkt (queue : List IMString) (send : SendPkt) : Option (List IMString × SendPkt) :=
  if send.finish = false then some (queue, send)
  else match queue with
    | msg :: rest => some (rest, { send with outPkt := msg, finish := false })
    | [] => none

/-- One return of `send`: a count, or -1 and an errno. -/
inductive SendResult where
  | sent (count : Nat)
  | failed (errno : Errno)
  deriving DecidableEq, Repr

/-- What a call of `Connection::write` does: what it leaves, the result it returns (none while
it is inside `send`) and the bytes that `send` has accepted. -/
structure WriteTrace where
  queue : List IMString
  send : SendPkt
  result : Option IoResult
  accepted : List Byte

def WriteTrace.after (accepted : List Byte) (rest : WriteTrace) : WriteTrace :=
  { rest with accepted := accepted ++ rest.accepted }

/-- The guard `while (nextPkt())`. -/
def whilePkt (queue : List IMString) (send : SendPkt)
    (body : List IMString → SendPkt → WriteTrace) : WriteTrace :=
  match nextPkt queue send with
  | none => ⟨queue, send, some .finish, []⟩
  | some (queue, send) => body queue send

/-- What is still to be sent of the message in progress. -/
def SendPkt.remaining (send : SendPkt) : List Byte :=
  send.outPkt.bytes.drop send.sendLen.toNat

/-- `send_len += nwritten`, and the end of the message. -/
def SendPkt.advance (send : SendPkt) (nwritten : Nat) : SendPkt :=
  let sendLen := send.sendLen + nwritten
  if sendLen = send.outPkt.mLen then { send with sendLen := 0, finish := true }
  else { send with sendLen := sendLen }

/-- The loop of `Connection::write`. The kernel accepts at most what it is given. -/
def writeLoop : List SendResult → List IMString → SendPkt → WriteTrace
  | [], queue, send => whilePkt queue send fun queue send => ⟨queue, send, none, []⟩
  | .failed errno :: _, queue, send => whilePkt queue send fun queue send =>
      match errno with
      | .EAGAIN | .EWOULDBLOCK => ⟨queue, send, some .again, []⟩
      | .EINTR | .other => ⟨queue, send, some .error, []⟩
  | .sent count :: outcomes, queue, send => whilePkt queue send fun queue send =>
      let accepted := send.remaining.take count
      if accepted = [] then ⟨queue, send, some .closed, []⟩
      else (writeLoop outcomes queue (send.advance accepted.length)).after accepted

/-- `Connection::write`. -/
def write (outcomes : List SendResult) (queue : List IMString) (send : SendPkt) : WriteTrace :=
  writeLoop outcomes queue send

end SNFrame.Core.Sending
