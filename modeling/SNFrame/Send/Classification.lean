import SNFrame.Core.EventThread
import SNFrame.Send.Blocking
import SNFrame.System.Arming

/-! What `Connection::write` takes for a failure of the connection. -/

namespace SNFrame.Send.Classification
open Library.Octet Base.PbBuf Core.Receiving Core.Sending Core.NetManager Core.EventThread
open Core.NodeMgr (Proto)
open Core.Sender (BlockTrace SendCall blockResult sendLoop sendBlock)
open Blocking (Breaks)
open System.Arming (smallMessages)

/-- One of the sends that the call makes: it comes after these returns and has this one. -/
def Reaches (outcomes : List SendResult) (queue : List IMString) (send : SendPkt)
    (before : List SendResult) (outcome : SendResult) : Prop :=
  (∃ after, outcomes = before ++ outcome :: after) ∧ (write before queue send).result = none

/-- What is sent by the call of `send` that comes after these returns. -/
def asked (queue : List IMString) (send : SendPkt) (before : List SendResult) : List Byte :=
  (write before queue send).send.remaining

/-- What gives the result its reason: for IO_ERROR a send that failed with an errno that does not
pass, for IO_CLOSED one that returned 0 for some bytes, since the peer has closed. -/
def Reason (outcomes : List SendResult) (queue : List IMString) (send : SendPkt) :
    IoResult → Prop
  | .error => ∃ before, Reaches outcomes queue send before (.failed .other)
  | .closed => ∃ before, Reaches outcomes queue send before (.sent 0) ∧ asked queue send before ≠ []
  | .finish | .again => True

/-- The call returns no result without its reason. -/
def Classified (outcomes : List SendResult) (queue : List IMString) (send : SendPkt) : Prop :=
  ∀ result, (write outcomes queue send).result = some result → Reason outcomes queue send result

/-- No send of the call is interrupted by a signal, and none is made with nothing to send. -/
def Untroubled (outcomes : List SendResult) (queue : List IMString) (send : SendPkt) : Prop :=
  ∀ before outcome, Reaches outcomes queue send before outcome →
    outcome ≠ .failed .EINTR ∧ ∀ count, outcome = .sent count → asked queue send before ≠ []

/-! ### The deciding send -/

/-- The result that one return of `send` makes the call return, if it does. -/
def verdict (remaining : List Byte) : SendResult → Option IoResult
  | .failed .EAGAIN | .failed .EWOULDBLOCK => some .again
  | .failed .EINTR | .failed .other => some .error
  | .sent count => if remaining.take count = [] then some .closed else none

section Prefixes
variable {queue rest : List IMString} {send next : SendPkt}

theorem nextPkt_again (taken : nextPkt queue send = some (rest, next)) :
    nextPkt rest next = some (rest, next) := by
  unfold nextPkt at taken ⊢
  split_ifs at taken with busy
  · cases taken
    rw [if_pos busy]
  · cases queue with
    | nil => cases taken
    | cons msg queue =>
      cases taken
      rfl

theorem whilePkt_again (taken : nextPkt queue send = some (rest, next))
    (body : List IMString → SendPkt → WriteTrace) :
    whilePkt rest next body = whilePkt queue send body := by
  rw [whilePkt, nextPkt_again taken, whilePkt, taken]

/-- After a send of some bytes the call goes on with the other returns. -/
theorem write_sent {both : List IMString × SendPkt} {count : Nat}
    (taken : nextPkt queue send = some both) (some_byte : both.2.remaining.take count ≠ [])
    (outcomes : List SendResult) :
    write (.sent count :: outcomes) queue send =
      (write outcomes both.1 (both.2.advance (both.2.remaining.take count).length)).after
        (both.2.remaining.take count) := by
  simp only [write, writeLoop, whilePkt, taken, if_neg some_byte]

/-- A call that is inside `send` again has sent some bytes before. -/
theorem pending_cons {outcome : SendResult} {before : List SendResult}
    (pending : (write (outcome :: before) queue send).result = none) :
    ∃ both count, nextPkt queue send = some both ∧ outcome = .sent count ∧
      both.2.remaining.take count ≠ [] ∧
      (write before both.1 (both.2.advance (both.2.remaining.take count).length)).result = none := by
  cases taken : nextPkt queue send with
  | none => cases outcome <;> simp [write, writeLoop, whilePkt, taken] at pending
  | some both =>
    cases outcome with
    | failed errno => cases errno <;> simp [write, writeLoop, whilePkt, taken] at pending
    | sent count =>
      by_cases nothing : both.2.remaining.take count = []
      · simp [write, writeLoop, whilePkt, taken, nothing] at pending
      · rw [write_sent taken nothing] at pending
        exact ⟨both, count, rfl, rfl, nothing, pending⟩

/-- A call that is inside `send` has a message in progress. -/
theorem nextPkt_of_pending (before : List SendResult)
    (pending : (write before queue send).result = none) :
    nextPkt (write before queue send).queue (write before queue send).send =
      some ((write before queue send).queue, (write before queue send).send) := by
  induction before generalizing queue send with
  | nil =>
    simp only [write, writeLoop, whilePkt] at pending ⊢
    cases taken : nextPkt queue send with
    | none => simp [taken] at pending
    | some both => exact nextPkt_again taken
  | cons outcome before ih =>
    obtain ⟨both, count, taken, rfl, some_byte, later⟩ := pending_cons pending
    rw [write_sent taken some_byte]
    exact ih later

/-- The call goes on from where it is inside `send`. -/
theorem write_append (before after : List SendResult)
    (pending : (write before queue send).result = none) :
    write (before ++ after) queue send =
      (write after (write before queue send).queue (write before queue send).send).after
        (write before queue send).accepted := by
  induction before generalizing queue send with
  | nil =>
    simp only [write, writeLoop, whilePkt] at pending ⊢
    cases taken : nextPkt queue send with
    | none => simp [taken] at pending
    | some both =>
      have same := whilePkt_again taken
      cases after with
      | nil => simp [writeLoop, same, WriteTrace.after]
      | cons outcome after => cases outcome <;> simp [writeLoop, same, WriteTrace.after]
  | cons outcome before ih =>
    obtain ⟨both, count, taken, rfl, some_byte, later⟩ := pending_cons pending
    rw [List.cons_append, write_sent taken some_byte, write_sent taken some_byte, ih later]
    simp [WriteTrace.after]

/-- A send with a verdict ends the call. -/
theorem write_decided {before : List SendResult} {outcome : SendResult} {result : IoResult}
    (pending : (write before queue send).result = none)
    (decides : verdict (asked queue send before) outcome = some result)
    (after : List SendResult) :
    (write (before ++ outcome :: after) queue send).result = some result := by
  have taken := nextPkt_of_pending before pending
  rw [write_append before _ pending]
  simp only [WriteTrace.after, write]
  cases outcome with
  | failed errno =>
    simp only [writeLoop, whilePkt, write] at taken ⊢
    rw [taken]
    cases errno <;> exact decides
  | sent count =>
    by_cases nothing : (asked queue send before).take count = []
    · simp only [verdict, if_pos nothing] at decides
      cases decides
      simp only [asked, write] at nothing
      simp only [writeLoop, whilePkt, write] at taken ⊢
      rw [taken]
      simp only [if_pos nothing]
    · simp only [verdict, if_neg nothing] at decides
      cases decides

/-- A call that does not send everything is ended by a send with a verdict. -/
theorem exists_deciding {outcomes : List SendResult} {result : IoResult}
    (returns : (write outcomes queue send).result = some result) (unfinished : result ≠ .finish) :
    ∃ before outcome, Reaches outcomes queue send before outcome ∧
      verdict (asked queue send before) outcome = some result := by
  induction outcomes generalizing queue send with
  | nil =>
    simp only [write, writeLoop, whilePkt] at returns
    cases taken : nextPkt queue send with
    | none =>
      simp only [taken, Option.some.injEq] at returns
      exact absurd returns.symm unfinished
    | some both => simp [taken] at returns
  | cons outcome outcomes ih =>
    simp only [write] at returns ih
    cases taken : nextPkt queue send with
    | none =>
      have finished : result = .finish := by
        cases outcome <;> simpa [writeLoop, whilePkt, taken] using returns.symm
      exact absurd finished unfinished
    | some both =>
      have inside : write [] queue send = ⟨both.1, both.2, none, []⟩ := by
        simp only [write, writeLoop, whilePkt, taken]
      have first : Reaches (outcome :: outcomes) queue send [] outcome :=
        ⟨⟨outcomes, rfl⟩, by rw [inside]⟩
      have here : asked queue send [] = both.2.remaining := by rw [asked, inside]
      cases outcome with
      | failed errno =>
        refine ⟨[], _, first, ?_⟩
        cases errno <;> simpa [writeLoop, whilePkt, taken, verdict] using returns
      | sent count =>
        by_cases nothing : both.2.remaining.take count = []
        · refine ⟨[], _, first, ?_⟩
          simpa [writeLoop, whilePkt, taken, nothing, verdict, here] using returns
        · simp only [writeLoop, whilePkt, taken, if_neg nothing, WriteTrace.after] at returns
          obtain ⟨before, outcome, ⟨⟨after, split⟩, pending⟩, decides⟩ := ih returns
          have goesOn := write_sent taken nothing before
          refine ⟨.sent count :: before, outcome, ⟨⟨after, by rw [split]; rfl⟩, ?_⟩, ?_⟩
          · rw [goesOn]
            exact pending
          · rw [asked, goesOn]
            exact decides

/-- Only one send of a call has a verdict. -/
theorem deciding_unique {outcomes before other : List SendResult} {outcome last : SendResult}
    {result answer : IoResult} (first : Reaches outcomes queue send before outcome)
    (decides : verdict (asked queue send before) outcome = some result)
    (second : Reaches outcomes queue send other last)
    (decides' : verdict (asked queue send other) last = some answer) :
    before = other ∧ outcome = last := by
  obtain ⟨⟨after, split⟩, pending⟩ := first
  obtain ⟨⟨after', split'⟩, pending'⟩ := second
  rw [split] at split'
  obtain ⟨middle, longer, rest⟩ | ⟨middle, longer, rest⟩ := List.append_eq_append_iff.mp split'
  · cases middle with
    | nil =>
      cases rest
      exact ⟨by rw [longer, List.append_nil], rfl⟩
    | cons head middle =>
      cases rest
      rw [longer, write_decided pending decides] at pending'
      cases pending'
  · cases middle with
    | nil =>
      cases rest
      exact ⟨by rw [longer, List.append_nil], rfl⟩
    | cons head middle =>
      cases rest
      rw [longer, write_decided pending' decides'] at pending
      cases pending

/-- The call gives its results for their reasons exactly if no send troubles it. -/
theorem classified_iff (outcomes : List SendResult) (queue : List IMString) (send : SendPkt) :
    Classified outcomes queue send ↔ Untroubled outcomes queue send := by
  constructor
  · intro classified before outcome reaches
    constructor
    · rintro rfl
      have decides : verdict (asked queue send before) (.failed .EINTR) = some .error := rfl
      obtain ⟨⟨after, split⟩, pending⟩ := reaches
      have returns := write_decided pending decides after
      rw [← split] at returns
      obtain ⟨other, reaches'⟩ := classified .error returns
      have same := deciding_unique ⟨⟨after, split⟩, pending⟩ decides reaches' rfl
      cases same.2
    · rintro count rfl nothing
      have decides : verdict (asked queue send before) (.sent count) = some .closed := by
        simp [verdict, nothing]
      obtain ⟨⟨after, split⟩, pending⟩ := reaches
      have returns := write_decided pending decides after
      rw [← split] at returns
      obtain ⟨other, reaches', something⟩ := classified .closed returns
      have closes : verdict (asked queue send other) (.sent 0) = some .closed := by simp [verdict]
      have same := deciding_unique ⟨⟨after, split⟩, pending⟩ decides reaches' closes
      rw [same.1] at nothing
      exact something nothing
  · intro untroubled result returns
    by_cases finished : result = .finish
    · subst finished
      exact trivial
    · obtain ⟨before, outcome, reaches, decides⟩ := exists_deciding returns finished
      obtain ⟨uninterrupted, something⟩ := untroubled before outcome reaches
      cases outcome with
      | failed errno =>
        cases errno with
        | EINTR => exact absurd rfl uninterrupted
        | EAGAIN =>
          cases decides
          exact trivial
        | EWOULDBLOCK =>
          cases decides
          exact trivial
        | other =>
          cases decides
          exact ⟨before, reaches⟩
      | sent count =>
        by_cases nothing : (asked queue send before).take count = []
        · simp only [verdict, if_pos nothing, Option.some.injEq] at decides
          subst decides
          have left := something count rfl
          have zero : count = 0 := (List.take_eq_nil_iff.mp nothing).resolve_right left
          subst zero
          exact ⟨before, reaches, left⟩
        · simp only [verdict, if_neg nothing] at decides
          cases decides

end Prefixes

/-! ### The callback -/

/-- `TcpServer::write` marks the connection: its next call is `setState` with this state. -/
def Marks (machine : Machine) (addr : Nat) (state : ConnState) : Prop :=
  machine.handler = some (.fail addr (.setState state))

/-- The result for which a connection is marked with the state. -/
def resultOf : ConnState → IoResult
  | .STATE_ERROR => .error
  | _ => .closed

/-- The callback marks the connection only when the call has met the reason. -/
def JustlyMarked (next : Machine) (addr : Nat) (outcomes : List SendResult)
    (queue : List IMString) (send : SendPkt) : Prop :=
  ∀ state, Marks next addr state → Reason outcomes queue send (resultOf state)

section Callback
variable {proto : Proto} {machine next : Machine} {addr : Nat} {outcomes : List SendResult}

theorem write_begins (done : step proto machine (.write addr outcomes) = some next) :
    machine.begin proto (.write addr outcomes) = some next := by
  simp only [step] at done
  split at done
  · exact done
  · simp [Machine.message] at done
  · cases done

/-- The callback marks the connection for the result of the call. -/
theorem write_marks (done : step proto machine (.write addr outcomes) = some next) :
    ∃ conn queue, machine.sys.net.deref addr = some conn ∧
      machine.sys.net.queues conn.outBuffer = some queue ∧
      ((write outcomes queue conn.send).result = some .error ↔ Marks next addr .STATE_ERROR) ∧
      ((write outcomes queue conn.send).result = some .closed ↔ Marks next addr .STATE_CLOSED) ∧
      ∀ state, Marks next addr state → state = .STATE_ERROR ∨ state = .STATE_CLOSED := by
  have begins := write_begins done
  simp only [Machine.begin, Option.bind_eq_bind] at begins
  obtain ⟨conn, here, begins⟩ := Option.bind_eq_some_iff.mp begins
  obtain ⟨⟨net, result, accepted⟩, written, begins⟩ := Option.bind_eq_some_iff.mp begins
  simp only [Net.writeConn, here, Option.bind_eq_bind, Option.bind_some] at written
  obtain ⟨queue, queued, same⟩ := Option.bind_eq_some_iff.mp written
  simp only [Option.some.injEq, Prod.mk.injEq] at same
  obtain ⟨-, same, -⟩ := same
  refine ⟨conn, queue, here, queued, ?_⟩
  rw [same]
  by_cases armed : conn.wevent = true
  · simp only [if_pos armed] at begins
    cases result with
    | none => cases begins
    | some result =>
      cases result <;> cases begins <;> simp [Marks, Machine.goOn, Progress.next]
  · rw [if_neg armed] at begins
    cases begins

theorem justlyMarked_iff (done : step proto machine (.write addr outcomes) = some next) :
    ∃ conn queue, machine.sys.net.deref addr = some conn ∧
      machine.sys.net.queues conn.outBuffer = some queue ∧
      (JustlyMarked next addr outcomes queue conn.send ↔ Untroubled outcomes queue conn.send) := by
  obtain ⟨conn, queue, here, queued, error, closed, only⟩ := write_marks done
  refine ⟨conn, queue, here, queued, ?_⟩
  rw [← classified_iff]
  constructor
  · intro just result returns
    cases result with
    | error => exact just .STATE_ERROR (error.mp returns)
    | closed => exact just .STATE_CLOSED (closed.mp returns)
    | finish => exact trivial
    | again => exact trivial
  · intro classified state marks
    obtain rfl | rfl := only state marks
    · exact classified .error (error.mpr marks)
    · exact classified .closed (closed.mpr marks)

end Callback

/-- `Connection::write` fails for a reason, and `TcpServer::write` marks the connection for one,
exactly in the calls in which no send is interrupted and none has nothing to send. -/
theorem failure_justified_iff (outcomes : List SendResult) :
    (∀ queue send, Classified outcomes queue send ↔ Untroubled outcomes queue send) ∧
      ∀ (proto : Proto) (machine next : Machine) (addr : Nat),
        step proto machine (.write addr outcomes) = some next →
        ∃ conn queue, machine.sys.net.deref addr = some conn ∧
          machine.sys.net.queues conn.outBuffer = some queue ∧
          (JustlyMarked next addr outcomes queue conn.send ↔
            Untroubled outcomes queue conn.send) :=
  ⟨classified_iff outcomes, fun _ _ _ _ done => justlyMarked_iff done⟩

/-- A connection with a message of two bytes in its queue. -/
def twoBytes : Machine :=
  .idle ⟨⟨[{ Connection.fresh 0 0 5 with state := .STATE_CONNECTED, wevent := true, evs := 2 }],
    fun _ => some [⟨some [1, 2], 2, 2⟩], 1⟩, [], 0, []⟩

theorem failure_justified_iff_two_bytes :
    ∃ next, step smallMessages twoBytes (.write 0 [.sent 1, .failed .other]) = some next ∧
      ∃ conn queue, twoBytes.sys.net.deref 0 = some conn ∧
        twoBytes.sys.net.queues conn.outBuffer = some queue ∧
        (JustlyMarked next 0 [.sent 1, .failed .other] queue conn.send ↔
          Untroubled [.sent 1, .failed .other] queue conn.send) := by
  have steps : (step smallMessages twoBytes (.write 0 [.sent 1, .failed .other])).isSome = true := by
    decide +kernel
  obtain ⟨next, done⟩ := Option.isSome_iff_exists.mp steps
  exact ⟨next, done, (failure_justified_iff _).2 smallMessages twoBytes next 0 done⟩

/-- A send that a signal interrupts ends the call with IO_ERROR, and one for a message of no
bytes ends it with IO_CLOSED. -/
theorem transient_taken_for_failure :
    (write [.failed .EINTR] [⟨some [1, 2], 2, 2⟩] .fresh).result = some .error ∧
      ¬Classified [.failed .EINTR] [⟨some [1, 2], 2, 2⟩] .fresh ∧
      (write [.sent 0] [⟨some [1, 2], 2, 0⟩] .fresh).result = some .closed ∧
      ¬Classified [.sent 0] [⟨some [1, 2], 2, 0⟩] .fresh := by
  refine ⟨rfl, fun classified => ?_, rfl, fun classified => ?_⟩
  · obtain ⟨before, ⟨after, split⟩, -⟩ := classified .error rfl
    cases before with
    | nil => cases split
    | cons head before => simp at split
  · obtain ⟨before, ⟨⟨after, split⟩, -⟩, something⟩ := classified .closed rfl
    cases before with
    | nil => exact something rfl
    | cons head before => simp at split

/-! ### The siblings -/

/-- A call that has made this many of its calls has got the outcome from the last of them. -/
def Last {α : Type} (outcomes : List α) (count : Nat) (outcome : α) : Prop :=
  ∃ before after, outcomes = before ++ outcome :: after ∧ count = before.length + 1

section Siblings
variable {α : Type} {outcomes : List α} {outcome head : α} {count : Nat}

theorem Last.positive (last : Last outcomes count outcome) : count ≠ 0 := by
  obtain ⟨before, after, -, rfl⟩ := last
  exact Nat.succ_ne_zero _

theorem Last.within (last : Last outcomes count outcome) : count ≤ outcomes.length := by
  obtain ⟨before, after, rfl, rfl⟩ := last
  simp

theorem last_cons : Last (head :: outcomes) (count + 1) outcome ↔
    head = outcome ∧ count = 0 ∨ Last outcomes count outcome := by
  constructor
  · rintro ⟨before, after, split, length⟩
    cases before with
    | nil =>
      cases split
      exact .inl ⟨rfl, Nat.succ.inj length⟩
    | cons first before =>
      cases split
      exact .inr ⟨before, after, rfl, Nat.succ.inj length⟩
  · rintro (⟨rfl, rfl⟩ | ⟨before, after, rfl, rfl⟩)
    · exact ⟨[], outcomes, rfl, rfl⟩
    · exact ⟨head :: before, after, rfl, rfl⟩

theorem last_once : Last (head :: outcomes) 1 outcome ↔ head = outcome := by
  rw [last_cons]
  exact ⟨fun either => either.elim And.left fun last => absurd rfl last.positive,
    fun same => .inl ⟨same, rfl⟩⟩

theorem whileRoom_ok {recvLen : Int} {conn : RecvPkt} {body : Except Fault ReadTrace}
    {trace : ReadTrace} (done : whileRoom recvLen conn body = .ok trace) :
    trace = ⟨conn, some .finish, [], []⟩ ∨ 0 < recvLen ∧ body = .ok trace := by
  unfold whileRoom at done
  split_ifs at done with full negative
  · exact .inl (Except.ok.inj done).symm
  · exact .inr ⟨by omega, done⟩

theorem after_ok {result : Except Fault ReadTrace} {asked : Int} {got : List Byte}
    {trace : ReadTrace} (done : result.map (.after asked got) = .ok trace) :
    ∃ rest, result = .ok rest ∧ trace = rest.after asked got := by
  cases result with
  | error fault => cases done
  | ok rest =>
    cases done
    exact ⟨rest, rfl, rfl⟩

/-- The results of `Connection::read` that stand for a failure, and what the last `recv` returned. -/
structure ReadClassified (outcomes : List RecvResult) (trace : ReadTrace) : Prop where
  error : trace.result = some .error ↔ Last outcomes trace.asked.length (.failed .other)
  closed : trace.result = some .closed ↔ Last outcomes trace.asked.length (.bytes [])

/-- A `recv` after which the loop goes on. -/
theorem ReadClassified.after {outcomes : List RecvResult} {head : RecvResult} {trace : ReadTrace}
    (classified : ReadClassified outcomes trace) (asked : Int) (got : List Byte)
    (passing : head ≠ .failed .other) (something : head ≠ .bytes []) :
    ReadClassified (head :: outcomes) (trace.after asked got) where
  error := by
    rw [ReadTrace.after, List.length_cons, last_cons, classified.error]
    simp [passing]
  closed := by
    rw [ReadTrace.after, List.length_cons, last_cons, classified.closed]
    simp [something]

/-- The loop is left for want of room. -/
theorem readClassified_finish (outcomes : List RecvResult) (conn : RecvPkt) :
    ReadClassified outcomes ⟨conn, some .finish, [], []⟩ where
  error := iff_of_false nofun fun last => last.positive rfl
  closed := iff_of_false nofun fun last => last.positive rfl

/-- The call does not return. -/
theorem readClassified_waiting (conn : RecvPkt) (asked : Int) :
    ReadClassified [] ⟨conn, none, [asked], []⟩ where
  error := iff_of_false nofun fun last => absurd last.within (by simp)
  closed := iff_of_false nofun fun last => absurd last.within (by simp)

theorem readLoop_classified {outcomes : List RecvResult} {recvLen : Int} {conn : RecvPkt}
    {trace : ReadTrace} (done : readLoop outcomes recvLen conn = .ok trace) :
    ReadClassified outcomes trace := by
  induction outcomes generalizing recvLen conn trace with
  | nil =>
    rcases whileRoom_ok done with rfl | ⟨-, same⟩
    · exact readClassified_finish [] conn
    · cases same
      exact readClassified_waiting conn _
  | cons head outcomes ih =>
    cases head with
    | failed errno =>
      rcases whileRoom_ok done with rfl | ⟨-, same⟩
      · exact readClassified_finish _ conn
      cases errno with
      | EINTR =>
        obtain ⟨rest, later, rfl⟩ := after_ok same
        exact (ih later).after recvLen [] nofun nofun
      | EAGAIN | EWOULDBLOCK | other =>
        cases same
        constructor <;> simp [last_once]
    | bytes chunk =>
      rcases whileRoom_ok done with rfl | ⟨room, same⟩
      · exact readClassified_finish _ conn
      by_cases nothing : chunk.take recvLen.toNat = []
      · have empty : chunk = [] := by
          refine (List.take_eq_nil_iff.mp nothing).resolve_left ?_
          omega
        rw [if_pos nothing] at same
        cases same
        constructor <;> simp [last_once, empty]
      · rw [if_neg nothing] at same
        cases stored : recvInto conn (chunk.take recvLen.toNat) with
        | error fault =>
          rw [stored] at same
          cases same
        | ok conn =>
          rw [stored] at same
          obtain ⟨rest, later, rfl⟩ := after_ok same
          apply (ih later).after
          · exact nofun
          · rintro ⟨⟩
            exact nothing List.take_nil

/-- The result of `sendBlock` that stands for a failure, and what the last `send` returned. -/
def SendClassified (outcomes : List SendResult) (trace : BlockTrace) : Prop :=
  trace.result = some (-1) ↔ ∃ outcome, Breaks outcome ∧ Last outcomes trace.calls.length outcome

/-- A `send` after which the loop goes on. -/
theorem SendClassified.after {outcomes : List SendResult} {head : SendResult} {trace : BlockTrace}
    (classified : SendClassified outcomes trace) (call : SendCall) (passing : ¬Breaks head) :
    SendClassified (head :: outcomes) (trace.after call) := by
  unfold SendClassified at classified ⊢
  rw [BlockTrace.after, List.length_cons, classified]
  apply exists_congr
  intro outcome
  rw [last_cons]
  constructor
  · exact fun both => ⟨both.1, .inr both.2⟩
  · rintro ⟨breaks, ⟨rfl, -⟩ | later⟩
    · exact absurd breaks passing
    · exact ⟨breaks, later⟩

/-- A `send` that ends the loop. -/
theorem sendClassified_broken {outcomes : List SendResult} {head : SendResult} {sendLen : Int}
    (some_left : sendLen ≠ 0) (call : SendCall) (breaks : Breaks head) :
    SendClassified (head :: outcomes) (.after call ⟨some (blockResult sendLen), []⟩) := by
  refine iff_of_true ?_ ⟨head, breaks, last_once.mpr rfl⟩
  rw [BlockTrace.after, blockResult, if_neg some_left]

theorem sendClassified_finished (outcomes : List SendResult) (pos : Int) :
    SendClassified outcomes (sendLoop outcomes pos 0) := by
  rw [Blocking.sendLoop_finished]
  refine iff_of_false nofun ?_
  rintro ⟨outcome, -, last⟩
  exact last.positive rfl

/-- The call does not return. -/
theorem sendClassified_waiting (call : SendCall) : SendClassified [] ⟨none, [call]⟩ := by
  unfold SendClassified
  constructor
  · intro failed
    cases failed
  · rintro ⟨outcome, -, last⟩
    exact absurd last.within (by simp)

theorem sendLoop_classified (outcomes : List SendResult) (pos sendLen : Int) :
    SendClassified outcomes (sendLoop outcomes pos sendLen) := by
  induction outcomes generalizing pos sendLen with
  | nil =>
    by_cases some_left : sendLen ≠ 0
    · rw [sendLoop, if_pos some_left]
      exact sendClassified_waiting _
    · rw [not_not.mp some_left]
      exact sendClassified_finished [] pos
  | cons head outcomes ih =>
    by_cases some_left : sendLen ≠ 0
    · cases head with
      | failed errno =>
        cases errno with
        | EINTR | EAGAIN | EWOULDBLOCK =>
          rw [sendLoop, if_pos some_left]
          exact (ih pos sendLen).after _ (by rintro (same | same) <;> cases same)
        | other =>
          rw [sendLoop, if_pos some_left]
          exact sendClassified_broken some_left _ (.inr rfl)
      | sent count =>
        cases count with
        | zero =>
          rw [sendLoop, if_pos some_left]
          exact sendClassified_broken some_left _ (.inl rfl)
        | succ count =>
          rw [sendLoop, if_pos some_left]
          · exact (ih _ _).after _ (by rintro (same | same) <;> cases same)
          · exact Nat.succ_ne_zero count
    · rw [not_not.mp some_left]
      exact sendClassified_finished _ pos

end Siblings

/-- `Connection::read` and `Sender::sendBlock` take a call for failed exactly if its errno is none
of EINTR, EAGAIN and EWOULDBLOCK, and for closed exactly if it returns 0. -/
theorem siblings_classify :
    (∀ outcomes conn trace, Core.Receiving.read outcomes conn = .ok trace →
      (trace.result = some .error ↔ Last outcomes trace.asked.length (.failed .other)) ∧
        (trace.result = some .closed ↔ Last outcomes trace.asked.length (.bytes []))) ∧
      ∀ msg outcomes, (sendBlock msg outcomes).result = some (-1) ↔
        Last outcomes (sendBlock msg outcomes).calls.length (.failed .other) ∨
          Last outcomes (sendBlock msg outcomes).calls.length (.sent 0) := by
  refine ⟨fun outcomes conn trace done => ?_, fun msg outcomes => ?_⟩
  · obtain ⟨error, closed⟩ := readLoop_classified done
    exact ⟨error, closed⟩
  · have classified := sendLoop_classified outcomes 0 msg.mLen
    unfold SendClassified at classified
    rw [sendBlock, classified]
    constructor
    · rintro ⟨outcome, rfl | rfl, last⟩
      · exact .inr last
      · exact .inl last
    · rintro (last | last)
      · exact ⟨_, .inr rfl, last⟩
      · exact ⟨_, .inl rfl, last⟩

end SNFrame.Send.Classification
