import SNFrame.System.Interleaving

/-! The first bytes of a node connection. `sendBlock` writes the authentication request before
the callback that opened the connection ends, and only another callback writes the queue. -/

namespace SNFrame.System.FirstBytes
open Library.Octet Library.Transition Base.PbBuf Core.Receiving Core.Sending Core.NetManager
open Core.EventThread Ownership Tables Turns Sight Interleaving
open Core.NodeMgr hiding step
open Supervision (start)
open Arming (smallMessages withBody)

def isRequest : Sent → Bool
  | .request _ => true
  | .queued _ => false

/-- The message is an authentication request as `ServiceNode::AuthenticationReq` builds it. -/
def Request (proto : Proto) (msg : IMString) : Prop :=
  ∃ heap sid nid, buildMsg heap proto.SID_OTHER proto.CID_OTHER_AUTHENTICATION_REQ
    (proto.authenticationReq sid nid) = some msg

/-- What the kernel was given begins with the whole frame of the request, and the rest comes out of
the queue. -/
structure First (proto : Proto) (given : List Sent) (msg : IMString) : Prop where
  request : Request proto msg
  begins : ∃ first rest, given = first ++ rest ∧ first.flatMap Sent.bytes = msg.bytes ∧
    (∀ sent ∈ first, isRequest sent) ∧ ∀ sent ∈ rest, isRequest sent = false

/-- The new connection whose request the handler has not come to. -/
def awaiting : Option Handler → Option Nat
  | some (.reconnect _ _ addr .request) => some addr
  | some (.addServer _ _ addr _) => some addr
  | _ => none

structure Unsent (machine : Machine) (addr : Nat) : Prop where
  given : machine.given addr = []
  incomplete : machine.complete addr = none

/-- In the loop of `sendBlock`. -/
structure Sending (proto : Proto) (machine : Machine) (addr : Nat) (msg : IMString) (pos : Nat) :
    Prop where
  used : addr < machine.sys.net.next
  alone : awaiting machine.handler = none
  request : Request proto msg
  incomplete : machine.complete addr = none
  requests : ∀ sent ∈ machine.given addr, isRequest sent
  bytes : (machine.given addr).flatMap Sent.bytes = msg.bytes.take pos

structure Ordered (proto : Proto) (machine : Machine) : Prop where
  fresh : ∀ addr, machine.sys.net.next ≤ addr → Unsent machine addr
  waits : ∀ addr, awaiting machine.handler = some addr → Unsent machine addr
  sends : ∀ addr msg pos, machine.call = some (.sendBlock addr msg pos) →
    Sending proto machine addr msg pos
  first : ∀ addr msg, machine.complete addr = some msg → First proto (machine.given addr) msg

/-- No request is in the loop of `sendBlock`. -/
def Silent (call : Option Call) : Prop := ∀ addr msg pos, call ≠ some (.sendBlock addr msg pos)

theorem Silent.sends {call : Option Call} (silent : Silent call)
    {sending : Nat → IMString → Nat → Prop} (addr : Nat) (msg : IMString) (pos : Nat)
    (calls : call = some (.sendBlock addr msg pos)) :
    sending addr msg pos :=
  absurd calls (silent addr msg pos)

theorem silent_none : Silent none := by
  intro addr msg pos same
  cases same

theorem silent_addFileEvent (fd : Int) (mask : BitVec 16) :
    Silent (some (.addFileEvent fd mask)) := by
  intro addr msg pos same
  cases same

/-- The event of the connection that was added, if one was, is the only call. -/
theorem silent_added (new : Option Nat) (fd : Int) (mask : BitVec 16) :
    Silent (new.map fun _ => .addFileEvent fd mask) := by
  cases new with
  | none => exact silent_none
  | some addr => exact silent_addFileEvent fd mask

theorem silent_of_none {call : Option Call} (noCall : call = none) : Silent call := by
  rw [noCall]
  exact silent_none

theorem unawaited (addr : Nat) : awaiting none ≠ some addr := by
  intro same
  cases same

/-- What a call of the event thread does about requests: nothing, it leaves the one that is still
to come, it opens a connection for which one has to come, or it begins it. -/
inductive Outlook (proto : Proto) (sys : Sys) (before : Option Handler) : Progress → Prop where
  | apart {progress : Progress} (silent : Silent progress.call)
      (none : awaiting progress.handler = none) : Outlook proto sys before progress
  | waits {progress : Progress} (silent : Silent progress.call)
      (same : awaiting progress.handler = awaiting before) : Outlook proto sys before progress
  | opens {progress : Progress} (silent : Silent progress.call)
      (new : awaiting progress.handler = some sys.net.next) : Outlook proto sys before progress
  | begins {progress : Progress} {addr : Nat} {conn : Connection}
      (awaited : awaiting before = some addr) (found : sys.net.deref addr = some conn)
      (none : awaiting progress.handler = none)
      (call : ∀ call, progress.call = some call →
        ∃ msg, call = .sendBlock addr msg 0 ∧ Request proto msg) :
      Outlook proto sys before progress

section Calls
variable {proto : Proto} {around : Surroundings} {sys : Sys} {progress : Progress}
  {before : Option Handler}

theorem request_outlook {heap : Heap} {addr : Nat} {sid : BitVec 16} {nid : BitVec 32}
    {next : Option Handler} (awaited : awaiting before = some addr) (none : awaiting next = none)
    (done : request proto heap sys addr sid nid next = some progress) :
    Outlook proto sys before progress := by
  obtain ⟨conn, found, rfl⟩ := Option.map_eq_some_iff.mp done
  apply Outlook.begins awaited found none
  intro call same
  obtain ⟨msg, built, rfl⟩ := Option.map_eq_some_iff.mp same
  exact ⟨msg, rfl, heap, sid, nid, built⟩

theorem reply_outlook {addr : Nat} {msg : Option IMString}
    (done : reply sys addr msg = some progress) : Outlook proto sys before progress := by
  obtain ⟨conn, -, done⟩ := Option.bind_eq_some_iff.mp done
  cases msg with
  | none =>
    cases done
    exact .apart silent_none rfl
  | some msg =>
    obtain ⟨sent, -, rfl⟩ := Option.map_eq_some_iff.mp done
    exact .apart silent_none rfl

theorem reconnectCall_outlook {sid : BitVec 16} {node : Node} {addr : Nat} {next : Reconnecting}
    {context : Option Nat}
    (done : reconnectCall proto around sys sid node addr next context = some progress) :
    Outlook proto sys (some (.reconnect sid node.addr addr next)) progress := by
  cases next with
  | request => exact request_outlook rfl rfl done
  | setCache | setCb =>
    cases context with
    | none =>
      cases done
      exact .apart silent_none rfl
    | some old =>
      obtain ⟨oldConn, -, done⟩ := Option.bind_eq_some_iff.mp done
      obtain ⟨middle, -, done⟩ := Option.bind_eq_some_iff.mp done
      cases done
      exact .apart silent_none rfl
  | close =>
    cases context with
    | none =>
      cases done
      exact .apart silent_none rfl
    | some old =>
      obtain ⟨oldConn, -, rfl⟩ := Option.map_eq_some_iff.mp done
      exact .apart silent_none rfl
  | setNodeInfo | setState =>
    obtain ⟨after, -, rfl⟩ := Option.map_eq_some_iff.mp done
    exact .apart silent_none rfl
  | attach =>
    cases done
    exact .apart silent_none rfl

theorem addServerCall_outlook {type : BitVec 16} {server : ServerStatus} {addr : Nat}
    {next : Announcing} (done : addServerCall proto around sys type server addr next = some progress) :
    Outlook proto sys (some (.addServer type server addr next)) progress := by
  cases next with
  | addNode =>
    simp only [addServerCall] at done
    split at done
    · cases done
      exact .apart silent_none rfl
    · cases done
      exact .waits silent_none rfl
  | setAddrs node =>
    obtain ⟨-, rfl⟩ := setAddrs_eq done
    exact .waits silent_none rfl
  | setNodeInfo node | setState node | setCb node | attach node =>
    obtain ⟨after, -, rfl⟩ := Option.map_eq_some_iff.mp done
    exact .waits silent_none rfl
  | request => exact request_outlook rfl rfl done

theorem handlerCall_outlook {handler : Handler}
    (done : handlerCall proto around sys handler = some progress) :
    Outlook proto sys (some handler) progress := by
  cases handler with
  | fail addr next =>
    cases next with
    | setState state =>
      obtain ⟨after, -, rfl⟩ := Option.map_eq_some_iff.mp done
      exact .apart silent_none rfl
    | delFileEvent | closeConnection =>
      obtain ⟨conn, -, rfl⟩ := Option.map_eq_some_iff.mp done
      exact .apart silent_none rfl
  | write addr next =>
    cases next with
    | empty =>
      obtain ⟨conn, -, done⟩ := Option.bind_eq_some_iff.mp done
      obtain ⟨drained, -, done⟩ := Option.bind_eq_some_iff.mp done
      cases done
      cases drained <;> exact .apart silent_none rfl
    | delFileEvent =>
      obtain ⟨conn, -, rfl⟩ := Option.map_eq_some_iff.mp done
      exact .apart silent_none rfl
  | authenticationReq addr sid nid next =>
    cases next with
    | setState =>
      obtain ⟨after, -, rfl⟩ := Option.map_eq_some_iff.mp done
      exact .apart silent_none rfl
    | sendSock => exact reply_outlook done
  | authenticationRsp addr =>
    obtain ⟨after, -, rfl⟩ := Option.map_eq_some_iff.mp done
    exact .apart silent_none rfl
  | reconnect sid place addr next =>
    obtain ⟨node, found, called⟩ := Option.bind_eq_some_iff.mp done
    have same : node.addr = place := by simpa using List.find?_some found
    subst same
    exact reconnectCall_outlook called
  | giveUp sid old =>
    obtain ⟨after, -, rfl⟩ := Option.map_eq_some_iff.mp done
    split_ifs <;> exact .apart silent_none rfl
  | init =>
    simp only [handlerCall, Option.some.injEq] at done
    subst done
    split_ifs <;> exact .apart silent_none rfl
  | connect tries =>
    cases tries with
    | zero =>
      cases done
      exact .apart silent_none rfl
    | succ tries =>
      obtain ⟨⟨net, new⟩, -, done⟩ := Option.bind_eq_some_iff.mp done
      cases new with
      | none =>
        cases done
        exact .apart silent_none rfl
      | some addr =>
        cases done
        exact .apart (silent_addFileEvent _ _) rfl
  | registReq addr next =>
    cases next with
    | setAddrs =>
      obtain ⟨-, rfl⟩ := setAddrs_eq done
      exact .apart silent_none rfl
    | setNodeInfo | setState =>
      obtain ⟨after, -, rfl⟩ := Option.map_eq_some_iff.mp done
      exact .apart silent_none rfl
    | addNode =>
      obtain ⟨added, -, done⟩ := Option.bind_eq_some_iff.mp done
      obtain ⟨ip, -, done⟩ := Option.bind_eq_some_iff.mp done
      cases done
      exact .apart silent_none rfl
    | sendSock => exact reply_outlook done
  | addServer type server addr next => exact addServerCall_outlook done

theorem opened_new {net after : Net} {fd : Int} {f : Connection → Connection} {addr : Nat}
    (opens : opened net fd f = some (after, some addr)) : addr = net.next := by
  unfold opened at opens
  split_ifs at opens
  · cases opens
    rfl
  · cases opens

theorem visit_outlook {sid : BitVec 16} {place : Nat}
    (done : visit around sys sid place = some progress) : Outlook proto sys none progress := by
  obtain ⟨node, found, visited⟩ := Option.bind_eq_some_iff.mp done
  split_ifs at visited with lost tries
  · obtain ⟨⟨net, new⟩, opens, rest⟩ := Option.bind_eq_some_iff.mp visited
    cases new with
    | none =>
      cases rest
      exact .apart silent_none rfl
    | some addr =>
      cases rest
      exact .opens (silent_addFileEvent _ _) (congrArg some (opened_new opens))
  · cases visited
    exact .apart silent_none rfl
  · cases visited
    exact .apart silent_none rfl

theorem announce_outlook {type : BitVec 16} {server : ServerStatus} {more : Bool}
    (done : announce around sys type server = some (progress, more)) :
    Outlook proto sys none progress := by
  unfold announce at done
  split_ifs at done
  · cases done
    exact .apart silent_none rfl
  · obtain ⟨⟨net, new⟩, opens, rest⟩ := Option.bind_eq_some_iff.mp done
    cases new with
    | none =>
      cases rest
      exact .apart silent_none rfl
    | some addr =>
      cases rest
      exact .opens (silent_addFileEvent _ _) (congrArg some (opened_new opens))

end Calls

section Steps
variable {proto : Proto} {machine next : Machine}

theorem step_used {event : Event} (held : Held machine)
    (done : step proto machine event = some next) :
    machine.sys.net.next ≤ next.sys.net.next := by
  obtain ⟨view, sees, stands⟩ := held
  obtain ⟨after, seesNext, -, released⟩ := step_onward sees stands done
  rw [sees.next, seesNext.next]
  exact released.used

theorem used_of_deref (held : Held machine) {addr : Nat} {conn : Connection}
    (found : machine.sys.net.deref addr = some conn) : addr < machine.sys.net.next := by
  obtain ⟨view, sees, -⟩ := held
  exact sees.net.lt_next (sees.net.of_deref found)

/-- A step at which the kernel gets nothing. -/
theorem Ordered.keeps (ordered : Ordered proto machine) (next : Machine)
    (given : next.given = machine.given) (complete : next.complete = machine.complete)
    (used : machine.sys.net.next ≤ next.sys.net.next)
    (waits : ∀ addr, awaiting next.handler = some addr → Unsent machine addr)
    (sends : ∀ addr msg pos, next.call = some (.sendBlock addr msg pos) →
      Sending proto next addr msg pos) : Ordered proto next where
  fresh := by
    intro addr unused
    obtain ⟨empty, incomplete⟩ := ordered.fresh addr (used.trans unused)
    exact ⟨by rw [given, empty], by rw [complete, incomplete]⟩
  waits := by
    intro addr awaited
    obtain ⟨empty, incomplete⟩ := waits addr awaited
    exact ⟨by rw [given, empty], by rw [complete, incomplete]⟩
  sends := sends
  first := by
    intro addr msg done
    rw [given]
    rw [complete] at done
    exact ordered.first addr msg done

theorem Ordered.goOn (ordered : Ordered proto machine) (held : Held machine) {progress : Progress}
    {loops : List Loop} (outlook : Outlook proto machine.sys machine.handler progress)
    (used : machine.sys.net.next ≤ progress.sys.net.next) :
    Ordered proto (machine.goOn loops progress) := by
  apply ordered.keeps (machine.goOn loops progress) rfl rfl used
  · intro addr awaited
    cases outlook with
    | apart silent none => cases none.symm.trans awaited
    | waits silent same => exact ordered.waits addr (same.symm.trans awaited)
    | opens silent new =>
      cases new.symm.trans awaited
      exact ordered.fresh _ le_rfl
    | begins awaits found none => cases none.symm.trans awaited
  · intro addr msg pos calls
    cases outlook with
    | apart silent => exact absurd calls (silent addr msg pos)
    | waits silent => exact absurd calls (silent addr msg pos)
    | opens silent => exact absurd calls (silent addr msg pos)
    | begins awaited found none call =>
      obtain ⟨request, same, built⟩ := call _ calls
      cases same
      obtain ⟨empty, incomplete⟩ := ordered.waits addr awaited
      refine ⟨(used_of_deref held found).trans_le used, none, built, incomplete, ?_, ?_⟩
      · intro sent inside
        change sent ∈ machine.given addr at inside
        rw [empty] at inside
        cases inside
      · change (machine.given addr).flatMap Sent.bytes = _
        rw [empty]
        rfl

theorem Sending.first {addr pos : Nat} {msg : IMString}
    (sending : Sending proto machine addr msg pos) (complete : msg.mLen = pos) :
    First proto (machine.given addr) msg := by
  refine ⟨sending.request, machine.given addr, [], (List.append_nil _).symm, ?_,
    sending.requests, ?_⟩
  · rw [sending.bytes]
    apply List.take_of_length_le
    rw [IMString.bytes, complete, Int.toNat_natCast]
    exact List.length_take_le ..
  · intro sent inside
    exact absurd inside List.not_mem_nil

/-- The kernel takes some of the bytes that are left. -/
theorem Sending.accept {addr pos : Nat} {msg : IMString}
    (sending : Sending proto machine addr msg pos) (count : Nat) {call : Option Call} :
    Sending proto { machine with
        call := call
        given := Function.update machine.given addr
          (machine.given addr ++ [.request ((msg.bytes.drop pos).take count)]) }
      addr msg (pos + ((msg.bytes.drop pos).take count).length) where
  used := sending.used
  alone := sending.alone
  request := sending.request
  incomplete := sending.incomplete
  requests := by
    intro sent inside
    dsimp only at inside
    rw [Function.update_self] at inside
    rcases List.mem_append.mp inside with before | new
    · exact sending.requests sent before
    · rw [List.mem_singleton.mp new]
      rfl
  bytes := by
    have accepted : (msg.bytes.drop pos).take ((msg.bytes.drop pos).take count).length =
        (msg.bytes.drop pos).take count := by
      rw [List.length_take, ← List.take_take, List.take_length]
    dsimp only
    rw [Function.update_self, List.flatMap_append, sending.bytes, List.take_add, accepted]
    simp [Sent.bytes]

/-- A turn of the loop of `sendBlock`. -/
theorem Ordered.sendBlock (ordered : Ordered proto machine) {addr pos : Nat} {msg : IMString}
    (sending : Sending proto machine addr msg pos)
    (call : machine.call = some (.sendBlock addr msg pos)) (outcome : SendResult) :
    Ordered proto (machine.sendBlock outcome addr msg pos) := by
  have gives : ∀ next : Machine, next.given = machine.given → next.complete = machine.complete →
      next.sys = machine.sys → next.handler = machine.handler → next.call = none →
      Ordered proto next := by
    intro next given complete sys handler ended
    apply ordered.keeps next given complete (by rw [sys])
    · intro other awaited
      exact ordered.waits other (handler ▸ awaited)
    · intro other request at_ calls
      cases ended.symm.trans calls
  have idle : ∀ other, awaiting machine.handler ≠ some other := by
    intro other awaited
    cases sending.alone.symm.trans awaited
  unfold Machine.sendBlock
  split_ifs with complete
  · refine ⟨fun other unused => ?_, fun other awaited => absurd awaited (idle other),
      silent_none.sends, ?_⟩
    · have apart : other ≠ addr := (sending.used.trans_le unused).ne'
      obtain ⟨empty, incomplete⟩ := ordered.fresh other unused
      exact ⟨empty, (Function.update_of_ne apart ..).trans incomplete⟩
    · intro other sent done
      by_cases same : other = addr
      · subst same
        cases (Function.update_self ..).symm.trans done
        exact sending.first complete
      · exact ordered.first other sent ((Function.update_of_ne same ..).symm.trans done)
  · split
    · next count =>
      dsimp only
      split_ifs with nothing
      · exact gives _ rfl rfl rfl rfl rfl
      · refine ⟨fun other unused => ?_, fun other awaited => absurd awaited (idle other), ?_, ?_⟩
        · have apart : other ≠ addr := (sending.used.trans_le unused).ne'
          obtain ⟨empty, incomplete⟩ := ordered.fresh other unused
          exact ⟨(Function.update_of_ne apart ..).trans empty, incomplete⟩
        · intro other sent at_ calls
          cases calls
          exact sending.accept count
        · intro other sent done
          have apart : other ≠ addr := by
            rintro rfl
            cases sending.incomplete.symm.trans done
          have first := ordered.first other sent done
          rwa [← Function.update_of_ne apart (machine.given addr ++ _) machine.given] at first
    · exact gives _ rfl rfl rfl rfl rfl
    · exact ordered

theorem go_ordered {around : Surroundings} (held : Held machine) (ordered : Ordered proto machine)
    (done : machine.go proto around = some next)
    (used : machine.sys.net.next ≤ next.sys.net.next) : Ordered proto next := by
  obtain ⟨sys, call, handler, loops, given, complete⟩ := machine
  cases call with
  | some call =>
    cases call with
    | addFileEvent fd mask =>
      cases done
      exact ordered.keeps _ rfl rfl used ordered.waits
        silent_none.sends
    | sendBlock addr msg pos =>
      cases done
      exact ordered.sendBlock (ordered.sends addr msg pos rfl) rfl around.outcome
  | none =>
    cases handler with
    | some handler =>
      obtain ⟨progress, called, rfl⟩ := Option.map_eq_some_iff.mp done
      exact ordered.goOn held (handlerCall_outlook called) used
    | none =>
      cases loops with
      | nil => cases done
      | cons loop rest =>
        cases loop with
        | parse addr => cases done
        | checkState sid places =>
          cases places with
          | nil =>
            cases done
            exact ordered.keeps _ rfl rfl used (fun addr same => absurd same (unawaited addr))
              silent_none.sends
          | cons place places =>
            obtain ⟨progress, visited, rfl⟩ := Option.map_eq_some_iff.mp done
            exact ordered.goOn held (visit_outlook visited) used
        | srvinfoBroadcast servers =>
          cases servers with
          | nil =>
            cases done
            exact ordered.keeps _ rfl rfl used (fun addr same => absurd same (unawaited addr))
              silent_none.sends
          | cons server servers =>
            obtain ⟨⟨progress, more⟩, announced, rfl⟩ := Option.map_eq_some_iff.mp done
            exact ordered.goOn held (announce_outlook announced) used

/-- A write callback, which starts when no other callback runs. -/
theorem Ordered.queued (ordered : Ordered proto machine) (noCall : machine.call = none)
    (noHandler : machine.handler = none) {addr : Nat} (below : addr < machine.sys.net.next)
    (bytes : List Byte) : Ordered proto { machine with
      given := Function.update machine.given addr (machine.given addr ++ [.queued bytes]) } where
  fresh := by
    intro other unused
    obtain ⟨empty, incomplete⟩ := ordered.fresh other unused
    exact ⟨(Function.update_of_ne (below.trans_le unused).ne' ..).trans empty, incomplete⟩
  waits := by
    intro other awaited
    rw [noHandler] at awaited
    cases awaited
  sends := by
    intro other msg pos calls
    cases noCall.symm.trans calls
  first := by
    intro other msg done
    obtain ⟨request, first, rest, whole, begins, requests, queued⟩ := ordered.first other msg done
    refine ⟨request, ?_⟩
    dsimp only
    by_cases same : other = addr
    · subst same
      refine ⟨first, rest ++ [.queued bytes], ?_, begins, requests, ?_⟩
      · rw [Function.update_self, whole, List.append_assoc]
      · intro sent inside
        rcases List.mem_append.mp inside with before | new
        · exact queued sent before
        · rw [List.mem_singleton.mp new]
          rfl
    · exact ⟨first, rest, (Function.update_of_ne same ..).trans whole, begins, requests, queued⟩

theorem begin_ordered {event : Event} (held : Held machine) (ordered : Ordered proto machine)
    (noCall : machine.call = none) (noHandler : machine.handler = none)
    (done : machine.begin proto event = some next)
    (used : machine.sys.net.next ≤ next.sys.net.next) : Ordered proto next := by
  cases event with
  | listen fd =>
    obtain ⟨⟨net, new⟩, -, rfl⟩ := Option.map_eq_some_iff.mp done
    exact ordered.goOn held (.apart (silent_added new _ _) rfl) used
  | accept event =>
    simp only [Machine.begin] at done
    split_ifs at done
    · obtain ⟨⟨net, new⟩, -, rfl⟩ := Option.map_eq_some_iff.mp done
      exact ordered.goOn held (.apart (silent_added new _ _) rfl) used
    · cases done
      exact ordered
  | read addr event =>
    obtain ⟨conn, found, done⟩ := Option.bind_eq_some_iff.mp done
    dsimp only at done
    split_ifs at done
    split at done
    · cases done
      exact ordered.goOn held (.apart silent_none rfl) used
    · cases done
      exact ordered.goOn held (.apart silent_none rfl) used
    · cases done
  | write addr outcomes =>
    obtain ⟨conn, found, done⟩ := Option.bind_eq_some_iff.mp done
    obtain ⟨⟨net, result, accepted⟩, written, done⟩ := Option.bind_eq_some_iff.mp done
    dsimp only at done
    split_ifs at done
    have queued := ordered.queued noCall noHandler (used_of_deref held found) accepted
    split at done
    · cases done
    · cases done
      exact queued.goOn held (.apart silent_none rfl) used
    · cases done
      exact queued.goOn held (.apart silent_none rfl) used
    · cases done
      exact queued.goOn held (.apart silent_none rfl) used
  | checkState service =>
    obtain ⟨snode, -, rfl⟩ := Option.map_eq_some_iff.mp done
    exact ordered.keeps _ rfl rfl used ordered.waits
      (silent_of_none noCall).sends
  | registReq =>
    cases done
    exact ordered.keeps _ rfl rfl used (fun addr same => absurd same (unawaited addr))
      (silent_of_none noCall).sends
  | sendSock | sendNode | sendDb | sendState | authenticationReq | authenticationRsp
  | srvinfoBroadcast | parsed | go => cases done

theorem message_ordered {addr : Nat} {rest : List Loop} {event : Event} (held : Held machine)
    (ordered : Ordered proto machine) (noCall : machine.call = none)
    (done : machine.message proto addr rest event = some next)
    (used : machine.sys.net.next ≤ next.sys.net.next) : Ordered proto next := by
  have within : ∀ loops, Ordered proto { machine with loops := loops } := by
    intro loops
    refine ordered.keeps { machine with loops := loops } rfl rfl le_rfl ordered.waits ?_
    exact (silent_of_none noCall).sends
  cases event with
  | authenticationReq msg =>
    simp only [Machine.message] at done
    split at done
    · cases done
      exact ordered
    · obtain ⟨sys, -, rfl⟩ := Option.map_eq_some_iff.mp done
      exact ordered.goOn held (.apart silent_none rfl) used
  | authenticationRsp msg =>
    simp only [Machine.message] at done
    split at done
    · cases done
      exact ordered
    · cases done
      split
      · exact ordered
      · exact ordered.goOn held (.apart silent_none rfl) le_rfl
  | srvinfoBroadcast msg =>
    simp only [Machine.message] at done
    split at done
    · cases done
      exact ordered
    · cases done
      exact within _
  | parsed =>
    cases done
    exact within _
  | sendSock | sendNode | sendDb | sendState | listen | accept | read | write | checkState
  | registReq | go => cases done

theorem sender_ordered (ordered : Ordered proto machine) {sent : Option (Int × Net)}
    (done : machine.sender sent = some next)
    (used : machine.sys.net.next ≤ next.sys.net.next) : Ordered proto next := by
  obtain ⟨both, -, rfl⟩ := Option.map_eq_some_iff.mp done
  refine ordered.keeps { machine with sys := { machine.sys with net := both.2 } } rfl rfl used
    ordered.waits ?_
  intro addr msg pos calls
  obtain ⟨below, alone, request, incomplete, requests, bytes⟩ := ordered.sends addr msg pos calls
  exact ⟨below.trans_le used, alone, request, incomplete, requests, bytes⟩

theorem step_ordered {event : Event} (held : Held machine) (ordered : Ordered proto machine)
    (done : step proto machine event = some next) : Ordered proto next := by
  have used := step_used held done
  rcases step_cases done with ⟨isTarget, arms, msg, safe, done⟩ | ⟨around, done⟩ |
    ⟨noCall, noHandler, ⟨-, done⟩ | ⟨addr, rest, -, done⟩⟩
  · exact sender_ordered ordered done used
  · exact go_ordered held ordered done used
  · exact begin_ordered held ordered noCall noHandler done used
  · exact message_ordered held ordered noCall done used

theorem run_ordered {types : List (BitVec 16)} {events : List Event}
    (reached : run (step proto) (Machine.idle (start types)) events = some machine) :
    Ordered proto machine := by
  have both : Held machine ∧ Ordered proto machine := by
    apply run_invariant (fun machine => Held machine ∧ Ordered proto machine) _ _ reached
    · rintro before event after ⟨held, ordered⟩ done
      exact ⟨step_held held done, step_ordered held ordered done⟩
    · refine ⟨idle_held types, fun _ _ => ⟨rfl, rfl⟩, fun addr same => absurd same (unawaited addr),
        silent_none.sends, fun addr msg same => ?_⟩
      cases same
  exact both.2

end Steps

/-- Authentication goes first: when `sendBlock` has sent a request, the bytes that the kernel took
on that connection begin with it, and all others are of the queue. -/
theorem request_goes_first (proto : Proto) (types : List (BitVec 16)) (events : List Event)
    (machine : Machine)
    (reached : run (step proto) (Machine.idle (start types)) events = some machine) (addr : Nat)
    (msg : IMString) (sent : machine.complete addr = some msg) :
    First proto (machine.given addr) msg :=
  (run_ordered reached).first addr msg sent

/-- The outside of a call, with the descriptor of a connect and the outcome of a send. -/
def outside (fd : Int) (outcome : SendResult) : Surroundings :=
  ⟨fd, ⟨true, fun _ => 0⟩, false, [], outcome⟩

def calls (count : Nat) : List Event := List.replicate count (.go (outside 0 (.sent 0)))

/-- A read hands on the push of a database server. While its connection is set up a message is
queued for it, the request goes out in two pieces, and then the message. -/
def pushedServer : List Event :=
  [.accept ⟨7, true, true⟩] ++ calls 1 ++
    [.read 0 ⟨[.failed .EAGAIN], fun _ => ⟨⟨true, fun _ => 0⟩, 0⟩, 0⟩,
      .srvinfoBroadcast (withBody [8, 1, 16, 7, 24, 3]), .go (outside 5 (.sent 0))] ++
    calls 5 ++ [.sendNode (withBody [1, 2]) 7] ++ calls 3 ++
    [.go (outside 0 (.sent 10)), .go (outside 0 (.failed .EAGAIN)), .go (outside 0 (.sent 100))] ++
    calls 2 ++ [.parsed, .write 1 [.sent 100]]

theorem request_goes_first_pushed : ∃ machine,
    run (step smallMessages) (Machine.idle (start [3])) pushedServer = some machine ∧
      ∃ msg, machine.complete 1 = some msg ∧ First smallMessages (machine.given 1) msg := by
  have ends : ((run (step smallMessages) (Machine.idle (start [3])) pushedServer).bind
      fun machine =>
      machine.complete 1).isSome := by decide +kernel
  obtain ⟨msg, answered⟩ := Option.isSome_iff_exists.mp ends
  obtain ⟨machine, reached, sent⟩ := Option.bind_eq_some_iff.mp answered
  exact ⟨machine, reached, msg, sent,
    request_goes_first smallMessages [3] pushedServer machine reached 1 msg sent⟩

end SNFrame.System.FirstBytes
