import SNFrame.Base.Representation
import SNFrame.System.Ownership

/-! Where a send function puts a message, with the message as an object of its caller. -/

namespace SNFrame.Send.Routing
open Library.Table Base Base.IMString Base.BufferCustody Base.Representation Core.Receiving
open Core.TcpParse Core.NetManager System.Ownership

/-- The connection table and the objects of the program: the elements of a queue are objects, and
its messages are their values. -/
structure Memory where
  net : Net
  store : Store

/-- `Connection::push`: the queue takes the buffer of the caller's message. -/
def push (memory : Memory) (queue : Nat) (caller parameter element : Place) : Option Memory := do
  let msg ← value memory.store caller
  let net ← memory.net.push queue msg
  let store ← IMString.push memory.store queue caller parameter element
  some ⟨net, store⟩

/-- The four send functions, as in the class NetManager but with the caller's object. -/
def sendFirst (memory : Memory) (isTarget : Connection → Bool) (arms : ConnState → Bool)
    (caller parameter element : Place) : Option (Int × Memory) :=
  match memory.net.conns.find? isTarget with
  | none => some (-1, memory)
  | some conn => (push memory conn.outBuffer caller parameter element).map fun memory =>
      (0, if arms conn.state then
        { memory with net := memory.net.addFileEvent conn.fd AE_WRITABLE } else memory)

/-- Which of the four functions is called, and for whom. -/
inductive Target where
  | sock (fd : Int)
  | node (nid : BitVec 32)
  | db
  | state

def Target.isTarget (sids : ServiceID) : Target → Connection → Bool
  | .sock fd => (·.fd = fd)
  | .node nid => (·.nid = nid)
  | .db => (·.sid = sids.SID_DB_PROXY)
  | .state => (·.sid = sids.SID_USER_STATE)

def Target.arms : Target → ConnState → Bool
  | .sock _ => (· = .STATE_CONNECTED)
  | .node _ | .db | .state => Net.connectedOrAuth

section Functions
variable (sids : ServiceID) (memory : Memory) (caller parameter element : Place)

def sendSock (fd : Int) : Option (Int × Memory) :=
  sendFirst memory ((Target.sock fd).isTarget sids) (Target.sock fd).arms caller parameter element

def sendNode (nid : BitVec 32) : Option (Int × Memory) :=
  sendFirst memory ((Target.node nid).isTarget sids) (Target.node nid).arms caller parameter element

def sendDb : Option (Int × Memory) :=
  sendFirst memory (Target.db.isTarget sids) Target.db.arms caller parameter element

def sendState : Option (Int × Memory) :=
  sendFirst memory (Target.state.isTarget sids) Target.state.arms caller parameter element

end Functions

/-- The messages of the queues are the values of their elements. -/
def Agrees (memory : Memory) : Prop :=
  ∀ queue msgs, memory.net.queues queue = some msgs →
    (memory.store.queues queue).map (value memory.store) = msgs.map some

/-! ### The queue and the caller -/

section Queue
variable {store next : Store}

theorem copyConstruct_queues {place rhs : Place} (done : copyConstruct store place rhs = some next) :
    next.queues = store.queues := by
  obtain ⟨object, -, last⟩ := Option.bind_eq_some_iff.mp done
  cases last
  rfl

theorem destroy_queues {place : Place} (done : destroy store place = some next) :
    next.queues = store.queues := by
  obtain ⟨self, -, freed⟩ := Option.bind_eq_some_iff.mp done
  obtain ⟨blocks, -, last⟩ := Option.bind_eq_some_iff.mp freed
  cases last
  rfl

/-- A push hands the value of the caller's object on to the new element. -/
theorem push_value (inv : Inv store) {queue : Nat} {caller parameter element : Place}
    (admitted : Admitted store (.push queue caller parameter element)) :
    ∃ msg next, value store caller = some msg ∧
      IMString.push store queue caller parameter element = some next ∧ Inv next ∧
      Pushed queue caller element store next ∧
      next.queues = Function.update store.queues queue (store.queues queue ++ [element]) ∧
      value next element = some msg ∧ value next caller = some (movedFrom msg) ∧
      ∀ other, Live store other → other ≠ caller → value next other = value store other := by
  obtain ⟨next, done, after, pushed⟩ := push_spec inv admitted
  obtain ⟨source, deadParameter, deadElement, distinct⟩ := admitted
  obtain ⟨object, here⟩ := Option.isSome_iff_exists.mp source.live
  have callerParameter : parameter ≠ caller := by rintro rfl; exact deadParameter source.live
  have callerElement : element ≠ caller := by rintro rfl; exact deadElement source.live
  obtain ⟨first, copied, moves⟩ := copyConstruct_moves ⟨inv.sole, inv.nonneg⟩ here callerParameter
  obtain ⟨moved, inParameter, sameValue⟩ := Option.map_eq_some_iff.mp moves.here
  obtain ⟨second, copied', moves'⟩ :=
    copyConstruct_moves moves.kept inParameter distinct.symm
  rw [sameValue] at moves'
  have keptPushed : Kept (second.setQueue queue (second.queues queue ++ [element])) :=
    ⟨moves'.kept.sole, moves'.kept.nonneg⟩
  have liveParameter : Live (second.setQueue queue (second.queues queue ++ [element])) parameter := by
    obtain ⟨left, there, -⟩ := Option.map_eq_some_iff.mp moves'.there
    exact Option.isSome_iff_exists.mpr ⟨left, there⟩
  obtain ⟨last, destroyed, -, -, others⟩ := destroy_value keptPushed liveParameter
  have same : last = next := by
    rw [IMString.push, copied] at done
    simp only [Option.bind_eq_bind, Option.bind_some, copied'] at done
    exact Option.some.inj (destroyed.symm.trans done)
  subst same
  refine ⟨_, last, by rw [value, here, Option.map_some], done, after, pushed, ?_, ?_, ?_, ?_⟩
  · rw [destroy_queues destroyed]
    simp only [Store.setQueue, copyConstruct_queues copied', copyConstruct_queues copied]
  · exact (others element distinct.symm).trans moves'.here
  · exact (others caller callerParameter.symm).trans
      ((moves'.others caller callerElement.symm callerParameter.symm).trans moves.there)
  · intro other live apart
    have notParameter : other ≠ parameter := by rintro rfl; exact deadParameter live
    have notElement : other ≠ element := by rintro rfl; exact deadElement live
    exact (others other notParameter).trans ((moves'.others other notElement notParameter).trans
      (moves.others other notParameter apart))

end Queue

/-! ### The table -/

/-- The connection after a send: it may have gained AE_WRITABLE. -/
def gained (arms : ConnState → Bool) (conn : Connection) : Connection :=
  if arms conn.state = true ∧ conn.evs &&& AE_WRITABLE = 0 then
    { conn with evs := conn.evs ||| AE_WRITABLE, wevent := true }
  else conn

theorem gained_eq (arms : ConnState → Bool) (conn : Connection) :
    gained arms conn = if arms conn.state then withEvent AE_WRITABLE conn else conn := by
  have readable : ¬AE_WRITABLE &&& AE_READABLE ≠ 0 := by decide
  have writable : AE_WRITABLE &&& AE_WRITABLE ≠ 0 := by decide
  by_cases arm : arms conn.state = true
  · by_cases armed : conn.evs &&& AE_WRITABLE = 0
    · rw [gained, if_pos ⟨arm, armed⟩, if_pos arm, withEvent, if_neg (not_not.mpr armed),
        Connection.addEvent, if_neg readable, if_pos writable]
    · rw [gained, if_neg fun both => armed both.2, if_pos arm, withEvent, if_pos armed]
  · rw [gained, if_neg fun both => arm both.1, if_neg arm]

section Split
variable {net : Net} {before after : List Connection} {conn : Connection}

/-- The second search, by the descriptor, lands on the same connection. -/
theorem addFileEvent_split (wf : Wf net) (split : net.conns = before ++ conn :: after)
    (mask : BitVec 16) : net.addFileEvent conn.fd mask =
      { net with conns := before ++ withEvent mask conn :: after } := by
  have inside : conn ∈ net.conns := by
    rw [split]
    exact List.mem_append_cons_self
  have found : net.findFd conn.fd = some conn := find?_of_mem wf.fds inside
  have distinct := wf.addrs
  rw [split] at distinct
  rw [Net.addFileEvent, found]
  simp only [withEvent]
  split_ifs with armed
  · rw [← split]
  · rw [Net.assign, split, update_split distinct]

/-- What a send does to the table: the queue of the connection has the message at its end, and the
connection may be armed. -/
theorem sendFirst_split (wf : Wf net) (split : net.conns = before ++ conn :: after)
    {isTarget : Connection → Bool} (arms : ConnState → Bool) (msg : Base.PbBuf.IMString)
    (found : net.conns.find? isTarget = some conn) :
    ∃ msgs next, net.queues conn.outBuffer = some msgs ∧
      net.sendFirst isTarget arms msg = some (0, next) ∧
      next.conns = before ++ gained arms conn :: after ∧
      next.queues = Function.update net.queues conn.outBuffer (some (msgs ++ [msg])) := by
  have inside := List.mem_of_find?_eq_some found
  obtain ⟨msgs, queued⟩ := Option.isSome_iff_exists.mp (wf.queued conn inside)
  obtain ⟨queue, here⟩ := wf.shows.exists_of_mem inside
  have pushed : net.push conn.outBuffer msg =
      some (setQueue net conn.outBuffer (msgs ++ [msg])) := by
    rw [Net.push, queued, Option.map_some, setQueue]
  have wf' : Wf (setQueue net conn.outBuffer (msgs ++ [msg])) :=
    (setQueue_shows wf.shows here (msgs ++ [msg])).wf
  simp only [Net.sendFirst, found, pushed, Option.map_some, gained_eq]
  refine ⟨msgs, _, queued, rfl, ?_⟩
  by_cases arm : arms conn.state = true
  · rw [if_pos arm, if_pos arm, addFileEvent_split wf' split]
    exact ⟨rfl, rfl⟩
  · rw [if_neg arm, if_neg arm, ← split]
    exact ⟨rfl, rfl⟩

/-- The other connections have queues of their own. -/
theorem outBuffer_apart (wf : Wf net) (split : net.conns = before ++ conn :: after)
    {other : Connection} (elsewhere : other ∈ before ++ after) :
    other.outBuffer ≠ conn.outBuffer := by
  intro same
  have distinct := wf.addrs
  have addrs := wf.outBuffers other (by simp [split, or_left_comm, List.mem_append.mp elsewhere])
    conn (by simp [split]) same
  rw [split, List.map_append, List.map_cons, List.nodup_middle, List.nodup_cons,
    ← List.map_append, ← addrs] at distinct
  exact distinct.1 (List.mem_map_of_mem elsewhere)

end Split

/-! ### The routing -/

/-- A message that went to one connection, the first that matches: its queue grew at the end by
this message, it may have been armed, and the buffer is that of the new element. -/
structure Routed (sids : ServiceID) (memory next : Memory) (target : Target)
    (caller element : Place) (msg : Base.PbBuf.IMString) (before : List Connection)
    (conn : Connection) (after : List Connection) : Prop where
  split : memory.net.conns = before ++ conn :: after
  found : target.isTarget sids conn = true
  first : ∀ other ∈ before, target.isTarget sids other = false
  conns : next.net.conns = before ++ gained target.arms conn :: after
  grows : ∃ msgs, memory.net.queues conn.outBuffer = some msgs ∧
    next.net.queues conn.outBuffer = some (msgs ++ [msg])
  others : ∀ other ∈ before ++ after,
    next.net.queues other.outBuffer = memory.net.queues other.outBuffer
  handed : Pushed conn.outBuffer caller element memory.store next.store

/-- A message that went nowhere. -/
def Refused (sids : ServiceID) (memory next : Memory) (target : Target) : Prop :=
  (∀ conn ∈ memory.net.conns, target.isTarget sids conn = false) ∧ next = memory

def Target.send (sids : ServiceID) (memory : Memory) (caller parameter element : Place) :
    Target → Option (Int × Memory)
  | .sock fd => sendSock sids memory caller parameter element fd
  | .node nid => sendNode sids memory caller parameter element nid
  | .db => sendDb sids memory caller parameter element
  | .state => sendState sids memory caller parameter element

theorem send_eq (sids : ServiceID) (memory : Memory) (caller parameter element : Place)
    (target : Target) : target.send sids memory caller parameter element =
      sendFirst memory (target.isTarget sids) target.arms caller parameter element := by
  cases target <;> rfl

section Sends
variable {sids : ServiceID} {memory : Memory} {caller parameter element : Place}

/-- The functions do to the table what those of the class NetManager do with the value of the
caller's object. -/
theorem sendFirst_eq {isTarget : Connection → Bool} {arms : ConnState → Bool} {conn : Connection}
    {msg : Base.PbBuf.IMString} (read : value memory.store caller = some msg)
    (found : memory.net.conns.find? isTarget = some conn) :
    sendFirst memory isTarget arms caller parameter element =
      (memory.net.sendFirst isTarget arms msg).bind fun sent =>
        (IMString.push memory.store conn.outBuffer caller parameter element).map fun store =>
          (sent.1, ⟨sent.2, store⟩) := by
  simp only [sendFirst, Net.sendFirst, push, found, read, Option.bind_eq_bind, Option.bind_some]
  cases memory.net.push conn.outBuffer msg with
  | none => rfl
  | some net =>
    simp only [Option.bind_some, Option.map_some]
    cases IMString.push memory.store conn.outBuffer caller parameter element with
    | none => rfl
    | some store =>
      by_cases arm : arms conn.state = true
      · simp [arm]
      · simp [arm]

/-- The elements of the queues still have the messages as their values. -/
theorem agrees_push {next : Memory} {queue : Nat} {msgs : List Base.PbBuf.IMString}
    {msg : Base.PbBuf.IMString} (inv : Inv memory.store) (agrees : Agrees memory)
    (passes : Variable memory.store caller) (queued : memory.net.queues queue = some msgs)
    (grown : next.net.queues = Function.update memory.net.queues queue (some (msgs ++ [msg])))
    (elements : next.store.queues =
      Function.update memory.store.queues queue (memory.store.queues queue ++ [element]))
    (here : value next.store element = some msg)
    (others : ∀ other, Live memory.store other → other ≠ caller →
      value next.store other = value memory.store other) : Agrees next := by
  have same : ∀ queue, (memory.store.queues queue).map (value next.store) =
      (memory.store.queues queue).map (value memory.store) := by
    intro queue
    apply List.map_congr_left
    intro old inside
    apply others old (inv.queued.live queue old inside)
    rintro rfl
    exact passes.outside queue inside
  intro other listed there
  rw [grown] at there
  rw [elements]
  by_cases equal : other = queue
  · subst equal
    rw [Function.update_self, Option.some.injEq] at there
    subst there
    rw [Function.update_self, List.map_append, List.map_append, same, agrees other msgs queued]
    simp [here]
  · rw [Function.update_of_ne equal] at there ⊢
    rw [same, agrees other listed there]

/-- Each of the four send functions gives the message to exactly one connection, the first that
matches, or finds none and changes nothing. -/
theorem routed_or_refused (wf : Wf memory.net) (inv : Inv memory.store) (agrees : Agrees memory)
    (passes : Admitted memory.store (.push 0 caller parameter element)) (target : Target) :
    ∃ msg answer next, value memory.store caller = some msg ∧
      target.send sids memory caller parameter element = some (answer, next) ∧
      Inv next.store ∧ Agrees next ∧
      (answer = 0 ∧ (∃ before conn after,
          Routed sids memory next target caller element msg before conn after) ∨
        answer = -1 ∧ Refused sids memory next target) := by
  cases found : memory.net.conns.find? (target.isTarget sids) with
  | none =>
    obtain ⟨object, here⟩ := Option.isSome_iff_exists.mp passes.1.live
    refine ⟨_, -1, memory, by rw [value, here, Option.map_some], ?_, inv, agrees, .inr ⟨rfl, ?_, rfl⟩⟩
    · rw [send_eq, sendFirst, found]
    · intro conn inside
      simpa using List.find?_eq_none.mp found conn inside
  | some conn =>
    obtain ⟨hit, before, after, split, earlier⟩ := List.find?_eq_some_iff_append.mp found
    have passes' : Admitted memory.store (.push conn.outBuffer caller parameter element) := passes
    obtain ⟨msg, store, read, pushes, kept, handed, elements, here, -, others⟩ :=
      push_value inv passes'
    obtain ⟨msgs, net, queued, sent, conns, queues⟩ :=
      sendFirst_split wf split target.arms msg found
    have done : target.send sids memory caller parameter element = some (0, ⟨net, store⟩) := by
      rw [send_eq, sendFirst_eq read found, sent, pushes, Option.bind_some, Option.map_some]
    refine ⟨msg, 0, ⟨net, store⟩, read, done, kept, ?_, .inl ⟨rfl, before, conn, after, ?_⟩⟩
    · exact agrees_push inv agrees passes.1 queued queues elements here others
    · constructor
      · exact split
      · exact hit
      · simpa using earlier
      · exact conns
      · exact ⟨msgs, queued, by rw [queues, Function.update_self]⟩
      · intro other elsewhere
        rw [queues, Function.update_of_ne (outBuffer_apart wf split elsewhere)]
      · exact handed

end Sends

/-- Two accepted connections, and a message with a block for the second one. -/
def waiting : Memory where
  net := (Net.empty.create 5).create 6
  store := (construct .empty 1).setBlocks (Function.update (fun _ => none) 200
    (some (List.replicate 128 0))) |>.setObject 1 (some ⟨some 200, 128, 0⟩)

theorem waiting_inv : Inv waiting.store := by
  have constructed : Admitted .empty (.construct 1) := by simp [Admitted, Live, Store.empty]
  obtain ⟨first, ⟨⟩, inv⟩ := step_spec empty_inv constructed
  have initialised : Admitted (construct .empty 1) (.init 1 ⟨some 200, fun _ => 0⟩) := by
    refine ⟨⟨by simp [Live, construct], by simp [construct, Store.empty]⟩, ?_⟩
    rintro p ⟨⟩
    exact ⟨by decide, .inl rfl⟩
  obtain ⟨second, ⟨⟩, inv'⟩ := step_spec inv initialised
  exact inv'

theorem waiting_agrees : Agrees waiting := by
  intro queue msgs queued
  change Function.update (Function.update Net.empty.queues 0 (some [])) 1 (some []) queue =
    some msgs at queued
  by_cases second : queue = 1
  · subst second
    cases queued
    rfl
  · rw [Function.update_of_ne second] at queued
    by_cases first : queue = 0
    · subst first
      cases queued
      rfl
    · rw [Function.update_of_ne first] at queued
      cases queued

theorem routed_or_refused_waiting :
    ∃ msg answer next, value waiting.store 1 = some msg ∧
      (Target.sock 6).send ⟨1, 2, 3, 4⟩ waiting 1 2 3 = some (answer, next) ∧
      Inv next.store ∧ Agrees next ∧
      (answer = 0 ∧ (∃ before conn after,
          Routed ⟨1, 2, 3, 4⟩ waiting next (.sock 6) 1 3 msg before conn after) ∨
        answer = -1 ∧ Refused ⟨1, 2, 3, 4⟩ waiting next (.sock 6)) := by
  have wf : Wf waiting.net := wf_create (wf_create empty_shows.wf rfl) rfl
  refine routed_or_refused wf waiting_inv waiting_agrees ?_ (.sock 6)
  refine ⟨⟨by simp [Live, waiting], by simp [waiting, construct, Store.empty]⟩, ?_, ?_, by decide⟩
  · simp [Live, waiting, construct, Store.empty]
  · simp [Live, waiting, construct, Store.empty]

end SNFrame.Send.Routing
